import StackScript.Proofs.Compile.Scoping
import StackScript.Proofs.Compile.Tables

/-! What generated code refers to. Generating code only enters into the tables, and every
string, function and global that the code names is in the tables behind it.
-/

namespace StackScript

open Generate

-----------------------------------------------------------------------------------------
-- References into tables
-----------------------------------------------------------------------------------------

/-- What the instruction names is in the tables. -/
def Instruction.RefersTo (symbols : Symbols) : Instruction → Prop
  | .push (.string index) => index.toNat < symbols.strings.entries.size
  | .push (.function id) => 0 < id.toNat ∧ id.toNat ≤ symbols.functions.size
  | .access .getGlobal slot => 0 < slot.toNat ∧ slot.toNat ≤ symbols.globals.size
  | .access .setGlobal slot => 0 < slot.toNat ∧ slot.toNat ≤ symbols.globals.size
  | _ => True

/-- What is in the tables stays there. -/
theorem Instruction.RefersTo.mono {before after : Symbols} {instruction : Instruction}
    (refers : instruction.RefersTo before) (begins : before.Begins after)
    : instruction.RefersTo after := by
  unfold RefersTo at refers ⊢
  split at refers
  · exact Nat.lt_of_lt_of_le refers begins.strings_size
  · exact ⟨refers.1, Nat.le_trans refers.2 begins.functions_size⟩
  · exact ⟨refers.1, Nat.le_trans refers.2 begins.globals_size⟩
  · exact ⟨refers.1, Nat.le_trans refers.2 begins.globals_size⟩
  · trivial

/-- While some code was generated the tables have grown, and they hold what the code names. -/
structure Refers (before : Symbols) (code : List Instruction) (after : Symbols) : Prop where
  grows : before.Grows after
  refers : before.WellFormed → ∀ instruction ∈ code, instruction.RefersTo after

namespace Refers

variable {before middle after : Symbols} {front back code : List Instruction}

theorem nil (symbols : Symbols) : Refers symbols [] symbols :=
  ⟨.refl, fun _ _ member => nomatch member⟩

/-- An instruction that names nothing. -/
theorem single {instruction : Instruction} (symbols : Symbols)
    (refers : instruction.RefersTo symbols)
    : Refers symbols [instruction] symbols := by
  refine ⟨.refl, fun _ other member => ?_⟩
  rw [List.mem_singleton.mp member]
  exact refers

theorem append (first : Refers before front middle) (second : Refers middle back after)
    : Refers before (front ++ back) after := by
  refine ⟨first.grows.trans second.grows, ?_⟩
  intro formed instruction member
  rcases List.mem_append.mp member with member | member
  · exact (first.refers formed instruction member).mono second.grows.begins
  · exact second.refers (formed.grows first.grows) instruction member

/-- Instructions that name nothing may stand in front of code. -/
theorem cons {instruction : Instruction} (code' : Refers before code after)
    (refers : instruction.RefersTo before)
    : Refers before (instruction :: code) after :=
  (single before refers).append code'

/-- Instructions that name nothing may stand behind code. -/
theorem snoc {instruction : Instruction} (code' : Refers before code after)
    (refers : instruction.RefersTo after)
    : Refers before (code ++ [instruction]) after :=
  code'.append (single after refers)

end Refers

-----------------------------------------------------------------------------------------
-- Pieces of code
-----------------------------------------------------------------------------------------

theorem Symbols.global_slot {symbols after : Symbols} {name : String} {slot : UInt8}
    (entered : symbols.global name = .ok (slot, after)) (formed : symbols.WellFormed)
    : 0 < slot.toNat ∧ after.globals[slot.toNat - 1]? = some name := by
  rcases Symbols.global_eq_ok entered with ⟨place, found, rfl, rfl⟩ | ⟨-, room, rfl, rfl⟩
  · have name' := Symbols.getElem?_of_idxOf? found
    have inside := (Array.getElem?_eq_some_iff.mp name').1
    have exact : (UInt8.ofNat (place + 1)).toNat = place + 1 :=
      UInt8.toNat_ofNat_of_lt (by have := formed.globals; change place + 1 < 256; omega)
    rw [exact]
    exact ⟨Nat.succ_pos place, name'⟩
  · have exact : (UInt8.ofNat (symbols.globals.size + 1)).toNat = symbols.globals.size + 1 :=
      UInt8.toNat_ofNat_of_lt (by change symbols.globals.size + 1 < 256; omega)
    rw [exact]
    refine ⟨Nat.succ_pos _, ?_⟩
    rw [Nat.add_sub_cancel, Array.getElem?_push_size]

/-- An access to a global names a slot of the table behind. -/
theorem Symbols.refers_of_global {symbols after : Symbols} {name : String} {slot : UInt8}
    {instruction : Instruction} (entered : symbols.global name = .ok (slot, after))
    (access : instruction = .access .getGlobal slot ∨ instruction = .access .setGlobal slot)
    : Refers symbols [instruction] after := by
  refine ⟨.single (.global entered), fun formed other member => ?_⟩
  rw [List.mem_singleton.mp member]
  obtain ⟨positive, found⟩ := Symbols.global_slot entered formed
  have inside := (Array.getElem?_eq_some_iff.mp found).1
  have range : 0 < slot.toNat ∧ slot.toNat ≤ after.globals.size := ⟨positive, by omega⟩
  rcases access with rfl | rfl <;> exact range

theorem load_refers {name : String} {scope : Scope} {symbols after : Symbols}
    {code : List Instruction} (loaded : load name scope symbols = .ok (code, after))
    : Refers symbols code after := by
  rcases load_eq_ok loaded with ⟨slot, -, rfl, rfl⟩ | ⟨slot, -, entered, rfl⟩
  · exact .single after trivial
  · exact Symbols.refers_of_global entered (.inl rfl)

theorem store_refers {name : String} {scope : Scope} {symbols after : Symbols}
    {code : List Instruction} (stored : store name scope symbols = .ok (code, after))
    : Refers symbols code after := by
  rcases store_eq_ok stored with ⟨slot, -, rfl, rfl⟩ | ⟨slot, -, entered, rfl⟩
  · exact .single after trivial
  · exact Symbols.refers_of_global entered (.inr rfl)

/-- The constant that a numeric literal means is no reference. -/
theorem Literal.numeric_refers {text : String} {constant : Constant} {symbols : Symbols}
    (read : Literal.numeric text = .ok constant)
    : (Instruction.push constant).RefersTo symbols := by
  unfold Literal.numeric at read
  split at read
  · split at read
    · cases read
      trivial
    · cases read
    · cases read
  · split at read
    · cases read
      trivial
    · cases read

theorem literal_refers {value : Literal} {symbols after : Symbols} {code : List Instruction}
    (generated : literal value symbols = .ok (code, after))
    : Refers symbols code after := by
  rcases literal_eq_ok generated with
    ⟨_, constant, -, read, rfl, rfl⟩ | ⟨_, place, -, entered, rfl⟩ | ⟨_, -, rfl, rfl⟩
    | ⟨-, rfl, rfl⟩
  · exact .single after (Literal.numeric_refers read)
  · refine ⟨.single (.string entered), fun _ other member => ?_⟩
    rw [List.mem_singleton.mp member]
    obtain ⟨index, rfl, found, -⟩ := Symbols.intern_eq_ok entered
    exact Nat.lt_of_le_of_lt (Nat.mod_le _ _) (Array.getElem?_eq_some_iff.mp found).1
  · exact .single after trivial
  · exact .single after trivial

theorem Symbols.refers_of_addFunction {symbols after : Symbols} {function : Function} {id : UInt8}
    (entered : symbols.addFunction function = .ok (id, after))
    : Refers symbols [.push (.function id)] after := by
  refine ⟨.single (.function entered), fun _ other member => ?_⟩
  rw [List.mem_singleton.mp member]
  obtain ⟨room, rfl, rfl⟩ := Symbols.addFunction_eq_ok entered
  have exact : (UInt8.ofNat (symbols.functions.size + 1)).toNat = symbols.functions.size + 1 :=
    UInt8.toNat_ofNat_of_lt (by change symbols.functions.size + 1 < 256; omega)
  simp only [Instruction.RefersTo, exact, Array.size_push]
  omega

theorem Refers.pops {before after : Symbols} {code : List Instruction}
    (code' : Refers before code after) (count : Nat)
    : Refers before (code ++ List.replicate count .pop) after := by
  refine code'.append ⟨.refl, fun _ instruction member => ?_⟩
  rw [List.eq_of_mem_replicate member]
  trivial

theorem closeScope_refers {scope outer : Scope} {before after : Symbols}
    {body code : List Instruction} (closed : closeScope body scope = .ok (code, outer))
    (body' : Refers before body after)
    : Refers before code after := by
  obtain ⟨count, -, rfl⟩ := closeScope_eq_ok closed
  exact body'.pops count

theorem define_refers {name : String} {scope outer : Scope} {symbols after : Symbols}
    {code : List Instruction}
    (defined : define name scope symbols = .ok (code, outer, after))
    : Refers symbols code after := by
  rcases define_eq_ok defined with ⟨-, -, slot, entered, rfl⟩ | ⟨-, -, -, rfl, rfl⟩
  · exact (Symbols.refers_of_global entered (.inr rfl)).snoc trivial
  · exact .nil after

-----------------------------------------------------------------------------------------
-- Trees
-----------------------------------------------------------------------------------------

theorem SideGenerated.refers_of {side : Stmt} {scope outer : Scope} {symbols after : Symbols}
    {code : List Instruction}
    (refers
      : ∀ {scope outer : Scope} {code : List Instruction},
          side.generate scope symbols = .ok (code, outer, after) → Refers symbols code after)
    (generated : SideGenerated side scope symbols code outer after)
    : Refers symbols code after := by
  cases generated with
  | own _ _ generated closed => exact closeScope_refers closed (refers generated)
  | shared _ generated => exact refers generated

mutual

/-- Generating the code of an expression enters what it names, by induction on the
expression. The code of a function stands in the table, so that what it names is entered too.
-/
theorem Expr.generate_refers {expression : Expr} {scope : Scope} {symbols after : Symbols}
    {code : List Instruction}
    (generated : expression.generate scope symbols = .ok (code, after))
    : Refers symbols code after := by
  cases expression with
  | literal value => exact literal_refers generated
  | name name => exact load_refers generated
  | binary op left right =>
      obtain ⟨_, _, _, left', right', rfl⟩ := Expr.generate_binary generated
      exact ((Expr.generate_refers left').append (Expr.generate_refers right')).snoc trivial
  | logical op left right =>
      obtain ⟨_, _, _, _, left', right', -, rfl⟩ := Expr.generate_logical generated
      have second : Refers _ (.pop :: _) after := (Expr.generate_refers right').cons trivial
      exact (Expr.generate_refers left').append (second.cons trivial)
  | assign name how value =>
      cases how with
      | set =>
          obtain ⟨_, _, _, value', stored, rfl⟩ := Expr.generate_assign_set generated
          exact (Expr.generate_refers value').append (store_refers stored)
      | update op =>
          obtain ⟨_, _, _, _, _, loaded, value', stored, rfl⟩ :=
            Expr.generate_assign_update generated
          have first := (load_refers loaded).append (Expr.generate_refers value')
          exact first.append ((store_refers stored).cons trivial)
  | call callee args =>
      obtain ⟨_, _, _, -, callee', args', rfl⟩ := Expr.generate_call generated
      exact ((Expr.generate_refers callee').append (generateArgs_refers args')).snoc trivial
  | function params body =>
      obtain ⟨_, _, _, _, _, _, _, -, -, body', -, entered, rfl⟩ :=
        Expr.generate_function generated
      have function := Symbols.refers_of_addFunction entered
      refine ⟨(generateBody_refers body').grows.trans function.grows, ?_⟩
      intro formed
      exact function.refers (formed.grows (generateBody_refers body').grows)
termination_by structural expression

theorem generateArgs_refers {args : List Expr} {scope : Scope} {symbols after : Symbols}
    {code : List Instruction} (generated : generateArgs args scope symbols = .ok (code, after))
    : Refers symbols code after := by
  cases args with
  | nil =>
      cases generated
      exact .nil symbols
  | cons arg rest =>
      obtain ⟨_, _, _, arg', rest', rfl⟩ := generateArgs_cons generated
      exact (Expr.generate_refers arg').append (generateArgs_refers rest')
termination_by structural args

/-- Generating the code of a statement enters what it names. -/
theorem Stmt.generate_refers {statement : Stmt} {scope outer : Scope} {symbols after : Symbols}
    {code : List Instruction}
    (generated : statement.generate scope symbols = .ok (code, outer, after))
    : Refers symbols code after := by
  cases statement with
  | block span body =>
      obtain ⟨_, _, body', closed⟩ := Stmt.generate_block generated
      exact closeScope_refers closed (generateBody_refers body')
  | branch span condition yes no =>
      cases no with
      | none =>
          obtain ⟨_, _, _, _, test', side, -, rfl⟩ := Stmt.generate_branch_none generated
          have yes' := side.refers_of Stmt.generate_refers
          exact (Expr.generate_refers test').append (yes'.cons trivial)
      | some no =>
          obtain ⟨_, _, _, _, _, _, _, test', yesSide, noSide, result⟩ :=
            Stmt.generate_branch_some generated
          have test := Expr.generate_refers test'
          have yes' := yesSide.refers_of Stmt.generate_refers
          have no' := noSide.refers_of Stmt.generate_refers
          rcases result with ⟨-, -, rfl⟩ | ⟨beyond, -, -, -, rfl⟩
          · exact test.append ((yes'.append no').cons trivial)
          · have skipped : Refers _ (.jump .always beyond :: _) after := no'.cons trivial
            exact test.append ((yes'.append skipped).cons trivial)
  | ret span value =>
      cases value with
      | none =>
          cases generated
          have null : Refers symbols [.push .null] symbols := .single symbols trivial
          exact null.snoc trivial
      | some value =>
          obtain ⟨_, value', -, rfl⟩ := Stmt.generate_ret_some generated
          exact (Expr.generate_refers value').snoc trivial
  | define span name value =>
      cases value with
      | none =>
          obtain ⟨_, defined, rfl⟩ := Stmt.generate_define_none generated
          exact (define_refers defined).cons trivial
      | some value =>
          obtain ⟨_, _, _, value', defined, rfl⟩ := Stmt.generate_define_some generated
          exact (Expr.generate_refers value').append (define_refers defined)
  | discard span value =>
      obtain ⟨_, value', -, rfl⟩ := Stmt.generate_discard generated
      exact (Expr.generate_refers value').snoc trivial
termination_by structural statement

theorem generateBody_refers {body : List Stmt} {scope outer : Scope} {symbols after : Symbols}
    {code : List Instruction}
    (generated : generateBody body scope symbols = .ok (code, outer, after))
    : Refers symbols code after := by
  cases body with
  | nil =>
      cases generated
      exact .nil symbols
  | cons statement rest =>
      rcases generateBody_cons generated with ⟨-, first⟩ | ⟨_, _, _, _, -, first, rest', rfl⟩
      · exact Stmt.generate_refers first
      · exact (Stmt.generate_refers first).append (generateBody_refers rest')
termination_by structural body

end

end StackScript
