import StackScript.Proofs.Bytecode.Placement
import StackScript.Proofs.Compile.Scoping

/-! The length of generated code, told from the tree alone. An instruction takes the same number
of bytes whatever slot or place it names, so that names and tables do not matter.
-/

namespace StackScript

open Generate

-----------------------------------------------------------------------------------------
-- Bytes
-----------------------------------------------------------------------------------------

/-- The bytes of the push of a literal. A number that means nothing has no code. -/
def Literal.size : Literal → Nat
  | .number digits =>
      match Literal.numeric digits with
      | .ok constant => 2 + constant.width
      | .error _ => 0
  | .text _ => 4
  | .bool _ => 3
  | .null => 2

/-- The pops behind a side of a branch, which has a scope of its own if it stands in one and has
no braces.
-/
def Stmt.sidePops (inScope : Bool) (side : Stmt) : Nat :=
  if inScope && !side.isBlock then (side.declares 1).length else 0

mutual

/-- The bytes of the code of an expression. -/
def Expr.size : Expr → Nat
  | .literal value => value.size
  | .name _ => 2
  | .binary _ left right => left.size + right.size + 1
  | .logical _ left right => left.size + (3 + (1 + right.size))
  | .assign _ .set value => value.size + 2
  | .assign _ (.update _) value => 2 + value.size + (1 + 2)
  | .call callee args => callee.size + sizeOfArgs args + 2
  | .function _ _ => 3

def sizeOfArgs : List Expr → Nat
  | [] => 0
  | arg :: rest => arg.size + sizeOfArgs rest

/-- The bytes of the code of a statement that may stand in a scope. -/
def Stmt.size (inScope : Bool) : Stmt → Nat
  | .block _ body => sizeOfBody body + (declaredIn 1 body).length
  | .branch _ condition yes none =>
      condition.size + (3 + (yes.size inScope + yes.sidePops inScope))
  | .branch _ condition yes (some no) =>
      condition.size + (3 + (yes.size inScope + yes.sidePops inScope))
        + ((if yes.alwaysReturns then 0 else 3) + (no.size inScope + no.sidePops inScope))
  | .ret _ none => 3
  | .ret _ (some value) => value.size + 1
  | .define _ _ none => 2 + if inScope then 0 else 3
  | .define _ _ (some value) => value.size + if inScope then 0 else 3
  | .discard _ value => value.size + 1

/-- The bytes of the code of the statements of a block that can be reached. -/
def sizeOfBody : List Stmt → Nat
  | [] => 0
  | statement :: rest =>
      if statement.alwaysReturns then statement.size true
      else statement.size true + sizeOfBody rest

end

/-- The bytes of the code of a side of a branch, with the pops behind it. -/
def Stmt.sideSize (inScope : Bool) (side : Stmt) : Nat :=
  side.size inScope + side.sidePops inScope

-----------------------------------------------------------------------------------------
-- Pieces of code
-----------------------------------------------------------------------------------------

theorem Stmt.declares_length (statement : Stmt) {depth : Nat} (inside : depth ≠ 0)
    : (statement.declares depth).length = (statement.declares 1).length := by
  cases statement with
  | define span name value => simp [declares, inside]
  | _ => rfl

theorem declaredIn_length (body : List Stmt) {depth : Nat} (inside : depth ≠ 0)
    : (declaredIn depth body).length = (declaredIn 1 body).length := by
  induction body with
  | nil => rfl
  | cons statement rest ih =>
      unfold declaredIn
      split
      · exact statement.declares_length inside
      · rw [List.length_append, List.length_append, ih, statement.declares_length inside]

theorem load_size {name : String} {scope : Scope} {symbols after : Symbols}
    {code : List Instruction} (loaded : load name scope symbols = .ok (code, after))
    : codeLength code = 2 := by
  rcases load_eq_ok loaded with ⟨_, -, rfl, -⟩ | ⟨_, -, -, rfl⟩ <;> rfl

theorem store_size {name : String} {scope : Scope} {symbols after : Symbols}
    {code : List Instruction} (stored : store name scope symbols = .ok (code, after))
    : codeLength code = 2 := by
  rcases store_eq_ok stored with ⟨_, -, rfl, -⟩ | ⟨_, -, -, rfl⟩ <;> rfl

theorem literal_size {value : Literal} {symbols after : Symbols} {code : List Instruction}
    (generated : literal value symbols = .ok (code, after))
    : codeLength code = value.size := by
  rcases literal_eq_ok generated with
    ⟨digits, constant, rfl, read, rfl, -⟩ | ⟨_, _, rfl, -, rfl⟩ | ⟨_, rfl, rfl, -⟩ | ⟨rfl, rfl, -⟩
  · have size : codeLength [.push constant] = 2 + constant.width := by
      simp only [codeLength_cons, codeLength_nil, Instruction.length, Instruction.item,
        CodeItem.length, Operand.length]
      omega
    rw [size, Literal.size, read]
  · rfl
  · rfl
  · rfl

theorem define_size {name : String} {scope outer : Scope} {symbols after : Symbols}
    {code : List Instruction}
    (defined : define name scope symbols = .ok (code, outer, after))
    : codeLength code = if scope.depth != 0 then 0 else 3 := by
  rcases define_eq_ok defined with ⟨outside, -, _, -, rfl⟩ | ⟨inside, -, -, rfl, -⟩
  · rw [outside]
    rfl
  · rw [if_pos (bne_iff_ne.mpr inside)]
    rfl

theorem SideGenerated.size_of {side : Stmt} {scope outer : Scope} {symbols after : Symbols}
    {code : List Instruction}
    (size
      : ∀ {scope outer : Scope} {code : List Instruction},
          side.generate scope symbols = .ok (code, outer, after)
          → scope.WellNested
          → codeLength code = side.size (scope.depth != 0))
    (generated : SideGenerated side scope symbols code outer after) (nested : scope.WellNested)
    : codeLength code = side.sideSize (scope.depth != 0) := by
  cases generated with
  | own inside bare generated closed =>
      have inScope : (scope.depth != 0) = true := bne_iff_ne.mpr inside
      have inside' : scope.enter.depth ≠ 0 := Nat.succ_ne_zero scope.depth
      have body := size generated nested.enter
      rw [bne_iff_ne.mpr inside'] at body
      rw [Stmt.generate_scope generated nested.enter] at closed
      obtain ⟨-, rfl⟩ := closeScope_extend closed nested Stmt.declares_depth
      have pops : side.sidePops (scope.depth != 0) = (side.declares 1).length :=
        if_pos (by rw [inScope, bare]; rfl)
      rw [codeLength_append, codeLength_pops, body, side.declares_length inside', Stmt.sideSize,
        pops, inScope]
  | shared shares generated =>
      have pops : side.sidePops (scope.depth != 0) = 0 := by
        rcases shares with outside | block
        · rw [outside]
          rfl
        · exact if_neg (by simp [block])
      rw [Stmt.sideSize, pops, size generated nested, Nat.add_zero]

-----------------------------------------------------------------------------------------
-- Trees
-----------------------------------------------------------------------------------------

mutual

/-- The code of an expression takes so many bytes, by induction on the expression. -/
theorem Expr.generate_size {expression : Expr} {scope : Scope} {symbols after : Symbols}
    {code : List Instruction}
    (generated : expression.generate scope symbols = .ok (code, after))
    : codeLength code = expression.size := by
  cases expression with
  | literal value => exact literal_size generated
  | name name => exact load_size generated
  | binary op left right =>
      obtain ⟨_, _, _, left', right', rfl⟩ := Expr.generate_binary generated
      simp only [codeLength_append, Expr.generate_size left', Expr.generate_size right', Expr.size]
      rfl
  | logical op left right =>
      obtain ⟨_, _, _, _, left', right', -, rfl⟩ := Expr.generate_logical generated
      simp only [codeLength_append, codeLength_cons, Expr.generate_size left',
        Expr.generate_size right', Expr.size]
      rfl
  | assign name how value =>
      cases how with
      | set =>
          obtain ⟨_, _, _, value', stored, rfl⟩ := Expr.generate_assign_set generated
          rw [codeLength_append, Expr.generate_size value', store_size stored, Expr.size]
      | update op =>
          obtain ⟨_, _, _, _, _, loaded, value', stored, rfl⟩ :=
            Expr.generate_assign_update generated
          simp only [codeLength_append, codeLength_cons, load_size loaded,
            Expr.generate_size value', store_size stored, Expr.size]
          rfl
  | call callee args =>
      obtain ⟨_, _, _, -, callee', args', rfl⟩ := Expr.generate_call generated
      simp only [codeLength_append, Expr.generate_size callee', generateArgs_size args', Expr.size]
      rfl
  | function params body =>
      obtain ⟨_, _, _, _, _, _, _, -, -, -, -, -, rfl⟩ := Expr.generate_function generated
      rfl
termination_by structural expression

theorem generateArgs_size {args : List Expr} {scope : Scope} {symbols after : Symbols}
    {code : List Instruction} (generated : generateArgs args scope symbols = .ok (code, after))
    : codeLength code = sizeOfArgs args := by
  cases args with
  | nil =>
      cases generated
      rfl
  | cons arg rest =>
      obtain ⟨_, _, _, arg', rest', rfl⟩ := generateArgs_cons generated
      rw [codeLength_append, Expr.generate_size arg', generateArgs_size rest', sizeOfArgs]
termination_by structural args

/-- The code of a statement takes so many bytes. -/
theorem Stmt.generate_size {statement : Stmt} {scope outer : Scope} {symbols after : Symbols}
    {code : List Instruction}
    (generated : statement.generate scope symbols = .ok (code, outer, after))
    (nested : scope.WellNested)
    : codeLength code = statement.size (scope.depth != 0) := by
  cases statement with
  | block span body =>
      obtain ⟨_, _, body', closed⟩ := Stmt.generate_block generated
      have inside : scope.enter.depth ≠ 0 := Nat.succ_ne_zero scope.depth
      have bodySize := generateBody_size body' nested.enter inside
      rw [generateBody_scope body' nested.enter] at closed
      obtain ⟨-, rfl⟩ := closeScope_extend closed nested declaredIn_depth
      rw [codeLength_append, codeLength_pops, bodySize, declaredIn_length body inside, Stmt.size]
  | branch span condition yes no =>
      cases no with
      | none =>
          obtain ⟨_, _, _, _, test', side, -, rfl⟩ := Stmt.generate_branch_none generated
          have sideSize := side.size_of Stmt.generate_size nested
          rw [codeLength_append, codeLength_cons, Expr.generate_size test', sideSize, Stmt.size]
          rfl
      | some no =>
          obtain ⟨_, _, _, between, _, _, _, test', yesSide, noSide, result⟩ :=
            Stmt.generate_branch_some generated
          have yesSize := yesSide.size_of Stmt.generate_size nested
          have same := yesSide.scope nested
          subst same
          have noSize := noSide.size_of Stmt.generate_size nested
          have jump : ∀ when offset, (Instruction.jump when offset).length = 3 := fun _ _ => rfl
          rw [Stmt.size]
          rcases result with ⟨returns, -, rfl⟩ | ⟨_, goesOn, -, -, rfl⟩
          · rw [if_pos returns]
            simp only [codeLength_append, codeLength_cons, Expr.generate_size test', yesSize,
              noSize, Stmt.sideSize, jump]
            omega
          · rw [if_neg (Bool.eq_false_iff.mp goesOn)]
            simp only [codeLength_append, codeLength_cons, Expr.generate_size test', yesSize,
              noSize, Stmt.sideSize, jump]
            omega
  | ret span value =>
      cases value with
      | none =>
          cases generated
          rfl
      | some value =>
          obtain ⟨_, value', -, rfl⟩ := Stmt.generate_ret_some generated
          rw [codeLength_append, Expr.generate_size value', Stmt.size]
          rfl
  | define span name value =>
      cases value with
      | none =>
          obtain ⟨_, defined, rfl⟩ := Stmt.generate_define_none generated
          rw [codeLength_cons, define_size defined, Stmt.size]
          rfl
      | some value =>
          obtain ⟨_, _, _, value', defined, rfl⟩ := Stmt.generate_define_some generated
          rw [codeLength_append, Expr.generate_size value', define_size defined, Stmt.size]
  | discard span value =>
      obtain ⟨_, value', -, rfl⟩ := Stmt.generate_discard generated
      rw [codeLength_append, Expr.generate_size value', Stmt.size]
      rfl
termination_by structural statement

/-- The code of the statements of a block takes so many bytes. -/
theorem generateBody_size {body : List Stmt} {scope outer : Scope} {symbols after : Symbols}
    {code : List Instruction}
    (generated : generateBody body scope symbols = .ok (code, outer, after))
    (nested : scope.WellNested) (inside : scope.depth ≠ 0)
    : codeLength code = sizeOfBody body := by
  have inScope : (scope.depth != 0) = true := bne_iff_ne.mpr inside
  cases body with
  | nil =>
      cases generated
      rfl
  | cons statement rest =>
      rcases generateBody_cons generated with
        ⟨returns, first⟩ | ⟨_, between, _, _, goesOn, first, rest', rfl⟩
      · rw [sizeOfBody, if_pos returns, ← inScope]
        exact Stmt.generate_size first nested
      · have firstSize := Stmt.generate_size first nested
        obtain rfl := Stmt.generate_scope first nested
        have others := generateBody_size rest' (nested.extend Stmt.declares_depth) inside
        rw [codeLength_append, firstSize, others, inScope, sizeOfBody, goesOn]
        rfl
termination_by structural body

end

theorem SideGenerated.size {side : Stmt} {scope outer : Scope} {symbols after : Symbols}
    {code : List Instruction} (generated : SideGenerated side scope symbols code outer after)
    (nested : scope.WellNested)
    : codeLength code = side.sideSize (scope.depth != 0) :=
  generated.size_of Stmt.generate_size nested

end StackScript
