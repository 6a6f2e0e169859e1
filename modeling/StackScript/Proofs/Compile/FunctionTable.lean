import StackScript.Proofs.Compile.References
import StackScript.Proofs.Evaluation.Outline

/-! The function table behind generated code. Generating a tree adds the functions of its
literals to the table, in the order in which the literals end, and every entry keeps the
place and the tables with which its code was generated.
-/

namespace StackScript

open Generate

-----------------------------------------------------------------------------------------
-- Entries of the table
-----------------------------------------------------------------------------------------

namespace FunctionLiteral

/-- The parameters as the locals of a scope of their own, the last first. -/
def scope (literal : FunctionLiteral) : Scope :=
  ⟨1, literal.params.reverse.map fun name => ⟨name, 1⟩⟩

theorem scope_nested (literal : FunctionLiteral) : literal.scope.WellNested := by
  intro entry member
  obtain ⟨name, -, rfl⟩ := List.mem_map.mp member
  exact Nat.le_refl 1

/-- The code of the function was generated between two states of the tables. -/
structure Compiled (literal : FunctionLiteral) (before after : Symbols)
    (code : List Instruction)
    : Prop where
  few : literal.params.length ≤ 255
  generated
    : ∃ bodyCode closed inner outer,
        generateBody literal.body literal.scope.enter before = .ok (bodyCode, inner, after)
        ∧ closeScope bodyCode inner = .ok (closed, outer)
        ∧ code = closed ++ epilogue literal.body

/-- The tables hold the function of the literal in the given place. -/
structure Entered (literal : FunctionLiteral) (symbols : Symbols) (place : Nat)
    (before after : Symbols) (code : List Instruction)
    : Prop where
  compiled : literal.Compiled before after code
  formed : before.WellFormed
  place_eq : after.functions.size = place
  grown : after.Grows symbols
  found
    : symbols.functions[place]?
      = some ⟨UInt8.ofNat literal.params.length, (encodeAll code).toArray⟩

theorem Entered.grows {literal : FunctionLiteral} {symbols later before after : Symbols}
    {place : Nat} {code : List Instruction}
    (entered : literal.Entered symbols place before after code) (grown : symbols.Grows later)
    : literal.Entered later place before after code :=
  { entered with
    grown := entered.grown.trans grown
    found := grown.begins.function_at entered.found }

end FunctionLiteral

/-- The functions of some literals were added to the table in their order. -/
structure AddsFunctions (before : Symbols) (literals : List FunctionLiteral) (after : Symbols)
    : Prop where
  grows : before.Grows after
  size : after.functions.size = before.functions.size + literals.length
  entered
    : before.WellFormed
      → ∀ (place : Nat) (literal : FunctionLiteral),
          literals[place]? = some literal
          → ∃ start stop code,
              literal.Entered after (before.functions.size + place) start stop code

namespace AddsFunctions

variable {before middle after : Symbols} {first second : List FunctionLiteral}

theorem of_same (grown : before.Grows after) (same : after.functions = before.functions)
    : AddsFunctions before [] after :=
  ⟨grown, by rw [same]; rfl, fun _ place literal found => by simp at found⟩

theorem append (front : AddsFunctions before first middle)
    (back : AddsFunctions middle second after)
    : AddsFunctions before (first ++ second) after := by
  refine ⟨front.grows.trans back.grows, ?_, ?_⟩
  · rw [back.size, front.size, List.length_append, Nat.add_assoc]
  · intro formed place literal found
    by_cases early : place < first.length
    · rw [List.getElem?_append_left early] at found
      obtain ⟨start, stop, code, entered⟩ := front.entered formed place literal found
      exact ⟨start, stop, code, entered.grows back.grows⟩
    · rw [List.getElem?_append_right (Nat.not_lt.mp early)] at found
      obtain ⟨start, stop, code, entered⟩ :=
        back.entered (formed.grows front.grows) (place - first.length) literal found
      rw [front.size, Nat.add_assoc, Nat.add_sub_cancel' (Nat.not_lt.mp early)] at entered
      exact ⟨start, stop, code, entered⟩

/-- The function of a literal stands behind those inside it. -/
theorem function {params : List String} {body : List Stmt} {code : List Instruction}
    {id : UInt8} (inside : AddsFunctions before first middle)
    (compiled : FunctionLiteral.Compiled ⟨params, body⟩ before middle code)
    (added
      : middle.addFunction ⟨UInt8.ofNat params.length, (encodeAll code).toArray⟩
        = .ok (id, after))
    : AddsFunctions before (first ++ [⟨params, body⟩]) after := by
  have grown : middle.Grows after := .single (.function added)
  obtain ⟨-, -, rfl⟩ := Symbols.addFunction_eq_ok added
  refine ⟨inside.grows.trans grown, ?_, ?_⟩
  · simp only [Array.size_push, inside.size, List.length_append, List.length_singleton,
      Nat.add_assoc]
  · intro formed place literal found
    by_cases early : place < first.length
    · rw [List.getElem?_append_left early] at found
      obtain ⟨start, stop, code, entered⟩ := inside.entered formed place literal found
      exact ⟨start, stop, code, entered.grows grown⟩
    · have last : place = first.length ∧ ⟨params, body⟩ = literal := by
        rw [List.getElem?_append_right (Nat.not_lt.mp early), List.getElem?_singleton] at found
        split at found
        · exact ⟨by omega, Option.some.inj found⟩
        · cases found
      obtain ⟨rfl, rfl⟩ := last
      refine ⟨before, middle, code, compiled, formed, inside.size, grown, ?_⟩
      rw [← inside.size]
      exact Array.getElem?_push_size

end AddsFunctions

-----------------------------------------------------------------------------------------
-- Pieces of code
-----------------------------------------------------------------------------------------

theorem Symbols.global_functions {symbols after : Symbols} {name : String} {slot : UInt8}
    (entered : symbols.global name = .ok (slot, after))
    : after.functions = symbols.functions := by
  rcases Symbols.global_eq_ok entered with ⟨_, -, -, rfl⟩ | ⟨-, -, -, rfl⟩ <;> rfl

theorem load_functions {name : String} {scope : Scope} {symbols after : Symbols}
    {code : List Instruction} (loaded : load name scope symbols = .ok (code, after))
    : AddsFunctions symbols [] after := by
  refine .of_same (load_refers loaded).grows ?_
  rcases load_eq_ok loaded with ⟨_, -, -, rfl⟩ | ⟨_, -, entered, -⟩
  · rfl
  · exact Symbols.global_functions entered

theorem store_functions {name : String} {scope : Scope} {symbols after : Symbols}
    {code : List Instruction} (stored : store name scope symbols = .ok (code, after))
    : AddsFunctions symbols [] after := by
  refine .of_same (store_refers stored).grows ?_
  rcases store_eq_ok stored with ⟨_, -, -, rfl⟩ | ⟨_, -, entered, -⟩
  · rfl
  · exact Symbols.global_functions entered

theorem literal_functions {value : Literal} {symbols after : Symbols} {code : List Instruction}
    (generated : literal value symbols = .ok (code, after))
    : AddsFunctions symbols [] after := by
  refine .of_same (literal_refers generated).grows ?_
  rcases literal_eq_ok generated with
    ⟨_, _, -, -, -, rfl⟩ | ⟨_, _, -, entered, -⟩ | ⟨_, -, -, rfl⟩ | ⟨-, -, rfl⟩
  · rfl
  · obtain ⟨_, -, -, rfl | ⟨-, -, same, -⟩⟩ := Symbols.intern_eq_ok entered
    · rfl
    · exact same
  · rfl
  · rfl

theorem define_functions {name : String} {scope outer : Scope} {symbols after : Symbols}
    {code : List Instruction}
    (defined : define name scope symbols = .ok (code, outer, after))
    : AddsFunctions symbols [] after := by
  refine .of_same (define_refers defined).grows ?_
  rcases define_eq_ok defined with ⟨-, -, _, entered, -⟩ | ⟨-, -, -, -, rfl⟩
  · exact Symbols.global_functions entered
  · rfl

-----------------------------------------------------------------------------------------
-- Trees
-----------------------------------------------------------------------------------------

theorem SideGenerated.functions_of {side : Stmt} {scope outer : Scope} {symbols after : Symbols}
    {code : List Instruction}
    (functions
      : ∀ {scope outer : Scope} {code : List Instruction},
          side.generate scope symbols = .ok (code, outer, after)
          → AddsFunctions symbols side.literals after)
    (generated : SideGenerated side scope symbols code outer after)
    : AddsFunctions symbols side.literals after := by
  cases generated with
  | own _ _ generated _ => exact functions generated
  | shared _ generated => exact functions generated

mutual

/-- Generating an expression adds the functions of its literals, by induction on the
expression.
-/
theorem Expr.generate_functions {expression : Expr} {scope : Scope} {symbols after : Symbols}
    {code : List Instruction}
    (generated : expression.generate scope symbols = .ok (code, after))
    : AddsFunctions symbols expression.literals after := by
  cases expression with
  | literal value => exact literal_functions generated
  | name name => exact load_functions generated
  | binary op left right =>
      obtain ⟨_, _, _, left', right', -⟩ := Expr.generate_binary generated
      exact (Expr.generate_functions left').append (Expr.generate_functions right')
  | logical op left right =>
      obtain ⟨_, _, _, _, left', right', -, -⟩ := Expr.generate_logical generated
      exact (Expr.generate_functions left').append (Expr.generate_functions right')
  | assign name how value =>
      cases how with
      | set =>
          obtain ⟨_, _, _, value', stored, -⟩ := Expr.generate_assign_set generated
          have both := (Expr.generate_functions value').append (store_functions stored)
          rwa [List.append_nil] at both
      | update op =>
          obtain ⟨_, _, _, _, _, loaded, value', stored, -⟩ :=
            Expr.generate_assign_update generated
          have both := (Expr.generate_functions value').append (store_functions stored)
          rw [List.append_nil] at both
          exact (load_functions loaded).append both
  | call callee args =>
      obtain ⟨_, _, _, -, callee', args', -⟩ := Expr.generate_call generated
      exact (Expr.generate_functions callee').append (generateArgs_functions args')
  | function params body =>
      obtain ⟨own, bodyCode, inner, _, closed, outer, _, few, own', body', closed', added, -⟩ :=
        Expr.generate_function generated
      obtain rfl := parameterScope_eq_ok own'
      refine (generateBody_functions body').function ⟨few, ?_⟩ added
      exact ⟨bodyCode, closed, inner, outer, body', closed', rfl⟩
termination_by structural expression

theorem generateArgs_functions {args : List Expr} {scope : Scope} {symbols after : Symbols}
    {code : List Instruction} (generated : generateArgs args scope symbols = .ok (code, after))
    : AddsFunctions symbols (literalsOfArgs args) after := by
  cases args with
  | nil =>
      cases generated
      exact .of_same .refl rfl
  | cons arg rest =>
      obtain ⟨_, _, _, arg', rest', -⟩ := generateArgs_cons generated
      exact (Expr.generate_functions arg').append (generateArgs_functions rest')
termination_by structural args

/-- Generating a statement adds the functions of its literals. -/
theorem Stmt.generate_functions {statement : Stmt} {scope outer : Scope} {symbols after : Symbols}
    {code : List Instruction}
    (generated : statement.generate scope symbols = .ok (code, outer, after))
    : AddsFunctions symbols statement.literals after := by
  cases statement with
  | block span body =>
      obtain ⟨_, _, body', -⟩ := Stmt.generate_block generated
      exact generateBody_functions body'
  | branch span condition yes no =>
      cases no with
      | none =>
          obtain ⟨_, _, _, _, test', side, -⟩ := Stmt.generate_branch_none generated
          exact (Expr.generate_functions test').append
            (side.functions_of Stmt.generate_functions)
      | some no =>
          obtain ⟨_, _, _, _, _, _, _, test', yesSide, noSide, -⟩ :=
            Stmt.generate_branch_some generated
          have sides := (yesSide.functions_of Stmt.generate_functions).append
            (noSide.functions_of Stmt.generate_functions)
          exact (Expr.generate_functions test').append sides
  | ret span value =>
      cases value with
      | none =>
          cases generated
          exact .of_same .refl rfl
      | some value =>
          obtain ⟨_, value', -⟩ := Stmt.generate_ret_some generated
          exact Expr.generate_functions value'
  | define span name value =>
      cases value with
      | none =>
          obtain ⟨_, defined, -⟩ := Stmt.generate_define_none generated
          exact define_functions defined
      | some value =>
          obtain ⟨_, _, _, value', defined, -⟩ := Stmt.generate_define_some generated
          have both := (Expr.generate_functions value').append (define_functions defined)
          rwa [List.append_nil] at both
  | discard span value =>
      obtain ⟨_, value', -⟩ := Stmt.generate_discard generated
      exact Expr.generate_functions value'
termination_by structural statement

/-- Generating the statements of a block adds the functions of the literals that can be
reached.
-/
theorem generateBody_functions {body : List Stmt} {scope outer : Scope} {symbols after : Symbols}
    {code : List Instruction}
    (generated : generateBody body scope symbols = .ok (code, outer, after))
    : AddsFunctions symbols (literalsOfBody body) after := by
  cases body with
  | nil =>
      cases generated
      exact .of_same .refl rfl
  | cons statement rest =>
      rcases generateBody_cons generated with
        ⟨returns, first⟩ | ⟨_, _, _, _, goesOn, first, rest', -⟩
      · rw [literalsOfBody, if_pos returns]
        exact Stmt.generate_functions first
      · rw [literalsOfBody, goesOn]
        exact (Stmt.generate_functions first).append (generateBody_functions rest')
termination_by structural body

end

end StackScript
