import Mathlib.Control.Monad.Basic
import StackScript.Proofs.Bytecode.Routes
import StackScript.Proofs.Compile.Assembly

/-! Falling through. Control can get through the code of every expression, and through that of a
statement just if the statement does not always return. So the analysis of the tree tells
exactly which functions can be left at the end of their statements, and these have an epilogue.
-/

namespace StackScript

open Generate

-----------------------------------------------------------------------------------------
-- Expressions
-----------------------------------------------------------------------------------------

theorem load_passable {name : String} {scope : Scope} {symbols after : Symbols}
    {code : List Instruction} (loaded : load name scope symbols = .ok (code, after))
    : Passable code := by
  rcases load_eq_ok loaded with ⟨_, -, rfl, -⟩ | ⟨_, -, -, rfl⟩ <;> exact .single rfl

theorem store_passable {name : String} {scope : Scope} {symbols after : Symbols}
    {code : List Instruction} (stored : store name scope symbols = .ok (code, after))
    : Passable code := by
  rcases store_eq_ok stored with ⟨_, -, rfl, -⟩ | ⟨_, -, -, rfl⟩ <;> exact .single rfl

theorem literal_passable {value : Literal} {symbols after : Symbols} {code : List Instruction}
    (generated : literal value symbols = .ok (code, after))
    : Passable code := by
  rcases literal_eq_ok generated with
    ⟨_, _, -, -, rfl, -⟩ | ⟨_, _, -, -, rfl⟩ | ⟨_, -, rfl, -⟩ | ⟨-, rfl, -⟩ <;>
  exact .single rfl

theorem define_passable {name : String} {scope outer : Scope} {symbols after : Symbols}
    {code : List Instruction} (defined : define name scope symbols = .ok (code, outer, after))
    : Passable code := by
  rcases define_eq_ok defined with ⟨-, -, _, -, rfl⟩ | ⟨-, -, -, rfl, -⟩
  · exact .cons rfl (.single rfl)
  · exact .nil

theorem closeScope_passable {scope outer : Scope} {body code : List Instruction}
    (closed : closeScope body scope = .ok (code, outer)) (passable : Passable body)
    : Passable code := by
  obtain ⟨count, -, rfl⟩ := closeScope_eq_ok closed
  exact passable.append (.pops count)

mutual

/-- Control can get through the code of an expression, by induction on the expression. -/
theorem Expr.generate_passable {expression : Expr} {scope : Scope} {symbols after : Symbols}
    {code : List Instruction}
    (generated : expression.generate scope symbols = .ok (code, after))
    : Passable code := by
  cases expression with
  | literal value => exact literal_passable generated
  | name name => exact load_passable generated
  | binary op left right =>
      obtain ⟨_, _, _, left', right', rfl⟩ := Expr.generate_binary generated
      have operands := (Expr.generate_passable left').append (Expr.generate_passable right')
      exact operands.append (.single rfl)
  | logical op left right =>
      obtain ⟨_, _, _, _, left', right', -, rfl⟩ := Expr.generate_logical generated
      have goesOn : Passable (.pop :: _) := .cons rfl (Expr.generate_passable right')
      refine (Expr.generate_passable left').append (.cons ?_ goesOn)
      cases op <;> rfl
  | assign name how value =>
      cases how with
      | set =>
          obtain ⟨_, _, _, value', stored, rfl⟩ := Expr.generate_assign_set generated
          exact (Expr.generate_passable value').append (store_passable stored)
      | update op =>
          obtain ⟨_, _, _, _, _, loaded, value', stored, rfl⟩ :=
            Expr.generate_assign_update generated
          have operands := (load_passable loaded).append (Expr.generate_passable value')
          exact operands.append (.cons rfl (store_passable stored))
  | call callee args =>
      obtain ⟨_, _, _, -, callee', args', rfl⟩ := Expr.generate_call generated
      have operands := (Expr.generate_passable callee').append (generateArgs_passable args')
      exact operands.append (.single rfl)
  | function params body =>
      obtain ⟨_, _, _, _, _, _, _, -, -, -, -, -, rfl⟩ := Expr.generate_function generated
      exact .single rfl
termination_by structural expression

theorem generateArgs_passable {args : List Expr} {scope : Scope} {symbols after : Symbols}
    {code : List Instruction} (generated : generateArgs args scope symbols = .ok (code, after))
    : Passable code := by
  cases args with
  | nil =>
      cases generated
      exact .nil
  | cons arg rest =>
      obtain ⟨_, _, _, arg', rest', rfl⟩ := generateArgs_cons generated
      exact (Expr.generate_passable arg').append (generateArgs_passable rest')
termination_by structural args

end

-----------------------------------------------------------------------------------------
-- Statements
-----------------------------------------------------------------------------------------

theorem SideGenerated.passable_of {side : Stmt} {scope outer : Scope} {symbols after : Symbols}
    {code : List Instruction}
    (passable
      : ∀ {scope outer : Scope} {code : List Instruction},
          side.generate scope symbols = .ok (code, outer, after) → Passable code)
    (generated : SideGenerated side scope symbols code outer after)
    : Passable code := by
  cases generated with
  | own _ _ generated closed => exact closeScope_passable closed (passable generated)
  | shared _ generated => exact passable generated

mutual

/-- Control can get through the code of a statement that does not always return, by induction
on the statement: one side of a branch that does not return is enough.
-/
theorem Stmt.generate_passable {statement : Stmt} {scope outer : Scope} {symbols after : Symbols}
    {code : List Instruction}
    (generated : statement.generate scope symbols = .ok (code, outer, after))
    (goesOn : statement.alwaysReturns = false)
    : Passable code := by
  cases statement with
  | block span body =>
      obtain ⟨bodyCode, inner, body', closed⟩ := Stmt.generate_block generated
      exact closeScope_passable closed (generateBody_passable body' goesOn)
  | branch span condition yes no =>
      cases no with
      | none =>
          obtain ⟨_, _, yesCode, offset, test', -, distance, rfl⟩ :=
            Stmt.generate_branch_none generated
          have skip : Passable (.jump .popFalsy offset :: (yesCode ++ [])) :=
            .across distance.symm .nil
          rw [List.append_nil] at skip
          exact (Expr.generate_passable test').append skip
      | some no =>
          obtain ⟨_, _, yesCode, _, _, noCode, offset, test', yesSide, noSide, result⟩ :=
            Stmt.generate_branch_some generated
          rcases result with ⟨returns, distance, rfl⟩ | ⟨beyond, yesGoesOn, -, distance, rfl⟩ <;>
          refine (Expr.generate_passable test').append ?_
          · have noGoesOn : no.alwaysReturns = false := by
              simpa only [Stmt.alwaysReturns, returns, Bool.true_and] using goesOn
            exact .across distance.symm
              (noSide.passable_of fun generated => Stmt.generate_passable generated noGoesOn)
          · have far : Passable (.jump .always beyond :: (noCode ++ [])) :=
              .across distance.symm .nil
            rw [List.append_nil] at far
            have near := yesSide.passable_of fun generated =>
              Stmt.generate_passable generated yesGoesOn
            exact .cons rfl (near.append far)
  | ret span value => cases goesOn
  | define span name value =>
      cases value with
      | none =>
          obtain ⟨_, defined, rfl⟩ := Stmt.generate_define_none generated
          exact .cons rfl (define_passable defined)
      | some value =>
          obtain ⟨_, _, _, value', defined, rfl⟩ := Stmt.generate_define_some generated
          exact (Expr.generate_passable value').append (define_passable defined)
  | discard span value =>
      obtain ⟨_, value', -, rfl⟩ := Stmt.generate_discard generated
      exact (Expr.generate_passable value').append (.single rfl)
termination_by structural statement

theorem generateBody_passable {body : List Stmt} {scope outer : Scope} {symbols after : Symbols}
    {code : List Instruction}
    (generated : generateBody body scope symbols = .ok (code, outer, after))
    (goesOn : Stmt.anyReturns body = false)
    : Passable code := by
  cases body with
  | nil =>
      cases generated
      exact .nil
  | cons statement rest =>
      obtain ⟨first, others⟩ := Bool.or_eq_false_iff.mp goesOn
      rcases generateBody_cons generated with ⟨returns, -⟩ | ⟨_, _, _, _, -, first', rest', rfl⟩
      · cases first.symm.trans returns
      · exact (Stmt.generate_passable first' first).append (generateBody_passable rest' others)
termination_by structural body

end

-----------------------------------------------------------------------------------------
-- Bodies of functions
-----------------------------------------------------------------------------------------

/-- Writes the body of a function, up to the end of its statements. -/
def FunctionLiteral.writeBody (literal : FunctionLiteral) (symbols : Symbols) : Written := do
  let body ← Write.parameters literal.params
  let (body, symbols) ← writeStatements literal.body body.enterScope symbols
  return (← Write.closeScope body, symbols)

/-- A function consists of its body and of what ends it. -/
theorem Expr.write_function (params : List String) (statements : List Stmt) (body : Body)
    (symbols : Symbols)
    : (function params statements).write body symbols
      = do
        if 255 < params.length then throw (.tooManyParameters params.length)
        let (inner, symbols) ← FunctionLiteral.writeBody ⟨params, statements⟩ symbols
        let (id, symbols) ←
          (Write.epilogue statements inner).toFunction (UInt8.ofNat params.length) symbols
        return (body.emitConstant (.function id), symbols) := by
  simp only [write, FunctionLiteral.writeBody, bind_assoc, pure_bind]

namespace FunctionLiteral

variable {literal : FunctionLiteral} {before after : Symbols} {bodyCode closed : List Instruction}
  {inner outer : Scope}

/-- The body of a function is written as its instructions are generated. -/
theorem writeBody_eq_ok (few : literal.params.length ≤ 255)
    (generated
      : generateBody literal.body literal.scope.enter before = .ok (bodyCode, inner, after))
    (closes : closeScope bodyCode inner = .ok (closed, outer))
    : ∃ body,
        literal.writeBody before = .ok (body, after)
        ∧ body.code = (encodeAll closed).toArray := by
  refine ⟨Body.emitCode ⟨#[], outer⟩ closed, ?_, Array.toList_inj.mp (Body.toList_emitCode _ _)⟩
  have statements : writeStatements literal.body (Body.enterScope ⟨#[], literal.scope⟩) before
      = .ok (Body.emitCode ⟨#[], inner⟩ bodyCode, after) := by
    rw [writeStatements_eq]
    exact congrArg _ generated
  have closing : Write.closeScope (Body.emitCode ⟨#[], inner⟩ bodyCode)
      = .ok (Body.emitCode ⟨#[], outer⟩ closed) := by
    rw [Write.closeScope_eq]
    exact congrArg _ closes
  have parameters : Write.parameters literal.params = .ok ⟨#[], literal.scope⟩ := by
    rw [Write.parameters_eq, parameterScope_eq few]
    rfl
  exact bind_eq_ok.mpr
    ⟨_, parameters, bind_eq_ok.mpr ⟨_, statements, bind_eq_ok.mpr ⟨_, closing, rfl⟩⟩⟩

/-- Control can get to the end of a body just if its statements need not return, whatever
stands behind it. That is nothing if they do.
-/
theorem route_iff_goesOn {rest : List Instruction} {height : Nat}
    (generated
      : generateBody literal.body literal.scope.enter before = .ok (bodyCode, inner, after))
    (closes : closeScope bodyCode inner = .ok (closed, outer))
    (balanced : Balanced height (closed ++ rest))
    (ends : Stmt.anyReturns literal.body = true → rest = [])
    : Route (encodeAll (closed ++ rest)).toArray 0 (encodeAll closed).toArray.size
      ↔ Stmt.anyReturns literal.body = false := by
  rw [List.size_toArray, length_encodeAll, route_iff_path balanced]
  cases returns : Stmt.anyReturns literal.body with
  | true =>
      obtain rfl := ends returns
      have nested := literal.scope_nested.enter
      have sealing := Returning.closeScope closes (generateBody_returning generated nested returns)
      exact iff_of_false (sealing.seals []) (by decide)
  | false =>
      have passable := closeScope_passable closes (generateBody_passable generated returns)
      exact iff_of_true (passable rest) rfl

/-- How the code of a function ends: control does not get to its end, and the code is that of
the body with a return of null behind it just if control can get to the end of that.
-/
structure Ends (literal : FunctionLiteral) (body code : Array UInt8) : Prop where
  closed : ¬ Route code 0 code.size
  goesOn : Route body 0 body.size ↔ Stmt.anyReturns literal.body = false
  reached : Route code 0 body.size ↔ Stmt.anyReturns literal.body = false
  extended
    : Route code 0 body.size → code = body ++ (encodeAll [.push .null, .ret]).toArray
  bare : ¬ Route code 0 body.size → code = body

/-- The code of a function ends as its body asks for. -/
theorem Compiled.ends {code : List Instruction} (compiled : literal.Compiled before after code)
    : ∃ body,
        literal.writeBody before = .ok (body, after)
        ∧ literal.Ends body.code (encodeAll code).toArray := by
  have whole := compiled.balanced
  have closed := compiled.returning.closed
  obtain ⟨few, _, bodyCode, _, _, body', closes, rfl⟩ := compiled
  obtain ⟨body, written, bytes⟩ := writeBody_eq_ok few body' closes
  have balanced := (FunctionLiteral.body_levels body' closes).balanced
  refine ⟨body, written, ?_⟩
  rw [bytes]
  have reached := route_iff_goesOn body' closes whole fun returns => if_pos returns
  constructor
  case closed => exact fun route => closed ((route_end_iff whole).mp route)
  case goesOn =>
    rw [← List.append_nil bodyCode] at balanced
    have alone := route_iff_goesOn body' closes balanced fun _ => rfl
    rwa [List.append_nil] at alone
  case reached => exact reached
  case extended =>
    intro route
    rw [epilogue, if_neg (Bool.eq_false_iff.mp (reached.mp route)), encodeAll_append,
      List.append_toArray]
  case bare =>
    intro noRoute
    have returns : Stmt.anyReturns literal.body = true := by
      simpa only [reached, Bool.not_eq_false] using noRoute
    rw [epilogue, if_pos returns, List.append_nil]

end FunctionLiteral

-----------------------------------------------------------------------------------------
-- Programs
-----------------------------------------------------------------------------------------

/-- Every function of a compiled program comes from a function literal of the script, and ends
as the body of that asks for.
-/
theorem Script.compile_fallThrough {script : Script} {program : Program}
    (compiled : script.compile = .ok program)
    : program.functions.size = script.literals.length
      ∧ ∀ (place : Nat) (literal : FunctionLiteral),
          script.literals[place]? = some literal
          → ∃ function before body after,
              program.function? (place + 1) = some function
              ∧ literal.writeBody before = .ok (body, after)
              ∧ literal.Ends body.code function.code := by
  obtain ⟨main, symbols, assembles⟩ := Script.compile_eq_ok compiled
  constructor
  · rw [← assembles.literals_size, assembles.program_eq, Array.size_map]
  · intro place literal found
    obtain ⟨before, after, code, entered⟩ := assembles.function_at found
    obtain ⟨body, written, ends⟩ := entered.compiled.ends
    have known := assembles.function?_eq_some.mpr ⟨place, rfl, entered.found⟩
    exact ⟨_, before, body, after, known, written, ends⟩

/-- A function that returns on one side of a branch alone, and one that returns on both:
`function (x) { if (x) return; }; function (x) { if (x) return; else return x; };`.
-/
def Script.oneSideAndBoth : Script where
  statements := [
    .discard Span.unknown
      (.function ["x"]
        [.branch Span.unknown (.name "x") (.ret Span.unknown none) none]),
    .discard Span.unknown
      (.function ["x"]
        [.branch Span.unknown (.name "x") (.ret Span.unknown none)
          (some (.ret Span.unknown (some (.name "x"))))])]

def Program.oneSideAndBoth : Program where
  main := #[0, 5, 1, 1, 0, 5, 2, 1]
  functions := #[
    some ⟨1, #[6, 0, 3, 3, 0, 0, 4, 11, 0, 4, 11]⟩,
    some ⟨1, #[6, 0, 3, 3, 0, 0, 4, 11, 6, 0, 11]⟩]
  strings := #[]
  globalCount := 3

theorem Script.compile_fallThrough_oneSideAndBoth
    : Script.oneSideAndBoth.compile = .ok Program.oneSideAndBoth
      ∧ Program.oneSideAndBoth.functions.size = Script.oneSideAndBoth.literals.length
      ∧ ∀ (place : Nat) (literal : FunctionLiteral),
          Script.oneSideAndBoth.literals[place]? = some literal
          → ∃ function before body after,
              Program.oneSideAndBoth.function? (place + 1) = some function
              ∧ literal.writeBody before = .ok (body, after)
              ∧ literal.Ends body.code function.code := by
  have compiled : Script.oneSideAndBoth.compile = .ok Program.oneSideAndBoth := by
    decide +kernel
  exact ⟨compiled, Script.compile_fallThrough compiled⟩

end StackScript
