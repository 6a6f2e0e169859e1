import Mathlib.Control.Monad.Basic
import Mathlib.Logic.Equiv.Basic
import StackScript.Proofs.Compile.Assembly

/-! Scripts under other names. Names only say which variables are the same, so that a script
whose names are replaced one by one has the same code in the same tables. The built-in globals
are known by their names and keep them; errors carry the replaced names.
-/

namespace StackScript

open Generate

section

variable (rename : String → String)

mutual

/-- The expression with other names for its variables and parameters. -/
def Expr.renamed : Expr → Expr
  | .literal value => .literal value
  | .name name => .name (rename name)
  | .binary op left right => .binary op left.renamed right.renamed
  | .logical op left right => .logical op left.renamed right.renamed
  | .assign name how value => .assign (rename name) how value.renamed
  | .call callee args => .call callee.renamed (renamedArgs args)
  | .function params body => .function (params.map rename) (renamedBody body)

/-- The expressions of a list with other names. -/
def renamedArgs : List Expr → List Expr
  | [] => []
  | arg :: rest => arg.renamed :: renamedArgs rest

/-- The statement with other names for its variables, also where it defines one. -/
def Stmt.renamed : Stmt → Stmt
  | .block span body => .block span (renamedBody body)
  | .branch span condition yes none => .branch span condition.renamed yes.renamed none
  | .branch span condition yes (some no) =>
      .branch span condition.renamed yes.renamed (some no.renamed)
  | .ret span none => .ret span none
  | .ret span (some value) => .ret span (some value.renamed)
  | .define span name none => .define span (rename name) none
  | .define span name (some value) => .define span (rename name) (some value.renamed)
  | .discard span value => .discard span value.renamed

/-- The statements of a list with other names. -/
def renamedBody : List Stmt → List Stmt
  | [] => []
  | statement :: rest => statement.renamed :: renamedBody rest

end

/-- The script with other names for its variables and parameters. -/
def Script.renamed (script : Script) : Script :=
  ⟨renamedBody rename script.statements⟩

/-- The error with another name, if it carries one. -/
def CompileError.renamed : CompileError → CompileError
  | .tooManyLocals name => .tooManyLocals (rename name)
  | .tooManyGlobals name => .tooManyGlobals (rename name)
  | error => error

/-- The scope with other names for its locals. -/
def Scope.renamed (scope : Scope) : Scope :=
  ⟨scope.depth, scope.locals.map fun entry => ⟨rename entry.name, entry.depth⟩⟩

/-- The tables with other names for the globals. -/
def Symbols.renamed (symbols : Symbols) : Symbols :=
  { symbols with globals := symbols.globals.map rename }

-----------------------------------------------------------------------------------------
-- Results under other names
-----------------------------------------------------------------------------------------

/-- A result under other names: the value that corresponds to it, or the renamed error. -/
def renamedResult {α β : Type} (change : α → β) : Except CompileError α → Except CompileError β
  | .ok value => .ok (change value)
  | .error error => .error (error.renamed rename)

/-- Code and the tables that it refers to, with other names. -/
def renamedCode (generated : List Instruction × Symbols) : List Instruction × Symbols :=
  (generated.1, generated.2.renamed rename)

/-- Code with the scope and the tables behind it, with other names. -/
def renamedCodeIn (generated : List Instruction × Scope × Symbols)
    : List Instruction × Scope × Symbols :=
  (generated.1, generated.2.1.renamed rename, generated.2.2.renamed rename)

/-- One action after another comes to the renamed result if both do. -/
theorem renamedResult_bind {α α' β β' : Type} {x : Except CompileError α}
    {next : α → Except CompileError β} {next' : α' → Except CompileError β'} {change : α → α'}
    {changed : β → β'}
    (same : ∀ value, next' (change value) = renamedResult rename changed (next value))
    : renamedResult rename change x >>= next' = renamedResult rename changed (x >>= next) := by
  cases x with
  | error error => rfl
  | ok value => exact same value

/-- An action that knows no names comes to the same under other names. -/
theorem renamedResult_bind_plain {α β β' : Type} {x : Except CompileError α}
    {next : α → Except CompileError β} {next' : α → Except CompileError β'} {changed : β → β'}
    (plain : renamedResult rename id x = x)
    (same : ∀ value, next' value = renamedResult rename changed (next value))
    : x >>= next' = renamedResult rename changed (x >>= next) := by
  have bound : renamedResult rename id x >>= next' = renamedResult rename changed (x >>= next) :=
    renamedResult_bind rename same
  rwa [plain] at bound

end

section

variable {rename : String → String}

-----------------------------------------------------------------------------------------
-- Scopes and tables
-----------------------------------------------------------------------------------------

/-- A name means the same local under other names. -/
theorem Scope.slot?_renamed (injective : Function.Injective rename) (scope : Scope) (name : String)
    : (scope.renamed rename).slot? (rename name) = scope.slot? name := by
  have general : ∀ locals : List Local,
      slotIn? (rename name) (locals.map fun entry => ⟨rename entry.name, entry.depth⟩)
        = slotIn? name locals := by
    intro locals
    induction locals with
    | nil => rfl
    | cons latest older ih =>
        simp only [List.map_cons, slotIn?, injective.eq_iff, List.length_map, ih]
  exact general scope.locals

theorem Scope.declare_renamed (scope : Scope) (name : String)
    : (scope.renamed rename).declare (rename name)
      = renamedResult rename (fun declared => (declared.1, declared.2.renamed rename))
          (scope.declare name) := by
  unfold declare
  rw [renamed, List.length_map]
  split <;> rfl

theorem Scope.leave_renamed (scope : Scope)
    : (scope.renamed rename).leave
      = renamedResult rename (fun left => (left.1, left.2.renamed rename)) scope.leave := by
  rcases scope with ⟨depth, locals⟩
  cases depth with
  | zero => rfl
  | succ outer =>
      simp only [renamed, leave, List.takeWhile_map, List.dropWhile_map, List.length_map]
      rfl

/-- A global has the same place under other names. -/
theorem Symbols.idxOf?_renamed (injective : Function.Injective rename) (globals : Array String)
    (name : String)
    : (globals.map rename).idxOf? (rename name) = globals.idxOf? name := by
  rcases globals with ⟨globals⟩
  have same : ((· == rename name) ∘ rename) = (· == name) :=
    funext fun other => injective.beq_eq
  rw [List.map_toArray, List.idxOf?_toArray, List.idxOf?_toArray, List.idxOf?, List.idxOf?,
    List.findIdx?_map, same]

theorem Symbols.global_renamed (injective : Function.Injective rename) (symbols : Symbols)
    (name : String)
    : (symbols.renamed rename).global (rename name)
      = renamedResult rename (fun entered => (entered.1, entered.2.renamed rename))
          (symbols.global name) := by
  unfold global
  simp only [renamed, idxOf?_renamed injective, Array.size_map]
  split
  · rfl
  · by_cases room : symbols.globals.size < 255
    · simp only [if_pos room, renamedResult, Array.map_push]
    · simp only [if_neg room, renamedResult, CompileError.renamed]

theorem Symbols.intern_renamed (symbols : Symbols) (text : String)
    : (symbols.renamed rename).intern text
      = renamedResult rename (fun entered => (entered.1, entered.2.renamed rename))
          (symbols.intern text) := by
  unfold intern
  simp only [renamed]
  split
  · rfl
  · by_cases room : symbols.strings.entries.size < 65536
    · simp only [if_pos room]
      exact if_pos room
    · simp only [if_neg room]
      exact if_neg room

theorem Symbols.addFunction_renamed (symbols : Symbols) (function : Function)
    : (symbols.renamed rename).addFunction function
      = renamedResult rename (fun entered => (entered.1, entered.2.renamed rename))
          (symbols.addFunction function) := by
  unfold addFunction
  by_cases room : symbols.functions.size < 255
  · rw [if_pos room]
    exact if_pos room
  · rw [if_neg room]
    exact if_neg room

-----------------------------------------------------------------------------------------
-- Pieces of code
-----------------------------------------------------------------------------------------

theorem load_renamed (injective : Function.Injective rename) (name : String) (scope : Scope)
    (symbols : Symbols)
    : load (rename name) (scope.renamed rename) (symbols.renamed rename)
      = renamedResult rename (renamedCode rename) (load name scope symbols) := by
  unfold load
  rw [Scope.slot?_renamed injective]
  cases scope.slot? name with
  | some slot => rfl
  | none =>
      simp only [Symbols.global_renamed injective]
      exact renamedResult_bind rename fun _ => rfl

theorem store_renamed (injective : Function.Injective rename) (name : String) (scope : Scope)
    (symbols : Symbols)
    : store (rename name) (scope.renamed rename) (symbols.renamed rename)
      = renamedResult rename (renamedCode rename) (store name scope symbols) := by
  unfold store
  rw [Scope.slot?_renamed injective]
  cases scope.slot? name with
  | some slot => rfl
  | none =>
      simp only [Symbols.global_renamed injective]
      exact renamedResult_bind rename fun _ => rfl

/-- Errors about numbers carry the text of the literal and no name. -/
theorem Literal.numeric_renamed (rename : String → String) (text : String)
    : renamedResult rename id (Literal.numeric text) = Literal.numeric text := by
  unfold numeric
  split
  · split <;> rfl
  · split <;> rfl

theorem literal_renamed (value : Literal) (symbols : Symbols)
    : literal value (symbols.renamed rename)
      = renamedResult rename (renamedCode rename) (literal value symbols) := by
  cases value with
  | number digits =>
      exact renamedResult_bind_plain rename (Literal.numeric_renamed rename digits) fun _ => rfl
  | text content =>
      simp only [literal, Symbols.intern_renamed]
      exact renamedResult_bind rename fun _ => rfl
  | bool value => rfl
  | null => rfl

theorem define_renamed (injective : Function.Injective rename) (name : String) (scope : Scope)
    (symbols : Symbols)
    : define (rename name) (scope.renamed rename) (symbols.renamed rename)
      = renamedResult rename (renamedCodeIn rename) (define name scope symbols) := by
  have depth : (scope.renamed rename).depth = scope.depth := rfl
  unfold define
  rw [depth]
  split
  · rw [Symbols.global_renamed injective]
    exact renamedResult_bind rename fun _ => rfl
  · rw [Scope.declare_renamed]
    exact renamedResult_bind rename fun _ => rfl

theorem jumpOver_renamed (rename : String → String) (when : Jump) (distance : Nat)
    : renamedResult rename id (jumpOver when distance) = jumpOver when distance := by
  unfold jumpOver
  split <;> rfl

theorem parameterScope_renamed (params : List String)
    : parameterScope (params.map rename)
      = renamedResult rename (Scope.renamed rename) (parameterScope params) := by
  have step : ∀ scope : Scope,
      (params.map rename).foldlM (fun (scope : Scope) name => (scope.declare name).map Prod.snd)
          (scope.renamed rename)
        = renamedResult rename (Scope.renamed rename)
          (params.foldlM (fun (scope : Scope) name => (scope.declare name).map Prod.snd)
            scope) := by
    induction params with
    | nil => exact fun _ => rfl
    | cons name rest ih =>
        intro scope
        rw [List.map_cons, List.foldlM_cons, List.foldlM_cons, Scope.declare_renamed]
        cases scope.declare name with
        | error error => rfl
        | ok declared => exact ih declared.2
  exact step Scope.root.enter

theorem closeScope_renamed (code : List Instruction) (scope : Scope)
    : closeScope code (scope.renamed rename)
      = renamedResult rename (fun closed => (closed.1, closed.2.renamed rename))
          (closeScope code scope) := by
  unfold closeScope
  rw [Scope.leave_renamed]
  exact renamedResult_bind rename fun _ => rfl

theorem Stmt.isBlock_renamed (statement : Stmt)
    : (statement.renamed rename).isBlock = statement.isBlock := by
  cases statement with
  | block span body => rfl
  | branch span condition yes no => cases no <;> rfl
  | ret span value => cases value <;> rfl
  | define span name value => cases value <;> rfl
  | discard span value => rfl

theorem needsScope_renamed (scope : Scope) (side : Stmt)
    : needsScope (scope.renamed rename) (side.renamed rename) = needsScope scope side := by
  rw [needsScope, needsScope, side.isBlock_renamed]
  rfl

theorem sideScope_renamed (scope : Scope) (side : Stmt)
    : sideScope (scope.renamed rename) (side.renamed rename)
      = (sideScope scope side).renamed rename := by
  rw [sideScope, sideScope, needsScope_renamed]
  split <;> rfl

theorem closeSide_renamed (outer : Scope) (side : Stmt) (code : List Instruction) (scope : Scope)
    : closeSide (outer.renamed rename) (side.renamed rename) code (scope.renamed rename)
      = renamedResult rename (fun closed => (closed.1, closed.2.renamed rename))
          (closeSide outer side code scope) := by
  rw [closeSide, closeSide, needsScope_renamed]
  split
  · exact closeScope_renamed code scope
  · rfl

mutual

/-- A statement always returns under other names just if it does. -/
theorem Stmt.alwaysReturns_renamed (statement : Stmt)
    : (statement.renamed rename).alwaysReturns = statement.alwaysReturns := by
  cases statement with
  | block span body => exact Stmt.anyReturns_renamed body
  | branch span condition yes no =>
      cases no with
      | none => rfl
      | some no =>
          simp only [Stmt.renamed, Stmt.alwaysReturns, Stmt.alwaysReturns_renamed yes,
            Stmt.alwaysReturns_renamed no]
  | ret span value => cases value <;> rfl
  | define span name value => cases value <;> rfl
  | discard span value => rfl
termination_by structural statement

theorem Stmt.anyReturns_renamed (body : List Stmt)
    : Stmt.anyReturns (renamedBody rename body) = Stmt.anyReturns body := by
  cases body with
  | nil => rfl
  | cons statement rest =>
      simp only [renamedBody, Stmt.anyReturns, Stmt.alwaysReturns_renamed statement,
        Stmt.anyReturns_renamed rest]
termination_by structural body

end

theorem epilogue_renamed (body : List Stmt)
    : epilogue (renamedBody rename body) = epilogue body := by
  rw [epilogue, epilogue, Stmt.anyReturns_renamed]

theorem length_renamedArgs (args : List Expr)
    : (renamedArgs rename args).length = args.length := by
  induction args with
  | nil => rfl
  | cons arg rest ih => rw [renamedArgs, List.length_cons, List.length_cons, ih]

-----------------------------------------------------------------------------------------
-- Trees
-----------------------------------------------------------------------------------------

mutual

/-- An expression has the same code under other names, by induction on the expression. -/
theorem Expr.generate_renamed (injective : Function.Injective rename) (expression : Expr)
    (scope : Scope) (symbols : Symbols)
    : (expression.renamed rename).generate (scope.renamed rename) (symbols.renamed rename)
      = renamedResult rename (renamedCode rename) (expression.generate scope symbols) := by
  cases expression with
  | literal value => exact literal_renamed value symbols
  | name name => exact load_renamed injective name scope symbols
  | binary op left right =>
      simp only [Expr.renamed, Expr.generate, Expr.generate_renamed injective left]
      refine renamedResult_bind rename fun ⟨leftCode, middle⟩ => ?_
      simp only [renamedCode, Expr.generate_renamed injective right]
      exact renamedResult_bind rename fun _ => rfl
  | logical op left right =>
      simp only [Expr.renamed, Expr.generate, Expr.generate_renamed injective left]
      refine renamedResult_bind rename fun ⟨leftCode, middle⟩ => ?_
      simp only [renamedCode, Expr.generate_renamed injective right]
      refine renamedResult_bind rename fun ⟨rightCode, after⟩ => ?_
      exact renamedResult_bind_plain rename (jumpOver_renamed rename _ _) fun _ => rfl
  | assign name how value =>
      cases how with
      | set =>
          simp only [Expr.renamed, Expr.generate, Expr.generate_renamed injective value]
          refine renamedResult_bind rename fun ⟨valueCode, middle⟩ => ?_
          simp only [renamedCode, store_renamed injective]
          exact renamedResult_bind rename fun _ => rfl
      | update op =>
          simp only [Expr.renamed, Expr.generate, load_renamed injective]
          refine renamedResult_bind rename fun ⟨loadCode, loaded⟩ => ?_
          simp only [renamedCode, Expr.generate_renamed injective value]
          refine renamedResult_bind rename fun ⟨valueCode, middle⟩ => ?_
          simp only [renamedCode, store_renamed injective]
          exact renamedResult_bind rename fun _ => rfl
  | call callee args =>
      unfold Expr.renamed Expr.generate
      rw [length_renamedArgs]
      split
      · rfl
      simp only [Expr.generate_renamed injective callee]
      refine renamedResult_bind rename fun ⟨calleeCode, middle⟩ => ?_
      simp only [renamedCode, generateArgs_renamed injective args]
      exact renamedResult_bind rename fun _ => rfl
  | function params body =>
      unfold Expr.renamed Expr.generate
      rw [List.length_map]
      split
      · rfl
      simp only [parameterScope_renamed, epilogue_renamed]
      refine renamedResult_bind rename fun own => ?_
      refine (congrArg (· >>= _) (generateBody_renamed injective body own.enter symbols)).trans ?_
      refine renamedResult_bind rename fun ⟨bodyCode, inner, middle⟩ => ?_
      simp only [renamedCodeIn, closeScope_renamed]
      refine renamedResult_bind rename fun ⟨closed, outer⟩ => ?_
      simp only [Symbols.addFunction_renamed]
      exact renamedResult_bind rename fun _ => rfl
termination_by structural expression

theorem generateArgs_renamed (injective : Function.Injective rename) (args : List Expr)
    (scope : Scope) (symbols : Symbols)
    : generateArgs (renamedArgs rename args) (scope.renamed rename) (symbols.renamed rename)
      = renamedResult rename (renamedCode rename) (generateArgs args scope symbols) := by
  cases args with
  | nil => rfl
  | cons arg rest =>
      simp only [renamedArgs, generateArgs, Expr.generate_renamed injective arg]
      refine renamedResult_bind rename fun ⟨argCode, middle⟩ => ?_
      simp only [renamedCode, generateArgs_renamed injective rest]
      exact renamedResult_bind rename fun _ => rfl
termination_by structural args

/-- A statement has the same code and declares the same local under other names. -/
theorem Stmt.generate_renamed (injective : Function.Injective rename) (statement : Stmt)
    (scope : Scope) (symbols : Symbols)
    : (statement.renamed rename).generate (scope.renamed rename) (symbols.renamed rename)
      = renamedResult rename (renamedCodeIn rename) (statement.generate scope symbols) := by
  cases statement with
  | block span body =>
      simp only [Stmt.renamed, Stmt.generate]
      refine (congrArg (· >>= _) (generateBody_renamed injective body scope.enter symbols)).trans ?_
      refine renamedResult_bind rename fun ⟨bodyCode, inner, after⟩ => ?_
      simp only [renamedCodeIn, closeScope_renamed]
      exact renamedResult_bind rename fun _ => rfl
  | branch span condition yes no =>
      cases no with
      | none =>
          simp only [Stmt.renamed, Stmt.generate, Expr.generate_renamed injective condition]
          refine renamedResult_bind rename fun ⟨testCode, tested⟩ => ?_
          simp only [renamedCode, sideScope_renamed, Stmt.generate_renamed injective yes]
          refine renamedResult_bind rename fun ⟨yesCode, inner, after⟩ => ?_
          simp only [renamedCodeIn, closeSide_renamed]
          refine renamedResult_bind rename fun ⟨yesCode, outer⟩ => ?_
          exact renamedResult_bind_plain rename (jumpOver_renamed rename _ _) fun _ => rfl
      | some no =>
          simp only [Stmt.renamed, Stmt.generate, Expr.generate_renamed injective condition,
            Stmt.alwaysReturns_renamed]
          refine renamedResult_bind rename fun ⟨testCode, tested⟩ => ?_
          simp only [renamedCode, sideScope_renamed, Stmt.generate_renamed injective yes]
          refine renamedResult_bind rename fun ⟨yesCode, inner, middle⟩ => ?_
          simp only [renamedCodeIn, closeSide_renamed]
          refine renamedResult_bind rename fun ⟨yesCode, between⟩ => ?_
          refine renamedResult_bind_plain rename (jumpOver_renamed rename _ _) fun skipYes => ?_
          simp only [sideScope_renamed, Stmt.generate_renamed injective no]
          refine renamedResult_bind rename fun ⟨noCode, inner, after⟩ => ?_
          simp only [renamedCodeIn, closeSide_renamed]
          refine renamedResult_bind rename fun ⟨noCode, outer⟩ => ?_
          split
          · rfl
          · exact renamedResult_bind_plain rename (jumpOver_renamed rename _ _) fun _ => rfl
  | ret span value =>
      cases value with
      | none => rfl
      | some value =>
          simp only [Stmt.renamed, Stmt.generate, Expr.generate_renamed injective value]
          exact renamedResult_bind rename fun _ => rfl
  | define span name value =>
      cases value with
      | none =>
          simp only [Stmt.renamed, Stmt.generate, define_renamed injective]
          exact renamedResult_bind rename fun _ => rfl
      | some value =>
          simp only [Stmt.renamed, Stmt.generate, Expr.generate_renamed injective value]
          refine renamedResult_bind rename fun ⟨valueCode, middle⟩ => ?_
          simp only [renamedCode, define_renamed injective]
          exact renamedResult_bind rename fun _ => rfl
  | discard span value =>
      simp only [Stmt.renamed, Stmt.generate, Expr.generate_renamed injective value]
      exact renamedResult_bind rename fun _ => rfl
termination_by structural statement

theorem generateBody_renamed (injective : Function.Injective rename) (body : List Stmt)
    (scope : Scope) (symbols : Symbols)
    : generateBody (renamedBody rename body) (scope.renamed rename) (symbols.renamed rename)
      = renamedResult rename (renamedCodeIn rename) (generateBody body scope symbols) := by
  cases body with
  | nil => rfl
  | cons statement rest =>
      simp only [renamedBody, generateBody, Stmt.generate_renamed injective statement,
        Stmt.alwaysReturns_renamed]
      refine renamedResult_bind rename fun ⟨first, between, middle⟩ => ?_
      split
      · rfl
      · simp only [renamedCodeIn, generateBody_renamed injective rest]
        exact renamedResult_bind rename fun _ => rfl
termination_by structural body

end

/-- The main code is the same under other names. -/
theorem generateMain_renamed (injective : Function.Injective rename) (statements : List Stmt)
    (symbols : Symbols)
    : generateMain (renamedBody rename statements) (symbols.renamed rename)
      = renamedResult rename (renamedCode rename) (generateMain statements symbols) := by
  induction statements generalizing symbols with
  | nil => rfl
  | cons statement rest ih =>
      have first := Stmt.generate_renamed injective statement Scope.root symbols
      rw [show Scope.root.renamed rename = Scope.root from rfl] at first
      simp only [renamedBody, generateMain, first]
      refine renamedResult_bind rename fun ⟨code, outer, middle⟩ => ?_
      simp only [renamedCodeIn, ih]
      exact renamedResult_bind rename fun _ => rfl

end

-----------------------------------------------------------------------------------------
-- Programs
-----------------------------------------------------------------------------------------

/-- The names of globals are in no program. -/
theorem Program.ofCode_renamed (rename : String → String) (main : List Instruction)
    (symbols : Symbols)
    : ofCode main (symbols.renamed rename) = ofCode main symbols := by
  simp only [ofCode, Symbols.renamed, Symbols.globalCount, Array.size_map]

theorem Symbols.initial_renamed {rename : String → String}
    (fixed : ∀ name ∈ reservedGlobals, rename name = name)
    : initial.renamed rename = initial := by
  have names : reservedGlobals.map rename = reservedGlobals :=
    (List.map_congr_left fixed).trans (List.map_id' reservedGlobals)
  simp only [renamed, initial, List.map_toArray, names]

/-- A script under other names, one for each, that keeps the names of the built-in globals
compiles to the same program, or fails with the same error under its other name.
-/
theorem Script.compile_renamed {rename : String → String} (injective : Function.Injective rename)
    (fixed : ∀ name ∈ reservedGlobals, rename name = name) (script : Script)
    : (script.renamed rename).compile
      = script.compile.mapError (CompileError.renamed rename) := by
  have main := generateMain_renamed injective script.statements .initial
  rw [Symbols.initial_renamed fixed] at main
  rw [Script.compile_eq, Script.compile_eq, Script.renamed, main]
  cases generateMain script.statements .initial with
  | error error => rfl
  | ok main => exact congrArg Except.ok (Program.ofCode_renamed rename main.1 main.2)

/-- Two names that mean different variables in turn:
`let x; let y = function (x) { let y = x; { let x = y; $emit(x, z); } return y; };`.
-/
def Script.shadowing : Script where
  statements := [
    .define Span.unknown "x" none,
    .define Span.unknown "y"
      (some
        (.function ["x"] [
          .define Span.unknown "y" (some (.name "x")),
          .block Span.unknown [
            .define Span.unknown "x" (some (.name "y")),
            .discard Span.unknown (.call (.name "$emit") [.name "x", .name "z"])],
          .ret Span.unknown (some (.name "y"))]))]

def Program.shadowing : Program where
  main := #[0, 4, 9, 3, 1, 0, 5, 1, 9, 5, 1]
  functions := #[some ⟨1, #[6, 0, 6, 1, 8, 1, 6, 2, 8, 4, 10, 2, 1, 1, 6, 1, 11, 1]⟩]
  strings := #[]
  globalCount := 6

/-- Exchanging the two names changes nothing. -/
theorem Script.compile_renamed_shadowing
    : Function.Injective (Equiv.swap "x" "y")
      ∧ (∀ name ∈ reservedGlobals, Equiv.swap "x" "y" name = name)
      ∧ Script.shadowing.compile = .ok Program.shadowing
      ∧ (Script.shadowing.renamed (Equiv.swap "x" "y")).compile = .ok Program.shadowing := by
  have injective : Function.Injective (Equiv.swap "x" "y") := (Equiv.swap "x" "y").injective
  have fixed : ∀ name ∈ reservedGlobals, Equiv.swap "x" "y" name = name := by decide
  have compiled : Script.shadowing.compile = .ok Program.shadowing := by decide +kernel
  have renamed := Script.compile_renamed injective fixed Script.shadowing
  rw [compiled] at renamed
  exact ⟨injective, fixed, compiled, renamed⟩

end StackScript
