import StackScript.Proofs.Bytecode.Discipline
import StackScript.Proofs.Compile.Filling
import StackScript.Proofs.Compile.Sealing
import StackScript.Proofs.Compile.Writing

/-! Compiled programs as a whole: the code of the main statements and the tables behind it.
What is known of generated code makes them disciplined.
-/

namespace StackScript

open Generate

-----------------------------------------------------------------------------------------
-- Main code
-----------------------------------------------------------------------------------------

/-- The code of the main statements. They stand outside all scopes, and unlike in a block the
statements behind one that always returns have code too.
-/
def generateMain : List Stmt → Symbols → Generated
  | [], symbols => .ok ([], symbols)
  | statement :: rest, symbols => do
      let (code, _, symbols) ← statement.generate Scope.root symbols
      let (restCode, symbols) ← generateMain rest symbols
      return (code ++ restCode, symbols)

/-- Outside all scopes a statement leaves none behind. -/
theorem Stmt.generate_root {statement : Stmt} {outer : Scope} {symbols after : Symbols}
    {code : List Instruction}
    (generated : statement.generate Scope.root symbols = .ok (code, outer, after))
    : outer = Scope.root := by
  have behind := Stmt.generate_scope generated .root
  rwa [show Scope.root.depth = 0 from rfl, statement.declares_zero, Scope.extend_nil] at behind

theorem generateMain_cons {statement : Stmt} {rest : List Stmt} {symbols after : Symbols}
    {code : List Instruction}
    (generated : generateMain (statement :: rest) symbols = .ok (code, after))
    : ∃ first middle restCode,
        statement.generate Scope.root symbols = .ok (first, Scope.root, middle)
        ∧ generateMain rest middle = .ok (restCode, after)
        ∧ code = first ++ restCode := by
  simp only [generateMain, bind_eq_ok, pure_eq_ok, Prod.exists, Prod.mk.injEq] at generated
  obtain ⟨first, outer, middle, first', restCode, _, rest', rfl, rfl⟩ := generated
  obtain rfl := Stmt.generate_root first'
  exact ⟨first, middle, restCode, first', rest', rfl⟩

/-- The main code of statements in a row is that of the front ones and of those behind them. -/
theorem generateMain_split {before behind : List Stmt} {symbols after : Symbols}
    {code : List Instruction}
    (generated : generateMain (before ++ behind) symbols = .ok (code, after))
    : ∃ front middle rest,
        generateMain before symbols = .ok (front, middle)
        ∧ generateMain behind middle = .ok (rest, after)
        ∧ code = front ++ rest := by
  induction before generalizing symbols code with
  | nil => exact ⟨[], symbols, code, rfl, generated, rfl⟩
  | cons statement others ih =>
      obtain ⟨first, middle, _, first', others', rfl⟩ := generateMain_cons generated
      obtain ⟨front, middle', rest, front', rest', rfl⟩ := ih others'
      refine ⟨first ++ front, middle', rest, ?_, rest', (List.append_assoc _ _ _).symm⟩
      simp only [generateMain, bind_eq_ok, pure_eq_ok, Prod.exists, Prod.mk.injEq]
      exact ⟨first, Scope.root, middle, first', front, middle', front', rfl, rfl⟩

/-- Writing the main statements behind others adds their code, by induction on the statements. -/
theorem foldlM_write_eq (statements : List Stmt) (front : List Instruction) (symbols : Symbols)
    : statements.foldlM
        (fun ((body, symbols) : Body × Symbols) statement => statement.write body symbols)
        (Body.empty.emitCode front, symbols)
      = (fun main => (Body.empty.emitCode (front ++ main.1), main.2))
        <$> generateMain statements symbols := by
  induction statements generalizing front symbols with
  | nil =>
      exact congrArg (fun code => Except.ok (Body.empty.emitCode code, symbols))
        (List.append_nil front).symm
  | cons statement rest ih =>
      have outermost : (Body.empty.emitCode front).scope = Scope.root := rfl
      simp only [List.foldlM_cons, generateMain, map_bind]
      rw [Stmt.write_eq, outermost, bind_map_left]
      refine bind_congr_of_ok fun ⟨first, outer, middle⟩ first' => ?_
      obtain rfl := Stmt.generate_root first'
      have rooted : { Body.empty with scope := Scope.root } = Body.empty := rfl
      simp only [Body.extendIn_mk, Body.withScope_emitCode, Body.emitCode_emitCode, rooted, ih,
        map_eq_pure_bind, pure_bind, List.append_assoc]

theorem generateMain_levels {statements : List Stmt} {symbols after : Symbols}
    {code : List Instruction} (generated : generateMain statements symbols = .ok (code, after))
    : Levels 0 code 0 := by
  induction statements generalizing symbols code with
  | nil =>
      cases generated
      exact .nil 0
  | cons statement rest ih =>
      obtain ⟨first, _, restCode, first', rest', rfl⟩ := generateMain_cons generated
      have levels : Levels 0 first 0 := Stmt.generate_levels first' .root
      exact levels.append (ih rest')

theorem generateMain_refers {statements : List Stmt} {symbols after : Symbols}
    {code : List Instruction} (generated : generateMain statements symbols = .ok (code, after))
    : Refers symbols code after := by
  induction statements generalizing symbols code with
  | nil =>
      cases generated
      exact .nil _
  | cons statement rest ih =>
      obtain ⟨_, _, _, first', rest', rfl⟩ := generateMain_cons generated
      exact (Stmt.generate_refers first').append (ih rest')

theorem generateMain_functions {statements : List Stmt} {symbols after : Symbols}
    {code : List Instruction} (generated : generateMain statements symbols = .ok (code, after))
    : AddsFunctions symbols (statements.flatMap Stmt.literals) after := by
  induction statements generalizing symbols code with
  | nil =>
      cases generated
      exact .of_same .refl rfl
  | cons statement rest ih =>
      obtain ⟨_, _, _, first', rest', -⟩ := generateMain_cons generated
      exact (Stmt.generate_functions first').append (ih rest')

/-- What the main statements ask for explains what comes of them, by induction on them. -/
theorem generateMain_explained {nodes : List Node} (statements : List Stmt) (symbols : Symbols)
    (within : statements.flatMap (Stmt.nodes false []) ⊆ nodes)
    : (inventoryOfMain statements).Explains nodes symbols Prod.snd
        (generateMain statements symbols) := by
  induction statements generalizing symbols with
  | nil => exact Inventory.Fills.empty symbols
  | cons statement rest ih =>
      obtain ⟨statement', rest'⟩ := List.append_subset.mp within
      have both
          : (statement.inventory false [] ++ inventoryOfMain rest).Explains nodes symbols Prod.snd
              (generateMain (statement :: rest) symbols) :=
        (statement.generate_explained Scope.root symbols .root statement').bind
          fun first _ => (ih first.2.2 rest').andThen fun _ _ => Inventory.Fills.empty _
      exact both

-----------------------------------------------------------------------------------------
-- Functions
-----------------------------------------------------------------------------------------

/-- The body of a function keeps the height of its arguments. -/
theorem FunctionLiteral.body_levels {literal : FunctionLiteral} {before after : Symbols}
    {bodyCode closed : List Instruction} {inner outer : Scope}
    (generated : generateBody literal.body literal.scope.enter before = .ok (bodyCode, inner, after))
    (closes : closeScope bodyCode inner = .ok (closed, outer))
    : Levels literal.params.length closed literal.params.length := by
  have nested := literal.scope_nested
  have levels := generateBody_levels generated nested.enter
  rw [generateBody_scope generated nested.enter] at levels closes
  have whole := closeScope_levels closes nested declaredIn_depth levels
  have parameters : literal.scope.locals.length = literal.params.length := by
    simp [scope]
  rwa [parameters] at whole

namespace FunctionLiteral.Compiled

variable {literal : FunctionLiteral} {before after : Symbols} {code : List Instruction}
  (compiled : literal.Compiled before after code)

include compiled

/-- The code of a function finds its arguments above the base. -/
theorem balanced : Balanced literal.params.length code := by
  obtain ⟨-, _, closed, _, _, body', closes, rfl⟩ := compiled
  have levels := FunctionLiteral.body_levels body' closes
  refine levels.balanced.append ?_
  rw [levels.behind]
  unfold epilogue
  split
  · trivial
  · exact ((Levels.push _ .null).append (.ret _)).balanced

theorem returning : Returning code := by
  obtain ⟨-, _, closed, _, _, body', closes, rfl⟩ := compiled
  have levels := FunctionLiteral.body_levels body' closes
  exact returning_epilogue body' literal.scope_nested.enter closes levels.balanced

theorem refers : Refers before code after := by
  obtain ⟨-, _, closed, _, _, body', closes, rfl⟩ := compiled
  refine (closeScope_refers closes (generateBody_refers body')).append ?_
  unfold epilogue
  split
  · exact .nil after
  · have null : Refers after [.push .null] after := .single after trivial
    exact null.snoc trivial

end FunctionLiteral.Compiled

-----------------------------------------------------------------------------------------
-- Programs
-----------------------------------------------------------------------------------------

/-- The main code of a script, and the tables behind it. -/
structure Script.Assembles (script : Script) (main : List Instruction) (symbols : Symbols)
    (program : Program)
    : Prop where
  generated : generateMain script.statements .initial = .ok (main, symbols)
  program_eq
    : program
      = ⟨(encodeAll main).toArray, symbols.functions.map some, symbols.strings.entries,
          symbols.globalCount⟩

/-- The program with the given main code and tables. -/
def Program.ofCode (main : List Instruction) (symbols : Symbols) : Program :=
  ⟨(encodeAll main).toArray, symbols.functions.map some, symbols.strings.entries,
    symbols.globalCount⟩

/-- Compiling a script is generating its main code, and fails just where that fails. -/
theorem Script.compile_eq (script : Script)
    : script.compile
      = (fun main => Program.ofCode main.1 main.2)
        <$> generateMain script.statements .initial := by
  have written := foldlM_write_eq script.statements [] .initial
  rw [Body.emitCode_nil] at written
  rw [compile, written, bind_map_left, map_eq_pure_bind]
  refine bind_congr ?_
  rintro ⟨main, symbols⟩
  have bytes : (Body.empty.emitCode main).code = (encodeAll main).toArray :=
    Array.toList_inj.mp (Body.toList_emitCode _ _)
  simp only [List.nil_append, bytes]
  rfl

theorem Script.compile_eq_ok {script : Script} {program : Program}
    (compiled : script.compile = .ok program)
    : ∃ main symbols, script.Assembles main symbols program := by
  rw [Script.compile_eq] at compiled
  obtain ⟨⟨main, symbols⟩, generated, rfl⟩ := map_eq_ok.mp compiled
  exact ⟨main, symbols, generated, rfl⟩

namespace Script.Assembles

variable {script : Script} {main : List Instruction} {symbols : Symbols} {program : Program}
  (assembles : script.Assembles main symbols program)

include assembles

theorem formed : symbols.WellFormed :=
  Symbols.WellFormed.initial.grows (generateMain_refers assembles.generated).grows

theorem literals_size : symbols.functions.size = script.literals.length := by
  have size := (generateMain_functions assembles.generated).size
  rw [show Symbols.initial.functions.size = 0 from rfl, Nat.zero_add] at size
  exact size

theorem globals_eq : symbols.globals.toList = script.globals := by
  have explained :=
    generateMain_explained script.statements .initial (List.Subset.refl script.nodes)
  rw [assembles.generated] at explained
  exact explained.globals

/-- The functions of the program are those of the literals of the script, from one on. -/
theorem function_at {place : Nat} {literal : FunctionLiteral}
    (found : script.literals[place]? = some literal)
    : ∃ before after code, literal.Entered symbols place before after code := by
  have added := generateMain_functions assembles.generated
  have entered := added.entered .initial place literal found
  rwa [show Symbols.initial.functions.size = 0 from rfl, Nat.zero_add] at entered

/-- A function of the program is in the table, one place before its number. -/
theorem function?_eq_some {id : Nat} {function : Function}
    : program.function? id = some function
      ↔ ∃ place, id = place + 1 ∧ symbols.functions[place]? = some function := by
  rw [assembles.program_eq]
  cases id with
  | zero => simp [Program.function?]
  | succ place =>
      cases found : symbols.functions[place]? with
      | none => simp [Program.function?, found]
      | some entry => simp [Program.function?, found]

theorem mem_function? {id : Nat} (positive : 0 < id) (inside : id ≤ symbols.functions.size)
    : (program.function? id).isSome := by
  have found : symbols.functions[id - 1]? = some symbols.functions[id - 1] :=
    Array.getElem?_eq_getElem (by omega)
  have known : program.function? id = some symbols.functions[id - 1] :=
    assembles.function?_eq_some.mpr ⟨id - 1, by omega, found⟩
  rw [known]
  rfl

/-- What is in the tables behind the main code is in those of the program. -/
theorem knownIn {instruction : Instruction} (refers : instruction.RefersTo symbols)
    : instruction.KnownIn program := by
  unfold Instruction.KnownIn
  split
  · rw [assembles.program_eq]
    exact refers
  · exact assembles.mem_function? refers.1 refers.2
  · trivial

theorem main_piece : program.Piece 0 program.main main where
  bytes_eq := by rw [assembles.program_eq]
  balanced := (generateMain_levels assembles.generated).balanced
  known := by
    intro instruction member
    exact assembles.knownIn
      ((generateMain_refers assembles.generated).refers .initial instruction member)
  closed := fun other => absurd rfl other
  main := fun _ => (generateMain_levels assembles.generated).behind

theorem function_piece {place : Nat} {literal : FunctionLiteral} {before after : Symbols}
    {code : List Instruction} (entered : literal.Entered symbols place before after code)
    : program.Piece (place + 1) (encodeAll code).toArray code where
  bytes_eq := rfl
  balanced := by
    have found := assembles.function?_eq_some.mpr ⟨place, rfl, entered.found⟩
    have arity : (UInt8.ofNat literal.params.length).toNat = literal.params.length :=
      UInt8.toNat_ofNat_of_lt (Nat.lt_succ_of_le entered.compiled.few)
    rw [program.arity_of_function found]
    simpa only [arity] using entered.compiled.balanced
  known := by
    intro instruction member
    have refers := entered.compiled.refers.refers entered.formed instruction member
    exact assembles.knownIn (refers.mono entered.grown.begins)
  closed := fun _ => entered.compiled.returning.closed
  main := nofun

/-- Every piece of code of the program is the main code or that of a function literal. -/
theorem code_cases {id : Nat} {bytes : Array UInt8} (found : program.code? id = some bytes)
    : (id = 0 ∧ bytes = (encodeAll main).toArray)
      ∨ ∃ (place : Nat) (literal : FunctionLiteral) (before after : Symbols)
          (code : List Instruction),
          id = place + 1
          ∧ literal.Entered symbols place before after code
          ∧ bytes = (encodeAll code).toArray := by
  cases id with
  | zero =>
      obtain rfl := Option.some.inj found
      exact .inl ⟨rfl, assembles.main_piece.bytes_eq⟩
  | succ place =>
      obtain ⟨function, known, rfl⟩ := Option.map_eq_some_iff.mp found
      obtain ⟨_, same, inTable⟩ := assembles.function?_eq_some.mp known
      obtain rfl := Nat.succ.inj same
      obtain ⟨inside, -⟩ := Array.getElem?_eq_some_iff.mp inTable
      rw [assembles.literals_size] at inside
      obtain ⟨before, after, code, entered⟩ :=
        assembles.function_at (List.getElem?_eq_getElem inside)
      obtain rfl := Option.some.inj (inTable.symm.trans entered.found)
      exact .inr ⟨place, _, before, after, code, rfl, entered, rfl⟩

/-- A compiled program keeps to the operand stack. -/
theorem disciplined : ∃ code, program.Disciplined code ∧ code 0 = main := by
  have pieces : ∀ id, ∃ code,
      (∀ bytes, program.code? id = some bytes → program.Piece id bytes code)
      ∧ (id = 0 → code = main) := by
    intro id
    cases found : program.code? id with
    | none => exact ⟨main, nofun, fun _ => rfl⟩
    | some bytes =>
        rcases assembles.code_cases found with
          ⟨rfl, -⟩ | ⟨place, literal, _, _, code, rfl, entered, rfl⟩
        · obtain rfl := Option.some.inj found
          refine ⟨main, fun bytes same => ?_, fun _ => rfl⟩
          obtain rfl := Option.some.inj same
          exact assembles.main_piece
        · refine ⟨code, fun bytes same => ?_, nofun⟩
          obtain rfl := Option.some.inj same
          exact assembles.function_piece entered
  obtain ⟨code, pieces⟩ := Classical.axiomOfChoice pieces
  exact ⟨code, fun id => (pieces id).1, (pieces 0).2 rfl⟩

end Script.Assembles

end StackScript
