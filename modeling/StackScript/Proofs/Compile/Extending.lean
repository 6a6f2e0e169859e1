import Mathlib.Control.Monad.Basic
import StackScript.Proofs.Compile.Assembly

/-! Scripts with further statements behind them. What is compiled for the front statements
stays as it is: jumps are filled in within the statement that they belong to, and the tables
grow at their ends. So the program of a part is the beginning of that of the whole.
-/

namespace StackScript

/-- One program is the beginning of another: its main code goes on there, and what the tables
hold they hold there in the same places.
-/
structure Program.Begins (part whole : Program) : Prop where
  main : part.main.toList <+: whole.main.toList
  functions : part.functions.toList <+: whole.functions.toList
  strings : part.strings.toList <+: whole.strings.toList
  globalCount : part.globalCount ≤ whole.globalCount

/-- More main code and grown tables continue a program. -/
theorem Program.Begins.of_grows {front rest : List Instruction} {middle after : Symbols}
    (grown : middle.Grows after)
    : (Program.ofCode front middle).Begins (Program.ofCode (front ++ rest) after) := by
  have begins := grown.begins
  constructor
  case main => exact ⟨encodeAll rest, (encodeAll_append front rest).symm⟩
  case functions =>
    simp only [ofCode, Array.toList_map]
    exact begins.functions.map some
  case strings => exact begins.strings
  case globalCount => exact Nat.succ_le_succ begins.globals_size

/-- If statements compile with others behind them, they compile without them too, to the
beginning of the program. The globals of the front statements keep their slots.
-/
theorem Script.compile_begins {front behind : List Stmt} {whole : Program}
    (compiled : Script.compile ⟨front ++ behind⟩ = .ok whole)
    : ∃ part,
        Script.compile ⟨front⟩ = .ok part
        ∧ part.Begins whole
        ∧ Script.globals ⟨front⟩ <+: Script.globals ⟨front ++ behind⟩ := by
  obtain ⟨main, after, assembles⟩ := Script.compile_eq_ok compiled
  obtain ⟨frontCode, middle, rest, front', rest', rfl⟩ := generateMain_split assembles.generated
  have grown : middle.Grows after := (generateMain_refers rest').grows
  have alone : Script.Assembles ⟨front⟩ frontCode middle (.ofCode frontCode middle) := ⟨front', rfl⟩
  refine ⟨.ofCode frontCode middle, ?_, ?_, ?_⟩
  · rw [Script.compile_eq, front']
    rfl
  · rw [assembles.program_eq]
    exact .of_grows grown
  · rw [← alone.globals_eq, ← assembles.globals_eq]
    exact grown.begins.globals

/-- A function and its name: `let f = function (x) { if (x) return true; };`. -/
def Stmt.namedFunction : Stmt :=
  .define Span.unknown "f"
    (some
      (.function ["x"]
        [.branch Span.unknown (.name "x")
          (.ret Span.unknown (some (.literal (.bool true)))) none]))

/-- A use of it: `if (f(null) == true) g = function () { return f; };`. -/
def Stmt.usingFunction : Stmt :=
  .branch Span.unknown
    (.binary .equal (.call (.name "f") [.literal .null]) (.literal (.bool true)))
    (.discard Span.unknown
      (.assign "g" .set (.function [] [.ret Span.unknown (some (.name "f"))])))
    none

def Program.namedAndUsed : Program where
  main := #[0, 5, 1, 9, 3, 1, 8, 3, 0, 4, 10, 1, 0, 3, 1, 17, 3, 6, 0, 0, 5, 2, 9, 4, 1]
  functions := #[
    some ⟨1, #[6, 0, 3, 4, 0, 0, 3, 1, 11, 0, 4, 11]⟩,
    some ⟨0, #[8, 3, 11]⟩]
  strings := #[]
  globalCount := 5

theorem Script.compile_begins_namedFunction
    : Script.compile ⟨[.namedFunction] ++ [.usingFunction]⟩ = .ok Program.namedAndUsed
      ∧ ∃ part,
          Script.compile ⟨[.namedFunction]⟩ = .ok part
          ∧ part.Begins Program.namedAndUsed
          ∧ Script.globals ⟨[.namedFunction]⟩
            <+: Script.globals ⟨[.namedFunction] ++ [.usingFunction]⟩ := by
  have compiled : Script.compile ⟨[.namedFunction] ++ [.usingFunction]⟩
      = .ok Program.namedAndUsed := by
    decide +kernel
  exact ⟨compiled, Script.compile_begins compiled⟩

end StackScript
