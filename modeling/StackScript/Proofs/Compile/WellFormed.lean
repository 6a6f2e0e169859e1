import Mathlib.Control.Monad.Basic
import StackScript.Bytecode.Listing
import StackScript.Proofs.Bytecode.Offsets
import StackScript.Proofs.Compile.Assembly

/-! Compiled programs are well-formed, also where nothing reaches their code: the bytes are
those of instructions, jumps go to instructions of the same code, and what instructions name
is in the tables of the program.
-/

namespace StackScript

-----------------------------------------------------------------------------------------
-- What instructions name
-----------------------------------------------------------------------------------------

/-- What the instruction names is in the tables of the program. -/
def Instruction.NamedIn (program : Program) : Instruction → Prop
  | .push (.string index) => index.toNat < program.strings.size
  | .push (.function id) => id ≠ 0 ∧ (program.function? id.toNat).isSome
  | .access .getGlobal slot => 1 ≤ slot.toNat ∧ slot.toNat < program.globalCount
  | .access .setGlobal slot => 1 ≤ slot.toNat ∧ slot.toNat < program.globalCount
  | _ => True

/-- The code with the given number consists of instructions that name what the program has, and
every jump goes to one of them. Only the main code has an end to which a jump may go.
-/
structure Program.WellFormed (program : Program) (id : Nat) (code : Array UInt8)
    (listed : List (Nat × Instruction))
    : Prop where
  decoded : Instruction.decodeAll code = .ok listed
  encoded : (encodeAll (listed.map Prod.snd)).toArray = code
  named : ∀ entry ∈ listed, entry.2.NamedIn program
  targets
    : ∀ offset when distance,
        (offset, Instruction.jump when distance) ∈ listed
        → (∃ target, (Instruction.target offset distance, target) ∈ listed)
          ∨ (id = 0 ∧ Instruction.target offset distance = code.size)

/-- Jumps of balanced code go to an instruction or to the end. -/
theorem Balanced.target {height offset : Nat} {code : List Instruction} {when : Jump}
    {distance : UInt16} (balanced : Balanced height code)
    (found : (offset, Instruction.jump when distance) ∈ located code)
    : (∃ target, (Instruction.target offset distance, target) ∈ located code)
      ∨ (¬ JumpsInside code ∧ Instruction.target offset distance = codeLength code) := by
  obtain ⟨front, rest, rfl, rfl⟩ := mem_located_iff.mp found
  obtain ⟨-, lands, -⟩ := balanced.behind
  obtain ⟨skipped, target, rfl, length, -⟩ := lands when distance rfl
  have three : (Instruction.jump when distance).length = 3 := rfl
  have place : Instruction.target (codeLength front) distance
      = codeLength (front ++ .jump when distance :: skipped) := by
    rw [Instruction.target, codeLength_append, codeLength_cons, length, three]
    omega
  have split : front ++ Instruction.jump when distance :: (skipped ++ target)
      = (front ++ .jump when distance :: skipped) ++ target := by
    simp
  cases target with
  | nil =>
      refine .inr ⟨fun inside => inside.of_append length rfl, ?_⟩
      rw [place, List.append_nil]
  | cons first others =>
      refine .inl ⟨first, mem_located_iff.mpr ⟨_, others, split, place.symm⟩⟩

/-- Balanced code that names what the program has is well-formed. -/
theorem Program.WellFormed.of_code {program : Program} {id height : Nat}
    {code : List Instruction} (balanced : Balanced height code)
    (named : ∀ instruction ∈ code, instruction.NamedIn program)
    (inside : id ≠ 0 → JumpsInside code)
    : program.WellFormed id (encodeAll code).toArray (located code) where
  decoded := decodeAll_encodeAll code
  encoded := by rw [map_snd_located]
  named := by
    intro entry member
    refine named entry.2 ?_
    rw [← map_snd_located code]
    exact List.mem_map_of_mem member
  targets := by
    intro offset when distance found
    rcases balanced.target found with target | ⟨leaves, place⟩
    · exact .inl target
    · refine .inr ⟨?_, ?_⟩
      · exact Decidable.byContradiction fun function => leaves (inside function)
      · rw [place, List.size_toArray, length_encodeAll]

namespace Script.Assembles

variable {script : Script} {main : List Instruction} {symbols : Symbols} {program : Program}
  (assembles : script.Assembles main symbols program)

include assembles

theorem namedIn {instruction : Instruction} (refers : instruction.RefersTo symbols)
    : instruction.NamedIn program := by
  have count : program.globalCount = symbols.globals.size + 1 := by
    rw [assembles.program_eq]
    rfl
  unfold Instruction.NamedIn
  split
  · rw [assembles.program_eq]
    exact refers
  · rename_i id
    refine ⟨?_, assembles.mem_function? refers.1 refers.2⟩
    rintro rfl
    exact absurd refers.1 (Nat.lt_irrefl 0)
  · rw [count]
    exact ⟨refers.1, Nat.lt_succ_of_le refers.2⟩
  · rw [count]
    exact ⟨refers.1, Nat.lt_succ_of_le refers.2⟩
  · trivial

/-- Every piece of code of the program is well-formed. -/
theorem wellFormed {id : Nat} {bytes : Array UInt8} (found : program.code? id = some bytes)
    : ∃ listed, program.WellFormed id bytes listed := by
  rcases assembles.code_cases found with
    ⟨rfl, rfl⟩ | ⟨place, literal, before, after, code, rfl, entered, rfl⟩
  · refine ⟨located main, .of_code (generateMain_levels assembles.generated).balanced ?_ ?_⟩
    · intro instruction member
      exact assembles.namedIn
        ((generateMain_refers assembles.generated).refers .initial instruction member)
    · exact fun function => absurd rfl function
  · refine ⟨located code, .of_code entered.compiled.balanced ?_ ?_⟩
    · intro instruction member
      have refers := entered.compiled.refers.refers entered.formed instruction member
      exact assembles.namedIn (refers.mono entered.grown.begins)
    · exact fun _ => entered.compiled.returning.inside

/-- No entry of the function table is empty. -/
theorem code?_isSome {id : Nat} (inside : id ≤ program.functions.size)
    : (program.code? id).isSome := by
  cases id with
  | zero => rfl
  | succ place =>
      rw [assembles.program_eq, Array.size_map] at inside
      simpa [Program.code?] using assembles.mem_function? (Nat.succ_pos place) inside

end Script.Assembles

/-- A compiled program has code for every entry of its function table, and that code as well as
the main code is well-formed.
-/
theorem Script.compile_wellFormed {script : Script} {program : Program}
    (compiled : script.compile = .ok program)
    : (∀ id ≤ program.functions.size, (program.code? id).isSome)
      ∧ ∀ (id : Nat) (code : Array UInt8),
          program.code? id = some code → ∃ listed, program.WellFormed id code listed := by
  obtain ⟨main, symbols, assembles⟩ := Script.compile_eq_ok compiled
  exact ⟨fun id => assembles.code?_isSome, fun id code => assembles.wellFormed⟩

/-- A branch at the end of a function, and one at the end of the main code:
`function (x) { if (x) return; }; if (null) $emit;`.
-/
def Script.twoBranches : Script where
  statements := [
    .discard Span.unknown
      (.function ["x"]
        [.branch Span.unknown (.name "x") (.ret Span.unknown none) none]),
    .branch Span.unknown (.literal .null) (.discard Span.unknown (.name "$emit")) none]

def Program.twoBranches : Program where
  main := #[0, 5, 1, 1, 0, 4, 3, 3, 0, 8, 1, 1]
  functions := #[some ⟨1, #[6, 0, 3, 3, 0, 0, 4, 11, 0, 4, 11]⟩]
  strings := #[]
  globalCount := 3

theorem Script.compile_wellFormed_twoBranches
    : Script.twoBranches.compile = .ok Program.twoBranches
      ∧ (∀ id ≤ 1, (Program.twoBranches.code? id).isSome)
      ∧ ∀ (id : Nat) (code : Array UInt8),
          Program.twoBranches.code? id = some code
          → ∃ listed, Program.twoBranches.WellFormed id code listed := by
  have compiled : Script.twoBranches.compile = .ok Program.twoBranches := by
    decide +kernel
  exact ⟨compiled, Script.compile_wellFormed compiled⟩

end StackScript
