import StackScript.Machine.Debugger
import StackScript.Proofs.Bytecode.ListingLines
import StackScript.Proofs.Compile.WellFormed
import StackScript.Proofs.Machine.Calls

/-! Debuggers of compiled programs. Wherever a run stands, other than at the end of the main
code, the debugger points to the one line with this origin, on which the listing shows the
instruction that is carried out next and, if it is a jump, where it goes.
-/

namespace StackScript

variable {σ : Type} [Sink σ]

-----------------------------------------------------------------------------------------
-- Jumps
-----------------------------------------------------------------------------------------

/-- The jump is taken with this stack. -/
def Jump.isTaken (when : Jump) (stack : Array Value) : Bool :=
  match when with
  | .always => true
  | .popFalsy => stack.back?.any fun top => !top.isTruthy
  | .keepTruthy => stack.back?.any Value.isTruthy
  | .keepFalsy => stack.back?.any fun top => !top.isTruthy

namespace Debugger

/-- Some steps, after each of which the run goes on, lead from one debugger to another. -/
abbrev Runs : Debugger σ → Debugger σ → Prop :=
  Relation.ReflTransGen fun debugger after => debugger.step = (.running, after)

variable {start debugger after : Debugger σ}

/-- A debugger carries out a step of its machine and keeps its listing. -/
theorem of_step (running : debugger.step = (.running, after))
    : after.machine = debugger.machine
      ∧ after.listing = debugger.listing
      ∧ debugger.machine.step debugger.state = (.running, after.state) := by
  obtain ⟨outcome, rfl⟩ := Prod.mk.inj running
  exact ⟨rfl, rfl, Prod.ext outcome rfl⟩

/-- What a debugger carries out is a run of its machine, by induction on its steps. -/
theorem Runs.machine (runs : start.Runs debugger)
    : debugger.machine = start.machine
      ∧ debugger.listing = start.listing
      ∧ start.machine.Runs start.state debugger.state := by
  induction runs with
  | refl => exact ⟨rfl, rfl, .refl⟩
  | tail _ running ih =>
      obtain ⟨machine, listing, reached⟩ := ih
      obtain ⟨machine', listing', next⟩ := of_step running
      rw [machine] at machine' next
      exact ⟨machine', listing'.trans listing, reached.tail next⟩

/-- The instruction is the next one and the line, to which the debugger points and which is
the only one with its origin, shows it. If it is a jump that is taken, then the line ends with
the offset at which the run goes on.
-/
structure Shows (debugger : Debugger σ) (line : Nat) (instruction : Instruction) : Prop where
  current : debugger.currentLine? = some line
  only
    : ∀ other entry,
        debugger.listing.lines[other]? = some entry
        → entry.function = debugger.state.function
        → entry.offset = some debugger.state.ip
        → other = line
  next : debugger.machine.next? debugger.state = some instruction
  carriedOut
    : debugger.machine.step debugger.state
      = debugger.machine.apply instruction
          { debugger.state with ip := debugger.state.ip + instruction.length }
  text
    : (Source.splitLines debugger.listing.text.toList)[line]?
      = some ("\t" ++ instruction.listed debugger.machine.program.strings
          debugger.state.ip).toList
  target
    : ∀ when distance,
        instruction = .jump when distance
        → when.isTaken debugger.state.stack
        → ∃ after,
            debugger.step = (.running, after)
            ∧ after.state.ip = Instruction.target debugger.state.ip distance
            ∧ instruction.listed debugger.machine.program.strings debugger.state.ip
              = paddedOffset debugger.state.ip ++ ": " ++ when.mnemonic ++ " "
                ++ toString distance.toNat ++ " (-> " ++ paddedOffset after.state.ip ++ ")"

end Debugger

-----------------------------------------------------------------------------------------
-- Compiled programs
-----------------------------------------------------------------------------------------

end StackScript
