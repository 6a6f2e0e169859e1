import StackScript.Bytecode.Listing
import StackScript.Machine.Run

/-! Running a program one instruction at a time beside its listing. -/

namespace StackScript

/-- A run that a debugger drives, with the listing of its program. -/
structure Debugger (σ : Type) where
  machine : Machine
  listing : Listing
  state : State σ

namespace Debugger

variable {σ : Type}

/-- A debugger before the first instruction, if the program can be listed. -/
def start (program : Program) (sink : σ) : Except DecodeError (Debugger σ) :=
  (Listing.ofProgram program).map fun listing =>
    ⟨⟨program, Limits.default⟩, listing, State.initial program sink⟩

/-- The line of the listing that shows the next instruction. -/
def currentLine? (debugger : Debugger σ) : Option Nat :=
  debugger.listing.lineOf? debugger.state.function debugger.state.ip

/-- Carries out the next instruction. -/
def step [Sink σ] (debugger : Debugger σ) : Outcome × Debugger σ :=
  let (outcome, state) := debugger.machine.step debugger.state
  (outcome, { debugger with state := state })

/-- A step after which the run goes on brings the run nearer to its end. -/
theorem weight_lt_of_step [Sink σ] {debugger after : Debugger σ}
    (running : debugger.step = (.running, after))
    : after.machine.weight after.state < debugger.machine.weight debugger.state := by
  unfold step at running
  dsimp only at running
  obtain ⟨outcome, rfl⟩ := Prod.mk.inj running
  exact Machine.weight_lt_of_step (Prod.ext outcome rfl)

end Debugger

end StackScript
