import Mathlib.Control.Monad.Basic
import StackScript.Machine.Run
import StackScript.Proofs.Compile.OuterReturns
import StackScript.Proofs.Machine.Frames

/-! Runs of compiled programs. Whatever the limits and the sink, a run never fails for an
internal reason, and the height of the operand stack above the base is the same whenever the
run comes to the same place.
-/

namespace StackScript

variable {σ : Type} [Sink σ]

/-- Some steps, after each of which the run goes on, lead from one state to another. -/
abbrev Machine.Runs (m : Machine) : State σ → State σ → Prop :=
  Relation.ReflTransGen fun s after => m.step s = (.running, after)

theorem State.Sound.runs {program : Program} {code : Nat → List Instruction} {limits : Limits}
    {s after : State σ} (disciplined : program.Disciplined code) (sound : s.Sound program code)
    (runs : Machine.Runs ⟨program, limits⟩ s after)
    : after.Sound program code := by
  induction runs with
  | refl => exact sound
  | tail _ running ih => exact ih.step disciplined running

/-- Every state of a run of a disciplined program is sound. -/
theorem Program.Disciplined.reaches {program : Program} {code : Nat → List Instruction}
    {limits : Limits} {sink : σ} {s : State σ} (disciplined : program.Disciplined code)
    (reached : Machine.Runs ⟨program, limits⟩ (State.initial program sink) s)
    : s.Sound program code :=
  (State.initial_sound program code sink).runs disciplined reached

-----------------------------------------------------------------------------------------
-- Failures
-----------------------------------------------------------------------------------------

/-- A step from a state whose frames fit does not fail for an internal reason. -/
theorem State.Sound.fault {program : Program} {code : Nat → List Instruction} {limits : Limits}
    {s after : State σ} {fault : Fault} (disciplined : program.Disciplined code)
    (sound : s.Sound program code)
    (failed : Machine.step ⟨program, limits⟩ s = (.failed fault, after))
    : fault.isInternal = false := by
  obtain ⟨rest, height, fits⟩ := sound
  cases rest with
  | nil =>
      have halts := (fits.step_at_end limits disciplined).2
      rw [failed] at halts
      cases halts
  | cons instruction rest =>
      have effect := fits.effect limits disciplined
      rw [failed] at effect
      cases effect with
      | fails external => exact external

/-- No run of a compiled script fails because of malformed code, a missing entry of a table, a
missing operand or slot, or the end of a function.
-/
theorem Script.no_internal_fault {script : Script} {program : Program}
    (compiled : script.compile = .ok program) (limits : Limits) (sink : σ) {s after : State σ}
    {fault : Fault} (reached : Machine.Runs ⟨program, limits⟩ (State.initial program sink) s)
    (failed : Machine.step ⟨program, limits⟩ s = (.failed fault, after))
    : fault.isInternal = false := by
  obtain ⟨main, symbols, assembles⟩ := compile_eq_ok compiled
  obtain ⟨code, disciplined, -⟩ := assembles.disciplined
  exact (disciplined.reaches reached).fault disciplined failed

/-- A script that calls a function on what the same function returns, and then calls what that
returns: `let f = function (x) { return x; }; return f(f(null))();`.
-/
def Script.callTwice : Script where
  statements :=
    [.define Span.unknown "f" (some (.function ["x"] [.ret Span.unknown (some (.name "x"))])),
      .ret Span.unknown
        (some (.call (.call (.name "f") [.call (.name "f") [.literal .null]]) []))]

/-- The program of the script. -/
def Program.callTwice : Program where
  main :=
    (encodeAll
      [.push (.function 1), .access .setGlobal 3, .pop, .access .getGlobal 3,
        .access .getGlobal 3, .push .null, .call 1, .call 1, .call 0, .ret]).toArray
  functions := #[some ⟨1, (encodeAll [.access .getLocal 0, .ret]).toArray⟩]
  strings := #[]
  globalCount := 4

theorem Script.callTwice_compiled : Script.callTwice.compile = .ok Program.callTwice := by
  decide +kernel

/-- Null cannot be called, and that is no internal fault. -/
theorem Script.no_internal_fault_callTwice
    : ∃ s after : State Capture,
        Machine.Runs ⟨Program.callTwice, .default⟩
          (State.initial Program.callTwice ⟨"", none, false⟩) s
        ∧ Machine.step ⟨Program.callTwice, .default⟩ s = (.failed (.notCallable .null), after)
        ∧ (Fault.notCallable .null).isInternal = false := by
  obtain ⟨s, after, reached, failed⟩ : ∃ s after : State Capture,
      Machine.Runs ⟨Program.callTwice, .default⟩
        (State.initial Program.callTwice ⟨"", none, false⟩) s
      ∧ Machine.step ⟨Program.callTwice, .default⟩ s = (.failed (.notCallable .null), after) :=
    ⟨_, _,
      .head rfl <| .head rfl <| .head rfl <| .head rfl <| .head rfl <| .head rfl <| .head rfl <|
        .head rfl <| .head rfl <| .head rfl <| .head rfl <| .head rfl .refl,
      rfl⟩
  exact ⟨s, after, reached, failed,
    Script.no_internal_fault callTwice_compiled .default _ reached failed⟩

-----------------------------------------------------------------------------------------
-- Heights
-----------------------------------------------------------------------------------------

omit [Sink σ] in
/-- Two sound states at the same place have the same height above their bases. -/
theorem State.Sound.height_unique {τ : Type} {program : Program}
    {code : Nat → List Instruction} {s : State σ} {t : State τ} (sound : s.Sound program code)
    (sound' : t.Sound program code) (function : s.function = t.function) (ip : s.ip = t.ip)
    : s.base ≤ s.stack.size
      ∧ t.base ≤ t.stack.size
      ∧ s.stack.size - s.base = t.stack.size - t.base := by
  obtain ⟨rest, height, fits⟩ := sound
  obtain ⟨rest', height', fits'⟩ := sound'
  have stands := fits.stands
  rw [function, ip] at stands
  have same := stands.height_unique fits'.stands
  rw [fits.size, fits'.size, same]
  refine ⟨Nat.le_add_right _ _, Nat.le_add_right _ _, ?_⟩
  rw [Nat.add_sub_cancel_left, Nat.add_sub_cancel_left]

/-- A halting step ends the main code, at its end or at a return. -/
theorem State.Fits.halts {program : Program} {code : Nat → List Instruction} {limits : Limits}
    {rest : List Instruction} {height : Nat} {s after : State σ} {value : Value}
    (disciplined : program.Disciplined code) (fits : s.Fits program code rest height)
    (halted : Machine.step ⟨program, limits⟩ s = (.halted value, after))
    : s.function = 0
      ∧ after.stack = s.stack
      ∧ s.stack.size = height
      ∧ (rest = [] ∨ ((∃ behind, rest = .ret :: behind) ∧ s.stack.back? = some value)) := by
  have chain := fits.chain
  cases rest with
  | nil =>
      obtain ⟨main, halts⟩ := fits.step_at_end limits disciplined
      rw [halted] at halts
      obtain ⟨-, rfl⟩ := Prod.mk.inj halts
      have base : s.base = 0 := by
        rw [main] at chain
        generalize s.base = base at chain
        generalize s.callers.toList.reverse = callers at chain
        cases chain with
        | bottom => rfl
        | call _ _ _ _ isFunction => exact absurd rfl isFunction
      refine ⟨main, rfl, ?_, .inl rfl⟩
      rw [fits.size, base, Nat.zero_add]
  | cons instruction behind =>
      have effect := fits.effect limits disciplined
      rw [halted] at effect
      cases effect with
      | halts ret top bottom =>
          have none : s.callers = #[] := Array.back?_eq_none_iff.mp bottom
          rw [none] at chain
          have lowest : s.function = 0 ∧ s.base = 0 := by
            generalize s.base = base at chain ⊢
            generalize s.function = id at chain ⊢
            cases chain with
            | bottom => exact ⟨rfl, rfl⟩
          refine ⟨lowest.1, rfl, ?_, .inr ⟨⟨behind, by rw [ret]⟩, top⟩⟩
          rw [fits.size, lowest.2, Nat.zero_add]

theorem Array.eq_singleton_of_back? {α : Type} {values : Array α} {value : α}
    (size : values.size = 1) (top : values.back? = some value)
    : values = #[value] := by
  obtain ⟨others, rfl⟩ := Array.back?_eq_some_iff.mp top
  rw [Array.size_push, Nat.add_eq_right, Array.size_eq_zero_iff] at size
  rw [size]
  rfl

/-- A run that ends at the end of the main code leaves nothing on the stack. -/
theorem State.Sound.halts_empty {program : Program} {code : Nat → List Instruction}
    {limits : Limits} {s after : State σ} {value : Value} (disciplined : program.Disciplined code)
    (sound : s.Sound program code)
    (halted : Machine.step ⟨program, limits⟩ s = (.halted value, after))
    (atEnd : program.main.size ≤ s.ip)
    : after.stack = #[] := by
  obtain ⟨rest, height, fits⟩ := sound
  obtain ⟨function, stack, size, -⟩ := fits.halts disciplined halted
  have stands := fits.stands
  rw [function] at stands
  -- A return would stand in front of the end.
  have ends : rest = [] := by
    cases rest with
    | nil => rfl
    | cons instruction behind =>
        obtain ⟨bytes, found, placed⟩ := stands.codeFrom disciplined
        obtain rfl := Option.some.inj found
        exact absurd atEnd (Nat.not_le.mpr placed.lt_size)
  rw [ends] at stands
  rw [stack, ← Array.size_eq_zero_iff, size, stands.main_end disciplined]

/-- A run that ends at a return outside all blocks leaves the returned value alone. -/
theorem State.Sound.halts_single {script : Script} {main : List Instruction} {symbols : Symbols}
    {program : Program} {code : Nat → List Instruction} {limits : Limits} {s after : State σ}
    {value : Value} (assembles : script.Assembles main symbols program)
    (disciplined : program.Disciplined code) (same : code 0 = main)
    (sound : s.Sound program code)
    (halted : Machine.step ⟨program, limits⟩ s = (.halted value, after))
    (returns : script.ReturnsAt s.ip)
    : after.stack = #[value] := by
  obtain ⟨rest, height, fits⟩ := sound
  obtain ⟨function, stack, size, place⟩ := fits.halts disciplined halted
  have stands := fits.stands
  rw [function] at stands
  obtain ⟨front, behind, split, length, level⟩ := returns.hasReturn assembles
  obtain ⟨front', split', length', height'⟩ := stands.place
  rw [same, split] at split'
  obtain ⟨rfl, rfl⟩ := split_unique split' (length.trans length'.symm)
  rw [program.arity_zero, level] at height'
  rcases place with ends | ⟨-, top⟩
  · cases ends
  · rw [stack]
    exact Array.eq_singleton_of_back? (size.trans height'.symm) top

/-- The height of the operand stack above the base depends on the place in the code alone: it
is the same in any two reachable states at the same place, whatever the limits and sinks.
Nothing is left at the end of the main code, and at a return outside all blocks the returned
value alone is.
-/
theorem Script.static_heights {script : Script} {program : Program}
    (compiled : script.compile = .ok program)
    : (∀ {σ τ : Type} [Sink σ] [Sink τ] (limits limits' : Limits) (sink : σ) (sink' : τ)
        {s : State σ} {t : State τ},
        Machine.Runs ⟨program, limits⟩ (State.initial program sink) s
        → Machine.Runs ⟨program, limits'⟩ (State.initial program sink') t
        → s.function = t.function
        → s.ip = t.ip
        → s.base ≤ s.stack.size
          ∧ t.base ≤ t.stack.size
          ∧ s.stack.size - s.base = t.stack.size - t.base)
      ∧ (∀ {σ : Type} [Sink σ] (limits : Limits) (sink : σ) {s after : State σ} {value : Value},
          Machine.Runs ⟨program, limits⟩ (State.initial program sink) s
          → Machine.step ⟨program, limits⟩ s = (.halted value, after)
          → program.main.size ≤ s.ip
          → after.stack = #[])
      ∧ (∀ {σ : Type} [Sink σ] (limits : Limits) (sink : σ) {s after : State σ} {value : Value},
          Machine.Runs ⟨program, limits⟩ (State.initial program sink) s
          → Machine.step ⟨program, limits⟩ s = (.halted value, after)
          → script.ReturnsAt s.ip
          → after.stack = #[value])
      ∧ (∀ {offset : Nat},
          script.ReturnsAt offset → Instruction.decode program.main offset = .ok .ret) := by
  obtain ⟨main, symbols, assembles⟩ := compile_eq_ok compiled
  obtain ⟨code, disciplined, same⟩ := assembles.disciplined
  have mainCode : CodeFrom program.main 0 main := by
    rw [assembles.main_piece.bytes_eq]
    exact .start main
  refine ⟨?_, ?_, ?_, ?_⟩
  · intro σ τ _ _ limits limits' sink sink' s t reached reached' function ip
    exact (disciplined.reaches reached).height_unique (disciplined.reaches reached') function ip
  · intro σ _ limits sink s after value reached halted atEnd
    exact (disciplined.reaches reached).halts_empty disciplined halted atEnd
  · intro σ _ limits sink s after value reached halted returns
    exact (disciplined.reaches reached).halts_single assembles disciplined same halted returns
  · intro offset returns
    obtain ⟨front, behind, split, rfl, -⟩ := returns.hasReturn assembles
    rw [split] at mainCode
    have placed := mainCode.skip
    rw [Nat.zero_add] at placed
    exact placed.decode

/-- Two calls of one function start with the same height above different bases. -/
theorem Script.static_heights_callTwice
    : ∃ s t : State Capture,
        Machine.Runs ⟨Program.callTwice, .default⟩
          (State.initial Program.callTwice ⟨"", none, false⟩) s
        ∧ Machine.Runs ⟨Program.callTwice, .default⟩
            (State.initial Program.callTwice ⟨"", none, false⟩) t
        ∧ (s.function, s.ip, s.base) = (1, 0, 2)
        ∧ (t.function, t.ip, t.base) = (1, 0, 1)
        ∧ s.stack.size - s.base = t.stack.size - t.base := by
  obtain ⟨s, first, placed⟩ : ∃ s : State Capture,
      Machine.Runs ⟨Program.callTwice, .default⟩
        (State.initial Program.callTwice ⟨"", none, false⟩) s
      ∧ (s.function, s.ip, s.base) = (1, 0, 2) :=
    ⟨_,
      .head rfl <| .head rfl <| .head rfl <| .head rfl <| .head rfl <| .head rfl <|
        .head rfl .refl,
      rfl⟩
  obtain ⟨t, second, placed'⟩ : ∃ t : State Capture,
      Machine.Runs ⟨Program.callTwice, .default⟩
        (State.initial Program.callTwice ⟨"", none, false⟩) t
      ∧ (t.function, t.ip, t.base) = (1, 0, 1) :=
    ⟨_,
      .head rfl <| .head rfl <| .head rfl <| .head rfl <| .head rfl <| .head rfl <| .head rfl <|
        .head rfl <| .head rfl <| .head rfl .refl,
      rfl⟩
  simp only [Prod.mk.injEq] at placed placed'
  have heights := (Script.static_heights callTwice_compiled).1 .default .default _ _ first second
    (placed.1.trans placed'.1.symm) (placed.2.1.trans placed'.2.1.symm)
  refine ⟨s, t, first, second, ?_, ?_, heights.2.2⟩
  · rw [placed.1, placed.2.1, placed.2.2]
  · rw [placed'.1, placed'.2.1, placed'.2.2]

end StackScript
