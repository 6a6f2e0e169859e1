import StackScript.Proofs.Machine.Effects

/-! The frames of a run of a disciplined program. Every frame stands at a place of its code, at
the height that the place has, and the frame above it starts where that height ends. Steps
keep this, so that no reachable state fails for an internal reason.
-/

namespace StackScript

variable {σ : Type} {program : Program} {code : Nat → List Instruction}

-----------------------------------------------------------------------------------------
-- The invariant
-----------------------------------------------------------------------------------------

/-- The suspended callers, the latest first, below a frame of the given function and base. A
caller goes on at a place whose height counts the value that is to be returned.
-/
inductive Program.Chain (program : Program) (code : Nat → List Instruction)
    : List Frame → Nat → Nat → Prop
  | bottom : Chain program code [] 0 0
  | call {callers : List Frame} {frame : Frame} {rest : List Instruction} {height id base : Nat}
    (below : Chain program code callers frame.function frame.base)
    (stands : program.Stands code frame.function frame.ip rest height) (positive : 0 < height)
    (above : base = frame.base + height) (isFunction : id ≠ 0)
    : Chain program code (frame :: callers) id base

/-- All frames of the state are as the code of the program has them. -/
structure State.Fits (program : Program) (code : Nat → List Instruction)
    (rest : List Instruction) (height : Nat) (s : State σ)
    : Prop where
  stands : program.Stands code s.function s.ip rest height
  size : s.stack.size = s.base + height
  chain : program.Chain code s.callers.toList.reverse s.function s.base
  known : s.Known program
  running : s.result = none

/-- The state fits at some place. -/
def State.Sound (program : Program) (code : Nat → List Instruction) (s : State σ) : Prop :=
  ∃ rest height, s.Fits program code rest height

theorem State.initial_known (program : Program) (sink : σ)
    : (State.initial program sink).Known program where
  stack := fun _ member => nomatch member
  globals := by
    intro value member
    rcases Array.mem_append.mp member with member | member
    · simp only [List.mem_toArray, List.mem_cons, List.not_mem_nil, reduceCtorEq, false_or,
        or_false, Option.some.injEq] at member
      rcases member with rfl | rfl <;> trivial
    · cases (Array.mem_replicate.mp member).2

theorem State.initial_sound (program : Program) (code : Nat → List Instruction) (sink : σ)
    : (State.initial program sink).Sound program code :=
  ⟨code 0, 0, .main, rfl, .bottom, initial_known program sink, rfl⟩

/-- The height behind an instruction does not depend on where the base is. -/
theorem Instruction.heightAfter_add {instruction : Instruction} {height : Nat} (base : Nat)
    (enough : instruction.demand ≤ height)
    : instruction.heightAfter (base + height) = base + instruction.heightAfter height := by
  cases instruction with
  | jump when offset =>
      cases when <;> simp only [heightAfter, demand] at enough ⊢ <;> omega
  | access what slot =>
      cases what <;> simp only [heightAfter, demand] at enough ⊢ <;> omega
  | _ => simp only [heightAfter, demand] at enough ⊢ <;> omega

-----------------------------------------------------------------------------------------
-- Steps
-----------------------------------------------------------------------------------------

theorem Machine.step_of_placed [Sink σ] {m : Machine} {s : State σ} {instruction : Instruction}
    {rest : List Instruction} (placed : m.program.CodeFrom s.function s.ip (instruction :: rest))
    (running : s.result = none)
    : m.step s = m.apply instruction { s with ip := s.ip + instruction.length } := by
  obtain ⟨bytes, found, placed⟩ := placed
  have inside : ¬ bytes.size ≤ s.ip := Nat.not_le.mpr placed.lt_size
  simp only [step, running, found, if_neg inside, placed.decode]

namespace State.Fits

variable {rest : List Instruction} {height : Nat} {instruction : Instruction} {s : State σ}

theorem enough (disciplined : program.Disciplined code)
    (fits : s.Fits program code (instruction :: rest) height)
    : s.base + instruction.demand ≤ s.stack.size := by
  have balanced := fits.stands.balanced disciplined
  rw [fits.size]
  exact Nat.add_le_add_left balanced.1 s.base

/-- The next step carries out the instruction in front of which the state stands. -/
theorem effect [Sink σ] (limits : Limits) (disciplined : program.Disciplined code)
    (fits : s.Fits program code (instruction :: rest) height)
    : Effect program instruction { s with ip := s.ip + instruction.length }
        (Machine.step ⟨program, limits⟩ s) := by
  let m : Machine := ⟨program, limits⟩
  have placed : m.program.CodeFrom s.function s.ip (instruction :: rest) :=
    fits.stands.codeFrom disciplined
  have known : ({ s with ip := s.ip + instruction.length } : State σ).Known m.program :=
    ⟨fits.known.stack, fits.known.globals⟩
  have enough : s.base + instruction.demand ≤ s.stack.size := fits.enough disciplined
  rw [Machine.step_of_placed placed fits.running]
  exact Effect.apply (m := m) enough (fits.stands.known disciplined) known

/-- At the end of its code there is only the main code, and the run ends. -/
theorem step_at_end [Sink σ] (limits : Limits) (disciplined : program.Disciplined code)
    (fits : s.Fits program code [] height)
    : s.function = 0 ∧ Machine.step ⟨program, limits⟩ s = s.halt .null := by
  have main : s.function = 0 :=
    Decidable.byContradiction fun isFunction => (fits.stands.closed isFunction).not_nil rfl
  obtain ⟨bytes, found, placed⟩ := fits.stands.codeFrom disciplined
  have ends : bytes.size ≤ s.ip := by
    rw [placed.size_eq]
    exact Nat.le_refl _
  refine ⟨main, ?_⟩
  simp only [Machine.step, fits.running, found, if_pos ends, if_pos main]

/-- An instruction that stays in its frame leads to a place behind it. -/
theorem stays (disciplined : program.Disciplined code)
    (fits : s.Fits program code (instruction :: rest) height) {after : State σ}
    (stays : Stays program instruction { s with ip := s.ip + instruction.length } after)
    : after.Sound program code := by
  obtain ⟨demand, -, -⟩ := fits.stands.balanced disciplined
  have frame := stays.frame
  have size : after.stack.size = after.base + instruction.heightAfter height := by
    rw [stays.size, frame.base]
    refine Eq.trans (congrArg instruction.heightAfter fits.size) ?_
    exact Instruction.heightAfter_add s.base demand
  have chain : program.Chain code after.callers.toList.reverse after.function after.base := by
    rw [frame.callers, frame.function, frame.base]
    exact fits.chain
  have running : after.result = none := frame.result.trans fits.running
  rcases stays.moves with ⟨passes, ip⟩ | ⟨when, offset, rfl, ip⟩
  · have stands := fits.stands.next passes
    refine ⟨rest, _, ?_, size, chain, stays.known, running⟩
    rw [frame.function, ip]
    exact stands
  · obtain ⟨target, stands⟩ := fits.stands.jump disciplined
    refine ⟨target, _, ?_, size, chain, stays.known, running⟩
    rw [frame.function, ip]
    exact stands

/-- A call puts a frame on top that starts behind the function value. -/
theorem enters (disciplined : program.Disciplined code) {argCount id : UInt8}
    (fits : s.Fits program code (.call argCount :: rest) height) {function : Function}
    (found : program.function? id.toNat = some function) (arity : function.arity = argCount)
    : ({ s with
          callers
            := s.callers.push ⟨s.function, s.ip + (Instruction.call argCount).length, s.base⟩
          function := id.toNat
          ip := 0
          base := s.stack.size - (argCount.toNat + 1) + 1 } : State σ).Sound program code := by
  obtain ⟨demand, -, -⟩ := fits.stands.balanced disciplined
  have size := fits.size
  simp only [Instruction.demand] at demand
  refine ⟨code id.toNat, function.arity.toNat, .start disciplined found, ?_, ?_,
    ⟨fits.known.stack, fits.known.globals⟩, fits.running⟩
  · rw [arity]
    change s.stack.size = s.stack.size - (argCount.toNat + 1) + 1 + argCount.toNat
    omega
  · have stands := fits.stands.next rfl
    simp only [Array.toList_push, List.reverse_append, List.reverse_cons, List.reverse_nil,
      List.nil_append, List.singleton_append]
    refine .call fits.chain stands ?_ ?_ ?_
    · simp only [Instruction.heightAfter]
      omega
    · simp only [Instruction.heightAfter]
      omega
    · intro zero
      rw [zero] at found
      cases found

/-- A return leads to the place where the caller goes on. -/
theorem returns {value : Value} {frame : Frame} (fits : s.Fits program code rest height)
    (top : s.stack.back? = some value) (caller : s.callers.back? = some frame)
    : ({ s with
          stack := (s.stack.pop.shrink (s.base - 1)).push value
          callers := s.callers.pop
          ip := frame.ip
          base := frame.base
          function := frame.function } : State σ).Sound program code := by
  have chain := fits.chain
  rw [Array.toList_reverse_of_back? caller] at chain
  cases chain with
  | call below stands positive above _ =>
      refine ⟨_, _, stands, ?_, below, ⟨?_, fits.known.globals⟩, fits.running⟩
      · have size := fits.size
        obtain ⟨others, same⟩ := Array.back?_eq_some_iff.mp top
        have counted := congrArg Array.size same
        rw [Array.size_push] at counted
        change ((s.stack.pop.shrink (s.base - 1)).push value).size = frame.base + _
        rw [Array.size_push, Array.size_shrink, Array.size_pop]
        omega
      · intro other member
        rcases Array.mem_push.mp member with member | rfl
        · have popped : ({ s with stack := s.stack.pop } : State σ).Known program :=
            ⟨fits.known.pop, fits.known.globals⟩
          exact popped.shrink _ other member
        · exact fits.known.top top

end State.Fits

/-- A step of a disciplined program leads from a state whose frames fit to another. -/
theorem State.Sound.step [Sink σ] {limits : Limits} {s after : State σ}
    (disciplined : program.Disciplined code) (sound : s.Sound program code)
    (running : Machine.step ⟨program, limits⟩ s = (.running, after))
    : after.Sound program code := by
  obtain ⟨rest, height, fits⟩ := sound
  cases rest with
  | nil =>
      have halts := (fits.step_at_end limits disciplined).2
      rw [running] at halts
      cases halts
  | cons instruction rest =>
      have effect := fits.effect limits disciplined
      rw [running] at effect
      cases effect with
      | stays stays => exact fits.stays disciplined stays
      | enters call callee found arity =>
          subst call
          exact fits.enters disciplined found arity
      | returns ret top caller => exact fits.returns top caller

end StackScript
