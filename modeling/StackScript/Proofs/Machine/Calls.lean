import StackScript.Proofs.Machine.Runs

/-! What a call leaves alone. From the entry into a function to the matching return, however
many calls are made in between, nothing below the arguments changes, and the return leaves
the stack of the caller with the returned value in place of the function and its arguments.
-/

namespace StackScript

variable {σ : Type} [Sink σ]

namespace Machine

/-- Some steps lead from one state to another, and after each of them more than the given
number of callers are suspended.
-/
abbrev RunsAbove (m : Machine) (depth : Nat) : State σ → State σ → Prop :=
  Relation.ReflTransGen fun s after => m.step s = (.running, after) ∧ depth < after.callers.size

end Machine

omit [Sink σ] in
/-- The next instruction is the one in front of which the frame stands. -/
theorem State.Fits.next?_eq_some {program : Program} {code : Nat → List Instruction}
    {limits : Limits} {rest : List Instruction} {height : Nat} {s : State σ}
    {instruction : Instruction} (disciplined : program.Disciplined code)
    (fits : s.Fits program code rest height)
    : Machine.next? ⟨program, limits⟩ s = some instruction
      ↔ ∃ behind, rest = instruction :: behind := by
  obtain ⟨bytes, found, placed⟩ := fits.stands.codeFrom disciplined
  cases rest with
  | nil =>
      have none : bytes[s.ip]? = none := by
        rw [Array.getElem?_eq_none_iff, placed.size_eq]
        exact Nat.le_refl _
      simp [Machine.next?, found, Instruction.decode, none, Except.toOption]
  | cons first behind =>
      simp [Machine.next?, found, placed.decode, Except.toOption]

-----------------------------------------------------------------------------------------
-- Frames above a call
-----------------------------------------------------------------------------------------

/-- The bases of the frames above some callers, the lowest first. -/
def State.basesAbove (more : List Frame) (s : State σ) : List Nat :=
  more.map Frame.base ++ [s.base]

omit [Sink σ] in
theorem State.basesAbove_head? (more : List Frame) (s : State σ) (base : Nat)
    : (s.basesAbove more ++ [base]).head? = (s.basesAbove more).head? := by
  cases more <;> rfl

/-- The state is in the call that led to the state `entry`, or in one that it has made: the
frames above those of the caller start one above the other, and the lowest at the base of the
call.
-/
structure State.Inside (entry s : State σ) : Prop where
  callers
    : ∃ more,
        s.callers.toList = entry.callers.toList ++ more
        ∧ (s.basesAbove more).head? = some entry.base
        ∧ (s.basesAbove more).Pairwise (· < ·)
  kept : ∀ place < entry.base, s.stack[place]? = entry.stack[place]?

namespace State.Inside

variable {entry s : State σ}

omit [Sink σ]

theorem refl (entry : State σ) : entry.Inside entry :=
  ⟨⟨[], (List.append_nil _).symm, rfl, List.pairwise_singleton _ _⟩, fun _ _ => rfl⟩

/-- The base of the call is the lowest. -/
theorem base_le (inside : entry.Inside s) : entry.base ≤ s.base := by
  obtain ⟨more, -, lowest, increasing⟩ := inside.callers
  cases more with
  | nil => exact Nat.le_of_eq (Option.some.inj lowest).symm
  | cons frame others =>
      have first : frame.base = entry.base := Option.some.inj lowest
      rw [← first]
      refine Nat.le_of_lt ((List.pairwise_cons.mp increasing).1 s.base ?_)
      exact List.mem_append_right _ List.mem_cons_self

/-- An instruction that stays in its frame stays in the call. -/
theorem stays {program : Program} {instruction : Instruction} {behind after : State σ}
    (inside : entry.Inside s) (callers : behind.callers = s.callers) (base : behind.base = s.base)
    (stack : behind.stack = s.stack) (stays : Stays program instruction behind after)
    : entry.Inside after := by
  have low := inside.base_le
  obtain ⟨more, split, lowest, increasing⟩ := inside.callers
  have same : after.basesAbove more = s.basesAbove more := by
    rw [basesAbove, basesAbove, stays.frame.base, base]
  refine ⟨⟨more, ?_, ?_, ?_⟩, ?_⟩
  · rw [stays.frame.callers, callers, split]
  · rw [same, lowest]
  · rw [same]
    exact increasing
  · intro place below
    rw [stays.below place (by omega), stack]
    exact inside.kept place below

/-- A call that is made in the call starts above it. -/
theorem enters {after : State σ} {frame : Frame} (inside : entry.Inside s)
    (callers : after.callers = s.callers.push frame) (base : frame.base = s.base)
    (above : s.base < after.base) (stack : after.stack = s.stack)
    : entry.Inside after := by
  obtain ⟨more, split, lowest, increasing⟩ := inside.callers
  have bases : after.basesAbove (more ++ [frame]) = s.basesAbove more ++ [after.base] := by
    simp [basesAbove, base]
  refine ⟨⟨more ++ [frame], ?_, ?_, ?_⟩, ?_⟩
  · rw [callers, Array.toList_push, split, List.append_assoc]
  · rw [bases, basesAbove_head?, lowest]
  · rw [bases]
    refine List.pairwise_append.mpr ⟨increasing, List.pairwise_singleton _ _, ?_⟩
    intro lower member upper only
    rw [List.mem_singleton.mp only]
    rcases List.mem_append.mp member with member | member
    · have below := (List.pairwise_append.mp increasing).2.2 lower member s.base
        List.mem_cons_self
      omega
    · rw [List.mem_singleton.mp member]
      exact above
  · intro place below
    rw [stack]
    exact inside.kept place below

/-- A return that is not the one of the call leads to a frame above it or to its own. -/
theorem returns {after : State σ} {frame : Frame} {value : Value} (inside : entry.Inside s)
    (callers : s.callers = after.callers.push frame)
    (many : entry.callers.size ≤ after.callers.size) (base : after.base = frame.base)
    (size : s.base + 1 ≤ s.stack.size)
    (stack : after.stack = (s.stack.pop.shrink (s.base - 1)).push value)
    : entry.Inside after := by
  obtain ⟨more, split, lowest, increasing⟩ := inside.callers
  rw [callers, Array.toList_push] at split
  -- The frame that is returned to is the last of those above the caller.
  obtain ⟨others, rfl⟩ : ∃ others, more = others ++ [frame] := by
    rcases List.eq_nil_or_concat more with rfl | ⟨others, last, rfl⟩
    · have length := congrArg List.length split
      simp only [List.length_append, List.length_cons, List.length_nil, Array.length_toList,
        List.append_nil] at length
      omega
    · rw [List.concat_eq_append, ← List.append_assoc] at split
      have last := (List.append_inj' split rfl).2
      exact ⟨others, by rw [List.concat_eq_append, List.singleton_inj.mp last]⟩
  rw [← List.append_assoc] at split
  have bases : s.basesAbove (others ++ [frame]) = after.basesAbove others ++ [s.base] := by
    simp [basesAbove, base]
  rw [bases] at lowest increasing
  rw [basesAbove_head?] at lowest
  obtain ⟨increasing, -, ordered⟩ := List.pairwise_append.mp increasing
  have frames : entry.Inside { s with base := frame.base, callers := after.callers } := by
    refine ⟨⟨others, (List.append_inj' split rfl).1, ?_, ?_⟩, inside.kept⟩
    · simpa [basesAbove, base] using lowest
    · simpa [basesAbove, base] using increasing
  have low : entry.base ≤ frame.base := frames.base_le
  have below : frame.base < s.base := by
    refine ordered frame.base ?_ s.base List.mem_cons_self
    rw [basesAbove, base]
    exact List.mem_append_right _ List.mem_cons_self
  refine ⟨⟨others, (List.append_inj' split rfl).1, lowest, increasing⟩, ?_⟩
  intro place inEntry
  have kept : (s.stack.pop.shrink (s.base - 1)).size = s.base - 1 := by
    rw [Array.size_shrink, Array.size_pop]
    omega
  rw [stack, Array.getElem?_push, if_neg (by omega), getElem?_shrink (by omega),
    Array.getElem?_pop, if_pos (by omega)]
  exact inside.kept place inEntry

end State.Inside

/-- The state fits inside the call. -/
theorem State.Inside.step {program : Program} {code : Nat → List Instruction} {limits : Limits}
    {entry s after : State σ} (disciplined : program.Disciplined code)
    (sound : s.Sound program code) (inside : entry.Inside s)
    (running : Machine.step ⟨program, limits⟩ s = (.running, after))
    (deep : entry.callers.size ≤ after.callers.size)
    : entry.Inside after := by
  obtain ⟨rest, height, fits⟩ := sound
  cases rest with
  | nil =>
      have halts := (fits.step_at_end limits disciplined).2
      rw [running] at halts
      cases halts
  | cons instruction rest =>
      have enough := fits.enough disciplined
      have effect := fits.effect limits disciplined
      rw [running] at effect
      cases effect with
      | stays stays =>
          refine inside.stays ?_ ?_ ?_ stays
          all_goals rfl
      | enters call callee found arity =>
          subst call
          simp only [Instruction.demand] at enough
          refine inside.enters rfl rfl ?_ rfl
          change s.base < s.stack.size - _ + 1
          omega
      | returns ret top caller =>
          subst ret
          obtain ⟨others, same⟩ := Array.back?_eq_some_iff.mp caller
          refine inside.returns ?_ deep rfl enough rfl
          change s.callers = s.callers.pop.push _
          rw [show s.callers = others.push _ from same, Array.pop_push]

/-- Every state of a run that stays above the caller is in the call. -/
theorem State.Inside.runs {program : Program} {code : Nat → List Instruction} {limits : Limits}
    {depth : Nat} {entry s : State σ} (disciplined : program.Disciplined code)
    (sound : entry.Sound program code) (depth_eq : entry.callers.size = depth + 1)
    (runs : Machine.RunsAbove ⟨program, limits⟩ depth entry s)
    : s.Sound program code ∧ entry.Inside s := by
  induction runs with
  | refl => exact ⟨sound, .refl entry⟩
  | tail _ running ih =>
      obtain ⟨running, deep⟩ := running
      exact ⟨ih.1.step disciplined running, ih.2.step disciplined ih.1 running (by omega)⟩

-----------------------------------------------------------------------------------------
-- The protocol
-----------------------------------------------------------------------------------------

/-- Carrying out a call of a function suspends the caller behind the call. -/
theorem State.Fits.entered {program : Program} {code : Nat → List Instruction} {limits : Limits}
    {rest : List Instruction} {height : Nat} {s entered : State σ} {argCount id : UInt8}
    (disciplined : program.Disciplined code)
    (fits : s.Fits program code (.call argCount :: rest) height)
    (callee : s.stack[s.stack.size - (argCount.toNat + 1)]? = some (.function id))
    (enters : Machine.step ⟨program, limits⟩ s = (.running, entered))
    : entered.callers
        = s.callers.push ⟨s.function, s.ip + (Instruction.call argCount).length, s.base⟩
      ∧ entered.stack = s.stack
      ∧ entered.base = s.stack.size - (argCount.toNat + 1) + 1 := by
  have enough : s.base + (argCount.toNat + 1) ≤ s.stack.size := fits.enough disciplined
  rw [Machine.step_of_placed (fits.stands.codeFrom disciplined) fits.running] at enters
  have many : ¬ s.stack.size < argCount.toNat + 1 :=
    Nat.not_lt.mpr (Nat.le_of_add_left_le enough)
  simp only [Machine.apply, Machine.call, callee, if_neg many, Machine.enter, State.fail] at enters
  split at enters
  · cases enters
  split at enters
  · cases enters
  split at enters
  · cases enters
  · obtain ⟨-, rfl⟩ := Prod.mk.inj enters
    exact ⟨rfl, rfl, rfl⟩

/-- Nothing that differs only above a place is left when the rest is taken away. -/
theorem pop_shrink_eq_shrink {values others : Array Value} {place : Nat}
    (kept : ∀ lower < place, values[lower]? = others[lower]?) (size : place < values.size)
    : values.pop.shrink place = others.shrink place := by
  apply Array.ext_getElem?
  intro lower
  by_cases low : lower < place
  · rw [getElem?_shrink low, getElem?_shrink low, Array.getElem?_pop, if_pos (by omega)]
    exact kept lower low
  · rw [Array.getElem?_eq_none, Array.getElem?_eq_none]
    · rw [Array.size_shrink]
      omega
    · rw [Array.size_shrink]
      omega

namespace State.Inside

variable {program : Program} {code : Nat → List Instruction} {limits : Limits}
  {rest : List Instruction} {height : Nat} {entry t after : State σ}

omit [Sink σ] in
theorem depth_le (inside : entry.Inside t) : entry.callers.size ≤ t.callers.size := by
  obtain ⟨more, split, -⟩ := inside.callers
  have length := congrArg List.length split
  simp only [List.length_append, Array.length_toList] at length
  omega

omit [Sink σ] in
/-- No frame stands between that of the call and the caller if as many callers are suspended as
at the entry.
-/
theorem same_frame (inside : entry.Inside t) (top : t.callers.size = entry.callers.size)
    : t.callers = entry.callers ∧ t.base = entry.base := by
  obtain ⟨more, split, lowest, -⟩ := inside.callers
  have none : more = [] := by
    have length := congrArg List.length split
    simp only [List.length_append, Array.length_toList] at length
    exact List.length_eq_zero_iff.mp (by omega)
  rw [none, List.append_nil, Array.toList_inj] at split
  rw [none] at lowest
  exact ⟨split, Option.some.inj lowest⟩

/-- The return of the call takes away all from the called function on, and goes on in the frame
that was suspended last.
-/
theorem matching_return (limits : Limits) (disciplined : program.Disciplined code)
    {behind : List Instruction} (fits : t.Fits program code (.ret :: behind) height)
    (inside : entry.Inside t) (top : t.callers.size = entry.callers.size)
    {callers : Array Frame} {frame : Frame} (suspended : entry.callers = callers.push frame)
    : ∃ value,
        t.stack.back? = some value
        ∧ Machine.step ⟨program, limits⟩ t
          = (.running,
              { t with
                stack := (entry.stack.shrink (entry.base - 1)).push value
                callers := callers
                ip := frame.ip
                base := frame.base
                function := frame.function }) := by
  have enough : t.base + 1 ≤ t.stack.size := fits.enough disciplined
  obtain ⟨same, base⟩ := inside.same_frame top
  have caller : t.callers.back? = some frame := by
    rw [same, suspended, Array.back?_push]
  have others : t.callers.pop = callers := by
    rw [same, suspended, Array.pop_push]
  have lower : t.stack.pop.shrink (t.base - 1) = entry.stack.shrink (entry.base - 1) := by
    rw [base]
    refine pop_shrink_eq_shrink (fun place low => inside.kept place ?_) ?_
    all_goals omega
  obtain ⟨value, found⟩ := Effect.top_of_demand enough
  refine ⟨value, found, ?_⟩
  rw [Machine.step_of_placed (fits.stands.codeFrom disciplined) fits.running]
  simp only [Machine.apply, Machine.ret, found, caller, lower, others]

/-- Only the return of the call leads out of it. -/
theorem leaves (disciplined : program.Disciplined code)
    (fits : t.Fits program code rest height) (inside : entry.Inside t)
    (running : Machine.step ⟨program, limits⟩ t = (.running, after))
    (shallow : after.callers.size < entry.callers.size)
    : t.callers.size = entry.callers.size ∧ ∃ behind, rest = .ret :: behind := by
  have deep := inside.depth_le
  cases rest with
  | nil =>
      have halts := (fits.step_at_end limits disciplined).2
      rw [running] at halts
      cases halts
  | cons instruction behind =>
      have effect := fits.effect limits disciplined
      rw [running] at effect
      cases effect with
      | stays stays =>
          have same : after.callers.size = t.callers.size := congrArg Array.size stays.frame.callers
          omega
      | enters =>
          simp only [Array.size_push] at shallow
          omega
      | returns ret =>
          simp only [Array.size_pop] at shallow
          exact ⟨by omega, behind, by rw [ret]⟩

end State.Inside

/-- A function leaves what stands below its arguments as it is until it returns, and its
return puts the value on top in the place of the function and the arguments, and goes on
behind the call with the caller's frame.
-/
theorem Script.call_protocol {script : Script} {program : Program}
    (compiled : script.compile = .ok program) (limits : Limits) (sink : σ)
    {s entered : State σ} {argCount id : UInt8}
    (reached : Machine.Runs ⟨program, limits⟩ (State.initial program sink) s)
    (call : Machine.next? ⟨program, limits⟩ s = some (.call argCount))
    (callee : s.stack[s.stack.size - (argCount.toNat + 1)]? = some (.function id))
    (enters : Machine.step ⟨program, limits⟩ s = (.running, entered))
    : argCount.toNat + 1 ≤ s.stack.size
      ∧ entered.callers.size = s.callers.size + 1
      ∧ ∀ t, Machine.RunsAbove ⟨program, limits⟩ s.callers.size entered t
        → (∀ place < s.stack.size - argCount.toNat, t.stack[place]? = s.stack[place]?)
          ∧ (t.callers.size = s.callers.size + 1
            → Machine.next? ⟨program, limits⟩ t = some .ret
            → ∃ value,
                t.stack.back? = some value
                ∧ Machine.step ⟨program, limits⟩ t
                  = (.running,
                      { t with
                        stack
                          := (s.stack.shrink (s.stack.size - (argCount.toNat + 1))).push value
                        callers := s.callers
                        ip := s.ip + (Instruction.call argCount).length
                        base := s.base
                        function := s.function }))
          ∧ (∀ after, Machine.step ⟨program, limits⟩ t = (.running, after)
            → after.callers.size ≤ s.callers.size
            → t.callers.size = s.callers.size + 1
              ∧ Machine.next? ⟨program, limits⟩ t = some .ret) := by
  obtain ⟨main, symbols, assembles⟩ := compile_eq_ok compiled
  obtain ⟨code, disciplined, -⟩ := assembles.disciplined
  have sound := disciplined.reaches reached
  have soundEntry := sound.step disciplined enters
  obtain ⟨rest, height, fits⟩ := sound
  obtain ⟨behind, rfl⟩ := (fits.next?_eq_some disciplined).mp call
  obtain ⟨callers, stack, base⟩ := fits.entered disciplined callee enters
  have enough : s.base + (argCount.toNat + 1) ≤ s.stack.size := fits.enough disciplined
  have depth : entered.callers.size = s.callers.size + 1 := by
    rw [callers, Array.size_push]
  refine ⟨by omega, depth, fun t runs => ?_⟩
  obtain ⟨soundT, inside⟩ := State.Inside.runs disciplined soundEntry depth runs
  obtain ⟨restT, heightT, fitsT⟩ := soundT
  refine ⟨?_, ?_, ?_⟩
  · intro place low
    rw [← stack]
    exact inside.kept place (by omega)
  · intro top next
    obtain ⟨behindT, rfl⟩ := (fitsT.next?_eq_some disciplined).mp next
    have returned := inside.matching_return limits disciplined fitsT
      (top.trans depth.symm) callers
    rw [stack, base, Nat.add_sub_cancel] at returned
    exact returned
  · intro after running shallow
    obtain ⟨top, returns⟩ := inside.leaves disciplined fitsT running (by omega)
    exact ⟨top.trans depth, (fitsT.next?_eq_some disciplined).mpr returns⟩

/-- The inner of the two calls returns to the outer one, whose function stands below it. -/
theorem Script.call_protocol_callTwice
    : ∃ s t : State Capture,
        Machine.Runs ⟨Program.callTwice, .default⟩
          (State.initial Program.callTwice ⟨"", none, false⟩) s
        ∧ s.stack = #[.function 1, .function 1, .null]
        ∧ ∃ entered value,
            Machine.step ⟨Program.callTwice, .default⟩ s = (.running, entered)
            ∧ Machine.RunsAbove ⟨Program.callTwice, .default⟩ 0 entered t
            ∧ t.stack.back? = some value
            ∧ Machine.step ⟨Program.callTwice, .default⟩ t
              = (.running,
                  { t with
                    stack := #[.function 1, value]
                    callers := #[]
                    ip := 14
                    base := 0
                    function := 0 }) := by
  obtain ⟨s, entered, t, reached, stack, callee, call, enters, within, here, callers, depth, next⟩ :
      ∃ s entered t : State Capture,
        Machine.Runs ⟨Program.callTwice, .default⟩
          (State.initial Program.callTwice ⟨"", none, false⟩) s
        ∧ s.stack = #[.function 1, .function 1, .null]
        ∧ s.stack[s.stack.size - ((1 : UInt8).toNat + 1)]? = some (.function 1)
        ∧ Machine.next? ⟨Program.callTwice, .default⟩ s = some (.call 1)
        ∧ Machine.step ⟨Program.callTwice, .default⟩ s = (.running, entered)
        ∧ Machine.RunsAbove ⟨Program.callTwice, .default⟩ 0 entered t
        ∧ (s.ip, s.base, s.function) = (12, 0, 0)
        ∧ s.callers = #[]
        ∧ t.callers.size = 1
        ∧ Machine.next? ⟨Program.callTwice, .default⟩ t = some .ret :=
    ⟨_, _, _,
      .head rfl <| .head rfl <| .head rfl <| .head rfl <| .head rfl <| .head rfl .refl,
      rfl, rfl, rfl, rfl, .head ⟨rfl, by decide⟩ .refl, rfl, rfl, rfl, rfl⟩
  simp only [Prod.mk.injEq] at here
  have protocol := Script.call_protocol callTwice_compiled .default _ reached call callee enters
  rw [callers] at protocol
  obtain ⟨value, top, returned⟩ := (protocol.2.2 t within).2.1 depth next
  refine ⟨s, t, reached, stack, entered, value, enters, within, top, ?_⟩
  rw [returned, stack, here.1, here.2.1, here.2.2]
  rfl

end StackScript
