import StackScript.Proofs.Evaluation.Activations
import StackScript.Proofs.Machine.Limits

/-! The compiler is correct: a run of the compiled program gives the value or the fault that
the evaluation of the script ends with, and the same output, unless it hits a limit.
-/

namespace StackScript

open Generate

variable {σ : Type} [Sink σ]

/-- Where the main code runs: nothing lies below it. -/
def Site.outermost : Site := ⟨0, [], #[]⟩

section

variable {script : Script} {main : List Instruction} {final : Symbols} {program : Program}

-----------------------------------------------------------------------------------------
-- Main statements
-----------------------------------------------------------------------------------------

/-- The main code follows the evaluation of the main statements, by induction on them. -/
theorem generateMain_follows (assembles : script.Assembles main final program)
    {links : Linkage σ} (fits : links.Fits script program) {statements : List Stmt}
    {before after : Symbols} {code rest : List Instruction}
    (generated : generateMain statements before = .ok (code, after))
    (formed : before.WellFormed) (grown : after.Grows final) {site : Site} {ip stop : Nat}
    (placed : program.CodeFrom site.function ip (code ++ rest)) {env : Env σ}
    (scopes : scopeOf env.scopes = Scope.root) (ends : stop = ip + codeLength code)
    : program.Follows (site.during script.globals ip env [])
        (site.Leaves script.globals program stop Scope.root)
        (evalBody links before.functions.size statements env) := by
  induction statements generalizing before code ip env with
  | nil =>
      cases generated
      subst ends
      exact .pure ⟨rfl, scopes⟩
  | cons statement others ih =>
      obtain ⟨firstCode, middle, othersCode, first, others', rfl⟩ := generateMain_cons generated
      rw [List.append_assoc] at placed
      have counted := (Stmt.generate_functions first).size
      have growsFirst := (Stmt.generate_refers first).grows
      have growsOthers := (generateMain_refers others').grows
      rw [evalBody]
      refine (Stmt.eval_follows assembles fits first formed (growsOthers.trans grown) placed scopes
        (Nat.zero_le 256) rfl).bind ?_
      intro value env₁ t evaluated reached
      cases value with
      | some result => exact .pure reached
      | none =>
          obtain ⟨rfl, scopes₁⟩ := reached
          dsimp only
          rw [← counted]
          refine ih others' (formed.grows growsFirst) placed.skip scopes₁ (ends.trans ?_)
          rw [codeLength_append, Nat.add_assoc]

omit [Sink σ] in
/-- A run starts where the evaluation of the main statements does. -/
theorem Script.Assembles.initial_eq (assembles : script.Assembles main final program) (sink : σ)
    : State.initial program sink
      = Site.outermost.during script.globals 0 (Env.initial sink) [] := by
  have count : program.globalCount = script.globals.length + 1 := by
    rw [assembles.program_eq, ← assembles.globals_eq]
    rfl
  have globals := slotsOf_initial sink assembles.globals_nodup assembles.globals_begin
  rw [← count] at globals
  rw [State.initial, globals]
  rfl

/-- The run of a compiled script follows its evaluation. -/
theorem Script.Assembles.follows (assembles : script.Assembles main final program) (depth : Nat)
    (sink : σ)
    : program.Follows (State.initial program sink)
        (Site.outermost.Leaves script.globals program (codeLength main) Scope.root)
        (evalBody ⟨script.slot, script.enter depth⟩ 0 script.statements (.initial sink)) := by
  have placed : program.CodeFrom Site.outermost.function 0 (main ++ []) := by
    rw [List.append_nil, assembles.program_eq]
    exact ⟨_, rfl, .start main⟩
  rw [assembles.initial_eq]
  exact generateMain_follows assembles (Script.enter_fits assembles depth) assembles.generated
    .initial .refl placed (by rfl) (Nat.zero_add _).symm

/-- The next step ends the run with what the main statements have returned, or with null. -/
theorem Script.Assembles.halts (assembles : script.Assembles main final program)
    {value : Option Value} {env : Env σ} {s : State σ}
    (left : Site.outermost.Leaves script.globals program (codeLength main) Scope.root value env s)
    (limits : Limits)
    : ∃ after,
        Machine.step ⟨program, limits⟩ s = (.halted (value.getD .null), after)
        ∧ after.sink = env.sink := by
  cases value with
  | none =>
      obtain ⟨rfl, -⟩ := left
      have code : program.code? 0 = some (encodeAll main).toArray := by
        rw [assembles.program_eq]
        rfl
      have ends : (encodeAll main).toArray.size ≤ codeLength main :=
        Nat.le_of_eq (length_encodeAll main)
      have halted
          : Machine.step ⟨program, limits⟩
              (Site.outermost.during script.globals (codeLength main) env [])
            = (Site.outermost.during script.globals (codeLength main) env []).halt .null := by
        simp only [Machine.step, Site.during, Site.state, Site.outermost, code, if_pos ends,
          if_true]
      exact ⟨_, halted, rfl⟩
  | some value =>
      obtain ⟨ip, rest, locals, placed, rfl⟩ := left
      let globals := slotsOf script.globals env.globals
      have placed' : (Machine.mk program limits).program.CodeFrom
          (Site.outermost.state ip globals (locals ++ [value]) env.sink).function _
          (.ret :: rest) :=
        placed
      have halted
          : Machine.step ⟨program, limits⟩
              (Site.outermost.state ip globals (locals ++ [value]) env.sink)
            = (Site.outermost.state (ip + 1) globals (locals ++ [value]) env.sink).halt value := by
        rw [Machine.step_of_placed placed' rfl]
        simp only [Machine.apply, Machine.ret, Site.state_top]
        rfl
      exact ⟨_, halted, rfl⟩

-----------------------------------------------------------------------------------------
-- Scripts
-----------------------------------------------------------------------------------------

/-- With enough room a run gives what the evaluation ends with. -/
theorem Script.Assembles.answers (assembles : script.Assembles main final program)
    {sink written : σ} {answer : Except Fault Value}
    (evaluates : script.Evaluates sink answer written)
    : ∃ room : Nat, ∀ limits : Limits, limits.Allow room
        → ∃ s,
            Machine.run ⟨program, limits⟩ (State.initial program sink) = (answer, s)
            ∧ s.sink = written := by
  obtain ⟨depth, env, evaluated, rfl⟩ := evaluates
  have follows := assembles.follows depth sink
  unfold evaluate at evaluated
  cases body : evalBody ⟨script.slot, script.enter depth⟩ 0 script.statements (.initial sink) with
  | mk outcome env' =>
      rw [body] at evaluated follows
      obtain ⟨same, rfl⟩ := Prod.mk.inj evaluated
      cases outcome with
      | ok value =>
          obtain ⟨t, left, room, runs⟩ := follows
          have given : answer = .ok (value.getD .null) := by
            cases answer with
            | error fault => cases same
            | ok answer => exact congrArg _ (Except.ok.inj same).symm
          refine ⟨room, fun limits allow => ?_⟩
          obtain ⟨after, halted, written⟩ := assembles.halts left limits
          refine ⟨after, ?_, written⟩
          rw [given, Machine.run_of_runs (runs limits allow), Machine.run_of_halted halted]
      | error stop =>
          cases answer with
          | ok answer => cases same
          | error fault =>
              obtain rfl : stop = .fault fault := Except.error.inj same
              obtain ⟨room, breaks⟩ := follows
              refine ⟨room, fun limits allow => ?_⟩
              obtain ⟨t, after, runs, failed, written⟩ := breaks limits allow
              refine ⟨after, ?_, written⟩
              rw [Machine.run_of_runs runs, Machine.run_of_failed failed]

end

/-- In a compiled script every number that an evaluation comes to means something. -/
theorem Script.evaluate_ne_invalid {script : Script} {program : Program} {sink : σ} {env : Env σ}
    {error : CompileError} (compiled : script.compile = .ok program) (depth : Nat)
    : script.evaluate depth sink ≠ (.error (.invalid error), env) := by
  obtain ⟨main, final, assembles⟩ := compile_eq_ok compiled
  have follows := assembles.follows depth sink
  intro invalid
  unfold evaluate at invalid
  cases body : evalBody ⟨script.slot, script.enter depth⟩ 0 script.statements (.initial sink) with
  | mk outcome env' =>
      rw [body] at invalid follows
      obtain ⟨same, -⟩ := Prod.mk.inj invalid
      cases outcome with
      | ok value => cases same
      | error stop =>
          obtain rfl : stop = .invalid error := Except.error.inj same
          exact follows

/-- Whenever the evaluation of a compiled script ends, with a value or with a fault, a run of
its program ends with the same value or the same fault and the same output if the limits leave
enough room; and it does so under any limits that the run does not hit.
-/
theorem Script.compile_correct {script : Script} {program : Program} {sink written : σ}
    {answer : Except Fault Value} (compiled : script.compile = .ok program)
    (evaluates : script.Evaluates sink answer written)
    : (∃ room : Nat, ∀ limits : Limits, limits.Allow room
        → ∃ s,
            Machine.run ⟨program, limits⟩ (State.initial program sink) = (answer, s)
            ∧ s.sink = written)
      ∧ ∀ limits : Limits,
          ∃ result s,
            Machine.run ⟨program, limits⟩ (State.initial program sink) = (result, s)
            ∧ ((result = answer ∧ s.sink = written)
              ∨ ∃ fault, result = .error fault ∧ fault.isLimit = true) := by
  obtain ⟨main, final, assembles⟩ := compile_eq_ok compiled
  obtain ⟨room, answers⟩ := assembles.answers evaluates
  refine ⟨⟨room, answers⟩, fun limits => ?_⟩
  let wider : Limits := ⟨max limits.maxStack room, max limits.maxFrames room⟩
  have within : limits.Within wider := ⟨Nat.le_max_left _ _, Nat.le_max_left _ _⟩
  have allow : wider.Allow room := ⟨Nat.le_max_right _ _, Nat.le_max_right _ _⟩
  obtain ⟨s, ends, written⟩ := answers wider allow
  rcases Machine.run_curtailed program within (State.initial program sink) with
    same | ⟨fault, after, failed, limit⟩
  · exact ⟨answer, s, same.trans ends, .inl ⟨rfl, written⟩⟩
  · exact ⟨.error fault, after, failed, .inr ⟨fault, rfl, limit⟩⟩

/-- Calling null is the fault that both the evaluation and the run end with. -/
theorem Script.compile_correct_callTwice
    : Script.callTwice.compile = .ok Program.callTwice
      ∧ Script.callTwice.Evaluates (Capture.mk "" none false) (.error (.notCallable .null))
          (Capture.mk "" none false)
      ∧ ∃ room : Nat, ∀ limits : Limits, limits.Allow room
        → ∃ s,
            Machine.run ⟨Program.callTwice, limits⟩
                (State.initial Program.callTwice (Capture.mk "" none false))
              = (.error (.notCallable .null), s)
            ∧ s.sink = Capture.mk "" none false := by
  have evaluates : Script.callTwice.Evaluates (Capture.mk "" none false)
      (.error (.notCallable .null)) (Capture.mk "" none false) :=
    ⟨1, _, rfl, rfl⟩
  have correct := Script.compile_correct callTwice_compiled evaluates
  exact ⟨callTwice_compiled, evaluates, correct.1⟩

end StackScript
