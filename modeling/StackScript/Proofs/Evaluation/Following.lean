import StackScript.Proofs.Evaluation.Reaching

/-! Runs that follow evaluations. A run follows an evaluation if it gets to a state that holds
what the evaluation gives, or fails with the same fault and the same output. Runs that follow
the parts of an evaluation are put together to one that follows the whole.
-/

namespace StackScript

variable {σ α β : Type}

-----------------------------------------------------------------------------------------
-- Evaluations that give a value
-----------------------------------------------------------------------------------------

namespace Evaluation

variable {env env' : Env σ}

theorem bind_of_ok {evaluation : Evaluation σ α} {value : α}
    (evaluated : evaluation env = (.ok value, env')) (next : α → Evaluation σ β)
    : (evaluation >>= next) env = next value env' := by
  simp only [bind, evaluated]

theorem bind_of_error {evaluation : Evaluation σ α} {stop : Stop}
    (evaluated : evaluation env = (.error stop, env')) (next : α → Evaluation σ β)
    : (evaluation >>= next) env = (.error stop, env') := by
  simp only [bind, evaluated]

theorem bind_eq_ok {evaluation : Evaluation σ α} {next : α → Evaluation σ β} {result : β}
    : (evaluation >>= next) env = (.ok result, env')
      ↔ ∃ value middle,
          evaluation env = (.ok value, middle) ∧ next value middle = (.ok result, env') := by
  cases evaluated : evaluation env with
  | mk outcome middle =>
      cases outcome with
      | ok value => simp [bind_of_ok evaluated]
      | error stop => simp [bind_of_error evaluated]

theorem pure_eq_ok {value result : α}
    : (pure value : Evaluation σ α) env = (.ok result, env') ↔ value = result ∧ env = env' := by
  simp [pure]

theorem nested_eq_ok {body : Evaluation σ α} {value : α}
    (evaluated : nested body env = (.ok value, env'))
    : ∃ inner,
        body { env with scopes := [] :: env.scopes } = (.ok value, inner)
        ∧ env' = { inner with scopes := inner.scopes.tail } := by
  unfold nested at evaluated
  split at evaluated
  rename_i outcome inner evaluated'
  obtain ⟨rfl, rfl⟩ := Prod.mk.inj evaluated
  exact ⟨inner, evaluated', rfl⟩

theorem side_returns {statement : Stmt} {body : Evaluation σ (Option Value)}
    {value : Option Value}
    (returns : ∀ {env env' : Env σ}, body env = (.ok value, env') → ∃ result, value = some result)
    (evaluated : side statement body env = (.ok value, env'))
    : ∃ result, value = some result := by
  unfold side at evaluated
  split at evaluated
  · exact returns evaluated
  · obtain ⟨_, evaluated, -⟩ := nested_eq_ok evaluated
    exact returns evaluated

end Evaluation

open Evaluation

section

variable [Sink σ] {links : Linkage σ}

mutual

/-- A statement that always returns gives a value to return if it gives anything, by induction
on the statement.
-/
theorem Stmt.eval_returns {statement : Stmt} {count : Nat} {env env' : Env σ}
    {value : Option Value} (returns : statement.alwaysReturns = true)
    (evaluated : statement.eval links count env = (.ok value, env'))
    : ∃ result, value = some result := by
  cases statement with
  | block span body =>
      obtain ⟨_, evaluated, -⟩ := nested_eq_ok evaluated
      exact evalBody_returns returns evaluated
  | branch span condition yes no =>
      cases no with
      | none => cases returns
      | some no =>
          obtain ⟨yesReturns, noReturns⟩ := Bool.and_eq_true_iff.mp returns
          rw [Stmt.eval, Evaluation.bind_eq_ok] at evaluated
          obtain ⟨test, middle, -, evaluated⟩ := evaluated
          split at evaluated
          · exact side_returns (Stmt.eval_returns yesReturns) evaluated
          · exact side_returns (Stmt.eval_returns noReturns) evaluated
  | ret span result =>
      cases result with
      | none =>
          obtain ⟨rfl, -⟩ := Evaluation.pure_eq_ok.mp evaluated
          exact ⟨.null, rfl⟩
      | some expression =>
          rw [Stmt.eval, Evaluation.bind_eq_ok] at evaluated
          obtain ⟨result, _, -, evaluated⟩ := evaluated
          obtain ⟨rfl, -⟩ := Evaluation.pure_eq_ok.mp evaluated
          exact ⟨result, rfl⟩
  | define span name value => cases returns
  | discard span value => cases returns
termination_by structural statement

theorem evalBody_returns {body : List Stmt} {count : Nat} {env env' : Env σ}
    {value : Option Value} (returns : Stmt.anyReturns body = true)
    (evaluated : evalBody links count body env = (.ok value, env'))
    : ∃ result, value = some result := by
  cases body with
  | nil => cases returns
  | cons statement rest =>
      rw [evalBody, Evaluation.bind_eq_ok] at evaluated
      obtain ⟨first, middle, first', evaluated⟩ := evaluated
      cases first with
      | some result =>
          obtain ⟨rfl, -⟩ := Evaluation.pure_eq_ok.mp evaluated
          exact ⟨result, rfl⟩
      | none =>
          rcases Bool.or_eq_true_iff.mp returns with here | later
          · obtain ⟨_, same⟩ := Stmt.eval_returns here first'
            cases same
          · exact evalBody_returns later evaluated
termination_by structural body

end

end

-----------------------------------------------------------------------------------------
-- Following
-----------------------------------------------------------------------------------------

variable [Sink σ] {program : Program}

/-- A run follows an evaluation: it gets to a state that is as the value and the environment
ask for, or it fails like the evaluation. An evaluation that is not finished asks for nothing;
one with an invalid number has no code to run.
-/
def Program.Follows (program : Program) (s : State σ) (goal : α → Env σ → State σ → Prop)
    : Except Stop α × Env σ → Prop
  | (.ok value, env) => ∃ t, goal value env t ∧ program.Reaches s t
  | (.error (.fault fault), env) => program.Breaks s fault env.sink
  | (.error (.invalid _), _) => False
  | (.error .unfinished, _) => True

namespace Program.Follows

variable {s t : State σ} {env : Env σ} {goal : α → Env σ → State σ → Prop}
  {goal' : β → Env σ → State σ → Prop}

theorem pure {value : α} (reached : goal value env s)
    : program.Follows s goal ((Pure.pure value : Evaluation σ α) env) :=
  ⟨s, reached, .refl s⟩

/-- A run that gets to where it follows an evaluation follows it from the start. -/
theorem after {outcome : Except Stop α × Env σ} (reaches : program.Reaches s t)
    (follows : program.Follows t goal outcome)
    : program.Follows s goal outcome := by
  obtain ⟨outcome, env⟩ := outcome
  cases outcome with
  | ok value =>
      obtain ⟨u, reached, reaches'⟩ := follows
      exact ⟨u, reached, reaches.trans reaches'⟩
  | error stop =>
      cases stop with
      | fault fault => exact reaches.breaks follows
      | invalid error => exact follows
      | unfinished => trivial

/-- A run that follows two evaluations one after the other. -/
theorem bind {evaluation : Evaluation σ α} {next : α → Evaluation σ β}
    (first : program.Follows s goal (evaluation env))
    (second
      : ∀ value env' t,
          evaluation env = (.ok value, env')
          → goal value env' t
          → program.Follows t goal' (next value env'))
    : program.Follows s goal' ((evaluation >>= next) env) := by
  cases evaluated : evaluation env with
  | mk outcome env' =>
      rw [evaluated] at first
      cases outcome with
      | ok value =>
          rw [Evaluation.bind_of_ok evaluated]
          obtain ⟨t, reached, reaches⟩ := first
          exact .after reaches (second value env' t evaluated reached)
      | error stop =>
          rw [Evaluation.bind_of_error evaluated]
          cases stop with
          | fault fault => exact first
          | invalid error => exact first
          | unfinished => trivial

/-- A run goes on from where it has followed an evaluation. -/
theorem onward {goal' : α → Env σ → State σ → Prop} {outcome : Except Stop α × Env σ}
    (first : program.Follows s goal outcome)
    (further
      : ∀ value env' t,
          outcome = (.ok value, env')
          → goal value env' t
          → ∃ u, goal' value env' u ∧ program.Reaches t u)
    : program.Follows s goal' outcome := by
  obtain ⟨outcome, env'⟩ := outcome
  cases outcome with
  | ok value =>
      obtain ⟨t, reached, reaches⟩ := first
      obtain ⟨u, reached', reaches'⟩ := further value env' t rfl reached
      exact ⟨u, reached', reaches.trans reaches'⟩
  | error stop =>
      cases stop with
      | fault fault => exact first
      | invalid error => exact first
      | unfinished => trivial

end Program.Follows

end StackScript
