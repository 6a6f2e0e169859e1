import StackScript.Compile.Error

/-! Attempts. An operation on a state may fail, and then leaves the state as it was. Where the
same state is kept in two ways, the operations on the one agree with those on the other if both
give the same results and fail alike.
-/

namespace StackScript.Attempt

variable {α β State Mirror : Type}

/-- The state behind an attempt, which is the one before it if it fails. -/
def behind (before : State) : Except CompileError (α × State) → State
  | .ok (_, after) => after
  | .error _ => before

/-- The same result, with a mirror of the state behind it, or the same failure, with the mirror
as it was.
-/
inductive Agrees (mirrors : Mirror → State → Prop) (before : Mirror)
    : Except CompileError α × Mirror → Except CompileError (α × State) → Prop
  | done {mirror : Mirror} {state : State} (result : α) (same : mirrors mirror state)
    : Agrees mirrors before (.ok result, mirror) (.ok (result, state))
  | failed (error : CompileError) : Agrees mirrors before (.error error, before) (.error error)

/-- Behind attempts that agree, states mirror each other if they did before. -/
theorem Agrees.behind {mirrors : Mirror → State → Prop} {mirror : Mirror} {state : State}
    {entry : Except CompileError α × Mirror} {attempt : Except CompileError (α × State)}
    (agrees : Agrees mirrors mirror entry attempt) (same : mirrors mirror state)
    : mirrors entry.2 (behind state attempt) := by
  cases agrees with
  | done _ after => exact after
  | failed _ => exact same

theorem Agrees.map {mirrors : Mirror → State → Prop} {before : Mirror}
    {entry : Except CompileError α × Mirror} {attempt : Except CompileError (α × State)}
    (agrees : Agrees mirrors before entry attempt) (change : α → β)
    : Agrees mirrors before (entry.1.map change, entry.2)
        (attempt.map fun (result, after) => (change result, after)) := by
  cases agrees with
  | done result same => exact .done (change result) same
  | failed error => exact .failed error

end StackScript.Attempt
