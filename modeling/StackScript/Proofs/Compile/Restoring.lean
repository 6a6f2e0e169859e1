import StackScript.Proofs.Compile.LiveLocals

/-! Writing a tree restores the scopes. Behind a statement the same scopes are open with the same
live locals, apart from the local that the statement itself declares; an expression changes
neither. Both leave the bytes in front of them as they are.
-/

namespace StackScript

/-- What is left of a body behind a statement that was written to it. -/
structure Stmt.Restores (statement : Stmt) (body behind : Body) : Prop where
  depth : behind.scope.depth = body.scope.depth
  /-- A definition inside a scope declares a local. -/
  defined
    : ∀ span name value,
        statement = .define span name value
        → 0 < body.scope.depth
        → behind.scope.locals = ⟨name, body.scope.depth⟩ :: body.scope.locals
  /-- Any other statement, and a definition outside all scopes, declares none. -/
  kept
    : (∀ span name value, statement ≠ .define span name value) ∨ body.scope.depth = 0
      → behind.scope.locals = body.scope.locals
  code : body.code.toList <+: behind.code.toList

/-- What is left of a body behind an expression that was written to it. -/
structure Expr.Restores (body behind : Body) : Prop where
  scope : behind.scope = body.scope
  code : body.code.toList <+: behind.code.toList

/-- What a statement declares is known from its form and the depth at which it stands. -/
theorem Stmt.declares_eq_nil {statement : Stmt} {depth : Nat}
    (none : (∀ span name value, statement ≠ .define span name value) ∨ depth = 0)
    : statement.declares depth = [] := by
  rcases none with other | rfl
  · cases statement with
    | define span name value => exact absurd rfl (other span name value)
    | _ => rfl
  · exact statement.declares_zero

/-- Live locals are nested in the scopes of every body that actions lead to. -/
theorem wellNested_afterAll (actions : List Action)
    : (Body.empty.afterAll actions).scope.WellNested := by
  have tells := Roster.tells_empty.afterAll actions
  have ordered := Roster.ordered_afterAll actions
  intro entry member
  rw [tells.locals, List.mem_reverse, List.mem_map] at member
  obtain ⟨listed, member, rfl⟩ := member
  exact tells.depth ▸ ordered.within listed member

variable {body behind : Body} {symbols after : Symbols}

theorem Expr.restores_of_write {expression : Expr}
    (written : expression.write body symbols = .ok (behind, after))
    : Expr.Restores body behind := by
  rw [Expr.write_eq] at written
  obtain ⟨⟨code, _⟩, -, same⟩ := map_eq_ok.mp written
  cases same
  constructor
  case scope => rfl
  case code => exact ⟨encodeAll code, (body.toList_emitCode code).symm⟩

theorem Stmt.restores_of_write {statement : Stmt} (nested : body.scope.WellNested)
    (written : statement.write body symbols = .ok (behind, after))
    : statement.Restores body behind := by
  rw [Stmt.write_eq] at written
  obtain ⟨⟨code, outer, _⟩, generated, same⟩ := map_eq_ok.mp written
  cases same
  have scope := Stmt.generate_scope generated nested
  subst scope
  constructor
  case depth => rfl
  case defined =>
    rintro span name value rfl inside
    have declares : (Stmt.define span name value).declares body.scope.depth
        = [⟨name, body.scope.depth⟩] :=
      if_neg (Nat.ne_of_gt inside)
    exact congrArg (· ++ body.scope.locals) declares
  case kept =>
    intro none
    exact congrArg (· ++ body.scope.locals) (Stmt.declares_eq_nil none)
  case code => exact ⟨encodeAll code, (Body.toList_emitCode _ code).symm⟩

/-- Writing restores the scopes of a body, whatever is written. -/
structure Restoring (body : Body) : Prop where
  statement
    : ∀ (statement : Stmt) symbols behind after,
        statement.write body symbols = .ok (behind, after) → statement.Restores body behind
  expression
    : ∀ (expression : Expr) symbols behind after,
        expression.write body symbols = .ok (behind, after) → Expr.Restores body behind

/-- Writing restores the scopes of every body that actions lead to. -/
theorem restoring_afterAll (actions : List Action) : Restoring (Body.empty.afterAll actions) where
  statement _ _ _ _ written := Stmt.restores_of_write (wellNested_afterAll actions) written
  expression _ _ _ _ written := Expr.restores_of_write written

/-- Inside a scope with one local, a definition adds another, and a function literal none. -/
theorem restoring_afterAll_inScope
    : ∃ body, body = Body.empty.afterAll [.enter, .declare "a"]
      ∧ (∃ behind after,
          (Stmt.define ⟨0, 0⟩ "b" none).write body .initial = .ok (behind, after)
          ∧ behind.scope = ⟨1, [⟨"b", 1⟩, ⟨"a", 1⟩]⟩
          ∧ (Stmt.define ⟨0, 0⟩ "b" none).Restores body behind)
      ∧ ∃ behind after,
          (Expr.function ["p"] [.define ⟨0, 0⟩ "q" none]).write body .initial = .ok (behind, after)
          ∧ after.functions.size = 1
          ∧ Expr.Restores body behind := by
  have restoring := restoring_afterAll [.enter, .declare "a"]
  refine ⟨_, rfl, ⟨_, _, rfl, rfl, ?_⟩, ⟨_, _, rfl, rfl, ?_⟩⟩
  · exact restoring.statement _ .initial _ _ rfl
  · exact restoring.expression (.function ["p"] [.define ⟨0, 0⟩ "q" none]) .initial _ _ rfl

end StackScript
