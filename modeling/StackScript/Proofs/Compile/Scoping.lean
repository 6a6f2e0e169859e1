import StackScript.Proofs.Compile.Generation

/-! The scope behind generated code. A statement leaves the open scopes as they were, and adds
a local to them if it is itself a definition inside a scope. What a block or a side of a
branch declares is gone behind it.
-/

namespace StackScript

open Generate

-----------------------------------------------------------------------------------------
-- Open scopes
-----------------------------------------------------------------------------------------

namespace Scope

/-- No live local was declared in a deeper scope than the innermost open one. -/
def WellNested (scope : Scope) : Prop :=
  ∀ entry ∈ scope.locals, entry.depth ≤ scope.depth

/-- The scope with further locals. -/
def extend (scope : Scope) (new : List Local) : Scope :=
  { scope with locals := new ++ scope.locals }

@[simp] theorem extend_nil (scope : Scope) : scope.extend [] = scope := rfl

@[simp] theorem extend_extend (scope : Scope) (new newer : List Local)
    : (scope.extend new).extend newer = scope.extend (newer ++ new) := by
  simp [extend]

theorem WellNested.root : root.WellNested := fun _ member => nomatch member

theorem WellNested.enter {scope : Scope} (nested : scope.WellNested) : scope.enter.WellNested :=
  fun entry member => Nat.le_succ_of_le (nested entry member)

theorem WellNested.extend {scope : Scope} {new : List Local} (nested : scope.WellNested)
    (depths : ∀ entry ∈ new, entry.depth = scope.depth)
    : (scope.extend new).WellNested := by
  intro entry member
  rcases List.mem_append.mp member with member | member
  · exact Nat.le_of_eq (depths entry member)
  · exact nested entry member

/-- Leaving a scope removes the locals that were declared in it and nothing else. -/
theorem WellNested.leave {scope : Scope} {new : List Local} (nested : scope.WellNested)
    (depths : ∀ entry ∈ new, entry.depth = scope.depth + 1)
    : (scope.enter.extend new).leave = .ok (new.length, scope) := by
  have inner : ∀ entry ∈ new, decide (scope.depth < entry.depth) = true := by
    intro entry member
    rw [depths entry member]
    exact decide_eq_true (Nat.lt_succ_self _)
  have outer : ∀ entry ∈ scope.locals, decide (scope.depth < entry.depth) = false := by
    intro entry member
    exact decide_eq_false (Nat.not_lt.mpr (nested entry member))
  have none : scope.locals.takeWhile (fun entry => decide (scope.depth < entry.depth)) = [] := by
    cases locals : scope.locals with
    | nil => rfl
    | cons entry rest => rw [List.takeWhile_cons, outer entry (by simp [locals])]; rfl
  have all : scope.locals.dropWhile (fun entry => decide (scope.depth < entry.depth))
      = scope.locals := by
    cases locals : scope.locals with
    | nil => rfl
    | cons entry rest => rw [List.dropWhile_cons, outer entry (by simp [locals])]; rfl
  have unfolded : (scope.enter.extend new).leave
      = .ok
          (((new ++ scope.locals).takeWhile fun entry => decide (scope.depth < entry.depth)).length,
            ⟨scope.depth,
              (new ++ scope.locals).dropWhile fun entry => decide (scope.depth < entry.depth)⟩) :=
    rfl
  rw [unfolded, List.takeWhile_append_of_pos inner, List.dropWhile_append_of_pos inner, none, all,
    List.append_nil]

end Scope

/-- The scope around some code can be closed behind it, which takes its locals off the stack
again.
-/
theorem closeScope_eq {scope : Scope} {new : List Local} (body : List Instruction)
    (nested : scope.WellNested) (depths : ∀ entry ∈ new, entry.depth = scope.depth + 1)
    : closeScope body (scope.enter.extend new)
      = .ok (body ++ List.replicate new.length .pop, scope) := by
  unfold closeScope
  rw [nested.leave depths]
  rfl

theorem closeScope_extend {scope outer : Scope} {new : List Local} {body code : List Instruction}
    (closed : closeScope body (scope.enter.extend new) = .ok (code, outer))
    (nested : scope.WellNested) (depths : ∀ entry ∈ new, entry.depth = scope.depth + 1)
    : outer = scope ∧ code = body ++ List.replicate new.length .pop := by
  rw [closeScope_eq body nested depths] at closed
  obtain ⟨rfl, rfl⟩ := Prod.mk.inj (Except.ok.inj closed)
  exact ⟨rfl, rfl⟩

/-- The parameters of a function are the locals of a scope of their own, the last first. -/
theorem parameterScope_eq_ok {params : List String} {scope : Scope}
    (declared : parameterScope params = .ok scope)
    : scope = ⟨1, params.reverse.map fun name => ⟨name, 1⟩⟩ := by
  have general : ∀ (params : List String) (old : List Local),
      params.foldlM (fun (scope : Scope) name => (scope.declare name).map Prod.snd) ⟨1, old⟩
        = .ok scope
      → scope = ⟨1, (params.reverse.map fun name => ⟨name, 1⟩) ++ old⟩ := by
    intro params
    induction params with
    | nil =>
        intro old declared
        exact (Except.ok.inj declared).symm
    | cons name rest ih =>
        intro old declared
        simp only [List.foldlM_cons, bind_eq_ok, map_eq_ok, Prod.exists] at declared
        obtain ⟨_, ⟨slot, next, first, rfl⟩, declared⟩ := declared
        obtain ⟨-, -, rfl⟩ := declare_eq_ok first
        rw [ih _ declared]
        simp
  simpa using general params [] declared

/-- So many parameters have their scope. -/
theorem parameterScope_eq {params : List String} (few : params.length ≤ 255)
    : parameterScope params = .ok ⟨1, params.reverse.map fun name => ⟨name, 1⟩⟩ := by
  have general : ∀ (params : List String) (old : List Local),
      params.length + old.length ≤ 255
      → params.foldlM (fun (scope : Scope) name => (scope.declare name).map Prod.snd) ⟨1, old⟩
        = .ok ⟨1, (params.reverse.map fun name => ⟨name, 1⟩) ++ old⟩ := by
    intro params
    induction params with
    | nil => exact fun _ _ => rfl
    | cons name rest ih =>
        intro old fits
        rw [List.length_cons] at fits
        have room : old.length < 256 := by omega
        have behind := ih (⟨name, 1⟩ :: old) (by rw [List.length_cons]; omega)
        rw [List.foldlM_cons, Scope.declare, if_pos room]
        refine Eq.trans behind ?_
        simp
  have all := general params [] few
  rwa [List.append_nil] at all

-----------------------------------------------------------------------------------------
-- Declared locals
-----------------------------------------------------------------------------------------

/-- The locals that a statement declares in the scope of the given depth in which it stands. -/
def Stmt.declares (depth : Nat) : Stmt → List Local
  | .define _ name _ => if depth = 0 then [] else [⟨name, depth⟩]
  | _ => []

/-- The locals that the statements of a block declare in its scope, the latest first. -/
def declaredIn (depth : Nat) : List Stmt → List Local
  | [] => []
  | statement :: rest =>
      if statement.alwaysReturns then statement.declares depth
      else declaredIn depth rest ++ statement.declares depth

theorem Stmt.declares_depth {depth : Nat} {statement : Stmt}
    : ∀ entry ∈ statement.declares depth, entry.depth = depth := by
  intro entry member
  unfold declares at member
  split at member
  · split at member
    · cases member
    · rw [List.mem_singleton.mp member]
  · cases member

theorem declaredIn_depth {depth : Nat} {body : List Stmt}
    : ∀ entry ∈ declaredIn depth body, entry.depth = depth := by
  induction body with
  | nil => exact fun _ member => nomatch member
  | cons statement rest ih =>
      intro entry member
      unfold declaredIn at member
      split at member
      · exact Stmt.declares_depth entry member
      · rcases List.mem_append.mp member with member | member
        · exact ih entry member
        · exact Stmt.declares_depth entry member

/-- Outside all scopes nothing is a local. -/
theorem Stmt.declares_zero (statement : Stmt) : statement.declares 0 = [] := by
  cases statement <;> rfl

theorem Stmt.declares_of_isBlock {depth : Nat} {statement : Stmt}
    (block : statement.isBlock = true)
    : statement.declares depth = [] := by
  cases statement <;> first | rfl | cases block

-----------------------------------------------------------------------------------------
-- The scope behind a statement
-----------------------------------------------------------------------------------------

/-- Defining a name adds the local that the statement declares. -/
theorem define_scope {span : Span} {name : String} {value : Option Expr}
    {scope outer : Scope} {symbols after : Symbols} {code : List Instruction}
    (defined : define name scope symbols = .ok (code, outer, after))
    : outer = scope.extend ((Stmt.define span name value).declares scope.depth) := by
  rcases define_eq_ok defined with ⟨outside, rfl, -⟩ | ⟨inside, -, rfl, -⟩
  · simp [Stmt.declares, outside]
  · simp [Stmt.declares, inside, Scope.extend]

/-- The scope behind a side of a branch is the scope before it: the side has a scope of its
own, is a block or stands outside all scopes.
-/
theorem SideGenerated.scope_of {side : Stmt} {scope outer : Scope} {symbols after : Symbols}
    {code : List Instruction}
    (behind
      : ∀ {scope outer : Scope} {code : List Instruction},
          side.generate scope symbols = .ok (code, outer, after)
          → scope.WellNested
          → outer = scope.extend (side.declares scope.depth))
    (generated : SideGenerated side scope symbols code outer after) (nested : scope.WellNested)
    : outer = scope := by
  cases generated with
  | own _ _ generated closed =>
      rw [behind generated nested.enter] at closed
      exact (closeScope_extend closed nested Stmt.declares_depth).1
  | shared shares generated =>
      have declares : side.declares scope.depth = [] := by
        rcases shares with outside | block
        · rw [outside, Stmt.declares_zero]
        · exact Stmt.declares_of_isBlock block
      rw [behind generated nested, declares, Scope.extend_nil]

mutual

/-- Behind a statement there are the locals before it and those that it declares, by
induction on the statement.
-/
theorem Stmt.generate_scope {statement : Stmt}
    {scope outer : Scope} {symbols after : Symbols} {code : List Instruction}
    (generated : statement.generate scope symbols = .ok (code, outer, after))
    (nested : scope.WellNested)
    : outer = scope.extend (statement.declares scope.depth) := by
  cases statement with
  | block span body =>
      obtain ⟨bodyCode, inner, body', closed⟩ := Stmt.generate_block generated
      rw [generateBody_scope body' nested.enter] at closed
      exact (closeScope_extend closed nested declaredIn_depth).1
  | branch span condition yes no =>
      cases no with
      | none =>
          obtain ⟨_, _, _, _, -, side, -⟩ := Stmt.generate_branch_none generated
          exact side.scope_of Stmt.generate_scope nested
      | some no =>
          obtain ⟨_, _, _, between, _, _, _, -, yesSide, noSide, -⟩ :=
            Stmt.generate_branch_some generated
          have same : between = scope := yesSide.scope_of Stmt.generate_scope nested
          subst same
          exact noSide.scope_of Stmt.generate_scope nested
  | ret span value =>
      cases value with
      | none =>
          cases generated
          rfl
      | some value =>
          obtain ⟨_, -, rfl, -⟩ := Stmt.generate_ret_some generated
          rfl
  | define span name value =>
      cases value with
      | none =>
          obtain ⟨_, defined, -⟩ := Stmt.generate_define_none generated
          exact define_scope defined
      | some value =>
          obtain ⟨_, _, _, -, defined, -⟩ := Stmt.generate_define_some generated
          exact define_scope defined
  | discard span value =>
      obtain ⟨_, -, rfl, -⟩ := Stmt.generate_discard generated
      rfl
termination_by structural statement

/-- Behind the statements of a block there are the locals before them and those that they
declare.
-/
theorem generateBody_scope {body : List Stmt}
    {scope outer : Scope} {symbols after : Symbols} {code : List Instruction}
    (generated : generateBody body scope symbols = .ok (code, outer, after))
    (nested : scope.WellNested)
    : outer = scope.extend (declaredIn scope.depth body) := by
  cases body with
  | nil =>
      cases generated
      rfl
  | cons statement rest =>
      rcases generateBody_cons generated with
        ⟨returns, first⟩ | ⟨_, between, _, _, goesOn, first, rest', -⟩
      · rw [declaredIn, if_pos returns]
        exact Stmt.generate_scope first nested
      · have behind := Stmt.generate_scope first nested
        subst behind
        rw [generateBody_scope rest' (nested.extend Stmt.declares_depth), Scope.extend_extend,
          declaredIn, goesOn]
        rfl
termination_by structural body

end

theorem SideGenerated.scope {side : Stmt} {scope outer : Scope} {symbols after : Symbols}
    {code : List Instruction} (generated : SideGenerated side scope symbols code outer after)
    (nested : scope.WellNested)
    : outer = scope :=
  generated.scope_of Stmt.generate_scope nested

end StackScript
