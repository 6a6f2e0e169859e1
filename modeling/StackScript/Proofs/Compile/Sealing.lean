import StackScript.Proofs.Bytecode.Flow
import StackScript.Proofs.Compile.Balance

/-! Code that control cannot leave at its end. The code of a statement that always returns does
so whichever way it is run, and the epilogue returns from a function whose body can be left.
-/

namespace StackScript

open Generate

theorem Returning.closeScope {scope outer : Scope} {body code : List Instruction}
    (closed : closeScope body scope = .ok (code, outer)) (returns : Returning body)
    : Returning code := by
  obtain ⟨count, -, rfl⟩ := closeScope_eq_ok closed
  exact returns.pops count

theorem SideGenerated.returning_of {side : Stmt} {scope outer : Scope} {symbols after : Symbols}
    {code : List Instruction}
    (returning
      : ∀ {scope outer : Scope} {code : List Instruction},
          side.generate scope symbols = .ok (code, outer, after)
          → scope.WellNested
          → Returning code)
    (generated : SideGenerated side scope symbols code outer after) (nested : scope.WellNested)
    : Returning code := by
  cases generated with
  | own _ _ generated closed => exact .closeScope closed (returning generated nested.enter)
  | shared _ generated => exact returning generated nested

mutual

/-- The code of a statement that always returns does so, by induction on the statement: it
ends with a return, or with a branch both sides of which return.
-/
theorem Stmt.generate_returning {statement : Stmt} {scope outer : Scope} {symbols after : Symbols}
    {code : List Instruction}
    (generated : statement.generate scope symbols = .ok (code, outer, after))
    (nested : scope.WellNested) (returns : statement.alwaysReturns = true)
    : Returning code := by
  cases statement with
  | block span body =>
      obtain ⟨bodyCode, inner, body', closed⟩ := Stmt.generate_block generated
      exact .closeScope closed (generateBody_returning body' nested.enter returns)
  | branch span condition yes no =>
      cases no with
      | none => cases returns
      | some no =>
          obtain ⟨testCode, _, yesCode, between, _, noCode, offset, test', yesSide, noSide,
            result⟩ := Stmt.generate_branch_some generated
          obtain ⟨yesReturns, noReturns⟩ := Bool.and_eq_true_iff.mp returns
          have same := yesSide.scope nested
          subst same
          rcases result with ⟨-, distance, rfl⟩ | ⟨_, goesOn, -⟩
          · have near := yesSide.returning_of
              (fun generated nested => Stmt.generate_returning generated nested yesReturns) nested
            have far := noSide.returning_of
              (fun generated nested => Stmt.generate_returning generated nested noReturns) nested
            have test := Expr.generate_levels test' (Nat.le_refl between.locals.length)
            exact .behind test.balanced (.fork distance.symm near far)
          · exact absurd (yesReturns.symm.trans goesOn) nofun
  | ret span value =>
      cases value with
      | none =>
          cases generated
          exact .behind (Levels.push scope.locals.length .null).balanced .ret
      | some value =>
          obtain ⟨valueCode, value', -, rfl⟩ := Stmt.generate_ret_some generated
          have levels := Expr.generate_levels value' (Nat.le_refl scope.locals.length)
          exact .behind levels.balanced .ret
  | define span name value => cases returns
  | discard span value => cases returns
termination_by structural statement

theorem generateBody_returning {body : List Stmt} {scope outer : Scope} {symbols after : Symbols}
    {code : List Instruction}
    (generated : generateBody body scope symbols = .ok (code, outer, after))
    (nested : scope.WellNested) (returns : Stmt.anyReturns body = true)
    : Returning code := by
  cases body with
  | nil => cases returns
  | cons statement others =>
      rcases generateBody_cons generated with
        ⟨first', first⟩ | ⟨_, between, _, _, goesOn, first, rest', rfl⟩
      · exact Stmt.generate_returning first nested first'
      · have behind := Stmt.generate_scope first nested
        subst behind
        have later : Stmt.anyReturns others = true := by
          simpa only [Stmt.anyReturns, goesOn, Bool.false_or] using returns
        exact .behind (Stmt.generate_levels first nested).balanced
          (generateBody_returning rest' (nested.extend Stmt.declares_depth) later)
termination_by structural body

end

/-- A function returns: its body always returns, or the epilogue does. -/
theorem returning_epilogue {body : List Stmt} {scope outer closedIn : Scope}
    {symbols after : Symbols} {code closed : List Instruction}
    (generated : generateBody body scope symbols = .ok (code, outer, after))
    (nested : scope.WellNested) (closes : closeScope code outer = .ok (closed, closedIn))
    {height : Nat} (balanced : Balanced height closed)
    : Returning (closed ++ epilogue body) := by
  unfold epilogue
  split
  · rename_i returns
    rw [List.append_nil]
    exact .closeScope closes (generateBody_returning generated nested returns)
  · exact .behind balanced (.behind (Levels.push 0 .null).balanced .ret)

end StackScript
