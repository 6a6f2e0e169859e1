import StackScript.Proofs.Evaluation.Expressions

/-! The code of a statement follows its evaluation. A statement that returns gets the run in
front of a return with the returned value on top, whatever scopes are open there; otherwise
the run gets to the end of the code, with the locals of the open scopes alone above the base.
-/

namespace StackScript

open Generate

variable {σ : Type} [Sink σ]

-----------------------------------------------------------------------------------------
-- What code ends in
-----------------------------------------------------------------------------------------

/-- Behind the code of a statement that returns nothing the locals are those of the scope; one
that returns a value leaves it on top in front of a return.
-/
def Site.Leaves (site : Site) (names : List String) (program : Program) (stop : Nat)
    (outer : Scope)
    : Option Value → Env σ → State σ → Prop
  | none, env, s => s = site.during names stop env [] ∧ scopeOf env.scopes = outer
  | some value, env, s =>
      ∃ ip rest locals,
        program.CodeFrom site.function ip (.ret :: rest)
        ∧ s = site.state ip (slotsOf names env.globals) (locals ++ [value]) env.sink

section

variable {script : Script} {main : List Instruction} {final before after : Symbols}
  {program : Program} {site : Site} {names : List String} {ip stop : Nat}
  {rest code : List Instruction} {env : Env σ} {scope outer : Scope}

theorem Site.test_during {offset : UInt16} (names : List String) (env : Env σ) (value : Value)
    (placed : program.CodeFrom site.function ip (.jump .popFalsy offset :: rest))
    : program.Reaches (site.during names ip env ([] ++ [value]))
        (site.during names (if value.isTruthy then ip + 3 else ip + 3 + offset.toNat) env []) := by
  rw [during_snoc]
  exact test placed

/-- A scope that is open only for a while leaves the others as they are. Its locals are taken
off the stack at its end, unless the run returns from inside of it.
-/
theorem nested_follows {body : Evaluation σ (Option Value)} {new : List Local} {middle : Nat}
    (follows
      : program.Follows (site.during names ip { env with scopes := [] :: env.scopes } [])
          (site.Leaves names program middle (scope.enter.extend new))
          (body { env with scopes := [] :: env.scopes }))
    (nested : scope.WellNested) (depths : ∀ entry ∈ new, entry.depth = scope.depth + 1)
    (placed
      : program.CodeFrom site.function middle (List.replicate new.length .pop ++ rest))
    (ends : stop = middle + new.length)
    : program.Follows (site.during names ip env []) (site.Leaves names program stop scope)
        (Evaluation.nested body env) := by
  change program.Follows (site.during names ip env []) _ _ at follows
  unfold Evaluation.nested
  cases evaluated : body { env with scopes := [] :: env.scopes } with
  | mk outcome inner =>
      rw [evaluated] at follows
      cases outcome with
      | ok value =>
          obtain ⟨t, reached, reaches⟩ := follows
          cases value with
          | some value => exact ⟨t, reached, reaches⟩
          | none =>
              obtain ⟨rfl, scopes⟩ := reached
              obtain ⟨innermost, others, split, outside, length⟩ :=
                scopeOf_leave scopes nested depths
              refine ⟨_, ⟨rfl, by rw [split]; exact outside⟩, reaches.trans ?_⟩
              have values : inner.values = valuesOf others.flatten ++ valuesOf innermost := by
                rw [Env.values, split, List.flatten_cons, valuesOf_append]
              have count : (valuesOf innermost).length = new.length :=
                (valuesOf_length innermost).trans length
              rw [← count] at placed
              rw [ends, ← count, Site.during, Site.during, values, Env.values, split,
                List.append_nil, List.append_nil]
              exact Site.pops placed
      | error stop =>
          cases stop with
          | fault fault => exact follows
          | invalid error => exact follows
          | unfinished => trivial

theorem define_follows (assembles : script.Assembles main final program) {name : String}
    {value : Value} (defined : define name scope before = .ok (code, outer, after))
    (formed : before.WellFormed) (grown : after.Grows final)
    (placed : program.CodeFrom site.function ip (code ++ rest))
    (scopes : scopeOf env.scopes = scope) (ends : stop = ip + codeLength code)
    : program.Follows (site.during script.globals ip env ([] ++ [value]))
        (site.Leaves script.globals program stop outer) (Evaluation.define name value env) := by
  subst scopes ends
  rcases define_eq_ok defined with ⟨outside, rfl, slot, entered, rfl⟩ | ⟨inside, -, rfl, rfl, -⟩
  · rw [scopeOf_depth, List.length_eq_zero_iff] at outside
    have env' : env.define name value = env.setGlobal name value := by
      rw [Env.define, outside]
    have same : (env.setGlobal name value).scopes = env.scopes := by
      unfold Env.setGlobal
      split <;> rfl
    rw [Evaluation.define, env']
    refine ⟨_, ⟨rfl, by rw [same]⟩, ?_⟩
    have stored : program.Reaches (site.during script.globals ip env ([] ++ [value])) _ :=
      setGlobal_follows assembles entered formed grown placed
    exact stored.trans (Site.pop_during script.globals _ [] value placed.tail)
  · rw [scopeOf_depth] at inside
    obtain ⟨inner, others, split⟩ := List.exists_cons_of_ne_nil (List.ne_nil_of_length_pos
      (Nat.pos_of_ne_zero inside))
    have env' : env.define name value
        = { env with scopes := ((name, value) :: inner) :: others } := by
      rw [Env.define, split]
    have values : (env.define name value).values = env.values ++ [value] := by
      rw [env', Env.values, Env.values, split, List.flatten_cons, List.cons_append, valuesOf_cons,
        List.flatten_cons]
    refine ⟨_, ⟨rfl, ?_⟩, ?_⟩
    · rw [env', split]
      simp [scopeOf]
    · rw [Site.during, Site.during, values, env', List.nil_append, List.append_nil]
      exact .refl _

/-- The number of live locals stays within the limit. -/
theorem Stmt.generate_few {statement : Stmt}
    (generated : statement.generate scope before = .ok (code, outer, after))
    (nested : scope.WellNested) (few : scope.locals.length ≤ 256)
    : outer.locals.length ≤ 256 := by
  have behind := Stmt.generate_scope generated nested
  cases statement with
  | define span name value =>
      have declared : ∃ code symbols after', Generate.define name scope symbols
          = .ok (code, outer, after') := by
        cases value with
        | none =>
            obtain ⟨code, defined, -⟩ := Stmt.generate_define_none generated
            exact ⟨code, _, _, defined⟩
        | some value =>
            obtain ⟨_, _, code, -, defined, -⟩ := Stmt.generate_define_some generated
            exact ⟨code, _, _, defined⟩
      obtain ⟨_, _, _, defined⟩ := declared
      rcases define_eq_ok defined with ⟨-, rfl, -⟩ | ⟨-, room, rfl, -⟩
      · exact few
      · exact room
  | _ =>
      rw [behind]
      exact few

/-- A side of a branch follows its evaluation if it does as a statement. -/
theorem SideGenerated.follows {links : Linkage σ} {side : Stmt} {count : Nat}
    (generated : SideGenerated side scope before code outer after)
    (follows
      : ∀ {scope outer : Scope} {code rest : List Instruction} {ip stop : Nat} {env : Env σ},
          side.generate scope before = .ok (code, outer, after)
          → program.CodeFrom site.function ip (code ++ rest)
          → scopeOf env.scopes = scope
          → scope.locals.length ≤ 256
          → stop = ip + codeLength code
          → program.Follows (site.during names ip env []) (site.Leaves names program stop outer)
              (side.eval links count env))
    (placed : program.CodeFrom site.function ip (code ++ rest))
    (scopes : scopeOf env.scopes = scope) (few : scope.locals.length ≤ 256)
    (ends : stop = ip + codeLength code)
    : program.Follows (site.during names ip env []) (site.Leaves names program stop scope)
        (Evaluation.side side (side.eval links count) env) := by
  have depth : env.scopes.length = scope.depth := by
    rw [← scopeOf_depth, scopes]
  have nested : scope.WellNested := by
    rw [← scopes]
    exact scopeOf_nested env.scopes
  have same := generated.scope nested
  subst same
  unfold Evaluation.side
  cases generated with
  | own inside bare generated closed =>
      have some : env.scopes.isEmpty = false := by
        rw [List.isEmpty_eq_false_iff, ← List.length_pos_iff]
        omega
      rw [some, bare]
      obtain rfl := Stmt.generate_scope generated nested.enter
      obtain ⟨-, rfl⟩ := closeScope_extend closed nested Stmt.declares_depth
      rw [List.append_assoc] at placed
      refine nested_follows (follows generated placed ?_ few rfl) nested Stmt.declares_depth
        placed.skip (ends.trans ?_)
      · rw [scopeOf_enter, scopes]
      · rw [codeLength_append, codeLength_pops, Nat.add_assoc]
  | shared shares generated =>
      have here : (env.scopes.isEmpty || side.isBlock) = true := by
        rcases shares with outside | block
        · have none : env.scopes = [] := List.length_eq_zero_iff.mp (depth.trans outside)
          rw [none]
          rfl
        · rw [block, Bool.or_true]
      rw [if_pos here]
      exact follows generated placed scopes few ends

-----------------------------------------------------------------------------------------
-- Branches
-----------------------------------------------------------------------------------------

/-- The value of the condition decides which side is followed. -/
theorem branch_follows {condition : Evaluation σ Value} {yes no : Evaluation σ (Option Value)}
    {middle : Nat} {offset : UInt16}
    (tested
      : program.Follows (site.during names ip env []) (site.Holds names middle scope [])
          (condition env))
    (placed : program.CodeFrom site.function middle (.jump .popFalsy offset :: rest))
    (truthy
      : ∀ env : Env σ,
          scopeOf env.scopes = scope
          → program.Follows (site.during names (middle + 3) env [])
              (site.Leaves names program stop outer) (yes env))
    (falsy
      : ∀ env : Env σ,
          scopeOf env.scopes = scope
          → program.Follows (site.during names (middle + 3 + offset.toNat) env [])
              (site.Leaves names program stop outer) (no env))
    : program.Follows (site.during names ip env []) (site.Leaves names program stop outer)
        ((condition >>= fun test => if test.isTruthy then yes else no) env) := by
  refine tested.bind ?_
  rintro test env₁ _ - ⟨rfl, scopes⟩
  have decided := Site.test_during names env₁ test placed
  split
  · rename_i isTruthy
    rw [if_pos isTruthy] at decided
    exact .after decided (truthy env₁ scopes)
  · rename_i isFalsy
    rw [if_neg isFalsy] at decided
    exact .after decided (falsy env₁ scopes)

/-- A side that does not return goes on behind the other one. -/
theorem jump_follows {s : State σ} {outcome : Except Stop (Option Value) × Env σ} {middle : Nat}
    {offset : UInt16}
    (follows : program.Follows s (site.Leaves names program middle outer) outcome)
    (placed : program.CodeFrom site.function middle (.jump .always offset :: rest))
    (ends : stop = middle + 3 + offset.toNat)
    : program.Follows s (site.Leaves names program stop outer) outcome := by
  subst ends
  refine follows.onward ?_
  intro value env' t evaluated reached
  cases value with
  | some result => exact ⟨t, reached, .refl t⟩
  | none =>
      obtain ⟨rfl, scopes⟩ := reached
      exact ⟨_, ⟨rfl, scopes⟩, Site.jump placed⟩

/-- A side that always returns never gets to its end. -/
theorem returns_follows {s : State σ} {outcome : Except Stop (Option Value) × Env σ}
    {middle : Nat} (follows : program.Follows s (site.Leaves names program middle scope) outcome)
    (returns : ∀ value env, outcome = (.ok value, env) → ∃ result, value = some result)
    : program.Follows s (site.Leaves names program stop outer) outcome := by
  refine follows.onward ?_
  intro value env' t evaluated reached
  obtain ⟨result, rfl⟩ := returns value env' evaluated
  exact ⟨t, reached, .refl t⟩

end

-----------------------------------------------------------------------------------------
-- Statements
-----------------------------------------------------------------------------------------

mutual

/-- The code of a statement follows its evaluation, by induction on the statement. -/
theorem Stmt.eval_follows {script : Script} {main : List Instruction} {final : Symbols}
    {program : Program} (assembles : script.Assembles main final program) {links : Linkage σ}
    (fits : links.Fits script program) {statement : Stmt} {scope outer : Scope}
    {before after : Symbols} {code rest : List Instruction}
    (generated : statement.generate scope before = .ok (code, outer, after))
    (formed : before.WellFormed) (grown : after.Grows final) {site : Site} {ip stop : Nat}
    (placed : program.CodeFrom site.function ip (code ++ rest)) {env : Env σ}
    (scopes : scopeOf env.scopes = scope) (few : scope.locals.length ≤ 256)
    (ends : stop = ip + codeLength code)
    : program.Follows (site.during script.globals ip env [])
        (site.Leaves script.globals program stop outer)
        (statement.eval links before.functions.size env) := by
  have nested : scope.WellNested := by
    rw [← scopes]
    exact scopeOf_nested env.scopes
  cases statement with
  | block span body =>
      have behind := Stmt.generate_scope generated nested
      subst behind
      obtain ⟨bodyCode, inner, body', closed⟩ := Stmt.generate_block generated
      obtain rfl := generateBody_scope body' nested.enter
      obtain ⟨-, rfl⟩ := closeScope_extend closed nested declaredIn_depth
      rw [List.append_assoc] at placed
      rw [Stmt.eval]
      refine nested_follows (evalBody_follows assembles fits body' formed grown placed ?_ few rfl)
        nested declaredIn_depth placed.skip (ends.trans ?_)
      · rw [scopeOf_enter, scopes]
      · rw [codeLength_append, codeLength_pops, Nat.add_assoc]
  | branch span condition yes no =>
      cases no with
      | none =>
          obtain ⟨testCode, tested, yesCode, offset, test', side, distance, rfl⟩ :=
            Stmt.generate_branch_none generated
          have behind := side.scope nested
          subst behind
          rw [List.append_assoc] at placed
          have counted := (Expr.generate_functions test').size
          have growsTest := (Expr.generate_refers test').grows
          have growsYes := (side.refers_of Stmt.generate_refers).grows
          have stop' : stop = ip + codeLength testCode + 3 + codeLength yesCode := by
            rw [ends]
            simp only [codeLength_append, codeLength_cons, Nat.add_assoc]
            rfl
          rw [Stmt.eval, ← counted]
          refine branch_follows (Expr.eval_follows assembles fits test' formed
            (growsYes.trans grown) placed scopes few rfl) placed.skip ?_ ?_
          · intro env₁ scopes₁
            refine side.follows ?_ placed.skip.tail scopes₁ few stop'
            intro scope outer code rest ip stop env generated placed scopes few ends
            exact Stmt.eval_follows assembles fits generated (formed.grows growsTest) grown placed
              scopes few ends
          · intro env₁ scopes₁
            refine .pure ⟨?_, scopes₁⟩
            rw [stop', distance]
      | some no =>
          obtain ⟨testCode, tested, yesCode, between, middle, noCode, offset, test', yesSide, noSide,
            result⟩ := Stmt.generate_branch_some generated
          have same := yesSide.scope nested
          subst same
          have behind := noSide.scope nested
          subst behind
          have counted := (Expr.generate_functions test').size
          have counted' := (yesSide.functions_of Stmt.generate_functions).size
          have growsTest := (Expr.generate_refers test').grows
          have growsYes := (yesSide.refers_of Stmt.generate_refers).grows
          have growsNo := (noSide.refers_of Stmt.generate_refers).grows
          have yesFollows : ∀ {rest : List Instruction} {ip : Nat} {env : Env σ},
              program.CodeFrom site.function ip (yesCode ++ rest)
              → scopeOf env.scopes = outer
              → program.Follows (site.during script.globals ip env [])
                  (site.Leaves script.globals program (ip + codeLength yesCode) outer)
                  (Evaluation.side yes (yes.eval links tested.functions.size) env) := by
            intro rest ip env placed scopes
            refine yesSide.follows ?_ placed scopes few rfl
            intro scope outer code rest ip stop env generated placed scopes few ends
            exact Stmt.eval_follows assembles fits generated (formed.grows growsTest)
              (growsNo.trans grown) placed scopes few ends
          have noFollows : ∀ {rest : List Instruction} {ip stop : Nat} {env : Env σ},
              program.CodeFrom site.function ip (noCode ++ rest)
              → scopeOf env.scopes = outer
              → stop = ip + codeLength noCode
              → program.Follows (site.during script.globals ip env [])
                  (site.Leaves script.globals program stop outer)
                  (Evaluation.side no (no.eval links middle.functions.size) env) := by
            intro rest ip stop env placed scopes ends
            refine noSide.follows ?_ placed scopes few ends
            intro scope outer code rest ip stop env generated placed scopes few ends
            exact Stmt.eval_follows assembles fits generated
              ((formed.grows growsTest).grows growsYes) grown placed scopes few ends
          have grownTest := growsYes.trans (growsNo.trans grown)
          rw [Stmt.eval, ← counted, ← counted']
          rcases result with ⟨returns, distance, rfl⟩ | ⟨beyond, goesOn, distance, distance', rfl⟩
          · rw [List.append_assoc, List.cons_append, List.append_assoc] at placed
            refine branch_follows (Expr.eval_follows assembles fits test' formed grownTest placed
              scopes few rfl) placed.skip ?_ ?_
            · intro env₁ scopes₁
              refine returns_follows (yesFollows placed.skip.tail scopes₁) ?_
              intro value env₂ evaluated
              exact Evaluation.side_returns (Stmt.eval_returns returns) evaluated
            · intro env₁ scopes₁
              rw [distance]
              refine noFollows placed.skip.tail.skip scopes₁ (ends.trans ?_)
              simp only [codeLength_append, codeLength_cons, Nat.add_assoc]
              rfl
          · rw [List.append_assoc, List.cons_append, List.append_assoc, List.cons_append] at placed
            have stop' : stop
                = ip + codeLength testCode + 3 + codeLength yesCode + 3 + codeLength noCode := by
              rw [ends]
              simp only [codeLength_append, codeLength_cons, Nat.add_assoc]
              rfl
            refine branch_follows (Expr.eval_follows assembles fits test' formed grownTest placed
              scopes few rfl) placed.skip ?_ ?_
            · intro env₁ scopes₁
              refine jump_follows (yesFollows placed.skip.tail scopes₁) placed.skip.tail.skip ?_
              rw [stop', distance']
            · intro env₁ scopes₁
              rw [distance, ← Nat.add_assoc]
              exact noFollows placed.skip.tail.skip.tail scopes₁ stop'
  | ret span value =>
      cases value with
      | none =>
          cases generated
          rw [Stmt.eval]
          refine .after (Site.push_during _ _ _ placed fun _ => rfl) ?_
          exact .pure ⟨_, _, _, placed.tail, Site.during_snoc ..⟩
      | some value =>
          obtain ⟨valueCode, value', rfl, rfl⟩ := Stmt.generate_ret_some generated
          rw [List.append_assoc] at placed
          rw [Stmt.eval]
          refine (Expr.eval_follows assembles fits value' formed grown placed scopes few rfl).bind ?_
          rintro result env₁ _ - ⟨rfl, -⟩
          exact .pure ⟨_, _, _, placed.skip, Site.during_snoc ..⟩
  | define span name value =>
      cases value with
      | none =>
          obtain ⟨defineCode, defined, rfl⟩ := Stmt.generate_define_none generated
          rw [Stmt.eval]
          refine .after (Site.push_during _ _ _ placed fun _ => rfl) ?_
          refine define_follows assembles defined formed grown placed.tail scopes (ends.trans ?_)
          rw [codeLength_cons, ← Nat.add_assoc]
      | some value =>
          obtain ⟨valueCode, middle, defineCode, value', defined, rfl⟩ :=
            Stmt.generate_define_some generated
          rw [List.append_assoc] at placed
          have growsValue := (Expr.generate_refers value').grows
          have growsDefine := (define_refers defined).grows
          rw [Stmt.eval]
          refine (Expr.eval_follows assembles fits value' formed (growsDefine.trans grown) placed
            scopes few rfl).bind ?_
          rintro new env₁ _ - ⟨rfl, scopes₁⟩
          refine define_follows assembles defined (formed.grows growsValue) grown placed.skip scopes₁
            (ends.trans ?_)
          rw [codeLength_append, Nat.add_assoc]
  | discard span value =>
      obtain ⟨valueCode, value', rfl, rfl⟩ := Stmt.generate_discard generated
      rw [List.append_assoc] at placed
      rw [Stmt.eval]
      refine (Expr.eval_follows assembles fits value' formed grown placed scopes few rfl).bind ?_
      rintro result env₁ _ - ⟨rfl, scopes₁⟩
      have popped := Site.pop_during script.globals env₁ [] result placed.skip
      refine .after popped (.pure ⟨?_, scopes₁⟩)
      rw [ends, codeLength_append, Nat.add_assoc]
      rfl
termination_by structural statement

/-- The code of the statements of a block follows their evaluation. -/
theorem evalBody_follows {script : Script} {main : List Instruction} {final : Symbols}
    {program : Program} (assembles : script.Assembles main final program) {links : Linkage σ}
    (fits : links.Fits script program) {body : List Stmt} {scope outer : Scope}
    {before after : Symbols} {code rest : List Instruction}
    (generated : generateBody body scope before = .ok (code, outer, after))
    (formed : before.WellFormed) (grown : after.Grows final) {site : Site} {ip stop : Nat}
    (placed : program.CodeFrom site.function ip (code ++ rest)) {env : Env σ}
    (scopes : scopeOf env.scopes = scope) (few : scope.locals.length ≤ 256)
    (ends : stop = ip + codeLength code)
    : program.Follows (site.during script.globals ip env [])
        (site.Leaves script.globals program stop outer)
        (evalBody links before.functions.size body env) := by
  have nested : scope.WellNested := by
    rw [← scopes]
    exact scopeOf_nested env.scopes
  cases body with
  | nil =>
      cases generated
      subst ends
      exact .pure ⟨rfl, scopes⟩
  | cons statement others =>
      rw [evalBody]
      rcases generateBody_cons generated with
        ⟨returns, first⟩ | ⟨firstCode, between, middle, othersCode, -, first, others', rfl⟩
      · refine (Stmt.eval_follows assembles fits first formed grown placed scopes few ends).bind ?_
        -- Nothing behind the statement is evaluated.
        intro value env₁ t evaluated reached
        obtain ⟨result, rfl⟩ := Stmt.eval_returns returns evaluated
        exact .pure reached
      · rw [List.append_assoc] at placed
        have counted := (Stmt.generate_functions first).size
        have growsFirst := (Stmt.generate_refers first).grows
        have growsOthers := (generateBody_refers others').grows
        refine (Stmt.eval_follows assembles fits first formed (growsOthers.trans grown) placed scopes
          few rfl).bind ?_
        intro value env₁ t evaluated reached
        cases value with
        | some result => exact .pure reached
        | none =>
            obtain ⟨rfl, scopes₁⟩ := reached
            dsimp only
            rw [← counted]
            refine evalBody_follows assembles fits others' (formed.grows growsFirst) grown
              placed.skip scopes₁ (Stmt.generate_few first nested few) (ends.trans ?_)
            rw [codeLength_append, Nat.add_assoc]
termination_by structural body

end

end StackScript
