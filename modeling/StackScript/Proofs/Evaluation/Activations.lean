import StackScript.Proofs.Evaluation.Statements

/-! The code of a function follows the evaluation of its body among its parameters. So calls
of the functions of a script are followed, however deep they are nested.
-/

namespace StackScript

open Generate

variable {σ : Type} [Sink σ]

section

variable {script : Script} {main : List Instruction} {final : Symbols} {program : Program}
  (assembles : script.Assembles main final program)

-----------------------------------------------------------------------------------------
-- Bodies
-----------------------------------------------------------------------------------------

omit [Sink σ] in
theorem valuesOf_parameters {params : List String} {args : List Value}
    (arity : params.length = args.length)
    : valuesOf (params.zip args).reverse = args := by
  rw [valuesOf, ← List.map_reverse, List.reverse_reverse]
  exact List.map_snd_zip (Nat.le_of_eq arity.symm)

/-- A body that gives nothing to return has code to return null. -/
theorem epilogue_of_none {links : Linkage σ} {count : Nat} {body : List Stmt} {env inner : Env σ}
    (evaluated : Evaluation.nested (evalBody links count body) env = (.ok none, inner))
    : epilogue body = [.push .null, .ret] := by
  obtain ⟨_, evaluated, -⟩ := Evaluation.nested_eq_ok evaluated
  unfold epilogue
  split
  · rename_i returns
    obtain ⟨_, impossible⟩ := evalBody_returns returns evaluated
    cases impossible
  · rfl

variable {literal : FunctionLiteral} {place : Nat} {before after : Symbols}
  {code : List Instruction} {id : UInt8}

include assembles

omit [Sink σ] in
theorem Script.Assembles.function_found
    (entered : literal.Entered final place before after code) (number : id.toNat = place + 1)
    : program.function? id.toNat
      = some ⟨UInt8.ofNat literal.params.length, (encodeAll code).toArray⟩ :=
  assembles.function?_eq_some.mpr ⟨place, number, entered.found⟩

omit [Sink σ] in
theorem Script.Assembles.function_placed
    (entered : literal.Entered final place before after code) (number : id.toNat = place + 1)
    : program.CodeFrom id.toNat 0 code := by
  refine ⟨(encodeAll code).toArray, ?_, .start code⟩
  have found := assembles.function_found entered number
  rw [number] at found ⊢
  simp only [Program.code?, found, Option.map_some]

/-- The code of a function begins with that of its body, which finds the arguments as the
parameters.
-/
theorem parameters_follow {links : Linkage σ} (fits : links.Fits script program)
    (entered : literal.Entered final place before after code) (number : id.toNat = place + 1)
    {args : List Value} (arity : literal.params.length = args.length) {site : Site}
    (function : site.function = id.toNat) (env : Env σ)
    : ∃ stop,
        program.CodeFrom site.function stop (epilogue literal.body)
        ∧ program.Follows (site.state 0 (slotsOf script.globals env.globals) args env.sink)
            (site.Leaves script.globals program stop literal.scope)
            (Evaluation.nested
              (evalBody links (place - (literalsOfBody literal.body).length) literal.body)
              { env with scopes := [(literal.params.zip args).reverse] }) := by
  have placed := assembles.function_placed entered number
  rw [← function] at placed
  obtain ⟨few, bodyCode, closed, inner, outer, body', closes, rfl⟩ := entered.compiled
  have nested := literal.scope_nested
  obtain rfl := generateBody_scope body' nested.enter
  obtain ⟨rfl, rfl⟩ := closeScope_extend closes nested declaredIn_depth
  rw [List.append_assoc] at placed
  have counted : place - (literalsOfBody literal.body).length = before.functions.size := by
    have size := (generateBody_functions body').size
    rw [entered.place_eq] at size
    rw [size, Nat.add_sub_cancel]
  have scopes : scopeOf [[], (literal.params.zip args).reverse] = literal.scope.enter := by
    rw [scopeOf_enter, scopeOf_parameters arity]
  have few' : literal.scope.enter.locals.length ≤ 256 := by
    have length : literal.scope.enter.locals.length = literal.params.length := by
      simp [FunctionLiteral.scope, Scope.enter]
    omega
  have start : site.state 0 (slotsOf script.globals env.globals) args env.sink
      = site.during script.globals 0
          { env with scopes := [(literal.params.zip args).reverse] } [] := by
    simp [Site.during, Env.values, valuesOf_parameters arity]
  have behind := placed.skip.skip
  rw [codeLength_pops] at behind
  refine ⟨_, behind, ?_⟩
  rw [start, counted]
  exact nested_follows
    (evalBody_follows assembles fits body' entered.formed entered.grown placed scopes few' rfl)
    nested declaredIn_depth placed.skip rfl

/-- The code of a function returns the value of its body to the caller, whose scopes are as
they were.
-/
theorem activation_follows {links : Linkage σ} (fits : links.Fits script program)
    (entered : literal.Entered final place before after code) (number : id.toNat = place + 1)
    {args : List Value} (arity : literal.params.length = args.length) (site : Site)
    (values : List Value) (resume : Nat) (env : Env σ)
    : program.Follows
        ((site.callee values id resume).state 0 (slotsOf script.globals env.globals) args env.sink)
        (fun value env' s =>
          s = site.state resume (slotsOf script.globals env'.globals) (values ++ [value]) env'.sink
            ∧ env'.scopes = env.scopes)
        (Evaluation.activate (literal.params.zip args).reverse
          (evalBody links (place - (literalsOfBody literal.body).length) literal.body) env) := by
  obtain ⟨stop, behind, followed⟩ := parameters_follow assembles fits entered number arity
    (show (site.callee values id resume).function = id.toNat from rfl) env
  unfold Evaluation.activate
  cases evaluated : Evaluation.nested
      (evalBody links (place - (literalsOfBody literal.body).length) literal.body)
      { env with scopes := [(literal.params.zip args).reverse] } with
  | mk outcome inner =>
      rw [evaluated] at followed
      cases outcome with
      | ok value =>
          obtain ⟨t, reached, reaches⟩ := followed
          cases value with
          | some value =>
              obtain ⟨ip, rest, locals, returns, rfl⟩ := reached
              exact ⟨_, ⟨rfl, rfl⟩, reaches.trans (Site.ret returns)⟩
          | none =>
              obtain ⟨rfl, -⟩ := reached
              rw [epilogue_of_none evaluated] at behind
              have pushed := Site.push_during script.globals inner [] behind fun _ => rfl
              rw [Site.during_snoc] at pushed
              exact ⟨_, ⟨rfl, rfl⟩, reaches.trans (pushed.trans (Site.ret behind.tail))⟩
      | error stop =>
          cases stop with
          | fault fault => exact followed
          | invalid error => exact followed
          | unfinished => trivial

-----------------------------------------------------------------------------------------
-- Calls
-----------------------------------------------------------------------------------------

omit [Sink σ] in
/-- The functions of the program have the numbers of the literals. -/
theorem Script.Assembles.literal?_eq_some {number : Nat} {literal : FunctionLiteral}
    (found : script.literal? number = some literal)
    : ∃ place before after code,
        number = place + 1 ∧ literal.Entered final place before after code := by
  cases number with
  | zero => cases found
  | succ place =>
      obtain ⟨before, after, code, entered⟩ := assembles.function_at found
      exact ⟨place, before, after, code, rfl, entered⟩

omit [Sink σ] in
theorem Script.Assembles.literal?_eq_none {number : Nat} (missing : script.literal? number = none)
    : program.function? number = none := by
  rw [Option.eq_none_iff_forall_ne_some]
  intro function found
  obtain ⟨place, rfl, inTable⟩ := assembles.function?_eq_some.mp found
  obtain ⟨inside, -⟩ := Array.getElem?_eq_some_iff.mp inTable
  rw [assembles.literals_size] at inside
  exact absurd (List.getElem?_eq_none_iff.mp missing) (Nat.not_le.mpr inside)

/-- Calls of the functions of a script are followed, by induction on how deep activations may
be nested.
-/
theorem Script.enter_fits (depth : Nat)
    : Linkage.Fits (σ := σ) ⟨script.slot, script.enter depth⟩ script program := by
  induction depth with
  | zero => exact ⟨rfl, fun _ _ _ => trivial⟩
  | succ depth fits =>
      refine ⟨rfl, ?_⟩
      intro site ip rest env temporaries args id few placed
      rw [Site.during, ← List.append_assoc]
      dsimp only
      unfold Script.enter
      cases found : script.literal? id.toNat with
      | none =>
          exact Site.call_missing few placed (assembles.literal?_eq_none found)
      | some literal =>
          obtain ⟨params, body⟩ := literal
          obtain ⟨place, before, after, code, number, entered⟩ := assembles.literal?_eq_some found
          have known := assembles.function_found entered number
          have few' := entered.compiled.few
          dsimp only at known few' ⊢
          by_cases arity : params.length = args.length
          · rw [if_pos arity, number, Nat.add_sub_cancel]
            refine .after (Site.call_function few placed known (by rw [arity])) ?_
            refine (activation_follows assembles fits entered number arity site _ _ env).onward ?_
            rintro value env' _ - ⟨rfl, scopes⟩
            refine ⟨_, ⟨?_, by rw [scopes]⟩, .refl _⟩
            rw [Site.during_snoc, Env.values, Env.values, scopes]
          · rw [if_neg arity]
            have differs : UInt8.ofNat params.length ≠ UInt8.ofNat args.length := by
              intro same
              have exact : ∀ count ≤ 255, (UInt8.ofNat count).toNat = count :=
                fun count few => UInt8.toNat_ofNat_of_lt (Nat.lt_succ_of_le few)
              rw [← exact params.length few', same, exact args.length few] at arity
              exact arity rfl
            exact Site.call_arity few placed known differs

end

end StackScript
