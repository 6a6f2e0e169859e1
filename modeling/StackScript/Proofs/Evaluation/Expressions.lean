import StackScript.Proofs.Evaluation.Following

/-! The code of an expression follows its evaluation. It leaves the value of the expression
behind the values that wait on the operand stack, and the locals and globals as the evaluation
leaves them.
-/

namespace StackScript

open Generate

variable {σ : Type} [Sink σ]

-----------------------------------------------------------------------------------------
-- What code ends in
-----------------------------------------------------------------------------------------

omit [Sink σ] in
theorem Site.during_snoc (site : Site) (names : List String) (ip : Nat) (env : Env σ)
    (temporaries : List Value) (value : Value)
    : site.during names ip env (temporaries ++ [value])
      = site.state ip (slotsOf names env.globals) (env.values ++ temporaries ++ [value])
          env.sink := by
  rw [during, List.append_assoc]

/-- Behind the code of an expression its value lies on top, and the scopes are as before. -/
def Site.Holds (site : Site) (names : List String) (stop : Nat) (scope : Scope)
    (temporaries : List Value) (value : Value) (env : Env σ) (s : State σ)
    : Prop :=
  s = site.during names stop env (temporaries ++ [value]) ∧ scopeOf env.scopes = scope

/-- Behind the code of arguments their values lie on top. -/
def Site.HoldsAll (site : Site) (names : List String) (stop : Nat) (scope : Scope)
    (temporaries : List Value) (count : Nat) (values : List Value) (env : Env σ) (s : State σ)
    : Prop :=
  s = site.during names stop env (temporaries ++ values)
    ∧ values.length = count
    ∧ scopeOf env.scopes = scope

/-- A logical operator leaves its left operand on top and skips the right one if it decides. -/
theorem Site.skip_during {program : Program} {site : Site} {ip : Nat} {rest : List Instruction}
    {op : LogicalOperator} {offset : UInt16} (names : List String) (env : Env σ)
    (temporaries : List Value) (value : Value)
    (placed : program.CodeFrom site.function ip (.jump op.skip offset :: rest))
    : program.Reaches (site.during names ip env (temporaries ++ [value]))
        (site.during names (if op.decides value then ip + 3 + offset.toNat else ip + 3) env
          (temporaries ++ [value])) := by
  rw [during_snoc, during_snoc]
  exact skip placed

theorem Site.push_during {program : Program} {site : Site} {ip : Nat} {rest : List Instruction}
    {constant : Constant} {value : Value} (names : List String) (env : Env σ)
    (temporaries : List Value)
    (placed : program.CodeFrom site.function ip (.push constant :: rest))
    (means : ∀ limits, Machine.constant ⟨program, limits⟩ constant = .ok value)
    : program.Reaches (site.during names ip env temporaries)
        (site.during names (ip + (Instruction.push constant).length) env
          (temporaries ++ [value])) := by
  rw [during_snoc]
  exact push placed means

theorem Site.pop_during {program : Program} {site : Site} {ip : Nat} {rest : List Instruction}
    (names : List String) (env : Env σ) (temporaries : List Value) (value : Value)
    (placed : program.CodeFrom site.function ip (.pop :: rest))
    : program.Reaches (site.during names ip env (temporaries ++ [value]))
        (site.during names (ip + 1) env temporaries) := by
  rw [during_snoc]
  exact pop placed

/-- What an evaluation refers to is what the program has for it: globals have the slots of the
table, and functions are followed by the code of the program.
-/
structure Linkage.Fits (links : Linkage σ) (script : Script) (program : Program) : Prop where
  slot : links.slot = script.slot
  enter
    : ∀ {site : Site} {ip : Nat} {rest : List Instruction} {env : Env σ}
        {temporaries args : List Value} (id : UInt8),
        args.length ≤ 255
        → program.CodeFrom site.function ip (.call (UInt8.ofNat args.length) :: rest)
        → program.Follows
            (site.during script.globals ip env (temporaries ++ .function id :: args))
            (site.Holds script.globals (ip + 2) (scopeOf env.scopes) temporaries)
            (links.enter id args env)

section

variable {script : Script} {main : List Instruction} {final before after : Symbols}
  {program : Program}

omit [Sink σ] in
/-- The slot of a global is one behind the place of its name. -/
theorem Script.Assembles.global_place (assembles : script.Assembles main final program)
    {name : String} {slot : UInt8} (entered : before.global name = .ok (slot, after))
    (formed : before.WellFormed) (grown : after.Grows final)
    : ∃ place, slot.toNat = place + 1 ∧ script.globals[place]? = some name := by
  obtain ⟨positive, found⟩ := Symbols.global_slot entered formed
  refine ⟨slot.toNat - 1, by omega, ?_⟩
  rw [← assembles.globals_eq, Array.getElem?_toList]
  exact grown.begins.global_at found

omit [Sink σ] in
theorem Script.Assembles.globals_nodup (assembles : script.Assembles main final program)
    : script.globals.Nodup := by
  rw [← assembles.globals_eq]
  exact assembles.formed.distinct

omit [Sink σ] in
theorem Script.Assembles.globals_begin (assembles : script.Assembles main final program)
    : reservedGlobals <+: script.globals := by
  rw [← assembles.globals_eq]
  exact (generateMain_refers assembles.generated).grows.begins.globals

omit [Sink σ] in
/-- The slot that generated code uses for a global is the one that its name has. -/
theorem Script.Assembles.slot_eq (assembles : script.Assembles main final program)
    {name : String} {slot : UInt8} (entered : before.global name = .ok (slot, after))
    (formed : before.WellFormed) (grown : after.Grows final)
    : script.slot name = slot := by
  obtain ⟨place, slot', found⟩ := assembles.global_place entered formed grown
  obtain ⟨inside, same⟩ := List.getElem?_eq_some_iff.mp found
  have index : script.globals.idxOf name = place := by
    rw [← same]
    exact assembles.globals_nodup.idxOf_getElem place inside
  rw [Script.slot, index, ← slot', UInt8.ofNat_toNat]

end

-----------------------------------------------------------------------------------------
-- Pieces of code
-----------------------------------------------------------------------------------------

section

variable {script : Script} {main : List Instruction} {final before after : Symbols}
  {program : Program} {site : Site} {ip stop : Nat} {rest code : List Instruction}
  {env : Env σ} {scope : Scope} {temporaries : List Value}

omit [Sink σ] in
/-- A local lies in its slot. -/
theorem Env.local_place {name : String} {slot : UInt8}
    (found : (scopeOf env.scopes).slot? name = some slot)
    (few : (scopeOf env.scopes).locals.length ≤ 256)
    : ∃ value,
        env.localValue? name = some value
        ∧ env.values[slot.toNat]? = some value
        ∧ ∀ new,
            valuesOf (rebind name new env.scopes.flatten) = env.values.set slot.toNat new := by
  rw [scopeOf_length] at few
  exact slotIn?_place found (scopeOf_names env.scopes) few

omit [Sink σ] in
/-- A name without a slot means no local. -/
theorem Env.localValue?_eq_none {name : String}
    (missing : (scopeOf env.scopes).slot? name = none)
    : env.localValue? name = none := by
  have free : name ∉ env.scopes.flatten.map Prod.fst := by
    rw [← scopeOf_names]
    exact Scope.slotIn?_eq_none.mp missing
  refine List.lookup_eq_none_iff.mpr fun binding member => bne_iff_ne.mpr ?_
  rintro rfl
  exact free (List.mem_map_of_mem member)

theorem load_follows (assembles : script.Assembles main final program) {name : String}
    (loaded : load name scope before = .ok (code, after)) (formed : before.WellFormed)
    (grown : after.Grows final) (placed : program.CodeFrom site.function ip (code ++ rest))
    (scopes : scopeOf env.scopes = scope) (few : scope.locals.length ≤ 256)
    (ends : stop = ip + codeLength code)
    : program.Follows (site.during script.globals ip env temporaries)
        (site.Holds script.globals stop scope temporaries)
        (Evaluation.read script.slot name env) := by
  subst scopes ends
  rcases load_eq_ok loaded with ⟨slot, found, rfl, -⟩ | ⟨slot, missing, entered, rfl⟩
  · obtain ⟨value, bound, lies, -⟩ := Env.local_place found few
    rw [Evaluation.read, bound]
    refine ⟨_, ⟨rfl, rfl⟩, ?_⟩
    rw [Site.during_snoc]
    refine Site.getLocal placed ?_
    rw [List.getElem?_append_left (List.getElem?_eq_some_iff.mp lies).1]
    exact lies
  · obtain ⟨place, slot', named⟩ := assembles.global_place entered formed grown
    have stored : (slotsOf script.globals env.globals)[place + 1]?.join = env.globals name :=
      slotsOf_get named
    rw [← slot'] at stored
    rw [Evaluation.read, Env.localValue?_eq_none missing]
    dsimp only
    split
    · rename_i value set
      refine ⟨_, ⟨rfl, rfl⟩, ?_⟩
      rw [Site.during_snoc]
      exact Site.getGlobal placed (stored.trans set)
    · rename_i unset
      rw [assembles.slot_eq entered formed grown]
      exact Site.getGlobal_unset placed (stored.trans unset)

omit [Sink σ] in
/-- Setting a variable leaves the scopes of the generated code as they are. -/
theorem Env.scopeOf_set (env : Env σ) (name : String) (value : Value)
    : scopeOf (env.set name value).scopes = scopeOf env.scopes := by
  unfold Env.set
  split
  · exact scopeOf_rebindIn name value env.scopes
  · unfold Env.setGlobal
    split <;> rfl

/-- Storing a value on top in a global sets the global and leaves the value there. -/
theorem setGlobal_follows (assembles : script.Assembles main final program) {name : String}
    {slot : UInt8} {value : Value} (entered : before.global name = .ok (slot, after))
    (formed : before.WellFormed) (grown : after.Grows final)
    (placed : program.CodeFrom site.function ip (.access .setGlobal slot :: rest))
    : program.Reaches (site.during script.globals ip env (temporaries ++ [value]))
        (site.during script.globals (ip + 2) (env.setGlobal name value)
          (temporaries ++ [value])) := by
  obtain ⟨place, slot', named⟩ := assembles.global_place entered formed grown
  have reserved := mem_reservedGlobals_iff named assembles.globals_nodup assembles.globals_begin
  have step : program.Reaches
      (site.state ip (slotsOf script.globals env.globals)
        (env.values ++ temporaries ++ [value]) env.sink)
      (site.state (ip + 2)
        (if slot.toNat ≤ reservedSlots then slotsOf script.globals env.globals
          else State.storeGlobal (slotsOf script.globals env.globals) slot.toNat value)
        (env.values ++ temporaries ++ [value]) env.sink) :=
    Site.setGlobal placed
  rw [Site.during_snoc, Site.during_snoc]
  rw [slot'] at step
  unfold Env.setGlobal
  split
  · rename_i listed
    rwa [if_pos (reserved.mp listed)] at step
  · rename_i free
    rwa [if_neg (fun early => free (reserved.mpr early)), slotsOf_set named assembles.globals_nodup]
      at step

theorem store_follows (assembles : script.Assembles main final program) {name : String}
    {value : Value} (stored : store name scope before = .ok (code, after))
    (formed : before.WellFormed) (grown : after.Grows final)
    (placed : program.CodeFrom site.function ip (code ++ rest))
    (scopes : scopeOf env.scopes = scope) (few : scope.locals.length ≤ 256)
    (ends : stop = ip + codeLength code)
    : program.Follows (site.during script.globals ip env (temporaries ++ [value]))
        (site.Holds script.globals stop scope temporaries) (Evaluation.write name value env) := by
  subst scopes ends
  refine ⟨_, ⟨rfl, env.scopeOf_set name value⟩, ?_⟩
  rcases store_eq_ok stored with ⟨slot, found, rfl, -⟩ | ⟨slot, missing, entered, rfl⟩
  · obtain ⟨old, bound, lies, set⟩ := Env.local_place found few
    have inside := (List.getElem?_eq_some_iff.mp lies).1
    have env' : env.set name value = { env with scopes := rebindIn name value env.scopes } := by
      rw [Env.set, bound]
    have values : (env.set name value).values = env.values.set slot.toNat value := by
      rw [env', ← set value, ← flatten_rebindIn]
      rfl
    have room : slot.toNat < (env.values ++ temporaries).length := by
      rw [List.length_append]
      omega
    have step : program.Reaches
        (site.state ip (slotsOf script.globals env.globals)
          (env.values ++ temporaries ++ [value]) env.sink)
        (site.state (ip + 2) (slotsOf script.globals env.globals)
          ((env.values ++ temporaries).set slot.toNat value ++ [value]) env.sink) :=
      Site.setLocal placed room
    rw [Site.during_snoc, Site.during_snoc, values, env']
    rwa [List.set_append_left _ _ inside] at step
  · have env' : env.set name value = env.setGlobal name value := by
      rw [Env.set, Env.localValue?_eq_none missing]
    rw [env']
    exact setGlobal_follows assembles entered formed grown placed

theorem operate_follows {op : Operator} {left right : Value}
    (placed : program.CodeFrom site.function ip (.operate op :: rest))
    (scopes : scopeOf env.scopes = scope) (ends : stop = ip + 1)
    : program.Follows
        (site.during script.globals ip env (temporaries ++ [left] ++ [right]))
        (site.Holds script.globals stop scope temporaries)
        (Evaluation.lift .fault (op.applyValues left right) env) := by
  subst ends
  have start : site.during script.globals ip env (temporaries ++ [left] ++ [right])
      = site.state ip (slotsOf script.globals env.globals)
          (env.values ++ temporaries ++ [left] ++ [right]) env.sink := by
    rw [Site.during_snoc, List.append_assoc env.values]
    simp
  rw [start, Evaluation.lift]
  cases applied : op.applyValues left right with
  | ok value =>
      refine ⟨_, ⟨rfl, scopes⟩, ?_⟩
      rw [Site.during_snoc]
      exact Site.operate placed applied
  | error fault => exact Site.operate_fault placed applied

theorem literal_follows (assembles : script.Assembles main final program) {value : Literal}
    (generated : literal value before = .ok (code, after)) (formed : before.WellFormed)
    (grown : after.Grows final) (placed : program.CodeFrom site.function ip (code ++ rest))
    (scopes : scopeOf env.scopes = scope) (ends : stop = ip + codeLength code)
    : program.Follows (site.during script.globals ip env temporaries)
        (site.Holds script.globals stop scope temporaries)
        (Evaluation.lift .invalid value.value env) := by
  subst ends
  -- Whatever the constant, pushing its value is all there is to do.
  have pushed : ∀ (constant : Constant) (result : Value),
      code = [.push constant]
      → (∀ limits, Machine.constant ⟨program, limits⟩ constant = .ok result)
      → value.value = .ok result
      → program.Follows (site.during script.globals ip env temporaries)
          (site.Holds script.globals (ip + codeLength code) scope temporaries)
          (Evaluation.lift .invalid value.value env) := by
    rintro constant result rfl means same
    rw [same]
    exact ⟨_, ⟨rfl, scopes⟩, Site.push_during _ _ _ placed means⟩
  rcases literal_eq_ok generated with
    ⟨digits, constant, rfl, read, code', -⟩ | ⟨content, place, rfl, entered, code'⟩
    | ⟨truth, rfl, code', -⟩ | ⟨rfl, code', -⟩
  · have kind := read
    unfold Literal.numeric at kind
    split at kind
    · split at kind <;> cases kind
      exact pushed _ (.long _) code' (fun _ => rfl) (by rw [Literal.value, read]; rfl)
    · split at kind <;> cases kind
      exact pushed _ (.number _) code' (fun _ => rfl) (by rw [Literal.value, read]; rfl)
  · obtain ⟨index, rfl, found, -⟩ := Symbols.intern_eq_ok entered
    have inside := (Array.getElem?_eq_some_iff.mp found).1
    have exact : (UInt16.ofNat index).toNat = index := by
      have few := (formed.enters (.string entered)).strings
      exact UInt16.toNat_ofNat_of_lt (Nat.lt_of_lt_of_le inside few)
    have kept : program.strings[index]? = some content := by
      rw [assembles.program_eq]
      exact grown.begins.string_at found
    refine pushed _ (.string content) code' (fun limits => ?_) rfl
    simp only [Machine.constant, exact, kept]
  · exact pushed _ (.boolean truth) code' (fun _ => rfl) rfl
  · exact pushed _ .null code' (fun _ => rfl) rfl

/-- A call follows that of the value below the arguments. -/
theorem call_follows {links : Linkage σ} (fits : links.Fits script program) {function : Value}
    {args : List Value} {count : Nat} (length : args.length = count) (few : count ≤ 255)
    (placed : program.CodeFrom site.function ip (.call (UInt8.ofNat count) :: rest))
    (scopes : scopeOf env.scopes = scope) (ends : stop = ip + 2)
    : program.Follows
        (site.during script.globals ip env (temporaries ++ function :: args))
        (site.Holds script.globals stop scope temporaries) (links.call function args env) := by
  subst length scopes ends
  have start : site.during script.globals ip env (temporaries ++ function :: args)
      = site.state ip (slotsOf script.globals env.globals)
          ((env.values ++ temporaries) ++ function :: args) env.sink := by
    rw [Site.during, List.append_assoc]
  cases function with
  | function id => exact fits.enter id few placed
  | native builtin identity =>
      rw [start, Linkage.call, Evaluation.builtin]
      cases called : builtin.call args env.sink with
      | mk outcome written =>
          cases outcome with
          | ok value =>
              refine ⟨_, ⟨rfl, rfl⟩, ?_⟩
              rw [Site.during_snoc]
              exact Site.call_builtin few placed called
          | error fault => exact Site.call_builtin_fault few placed called
  | _ =>
      rw [start]
      exact Site.call_other few placed nofun nofun

end

-----------------------------------------------------------------------------------------
-- Expressions
-----------------------------------------------------------------------------------------

mutual

/-- The code of an expression follows its evaluation, by induction on the expression. The
number of functions that are in the table before is that of the literals counted so far.
-/
theorem Expr.eval_follows {script : Script} {main : List Instruction} {final : Symbols}
    {program : Program} (assembles : script.Assembles main final program) {links : Linkage σ}
    (fits : links.Fits script program) {expression : Expr} {scope : Scope}
    {before after : Symbols} {code rest : List Instruction}
    (generated : expression.generate scope before = .ok (code, after))
    (formed : before.WellFormed) (grown : after.Grows final) {site : Site} {ip stop : Nat}
    (placed : program.CodeFrom site.function ip (code ++ rest)) {env : Env σ}
    (scopes : scopeOf env.scopes = scope) (few : scope.locals.length ≤ 256)
    {temporaries : List Value} (ends : stop = ip + codeLength code)
    : program.Follows (site.during script.globals ip env temporaries)
        (site.Holds script.globals stop scope temporaries)
        (expression.eval links before.functions.size env) := by
  cases expression with
  | literal value => exact literal_follows assembles generated formed grown placed scopes ends
  | name name =>
      rw [Expr.eval, fits.slot]
      exact load_follows assembles generated formed grown placed scopes few ends
  | binary op left right =>
      obtain ⟨leftCode, middle, rightCode, left', right', rfl⟩ := Expr.generate_binary generated
      rw [List.append_assoc, List.append_assoc] at placed
      have counted := (Expr.generate_functions left').size
      have growsLeft := (Expr.generate_refers left').grows
      have growsRight := (Expr.generate_refers right').grows
      rw [Expr.eval]
      refine (Expr.eval_follows assembles fits left' formed (growsRight.trans grown) placed scopes
        few rfl).bind ?_
      rintro a env₁ _ - ⟨rfl, scopes₁⟩
      rw [← counted]
      refine (Expr.eval_follows assembles fits right' (formed.grows growsLeft) grown placed.skip
        scopes₁ few rfl).bind ?_
      rintro b env₂ _ - ⟨rfl, scopes₂⟩
      refine operate_follows placed.skip.skip scopes₂ (ends.trans ?_)
      simp only [codeLength_append, codeLength_cons, codeLength_nil, Nat.add_assoc]
      rfl
  | logical op left right =>
      obtain ⟨leftCode, middle, rightCode, offset, left', right', distance, rfl⟩ :=
        Expr.generate_logical generated
      rw [List.append_assoc] at placed
      have counted := (Expr.generate_functions left').size
      have growsLeft := (Expr.generate_refers left').grows
      have growsRight := (Expr.generate_refers right').grows
      rw [Expr.eval]
      refine (Expr.eval_follows assembles fits left' formed (growsRight.trans grown) placed scopes
        few rfl).bind ?_
      rintro a env₁ _ - ⟨rfl, scopes₁⟩
      have skipped := Site.skip_during script.globals env₁ temporaries a placed.skip
      split
      · rename_i decided
        rw [if_pos decided] at skipped
        refine .after skipped (.pure ⟨?_, scopes₁⟩)
        rw [ends, distance]
        simp only [codeLength_append, codeLength_cons, Nat.add_assoc]
        rfl
      · rename_i undecided
        rw [if_neg undecided] at skipped
        have popped := Site.pop_during script.globals env₁ temporaries a placed.skip.tail
        rw [← counted]
        refine .after (skipped.trans popped) ?_
        refine Expr.eval_follows assembles fits right' (formed.grows growsLeft) grown
          placed.skip.tail.tail scopes₁ few (ends.trans ?_)
        simp only [codeLength_append, codeLength_cons, Nat.add_assoc]
  | assign name how value =>
      cases how with
      | set =>
          obtain ⟨valueCode, middle, storeCode, value', stored, rfl⟩ :=
            Expr.generate_assign_set generated
          rw [List.append_assoc] at placed
          have growsValue := (Expr.generate_refers value').grows
          have growsStore := (store_refers stored).grows
          rw [Expr.eval]
          refine (Expr.eval_follows assembles fits value' formed (growsStore.trans grown) placed
            scopes few rfl).bind ?_
          rintro new env₁ _ - ⟨rfl, scopes₁⟩
          refine store_follows assembles stored (formed.grows growsValue) grown placed.skip scopes₁
            few (ends.trans ?_)
          rw [codeLength_append, Nat.add_assoc]
      | update op =>
          obtain ⟨loadCode, loaded, valueCode, middle, storeCode, load', value', stored, rfl⟩ :=
            Expr.generate_assign_update generated
          simp only [List.append_assoc, List.cons_append] at placed
          have counted := (load_functions load').size
          have growsLoad := (load_refers load').grows
          have growsValue := (Expr.generate_refers value').grows
          have growsStore := (store_refers stored).grows
          rw [Expr.eval, fits.slot]
          refine (load_follows assembles load' formed (growsValue.trans (growsStore.trans grown))
            placed scopes few rfl).bind ?_
          rintro old env₁ _ - ⟨rfl, scopes₁⟩
          rw [show before.functions.size = loaded.functions.size from counted.symm]
          refine (Expr.eval_follows assembles fits value' (formed.grows growsLoad)
            (growsStore.trans grown) placed.skip scopes₁ few rfl).bind ?_
          rintro operand env₂ _ - ⟨rfl, scopes₂⟩
          refine (operate_follows placed.skip.skip scopes₂ rfl).bind ?_
          rintro new env₃ _ - ⟨rfl, scopes₃⟩
          refine store_follows assembles stored ((formed.grows growsLoad).grows growsValue) grown
            placed.skip.skip.tail scopes₃ few (ends.trans ?_)
          simp only [codeLength_append, codeLength_cons, Nat.add_assoc]
          rfl
  | call callee args =>
      obtain ⟨calleeCode, middle, argsCode, argsFew, callee', args', rfl⟩ :=
        Expr.generate_call generated
      rw [List.append_assoc, List.append_assoc] at placed
      have counted := (Expr.generate_functions callee').size
      have growsCallee := (Expr.generate_refers callee').grows
      have growsArgs := (generateArgs_refers args').grows
      rw [Expr.eval]
      refine (Expr.eval_follows assembles fits callee' formed (growsArgs.trans grown) placed scopes
        few rfl).bind ?_
      rintro function env₁ _ - ⟨rfl, scopes₁⟩
      rw [← counted]
      refine (evalArgs_follows assembles fits args' (formed.grows growsCallee) grown placed.skip
        scopes₁ few rfl).bind ?_
      rintro values env₂ _ - ⟨rfl, length, scopes₂⟩
      rw [List.append_assoc]
      refine call_follows fits length argsFew placed.skip.skip scopes₂ (ends.trans ?_)
      simp only [codeLength_append, codeLength_cons, codeLength_nil, Nat.add_assoc]
      rfl
  | function params body =>
      obtain ⟨_, _, _, middle, _, _, id, -, -, body', -, added, rfl⟩ :=
        Expr.generate_function generated
      have counted := (generateBody_functions body').size
      obtain ⟨-, id', -⟩ := Symbols.addFunction_eq_ok added
      rw [Expr.eval, ← counted, ← id']
      rw [ends]
      exact .after (Site.push_during _ _ _ placed fun _ => rfl) (.pure ⟨rfl, scopes⟩)
termination_by structural expression

/-- The code of arguments follows their evaluation. -/
theorem evalArgs_follows {script : Script} {main : List Instruction} {final : Symbols}
    {program : Program} (assembles : script.Assembles main final program) {links : Linkage σ}
    (fits : links.Fits script program) {args : List Expr} {scope : Scope}
    {before after : Symbols} {code rest : List Instruction}
    (generated : generateArgs args scope before = .ok (code, after))
    (formed : before.WellFormed) (grown : after.Grows final) {site : Site} {ip stop : Nat}
    (placed : program.CodeFrom site.function ip (code ++ rest)) {env : Env σ}
    (scopes : scopeOf env.scopes = scope) (few : scope.locals.length ≤ 256)
    {temporaries : List Value} (ends : stop = ip + codeLength code)
    : program.Follows (site.during script.globals ip env temporaries)
        (site.HoldsAll script.globals stop scope temporaries args.length)
        (evalArgs links before.functions.size args env) := by
  cases args with
  | nil =>
      cases generated
      subst ends
      refine .pure ⟨?_, rfl, scopes⟩
      rw [List.append_nil]
  | cons arg others =>
      obtain ⟨argCode, middle, othersCode, arg', others', rfl⟩ := generateArgs_cons generated
      rw [List.append_assoc] at placed
      have counted := (Expr.generate_functions arg').size
      have growsArg := (Expr.generate_refers arg').grows
      have growsOthers := (generateArgs_refers others').grows
      rw [evalArgs]
      refine (Expr.eval_follows assembles fits arg' formed (growsOthers.trans grown) placed scopes
        few rfl).bind ?_
      rintro value env₁ _ - ⟨rfl, scopes₁⟩
      rw [← counted]
      refine (evalArgs_follows assembles fits others' (formed.grows growsArg) grown placed.skip
        scopes₁ few rfl).bind ?_
      rintro values env₂ _ - ⟨rfl, length, scopes₂⟩
      refine .pure ⟨?_, congrArg Nat.succ length, scopes₂⟩
      rw [ends, codeLength_append, Nat.add_assoc, List.append_assoc]
      rfl
termination_by structural args

end

end StackScript
