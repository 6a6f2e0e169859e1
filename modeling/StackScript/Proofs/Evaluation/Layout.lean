import StackScript.Machine.Step
import StackScript.Proofs.Compile.Assembly
import StackScript.Proofs.Evaluation.Evaluator

/-! Where a run keeps what an evaluation works on. The local variables of an activation lie on
the operand stack from its base on, the outermost binding first, so that the slots of the
generated code are their places; the globals lie in the slots that the table gives them.
-/

namespace StackScript

variable {σ : Type}

-----------------------------------------------------------------------------------------
-- Scopes
-----------------------------------------------------------------------------------------

/-- The scope in which code is generated where the given scopes are open. -/
def scopeOf : List Bindings → Scope
  | [] => Scope.root
  | inner :: outer =>
      ⟨outer.length + 1,
        inner.map (fun binding => ⟨binding.1, outer.length + 1⟩) ++ (scopeOf outer).locals⟩

theorem scopeOf_depth (scopes : List Bindings) : (scopeOf scopes).depth = scopes.length := by
  cases scopes <;> rfl

theorem scopeOf_nested (scopes : List Bindings) : (scopeOf scopes).WellNested := by
  induction scopes with
  | nil => exact .root
  | cons inner outer ih =>
      intro entry member
      rcases List.mem_append.mp member with member | member
      · obtain ⟨_, -, rfl⟩ := List.mem_map.mp member
        exact Nat.le_refl _
      · have deep := ih entry member
        rw [scopeOf_depth] at deep
        exact Nat.le_succ_of_le deep

theorem scopeOf_enter (scopes : List Bindings)
    : scopeOf ([] :: scopes) = (scopeOf scopes).enter := by
  simp [scopeOf, Scope.enter, scopeOf_depth]

theorem scopeOf_names (scopes : List Bindings)
    : (scopeOf scopes).names = scopes.flatten.map Prod.fst := by
  induction scopes with
  | nil => rfl
  | cons inner outer ih =>
      unfold Scope.names at ih ⊢
      simp [scopeOf, ih]

theorem scopeOf_length (scopes : List Bindings)
    : (scopeOf scopes).locals.length = scopes.flatten.length := by
  have lengths := congrArg List.length (scopeOf_names scopes)
  rwa [Scope.names, List.length_map, List.length_map] at lengths

/-- Bindings in front of those of the innermost scope are further locals. -/
theorem scopeOf_extend (inner : Bindings) (outer : List Bindings)
    : scopeOf (inner :: outer)
      = (scopeOf outer).enter.extend
          (inner.map fun binding => ⟨binding.1, (scopeOf outer).depth + 1⟩) := by
  simp [scopeOf, Scope.enter, Scope.extend, scopeOf_depth]

/-- Scopes that have grown by some locals since one was opened have it as the innermost. -/
theorem scopeOf_leave {scopes : List Bindings} {scope : Scope} {new : List Local}
    (same : scopeOf scopes = scope.enter.extend new) (nested : scope.WellNested)
    (depths : ∀ entry ∈ new, entry.depth = scope.depth + 1)
    : ∃ inner outer,
        scopes = inner :: outer ∧ scopeOf outer = scope ∧ inner.length = new.length := by
  cases scopes with
  | nil => cases congrArg Scope.depth same
  | cons inner outer =>
      have left := nested.leave depths
      have inside : ∀ entry ∈ inner.map (fun binding =>
          (⟨binding.1, (scopeOf outer).depth + 1⟩ : Local)),
          entry.depth = (scopeOf outer).depth + 1 := by
        intro entry member
        obtain ⟨_, -, rfl⟩ := List.mem_map.mp member
        rfl
      rw [← same, scopeOf_extend, (scopeOf_nested outer).leave inside] at left
      obtain ⟨length, outside⟩ := Prod.mk.inj (Except.ok.inj left)
      exact ⟨inner, outer, rfl, outside, by rw [← length, List.length_map]⟩

/-- The parameters of a function are the bindings of its outermost scope. -/
theorem scopeOf_parameters {literal : FunctionLiteral} {args : List Value}
    (arity : literal.params.length = args.length)
    : scopeOf [(literal.params.zip args).reverse] = literal.scope := by
  have names : (literal.params.zip args).map Prod.fst = literal.params :=
    List.map_fst_zip (Nat.le_of_eq arity)
  have same : (literal.params.zip args).map (fun binding => (⟨binding.1, 1⟩ : Local))
      = literal.params.map fun name => ⟨name, 1⟩ := by
    rw [← names, List.map_map, names]
    rfl
  simp [scopeOf, FunctionLiteral.scope, Scope.root, same]

-----------------------------------------------------------------------------------------
-- Locals
-----------------------------------------------------------------------------------------

/-- The values of some bindings as they lie on the stack, the oldest first. -/
def valuesOf (bindings : Bindings) : List Value :=
  (bindings.map Prod.snd).reverse

/-- The values of the local variables as they lie on the stack. -/
def Env.values (env : Env σ) : List Value :=
  valuesOf env.scopes.flatten

theorem valuesOf_cons (name : String) (value : Value) (older : Bindings)
    : valuesOf ((name, value) :: older) = valuesOf older ++ [value] := by
  simp [valuesOf]

theorem valuesOf_append (newer older : Bindings)
    : valuesOf (newer ++ older) = valuesOf older ++ valuesOf newer := by
  simp [valuesOf]

theorem valuesOf_length (bindings : Bindings) : (valuesOf bindings).length = bindings.length := by
  simp [valuesOf]

theorem rebind_names (name : String) (value : Value) (bindings : Bindings)
    : (rebind name value bindings).map Prod.fst = bindings.map Prod.fst := by
  induction bindings with
  | nil => rfl
  | cons binding rest ih =>
      unfold rebind
      split
      · rename_i same
        simp [same]
      · simp [ih]

theorem rebind_append_of_mem {name : String} (value : Value) {newer : Bindings}
    (older : Bindings) (bound : name ∈ newer.map Prod.fst)
    : rebind name value (newer ++ older) = rebind name value newer ++ older := by
  induction newer with
  | nil => cases bound
  | cons binding rest ih =>
      rw [List.cons_append]
      unfold rebind
      split
      · rfl
      · rename_i differs
        have later : name ∈ rest.map Prod.fst := by
          rcases List.mem_cons.mp bound with same | later
          · exact absurd same.symm differs
          · exact later
        rw [ih later, List.cons_append]

theorem rebind_append_of_not_mem {name : String} (value : Value) {newer : Bindings}
    (older : Bindings) (free : name ∉ newer.map Prod.fst)
    : rebind name value (newer ++ older) = newer ++ rebind name value older := by
  induction newer with
  | nil => rfl
  | cons binding rest ih =>
      rw [List.map_cons, List.mem_cons, not_or] at free
      rw [List.cons_append, rebind, if_neg (fun same => free.1 same.symm), ih free.2,
        List.cons_append]

theorem flatten_rebindIn (name : String) (value : Value) (scopes : List Bindings)
    : (rebindIn name value scopes).flatten = rebind name value scopes.flatten := by
  induction scopes with
  | nil => rfl
  | cons inner outer ih =>
      unfold rebindIn
      rw [List.flatten_cons]
      split
      · rename_i bound
        rw [rebind_append_of_mem value outer.flatten bound, List.flatten_cons]
      · rename_i free
        rw [rebind_append_of_not_mem value outer.flatten free, List.flatten_cons, ih]

theorem length_rebindIn (name : String) (value : Value) (scopes : List Bindings)
    : (rebindIn name value scopes).length = scopes.length := by
  induction scopes with
  | nil => rfl
  | cons inner outer ih =>
      unfold rebindIn
      split
      · rfl
      · simp [ih]

/-- Setting a variable leaves the scopes of the generated code as they are. -/
theorem scopeOf_rebindIn (name : String) (value : Value) (scopes : List Bindings)
    : scopeOf (rebindIn name value scopes) = scopeOf scopes := by
  induction scopes with
  | nil => rfl
  | cons inner outer ih =>
      unfold rebindIn
      split
      · have names := congrArg (List.map fun bound => (⟨bound, outer.length + 1⟩ : Local))
          (rebind_names name value inner)
        rw [List.map_map, List.map_map] at names
        simp only [scopeOf]
        exact congrArg (fun locals => Scope.mk _ (locals ++ _)) names
      · simp only [scopeOf, ih, length_rebindIn]

/-- The slot of a local is the place of the value of its innermost binding. -/
theorem slotIn?_place {name : String} {locals : List Local} {bindings : Bindings} {slot : UInt8}
    (found : Scope.slotIn? name locals = some slot)
    (names : locals.map Local.name = bindings.map Prod.fst) (few : bindings.length ≤ 256)
    : ∃ value,
        bindings.lookup name = some value
        ∧ (valuesOf bindings)[slot.toNat]? = some value
        ∧ ∀ new, valuesOf (rebind name new bindings) = (valuesOf bindings).set slot.toNat new := by
  induction bindings generalizing locals with
  | nil =>
      rw [List.map_nil, List.map_eq_nil_iff] at names
      subst names
      cases found
  | cons binding rest ih =>
      obtain ⟨bound, value⟩ := binding
      cases locals with
      | nil => cases names
      | cons latest older =>
          rw [List.map_cons, List.map_cons, List.cons.injEq] at names
          obtain ⟨name', names⟩ := names
          have length : older.length = (valuesOf rest).length := by
            simpa [valuesOf] using congrArg List.length names
          rw [List.length_cons] at few
          unfold Scope.slotIn? at found
          split at found
          · rename_i same
            have same' : bound = name := name'.symm.trans same
            obtain rfl := Option.some.inj found
            have exact : (UInt8.ofNat older.length).toNat = (valuesOf rest).length := by
              rw [← length]
              refine UInt8.toNat_ofNat_of_lt ?_
              rw [length, valuesOf_length]
              exact few
            refine ⟨value, ?_, ?_, ?_⟩
            · simp [same']
            · rw [exact, valuesOf_cons]
              simp
            · intro new
              rw [rebind, if_pos same', valuesOf_cons, valuesOf_cons, exact]
              simp
          · rename_i differs
            have differs' : ¬ bound = name := fun same => differs (name'.trans same)
            obtain ⟨old, looked, placed, set⟩ := ih found names (Nat.le_of_succ_le few)
            have inside := (List.getElem?_eq_some_iff.mp placed).1
            refine ⟨old, ?_, ?_, ?_⟩
            · have other : (name == bound) = false := by
                simpa using fun same : name = bound => differs' same.symm
              simp [List.lookup_cons, other, looked]
            · rw [valuesOf_cons, List.getElem?_append_left inside]
              exact placed
            · intro new
              rw [rebind, if_neg differs', valuesOf_cons, valuesOf_cons, set new,
                List.set_append_left _ _ inside]

-----------------------------------------------------------------------------------------
-- Globals
-----------------------------------------------------------------------------------------

/-- The slots of the globals with the given names. Slot zero is never used. -/
def slotsOf (names : List String) (globals : String → Option Value) : Array (Option Value) :=
  (none :: names.map globals).toArray

section

variable {names : List String} {globals : String → Option Value} {name : String} {place : Nat}

theorem slotsOf_get (found : names[place]? = some name)
    : (slotsOf names globals)[place + 1]?.join = globals name := by
  simp [slotsOf, found]

theorem map_update (found : names[place]? = some name) (distinct : names.Nodup) (value : Value)
    : names.map (fun other => if other = name then some value else globals other)
      = (names.map globals).set place (some value) := by
  induction names generalizing place with
  | nil => cases found
  | cons first rest ih =>
      obtain ⟨new, distinct⟩ := List.nodup_cons.mp distinct
      cases place with
      | zero =>
          obtain rfl := Option.some.inj found
          have others : rest.map (fun other => if other = first then some value else globals other)
              = rest.map globals := by
            refine List.map_congr_left fun other member => if_neg ?_
            rintro rfl
            exact new member
          simp [others]
      | succ place =>
          have differs : ¬ first = name := by
            rintro rfl
            exact new (List.mem_of_getElem? found)
          simp [differs, ih found distinct]

/-- Storing a global sets the value of its name. -/
theorem slotsOf_set (found : names[place]? = some name) (distinct : names.Nodup) (value : Value)
    : State.storeGlobal (slotsOf names globals) (place + 1) value
      = slotsOf names (fun other => if other = name then some value else globals other) := by
  have inside := (List.getElem?_eq_some_iff.mp found).1
  have room : place + 1 + 1 - (slotsOf names globals).size = 0 := by
    simp only [slotsOf, List.size_toArray, List.length_cons, List.length_map]
    omega
  rw [State.storeGlobal, room]
  simp [slotsOf, map_update found distinct]

/-- The reserved globals have the first slots. -/
theorem mem_reservedGlobals_iff (found : names[place]? = some name) (distinct : names.Nodup)
    (begins : reservedGlobals <+: names)
    : name ∈ reservedGlobals ↔ place + 1 ≤ reservedSlots := by
  obtain ⟨others, rfl⟩ := begins
  have size : reservedGlobals.length = reservedSlots := rfl
  constructor
  · intro reserved
    by_cases early : place < reservedGlobals.length
    · exact early
    · rw [List.getElem?_append_right (Nat.not_lt.mp early)] at found
      exact absurd rfl ((List.nodup_append.mp distinct).2.2 name reserved name
        (List.mem_of_getElem? found))
  · intro early
    rw [List.getElem?_append_left (by omega)] at found
    exact List.mem_of_getElem? found

/-- At the start the slots hold the built-in functions and nothing else. -/
theorem slotsOf_initial (sink : σ) (distinct : names.Nodup) (begins : reservedGlobals <+: names)
    : State.initialGlobals (names.length + 1) = slotsOf names (Env.initial sink).globals := by
  obtain ⟨others, rfl⟩ := begins
  have unset : others.map (Env.initial sink).globals = List.replicate others.length none := by
    rw [List.eq_replicate_iff]
    refine ⟨List.length_map _, fun value member => ?_⟩
    obtain ⟨name, listed, rfl⟩ := List.mem_map.mp member
    have apart : ∀ reserved ∈ reservedGlobals, reserved ≠ name :=
      fun reserved first => (List.nodup_append.mp distinct).2.2 reserved first name listed
    have notEmit : ¬ name = Builtin.emit.name :=
      fun same => apart Builtin.emit.name (by decide) same.symm
    have notTypeOf : ¬ name = Builtin.typeOf.name :=
      fun same => apart Builtin.typeOf.name (by decide) same.symm
    simp only [Env.initial, if_neg notEmit, if_neg notTypeOf]
  have length : (reservedGlobals ++ others).length + 1 - (reservedSlots + 1) = others.length := by
    simp [reservedGlobals, reservedSlots]
  rw [State.initialGlobals, length, slotsOf, List.map_append, unset]
  simp [reservedGlobals, Env.initial, Builtin.name]

end

-----------------------------------------------------------------------------------------
-- Activations
-----------------------------------------------------------------------------------------

/-- An activation of a piece of code: what lies below its base and the suspended callers. -/
structure Site where
  function : Nat
  below : List Value
  callers : Array Frame

namespace Site

/-- The run stands at an offset of the code, with some values above the base. -/
def state (site : Site) (ip : Nat) (globals : Array (Option Value)) (values : List Value)
    (sink : σ)
    : State σ where
  ip := ip
  base := site.below.length
  function := site.function
  globals := globals
  stack := (site.below ++ values).toArray
  callers := site.callers
  result := none
  sink := sink

/-- The run stands at an offset of the code, where an evaluation has come to an environment and
some further values wait to be used.
-/
def during (site : Site) (names : List String) (ip : Nat) (env : Env σ) (temporaries : List Value)
    : State σ :=
  site.state ip (slotsOf names env.globals) (env.values ++ temporaries) env.sink

end Site

end StackScript
