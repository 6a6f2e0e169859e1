import Mathlib.Data.List.DropRight
import StackScript.Proofs.Compile.Attempts
import StackScript.Proofs.Compile.Scoping
import StackScript.Proofs.Compile.Writing

/-! Live locals while code is written. Scopes are opened and closed, locals declared and bytes
added in any order. A roster lists the live locals in the order of their declaration, each with
the slot that it was given; the slot is its place in the list, and closing a scope takes from the
list what was declared since the scope was opened.
-/

namespace StackScript

-----------------------------------------------------------------------------------------
-- Actions
-----------------------------------------------------------------------------------------

/-- What is done to code under construction before the distances of its jumps are known. -/
inductive Action
  | enter
  | leave
  | declare (name : String)
  | emit (bytes : List UInt8)
  | jump (opcode : Opcode)

namespace Body

/-- The number that an action gives, and the body behind it. -/
def perform (body : Body) : Action → Except CompileError (Nat × Body)
  | .enter => .ok (body.enterScope.scope.depth, body.enterScope)
  | .leave => body.leaveScope
  | .declare name => (body.declare name).map fun (slot, after) => (slot.toNat, after)
  | .emit bytes => .ok (bytes.length, body.emit bytes)
  | .jump opcode => .ok (body.emitJump opcode)

/-- The body behind an action, which is the one before it if it fails. -/
def after (body : Body) (action : Action) : Body :=
  Attempt.behind body (body.perform action)

/-- The body behind actions. -/
def afterAll (body : Body) (actions : List Action) : Body :=
  actions.foldl after body

end Body

/-- A live local with the slot that it was given. -/
structure Entry where
  name : String
  depth : Nat
  slot : UInt8

/-- The local that an entry is about. -/
def Entry.toLocal (entry : Entry) : Local :=
  ⟨entry.name, entry.depth⟩

/-- Whether a local was declared in a deeper scope than the given one. -/
def Entry.deeper (outer : Nat) (entry : Entry) : Bool :=
  decide (outer < entry.depth)

@[simp] theorem Entry.deeper_iff {outer : Nat} {entry : Entry}
    : entry.deeper outer = true ↔ outer < entry.depth :=
  decide_eq_true_iff

/-- The depth of the open scopes, the live locals in the order of their declaration, and the
bytes so far.
-/
structure Roster where
  depth : Nat
  entries : List Entry
  code : List UInt8

namespace Roster

/-- No open scope, no locals and no code. -/
def empty : Roster := ⟨0, [], []⟩

/-- Closes the innermost scope: the locals at the end of the list that were declared deeper than
the scope around it go, each with a byte that takes its value off the stack.
-/
def leave (roster : Roster) : Except CompileError Nat × Roster :=
  match roster.depth with
  | 0 => (.error .scopeUnderflow, roster)
  | outer + 1 =>
      let count := (roster.entries.rtakeWhile (Entry.deeper outer)).length
      (.ok count,
        { depth := outer
          entries := roster.entries.rdropWhile (Entry.deeper outer)
          code := roster.code ++ List.replicate count Opcode.pop.byte })

/-- Declares a local, if the number of live locals fits one byte. -/
def declare (roster : Roster) (name : String) : Except CompileError UInt8 × Roster :=
  if roster.entries.length < 256 then
    let slot := UInt8.ofNat roster.entries.length
    (.ok slot, { roster with entries := roster.entries ++ [⟨name, roster.depth, slot⟩] })
  else (.error (.tooManyLocals name), roster)

/-- Adds bytes. -/
def emit (roster : Roster) (bytes : List UInt8) : Roster :=
  { roster with code := roster.code ++ bytes }

/-- The number that an action gives, and the roster behind it, also where there is none. -/
def perform (roster : Roster) : Action → Except CompileError Nat × Roster
  | .enter => (.ok (roster.depth + 1), { roster with depth := roster.depth + 1 })
  | .leave => roster.leave
  | .declare name => ((roster.declare name).1.map UInt8.toNat, (roster.declare name).2)
  | .emit bytes => (.ok bytes.length, roster.emit bytes)
  | .jump opcode => (.ok (roster.code.length + 1), roster.emit [opcode.byte, 255, 255])

/-- The roster behind an action. -/
def after (roster : Roster) (action : Action) : Roster :=
  (roster.perform action).2

/-- The roster behind actions. -/
def afterAll (roster : Roster) (actions : List Action) : Roster :=
  actions.foldl after roster

theorem after_leave (roster : Roster) : roster.after .leave = roster.leave.2 := rfl

theorem after_declare (roster : Roster) (name : String)
    : roster.after (.declare name) = (roster.declare name).2 :=
  rfl

theorem afterAll_append (roster : Roster) (front back : List Action)
    : roster.afterAll (front ++ back) = (roster.afterAll front).afterAll back :=
  List.foldl_append

-----------------------------------------------------------------------------------------
-- Bodies and rosters
-----------------------------------------------------------------------------------------

/-- A roster has the scopes, the live locals and the bytes of a body. -/
structure Tells (roster : Roster) (body : Body) : Prop where
  depth : roster.depth = body.scope.depth
  locals : body.scope.locals = (roster.entries.map Entry.toLocal).reverse
  code : roster.code = body.code.toList

variable {roster : Roster} {body : Body}

theorem tells_empty : empty.Tells .empty := ⟨rfl, rfl, rfl⟩

theorem Tells.length (tells : roster.Tells body)
    : body.scope.locals.length = roster.entries.length := by
  rw [tells.locals, List.length_reverse, List.length_map]

theorem Tells.emit (tells : roster.Tells body) (bytes : List UInt8)
    : (roster.emit bytes).Tells (body.emit bytes) where
  depth := tells.depth
  locals := tells.locals
  code := by
    rw [Body.toList_emit, ← tells.code]
    rfl

theorem encodeAll_pops (count : Nat)
    : encodeAll (List.replicate count .pop) = List.replicate count Opcode.pop.byte := by
  induction count with
  | zero => rfl
  | succ count ih => exact congrArg (Opcode.pop.byte :: ·) ih

theorem Tells.leave (tells : roster.Tells body)
    : Attempt.Agrees Tells roster roster.leave body.leaveScope := by
  unfold Roster.leave Body.leaveScope Scope.leave
  rw [← tells.depth]
  cases roster.depth with
  | zero => exact .failed _
  | succ outer =>
      have inner
          : (fun entry : Local => decide (outer < entry.depth)) ∘ Entry.toLocal
            = Entry.deeper outer :=
        rfl
      have count
          : (body.scope.locals.takeWhile fun entry => decide (outer < entry.depth)).length
            = (roster.entries.rtakeWhile (Entry.deeper outer)).length := by
        rw [tells.locals, ← List.map_reverse, List.takeWhile_map, inner, List.length_map,
          List.rtakeWhile, List.length_reverse]
      have kept
          : body.scope.locals.dropWhile (fun entry => decide (outer < entry.depth))
            = ((roster.entries.rdropWhile (Entry.deeper outer)).map Entry.toLocal).reverse := by
        rw [tells.locals, ← List.map_reverse, List.dropWhile_map, inner, List.rdropWhile,
          ← List.map_reverse, List.reverse_reverse]
      simp only [← count]
      refine .done _ ⟨rfl, kept, ?_⟩
      rw [Body.toList_emitCode, encodeAll_pops, ← tells.code]

theorem Tells.declare (tells : roster.Tells body) (name : String)
    : Attempt.Agrees Tells roster (roster.declare name) (body.declare name) := by
  unfold Roster.declare Body.declare Scope.declare
  rw [tells.length]
  split
  · refine .done _ ⟨tells.depth, ?_, tells.code⟩
    simp only [tells.locals, tells.depth, List.map_append, List.reverse_append]
    rfl
  · exact .failed _

/-- A roster that tells a body gives the same numbers and fails alike, action by action. -/
theorem Tells.perform (tells : roster.Tells body) (action : Action)
    : Attempt.Agrees Tells roster (roster.perform action) (body.perform action) := by
  cases action with
  | enter =>
      unfold Roster.perform Body.perform
      rw [tells.depth]
      exact .done _ ⟨rfl, tells.locals, tells.code⟩
  | leave => exact tells.leave
  | declare name => exact (tells.declare name).map UInt8.toNat
  | emit bytes => exact .done _ (tells.emit bytes)
  | jump opcode =>
      unfold Roster.perform Body.perform
      rw [tells.code, Array.length_toList]
      exact .done _ (tells.emit _)

/-- Roster and body stay in step, by induction on the actions. -/
theorem Tells.afterAll (tells : roster.Tells body) (actions : List Action)
    : (roster.afterAll actions).Tells (body.afterAll actions) := by
  induction actions generalizing roster body with
  | nil => exact tells
  | cons action rest ih => exact ih ((tells.perform action).behind tells)

-----------------------------------------------------------------------------------------
-- Moves
-----------------------------------------------------------------------------------------

/-- What an action declares in the scope of the given depth. -/
def declaredBy (depth : Nat) (roster : Roster) : Action → List Entry
  | .declare name =>
      if roster.depth = depth then
        match (roster.declare name).1 with
        | .ok slot => [⟨name, depth, slot⟩]
        | .error _ => []
      else []
  | _ => []

/-- What an action makes of the depth and the live locals. -/
inductive Moves (roster : Roster) : Action → Nat → List Entry → Prop
  | enter : Moves roster .enter (roster.depth + 1) roster.entries
  | leave {outer : Nat} (depth : roster.depth = outer + 1)
    : Moves roster .leave outer (roster.entries.rdropWhile (Entry.deeper outer))
  | declare (name : String) (room : roster.entries.length < 256)
    : Moves roster (.declare name) roster.depth
        (roster.entries ++ [⟨name, roster.depth, UInt8.ofNat roster.entries.length⟩])
  /-- Nothing changes if the action fails or only adds bytes. -/
  | stay {action : Action} (none : ∀ depth, roster.declaredBy depth action = [])
    : Moves roster action roster.depth roster.entries

theorem moves_after (roster : Roster) (action : Action)
    : roster.Moves action (roster.after action).depth (roster.after action).entries := by
  cases action with
  | enter => exact .enter
  | leave =>
      rw [after_leave]
      unfold Roster.leave
      split
      · exact .stay fun _ => rfl
      · rename_i outer depth
        exact .leave depth
  | declare name =>
      rw [after_declare]
      unfold Roster.declare
      split
      · rename_i room
        exact .declare name room
      · rename_i full
        refine .stay fun depth => ?_
        simp [declaredBy, Roster.declare, full]
  | emit bytes => exact .stay fun _ => rfl
  | jump opcode => exact .stay fun _ => rfl

/-- A declaration for which there is room adds its local to the scope in which it stands. -/
theorem declaredBy_of_room {name : String} (room : roster.entries.length < 256) (depth : Nat)
    : roster.declaredBy depth (.declare name)
      = [⟨name, roster.depth, UInt8.ofNat roster.entries.length⟩].filter
          fun entry => entry.depth = depth := by
  by_cases here : roster.depth = depth
  · simp [declaredBy, Roster.declare, room, here]
  · simp [declaredBy, here]

-----------------------------------------------------------------------------------------
-- Slots and depths
-----------------------------------------------------------------------------------------

/-- A slot is the place of its local, and no local is deeper than those declared behind it or
than the innermost open scope.
-/
structure Ordered (depth : Nat) (entries : List Entry) : Prop where
  slots : ∀ place (entry : Entry), entries[place]? = some entry → entry.slot.toNat = place
  depths : entries.Pairwise fun entry other => entry.depth ≤ other.depth
  within : ∀ entry ∈ entries, entry.depth ≤ depth

theorem Ordered.nil (depth : Nat) : Ordered depth [] where
  slots := nofun
  depths := .nil
  within := nofun

/-- Nothing deeper is left when what is deeper goes from the end of a list in order. -/
theorem depth_le_of_mem_rdropWhile {outer : Nat} {entries : List Entry}
    (depths : entries.Pairwise fun entry other => entry.depth ≤ other.depth)
    : ∀ entry ∈ entries.rdropWhile (Entry.deeper outer), entry.depth ≤ outer := by
  induction entries using List.reverseRecOn with
  | nil => exact nofun
  | append_singleton front last ih =>
      obtain ⟨before, -, behind⟩ := List.pairwise_append.mp depths
      by_cases deeper : outer < last.depth
      · rw [List.rdropWhile_concat_pos _ _ _ (Entry.deeper_iff.mpr deeper)]
        exact ih before
      · rw [List.rdropWhile_concat_neg _ _ _ (mt Entry.deeper_iff.mp deeper)]
        intro entry member
        rcases List.mem_append.mp member with member | member
        · have least := behind entry member last (List.mem_singleton_self _)
          exact least.trans (Nat.le_of_not_lt deeper)
        · rw [List.mem_singleton.mp member]
          exact Nat.le_of_not_lt deeper

theorem Ordered.leave {depth outer : Nat} {entries : List Entry} (ordered : Ordered depth entries)
    : Ordered outer (entries.rdropWhile (Entry.deeper outer)) := by
  obtain ⟨gone, whole⟩ := entries.rdropWhile_prefix (Entry.deeper outer)
  constructor
  case slots =>
    intro place entry found
    have inside := (List.getElem?_eq_some_iff.mp found).1
    refine ordered.slots place entry ?_
    rw [← whole, List.getElem?_append_left inside]
    exact found
  case depths => exact ordered.depths.sublist (List.rdropWhile_prefix _ _).sublist
  case within => exact depth_le_of_mem_rdropWhile ordered.depths

theorem Ordered.declare {depth : Nat} {entries : List Entry} (ordered : Ordered depth entries)
    (name : String) (room : entries.length < 256)
    : Ordered depth (entries ++ [⟨name, depth, UInt8.ofNat entries.length⟩]) := by
  constructor
  case slots =>
    intro place entry found
    rcases Nat.lt_or_ge place entries.length with inside | behind
    · rw [List.getElem?_append_left inside] at found
      exact ordered.slots place entry found
    · have within := (List.getElem?_eq_some_iff.mp found).1
      rw [List.length_append, List.length_singleton] at within
      obtain rfl : place = entries.length := by omega
      rw [List.getElem?_concat_length] at found
      rw [← Option.some.inj found]
      exact UInt8.toNat_ofNat_of_lt room
  case depths =>
    refine List.pairwise_append.mpr ⟨ordered.depths, List.pairwise_singleton _ _, ?_⟩
    intro entry member last isLast
    rw [List.mem_singleton.mp isLast]
    exact ordered.within entry member
  case within =>
    intro entry member
    rcases List.mem_append.mp member with member | member
    · exact ordered.within entry member
    · rw [List.mem_singleton.mp member]

theorem Ordered.moves {action : Action} {depth : Nat} {entries : List Entry}
    (ordered : Ordered roster.depth roster.entries) (moves : roster.Moves action depth entries)
    : Ordered depth entries := by
  cases moves with
  | enter =>
      constructor
      case slots => exact ordered.slots
      case depths => exact ordered.depths
      case within =>
        intro entry member
        exact Nat.le_succ_of_le (ordered.within entry member)
  | leave _ => exact ordered.leave
  | declare name room => exact ordered.declare name room
  | stay _ => exact ordered

/-- Slots and depths are in order behind all actions, by induction on them. -/
theorem Ordered.afterAll (ordered : Ordered roster.depth roster.entries) (actions : List Action)
    : Ordered (roster.afterAll actions).depth (roster.afterAll actions).entries := by
  induction actions generalizing roster with
  | nil => exact ordered
  | cons action rest ih => exact ih (ordered.moves (roster.moves_after action))

theorem ordered_afterAll (actions : List Action)
    : Ordered (empty.afterAll actions).depth (empty.afterAll actions).entries :=
  Ordered.afterAll (Ordered.nil 0) actions

-----------------------------------------------------------------------------------------
-- Names
-----------------------------------------------------------------------------------------

/-- The most recently declared local of a list with the given name. -/
def Latest (entries : List Entry) (name : String) (entry : Entry) : Prop :=
  ∃ front back,
    entries = front ++ entry :: back
    ∧ entry.name = name
    ∧ ∀ other ∈ back, other.name ≠ name

theorem latest_concat_iff {front : List Entry} {last entry : Entry} {name : String}
    : Latest (front ++ [last]) name entry
      ↔ last.name = name ∧ entry = last ∨ last.name ≠ name ∧ Latest front name entry := by
  constructor
  · rintro ⟨before, back, whole, named, others⟩
    rcases List.eq_nil_or_concat back with rfl | ⟨back, newest, rfl⟩
    · obtain ⟨rfl, same⟩ := List.append_inj' whole rfl
      cases same
      exact .inl ⟨named, rfl⟩
    · rw [List.concat_eq_append] at whole others
      rw [← List.cons_append, ← List.append_assoc] at whole
      obtain ⟨rfl, same⟩ := List.append_inj' whole rfl
      cases same
      have newer : last.name ≠ name := others last (by simp)
      have rest : ∀ other ∈ back, other.name ≠ name :=
        fun other member => others other (List.mem_append_left _ member)
      exact .inr ⟨newer, before, back, rfl, named, rest⟩
  · rintro (⟨named, rfl⟩ | ⟨other, before, back, rfl, named, others⟩)
    · exact ⟨front, [], rfl, named, nofun⟩
    · refine ⟨before, back ++ [last], by simp, named, ?_⟩
      intro newer member
      rcases List.mem_append.mp member with member | member
      · exact others newer member
      · rw [List.mem_singleton.mp member]
        exact other

/-- A name means the most recently declared live local with that name, by induction on the
locals from the latest on.
-/
theorem slotIn?_eq_some_iff {entries : List Entry} {name : String} {slot : UInt8}
    (slots : ∀ place (entry : Entry), entries[place]? = some entry → entry.slot.toNat = place)
    : Scope.slotIn? name (entries.map Entry.toLocal).reverse = some slot
      ↔ ∃ entry, Latest entries name entry ∧ entry.slot = slot := by
  induction entries using List.reverseRecOn with
  | nil => simp [Scope.slotIn?, Latest]
  | append_singleton front last ih =>
      have own : last.slot.toNat = front.length := slots _ last List.getElem?_concat_length
      have earlier
          : ∀ place (entry : Entry),
              front[place]? = some entry → entry.slot.toNat = place := by
        intro place entry found
        have inside := (List.getElem?_eq_some_iff.mp found).1
        exact slots place entry ((List.getElem?_append_left inside).trans found)
      simp only [List.map_append, List.reverse_append, List.map_cons, List.map_nil,
        List.reverse_singleton, List.singleton_append, Scope.slotIn?, List.length_reverse,
        List.length_map, latest_concat_iff]
      split
      · rename_i named
        have slot' : UInt8.ofNat front.length = last.slot := by
          rw [← own]
          exact UInt8.ofNat_toNat
        have named' : last.name = name := named
        simp [slot', named']
      · rename_i other
        have other' : last.name ≠ name := other
        rw [ih earlier]
        simp [other']

-----------------------------------------------------------------------------------------
-- The scope that was entered last
-----------------------------------------------------------------------------------------

/-- What actions declare in the scope of the given depth. -/
def declared (depth : Nat) (roster : Roster) : List Action → List Entry
  | [] => []
  | action :: rest =>
      roster.declaredBy depth action ++ (roster.after action).declared depth rest

/-- Actions never close the scope inside the given depth. -/
def StaysInside (outer : Nat) (roster : Roster) (actions : List Action) : Prop :=
  ∀ front, front <+: actions → outer < (roster.afterAll front).depth

/-- The old locals come first and behind them deeper ones only, among which the new ones are those
of the next scope.
-/
def Above (outer : Nat) (old new entries : List Entry) : Prop :=
  ∃ deeper,
    entries = old ++ deeper
    ∧ (∀ entry ∈ deeper, outer < entry.depth)
    ∧ deeper.filter (fun entry => entry.depth = outer + 1) = new

theorem rdropWhile_append_of_not {α : Type} {test : α → Bool} {front : List α}
    (kept : ∀ entry ∈ front, ¬ test entry) (back : List α)
    : (front ++ back).rdropWhile test = front ++ back.rdropWhile test := by
  induction back using List.reverseRecOn with
  | nil =>
      rw [List.append_nil, List.rdropWhile_nil, List.append_nil, List.rdropWhile_eq_self_iff]
      exact fun some => kept _ (List.getLast_mem some)
  | append_singleton back last ih =>
      rw [← List.append_assoc]
      by_cases goes : test last
      · rw [List.rdropWhile_concat_pos _ _ _ goes, List.rdropWhile_concat_pos _ _ _ goes, ih]
      · rw [List.rdropWhile_concat_neg _ _ _ goes, List.rdropWhile_concat_neg _ _ _ goes,
          List.append_assoc]

variable {outer : Nat} {old new : List Entry}

theorem Above.leave {around : Nat} {entries : List Entry} (above : Above outer old new entries)
    (shallow : ∀ entry ∈ old, entry.depth ≤ outer) (inside : outer < around)
    : Above outer old new (entries.rdropWhile (Entry.deeper around)) := by
  obtain ⟨deeper, rfl, depths, filtered⟩ := above
  have stay : ∀ entry ∈ old, ¬ entry.deeper around := by
    intro entry member deep
    have least := shallow entry member
    have most := Entry.deeper_iff.mp deep
    omega
  have gone
      : (deeper.rtakeWhile (Entry.deeper around)).filter (fun entry => entry.depth = outer + 1)
        = [] := by
    rw [List.filter_eq_nil_iff]
    intro entry member
    have deep := Entry.deeper_iff.mp (List.mem_rtakeWhile_imp member)
    simp only [decide_eq_true_eq]
    omega
  refine ⟨deeper.rdropWhile (Entry.deeper around), rdropWhile_append_of_not stay _, ?_, ?_⟩
  · intro entry member
    exact depths entry ((List.rdropWhile_prefix _ _).subset member)
  · rw [← List.rdropWhile_append_rtakeWhile (p := Entry.deeper around) (l := deeper),
      List.filter_append, gone, List.append_nil] at filtered
    exact filtered

theorem Above.concat {entries : List Entry} (above : Above outer old new entries) {entry : Entry}
    (inside : outer < entry.depth)
    : Above outer old (new ++ [entry].filter fun entry => entry.depth = outer + 1)
        (entries ++ [entry]) := by
  obtain ⟨deeper, rfl, depths, rfl⟩ := above
  refine ⟨deeper ++ [entry], List.append_assoc _ _ _, ?_, List.filter_append _ _⟩
  intro other member
  rcases List.mem_append.mp member with member | member
  · exact depths other member
  · rw [List.mem_singleton.mp member]
    exact inside

/-- An action that does not close the scope keeps the old locals, and adds what it declares in the
scope.
-/
theorem Above.moves {action : Action} {depth : Nat} {entries : List Entry}
    (above : Above outer old new roster.entries) (moves : roster.Moves action depth entries)
    (shallow : ∀ entry ∈ old, entry.depth ≤ outer) (before : outer < roster.depth)
    (behind : outer < depth)
    : Above outer old (new ++ roster.declaredBy (outer + 1) action) entries := by
  cases moves with
  | enter => exact (List.append_nil new).symm ▸ above
  | leave _ => exact (List.append_nil new).symm ▸ above.leave shallow behind
  | declare name room =>
      rw [declaredBy_of_room room]
      exact above.concat before
  | stay none =>
      rw [none, List.append_nil]
      exact above

/-- Actions that do not close the scope keep the old locals, and add what they declare in it, by
induction on the actions.
-/
theorem Above.afterAll {actions : List Action} (above : Above outer old new roster.entries)
    (shallow : ∀ entry ∈ old, entry.depth ≤ outer)
    (inside : StaysInside outer roster actions)
    : Above outer old (new ++ roster.declared (outer + 1) actions)
        (roster.afterAll actions).entries := by
  induction actions generalizing roster new with
  | nil => exact (List.append_nil new).symm ▸ above
  | cons action rest ih =>
      have before : outer < roster.depth := inside [] List.nil_prefix
      have within : StaysInside outer (roster.after action) rest :=
        fun front starts => inside (action :: front) ((List.prefix_cons_inj action).mpr starts)
      have behind : outer < (roster.after action).depth := within [] List.nil_prefix
      have all := ih (above.moves (roster.moves_after action) shallow before behind) within
      rwa [List.append_assoc] at all

/-- Scopes are opened by entering them, one by one. -/
theorem Moves.eq_enter {action : Action} {depth : Nat} {entries : List Entry}
    (moves : roster.Moves action depth entries) (deeper : roster.depth < depth)
    : action = .enter ∧ depth = roster.depth + 1 := by
  cases moves with
  | enter => exact ⟨rfl, rfl⟩
  | leave around => omega
  | declare _ _ => exact absurd deeper (Nat.lt_irrefl _)
  | stay _ => exact absurd deeper (Nat.lt_irrefl _)

/-- An open scope was entered at some time, and not left since. -/
theorem exists_entered (actions : List Action)
    (inside : outer < (roster.afterAll actions).depth) (outside : roster.depth ≤ outer)
    : ∃ before within,
        actions = before ++ .enter :: within
        ∧ (roster.afterAll before).depth = outer
        ∧ StaysInside outer ((roster.afterAll before).after .enter) within := by
  induction actions using List.reverseRecOn with
  | nil => exact absurd inside (Nat.not_lt.mpr outside)
  | append_singleton front last ih =>
      rw [afterAll_append] at inside
      rcases Nat.lt_or_ge outer (roster.afterAll front).depth with earlier | now
      · obtain ⟨before, within, rfl, depth, stays⟩ := ih earlier
        refine ⟨before, within ++ [last], by simp, depth, ?_⟩
        intro part starts
        rcases List.prefix_concat_iff.mp starts with rfl | starts
        · have same
              : ((roster.afterAll before).after .enter).afterAll (within ++ [last])
                = (roster.afterAll (before ++ .enter :: within)).after last := by
            rw [afterAll_append, afterAll_append]
            rfl
          rw [same]
          exact inside
        · exact stays part starts
      · have deeper : outer < ((roster.afterAll front).after last).depth := inside
        obtain ⟨rfl, depth⟩ :=
          (moves_after _ last).eq_enter (Nat.lt_of_le_of_lt now deeper)
        refine ⟨front, [], rfl, by omega, ?_⟩
        intro part starts
        rw [List.prefix_nil.mp starts]
        exact deeper

/-- Leaving the scope inside the old locals removes the new ones. -/
theorem Above.leave_eq (above : Above outer old new roster.entries)
    (shallow : ∀ entry ∈ old, entry.depth ≤ outer) (ordered : Ordered roster.depth roster.entries)
    (depth : roster.depth = outer + 1)
    : roster.entries = old ++ new
      ∧ roster.leave
        = (.ok new.length,
            ⟨outer, old, roster.code ++ List.replicate new.length Opcode.pop.byte⟩) := by
  obtain ⟨deeper, whole, depths, rfl⟩ := above
  have own : ∀ entry ∈ deeper, entry.depth = outer + 1 := by
    intro entry member
    have least := depths entry member
    have most := ordered.within entry (whole ▸ List.mem_append_right old member)
    omega
  have all : deeper.filter (fun entry => entry.depth = outer + 1) = deeper :=
    List.filter_eq_self.mpr fun entry member => decide_eq_true (own entry member)
  rw [all]
  have stay : ∀ entry ∈ old, ¬ entry.deeper outer := by
    intro entry member deep
    exact Nat.not_lt.mpr (shallow entry member) (Entry.deeper_iff.mp deep)
  have kept : (old ++ deeper).rdropWhile (Entry.deeper outer) = old := by
    have none : deeper.rdropWhile (Entry.deeper outer) = [] :=
      List.rdropWhile_eq_nil_iff.mpr
        fun entry member => Entry.deeper_iff.mpr (depths entry member)
    rw [rdropWhile_append_of_not stay, none, List.append_nil]
  have gone : (old ++ deeper).rtakeWhile (Entry.deeper outer) = deeper := by
    have split := List.rdropWhile_append_rtakeWhile (p := Entry.deeper outer) (l := old ++ deeper)
    rw [kept] at split
    exact List.append_cancel_left split
  refine ⟨whole, ?_⟩
  unfold Roster.leave
  rw [depth, whole]
  simp only [kept, gone]

theorem Ordered.length_le {depth : Nat} {entries : List Entry} (ordered : Ordered depth entries)
    : entries.length ≤ 256 := by
  by_contra more
  have inside : 256 < entries.length := Nat.not_le.mp more
  have slot := ordered.slots 256 _ (List.getElem?_eq_getElem inside)
  have small := UInt8.toNat_lt entries[256].slot
  omega

theorem Tells.scope_eq {other : Roster} {around : Body} (tells : roster.Tells body)
    (same : other.Tells around) (depth : roster.depth = other.depth)
    (entries : roster.entries = other.entries)
    : body.scope = around.scope := by
  have depth' : body.scope.depth = around.scope.depth := by rw [← tells.depth, depth, same.depth]
  have locals : body.scope.locals = around.scope.locals := by
    rw [tells.locals, entries, same.locals]
  cases scope : body.scope
  cases outer : around.scope
  simp_all

end Roster

-----------------------------------------------------------------------------------------
-- Bodies behind actions
-----------------------------------------------------------------------------------------

/-- Leaving the innermost scope of a body. The scope was entered behind `before`, and `within` was
done since.
-/
structure Leaves (before within : List Action) (body : Body) (roster : Roster) (outer : Nat)
    (gone : List Entry) (behind : Body)
    : Prop where
  /-- The scope was not left since it was entered. -/
  inside : Roster.StaysInside outer ((Roster.empty.afterAll before).after .enter) within
  /-- What goes was declared in that scope since. -/
  declared : gone = ((Roster.empty.afterAll before).after .enter).declared (outer + 1) within
  /-- The live locals before were those outside and what goes. -/
  entries : roster.entries = (Roster.empty.afterAll before).entries ++ gone
  /-- The number of locals that go is given. -/
  count : body.leaveScope = .ok (gone.length, behind)
  /-- The scopes and locals are again those of the time when the scope was entered. -/
  scope : behind.scope = (Body.empty.afterAll before).scope
  /-- A byte for each local that goes is added and nothing else. -/
  code : behind.code.toList = body.code.toList ++ List.replicate gone.length Opcode.pop.byte

/-- What a body and its roster are like behind actions. Failed actions count. -/
structure Accounted (actions : List Action) (body : Body) (roster : Roster) : Prop where
  /-- The roster has the scopes, the live locals and the bytes of the body. -/
  tells : roster.Tells body
  /-- Both give the same numbers, and an action that fails leaves the roster as it was. -/
  agrees
    : ∀ action,
        Attempt.Agrees Roster.Tells roster (roster.perform action) (body.perform action)
  /-- A slot is the place of its local, and depths never fall nor exceed that of the scope. -/
  ordered : Roster.Ordered roster.depth roster.entries
  /-- A name means the most recently declared live local with that name. -/
  visible
    : ∀ name slot,
        body.scope.slot? name = some slot
        ↔ ∃ entry, Roster.Latest roster.entries name entry ∧ entry.slot = slot
  /-- Inside a scope, leaving it removes what was declared in it since it was entered. -/
  leaves
    : ∀ outer,
        body.scope.depth = outer + 1
        → ∃ before within gone behind,
            actions = before ++ .enter :: within
            ∧ Leaves before within body roster outer gone behind
  /-- Outside all scopes, none can be left. -/
  underflow : body.scope.depth = 0 → body.leaveScope = .error .scopeUnderflow
  /-- A new local has the slot behind the others. -/
  declares
    : ∀ name,
        body.scope.locals.length < 256
        → body.declare name
          = .ok (UInt8.ofNat body.scope.locals.length,
              { body with scope := body.scope.extend [⟨name, body.scope.depth⟩] })
  /-- There are never more than 256 locals, and behind so many none can be declared. -/
  few : body.scope.locals.length ≤ 256
  overflow
    : ∀ name,
        body.scope.locals.length = 256 → body.declare name = .error (.tooManyLocals name)

theorem leaves_afterAll (actions : List Action) {outer : Nat}
    (depth : (Roster.empty.afterAll actions).depth = outer + 1)
    : ∃ before within gone behind,
        actions = before ++ .enter :: within
        ∧ Leaves before within (Body.empty.afterAll actions) (Roster.empty.afterAll actions) outer
            gone behind := by
  have entered : outer < (Roster.empty.afterAll actions).depth := depth ▸ Nat.lt_add_one outer
  obtain ⟨before, within, rfl, outside, inside⟩ :=
    Roster.exists_entered actions entered (Nat.zero_le outer)
  have around := Roster.tells_empty.afterAll before
  have tells := Roster.tells_empty.afterAll (before ++ .enter :: within)
  have shallow : ∀ entry ∈ (Roster.empty.afterAll before).entries, entry.depth ≤ outer :=
    fun entry member => outside ▸ (Roster.ordered_afterAll before).within entry member
  have start
      : Roster.Above outer (Roster.empty.afterAll before).entries []
          ((Roster.empty.afterAll before).after .enter).entries :=
    ⟨[], (List.append_nil _).symm, nofun, rfl⟩
  have above := start.afterAll shallow inside
  rw [List.nil_append] at above
  have same
      : ((Roster.empty.afterAll before).after .enter).afterAll within
        = Roster.empty.afterAll (before ++ .enter :: within) := by
    rw [Roster.afterAll_append]
    rfl
  rw [same] at above
  obtain ⟨entries, leave⟩ := above.leave_eq shallow (Roster.ordered_afterAll _) depth
  have agrees := tells.leave
  rw [leave] at agrees
  generalize left : (Body.empty.afterAll (before ++ .enter :: within)).leaveScope = attempt
    at agrees
  cases agrees with
  | @done _ behind _ after =>
      refine ⟨before, within, _, behind, rfl, inside, rfl, entries, left, ?_, ?_⟩
      · exact after.scope_eq around outside.symm rfl
      · rw [← after.code, ← tells.code]

/-- Scopes and locals are accounted for behind all actions, in any order and whether or not they
fail.
-/
theorem accounted_afterAll (actions : List Action)
    : Accounted actions (Body.empty.afterAll actions) (Roster.empty.afterAll actions) := by
  have tells := Roster.tells_empty.afterAll actions
  have ordered := Roster.ordered_afterAll actions
  constructor
  case tells => exact tells
  case agrees => exact tells.perform
  case ordered => exact ordered
  case visible =>
    intro name slot
    rw [Scope.slot?, tells.locals]
    exact Roster.slotIn?_eq_some_iff ordered.slots
  case leaves => exact fun outer depth => leaves_afterAll actions (tells.depth.trans depth)
  case underflow =>
    intro outside
    unfold Body.leaveScope Scope.leave
    rw [outside]
    rfl
  case declares =>
    intro name room
    unfold Body.declare Scope.declare
    rw [if_pos room]
    rfl
  case few => exact tells.length ▸ ordered.length_le
  case overflow =>
    intro name full
    unfold Body.declare Scope.declare
    rw [if_neg (Nat.not_lt.mpr full.ge)]
    rfl

example
    : Body.empty.afterAll [.enter, .declare "a", .enter, .declare "b", .declare "c", .leave]
      = ⟨#[Opcode.pop.byte, Opcode.pop.byte], ⟨1, [⟨"a", 1⟩]⟩⟩ := by
  rfl

end StackScript
