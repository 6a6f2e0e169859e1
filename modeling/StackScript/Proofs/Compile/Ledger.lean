import Std.Data.HashMap.Lemmas
import StackScript.Proofs.Compile.Requests

/-! Tables kept for look-ups. Globals are a map from names to slots, and strings a list with a map
from each to its place; what a table answers next is told by its size, in one or two bytes. Such a
ledger answers every request as the tables do, and its maps and lists stay in step.
-/

namespace StackScript.Symbols

/-- A number that fits one byte. -/
def byte? (number : Nat) : Option UInt8 :=
  if number < 256 then some (UInt8.ofNat number) else none

/-- A number that fits two bytes. -/
def word? (number : Nat) : Option UInt16 :=
  if number < 65536 then some (UInt16.ofNat number) else none

/-- The slots of globals, the functions behind the main code, and the strings with their places. -/
structure Ledger where
  slots : Std.HashMap String UInt8
  functions : Array (Option Function)
  strings : Array String
  places : Std.HashMap String UInt16

namespace Ledger

/-- The ledger before anything is asked for: the reserved globals have the first slots, and the
main code has no entry of its own.
-/
def initial : Ledger where
  slots :=
    (reservedGlobals.zipIdx 1).foldl
      (fun slots (name, slot) => slots.insert name (UInt8.ofNat slot)) ∅
  functions := #[none]
  strings := #[]
  places := ∅

/-- The slot of a global, which gets the next one at its first mention. -/
def global (ledger : Ledger) (name : String) : Except CompileError Nat × Ledger :=
  match ledger.slots[name]? with
  | some slot => (.ok slot.toNat, ledger)
  | none =>
      match byte? (ledger.slots.size + 1) with
      | some slot => (.ok slot.toNat, { ledger with slots := ledger.slots.insert name slot })
      | none => (.error (.tooManyGlobals name), ledger)

/-- The place of a string, which is entered in list and map at its first mention. -/
def string (ledger : Ledger) (text : String) : Except CompileError Nat × Ledger :=
  match ledger.places[text]? with
  | some place => (.ok place.toNat, ledger)
  | none =>
      match word? ledger.strings.size with
      | some place =>
          (.ok place.toNat,
            { ledger with
              strings := ledger.strings.push text
              places := ledger.places.insert text place })
      | none => (.error .tooManyStrings, ledger)

/-- Enters a function and gives its number. -/
def function (ledger : Ledger) (function : Function) : Except CompileError Nat × Ledger :=
  match byte? ledger.functions.size with
  | some id => (.ok id.toNat, { ledger with functions := ledger.functions.push (some function) })
  | none => (.error .tooManyFunctions, ledger)

/-- The number that answers a request, and the ledger behind it, also where there is none. -/
def serve (ledger : Ledger) : Request → Except CompileError Nat × Ledger
  | .global name => ledger.global name
  | .string text => ledger.string text
  | .function function => ledger.function function
  | .body body arity => ledger.function ⟨arity, body.code⟩

/-- The ledger behind a request. -/
def after (ledger : Ledger) (request : Request) : Ledger :=
  (ledger.serve request).2

/-- The ledger behind requests. -/
def afterAll (ledger : Ledger) (requests : List Request) : Ledger :=
  requests.foldl after ledger

/-- The map has the slots of the globals. -/
structure TellsSlots (slots : Std.HashMap String UInt8) (symbols : Symbols) : Prop where
  found : ∀ name slot, slots[name]? = some slot ↔ symbols.Holds slot.toNat (.global name)
  size : slots.size = symbols.taken .globals

/-- The list has the strings, and the map has their places. -/
structure TellsStrings (strings : Array String) (places : Std.HashMap String UInt16)
    (symbols : Symbols)
    : Prop where
  entry : ∀ text place, strings[place]? = some text ↔ symbols.Holds place (.string text)
  size : strings.size = symbols.taken .strings
  found : ∀ text place, places[text]? = some place ↔ symbols.Holds place.toNat (.string text)

/-- The list has the functions behind an entry for the main code. -/
structure TellsFunctions (functions : Array (Option Function)) (symbols : Symbols) : Prop where
  entry
    : ∀ function id,
        functions[id]? = some (some function) ↔ symbols.Holds id (.function function)
  size : functions.size = 1 + symbols.taken .functions

/-- The ledger has the entries of the tables under their numbers. -/
structure Tells (ledger : Ledger) (symbols : Symbols) : Prop where
  slots : TellsSlots ledger.slots symbols
  strings : TellsStrings ledger.strings ledger.places symbols
  functions : TellsFunctions ledger.functions symbols

-----------------------------------------------------------------------------------------
-- Maps and lists in step
-----------------------------------------------------------------------------------------

/-- A map to which a new key is added tells what is held behind, if it did before. -/
theorem found_insert {κ : Type} {number : κ → Nat} {map : Std.HashMap String κ} {key : String}
    {new : κ} (before after : Nat → String → Prop) (injective : Function.Injective number)
    (found : ∀ other entry, map[other]? = some entry ↔ before (number entry) other)
    (missing : map[key]? = none)
    (adds
      : ∀ place other, after place other ↔ before place other ∨ place = number new ∧ other = key)
    : ∀ other entry, (map.insert key new)[other]? = some entry ↔ after (number entry) other := by
  intro other entry
  rw [Std.HashMap.getElem?_insert, adds, ← found, injective.eq_iff]
  by_cases same : key = other
  · subst same
    simp [missing, eq_comm]
  · simp [same, Ne.symm same]

theorem size_insert_of_missing {κ : Type} {map : Std.HashMap String κ} {key : String} {new : κ}
    (missing : map[key]? = none)
    : (map.insert key new).size = map.size + 1 := by
  have absent : key ∉ map := by
    rw [Std.HashMap.mem_iff_isSome_getElem?, missing]
    exact nofun
  rw [Std.HashMap.size_insert, if_neg absent]

theorem missing_of_found {κ : Type} {number : κ → Nat} {map : Std.HashMap String κ} {key : String}
    {held : Nat → Prop} (found : ∀ entry, map[key]? = some entry ↔ held (number entry))
    (missing : ∀ place, ¬ held place)
    : map[key]? = none := by
  cases entry : map[key]? with
  | none => rfl
  | some place => exact absurd ((found place).mp entry) (missing _)

section

variable {symbols after : Symbols} {request : Request} (adds : symbols.Adds request after)

include adds

/-- A request adds to its own table only. -/
theorem holds_of_adds {number : Nat} (other : Request) (apart : other.table ≠ request.table)
    : after.Holds number other ↔ symbols.Holds number other := by
  have table : ∀ request : Request, request.entry.table = request.table := by
    intro request
    cases request <;> rfl
  have differs : other.entry ≠ request.entry := by
    intro same
    rw [← table other, same, table] at apart
    exact apart rfl
  simp [adds.holds, differs]

theorem taken_of_adds {table : Table} (apart : table ≠ request.table)
    : after.taken table = symbols.taken table := by
  rw [adds.taken, if_neg apart, Nat.add_zero]

theorem TellsSlots.beside {slots : Std.HashMap String UInt8} (tells : TellsSlots slots symbols)
    (apart : Table.globals ≠ request.table)
    : TellsSlots slots after where
  found name slot := (tells.found name slot).trans (holds_of_adds adds (.global name) apart).symm
  size := tells.size.trans (taken_of_adds adds apart).symm

theorem TellsStrings.beside {strings : Array String} {places : Std.HashMap String UInt16}
    (tells : TellsStrings strings places symbols) (apart : Table.strings ≠ request.table)
    : TellsStrings strings places after where
  entry text place := (tells.entry text place).trans (holds_of_adds adds (.string text) apart).symm
  size := tells.size.trans (taken_of_adds adds apart).symm
  found text place := (tells.found text place).trans (holds_of_adds adds (.string text) apart).symm

theorem TellsFunctions.beside {functions : Array (Option Function)}
    (tells : TellsFunctions functions symbols) (apart : Table.functions ≠ request.table)
    : TellsFunctions functions after where
  entry function id :=
    (tells.entry function id).trans (holds_of_adds adds (.function function) apart).symm
  size := by rw [tells.size, taken_of_adds adds apart]

end

-----------------------------------------------------------------------------------------
-- Requests to a ledger
-----------------------------------------------------------------------------------------

variable {ledger : Ledger} {symbols : Symbols}

theorem Tells.global (tells : ledger.Tells symbols) (formed : symbols.WellFormed) (name : String)
    : Attempt.Agrees Tells ledger (ledger.global name) (symbols.serve (.global name)) := by
  have answers := answers_serve formed (.global name)
  have size : ledger.slots.size + 1 = 1 + symbols.taken .globals := by
    rw [tells.slots.size, Nat.add_comm]
  have missing (needed : symbols.NeedsEntry (.global name)) : ledger.slots[name]? = none :=
    missing_of_found (tells.slots.found name) (needed trivial)
  generalize symbols.serve (.global name) = result at answers ⊢
  unfold Ledger.global
  cases answers with
  | @known number _ holds =>
      have small : number < 256 := by
        have bound : number < symbols.globals.size + 1 := (exists_global_iff.mp ⟨name, holds⟩).2
        have within := formed.globals
        omega
      have exact : (UInt8.ofNat number).toNat = number := UInt8.toNat_ofNat_of_lt small
      have found := (tells.slots.found name (UInt8.ofNat number)).mpr (exact.symm ▸ holds)
      simp only [found, exact]
      exact .done number tells
  | @entered after needed room adds =>
      have small : 1 + symbols.taken .globals < 256 := Nat.add_comm 1 _ ▸ Nat.succ_lt_succ room
      have exact : (UInt8.ofNat (1 + symbols.taken .globals)).toNat = 1 + symbols.taken .globals :=
        UInt8.toNat_ofNat_of_lt small
      simp only [missing needed, size, byte?, if_pos small, exact]
      have others : Table.strings ≠ .globals ∧ Table.functions ≠ .globals := by decide
      refine
        .done _
          ⟨⟨?_, ?_⟩, tells.strings.beside adds others.1, tells.functions.beside adds others.2⟩
      · refine
          found_insert (fun slot name => symbols.Holds slot (.global name))
            (fun slot name => after.Holds slot (.global name)) (fun _ _ => UInt8.toNat_inj.mp)
            tells.slots.found (missing needed) ?_
        intro place other
        rw [adds.holds, exact]
        simp [Request.table, Table.first]
      · rw [size_insert_of_missing (missing needed), tells.slots.size, adds.taken]
        rfl
  | refused needed full =>
      have large : ¬ 1 + symbols.taken .globals < 256 := by
        have full' : symbols.taken .globals = 255 := full
        omega
      simp only [missing needed, size, byte?, if_neg large]
      exact .failed _

theorem Tells.string (tells : ledger.Tells symbols) (formed : symbols.WellFormed) (text : String)
    : Attempt.Agrees Tells ledger (ledger.string text) (symbols.serve (.string text)) := by
  have answers := answers_serve formed (.string text)
  have size : ledger.strings.size = 0 + symbols.taken .strings := by
    rw [tells.strings.size, Nat.zero_add]
  have missing (needed : symbols.NeedsEntry (.string text)) : ledger.places[text]? = none :=
    missing_of_found (tells.strings.found text) (needed trivial)
  generalize symbols.serve (.string text) = result at answers ⊢
  unfold Ledger.string
  cases answers with
  | @known place _ holds =>
      have small : place < 65536 := by
        have bound : place < symbols.strings.entries.size :=
          (Array.getElem?_eq_some_iff.mp holds).1
        have within := formed.strings
        omega
      have exact : (UInt16.ofNat place).toNat = place := UInt16.toNat_ofNat_of_lt small
      have found := (tells.strings.found text (UInt16.ofNat place)).mpr (exact.symm ▸ holds)
      simp only [found, exact]
      exact .done place tells
  | @entered after needed room adds =>
      have small : 0 + symbols.taken .strings < 65536 := (Nat.zero_add _).symm ▸ room
      have exact
          : (UInt16.ofNat (0 + symbols.taken .strings)).toNat = 0 + symbols.taken .strings :=
        UInt16.toNat_ofNat_of_lt small
      have strings
          : ∀ place other,
              after.Holds place (.string other)
              ↔ symbols.Holds place (.string other)
                ∨ place = 0 + symbols.taken .strings ∧ other = text := by
        intro place other
        rw [adds.holds]
        simp [Request.table, Table.first]
      simp only [missing needed, size, word?, if_pos small, exact]
      have others : Table.globals ≠ .strings ∧ Table.functions ≠ .strings := by decide
      refine
        .done _
          ⟨tells.slots.beside adds others.1, ⟨?_, ?_, ?_⟩, tells.functions.beside adds others.2⟩
      · intro other place
        rw [getElem?_push_iff, tells.strings.entry, strings, size]
      · rw [Array.size_push, tells.strings.size, adds.taken]
        rfl
      · refine
          found_insert (fun place text => symbols.Holds place (.string text))
            (fun place text => after.Holds place (.string text)) (fun _ _ => UInt16.toNat_inj.mp)
            tells.strings.found (missing needed) ?_
        intro place other
        rw [strings, exact]
  | refused needed full =>
      have large : ¬ 0 + symbols.taken .strings < 65536 := by
        have full' : symbols.taken .strings = 65536 := full
        omega
      simp only [missing needed, size, word?, if_neg large]
      exact .failed _

theorem Tells.function (tells : ledger.Tells symbols) (formed : symbols.WellFormed)
    {request : Request} {function : Function} (asks : request.entry = .function function)
    : Attempt.Agrees Tells ledger (ledger.function function) (symbols.serve request) := by
  obtain ⟨table, each, refusal⟩ := Request.of_function asks
  have answers := answers_serve formed request
  generalize symbols.serve request = result at answers ⊢
  unfold Ledger.function
  cases answers with
  | known shared _ => exact absurd shared each
  | @entered after _ room adds =>
      rw [table] at room ⊢
      have small : 1 + symbols.taken .functions < 256 :=
        Nat.add_comm 1 _ ▸ Nat.succ_lt_succ room
      have exact
          : (UInt8.ofNat (1 + symbols.taken .functions)).toNat = 1 + symbols.taken .functions :=
        UInt8.toNat_ofNat_of_lt small
      simp only [tells.functions.size, byte?, if_pos small, exact]
      have others : Table.globals ≠ request.table ∧ Table.strings ≠ request.table := by
        rw [table]
        decide
      refine
        .done _
          ⟨tells.slots.beside adds others.1, tells.strings.beside adds others.2, ?_, ?_⟩
      · intro other id
        rw [getElem?_push_iff, tells.functions.entry, adds.holds, tells.functions.size, asks, table]
        simp [Table.first]
      · rw [Array.size_push, tells.functions.size, adds.taken, table]
        rfl
  | refused _ full =>
      rw [table] at full
      have large : ¬ 1 + symbols.taken .functions < 256 := by
        have full' : symbols.taken .functions = 255 := full
        omega
      simp only [tells.functions.size, byte?, if_neg large]
      rw [refusal]
      exact .failed _

/-- A ledger that tells the tables answers as they do. -/
theorem Tells.serve (tells : ledger.Tells symbols) (formed : symbols.WellFormed)
    (request : Request)
    : Attempt.Agrees Tells ledger (ledger.serve request) (symbols.serve request) := by
  cases request with
  | global name => exact tells.global formed name
  | string text => exact tells.string formed text
  | function function => exact tells.function formed rfl
  | body body arity => exact tells.function formed rfl

theorem Tells.after (tells : ledger.Tells symbols) (formed : symbols.WellFormed)
    (request : Request)
    : (ledger.after request).Tells (symbols.after request) :=
  (tells.serve formed request).behind tells

/-- Ledger and tables stay in step, by induction on the requests. -/
theorem Tells.afterAll (tells : ledger.Tells symbols) (formed : symbols.WellFormed)
    (requests : List Request)
    : (ledger.afterAll requests).Tells (symbols.afterAll requests) := by
  induction requests generalizing ledger symbols with
  | nil => exact tells
  | cons request requests ih =>
      exact ih (tells.after formed request) (formed.grows (grows_after symbols request))

theorem initial_slots
    : initial.slots = ((∅ : Std.HashMap String UInt8).insert "$emit" 1).insert "$typeof" 2 :=
  rfl

/-- The globals before anything is asked for are the reserved ones. -/
theorem holds_initial_global {slot : Nat} {name : String}
    : Symbols.initial.Holds slot (.global name)
      ↔ slot = 1 ∧ name = "$emit" ∨ slot = 2 ∧ name = "$typeof" := by
  constructor
  · rintro ⟨positive, held⟩
    match slot, positive with
    | 1, _ => exact .inl ⟨rfl, (Option.some.inj held).symm⟩
    | 2, _ => exact .inr ⟨rfl, (Option.some.inj held).symm⟩
    | _ + 3, _ => cases held
  · rintro (⟨rfl, rfl⟩ | ⟨rfl, rfl⟩)
    · exact ⟨Nat.one_pos, rfl⟩
    · exact ⟨Nat.two_pos, rfl⟩

theorem tells_initial : initial.Tells Symbols.initial := by
  have emit : (∅ : Std.HashMap String UInt8)["$emit"]? = none := Std.HashMap.getElem?_empty
  have typeof : ((∅ : Std.HashMap String UInt8).insert "$emit" 1)["$typeof"]? = none := by
    rw [Std.HashMap.getElem?_insert, if_neg (by decide)]
    exact Std.HashMap.getElem?_empty
  refine ⟨⟨?_, ?_⟩, ⟨?_, rfl, ?_⟩, ?_, rfl⟩
  · rw [initial_slots]
    refine
      found_insert (fun slot name => slot = 1 ∧ name = "$emit")
        (fun slot name => Symbols.initial.Holds slot (.global name))
        (fun _ _ => UInt8.toNat_inj.mp) ?_ typeof (fun slot name => holds_initial_global)
    refine
      found_insert (fun _ _ => False) (fun slot name => slot = 1 ∧ name = "$emit")
        (fun _ _ => UInt8.toNat_inj.mp) ?_ emit (fun slot name => (false_or _).symm.to_iff)
    simp
  · rw [initial_slots, size_insert_of_missing typeof, size_insert_of_missing emit]
    rfl
  · intro text place
    simp [initial, Symbols.initial, Holds, StringTable.empty]
  · intro text place
    simp [initial, Symbols.initial, Holds, StringTable.empty]
  · intro function id
    constructor
    · intro found
      cases id <;> cases found
    · rintro ⟨-, found⟩
      cases found

end Ledger

-----------------------------------------------------------------------------------------
-- The tables behind requests
-----------------------------------------------------------------------------------------

/-- What the tables and the ledger behind requests are like. Failed requests count. -/
structure Orderly (requests : List Request) (symbols : Symbols) (ledger : Ledger) : Prop where
  /-- The slots in use are those from one up to the count. -/
  slots
    : ∀ slot,
        (∃ name, symbols.Holds slot (.global name)) ↔ 1 ≤ slot ∧ slot < symbols.globalCount
  /-- The reserved globals have the first two. -/
  reserved : symbols.Holds 1 (.global "$emit") ∧ symbols.Holds 2 (.global "$typeof")
  /-- A slot has one name. -/
  name_unique
    : ∀ slot name other,
        symbols.Holds slot (.global name) → symbols.Holds slot (.global other) → name = other
  /-- A name has one slot, and a string one place. -/
  number_unique
    : ∀ (request : Request) number other,
        request.Shared → symbols.Holds number request → symbols.Holds other request
        → number = other
  /-- The next request is answered by the entry there is, a new one behind the others, or a
  refusal.
  -/
  answers : ∀ request, symbols.Answers request (symbols.serve request)
  /-- Known names and strings are answered with their number, and nothing changes. -/
  known
    : ∀ (request : Request) number,
        request.Shared → symbols.Holds number request
        → symbols.serve request = .ok (number, symbols)
  /-- A request fails just if it needs an entry and its table is full. -/
  refuses
    : ∀ (request : Request) error,
        symbols.serve request = .error error
        ↔ symbols.NeedsEntry request
          ∧ symbols.taken request.table = request.table.capacity
          ∧ error = request.refusal
  /-- Whatever was answered to one of the requests is held still. -/
  given
    : ∀ front request back number after,
        requests = front ++ request :: back
        → (initial.afterAll front).serve request = .ok (number, after)
        → symbols.Holds number request
  /-- Whatever is held stays under its number. -/
  stays
    : ∀ request number more,
        symbols.Holds number request → (symbols.afterAll more).Holds number request
  /-- The maps and lists of the ledger are in step with the tables. -/
  tells : ledger.Tells symbols
  /-- The ledger answers as the tables do, and a request that fails leaves it as it was. -/
  agrees
    : ∀ request,
        Attempt.Agrees Ledger.Tells ledger (ledger.serve request) (symbols.serve request)

/-- A number that was once given stays with what it was given for. -/
theorem holds_of_given {symbols after : Symbols} {request : Request} {number : Nat}
    (formed : symbols.WellFormed) (served : symbols.serve request = .ok (number, after))
    (more : List Request)
    : (symbols.afterAll (request :: more)).Holds number request := by
  have behind : symbols.after request = after := by
    rw [Symbols.after, served]
    rfl
  have held : (symbols.after request).Holds number request :=
    behind.symm ▸ holds_of_serve formed served
  exact held.mono (grows_afterAll _ more).begins

/-- The tables are orderly behind all requests, in any order and whether or not they fail. -/
theorem orderly_afterAll (requests : List Request)
    : Orderly requests (initial.afterAll requests) (Ledger.initial.afterAll requests) := by
  have grows := grows_afterAll initial requests
  have formed : (initial.afterAll requests).WellFormed := WellFormed.initial.grows grows
  have tells := Ledger.tells_initial.afterAll WellFormed.initial requests
  have first := Ledger.holds_initial_global.mpr (.inl ⟨rfl, rfl⟩)
  have second := Ledger.holds_initial_global.mpr (.inr ⟨rfl, rfl⟩)
  exact
    { slots := fun slot => exists_global_iff
      reserved := ⟨first.mono grows.begins, second.mono grows.begins⟩
      name_unique := fun slot name other holds again => holds.global_unique again
      number_unique := fun request number other shared holds again =>
        holds.unique formed shared again
      answers := answers_serve formed
      known := fun request number shared holds => holds.serve formed shared
      refuses := fun request error => serve_eq_error_iff formed
      given := by
        rintro front request back number after rfl served
        rw [afterAll_append]
        exact holds_of_given (WellFormed.initial.grows (grows_afterAll initial front)) served back
      stays := fun request number more holds =>
        holds.mono (grows_afterAll _ more).begins
      tells := tells
      agrees := tells.serve formed }

end StackScript.Symbols
