import StackScript.Compile.Body
import StackScript.Proofs.Compile.Attempts
import StackScript.Proofs.Compile.References

/-! Requests to the tables of a program. All bodies under construction share the tables, and ask
them for the number of a global, a string or a function in any order. Names and strings are entered
once, functions each time; an entry keeps its number, and a request fails just if it needs an entry
in a table that is full.
-/

namespace StackScript.Symbols

-----------------------------------------------------------------------------------------
-- Requests
-----------------------------------------------------------------------------------------

/-- What code under construction asks of the tables. The end of a body enters it as a function,
whatever the function in which it stands.
-/
inductive Request
  | global (name : String)
  | string (text : String)
  | function (function : Function)
  | body (body : Body) (arity : UInt8)

/-- The tables of a program. -/
inductive Table
  | globals
  | strings
  | functions
deriving DecidableEq

namespace Table

/-- The number of entries for which a table has room. -/
def capacity : Table → Nat
  | .globals => 255
  | .strings => 65536
  | .functions => 255

/-- The number of the first entry of a table. Slot zero is never used, and function zero is the
main code.
-/
def first : Table → Nat
  | .globals => 1
  | .strings => 0
  | .functions => 1

end Table

/-- The number of entries in a table. -/
def taken (symbols : Symbols) : Table → Nat
  | .globals => symbols.globals.size
  | .strings => symbols.strings.entries.size
  | .functions => symbols.functions.size

namespace Request

/-- The table that a request is about. -/
def table : Request → Table
  | .global _ => .globals
  | .string _ => .strings
  | .function _ => .functions
  | .body _ _ => .functions

/-- Equal names and equal strings share an entry. Functions do not. -/
def Shared : Request → Prop
  | .global _ => True
  | .string _ => True
  | .function _ => False
  | .body _ _ => False

/-- The error of a request for which there is no room. -/
def refusal : Request → CompileError
  | .global name => .tooManyGlobals name
  | .string _ => .tooManyStrings
  | .function _ => .tooManyFunctions
  | .body _ _ => .tooManyFunctions

end Request

/-- The number that answers a request, and the tables behind it. -/
def serve (symbols : Symbols) : Request → Except CompileError (Nat × Symbols)
  | .global name => (symbols.global name).map fun (slot, after) => (slot.toNat, after)
  | .string text => (symbols.intern text).map fun (place, after) => (place.toNat, after)
  | .function function => (symbols.addFunction function).map fun (id, after) => (id.toNat, after)
  | .body body arity => (body.toFunction arity symbols).map fun (id, after) => (id.toNat, after)

/-- The tables behind a request, which are those before it if it fails. -/
def after (symbols : Symbols) (request : Request) : Symbols :=
  Attempt.behind symbols (symbols.serve request)

/-- The tables behind requests. -/
def afterAll (symbols : Symbols) (requests : List Request) : Symbols :=
  requests.foldl after symbols

/-- What is asked for is in its table, under the given number. -/
def Holds (symbols : Symbols) (number : Nat) : Request → Prop
  | .global name => 0 < number ∧ symbols.globals[number - 1]? = some name
  | .string text => symbols.strings.entries[number]? = some text
  | .function function => 0 < number ∧ symbols.functions[number - 1]? = some function
  | .body body arity => 0 < number ∧ symbols.functions[number - 1]? = some ⟨arity, body.code⟩

/-- A request needs an entry of its own: what it asks for is not shared, or not there yet. -/
def NeedsEntry (symbols : Symbols) (request : Request) : Prop :=
  request.Shared → ∀ number, ¬ symbols.Holds number request

-----------------------------------------------------------------------------------------
-- Growth
-----------------------------------------------------------------------------------------

theorem enters_of_serve {symbols after : Symbols} {request : Request} {number : Nat}
    (served : symbols.serve request = .ok (number, after))
    : symbols.Enters after := by
  cases request <;> obtain ⟨⟨_, _⟩, entered, same⟩ := map_eq_ok.mp served <;> cases same
  · exact .global entered
  · exact .string entered
  · exact .function entered
  · exact .function entered

theorem grows_after (symbols : Symbols) (request : Request)
    : symbols.Grows (symbols.after request) := by
  unfold after
  cases served : symbols.serve request with
  | ok answer => exact .single (enters_of_serve served)
  | error error => exact .refl

/-- Requests only make the tables grow, by induction on the requests. -/
theorem grows_afterAll (symbols : Symbols) (requests : List Request)
    : symbols.Grows (symbols.afterAll requests) := by
  induction requests generalizing symbols with
  | nil => exact .refl
  | cons request requests ih => exact (grows_after symbols request).trans (ih _)

theorem afterAll_append (symbols : Symbols) (requests more : List Request)
    : symbols.afterAll (requests ++ more) = (symbols.afterAll requests).afterAll more :=
  List.foldl_append

/-- Entries keep their numbers while the tables grow. -/
theorem Holds.mono {before after : Symbols} {number : Nat} {request : Request}
    (holds : before.Holds number request) (begins : before.Begins after)
    : after.Holds number request := by
  cases request with
  | global name => exact ⟨holds.1, begins.global_at holds.2⟩
  | string text => exact begins.string_at holds
  | function function => exact ⟨holds.1, begins.function_at holds.2⟩
  | body body arity => exact ⟨holds.1, begins.function_at holds.2⟩

-----------------------------------------------------------------------------------------
-- Answers
-----------------------------------------------------------------------------------------

/-- What is entered for a request. The code of a body is all that is left of it. -/
def Request.entry : Request → Request
  | .body inner arity => .function ⟨arity, inner.code⟩
  | request => request

@[simp] theorem Request.entry_global (name : String)
    : (Request.global name).entry = .global name :=
  rfl

@[simp] theorem Request.entry_string (text : String)
    : (Request.string text).entry = .string text :=
  rfl

@[simp] theorem Request.entry_function (function : Function)
    : (Request.function function).entry = .function function :=
  rfl

@[simp] theorem Request.entry_body (inner : Body) (arity : UInt8)
    : (Request.body inner arity).entry = .function ⟨arity, inner.code⟩ :=
  rfl

/-- The tables behind hold what those before do, and under the next number what was asked for. -/
structure Adds (before : Symbols) (request : Request) (after : Symbols) : Prop where
  holds
    : ∀ number other,
        after.Holds number other
        ↔ before.Holds number other
          ∨ number = request.table.first + before.taken request.table
            ∧ other.entry = request.entry
  taken
    : ∀ table,
        after.taken table = before.taken table + if table = request.table then 1 else 0

/-- What a request can come to: the entry that is there, a new one, or a refusal. -/
inductive Answers (symbols : Symbols) (request : Request)
    : Except CompileError (Nat × Symbols) → Prop
  | known {number : Nat} (shared : request.Shared) (holds : symbols.Holds number request)
    : Answers symbols request (.ok (number, symbols))
  | entered {after : Symbols} (needed : symbols.NeedsEntry request)
    (room : symbols.taken request.table < request.table.capacity)
    (adds : symbols.Adds request after)
    : Answers symbols request
        (.ok (request.table.first + symbols.taken request.table, after))
  | refused (needed : symbols.NeedsEntry request)
    (full : symbols.taken request.table = request.table.capacity)
    : Answers symbols request (.error request.refusal)

theorem getElem?_push_iff {α : Type} {entries : Array α} {place : Nat} {entry new : α}
    : (entries.push new)[place]? = some entry
      ↔ entries[place]? = some entry ∨ place = entries.size ∧ entry = new := by
  rw [Array.getElem?_push]
  split
  · rename_i last
    simp [last, eq_comm]
  · rename_i earlier
    simp [earlier]

/-- Where entries are numbered from one, a new one has the number behind those that there are. -/
theorem counted_push_iff {α : Type} {entries : Array α} {number : Nat} {entry new : α}
    : 0 < number ∧ (entries.push new)[number - 1]? = some entry
      ↔ 0 < number ∧ entries[number - 1]? = some entry
        ∨ number = 1 + entries.size ∧ entry = new := by
  rw [getElem?_push_iff]
  constructor
  · rintro ⟨positive, old | ⟨last, rfl⟩⟩
    · exact .inl ⟨positive, old⟩
    · exact .inr ⟨by omega, rfl⟩
  · rintro (⟨positive, old⟩ | ⟨rfl, rfl⟩)
    · exact ⟨positive, .inl old⟩
    · exact ⟨by omega, .inr ⟨by omega, rfl⟩⟩

theorem toNat_ofNat_succ {size : Nat} (room : size < 255)
    : (UInt8.ofNat (size + 1)).toNat = 1 + size := by
  have fits : size + 1 < 256 := by omega
  exact (UInt8.toNat_ofNat_of_lt fits).trans (Nat.add_comm size 1)

theorem global_answers {symbols : Symbols} (formed : symbols.WellFormed) (name : String)
    : symbols.Answers (.global name) (symbols.serve (.global name)) := by
  have within : symbols.globals.size ≤ 255 := formed.globals
  rw [serve, global]
  split
  · rename_i place found
    have held := getElem?_of_idxOf? found
    have inside := (Array.getElem?_eq_some_iff.mp held).1
    have exact : (UInt8.ofNat (place + 1)).toNat = place + 1 :=
      UInt8.toNat_ofNat_of_lt (show place + 1 < 256 by omega)
    have holds : symbols.Holds (place + 1) (.global name) := ⟨Nat.succ_pos place, held⟩
    simp only [Except.map, exact]
    exact .known trivial holds
  · rename_i missing
    have needed : symbols.NeedsEntry (.global name) := by
      rintro - number ⟨-, held⟩
      exact Array.idxOf?_eq_none_iff.mp missing (Array.mem_of_getElem? held)
    split
    · rename_i room
      simp only [Except.map, toNat_ofNat_succ room]
      refine .entered needed room ⟨?_, ?_⟩
      · intro number other
        cases other with
        | global other =>
            simp only [Request.entry_global, Request.global.injEq]
            exact counted_push_iff
        | _ => simp [Holds]
      · intro table
        cases table <;> simp [taken, Request.table]
    · rename_i full
      exact .refused needed (show symbols.globals.size = 255 by omega)

theorem string_answers {symbols : Symbols} (formed : symbols.WellFormed) (text : String)
    : symbols.Answers (.string text) (symbols.serve (.string text)) := by
  have within : symbols.strings.entries.size ≤ 65536 := formed.strings
  rw [serve, intern]
  split
  · rename_i place found
    have holds : symbols.Holds place (.string text) :=
      (symbols.strings.index_iff text place).mp found
    have inside := (Array.getElem?_eq_some_iff.mp holds).1
    have exact : (UInt16.ofNat place).toNat = place :=
      UInt16.toNat_ofNat_of_lt (show place < 65536 by omega)
    simp only [Except.map, exact]
    exact .known trivial holds
  · rename_i missing
    have needed : symbols.NeedsEntry (.string text) := by
      rintro - number held
      have found := (symbols.strings.index_iff text number).mpr held
      rw [missing] at found
      cases found
    split
    · rename_i room
      have exact : (UInt16.ofNat symbols.strings.entries.size).toNat
          = 0 + symbols.strings.entries.size := by
        rw [Nat.zero_add]
        exact UInt16.toNat_ofNat_of_lt room
      simp only [Except.map, exact]
      refine .entered needed room ⟨?_, ?_⟩
      · intro number other
        cases other with
        | string other =>
            simp only [Request.entry_string, Request.string.injEq, Request.table, Table.first,
              Nat.zero_add]
            exact getElem?_push_iff
        | _ => simp [Holds]
      · intro table
        cases table <;> simp [taken, Request.table, StringTable.push]
    · rename_i full
      exact .refused needed (show symbols.strings.entries.size = 65536 by omega)

/-- What is entered for a request tells what kind of request it is. -/
theorem Request.of_function {request : Request} {function : Function}
    (asks : request.entry = .function function)
    : request.table = .functions ∧ ¬ request.Shared ∧ request.refusal = .tooManyFunctions := by
  cases request <;> cases asks <;> exact ⟨rfl, id, rfl⟩

theorem function_answers {symbols : Symbols} (formed : symbols.WellFormed) {request : Request}
    {function : Function} (asks : request.entry = .function function)
    : symbols.Answers request
        ((symbols.addFunction function).map fun (id, after) => (id.toNat, after)) := by
  obtain ⟨table, each, refusal⟩ := Request.of_function asks
  have within : symbols.functions.size ≤ 255 := formed.functions
  have needed : symbols.NeedsEntry request := fun shared => absurd shared each
  unfold addFunction
  split
  · rename_i room
    have adds
        : symbols.Adds request { symbols with functions := symbols.functions.push function } := by
      constructor
      · intro number other
        cases other with
        | function other =>
            simp only [asks, table, Request.entry_function, Request.function.injEq]
            exact counted_push_iff
        | body inner arity =>
            simp only [asks, table, Request.entry_body, Request.function.injEq]
            exact counted_push_iff
        | _ => simp [Holds, asks]
      · intro other
        cases other <;> simp [taken, table]
    have entered := Answers.entered needed (table ▸ room) adds
    rw [table] at entered
    simp only [Except.map, toNat_ofNat_succ room]
    exact entered
  · rename_i full
    have spent : symbols.taken .functions = Table.functions.capacity :=
      show symbols.functions.size = 255 by omega
    have refused := Answers.refused needed (table ▸ spent)
    rw [refusal] at refused
    exact refused

/-- Every request is answered, by the entry that is there, by a new one, or with a refusal. -/
theorem answers_serve {symbols : Symbols} (formed : symbols.WellFormed) (request : Request)
    : symbols.Answers request (symbols.serve request) := by
  cases request with
  | global name => exact global_answers formed name
  | string text => exact string_answers formed text
  | function function => exact function_answers formed rfl
  | body inner arity => exact function_answers formed rfl

/-- An answer is the number under which the tables behind hold what was asked for. -/
theorem holds_of_serve {symbols after : Symbols} {request : Request} {number : Nat}
    (formed : symbols.WellFormed) (served : symbols.serve request = .ok (number, after))
    : after.Holds number request := by
  have answers := answers_serve formed request
  rw [served] at answers
  cases answers with
  | known _ holds => exact holds
  | entered _ _ adds => exact (adds.holds _ request).mpr (.inr ⟨rfl, rfl⟩)

/-- A request fails just if it needs an entry and its table is full. -/
theorem serve_eq_error_iff {symbols : Symbols} (formed : symbols.WellFormed) {request : Request}
    {error : CompileError}
    : symbols.serve request = .error error
      ↔ symbols.NeedsEntry request
        ∧ symbols.taken request.table = request.table.capacity
        ∧ error = request.refusal := by
  have answers := answers_serve formed request
  generalize symbols.serve request = result at answers ⊢
  cases answers with
  | known shared holds =>
      refine iff_of_false nofun ?_
      rintro ⟨needed, -⟩
      exact needed shared _ holds
  | entered _ room _ =>
      refine iff_of_false nofun ?_
      rintro ⟨-, full, -⟩
      exact Nat.ne_of_lt room full
  | refused needed full =>
      constructor
      · rintro ⟨⟩
        exact ⟨needed, full, rfl⟩
      · rintro ⟨-, -, rfl⟩
        rfl

-----------------------------------------------------------------------------------------
-- Numbers
-----------------------------------------------------------------------------------------

/-- What is shared has one number only. -/
theorem Holds.unique {symbols : Symbols} {request : Request} {number other : Nat}
    (holds : symbols.Holds number request) (formed : symbols.WellFormed)
    (shared : request.Shared) (again : symbols.Holds other request)
    : number = other := by
  cases request with
  | global name =>
      have same := holds.2.trans again.2.symm
      rw [← Array.getElem?_toList, ← Array.getElem?_toList] at same
      have inside : number - 1 < symbols.globals.toList.length :=
        (Array.getElem?_eq_some_iff.mp holds.2).1
      have places := (List.getElem?_inj inside formed.distinct).mp same
      have positive := holds.1
      have positive' := again.1
      omega
  | string text =>
      have found := (symbols.strings.index_iff text number).mpr holds
      have found' := (symbols.strings.index_iff text other).mpr again
      exact Option.some.inj (found.symm.trans found')
  | function _ => exact shared.elim
  | body _ _ => exact shared.elim

/-- What is shared and known is answered with its number, and nothing changes. -/
theorem Holds.serve {symbols : Symbols} {request : Request} {number : Nat}
    (holds : symbols.Holds number request) (formed : symbols.WellFormed)
    (shared : request.Shared)
    : symbols.serve request = .ok (number, symbols) := by
  have answers := answers_serve formed request
  generalize symbols.serve request = result at answers ⊢
  cases answers with
  | known _ found => rw [found.unique formed shared holds]
  | entered needed _ _ => exact absurd holds (needed shared number)
  | refused needed _ => exact absurd holds (needed shared number)

/-- A slot belongs to one global only. -/
theorem Holds.global_unique {symbols : Symbols} {slot : Nat} {name other : String}
    (holds : symbols.Holds slot (.global name)) (again : symbols.Holds slot (.global other))
    : name = other :=
  Option.some.inj (holds.2.symm.trans again.2)

/-- The slots of globals are the numbers from one up to their count. -/
theorem exists_global_iff {symbols : Symbols} {slot : Nat}
    : (∃ name, symbols.Holds slot (.global name)) ↔ 1 ≤ slot ∧ slot < symbols.globalCount := by
  constructor
  · rintro ⟨name, positive, found⟩
    have inside := (Array.getElem?_eq_some_iff.mp found).1
    exact ⟨positive, show slot < symbols.globals.size + 1 by omega⟩
  · rintro ⟨positive, within⟩
    have inside : slot - 1 < symbols.globals.size := by
      have : slot < symbols.globals.size + 1 := within
      omega
    exact ⟨symbols.globals[slot - 1], positive, Array.getElem?_eq_getElem inside⟩

end StackScript.Symbols
