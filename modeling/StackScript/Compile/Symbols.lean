import Std.Data.HashMap
import StackScript.Bytecode.Program
import StackScript.Compile.Error

/-! The tables that all code of a program shares: the globals, the functions and the strings.
They only grow, and what was once entered keeps its place.
-/

namespace StackScript

/-- Distinct strings in the order in which they were entered, with an index from each to its
place.
-/
structure StringTable where
  entries : Array String
  index : Std.HashMap String Nat
  /-- The index holds the place of every entry and nothing else. -/
  index_iff : ∀ (text : String) (place : Nat),
    index[text]? = some place ↔ entries[place]? = some text

namespace StringTable

def empty : StringTable where
  entries := #[]
  index := ∅
  index_iff := by simp

/-- The index of a table to which a string is added that was not in it. -/
theorem index_iff_push (table : StringTable) {text : String}
    (new : table.index[text]? = none) (other : String) (place : Nat)
    : (table.index.insert text table.entries.size)[other]? = some place
      ↔ (table.entries.push text)[place]? = some other := by
  rw [Std.HashMap.getElem?_insert, Array.getElem?_push]
  by_cases same : text = other
  · subst same
    by_cases last : place = table.entries.size
    · simp [last]
    · have absent : ¬ table.entries[place]? = some text := by
        rw [← table.index_iff text place, new]
        simp
      simpa [last, absent] using fun h => last h.symm
  · by_cases last : place = table.entries.size
    · subst last
      have absent : ¬ table.index[other]? = some table.entries.size := by
        rw [table.index_iff]
        simp
      simp [same, absent]
    · simp [same, last, table.index_iff]

/-- Enters a string that is not in the table. -/
def push (table : StringTable) (text : String) (new : table.index[text]? = none)
    : StringTable :=
  let place := table.entries.size
  { entries := table.entries.push text
    index := table.index.insert text place
    index_iff := table.index_iff_push new }

end StringTable

/-- The tables of a program that is being compiled. -/
structure Symbols where
  /-- The names of the globals in the order of their slots, from slot one. -/
  globals : Array String
  /-- The functions in the order of their numbers, from number one. -/
  functions : Array Function
  strings : StringTable

namespace Symbols

/-- The tables before anything is compiled. -/
def initial : Symbols where
  globals := reservedGlobals.toArray
  functions := #[]
  strings := .empty

/-- The number of slots for globals. Slot zero is never used. -/
def globalCount (symbols : Symbols) : Nat :=
  symbols.globals.size + 1

/-- The slot of a global, which is entered at its first mention, so that a program can speak
of globals before it defines them.
-/
def global (symbols : Symbols) (name : String) : Except CompileError (UInt8 × Symbols) :=
  match symbols.globals.idxOf? name with
  | some place => .ok (UInt8.ofNat (place + 1), symbols)
  | none =>
      if symbols.globals.size < 255 then
        .ok (UInt8.ofNat (symbols.globals.size + 1),
          { symbols with globals := symbols.globals.push name })
      else .error (.tooManyGlobals name)

/-- Enters a function and gives its number. -/
def addFunction (symbols : Symbols) (function : Function)
    : Except CompileError (UInt8 × Symbols) :=
  if symbols.functions.size < 255 then
    .ok (UInt8.ofNat (symbols.functions.size + 1),
      { symbols with functions := symbols.functions.push function })
  else .error .tooManyFunctions

/-- The place of a string, which is entered at its first mention. -/
def intern (symbols : Symbols) (text : String) : Except CompileError (UInt16 × Symbols) :=
  match known : symbols.strings.index[text]? with
  | some place => .ok (UInt16.ofNat place, symbols)
  | none =>
      if symbols.strings.entries.size < 65536 then
        .ok (UInt16.ofNat symbols.strings.entries.size,
          { symbols with strings := symbols.strings.push text known })
      else .error .tooManyStrings

end Symbols

end StackScript
