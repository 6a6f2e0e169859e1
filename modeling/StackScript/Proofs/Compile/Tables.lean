import Mathlib.Logic.Relation
import StackScript.Proofs.Compile.Generation

/-! The tables that grow while code is generated. A global, a function or a string is entered
at a time; entries are only added behind those that are there, so that whatever was a valid
reference stays one.
-/

namespace StackScript

namespace Symbols

-----------------------------------------------------------------------------------------
-- Entries
-----------------------------------------------------------------------------------------

/-- The sizes of the tables fit their limits, and no global has two slots. -/
structure WellFormed (symbols : Symbols) : Prop where
  globals : symbols.globals.size ≤ 255
  distinct : symbols.globals.toList.Nodup
  functions : symbols.functions.size ≤ 255
  strings : symbols.strings.entries.size ≤ 65536

theorem WellFormed.initial : initial.WellFormed where
  globals := by decide
  distinct := by decide
  functions := by decide
  strings := by decide

/-- A table has entered something, or had it already. -/
inductive Enters (before after : Symbols) : Prop
  | global {name : String} {slot : UInt8} (entered : before.global name = .ok (slot, after))
  | function {function : Function} {id : UInt8}
    (entered : before.addFunction function = .ok (id, after))
  | string {text : String} {place : UInt16} (entered : before.intern text = .ok (place, after))

/-- The tables have grown by any number of entries. -/
abbrev Grows : Symbols → Symbols → Prop :=
  Relation.ReflTransGen Enters

theorem getElem?_of_idxOf? {entries : Array String} {entry : String} {place : Nat}
    (found : entries.idxOf? entry = some place)
    : entries[place]? = some entry := by
  rcases entries with ⟨entries⟩
  rw [List.idxOf?_toArray] at found
  obtain ⟨inside, same, -⟩ := List.idxOf?_eq_some_iff.mp found
  rw [List.getElem?_toArray, List.getElem?_eq_getElem inside, same]

/-- A slot for a global is that of its name, which is in the table behind. -/
theorem global_eq_ok {symbols after : Symbols} {name : String} {slot : UInt8}
    (entered : symbols.global name = .ok (slot, after))
    : (∃ place,
        symbols.globals.idxOf? name = some place
        ∧ slot = UInt8.ofNat (place + 1)
        ∧ after = symbols)
      ∨ (name ∉ symbols.globals
        ∧ symbols.globals.size < 255
        ∧ slot = UInt8.ofNat (symbols.globals.size + 1)
        ∧ after = { symbols with globals := symbols.globals.push name }) := by
  unfold global at entered
  split at entered
  · rename_i place found
    obtain ⟨rfl, rfl⟩ := Prod.mk.inj (Except.ok.inj entered)
    exact .inl ⟨place, found, rfl, rfl⟩
  · rename_i missing
    split at entered
    · rename_i room
      obtain ⟨rfl, rfl⟩ := Prod.mk.inj (Except.ok.inj entered)
      exact .inr ⟨Array.idxOf?_eq_none_iff.mp missing, room, rfl, rfl⟩
    · cases entered

theorem addFunction_eq_ok {symbols after : Symbols} {function : Function} {id : UInt8}
    (entered : symbols.addFunction function = .ok (id, after))
    : symbols.functions.size < 255
      ∧ id = UInt8.ofNat (symbols.functions.size + 1)
      ∧ after = { symbols with functions := symbols.functions.push function } := by
  unfold addFunction at entered
  split at entered
  · rename_i room
    obtain ⟨rfl, rfl⟩ := Prod.mk.inj (Except.ok.inj entered)
    exact ⟨room, rfl, rfl⟩
  · cases entered

/-- The place of a string is one at which the table behind has it. -/
theorem intern_eq_ok {symbols after : Symbols} {text : String} {place : UInt16}
    (entered : symbols.intern text = .ok (place, after))
    : ∃ index,
        place = UInt16.ofNat index
        ∧ after.strings.entries[index]? = some text
        ∧ ((after = symbols)
          ∨ (symbols.strings.entries.size < 65536
            ∧ after.globals = symbols.globals
            ∧ after.functions = symbols.functions
            ∧ after.strings.entries = symbols.strings.entries.push text)) := by
  unfold intern at entered
  split at entered
  · rename_i index known
    obtain ⟨rfl, rfl⟩ := Prod.mk.inj (Except.ok.inj entered)
    exact ⟨index, rfl, (symbols.strings.index_iff text index).mp known, .inl rfl⟩
  · rename_i new
    split at entered
    · rename_i room
      obtain ⟨rfl, rfl⟩ := Prod.mk.inj (Except.ok.inj entered)
      exact ⟨_, rfl, Array.getElem?_push_size, .inr ⟨room, rfl, rfl, rfl⟩⟩
    · cases entered

/-- Every entry is made within the limits of its table. -/
theorem WellFormed.enters {before after : Symbols} (formed : before.WellFormed)
    (entered : Enters before after)
    : after.WellFormed := by
  obtain ⟨globals, distinct, functions, strings⟩ := formed
  cases entered with
  | @global name _ entered =>
      rcases global_eq_ok entered with ⟨_, -, -, rfl⟩ | ⟨new, room, -, rfl⟩
      · exact ⟨globals, distinct, functions, strings⟩
      · refine ⟨?_, ?_, functions, strings⟩
        · rw [Array.size_push]
          exact room
        · have apart : ∀ other ∈ before.globals, other ≠ name := by
            rintro other member rfl
            exact new member
          simpa [List.nodup_append] using ⟨distinct, apart⟩
  | function entered =>
      obtain ⟨room, -, rfl⟩ := addFunction_eq_ok entered
      refine ⟨globals, distinct, ?_, strings⟩
      rw [Array.size_push]
      exact room
  | string entered =>
      obtain ⟨_, -, -, rfl | ⟨room, globals', functions', entries⟩⟩ := intern_eq_ok entered
      · exact ⟨globals, distinct, functions, strings⟩
      · refine ⟨globals' ▸ globals, globals' ▸ distinct, functions' ▸ functions, ?_⟩
        rw [entries, Array.size_push]
        exact room

theorem WellFormed.grows {before after : Symbols} (formed : before.WellFormed)
    (grown : Grows before after)
    : after.WellFormed := by
  induction grown with
  | refl => exact formed
  | tail _ entered ih => exact ih.enters entered

-----------------------------------------------------------------------------------------
-- What was entered keeps its place
-----------------------------------------------------------------------------------------

/-- The tables of one are the first entries of those of the other. -/
structure Begins (before after : Symbols) : Prop where
  globals : before.globals.toList <+: after.globals.toList
  functions : before.functions.toList <+: after.functions.toList
  strings : before.strings.entries.toList <+: after.strings.entries.toList

theorem Begins.refl (symbols : Symbols) : Begins symbols symbols :=
  ⟨List.prefix_rfl, List.prefix_rfl, List.prefix_rfl⟩

theorem Begins.trans {first second third : Symbols} (front : Begins first second)
    (back : Begins second third)
    : Begins first third :=
  ⟨front.globals.trans back.globals, front.functions.trans back.functions,
    front.strings.trans back.strings⟩

theorem Enters.begins {before after : Symbols} (entered : Enters before after)
    : Begins before after := by
  cases entered with
  | global entered =>
      rcases global_eq_ok entered with ⟨_, -, -, rfl⟩ | ⟨-, -, -, rfl⟩
      · exact .refl after
      · exact ⟨by simp, List.prefix_rfl, List.prefix_rfl⟩
  | function entered =>
      obtain ⟨-, -, rfl⟩ := addFunction_eq_ok entered
      exact ⟨List.prefix_rfl, by simp, List.prefix_rfl⟩
  | string entered =>
      obtain ⟨_, -, -, rfl | ⟨-, globals, functions, entries⟩⟩ := intern_eq_ok entered
      · exact .refl after
      · exact ⟨by simp [globals], by simp [functions], by simp [entries]⟩

theorem Grows.begins {before after : Symbols} (grown : Grows before after)
    : Begins before after := by
  induction grown with
  | refl => exact .refl before
  | tail _ entered ih => exact ih.trans entered.begins

theorem getElem?_of_prefix {α : Type} {front whole : Array α} {place : Nat} {entry : α}
    (begins : front.toList <+: whole.toList) (found : front[place]? = some entry)
    : whole[place]? = some entry := by
  obtain ⟨more, same⟩ := begins
  rw [← Array.getElem?_toList] at found ⊢
  rw [← same, List.getElem?_append_left (List.getElem?_eq_some_iff.mp found).1]
  exact found

namespace Begins

variable {before after : Symbols} (begins : Begins before after)

include begins

theorem globals_size : before.globals.size ≤ after.globals.size := begins.globals.length_le

theorem functions_size : before.functions.size ≤ after.functions.size :=
  begins.functions.length_le

theorem strings_size : before.strings.entries.size ≤ after.strings.entries.size :=
  begins.strings.length_le

theorem global_at {place : Nat} {name : String} (found : before.globals[place]? = some name)
    : after.globals[place]? = some name :=
  getElem?_of_prefix begins.globals found

theorem function_at {place : Nat} {function : Function}
    (found : before.functions[place]? = some function)
    : after.functions[place]? = some function :=
  getElem?_of_prefix begins.functions found

theorem string_at {place : Nat} {text : String}
    (found : before.strings.entries[place]? = some text)
    : after.strings.entries[place]? = some text :=
  getElem?_of_prefix begins.strings found

end Begins

end Symbols

end StackScript
