import StackScript.Proofs.Binary64.DecimalReading
import StackScript.Proofs.Json.CompactText

/-! What the text of a value on one line tells about the value: everything but which of the
infinities and NaNs stands where the text has a null. The text of a value with finite numbers
only tells the value and where it ends, whatever follows it.
-/

namespace StackScript.Json

open Binary64 (isNumeric)

-----------------------------------------------------------------------------------------
-- Parts with commas between them
-----------------------------------------------------------------------------------------

section

variable {α : Type} {write : α → List Char} {closing : Char} {isInner : Char → Bool}

/-- If the texts of two parts start the same text, in front of rests that leave the class, then the
parts and the rests are the same.
-/
def Told (isInner : Char → Bool) (write : α → List Char) (part part' : α) : Prop :=
  ∀ rest rest',
    Text.Leaves isInner rest
    → Text.Leaves isInner rest'
    → write part ++ rest = write part' ++ rest'
    → part = part' ∧ rest = rest'

variable {parts parts' : List α} {rest rest' : List Char}

/-- What follows a part: the other parts, each behind a comma, and the closing bracket. -/
def textBehind (write : α → List Char) (closing : Char) (rest : List Char) : List α → List Char
  | [] => closing :: rest
  | part :: parts => ',' :: (write part ++ textBehind write closing rest parts)

theorem intercalate_cons (part : α) (parts : List α)
    : List.intercalate [','] ((part :: parts).map write) ++ closing :: rest
      = write part ++ textBehind write closing rest parts := by
  induction parts generalizing part with
  | nil => simp [textBehind]
  | cons next parts ih =>
      rw [List.map_cons, List.map_cons, List.intercalate_cons_cons, ← List.map_cons,
        List.append_assoc, List.append_assoc, ih]
      rfl

theorem leaves_textBehind (comma : isInner ',' = false) (bracket : isInner closing = false)
    : Text.Leaves isInner (textBehind write closing rest parts) := by
  cases parts with
  | nil => exact .cons bracket
  | cons => exact .cons comma

/-- Parts between brackets are told by their text if each of them is told by its own, in front of
a comma or the bracket; by induction on the parts.
-/
theorem textBehind_unique (comma : isInner ',' = false) (bracket : isInner closing = false)
    (notComma : closing ≠ ',')
    (one : ∀ x ∈ parts, ∀ x' ∈ parts', Told isInner write x x')
    (same : textBehind write closing rest parts = textBehind write closing rest' parts')
    : parts = parts' ∧ rest = rest' := by
  induction parts generalizing parts' with
  | nil =>
      cases parts' with
      | nil => exact ⟨rfl, (List.cons.inj same).2⟩
      | cons => exact absurd (List.cons.inj same).1 notComma
  | cons part parts ih =>
      cases parts' with
      | nil => exact absurd (List.cons.inj same).1.symm notComma
      | cons part' parts' =>
          obtain ⟨rfl, behind⟩ := one part List.mem_cons_self part' List.mem_cons_self _ _
            (leaves_textBehind comma bracket) (leaves_textBehind comma bracket)
            (List.cons.inj same).2
          obtain ⟨rfl, rfl⟩ := ih
            (fun x found x' found' => one x (.tail _ found) x' (.tail _ found')) behind
          exact ⟨rfl, rfl⟩

theorem intercalate_unique (comma : isInner ',' = false) (bracket : isInner closing = false)
    (notComma : closing ≠ ',')
    (starts : ∀ x ∈ parts, ∀ rest, (write x ++ rest).head? ≠ some closing)
    (starts' : ∀ x ∈ parts', ∀ rest, (write x ++ rest).head? ≠ some closing)
    (one : ∀ x ∈ parts, ∀ x' ∈ parts', Told isInner write x x')
    (same
      : List.intercalate [','] (parts.map write) ++ closing :: rest
        = List.intercalate [','] (parts'.map write) ++ closing :: rest')
    : parts = parts' ∧ rest = rest' := by
  cases parts with
  | nil =>
      cases parts' with
      | nil => exact ⟨rfl, (List.cons.inj same).2⟩
      | cons part' parts' =>
          rw [intercalate_cons] at same
          exact absurd (congrArg List.head? same).symm (starts' part' List.mem_cons_self _)
  | cons part parts =>
      rw [intercalate_cons] at same
      cases parts' with
      | nil => exact absurd (congrArg List.head? same) (starts part List.mem_cons_self _)
      | cons part' parts' =>
          rw [intercalate_cons] at same
          exact textBehind_unique comma bracket notComma one (congrArg (',' :: ·) same)

end

/-- A quoted string is told by its text and ends with it. -/
theorem quote_unique {text text' : String} {rest rest' : List Char}
    (same : (quote text).toList ++ rest = (quote text').toList ++ rest')
    : text = text' ∧ rest = rest' := by
  rw [toList_quote, toList_quote] at same
  have read := readString_escape text rest
  rw [(List.cons.inj same).2, readString_escape] at read
  obtain ⟨texts, rests⟩ := Prod.mk.inj (Option.some.inj read)
  exact ⟨texts.symm, rests.symm⟩

-----------------------------------------------------------------------------------------
-- Numbers
-----------------------------------------------------------------------------------------

theorem mem_toString_int {value : Int} {c : Char} (found : c ∈ (toString value).toList)
    : c = '-' ∨ c.isDigit = true := by
  rw [Text.toList_toString_int] at found
  rcases List.mem_append.mp found with sign | digit
  · split at sign
    · exact .inl (List.mem_singleton.mp sign)
    · cases sign
  · exact .inr (Text.isDigit_of_mem_digits digit)

theorem numeric_int (value : Int) : ∀ c ∈ (toString value).toList, isNumeric c = true := by
  intro c found
  rcases mem_toString_int found with rfl | digit
  · decide
  · exact Binary64.isNumeric_of_isDigit digit

section

variable {value : Binary64} (finite : value.isFinite = true)

include finite

theorem numberText_of_isFinite : numberText value = value.format numberStyle := by
  rw [Binary64.isFinite, Bool.and_eq_true, Bool.not_eq_true', Bool.not_eq_true'] at finite
  rw [numberText, finite.1, finite.2]
  rfl

theorem numeric_number : ∀ c ∈ (numberText value).toList, isNumeric c = true := by
  obtain ⟨_, shows, -⟩ := value.shows_unsigned numberStyle
  rw [numberText_of_isFinite finite, Binary64.format_of_isFinite _ finite]
  refine List.forall_mem_append.mpr ⟨?_, shows.numeric⟩
  split <;> exact List.all_eq_true.mp rfl

/-- The text of a number is not that of an integer, for it has a point or a power of ten. -/
theorem numberText_ne_int (other : Int) : numberText value ≠ toString other := by
  intro same
  obtain ⟨_, shows, -⟩ := value.shows_unsigned numberStyle
  have texts := congrArg String.toList same
  rw [numberText_of_isFinite finite, Binary64.format_of_isFinite _ finite] at texts
  have inInt {c : Char} (found : c ∈ value.unsigned numberStyle)
      : c = '-' ∨ c.isDigit = true :=
    mem_toString_int (texts ▸ List.mem_append_right _ found)
  rcases shows.exists_mark with point | power
  · exact absurd (inInt point) (by decide)
  · exact absurd (inInt power) (by decide)

end

theorem numberText_of_not_isFinite {value : Binary64} (other : value.isFinite = false)
    : numberText value = "null" := by
  rw [Binary64.isFinite, Bool.and_eq_false_iff, Bool.not_eq_false', Bool.not_eq_false'] at other
  rw [numberText, Bool.or_eq_true_iff.mpr other, if_pos rfl]

-----------------------------------------------------------------------------------------
-- Values with finite numbers
-----------------------------------------------------------------------------------------

/-- A value whose numbers are all finite. -/
inductive Finite : Json → Prop
  | null : Finite .null
  | bool (value : Bool) : Finite (.bool value)
  | int (value : Int) : Finite (.int value)
  | number {value : Binary64} (finite : value.isFinite = true) : Finite (.number value)
  | string (value : String) : Finite (.string value)
  | array {items : List Json} (inner : ∀ item ∈ items, Finite item) : Finite (.array items)
  | object {fields : List (String × Json)} (inner : ∀ field ∈ fields, Finite field.2)
      : Finite (.object fields)

/-- The kinds of values that are told by the first characters of their texts. -/
inductive Shape
  | null
  | truth
  | number
  | text
  | array
  | object

def shape : Json → Shape
  | .null => .null
  | .bool _ => .truth
  | .int _ => .number
  | .number _ => .number
  | .string _ => .text
  | .array _ => .array
  | .object _ => .object

/-- The kind of values whose texts start with the character. -/
def Shape.ofChar? (c : Char) : Option Shape :=
  if c = 'n' then some .null
  else if c = 't' ∨ c = 'f' then some .truth
  else if c = '-' ∨ c.isDigit = true then some .number
  else if c = '"' then some .text
  else if c = '[' then some .array
  else if c = '\x7b' then some .object
  else none

theorem Shape.ofChar?_of_leading {c : Char} (leading : c = '-' ∨ c.isDigit = true)
    : ofChar? c = some .number := by
  have other : ∀ letter, (letter = '-' ∨ letter.isDigit = true) = False → c ≠ letter := by
    rintro letter no rfl
    exact no ▸ leading
  rw [ofChar?, if_neg (other _ (by decide)),
    if_neg (not_or.mpr ⟨other _ (by decide), other _ (by decide)⟩), if_pos leading]

/-- The kind of a value shows in the first character of its text. -/
theorem Finite.exists_head? {json : Json} (finite : json.Finite)
    : ∃ c, json.compact.toList.head? = some c ∧ Shape.ofChar? c = some json.shape := by
  cases finite with
  | null => exact ⟨'n', by simp [compact], rfl⟩
  | bool value =>
      cases value with
      | true => exact ⟨'t', by simp [compact], rfl⟩
      | false => exact ⟨'f', by simp [compact], rfl⟩
  | int value =>
      rw [compact]
      cases text : (toString value).toList with
      | nil =>
          rw [Text.toList_toString_int] at text
          exact absurd (List.append_eq_nil_iff.mp text).2 Nat.toDigits_ne_nil
      | cons c others =>
          exact ⟨c, rfl, Shape.ofChar?_of_leading (mem_toString_int (text ▸ List.mem_cons_self))⟩
  | @number value finite =>
      obtain ⟨_, shows, -⟩ := value.shows_unsigned numberStyle
      obtain ⟨first, head, digit⟩ := shows.exists_head?
      rw [compact, numberText_of_isFinite finite, Binary64.format_of_isFinite _ finite]
      split
      · exact ⟨'-', rfl, rfl⟩
      · exact ⟨first, head, Shape.ofChar?_of_leading (.inr digit)⟩
  | string value => exact ⟨'"', by simp [compact, quote], rfl⟩
  | array => exact ⟨'[', by simp [toList_compact_array], rfl⟩
  | object => exact ⟨'\x7b', by simp [toList_compact_object], rfl⟩

section

variable {json other : Json} {rest rest' : List Char}

theorem Finite.shape_unique (finite : json.Finite) (finite' : other.Finite)
    (same : json.compact.toList ++ rest = other.compact.toList ++ rest')
    : json.shape = other.shape := by
  obtain ⟨c, head, shape⟩ := finite.exists_head?
  obtain ⟨c', head', shape'⟩ := finite'.exists_head?
  have heads := congrArg List.head? same
  rw [List.head?_append, List.head?_append, head, head'] at heads
  obtain rfl : c = c' := Option.some.inj heads
  exact Option.some.inj (shape.symm.trans shape')

/-- No value starts with a bracket that closes. -/
theorem Finite.head?_ne {json : Json} (finite : json.Finite) {c : Char}
    (none : Shape.ofChar? c = none) (rest : List Char)
    : (json.compact.toList ++ rest).head? ≠ some c := by
  obtain ⟨first, head, shape⟩ := finite.exists_head?
  rw [List.head?_append, head]
  rintro ⟨⟩
  cases none.symm.trans shape

/-- Items that are told by their texts are told by the text of their array. -/
theorem items_unique {items items' : List Json} (inner : ∀ item ∈ items, item.Finite)
    (inner' : ∀ item ∈ items', item.Finite)
    (one : ∀ item ∈ items, ∀ item' ∈ items', Told isNumeric (·.compact.toList) item item')
    (same
      : (compact (.array items)).toList ++ rest = (compact (.array items')).toList ++ rest')
    : items = items' ∧ rest = rest' := by
  rw [toList_compact_array, toList_compact_array, List.cons_append, List.cons_append,
    List.append_assoc, List.append_assoc, List.singleton_append, List.singleton_append] at same
  exact intercalate_unique (by decide) (by decide) (by decide)
    (fun item found => (inner item found).head?_ne rfl)
    (fun item found => (inner' item found).head?_ne rfl) one (List.cons.inj same).2

/-- Fields whose values are told by their texts are told by the text of their object. -/
theorem fields_unique {fields fields' : List (String × Json)}
    (one : ∀ field ∈ fields, ∀ field' ∈ fields',
      Told isNumeric (·.compact.toList) field.2 field'.2)
    (same
      : (compact (.object fields)).toList ++ rest = (compact (.object fields')).toList ++ rest')
    : fields = fields' ∧ rest = rest' := by
  have starts {fields : List (String × Json)}
      : ∀ field ∈ fields, ∀ rest, (fieldText field ++ rest).head? ≠ some '\x7d' := by
    intro field _ rest
    rw [fieldText, List.append_assoc, toList_quote, List.head?_cons]
    decide
  have each : ∀ field ∈ fields, ∀ field' ∈ fields', Told isNumeric fieldText field field' := by
    intro field found field' found' rest rest' leaves leaves' same
    rw [fieldText, fieldText, List.append_assoc, List.append_assoc] at same
    obtain ⟨names, values⟩ := quote_unique same
    obtain ⟨contents, rests⟩ :=
      one field found field' found' _ _ leaves leaves' (List.cons.inj values).2
    exact ⟨Prod.ext names contents, rests⟩
  rw [toList_compact_object, toList_compact_object, List.cons_append, List.cons_append,
    List.append_assoc, List.append_assoc, List.singleton_append, List.singleton_append] at same
  exact intercalate_unique (by decide) (by decide) (by decide) starts starts each
    (List.cons.inj same).2

/-- A value with finite numbers is told by its text and ends with it, unless a number goes on; by
induction on the value.
-/
theorem Finite.unique (finite : json.Finite) (finite' : other.Finite)
    (leaves : Text.Leaves isNumeric rest) (leaves' : Text.Leaves isNumeric rest')
    (same : json.compact.toList ++ rest = other.compact.toList ++ rest')
    : json = other ∧ rest = rest' := by
  induction finite generalizing other rest rest' with
  | null =>
      have shapes := Finite.null.shape_unique finite' same
      cases finite' with
      | null => exact ⟨rfl, List.append_cancel_left same⟩
      | _ => cases shapes
  | bool value =>
      have shapes := (Finite.bool value).shape_unique finite' same
      cases finite' with
      | bool value' =>
          cases value <;> cases value'
          · exact ⟨rfl, List.append_cancel_left same⟩
          · simp [compact] at same
          · simp [compact] at same
          · exact ⟨rfl, List.append_cancel_left same⟩
      | _ => cases shapes
  | int value =>
      have shapes := (Finite.int value).shape_unique finite' same
      rw [compact] at same
      cases finite' with
      | int value' =>
          rw [compact] at same
          obtain ⟨texts, rests⟩ :=
            Text.run_unique (numeric_int _) (numeric_int _) leaves leaves' same
          have values := Text.toString_int_injective (String.toList_injective texts)
          exact ⟨congrArg Json.int values, rests⟩
      | number finite' =>
          rw [compact] at same
          have texts :=
            (Text.run_unique (numeric_int _) (numeric_number finite') leaves leaves' same).1
          exact absurd (String.toList_injective texts).symm (numberText_ne_int finite' value)
      | _ => cases shapes
  | number finite =>
      have shapes := (Finite.number finite).shape_unique finite' same
      rw [compact] at same
      cases finite' with
      | int value' =>
          rw [compact] at same
          have texts :=
            (Text.run_unique (numeric_number finite) (numeric_int _) leaves leaves' same).1
          exact absurd (String.toList_injective texts) (numberText_ne_int finite value')
      | number finite' =>
          rw [compact] at same
          obtain ⟨texts, rests⟩ :=
            Text.run_unique (numeric_number finite) (numeric_number finite') leaves leaves' same
          have formats := String.toList_injective texts
          rw [numberText_of_isFinite finite, numberText_of_isFinite finite'] at formats
          exact ⟨congrArg Json.number (Binary64.format_injective _ finite finite' formats), rests⟩
      | _ => cases shapes
  | string value =>
      have shapes := (Finite.string value).shape_unique finite' same
      cases finite' with
      | string value' =>
          rw [compact, compact] at same
          obtain ⟨rfl, rests⟩ := quote_unique same
          exact ⟨rfl, rests⟩
      | _ => cases shapes
  | @array items inner ih =>
      have shapes := (Finite.array inner).shape_unique finite' same
      cases finite' with
      | @array items' inner' =>
          have each : ∀ item ∈ items, ∀ item' ∈ items',
              Told isNumeric (·.compact.toList) item item' :=
            fun item found item' found' _ _ => ih item found (inner' item' found')
          obtain ⟨rfl, rests⟩ := items_unique inner inner' each same
          exact ⟨rfl, rests⟩
      | _ => cases shapes
  | @object fields inner ih =>
      have shapes := (Finite.object inner).shape_unique finite' same
      cases finite' with
      | @object fields' inner' =>
          have each : ∀ field ∈ fields, ∀ field' ∈ fields',
              Told isNumeric (·.compact.toList) field.2 field'.2 :=
            fun field found field' found' _ _ => ih field found (inner' field' found')
          obtain ⟨rfl, rests⟩ := fields_unique each same
          exact ⟨rfl, rests⟩
      | _ => cases shapes

end

-----------------------------------------------------------------------------------------
-- What is written
-----------------------------------------------------------------------------------------

/-- The value that the text shows, with nulls in place of the numbers that are not finite. -/
def written : Json → Json
  | .null => .null
  | .bool value => .bool value
  | .int value => .int value
  | .number value => if value.isFinite then .number value else .null
  | .string value => .string value
  | .array items => .array (items.map written)
  | .object fields => .object (fields.map fun field => (field.1, written field.2))
termination_by value => value
decreasing_by
  all_goals simp_wf
  all_goals first
    | exact sizeOf_value_lt ‹_›
    | exact sizeOf_item_lt ‹_›

theorem finite_written (json : Json) : json.written.Finite := by
  induction json using written.induct with
  | case1 => rw [written]; exact .null
  | case2 value => rw [written]; exact .bool value
  | case3 value => rw [written]; exact .int value
  | case4 value finite => rw [written, if_pos finite]; exact .number finite
  | case5 value other => rw [written, if_neg other]; exact .null
  | case6 value => rw [written]; exact .string value
  | case7 items ih => rw [written]; exact .array (List.forall_mem_map.mpr ih)
  | case8 fields ih => rw [written]; exact .object (List.forall_mem_map.mpr ih)

theorem compact_written (json : Json) : json.written.compact = json.compact := by
  induction json using written.induct with
  | case1 | case2 | case3 | case6 => rw [written]
  | case4 value finite => rw [written, if_pos finite]
  | case5 value other =>
      rw [written, if_neg other, compact, compact,
        numberText_of_not_isFinite (Bool.eq_false_iff.mpr other)]
  | case7 items ih =>
      rw [written, compact, compact, List.map_map]
      congr 3
      exact List.map_congr_left ih
  | case8 fields ih =>
      rw [written, compact, compact, List.map_map]
      congr 3
      exact List.map_congr_left fun field found => by simp [ih field found]

/-- Two values have the same text exactly if they differ at most in their infinities and NaNs. -/
theorem compact_eq_iff (json other : Json)
    : json.compact = other.compact ↔ json.written = other.written := by
  constructor
  · intro same
    rw [← compact_written json, ← compact_written other] at same
    have texts : json.written.compact.toList ++ [] = other.written.compact.toList ++ [] :=
      congrArg (String.toList · ++ []) same
    exact (json.finite_written.unique other.finite_written .nil .nil texts).1
  · intro same
    rw [← compact_written json, same, compact_written]

end StackScript.Json
