import StackScript.Proofs.Json.WrittenValues

/-! A reader of JSON text whose numbers are whole. It gives a value back from its text on one
line, and that line has no control characters whatever the value is.
-/

namespace StackScript.Json

open Binary64 (isNumeric)

-----------------------------------------------------------------------------------------
-- A reader
-----------------------------------------------------------------------------------------

/-- Reads a whole number: a minus sign or none, and the digits up to the first other character. -/
def readInt (text : List Char) : Option (Json × List Char) :=
  let unsigned := if text.head? = some '-' then text.tail else text
  let digits := unsigned.takeWhile Char.isDigit
  let value : Int := Nat.ofDigitChars 10 digits 0
  if digits.isEmpty then none
  else
    some (.int (if text.head? = some '-' then -value else value),
      unsigned.dropWhile Char.isDigit)

/-- Reads a value. The fuel bounds how deep its brackets are nested and how many parts stand
between two of them.
-/
def readWhole : (fuel : Nat) → List Char → Option (Json × List Char)
  | 0, _ => none
  | fuel + 1, text =>
      match text with
      | '[' :: rest => do
          let (items, rest) ← readBracketed ']' (readWhole fuel) fuel rest
          return (.array items, rest)
      | '\x7b' :: rest => do
          let (fields, rest) ← readBracketed '\x7d' (readField (readWhole fuel)) fuel rest
          return (.object fields, rest)
      | text => readValue 1 0 text <|> readInt text

/-- Reads the text of one value. -/
def readLine (text : String) : Option Json :=
  match readWhole text.toList.length text.toList with
  | some (json, []) => some json
  | _ => none

-----------------------------------------------------------------------------------------
-- Values and their texts
-----------------------------------------------------------------------------------------

/-- A value whose numbers are whole. -/
inductive Whole : Json → Prop
  | null : Whole .null
  | bool (value : Bool) : Whole (.bool value)
  | int (value : Int) : Whole (.int value)
  | string (value : String) : Whole (.string value)
  | array {items : List Json} (inner : ∀ item ∈ items, Whole item) : Whole (.array items)
  | object {fields : List (String × Json)} (inner : ∀ field ∈ fields, Whole field.2)
      : Whole (.object fields)

theorem Whole.finite {json : Json} (whole : json.Whole) : json.Finite := by
  induction whole with
  | null => exact .null
  | bool value => exact .bool value
  | int value => exact .int value
  | string value => exact .string value
  | array _ ih => exact .array ih
  | object _ ih => exact .object ih

/-- A whole number is read back if no digit follows it. -/
theorem readInt_toString (value : Int) {rest : List Char} (leaves : Text.Leaves Char.isDigit rest)
    : readInt ((toString value).toList ++ rest) = some (.int value, rest) := by
  have digits : ∀ c ∈ Nat.toDigits 10 value.natAbs, c.isDigit = true :=
    fun _ => Text.isDigit_of_mem_digits
  have some : (Nat.toDigits 10 value.natAbs).isEmpty = false :=
    List.isEmpty_eq_false_iff.mpr Nat.toDigits_ne_nil
  have taken := leaves.takeWhile_append digits
  have dropped := leaves.dropWhile_append digits
  rw [Text.toList_toString_int, List.append_assoc]
  by_cases negative : value < 0
  · simp only [readInt, if_pos negative, List.singleton_append, List.head?_cons, List.tail_cons,
      if_true, taken, dropped, some, Nat.ofDigitChars_ten_toDigits, Bool.false_eq_true, if_false]
    rw [Int.natCast_natAbs, abs_of_neg negative, neg_neg]
  · have unsigned : (Nat.toDigits 10 value.natAbs ++ rest).head? ≠ Option.some '-' := by
      rw [List.head?_append_of_ne_nil _ Nat.toDigits_ne_nil]
      exact Text.head?_digits_ne_minus _
    simp only [readInt, if_neg negative, List.nil_append, if_neg unsigned, taken, dropped, some,
      Nat.ofDigitChars_ten_toDigits, Bool.false_eq_true, if_false]
    rw [Int.natCast_natAbs, abs_of_nonneg (not_lt.mp negative)]

/-- What starts with a minus sign or a digit is a number and nothing else. -/
theorem readValue_leading {c : Char} (leading : c = '-' ∨ c.isDigit = true) (rest : List Char)
    : readValue 1 0 (c :: rest) = none := by
  unfold readValue
  split <;> simp_all

theorem readWhole_leading {c : Char} (leading : c = '-' ∨ c.isDigit = true) (rest : List Char)
    (fuel : Nat)
    : readWhole (fuel + 1) (c :: rest) = readInt (c :: rest) := by
  unfold readWhole
  split
  · simp_all
  · simp_all
  · rw [readValue_leading leading]
    rfl

theorem Whole.exists_fuel {json : Json} {fuel : Nat} (whole : json.Whole)
    (enough : json.compact.toList.length ≤ fuel)
    : ∃ less, fuel = less + 1 := by
  obtain ⟨c, head, -⟩ := whole.finite.exists_head?
  obtain ⟨others, text⟩ := List.head?_eq_some_iff.mp head
  rw [text, List.length_cons] at enough
  exact Nat.exists_eq_add_one.mpr (Nat.zero_lt_of_lt enough)

/-- A value is read back in front of text that does not start with a digit, by induction on the
value.
-/
theorem Whole.readWhole_compact {json : Json} (whole : json.Whole) {rest : List Char} {fuel : Nat}
    (leaves : Text.Leaves Char.isDigit rest) (enough : json.compact.toList.length ≤ fuel)
    : readWhole fuel (json.compact.toList ++ rest) = some (json, rest) := by
  induction whole generalizing rest fuel with
  | null =>
      obtain ⟨fuel, rfl⟩ := Whole.null.exists_fuel enough
      simp [compact, readWhole, readValue]
  | bool value =>
      obtain ⟨fuel, rfl⟩ := (Whole.bool value).exists_fuel enough
      cases value <;> simp [compact, readWhole, readValue]
  | int value =>
      obtain ⟨fuel, rfl⟩ := (Whole.int value).exists_fuel enough
      have read := readInt_toString value leaves
      cases text : (toString value).toList with
      | nil =>
          rw [Text.toList_toString_int] at text
          exact absurd (List.append_eq_nil_iff.mp text).2 Nat.toDigits_ne_nil
      | cons c others =>
          rw [text] at read
          rw [compact, text, List.cons_append,
            readWhole_leading (mem_toString_int (text ▸ List.mem_cons_self))]
          exact read
  | string value =>
      obtain ⟨fuel, rfl⟩ := (Whole.string value).exists_fuel enough
      rw [compact, toList_quote, readWhole]
      · rw [readValue, readString_escape]
        rfl
      · simp
      · simp
  | @array items inner ih =>
      obtain ⟨fuel, rfl⟩ := (Whole.array inner).exists_fuel enough
      rw [toList_compact_array] at enough ⊢
      rw [List.length_cons, List.length_append, List.length_singleton] at enough
      rw [List.cons_append, List.append_assoc, List.singleton_append, readWhole,
        readItems_compact ?_ ?_ (by omega)]
      · rfl
      · exact fun item member => (inner item member).finite.head?_ne rfl
      · intro item member c rest ends
        have piece := length_le_intercalate
          (List.mem_map_of_mem (f := (·.compact.toList)) member)
        refine ih item member (.cons ?_) (by omega)
        rcases ends with rfl | rfl <;> rfl
  | @object fields inner ih =>
      obtain ⟨fuel, rfl⟩ := (Whole.object inner).exists_fuel enough
      rw [toList_compact_object] at enough ⊢
      rw [List.length_cons, List.length_append, List.length_singleton] at enough
      rw [List.cons_append, List.append_assoc, List.singleton_append, readWhole,
        readFields_compact ?_ (by omega)]
      · rfl
      · intro field member c rest ends
        have piece := length_le_intercalate (List.mem_map_of_mem (f := fieldText) member)
        rw [fieldText, List.length_append, List.length_cons] at piece
        refine ih field member (.cons ?_) (by omega)
        rcases ends with rfl | rfl <;> rfl

/-- The text of a value on one line is read back as the value. -/
theorem Whole.readLine_compact {json : Json} (whole : json.Whole)
    : readLine json.compact = some json := by
  have read := whole.readWhole_compact .nil (Nat.le_refl _)
  rw [List.append_nil] at read
  rw [readLine, read]

-----------------------------------------------------------------------------------------
-- Control characters
-----------------------------------------------------------------------------------------

/-- A character that is not one of the control characters below the space. -/
def Printable (c : Char) : Prop := 32 ≤ c.toNat

instance (c : Char) : Decidable (Printable c) := Nat.decLe ..

/-- The characters of a given text are tested one after the other. -/
theorem printable_of_all {text : List Char} (all : text.all (fun c => Printable c) = true)
    : ∀ c ∈ text, Printable c :=
  fun c found => of_decide_eq_true (List.all_eq_true.mp all c found)

theorem printable_of_isNumeric {c : Char} (numeric : isNumeric c = true) : Printable c := by
  simp only [isNumeric, Bool.or_eq_true, decide_eq_true_eq] at numeric
  rcases numeric with (((digit | rfl) | rfl) | rfl) | rfl
  · have low : '0'.toNat ≤ c.toNat := by
      simp only [Char.isDigit, Bool.and_eq_true, decide_eq_true_eq] at digit
      exact digit.1
    exact Nat.le_trans (by decide) low
  all_goals decide

theorem printable_hexDigit {n : Nat} (small : n < 16) : Printable (hexDigit n) := by
  have all : ∀ n < 16, Printable (hexDigit n) := by decide
  exact all n small

/-- A control character is written with others that are none. -/
theorem printable_escape (c : Char) : ∀ d ∈ escape c, Printable d := by
  unfold escape
  -- the quote, the backslash and the control characters that have a letter of their own
  iterate 7
    split
    · exact printable_of_all rfl
  split
  case isTrue control =>
    have high := printable_hexDigit (n := c.toNat / 16) (by omega)
    have low := printable_hexDigit (n := c.toNat % 16) (by omega)
    have letters : ∀ d ∈ ['\\', 'u', '0', '0'], Printable d := printable_of_all rfl
    exact List.forall_mem_append.mpr ⟨letters, by simp [high, low]⟩
  case isFalse other => exact List.forall_mem_singleton.mpr (Nat.not_lt.mp other)

theorem printable_quote (text : String) : ∀ c ∈ (quote text).toList, Printable c := by
  have inner : ∀ c ∈ text.toList.flatMap escape, Printable c := by
    intro c found
    obtain ⟨d, -, escaped⟩ := List.mem_flatMap.mp found
    exact printable_escape d c escaped
  rw [quote, String.toList_ofList, List.forall_mem_cons, List.forall_mem_append]
  exact ⟨by decide, inner, printable_of_all rfl⟩

theorem printable_intercalate {pieces : List (List Char)}
    (each : ∀ piece ∈ pieces, ∀ c ∈ piece, Printable c)
    : ∀ c ∈ List.intercalate [','] pieces, Printable c := by
  induction pieces with
  | nil => exact List.forall_mem_nil _
  | cons first pieces ih =>
      obtain ⟨here, later⟩ := List.forall_mem_cons.mp each
      cases pieces with
      | nil => simpa using here
      | cons next pieces =>
          rw [List.intercalate_cons_cons, List.forall_mem_append, List.forall_mem_append]
          exact ⟨⟨here, printable_of_all rfl⟩, ih later⟩

/-- The text of a value with finite numbers has no control characters, by induction on the value.
-/
theorem Finite.printable_compact {json : Json} (finite : json.Finite)
    : ∀ c ∈ json.compact.toList, Printable c := by
  induction finite with
  | null =>
      rw [compact]
      exact printable_of_all rfl
  | bool value =>
      rw [compact]
      cases value <;> exact printable_of_all rfl
  | int value =>
      rw [compact]
      exact fun c found => printable_of_isNumeric (numeric_int value c found)
  | number finite =>
      rw [compact]
      exact fun c found => printable_of_isNumeric (numeric_number finite c found)
  | string value =>
      rw [compact]
      exact printable_quote value
  | array _ ih =>
      rw [toList_compact_array, List.forall_mem_cons, List.forall_mem_append]
      have pieces := printable_intercalate (List.forall_mem_map.mpr ih)
      exact ⟨by decide, pieces, printable_of_all rfl⟩
  | @object fields _ ih =>
      have pieces : ∀ field ∈ fields, ∀ c ∈ fieldText field, Printable c := by
        intro field member
        rw [fieldText, List.forall_mem_append, List.forall_mem_cons]
        exact ⟨printable_quote field.1, by decide, ih field member⟩
      have pieces := printable_intercalate (List.forall_mem_map.mpr pieces)
      rw [toList_compact_object, List.forall_mem_cons, List.forall_mem_append]
      exact ⟨by decide, pieces, printable_of_all rfl⟩

/-- The text of a value on one line has no control characters and so no line feed. -/
theorem printable_compact (json : Json) : ∀ c ∈ json.compact.toList, Printable c := by
  rw [← compact_written]
  exact json.finite_written.printable_compact

end StackScript.Json
