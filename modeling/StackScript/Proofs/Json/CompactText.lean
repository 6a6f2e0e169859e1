import StackScript.Json.Text

/-! The text of a value on one line says what the value is. A reader of such texts gives the
value back, as long as its brackets are not nested deeper than the reader allows.
-/

namespace StackScript.Json

-----------------------------------------------------------------------------------------
-- Values
-----------------------------------------------------------------------------------------

mutual

/-- How deep the brackets of a value are nested. -/
def nesting : Json → Nat
  | .array items => nestingOfItems items + 1
  | .object fields => nestingOfFields fields + 1
  | _ => 0

/-- How deep the brackets of items are nested. -/
def nestingOfItems : List Json → Nat
  | [] => 0
  | item :: rest => max item.nesting (nestingOfItems rest)

/-- How deep the brackets of the values of fields are nested. -/
def nestingOfFields : List (String × Json) → Nat
  | [] => 0
  | (_, value) :: rest => max value.nesting (nestingOfFields rest)

end

theorem nesting_le_items {item : Json} {items : List Json} (member : item ∈ items)
    : item.nesting ≤ nestingOfItems items := by
  induction member with
  | head => exact Nat.le_max_left ..
  | tail _ _ ih => exact Nat.le_trans ih (Nat.le_max_right ..)

theorem nesting_le_fields {field : String × Json} {fields : List (String × Json)}
    (member : field ∈ fields)
    : field.2.nesting ≤ nestingOfFields fields := by
  induction member with
  | head => exact Nat.le_max_left ..
  | tail _ _ ih => exact Nat.le_trans ih (Nat.le_max_right ..)

/-- A value without numbers, whose objects have no field twice. -/
inductive Plain : Json → Prop
  | null : Plain .null
  | bool (value : Bool) : Plain (.bool value)
  | string (value : String) : Plain (.string value)
  | array {items : List Json} (inner : ∀ item ∈ items, Plain item) : Plain (.array items)
  | object {fields : List (String × Json)} (distinct : (fields.map Prod.fst).Nodup)
      (inner : ∀ field ∈ fields, Plain field.2)
      : Plain (.object fields)

/-- Plain values whose brackets are nested no deeper than the limit are read back from the text
that is written for them.
-/
structure Faithful (write : Json → String) (read : String → Option Json) (limit : Nat)
    : Prop where
  read_write : ∀ json : Json, json.Plain → json.nesting ≤ limit → read (write json) = some json

-----------------------------------------------------------------------------------------
-- A reader
-----------------------------------------------------------------------------------------

/-- The number that a hexadecimal digit in lower case means. -/
def hexValue? (c : Char) : Option Nat :=
  if '0' ≤ c ∧ c ≤ '9' then some (c.toNat - '0'.toNat)
  else if 'a' ≤ c ∧ c ≤ 'f' then some (c.toNat - 'a'.toNat + 10)
  else none

/-- Reads a character inside a quoted string. -/
def readChar : List Char → Option (Char × List Char)
  | '\\' :: '"' :: rest => some ('"', rest)
  | '\\' :: '\\' :: rest => some ('\\', rest)
  | '\\' :: 'n' :: rest => some ('\n', rest)
  | '\\' :: 'r' :: rest => some ('\r', rest)
  | '\\' :: 't' :: rest => some ('\t', rest)
  | '\\' :: 'b' :: rest => some (Char.ofNat 8, rest)
  | '\\' :: 'f' :: rest => some (Char.ofNat 12, rest)
  | '\\' :: 'u' :: '0' :: '0' :: high :: low :: rest => do
      return (Char.ofNat (16 * (← hexValue? high) + (← hexValue? low)), rest)
  | '\\' :: _ => none
  | c :: rest => some (c, rest)
  | [] => none

/-- Reads at most the given number of characters and the quote behind them. -/
def readChars : Nat → List Char → Option (List Char × List Char)
  | _, '"' :: rest => some ([], rest)
  | 0, _ => none
  | fuel + 1, text => do
      let (c, rest) ← readChar text
      let (content, rest) ← readChars fuel rest
      return (c :: content, rest)

/-- Reads a string, given the text behind its first quote. -/
def readString (text : List Char) : Option (String × List Char) := do
  let (content, rest) ← readChars text.length text
  return (String.ofList content, rest)

/-- Reads one or more parts with commas between them and a bracket behind them. -/
def readMany {α : Type} (closing : Char) (readOne : List Char → Option (α × List Char))
    : Nat → List Char → Option (List α × List Char)
  | 0, _ => none
  | fuel + 1, text => do
      match ← readOne text with
      | (first, c :: rest) =>
          if c = closing then return ([first], rest)
          else if c = ',' then
            let (more, rest) ← readMany closing readOne fuel rest
            return (first :: more, rest)
          else none
      | (_, []) => none

/-- Reads the parts between brackets, given the text behind the first bracket. -/
def readBracketed {α : Type} (closing : Char) (readOne : List Char → Option (α × List Char))
    (fuel : Nat) (text : List Char)
    : Option (List α × List Char) :=
  if text.head? = some closing then some ([], text.tail)
  else readMany closing readOne fuel text

/-- Reads a field. -/
def readField (readOne : List Char → Option (Json × List Char))
    : List Char → Option ((String × Json) × List Char)
  | '"' :: text => do
      match ← readString text with
      | (name, ':' :: rest) => do
          let (value, rest) ← readOne rest
          return ((name, value), rest)
      | _ => none
  | _ => none

/-- Reads a value whose brackets are nested no deeper than the given depth. -/
def readValue : (fuel depth : Nat) → List Char → Option (Json × List Char)
  | 0, _, _ => none
  | fuel + 1, depth, text =>
      match text, depth with
      | 'n' :: 'u' :: 'l' :: 'l' :: rest, _ => some (.null, rest)
      | 't' :: 'r' :: 'u' :: 'e' :: rest, _ => some (.bool true, rest)
      | 'f' :: 'a' :: 'l' :: 's' :: 'e' :: rest, _ => some (.bool false, rest)
      | '"' :: rest, _ => do
          let (content, rest) ← readString rest
          return (.string content, rest)
      | '[' :: rest, depth + 1 => do
          let (items, rest) ← readBracketed ']' (readValue fuel depth) fuel rest
          return (.array items, rest)
      | '\x7b' :: rest, depth + 1 => do
          let (fields, rest) ←
            readBracketed '\x7d' (readField (readValue fuel depth)) fuel rest
          return (.object fields, rest)
      | _, _ => none

/-- Reads the text of one value. -/
def readCompact (limit : Nat) (text : String) : Option Json :=
  match readValue text.toList.length limit text.toList with
  | some (json, []) => some json
  | _ => none

-----------------------------------------------------------------------------------------
-- Strings
-----------------------------------------------------------------------------------------

theorem hexValue?_hexDigit {n : Nat} (small : n < 16) : hexValue? (hexDigit n) = some n := by
  have all : ∀ n < 16, hexValue? (hexDigit n) = some n := by decide
  exact all n small

/-- Each character is read back from its escape. -/
theorem readChar_escape (c : Char) (rest : List Char)
    : readChar (escape c ++ rest) = some (c, rest) := by
  have byNumber {n : Nat} (same : c.toNat = n) : Char.ofNat n = c := by
    rw [← same, Char.ofNat_toNat]
  unfold escape
  split
  · rename_i same
    rw [same]
    rfl
  split
  · rename_i same
    rw [same]
    rfl
  split
  · rename_i same
    rw [same]
    rfl
  split
  · rename_i same
    rw [same]
    rfl
  split
  · rename_i same
    rw [same]
    rfl
  split
  · rename_i same
    exact congrArg (fun c => some (c, rest)) (byNumber same)
  split
  · rename_i same
    exact congrArg (fun c => some (c, rest)) (byNumber same)
  split
  · rename_i control
    have high := hexValue?_hexDigit (n := c.toNat / 16) (by omega)
    have low := hexValue?_hexDigit (n := c.toNat % 16) (by omega)
    have whole : Char.ofNat (16 * (c.toNat / 16) + c.toNat % 16) = c :=
      byNumber (Nat.div_add_mod ..).symm
    simp only [List.cons_append, List.nil_append, readChar, high, low]
    exact congrArg (fun c => some (c, rest)) whole
  · rename_i noQuote noBackslash _ _ _ _ _ _
    unfold readChar
    split <;> simp_all

theorem head?_escape (c : Char) (rest : List Char) : (escape c ++ rest).head? ≠ some '"' := by
  unfold escape
  repeat' split
  all_goals simp_all

/-- A string is read back from its text, by induction on its characters. -/
theorem readChars_escape (content rest : List Char) (fuel : Nat) (enough : content.length ≤ fuel)
    : readChars fuel (content.flatMap escape ++ '"' :: rest) = some (content, rest) := by
  induction content generalizing fuel with
  | nil => rw [List.flatMap_nil, List.nil_append, readChars]
  | cons c content ih =>
      obtain ⟨fuel, rfl⟩ : ∃ less, fuel = less + 1 :=
        Nat.exists_eq_add_one.mpr (Nat.lt_of_lt_of_le (Nat.succ_pos _) enough)
      have inner := ih fuel (Nat.le_of_succ_le_succ enough)
      have noQuote := head?_escape c (content.flatMap escape ++ '"' :: rest)
      rw [List.flatMap_cons, List.append_assoc, readChars, readChar_escape]
      · change (readChars fuel _).bind _ = _
        rw [inner]
        rfl
      · intro more same
        rw [same] at noQuote
        exact noQuote rfl

theorem escape_ne_nil (c : Char) : escape c ≠ [] := by
  unfold escape
  repeat' split
  all_goals exact List.cons_ne_nil _ _

theorem length_le_escaped (content : List Char)
    : content.length ≤ (content.flatMap escape).length := by
  induction content with
  | nil => exact Nat.le_refl 0
  | cons c content ih =>
      have some := List.length_pos_iff.mpr (escape_ne_nil c)
      rw [List.flatMap_cons, List.length_append, List.length_cons]
      omega

theorem toList_quote (text : String) (rest : List Char)
    : (quote text).toList ++ rest = '"' :: (text.toList.flatMap escape ++ '"' :: rest) := by
  simp [quote]

theorem readString_escape (text : String) (rest : List Char)
    : readString (text.toList.flatMap escape ++ '"' :: rest) = some (text, rest) := by
  have enough : text.toList.length ≤ (text.toList.flatMap escape ++ '"' :: rest).length := by
    rw [List.length_append]
    exact Nat.le_add_right_of_le (length_le_escaped text.toList)
  rw [readString, readChars_escape _ _ _ enough]
  exact congrArg (fun text => some (text, rest)) String.ofList_toList

-----------------------------------------------------------------------------------------
-- Parts with commas between them
-----------------------------------------------------------------------------------------

section

variable {α : Type} {closing : Char} {readOne : List Char → Option (α × List Char)}
variable {write : α → List Char}

/-- A part is read back in front of a comma or the bracket that closes. -/
def ReadBack (closing : Char) (readOne : List Char → Option (α × List Char))
    (write : α → List Char) (part : α)
    : Prop :=
  ∀ c rest, c = ',' ∨ c = closing → readOne (write part ++ c :: rest) = some (part, c :: rest)

/-- Parts are read back one by one, by induction on them. -/
theorem readMany_intercalate (notComma : closing ≠ ',') (part : α) (parts : List α)
    (rest : List Char) (fuel : Nat) (enough : parts.length < fuel)
    (one : ∀ x ∈ part :: parts, ReadBack closing readOne write x)
    : readMany closing readOne fuel
        (List.intercalate [','] ((part :: parts).map write) ++ closing :: rest)
      = some (part :: parts, rest) := by
  induction parts generalizing part fuel with
  | nil =>
      obtain ⟨fuel, rfl⟩ := Nat.exists_eq_add_one.mpr (Nat.zero_lt_of_lt enough)
      simp [readMany, one part List.mem_cons_self closing rest (.inr rfl)]
  | cons next parts ih =>
      obtain ⟨fuel, rfl⟩ := Nat.exists_eq_add_one.mpr (Nat.zero_lt_of_lt enough)
      have inner := ih next fuel (Nat.lt_of_succ_lt_succ enough)
        fun x member => one x (List.mem_cons_of_mem _ member)
      rw [List.map_cons] at inner
      rw [List.map_cons, List.map_cons, List.intercalate_cons_cons, List.append_assoc,
        List.append_assoc, List.singleton_append, readMany,
        one part List.mem_cons_self _ _ (.inl rfl)]
      simp [notComma.symm, inner]

/-- Parts between brackets are read back. -/
theorem readBracketed_intercalate (notComma : closing ≠ ',') (parts : List α)
    (rest : List Char) (fuel : Nat) (enough : parts.length ≤ fuel)
    (starts : ∀ x ∈ parts, ∀ rest, (write x ++ rest).head? ≠ some closing)
    (one : ∀ x ∈ parts, ReadBack closing readOne write x)
    : readBracketed closing readOne fuel
        (List.intercalate [','] (parts.map write) ++ closing :: rest)
      = some (parts, rest) := by
  cases parts with
  | nil => simp [readBracketed]
  | cons part parts =>
      have head : (List.intercalate [','] ((part :: parts).map write) ++ closing :: rest).head?
          ≠ some closing := by
        cases parts with
        | nil => simpa using starts part List.mem_cons_self (closing :: rest)
        | cons next parts =>
            rw [List.map_cons, List.map_cons, List.intercalate_cons_cons, List.append_assoc,
              List.append_assoc]
            exact starts part List.mem_cons_self _
      rw [readBracketed, if_neg head]
      exact readMany_intercalate notComma part parts rest fuel enough one

theorem length_le_intercalate {piece : List Char} {pieces : List (List Char)}
    (member : piece ∈ pieces)
    : piece.length ≤ (List.intercalate [','] pieces).length := by
  induction pieces with
  | nil => cases member
  | cons first pieces ih =>
      cases pieces with
      | nil => simpa using Nat.le_of_eq (congrArg List.length (List.mem_singleton.mp member))
      | cons next pieces =>
          rw [List.intercalate_cons_cons, List.length_append, List.length_append]
          rcases List.mem_cons.mp member with rfl | later
          · omega
          · have := ih later
            omega

theorem length_pieces_le (pieces : List (List Char))
    : pieces.length ≤ (List.intercalate [','] pieces).length + 1 := by
  induction pieces with
  | nil => exact Nat.zero_le _
  | cons first pieces ih =>
      cases pieces with
      | nil => exact Nat.le_add_left ..
      | cons next pieces =>
          rw [List.intercalate_cons_cons, List.length_append, List.length_append,
            List.length_cons]
          simp only [List.length_singleton]
          omega

end

-----------------------------------------------------------------------------------------
-- Values and their texts
-----------------------------------------------------------------------------------------

/-- The text of a field. -/
def fieldText (field : String × Json) : List Char :=
  (quote field.1).toList ++ ':' :: field.2.compact.toList

theorem toList_compact_array (items : List Json)
    : (compact (.array items)).toList
      = '[' :: (List.intercalate [','] (items.map (·.compact.toList)) ++ [']']) := by
  rw [compact, String.toList_append, String.toList_append, String.toList_intercalate,
    List.map_map]
  rfl

theorem toList_compact_object (fields : List (String × Json))
    : (compact (.object fields)).toList
      = '\x7b' :: (List.intercalate [','] (fields.map fieldText) ++ ['\x7d']) := by
  rw [compact, String.toList_append, String.toList_append, String.toList_intercalate,
    List.map_map]
  have same : String.toList ∘ (fun field : String × Json =>
      quote field.1 ++ ":" ++ compact field.2) = fieldText := by
    funext field
    simp [fieldText]
  rw [same]
  rfl

/-- No value starts with a bracket that closes. -/
theorem Plain.head?_compact {json : Json} (plain : json.Plain) (rest : List Char)
    : (json.compact.toList ++ rest).head? ≠ some ']' := by
  cases plain with
  | null => simp [compact]
  | bool value => cases value <;> simp [compact]
  | string value => simp [compact, quote]
  | array => simp [toList_compact_array]
  | object => simp [toList_compact_object]

/-- Items that are read back one by one are read back from the text of their array. -/
theorem readItems_compact {items : List Json} {rest : List Char}
    {readOne : List Char → Option (Json × List Char)} {fuel : Nat}
    (starts : ∀ item ∈ items, ∀ rest, (item.compact.toList ++ rest).head? ≠ some ']')
    (each : ∀ item ∈ items, ReadBack ']' readOne (·.compact.toList) item)
    (enough : (List.intercalate [','] (items.map (·.compact.toList))).length < fuel)
    : readBracketed ']' readOne fuel
        (List.intercalate [','] (items.map (·.compact.toList)) ++ ']' :: rest)
      = some (items, rest) := by
  refine readBracketed_intercalate (by decide) items rest fuel ?_ starts each
  have count := length_pieces_le (items.map (·.compact.toList))
  rw [List.length_map] at count
  omega

/-- Fields whose values are read back are read back from the text of their object. -/
theorem readFields_compact {fields : List (String × Json)} {rest : List Char}
    {readOne : List Char → Option (Json × List Char)} {fuel : Nat}
    (each : ∀ field ∈ fields, ReadBack '\x7d' readOne (·.compact.toList) field.2)
    (enough : (List.intercalate [','] (fields.map fieldText)).length < fuel)
    : readBracketed '\x7d' (readField readOne) fuel
        (List.intercalate [','] (fields.map fieldText) ++ '\x7d' :: rest)
      = some (fields, rest) := by
  refine readBracketed_intercalate (by decide) fields rest fuel ?_ ?_ ?_
  · have count := length_pieces_le (fields.map fieldText)
    rw [List.length_map] at count
    omega
  · intro field _ rest
    rw [fieldText, List.append_assoc, toList_quote, List.head?_cons]
    decide
  · intro field member c rest ends
    rw [fieldText, List.append_assoc, toList_quote, readField, List.cons_append,
      readString_escape]
    change (readOne _).bind _ = _
    rw [each field member c rest ends]
    rfl

/-- A plain value is read back from its text, by induction on the value. -/
theorem Plain.readValue_compact {json : Json} (plain : json.Plain) (rest : List Char)
    (fuel depth : Nat) (enough : json.compact.toList.length ≤ fuel)
    (within : json.nesting ≤ depth)
    : readValue fuel depth (json.compact.toList ++ rest) = some (json, rest) := by
  induction plain generalizing rest fuel depth with
  | null =>
      obtain ⟨fuel, rfl⟩ := Nat.exists_eq_add_one.mpr
        (Nat.lt_of_lt_of_le (by simp [compact]) enough)
      simp [compact, readValue]
  | bool value =>
      obtain ⟨fuel, rfl⟩ := Nat.exists_eq_add_one.mpr
        (Nat.lt_of_lt_of_le (by cases value <;> simp [compact]) enough)
      cases value <;> simp [compact, readValue]
  | string value =>
      rw [compact] at enough ⊢
      obtain ⟨fuel, rfl⟩ := Nat.exists_eq_add_one.mpr
        (Nat.lt_of_lt_of_le (by simp [quote]) enough)
      rw [toList_quote, readValue, readString_escape]
      rfl
  | @array items inner ih =>
      rw [toList_compact_array] at enough ⊢
      rw [List.length_cons, List.length_append, List.length_singleton] at enough
      obtain ⟨fuel, rfl⟩ := Nat.exists_eq_add_one.mpr (Nat.zero_lt_of_lt enough)
      obtain ⟨depth, rfl⟩ := Nat.exists_eq_add_one.mpr (Nat.zero_lt_of_lt within)
      rw [List.cons_append, List.append_assoc, List.singleton_append, readValue,
        readItems_compact (fun item member => (inner item member).head?_compact) ?_ (by omega)]
      · rfl
      · intro item member c rest _
        have piece := length_le_intercalate
          (List.mem_map_of_mem (f := (·.compact.toList)) member)
        exact ih item member (c :: rest) fuel depth (by omega)
          (Nat.le_trans (nesting_le_items member) (Nat.le_of_succ_le_succ within))
  | @object fields distinct inner ih =>
      rw [toList_compact_object] at enough ⊢
      rw [List.length_cons, List.length_append, List.length_singleton] at enough
      obtain ⟨fuel, rfl⟩ := Nat.exists_eq_add_one.mpr (Nat.zero_lt_of_lt enough)
      obtain ⟨depth, rfl⟩ := Nat.exists_eq_add_one.mpr (Nat.zero_lt_of_lt within)
      rw [List.cons_append, List.append_assoc, List.singleton_append, readValue,
        readFields_compact ?_ (by omega)]
      · rfl
      · intro field member c rest _
        have piece := length_le_intercalate (List.mem_map_of_mem (f := fieldText) member)
        rw [fieldText, List.length_append, List.length_cons] at piece
        exact ih field member (c :: rest) fuel depth (by omega)
          (Nat.le_trans (nesting_le_fields member) (Nat.le_of_succ_le_succ within))

/-- The text of a plain value on one line is read back as the value. -/
theorem faithful_compact (limit : Nat) : Faithful compact (readCompact limit) limit where
  read_write json plain within := by
    have whole := plain.readValue_compact [] _ limit (Nat.le_refl _) within
    rw [List.append_nil] at whole
    rw [readCompact, whole]

end StackScript.Json
