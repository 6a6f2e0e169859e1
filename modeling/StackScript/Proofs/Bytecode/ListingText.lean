import StackScript.Bytecode.Listing
import StackScript.Source.Position

/-! The text of listings. No line of a listing has a line feed inside it, whatever strings the
program has, so that the text is cut at its line feeds into the lines of the listing.
-/

namespace StackScript

-----------------------------------------------------------------------------------------
-- Texts without line feeds
-----------------------------------------------------------------------------------------

/-- The characters stay on one line. -/
def OneLine (text : List Char) : Prop :=
  '\n' ∉ text

instance (text : List Char) : Decidable (OneLine text) :=
  inferInstanceAs (Decidable ('\n' ∉ text))

namespace OneLine

variable {front back : List Char}

theorem nil : OneLine [] :=
  List.not_mem_nil

theorem cons {c : Char} (other : c ≠ '\n') (rest : OneLine back) : OneLine (c :: back) :=
  List.not_mem_cons_of_ne_of_not_mem (Ne.symm other) rest

theorem append (first : OneLine front) (second : OneLine back) : OneLine (front ++ back) := by
  intro found
  rcases List.mem_append.mp found with found | found
  · exact first found
  · exact second found

theorem of_subset (whole : OneLine back) (subset : front ⊆ back) : OneLine front :=
  fun found => whole (subset found)

theorem replicate {c : Char} (other : c ≠ '\n') (count : Nat)
    : OneLine (List.replicate count c) :=
  fun found => other (List.eq_of_mem_replicate found).symm

theorem flatMap {α : Type} {list : List α} {text : α → List Char}
    (parts : ∀ entry, OneLine (text entry))
    : OneLine (list.flatMap text) := by
  intro found
  obtain ⟨entry, -, found⟩ := List.mem_flatMap.mp found
  exact parts entry found

theorem ite {condition : Prop} [Decidable condition] (first : OneLine front)
    (second : ¬condition → OneLine back)
    : OneLine (if condition then front else back) := by
  by_cases holds : condition
  · rw [if_pos holds]
    exact first
  · rw [if_neg holds]
    exact second holds

/-- The texts of two strings one behind the other. -/
theorem string_append {first second : String} (one : OneLine first.toList)
    (other : OneLine second.toList)
    : OneLine (first ++ second).toList := by
  rw [String.toList_append]
  exact one.append other

end OneLine

-----------------------------------------------------------------------------------------
-- Numbers
-----------------------------------------------------------------------------------------

/-- The digits of a number, in a base in which it has some, are characters for digits. -/
theorem eq_digitChar_of_mem_toDigits {base number : Nat} (large : 1 < base) {c : Char}
    (found : c ∈ Nat.toDigits base number)
    : ∃ digit, c = Nat.digitChar digit := by
  induction number using Nat.strongRecOn with
  | ind number ih =>
      by_cases small : number < base
      · rw [Nat.toDigits_of_lt_base small] at found
        exact ⟨number, List.mem_singleton.mp found⟩
      · have positive : 0 < number / base := Nat.div_pos (Nat.not_lt.mp small) (by omega)
        have last : number % base < base := Nat.mod_lt number (by omega)
        have split := Nat.toDigits_append_toDigits large positive last
        rw [Nat.div_add_mod] at split
        rw [← split] at found
        rcases List.mem_append.mp found with found | found
        · exact ih _ (Nat.div_lt_self (by omega) large) found
        · rw [Nat.toDigits_of_lt_base last] at found
          exact ⟨_, List.mem_singleton.mp found⟩

theorem digitChar_ne_newline (digit : Nat) : Nat.digitChar digit ≠ '\n' := by
  have low : ∀ digit < 16, Nat.digitChar digit ≠ '\n' := by decide
  by_cases small : digit < 16
  · exact low digit small
  · have star : Nat.digitChar digit = '*' := by
      unfold Nat.digitChar
      repeat rw [if_neg (by omega)]
    rw [star]
    decide

namespace OneLine

theorem digits {base : Nat} (large : 1 < base) (number : Nat)
    : OneLine (Nat.toDigits base number) := by
  intro found
  obtain ⟨digit, same⟩ := eq_digitChar_of_mem_toDigits large found
  exact digitChar_ne_newline digit same.symm

theorem nat (number : Nat) : OneLine (toString number).toList := by
  rw [Nat.toString_eq_ofList_toDigits, String.toList_ofList]
  exact digits (by decide) number

theorem int (number : Int) : OneLine (toString number).toList := by
  cases number with
  | ofNat number => exact nat number
  | negSucc number => exact string_append (by decide) (nat (number + 1))

theorem paddedOffset (offset : Nat) : OneLine (paddedOffset offset).toList := by
  unfold StackScript.paddedOffset
  rw [String.toList_ofList]
  exact (replicate (by decide) _).append (digits (by decide) offset)

theorem setPositional {digits : List Char} (pointed : Bool) (decade : Int)
    (one : OneLine digits)
    : OneLine (Binary64.setPositional pointed digits decade) := by
  have taken : ∀ count, OneLine (digits.take count) :=
    fun count => one.of_subset (List.take_subset _ _)
  have dropped : ∀ count, OneLine (digits.drop count) :=
    fun count => one.of_subset (List.drop_subset _ _)
  unfold Binary64.setPositional
  split
  · exact .cons (by decide) (.cons (by decide) ((replicate (by decide) _).append one))
  · dsimp only
    split
    · refine ((taken _).append (replicate (by decide) _)).append ?_
      split <;> decide
    · exact (taken _).append (.cons (by decide) (dropped _))

theorem dropTrailingZeros {digits : List Char} (one : OneLine digits)
    : OneLine (Binary64.dropTrailingZeros digits) := by
  refine one.of_subset ?_
  intro c found
  rw [Binary64.dropTrailingZeros, List.mem_reverse] at found
  exact List.mem_reverse.mp ((List.dropWhile_sublist _).subset found)

/-- A number in a listing stays on its line. -/
theorem number (value : Binary64) : OneLine (value.format Binary64.plain).toList := by
  unfold Binary64.format
  split
  · decide
  · rw [String.toList_ofList]
    have body : ∀ text, OneLine text
        → OneLine (if value.isNegative then '-' :: text else text) :=
      fun _ one => ite (one.cons (by decide)) fun _ => one
    refine body _ ?_
    dsimp only
    split
    · decide
    split
    · decide
    · exact setPositional _ _ (dropTrailingZeros (digits (by decide) _))

-----------------------------------------------------------------------------------------
-- Lines of listings
-----------------------------------------------------------------------------------------

/-- Every character of a string is shown on one line, a line feed by an escape. -/
theorem listedChar (c : Char) : OneLine (Text.listedChar c) := by
  have numbered : OneLine (Text.numberedEscape c) :=
    (append (by decide) (digits (by decide) _)).append (by decide)
  have escape : ∀ code, code ≠ '\n' → OneLine ['\\', code] :=
    fun _ other => .cons (by decide) (.cons other .nil)
  refine ite (escape _ (by decide)) fun _ => ite (escape _ (by decide)) fun _ => ?_
  refine ite (escape _ (by decide)) fun _ => ite (escape _ (by decide)) fun other => ?_
  have plain : OneLine [c] := .cons other .nil
  refine ite (escape _ (by decide)) fun _ => ite (escape _ (by decide)) fun _ => ?_
  exact ite numbered fun _ => ite plain fun _ => ite numbered fun _ => plain

theorem quoted (text : String) : OneLine (Text.quoted text).toList := by
  rw [Text.quoted, String.toList_ofList]
  exact .cons (by decide) ((flatMap listedChar).append (by decide))

theorem mnemonic (opcode : Opcode) : OneLine opcode.mnemonic.toList := by
  cases opcode with
  | jump when => cases when <;> decide
  | access what => cases what <;> decide
  | operate op => cases op <;> decide
  | _ => decide

theorem tagName (tag : Tag) : OneLine tag.name.toList := by
  cases tag <;> decide

theorem constant (strings : Array String) (value : Constant)
    : OneLine (value.listed strings).toList := by
  have space : OneLine " ".toList := by decide
  cases value with
  | number value => exact string_append space (number value)
  | long value => exact string_append space (int value.toInt)
  | boolean value =>
      have shown : ∀ value : Bool, OneLine (if value then " true" else " false").toList := by
        decide
      exact shown value
  | string index =>
      refine string_append (string_append space (nat index.toNat)) ?_
      split
      · exact string_append space (quoted _)
      · exact nil
  | function index => exact string_append space (nat index.toNat)
  | null => exact nil

/-- The line of an instruction is one line. -/
theorem instruction (strings : Array String) (offset : Nat) (instruction : Instruction)
    : OneLine (instruction.listed strings offset).toList := by
  have space : OneLine " ".toList := by decide
  refine string_append (string_append (string_append (paddedOffset offset) (by decide))
    (mnemonic instruction.opcode)) ?_
  split
  · exact string_append (string_append space (tagName _)) (constant strings _)
  · refine string_append (string_append (string_append ?_ (by decide)) (paddedOffset _))
      (by decide)
    exact string_append space (nat _)
  · exact string_append space (nat _)
  · exact string_append space (nat _)
  · exact nil

end OneLine

-----------------------------------------------------------------------------------------
-- The text as a whole
-----------------------------------------------------------------------------------------

/-- A line that is ended is the first of the lines of the text that it starts. -/
theorem splitLines_append {line : List Char} (one : OneLine line) (rest : List Char)
    : Source.splitLines (line ++ '\n' :: rest) = line :: Source.splitLines rest := by
  have nonempty : ∀ text, Source.splitLines text ≠ [] := by
    intro text
    cases text with
    | nil => exact nofun
    | cons c rest =>
        unfold Source.splitLines
        split
        · exact nofun
        · split <;> exact nofun
  induction line with
  | nil =>
      rw [List.nil_append, Source.splitLines]
      split
      · rename_i none
        exact absurd none (nonempty rest)
      · rename_i first others same
        rw [if_pos rfl, same]
  | cons c line ih =>
      obtain ⟨other, one⟩ : c ≠ '\n' ∧ OneLine line := by
        simpa [OneLine, eq_comm] using one
      rw [List.cons_append, Source.splitLines, ih one]
      simp only [if_neg other]

/-- Lines that are ended are those of their text, behind which nothing follows. -/
theorem splitLines_join {lines : List ListingLine}
    (one : ∀ line ∈ lines, OneLine line.text.toList)
    : Source.splitLines (Listing.text ⟨lines⟩).toList
      = lines.map (fun line => line.text.toList) ++ [[]] := by
  induction lines with
  | nil => rfl
  | cons line rest ih =>
      have first : (Listing.text ⟨line :: rest⟩).toList
          = line.text.toList ++ '\n' :: (Listing.text ⟨rest⟩).toList := by
        simp [Listing.text]
      rw [first, splitLines_append (one line List.mem_cons_self),
        ih fun line member => one line (List.mem_cons_of_mem _ member)]
      rfl

end StackScript
