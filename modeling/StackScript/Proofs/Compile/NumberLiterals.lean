import Mathlib
import StackScript.Compile.Literal
import StackScript.Proofs.Text.Runs
import StackScript.Proofs.Token.Tiling

/-! What numeric literals mean, by the parts of their text. The digits in front of the point are
scanned from the left, so that they leave the range of long integers before a point behind them
is seen.
-/

namespace StackScript

open Token (DigitText FractionText SuffixText NumberText isSuffix)

-----------------------------------------------------------------------------------------
-- Long integers
-----------------------------------------------------------------------------------------

namespace LongError

/-- Digits do not make what stands in front of them smaller. -/
theorem le_ofDigitChars (digits : List Char) (value : Nat)
    : value ≤ Nat.ofDigitChars 10 digits value := by
  rw [Nat.ofDigitChars_eq_ofDigitChars_zero]
  exact Nat.le_add_right_of_le (Nat.le_mul_of_pos_left value (Nat.pow_pos (by decide)))

/-- Digits are read to their end, unless their value leaves the range, by induction on them: as
values only grow, the first that is out of range decides.
-/
theorem readDigits_append {digits : List Char} (inner : ∀ c ∈ digits, c.isDigit = true)
    (rest : List Char) {negative : Bool} {value : Nat} (inRange : value ≤ bound negative)
    : readDigits negative value (digits ++ rest)
      = if bound negative < Nat.ofDigitChars 10 digits value then .error .outOfRange
        else readDigits negative (Nat.ofDigitChars 10 digits value) rest := by
  induction digits generalizing value with
  | nil => exact (if_neg (Nat.not_lt.mpr inRange)).symm
  | cons c digits ih =>
      obtain ⟨digit, others⟩ := List.forall_mem_cons.mp inner
      rw [List.cons_append, readDigits, if_pos digit, Nat.ofDigitChars_cons]
      dsimp only
      split
      · rename_i beyond
        have grown := Nat.lt_of_lt_of_le beyond (le_ofDigitChars digits _)
        exact (if_pos grown).symm
      · rename_i within
        exact ih others (Nat.not_lt.mp within)

end LongError

namespace Binary64

/-- Text that starts with a digit has no sign. -/
theorem splitSign_digits {digits : List Char} (kind : DigitText digits) (rest : List Char)
    : splitSign (digits ++ rest) = (false, digits ++ rest) := by
  obtain ⟨some, inner⟩ := kind
  obtain ⟨c, more, rfl⟩ := List.exists_cons_of_ne_nil some
  have digit := inner c List.mem_cons_self
  rw [List.cons_append]
  unfold splitSign
  split
  · simp_all
  · simp_all
  · rfl

end Binary64

/-- The greatest long integer. -/
def greatestLong : Nat := 9223372036854775807

section

variable {digits : List Char} (kind : DigitText digits)

include kind

/-- A long integer that starts with digits has no sign. -/
theorem readLong_append (rest : List Char)
    : readLong (digits ++ rest)
      = (LongError.readDigits false 0 (digits ++ rest)).map
          fun value : Nat => Int64.ofInt value := by
  have some : (digits ++ rest).isEmpty = false := by simp [kind.1]
  simp only [readLong, Binary64.splitSign_digits kind, some]
  cases LongError.readDigits false 0 (digits ++ rest) <;> rfl

/-- Digits are a long integer if their value is in range. -/
theorem readLong_whole
    : readLong digits
      = if greatestLong < Nat.ofDigitChars 10 digits 0 then .error .outOfRange
        else .ok (Int64.ofInt (Nat.ofDigitChars 10 digits 0 : Nat)) := by
  have scanned := LongError.readDigits_append kind.2 [] (Nat.zero_le (LongError.bound false))
  have read := readLong_append kind []
  rw [scanned, List.append_nil] at read
  rw [read]
  change Except.map _ (if greatestLong < _ then _ else _) = _
  split <;> rfl

/-- A point is only seen behind digits whose value is in range. -/
theorem readLong_pointed (rest : List Char)
    : readLong (digits ++ '.' :: rest)
      = .error
          (if greatestLong < Nat.ofDigitChars 10 digits 0 then .outOfRange else .malformed) := by
  have scanned :=
    LongError.readDigits_append kind.2 ('.' :: rest) (Nat.zero_le (LongError.bound false))
  rw [readLong_append kind, scanned]
  change Except.map _ (if greatestLong < _ then _ else _) = _
  split <;> rfl

end

-----------------------------------------------------------------------------------------
-- Width letters
-----------------------------------------------------------------------------------------

/-- The letter of long integers, in either case. -/
def Literal.LongLetter (suffix : List Char) : Prop :=
  suffix = ['l'] ∨ suffix = ['L']

open Literal (LongLetter)

namespace Width

/-- The letters that may end a number are those that name a width. -/
theorem ofChar?_of_isSuffix {c : Char} (letter : isSuffix c = true)
    : ∃ width, ofChar? c = some width ∧ (width = .long ↔ LongLetter [c]) := by
  simp only [isSuffix, Bool.or_eq_true, decide_eq_true_eq] at letter
  rcases letter with ((((rfl | rfl) | rfl) | rfl) | rfl) | rfl
  · exact ⟨.byte, rfl, by simp [LongLetter]⟩
  · exact ⟨.byte, rfl, by simp [LongLetter]⟩
  · exact ⟨.short, rfl, by simp [LongLetter]⟩
  · exact ⟨.short, rfl, by simp [LongLetter]⟩
  · exact ⟨.long, rfl, by simp [LongLetter]⟩
  · exact ⟨.long, rfl, by simp [LongLetter]⟩

theorem ofChar?_of_isDigit {c : Char} (digit : c.isDigit = true) : ofChar? c = none := by
  have other : isSuffix c = false := by
    cases letter : isSuffix c with
    | false => rfl
    | true => exact absurd digit (by simp [(Token.isSuffix_apart letter).1])
  simp only [isSuffix, Bool.or_eq_false_iff, decide_eq_false_iff_not] at other
  simp [ofChar?, other]

/-- A letter that names a width is cut off. -/
theorem split_letter {c : Char} {width : Width} (known : ofChar? c = some width)
    (text : List Char)
    : split (text ++ [c]) = (text, some width) := by
  rw [split, List.getLast?_concat, Option.bind_some, known, List.dropLast_concat]

/-- Behind digits there is nothing to cut off. -/
theorem split_digits {digits : List Char} (kind : DigitText digits) (front : List Char)
    : split (front ++ digits) = (front ++ digits, none) := by
  obtain ⟨some, inner⟩ := kind
  have last : (front ++ digits).getLast? = digits.getLast? := by
    rw [List.getLast?_append, List.getLast?_eq_some_getLast some, Option.some_or]
  have digit := inner _ (List.getLast_mem some)
  rw [split, last, List.getLast?_eq_some_getLast some, Option.bind_some,
    ofChar?_of_isDigit digit]

end Width

-----------------------------------------------------------------------------------------
-- Literals
-----------------------------------------------------------------------------------------

namespace Literal

variable {whole fraction : List Char}

/-- A number without a letter at its end ends with digits. -/
theorem exists_digits_behind (first : DigitText whole) (second : FractionText fraction)
    : ∃ front digits, whole ++ fraction = front ++ digits ∧ DigitText digits := by
  rcases second with rfl | ⟨digits, rfl, kind⟩
  · exact ⟨[], whole, List.append_nil whole, first⟩
  · exact ⟨whole ++ ['.'], digits, List.append_cons .., kind⟩

/-- Text that starts with a digit is none of the words for numbers that are not finite. -/
theorem ofText?_digits (first : DigitText whole) (rest : List Char)
    : Binary64.ofText? (String.ofList (whole ++ rest))
      = Binary64.readUnsigned false (whole ++ rest) := by
  have unsigned := Binary64.splitSign_digits first rest
  obtain ⟨some, inner⟩ := first
  obtain ⟨c, more, rfl⟩ := List.exists_cons_of_ne_nil some
  have digit := inner c List.mem_cons_self
  have same : c.toLower = c := by
    unfold Char.isDigit at digit
    unfold Char.toLower
    simp only [Bool.and_eq_true, decide_eq_true_eq] at digit
    grind
  have other (word : String) (letter : word.toList.head?.any Char.isDigit = false)
      : String.ofList ((c :: more ++ rest).map Char.toLower) ≠ word := by
    rintro rfl
    simp [same, digit] at letter
  rw [Binary64.ofText?, String.toList_ofList, unsigned]
  dsimp only
  split
  · exact absurd ‹_› (other "inf" (by decide))
  · exact absurd ‹_› (other "infinity" (by decide))
  · exact absurd ‹_› (other "nan" (by decide))
  · rfl

/-- A number without a letter at its end is read as the number nearest to its digits, shifted by
those of the fraction.
-/
theorem ofText?_parts (first : DigitText whole) (second : FractionText fraction)
    : Binary64.ofText? (String.ofList (whole ++ fraction))
      = some (.ofDecimal false (whole ++ fraction.tail) (-fraction.tail.length)) := by
  have some : whole.isEmpty = false := List.isEmpty_eq_false_iff.mpr first.1
  rw [ofText?_digits first, Binary64.readUnsigned]
  rcases second with rfl | ⟨digits, rfl, kind⟩
  · have leaves : Text.Leaves Char.isDigit [] := .nil
    rw [leaves.takeWhile_append first.2, leaves.dropWhile_append first.2]
    simp [some, Binary64.readPower]
  · have leaves : Text.Leaves Char.isDigit ('.' :: digits) := .cons (by decide)
    have ended : Text.Leaves Char.isDigit [] := .nil
    have taken := ended.takeWhile_append kind.2
    have dropped := ended.dropWhile_append kind.2
    rw [List.append_nil] at taken dropped
    rw [leaves.takeWhile_append first.2, leaves.dropWhile_append first.2]
    simp [some, taken, dropped, Binary64.readPower]

/-- The parts of a number as it is written. -/
structure Parts (text : String) (whole fraction suffix : List Char) : Prop where
  toList_eq : text.toList = whole ++ fraction ++ suffix
  digits : DigitText whole
  point : FractionText fraction
  letter : SuffixText suffix

section

variable {text : String} {suffix : List Char} (parts : Parts text whole fraction suffix)

include parts

/-- A literal without the letter of long integers means a number, whatever other letter ends it.
-/
theorem numeric_number (other : ¬LongLetter suffix)
    : numeric text
      = .ok (.number (.ofDecimal false (whole ++ fraction.tail) (-fraction.tail.length))) := by
  obtain ⟨same, first, second, third⟩ := parts
  have read := ofText?_parts first second
  rcases third with rfl | ⟨c, rfl, letter⟩
  · obtain ⟨front, digits, ends, kind⟩ := exists_digits_behind first second
    rw [List.append_nil, ends] at same
    rw [ends] at read
    simp only [numeric, same, Width.split_digits kind front, read]
  · obtain ⟨width, known, long⟩ := Width.ofChar?_of_isSuffix letter
    simp only [numeric, same, Width.split_letter known]
    cases width with
    | byte => simp only [read]
    | short => simp only [read]
    | long => exact absurd (long.mp rfl) other

/-- A literal with the letter of long integers is out of range if its digits in front of the
point are, and otherwise means their value if there is no fraction.
-/
theorem numeric_long (marked : LongLetter suffix)
    : numeric text
      = if greatestLong < Nat.ofDigitChars 10 whole 0 then .error (.longOutOfRange text)
        else if fraction = [] then .ok (.long (Int64.ofInt (Nat.ofDigitChars 10 whole 0 : Nat)))
        else .error (.invalidLiteral text) := by
  obtain ⟨same, first, second, -⟩ := parts
  obtain ⟨c, rfl, known⟩ : ∃ c, suffix = [c] ∧ Width.ofChar? c = some .long := by
    rcases marked with rfl | rfl
    · exact ⟨'l', rfl, rfl⟩
    · exact ⟨'L', rfl, rfl⟩
  have read : readLong (whole ++ fraction)
      = if greatestLong < Nat.ofDigitChars 10 whole 0 then .error .outOfRange
        else if fraction = [] then .ok (Int64.ofInt (Nat.ofDigitChars 10 whole 0 : Nat))
        else .error .malformed := by
    rcases second with rfl | ⟨digits, rfl, -⟩
    · rw [List.append_nil, readLong_whole first, if_pos rfl]
    · rw [readLong_pointed first, if_neg (List.cons_ne_nil _ _), apply_ite Except.error]
  simp only [numeric, same, Width.split_letter known, read]
  by_cases beyond : greatestLong < Nat.ofDigitChars 10 whole 0
  · simp only [if_pos beyond]
  · by_cases none : fraction = []
    · simp only [if_neg beyond, if_pos none]
    · simp only [if_neg beyond, if_neg none]

end

/-- What a literal means, told by its parts. -/
structure Classified (text : String) (whole fraction suffix : List Char) : Prop
    extends Parts text whole fraction suffix where
  number : ¬LongLetter suffix →
    numeric text
      = .ok (.number (.ofDecimal false (whole ++ fraction.tail) (-fraction.tail.length)))
  long : LongLetter suffix → fraction = [] → Nat.ofDigitChars 10 whole 0 ≤ greatestLong →
    ∃ value : Int64,
      numeric text = .ok (.long value) ∧ value.toInt = Nat.ofDigitChars 10 whole 0
  beyond : LongLetter suffix → greatestLong < Nat.ofDigitChars 10 whole 0 →
    numeric text = .error (.longOutOfRange text)
  fractional : LongLetter suffix → fraction ≠ [] → Nat.ofDigitChars 10 whole 0 ≤ greatestLong →
    numeric text = .error (.invalidLiteral text)

theorem Parts.classified {text : String} {suffix : List Char}
    (parts : Parts text whole fraction suffix)
    : Classified text whole fraction suffix where
  toParts := parts
  number := numeric_number parts
  long := by
    intro marked none within
    rw [numeric_long parts marked, if_neg (Nat.not_lt.mpr within), if_pos none]
    refine ⟨_, rfl, Int64.toInt_ofInt_of_le (by omega) ?_⟩
    unfold greatestLong at within
    omega
  beyond := by
    intro marked beyond
    rw [numeric_long parts marked, if_pos beyond]
  fractional := by
    intro marked some within
    rw [numeric_long parts marked, if_neg (Nat.not_lt.mpr within), if_neg some]

/-- A numeric literal of a source is digits, a fraction and a letter, of which each may be
missing but the digits, and these parts tell its meaning. Without the letter of long integers it
means the number nearest to its decimal, so that it is never refused. With the letter it is out
of range if the value of its digits is, whether a fraction follows them or not. Otherwise the
digits mean the long integer of that value, and with a fraction the literal is invalid.
-/
theorem numeric_classified {source : String} {lexemes : List Lexeme}
    (read : lex source = .ok lexemes) {text : String} {span : Span}
    (found : ⟨.number text, span⟩ ∈ lexemes)
    : ∃ whole fraction suffix, Classified text whole fraction suffix := by
  have tiling := Token.lex_tiles source
  rw [read] at tiling
  have formed : NumberText text.toList := (tiling.matched _ found).wellFormed
  generalize same : text.toList = characters at formed
  obtain @⟨whole, fraction, suffix, digits, point, letter⟩ := formed
  exact ⟨whole, fraction, suffix, Parts.classified ⟨same, digits, point, letter⟩⟩

/-- A number with a letter of its own, and one that is in range up to its point. -/
theorem numeric_classified_both
    : lex "007.25S 9223372036854775807.5L"
        = .ok [⟨.number "007.25S", ⟨0, 7⟩⟩, ⟨.number "9223372036854775807.5L", ⟨8, 30⟩⟩]
      ∧ (∃ whole fraction suffix, Classified "007.25S" whole fraction suffix)
      ∧ ∃ whole fraction suffix, Classified "9223372036854775807.5L" whole fraction suffix := by
  have read : lex "007.25S 9223372036854775807.5L"
      = .ok [⟨.number "007.25S", ⟨0, 7⟩⟩, ⟨.number "9223372036854775807.5L", ⟨8, 30⟩⟩] := by
    cbv
  exact ⟨read, numeric_classified read (.head _), numeric_classified read (.tail _ (.head _))⟩

/-- A literal with a fraction is not always invalid: its digits in front of the point may be out
of range.
-/
theorem numeric_fraction_outOfRange
    : lex "9223372036854775808.5l" = .ok [⟨.number "9223372036854775808.5l", ⟨0, 22⟩⟩]
      ∧ numeric "9223372036854775808.5l"
        = .error (.longOutOfRange "9223372036854775808.5l") := by
  constructor
  · cbv
  · have parts : Parts "9223372036854775808.5l" "9223372036854775808".toList ['.', '5'] ['l'] :=
      ⟨by decide, ⟨by decide, List.all_eq_true.mp (by decide)⟩,
        .inr ⟨['5'], rfl, List.cons_ne_nil _ _, List.all_eq_true.mp (by decide)⟩,
        .inr ⟨'l', rfl, by decide⟩⟩
    exact parts.classified.beyond (.inl rfl) (by decide)

end Literal

end StackScript
