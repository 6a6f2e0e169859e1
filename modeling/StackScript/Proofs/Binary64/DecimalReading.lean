import StackScript.Binary64.DecimalText
import StackScript.Binary64.Reading
import StackScript.Proofs.Binary64.ShortestDecimals
import StackScript.Proofs.Text.Runs

/-! The text of a finite number tells the number. However its digits are set, the text stands for
the shortest decimal, and that decimal lies in the interval of one number only.
-/

namespace StackScript.Binary64

-----------------------------------------------------------------------------------------
-- Digits
-----------------------------------------------------------------------------------------

theorem digitsValue_append (digits others : List Char)
    : digitsValue (digits ++ others)
      = 10 ^ others.length * digitsValue digits + digitsValue others := by
  change Nat.ofDigitChars 10 (digits ++ others) 0 = _
  rw [Nat.ofDigitChars_append, Nat.ofDigitChars_eq_ofDigitChars_zero]
  rfl

theorem digitsValue_zeros (count : ℕ) : digitsValue (List.replicate count '0') = 0 :=
  Nat.ofDigitChars_replicate_zero

theorem digitsValue_digitsOf (number : ℕ) : digitsValue (digitsOf number) = number :=
  Nat.ofDigitChars_ten_toDigits

/-- Zeros behind the digits count as powers of ten. -/
theorem value_zeros (digits : List Char) (count : ℕ) (power : Int)
    : (digitsValue (digits ++ List.replicate count '0') : ℚ) * 10 ^ (power - count)
      = digitsValue digits * 10 ^ power := by
  rw [digitsValue_append, digitsValue_zeros, List.length_replicate, Nat.add_zero, Nat.cast_mul,
    Nat.cast_pow, Nat.cast_ofNat, zpow_sub₀ (by norm_num), zpow_natCast, mul_right_comm,
    mul_div_cancel₀ _ (by positivity), mul_comm]

/-- What is dropped behind the digits is a number of zeros. -/
theorem exists_dropTrailingZeros (digits : List Char)
    : ∃ count, digits = dropTrailingZeros digits ++ List.replicate count '0' := by
  refine ⟨(digits.reverse.takeWhile (· = '0')).length, ?_⟩
  have zeros : digits.reverse.takeWhile (· = '0')
      = List.replicate (digits.reverse.takeWhile (· = '0')).length '0' := by
    refine List.eq_replicate_of_mem fun c found => ?_
    exact of_decide_eq_true (List.all_eq_true.mp List.all_takeWhile c found)
  have whole := congrArg List.reverse
    (List.takeWhile_append_dropWhile (p := (· = '0')) (l := digits.reverse))
  rw [List.reverse_append, List.reverse_reverse, zeros, List.reverse_replicate] at whole
  exact whole.symm

theorem isDigit_of_mem_zeros (count : ℕ) : ∀ c ∈ List.replicate count '0', c.isDigit = true := by
  intro c found
  rw [List.eq_of_mem_replicate found]
  decide

theorem isDigit_of_mem_dropTrailingZeros (number : ℕ)
    : ∀ c ∈ dropTrailingZeros (digitsOf number), c.isDigit = true := by
  obtain ⟨count, whole⟩ := exists_dropTrailingZeros (digitsOf number)
  intro c found
  have among : c ∈ digitsOf number := whole ▸ List.mem_append_left _ found
  exact Text.isDigit_of_mem_digits among

-----------------------------------------------------------------------------------------
-- Texts
-----------------------------------------------------------------------------------------

/-- The digits behind a point and what follows them. -/
def splitFraction : List Char → List Char × List Char
  | '.' :: rest => (rest.takeWhile Char.isDigit, rest.dropWhile Char.isDigit)
  | rest => ([], rest)

/-- The decimal that a text without a sign stands for. -/
def Decimal.ofText (text : List Char) : Decimal :=
  let behind := splitFraction (text.dropWhile Char.isDigit)
  ⟨digitsValue (text.takeWhile Char.isDigit ++ behind.1),
    (readPower behind.2).getD 0 - behind.1.length⟩

/-- A signed power of ten is read back. -/
theorem readPower_exponent (decade : Int)
    : readPower ('e' :: (if decade < 0 then '-' else '+') :: digitsOf decade.natAbs)
      = some decade := by
  have digits : (digitsOf decade.natAbs).all Char.isDigit = true :=
    List.all_eq_true.mpr fun _ => Text.isDigit_of_mem_digits
  have some : (digitsOf decade.natAbs).isEmpty = false :=
    List.isEmpty_eq_false_iff.mpr Nat.toDigits_ne_nil
  split
  all_goals
    rw [readPower, splitSign]
    simp only [some, digits, digitsValue_digitsOf, decide_true, Bool.true_or, Bool.not_false,
      Bool.and_true, if_true, if_false, Bool.false_eq_true]
    exact congrArg Option.some (by omega)

section

variable {digits fraction tail : List Char} (inner : ∀ c ∈ digits, c.isDigit = true)

include inner

theorem Decimal.ofText_pointed (after : ∀ c ∈ fraction, c.isDigit = true)
    (leaves : Text.Leaves Char.isDigit tail)
    : ofText (digits ++ '.' :: (fraction ++ tail))
      = ⟨digitsValue (digits ++ fraction), (readPower tail).getD 0 - fraction.length⟩ := by
  have point : Text.Leaves Char.isDigit ('.' :: (fraction ++ tail)) := .cons (by decide)
  rw [ofText, point.takeWhile_append inner, point.dropWhile_append inner, splitFraction,
    leaves.takeWhile_append after, leaves.dropWhile_append after]

theorem Decimal.ofText_whole (leaves : Text.Leaves Char.isDigit tail)
    (pointless : tail.head? ≠ some '.')
    : ofText (digits ++ tail) = ⟨digitsValue digits, (readPower tail).getD 0⟩ := by
  have behind : splitFraction tail = ([], tail) := by
    unfold splitFraction
    split
    · exact absurd rfl pointless
    · rfl
  rw [ofText, leaves.takeWhile_append inner, leaves.dropWhile_append inner, behind,
    List.append_nil]
  exact congrArg _ (Int.sub_zero _)

/-- Zeros in front of the digits shift them behind the point. -/
theorem value_leadingZeros (count : ℕ)
    : (Decimal.ofText ('0' :: '.' :: (List.replicate count '0' ++ digits))).value
      = digitsValue digits * 10 ^ (0 - (count + digits.length : ℕ) : Int) := by
  have shown := Decimal.ofText_pointed (isDigit_of_mem_zeros 1)
    (List.forall_mem_append.mpr ⟨isDigit_of_mem_zeros count, inner⟩) .nil
  rw [List.append_nil, ← List.append_assoc, List.replicate_append_replicate,
    digitsValue_append, digitsValue_zeros, Nat.mul_zero, Nat.zero_add, List.length_append,
    List.length_replicate] at shown
  exact congrArg Decimal.value shown

/-- Zeros behind the digits shift them in front of the point, written or not. -/
theorem value_padded (pointed : Bool) (count : ℕ)
    : (Decimal.ofText
        (digits ++ List.replicate count '0' ++ if pointed then ['.', '0'] else [])).value
      = digitsValue digits * 10 ^ (count : Int) := by
  have padded := List.forall_mem_append.mpr ⟨inner, isDigit_of_mem_zeros count⟩
  split
  · have shown := Decimal.ofText_pointed padded (isDigit_of_mem_zeros 1) .nil
    rw [List.append_nil, List.append_assoc _ _ (List.replicate 1 '0'),
      List.replicate_append_replicate] at shown
    refine (congrArg Decimal.value shown).trans ?_
    rw [← value_zeros digits (count + 1), Decimal.value]
    congr 2
    simp [readPower]
  · have shown := Decimal.ofText_whole padded .nil nofun
    rw [List.append_nil] at shown
    rw [List.append_nil, shown, Decimal.value, ← value_zeros digits count, Int.sub_self]
    rfl

/-- A point among the digits shifts those behind it. -/
theorem value_pointed (place : ℕ)
    : (Decimal.ofText (digits.take place ++ '.' :: digits.drop place)).value
      = digitsValue digits * 10 ^ (0 - (digits.length - place : ℕ) : Int) := by
  have before : ∀ c ∈ digits.take place, c.isDigit = true :=
    fun c found => inner c (List.take_subset _ _ found)
  have behind : ∀ c ∈ digits.drop place, c.isDigit = true :=
    fun c found => inner c (List.drop_subset _ _ found)
  have shown := Decimal.ofText_pointed before behind .nil
  rw [List.append_nil, List.take_append_drop, List.length_drop] at shown
  exact congrArg Decimal.value shown

/-- Digits that are set around the point stand for their value, shifted to the power of ten of the
first.
-/
theorem value_setPositional (pointed : Bool) (decade : Int)
    : (Decimal.ofText (setPositional pointed digits decade)).value
      = digitsValue digits * 10 ^ (decade + 1 - digits.length) := by
  unfold setPositional
  split
  case isTrue negative =>
    rw [value_leadingZeros inner]
    congr 2
    omega
  case isFalse =>
    dsimp only
    split
    case isTrue within =>
      rw [List.isEmpty_iff, List.drop_eq_nil_iff] at within
      rw [List.take_of_length_le within, value_padded inner]
      congr 2
      omega
    case isFalse beyond =>
      rw [List.isEmpty_iff, List.drop_eq_nil_iff] at beyond
      rw [value_pointed inner]
      congr 2
      omega

/-- Digits with the point behind the first stand for the same if the power of ten follows. -/
theorem value_setScientific (some : digits ≠ []) (decade : Int)
    : (Decimal.ofText (setScientific digits decade)).value
      = digitsValue digits * 10 ^ (decade + 1 - digits.length) := by
  obtain ⟨first, others, rfl⟩ := List.exists_cons_of_ne_nil some
  obtain ⟨leading, following⟩ := List.forall_mem_cons.mp inner
  have mark : Text.Leaves Char.isDigit
      ('e' :: (if decade < 0 then '-' else '+') :: digitsOf decade.natAbs) :=
    .cons (by decide)
  have power : decade - others.length = decade + 1 - (first :: others).length := by
    rw [List.length_cons]
    omega
  rw [← power]
  cases others with
  | nil =>
      have shown := Decimal.ofText_whole inner mark nofun
      rw [readPower_exponent] at shown
      exact (congrArg Decimal.value shown).trans (by rw [Decimal.value]; simp)
  | cons second others =>
      have shown := Decimal.ofText_pointed (List.forall_mem_singleton.mpr leading) following mark
      rw [readPower_exponent] at shown
      exact congrArg Decimal.value shown

end

-----------------------------------------------------------------------------------------
-- Numbers
-----------------------------------------------------------------------------------------

/-- A text is digits that are set in one of the two ways, and stands for a value. -/
inductive Shows (pointed : Bool) : List Char → ℚ → Prop
  | positional {digits : List Char} (some : digits ≠ []) (inner : ∀ c ∈ digits, c.isDigit = true)
      (decade : Int)
      : Shows pointed (setPositional pointed digits decade)
          (digitsValue digits * 10 ^ (decade + 1 - digits.length))
  | scientific {digits : List Char} (some : digits ≠ []) (inner : ∀ c ∈ digits, c.isDigit = true)
      (decade : Int)
      : Shows pointed (setScientific digits decade)
          (digitsValue digits * 10 ^ (decade + 1 - digits.length))

namespace Shows

variable {pointed : Bool} {text : List Char} {value : ℚ}

theorem value_ofText (shows : Shows pointed text value)
    : (Decimal.ofText text).value = value := by
  cases shows with
  | positional _ inner decade => exact value_setPositional inner pointed decade
  | scientific some inner decade => exact value_setScientific inner some decade

/-- The text starts with a digit. -/
theorem exists_head? (shows : Shows pointed text value)
    : ∃ first, text.head? = some first ∧ first.isDigit = true := by
  cases shows with
  | @positional digits some inner decade =>
      obtain ⟨first, others, rfl⟩ := List.exists_cons_of_ne_nil some
      have leading := inner first List.mem_cons_self
      unfold setPositional
      split
      · exact ⟨'0', rfl, by decide⟩
      dsimp only
      split <;> exact ⟨first, rfl, leading⟩
  | @scientific digits some inner decade =>
      obtain ⟨first, others, rfl⟩ := List.exists_cons_of_ne_nil some
      exact ⟨first, rfl, inner first List.mem_cons_self⟩

theorem head?_ne_minus (shows : Shows pointed text value) : text.head? ≠ some '-' := by
  obtain ⟨first, head, digit⟩ := shows.exists_head?
  rw [head]
  rintro ⟨⟩
  exact absurd digit (by decide)

end Shows

/-- A character that the text of a finite number can have. -/
def isNumeric (c : Char) : Bool :=
  c.isDigit || c = '.' || c = 'e' || c = '+' || c = '-'

theorem isNumeric_of_isDigit {c : Char} (digit : c.isDigit = true) : isNumeric c = true := by
  simp [isNumeric, digit]

/-- The text has no other characters. -/
theorem Shows.numeric {pointed : Bool} {text : List Char} {value : ℚ}
    (shows : Shows pointed text value)
    : ∀ c ∈ text, isNumeric c = true := by
  have digitsOnly {digits : List Char} (inner : ∀ c ∈ digits, c.isDigit = true)
      : ∀ c ∈ digits, isNumeric c = true :=
    fun c found => isNumeric_of_isDigit (inner c found)
  have taken {digits : List Char} (inner : ∀ c ∈ digits, c.isDigit = true) (count : ℕ)
      : ∀ c ∈ digits.take count, isNumeric c = true :=
    fun c found => digitsOnly inner c (List.take_subset _ _ found)
  have dropped {digits : List Char} (inner : ∀ c ∈ digits, c.isDigit = true) (count : ℕ)
      : ∀ c ∈ digits.drop count, isNumeric c = true :=
    fun c found => digitsOnly inner c (List.drop_subset _ _ found)
  have zeros (count : ℕ) : ∀ c ∈ List.replicate count '0', isNumeric c = true :=
    digitsOnly (isDigit_of_mem_zeros count)
  cases shows with
  | positional _ inner decade =>
      unfold setPositional
      split
      · exact List.forall_mem_cons.mpr ⟨by decide, List.forall_mem_cons.mpr ⟨by decide,
          List.forall_mem_append.mpr ⟨zeros _, digitsOnly inner⟩⟩⟩
      dsimp only
      split
      · refine List.forall_mem_append.mpr
          ⟨List.forall_mem_append.mpr ⟨taken inner _, zeros _⟩, ?_⟩
        split <;> exact List.all_eq_true.mp rfl
      · exact List.forall_mem_append.mpr ⟨taken inner _,
          List.forall_mem_cons.mpr ⟨by decide, dropped inner _⟩⟩
  | scientific _ inner decade =>
      refine List.forall_mem_append.mpr ⟨List.forall_mem_append.mpr ⟨taken inner _, ?_⟩,
        List.forall_mem_cons.mpr ⟨by decide, List.forall_mem_cons.mpr
          ⟨?_, digitsOnly fun _ => Text.isDigit_of_mem_digits⟩⟩⟩
      · split
        · exact List.forall_mem_nil _
        · exact List.forall_mem_cons.mpr ⟨by decide, dropped inner _⟩
      · split <;> decide

/-- In a style that keeps the point, the text has a point or a power of ten. -/
theorem Shows.exists_mark {text : List Char} {value : ℚ} (shows : Shows true text value)
    : '.' ∈ text ∨ 'e' ∈ text := by
  cases shows with
  | positional _ inner decade =>
      left
      unfold setPositional
      split
      · exact .tail _ (.head _)
      dsimp only
      split
      · exact List.mem_append_right _ (.head _)
      · exact List.mem_append_right _ (.head _)
  | scientific _ inner decade => exact .inr (List.mem_append_right _ (.head _))

/-- The text of a finite number without its sign. -/
def unsigned (style : DecimalStyle) (x : Binary64) : List Char :=
  if x.isZero then setPositional style.pointed ['0'] 0
  else
    let decimal := x.shortest style.tie
    let all := digitsOf decimal.coefficient
    let digits := dropTrailingZeros all
    let decade := decimal.power + all.length - 1
    if style.positional decade then setPositional style.pointed digits decade
    else setScientific digits decade

variable {x y : Binary64}

theorem format_of_isFinite (style : DecimalStyle) (finite : x.isFinite = true)
    : (x.format style).toList
      = (if x.isNegative then ['-'] else []) ++ x.unsigned style := by
  rw [isFinite, Bool.and_eq_true, Bool.not_eq_true', Bool.not_eq_true'] at finite
  rw [format, if_neg (Bool.eq_false_iff.mp finite.1), String.toList_ofList, finite.2]
  cases x.isNegative <;> rfl

/-- A decimal is told by its digits without the zeros at the end. -/
theorem Decimal.value_eq_digits (decimal : Decimal)
    : digitsValue (dropTrailingZeros (digitsOf decimal.coefficient))
        * 10 ^ (decimal.power + (digitsOf decimal.coefficient).length - 1 + 1
          - (dropTrailingZeros (digitsOf decimal.coefficient)).length)
      = decimal.value := by
  obtain ⟨count, split⟩ := exists_dropTrailingZeros (digitsOf decimal.coefficient)
  have lengths := congrArg List.length split
  rw [List.length_append, List.length_replicate] at lengths
  rw [← value_zeros _ count, ← split, digitsValue_digitsOf, value, lengths]
  congr 2
  push_cast
  ring

/-- The text of a number without its sign stands for zero or for a decimal in the interval of the
number.
-/
theorem shows_unsigned (style : DecimalStyle) (x : Binary64)
    : ∃ value,
        Shows style.pointed (x.unsigned style) value
        ∧ ((x.isZero = true ∧ value = 0)
          ∨ (x.isZero = false ∧ x.neighbourhood.Contains value)) := by
  cases zero : x.isZero with
  | true =>
      have digit : ∀ c ∈ ['0'], c.isDigit = true := List.all_eq_true.mp rfl
      rw [unsigned, if_pos zero]
      exact ⟨_, .positional (List.cons_ne_nil _ _) digit 0, .inl ⟨rfl, zero_mul _⟩⟩
  | false =>
      have contains := contains_shortest style.tie zero
      have shown := (x.shortest style.tie).value_eq_digits
      have inner := isDigit_of_mem_dropTrailingZeros (x.shortest style.tie).coefficient
      have some : dropTrailingZeros (digitsOf (x.shortest style.tie).coefficient) ≠ [] := by
        intro none
        have positive := pos_of_contains zero contains
        rw [← shown, none, show digitsValue [] = 0 from rfl, Nat.cast_zero, zero_mul] at positive
        exact lt_irrefl _ positive
      rw [unsigned, if_neg (by simp [zero])]
      refine ⟨_, ?_, .inr ⟨rfl, contains⟩⟩
      rw [← shown]
      dsimp only
      split
      · exact .positional some inner _
      · exact .scientific some inner _

/-- A finite number is told by its text. -/
theorem format_injective (style : DecimalStyle) (finite : x.isFinite = true)
    (finite' : y.isFinite = true) (same : x.format style = y.format style)
    : x = y := by
  obtain ⟨value, shows, kind⟩ := shows_unsigned style x
  obtain ⟨value', shows', kind'⟩ := shows_unsigned style y
  have texts := congrArg String.toList same
  rw [format_of_isFinite style finite, format_of_isFinite style finite'] at texts
  obtain ⟨signs, bodies⟩ :=
    Text.sign_unique shows.head?_ne_minus shows'.head?_ne_minus texts
  have values : value = value' := by
    rw [← shows.value_ofText, bodies, shows'.value_ofText]
  subst values
  refine eq_of_magnitude (Bool.eq_iff_iff.mpr signs) ?_
  rcases kind with ⟨zero, none⟩ | ⟨nonzero, contains⟩ <;>
    rcases kind' with ⟨zero', none'⟩ | ⟨nonzero', contains'⟩
  · exact (of_decide_eq_true zero).trans (of_decide_eq_true zero').symm
  · exact absurd (none ▸ pos_of_contains nonzero' contains') (lt_irrefl _)
  · exact absurd (none' ▸ pos_of_contains nonzero contains) (lt_irrefl _)
  · exact magnitude_eq_of_contains contains contains'

end StackScript.Binary64
