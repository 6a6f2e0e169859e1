/-! Words and numbers inside texts. A run of characters of one class ends where another character
follows, so that it can be told from what stands behind it, and a number is told by its digits.
-/

namespace StackScript.Text

-----------------------------------------------------------------------------------------
-- Runs
-----------------------------------------------------------------------------------------

/-- The text does not start with a character of the class. -/
def Leaves (isInner : Char → Bool) (text : List Char) : Prop :=
  ∀ c ∈ text.head?, isInner c = false

namespace Leaves

variable {isInner : Char → Bool} {c : Char} {rest : List Char}

theorem nil : Leaves isInner [] := nofun

theorem cons (other : isInner c = false) : Leaves isInner (c :: rest) := by
  rintro _ ⟨⟩
  exact other

/-- A run in front of such a text is what is taken of the class. -/
theorem takeWhile_append {run : List Char} (leaves : Leaves isInner rest)
    (inner : ∀ c ∈ run, isInner c = true)
    : (run ++ rest).takeWhile isInner = run := by
  rw [List.takeWhile_append_of_pos inner]
  cases rest with
  | nil => rw [List.takeWhile_nil, List.append_nil]
  | cons c rest => rw [List.takeWhile_cons_of_neg (by simp [leaves c rfl]), List.append_nil]

/-- A run in front of such a text is all that is dropped of the class. -/
theorem dropWhile_append {run : List Char} (leaves : Leaves isInner rest)
    (inner : ∀ c ∈ run, isInner c = true)
    : (run ++ rest).dropWhile isInner = rest := by
  rw [List.dropWhile_append_of_pos inner]
  cases rest with
  | nil => rfl
  | cons c rest => rw [List.dropWhile_cons_of_neg (by simp [leaves c rfl])]

end Leaves

/-- Runs of one class in front of texts that leave it are the same if the whole is. -/
theorem run_unique {isInner : Char → Bool} {run run' rest rest' : List Char}
    (inner : ∀ c ∈ run, isInner c = true) (inner' : ∀ c ∈ run', isInner c = true)
    (leaves : Leaves isInner rest) (leaves' : Leaves isInner rest')
    (same : run ++ rest = run' ++ rest')
    : run = run' ∧ rest = rest' := by
  have runs : run = run' := by
    rw [← leaves.takeWhile_append inner, same, leaves'.takeWhile_append inner']
  subst runs
  exact ⟨rfl, List.append_cancel_left same⟩

-----------------------------------------------------------------------------------------
-- Numbers
-----------------------------------------------------------------------------------------

theorem toList_toString_nat (number : Nat) : (toString number).toList = Nat.toDigits 10 number := by
  rw [Nat.toString_eq_ofList_toDigits, String.toList_ofList]

theorem isDigit_of_mem_digits {number : Nat} {c : Char} (found : c ∈ Nat.toDigits 10 number)
    : c.isDigit = true :=
  Nat.isDigit_of_mem_toDigits (by decide) (by decide) found

/-- A number is told by its digits. -/
theorem digits_injective {number other : Nat}
    (same : Nat.toDigits 10 number = Nat.toDigits 10 other)
    : number = other := by
  rw [← Nat.ofDigitChars_ten_toDigits (n := number), same, Nat.ofDigitChars_ten_toDigits]

theorem toString_nat_injective {number other : Nat} (same : toString number = toString other)
    : number = other := by
  have digits := congrArg String.toList same
  rw [toList_toString_nat, toList_toString_nat] at digits
  exact digits_injective digits

/-- The text of an integer starts with a sign or a digit. -/
theorem toList_toString_int (number : Int)
    : (toString number).toList
      = (if number < 0 then ['-'] else []) ++ Nat.toDigits 10 number.natAbs := by
  cases number with
  | ofNat number =>
      rw [if_neg (by simp)]
      exact toList_toString_nat number
  | negSucc number =>
      rw [if_pos (Int.negSucc_lt_zero number)]
      change ("-" ++ toString (number + 1)).toList = _
      rw [String.toList_append, toList_toString_nat]
      rfl

/-- A sign in front of texts that start otherwise is the same if the whole is. -/
theorem sign_unique {negative negative' : Prop} [Decidable negative] [Decidable negative']
    {text text' : List Char} (unsigned : text.head? ≠ some '-') (unsigned' : text'.head? ≠ some '-')
    (same
      : (if negative then ['-'] else []) ++ text = (if negative' then ['-'] else []) ++ text')
    : (negative ↔ negative') ∧ text = text' := by
  by_cases minus : negative <;> by_cases minus' : negative'
  · rw [if_pos minus, if_pos minus'] at same
    exact ⟨iff_of_true minus minus', (List.cons.inj same).2⟩
  · rw [if_pos minus, if_neg minus'] at same
    exact absurd (congrArg List.head? same.symm) unsigned'
  · rw [if_neg minus, if_pos minus'] at same
    exact absurd (congrArg List.head? same) unsigned
  · rw [if_neg minus, if_neg minus'] at same
    exact ⟨iff_of_false minus minus', same⟩

theorem head?_digits_ne_minus (number : Nat) : (Nat.toDigits 10 number).head? ≠ some '-' :=
  fun found => absurd (isDigit_of_mem_digits (List.mem_of_head? found)) (by decide)

/-- An integer is told by its text. -/
theorem toString_int_injective {number other : Int} (same : toString number = toString other)
    : number = other := by
  have texts := congrArg String.toList same
  rw [toList_toString_int, toList_toString_int] at texts
  obtain ⟨signs, digits⟩ :=
    sign_unique (head?_digits_ne_minus _) (head?_digits_ne_minus _) texts
  have sizes := digits_injective digits
  omega

end StackScript.Text
