import Mathlib.Data.List.DropRight
import StackScript.Proofs.Source.Positions

/-! The line around a place in a text. What stands behind the last line feed in front of the place
and what follows up to the next line feed make the line, and the position of the place counts the
line feeds and the characters in front of it.
-/

namespace StackScript.Source

open Token (bytes)

-----------------------------------------------------------------------------------------
-- Parts of a line
-----------------------------------------------------------------------------------------

/-- The characters behind the last line feed. -/
def lastLine (text : List Char) : List Char :=
  text.rtakeWhile (· ≠ '\n')

/-- The characters in front of the first line feed. -/
def firstLine (text : List Char) : List Char :=
  text.takeWhile (· ≠ '\n')

theorem lastLine_newline (text : List Char) : lastLine (text ++ ['\n']) = [] :=
  List.rtakeWhile_concat_neg _ _ _ (by simp)

theorem lastLine_other (text : List Char) {c : Char} (other : c ≠ '\n')
    : lastLine (text ++ [c]) = lastLine text ++ [c] :=
  List.rtakeWhile_concat_pos _ _ _ (by simpa using other)

theorem firstLine_newline (rest : List Char) : firstLine ('\n' :: rest) = [] :=
  List.takeWhile_cons_of_neg (by simp)

theorem firstLine_other {c : Char} (rest : List Char) (other : c ≠ '\n')
    : firstLine (c :: rest) = c :: firstLine rest :=
  List.takeWhile_cons_of_pos (by simpa using other)

theorem other_of_mem {text : List Char} (none : '\n' ∉ text)
    : ∀ c ∈ text, decide (c ≠ '\n') = true := by
  intro c found
  rw [decide_eq_true_eq]
  rintro rfl
  exact none found

/-- Characters without a line feed belong to the line in which they follow. -/
theorem lastLine_append (text : List Char) {more : List Char} (none : '\n' ∉ more)
    : lastLine (text ++ more) = lastLine text ++ more := by
  have others := other_of_mem (mt List.mem_reverse.mp none)
  rw [lastLine, List.rtakeWhile, List.reverse_append, List.takeWhile_append_of_pos others,
    List.reverse_append, List.reverse_reverse]
  rfl

theorem firstLine_append {text : List Char} (more : List Char) (none : '\n' ∉ text)
    : firstLine (text ++ more) = text ++ firstLine more :=
  List.takeWhile_append_of_pos (other_of_mem none)

/-- What follows a line feed does not belong to the line that ends there. -/
theorem firstLine_append_of_mem {text : List Char} (more : List Char) (found : '\n' ∈ text)
    : firstLine (text ++ more) = firstLine text := by
  obtain ⟨line, rest, rfl, none⟩ := List.eq_append_cons_of_mem found
  rw [List.append_assoc, List.cons_append, firstLine_append _ none, firstLine_append _ none,
    firstLine_newline, firstLine_newline]

/-- The first line of a text without a line feed is the text. -/
theorem firstLine_eq_self {text : List Char} (none : '\n' ∉ text) : firstLine text = text := by
  have all := firstLine_append [] none
  rwa [List.append_nil, firstLine, firstLine, List.takeWhile_nil, List.append_nil] at all

theorem firstLine_prefix (text more : List Char) : firstLine text <+: firstLine (text ++ more) := by
  by_cases found : '\n' ∈ text
  · exact (firstLine_append_of_mem more found).symm ▸ List.prefix_refl _
  · rw [firstLine_append more found, firstLine_eq_self found]
    exact List.prefix_append _ _

theorem count_newline (text : List Char)
    : (text ++ ['\n']).count '\n' = text.count '\n' + 1 := by
  rw [List.count_append, List.count_singleton_self]

theorem count_other (text : List Char) {c : Char} (other : c ≠ '\n')
    : (text ++ [c]).count '\n' = text.count '\n' := by
  have none : List.count '\n' [c] = 0 := List.count_eq_zero.mpr (by simpa using other.symm)
  rw [List.count_append, none, Nat.add_zero]

/-- What is cut off at the first line feed is what the first line is. -/
theorem head?_splitLines (text : List Char)
    : ∃ lines, splitLines text = firstLine text :: lines := by
  induction text with
  | nil => exact ⟨[], rfl⟩
  | cons c rest ih =>
      obtain ⟨lines, same⟩ := ih
      by_cases newline : c = '\n'
      · subst newline
        exact ⟨_, by rw [splitLines_newline, firstLine_newline]⟩
      · exact ⟨lines, by rw [splitLines_other newline same, firstLine_other rest newline]⟩

/-- The lines from the one on in which a text is cut, by induction from the end of what stands in
front of the cut: a line feed there closes a line, and another character lengthens the first.
-/
theorem drop_splitLines (before behind : List Char)
    : (splitLines (before ++ behind)).drop (before.count '\n')
      = (lastLine before ++ firstLine behind) :: (splitLines behind).tail := by
  induction before using List.reverseRecOn generalizing behind with
  | nil =>
      obtain ⟨lines, same⟩ := head?_splitLines behind
      rw [List.nil_append, same]
      rfl
  | append_singleton before c ih =>
      obtain ⟨lines, same⟩ := head?_splitLines behind
      have inner := ih (c :: behind)
      rw [List.append_assoc, List.singleton_append]
      by_cases newline : c = '\n'
      · subst newline
        rw [splitLines_newline] at inner
        rw [count_newline, ← List.drop_drop, inner, lastLine_newline, same]
        rfl
      · rw [firstLine_other behind newline, splitLines_other newline same] at inner
        rw [count_other before newline, inner, lastLine_other before newline, List.append_cons,
          same]
        rfl

/-- The line in which a text is cut. -/
theorem getElem?_splitLines (before behind : List Char)
    : (splitLines (before ++ behind))[before.count '\n']?
      = some (lastLine before ++ firstLine behind) := by
  have cut := congrArg List.head? (drop_splitLines before behind)
  rwa [List.head?_drop] at cut

/-- Counting goes through the lines, by induction from the end of what is counted. -/
theorem foldl_after_start (text : List Char)
    : text.foldl Position.after ⟨1, 1⟩ = ⟨text.count '\n' + 1, (lastLine text).length + 1⟩ := by
  induction text using List.reverseRecOn with
  | nil => rfl
  | append_singleton text c ih =>
      rw [List.foldl_append, ih]
      by_cases newline : c = '\n'
      · subst newline
        rw [lastLine_newline, count_newline]
        rfl
      · rw [lastLine_other text newline, count_other text newline, List.length_append]
        exact if_neg newline

-----------------------------------------------------------------------------------------
-- Positions and texts of lines
-----------------------------------------------------------------------------------------

/-- Offsets behind the end of a text are all the same. -/
theorem positionFrom_beyond (text : List Char) {offset : Nat} (reached lineStart : Nat)
    (here : Position) (beyond : reached + bytes text ≤ offset)
    : positionFrom offset text reached lineStart here = text.foldl Position.after here := by
  induction text generalizing reached lineStart here with
  | nil => rfl
  | cons c rest ih =>
      have size := Token.bytes_cons c rest
      have some := c.utf8Size_pos
      rw [positionFrom, if_neg (by omega), if_neg (by omega), List.foldl_cons, Position.after]
      split <;> exact ih _ _ _ (by omega)

theorem position_min (source : String) (offset : Nat)
    : position source (min offset source.utf8ByteSize) = position source offset := by
  rcases Nat.le_total offset source.utf8ByteSize with within | beyond
  · rw [Nat.min_eq_left within]
  · have size := Token.bytes_toList source
    rw [Nat.min_eq_right beyond, position, position, positionFrom_beyond _ _ _ _ (by omega),
      positionFrom_beyond _ _ _ _ (by omega)]

/-- The position of a place counts the line feeds in front of it and the characters behind the
last of these.
-/
theorem position_split {source : String} {before behind : List Char} {offset : Nat}
    (parts : source.toList = before ++ behind)
    (place : min offset source.utf8ByteSize = bytes before)
    : position source offset = ⟨before.count '\n' + 1, (lastLine before).length + 1⟩ := by
  rw [← position_min, place, position_eq parts, foldl_after_start]

/-- The text of the line in which a source is cut. -/
theorem toList_lineText {source : String} {before behind : List Char}
    (parts : source.toList = before ++ behind)
    : (lineText source (before.count '\n' + 1)).toList
      = trimReturns (lastLine before ++ firstLine behind) := by
  rw [lineText, if_neg (Nat.succ_ne_zero _), Nat.add_sub_cancel, parts, getElem?_splitLines,
    Option.getD_some, String.toList_ofList]

/-- Only carriage returns at the end of a line are dropped. -/
theorem trimReturns_append (front rest : List Char) {c : Char} (other : c ≠ '\r')
    : trimReturns (front ++ c :: rest) = front ++ c :: trimReturns rest := by
  have stops : (c :: front.reverse).dropWhile (· = '\r') = c :: front.reverse :=
    List.dropWhile_cons_of_neg (by simpa using other)
  rw [trimReturns, List.reverse_append, List.reverse_cons, List.append_assoc,
    List.singleton_append, List.dropWhile_append, stops]
  split
  · rename_i none
    rw [trimReturns, List.isEmpty_iff.mp none]
    simp
  · rw [trimReturns]
    simp

/-- Nothing is dropped from the end of a text without the character to drop. -/
theorem rdropWhile_eq_self {c : Char} {text : List Char} (none : c ∉ text)
    : text.rdropWhile (· = c) = text := by
  refine List.rdropWhile_eq_self_iff.mpr fun some last => none ?_
  rw [← of_decide_eq_true last]
  exact List.getLast_mem some

theorem trimReturns_eq_self {line : List Char} (none : '\r' ∉ line) : trimReturns line = line :=
  rdropWhile_eq_self none

end StackScript.Source
