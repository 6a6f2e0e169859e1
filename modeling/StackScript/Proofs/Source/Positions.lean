import StackScript.Proofs.Token.Tiling
import StackScript.Source.Position

/-! Positions of characters. At an offset where a character starts or the text ends, the position
is found by counting what stands in front of it. So positions come in the order of the offsets,
and each is a place in one of the lines of the text or behind its last character.
-/

namespace StackScript

open Token (bytes)

namespace Source

-----------------------------------------------------------------------------------------
-- Counting
-----------------------------------------------------------------------------------------

namespace Position

/-- The position behind a character. -/
def after (here : Position) (c : Char) : Position :=
  if c = '\n' then ⟨here.line + 1, 1⟩ else ⟨here.line, here.column + 1⟩

/-- One position comes before another or is the same. -/
def NotAfter (first second : Position) : Prop :=
  first.line < second.line ∨ first.line = second.line ∧ first.column ≤ second.column

theorem NotAfter.refl (here : Position) : NotAfter here here :=
  .inr ⟨rfl, Nat.le_refl _⟩

theorem NotAfter.trans {first second third : Position} (front : NotAfter first second)
    (back : NotAfter second third)
    : NotAfter first third := by
  unfold NotAfter at *
  omega

theorem notAfter_after (here : Position) (c : Char) : NotAfter here (here.after c) := by
  unfold after
  split
  · exact .inl (Nat.lt_succ_self _)
  · exact .inr ⟨rfl, Nat.le_succ _⟩

/-- Counting goes forward. -/
theorem notAfter_foldl (here : Position) (text : List Char)
    : NotAfter here (text.foldl after here) := by
  induction text generalizing here with
  | nil => exact .refl here
  | cons c text ih => exact (notAfter_after here c).trans (ih _)

end Position

/-- The position of the offset behind some text is found by counting its characters, by
induction on them.
-/
theorem positionFrom_eq (before behind : List Char) (reached lineStart : Nat) (here : Position)
    : positionFrom (reached + bytes before) (before ++ behind) reached lineStart here
      = before.foldl Position.after here := by
  induction before generalizing reached lineStart here with
  | nil =>
      cases behind with
      | nil => rfl
      | cons c rest =>
          rw [List.nil_append, positionFrom]
          exact if_pos (Nat.le_refl _)
  | cons c before ih =>
      have size := Token.bytes_cons c before
      have some := c.utf8Size_pos
      have inside : ¬reached + bytes (c :: before) ≤ reached := by omega
      have beyond : ¬reached + bytes (c :: before) < reached + c.utf8Size := by omega
      have place : reached + bytes (c :: before) = reached + c.utf8Size + bytes before := by omega
      rw [List.cons_append, positionFrom, if_neg inside, if_neg beyond, List.foldl_cons,
        Position.after]
      split <;> rw [place, ih]

-----------------------------------------------------------------------------------------
-- Offsets between characters
-----------------------------------------------------------------------------------------

/-- A character of the text starts at the offset, or the text ends there. -/
def Boundary (source : String) (offset : Nat) : Prop :=
  ∃ before behind, source.toList = before ++ behind ∧ offset = bytes before

theorem Boundary.zero (source : String) : Boundary source 0 :=
  ⟨[], source.toList, rfl, rfl⟩

theorem position_eq {source : String} {before behind : List Char}
    (parts : source.toList = before ++ behind)
    : position source (bytes before) = before.foldl Position.after ⟨1, 1⟩ := by
  have counted := positionFrom_eq before behind 0 0 ⟨1, 1⟩
  rwa [Nat.zero_add, ← parts] at counted

/-- Positions come in the order of the offsets. -/
theorem position_notAfter {source : String} {low high : Nat} (first : Boundary source low)
    (second : Boundary source high) (order : low ≤ high)
    : (position source low).NotAfter (position source high) := by
  obtain ⟨before, behind, parts, rfl⟩ := first
  obtain ⟨before', behind', parts', rfl⟩ := second
  rw [position_eq parts, position_eq parts']
  rcases List.append_eq_append_iff.mp (parts.symm.trans parts') with
    ⟨more, rfl, -⟩ | ⟨more, rfl, -⟩
  · rw [List.foldl_append]
    exact Position.notAfter_foldl _ more
  · cases more with
    | nil =>
        rw [List.append_nil]
        exact .refl _
    | cons c more =>
        have some := Token.bytes_pos (List.cons_ne_nil c more)
        rw [Token.bytes_append] at order
        omega

-----------------------------------------------------------------------------------------
-- Places in lines
-----------------------------------------------------------------------------------------

theorem splitLines_ne_nil (text : List Char) : splitLines text ≠ [] := by
  cases text with
  | nil => exact nofun
  | cons c rest =>
      unfold splitLines
      split
      · exact nofun
      · split <;> exact nofun

theorem splitLines_newline (rest : List Char)
    : splitLines ('\n' :: rest) = [] :: splitLines rest := by
  obtain ⟨line, lines, same⟩ := List.exists_cons_of_ne_nil (splitLines_ne_nil rest)
  rw [splitLines, same]
  exact if_pos rfl

theorem splitLines_other {c : Char} {rest line : List Char} {lines : List (List Char)}
    (other : c ≠ '\n') (same : splitLines rest = line :: lines)
    : splitLines (c :: rest) = (c :: line) :: lines := by
  rw [splitLines, same]
  exact if_neg other

/-- Counting stays in the lines of the text, by induction on what is counted: the first line
goes on from the given column, and the others from the first.
-/
theorem foldl_after_inside (before behind : List Char) (here : Position) (some : 1 ≤ here.column)
    : 1 ≤ (before.foldl Position.after here).column
      ∧ ∃ index line,
          (before.foldl Position.after here).line = here.line + index
          ∧ (splitLines (before ++ behind))[index]? = Option.some line
          ∧ (before.foldl Position.after here).column
            ≤ (if index = 0 then here.column else 1) + line.length := by
  induction before generalizing here with
  | nil =>
      obtain ⟨line, lines, same⟩ := List.exists_cons_of_ne_nil (splitLines_ne_nil behind)
      refine ⟨some, 0, line, rfl, ?_, Nat.le_add_right _ _⟩
      rw [List.nil_append, same]
      rfl
  | cons c before ih =>
      rw [List.foldl_cons, List.cons_append]
      by_cases newline : c = '\n'
      · subst newline
        obtain ⟨low, index, line, place, found, high⟩ := ih ⟨here.line + 1, 1⟩ (Nat.le_refl 1)
        rw [ite_self] at high
        refine ⟨low, index + 1, line, ?_, ?_, high⟩
        · exact place.trans (Nat.add_right_comm _ _ _)
        · rw [splitLines_newline]
          exact found
      · have next : here.after c = ⟨here.line, here.column + 1⟩ := if_neg newline
        obtain ⟨low, index, line, place, found, high⟩ := ih (here.after c) (by simp [next])
        obtain ⟨first, lines, same⟩ :=
          List.exists_cons_of_ne_nil (splitLines_ne_nil (before ++ behind))
        rw [next] at low place high ⊢
        rw [same] at found
        rw [splitLines_other newline same]
        cases index with
        | zero =>
            obtain rfl := Option.some.inj found
            refine ⟨low, 0, c :: first, place, rfl, ?_⟩
            simp only [if_true, List.length_cons] at high ⊢
            omega
        | succ index => exact ⟨low, index + 1, line, place, found, high⟩

/-- The position is that of a character in one of the lines of the text, or behind the last
character of one.
-/
def Position.Inside (source : String) (here : Position) : Prop :=
  1 ≤ here.line ∧ 1 ≤ here.column
    ∧ ∃ line,
        (splitLines source.toList)[here.line - 1]? = some line
        ∧ here.column ≤ line.length + 1

theorem position_inside {source : String} {offset : Nat} (boundary : Boundary source offset)
    : (position source offset).Inside source := by
  obtain ⟨before, behind, parts, rfl⟩ := boundary
  obtain ⟨low, index, line, place, found, high⟩ :=
    foldl_after_inside before behind ⟨1, 1⟩ (Nat.le_refl 1)
  rw [ite_self, Nat.add_comm] at high
  rw [position_eq parts]
  refine ⟨?_, low, line, ?_, high⟩
  · exact place ▸ Nat.le_add_right 1 index
  · rwa [parts, place, Nat.add_sub_cancel_left]

end Source

end StackScript
