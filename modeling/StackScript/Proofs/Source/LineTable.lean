import StackScript.Proofs.Source.Lines

/-! Positions found by search. The starts of the lines are put in a table once, the line of an
offset is searched in it by halving, and the text of the line is cut out between two starts. This
gives the positions and the lines that counting gives, and they are those that a reader counts.
-/

namespace StackScript.Source

open Token (bytes)

-----------------------------------------------------------------------------------------
-- The table
-----------------------------------------------------------------------------------------

namespace LineTable

/-- The bytes behind the line feeds of a text that starts at a byte. -/
def startsFrom (reached : Nat) : List Char → List Nat
  | [] => []
  | c :: rest =>
      let next := reached + c.utf8Size
      if c = '\n' then next :: startsFrom next rest else startsFrom next rest

/-- The bytes at which the lines of a source start, in order. -/
def starts (source : String) : List Nat :=
  0 :: startsFrom 0 source.toList

/-- Searches a value between two indices of ordered entries: the index at which it stands or, as
an error, the one at which it would have to be put in.
-/
def search (entries : List Nat) (value low high : Nat) : Except Nat Nat :=
  if low < high then
    let middle := low + (high - low) / 2
    let entry := entries[middle]?.getD 0
    if entry = value then .ok middle
    else if entry < value then search entries value (middle + 1) high
    else search entries value low middle
  else .error low
termination_by high - low

/-- The index of the line in which a byte lies: the last that does not start behind it. -/
def lineIndex (source : String) (offset : Nat) : Nat :=
  match search (starts source) offset 0 (starts source).length with
  | .ok index => index
  | .error index => index - 1

/-- A text cut at a byte, unless that lies inside a character or behind the end. -/
def cut? : Nat → List Char → Option (List Char × List Char)
  | 0, text => some ([], text)
  | _ + 1, [] => none
  | offset + 1, c :: rest =>
      if c.utf8Size ≤ offset + 1 then
        (cut? (offset + 1 - c.utf8Size) rest).map fun (before, behind) => (c :: before, behind)
      else none

/-- The text between two bytes. -/
def slice? (text : List Char) (start stop : Nat) : Option (List Char) := do
  let (_, behind) ← cut? start text
  let (inside, _) ← cut? (stop - start) behind
  return inside

/-- The position of a byte offset. One inside a character is counted in bytes. -/
def position (source : String) (offset : Nat) : Position :=
  let offset := min offset source.utf8ByteSize
  let index := lineIndex source offset
  let start := (starts source)[index]?.getD 0
  match slice? source.toList start offset with
  | some text => ⟨index + 1, text.length + 1⟩
  | none => ⟨index + 1, offset - start + 1⟩

/-- The text of the line with the given number, without its end; empty if there is none. -/
def lineText (source : String) (line : Nat) : String :=
  if line = 0 ∨ (starts source).length < line then ""
  else
    let start := (starts source)[line - 1]?.getD 0
    let stop := (starts source)[line]?.getD source.utf8ByteSize
    let text := (slice? source.toList start stop).getD []
    String.ofList (trimReturns (text.rdropWhile (· = '\n')))

-----------------------------------------------------------------------------------------
-- Starts of lines
-----------------------------------------------------------------------------------------

theorem startsFrom_append (reached : Nat) (text more : List Char)
    : startsFrom reached (text ++ more)
      = startsFrom reached text ++ startsFrom (reached + bytes text) more := by
  induction text generalizing reached with
  | nil => rfl
  | cons c text ih =>
      rw [List.cons_append, startsFrom, startsFrom, Token.bytes_cons, ← Nat.add_assoc, ih]
      split
      · rw [List.cons_append]
      · rfl

theorem length_startsFrom (reached : Nat) (text : List Char)
    : (startsFrom reached text).length = text.count '\n' := by
  induction text generalizing reached with
  | nil => rfl
  | cons c text ih =>
      rw [startsFrom, List.count_cons]
      split
      · rename_i newline
        rw [List.length_cons, ih, newline]
        rfl
      · rename_i other
        rw [ih, if_neg (by simpa using other), Nat.add_zero]

/-- As many lines start up to the end of a text as it has line feeds, and one more. -/
theorem length_cons_startsFrom (text : List Char)
    : (0 :: startsFrom 0 text).length = text.count '\n' + 1 := by
  rw [List.length_cons, length_startsFrom]

/-- Each line starts behind the one before it. -/
theorem pairwise_startsFrom (reached : Nat) (text : List Char)
    : (reached :: startsFrom reached text).Pairwise (· < ·) := by
  induction text generalizing reached with
  | nil => exact List.pairwise_singleton _ _
  | cons c text ih =>
      have some := c.utf8Size_pos
      obtain ⟨later, others⟩ := List.pairwise_cons.mp (ih (reached + c.utf8Size))
      rw [startsFrom]
      split
      · refine List.pairwise_cons.mpr ⟨?_, ih _⟩
        intro start found
        rcases List.mem_cons.mp found with rfl | found
        · omega
        · have := later start found
          omega
      · refine List.pairwise_cons.mpr ⟨fun start found => ?_, others⟩
        have := later start found
        omega

/-- No line starts inside the first character of a text. -/
theorem le_of_mem_startsFrom {reached start : Nat} {c : Char} {rest : List Char}
    (found : start ∈ startsFrom reached (c :: rest))
    : reached + c.utf8Size ≤ start := by
  obtain ⟨later, -⟩ := List.pairwise_cons.mp (pairwise_startsFrom (reached + c.utf8Size) rest)
  rw [startsFrom] at found
  split at found
  · rcases List.mem_cons.mp found with rfl | found
    · exact Nat.le_refl _
    · exact Nat.le_of_lt (later start found)
  · exact Nat.le_of_lt (later start found)

/-- No line starts behind the end of the text. -/
theorem mem_startsFrom_le {reached start : Nat} {text : List Char}
    (found : start ∈ startsFrom reached text)
    : start ≤ reached + bytes text := by
  induction text generalizing reached with
  | nil => cases found
  | cons c text ih =>
      rw [Token.bytes_cons, ← Nat.add_assoc]
      rw [startsFrom] at found
      split at found
      · rcases List.mem_cons.mp found with rfl | found
        · exact Nat.le_add_right _ _
        · exact ih found
      · exact ih found

/-- The last line in front of a place starts where the characters behind the last line feed do. -/
theorem getLastD_startsFrom (text : List Char)
    : (startsFrom 0 text).getLastD 0 = bytes (text.rdropWhile (· ≠ '\n')) := by
  induction text using List.reverseRecOn with
  | nil => rfl
  | append_singleton text c ih =>
      rw [startsFrom_append]
      by_cases newline : c = '\n'
      · subst newline
        rw [List.rdropWhile_concat_neg _ _ _ (by simp), Token.bytes_append, Token.bytes_cons]
        simp [startsFrom]
      · rw [List.rdropWhile_concat_pos _ _ _ (by simpa using newline), ← ih]
        simp [startsFrom, newline]

/-- The lines that start up to a place, and those that start behind it. -/
theorem starts_split {source : String} {before behind : List Char}
    (parts : source.toList = before ++ behind)
    : starts source = 0 :: startsFrom 0 before ++ startsFrom (bytes before) behind := by
  rw [starts, parts, startsFrom_append, Nat.zero_add, List.cons_append]

/-- The start of the line of a place, by the number of line feeds in front of it. -/
theorem getElem?_starts {source : String} {before behind : List Char}
    (parts : source.toList = before ++ behind)
    : (starts source)[before.count '\n']?.getD 0 = bytes (before.rdropWhile (· ≠ '\n')) := by
  rw [starts_split parts, ← length_startsFrom 0 before,
    List.getElem?_append_left (Nat.lt_succ_self _), ← getLastD_startsFrom]
  cases startsFrom 0 before with
  | nil => rfl
  | cons start others =>
      rw [List.length_cons, List.getElem?_cons_succ, List.getLastD_eq_getLast?,
        List.getLast?_eq_getElem?]
      rfl

-----------------------------------------------------------------------------------------
-- Searching
-----------------------------------------------------------------------------------------

section

variable {front back : List Nat} {value : Nat} (below : ∀ entry ∈ front, entry ≤ value)
  (above : ∀ entry ∈ back, value < entry)

include below above

theorem entry_le_iff {index : Nat} (inside : index < (front ++ back).length)
    : (front ++ back)[index]?.getD 0 ≤ value ↔ index < front.length := by
  by_cases first : index < front.length
  · rw [List.getElem?_append_left first, List.getElem?_eq_getElem first]
    exact iff_of_true (below _ (List.getElem_mem first)) first
  · have second : index - front.length < back.length := by
      rw [List.length_append] at inside
      omega
    rw [List.getElem?_append_right (Nat.not_lt.mp first), List.getElem?_eq_getElem second]
    exact iff_of_false (Nat.not_le.mpr (above _ (List.getElem_mem second))) first

/-- Where the entries in front of an index are at most the value and the others are greater, the
search ends at the last of the former, or at the first of the latter if the value is no entry. By
induction on the search, whose bounds stay on both sides of that index.
-/
theorem search_between (ordered : (front ++ back).Pairwise (· < ·)) (low high : Nat)
    (left : low ≤ front.length) (right : front.length ≤ high)
    (inside : high ≤ (front ++ back).length)
    : match search (front ++ back) value low high with
      | .ok index => index + 1 = front.length
      | .error index => index = front.length := by
  fun_induction search (front ++ back) value low high with
  | case1 low high order middle entry same =>
      have within : middle < (front ++ back).length := by omega
      have first := (entry_le_iff below above within).mp (Nat.le_of_eq same)
      refine Nat.le_antisymm first (Nat.not_lt.mp fun more => ?_)
      have next : middle + 1 < (front ++ back).length := by
        rw [List.length_append]
        omega
      have later := (entry_le_iff below above next).mpr more
      have grown := List.pairwise_iff_getElem.mp ordered middle (middle + 1) within next
        (Nat.lt_succ_self _)
      rw [List.getElem?_eq_getElem next, Option.getD_some] at later
      have here : entry = (front ++ back)[middle] := by
        simp only [entry, List.getElem?_eq_getElem within, Option.getD_some]
      omega
  | case2 low high order middle entry other less ih =>
      have within : middle < (front ++ back).length := by omega
      have first := (entry_le_iff below above within).mp (Nat.le_of_lt less)
      exact ih first right inside
  | case3 low high order middle entry other notLess ih =>
      have within : middle < (front ++ back).length := by omega
      have second := mt (entry_le_iff below above within).mpr (by omega)
      exact ih left (Nat.not_lt.mp second) (Nat.le_of_lt within)
  | case4 low high done => exact (by omega : low = front.length)

end

/-- A byte of a text is the start of a character, the end, or inside a character. -/
inductive Reaches (text : List Char) (offset : Nat) (before : List Char) : Prop
  | start {behind : List Char} (parts : text = before ++ behind) (place : offset = bytes before)
  | inside {c : Char} {rest : List Char} (parts : text = before ++ c :: rest)
      (low : bytes before < offset) (high : offset < bytes before + c.utf8Size)

theorem exists_reaches {text : List Char} {offset : Nat} (within : offset ≤ bytes text)
    : ∃ before, Reaches text offset before := by
  induction text generalizing offset with
  | nil => exact ⟨[], .start rfl (Nat.le_zero.mp within)⟩
  | cons c rest ih =>
      rw [Token.bytes_cons] at within
      rcases Nat.lt_or_ge offset c.utf8Size with short | long
      · rcases Nat.eq_zero_or_pos offset with rfl | some
        · exact ⟨[], .start rfl rfl⟩
        · exact ⟨[], .inside rfl some (by simpa using short)⟩
      · have earlier : offset - c.utf8Size ≤ bytes rest := by omega
        obtain ⟨before, reaches⟩ := ih earlier
        have size := Token.bytes_cons c before
        refine ⟨c :: before, ?_⟩
        cases reaches with
        | start parts place => exact .start (congrArg _ parts) (by omega)
        | inside parts low high => exact .inside (congrArg _ parts) (by omega) (by omega)

/-- The search finds the line of a byte. -/
theorem Reaches.lineIndex_eq {source : String} {offset : Nat} {before : List Char}
    (reaches : Reaches source.toList offset before)
    : lineIndex source offset = before.count '\n' := by
  obtain ⟨behind, parts, low, high⟩ : ∃ behind,
      source.toList = before ++ behind
      ∧ bytes before ≤ offset
      ∧ ∀ start ∈ startsFrom (bytes before) behind, offset < start := by
    cases reaches with
    | @start behind parts place =>
        have later := (List.pairwise_cons.mp (pairwise_startsFrom (bytes before) behind)).1
        exact ⟨behind, parts, Nat.le_of_eq place.symm, place ▸ later⟩
    | inside parts low high =>
        refine ⟨_, parts, Nat.le_of_lt low, fun start found => ?_⟩
        have := le_of_mem_startsFrom found
        omega
  have table := starts_split parts
  have ordered := pairwise_startsFrom 0 source.toList
  have below : ∀ start ∈ 0 :: startsFrom 0 before, start ≤ offset := by
    refine List.forall_mem_cons.mpr ⟨Nat.zero_le _, fun start found => ?_⟩
    have := mem_startsFrom_le found
    omega
  have size := length_cons_startsFrom before
  change (starts source).Pairwise _ at ordered
  rw [lineIndex, table]
  rw [table] at ordered
  have found := search_between below high ordered 0 _ (Nat.zero_le _)
    (by rw [List.length_append]; omega) (Nat.le_refl _)
  generalize search (0 :: startsFrom 0 before ++ startsFrom (bytes before) behind) offset 0
    (0 :: startsFrom 0 before ++ startsFrom (bytes before) behind).length = result at found ⊢
  cases result with
  | ok index => exact Nat.succ.inj (found.trans size)
  | error index =>
      change index - 1 = _
      rw [show index = _ from found, size, Nat.add_sub_cancel]

-----------------------------------------------------------------------------------------
-- Cutting
-----------------------------------------------------------------------------------------

theorem cut?_append (before behind : List Char)
    : cut? (bytes before) (before ++ behind) = some (before, behind) := by
  induction before with
  | nil => cases behind <;> rfl
  | cons c before ih =>
      have some := c.utf8Size_pos
      obtain ⟨size, same⟩ : ∃ size, bytes (c :: before) = size + 1 :=
        Nat.exists_eq_add_one.mpr (Token.bytes_pos (List.cons_ne_nil c before))
      have rest : size + 1 - c.utf8Size = bytes before := by
        rw [← same, Token.bytes_cons, Nat.add_sub_cancel_left]
      rw [same, List.cons_append, cut?, rest, ih, if_pos (by rw [← same, Token.bytes_cons]; omega)]
      rfl

theorem cut?_inside {before rest : List Char} {c : Char} {offset : Nat}
    (low : bytes before < offset) (high : offset < bytes before + c.utf8Size)
    : cut? offset (before ++ c :: rest) = none := by
  obtain ⟨offset, rfl⟩ := Nat.exists_eq_add_one.mpr (Nat.zero_lt_of_lt low)
  induction before generalizing offset with
  | nil => rw [List.nil_append, cut?, if_neg (by simpa using high)]
  | cons d before ih =>
      rw [Token.bytes_cons] at low high
      obtain ⟨less, same⟩ : ∃ less, offset + 1 - d.utf8Size = less + 1 :=
        Nat.exists_eq_add_one.mpr (by omega)
      rw [List.cons_append, cut?, if_pos (by omega), same, ih less (by omega) (by omega)]
      rfl

/-- A text between two others is found at its bytes. -/
theorem slice?_append (before inside behind : List Char)
    : slice? (before ++ (inside ++ behind)) (bytes before) (bytes before + bytes inside)
      = some inside := by
  rw [slice?, cut?_append]
  simp only [Option.bind_eq_bind, Option.bind_some, Nat.add_sub_cancel_left, cut?_append]
  rfl

/-- There is no text up to a byte inside a character. -/
theorem slice?_inside {before inside rest : List Char} {c : Char} {offset : Nat}
    (low : bytes before + bytes inside < offset)
    (high : offset < bytes before + bytes inside + c.utf8Size)
    : slice? (before ++ (inside ++ c :: rest)) (bytes before) offset = none := by
  rw [slice?, cut?_append]
  simp only [Option.bind_eq_bind, Option.bind_some]
  rw [cut?_inside (by omega) (by omega)]
  rfl

-----------------------------------------------------------------------------------------
-- Searching and counting
-----------------------------------------------------------------------------------------

/-- A byte inside a character is counted from the start of its line, by induction on the text in
front of that character.
-/
theorem positionFrom_inside {before rest : List Char} {c : Char} {offset : Nat}
    (reached lineStart : Nat) (here : Position) (low : reached + bytes before < offset)
    (high : offset < reached + bytes before + c.utf8Size)
    : positionFrom offset (before ++ c :: rest) reached lineStart here
      = ⟨(before.foldl Position.after here).line,
          offset - (startsFrom reached before).getLastD lineStart + 1⟩ := by
  induction before generalizing reached lineStart here with
  | nil =>
      rw [Token.bytes_nil, Nat.add_zero] at low high
      rw [List.nil_append, positionFrom, if_neg (Nat.not_le.mpr low), if_pos high]
      rfl
  | cons d before ih =>
      rw [Token.bytes_cons, ← Nat.add_assoc] at low high
      rw [List.cons_append, positionFrom, if_neg (by omega), if_neg (by omega), startsFrom,
        List.foldl_cons, Position.after]
      split
      · rw [ih _ _ _ low high, List.getLastD_cons]
      · exact ih _ _ _ low high

/-- The line of a place and what stands in front of it there. -/
theorem rdropWhile_append_lastLine (text : List Char)
    : text.rdropWhile (· ≠ '\n') ++ lastLine text = text :=
  List.rdropWhile_append_rtakeWhile

/-- Searching gives the positions that counting gives. -/
theorem position_eq_counted (source : String) (offset : Nat)
    : position source offset = Source.position source offset := by
  have within : min offset source.utf8ByteSize ≤ bytes source.toList := by
    rw [Token.bytes_toList]
    exact Nat.min_le_right _ _
  obtain ⟨before, reaches⟩ := exists_reaches within
  have line := reaches.lineIndex_eq
  have whole := rdropWhile_append_lastLine before
  have size := congrArg bytes whole
  rw [Token.bytes_append] at size
  rw [position, line]
  cases reaches with
  | @start behind parts place =>
      have cut := slice?_append (before.rdropWhile (· ≠ '\n')) (lastLine before) behind
      rw [← List.append_assoc, whole, ← parts, size, ← place] at cut
      rw [getElem?_starts parts, cut, position_split parts place]
  | @inside c rest parts low high =>
      have none : slice? (before.rdropWhile (· ≠ '\n') ++ (lastLine before ++ c :: rest))
          (bytes (before.rdropWhile (· ≠ '\n'))) (min offset source.utf8ByteSize) = none :=
        slice?_inside (size ▸ low) (size ▸ high)
      rw [← List.append_assoc, whole, ← parts] at none
      rw [getElem?_starts parts, none, ← position_min, Source.position, parts,
        positionFrom_inside 0 0 ⟨1, 1⟩ (by omega) (by omega), foldl_after_start,
        getLastD_startsFrom]

theorem length_splitLines (text : List Char)
    : (splitLines text).length = text.count '\n' + 1 := by
  have cut := drop_splitLines text []
  have one : (splitLines (text ++ [])).length - text.count '\n' = 1 := by
    rw [← List.length_drop, cut]
    rfl
  rw [List.append_nil] at one
  omega

/-- A text has a place in front of each of its lines, by induction from its end. -/
theorem exists_line {text : List Char} {index : Nat} (within : index ≤ text.count '\n')
    : ∃ before behind,
        text = before ++ behind ∧ before.count '\n' = index ∧ lastLine before = [] := by
  induction text using List.reverseRecOn generalizing index with
  | nil => exact ⟨[], [], rfl, (Nat.le_zero.mp within).symm, rfl⟩
  | append_singleton text c ih =>
      by_cases earlier : index ≤ text.count '\n'
      · obtain ⟨before, behind, rfl, count, none⟩ := ih earlier
        exact ⟨before, behind ++ [c], List.append_assoc .., count, none⟩
      · by_cases newline : c = '\n'
        · subst newline
          rw [count_newline] at within
          refine ⟨text ++ ['\n'], [], (List.append_nil _).symm, ?_, lastLine_newline text⟩
          rw [count_newline]
          omega
        · rw [count_other text newline] at within
          exact absurd within earlier

theorem newline_notMem_firstLine (text : List Char) : '\n' ∉ firstLine text := by
  intro found
  have := List.mem_takeWhile_imp found
  simp at this

theorem rdropWhile_firstLine (text : List Char) {ending : List Char}
    (newline : ending = [] ∨ ending = ['\n'])
    : (firstLine text ++ ending).rdropWhile (· = '\n') = firstLine text := by
  have alone := rdropWhile_eq_self (newline_notMem_firstLine text)
  rcases newline with rfl | rfl
  · rw [List.append_nil, alone]
  · rw [List.rdropWhile_concat_pos _ _ _ (by simp), alone]

/-- The next start stands behind the line feed that ends a line, or else the text ends there. -/
theorem exists_ending {source : String} {before behind : List Char}
    (parts : source.toList = before ++ behind)
    : ∃ ending more,
        behind = firstLine behind ++ ending ++ more
        ∧ (ending = [] ∨ ending = ['\n'])
        ∧ (starts source)[before.count '\n' + 1]?.getD source.utf8ByteSize
          = bytes before + bytes (firstLine behind ++ ending) := by
  have next : (starts source)[before.count '\n' + 1]? = (startsFrom (bytes before) behind)[0]? := by
    rw [starts_split parts, ← length_cons_startsFrom before,
      List.getElem?_append_right (Nat.le_refl _), Nat.sub_self]
  have noStart : startsFrom (bytes before) (firstLine behind) = [] := by
    rw [← List.length_eq_zero_iff, length_startsFrom]
    exact List.count_eq_zero.mpr (newline_notMem_firstLine behind)
  have whole : firstLine behind ++ behind.dropWhile (· ≠ '\n') = behind :=
    List.takeWhile_append_dropWhile
  have stops := List.head?_dropWhile_not (· ≠ '\n') behind
  have size : source.utf8ByteSize = bytes before + bytes behind := by
    rw [← Token.bytes_toList, parts, Token.bytes_append]
  generalize firstLine behind = line at noStart whole ⊢
  cases rest : behind.dropWhile (· ≠ '\n') with
  | nil =>
      rw [rest, List.append_nil] at whole
      subst whole
      refine ⟨[], [], by simp, .inl rfl, ?_⟩
      rw [next, noStart, List.append_nil]
      exact size
  | cons c more =>
      rw [rest] at whole stops
      obtain rfl : c = '\n' := by simpa using stops
      subst whole
      refine ⟨['\n'], more, by simp, .inr rfl, ?_⟩
      rw [next, startsFrom_append, noStart, Token.bytes_append, ← Nat.add_assoc]
      rfl

/-- The texts between the starts of lines are the lines that cutting at line feeds gives. -/
theorem lineText_eq_cut (source : String) (line : Nat)
    : lineText source line = Source.lineText source line := by
  cases line with
  | zero => rfl
  | succ index =>
      have count : (starts source).length = source.toList.count '\n' + 1 :=
        length_cons_startsFrom source.toList
      rw [lineText, Source.lineText, if_neg (Nat.succ_ne_zero index), Nat.add_sub_cancel, count]
      by_cases within : index ≤ source.toList.count '\n'
      · obtain ⟨before, behind, parts, rfl, none⟩ := exists_line within
        obtain ⟨ending, more, split, newline, stop⟩ := exists_ending parts
        have start := getElem?_starts parts
        have whole := rdropWhile_append_lastLine before
        rw [none, List.append_nil] at whole
        rw [whole] at start
        have cut := slice?_append before (firstLine behind ++ ending) more
        rw [← split, ← parts] at cut
        rw [if_neg (by omega), start, stop]
        dsimp only
        rw [cut, Option.getD_some, rdropWhile_firstLine behind newline, parts,
          getElem?_splitLines, none]
        rfl
      · have missing : (splitLines source.toList)[index]? = none := by
          rw [List.getElem?_eq_none_iff, length_splitLines]
          omega
        rw [if_pos (.inr (by omega)), missing]
        rfl

end LineTable

-----------------------------------------------------------------------------------------
-- Positions as a reader counts them
-----------------------------------------------------------------------------------------

/-- The character behind a place is that at its column in the text of its line, unless it belongs
to the end of a line.
-/
theorem getElem?_lineText {source : String} {before rest : List Char} {c : Char}
    (parts : source.toList = before ++ c :: rest) (noReturn : c ≠ '\r') (noNewline : c ≠ '\n')
    : (lineText source (before.count '\n' + 1)).toList[(lastLine before).length]? = some c := by
  rw [toList_lineText parts, firstLine_other rest noNewline, trimReturns_append _ _ noReturn,
    List.getElem?_append_right (Nat.le_refl _), Nat.sub_self]
  rfl

/-- The position of a place in a source, where a place behind the end counts as the end, is one
more than the number of line feeds in front of it and one more than the number of characters
behind the last of these. A character there that is no part of the end of a line is the one at
that column of the line. Positions and lines are those that the table of line starts gives.
-/
theorem position_exact (source : String)
    : (∀ (before behind : String) (offset : Nat),
        source = before ++ behind →
        min offset source.utf8ByteSize = before.utf8ByteSize →
        (position source offset).line = 1 + before.toList.count '\n'
        ∧ (position source offset).column = 1 + (lastLine before.toList).length
        ∧ ∀ c ∈ behind.toList.head?, c ≠ '\r' → c ≠ '\n' →
            (lineText source (position source offset).line).toList[
              (position source offset).column - 1]? = some c)
      ∧ (∀ offset, LineTable.position source offset = position source offset)
      ∧ ∀ line, LineTable.lineText source line = lineText source line := by
  refine ⟨?_, LineTable.position_eq_counted source, LineTable.lineText_eq_cut source⟩
  rintro before behind offset rfl place
  have parts := String.toList_append (s := before) (t := behind)
  rw [← Token.bytes_toList before] at place
  have same := position_split parts place
  refine ⟨?_, ?_, fun c head noReturn noNewline => ?_⟩
  · rw [same]
    exact Nat.add_comm _ _
  · rw [same]
    exact Nat.add_comm _ _
  · obtain ⟨rest, more⟩ := List.head?_eq_some_iff.mp head
    rw [more] at parts
    rw [same]
    exact getElem?_lineText parts noReturn noNewline

/-- A place in the third line, behind the end of a line with a carriage return and behind
characters of two bytes.
-/
theorem position_exact_thirdLine
    : "a\r\né\nü=x" = "a\r\né\nü" ++ "=x"
      ∧ min 8 "a\r\né\nü=x".utf8ByteSize = "a\r\né\nü".utf8ByteSize
      ∧ position "a\r\né\nü=x" 8 = ⟨3, 2⟩
      ∧ (lineText "a\r\né\nü=x" 3).toList[1]? = some '=' := by
  have whole : "a\r\né\nü=x" = "a\r\né\nü" ++ "=x" := by decide
  have place : min 8 "a\r\né\nü=x".utf8ByteSize = "a\r\né\nü".utf8ByteSize := by decide
  obtain ⟨line, column, here⟩ := (position_exact "a\r\né\nü=x").1 _ _ 8 whole place
  have line : (position "a\r\né\nü=x" 8).line = 3 := line.trans (by decide)
  have column : (position "a\r\né\nü=x" 8).column = 2 := column.trans (by decide)
  rw [line, column] at here
  refine ⟨whole, place, ?_, here '=' (by decide) (by decide) (by decide)⟩
  exact congrArg₂ Position.mk line column

end StackScript.Source
