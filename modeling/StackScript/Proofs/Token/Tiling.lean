import StackScript.Proofs.Token.LongestMatch

/-! Reading a text tiles it. Where reading succeeds, the tokens stand in the text one behind the
other, each of them the longest match at its place, with nothing but blanks and comments around
them. Where it fails, the bad spots are places at which nothing can start.
-/

namespace StackScript

namespace Token

-----------------------------------------------------------------------------------------
-- Bytes
-----------------------------------------------------------------------------------------

theorem bytes_eq (text : List Char) : bytes text = (String.ofList text).utf8ByteSize := by
  have shift (text : List Char) (total : Nat)
      : text.foldl (fun total c => total + c.utf8Size) total
        = total + (String.ofList text).utf8ByteSize := by
    induction text generalizing total with
    | nil => rfl
    | cons c text ih =>
        rw [List.foldl_cons, ih, String.ofList_cons, String.utf8ByteSize_append,
          String.utf8ByteSize_singleton, Nat.add_assoc]
  rw [bytes, shift, Nat.zero_add]

@[simp]
theorem bytes_nil : bytes [] = 0 := rfl

@[simp]
theorem bytes_append (text more : List Char)
    : bytes (text ++ more) = bytes text + bytes more := by
  rw [bytes_eq, String.ofList_append, String.utf8ByteSize_append, ← bytes_eq, ← bytes_eq]

theorem bytes_toList (text : String) : bytes text.toList = text.utf8ByteSize := by
  rw [bytes_eq, String.ofList_toList]

theorem bytes_cons (c : Char) (text : List Char)
    : bytes (c :: text) = c.utf8Size + bytes text := by
  rw [bytes_eq, bytes_eq, String.ofList_cons, String.utf8ByteSize_append,
    String.utf8ByteSize_singleton]

theorem bytes_pos {text : List Char} (some : text ≠ []) : 0 < bytes text := by
  obtain ⟨c, more, rfl⟩ := List.exists_cons_of_ne_nil some
  rw [bytes_cons]
  exact Nat.lt_add_right _ c.utf8Size_pos

theorem Spells.ne_nil {token : Token} {text : List Char} (spells : token.Spells text)
    : text ≠ [] := by
  obtain ⟨c, more, rfl, -⟩ := spells.start
  exact List.cons_ne_nil c more

-----------------------------------------------------------------------------------------
-- Tiled texts
-----------------------------------------------------------------------------------------

/-- The text behind the last token, where a comment may end with the text. -/
def LastGap (text : List Char) : Prop :=
  Gap text ∨ ∃ gap line, text = gap ++ line ∧ Gap gap ∧ CommentText line

/-- The text from a byte offset on is tokens with gaps around them, each the longest match. -/
inductive Tiles : Nat → List Char → List Lexeme → Prop
  | last {offset : Nat} {gap : List Char} (blank : LastGap gap) : Tiles offset gap []
  | token {offset : Nat} (gap : List Char) {taken rest : List Char} {token : Token}
      {lexemes : List Lexeme} (blank : Gap gap) (spells : token.Spells taken)
      (longest : Longest taken (taken ++ rest))
      (others : Tiles (offset + bytes gap + bytes taken) rest lexemes)
      : Tiles offset (gap ++ (taken ++ rest))
          (⟨token, ⟨offset + bytes gap, offset + bytes gap + bytes taken⟩⟩ :: lexemes)

/-- The text from a byte offset on, with the places at which nothing can start. -/
inductive Spots : Nat → List Char → List LexError → Prop
  | stop {offset : Nat} {text : List Char} : Spots offset text []
  | skip {offset : Nat} (taken : List Char) {rest : List Char} {errors : List LexError}
      (others : Spots (offset + bytes taken) rest errors)
      : Spots offset (taken ++ rest) errors
  | bad {offset : Nat} {taken rest : List Char} {errors : List LexError}
      (some : taken ≠ []) (nothing : StartsNothing (taken ++ rest))
      (others : Spots (offset + bytes taken) rest errors)
      : Spots offset (taken ++ rest)
          (⟨offset, String.ofList taken, LexError.adviceFor taken⟩ :: errors)

theorem LastGap.behind {gap text : List Char} (blank : Gap gap) (last : LastGap text)
    : LastGap (gap ++ text) := by
  rcases last with others | ⟨more, line, rfl, others, written⟩
  · exact .inl (blank.append others)
  · exact .inr ⟨gap ++ more, line, (List.append_assoc ..).symm, blank.append others, written⟩

theorem Tiles.behind {offset : Nat} {gap text : List Char} {lexemes : List Lexeme}
    (blank : Gap gap) (tiles : Tiles (offset + bytes gap) text lexemes)
    : Tiles offset (gap ++ text) lexemes := by
  cases tiles with
  | last others => exact .last (others.behind blank)
  | @token _ more taken rest token lexemes others spells longest tiles =>
      have place : offset + bytes gap + bytes more = offset + bytes (gap ++ more) := by
        rw [bytes_append, Nat.add_assoc]
      rw [← List.append_assoc, place]
      rw [place] at tiles
      exact .token _ (blank.append others) spells longest tiles

-----------------------------------------------------------------------------------------
-- Reading
-----------------------------------------------------------------------------------------

/-- What reading a text from a byte offset on adds to what was found before it. -/
structure Reads (offset : Nat) (text : List Char) (before after : Scan) : Prop where
  found : ∃ lexemes errors,
    after = ⟨lexemes.reverse ++ before.lexemes, errors.reverse ++ before.errors⟩
    ∧ Spots offset text errors
    ∧ (errors = [] → Tiles offset text lexemes)
  bound : after.errors.length ≤ Scan.errorLimit

namespace Reads

variable {offset : Nat} {before after : Scan} {gap taken rest : List Char}

/-- At the end of the text, or before a comment without an end, there is nothing left to add. -/
theorem last {text : List Char} (others : LastGap text)
    (room : before.errors.length < Scan.errorLimit)
    : Reads offset text before before :=
  ⟨⟨[], [], rfl, .stop, fun _ => .last others⟩, Nat.le_of_lt room⟩

/-- A gap adds nothing. -/
theorem behind (blank : Gap gap) (others : Reads (offset + bytes gap) rest before after)
    : Reads offset (gap ++ rest) before after := by
  obtain ⟨⟨lexemes, errors, same, spots, tiles⟩, bound⟩ := others
  exact ⟨⟨lexemes, errors, same, .skip gap spots, fun none => (tiles none).behind blank⟩, bound⟩

/-- A token is added in front of those behind it. -/
theorem token {token : Token} (spells : token.Spells taken)
    (longest : Longest taken (taken ++ rest))
    (others : Reads (offset + bytes taken) rest (before.add offset ⟨.token token, taken, rest⟩)
      after)
    : Reads offset (taken ++ rest) before after := by
  obtain ⟨⟨lexemes, errors, same, spots, tiles⟩, bound⟩ := others
  refine ⟨⟨_ :: lexemes, errors, ?_, .skip taken spots,
    fun none => .token [] .nil spells longest (tiles none)⟩, bound⟩
  rw [same, List.reverse_cons, List.append_assoc]
  rfl

/-- A bad spot is added in front of those behind it. -/
theorem bad (some : taken ≠ []) (nothing : StartsNothing (taken ++ rest))
    (others : Reads (offset + bytes taken) rest (before.add offset ⟨.bad, taken, rest⟩) after)
    : Reads offset (taken ++ rest) before after := by
  obtain ⟨⟨lexemes, errors, same, spots, -⟩, bound⟩ := others
  refine ⟨⟨lexemes, _ :: errors, ?_, .bad some nothing spots,
    fun none => absurd none (List.cons_ne_nil _ _)⟩, bound⟩
  rw [same, List.reverse_cons, List.append_assoc]
  rfl

/-- The last bad spot that may be added, behind which nothing is read. -/
theorem full (some : taken ≠ []) (nothing : StartsNothing (taken ++ rest))
    (room : before.errors.length < Scan.errorLimit)
    : Reads offset (taken ++ rest) before (before.add offset ⟨.bad, taken, rest⟩) :=
  ⟨⟨[], [_], rfl, .bad some nothing .stop, fun none => absurd none (List.cons_ne_nil _ _)⟩,
    Nat.succ_le_of_lt room⟩

end Reads

section

variable {offset : Nat} {found : Scan} {c : Char} {text taken rest : List Char}

/-- Reading goes on behind the head of a text, as long as bad spots may be added. -/
theorem read_of_cut {item : Item} (head : cut c text = ⟨item, taken, rest⟩)
    (room : (found.add offset ⟨item, taken, rest⟩).errors.length < Scan.errorLimit)
    : Scan.read offset found (c :: text)
      = Scan.read (offset + bytes taken) (found.add offset ⟨item, taken, rest⟩) rest := by
  rw [Scan.read]
  simp only [head, Nat.not_le.mpr room, if_false]

/-- Reading stops behind the last bad spot that may be added. -/
theorem read_of_full {item : Item} (head : cut c text = ⟨item, taken, rest⟩)
    (full : Scan.errorLimit ≤ (found.add offset ⟨item, taken, rest⟩).errors.length)
    : Scan.read offset found (c :: text) = found.add offset ⟨item, taken, rest⟩ := by
  rw [Scan.read]
  simp only [head, full, if_true]

theorem cut_blank (space : isBlank c = true) : cut c text = ⟨.blank, [c], text⟩ := by
  unfold cut
  exact if_pos space

end

/-- Reading finds the tokens that tile the text, or the places at which nothing starts, by
induction on the length of the text: what is cut off at its head is its longest match.
-/
theorem read_reads (offset : Nat) (found : Scan) (text : List Char)
    (room : found.errors.length < Scan.errorLimit)
    : Reads offset text found (Scan.read offset found text) := by
  induction size : text.length using Nat.strongRecOn generalizing offset found text with
  | ind size ih =>
  cases text with
  | nil =>
      rw [Scan.read]
      exact .last (.inl .nil) room
  | cons c more =>
      have heads := cut_heads c more
      have shorter := length_rest_cut c more
      generalize head : cut c more = piece at heads shorter
      have later (rest : List Char) (bound : rest.length ≤ more.length) (offset : Nat)
          (found : Scan) (room : found.errors.length < Scan.errorLimit)
          : Reads offset rest found (Scan.read offset found rest) :=
        ih rest.length (size ▸ Nat.lt_succ_of_le bound) offset found rest room rfl
      cases heads with
      | @blank d rest space whole =>
          rw [read_of_cut head room, whole]
          exact .behind (.blank space .nil) (later rest shorter _ found room)
      | @comment line rest written whole ended =>
          rw [read_of_cut head room, whole]
          rcases ended with rfl | ⟨rest, rfl⟩
          · rw [Scan.read, List.append_nil]
            exact .last (.inr ⟨[], line, rfl, .nil, written⟩) room
          · -- The end of the line is the next blank, and belongs to the comment.
            have ending : Scan.read (offset + bytes line) found ('\n' :: rest)
                = Scan.read (offset + bytes (line ++ ['\n'])) found rest := by
              rw [bytes_append, ← Nat.add_assoc]
              exact read_of_cut (cut_blank (by decide)) room
            refine ending ▸ ?_
            rw [List.append_cons]
            exact .behind (.comment written .nil)
              (later rest (Nat.le_of_succ_le shorter) _ found room)
      | @token token taken rest spells whole longest =>
          rw [whole] at longest
          rw [read_of_cut head room, whole]
          exact .token spells longest (later rest shorter _ _ room)
      | @bad taken rest some whole nothing =>
          rw [whole] at nothing
          by_cases full : Scan.errorLimit ≤ found.errors.length + 1
          · rw [read_of_full head full, whole]
            exact .full some nothing room
          · have few := Nat.not_le.mp full
            rw [read_of_cut head few, whole]
            exact .bad some nothing (later rest shorter _ _ few)

-----------------------------------------------------------------------------------------
-- Places in a source
-----------------------------------------------------------------------------------------

/-- A text stands in a source at a byte offset, before the text behind it. -/
def StandsAt (source : String) (offset : Nat) (text behind : String) : Prop :=
  ∃ before : String, source = before ++ text ++ behind ∧ before.utf8ByteSize = offset

/-- A lexeme is a token that stands in the source at its span, where nothing longer stands. -/
structure Matched (source : String) (lexeme : Lexeme) : Prop where
  wellFormed : lexeme.token.WellFormed
  some : lexeme.span.start < lexeme.span.stop
  size : lexeme.span.stop = lexeme.span.start + lexeme.token.spelling.utf8ByteSize
  spelled : ∃ behind, StandsAt source lexeme.span.start lexeme.token.spelling behind
    ∧ Longest lexeme.token.spelling.toList (lexeme.token.spelling ++ behind).toList

/-- The end of the last lexeme of a list, or the offset before an empty one. -/
def stopOf : Nat → List Lexeme → Nat
  | offset, [] => offset
  | _, lexeme :: lexemes => stopOf lexeme.span.stop lexemes

/-- The start of the first lexeme of a list, or the offset behind an empty one. -/
def startOf : Nat → List Lexeme → Nat
  | offset, [] => offset
  | _, lexeme :: _ => lexeme.span.start

/-- The lexemes tile the source: in order, each the longest match, with gaps around them. -/
structure Tiling (source : String) (lexemes : List Lexeme) : Prop where
  matched : ∀ lexeme ∈ lexemes, Matched source lexeme
  ordered : lexemes.Pairwise fun first second => first.span.stop ≤ second.span.start
  gaps : ∀ front back, lexemes = front ++ back →
    ∃ gap behind, StandsAt source (stopOf 0 front) gap behind
      ∧ stopOf 0 front + gap.utf8ByteSize = startOf source.utf8ByteSize back
      ∧ (Gap gap.toList ∨ back = [] ∧ LastGap gap.toList)

/-- The bad spots of a source: in order, and at each of them nothing can start. -/
structure Spoiled (source : String) (errors : List LexError) : Prop where
  some : 1 ≤ errors.length
  bound : errors.length ≤ 20
  ordered : errors.Pairwise fun first second => first.offset < second.offset
  bad : ∀ error ∈ errors, error.snippet ≠ "" ∧ ∃ behind,
    StandsAt source error.offset error.snippet behind
    ∧ StartsNothing (error.snippet ++ behind).toList

theorem standsAt_of_split {offset : Nat} {before : List Char} (taken rest : List Char)
    (place : offset = bytes before)
    : StandsAt (String.ofList (before ++ (taken ++ rest))) offset (String.ofList taken)
        (String.ofList rest) := by
  refine ⟨String.ofList before, ?_, ?_⟩
  · rw [String.ofList_append, String.ofList_append, String.append_assoc]
  · rw [place, bytes_eq]

/-- Each token of a tiled text stands at its span, by induction on the tokens. -/
theorem Tiles.matched (before : List Char) {offset : Nat} {text : List Char}
    {lexemes : List Lexeme} (tiles : Tiles offset text lexemes) (place : offset = bytes before)
    : ∀ lexeme ∈ lexemes, Matched (String.ofList (before ++ text)) lexeme := by
  induction tiles generalizing before with
  | last => nofun
  | @token offset gap taken rest token lexemes blank spells longest others ih =>
      have start : offset + bytes gap = bytes (before ++ gap) := by rw [place, bytes_append]
      have spelling : token.spelling = String.ofList taken := by
        rw [spells.1, String.ofList_toList]
      rw [List.forall_mem_cons]
      constructor
      · refine ⟨spells.2, Nat.lt_add_of_pos_right (bytes_pos spells.ne_nil), ?_,
          String.ofList rest, ?_, ?_⟩
        · rw [spelling, bytes_eq taken]
        · rw [spelling, ← List.append_assoc]
          exact standsAt_of_split _ _ start
        · rw [spelling, ← String.ofList_append, String.toList_ofList, String.toList_ofList]
          exact longest
      · have stop : offset + bytes gap + bytes taken = bytes (before ++ gap ++ taken) := by
          rw [start, ← bytes_append]
        have later := ih _ stop
        rwa [List.append_assoc, List.append_assoc] at later

theorem Tiles.start_le {offset : Nat} {text : List Char} {lexemes : List Lexeme}
    (tiles : Tiles offset text lexemes)
    : ∀ lexeme ∈ lexemes, offset ≤ lexeme.span.start := by
  induction tiles with
  | last => nofun
  | token gap blank spells longest others ih =>
      rw [List.forall_mem_cons]
      refine ⟨Nat.le_add_right .., fun lexeme member => ?_⟩
      have := ih lexeme member
      omega

theorem Tiles.ordered {offset : Nat} {text : List Char} {lexemes : List Lexeme}
    (tiles : Tiles offset text lexemes)
    : lexemes.Pairwise fun first second => first.span.stop ≤ second.span.start := by
  induction tiles with
  | last => exact .nil
  | token gap blank spells longest others ih => exact .cons others.start_le ih

/-- Between the tokens before a place and those behind it there is a gap, by induction on the
tokens: the gap is the one before the next token once all before the place are taken off.
-/
theorem Tiles.gaps (before : List Char) {offset : Nat} {text : List Char}
    {front back : List Lexeme} (tiles : Tiles offset text (front ++ back))
    (place : offset = bytes before)
    : ∃ gap behind,
        StandsAt (String.ofList (before ++ text)) (stopOf offset front) gap behind
        ∧ stopOf offset front + gap.utf8ByteSize = startOf (offset + bytes text) back
        ∧ (Gap gap.toList ∨ back = [] ∧ LastGap gap.toList) := by
  induction front generalizing offset before text with
  | nil =>
      rw [List.nil_append] at tiles
      cases tiles with
      | last blank =>
          refine ⟨String.ofList text, "", ?_, ?_, .inr ⟨rfl, ?_⟩⟩
          · have stands := standsAt_of_split text [] place
            rwa [List.append_nil] at stands
          · rw [← bytes_eq]
            rfl
          · rwa [String.toList_ofList]
      | token gap blank =>
          refine ⟨String.ofList gap, _, standsAt_of_split _ _ place, ?_, .inl ?_⟩
          · rw [← bytes_eq]
            rfl
          · rwa [String.toList_ofList]
  | cons lexeme front ih =>
      cases tiles with
      | @token _ gap taken rest token _ blank spells longest others =>
          have stop : offset + bytes gap + bytes taken = bytes (before ++ gap ++ taken) := by
            rw [place, bytes_append, bytes_append]
          obtain ⟨more, behind, stands, size, kind⟩ := ih _ others stop
          rw [List.append_assoc, List.append_assoc] at stands
          refine ⟨more, behind, stands, size.trans ?_, kind⟩
          rw [bytes_append, bytes_append, Nat.add_assoc, Nat.add_assoc]

/-- Each bad spot stands at its offset and nothing can start there, by induction on the places.
-/
theorem Spots.noStart (before : List Char) {offset : Nat} {text : List Char}
    {errors : List LexError} (spots : Spots offset text errors) (place : offset = bytes before)
    : ∀ error ∈ errors, error.snippet ≠ "" ∧ ∃ behind,
        StandsAt (String.ofList (before ++ text)) error.offset error.snippet behind
        ∧ StartsNothing (error.snippet ++ behind).toList := by
  induction spots generalizing before with
  | stop => nofun
  | @skip offset taken rest errors others ih =>
      have later := ih (before ++ taken) (by rw [place, bytes_append])
      rwa [List.append_assoc] at later
  | @bad offset taken rest errors some nothing others ih =>
      rw [List.forall_mem_cons]
      refine ⟨⟨?_, String.ofList rest, standsAt_of_split _ _ place, ?_⟩, ?_⟩
      · rwa [Ne, String.ofList_eq_empty_iff]
      · rwa [← String.ofList_append, String.toList_ofList]
      · have later := ih (before ++ taken) (by rw [place, bytes_append])
        rwa [List.append_assoc] at later

theorem Spots.offset_le {offset : Nat} {text : List Char} {errors : List LexError}
    (spots : Spots offset text errors)
    : ∀ error ∈ errors, offset ≤ error.offset := by
  induction spots with
  | stop => nofun
  | skip taken others ih => exact fun error member => Nat.le_of_add_right_le (ih error member)
  | bad some nothing others ih =>
      rw [List.forall_mem_cons]
      exact ⟨Nat.le_refl _, fun error member => Nat.le_of_add_right_le (ih error member)⟩

theorem Spots.ordered {offset : Nat} {text : List Char} {errors : List LexError}
    (spots : Spots offset text errors)
    : errors.Pairwise fun first second => first.offset < second.offset := by
  induction spots with
  | stop => exact .nil
  | skip taken others ih => exact ih
  | bad some nothing others ih =>
      refine .cons (fun error member => ?_) ih
      have := others.offset_le error member
      have := bytes_pos some
      dsimp only
      omega

/-- Reading a source gives the tokens that tile it, or between one and twenty places in it at
which nothing can start.
-/
theorem lex_tiles (source : String)
    : match lex source with
      | .ok lexemes => Tiling source lexemes
      | .error errors => Spoiled source errors := by
  obtain ⟨⟨lexemes, errors, same, spots, tiles⟩, bound⟩ :=
    read_reads 0 ⟨[], []⟩ source.toList (by decide)
  have whole : String.ofList ([] ++ source.toList) = source := String.ofList_toList
  unfold lex
  rw [same] at bound ⊢
  simp only [List.append_nil, List.reverse_reverse, List.isEmpty_reverse] at bound ⊢
  by_cases none : errors = []
  · subst none
    have tiles := tiles rfl
    refine ⟨?_, tiles.ordered, fun front back parts => ?_⟩
    · have matched := tiles.matched [] rfl
      rwa [whole] at matched
    · subst parts
      have gaps := tiles.gaps [] rfl
      rwa [whole, Nat.zero_add, bytes_toList] at gaps
  · rw [if_neg (by simpa using none)]
    refine ⟨?_, ?_, spots.ordered, ?_⟩
    · exact List.length_pos_iff.mpr none
    · rwa [List.length_reverse] at bound
    · have bad := spots.noStart [] rfl
      rwa [whole] at bad

end Token

end StackScript
