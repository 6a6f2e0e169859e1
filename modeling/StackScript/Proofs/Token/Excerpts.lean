import StackScript.Proofs.Token.Layout

/-! Excerpts of a text. Some tokens of a text in a row, with the gaps between them, are read as
they are in the whole text: what stands before them does not matter, and no token gets longer
where the text behind it is missing.
-/

namespace StackScript

namespace Token

-----------------------------------------------------------------------------------------
-- Cutting out
-----------------------------------------------------------------------------------------

/-- What is longest in a text is longest in a shorter one. -/
theorem Longest.of_prefix {taken text more : List Char} (longest : Longest taken more)
    (shorter : text <+: more)
    : Longest taken text :=
  fun longer head lexical => longest longer (head.trans shorter) lexical

/-- Tokens end where the last of them does. -/
theorem stopOf_eq (first : Lexeme) (more : List Lexeme) (other : Span)
    : stopOf first.span.stop more
      = (((first :: more).getLast?.map Lexeme.span).getD other).stop := by
  induction more generalizing first with
  | nil => rfl
  | cons second more ih => rw [stopOf, ih, List.getLast?_cons_cons]

namespace Tiles

variable {offset : Nat} {text : List Char} {lexemes back : List Lexeme}

/-- The tokens behind some others tile what is left of the text from the first of them on, by
induction on the others.
-/
theorem drop {first : Lexeme} (front : List Lexeme)
    (tiles : Tiles offset text (front ++ first :: lexemes))
    : ∃ before rest,
        text = before ++ rest
        ∧ offset + bytes before = first.span.start
        ∧ Tiles first.span.start rest (first :: lexemes) := by
  induction front generalizing offset text with
  | nil =>
      cases tiles with
      | @token _ gap taken rest token _ blank spells longest others =>
          exact ⟨gap, taken ++ rest, rfl, rfl, .token [] .nil spells longest others⟩
  | cons lexeme front ih =>
      cases tiles with
      | @token _ gap taken rest token _ blank spells longest others =>
          obtain ⟨before, rest, rfl, place, tiles⟩ := ih others
          refine ⟨gap ++ taken ++ before, rest, ?_, ?_, tiles⟩
          · simp only [List.append_assoc]
          · rw [bytes_append, bytes_append, ← place, Nat.add_assoc, Nat.add_assoc, Nat.add_assoc]

/-- The tokens before some others tile the text up to the end of the last of them, by induction
on them.
-/
theorem take (tiles : Tiles offset text (lexemes ++ back))
    : ∃ taken behind,
        text = taken ++ behind
        ∧ offset + bytes taken = stopOf offset lexemes
        ∧ Tiles offset taken lexemes := by
  induction lexemes generalizing offset text with
  | nil => exact ⟨[], text, rfl, rfl, .last (.inl .nil)⟩
  | cons lexeme lexemes ih =>
      cases tiles with
      | @token _ gap taken rest token _ blank spells longest others =>
          obtain ⟨more, behind, rfl, stop, tiles⟩ := ih others
          have shorter : taken ++ more <+: taken ++ (more ++ behind) :=
            ⟨behind, List.append_assoc ..⟩
          refine ⟨gap ++ (taken ++ more), behind, ?_, ?_,
            .token gap blank spells (longest.of_prefix shorter) tiles⟩
          · simp only [List.append_assoc]
          · rw [stopOf, ← stop, bytes_append, bytes_append, Nat.add_assoc, Nat.add_assoc]

/-- Some tokens in a row tile the part of the source from the first to the last of them. -/
theorem excerpt {source : String} {first : Lexeme} (front : List Lexeme)
    (tiles : Tiles 0 source.toList (front ++ first :: (lexemes ++ back)))
    : ∃ part behind,
        StandsAt source first.span.start part behind
        ∧ first.span.start + part.utf8ByteSize = stopOf first.span.stop lexemes
        ∧ Tiles first.span.start part.toList (first :: lexemes) := by
  obtain ⟨before, rest, whole, start, tiles⟩ := tiles.drop front
  rw [← List.cons_append] at tiles
  obtain ⟨taken, behind, rfl, stop, tiles⟩ := tiles.take
  refine ⟨String.ofList taken, String.ofList behind, ?_, ?_, ?_⟩
  · have stands := standsAt_of_split taken behind (Nat.zero_add (bytes before))
    rwa [start, ← whole, String.ofList_toList] at stands
  · rwa [← bytes_eq]
  · rwa [String.toList_ofList]

-----------------------------------------------------------------------------------------
-- Reading again
-----------------------------------------------------------------------------------------

end Tiles

/-- There is nothing to read behind the last token. -/
theorem read_last {found : Scan} {text : List Char} (offset : Nat) (last : LastGap text)
    (room : found.errors.length < Scan.errorLimit)
    : Scan.read offset found text = found := by
  rcases last with blank | ⟨gap, _, rfl, blank, ⟨inside⟩⟩
  · have behind := read_gap offset [] blank room
    rwa [List.append_nil, Scan.read] at behind
  · have head := cut_line [] inside (by simp)
    rw [List.append_nil] at head
    rw [read_gap offset _ blank room, read_of_cut head room, Scan.read]
    rfl

namespace Tiles

variable {offset : Nat}

/-- A tiled text is read as its tokens, wherever it stands, by induction on them. -/
theorem read_eq {text : List Char} {lexemes : List Lexeme} (tiles : Tiles offset text lexemes)
    (place : Nat) (found : Scan) (room : found.errors.length < Scan.errorLimit)
    : ∃ moved : List Lexeme,
        Scan.read place found text = ⟨moved.reverse ++ found.lexemes, found.errors⟩
        ∧ moved.map Lexeme.token = lexemes.map Lexeme.token := by
  induction tiles generalizing place found with
  | last gap => exact ⟨[], read_last place gap room, rfl⟩
  | @token offset gap taken rest token lexemes blank spells longest others ih =>
      rw [read_gap place _ blank room, read_longest _ rest spells longest room]
      let first : Lexeme := ⟨token, ⟨place + bytes gap, place + bytes gap + bytes taken⟩⟩
      obtain ⟨moved, read, same⟩ := ih _ ⟨first :: found.lexemes, found.errors⟩ room
      refine ⟨first :: moved, ?_, ?_⟩
      · rw [read, List.reverse_cons, List.append_assoc]
        rfl
      · rw [List.map_cons, List.map_cons, same]

/-- A tiled text is read as its tokens. -/
theorem lex_eq {text : String} {lexemes : List Lexeme} (tiles : Tiles offset text.toList lexemes)
    : ∃ moved : List Lexeme,
        lex text = .ok moved
        ∧ moved.map Lexeme.token = lexemes.map Lexeme.token := by
  obtain ⟨moved, read, same⟩ := tiles.read_eq 0 ⟨[], []⟩ (by decide)
  refine ⟨moved, ?_, same⟩
  rw [lex, read, List.append_nil]
  exact congrArg Except.ok moved.reverse_reverse

end Tiles

end Token

end StackScript
