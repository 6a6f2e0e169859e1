import StackScript.Proofs.Token.Tiling

/-! Layout does not matter to reading. No token goes on across a blank, so that tokens written
with separators between them are read back as they were, each where it was written.
-/

namespace StackScript

namespace Token

-----------------------------------------------------------------------------------------
-- Tokens before a blank
-----------------------------------------------------------------------------------------

section

variable {b : Char}

/-- A blank is no character of a number, a word or a sign. -/
theorem isBlank_foreign (space : isBlank b = true)
    : b.isDigit = false ∧ isSuffix b = false ∧ continuesName b = false ∧ startsName b = false
      ∧ b ∉ ['.', '$', '/', '"'] := by
  simp only [isBlank, Bool.or_eq_true, decide_eq_true_eq] at space
  rcases space with (((rfl | rfl) | rfl) | rfl) | rfl <;> decide

theorem NumberText.noBlank {text : List Char} (number : NumberText text)
    (space : isBlank b = true)
    : b ∉ text := by
  obtain ⟨noDigit, noSuffix, -, -, noSign⟩ := isBlank_foreign space
  obtain ⟨⟨-, first⟩, second, third⟩ := number
  have inFirst := first b
  rcases second with rfl | ⟨digits, rfl, -, second⟩ <;> rcases third with rfl | ⟨c, rfl, third⟩
  all_goals grind

theorem WordText.noBlank {text : List Char} (word : WordText text) (space : isBlank b = true)
    : b ∉ text := by
  obtain ⟨-, -, noInner, noStart, noSign⟩ := isBlank_foreign space
  cases word with
  | plain first others => grind
  | dollar first others => grind

/-- A blank stands behind no first character of a mark or an operator. -/
theorem SymbolText.noBlank {c : Char} {more : List Char} {token : Token}
    (symbol : SymbolText (c :: b :: more) token) (space : isBlank b = true)
    : False := by
  cases symbol with
  | pair known =>
      unfold ofPair? at known
      split at known <;> first | exact absurd space (by decide) | cases known

/-- What starts as a token and goes on with a blank is no token and no comment. -/
theorem Spells.not_lexical {token : Token} {taken more : List Char}
    (spells : token.Spells taken) (space : isBlank b = true)
    : ¬Lexical (taken ++ b :: more) := by
  intro lexical
  have inside : b ∈ taken ++ b :: more := by simp
  obtain ⟨c, tail, rfl, kinds⟩ := spells.start
  obtain ⟨_, _, ⟨⟩, kinds'⟩ := lexical.start
  rcases kinds' with ⟨⟨_, symbol⟩, start⟩ | number | ⟨quoted, rfl⟩ | word | ⟨comment, rfl⟩
  · -- Two characters make an operator, so that the token has one and the blank is the other.
    cases tail with
    | nil => exact symbol.noBlank space
    | cons d tail =>
        have size : (c :: d :: tail ++ b :: more).length ≤ 2 := by
          generalize c :: d :: tail ++ b :: more = text at symbol
          cases symbol
          · exact Nat.le_succ 1
          · exact Nat.le_refl 2
        simp at size
  · exact number.1.noBlank space inside
  · -- A string ends at the first quote behind its start.
    obtain ⟨other, same, all⟩ := quotedText_run quoted
    obtain ⟨content, rfl, closed⟩ : ∃ content, tail = content ++ ['"'] ∧ '"' ∉ content := by
      have symbol := symbolStarts_apart '"'
      have letter := @startsName_apart '"'
      have digit := @isDigit_apart '"'
      grind
    have same := (List.cons.inj same).2
    rcases List.prefix_concat_iff.mp ⟨_, same⟩ with whole | ⟨rest, earlier⟩
    · rw [whole] at same
      cases List.append_right_eq_self.mp same
    · have := all '"' (earlier ▸ by simp)
      cases this
  · exact word.1.noBlank space inside
  · have symbol := symbolStarts_apart '/'
    have letter := @startsName_apart '/'
    have digit := @isDigit_apart '/'
    obtain ⟨token, kind⟩ : ∃ token, SymbolText ('/' :: tail) token := by grind
    cases kind with
    | single known =>
        cases comment
        cases space
    | pair known =>
        cases comment
        cases known

end

/-- A text that is empty or starts with a blank. -/
def StartsBlank (text : List Char) : Prop :=
  ∀ c ∈ text.head?, isBlank c = true

/-- A token before a blank is the longest match at its place. -/
theorem Spells.longest {token : Token} {taken rest : List Char} (spells : token.Spells taken)
    (apart : StartsBlank rest)
    : Longest taken (taken ++ rest) := by
  rintro longer ⟨behind, whole⟩ lexical
  rcases List.append_eq_append_iff.mp whole with ⟨more, rfl, -⟩ | ⟨more, rfl, rfl⟩
  · exact (List.prefix_append longer more).length_le
  · cases more with
    | nil => exact Nat.le_of_eq (by rw [List.append_nil])
    | cons b more => exact absurd lexical (spells.not_lexical (apart b rfl))

/-- No token starts as a comment does. -/
theorem Spells.noComment {token : Token} {more : List Char}
    (spells : token.Spells ('/' :: '/' :: more))
    : False := by
  obtain ⟨_, _, ⟨⟩, kinds⟩ := spells.start
  have digit := @isDigit_apart '/'
  have letter := @startsName_apart '/'
  obtain ⟨token, kind⟩ : ∃ token, SymbolText ('/' :: '/' :: more) token := by grind
  cases kind with
  | pair known => cases known

/-- The longest token at the head of a text is what is cut off there. -/
theorem cut_token {token : Token} {c : Char} {text taken rest : List Char}
    (spells : token.Spells taken) (whole : c :: text = taken ++ rest)
    (longest : Longest taken (c :: text))
    : cut c text = ⟨.token token, taken, rest⟩ := by
  have here : taken <+: c :: text := ⟨rest, whole.symm⟩
  have lexical : Lexical taken := .inl ⟨token, spells⟩
  have heads := cut_heads c text
  generalize cut c text = piece at heads
  cases heads with
  | @blank d more space whole' =>
      obtain ⟨rfl, rfl⟩ := List.cons.inj whole'
      obtain ⟨tail, rfl, -⟩ := lexical.of_prefix here
      rw [lexical.noBlank] at space
      cases space
  | @comment line more written whole' ended =>
      have within := List.prefix_of_prefix_length_le ⟨more, whole'.symm⟩ here
        (longest line ⟨more, whole'.symm⟩ (.inr written))
      obtain ⟨behind, rfl⟩ := within
      cases written
      exact spells.noComment.elim
  | @token other taken' more spells' whole' longest' =>
      have here' : taken' <+: c :: text := ⟨more, whole'.symm⟩
      have lexical' : Lexical taken' := .inl ⟨other, spells'⟩
      have size := Nat.le_antisymm (longest taken' here' lexical') (longest' taken here lexical)
      obtain ⟨rfl, rfl⟩ := List.append_inj (whole'.symm.trans whole) size
      rw [spells'.unique spells]
  | bad _ _ nothing => exact absurd lexical (nothing.noLexeme taken here)

-----------------------------------------------------------------------------------------
-- Reading what was laid out
-----------------------------------------------------------------------------------------

/-- What stands between two tokens: a blank, and behind it blanks and whole comments. -/
inductive Separator : List Char → Prop
  | starts {c : Char} {more : List Char} (space : isBlank c = true) (others : Gap more)
      : Separator (c :: more)

/-- The spellings of tokens with separators between them. -/
def joined : List Token → List String → String
  | token :: tokens, separator :: separators =>
      token.spelling ++ (separator ++ joined tokens separators)
  | token :: _, [] => token.spelling
  | [], _ => ""

/-- The tokens with the places at which they are written. -/
def placed : Nat → List Token → List String → List Lexeme
  | offset, token :: tokens, separator :: separators =>
      ⟨token, ⟨offset, offset + token.spelling.utf8ByteSize⟩⟩
        :: placed (offset + token.spelling.utf8ByteSize + separator.utf8ByteSize) tokens
          separators
  | offset, token :: _, [] => [⟨token, ⟨offset, offset + token.spelling.utf8ByteSize⟩⟩]
  | _, [], _ => []

/-- A comment is cut off up to the end of its line. -/
theorem cut_line {body : List Char} (rest : List Char) (inside : '\n' ∉ body)
    (ended : ∀ c ∈ rest.head?, c = '\n')
    : cut '/' ('/' :: (body ++ rest)) = ⟨.blank, '/' :: '/' :: body, rest⟩ := by
  have all : ∀ c ∈ '/' :: '/' :: body, (c != '\n') = true := by
    simp only [List.forall_mem_cons, bne_iff_ne]
    exact ⟨by decide, by decide, fun c member same => inside (same ▸ member)⟩
  have stops : ∀ c ∈ rest.head?, (c != '\n') = false := by
    intro c next
    rw [ended c next]
    decide
  obtain ⟨run, behind⟩ := takeWhile_run all stops
  have line : cut '/' ('/' :: (body ++ rest)) = cutComment ('/' :: '/' :: body ++ rest) := rfl
  rw [line, cutComment, run, behind]

section

variable {found : Scan}

/-- Reading skips a gap, by induction on its blanks and comments. -/
theorem read_gap {gap : List Char} (offset : Nat) (rest : List Char) (blank : Gap gap)
    (room : found.errors.length < Scan.errorLimit)
    : Scan.read offset found (gap ++ rest) = Scan.read (offset + bytes gap) found rest := by
  induction blank generalizing offset with
  | nil => rfl
  | @blank c more space _ ih =>
      rw [← List.singleton_append, List.append_assoc, bytes_append, ← Nat.add_assoc, ← ih]
      exact read_of_cut (cut_blank space) room
  | @comment line more written _ ih =>
      obtain ⟨inside⟩ := written
      rw [List.append_assoc, List.append_cons _ '\n', bytes_append, bytes_append]
      calc Scan.read offset found ('/' :: '/' :: _ ++ '\n' :: (more ++ rest))
        _ = Scan.read (offset + bytes ('/' :: '/' :: _)) found ('\n' :: (more ++ rest)) :=
          read_of_cut (cut_line _ inside (by rintro c ⟨⟩; rfl)) room
        _ = Scan.read (offset + bytes ('/' :: '/' :: _) + bytes ['\n']) found (more ++ rest) :=
          read_of_cut (cut_blank rfl) room
        _ = Scan.read _ found rest := by
          rw [ih, Nat.add_assoc, Nat.add_assoc, Nat.add_assoc]

/-- Reading takes the longest token at the head of a text. -/
theorem read_longest {token : Token} {taken : List Char} (offset : Nat) (rest : List Char)
    (spells : token.Spells taken) (longest : Longest taken (taken ++ rest))
    (room : found.errors.length < Scan.errorLimit)
    : Scan.read offset found (taken ++ rest)
      = Scan.read (offset + bytes taken)
          ⟨⟨token, ⟨offset, offset + bytes taken⟩⟩ :: found.lexemes, found.errors⟩ rest := by
  obtain ⟨c, more, rfl, -⟩ := spells.start
  exact read_of_cut (cut_token spells rfl longest) room

/-- Reading takes a token that stands before a blank. -/
theorem read_token {token : Token} (offset : Nat) (rest : List Char) (formed : token.WellFormed)
    (apart : StartsBlank rest) (room : found.errors.length < Scan.errorLimit)
    : Scan.read offset found (token.spelling.toList ++ rest)
      = Scan.read (offset + token.spelling.utf8ByteSize)
          ⟨⟨token, ⟨offset, offset + token.spelling.utf8ByteSize⟩⟩ :: found.lexemes,
            found.errors⟩
          rest := by
  have spells : token.Spells token.spelling.toList := ⟨rfl, formed⟩
  rw [read_longest offset rest spells (spells.longest apart) room, bytes_toList]

theorem Separator.gap {text : List Char} (separator : Separator text) : Gap text := by
  cases separator with
  | starts space others => exact .blank space others

theorem Separator.startsBlank {text : List Char} (separator : Separator text) (rest : List Char)
    : StartsBlank (text ++ rest) := by
  cases separator with
  | starts space others =>
      rintro c ⟨⟩
      exact space

/-- Reading finds the tokens that were laid out, each at its place, by induction on the tokens.
-/
theorem read_joined (tokens : List Token) (separators : List String) (offset : Nat)
    (formed : ∀ token ∈ tokens, token.WellFormed)
    (apart : ∀ separator ∈ separators, Separator separator.toList)
    (enough : tokens.length ≤ separators.length + 1)
    (room : found.errors.length < Scan.errorLimit)
    : Scan.read offset found (joined tokens separators).toList
      = ⟨(placed offset tokens separators).reverse ++ found.lexemes, found.errors⟩ := by
  induction tokens, separators using joined.induct generalizing offset found with
  | case1 token tokens separator separators ih =>
      rw [List.forall_mem_cons] at formed apart
      rw [joined, String.toList_append, String.toList_append,
        read_token offset _ formed.1 (apart.1.startsBlank _) room, read_gap _ _ apart.1.gap,
        bytes_toList, ih _ formed.2 apart.2 (Nat.le_of_succ_le_succ enough), placed,
        List.reverse_cons, List.append_assoc]
      · rfl
      all_goals exact room
  | case2 token more =>
      obtain rfl : more = [] := List.length_eq_zero_iff.mp (by simpa using enough)
      rw [List.forall_mem_cons] at formed
      have alone := read_token offset [] formed.1 nofun room
      rw [List.append_nil] at alone
      rw [joined, alone, Scan.read]
      rfl
  | case3 separators =>
      rw [joined, String.toList_empty, Scan.read]
      rfl

end

/-- What was laid out are the tokens themselves. -/
theorem map_token_placed (offset : Nat) (tokens : List Token) (separators : List String)
    (enough : tokens.length ≤ separators.length + 1)
    : (placed offset tokens separators).map Lexeme.token = tokens := by
  induction tokens, separators using joined.induct generalizing offset with
  | case1 token tokens separator separators ih =>
      rw [placed, List.map_cons, ih _ (Nat.le_of_succ_le_succ enough)]
  | case2 token more =>
      obtain rfl : more = [] := List.length_eq_zero_iff.mp (by simpa using enough)
      rfl
  | case3 separators => rfl

/-- Tokens that are written with separators between them are read back, at their places. -/
theorem lex_joined (tokens : List Token) (separators : List String)
    (formed : ∀ token ∈ tokens, token.WellFormed)
    (apart : ∀ separator ∈ separators, Separator separator.toList)
    (enough : tokens.length ≤ separators.length + 1)
    : lex (joined tokens separators) = .ok (placed 0 tokens separators)
      ∧ (placed 0 tokens separators).map Lexeme.token = tokens := by
  refine ⟨?_, map_token_placed 0 tokens separators enough⟩
  rw [lex, read_joined tokens separators 0 formed apart enough (by decide), List.append_nil]
  exact congrArg Except.ok (List.reverse_reverse _)

/-- A string, a number behind a comment, and a name behind a tab and a line feed. -/
theorem lex_joined_lines
    : lex (joined [.text "ü", .number "1.5b", .name "x"] [" // two\n ", "\t\n"])
      = .ok [⟨.text "ü", ⟨0, 4⟩⟩, ⟨.number "1.5b", ⟨13, 17⟩⟩, ⟨.name "x", ⟨19, 20⟩⟩] := by
  refine (lex_joined [.text "ü", .number "1.5b", .name "x"] [" // two\n ", "\t\n"]
    ?_ ?_ (by decide)).1
  · simp only [List.forall_mem_cons]
    refine ⟨?_, ?_, ?_, nofun⟩
    · change '"' ∉ "ü".toList
      decide
    · exact @NumberText.parts ['1'] ['.', '5'] ['b'] ⟨nofun, List.all_eq_true.mp (by decide)⟩
        (.inr ⟨['5'], rfl, nofun, List.all_eq_true.mp (by decide)⟩) (.inr ⟨'b', rfl, by decide⟩)
    · exact ⟨.plain (by decide) nofun, fun reserved => by cases reserved <;> decide⟩
  · simp only [List.forall_mem_cons]
    refine ⟨.starts (by decide) ?_, .starts (by decide) (.blank (by decide) .nil), nofun⟩
    exact @Gap.comment ['/', '/', ' ', 't', 'w', 'o'] [' '] (.line (by decide))
      (.blank (by decide) .nil)

end Token

end StackScript
