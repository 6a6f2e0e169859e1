import StackScript.Proofs.Token.Patterns

/-! The head of a text is its longest match. Cutting off the head of a text takes a blank, a
comment up to the end of its line, the longest token, or text at which nothing starts. The
first characters tell which of the patterns can match there, and for each pattern what is cut
off is as long as any text of that pattern can be.
-/

namespace StackScript

namespace Token

/-- No token and no comment at the head of a text is longer. -/
def Longest (taken text : List Char) : Prop :=
  ∀ longer, longer <+: text → Lexical longer → longer.length ≤ taken.length

/-- No blank, token or comment stands at the head of a text. -/
structure StartsNothing (text : List Char) : Prop where
  noBlank : ∀ c ∈ text.head?, isBlank c = false
  noLexeme : ∀ head, head <+: text → ¬Lexical head

/-- What is cut off at the head of a text. -/
inductive Heads (text : List Char) : Cut → Prop
  | blank {c : Char} {rest : List Char} (space : isBlank c = true) (whole : text = c :: rest)
      : Heads text ⟨.blank, [c], rest⟩
  | comment {line rest : List Char} (written : CommentText line) (whole : text = line ++ rest)
      (ended : rest = [] ∨ ∃ more, rest = '\n' :: more)
      : Heads text ⟨.blank, line, rest⟩
  | token {token : Token} {taken rest : List Char} (spells : token.Spells taken)
      (whole : text = taken ++ rest) (longest : Longest taken text)
      : Heads text ⟨.token token, taken, rest⟩
  | bad {taken rest : List Char} (some : taken ≠ []) (whole : text = taken ++ rest)
      (nothing : StartsNothing text)
      : Heads text ⟨.bad, taken, rest⟩

-----------------------------------------------------------------------------------------
-- First characters
-----------------------------------------------------------------------------------------

/-- The characters with which marks and operators start. -/
def symbolStarts : List Char :=
  ['(', ')', '\x7b', '\x7d', ',', ';', '=', '<', '>', '+', '-', '*', '/', '%', '|', '&', '!']

theorem mem_symbolStarts_of_ofChar? {c : Char} {token : Token} (known : ofChar? c = some token)
    : c ∈ symbolStarts := by
  unfold ofChar? at known
  split at known <;> first | decide | cases known

theorem mem_symbolStarts_of_ofPair? {c d : Char} {token : Token}
    (known : ofPair? c d = some token)
    : c ∈ symbolStarts := by
  unfold ofPair? at known
  split at known <;> first | decide | cases known

/-- Marks and operators start with characters of their own. -/
theorem symbolStarts_apart
    : ∀ c ∈ symbolStarts,
        isBlank c = false ∧ c.isDigit = false ∧ c ≠ '"' ∧ startsName c = false ∧ c ≠ '$' := by
  intro c start
  have apart : (symbolStarts.all fun c =>
      !isBlank c && !c.isDigit && c != '"' && !startsName c && c != '$') = true := by
    decide
  simpa [and_assoc] using List.all_eq_true.mp apart c start

/-- A blank is none of the first characters. -/
theorem isBlank_apart {c : Char} (space : isBlank c = true)
    : c.isDigit = false ∧ c ≠ '"' ∧ startsName c = false ∧ c ≠ '$' ∧ c ∉ symbolStarts := by
  simp only [isBlank, Bool.or_eq_true, decide_eq_true_eq] at space
  rcases space with (((rfl | rfl) | rfl) | rfl) | rfl <;> decide

/-- A letter is no digit, and neither is one of the other first characters. -/
theorem startsName_apart {c : Char} (letter : startsName c = true)
    : c.isDigit = false ∧ c ≠ '"' ∧ c ≠ '$' ∧ c ≠ '/' := by
  refine ⟨?_, ?_, ?_, ?_⟩
  · delta startsName Char.isAlpha Char.isUpper Char.isLower at letter
    delta Char.isDigit
    simp only [Bool.or_eq_true, Bool.and_eq_true, decide_eq_true_eq] at letter ⊢
    rcases letter with letter | rfl
    · grind
    · decide
  all_goals
    rintro rfl
    exact absurd letter (by decide)

theorem isDigit_apart {c : Char} (digit : c.isDigit = true) : c ≠ '"' ∧ c ≠ '$' ∧ c ≠ '/' := by
  refine ⟨?_, ?_, ?_⟩
  all_goals
    rintro rfl
    exact absurd digit (by decide)

/-- The patterns that a token may have, with the characters that they start with. -/
theorem Spells.start {token : Token} {text : List Char} (spells : token.Spells text)
    : ∃ c more,
        text = c :: more
        ∧ (SymbolText text token ∧ c ∈ symbolStarts
          ∨ (NumberText text ∧ token = .number (String.ofList text)) ∧ c.isDigit = true
          ∨ (∃ content, more = content ++ ['"'] ∧ '"' ∉ content
              ∧ token = .text (String.ofList content)) ∧ c = '"'
          ∨ (WordText text ∧ token = ofWord text) ∧ (startsName c = true ∨ c = '$')) := by
  rcases spells.kinds with symbol | number | ⟨content, rfl, quoted⟩ | word
  · have kind := symbol
    cases kind with
    | single known => exact ⟨_, _, rfl, .inl ⟨symbol, mem_symbolStarts_of_ofChar? known⟩⟩
    | pair known => exact ⟨_, _, rfl, .inl ⟨symbol, mem_symbolStarts_of_ofPair? known⟩⟩
  · have kind := number.1
    obtain ⟨⟨some, digits⟩, -, -⟩ := kind
    obtain ⟨c, more, rfl⟩ := List.exists_cons_of_ne_nil some
    exact ⟨c, _, rfl, .inr (.inl ⟨number, digits c List.mem_cons_self⟩)⟩
  · exact ⟨_, _, rfl, .inr (.inr (.inl ⟨⟨content, rfl, quoted⟩, rfl⟩))⟩
  · have kind := word.1
    cases kind with
    | plain first => exact ⟨_, _, rfl, .inr (.inr (.inr ⟨word, .inl first⟩))⟩
    | dollar => exact ⟨_, _, rfl, .inr (.inr (.inr ⟨word, .inr rfl⟩))⟩

theorem SymbolText.unique {one other : Token} {text : List Char} (first : SymbolText text one)
    (second : SymbolText text other)
    : one = other := by
  cases first <;> cases second <;> exact Option.some.inj (Eq.trans (Eq.symm ‹_›) ‹_›)

/-- A text is how at most one token is written. -/
theorem Spells.unique {one other : Token} {text : List Char} (first : one.Spells text)
    (second : other.Spells text)
    : one = other := by
  obtain ⟨c, more, rfl, kinds⟩ := first.start
  obtain ⟨_, _, ⟨⟩, kinds'⟩ := second.start
  have symbol := symbolStarts_apart c
  have letter := @startsName_apart c
  have digit := @isDigit_apart c
  rcases kinds with ⟨known, start⟩ | ⟨⟨_, same⟩, start⟩ | ⟨⟨content, shape, _, same⟩, start⟩
    | ⟨⟨_, same⟩, start⟩
  · have apart := symbol start
    rcases kinds' with ⟨known', _⟩ | kinds'
    · exact known.unique known'
    · grind
  · have apart := digit start
    rcases kinds' with kinds' | ⟨⟨_, same'⟩, _⟩ | kinds'
    · grind
    · rw [same, same']
    · grind
  · rcases kinds' with kinds' | kinds' | ⟨⟨_, shape', _, same'⟩, _⟩ | kinds'
    · grind
    · grind
    · rw [same, same', List.append_cancel_right (shape.symm.trans shape')]
    · grind
  · rcases kinds' with kinds' | kinds' | kinds' | ⟨⟨_, same'⟩, _⟩
    · grind
    · grind
    · grind
    · rw [same, same']

/-- The patterns that a token or a comment may have, with the characters they start with. -/
theorem Lexical.start {text : List Char} (lexical : Lexical text)
    : ∃ c more,
        text = c :: more
        ∧ ((∃ token, SymbolText text token) ∧ c ∈ symbolStarts
          ∨ NumberText text ∧ c.isDigit = true
          ∨ QuotedText text ∧ c = '"'
          ∨ WordText text ∧ (startsName c = true ∨ c = '$')
          ∨ CommentText text ∧ c = '/') := by
  rcases lexical with ⟨token, spells⟩ | comment
  · obtain ⟨c, more, rfl, symbol | number | ⟨⟨content, rfl, inside, -⟩, rfl⟩ | word⟩ :=
      spells.start
    · exact ⟨c, more, rfl, .inl ⟨⟨token, symbol.1⟩, symbol.2⟩⟩
    · exact ⟨c, more, rfl, .inr (.inl ⟨number.1.1, number.2⟩)⟩
    · exact ⟨_, _, rfl, .inr (.inr (.inl ⟨.quotes inside, rfl⟩))⟩
    · exact ⟨c, more, rfl, .inr (.inr (.inr (.inl ⟨word.1.1, word.2⟩)))⟩
  · cases comment with
    | line inside => exact ⟨_, _, rfl, .inr (.inr (.inr (.inr ⟨.line inside, rfl⟩)))⟩

section

variable {c : Char} {more : List Char}

theorem Lexical.number (lexical : Lexical (c :: more)) (digit : c.isDigit = true)
    : NumberText (c :: more) := by
  obtain ⟨_, _, ⟨⟩, kinds⟩ := lexical.start
  have symbol := symbolStarts_apart c
  have letter := @startsName_apart c
  have others := isDigit_apart digit
  grind

theorem Lexical.quoted (lexical : Lexical ('"' :: more)) : QuotedText ('"' :: more) := by
  obtain ⟨_, _, ⟨⟩, kinds⟩ := lexical.start
  have symbol := symbolStarts_apart '"'
  have letter := @startsName_apart '"'
  have digit := @isDigit_apart '"'
  grind

theorem Lexical.word (lexical : Lexical (c :: more)) (start : startsName c = true ∨ c = '$')
    : WordText (c :: more) := by
  obtain ⟨_, _, ⟨⟩, kinds⟩ := lexical.start
  have symbol := symbolStarts_apart c
  have letter := @startsName_apart c
  have digit := @isDigit_apart c
  grind

/-- A blank starts no token and no comment. -/
theorem Lexical.noBlank (lexical : Lexical (c :: more)) : isBlank c = false := by
  obtain ⟨_, _, ⟨⟩, kinds⟩ := lexical.start
  have space := @isBlank_apart c
  have slash : '/' ∈ symbolStarts := by decide
  grind

/-- What is no number, string, word or comment is a mark or an operator. -/
theorem Lexical.symbol (lexical : Lexical (c :: more)) (noDigit : c.isDigit = false)
    (noQuote : c ≠ '"') (noLetter : startsName c = false)
    (noDollar : c = '$' → ∀ d rest, more = d :: rest → startsName d = false)
    (noComment : c = '/' → ∀ rest, more ≠ '/' :: rest)
    : ∃ token, SymbolText (c :: more) token := by
  obtain ⟨_, _, ⟨⟩, symbol | number | quoted | word | comment⟩ := lexical.start
  · exact symbol.1
  · rw [noDigit] at number
    cases number.2
  · exact absurd quoted.2 noQuote
  · cases word.1 with
    | plain first => rw [noLetter] at first; cases first
    | dollar first => rw [noDollar rfl _ _ rfl] at first; cases first
  · cases comment.1 with
    | line inside => exact absurd rfl (noComment rfl _)

end

-----------------------------------------------------------------------------------------
-- Runs of characters
-----------------------------------------------------------------------------------------

theorem of_mem_takeWhile {p : Char → Bool} {text : List Char} {c : Char}
    (member : c ∈ text.takeWhile p)
    : p c = true :=
  List.all_eq_true.mp List.all_takeWhile c member

/-- A run of characters ends where the next one is of another kind. -/
theorem takeWhile_run {p : Char → Bool} {run rest : List Char} (all : ∀ c ∈ run, p c = true)
    (stops : ∀ c ∈ rest.head?, p c = false)
    : (run ++ rest).takeWhile p = run ∧ (run ++ rest).dropWhile p = rest := by
  rw [List.takeWhile_append_of_pos all, List.dropWhile_append_of_pos all]
  cases rest with
  | nil => exact ⟨List.append_nil run, rfl⟩
  | cons c rest =>
      have other := stops c rfl
      simp [other]

/-- The head of what follows a run is of another kind. -/
theorem head?_dropWhile (p : Char → Bool) (text : List Char)
    : ∀ c ∈ (text.dropWhile p).head?, p c = false := by
  intro c next
  have := List.head?_dropWhile_not p text
  rw [Option.mem_def.mp next] at this
  exact this

/-- A text that is longer than the one taken would have to be another one of its pattern. -/
theorem Longest.of_pattern (pattern : List Char → Prop) {taken text : List Char}
    (kind : ∀ head, head <+: text → Lexical head → pattern head)
    (bound : ∀ head rest, text = head ++ rest → pattern head → head.length ≤ taken.length)
    : Longest taken text := by
  rintro longer ⟨rest, whole⟩ lexical
  exact bound longer rest whole.symm (kind longer ⟨rest, whole⟩ lexical)

/-- A token or a comment at the head of a text starts with the first character of the text. -/
theorem Lexical.of_prefix {c : Char} {head more : List Char} (lexical : Lexical head)
    (here : head <+: c :: more)
    : ∃ tail, head = c :: tail ∧ tail <+: more := by
  obtain ⟨d, tail, rfl, -⟩ := lexical.start
  obtain ⟨rfl, behind⟩ := List.cons_prefix_cons.mp here
  exact ⟨tail, rfl, behind⟩

-----------------------------------------------------------------------------------------
-- Numbers
-----------------------------------------------------------------------------------------

theorem cutFraction_split (text : List Char)
    : FractionText (cutFraction text).1
      ∧ text = (cutFraction text).1 ++ (cutFraction text).2 := by
  unfold cutFraction
  split
  · rename_i rest
    split
    · exact ⟨.inl rfl, rfl⟩
    · rename_i some
      refine ⟨.inr ⟨_, rfl, ?_, fun c => of_mem_takeWhile⟩, ?_⟩
      · simpa using some
      · simp
  · exact ⟨.inl rfl, rfl⟩

theorem cutSuffix_split (text : List Char)
    : SuffixText (cutSuffix text).1 ∧ text = (cutSuffix text).1 ++ (cutSuffix text).2 := by
  unfold cutSuffix
  split
  · split
    · rename_i letter
      exact ⟨.inr ⟨_, rfl, letter⟩, rfl⟩
    · exact ⟨.inl rfl, rfl⟩
  · exact ⟨.inl rfl, rfl⟩

/-- A letter that ends a number is no part of what stands before it. -/
theorem isSuffix_apart {c : Char} (letter : isSuffix c = true)
    : c.isDigit = false ∧ c ≠ '.' := by
  simp only [isSuffix, Bool.or_eq_true, decide_eq_true_eq] at letter
  rcases letter with ((((rfl | rfl) | rfl) | rfl) | rfl) | rfl <;> decide

theorem cutSuffix_of_suffix {suffix rest : List Char} (kind : SuffixText suffix)
    : suffix.length ≤ (cutSuffix (suffix ++ rest)).1.length := by
  rcases kind with rfl | ⟨c, rfl, letter⟩
  · exact Nat.zero_le _
  · simp [cutSuffix, letter]

theorem cutFraction_of_other {c : Char} {rest : List Char} (other : c ≠ '.')
    : cutFraction (c :: rest) = ([], c :: rest) := by
  unfold cutFraction
  split
  · rename_i same
    cases same
    exact absurd rfl other
  · rfl

theorem cutFraction_of_run {digits rest : List Char}
    (some : (rest.takeWhile Char.isDigit) = digits) (nonempty : digits ≠ [])
    : cutFraction ('.' :: rest) = ('.' :: digits, rest.dropWhile Char.isDigit) := by
  subst some
  simp only [cutFraction, List.isEmpty_iff, nonempty, if_false]

/-- What is cut off behind the whole part is as long as a fraction and a suffix that stand
there.
-/
theorem length_fraction_suffix {fraction suffix : List Char} (rest : List Char)
    (second : FractionText fraction) (third : SuffixText suffix)
    : fraction.length + suffix.length
      ≤ (cutFraction (fraction ++ (suffix ++ rest))).1.length
        + (cutSuffix (cutFraction (fraction ++ (suffix ++ rest))).2).1.length := by
  rcases second with rfl | ⟨digits, rfl, some, all⟩
  · rcases third with rfl | ⟨c, rfl, letter⟩
    · exact Nat.zero_le _
    · have same : cutFraction ([] ++ ([c] ++ rest)) = ([], c :: rest) :=
        cutFraction_of_other (isSuffix_apart letter).2
      rw [same]
      exact Nat.add_le_add_left (cutSuffix_of_suffix (.inr ⟨c, rfl, letter⟩)) 0
  · rcases third with rfl | ⟨c, rfl, letter⟩
    · have run : ((digits ++ rest).takeWhile Char.isDigit)
          = digits ++ rest.takeWhile Char.isDigit :=
        List.takeWhile_append_of_pos all
      simp only [List.cons_append, List.nil_append]
      rw [cutFraction_of_run run (by simp [some])]
      simp only [List.length_cons, List.length_append, List.length_nil]
      omega
    · have stops : ∀ d ∈ (c :: rest).head?, d.isDigit = false := by
        rintro d ⟨⟩
        exact (isSuffix_apart letter).1
      obtain ⟨run, behind⟩ := takeWhile_run all stops
      have same : cutFraction (('.' :: digits) ++ ([c] ++ rest))
          = ('.' :: digits, c :: rest) := by
        rw [List.cons_append, List.singleton_append, cutFraction_of_run run some, behind]
      rw [same]
      exact Nat.add_le_add_left (cutSuffix_of_suffix (.inr ⟨c, rfl, letter⟩)) _

/-- A fraction or a suffix starts with no digit. -/
theorem head?_fraction_suffix {fraction suffix : List Char} (rest : List Char)
    (second : FractionText fraction) (third : SuffixText suffix) (some : fraction ++ suffix ≠ [])
    : ∀ c ∈ (fraction ++ (suffix ++ rest)).head?, c.isDigit = false := by
  rcases second with rfl | ⟨digits, rfl, -, -⟩
  · rcases third with rfl | ⟨c, rfl, letter⟩
    · exact absurd rfl some
    · rintro d ⟨⟩
      exact (isSuffix_apart letter).1
  · rintro d ⟨⟩
    decide

/-- No number at the head of a text is longer than the one that is cut off. -/
theorem length_number {head : List Char} (rest : List Char) (number : NumberText head)
    : head.length ≤ (cutNumber (head ++ rest)).taken.length := by
  cases number with
  | @parts whole fraction suffix first second third =>
      simp only [cutNumber, List.append_assoc, List.length_append]
      by_cases none : fraction ++ suffix = []
      · obtain ⟨rfl, rfl⟩ := List.append_eq_nil_iff.mp none
        rw [List.takeWhile_append_of_pos first.2, List.length_append]
        simp only [List.length_nil]
        omega
      · obtain ⟨run, behind⟩ :=
          takeWhile_run first.2 (head?_fraction_suffix rest second third none)
        rw [run, behind]
        have := length_fraction_suffix rest second third
        omega

theorem heads_cutNumber {c : Char} {more : List Char} (digit : c.isDigit = true)
    : Heads (c :: more) (cutNumber (c :: more)) := by
  obtain ⟨second, fraction⟩ := cutFraction_split ((c :: more).dropWhile Char.isDigit)
  obtain ⟨third, suffix⟩ :=
    cutSuffix_split (cutFraction ((c :: more).dropWhile Char.isDigit)).2
  have first : DigitText ((c :: more).takeWhile Char.isDigit) :=
    ⟨by simp [digit], fun d => of_mem_takeWhile⟩
  refine .token ⟨(String.toList_ofList).symm, ?_⟩ ?_ ?_
  · rw [WellFormed, String.toList_ofList]
    exact .parts first second third
  · rw [List.append_assoc, List.append_assoc, ← suffix, ← fraction,
      List.takeWhile_append_dropWhile]
  · refine .of_pattern NumberText (fun head here lexical => ?_)
      fun head rest whole number => ?_
    · obtain ⟨tail, rfl, -⟩ := lexical.of_prefix here
      exact lexical.number digit
    · have bound := length_number rest number
      rwa [← whole] at bound

-----------------------------------------------------------------------------------------
-- Strings, words, marks and comments
-----------------------------------------------------------------------------------------

theorem quotedText_run {head : List Char} (quoted : QuotedText head)
    : ∃ content, head = '"' :: (content ++ ['"']) ∧ ∀ c ∈ content, (c != '"') = true := by
  cases quoted with
  | @quotes content inside =>
      refine ⟨content, rfl, fun c member => ?_⟩
      rw [bne_iff_ne]
      rintro rfl
      exact inside member

/-- A string at the head of a text ends at the first quote behind it. -/
theorem quotedText_head {text head rest : List Char} (whole : '"' :: text = head ++ rest)
    (quoted : QuotedText head)
    : head = '"' :: (text.takeWhile (· != '"') ++ ['"'])
      ∧ text.dropWhile (· != '"') = '"' :: rest := by
  obtain ⟨content, rfl, all⟩ := quotedText_run quoted
  rw [List.cons_append, List.append_assoc] at whole
  obtain ⟨-, rfl⟩ := List.cons.inj whole
  have stops : ∀ c ∈ (['"'] ++ rest).head?, (c != '"') = false := by
    rintro c ⟨⟩
    decide
  obtain ⟨run, behind⟩ := takeWhile_run all stops
  rw [run, behind]
  exact ⟨rfl, rfl⟩

theorem heads_cutText (text : List Char) : Heads ('"' :: text) (cutText text) := by
  have split := List.takeWhile_append_dropWhile (p := (· != '"')) (l := text)
  have inside : '"' ∉ text.takeWhile (· != '"') := fun member =>
    absurd (of_mem_takeWhile member) (by decide)
  have kind (head : List Char) (here : head <+: '"' :: text) (lexical : Lexical head)
      : QuotedText head := by
    obtain ⟨tail, rfl, -⟩ := lexical.of_prefix here
    exact lexical.quoted
  unfold cutText
  dsimp only
  split
  · rename_i unclosed
    refine .bad (List.cons_ne_nil _ _) ?_ ⟨?_, ?_⟩
    · rw [unclosed, List.append_nil] at split
      rw [split, List.append_nil]
    · rintro c ⟨⟩
      decide
    · rintro head ⟨rest, whole⟩ lexical
      have closed := (quotedText_head whole.symm (kind head ⟨rest, whole⟩ lexical)).2
      rw [unclosed] at closed
      cases closed
  · rename_i quote rest closed
    have last : quote = '"' := by
      have := head?_dropWhile (· != '"') text quote (by rw [closed]; rfl)
      simpa using this
    subst last
    refine .token ⟨?_, ?_⟩ ?_ ?_
    · simp [spelling]
    · rw [WellFormed, String.toList_ofList]
      exact inside
    · rw [closed] at split
      simp only [List.cons_append, List.append_assoc, List.nil_append, split]
    · refine .of_pattern QuotedText kind fun head rest whole quoted => ?_
      exact Nat.le_of_eq (congrArg List.length (quotedText_head whole quoted).1)

/-- A word goes on as far as its characters do. -/
theorem heads_cutWord (start : List Char) {more : List Char}
    (word : ∀ run, (∀ d ∈ run, continuesName d = true) → WordText (start ++ run))
    (only : ∀ head, head <+: start ++ more → Lexical head
      → ∃ run, head = start ++ run ∧ ∀ d ∈ run, continuesName d = true)
    : Heads (start ++ more) (cutWord start more) := by
  refine .token (spells_ofWord (word _ fun d => of_mem_takeWhile)) ?_ ?_
  · rw [List.append_assoc, List.takeWhile_append_dropWhile]
  · rintro longer ⟨rest, whole⟩ lexical
    obtain ⟨run, rfl, all⟩ := only longer ⟨rest, whole⟩ lexical
    rw [List.append_assoc] at whole
    rw [← List.append_cancel_left whole, List.takeWhile_append_of_pos all]
    simp only [List.length_append]
    omega

theorem heads_plainWord {c : Char} {more : List Char} (letter : startsName c = true)
    : Heads (c :: more) (cutWord [c] more) := by
  refine heads_cutWord [c] (fun run all => .plain letter all) fun head here lexical => ?_
  obtain ⟨tail, rfl, -⟩ := lexical.of_prefix here
  cases lexical.word (.inl letter) with
  | plain _ others => exact ⟨tail, rfl, others⟩
  | dollar => exact absurd rfl (startsName_apart letter).2.2.1

theorem heads_dollarWord {d : Char} {more : List Char} (letter : startsName d = true)
    : Heads ('$' :: d :: more) (cutWord ['$', d] more) := by
  refine heads_cutWord ['$', d] (fun run all => .dollar letter all) fun head here lexical => ?_
  obtain ⟨tail, rfl, behind⟩ := lexical.of_prefix here
  cases lexical.word (.inr rfl) with
  | plain first => exact absurd first (by decide)
  | dollar _ others =>
      obtain ⟨rfl, -⟩ := List.cons_prefix_cons.mp behind
      exact ⟨_, rfl, others⟩

section

variable {c : Char} {more : List Char}

/-- Where no two characters make an operator, a token or comment is the one character. -/
theorem eq_singleton_of_lexical {head : List Char}
    (only : ∀ head, head <+: c :: more → Lexical head → ∃ token, SymbolText head token)
    (alone : ∀ d rest, more = d :: rest → ofPair? c d = none) (here : head <+: c :: more)
    (lexical : Lexical head)
    : head = [c] ∧ ∃ token, ofChar? c = some token := by
  obtain ⟨rest, whole⟩ := here
  obtain ⟨_, symbol⟩ := only head ⟨rest, whole⟩ lexical
  cases symbol with
  | single known =>
      cases whole
      exact ⟨rfl, _, known⟩
  | pair known =>
      cases whole
      rw [alone _ _ rfl] at known
      cases known

theorem heads_single {token : Token}
    (only : ∀ head, head <+: c :: more → Lexical head → ∃ token, SymbolText head token)
    (alone : ∀ d rest, more = d :: rest → ofPair? c d = none) (known : ofChar? c = some token)
    : Heads (c :: more) ⟨.token token, [c], more⟩ := by
  refine .token (spells_of_ofChar? known) rfl fun longer here lexical => ?_
  have same := (eq_singleton_of_lexical only alone here lexical).1
  exact Nat.le_of_eq (congrArg List.length same)

theorem heads_foreign (noBlank : isBlank c = false)
    (only : ∀ head, head <+: c :: more → Lexical head → ∃ token, SymbolText head token)
    (alone : ∀ d rest, more = d :: rest → ofPair? c d = none) (none : ofChar? c = none)
    : Heads (c :: more) ⟨.bad, [c], more⟩ := by
  refine .bad (List.cons_ne_nil _ _) rfl ⟨?_, fun head here lexical => ?_⟩
  · rintro d ⟨⟩
    exact noBlank
  · obtain ⟨-, token, known⟩ := eq_singleton_of_lexical only alone here lexical
    rw [none] at known
    cases known

/-- Where only marks and operators can stand, the longer one is taken. -/
theorem heads_cutMark (noBlank : isBlank c = false)
    (only : ∀ head, head <+: c :: more → Lexical head → ∃ token, SymbolText head token)
    : Heads (c :: more) (cutMark c more) := by
  unfold cutMark
  dsimp only
  split
  · have alone (d : Char) (rest : List Char) (same : [] = d :: rest) : ofPair? c d = none :=
      absurd same.symm (List.cons_ne_nil d rest)
    split
    · rename_i known
      exact heads_single only alone known
    · rename_i none
      exact heads_foreign noBlank only alone none
  · rename_i d rest
    split
    · rename_i token known
      refine .token (spells_of_ofPair? known) rfl fun longer here lexical => ?_
      obtain ⟨_, symbol⟩ := only longer here lexical
      cases symbol <;> simp
    · rename_i noPair
      have alone (e : Char) (more : List Char) (same : d :: rest = e :: more)
          : ofPair? c e = none := by
        cases same
        exact noPair
      split
      · rename_i known
        exact heads_single only alone known
      · rename_i none
        exact heads_foreign noBlank only alone none

end

theorem heads_cutComment (more : List Char)
    : Heads ('/' :: '/' :: more) (cutComment ('/' :: '/' :: more)) := by
  have first : ('/' != '\n') = true := by decide
  have split := List.takeWhile_append_dropWhile (p := (· != '\n')) (l := more)
  simp only [cutComment, List.takeWhile_cons, List.dropWhile_cons, first, if_true]
  refine .comment (.line fun member => absurd (of_mem_takeWhile member) (by decide)) ?_ ?_
  · rw [List.cons_append, List.cons_append, split]
  · cases ended : more.dropWhile (· != '\n') with
    | nil => exact .inl rfl
    | cons c rest =>
        have := head?_dropWhile (· != '\n') more c (by rw [ended]; rfl)
        have same : c = '\n' := by simpa using this
        exact .inr ⟨rest, by rw [same]⟩

/-- What is cut off at the head of a text is its longest match. -/
theorem cut_heads (c : Char) (more : List Char) : Heads (c :: more) (cut c more) := by
  unfold cut
  split
  · rename_i space
    exact .blank space rfl
  rename_i noBlank
  split
  · rename_i comment
    simp only [Bool.and_eq_true, decide_eq_true_eq] at comment
    obtain ⟨rfl, next⟩ := comment
    obtain ⟨rest, rfl⟩ := List.head?_eq_some_iff.mp next
    exact heads_cutComment rest
  rename_i noComment
  split
  · rename_i digit
    exact heads_cutNumber digit
  rename_i noDigit
  split
  · rename_i quote
    subst quote
    exact heads_cutText more
  rename_i noQuote
  split
  · rename_i letter
    exact heads_plainWord letter
  rename_i noLetter
  simp only [Bool.not_eq_true] at noBlank noComment noDigit noLetter
  have mark (noDollar : c = '$' → ∀ d rest, more = d :: rest → startsName d = false)
      : Heads (c :: more) (cutMark c more) := by
    refine heads_cutMark noBlank fun head here lexical => ?_
    obtain ⟨tail, rfl, behind, same⟩ := lexical.of_prefix here
    refine lexical.symbol noDigit noQuote noLetter ?_ ?_
    · rintro dollar d rest rfl
      exact noDollar dollar d _ same.symm
    · rintro rfl rest rfl
      rw [← same] at noComment
      cases noComment
  split
  · rename_i d rest
    split
    · rename_i name
      simp only [Bool.and_eq_true, decide_eq_true_eq] at name
      obtain ⟨rfl, letter⟩ := name
      exact heads_dollarWord letter
    · rename_i noName
      refine mark fun dollar e _ same => ?_
      cases same
      simpa [dollar] using noName
  · exact mark nofun

end Token

end StackScript
