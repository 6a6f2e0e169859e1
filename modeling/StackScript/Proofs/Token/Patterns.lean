import StackScript.Token.Reading

/-! How tokens and comments are written, said of whole texts and without any order of reading:

    number   := digits ('.' digits)? suffix?
    string   := '"' (any character but '"')* '"'
    word     := '$'? (letter | '_') (letter | digit | '_')*
    comment  := '//' (any character but a line feed)*

A name is a word that is no keyword, and every other token has one spelling. What a text is
shows in its first two characters, but for where it ends.
-/

namespace StackScript

namespace Token

-----------------------------------------------------------------------------------------
-- Patterns
-----------------------------------------------------------------------------------------

/-- One or more digits. -/
def DigitText (text : List Char) : Prop :=
  text ≠ [] ∧ ∀ c ∈ text, c.isDigit = true

/-- A point and digits behind it, or nothing. -/
def FractionText (text : List Char) : Prop :=
  text = [] ∨ ∃ digits, text = '.' :: digits ∧ DigitText digits

/-- A letter that may end a number, or nothing. -/
def SuffixText (text : List Char) : Prop :=
  text = [] ∨ ∃ c, text = [c] ∧ isSuffix c = true

/-- A number as it is written. -/
inductive NumberText : List Char → Prop
  | parts {whole fraction suffix : List Char} (first : DigitText whole)
      (second : FractionText fraction) (third : SuffixText suffix)
      : NumberText (whole ++ fraction ++ suffix)

/-- A string as it is written. -/
inductive QuotedText : List Char → Prop
  | quotes {content : List Char} (inside : '"' ∉ content)
      : QuotedText ('"' :: (content ++ ['"']))

/-- A name or a keyword as it is written. -/
inductive WordText : List Char → Prop
  | plain {c : Char} {more : List Char} (first : startsName c = true)
      (others : ∀ d ∈ more, continuesName d = true)
      : WordText (c :: more)
  | dollar {c : Char} {more : List Char} (first : startsName c = true)
      (others : ∀ d ∈ more, continuesName d = true)
      : WordText ('$' :: c :: more)

/-- A comment as it is written, without the end of its line. -/
inductive CommentText : List Char → Prop
  | line {body : List Char} (inside : '\n' ∉ body) : CommentText ('/' :: '/' :: body)

/-- A token carries a text that its kind allows. -/
def WellFormed : Token → Prop
  | .number digits => NumberText digits.toList
  | .text content => '"' ∉ content.toList
  | .name word => WordText word.toList ∧ ∀ reserved : Keyword, reserved.spelling ≠ word
  | _ => True

/-- A text is how the token is written. -/
def Spells (token : Token) (text : List Char) : Prop :=
  text = token.spelling.toList ∧ token.WellFormed

/-- A text is a token or a comment. -/
def Lexical (text : List Char) : Prop :=
  (∃ token : Token, token.Spells text) ∨ CommentText text

/-- Blanks and comments, each comment with the end of its line. -/
inductive Gap : List Char → Prop
  | nil : Gap []
  | blank {c : Char} {more : List Char} (space : isBlank c = true) (others : Gap more)
      : Gap (c :: more)
  | comment {line more : List Char} (written : CommentText line) (others : Gap more)
      : Gap (line ++ '\n' :: more)

theorem Gap.append {text more : List Char} (gap : Gap text) (others : Gap more)
    : Gap (text ++ more) := by
  induction gap with
  | nil => exact others
  | blank space _ ih => exact .blank space ih
  | comment written _ ih =>
      rw [List.append_assoc]
      exact .comment written ih

-----------------------------------------------------------------------------------------
-- Marks and operators
-----------------------------------------------------------------------------------------

/-- A mark, an operator or an update as it is written. -/
inductive SymbolText : List Char → Token → Prop
  | single {c : Char} {token : Token} (known : ofChar? c = some token) : SymbolText [c] token
  | pair {c d : Char} {token : Token} (known : ofPair? c d = some token)
      : SymbolText [c, d] token

/-- Each table gives the token that is written so. -/
theorem spells_of_ofChar? {c : Char} {token : Token} (known : ofChar? c = some token)
    : token.Spells [c] := by
  unfold ofChar? at known
  split at known <;> cases known <;> exact ⟨rfl, trivial⟩

theorem spells_of_ofPair? {c d : Char} {token : Token} (known : ofPair? c d = some token)
    : token.Spells [c, d] := by
  unfold ofPair? at known
  split at known <;> cases known <;> exact ⟨by decide, trivial⟩

theorem symbolText_mark (mark : Mark) : SymbolText mark.spelling.toList (.mark mark) := by
  cases mark
  case orOr => exact .pair rfl
  case andAnd => exact .pair rfl
  all_goals exact .single rfl

theorem symbolText_operator (op : Operator)
    : SymbolText op.spelling.toList (.operator op) := by
  cases op
  case equal => exact .pair rfl
  case notEqual => exact .pair rfl
  case lessOrEqual => exact .pair rfl
  case greaterOrEqual => exact .pair rfl
  all_goals exact .single rfl

theorem symbolText_update (op : Update) : SymbolText op.spelling.toList (.update op) := by
  cases op <;> exact .pair rfl

/-- A word is written for one token: the keyword with that spelling, or the name. -/
theorem spells_ofWord {word : List Char} (kind : WordText word) : (ofWord word).Spells word := by
  unfold ofWord Keyword.ofSpelling?
  dsimp only
  split
  · rename_i reserved found
    have same := List.find?_some found
    rw [decide_eq_true_eq] at same
    refine ⟨?_, trivial⟩
    rw [spelling, same, String.toList_ofList]
  · rename_i none
    refine ⟨String.toList_ofList.symm, ?_, fun reserved same => ?_⟩
    · rwa [String.toList_ofList]
    · have other := List.find?_eq_none.mp none reserved (by cases reserved <;> decide)
      exact other (decide_eq_true same)

theorem ofWord_keyword (word : Keyword) : ofWord word.spelling.toList = .keyword word := by
  cases word <;> decide

theorem ofWord_name {word : String} (other : ∀ reserved : Keyword, reserved.spelling ≠ word)
    : ofWord word.toList = .name word := by
  have none : Keyword.ofSpelling? word = none :=
    List.find?_eq_none.mpr fun reserved _ same => other reserved (of_decide_eq_true same)
  simp only [ofWord, String.ofList_toList, none]

theorem wordText_keyword (word : Keyword) : WordText word.spelling.toList := by
  cases word <;> exact .plain (by decide) (List.all_eq_true.mp (by decide))

/-- What a token is written as is of one of four kinds, each of which tells the token. -/
theorem Spells.kinds {token : Token} {text : List Char} (spells : token.Spells text)
    : SymbolText text token
      ∨ (NumberText text ∧ token = .number (String.ofList text))
      ∨ (∃ content, text = '"' :: (content ++ ['"']) ∧ '"' ∉ content
          ∧ token = .text (String.ofList content))
      ∨ (WordText text ∧ token = ofWord text) := by
  obtain ⟨rfl, formed⟩ := spells
  cases token with
  | keyword word =>
      exact .inr (.inr (.inr ⟨wordText_keyword word, (ofWord_keyword word).symm⟩))
  | mark mark => exact .inl (symbolText_mark mark)
  | operator op => exact .inl (symbolText_operator op)
  | update op => exact .inl (symbolText_update op)
  | number digits => exact .inr (.inl ⟨formed, by rw [spelling, String.ofList_toList]⟩)
  | text content =>
      refine .inr (.inr (.inl ⟨content.toList, ?_, formed, by rw [String.ofList_toList]⟩))
      simp [spelling]
  | name word => exact .inr (.inr (.inr ⟨formed.1, (ofWord_name formed.2).symm⟩))

end Token

end StackScript
