import StackScript.Token.Basic

/-! Reading source text into tokens. At each place the longest token is taken; blanks and
comments are skipped, and text that starts no token is reported and skipped, so that every
bad spot is found in one pass.
-/

namespace StackScript

namespace Token

/-- What stands at the head of a text. -/
inductive Item
  | blank
  | token (token : Token)
  | bad

/-- The head of a text, cut off: what it is, its characters, and the text behind it. -/
structure Cut where
  item : Item
  taken : List Char
  rest : List Char

/-- The characters between tokens. -/
def isBlank (c : Char) : Bool :=
  c = ' ' || c = '\t' || c = '\r' || c = '\n' || c = '\x0c'

/-- A character that may start a name. -/
def startsName (c : Char) : Bool :=
  c.isAlpha || c = '_'

/-- A character that may continue a name. -/
def continuesName (c : Char) : Bool :=
  c.isAlphanum || c = '_'

/-- A letter that may end a number. -/
def isSuffix (c : Char) : Bool :=
  c = 'b' || c = 'B' || c = 's' || c = 'S' || c = 'l' || c = 'L'

/-- A mark, an operator or an update of two characters. -/
def ofPair? : Char → Char → Option Token
  | '+', '=' => some (.update .add)
  | '-', '=' => some (.update .subtract)
  | '*', '=' => some (.update .multiply)
  | '/', '=' => some (.update .divide)
  | '%', '=' => some (.update .remainder)
  | '|', '|' => some (.mark .orOr)
  | '&', '&' => some (.mark .andAnd)
  | '=', '=' => some (.operator .equal)
  | '!', '=' => some (.operator .notEqual)
  | '<', '=' => some (.operator .lessOrEqual)
  | '>', '=' => some (.operator .greaterOrEqual)
  | _, _ => none

/-- A mark or an operator of one character. -/
def ofChar? : Char → Option Token
  | '(' => some (.mark .leftParen)
  | ')' => some (.mark .rightParen)
  | '\x7b' => some (.mark .leftBrace)
  | '\x7d' => some (.mark .rightBrace)
  | ',' => some (.mark .comma)
  | ';' => some (.mark .semicolon)
  | '=' => some (.mark .assign)
  | '<' => some (.operator .less)
  | '>' => some (.operator .greater)
  | '+' => some (.operator .add)
  | '-' => some (.operator .subtract)
  | '*' => some (.operator .multiply)
  | '/' => some (.operator .divide)
  | '%' => some (.operator .remainder)
  | _ => none

/-- A name, or the keyword with that spelling. -/
def ofWord (word : List Char) : Token :=
  let text := String.ofList word
  match Keyword.ofSpelling? text with
  | some reserved => .keyword reserved
  | none => .name text

/-- A comment, up to the end of its line. -/
def cutComment (text : List Char) : Cut :=
  ⟨.blank, text.takeWhile (· != '\n'), text.dropWhile (· != '\n')⟩

/-- A point and the digits behind it, if it has any, and the text behind them. -/
def cutFraction : List Char → List Char × List Char
  | '.' :: rest =>
      if (rest.takeWhile Char.isDigit).isEmpty then ([], '.' :: rest)
      else ('.' :: rest.takeWhile Char.isDigit, rest.dropWhile Char.isDigit)
  | rest => ([], rest)

/-- A letter that may end a number, if there is one, and the text behind it. -/
def cutSuffix : List Char → List Char × List Char
  | c :: rest => if isSuffix c then ([c], rest) else ([], c :: rest)
  | [] => ([], [])

/-- A number: digits, a fraction and a suffix. -/
def cutNumber (text : List Char) : Cut :=
  let whole := text.takeWhile Char.isDigit
  let fraction := cutFraction (text.dropWhile Char.isDigit)
  let suffix := cutSuffix fraction.2
  let taken := whole ++ fraction.1 ++ suffix.1
  ⟨.token (.number (String.ofList taken)), taken, suffix.2⟩

/-- A string, given the text behind its first quote. Without a closing quote all of the text
is bad.
-/
def cutText (text : List Char) : Cut :=
  let content := text.takeWhile (· != '"')
  match text.dropWhile (· != '"') with
  | [] => ⟨.bad, '"' :: content, []⟩
  | quote :: rest => ⟨.token (.text (String.ofList content)), '"' :: (content ++ [quote]), rest⟩

/-- A word, given the characters that start it and the text behind them. -/
def cutWord (start text : List Char) : Cut :=
  let taken := start ++ text.takeWhile continuesName
  ⟨.token (ofWord taken), taken, text.dropWhile continuesName⟩

/-- A mark or an operator, the longer one where two fit, or else one bad character. -/
def cutMark (c : Char) (text : List Char) : Cut :=
  let single :=
    match ofChar? c with
    | some token => ⟨.token token, [c], text⟩
    | none => ⟨.bad, [c], text⟩
  match text with
  | [] => single
  | d :: rest =>
      match ofPair? c d with
      | some token => ⟨.token token, [c, d], rest⟩
      | none => single

/-- The head of a text that starts with the given character. -/
def cut (c : Char) (text : List Char) : Cut :=
  if isBlank c then ⟨.blank, [c], text⟩
  -- A comment is longer than the operator that it starts with.
  else if c = '/' && text.head? = some '/' then cutComment (c :: text)
  else if c.isDigit then cutNumber (c :: text)
  else if c = '"' then cutText text
  else if startsName c then cutWord [c] text
  else
    match text with
    | d :: rest => if c = '$' && startsName d then cutWord [c, d] rest else cutMark c (d :: rest)
    | [] => cutMark c []

/-- What is left after leading characters are dropped is no longer than the text. -/
theorem length_dropWhile (p : Char → Bool) (text : List Char)
    : (text.dropWhile p).length ≤ text.length :=
  (List.dropWhile_suffix p).length_le

/-- The text behind a number is no longer than the text behind its first digits. -/
theorem length_rest_cutNumber (text : List Char)
    : (cutNumber text).rest.length ≤ (text.dropWhile Char.isDigit).length := by
  have fraction : ∀ rest : List Char, (cutFraction rest).2.length ≤ rest.length := by
    intro rest
    unfold cutFraction
    split
    · split
      · exact Nat.le_refl _
      · exact Nat.le_succ_of_le (length_dropWhile _ _)
    · exact Nat.le_refl _
  have suffix : ∀ rest : List Char, (cutSuffix rest).2.length ≤ rest.length := by
    intro rest
    unfold cutSuffix
    split
    · split
      · exact Nat.le_succ _
      · exact Nat.le_refl _
    · exact Nat.le_refl _
  exact Nat.le_trans (suffix _) (fraction _)

/-- The text behind the head is shorter than the text. -/
theorem length_rest_cut (c : Char) (text : List Char)
    : (cut c text).rest.length ≤ text.length := by
  have mark : ∀ text, (cutMark c text).rest.length ≤ text.length := by
    intro text
    unfold cutMark
    dsimp only
    split
    · split <;> exact Nat.le_refl _
    · split
      · exact Nat.le_succ _
      · split <;> exact Nat.le_refl _
  unfold cut
  split
  · exact Nat.le_refl _
  split
  · rename_i _ comment
    simp only [Bool.and_eq_true, decide_eq_true_eq] at comment
    simp only [cutComment, comment.1]
    exact length_dropWhile _ text
  split
  · rename_i digit
    refine Nat.le_trans (length_rest_cutNumber _) ?_
    simp only [List.dropWhile_cons, digit, if_true]
    exact length_dropWhile _ _
  split
  · unfold cutText
    dsimp only
    split
    · exact Nat.zero_le _
    · rename_i rest same
      have := length_dropWhile (· != '"') text
      rw [same] at this
      exact Nat.le_of_succ_le this
  split
  · exact length_dropWhile _ _
  split
  · split
    · exact Nat.le_succ_of_le (length_dropWhile _ _)
    · exact mark _
  · exact mark _

/-- The length of characters in bytes. -/
def bytes (text : List Char) : Nat :=
  text.foldl (fun total c => total + c.utf8Size) 0

end Token

/-- What reading a text finds: its tokens and its bad spots, each in order. -/
structure Scan where
  lexemes : List Lexeme
  errors : List LexError

namespace Scan

/-- The most bad spots that are reported. -/
def errorLimit : Nat := 20

/-- Adds the head of a text that was cut off at a byte offset. -/
def add (found : Scan) (offset : Nat) (piece : Token.Cut) : Scan :=
  match piece.item with
  | .blank => found
  | .token token =>
      { found with
        lexemes := ⟨token, ⟨offset, offset + Token.bytes piece.taken⟩⟩ :: found.lexemes }
  | .bad =>
      { found with
        errors :=
          ⟨offset, String.ofList piece.taken, LexError.adviceFor piece.taken⟩ :: found.errors }

/-- Reads the text from a byte offset on, the last finds first in both lists. -/
def read (offset : Nat) (found : Scan) : List Char → Scan
  | [] => found
  | c :: text =>
      let piece := Token.cut c text
      let found := found.add offset piece
      if errorLimit ≤ found.errors.length then found
      else read (offset + Token.bytes piece.taken) found piece.rest
termination_by text => text.length
decreasing_by exact Nat.lt_succ_of_le (Token.length_rest_cut c text)

end Scan

/-- The tokens of a text with their places, or its bad spots, at most `Scan.errorLimit`. -/
def lex (source : String) : Except (List LexError) (List Lexeme) :=
  let found := Scan.read 0 ⟨[], []⟩ source.toList
  if found.errors.isEmpty then .ok found.lexemes.reverse else .error found.errors.reverse

end StackScript
