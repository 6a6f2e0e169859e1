import StackScript.Proofs.Parse.Phrases

/-! How many errors reading notes. A list of statements gives up before the round behind the
twentieth error, but each block around it that is then not closed, or a statement around it
that goes wrong in another way, adds one error of its own. So there are at most as many
further errors as blocks stand inside each other: one for each opening brace, and one for
each level of nesting. Without braces there are at most twenty errors, with unclosed blocks
there are more.
-/

namespace StackScript

/-- The number of opening braces. -/
def openBraces (lexemes : List Lexeme) : Nat :=
  lexemes.countP fun lexeme => lexeme.token = .mark .leftBrace

namespace Parse

open Reader (Forward)
open StackScript.Parser (Keeps place)

-----------------------------------------------------------------------------------------
-- At most one error for each block behind the limit
-----------------------------------------------------------------------------------------

/-- From one place to another the errors grow to at most a limit and one more for each block
that can be opened on the way.
-/
structure Within (limit room : Nat) (r s : Reader) : Prop where
  braces : openBraces s.rest ≤ openBraces r.rest
  errors : s.errors.length ≤ max r.errors.length (limit + min room (openBraces r.rest))

variable {limit room : Nat} {r s t : Reader}

theorem openBraces_of_next (next : r.next? = some (.mark .leftBrace))
    : openBraces r.rest = openBraces r.advance.rest + 1 := by
  obtain ⟨span, past⟩ := Reader.past_advance next
  rw [past.rest]
  exact List.countP_cons_of_pos rfl

instance : Forward (Within limit room) where
  refl r := ⟨Nat.le_refl _, Nat.le_max_left _ _⟩
  trans first second := by
    have braces := second.braces
    have errors := second.errors
    have braces' := first.braces
    have errors' := first.errors
    exact ⟨by omega, by omega⟩
  advance r := by
    refine ⟨?_, by rw [Reader.errors_advance]; exact Nat.le_max_left _ _⟩
    rw [Reader.rest_advance]
    exact (List.tail_sublist r.rest).countP_le

/-- One round of a list of statements adds its own error to those of the statement. -/
theorem statements_within (kept : Keeps (Within (errorLimit - 1) room) (statement room))
    (nested : Bool) (r : Reader)
    : Within errorLimit room r (statements room nested r).2 := by
  refine statements_keeps (fun few read => ?_) (fun few read => ?_) r
  · have inside : Within (errorLimit - 1) room _ _ := Keeps.of_ok read
    have errors := inside.errors
    exact ⟨inside.braces, by omega⟩
  · have inside : Within (errorLimit - 1) room _ _ := Keeps.of_error read
    have errors := inside.errors
    refine ⟨inside.braces, ?_⟩
    rw [Reader.report, List.length_append, List.length_singleton]
    omega

/-- A block has one brace more than the statements in it. -/
theorem block_within (kept : Keeps (Within (errorLimit - 1) room) (statement room))
    : Keeps (Within (errorLimit - 1) (room + 1)) (block room) := by
  refine ⟨fun r => ?_⟩
  by_cases opening : r.next? = some (.mark .leftBrace)
  · have inside := block_keeps_inside (statements_within kept true) opening
    have braces := inside.braces
    have errors := inside.errors
    have brace := openBraces_of_next opening
    rw [Reader.errors_advance] at errors
    exact ⟨by omega, by omega⟩
  · rw [block_of_not_next opening]
    exact Forward.refl r

theorem carried_within : Carried fun room => Within (errorLimit - 1) room where
  forward _ := inferInstance
  grow small := ⟨small.braces, by have := small.errors; omega⟩
  block := block_within

-----------------------------------------------------------------------------------------
-- One error for each unclosed block
-----------------------------------------------------------------------------------------

/-- Blocks that are opened inside each other and not closed, then semicolons. -/
def unclosed (depth count : Nat) : List Lexeme :=
  List.replicate depth ⟨.mark .leftBrace, Span.unknown⟩
    ++ List.replicate count ⟨.mark .semicolon, Span.unknown⟩

theorem operand_semicolon (next : r.next? = some (.mark .semicolon))
    : operand room r
      = .error ⟨.expectedExpression (some (.mark .semicolon)), r.position, r.here⟩ r := by
  rw [operand, Parser.peek?_bind, next]
  rfl

theorem chain_semicolon (level : Nat) (next : r.next? = some (.mark .semicolon))
    : chain room level r
      = .error ⟨.expectedExpression (some (.mark .semicolon)), r.position, r.here⟩ r := by
  induction level with
  | zero => rw [chain, call, Parser.bind_of_error (operand_semicolon next)]
  | succ level ih => rw [chain, Parser.bind_of_error ih]

theorem expression_semicolon (next : r.next? = some (.mark .semicolon))
    : ∃ error, expression room r = .error error r := by
  cases room with
  | zero =>
      rw [expression]
      exact ⟨_, rfl⟩
  | succ room =>
      have ahead : assignmentAhead? r = none := by
        cases found : assignmentAhead? r with
        | none => rfl
        | some assignment =>
            obtain ⟨named, -⟩ := next?_of_assignmentAhead? found
            cases named.symm.trans next
      rw [expression, Parser.get_bind, ahead]
      exact ⟨_, chain_semicolon levels next⟩

/-- Where a statement should stand, a semicolon is an error, and nothing is passed over. -/
theorem statement_semicolon (next : r.next? = some (.mark .semicolon))
    : ∃ error, statement room r = .error error r := by
  cases room with
  | zero =>
      rw [statement]
      exact ⟨_, rfl⟩
  | succ room =>
      obtain ⟨error, inner⟩ := @expression_semicolon room _ next
      rw [statement, Parser.here_bind, Parser.peek?_bind, next]
      exact ⟨error, Parser.bind_of_error inner⟩

theorem recover_semicolon {nested : Bool} (next : r.next? = some (.mark .semicolon))
    : r.recover nested = r.advance := by
  obtain ⟨span, rest, left⟩ := Reader.rest_of_next? next
  rw [Reader.recover, left]
  rfl

/-- Each semicolon is one error, by induction on their number. -/
theorem statements_semicolons {count : Nat} {nested : Bool} {stmts : List Stmt}
    (placed : r.Placed) (left : r.rest = unclosed 0 count)
    (few : r.errors.length + count ≤ errorLimit)
    (read : statements room nested r = (stmts, s))
    : s.rest = [] ∧ s.errors.length = r.errors.length + count := by
  induction count generalizing r stmts with
  | zero =>
      rw [statements_of_ended (.inl left)] at read
      cases read
      exact ⟨left, rfl⟩
  | succ count ih =>
      have next : r.next? = some (.mark .semicolon) := Reader.next?_of_rest left
      obtain ⟨error, failed⟩ := @statement_semicolon room _ next
      cases statements_read placed read with
      | ended here => cases here with
        | inl none => cases none.symm.trans left
        | inr closed => cases closed.2.symm.trans next
      | tooMany _ many => omega
      | statement _ _ inner => cases failed.symm.trans inner
      | error _ _ inner _ behind =>
          cases failed.symm.trans inner
          have onward := (Reader.Onward.report r error).trans (.advance _)
          rw [recover_semicolon (r := r.report error) next] at behind
          have noted : (r.report error).advance.errors.length = r.errors.length + 1 := by
            rw [Reader.errors_advance, Reader.report, List.length_append]
            rfl
          have others := ih (onward.placed placed)
            (by rw [Reader.rest_advance, Reader.report, left]; rfl) (by omega) behind
          exact ⟨others.1, by omega⟩

theorem block_unclosed {body : List Stmt} (opening : r.next? = some (.mark .leftBrace))
    (inner : statements room true r.advance = (body, s))
    (unclosed : s.next? ≠ some (.mark .rightBrace))
    : block room r = .error ⟨.expected (.mark .rightBrace) s.next?, s.position, s.here⟩ s := by
  rw [block, Parser.expect_bind opening]
  refine (@Parser.bind_of_ok _ _ _ s _ _ body ?_).trans
    (Parser.bind_of_error (Parser.expect_of_not_next unclosed))
  simp only [inner]

/-- A block that is not closed is an error behind the statements in it. -/
theorem statement_unclosed {body : List Stmt} (opening : r.next? = some (.mark .leftBrace))
    (inner : statements room true r.advance = (body, s))
    (unclosed : s.next? ≠ some (.mark .rightBrace))
    : ∃ error, statement (room + 1) r = .error error s := by
  rw [statement, Parser.here_bind, Parser.peek?_bind, opening]
  exact ⟨_, Parser.bind_of_error (block_unclosed opening inner unclosed)⟩

/-- Each block that is left open is one more error, by induction on their number. -/
theorem statements_unclosed {depth : Nat} {nested : Bool} {stmts : List Stmt}
    (placed : r.Placed)
    (left : r.rest = unclosed depth errorLimit) (clean : r.errors = []) (fits : depth ≤ room)
    (read : statements room nested r = (stmts, s))
    : s.rest = [] ∧ s.errors.length = errorLimit + depth := by
  induction depth generalizing room r nested stmts s with
  | zero =>
      have errors := statements_semicolons placed left (by rw [clean]; exact Nat.le_refl _) read
      rw [clean] at errors
      exact ⟨errors.1, by simpa using errors.2⟩
  | succ depth ih =>
      have next : r.next? = some (.mark .leftBrace) := Reader.next?_of_rest left
      obtain ⟨less, rfl⟩ : ∃ less, room = less + 1 := ⟨room - 1, by omega⟩
      have inside : Reader.Onward r r.advance := .advance r
      cases inner : statements less true r.advance with
      | mk body t =>
      obtain ⟨none, errors⟩ := ih (inside.placed placed)
        (by rw [Reader.rest_advance, left]; rfl)
        (by rw [Reader.errors_advance, clean]) (by omega) inner
      have ended : t.next? = Option.none := by rw [Reader.next?, none]; rfl
      have noBrace : t.next? ≠ some (.mark .rightBrace) := by
        intro brace
        cases ended.symm.trans brace
      obtain ⟨error, failed⟩ := statement_unclosed next inner noBrace
      cases statements_read placed read with
      | ended here => cases here with
        | inl none => cases none.symm.trans left
        | inr closed => cases closed.2.symm.trans next
      | tooMany _ many =>
          rw [clean] at many
          cases many
      | statement _ _ inner => cases failed.symm.trans inner
      | error _ _ inner _ behind =>
          cases failed.symm.trans inner
          have same : (t.report error).recover nested = t.report error := by
            rw [Reader.recover, Reader.report, none]
            rfl
          rw [same, statements_of_ended (r := t.report error) (.inl none)] at behind
          cases behind
          refine ⟨none, ?_⟩
          rw [Reader.report, List.length_append, errors]
          rfl

/-- Blocks that are opened inside each other and not closed bring one error each beyond the
twenty in the innermost of them.
-/
theorem length_errors_unclosed {depth : Nat} (fits : depth ≤ nestingLimit)
    : (parse (unclosed depth errorLimit)).2.length = errorLimit + depth := by
  cases read : statements nestingLimit false (Reader.start (unclosed depth errorLimit)) with
  | mk stmts s =>
  have errors := statements_unclosed (Reader.placed_start _) rfl rfl fits read
  simp only [parse, read, errors.2]

-----------------------------------------------------------------------------------------
-- The errors of a script
-----------------------------------------------------------------------------------------

/-- The errors of a script are at most twenty and one more for each block that can stand in
another.
-/
theorem length_errors_le (lexemes : List Lexeme)
    : (parse lexemes).2.length ≤ errorLimit + min nestingLimit (openBraces lexemes) := by
  have errors := (statements_within (carried_within.statement nestingLimit) false
    (Reader.start lexemes)).errors
  simpa only [parse, Reader.start, List.length_nil, Nat.zero_max] using errors

/-- Twenty errors in a block that is not closed are followed by one more. -/
theorem length_errors_unclosed_block
    : (parse (unclosed 1 errorLimit)).2.length = 21
      ∧ ¬(parse (unclosed 1 errorLimit)).2.length ≤ errorLimit := by
  have errors := length_errors_unclosed (show 1 ≤ nestingLimit by decide)
  exact ⟨errors, by rw [errors]; decide⟩

end Parse

end StackScript
