import StackScript.Proofs.Parse.Erasure
import StackScript.Proofs.Parse.Nesting
import StackScript.Proofs.Parse.Recovery
import StackScript.Proofs.Source.Reporting
import StackScript.Proofs.Token.Excerpts

/-! The span of a statement covers its text. If a source is read without errors, the part of it
that the span of a statement covers is read as that statement and nothing else, at any depth:
its tokens are the same there, and they are the ones from which the statement was read.
-/

namespace StackScript

open Token (StandsAt Tiles stopOf)

variable {lexemes : List Lexeme} {script : Script} {part : Stmt}

-----------------------------------------------------------------------------------------
-- The tokens of a statement
-----------------------------------------------------------------------------------------

namespace Parse

open Reader (Onward Past)

/-- A statement that was read without errors is all that is read from its tokens. -/
theorem parse_of_past {room : Nat} {r s : Reader} {read : List Lexeme} {stmt : Stmt}
    (placed : r.Placed) (below : room ≤ nestingLimit)
    (inner : statement room r = .ok stmt s) (clean : s.errors = []) (past : Past read r s)
    : parse read = (⟨[stmt]⟩, []) := by
  have before : r.errors = [] := clean_before (.of_ok inner) clean
  have beside : Beside s.rest [] [] r (Reader.start read) :=
    ⟨⟨read, past.rest, (List.append_nil read).symm⟩, placed, Reader.placed_start read, rfl,
      errorLimit_pos⟩
  obtain ⟨s', alone, behind⟩ := statement_beside below beside inner
    ⟨clean.trans before.symm, Nat.le_refl _⟩ (.inr nofun)
  rw [parse_of_statement alone (behind.rest_eq rfl), behind.errors]

/-- The tokens of a statement at any depth are the ones that its span covers. -/
theorem exists_tokens (rows : Span.Rows (lexemes.map Lexeme.span))
    (clean : parse lexemes = (script, [])) (member : part ∈ flattened script.statements)
    : ∃ front first more back,
        lexemes = front ++ first :: (more ++ back)
        ∧ part.span = ⟨first.span.start, stopOf first.span.stop more⟩
        ∧ parse (first :: more) = (⟨[part]⟩, []) := by
  obtain ⟨last, row, same⟩ := parse_row lexemes
  have placed := Reader.placed_start lexemes
  rw [clean] at row same
  obtain @⟨_, t, u, below, front, inner, back⟩ := row.readWithin_flattened placed part member
  have span := span_of_ordered ((Reader.ordered_start rows).onward front) inner
  obtain ⟨before, past⟩ := front.past
  obtain ⟨read, past'⟩ := (Onward.of_ok inner).past
  have alone :=
    parse_of_past (front.placed placed) below inner (clean_before back same) past'
  cases read with
  | nil =>
      have shorter := statement_shorter inner
      rw [past'.rest] at shorter
      exact absurd shorter (Nat.lt_irrefl _)
  | cons first more =>
      refine ⟨before, first, more, u.rest, ?_, ?_, alone⟩
      · exact past.rest.trans (congrArg (before ++ ·) past'.rest)
      · rw [span, Reader.here, past'.rest, past'.previous, Token.stopOf_eq first more]
        rfl

end Parse

-----------------------------------------------------------------------------------------
-- The text of a statement
-----------------------------------------------------------------------------------------

/-- The text that the span of the statement covers is read as the statement and nothing else, up
to the places of the statements in it.
-/
def Stmt.Exact (source : String) (stmt : Stmt) : Prop :=
  ∃ text behind again,
    StandsAt source stmt.span.start text behind
    ∧ stmt.span.start + text.utf8ByteSize = stmt.span.stop
    ∧ Script.read text = .ok ⟨[again]⟩
    ∧ again.withoutSpans = stmt.withoutSpans

theorem Script.read_eq_ok {source : String} (read : Script.read source = .ok script)
    : ∃ lexemes, lex source = .ok lexemes ∧ parse lexemes = (script, []) := by
  unfold Script.read at read
  split at read
  · cases read
  · rename_i lexemes tokens
    split at read
    · cases read
      exact ⟨lexemes, tokens, ‹_›⟩
    · cases read

theorem Script.read_of_tokens {source : String} (tokens : lex source = .ok lexemes)
    (clean : parse lexemes = (script, []))
    : Script.read source = .ok script := by
  rw [Script.read, tokens]
  simp only [clean]

/-- What is read from the same tokens elsewhere is the same statement. -/
theorem Parse.exists_again {others : List Lexeme} (alone : parse lexemes = (⟨[part]⟩, []))
    (same : others.map Lexeme.token = lexemes.map Lexeme.token)
    : ∃ again, parse others = (⟨[again]⟩, []) ∧ again.withoutSpans = part.withoutSpans := by
  obtain ⟨trees, errors⟩ := parse_respanned same
  rw [alone, Script.withoutSpans, Script.withoutSpans] at trees
  rw [alone, List.map_nil, List.map_eq_nil_iff] at errors
  generalize parse others = outcome at trees errors
  obtain ⟨⟨stmts⟩, noted⟩ := outcome
  obtain rfl : noted = [] := errors
  simp only [Script.mk.injEq, stmtsWithoutSpans] at trees
  cases stmts with
  | nil => cases trees
  | cons again more =>
      rw [stmtsWithoutSpans, List.cons.injEq] at trees
      cases more with
      | nil => exact ⟨again, rfl, trees.1⟩
      | cons second more => simp [stmtsWithoutSpans] at trees

theorem exact_of_read {source : String} (read : Script.read source = .ok script)
    (member : part ∈ flattened script.statements)
    : part.Exact source := by
  obtain ⟨lexemes, tokens, clean⟩ := Script.read_eq_ok read
  have tiles := Token.lex_reads source
  rw [tokens] at tiles
  obtain ⟨front, first, more, back, rfl, span, alone⟩ :=
    Parse.exists_tokens tiles.rows clean member
  obtain ⟨text, behind, stands, size, tiles⟩ := tiles.excerpt front
  obtain ⟨moved, tokens, same⟩ := tiles.lex_eq
  obtain ⟨again, clean, same⟩ := Parse.exists_again alone same
  refine ⟨text, behind, again, ?_, ?_, Script.read_of_tokens tokens clean, same⟩
  · rwa [span]
  · rwa [span]

/-- Statement spans are exact. In a source that is read without errors, the text that the span of
a statement covers is read as that statement alone, and in the tree of any tokens whose spans come
one behind the other, whether there are errors or not, spans lie as the statements do.
-/
theorem statementSpans_exact
    : (∀ source script,
        Script.read source = .ok script
        → ∀ stmt ∈ flattened script.statements, stmt.Exact source)
      ∧ ∀ lexemes, Span.Rows (lexemes.map Lexeme.span) → Parse.SpansNested (parse lexemes).1 :=
  ⟨fun _ _ read _ member => exact_of_read read member,
    fun _ rows => Parse.spansNested_parse rows⟩

/-- A branch with a statement in a function on its first side. -/
def branching : String :=
  "if (a) f(function() \x7b b; \x7d); // ü\nelse c;"

/-- The tokens of `{a;(;}`: a block in which the second statement is broken. -/
def halfBroken : List Lexeme :=
  [⟨.mark .leftBrace, ⟨0, 1⟩⟩, ⟨.name "a", ⟨1, 2⟩⟩, ⟨.mark .semicolon, ⟨2, 3⟩⟩,
    ⟨.mark .leftParen, ⟨3, 4⟩⟩, ⟨.mark .semicolon, ⟨4, 5⟩⟩, ⟨.mark .rightBrace, ⟨5, 6⟩⟩]

theorem statementSpans_exact_branching
    : (∃ script,
        Script.read branching = .ok script
        ∧ (flattened script.statements).map Stmt.span = [⟨0, 42⟩, ⟨7, 28⟩, ⟨22, 24⟩, ⟨40, 42⟩]
        ∧ ∀ stmt ∈ flattened script.statements, stmt.Exact branching)
      ∧ Span.Rows (halfBroken.map Lexeme.span)
      ∧ (parse halfBroken).2.length = 1
      ∧ (flattened (parse halfBroken).1.statements).map Stmt.span = [⟨0, 6⟩, ⟨1, 3⟩]
      ∧ Parse.SpansNested (parse halfBroken).1 := by
  have spans : (Script.read branching).toOption.map
      (fun script => (flattened script.statements).map Stmt.span)
      = some [⟨0, 42⟩, ⟨7, 28⟩, ⟨22, 24⟩, ⟨40, 42⟩] := by
    cbv
  have rows : Span.Rows (halfBroken.map Lexeme.span) := ⟨by decide, by decide⟩
  refine ⟨?_, rows, by cbv, by cbv, statementSpans_exact.2 halfBroken rows⟩
  cases read : Script.read branching with
  | error reports =>
      rw [read] at spans
      cases spans
  | ok script =>
      rw [read] at spans
      exact ⟨script, rfl, Option.some.inj spans, statementSpans_exact.1 branching script read⟩

end StackScript
