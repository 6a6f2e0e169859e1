import Mathlib
import StackScript.Proofs.Parse.Completeness
import StackScript.Proofs.Parse.Soundness

/-! Reading accepts exactly the grammar. A sequence of tokens without syntax errors derives the
script that was read, and a sequence that derives a script with distinct parameters is read as
that script, or its first error is that of the nesting limit.
-/

namespace StackScript

namespace Parse

/-- A script that is read without errors is derived from its tokens. -/
theorem parse_sound {lexemes : List Lexeme} (clean : (parse lexemes).2 = [])
    : Grammar.Statements lexemes (parse lexemes).1.statements
      ∧ DistinctParamsIn (parse lexemes).1.statements := by
  unfold parse at clean ⊢
  generalize read : statements nestingLimit false (Reader.start lexemes) = outcome at clean ⊢
  obtain ⟨stmts, last⟩ := outcome
  obtain ⟨tokens, past, derived, distinct, none | ⟨block, -⟩⟩ :=
    statements_derived (Reader.placed_start lexemes) clean read
  · have all := past.rest
    rw [none, List.append_nil] at all
    cases all
    exact ⟨derived, distinct⟩
  · cases block

/-- The tokens of a script that is read without errors derive no other script. -/
theorem derived_unique {lexemes : List Lexeme} {script : Script} (clean : (parse lexemes).2 = [])
    (derived : Grammar.Statements lexemes script.statements)
    (distinct : DistinctParamsIn script.statements)
    : script = (parse lexemes).1 := by
  rcases parse_complete derived distinct with same | ⟨error, more, deep, -⟩
  · rw [same]
  · cases clean.symm.trans deep

/-- A script that is read without errors is derived with distinct parameters, and one that is
derived with distinct parameters is read, or the first error is that of the nesting limit.
-/
theorem parse_accepts_grammar (lexemes : List Lexeme)
    : ((parse lexemes).2 = []
        → Grammar.Statements lexemes (parse lexemes).1.statements
          ∧ DistinctParamsIn (parse lexemes).1.statements)
      ∧ ∀ script : Script,
          Grammar.Statements lexemes script.statements
          → DistinctParamsIn script.statements
          → parse lexemes = (script, [])
            ∨ ∃ error more, (parse lexemes).2 = error :: more ∧ error.cause = .tooDeep :=
  ⟨parse_sound, fun _ derived distinct => parse_complete derived distinct⟩

/-- An `else` behind two `if`s, an assignment in an assignment, chains of two levels and calls
of a call: `if (a) if (b) x = y += 1 - 2 - 3 * 4; else f(function(p, q) { return p; })(p, q);`.
-/
def mixture : List Lexeme :=
  let tokens : List Token :=
    [.keyword .ifWord, .mark .leftParen, .name "a", .mark .rightParen, .keyword .ifWord,
      .mark .leftParen, .name "b", .mark .rightParen, .name "x", .mark .assign, .name "y",
      .update .add, .number "1", .operator .subtract, .number "2", .operator .subtract,
      .number "3", .operator .multiply, .number "4", .mark .semicolon, .keyword .elseWord,
      .name "f", .mark .leftParen, .keyword .functionWord, .mark .leftParen, .name "p",
      .mark .comma, .name "q", .mark .rightParen, .mark .leftBrace, .keyword .returnWord,
      .name "p", .mark .semicolon, .mark .rightBrace, .mark .rightParen, .mark .leftParen,
      .name "p", .mark .comma, .name "q", .mark .rightParen, .mark .semicolon]
  tokens.zipIdx.map fun (token, place) => ⟨token, ⟨place, place + 1⟩⟩

/-- The tree of the mixture. -/
def mixtureTree : Script :=
  let difference := Expr.binary .subtract
    (.binary .subtract (.literal (.number "1")) (.literal (.number "2")))
    (.binary .multiply (.literal (.number "3")) (.literal (.number "4")))
  let first := Stmt.discard ⟨8, 20⟩ (.assign "x" .set (.assign "y" (.update .add) difference))
  let function := Expr.function ["p", "q"] [.ret ⟨30, 33⟩ (some (.name "p"))]
  let second := Stmt.discard ⟨21, 41⟩
    (.call (.call (.name "f") [function]) [.name "p", .name "q"])
  ⟨[.branch ⟨0, 41⟩ (.name "a") (.branch ⟨4, 41⟩ (.name "b") first (some second)) none]⟩

theorem parse_mixture : parse mixture = (mixtureTree, []) := by
  cbv

/-- The mixture is derived as its tree, and read as the tree that is derived. -/
theorem parse_accepts_grammar_mixture
    : (parse mixture).2 = []
      ∧ Grammar.Statements mixture mixtureTree.statements
      ∧ DistinctParamsIn mixtureTree.statements
      ∧ (parse mixture = (mixtureTree, [])
        ∨ ∃ error more, (parse mixture).2 = error :: more ∧ error.cause = .tooDeep) := by
  have clean : (parse mixture).2 = [] := by rw [parse_mixture]
  have derived := (parse_accepts_grammar mixture).1 clean
  rw [parse_mixture] at derived
  exact ⟨clean, derived.1, derived.2,
    (parse_accepts_grammar mixture).2 mixtureTree derived.1 derived.2⟩

end Parse

end StackScript
