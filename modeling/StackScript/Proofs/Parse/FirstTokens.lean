import StackScript.Proofs.Parse.Derivation

/-! How derived phrases begin. The first token tells an expression from the other statements
and from the end of a list, and a chain of operands is never taken for an assignment, whose
sign stands right behind the name that it begins with.
-/

namespace StackScript

/-- The first of some tokens. -/
def upcoming (lexemes : List Lexeme) : Option Token :=
  lexemes.head?.map Lexeme.token

/-- The tokens with which an operand begins. -/
def Token.opensOperand : Token → Bool
  | .number _ => true
  | .text _ => true
  | .name _ => true
  | .keyword .trueWord => true
  | .keyword .falseWord => true
  | .keyword .nullWord => true
  | .keyword .functionWord => true
  | .mark .leftParen => true
  | _ => false

theorem Literal.opensOperand_token (value : Literal) : value.token.opensOperand = true := by
  match value with
  | .number _ => rfl
  | .text _ => rfl
  | .bool true => rfl
  | .bool false => rfl
  | .null => rfl

theorem Literal.token_ne_name (value : Literal) (name : String) : value.token ≠ .name name := by
  match value with
  | .number _ => exact nofun
  | .text _ => exact nofun
  | .bool true => exact nofun
  | .bool false => exact nofun
  | .null => exact nofun

theorem Parse.Joint.assignment?_token (joint : Joint) : assignment? joint.token = none := by
  match joint with
  | .binary _ => rfl
  | .logical .and => rfl
  | .logical .or => rfl

namespace Grammar

/-- Tokens that begin with an operand and not with an assignment. -/
structure Operands (read : List Lexeme) : Prop where
  opens : ∃ first more, read = first :: more ∧ first.token.opensOperand = true
  plain : ∀ name a sign more, read = ⟨.name name, a⟩ :: sign :: more
    → Parse.assignment? sign.token = none

namespace Operands

/-- Behind an operand stands a token that is no sign of an assignment. -/
theorem append {read : List Lexeme} (operands : Operands read) {sign : Lexeme}
    (other : Parse.assignment? sign.token = none) (more : List Lexeme)
    : Operands (read ++ sign :: more) := by
  obtain ⟨first, inner, rfl, opens⟩ := operands.opens
  refine ⟨⟨first, inner ++ sign :: more, rfl, opens⟩, fun name a next behind same => ?_⟩
  cases inner with
  | nil =>
      cases same
      exact other
  | cons second inner =>
      cases same
      exact operands.plain _ _ _ _ rfl

/-- An operand that begins with another token than a name. -/
theorem of_first {first : Lexeme} (opens : first.token.opensOperand = true)
    (other : ∀ name, first.token ≠ .name name) (more : List Lexeme)
    : Operands (first :: more) := by
  refine ⟨⟨first, more, rfl, opens⟩, fun name a sign behind same => ?_⟩
  cases same
  exact absurd rfl (other name)

end Operands

theorem Primary.operands {read : List Lexeme} {e : Expr} (derived : Primary read e)
    : Operands read := by
  cases derived with
  | @literal value a => exact .of_first value.opensOperand_token value.token_ne_name _
  | name => exact ⟨⟨_, [], rfl, rfl⟩, nofun⟩
  | paren enclosed => exact .of_first rfl (by simp) _
  | function parameters block => exact .of_first rfl (by simp) _

theorem Call.operands {read : List Lexeme} {e : Expr} (derived : Call read e)
    : Operands read := by
  match derived with
  | .primary operand => exact operand.operands
  | .noArguments called => exact called.operands.append rfl _
  | .arguments called passed => exact called.operands.append rfl _

theorem Chain.operands {level : Nat} {read : List Lexeme} {e : Expr}
    (derived : Chain level read e)
    : Operands read := by
  match derived with
  | .call operand => exact operand.operands
  | .tighter operand => exact operand.operands
  | .join first known second => exact first.operands.append (Parse.Joint.assignment?_token _) _

theorem Expression.opens {read : List Lexeme} {e : Expr} (derived : Expression read e)
    : ∃ first more, read = first :: more ∧ first.token.opensOperand = true := by
  cases derived with
  | set right => exact ⟨_, _, rfl, rfl⟩
  | update right => exact ⟨_, _, rfl, rfl⟩
  | chain operands => exact operands.operands.opens

theorem Arguments.opens {read : List Lexeme} {args : List Expr} (derived : Arguments read args)
    : ∃ first more, read = first :: more ∧ first.token.opensOperand = true := by
  cases derived with
  | last argument => exact argument.opens
  | more argument behind =>
      obtain ⟨first, more, rfl, opens⟩ := argument.opens
      exact ⟨first, _, rfl, opens⟩

/-- A statement begins with a token that neither closes a block nor follows the first side of
a branch.
-/
theorem Statement.opens {read : List Lexeme} {stmt : Stmt} (derived : Statement read stmt)
    : ∃ first more,
        read = first :: more
        ∧ first.token ≠ .mark .rightBrace
        ∧ first.token ≠ .keyword .elseWord := by
  cases derived with
  | block inner =>
      cases inner
      exact ⟨_, _, rfl, nofun, nofun⟩
  | branch tested first whole => exact ⟨_, _, whole, nofun, nofun⟩
  | branchElse tested first closed second whole => exact ⟨_, _, whole, nofun, nofun⟩
  | retNothing whole => exact ⟨_, _, whole, nofun, nofun⟩
  | ret result whole => exact ⟨_, _, whole, nofun, nofun⟩
  | declare whole => exact ⟨_, _, whole, nofun, nofun⟩
  | define initial whole => exact ⟨_, _, whole, nofun, nofun⟩
  | discard result whole =>
      obtain ⟨first, more, rfl, opens⟩ := result.opens
      refine ⟨first, _, whole, ?_, ?_⟩ <;> intro same <;> rw [same] at opens <;> cases opens

end Grammar

end StackScript
