import StackScript.Proofs.Parse.Completeness

/-! What has the form of a phrase is read as that phrase. Together with the descriptions of
what was read, this says for each kind of phrase exactly when it is read.
-/

namespace StackScript

namespace Parse

open Reader (Onward)
open StackScript.Parser

variable {room level : Nat} {r s : Reader} {lexeme : Lexeme} {rest : List Lexeme}

-----------------------------------------------------------------------------------------
-- Tokens that are passed over
-----------------------------------------------------------------------------------------

theorem rest_advance_of_rest (left : r.rest = lexeme :: rest)
    : r.advance.rest = rest := by
  rw [Reader.rest_advance, left]
  rfl

theorem here_of_rest (left : r.rest = lexeme :: rest)
    : r.here = lexeme.span := by
  rw [Reader.here, left]

theorem previous_advance_of_rest (left : r.rest = lexeme :: rest)
    : r.advance.previous = lexeme.span := by
  rw [Reader.advance, left]

theorem rest_skip (count : Nat) (r : Reader) : (r.skip count).rest = r.rest.drop count := by
  induction count generalizing r with
  | zero => rfl
  | succ count ih => rw [Reader.skip, ih, Reader.rest_advance, List.drop_tail]

theorem errors_skip (count : Nat) (r : Reader) : (r.skip count).errors = r.errors := by
  induction count generalizing r with
  | zero => rfl
  | succ count ih => rw [Reader.skip, ih, Reader.errors_advance]

/-- The place is known from the tokens that were passed over. -/
theorem position_of_rest {read : List Lexeme} (onward : Onward r s)
    (left : r.rest = read ++ s.rest)
    : s.position = r.position + read.length := by
  obtain ⟨passed, past⟩ := onward.past
  have same := List.append_cancel_right (past.rest.symm.trans left)
  rw [past.position, same]

-----------------------------------------------------------------------------------------
-- First tokens
-----------------------------------------------------------------------------------------

theorem operand_opens {e : Expr} (read : operand room r = .ok e s)
    : ∃ token, r.next? = some token ∧ token.opensOperand = true := by
  cases operand_read read with
  | @literal value next => exact ⟨_, next, value.opensOperand_token⟩
  | name next => exact ⟨_, next, rfl⟩
  | paren opening => exact ⟨_, opening, rfl⟩
  | function word => exact ⟨_, word, rfl⟩

theorem chain_opens {e : Expr} (read : chain room level r = .ok e s)
    : ∃ token, r.next? = some token ∧ token.opensOperand = true := by
  induction level generalizing e s with
  | zero =>
      rw [chain_zero] at read
      obtain ⟨callee, t, first, -⟩ := call_eq_ok read
      exact operand_opens first
  | succ level ih =>
      obtain ⟨left, t, first, -⟩ := chain_succ_eq_ok read
      exact ih first

/-- An expression that was read begins with an operand. -/
theorem expression_opens {e : Expr} (read : expression room r = .ok e s)
    : ∃ token, r.next? = some token ∧ token.opensOperand = true := by
  cases room with
  | zero => exact (not_expression_zero read).elim
  | succ room =>
      cases expression_read read with
      | assign ahead inner => exact ⟨_, (next?_of_assignmentAhead? ahead).1, rfl⟩
      | chain ahead operands => exact chain_opens operands

theorem arguments_opens {args : List Expr} (placed : r.Placed)
    (read : arguments room r = .ok args s)
    : ∃ token, r.next? = some token ∧ token.opensOperand = true := by
  cases arguments_read placed read with
  | last first next => exact expression_opens first
  | more first comma shorter behind => exact expression_opens first

theorem next?_ne_of_found {token other : Token} (next : r.next? = some token)
    (opens : token.opensOperand = true) (closes : other.opensOperand = false)
    : r.next? ≠ some other := by
  intro same
  cases next.symm.trans same
  cases opens.symm.trans closes

-----------------------------------------------------------------------------------------
-- Operands and calls
-----------------------------------------------------------------------------------------

theorem parameters_of_last {seen : List String} {name : String}
    (next : r.next? = some (.name name)) (new : ¬seen.contains name = true)
    (last : r.advance.next? ≠ some (.mark .comma))
    : parameters seen r = .ok (seen ++ [name]) r.advance := by
  unfold parameters
  split
  case h_2 other => exact absurd next (other name)
  case h_1 found known =>
    cases next.symm.trans known
    rw [if_neg new, if_neg last]

theorem parameters_of_comma {seen : List String} {name : String}
    (next : r.next? = some (.name name)) (new : ¬seen.contains name = true)
    (comma : r.advance.next? = some (.mark .comma))
    : parameters seen r = parameters (seen ++ [name]) r.advance.advance := by
  rw [parameters]
  split
  case h_2 other => exact absurd next (other name)
  case h_1 found known =>
    cases next.symm.trans known
    rw [if_neg new, if_pos comma]

theorem parameters_opens {seen params : List String} (read : parameters seen r = .ok params s)
    : ∃ name, r.next? = some (.name name) := by
  unfold parameters at read
  split at read
  case h_1 name next => exact ⟨name, next⟩
  case h_2 other => cases read

theorem parameterList_of_names {params : List String}
    (opening : r.next? = some (.mark .leftParen))
    (names : parameters [] r.advance = .ok params s)
    (closing : s.next? = some (.mark .rightParen))
    : parameterList r = .ok params s.advance := by
  obtain ⟨name, next⟩ := parameters_opens names
  have some : r.advance.next? ≠ some (.mark .rightParen) := by
    rw [next]
    exact nofun
  rw [parameterList, expect_bind opening, peek?_bind, if_neg some, bind_of_ok names]
  dsimp only
  rw [expect_bind closing]
  rfl

theorem OperandRead.eq_ok {e : Expr} (read : OperandRead room r e s)
    : operand room r = .ok e s := by
  cases read with
  | literal next => exact operand_of_literal _ next
  | name next =>
      rw [operand, peek?_bind, next]
      rfl
  | paren opening read closing =>
      rw [operand, peek?_bind, opening]
      dsimp only
      rw [advance_bind, bind_of_ok read, expect_bind closing]
      rfl
  | function word head read =>
      rw [operand, peek?_bind, word]
      dsimp only
      rw [advance_bind, bind_of_ok head, bind_of_ok read]
      rfl

theorem CallTailRead.eq_ok {callee e : Expr} (placed : r.Placed)
    (read : CallTailRead room callee r e s)
    : callTail room callee r = .ok e s := by
  cases read with
  | done last => exact further_done 0 last
  | noArguments deeper opening closing others =>
      subst deeper
      rw [callTail.eq_def, accept_bind opening, if_pos rfl]
      dsimp only
      rw [peek?_bind, if_pos closing, pure_bind, expect_bind closing]
      exact others
  | call deeper opening read closing others =>
      subst deeper
      obtain ⟨token, next, opens⟩ :=
        arguments_opens ((Onward.advance r).placed placed) read
      rw [callTail.eq_def, accept_bind opening, if_pos rfl]
      dsimp only
      rw [peek?_bind, if_neg (next?_ne_of_found next opens rfl), bind_of_ok read,
        expect_bind closing]
      exact others

theorem call_of_operand {callee e : Expr} {t : Reader} (first : operand room r = .ok callee t)
    (others : callTail room callee t = .ok e s)
    : call room r = .ok e s := by
  rw [call, bind_of_ok first]
  exact others

theorem ArgumentsRead.eq_ok {args : List Expr} (placed : r.Placed)
    (read : ArgumentsRead room r args s)
    : arguments room r = .ok args s := by
  rw [arguments_eq placed]
  cases read with
  | last read next =>
      rw [bind_of_ok read, accept_bind_of_not next]
      rfl
  | more read comma shorter behind =>
      rw [bind_of_ok read, accept_bind comma, if_pos rfl]
      exact bind_of_ok behind

-----------------------------------------------------------------------------------------
-- Chains and expressions
-----------------------------------------------------------------------------------------

theorem chain_of_left {left e : Expr} {t : Reader} (first : chain room level r = .ok left t)
    (others : chainTail room level left t = .ok e s)
    : chain room (level + 1) r = .ok e s := by
  rw [chain, bind_of_ok first]
  exact others

theorem ChainTailRead.eq_ok {left e : Expr} (read : ChainTailRead room level left r e s)
    : chainTail room level left r = .ok e s := by
  cases read with
  | done last =>
      rw [chainTail, peek?_bind, last]
      rfl
  | joined deeper next known read others =>
      subst deeper
      rw [chainTail, peek?_bind, next, Option.bind_some, known]
      dsimp only
      rw [advance_bind, bind_of_ok read]
      exact others

theorem ExpressionRead.eq_ok {e : Expr} (read : ExpressionRead room r e s)
    : expression (room + 1) r = .ok e s := by
  cases read with
  | assign ahead read =>
      rw [expression, get_bind, ahead]
      dsimp only
      rw [advance_bind, advance_bind, bind_of_ok read]
      rfl
  | chain ahead read =>
      rw [expression, get_bind, ahead]
      exact read

-----------------------------------------------------------------------------------------
-- Statements
-----------------------------------------------------------------------------------------

theorem StatementRead.eq_ok {stmt : Stmt} (read : StatementRead room r stmt s)
    : statement (room + 1) r = .ok stmt s := by
  cases read with
  | block read =>
      obtain ⟨t, opening, -⟩ := block_eq_ok read
      rw [statement, here_bind, peek?_bind, opening]
      dsimp only
      rw [bind_of_ok read, spanFrom_bind]
      rfl
  | branch word opening test closing first last =>
      rw [statement, here_bind, peek?_bind, word]
      dsimp only
      rw [advance_bind, expect_bind opening, bind_of_ok test, expect_bind closing,
        bind_of_ok first, accept_bind_of_not last, if_neg Bool.false_ne_true, pure_bind,
        spanFrom_bind]
      rfl
  | branchElse word opening test closing first middle second =>
      rw [statement, here_bind, peek?_bind, word]
      dsimp only
      rw [advance_bind, expect_bind opening, bind_of_ok test, expect_bind closing,
        bind_of_ok first, accept_bind middle, if_pos rfl, bind_map_left, bind_of_ok second,
        spanFrom_bind]
      rfl
  | retNothing word semicolon => exact statement_of_return room word semicolon
  | ret word read semicolon =>
      obtain ⟨token, next, opens⟩ := expression_opens read
      rw [statement, here_bind, peek?_bind, word]
      dsimp only
      rw [advance_bind, peek?_bind, if_neg (next?_ne_of_found next opens rfl), bind_map_left,
        bind_of_ok read, expect_bind semicolon, spanFrom_bind]
      rfl
  | declare word named semicolon =>
      have other : r.advance.advance.next? ≠ some (.mark .assign) := by
        rw [semicolon]
        exact nofun
      rw [statement, here_bind, peek?_bind, word]
      dsimp only
      rw [advance_bind, expectName_bind named, accept_bind_of_not other,
        if_neg Bool.false_ne_true, pure_bind, expect_bind semicolon, spanFrom_bind]
      rfl
  | define word named sign read semicolon =>
      rw [statement, here_bind, peek?_bind, word]
      dsimp only
      rw [advance_bind, expectName_bind named, accept_bind sign, if_pos rfl, bind_map_left,
        bind_of_ok read, expect_bind semicolon, spanFrom_bind]
      rfl
  | discard read semicolon =>
      obtain ⟨token, next, opens⟩ := expression_opens read
      rw [statement_of_opens room next opens, bind_of_ok read, expect_bind semicolon,
        spanFrom_bind]
      rfl

/-- Behind a statement in error, reading goes on where recovery ends. -/
theorem statements_of_error {nested : Bool} {error : SyntaxError} {found : Reader}
    (placed : r.Placed) (inside : ¬Ended nested r) (few : r.errors.length < errorLimit)
    (read : statement room r = .error error found)
    : statements room nested r
      = statements room nested ((found.report error).recover nested) := by
  generalize done : statements room nested r = outcome
  obtain ⟨stmts, last⟩ := outcome
  cases statements_read placed done with
  | ended here => exact absurd here inside
  | tooMany _ many => exact absurd few (Nat.not_lt.mpr many)
  | statement _ _ inner => cases read.symm.trans inner
  | error _ _ inner _ behind =>
      cases read.symm.trans inner
      exact behind.symm

end Parse

end StackScript
