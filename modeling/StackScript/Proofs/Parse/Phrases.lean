import StackScript.Proofs.Parse.Derivation
import StackScript.Proofs.Parse.Onward

/-! What a phrase that was read consists of, one description for each kind of phrase with one
case for each of its forms. Later proofs about reading take phrases apart through these
descriptions alone.
-/

namespace StackScript

namespace Parse

open Reader (Forward Onward)
open StackScript.Parser

variable {room level : Nat} {r s : Reader}

/-- The span from the place before some tokens to the place behind them. -/
theorem merge_of_past {read : List Lexeme} (past : Reader.Past read r s) (some : read ≠ [])
    : r.here.merge s.previous = covering read := by
  obtain ⟨first, more, rfl⟩ := List.exists_cons_of_ne_nil some
  rw [Reader.here, past.rest, past.previous, covering]
  cases last : (first :: more).getLast? with
  | none => cases List.getLast?_eq_none_iff.mp last
  | some lexeme => rfl

-----------------------------------------------------------------------------------------
-- Operands and calls
-----------------------------------------------------------------------------------------

/-- The forms of an operand. -/
inductive OperandRead (room : Nat) (r : Reader) : Expr → Reader → Prop
  | literal {value : Literal} (next : r.next? = some value.token)
      : OperandRead room r (.literal value) r.advance
  | name {name : String} (next : r.next? = some (.name name))
      : OperandRead room r (.name name) r.advance
  | paren {inner : Expr} {s : Reader} (opening : r.next? = some (.mark .leftParen))
      (read : expression room r.advance = .ok inner s)
      (closing : s.next? = some (.mark .rightParen))
      : OperandRead room r inner s.advance
  | function {params : List String} {body : List Stmt} {s t : Reader}
      (word : r.next? = some (.keyword .functionWord))
      (head : parameterList r.advance = .ok params s)
      (read : block room s = .ok body t)
      : OperandRead room r (.function params body) t

theorem operand_read {e : Expr} (read : operand room r = .ok e s) : OperandRead room r e s := by
  unfold operand at read
  simp only [bind_ok_iff, peek?_ok_iff] at read
  obtain ⟨found, _, ⟨next, rfl⟩, read⟩ := read
  split at read
  all_goals
    simp only [bind_ok_iff, pure_ok_iff, advance_ok_iff, expect_ok_iff, fail_ok_iff] at read
  · obtain ⟨_, _, rfl, rfl, rfl⟩ := read
    exact @OperandRead.literal _ _ (.number _) next
  · obtain ⟨_, _, rfl, rfl, rfl⟩ := read
    exact @OperandRead.literal _ _ (.text _) next
  · obtain ⟨_, _, rfl, rfl, rfl⟩ := read
    exact @OperandRead.literal _ _ (.bool true) next
  · obtain ⟨_, _, rfl, rfl, rfl⟩ := read
    exact @OperandRead.literal _ _ (.bool false) next
  · obtain ⟨_, _, rfl, rfl, rfl⟩ := read
    exact @OperandRead.literal _ _ (.null) next
  · obtain ⟨_, _, rfl, rfl, rfl⟩ := read
    exact .name next
  · obtain ⟨_, _, rfl, _, _, inner, _, _, ⟨closing, rfl⟩, rfl, rfl⟩ := read
    exact .paren next inner closing
  · obtain ⟨_, _, rfl, _, _, head, _, _, body, rfl, rfl⟩ := read
    exact .function next head body

/-- The forms of an operand with the calls that follow it. -/
inductive CallTailRead (room : Nat) (callee : Expr) (r : Reader) : Expr → Reader → Prop
  | done (last : r.next? ≠ some (.mark .leftParen)) : CallTailRead room callee r callee r
  | noArguments {less : Nat} {e : Expr} {s : Reader} (deeper : room = less + 1)
      (opening : r.next? = some (.mark .leftParen))
      (closing : r.advance.next? = some (.mark .rightParen))
      (others : callTail less (.call callee []) r.advance.advance = .ok e s)
      : CallTailRead room callee r e s
  | call {less : Nat} {args : List Expr} {e : Expr} {s t : Reader} (deeper : room = less + 1)
      (opening : r.next? = some (.mark .leftParen))
      (read : arguments less r.advance = .ok args t)
      (closing : t.next? = some (.mark .rightParen))
      (others : callTail less (.call callee args) t.advance = .ok e s)
      : CallTailRead room callee r e s

theorem callTail_read {callee e : Expr} (read : callTail room callee r = .ok e s)
    : CallTailRead room callee r e s := by
  unfold callTail at read
  simp only [bind_ok_iff, accept_ok_iff] at read
  obtain ⟨called, _, ⟨opening, rfl, rfl⟩ | ⟨last, rfl, rfl⟩, read⟩ := read
  · rw [if_pos rfl] at read
    cases room with
    | zero => cases read
    | succ less =>
        dsimp only at read
        simp only [bind_ok_iff, peek?_ok_iff] at read
        obtain ⟨_, _, ⟨rfl, rfl⟩, read⟩ := read
        split at read
        · simp only [bind_ok_iff, pure_ok_iff, expect_ok_iff] at read
          obtain ⟨_, _, ⟨rfl, rfl⟩, _, _, ⟨closing, rfl⟩, others⟩ := read
          exact .noArguments rfl opening closing others
        · obtain ⟨args, _, read, others⟩ := bind_ok_iff.mp read
          simp only [bind_ok_iff, expect_ok_iff] at others
          obtain ⟨_, _, ⟨closing, rfl⟩, others⟩ := others
          exact .call rfl opening read closing others
  · rw [if_neg Bool.false_ne_true] at read
    obtain ⟨rfl, rfl⟩ := pure_ok_iff.mp read
    exact .done last

theorem call_eq_ok {e : Expr} (read : call room r = .ok e s)
    : ∃ callee t, operand room r = .ok callee t ∧ callTail room callee t = .ok e s := by
  unfold call at read
  simpa only [bind_ok_iff] using read

-----------------------------------------------------------------------------------------
-- Chains and expressions
-----------------------------------------------------------------------------------------

theorem chain_zero (room : Nat) : chain room 0 = call room := by
  rw [chain]

theorem chain_succ_eq_ok {e : Expr} (read : chain room (level + 1) r = .ok e s)
    : ∃ left t, chain room level r = .ok left t ∧ chainTail room level left t = .ok e s := by
  rw [chain] at read
  simpa only [bind_ok_iff] using read

/-- The forms of the further operands of a chain. -/
inductive ChainTailRead (room level : Nat) (left : Expr) (r : Reader) : Expr → Reader → Prop
  | done (last : r.next?.bind (jointAt? level) = none) : ChainTailRead room level left r left r
  | joined {less : Nat} {token : Token} {joint : Joint} {right e : Expr} {s t : Reader}
      (deeper : room = less + 1)
      (next : r.next? = some token)
      (known : jointAt? level token = some joint)
      (read : chain less level r.advance = .ok right t)
      (others : chainTail less level (joint.join left right) t = .ok e s)
      : ChainTailRead room level left r e s

theorem chainTail_read {left e : Expr} (read : chainTail room level left r = .ok e s)
    : ChainTailRead room level left r e s := by
  unfold chainTail at read
  simp only [bind_ok_iff, peek?_ok_iff] at read
  obtain ⟨_, _, ⟨rfl, rfl⟩, read⟩ := read
  cases known : r.next?.bind (jointAt? level) with
  | none =>
      rw [known] at read
      obtain ⟨rfl, rfl⟩ := pure_ok_iff.mp read
      exact .done known
  | some joint =>
      rw [known] at read
      obtain ⟨token, next, known⟩ := Option.bind_eq_some_iff.mp known
      cases room with
      | zero => simp only [bind_ok_iff, fail_ok_iff, and_false, exists_false] at read
      | succ less =>
          simp only [bind_ok_iff, advance_ok_iff] at read
          obtain ⟨_, _, rfl, right, _, read, others⟩ := read
          exact .joined rfl next known read others

/-- The forms of an expression. -/
inductive ExpressionRead (room : Nat) (r : Reader) : Expr → Reader → Prop
  | assign {name : String} {how : Assignment} {value : Expr} {s : Reader}
      (ahead : assignmentAhead? r = some (name, how))
      (read : expression room r.advance.advance = .ok value s)
      : ExpressionRead room r (.assign name how value) s
  | chain {e : Expr} {s : Reader} (ahead : assignmentAhead? r = none)
      (read : Parse.chain room levels r = .ok e s)
      : ExpressionRead room r e s

theorem not_expression_zero {e : Expr} (read : expression 0 r = .ok e s) : False := by
  unfold expression at read
  cases read

theorem expression_read {e : Expr} (read : expression (room + 1) r = .ok e s)
    : ExpressionRead room r e s := by
  unfold expression at read
  simp only [bind_ok_iff, get_ok_iff] at read
  obtain ⟨_, _, ⟨rfl, rfl⟩, read⟩ := read
  cases ahead : assignmentAhead? r with
  | none =>
      rw [ahead] at read
      exact .chain ahead read
  | some assignment =>
      rw [ahead] at read
      simp only [bind_ok_iff, advance_ok_iff, pure_ok_iff] at read
      obtain ⟨_, _, rfl, _, _, rfl, value, _, read, rfl, rfl⟩ := read
      exact .assign ahead read

-----------------------------------------------------------------------------------------
-- Statements
-----------------------------------------------------------------------------------------

/-- The forms of a statement. -/
inductive StatementRead (room : Nat) (r : Reader) : Stmt → Reader → Prop
  | block {body : List Stmt} {s : Reader} (read : Parse.block room r = .ok body s)
      : StatementRead room r (.block (r.here.merge s.previous) body) s
  | branch {condition : Expr} {yes : Stmt} {s t : Reader}
      (word : r.next? = some (.keyword .ifWord))
      (opening : r.advance.next? = some (.mark .leftParen))
      (test : expression room r.advance.advance = .ok condition t)
      (closing : t.next? = some (.mark .rightParen))
      (first : statement room t.advance = .ok yes s)
      (last : s.next? ≠ some (.keyword .elseWord))
      : StatementRead room r (.branch (r.here.merge s.previous) condition yes none) s
  | branchElse {condition : Expr} {yes no : Stmt} {s t u : Reader}
      (word : r.next? = some (.keyword .ifWord))
      (opening : r.advance.next? = some (.mark .leftParen))
      (test : expression room r.advance.advance = .ok condition t)
      (closing : t.next? = some (.mark .rightParen))
      (first : statement room t.advance = .ok yes u)
      (middle : u.next? = some (.keyword .elseWord))
      (second : statement room u.advance = .ok no s)
      : StatementRead room r (.branch (r.here.merge s.previous) condition yes (some no)) s
  | retNothing (word : r.next? = some (.keyword .returnWord))
      (semicolon : r.advance.next? = some (.mark .semicolon))
      : StatementRead room r (.ret (r.here.merge r.advance.advance.previous) none)
          r.advance.advance
  | ret {value : Expr} {s : Reader} (word : r.next? = some (.keyword .returnWord))
      (read : expression room r.advance = .ok value s)
      (semicolon : s.next? = some (.mark .semicolon))
      : StatementRead room r (.ret (r.here.merge s.advance.previous) (some value)) s.advance
  | declare {name : String} (word : r.next? = some (.keyword .letWord))
      (named : r.advance.next? = some (.name name))
      (semicolon : r.advance.advance.next? = some (.mark .semicolon))
      : StatementRead room r
          (.define (r.here.merge r.advance.advance.advance.previous) name none)
          r.advance.advance.advance
  | define {name : String} {value : Expr} {s : Reader}
      (word : r.next? = some (.keyword .letWord))
      (named : r.advance.next? = some (.name name))
      (sign : r.advance.advance.next? = some (.mark .assign))
      (read : expression room r.advance.advance.advance = .ok value s)
      (semicolon : s.next? = some (.mark .semicolon))
      : StatementRead room r (.define (r.here.merge s.advance.previous) name (some value))
          s.advance
  | discard {value : Expr} {s : Reader} (read : expression room r = .ok value s)
      (semicolon : s.next? = some (.mark .semicolon))
      : StatementRead room r (.discard (r.here.merge s.advance.previous) value) s.advance

theorem not_statement_zero {stmt : Stmt} (read : statement 0 r = .ok stmt s) : False := by
  unfold statement at read
  cases read

theorem statement_read {stmt : Stmt} (read : statement (room + 1) r = .ok stmt s)
    : StatementRead room r stmt s := by
  unfold statement at read
  simp only [bind_ok_iff, here_ok_iff, peek?_ok_iff] at read
  obtain ⟨_, _, ⟨rfl, rfl⟩, found, _, ⟨next, rfl⟩, read⟩ := read
  split at read
  · simp only [bind_ok_iff, spanFrom_ok_iff, pure_ok_iff] at read
    obtain ⟨body, _, read, _, _, ⟨rfl, rfl⟩, rfl, rfl⟩ := read
    exact .block read
  · simp only [bind_ok_iff, advance_ok_iff, expect_ok_iff, accept_ok_iff] at read
    obtain ⟨_, _, rfl, _, _, ⟨opening, rfl⟩, condition, _, test, _, _, ⟨closing, rfl⟩, yes, _,
      first, _, _, ⟨middle, rfl, rfl⟩ | ⟨last, rfl, rfl⟩, read⟩ := read
    · simp only [if_true, bind_ok_iff, map_ok_iff, spanFrom_ok_iff, pure_ok_iff] at read
      obtain ⟨_, _, ⟨no, second, rfl⟩, _, _, ⟨rfl, rfl⟩, rfl, rfl⟩ := read
      exact .branchElse next opening test closing first middle second
    · simp only [Bool.false_eq_true, if_false, bind_ok_iff, spanFrom_ok_iff,
        pure_ok_iff] at read
      obtain ⟨_, _, ⟨rfl, rfl⟩, _, _, ⟨rfl, rfl⟩, rfl, rfl⟩ := read
      exact .branch next opening test closing first last
  · simp only [bind_ok_iff, advance_ok_iff, peek?_ok_iff] at read
    obtain ⟨_, _, rfl, _, _, ⟨rfl, rfl⟩, read⟩ := read
    split at read
    · simp only [bind_ok_iff, expect_ok_iff, spanFrom_ok_iff, pure_ok_iff] at read
      obtain ⟨_, _, ⟨rfl, rfl⟩, _, _, ⟨semicolon, rfl⟩, _, _, ⟨rfl, rfl⟩, rfl, rfl⟩ := read
      exact .retNothing next semicolon
    · simp only [bind_ok_iff, map_ok_iff, expect_ok_iff, spanFrom_ok_iff, pure_ok_iff] at read
      obtain ⟨_, _, ⟨value, read, rfl⟩, _, _, ⟨semicolon, rfl⟩, _, _, ⟨rfl, rfl⟩, rfl, rfl⟩ :=
        read
      exact .ret next read semicolon
  · simp only [bind_ok_iff, advance_ok_iff, expectName_ok_iff, accept_ok_iff] at read
    obtain ⟨_, _, rfl, name, _, ⟨named, rfl⟩, _, _,
      ⟨sign, rfl, rfl⟩ | ⟨nothing, rfl, rfl⟩, read⟩ := read
    · simp only [if_true, bind_ok_iff, map_ok_iff, expect_ok_iff, spanFrom_ok_iff,
        pure_ok_iff] at read
      obtain ⟨_, _, ⟨value, read, rfl⟩, _, _, ⟨semicolon, rfl⟩, _, _, ⟨rfl, rfl⟩, rfl, rfl⟩ :=
        read
      exact .define next named sign read semicolon
    · simp only [Bool.false_eq_true, if_false, bind_ok_iff, expect_ok_iff, spanFrom_ok_iff,
        pure_ok_iff] at read
      obtain ⟨_, _, ⟨rfl, rfl⟩, _, _, ⟨semicolon, rfl⟩, _, _, ⟨rfl, rfl⟩, rfl, rfl⟩ := read
      exact .declare next named semicolon
  · simp only [bind_ok_iff, expect_ok_iff, spanFrom_ok_iff, pure_ok_iff] at read
    obtain ⟨value, _, read, _, _, ⟨semicolon, rfl⟩, _, _, ⟨rfl, rfl⟩, rfl, rfl⟩ := read
    exact .discard read semicolon
  · cases read

-----------------------------------------------------------------------------------------
-- Blocks and parameters
-----------------------------------------------------------------------------------------

theorem block_eq_ok {body : List Stmt} (read : block room r = .ok body s)
    : ∃ t,
        r.next? = some (.mark .leftBrace)
        ∧ statements room true r.advance = (body, t)
        ∧ t.next? = some (.mark .rightBrace)
        ∧ s = t.advance := by
  unfold block at read
  simp only [bind_ok_iff, expect_ok_iff] at read
  obtain ⟨_, _, ⟨opening, rfl⟩, read⟩ := read
  obtain ⟨_, t, inner, others⟩ := bind_ok_iff.mp read
  simp only [bind_ok_iff, expect_ok_iff, pure_ok_iff] at others
  obtain ⟨_, _, ⟨closing, rfl⟩, rfl, rfl⟩ := others
  cases inner
  exact ⟨_, opening, rfl, closing, rfl⟩

theorem block_of_statements {body : List Stmt} (opening : r.next? = some (.mark .leftBrace))
    (inner : statements room true r.advance = (body, s))
    (closing : s.next? = some (.mark .rightBrace))
    : block room r = .ok body s.advance := by
  rw [block, expect_bind opening]
  refine (@bind_of_ok _ _ _ s _ _ body ?_).trans (expect_bind closing)
  simp only [inner]

theorem parameterList_eq_ok {params : List String} (read : parameterList r = .ok params s)
    : r.next? = some (.mark .leftParen)
      ∧ ((r.advance.next? = some (.mark .rightParen) ∧ params = [] ∧ s = r.advance.advance)
        ∨ ∃ t,
            parameters [] r.advance = .ok params t
            ∧ t.next? = some (.mark .rightParen)
            ∧ s = t.advance) := by
  unfold parameterList at read
  simp only [bind_ok_iff, expect_ok_iff, peek?_ok_iff] at read
  obtain ⟨_, _, ⟨opening, rfl⟩, _, _, ⟨rfl, rfl⟩, read⟩ := read
  split at read
  · rename_i closing
    simp only [bind_ok_iff, pure_ok_iff, expect_ok_iff] at read
    obtain ⟨_, _, ⟨rfl, rfl⟩, _, _, ⟨_, rfl⟩, rfl, rfl⟩ := read
    exact ⟨opening, .inl ⟨closing, rfl, rfl⟩⟩
  · obtain ⟨_, t, names, others⟩ := bind_ok_iff.mp read
    simp only [bind_ok_iff, expect_ok_iff, pure_ok_iff] at others
    obtain ⟨_, _, ⟨closing, rfl⟩, rfl, rfl⟩ := others
    exact ⟨opening, .inr ⟨t, names, closing, rfl⟩⟩

-----------------------------------------------------------------------------------------
-- Every phrase has tokens
-----------------------------------------------------------------------------------------

/-- A token that is passed over is no longer left. -/
theorem shorter_of_next {token : Token} (next : r.next? = some token)
    (behind : Onward r.advance s)
    : s.rest.length < r.rest.length := by
  have := length_rest_pos next
  have := behind.length_le
  rw [length_rest_advance] at this
  omega

theorem operand_shorter {e : Expr} (read : operand room r = .ok e s)
    : s.rest.length < r.rest.length := by
  cases operand_read read with
  | literal next => exact shorter_of_next next (.refl _)
  | name next => exact shorter_of_next next (.refl _)
  | paren opening inner closing =>
      exact shorter_of_next opening ((Onward.of_ok inner).trans (.advance _))
  | function word head body =>
      exact shorter_of_next word ((Onward.of_ok head).trans (Onward.of_ok body))

theorem call_shorter {e : Expr} (read : call room r = .ok e s)
    : s.rest.length < r.rest.length := by
  obtain ⟨callee, t, first, others⟩ := call_eq_ok read
  have behind : Onward t s := Onward.of_ok others
  exact Nat.lt_of_le_of_lt behind.length_le (operand_shorter first)

theorem chain_shorter {e : Expr} (read : chain room level r = .ok e s)
    : s.rest.length < r.rest.length := by
  induction level generalizing e s with
  | zero =>
      rw [chain_zero] at read
      exact call_shorter read
  | succ level ih =>
      obtain ⟨left, t, first, others⟩ := chain_succ_eq_ok read
      have behind : Onward t s := Onward.of_ok others
      exact Nat.lt_of_le_of_lt behind.length_le (ih first)

theorem next?_of_assignmentAhead? {name : String} {how : Assignment}
    (ahead : assignmentAhead? r = some (name, how))
    : r.next? = some (.name name)
      ∧ ∃ token, r.advance.next? = some token ∧ assignment? token = some how := by
  unfold assignmentAhead? at ahead
  split at ahead
  · rename_i known left
    obtain ⟨_, found, same⟩ := Option.map_eq_some_iff.mp ahead
    cases same
    simp only [Reader.next?, Reader.advance, left]
    exact ⟨rfl, _, rfl, found⟩
  · cases ahead

theorem expression_shorter {e : Expr} (read : expression room r = .ok e s)
    : s.rest.length < r.rest.length := by
  cases room with
  | zero => exact (not_expression_zero read).elim
  | succ room =>
      cases expression_read read with
      | assign ahead value =>
          obtain ⟨named, -⟩ := next?_of_assignmentAhead? ahead
          exact shorter_of_next named ((Onward.advance _).trans (Onward.of_ok value))
      | chain ahead operands => exact chain_shorter operands

/-- Behind an expression and one more token fewer tokens are left. -/
theorem argument_shorter {e : Expr} (read : expression room r = .ok e s)
    : s.advance.rest.length < r.rest.length :=
  Nat.lt_of_le_of_lt (Onward.advance s).length_le (expression_shorter read)

theorem block_shorter {body : List Stmt} (read : block room r = .ok body s)
    : s.rest.length < r.rest.length := by
  obtain ⟨t, opening, inner, closing, rfl⟩ := block_eq_ok read
  have inside := onward_statements room true r.advance
  rw [inner] at inside
  exact shorter_of_next opening (inside.trans (.advance t))

theorem statement_shorter {stmt : Stmt} (read : statement room r = .ok stmt s)
    : s.rest.length < r.rest.length := by
  cases room with
  | zero => exact (not_statement_zero read).elim
  | succ room =>
      cases statement_read read with
      | block body => exact block_shorter body
      | branch word opening test closing first last =>
          have condition := (Onward.advance _).trans (Onward.of_ok test)
          have yes := condition.trans ((Onward.advance _).trans (Onward.of_ok first))
          exact shorter_of_next word yes
      | branchElse word opening test closing first middle second =>
          have condition := (Onward.advance _).trans (Onward.of_ok test)
          have yes := condition.trans ((Onward.advance _).trans (Onward.of_ok first))
          have no := yes.trans ((Onward.advance _).trans (Onward.of_ok second))
          exact shorter_of_next word no
      | retNothing word semicolon => exact shorter_of_next word (.advance _)
      | ret word value semicolon =>
          exact shorter_of_next word ((Onward.of_ok value).trans (.advance _))
      | declare word named semicolon =>
          exact shorter_of_next word ((Onward.advance _).trans (.advance _))
      | define word named sign value semicolon =>
          have before := (Onward.advance r.advance).trans (.advance _)
          exact shorter_of_next word (before.trans ((Onward.of_ok value).trans (.advance _)))
      | discard value semicolon =>
          exact argument_shorter value

-----------------------------------------------------------------------------------------
-- Arguments and lists of statements
-----------------------------------------------------------------------------------------

/-- The forms of the arguments of a call. -/
inductive ArgumentsRead (room : Nat) (r : Reader) : List Expr → Reader → Prop
  | last {e : Expr} {s : Reader} (read : expression room r = .ok e s)
      (next : s.next? ≠ some (.mark .comma))
      : ArgumentsRead room r [e] s
  | more {first : Expr} {others : List Expr} {s t : Reader}
      (read : expression room r = .ok first t)
      (comma : t.next? = some (.mark .comma))
      (shorter : t.advance.rest.length < r.rest.length)
      (behind : arguments room t.advance = .ok others s)
      : ArgumentsRead room r (first :: others) s

theorem arguments_read (placed : r.Placed) {args : List Expr}
    (read : arguments room r = .ok args s)
    : ArgumentsRead room r args s := by
  rw [arguments] at read
  split at read
  · cases read
  rename_i first t inner
  split at read
  · rename_i comma
    have passed : Onward r t := Onward.of_ok inner
    have onward := passed.trans (.advance t)
    have shorter := argument_shorter inner
    rw [if_pos (onward.remaining_lt placed shorter)] at read
    split at read
    · rename_i others last behind
      cases read
      exact .more inner comma shorter behind
    · cases read
  · rename_i last
    cases read
    exact .last inner last

/-- A list of statements ends at the end of the input or, in a block, at its closing brace. -/
def Ended (nested : Bool) (r : Reader) : Prop :=
  r.rest = [] ∨ (nested = true ∧ r.next? = some (.mark .rightBrace))

theorem ended_iff {nested : Bool}
    : (r.rest.isEmpty || (nested && r.next? = some (.mark .rightBrace))) = true
      ↔ Ended nested r := by
  simp [Ended]

theorem statements_of_ended {nested : Bool} (here : Ended nested r)
    : statements room nested r = ([], r) := by
  rw [statements, if_pos (ended_iff.mpr here)]

theorem next?_of_not_ended {nested : Bool} (inside : ¬Ended nested r)
    : ∃ token, r.next? = some token ∧ (nested = true → token ≠ .mark .rightBrace) := by
  cases next : r.next? with
  | none => exact absurd (.inl (by simpa [Reader.next?] using next)) inside
  | some token =>
      refine ⟨token, rfl, fun block brace => inside (.inr ⟨block, ?_⟩)⟩
      rw [next, brace]

/-- Recovery passes over a token, unless the next one closes the enclosing block. -/
theorem recoveryLength_pos {nested : Bool} {token : Token} (next : r.next? = some token)
    (inside : nested = true → token ≠ .mark .rightBrace)
    : 0 < Reader.recoveryLength nested 0 r.rest := by
  obtain ⟨span, rest, left⟩ := Reader.rest_of_next? next
  rw [left]
  unfold Reader.recoveryLength
  dsimp only
  split
  case h_3 brace =>
    rw [if_neg fun block => inside block rfl]
    exact Nat.one_pos
  case h_4 impossible => cases impossible
  all_goals omega

/-- Behind an error, recovery leaves fewer tokens than there were before the statement. -/
theorem recover_shorter {nested : Bool} (inside : ¬Ended nested r) (onward : Onward r s)
    : (s.recover nested).rest.length < r.rest.length := by
  obtain ⟨token, next, notBrace⟩ := next?_of_not_ended inside
  obtain ⟨read, past⟩ := onward.past
  cases read with
  | nil =>
      have same : s.next? = r.next? := by rw [Reader.next?, Reader.next?, past.rest]; rfl
      rw [next] at same
      obtain ⟨count, more⟩ := Nat.exists_eq_add_of_lt (recoveryLength_pos same notBrace)
      rw [past.rest, Reader.recover, more, Nat.zero_add]
      exact shorter_of_next same (Forward.skip count s.advance)
  | cons first others =>
      have behind : Onward s (s.recover nested) := Forward.recover nested s
      have := behind.length_le
      rw [past.rest, List.length_append, List.length_cons]
      omega

/-- A list of statements with one in error notes an error. -/
theorem errors_ne_of_error {nested : Bool} {others : List Stmt}
    {error : SyntaxError} {found : Reader} (wrong : statement room r = .error error found)
    (behind : statements room nested ((found.report error).recover nested) = (others, s))
    : s.errors ≠ r.errors := by
  have earlier := (Onward.of_error wrong).errors.length_le
  have onward := onward_statements room nested ((found.report error).recover nested)
  rw [behind] at onward
  have later := (Onward.trans (Forward.recover nested _) onward).errors.length_le
  rw [Reader.report, List.length_append, List.length_singleton] at later
  intro same
  rw [same] at later
  omega

/-- What reading a list of statements comes to: each round reads a statement or passes over
one in error, and leaves fewer tokens than it found.
-/
inductive StatementsRead (room : Nat) (nested : Bool) (r : Reader) : List Stmt → Reader → Prop
  | ended (here : Ended nested r) : StatementsRead room nested r [] r
  | tooMany (inside : ¬Ended nested r) (many : errorLimit ≤ r.errors.length)
      : StatementsRead room nested r [] r.skipAll
  | statement {first : Stmt} {others : List Stmt} {s t : Reader} (inside : ¬Ended nested r)
      (few : r.errors.length < errorLimit)
      (read : statement room r = .ok first t)
      (shorter : t.rest.length < r.rest.length)
      (behind : statements room nested t = (others, s))
      : StatementsRead room nested r (first :: others) s
  | error {others : List Stmt} {error : SyntaxError} {found s : Reader}
      (inside : ¬Ended nested r)
      (few : r.errors.length < errorLimit)
      (read : statement room r = .error error found)
      (shorter : ((found.report error).recover nested).rest.length < r.rest.length)
      (behind : statements room nested ((found.report error).recover nested) = (others, s))
      : StatementsRead room nested r others s

theorem statements_read (placed : r.Placed) {nested : Bool} {stmts : List Stmt}
    (read : statements room nested r = (stmts, s))
    : StatementsRead room nested r stmts s := by
  rw [statements] at read
  split at read
  · rename_i here
    cases read
    exact .ended (ended_iff.mp here)
  rename_i inside
  rw [ended_iff] at inside
  split at read
  · rename_i many
    cases read
    exact .tooMany inside many
  rename_i few
  rw [Nat.not_le] at few
  split at read
  · rename_i first t inner
    have onward := Onward.of_ok inner
    have shorter := statement_shorter inner
    rw [if_pos (onward.remaining_lt placed shorter)] at read
    cases read
    exact .statement inside few inner shorter rfl
  · rename_i error found inner
    have onward := (Onward.of_error inner).trans (.report found error)
    have shorter := recover_shorter inside onward
    have onward' := onward.trans (Forward.recover nested _)
    dsimp only at read
    rw [if_pos (onward'.remaining_lt placed shorter)] at read
    exact .error inside few inner shorter read

/-- A statement that is read is the first of its list. -/
theorem statements_of_statement {nested : Bool} {first : Stmt} (placed : r.Placed)
    (inside : ¬Ended nested r) (few : r.errors.length < errorLimit)
    (read : statement room r = .ok first s)
    : statements room nested r
      = (first :: (statements room nested s).1, (statements room nested s).2) := by
  generalize done : statements room nested r = outcome
  obtain ⟨stmts, last⟩ := outcome
  cases statements_read placed done with
  | ended here => exact absurd here inside
  | tooMany _ many => exact absurd few (Nat.not_lt.mpr many)
  | statement _ _ inner _ behind =>
      cases read.symm.trans inner
      rw [behind]
  | error _ _ inner _ _ => cases read.symm.trans inner

end Parse

end StackScript
