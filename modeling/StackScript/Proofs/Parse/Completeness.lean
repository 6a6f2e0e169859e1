import StackScript.Proofs.Parse.FirstTokens
import StackScript.Proofs.Parse.Phrases

/-! What the grammar derives is read. From the tokens of a derivation reading builds its tree,
whatever follows that cannot be taken for a part of it, unless the nesting limit is reached;
then the error that says so is the first one. The proofs follow the derivations. A phrase that
grows to the right, a chain of operands or a row of calls, is followed up to the place where
reading asks whether it goes on.
-/

namespace StackScript

variable {α β : Type}

-----------------------------------------------------------------------------------------
-- Outcomes
-----------------------------------------------------------------------------------------

namespace Reader

/-- A place before the given tokens, with no error noted. -/
structure Before (lexemes : List Lexeme) (r : Reader) : Prop where
  rest : r.rest = lexemes
  clean : r.errors = []
  placed : r.Placed

namespace Before

variable {r : Reader} {lexeme : Lexeme} {rest : List Lexeme}

theorem next? (before : r.Before rest) : r.next? = upcoming rest := by
  rw [Reader.next?, before.rest]
  rfl

/-- The next token can be passed over. -/
theorem step (before : r.Before (lexeme :: rest))
    : r.next? = some lexeme.token ∧ Past [lexeme] r r.advance ∧ r.advance.Before rest := by
  obtain ⟨token, span⟩ := lexeme
  have next : r.next? = some token := before.next?
  have behind : r.advance.rest = rest := by rw [rest_advance, before.rest]; rfl
  obtain ⟨span, past⟩ := past_advance next
  have same := past.rest
  rw [before.rest, behind] at same
  cases same
  exact ⟨next, past, behind, by rw [errors_advance, before.clean], past.placed before.placed⟩

end Before

end Reader

namespace Parser

open Reader (Past Onward)

/-- The errors of an outcome, with the one that stopped it. -/
def noted : EStateM.Result SyntaxError Reader α → List SyntaxError
  | .ok _ s => s.errors
  | .error error s => s.errors ++ [error]

/-- The first error is that of the nesting limit. -/
def TooDeep (errors : List SyntaxError) : Prop :=
  ∃ error more, errors = error :: more ∧ error.cause = .tooDeep

theorem TooDeep.of_prefix {errors more : List SyntaxError} (deep : TooDeep errors)
    (longer : errors <+: more)
    : TooDeep more := by
  obtain ⟨error, others, rfl, cause⟩ := deep
  obtain ⟨rest, rfl⟩ := longer
  exact ⟨error, others ++ rest, rfl, cause⟩

/-- The outcome of reading is the given value, with the given tokens behind and in front, or
the nesting is too deep.
-/
def Yields (r : Reader) (read rest : List Lexeme) (value : α)
    (outcome : EStateM.Result SyntaxError Reader α)
    : Prop :=
  (∃ s, outcome = .ok value s ∧ Past read r s ∧ s.Before rest) ∨ TooDeep (noted outcome)

variable {r s : Reader} {read rest first more : List Lexeme} {value : α} {result : β}

theorem Yields.ok (past : Past read r s) (before : s.Before rest)
    : Yields r read rest value (.ok value s) :=
  .inl ⟨s, rfl, past, before⟩

theorem tooDeep_fail (before : r.Before rest)
    : TooDeep (noted (fail .tooDeep r : EStateM.Result SyntaxError Reader α)) :=
  ⟨_, [], by rw [fail, noted, before.clean]; rfl, rfl⟩

/-- The errors of a step come before those of the steps behind it. -/
theorem TooDeep.bind {p : Parser α} {next : α → Parser β}
    [kept : ∀ value, Keeps Onward (next value)]
    (deep : TooDeep (noted (p r)))
    : TooDeep (noted ((p >>= next) r)) := by
  cases read : p r with
  | error error s =>
      rw [bind_of_error read]
      rwa [read] at deep
  | ok value s =>
      rw [bind_of_ok read]
      rw [read] at deep
      have behind := ((kept value).reach s).errors
      refine deep.of_prefix (behind.trans ?_)
      cases next value s with
      | ok _ _ => exact List.prefix_refl _
      | error _ _ => exact List.prefix_append _ _

/-- Steps behind one that yields its value go on from there. -/
theorem Yields.bind {p : Parser α} {next : α → Parser β}
    [∀ value, Keeps Onward (next value)] {whole left : List Lexeme} {start : Reader}
    (step : Yields r read rest value (p r))
    (others : ∀ s, Past read r s → s.Before rest
      → Yields start whole left result (next value s))
    : Yields start whole left result ((p >>= next) r) := by
  rcases step with ⟨s, done, past, before⟩ | deep
  · rw [bind_of_ok done]
    exact others s past before
  · exact .inr deep.bind

end Parser

namespace Parse

open Reader (Onward Past)
open StackScript.Parser

-----------------------------------------------------------------------------------------
-- Parameters
-----------------------------------------------------------------------------------------

theorem parameters_complete {read : List Lexeme} {names : List String}
    (derived : Grammar.Names read names) (seen : List String) {r : Reader} {a : Span}
    {rest : List Lexeme} (distinct : (seen ++ names).Nodup)
    (before : r.Before (read ++ ⟨.mark .rightParen, a⟩ :: rest))
    : ∃ s,
        parameters seen r = .ok (seen ++ names) s
        ∧ Past read r s
        ∧ s.Before (⟨.mark .rightParen, a⟩ :: rest) := by
  induction derived generalizing seen r with
  | @last name b =>
      obtain ⟨next, one, behind⟩ := before.step
      have new : ¬seen.contains name = true := by
        rw [List.nodup_append] at distinct
        grind
      have last : r.advance.next? ≠ some (.mark .comma) := by
        rw [behind.next?]
        exact nofun
      refine ⟨r.advance, ?_, one, behind⟩
      unfold parameters
      split
      case h_2 other => exact absurd next (other name)
      case h_1 found known =>
        cases next.symm.trans known
        rw [if_neg new, if_neg last]
  | @more name names b c read others ih =>
      obtain ⟨next, one, behind⟩ := before.step
      obtain ⟨comma, two, behind⟩ := behind.step
      have new : ¬seen.contains name = true := by
        rw [List.nodup_append] at distinct
        grind
      obtain ⟨s, done, three, last⟩ :=
        ih (seen ++ [name]) (by rwa [List.append_assoc]) behind
      refine ⟨s, ?_, one.append (two.append three), last⟩
      unfold parameters
      split
      case h_2 other => exact absurd next (other name)
      case h_1 found known =>
        cases next.symm.trans known
        rw [if_neg new, if_pos comma, done, List.append_assoc]
        rfl

theorem parameterList_of_next {r : Reader} (opening : r.next? = some (.mark .leftParen))
    (closing : r.advance.next? = some (.mark .rightParen))
    : parameterList r = .ok [] r.advance.advance := by
  rw [parameterList, expect_bind opening, peek?_bind, if_pos closing, pure_bind]
  dsimp only
  rw [expect_bind closing]
  rfl

theorem parameterList_complete {read rest : List Lexeme} {params : List String} {r : Reader}
    (derived : Grammar.Parameters read params) (distinct : params.Nodup)
    (before : r.Before (read ++ rest))
    : Yields r read rest params (parameterList r) := by
  cases derived with
  | empty =>
      obtain ⟨opening, one, before⟩ := before.step
      obtain ⟨closing, two, before⟩ := before.step
      rw [parameterList_of_next opening closing]
      exact .ok (one.append two) before
  | names inner =>
      rw [List.cons_append, List.append_assoc] at before
      obtain ⟨opening, one, before⟩ := before.step
      obtain ⟨s, done, two, behind⟩ :=
        parameters_complete inner [] distinct before
      obtain ⟨closing, three, behind⟩ := behind.step
      have some : r.advance.next? ≠ some (.mark .rightParen) := by
        rw [before.next?]
        cases inner <;> exact nofun
      rw [parameterList, expect_bind opening, peek?_bind, if_neg some]
      rw [bind_of_ok done]
      dsimp only
      rw [expect_bind closing]
      exact .ok (one.append (two.append three)) behind

-----------------------------------------------------------------------------------------
-- Where phrases go on
-----------------------------------------------------------------------------------------

/-- The tokens with which a chain of some level goes on. -/
def goesOn : Nat → Option Token → Prop
  | 0, next => next = some (.mark .leftParen)
  | level + 1, next => next.bind (jointAt? level) ≠ none

/-- What is read behind the first operand of a chain of some level. -/
def further (room : Nat) : Nat → Expr → Parser Expr
  | 0, callee => callTail room callee
  | level + 1, left => chainTail room level left

theorem further_done {room : Nat} (level : Nat) {e : Expr} {r : Reader}
    (last : ¬goesOn level r.next?)
    : further room level e r = .ok e r := by
  cases level with
  | zero =>
      rw [further, callTail.eq_def, accept_bind_of_not last]
      rfl
  | succ level =>
      rw [further, chainTail, peek?_bind, Classical.not_not.mp last]
      rfl

/-- No chain goes on with an operator of a level that is not below. -/
theorem not_goesOn_joint {level : Nat} {joint : Joint} (low : level ≤ joint.level)
    : ¬goesOn level (some joint.token) := by
  cases level with
  | zero => cases joint with
    | binary op => exact nofun
    | logical op => cases op <;> exact nofun
  | succ level =>
      intro goes
      obtain ⟨other, known⟩ := Option.ne_none_iff_exists'.mp goes
      obtain ⟨rfl, same⟩ := jointAt?_eq_some_iff.mp known
      have : joint.level = other.level := by
        cases joint with
        | binary op => cases other with
          | binary op' => cases same; rfl
          | logical op' => cases op' <;> cases same
        | logical op => cases other with
          | binary op' => cases op <;> cases same
          | logical op' => cases op <;> cases op' <;> cases same <;> rfl
      omega

/-- The tokens that stand behind an expression. -/
def EndsExpression (next : Option Token) : Prop :=
  next = some (.mark .semicolon) ∨ next = some (.mark .rightParen) ∨ next = some (.mark .comma)

theorem EndsExpression.not_goesOn {next : Option Token} (ends : EndsExpression next)
    (level : Nat)
    : ¬goesOn level next := by
  obtain ⟨mark, rfl, other⟩ : ∃ mark : Mark,
      next = some (.mark mark) ∧ mark ∉ [.leftParen, .andAnd, .orOr] := by
    rcases ends with rfl | rfl | rfl <;> exact ⟨_, rfl, by decide⟩
  cases level with
  | zero =>
      rintro ⟨⟩
      exact other (by decide)
  | succ level =>
      intro goes
      obtain ⟨joint, known⟩ := Option.ne_none_iff_exists'.mp goes
      obtain ⟨-, same⟩ := jointAt?_eq_some_iff.mp known
      cases joint with
      | binary op => cases same
      | logical op => cases op <;> cases same <;> exact other (by decide)

theorem EndsExpression.assignment? {next : Option Token} (ends : EndsExpression next)
    : next.bind Parse.assignment? = none := by
  rcases ends with rfl | rfl | rfl <;> rfl

/-- Operands are not taken for an assignment, whatever ends them. -/
theorem assignmentAhead?_eq_none {read rest : List Lexeme} {r : Reader}
    (operands : Grammar.Operands read) (ends : EndsExpression (upcoming rest))
    (before : r.Before (read ++ rest))
    : assignmentAhead? r = none := by
  obtain ⟨behind, more, rfl⟩ : ∃ behind more, rest = behind :: more := by
    cases rest with
    | nil => rcases ends with none | none | none <;> cases none
    | cons behind more => exact ⟨behind, more, rfl⟩
  have other : Parse.assignment? behind.token = none := ends.assignment?
  have plain := (operands.append other more).plain
  rw [← before.rest] at plain
  unfold assignmentAhead?
  split
  · rename_i left
    rw [plain _ _ _ _ left]
    rfl
  · rfl

-----------------------------------------------------------------------------------------
-- Lists of statements
-----------------------------------------------------------------------------------------

/-- The tokens with which a list of statements ends. -/
def Ends (nested : Bool) (rest : List Lexeme) : Prop :=
  rest = [] ∨ (nested = true ∧ upcoming rest = some (.mark .rightBrace))

theorem ended_of_rest {nested : Bool} {rest : List Lexeme} {r : Reader} (left : r.rest = rest)
    (ends : Ends nested rest)
    : Ended nested r := by
  rw [Ended, Reader.next?, left]
  exact ends

theorem not_ended_of_rest (nested : Bool) {lexeme : Lexeme} {rest : List Lexeme} {r : Reader}
    (left : r.rest = lexeme :: rest) (other : lexeme.token ≠ .mark .rightBrace)
    : ¬Ended nested r := by
  rintro (none | ⟨-, brace⟩)
  · cases left.symm.trans none
  · exact other (Option.some.inj ((Reader.next?_of_rest left).symm.trans brace))

/-- The outcome of reading a list of statements. -/
def listed (room : Nat) (nested : Bool) : Parser (List Stmt) := fun r =>
  .ok (statements room nested r).1 (statements room nested r).2

/-- A list of statements yields what its first statement and the others do. -/
theorem listed_cons {room : Nat} {nested : Bool} {r : Reader}
    {ahead read more whole rest : List Lexeme} {stmt : Stmt} {stmts : List Stmt}
    (before : r.Before ahead) (inside : ¬Ended nested r)
    (first : Yields r read more stmt (statement room r))
    (others : ∀ s, Past read r s → s.Before more
      → Yields r whole rest stmts (listed room nested s))
    : Yields r whole rest (stmt :: stmts) (listed room nested r) := by
  unfold listed at others ⊢
  generalize done : statements room nested r = outcome
  obtain ⟨all, last⟩ := outcome
  cases statements_read before.placed done with
  | ended here => exact absurd here inside
  | tooMany _ many =>
      rw [before.clean] at many
      cases many
  | @statement found found' _ t _ _ inner _ behind =>
      have onward := onward_statements room nested t
      rw [inner] at first
      rcases first with ⟨s, same, past, before'⟩ | deep
      · cases same
        have yields := others t past before'
        rw [behind] at yields
        rcases yields with ⟨u, same, past, before⟩ | deep
        · cases same
          exact .ok past before
        · exact .inr deep
      · rw [behind] at onward
        exact .inr (deep.of_prefix onward.errors)
  | @error _ error found _ _ _ inner _ behind =>
      have onward := onward_statements room nested ((found.report error).recover nested)
      rw [inner] at first
      rcases first with ⟨s, same, -, -⟩ | deep
      · cases same
      · rw [behind] at onward
        have passed : Onward (found.report error) last :=
          Onward.trans (Reader.Forward.recover nested _) onward
        exact .inr (deep.of_prefix passed.errors)

/-- No `else` stands behind a statement of a list. -/
theorem upcoming_ne_else {nested : Bool} {more rest : List Lexeme} {stmts : List Stmt}
    (others : Grammar.Statements more stmts) (ends : Ends nested rest)
    : upcoming (more ++ rest) ≠ some (.keyword .elseWord) := by
  cases others with
  | nil =>
      rcases ends with rfl | ⟨-, brace⟩
      · exact nofun
      · rw [List.nil_append, brace]
        exact nofun
  | cons first others =>
      obtain ⟨lexeme, tail, rfl, -, other⟩ := first.opens
      exact fun same => other (Option.some.inj same)

/-- The outcome of reading arguments. -/
def argumentList (room : Nat) : Parser (List Expr) := fun r => arguments room r

instance (room : Nat) : Keeps Onward (argumentList room) :=
  ⟨carried_onward.arguments room⟩

/-- Arguments one after another: the check that each gets ahead never fails. -/
theorem arguments_eq {room : Nat} {r : Reader} (placed : r.Placed)
    : arguments room r
      = (do
          let first ← expression room
          if ← accept (.mark .comma) then
            let others ← argumentList room
            return first :: others
          else return [first] : Parser (List Expr)) r := by
  rw [arguments]
  cases read : expression room r with
  | error error s => rw [bind_of_error read]
  | ok first t =>
      rw [bind_of_ok read]
      dsimp only
      by_cases comma : t.next? = some (.mark .comma)
      · have behind : Onward r t := Onward.of_ok read
        have ahead := (behind.trans (.advance t)).remaining_lt placed (argument_shorter read)
        rw [if_pos comma, if_pos ahead, accept_bind comma, if_pos rfl]
        cases others : arguments room t.advance with
        | error error s => rw [bind_of_error (show argumentList room t.advance = _ from others)]
        | ok more s =>
            rw [bind_of_ok (show argumentList room t.advance = _ from others)]
            rfl
      · rw [if_neg comma, accept_bind_of_not comma, if_neg Bool.false_ne_true]
        rfl

-----------------------------------------------------------------------------------------
-- Phrases
-----------------------------------------------------------------------------------------

/-- The outcome of reading a chain is what reading on from its first operands comes to, with
some room left, unless the nesting is too deep.
-/
def Reaches (r : Reader) (read rest : List Lexeme) (level : Nat) (e : Expr)
    (outcome : EStateM.Result SyntaxError Reader Expr)
    : Prop :=
  (∃ less s, outcome = further less level e s ∧ Past read r s ∧ s.Before rest)
    ∨ TooDeep (noted outcome)

theorem Reaches.yields {r : Reader} {read rest : List Lexeme} {level : Nat} {e : Expr}
    {outcome : EStateM.Result SyntaxError Reader Expr}
    (reached : Reaches r read rest level e outcome) (last : ¬goesOn level (upcoming rest))
    : Yields r read rest e outcome := by
  rcases reached with ⟨less, s, rfl, past, before⟩ | deep
  · rw [further_done level (before.next? ▸ last)]
    exact .ok past before
  · exact .inr deep

/-- The token that a phrase begins with is not another one. -/
theorem next?_ne_of_opens {r : Reader} {first : Lexeme} {rest : List Lexeme} {token : Token}
    (before : r.Before (first :: rest)) (opens : first.token.opensOperand = true)
    (other : token.opensOperand = false)
    : r.next? ≠ some token := by
  intro same
  cases before.next?.symm.trans same
  cases opens.symm.trans other

/-- A statement that begins with an operand is an expression. -/
theorem statement_of_opens (room : Nat) {r : Reader} {token : Token}
    (next : r.next? = some token) (opens : token.opensOperand = true)
    : statement (room + 1) r
      = (do
          let value ← expression room
          Parser.expect (.mark .semicolon)
          return .discard (← Parser.spanFrom r.here) value : Parser Stmt) r := by
  rw [statement, here_bind, peek?_bind, next]
  cases token with
  | number _ => rfl
  | text _ => rfl
  | name _ => rfl
  | operator _ => cases opens
  | update _ => cases opens
  | keyword word => cases word <;> first | rfl | cases opens
  | mark mark => cases mark <;> first | rfl | cases opens

theorem statement_of_return (room : Nat) {r : Reader}
    (word : r.next? = some (.keyword .returnWord))
    (semicolon : r.advance.next? = some (.mark .semicolon))
    : statement (room + 1) r
      = .ok (.ret (r.here.merge r.advance.advance.previous) none) r.advance.advance := by
  rw [statement, here_bind, peek?_bind, word]
  dsimp only
  rw [advance_bind, peek?_bind, if_pos semicolon, pure_bind, expect_bind semicolon,
    spanFrom_bind]
  rfl

theorem operand_of_literal {room : Nat} {r : Reader} (value : Literal)
    (next : r.next? = some value.token)
    : operand room r = .ok (.literal value) r.advance := by
  rw [operand, peek?_bind, next]
  match value with
  | .number _ => rfl
  | .text _ => rfl
  | .bool true => rfl
  | .bool false => rfl
  | .null => rfl

-- A statement is a long sequence of steps, each of which goes forward.
set_option synthInstance.maxSize 1000

mutual

theorem statements_complete (room : Nat) (nested : Bool) {r : Reader}
    {read rest : List Lexeme} {stmts : List Stmt} (derived : Grammar.Statements read stmts)
    (distinct : DistinctParamsIn stmts) (before : r.Before (read ++ rest))
    (ends : Ends nested rest)
    : Yields r read rest stmts (listed room nested r) := by
  match derived with
  | .nil =>
      rw [listed, statements_of_ended (ended_of_rest before.rest ends)]
      exact .ok (.refl r) before
  | .cons first others =>
      rw [DistinctParamsIn] at distinct
      rw [List.append_assoc] at before
      have inside : ¬Ended nested r := by
        obtain ⟨lexeme, tail, rfl, other, -⟩ := first.opens
        exact not_ended_of_rest nested before.rest other
      refine listed_cons before inside
        (statement_complete room first distinct.1 before fun _ => upcoming_ne_else others ends)
        fun s one before => ?_
      rcases statements_complete room nested others distinct.2 before ends with
        ⟨t, done, two, before⟩ | deep
      · exact .inl ⟨t, done, one.append two, before⟩
      · exact .inr deep

theorem statement_complete (room : Nat) {r : Reader} {read rest : List Lexeme} {stmt : Stmt}
    (derived : Grammar.Statement read stmt) (distinct : stmt.DistinctParams)
    (before : r.Before (read ++ rest))
    (nearest : stmt.endsOpen = true → upcoming rest ≠ some (.keyword .elseWord))
    : Yields r read rest stmt (statement room r) := by
  match room with
  | 0 =>
      rw [statement]
      exact .inr (tooDeep_fail before)
  | room + 1 =>
  match derived with
  | .block inner =>
      rw [Stmt.DistinctParams] at distinct
      have opening : r.next? = some (.mark .leftBrace) := by
        rw [before.next?]
        cases inner
        rfl
      rw [statement, here_bind, peek?_bind, opening]
      dsimp only
      refine (block_complete room inner distinct before).bind fun s past before => ?_
      have some : read ≠ [] := by
        rintro rfl
        cases inner
      rw [spanFrom_bind, merge_of_past past some]
      exact .ok past before
  | .branch tested first whole =>
      rw [Stmt.DistinctParams] at distinct
      have behind := before
      simp only [whole, List.cons_append, List.append_assoc] at behind
      obtain ⟨word, one, behind⟩ := behind.step
      obtain ⟨opening, two, behind⟩ := behind.step
      rw [statement, here_bind, peek?_bind, word]
      dsimp only
      rw [advance_bind, expect_bind opening]
      refine (expression_complete room tested distinct.1 behind (.inr (.inl rfl))).bind
        fun t three behind => ?_
      obtain ⟨closing, four, behind⟩ := behind.step
      rw [expect_bind closing]
      refine (statement_complete room first distinct.2 behind fun _ => nearest rfl).bind
        fun u five behind => ?_
      rw [accept_bind_of_not (behind.next? ▸ nearest rfl), if_neg Bool.false_ne_true, pure_bind,
        spanFrom_bind]
      have past := one.append (two.append (three.append (four.append five)))
      rw [merge_of_past past nofun, whole]
      exact .ok past behind
  | .branchElse tested first closed second whole =>
      rw [Stmt.DistinctParams] at distinct
      have behind := before
      simp only [whole, List.cons_append, List.append_assoc] at behind
      obtain ⟨word, one, behind⟩ := behind.step
      obtain ⟨opening, two, behind⟩ := behind.step
      rw [statement, here_bind, peek?_bind, word]
      dsimp only
      rw [advance_bind, expect_bind opening]
      refine (expression_complete room tested distinct.1 behind (.inr (.inl rfl))).bind
        fun t three behind => ?_
      obtain ⟨closing, four, behind⟩ := behind.step
      rw [expect_bind closing]
      refine (statement_complete room first distinct.2.1 behind fun ends => ?_).bind
        fun u five behind => ?_
      · rw [closed] at ends
        cases ends
      obtain ⟨middle, six, behind⟩ := behind.step
      rw [accept_bind middle, if_pos rfl, bind_map_left]
      refine (statement_complete room second distinct.2.2 behind nearest).bind
        fun v seven behind => ?_
      rw [spanFrom_bind]
      have past := one.append (two.append (three.append (four.append (five.append
        (six.append seven)))))
      rw [merge_of_past past nofun, whole]
      exact .ok past behind
  | .retNothing whole =>
      have behind := before
      rw [whole] at behind
      obtain ⟨word, one, behind⟩ := behind.step
      obtain ⟨semicolon, two, behind⟩ := behind.step
      have past := one.append two
      rw [statement_of_return room word semicolon, merge_of_past past nofun, whole]
      exact .ok past behind
  | .ret result whole =>
      rw [Stmt.DistinctParams] at distinct
      have behind := before
      simp only [whole, List.cons_append, List.append_assoc] at behind
      obtain ⟨word, one, behind⟩ := behind.step
      have some : r.advance.next? ≠ some (.mark .semicolon) := by
        obtain ⟨first, more, rfl, opens⟩ := result.opens
        exact next?_ne_of_opens behind opens rfl
      rw [statement, here_bind, peek?_bind, word]
      dsimp only
      rw [advance_bind, peek?_bind, if_neg some, bind_map_left]
      refine (expression_complete room result distinct behind (.inl rfl)).bind
        fun t two behind => ?_
      obtain ⟨semicolon, three, behind⟩ := behind.step
      rw [expect_bind semicolon, spanFrom_bind]
      have past := one.append (two.append three)
      rw [merge_of_past past nofun, whole]
      exact .ok past behind
  | .declare whole =>
      have behind := before
      rw [whole] at behind
      obtain ⟨word, one, behind⟩ := behind.step
      obtain ⟨named, two, behind⟩ := behind.step
      obtain ⟨semicolon, three, behind⟩ := behind.step
      have other : r.advance.advance.next? ≠ some (.mark .assign) := by
        rw [semicolon]
        exact nofun
      rw [statement, here_bind, peek?_bind, word]
      dsimp only
      rw [advance_bind, expectName_bind named, accept_bind_of_not other,
        if_neg Bool.false_ne_true, pure_bind, expect_bind semicolon, spanFrom_bind]
      have past := one.append (two.append three)
      rw [merge_of_past past nofun, whole]
      exact .ok past behind
  | .define initial whole =>
      rw [Stmt.DistinctParams] at distinct
      have behind := before
      simp only [whole, List.cons_append, List.append_assoc] at behind
      obtain ⟨word, one, behind⟩ := behind.step
      obtain ⟨named, two, behind⟩ := behind.step
      obtain ⟨sign, three, behind⟩ := behind.step
      rw [statement, here_bind, peek?_bind, word]
      dsimp only
      rw [advance_bind, expectName_bind named, accept_bind sign, if_pos rfl, bind_map_left]
      refine (expression_complete room initial distinct behind (.inl rfl)).bind
        fun t four behind => ?_
      obtain ⟨semicolon, five, behind⟩ := behind.step
      rw [expect_bind semicolon, spanFrom_bind]
      have past := one.append (two.append (three.append (four.append five)))
      rw [merge_of_past past nofun, whole]
      exact .ok past behind
  | .discard result whole =>
      rw [Stmt.DistinctParams] at distinct
      have behind := before
      simp only [whole, List.append_assoc] at behind
      have dispatch : statement (room + 1) r = (do
          let value ← expression room
          Parser.expect (.mark .semicolon)
          return .discard (← Parser.spanFrom r.here) value : Parser Stmt) r := by
        obtain ⟨first, more, rfl, opens⟩ := result.opens
        exact statement_of_opens room behind.next? opens
      rw [dispatch]
      refine (expression_complete room result distinct behind (.inl rfl)).bind
        fun t one behind => ?_
      obtain ⟨semicolon, two, behind⟩ := behind.step
      rw [expect_bind semicolon, spanFrom_bind]
      have past := one.append two
      rw [merge_of_past past (List.append_ne_nil_of_right_ne_nil _ nofun), whole]
      exact .ok past behind

theorem block_complete (room : Nat) {r : Reader} {read rest : List Lexeme} {body : List Stmt}
    (derived : Grammar.Block read body) (distinct : DistinctParamsIn body)
    (before : r.Before (read ++ rest))
    : Yields r read rest body (block room r) := by
  match derived with
  | .braces stmts =>
      rw [List.cons_append, List.append_assoc] at before
      obtain ⟨opening, one, before⟩ := before.step
      rw [block, expect_bind opening]
      have inner := statements_complete room true stmts distinct before (.inr ⟨rfl, rfl⟩)
      refine inner.bind fun s two before => ?_
      obtain ⟨closing, three, before⟩ := before.step
      rw [expect_bind closing]
      exact .ok (one.append (two.append three)) before

theorem expression_complete (room : Nat) {r : Reader} {read rest : List Lexeme} {e : Expr}
    (derived : Grammar.Expression read e) (distinct : e.DistinctParams)
    (before : r.Before (read ++ rest)) (ends : EndsExpression (upcoming rest))
    : Yields r read rest e (expression room r) := by
  match room with
  | 0 =>
      rw [expression]
      exact .inr (tooDeep_fail before)
  | room + 1 =>
  match derived with
  | @Grammar.Expression.set name _ _ _ _ right =>
      have ahead : assignmentAhead? r = some (name, .set) := by
        rw [assignmentAhead?, before.rest]
        rfl
      obtain ⟨-, one, before⟩ := before.step
      obtain ⟨-, two, before⟩ := before.step
      rw [expression, get_bind, ahead]
      dsimp only
      rw [advance_bind, advance_bind]
      refine (expression_complete room right distinct before ends).bind fun s three before => ?_
      exact .ok (one.append (two.append three)) before
  | @Grammar.Expression.update name op _ _ _ _ right =>
      have ahead : assignmentAhead? r = some (name, .update op.operator) := by
        rw [assignmentAhead?, before.rest]
        rfl
      obtain ⟨-, one, before⟩ := before.step
      obtain ⟨-, two, before⟩ := before.step
      rw [expression, get_bind, ahead]
      dsimp only
      rw [advance_bind, advance_bind]
      refine (expression_complete room right distinct before ends).bind fun s three before => ?_
      exact .ok (one.append (two.append three)) before
  | .chain operands =>
      rw [expression, get_bind, assignmentAhead?_eq_none operands.operands ends before]
      have reached := chain_complete room operands distinct before
        fun level _ => ends.not_goesOn level
      exact reached.yields (ends.not_goesOn levels)

theorem chain_complete (room : Nat) {level : Nat} {r : Reader} {read rest : List Lexeme}
    {e : Expr} (derived : Grammar.Chain level read e) (distinct : e.DistinctParams)
    (before : r.Before (read ++ rest))
    (last : ∀ below < level, ¬goesOn below (upcoming rest))
    : Reaches r read rest level e (chain room level r) := by
  match derived with
  | .call operand =>
      rw [chain_zero]
      exact call_complete room operand distinct before
  | @Grammar.Chain.tighter level _ _ operand =>
      have reached := chain_complete room operand distinct before
        fun below less => last below (Nat.lt_succ_of_lt less)
      have inner := reached.yields (last level (Nat.lt_succ_self level))
      rw [chain]
      rcases inner with ⟨s, done, past, before⟩ | deep
      · exact .inl ⟨room, s, bind_of_ok done, past, before⟩
      · exact .inr deep.bind
  | @Grammar.Chain.join level joint _ _ _ _ _ first known second =>
      rw [Joint.distinctParams_join] at distinct
      rw [List.append_assoc] at before
      have reached := chain_complete room first distinct.1 before
        fun below less => not_goesOn_joint (by omega)
      rcases reached with ⟨less, s, same, one, before⟩ | deep
      · obtain ⟨next, two, before⟩ := before.step
        rw [same, further, chainTail, peek?_bind, next, Option.bind_some,
          jointAt?_eq_some_iff.mpr ⟨known, rfl⟩]
        dsimp only
        rw [advance_bind]
        cases less with
        | zero => exact .inr (tooDeep_fail before)
        | succ less =>
            have reached := chain_complete less second distinct.2 before
              fun below less => last below (Nat.lt_succ_of_lt less)
            have inner := reached.yields (last level (Nat.lt_succ_self level))
            rcases inner with ⟨t, done, three, before⟩ | deep
            · exact .inl ⟨less, t, bind_of_ok done, one.append (two.append three), before⟩
            · exact .inr deep.bind
      · exact .inr deep

theorem call_complete (room : Nat) {r : Reader} {read rest : List Lexeme} {e : Expr}
    (derived : Grammar.Call read e) (distinct : e.DistinctParams)
    (before : r.Before (read ++ rest))
    : Reaches r read rest 0 e (call room r) := by
  match derived with
  | .primary operand =>
      rw [call]
      rcases operand_complete room operand distinct before with
        ⟨s, done, past, before⟩ | deep
      · exact .inl ⟨room, s, bind_of_ok done, past, before⟩
      · exact .inr deep.bind
  | .noArguments called =>
      rw [Expr.DistinctParams] at distinct
      rw [List.append_assoc] at before
      rcases call_complete room called distinct.1 before with
        ⟨less, s, same, one, before⟩ | deep
      · obtain ⟨opening, two, before⟩ := before.step
        rw [same, further, callTail.eq_def, accept_bind opening, if_pos rfl]
        cases less with
        | zero => exact .inr (tooDeep_fail before)
        | succ less =>
            obtain ⟨closing, three, before⟩ := before.step
            refine .inl ⟨less, _, ?_, one.append (two.append three), before⟩
            dsimp only
            rw [peek?_bind, if_pos closing, pure_bind, expect_bind closing]
            rfl
      · exact .inr deep
  | .arguments called passed =>
      rw [Expr.DistinctParams] at distinct
      simp only [List.append_assoc, List.cons_append] at before
      rcases call_complete room called distinct.1 before with
        ⟨less, s, same, one, before⟩ | deep
      · obtain ⟨opening, two, before⟩ := before.step
        rw [same, further, callTail.eq_def, accept_bind opening, if_pos rfl]
        cases less with
        | zero => exact .inr (tooDeep_fail before)
        | succ less =>
            have some : s.advance.next? ≠ some (.mark .rightParen) := by
              obtain ⟨first, more, rfl, opens⟩ := passed.opens
              exact next?_ne_of_opens before opens rfl
            dsimp only
            rw [peek?_bind, if_neg some]
            rcases arguments_complete less passed distinct.2 before rfl with
              ⟨t, done, three, before⟩ | deep
            · obtain ⟨closing, four, before⟩ := before.step
              refine .inl ⟨less, _, ?_, one.append (two.append (three.append four)), before⟩
              rw [bind_of_ok done, expect_bind closing]
              rfl
            · exact .inr deep.bind
      · exact .inr deep

theorem arguments_complete (room : Nat) {r : Reader} {read rest : List Lexeme}
    {args : List Expr} (derived : Grammar.Arguments read args)
    (distinct : DistinctParamsOfArgs args) (before : r.Before (read ++ rest))
    (closing : upcoming rest = some (.mark .rightParen))
    : Yields r read rest args (arguments room r) := by
  rw [arguments_eq before.placed]
  match derived with
  | .last argument =>
      rw [DistinctParamsOfArgs] at distinct
      refine (expression_complete room argument distinct.1 before (.inr (.inl closing))).bind
        fun s past before => ?_
      have last : s.next? ≠ some (.mark .comma) := by
        rw [before.next?, closing]
        exact nofun
      rw [accept_bind_of_not last, if_neg Bool.false_ne_true]
      exact .ok past before
  | .more argument behind =>
      rw [DistinctParamsOfArgs] at distinct
      rw [List.append_assoc] at before
      refine (expression_complete room argument distinct.1 before (.inr (.inr rfl))).bind
        fun s one before => ?_
      obtain ⟨comma, two, before⟩ := before.step
      rw [accept_bind comma, if_pos rfl]
      refine (arguments_complete room behind distinct.2 before closing).bind
        fun t three before => ?_
      exact .ok (one.append (two.append three)) before

theorem operand_complete (room : Nat) {r : Reader} {read rest : List Lexeme} {e : Expr}
    (derived : Grammar.Primary read e) (distinct : e.DistinctParams)
    (before : r.Before (read ++ rest))
    : Yields r read rest e (operand room r) := by
  match derived with
  | .literal =>
      obtain ⟨next, one, before⟩ := before.step
      rw [operand_of_literal _ next]
      exact .ok one before
  | .name =>
      obtain ⟨next, one, before⟩ := before.step
      rw [operand, peek?_bind, next]
      exact .ok one before
  | .paren enclosed =>
      rw [List.cons_append, List.append_assoc] at before
      obtain ⟨opening, one, before⟩ := before.step
      rw [operand, peek?_bind, opening]
      dsimp only
      rw [advance_bind]
      refine (expression_complete room enclosed distinct before (.inr (.inl rfl))).bind
        fun s two before => ?_
      obtain ⟨closing, three, before⟩ := before.step
      rw [expect_bind closing]
      exact .ok (one.append (two.append three)) before
  | .function parameters body =>
      rw [Expr.DistinctParams] at distinct
      rw [List.cons_append, List.append_assoc] at before
      obtain ⟨word, one, before⟩ := before.step
      rw [operand, peek?_bind, word]
      dsimp only
      rw [advance_bind]
      refine (parameterList_complete parameters distinct.1 before).bind fun s two before => ?_
      refine (block_complete room body distinct.2 before).bind fun t three before => ?_
      exact .ok (one.append (two.append three)) before

end

/-- A script that the grammar derives is read as its tree, or the nesting is too deep. -/
theorem parse_complete {lexemes : List Lexeme} {script : Script}
    (derived : Grammar.Statements lexemes script.statements)
    (distinct : DistinctParamsIn script.statements)
    : parse lexemes = (script, []) ∨ TooDeep (parse lexemes).2 := by
  have before : (Reader.start lexemes).Before (lexemes ++ []) :=
    ⟨(List.append_nil lexemes).symm, rfl, Reader.placed_start lexemes⟩
  rcases statements_complete nestingLimit false derived distinct before
    (.inl rfl) with ⟨s, done, past, before⟩ | deep
  · obtain ⟨same, rfl⟩ := EStateM.Result.ok.inj done
    left
    simp only [parse, same, before.clean]
  · exact .inr deep

end Parse

end StackScript
