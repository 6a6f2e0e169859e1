import StackScript.Proofs.Parse.Forms

/-! An error stays in its statement. Of a statement without braces, reading passes over no more
than the tokens up to its semicolon: either it succeeds right behind the semicolon, or an
error stops it before, and recovery from there goes on right behind the semicolon as well.
-/

namespace StackScript

/-- A token that neither ends a statement nor stands at an end of a block. -/
def Token.isInner : Token → Bool
  | .mark .semicolon | .mark .leftBrace | .mark .rightBrace => false
  | _ => true

namespace Parse

open Reader (Onward)
open StackScript.Parser

variable {α β : Type} {room level : Nat} {rest : List Lexeme} {errors : List SyntaxError}
  {r s : Reader}

-----------------------------------------------------------------------------------------
-- Places in a statement
-----------------------------------------------------------------------------------------

/-- A place before some inner tokens, a semicolon and the given tokens, with the given errors
noted.
-/
structure Inside (rest : List Lexeme) (errors : List SyntaxError) (r : Reader) : Prop where
  ahead
    : ∃ inner semicolon,
        r.rest = inner ++ ⟨.mark .semicolon, semicolon⟩ :: rest
        ∧ ∀ lexeme ∈ inner, lexeme.token.isInner = true
  errors : r.errors = errors

/-- The place right before the given tokens, with the given errors noted. -/
structure Behind (rest : List Lexeme) (errors : List SyntaxError) (r : Reader) : Prop where
  rest : r.rest = rest
  errors : r.errors = errors

namespace Inside

/-- The next token is the semicolon or one before it. -/
theorem next? (inside : Inside rest errors r)
    : ∃ token, r.next? = some token ∧ (token.isInner = true ∨ token = .mark .semicolon) := by
  obtain ⟨inner, semicolon, left, plain⟩ := inside.ahead
  cases inner with
  | nil => exact ⟨_, Reader.next?_of_rest left, .inr rfl⟩
  | cons first inner =>
      exact ⟨_, Reader.next?_of_rest left, .inl (plain first List.mem_cons_self)⟩

theorem not_brace (inside : Inside rest errors r) : r.next? ≠ some (.mark .leftBrace) := by
  obtain ⟨token, next, kind⟩ := inside.next?
  intro brace
  cases next.symm.trans brace
  rcases kind with inner | semicolon
  · cases inner
  · cases semicolon

/-- A list of statements does not end in a statement. -/
theorem not_ended {nested : Bool} (inside : Inside rest errors r) : ¬Ended nested r := by
  obtain ⟨token, next, kind⟩ := inside.next?
  rintro (none | ⟨-, brace⟩)
  · rw [Reader.next?, none] at next
    cases next
  · cases next.symm.trans brace
    rcases kind with inner | semicolon
    · cases inner
    · cases semicolon

/-- Passing over an inner token stays in the statement. -/
theorem step {token : Token} (inside : Inside rest errors r) (next : r.next? = some token)
    (kind : token.isInner = true)
    : Inside rest errors r.advance := by
  obtain ⟨inner, semicolon, left, plain⟩ := inside.ahead
  refine ⟨?_, (Reader.errors_advance r).trans inside.errors⟩
  cases inner with
  | nil =>
      cases next.symm.trans (Reader.next?_of_rest left)
      cases kind
  | cons first inner =>
      exact ⟨inner, semicolon, rest_advance_of_rest left,
        fun lexeme found => plain lexeme (.tail _ found)⟩

/-- Passing over the semicolon leaves the statement. -/
theorem leave (inside : Inside rest errors r) (next : r.next? = some (.mark .semicolon))
    : Behind rest errors r.advance := by
  obtain ⟨inner, semicolon, left, plain⟩ := inside.ahead
  refine ⟨?_, (Reader.errors_advance r).trans inside.errors⟩
  cases inner with
  | nil => exact rest_advance_of_rest left
  | cons first inner =>
      have kind := plain first List.mem_cons_self
      rw [Reader.next?_of_rest left] at next
      rw [Option.some.inj next] at kind
      cases kind

end Inside

-----------------------------------------------------------------------------------------
-- Recovery
-----------------------------------------------------------------------------------------

theorem recoveryLength_of_isInner {nested : Bool} {lexeme : Lexeme} (more : List Lexeme)
    (kind : lexeme.token.isInner = true)
    : Reader.recoveryLength nested 0 (lexeme :: more)
      = 1 + Reader.recoveryLength nested 0 more := by
  obtain ⟨token, span⟩ := lexeme
  rw [Reader.recoveryLength.eq_def nested 0 (_ :: _)]
  dsimp only
  split <;> first | cases kind | rfl

/-- Recovery passes over the inner tokens and the semicolon, nested or not. -/
theorem recoveryLength_inner {nested : Bool} {inner : List Lexeme} {semicolon : Span}
    (plain : ∀ lexeme ∈ inner, lexeme.token.isInner = true)
    : Reader.recoveryLength nested 0 (inner ++ ⟨.mark .semicolon, semicolon⟩ :: rest)
      = inner.length + 1 := by
  induction inner with
  | nil => rfl
  | cons first inner ih =>
      rw [List.cons_append, recoveryLength_of_isInner _ (plain first List.mem_cons_self),
        ih fun lexeme found => plain lexeme (.tail _ found), List.length_cons]
      omega

/-- Recovery in a statement goes on right behind its semicolon. -/
theorem Inside.recover (inside : Inside rest errors r) (nested : Bool)
    : Behind rest errors (r.recover nested) := by
  obtain ⟨inner, semicolon, left, plain⟩ := inside.ahead
  refine ⟨?_, (errors_skip _ r).trans inside.errors⟩
  rw [Reader.recover, rest_skip, left, recoveryLength_inner plain, ← List.drop_drop,
    List.drop_left]
  rfl

theorem Inside.report (inside : Inside rest errors r) (error : SyntaxError)
    : Inside rest (errors ++ [error]) (r.report error) :=
  ⟨inside.ahead, congrArg (· ++ [error]) inside.errors⟩

/-- The place is between the first token of the statement and its semicolon. -/
theorem Inside.position_le {read : List Lexeme} {semicolon : Span}
    (inside : Inside rest errors s) (onward : Onward r s)
    (left : r.rest = read ++ ⟨.mark .semicolon, semicolon⟩ :: rest)
    : r.position ≤ s.position ∧ s.position ≤ r.position + read.length := by
  obtain ⟨passed, past⟩ := onward.past
  obtain ⟨inner, semicolon', left', -⟩ := inside.ahead
  have lengths := congrArg List.length (left.symm.trans past.rest)
  rw [left'] at lengths
  simp only [List.length_append, List.length_cons] at lengths
  have position := past.position
  omega

-----------------------------------------------------------------------------------------
-- Where reading ends
-----------------------------------------------------------------------------------------

/-- Where reading ends: a success at a place of one kind, an error at a place of another kind,
which is the place that the error names.
-/
def Settles (good bad : Reader → Prop) : EStateM.Result SyntaxError Reader α → Prop
  | .ok _ s => good s
  | .error error s => bad s ∧ error.position = s.position

/-- Reading ends in the same statement. -/
abbrev Remains (rest : List Lexeme) (errors : List SyntaxError)
    (outcome : EStateM.Result SyntaxError Reader α)
    : Prop :=
  Settles (Inside rest errors) (Inside rest errors) outcome

theorem Settles.bind {middle good bad : Reader → Prop} {p : Parser α} {next : α → Parser β}
    (first : Settles middle bad (p r))
    (others : ∀ value s, middle s → Settles good bad (next value s))
    : Settles good bad ((p >>= next) r) := by
  cases read : p r with
  | error error s =>
      rw [bind_of_error read]
      rwa [read] at first
  | ok value s =>
      rw [bind_of_ok read]
      rw [read] at first
      exact others value s first

theorem Settles.map {good bad : Reader → Prop} {change : α → β} {p : Parser α}
    (first : Settles good bad (p r))
    : Settles good bad ((change <$> p) r) := by
  rw [← bind_pure_comp]
  exact first.bind fun _ _ here => here

theorem settles_fail {good bad : Reader → Prop} {cause : SyntaxCause} (here : bad r)
    : Settles good bad (fail cause r : EStateM.Result SyntaxError Reader α) :=
  ⟨here, rfl⟩

theorem remains_expect {token : Token} (inside : Inside rest errors r)
    (kind : token.isInner = true)
    : Remains rest errors (expect token r) := by
  unfold expect
  split
  · rename_i next
    exact inside.step next kind
  · exact settles_fail inside

theorem remains_expectName (inside : Inside rest errors r)
    : Remains rest errors (expectName r) := by
  unfold expectName
  split
  · rename_i name next
    exact inside.step next rfl
  · exact settles_fail inside

theorem remains_accept {token : Token} (inside : Inside rest errors r)
    (kind : token.isInner = true)
    : Remains rest errors (accept token r) := by
  unfold accept
  split
  · rename_i next
    exact inside.step next kind
  · exact inside

theorem settles_semicolon (inside : Inside rest errors r)
    : Settles (Behind rest errors) (Inside rest errors) (expect (.mark .semicolon) r) := by
  unfold expect
  split
  · rename_i next
    exact inside.leave next
  · exact settles_fail inside

-----------------------------------------------------------------------------------------
-- Expressions
-----------------------------------------------------------------------------------------

theorem remains_parameters {seen : List String} (inside : Inside rest errors r)
    : Remains rest errors (parameters seen r) := by
  fun_induction parameters seen r with
  | case1 seen r name next behind twice => exact ⟨inside.step next rfl, rfl⟩
  | case2 seen r name next behind once comma ih =>
      exact ih ((inside.step next rfl).step comma rfl)
  | case3 seen r name next behind once last => exact inside.step next rfl
  | case4 => exact settles_fail inside

theorem remains_parameterList (inside : Inside rest errors r)
    : Remains rest errors (parameterList r) := by
  rw [parameterList]
  refine (remains_expect inside rfl).bind fun _ r inside => ?_
  rw [peek?_bind]
  split
  · rw [pure_bind]
    exact (remains_expect inside rfl).bind fun _ _ inside => inside
  · exact Settles.bind (remains_parameters inside) fun _ _ inside =>
      (remains_expect inside rfl).bind fun _ _ inside => inside

theorem isInner_of_jointAt? {token : Token} {joint : Joint}
    (known : jointAt? level token = some joint)
    : token.isInner = true := by
  obtain ⟨-, rfl⟩ := jointAt?_eq_some_iff.mp known
  cases joint with
  | binary op => rfl
  | logical op => cases op <;> rfl

theorem isInner_of_assignment? {token : Token} {how : Assignment}
    (known : assignment? token = some how)
    : token.isInner = true := by
  unfold assignment? at known
  split at known <;> first | rfl | cases known

mutual

theorem remains_expression {room : Nat} {r : Reader} (inside : Inside rest errors r)
    : Remains rest errors (expression room r) := by
  match room with
  | 0 =>
      rw [expression]
      exact settles_fail inside
  | room + 1 =>
      rw [expression, get_bind]
      cases ahead : assignmentAhead? r with
      | none => exact remains_chain inside
      | some assignment =>
          obtain ⟨named, token, next, sign⟩ := next?_of_assignmentAhead? ahead
          dsimp only
          rw [advance_bind, advance_bind]
          have behind := (inside.step named rfl).step next (isInner_of_assignment? sign)
          exact (remains_expression behind).bind fun _ _ inside => inside
termination_by (room, 0, 0)

theorem remains_chain {room level : Nat} {r : Reader} (inside : Inside rest errors r)
    : Remains rest errors (chain room level r) := by
  match level with
  | 0 =>
      rw [chain_zero]
      exact remains_call inside
  | level + 1 =>
      rw [chain]
      exact (remains_chain inside).bind fun _ _ inside => remains_chainTail inside
termination_by (room, 6 + level, 0)

theorem remains_chainTail {room level : Nat} {left : Expr} {r : Reader}
    (inside : Inside rest errors r)
    : Remains rest errors (chainTail room level left r) := by
  rw [chainTail, peek?_bind]
  cases known : r.next?.bind (jointAt? level) with
  | none => exact inside
  | some joint =>
      obtain ⟨token, next, known⟩ := Option.bind_eq_some_iff.mp known
      dsimp only
      rw [advance_bind]
      have behind := inside.step next (isInner_of_jointAt? known)
      match room with
      | 0 => exact settles_fail behind
      | room + 1 =>
          exact (remains_chain behind).bind fun _ _ inside => remains_chainTail inside
termination_by (room, 0, 0)

theorem remains_call {room : Nat} {r : Reader} (inside : Inside rest errors r)
    : Remains rest errors (call room r) := by
  rw [call]
  exact (remains_operand inside).bind fun _ _ inside => remains_callTail inside
termination_by (room, 5, 0)

theorem remains_callTail {room : Nat} {callee : Expr} {r : Reader}
    (inside : Inside rest errors r)
    : Remains rest errors (callTail room callee r) := by
  rw [callTail.eq_def]
  refine (remains_accept inside rfl).bind fun opened r inside => ?_
  cases opened with
  | false => exact inside
  | true =>
      rw [if_pos rfl]
      match room with
      | 0 => exact settles_fail inside
      | room + 1 =>
          dsimp only
          rw [peek?_bind]
          split
          · rw [pure_bind]
            exact (remains_expect inside rfl).bind fun _ _ inside => remains_callTail inside
          · exact Settles.bind (remains_arguments inside) fun _ _ inside =>
              (remains_expect inside rfl).bind fun _ _ inside => remains_callTail inside
termination_by (room, 0, 0)

theorem remains_arguments {room : Nat} {r : Reader} (inside : Inside rest errors r)
    : Remains rest errors (arguments room r) := by
  have first : Remains rest errors (expression room r) := remains_expression inside
  rw [arguments]
  split
  · rename_i read
    rwa [read] at first
  · rename_i read
    rw [read] at first
    split
    · rename_i comma
      have behind := Inside.step first comma rfl
      split
      · have others : Remains rest errors (arguments room _) := remains_arguments behind
        split <;> rename_i read <;> rwa [read] at others
      · exact behind
    · exact first
termination_by (room, 1, r.remaining)

theorem remains_operand {room : Nat} {r : Reader} (inside : Inside rest errors r)
    : Remains rest errors (operand room r) := by
  rw [operand, peek?_bind]
  generalize next : r.next? = found
  split
  case h_7 =>
    rw [advance_bind]
    exact (remains_expression (inside.step next rfl)).bind fun _ _ inside =>
      (remains_expect inside rfl).bind fun _ _ inside => inside
  case h_8 =>
    rw [advance_bind]
    refine (remains_parameterList (inside.step next rfl)).bind fun _ s inside => ?_
    rw [bind_of_error (block_of_not_next inside.not_brace)]
    exact ⟨inside, rfl⟩
  case h_9 => exact settles_fail inside
  all_goals exact inside.step next rfl
termination_by (room, 4, 0)

end

-----------------------------------------------------------------------------------------
-- Statements
-----------------------------------------------------------------------------------------

/-- A statement is read up to behind its semicolon, or an error stops reading before it. No
`else` may stand behind the semicolon, which an `if` would take.
-/
theorem settles_statement (room : Nat) (inside : Inside rest errors r)
    (last : upcoming rest ≠ some (.keyword .elseWord))
    : Settles (Behind rest errors) (Inside rest errors) (statement room r) := by
  induction room generalizing r with
  | zero =>
      rw [statement]
      exact settles_fail inside
  | succ room ih =>
      obtain ⟨token, next, -⟩ := inside.next?
      rw [statement, here_bind, peek?_bind]
      generalize ahead : r.next? = found
      split
      case h_1 => exact absurd ahead inside.not_brace
      case h_2 =>
        rw [advance_bind]
        refine (remains_expect (inside.step ahead rfl) rfl).bind fun _ _ inside => ?_
        refine (remains_expression inside).bind fun _ _ inside => ?_
        refine (remains_expect inside rfl).bind fun _ _ inside => ?_
        refine (ih inside).bind fun _ s behind => ?_
        have other : s.next? ≠ some (.keyword .elseWord) := by
          rwa [Reader.next?, behind.rest]
        rw [accept_bind_of_not other, if_neg Bool.false_ne_true, pure_bind]
        exact behind
      case h_3 =>
        rw [advance_bind, peek?_bind]
        have inside := inside.step ahead rfl
        split
        · rw [pure_bind]
          exact (settles_semicolon inside).bind fun _ _ behind => behind
        · exact (remains_expression inside).map.bind fun _ _ inside =>
            (settles_semicolon inside).bind fun _ _ behind => behind
      case h_4 =>
        rw [advance_bind]
        refine (remains_expectName (inside.step ahead rfl)).bind fun _ _ inside => ?_
        refine (remains_accept inside rfl).bind fun given _ inside => ?_
        cases given with
        | true =>
            rw [if_pos rfl]
            exact (remains_expression inside).map.bind fun _ _ inside =>
              (settles_semicolon inside).bind fun _ _ behind => behind
        | false =>
            rw [if_neg Bool.false_ne_true, pure_bind]
            exact (settles_semicolon inside).bind fun _ _ behind => behind
      case h_5 =>
        exact (remains_expression inside).bind fun _ _ inside =>
          (settles_semicolon inside).bind fun _ _ behind => behind
      case h_6 => cases next.symm.trans ahead

end Parse

end StackScript
