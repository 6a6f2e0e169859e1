import StackScript.Proofs.Parse.Keeping
import StackScript.Proofs.Tree.Spans

/-! Reading does not look at spans. To read tokens without their spans gives what reading the
tokens gives, without its spans: the same tree, and the same errors at the same tokens.
-/

namespace StackScript

/-- The token with an unknown span. -/
def Lexeme.withoutSpan (lexeme : Lexeme) : Lexeme :=
  { lexeme with span := Span.unknown }

/-- The error with an unknown span. -/
def SyntaxError.withoutSpan (error : SyntaxError) : SyntaxError :=
  { error with span := Span.unknown }

-----------------------------------------------------------------------------------------
-- Places
-----------------------------------------------------------------------------------------

namespace Reader

/-- The place with unknown spans. -/
def withoutSpans (r : Reader) : Reader where
  rest := r.rest.map Lexeme.withoutSpan
  position := r.position
  total := r.total
  previous := Span.unknown
  errors := r.errors.map SyntaxError.withoutSpan

variable (r : Reader)

@[simp]
theorem next?_withoutSpans : r.withoutSpans.next? = r.next? := by
  cases left : r.rest <;> simp [next?, withoutSpans, left, Lexeme.withoutSpan]

@[simp]
theorem here_withoutSpans : r.withoutSpans.here = Span.unknown := by
  unfold here withoutSpans
  cases r.rest <;> rfl

@[simp]
theorem advance_withoutSpans : r.withoutSpans.advance = r.advance.withoutSpans := by
  cases left : r.rest <;> simp [advance, withoutSpans, left, Lexeme.withoutSpan]

theorem isEmpty_rest_withoutSpans : r.withoutSpans.rest.isEmpty = r.rest.isEmpty :=
  List.isEmpty_map

theorem length_errors_withoutSpans : r.withoutSpans.errors.length = r.errors.length :=
  List.length_map _

@[simp]
theorem remaining_withoutSpans : r.withoutSpans.remaining = r.remaining :=
  rfl

theorem skip_withoutSpans (count : Nat)
    : r.withoutSpans.skip count = (r.skip count).withoutSpans := by
  induction count generalizing r with
  | zero => rfl
  | succ count ih => rw [skip, skip, advance_withoutSpans, ih]

theorem skipAll_withoutSpans : r.withoutSpans.skipAll = r.skipAll.withoutSpans := by
  rw [skipAll, skipAll, ← skip_withoutSpans]
  exact congrArg (r.withoutSpans.skip ·) (List.length_map _)

theorem report_withoutSpans (error : SyntaxError)
    : r.withoutSpans.report error.withoutSpan = (r.report error).withoutSpans := by
  simp [report, withoutSpans]

theorem recoveryLength_withoutSpan (nested : Bool) (depth : Nat) (lexemes : List Lexeme)
    : recoveryLength nested depth (lexemes.map Lexeme.withoutSpan)
      = recoveryLength nested depth lexemes := by
  fun_induction recoveryLength nested depth lexemes <;>
    simp_all [recoveryLength, Lexeme.withoutSpan]

theorem recover_withoutSpans (nested : Bool)
    : r.withoutSpans.recover nested = (r.recover nested).withoutSpans := by
  rw [recover, recover, ← skip_withoutSpans]
  exact congrArg (r.withoutSpans.skip ·) (recoveryLength_withoutSpan _ _ _)

end Reader

-----------------------------------------------------------------------------------------
-- Steps
-----------------------------------------------------------------------------------------

namespace Parser

variable {α β γ δ : Type}

/-- The outcome of a step with unknown spans, given the result with unknown spans. -/
def withoutSpans (change : α → β)
    : EStateM.Result SyntaxError Reader α → EStateM.Result SyntaxError Reader β
  | .ok value s => .ok (change value) s.withoutSpans
  | .error error s => .error error.withoutSpan s.withoutSpans

/-- One step does without spans what the other does with spans, up to a change of the result. -/
def Mirrors (change : α → β) (p : Parser α) (q : Parser β) : Prop :=
  ∀ r, q r.withoutSpans = withoutSpans change (p r)

namespace Mirrors

theorem pure {change : α → β} {value : α} {changed : β} (same : change value = changed)
    : Mirrors change (Pure.pure value) (Pure.pure changed) :=
  fun _ => same ▸ rfl

theorem bind {change : α → β} {change' : γ → δ} {p : Parser α} {q : Parser β}
    {next : α → Parser γ} {next' : β → Parser δ} (first : Mirrors change p q)
    (others : ∀ value, Mirrors change' (next value) (next' (change value)))
    : Mirrors change' (p >>= next) (q >>= next') := by
  intro r
  have first := first r
  cases read : p r with
  | ok value s =>
      rw [read] at first
      rw [bind_of_ok read, bind_of_ok first]
      exact others value s
  | error error s =>
      rw [read] at first
      rw [bind_of_error read, bind_of_error first]
      rfl

theorem map {change : α → β} {change' : γ → δ} {p : Parser α} {q : Parser β} {wrap : α → γ}
    {wrap' : β → δ} (first : Mirrors change p q)
    (same : ∀ value, change' (wrap value) = wrap' (change value))
    : Mirrors change' (wrap <$> p) (wrap' <$> q) := by
  rw [← bind_pure_comp, ← bind_pure_comp]
  exact first.bind fun value => .pure (same value)

theorem fail (change : α → β) (cause : SyntaxCause)
    : Mirrors change (Parser.fail cause) (Parser.fail cause) := by
  intro r
  simp only [Parser.fail, Reader.here_withoutSpans]
  rfl

theorem get : Mirrors Reader.withoutSpans MonadState.get MonadState.get :=
  fun _ => rfl

theorem peek? : Mirrors id Parser.peek? Parser.peek? := by
  intro r
  simp only [Parser.peek?, Reader.next?_withoutSpans]
  rfl

theorem here : Mirrors (fun _ => Span.unknown) Parser.here Parser.here := by
  intro r
  simp only [Parser.here, Reader.here_withoutSpans]
  rfl

theorem spanFrom (start : Span)
    : Mirrors (fun _ => Span.unknown) (Parser.spanFrom start) (Parser.spanFrom Span.unknown) :=
  fun _ => rfl

theorem advance : Mirrors id Parser.advance Parser.advance := by
  intro r
  simp only [Parser.advance, Reader.advance_withoutSpans]
  rfl

theorem accept (token : Token) : Mirrors id (Parser.accept token) (Parser.accept token) := by
  intro r
  simp only [Parser.accept, Reader.next?_withoutSpans, Reader.advance_withoutSpans]
  split <;> rfl

theorem expect (token : Token) : Mirrors id (Parser.expect token) (Parser.expect token) := by
  intro r
  simp only [Parser.expect, Reader.next?_withoutSpans, Reader.advance_withoutSpans]
  split
  · rfl
  · exact fail id _ r

theorem expectName : Mirrors id Parser.expectName Parser.expectName := by
  intro r
  simp only [Parser.expectName, Reader.next?_withoutSpans, Reader.advance_withoutSpans]
  split
  · rfl
  · exact fail id _ r

end Mirrors

end Parser

-----------------------------------------------------------------------------------------
-- Phrases
-----------------------------------------------------------------------------------------

namespace Parse

open StackScript.Parser (Mirrors)

theorem assignmentAhead?_withoutSpans (r : Reader)
    : assignmentAhead? r.withoutSpans = assignmentAhead? r := by
  unfold assignmentAhead? Reader.withoutSpans
  rcases r.rest with _ | ⟨⟨first, span⟩, _ | ⟨second, rest⟩⟩
  · rfl
  · cases first <;> rfl
  · cases first <;> rfl

theorem Joint.join_withoutSpans (joint : Joint) (left right : Expr)
    : (joint.join left right).withoutSpans
      = joint.join left.withoutSpans right.withoutSpans := by
  cases joint <;> rw [join, join, Expr.withoutSpans]

/-- The names of parameters are read by what the next token is. -/
theorem parameters_eq (seen : List String) (r : Reader)
    : parameters seen r
      = match r.next? with
        | some (.name name) =>
            if seen.contains name then
              .error ⟨.duplicateParameter name, r.advance.position, r.advance.previous⟩ r.advance
            else if r.advance.next? = some (.mark .comma) then
              parameters (seen ++ [name]) r.advance.advance
            else .ok (seen ++ [name]) r.advance
        | found => Parser.fail (.expectedName found) r := by
  rw [parameters]
  split
  · rename_i name next
    rw [next]
  · rename_i other
    split
    · rename_i name next
      exact absurd next (other name)
    · rfl

theorem parameters_mirrors (seen : List String)
    : Mirrors id (parameters seen) (parameters seen) := by
  intro r
  fun_induction parameters seen r with
  | case1 seen r name next behind twice =>
      rw [parameters_eq, r.next?_withoutSpans, next]
      dsimp only
      rw [if_pos twice, r.advance_withoutSpans]
      rfl
  | case2 seen r name next behind once comma ih =>
      rw [parameters_eq, r.next?_withoutSpans, next]
      dsimp only
      rw [if_neg once, r.advance_withoutSpans, behind.next?_withoutSpans, if_pos comma,
        behind.advance_withoutSpans]
      exact ih
  | case3 seen r name next behind once last =>
      rw [parameters_eq, r.next?_withoutSpans, next]
      dsimp only
      rw [if_neg once, r.advance_withoutSpans, behind.next?_withoutSpans, if_neg last]
      rfl
  | case4 seen r missing =>
      rw [parameters_eq, r.next?_withoutSpans]
      split
      · rename_i name next
        exact absurd next (missing name)
      · exact Mirrors.fail id _ r

theorem parameterList_mirrors : Mirrors id parameterList parameterList := by
  unfold parameterList
  refine .bind (.expect _) fun _ => .bind .peek? fun found => ?_
  dsimp only [id]
  split
  · exact .bind (.pure rfl) fun _ => .bind (.expect _) fun _ => .pure rfl
  · exact .bind (parameters_mirrors []) fun _ => .bind (.expect _) fun _ => .pure rfl

/-- The span of a statement is the last thing that is found out about it. -/
theorem spanned_mirrors {tree changed : Span → Stmt} (start : Span)
    (same : ∀ span, (tree span).withoutSpans = changed Span.unknown)
    : Mirrors Stmt.withoutSpans (Parser.spanFrom start >>= fun span => pure (tree span))
        (Parser.spanFrom Span.unknown >>= fun span => pure (changed span)) :=
  .bind (.spanFrom start) fun span => .pure (same span)

/-- A list of statements does not look at spans if the statements do not, by induction on the
tokens left.
-/
theorem statements_mirrors {room : Nat}
    (mirrors : Mirrors Stmt.withoutSpans (statement room) (statement room)) (nested : Bool)
    (r : Reader)
    : statements room nested r.withoutSpans
      = (stmtsWithoutSpans (statements room nested r).1,
          (statements room nested r).2.withoutSpans) := by
  rw [statements, statements.eq_def room nested r, mirrors r, r.isEmpty_rest_withoutSpans,
    r.next?_withoutSpans, r.length_errors_withoutSpans]
  split
  · rw [stmtsWithoutSpans]
  split
  · rw [r.skipAll_withoutSpans, stmtsWithoutSpans]
  cases read : statement room r with
  | ok first behind =>
      simp only [Parser.withoutSpans, Reader.remaining_withoutSpans]
      by_cases shorter : behind.remaining < r.remaining
      · simp only [if_pos shorter, statements_mirrors mirrors nested behind, stmtsWithoutSpans]
      · simp only [if_neg shorter, stmtsWithoutSpans]
        exact if_neg shorter
  | error error found =>
      simp only [Parser.withoutSpans, Reader.report_withoutSpans, Reader.recover_withoutSpans,
        Reader.remaining_withoutSpans]
      split
      · exact statements_mirrors mirrors nested _
      · rw [stmtsWithoutSpans]
termination_by r.remaining

mutual

theorem statement_mirrors (room : Nat)
    : Mirrors Stmt.withoutSpans (statement room) (statement room) := by
  match room with
  | 0 =>
      unfold statement
      exact .fail _ _
  | room + 1 =>
      have inner := expression_mirrors room
      have side := statement_mirrors room
      have value : Mirrors exprWithoutSpans? (some <$> expression room)
          (some <$> expression room) :=
        inner.map fun _ => by rw [exprWithoutSpans?]
      have noValue : Mirrors exprWithoutSpans? (pure none) (pure none) :=
        .pure (by rw [exprWithoutSpans?])
      have other : Mirrors stmtWithoutSpans? (some <$> statement room)
          (some <$> statement room) :=
        side.map fun _ => by rw [stmtWithoutSpans?]
      have noOther : Mirrors stmtWithoutSpans? (pure none) (pure none) :=
        .pure (by rw [stmtWithoutSpans?])
      unfold statement
      refine .bind .here fun start => .bind .peek? fun found => ?_
      dsimp only [id]
      -- The next token is the same with and without spans, and so is the form of the statement.
      split
      · refine .bind (block_mirrors room) fun _ => spanned_mirrors _ fun _ => ?_
        rw [Stmt.withoutSpans]
      · refine .bind .advance fun _ => .bind (.expect _) fun _ => .bind inner fun _ => ?_
        refine .bind (.expect _) fun _ => .bind side fun _ => .bind (.accept _) fun found => ?_
        dsimp only [id]
        split
        · refine .bind other fun _ => spanned_mirrors _ fun _ => ?_
          rw [Stmt.withoutSpans]
        · refine .bind noOther fun _ => spanned_mirrors _ fun _ => ?_
          rw [Stmt.withoutSpans]
      · refine .bind .advance fun _ => .bind .peek? fun found => ?_
        dsimp only [id]
        split
        · refine .bind noValue fun _ => .bind (.expect _) fun _ => spanned_mirrors _ fun _ => ?_
          rw [Stmt.withoutSpans]
        · refine .bind value fun _ => .bind (.expect _) fun _ => spanned_mirrors _ fun _ => ?_
          rw [Stmt.withoutSpans]
      · refine .bind .advance fun _ => .bind .expectName fun _ => ?_
        refine .bind (.accept _) fun found => ?_
        dsimp only [id]
        split
        · refine .bind value fun _ => .bind (.expect _) fun _ => spanned_mirrors _ fun _ => ?_
          rw [Stmt.withoutSpans]
        · refine .bind noValue fun _ => .bind (.expect _) fun _ => spanned_mirrors _ fun _ => ?_
          rw [Stmt.withoutSpans]
      · refine .bind inner fun _ => .bind (.expect _) fun _ => spanned_mirrors _ fun _ => ?_
        rw [Stmt.withoutSpans]
      · exact .fail _ _
termination_by (room, 0, 0)

theorem block_mirrors (room : Nat) : Mirrors stmtsWithoutSpans (block room) (block room) := by
  unfold block
  refine .bind (.expect _) fun _ => .bind (fun r => ?_) fun _ => .bind (.expect _) fun _ =>
    .pure rfl
  simp only [statements_mirrors (statement_mirrors room)]
  rfl
termination_by (room, 2, 0)

theorem expression_mirrors (room : Nat)
    : Mirrors Expr.withoutSpans (expression room) (expression room) := by
  match room with
  | 0 =>
      unfold expression
      exact .fail _ _
  | room + 1 =>
      have inner := expression_mirrors room
      have operands := chain_mirrors room levels
      unfold expression
      refine .bind .get fun r => ?_
      rw [assignmentAhead?_withoutSpans]
      split
      · refine .bind .advance fun _ => .bind .advance fun _ => .bind inner fun _ => .pure ?_
        rw [Expr.withoutSpans]
      · exact operands
termination_by (room, 0, 0)

theorem chain_mirrors (room level : Nat)
    : Mirrors Expr.withoutSpans (chain room level) (chain room level) := by
  match level with
  | 0 =>
      unfold chain
      exact call_mirrors room
  | level + 1 =>
      unfold chain
      exact .bind (chain_mirrors room level) (chainTail_mirrors room level)
termination_by (room, 6 + level, 0)

theorem chainTail_mirrors (room level : Nat) (left : Expr)
    : Mirrors Expr.withoutSpans (chainTail room level left)
        (chainTail room level left.withoutSpans) := by
  unfold chainTail
  refine .bind .peek? fun found => ?_
  dsimp only [id]
  split
  · exact .pure rfl
  · refine .bind .advance fun _ => ?_
    match room with
    | 0 => exact .fail _ _
    | room + 1 =>
        refine .bind (chain_mirrors room level) fun right => ?_
        rw [← Joint.join_withoutSpans]
        exact chainTail_mirrors room level _
termination_by (room, 0, 0)

theorem call_mirrors (room : Nat) : Mirrors Expr.withoutSpans (call room) (call room) := by
  unfold call
  exact .bind (operand_mirrors room) (callTail_mirrors room)
termination_by (room, 5, 0)

theorem callTail_mirrors (room : Nat) (callee : Expr)
    : Mirrors Expr.withoutSpans (callTail room callee) (callTail room callee.withoutSpans) := by
  unfold callTail
  refine .bind (.accept _) fun found => ?_
  dsimp only [id]
  split
  · match room with
    | 0 => exact .fail _ _
    | room + 1 =>
        refine .bind .peek? fun found => ?_
        dsimp only [id]
        have called (args : List Expr)
            : Mirrors Expr.withoutSpans (callTail room (.call callee args))
                (callTail room (.call callee.withoutSpans (exprsWithoutSpans args))) := by
          have := callTail_mirrors room (.call callee args)
          rwa [Expr.withoutSpans] at this
        split
        · refine .bind (.pure ?_) fun _ => .bind (.expect _) fun _ => called _
          rw [exprsWithoutSpans]
        · exact .bind (arguments_mirrors room) fun _ => .bind (.expect _) fun _ => called _
  · exact .pure rfl
termination_by (room, 0, 0)

theorem arguments_mirrors (room : Nat) (r : Reader)
    : arguments room r.withoutSpans
      = Parser.withoutSpans exprsWithoutSpans (arguments room r) := by
  rw [arguments, arguments.eq_def room r, expression_mirrors room r]
  cases read : expression room r with
  | error error found => rfl
  | ok first behind =>
      simp only [Parser.withoutSpans, Reader.next?_withoutSpans, Reader.advance_withoutSpans,
        Reader.remaining_withoutSpans]
      split
      · split
        · rw [arguments_mirrors room behind.advance]
          cases arguments room behind.advance with
          | error error found => rfl
          | ok more last => simp only [Parser.withoutSpans, exprsWithoutSpans]
        · simp only [exprsWithoutSpans]
      · simp only [exprsWithoutSpans]
termination_by (room, 1, r.remaining)

theorem operand_mirrors (room : Nat)
    : Mirrors Expr.withoutSpans (operand room) (operand room) := by
  unfold operand
  refine .bind .peek? fun found => ?_
  dsimp only [id]
  split
  all_goals try
    refine .bind .advance fun _ => .pure ?_
    rw [Expr.withoutSpans]
  · refine .bind .advance fun _ => .bind (expression_mirrors room) fun _ => ?_
    exact .bind (.expect _) fun _ => .pure rfl
  · refine .bind .advance fun _ => .bind parameterList_mirrors fun _ => ?_
    refine .bind (block_mirrors room) fun _ => .pure ?_
    rw [Expr.withoutSpans]
    rfl
  · exact .fail _ _
termination_by (room, 4, 0)

end

/-- To read tokens without spans gives the same tree and the same errors, without spans. -/
theorem parse_withoutSpans (lexemes : List Lexeme)
    : parse (lexemes.map Lexeme.withoutSpan)
      = ((parse lexemes).1.withoutSpans, (parse lexemes).2.map SyntaxError.withoutSpan) := by
  have start : Reader.start (lexemes.map Lexeme.withoutSpan)
      = (Reader.start lexemes).withoutSpans := by
    simp [Reader.start, Reader.withoutSpans]
  rw [parse, start, statements_mirrors (statement_mirrors nestingLimit)]
  rfl

/-- What is read from tokens with other spans is the same but for spans. -/
theorem parse_respanned {lexemes others : List Lexeme}
    (same : lexemes.map Lexeme.token = others.map Lexeme.token)
    : (parse lexemes).1.withoutSpans = (parse others).1.withoutSpans
      ∧ (parse lexemes).2.map SyntaxError.withoutSpan
        = (parse others).2.map SyntaxError.withoutSpan := by
  have erased (lexemes : List Lexeme)
      : lexemes.map Lexeme.withoutSpan = (lexemes.map Lexeme.token).map (⟨·, Span.unknown⟩) := by
    rw [List.map_map]
    rfl
  have whole := parse_withoutSpans lexemes
  rw [erased, same, ← erased, parse_withoutSpans others] at whole
  exact ⟨(congrArg Prod.fst whole).symm, (congrArg Prod.snd whole).symm⟩

end Parse

end StackScript
