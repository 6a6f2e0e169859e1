import StackScript.Proofs.Parse.Replay
import StackScript.Proofs.Parse.SpanOrder
import StackScript.Proofs.Tree.Nesting

/-! Every statement of a tree was read as a statement, whatever stands around it. The outermost
statements inside a phrase are read one behind the other while the phrase is read. So the spans
of statements lie one behind the other and one inside the other as the statements do, and a
statement that was read without errors is read alike when it stands alone.
-/

namespace StackScript

namespace Parse

open Reader (Onward)
open StackScript.Parser

variable {limit room level : Nat} {nested : Bool} {r s t u : Reader} {stmt : Stmt}
  {stmts more : List Stmt}

-----------------------------------------------------------------------------------------
-- Statements one behind the other
-----------------------------------------------------------------------------------------

/-- Between two places the given statements were read one behind the other, with no more than the
given room for each.
-/
inductive Row (limit : Nat) : Reader → List Stmt → Reader → Prop
  | nil {r s : Reader} (onward : Onward r s) : Row limit r [] s
  | cons {room : Nat} {r s t u : Reader} {stmt : Stmt} {stmts : List Stmt}
      (onward : Onward r t) (below : room ≤ limit) (read : statement room t = .ok stmt u)
      (others : Row limit u stmts s)
      : Row limit r (stmt :: stmts) s

namespace Row

theorem one (below : room ≤ limit) (read : statement room r = .ok stmt s)
    : Row limit r [stmt] s :=
  .cons (.refl r) below read (.nil (.refl s))

theorem before (onward : Onward r s) (row : Row limit s stmts t) : Row limit r stmts t := by
  cases row with
  | nil onward' => exact .nil (onward.trans onward')
  | cons onward' below read others => exact .cons (onward.trans onward') below read others

theorem append (row : Row limit r stmts s) (others : Row limit s more t)
    : Row limit r (stmts ++ more) t := by
  induction row with
  | nil onward => exact others.before onward
  | cons onward below read _ ih => exact .cons onward below read (ih others)

theorem behind (row : Row limit r stmts s) (onward : Onward s t) : Row limit r stmts t := by
  have whole := row.append (.nil onward)
  rwa [List.append_nil] at whole

end Row

/-- A list of statements is read one behind the other, by induction on the tokens left. -/
theorem statements_row (placed : r.Placed) (below : room ≤ limit)
    (read : statements room nested r = (stmts, s))
    : Row limit r stmts s := by
  induction left : r.rest.length using Nat.strongRecOn generalizing r stmts with
  | ind left ih =>
  subst left
  cases statements_read placed read with
  | ended here => exact .nil (.refl s)
  | tooMany inside many => exact .nil (Reader.Forward.skip _ r)
  | statement inside few first shorter behind =>
      have onward : Onward r _ := .of_ok first
      exact .cons (.refl r) below first (ih _ shorter (onward.placed placed) behind rfl)
  | @error _ error found _ inside few wrong shorter behind =>
      have onward := ((Onward.of_error wrong).trans (.report found error)).trans
        (Reader.Forward.recover nested _)
      exact (ih _ shorter (onward.placed placed) behind rfl).before onward

theorem block_row (placed : r.Placed) (below : room ≤ limit)
    (read : block room r = .ok stmts s)
    : Row limit r stmts s := by
  obtain ⟨t, opening, inner, closing, rfl⟩ := block_eq_ok read
  have row := statements_row ((Onward.advance r).placed placed) below inner
  exact (row.before (.advance r)).behind (.advance t)

theorem Joint.outermost_join (joint : Joint) (left right : Expr)
    : (joint.join left right).outermost = left.outermost ++ right.outermost := by
  cases joint <;> rw [join, Expr.outermost]

mutual

theorem expression_row {limit room : Nat} {r s : Reader} {e : Expr} (placed : r.Placed)
    (below : room ≤ limit) (read : expression room r = .ok e s)
    : Row limit r e.outermost s := by
  match room with
  | 0 => exact (not_expression_zero read).elim
  | less + 1 =>
      have lower := Nat.le_of_succ_le below
      cases expression_read read with
      | assign ahead value =>
          have onward := (Onward.advance r).trans (.advance _)
          rw [Expr.outermost]
          exact (expression_row (onward.placed placed) lower value).before onward
      | chain ahead operands => exact chain_row placed lower operands
termination_by (room, 0, 0)

theorem chain_row {limit room level : Nat} {r s : Reader} {e : Expr} (placed : r.Placed)
    (below : room ≤ limit) (read : chain room level r = .ok e s)
    : Row limit r e.outermost s := by
  match level with
  | 0 =>
      rw [chain_zero] at read
      exact call_row placed below read
  | level + 1 =>
      obtain ⟨left, t, first, others⟩ := chain_succ_eq_ok read
      have placed' := (Onward.of_ok first).placed placed
      exact chainTail_row placed' below (chain_row placed below first) others
termination_by (room, 6 + level, 0)

theorem chainTail_row {limit room level : Nat} {r s t : Reader} {left e : Expr}
    (placed : s.Placed) (below : room ≤ limit) (row : Row limit r left.outermost s)
    (read : chainTail room level left s = .ok e t)
    : Row limit r e.outermost t := by
  cases chainTail_read read with
  | done last => exact row
  | @joined less _ joint right _ _ u deeper next known inner others =>
      subst deeper
      have lower := Nat.le_of_succ_le below
      have placed' := (Onward.advance s).placed placed
      have operand := (chain_row placed' lower inner).before (.advance s)
      have joined : Row limit r (joint.join left right).outermost u := by
        rw [joint.outermost_join]
        exact row.append operand
      exact chainTail_row ((Onward.of_ok inner).placed placed') lower joined others
termination_by (room, 0, 0)

theorem call_row {limit room : Nat} {r s : Reader} {e : Expr} (placed : r.Placed)
    (below : room ≤ limit) (read : call room r = .ok e s)
    : Row limit r e.outermost s := by
  obtain ⟨callee, t, first, others⟩ := call_eq_ok read
  have placed' := (Onward.of_ok first).placed placed
  exact callTail_row placed' below (operand_row placed below first) others
termination_by (room, 5, 0)

theorem callTail_row {limit room : Nat} {r s t : Reader} {callee e : Expr}
    (placed : s.Placed) (below : room ≤ limit) (row : Row limit r callee.outermost s)
    (read : callTail room callee s = .ok e t)
    : Row limit r e.outermost t := by
  have placed' := (Onward.advance s).placed placed
  cases callTail_read read with
  | done last => exact row
  | noArguments deeper opening closing others =>
      subst deeper
      have onward := (Onward.advance s).trans (.advance _)
      have called : Row limit r (Expr.call callee []).outermost s.advance.advance := by
        rw [Expr.outermost, outermostOfArgs, List.append_nil]
        exact row.behind onward
      exact callTail_row (onward.placed placed) (Nat.le_of_succ_le below) called others
  | @call less args _ _ u deeper opening inner closing others =>
      subst deeper
      have lower := Nat.le_of_succ_le below
      have onward := (Onward.of_ok inner).trans (.advance u)
      have called : Row limit r (Expr.call callee args).outermost u.advance := by
        rw [Expr.outermost]
        have row' := (arguments_row placed' lower inner).before (.advance s)
        exact row.append (row'.behind (.advance u))
      exact callTail_row (onward.placed placed') lower called others
termination_by (room, 0, 0)

theorem arguments_row {limit room : Nat} {r s : Reader} {args : List Expr}
    (placed : r.Placed) (below : room ≤ limit) (read : arguments room r = .ok args s)
    : Row limit r (outermostOfArgs args) s := by
  cases arguments_read placed read with
  | last first next =>
      rw [outermostOfArgs, outermostOfArgs, List.append_nil]
      exact expression_row placed below first
  | @more _ _ _ t first comma shorter others =>
      rw [outermostOfArgs]
      have placed' := ((Onward.of_ok first).trans (.advance t)).placed placed
      have row := arguments_row placed' below others
      exact (expression_row placed below first).append (row.before (.advance t))
termination_by (room, 1, r.rest.length)

theorem operand_row {limit room : Nat} {r s : Reader} {e : Expr} (placed : r.Placed)
    (below : room ≤ limit) (read : operand room r = .ok e s)
    : Row limit r e.outermost s := by
  have placed' := (Onward.advance r).placed placed
  cases operand_read read with
  | literal next =>
      rw [Expr.outermost]
      exact .nil (.advance r)
  | name next =>
      rw [Expr.outermost]
      exact .nil (.advance r)
  | paren opening inner closing =>
      exact ((expression_row placed' below inner).before (.advance r)).behind (.advance _)
  | function word head body =>
      rw [Expr.outermost]
      have onward : Onward r.advance _ := .of_ok head
      exact ((block_row (onward.placed placed') below body).before onward).before (.advance r)
termination_by (room, 4, 0)

end

/-- The outermost statements inside a statement are read while it is, with less room. -/
theorem statement_row (placed : r.Placed) (read : statement (room + 1) r = .ok stmt s)
    : Row room r stmt.outermost s := by
  have here := Nat.le_refl room
  have one := (Onward.advance r).placed placed
  have two := (Onward.advance _).placed one
  have onward := (Onward.advance r).trans (.advance _)
  cases statement_read read with
  | block body =>
      rw [Stmt.outermost]
      exact block_row placed here body
  | branch word opening test closing first last =>
      rw [Stmt.outermost]
      have condition := (expression_row two here test).before onward
      exact (condition.behind (.advance _)).append (.one here first)
  | branchElse word opening test closing first middle second =>
      rw [Stmt.outermost]
      have condition := (expression_row two here test).before onward
      have sides := (Row.one here first).append ((Row.one here second).before (.advance _))
      exact (condition.behind (.advance _)).append sides
  | retNothing word semicolon =>
      rw [Stmt.outermost]
      exact .nil onward
  | ret word result semicolon =>
      rw [Stmt.outermost]
      exact ((expression_row one here result).before (.advance r)).behind (.advance _)
  | declare word named semicolon =>
      rw [Stmt.outermost]
      exact .nil (onward.trans (.advance _))
  | define word named sign initial semicolon =>
      rw [Stmt.outermost]
      have three := (Onward.advance _).placed two
      have value := (expression_row three here initial).before (onward.trans (.advance _))
      exact value.behind (.advance _)
  | discard result semicolon =>
      rw [Stmt.outermost]
      exact (expression_row placed here result).behind (.advance _)

theorem exists_row (placed : r.Placed) (read : statement room r = .ok stmt s)
    : ∃ less < room, Row less r stmt.outermost s := by
  cases room with
  | zero => exact (not_statement_zero read).elim
  | succ less => exact ⟨less, Nat.lt_succ_self less, statement_row placed read⟩

-----------------------------------------------------------------------------------------
-- Statements at any depth
-----------------------------------------------------------------------------------------

/-- Somewhere between two places the statement was read, with no more than the given room. -/
inductive ReadWithin (limit : Nat) (r s : Reader) (stmt : Stmt) : Prop
  | intro {room : Nat} {t u : Reader} (below : room ≤ limit) (front : Onward r t)
      (read : statement room t = .ok stmt u) (back : Onward u s)

theorem Row.onward (row : Row limit r stmts s) : Onward r s := by
  induction row with
  | nil onward => exact onward
  | cons onward below read others ih => exact (onward.trans (.of_ok read)).trans ih

theorem Row.readWithin (row : Row limit r stmts s) : ∀ stmt ∈ stmts, ReadWithin limit r s stmt := by
  induction row with
  | nil onward => exact List.forall_mem_nil _
  | cons onward below read others ih =>
      rw [List.forall_mem_cons]
      refine ⟨⟨below, onward, read, others.onward⟩, fun stmt member => ?_⟩
      obtain ⟨below', front, read', back⟩ := ih stmt member
      exact ⟨below', (onward.trans (.of_ok read)).trans front, read', back⟩

/-- The statements inside a statement are read while it is, by induction on the room. -/
theorem readWithin_of_statement (placed : r.Placed) (read : statement room r = .ok stmt s)
    : ∀ part ∈ stmt.flatten, ReadWithin room r s part := by
  induction room using Nat.strongRecOn generalizing r s stmt with
  | ind room ih =>
  rw [Stmt.flatten_eq, List.forall_mem_cons]
  refine ⟨⟨Nat.le_refl room, .refl r, read, .refl s⟩, fun part member => ?_⟩
  obtain ⟨child, found, inside⟩ := mem_flattened.mp member
  obtain ⟨less, fewer, row⟩ := exists_row placed read
  obtain ⟨lower, front, read', back⟩ := row.readWithin child found
  have smaller := Nat.lt_of_le_of_lt lower fewer
  obtain ⟨lower', front', read'', back'⟩ :=
    ih _ smaller (front.placed placed) read' part inside
  exact ⟨Nat.le_trans lower' (Nat.le_of_lt smaller), front.trans front', read'',
    back'.trans back⟩

theorem Row.readWithin_flattened (placed : r.Placed) (row : Row limit r stmts s)
    : ∀ part ∈ flattened stmts, ReadWithin limit r s part := by
  intro part member
  obtain ⟨child, found, inside⟩ := mem_flattened.mp member
  obtain ⟨lower, front, read, back⟩ := row.readWithin child found
  obtain ⟨lower', front', read', back'⟩ :=
    readWithin_of_statement (front.placed placed) read part inside
  exact ⟨Nat.le_trans lower' lower, front.trans front', read', back'.trans back⟩

/-- A script is read statement by statement. -/
theorem parse_row (lexemes : List Lexeme)
    : ∃ last,
        Row nestingLimit (.start lexemes) (parse lexemes).1.statements last
        ∧ last.errors = (parse lexemes).2 :=
  ⟨_, statements_row (Reader.placed_start lexemes) (Nat.le_refl _) rfl, rfl⟩

-----------------------------------------------------------------------------------------
-- Spans of statements
-----------------------------------------------------------------------------------------

theorem span_of_statement (read : statement room r = .ok stmt s)
    : stmt.span = r.here.merge s.previous := by
  cases room with
  | zero => exact (not_statement_zero read).elim
  | succ room => cases statement_read read <;> rfl

/-- A statement begins where its first token does and ends where its last token does. -/
theorem span_of_ordered (ordered : r.Ordered) (read : statement room r = .ok stmt s)
    : stmt.span = ⟨r.here.start, s.previous.stop⟩ :=
  (span_of_statement read).trans (ordered.merge_eq (.of_ok read) (statement_shorter read))

/-- Statements that are read between two places lie between these. -/
theorem ReadWithin.span_within (ordered : r.Ordered) (within : ReadWithin limit r s stmt)
    : stmt.span.Within ⟨r.here.start, s.previous.stop⟩ := by
  obtain ⟨below, front, read, back⟩ := within
  have ordered' := ordered.onward front
  rw [span_of_ordered ordered' read]
  exact ⟨ordered.here_le front, (ordered'.onward (.of_ok read)).previous_stop_le back⟩

/-- Statements that are read one behind the other have spans that come so, by induction on them.
-/
theorem Row.rows (ordered : r.Ordered) (row : Row limit r stmts s)
    : Span.Rows (stmts.map Stmt.span) := by
  induction row with
  | nil onward => exact ⟨List.forall_mem_nil _, .nil⟩
  | @cons room r s t u stmt stmts onward below read others ih =>
      have first := ordered.onward onward
      have behind : u.Ordered := first.onward (.of_ok read)
      have rows := ih behind
      have span := span_of_ordered first read
      have forward : t.here.start ≤ u.here.start := first.here_le (.of_ok read)
      constructor
      · refine List.forall_mem_cons.mpr ⟨?_, rows.forward⟩
        rw [span]
        have starts := (first.here_le_previous (.of_ok read) (statement_shorter read)).1
        exact Nat.le_trans starts (behind.forward u.previous List.mem_cons_self)
      · refine .cons ?_ rows.apart
        rw [List.forall_mem_map, span]
        intro later member
        have within := (others.readWithin later member).span_within behind
        exact Nat.le_trans behind.previous_le within.1

/-- The spans of statements lie as the statements do: those of the statements of a list, and of
the outermost statements inside a statement, one behind the other, and those of all statements
inside a statement in its own.
-/
structure SpansNested (script : Script) : Prop where
  topmost : Span.Rows (script.statements.map Stmt.span)
  siblings
    : ∀ stmt ∈ flattened script.statements, Span.Rows (stmt.outermost.map Stmt.span)
  inside
    : ∀ stmt ∈ flattened script.statements, ∀ part ∈ stmt.flatten, part.span.Within stmt.span

theorem spansNested_parse {lexemes : List Lexeme}
    (rows : Span.Rows (lexemes.map Lexeme.span))
    : SpansNested (parse lexemes).1 := by
  obtain ⟨last, row, -⟩ := parse_row lexemes
  have ordered := Reader.ordered_start rows
  have placed := Reader.placed_start lexemes
  refine ⟨row.rows ordered, fun stmt member => ?_, fun stmt member part inside => ?_⟩
  all_goals
    obtain ⟨-, front, read, -⟩ := row.readWithin_flattened placed stmt member
    have ordered' := ordered.onward front
    have placed' := front.placed placed
  · obtain ⟨less, -, inside⟩ := exists_row placed' read
    exact inside.rows ordered'
  · rw [span_of_ordered ordered' read]
    exact (readWithin_of_statement placed' read part inside).span_within ordered'

end Parse

end StackScript
