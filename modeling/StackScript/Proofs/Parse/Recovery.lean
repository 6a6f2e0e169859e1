import Mathlib.Data.List.Forall2
import StackScript.Proofs.Parse.Acceptance
import StackScript.Proofs.Parse.Containment
import StackScript.Proofs.Parse.Replay

/-! Recovery from errors is local. A script of statements, blocks and broken statements is read
as the tree of its statements and blocks, and each broken statement brings one error, as long
as reading does not give up.
-/

namespace StackScript

open Parse

-----------------------------------------------------------------------------------------
-- Statements and broken statements
-----------------------------------------------------------------------------------------

/-- Statements, broken statements and blocks of both, one after another. -/
inductive Items
  | nil
  | statement (read : List Lexeme) (others : Items)
  | broken (read : List Lexeme) (semicolon : Span) (others : Items)
  | block (opening : Span) (inner : Items) (closing : Span) (others : Items)

theorem covering_braces (opening closing : Span) (inner : List Lexeme)
    : covering (⟨.mark .leftBrace, opening⟩ :: (inner ++ [⟨.mark .rightBrace, closing⟩]))
      = opening.merge closing := by
  rw [covering, List.head?_cons, ← List.cons_append, List.getLast?_concat]

/-- A script of one statement derives it. -/
theorem Parse.derived_alone {read : List Lexeme} {stmt : Stmt}
    (alone : parse read = (⟨[stmt]⟩, []))
    : Grammar.Statement read stmt ∧ stmt.DistinctParams := by
  obtain ⟨derived, distinct⟩ := parse_sound (congrArg Prod.snd alone)
  rw [alone] at derived distinct
  rw [DistinctParamsIn] at distinct
  cases derived with
  | cons first none =>
      cases none
      rw [List.append_nil]
      exact ⟨first, distinct.1⟩

namespace Items

/-- The tokens of all items. -/
def lexemes : Items → List Lexeme
  | nil => []
  | statement read others => read ++ others.lexemes
  | broken read semicolon others => read ++ ⟨.mark .semicolon, semicolon⟩ :: others.lexemes
  | block opening inner closing others =>
      ⟨.mark .leftBrace, opening⟩
        :: (inner.lexemes ++ ⟨.mark .rightBrace, closing⟩ :: others.lexemes)

/-- The items without the broken statements. -/
def repaired : Items → Items
  | nil => nil
  | statement read others => statement read others.repaired
  | broken _ _ others => others.repaired
  | block opening inner closing others => block opening inner.repaired closing others.repaired

/-- The trees of the statements and blocks. -/
def trees : Items → List Stmt
  | nil => []
  | statement read others => (parse read).1.statements ++ others.trees
  | broken _ _ others => others.trees
  | block opening inner closing others =>
      .block (opening.merge closing) inner.trees :: others.trees

/-- The first and the last place of each broken statement, behind a number of other tokens. -/
def spots (start : Nat) : Items → List (Nat × Nat)
  | nil => []
  | statement read others => others.spots (start + read.length)
  | broken read _ others =>
      (start, start + read.length) :: others.spots (start + read.length + 1)
  | block _ inner _ others =>
      inner.spots (start + 1) ++ others.spots (start + inner.lexemes.length + 2)

/-- The number of broken statements, at any depth. -/
def brokenCount : Items → Nat
  | nil => 0
  | statement _ others => others.brokenCount
  | broken _ _ others => others.brokenCount + 1
  | block _ inner _ others => inner.brokenCount + others.brokenCount

/-- Each statement is read without errors when it stands alone. Each broken statement is not,
has no braces and no semicolon but its last token, and does not begin with `else`.
-/
def Valid : Items → Prop
  | nil => True
  | statement read others => (∃ stmt, parse read = (⟨[stmt]⟩, [])) ∧ others.Valid
  | broken read semicolon others =>
      (∀ lexeme ∈ read, lexeme.token.isInner = true)
        ∧ upcoming read ≠ some (.keyword .elseWord)
        ∧ (parse (read ++ [⟨.mark .semicolon, semicolon⟩])).2 ≠ []
        ∧ others.Valid
  | block _ inner _ others => inner.Valid ∧ others.Valid

theorem length_spots (items : Items) (start : Nat)
    : (items.spots start).length = items.brokenCount := by
  induction items generalizing start with
  | nil => rfl
  | statement read others ih => exact ih _
  | broken read semicolon others ih => exact congrArg (· + 1) (ih _)
  | block opening inner closing others inside ih =>
      rw [spots, List.length_append, inside, ih, brokenCount]

/-- The statements and blocks that are left without the broken statements derive their trees. -/
theorem derived {items : Items} (valid : items.Valid)
    : Grammar.Statements items.repaired.lexemes items.trees ∧ DistinctParamsIn items.trees := by
  induction items with
  | nil => exact ⟨.nil, by rw [trees, DistinctParamsIn]; trivial⟩
  | statement read others ih =>
      obtain ⟨⟨stmt, alone⟩, others⟩ := valid
      obtain ⟨first, distinct⟩ := derived_alone alone
      rw [trees, alone, List.singleton_append, DistinctParamsIn]
      exact ⟨.cons first (ih others).1, distinct, (ih others).2⟩
  | broken read semicolon others ih => exact ih valid.2.2.2
  | block opening inner closing others inside ih =>
      obtain ⟨body, distinct⟩ := inside valid.1
      obtain ⟨behind, distinct'⟩ := ih valid.2
      have whole := Grammar.Statement.block (.braces (a := opening) (b := closing) body)
      rw [covering_braces] at whole
      rw [trees, DistinctParamsIn, Stmt.DistinctParams]
      refine ⟨?_, distinct, distinct'⟩
      simpa only [repaired, lexemes, List.cons_append, List.append_assoc, List.nil_append]
        using Grammar.Statements.cons whole behind

/-- No `else` stands where an item begins. -/
theorem upcoming_ne_else {items : Items} {nested : Bool} {rest : List Lexeme}
    (valid : items.Valid) (ends : Ends nested rest)
    : upcoming (items.lexemes ++ rest) ≠ some (.keyword .elseWord) := by
  cases items with
  | nil => exact Parse.upcoming_ne_else .nil ends
  | statement read others =>
      obtain ⟨⟨stmt, alone⟩, -⟩ := valid
      obtain ⟨lexeme, tail, rfl, -, other⟩ := (derived_alone alone).1.opens
      exact fun same => other (Option.some.inj same)
  | broken read semicolon others =>
      cases read with
      | nil => exact nofun
      | cons first read => exact valid.2.1
  | block opening inner closing others => exact nofun

end Items

namespace Parse

open Reader (Onward)
open StackScript.Parser

variable {room : Nat} {nested : Bool} {r s t r' s' : Reader} {read rest : List Lexeme}

-----------------------------------------------------------------------------------------
-- Rounds of a list of statements
-----------------------------------------------------------------------------------------

/-- A list of statements that is read without errors has ended, or begins with a statement that
is read without errors.
-/
theorem statements_clean {stmts : List Stmt} (placed : r.Placed) (clean : s.errors = [])
    (read : statements room nested r = (stmts, s))
    : (Ended nested r ∧ stmts = [] ∧ s = r)
      ∨ ∃ first others t,
          stmts = first :: others
          ∧ ¬Ended nested r
          ∧ statement room r = .ok first t
          ∧ t.errors = []
          ∧ statements room nested t = (others, s) := by
  cases statements_read placed read with
  | ended here => exact .inl ⟨here, rfl, rfl⟩
  | tooMany inside many =>
      rw [clean_before (Reader.Forward.skip (R := Onward) _ r) clean] at many
      cases many
  | @statement first others _ t inside few inner shorter behind =>
      have onward := onward_statements room nested t
      rw [behind] at onward
      exact .inr ⟨first, others, t, rfl, inside, inner, clean_before onward clean, behind⟩
  | error inside few wrong shorter behind =>
      have onward := onward_statements room nested r
      rw [read] at onward
      have same := clean.trans (clean_before onward clean).symm
      exact absurd same (errors_ne_of_error wrong behind)

theorem statement_of_brace {stmt : Stmt} (opening : r.next? = some (.mark .leftBrace))
    (read : statement room r = .ok stmt s)
    : ∃ less body,
        room = less + 1
        ∧ stmt = .block (r.here.merge s.previous) body
        ∧ block less r = .ok body s := by
  cases room with
  | zero => exact (not_statement_zero read).elim
  | succ less =>
      rw [statement, here_bind, peek?_bind, opening] at read
      simp only [bind_ok_iff, spanFrom_ok_iff, pure_ok_iff] at read
      obtain ⟨body, _, inner, _, _, ⟨rfl, rfl⟩, rfl, rfl⟩ := read
      exact ⟨less, body, rfl, rfl, inner⟩

-----------------------------------------------------------------------------------------
-- One item
-----------------------------------------------------------------------------------------

/-- A script of one statement is that statement, read up to its end. -/
theorem statement_of_parse {stmt : Stmt} (alone : parse read = (⟨[stmt]⟩, []))
    : ∃ s,
        statement nestingLimit (Reader.start read) = .ok stmt s
        ∧ s.rest = []
        ∧ s.errors = [] := by
  unfold parse at alone
  generalize done : statements nestingLimit false (Reader.start read) = outcome at alone
  obtain ⟨stmts, last⟩ := outcome
  simp only [Prod.mk.injEq, Script.mk.injEq] at alone
  obtain ⟨rfl, clean⟩ := alone
  rcases statements_clean (Reader.placed_start read) clean done with
    ⟨-, none, -⟩ | ⟨first, others, t, all, -, inner, clean', behind⟩
  · cases none
  · cases all
    have placed := (Onward.of_ok inner).placed (Reader.placed_start read)
    rcases statements_clean placed clean behind with ⟨here | here, -, -⟩ | ⟨_, _, _, more, -⟩
    · exact ⟨t, inner, here, clean'⟩
    · cases here.1
    · cases more

theorem parse_of_statement {stmt : Stmt}
    (inner : statement nestingLimit (Reader.start read) = .ok stmt s) (none : s.rest = [])
    : parse read = (⟨[stmt]⟩, s.errors) := by
  have inside : ¬Ended false (Reader.start read) := by
    rintro (empty | ⟨block, -⟩)
    · have shorter := statement_shorter inner
      rw [empty] at shorter
      exact Nat.not_lt_zero _ shorter
    · cases block
  rw [parse, statements_of_statement (Reader.placed_start read) inside errorLimit_pos inner,
    statements_of_ended (.inl none)]

/-- A statement that is read when it stands alone ends at the same token elsewhere. -/
theorem statement_alone {stmt first : Stmt} (alone : parse read = (⟨[stmt]⟩, []))
    (enough : room ≤ nestingLimit) (before : r.Before (read ++ rest))
    (other : upcoming rest ≠ some (.keyword .elseWord))
    (inner : statement room r = .ok first t) (clean : t.errors = [])
    : t.rest = rest := by
  obtain ⟨s, whole, none, quiet⟩ := statement_of_parse alone
  -- It is read alone and here, both with all the room there is, and then with less room here.
  have start : Beside [] rest [] (Reader.start read) r :=
    ⟨⟨read, (List.append_nil read).symm, before.rest⟩, Reader.placed_start read, before.placed,
      before.clean, errorLimit_pos⟩
  obtain ⟨u, there, behind⟩ :=
    statement_beside (Nat.le_refl _) start whole ⟨quiet, Nat.zero_le _⟩ (.inr other)
  have same : Beside [] [] [] r r :=
    ⟨⟨r.rest, (List.append_nil _).symm, (List.append_nil _).symm⟩, before.placed,
      before.placed, before.clean, errorLimit_pos⟩
  obtain ⟨u', again, behind'⟩ :=
    statement_beside enough same inner ⟨clean.trans before.clean.symm, Nat.zero_le _⟩
      (.inr nofun)
  cases there.symm.trans again
  obtain ⟨left, ahead, ahead'⟩ := behind'.ahead
  exact (ahead.trans ahead'.symm).trans (behind.rest_eq none)

/-- A broken statement is an error elsewhere, too, which stops reading before its semicolon. -/
theorem statement_broken {semicolon : Span}
    (plain : ∀ lexeme ∈ read, lexeme.token.isInner = true)
    (wrong : (parse (read ++ [⟨.mark .semicolon, semicolon⟩])).2 ≠ [])
    (enough : room ≤ nestingLimit) (placed : r.Placed)
    (left : r.rest = read ++ ⟨.mark .semicolon, semicolon⟩ :: rest)
    (other : upcoming rest ≠ some (.keyword .elseWord))
    : ∃ error s,
        statement room r = .error error s
        ∧ Inside rest r.errors s
        ∧ error.position = s.position := by
  have inside : Inside rest r.errors r := ⟨⟨read, semicolon, left, plain⟩, rfl⟩
  have ends := settles_statement room inside other
  cases inner : statement room r with
  | error error s =>
      rw [inner] at ends
      exact ⟨error, s, rfl, ends⟩
  | ok stmt s =>
      -- It would be read alone, too.
      rw [inner] at ends
      let whole := read ++ [⟨.mark .semicolon, semicolon⟩]
      have beside : Beside rest [] [] r (Reader.start whole) :=
        ⟨⟨whole, left.trans (List.append_cons ..), (List.append_nil whole).symm⟩, placed,
          Reader.placed_start whole, rfl, errorLimit_pos⟩
      obtain ⟨s', alone, behind⟩ := statement_beside enough beside inner
        ⟨ends.errors, Nat.le_of_eq (congrArg List.length ends.rest.symm)⟩ (.inr nofun)
      refine absurd ?_ wrong
      rw [parse_of_statement alone (behind.rest_eq ends.rest)]
      exact behind.errors

-----------------------------------------------------------------------------------------
-- All items
-----------------------------------------------------------------------------------------

/-- An error was noticed between two places. -/
def NoticedIn (spot : Nat × Nat) (error : SyntaxError) : Prop :=
  spot.1 ≤ error.position ∧ error.position ≤ spot.2

/-- From one place to another the given items were passed over up to the given tokens, with one
error for each broken statement, in order.
-/
structure Recovered (items : Items) (rest : List Lexeme) (r s : Reader) : Prop where
  rest : s.rest = rest
  errors
    : ∃ errors,
        s.errors = r.errors ++ errors
        ∧ List.Forall₂ NoticedIn (items.spots r.position) errors

namespace Recovered

variable {items inner others : Items}

theorem length_errors (recovered : Recovered items rest r s)
    : s.errors.length = r.errors.length + items.brokenCount := by
  obtain ⟨errors, noted, spots⟩ := recovered.errors
  rw [noted, List.length_append, ← spots.length_eq, items.length_spots]

theorem statement (behind : Recovered others rest t s) (errors : t.errors = r.errors)
    (position : t.position = r.position + read.length)
    : Recovered (.statement read others) rest r s := by
  obtain ⟨rest, noted⟩ := behind
  rw [errors, position] at noted
  exact ⟨rest, noted⟩

theorem broken {semicolon : Span} {error : SyntaxError} (behind : Recovered others rest t s)
    (errors : t.errors = r.errors ++ [error])
    (position : t.position = r.position + read.length + 1)
    (here : NoticedIn (r.position, r.position + read.length) error)
    : Recovered (.broken read semicolon others) rest r s := by
  obtain ⟨rest, noted, same, spots⟩ := behind
  rw [position] at spots
  refine ⟨rest, error :: noted, ?_, .cons here spots⟩
  rw [same, errors, List.append_assoc, List.singleton_append]

theorem block {opening closing : Span} {u v : Reader} {more : List Lexeme}
    (inside : Recovered inner more t u) (behind : Recovered others rest v s)
    (errors : t.errors = r.errors) (position : t.position = r.position + 1)
    (errors' : v.errors = u.errors)
    (position' : v.position = r.position + inner.lexemes.length + 2)
    : Recovered (.block opening inner closing others) rest r s := by
  obtain ⟨-, noted, same, spots⟩ := inside
  obtain ⟨rest, noted', same', spots'⟩ := behind
  rw [position] at spots
  rw [position'] at spots'
  refine ⟨rest, noted ++ noted', ?_, List.rel_append spots spots'⟩
  rw [same', errors', same, errors, List.append_assoc]

end Recovered

/-- One place stands before the items without the broken statements, another before all of
them, where reading will not give up.
-/
structure Facing (items : Items) (x y : List Lexeme) (r r' : Reader) : Prop where
  before : r.Before (items.repaired.lexemes ++ x)
  placed : r'.Placed
  rest : r'.rest = items.lexemes ++ y
  few : r'.errors.length + items.brokenCount < errorLimit

/-- Wherever the items without the broken statements are read without errors, all of them are
read as the same statements, with one error for each broken one.
-/
def Recovers (items : Items) : Prop :=
  ∀ {room nested x y r r' s stmts},
    room ≤ nestingLimit
    → Ends nested x
    → Ends nested y
    → Facing items x y r r'
    → statements room nested r = (stmts, s)
    → s.errors = []
    → s.rest = x
      ∧ ∃ s', statements room nested r' = (stmts, s') ∧ Recovered items y r' s'

theorem recovers_nil : Recovers .nil := by
  intro room nested x y r r' s stmts enough ends ends' facing read clean
  rw [statements_of_ended (ended_of_rest facing.before.rest ends)] at read
  cases read
  exact ⟨facing.before.rest, r', statements_of_ended (ended_of_rest facing.rest ends'),
    facing.rest, [], (List.append_nil _).symm, .nil⟩

/-- A statement is read at both places. -/
theorem recovers_statement {others : Items} (valid : (Items.statement read others).Valid)
    (ih : Recovers others)
    : Recovers (.statement read others) := by
  intro room nested x y r r' s stmts enough ends ends' ⟨before, placed', left', few⟩ done clean
  obtain ⟨⟨stmt, alone⟩, valid⟩ := valid
  obtain ⟨lexeme, tail, some, notBrace, -⟩ := (derived_alone alone).1.opens
  have left : r.rest = read ++ (others.repaired.lexemes ++ x) :=
    before.rest.trans (List.append_assoc ..)
  replace left' : r'.rest = read ++ (others.lexemes ++ y) :=
    left'.trans (List.append_assoc ..)
  have inside := not_ended_of_rest nested (left.trans (by rw [some]; rfl)) notBrace
  have inside' := not_ended_of_rest nested (left'.trans (by rw [some]; rfl)) notBrace
  rcases statements_clean before.placed clean done with
    ⟨here, -, -⟩ | ⟨first, more, t, rfl, -, inner, quiet, behind⟩
  · exact absurd here inside
  have onward : Onward r t := .of_ok inner
  have ahead : t.rest = others.repaired.lexemes ++ x :=
    statement_alone alone enough ⟨left, before.clean, before.placed⟩
      (upcoming_ne_else (Items.derived valid).1 ends) inner quiet
  have beside : Beside _ _ r'.errors r r' :=
    ⟨⟨read, left, left'⟩, before.placed, placed', rfl,
      Nat.lt_of_le_of_lt (Nat.le_add_right ..) few⟩
  obtain ⟨t', inner', beside'⟩ := statement_beside (Nat.le_refl room) beside inner
    ⟨quiet.trans before.clean.symm, Nat.le_of_eq (congrArg List.length ahead.symm)⟩
    (.inr (Items.upcoming_ne_else valid ends'))
  have ahead' := beside'.rest_eq ahead
  have onward' : Onward r' t' := .of_ok inner'
  have facing : Facing others x y t t' :=
    ⟨⟨ahead, quiet, onward.placed before.placed⟩, onward'.placed placed', ahead',
      beside'.errors ▸ few⟩
  obtain ⟨last, s', done', recovered⟩ := ih enough ends ends' facing behind clean
  refine ⟨last, s', ?_, recovered.statement beside'.errors ?_⟩
  · rw [statements_of_statement placed' inside' beside.few inner', done']
  · exact position_of_rest onward' (left'.trans (by rw [ahead']))

/-- A broken statement is passed over at the place where it stands. -/
theorem recovers_broken {semicolon : Span} {others : Items}
    (valid : (Items.broken read semicolon others).Valid) (ih : Recovers others)
    : Recovers (.broken read semicolon others) := by
  intro room nested x y r r' s stmts enough ends ends' ⟨before, placed', left', few⟩ done clean
  obtain ⟨plain, -, wrong, valid⟩ := valid
  rw [Items.brokenCount] at few
  replace left' : r'.rest = read ++ ⟨.mark .semicolon, semicolon⟩ :: (others.lexemes ++ y) :=
    left'.trans (List.append_assoc ..)
  have inside : Inside (others.lexemes ++ y) r'.errors r' :=
    ⟨⟨read, semicolon, left', plain⟩, rfl⟩
  obtain ⟨error, found, failed, stopped, position⟩ :=
    statement_broken plain wrong enough placed' left' (Items.upcoming_ne_else valid ends')
  have behind := (stopped.report error).recover nested
  have onward : Onward r' found := .of_error failed
  have onward' := (onward.trans (.report found error)).trans (Reader.Forward.recover nested _)
  have facing : Facing others x y r ((found.report error).recover nested) := by
    refine ⟨before, onward'.placed placed', behind.rest, ?_⟩
    rw [behind.errors, List.length_append, List.length_singleton]
    omega
  obtain ⟨last, s', done', recovered⟩ := ih enough ends ends' facing done clean
  refine ⟨last, s', ?_, recovered.broken behind.errors ?_ ?_⟩
  · rw [statements_of_error placed' inside.not_ended (by omega) failed, done']
  · have passed := position_of_rest onward'
      (left'.trans ((List.append_cons ..).trans (by rw [behind.rest])))
    rw [passed, List.length_append, List.length_singleton, Nat.add_assoc]
  · rw [NoticedIn, position]
    exact stopped.position_le onward left'

/-- A block that is read without the broken statements in it is read with them, too. -/
theorem block_recovered {opening closing : Span} {inner : Items} {x y : List Lexeme}
    {stmt : Stmt} (ih : Recovers inner) (enough : room ≤ nestingLimit)
    (before : r.Before (⟨.mark .leftBrace, opening⟩
      :: (inner.repaired.lexemes ++ ⟨.mark .rightBrace, closing⟩ :: x)))
    (placed' : r'.Placed)
    (left' : r'.rest = ⟨.mark .leftBrace, opening⟩
      :: (inner.lexemes ++ ⟨.mark .rightBrace, closing⟩ :: y))
    (few : r'.errors.length + inner.brokenCount < errorLimit)
    (done : statement room r = .ok stmt t) (clean : t.errors = [])
    : t.rest = x
      ∧ ∃ u',
          statement room r' = .ok stmt u'.advance
          ∧ Recovered inner (⟨.mark .rightBrace, closing⟩ :: y) r'.advance u' := by
  have left := before.rest
  obtain ⟨less, body, rfl, rfl, read⟩ := statement_of_brace (Reader.next?_of_rest left) done
  obtain ⟨u, -, within, closed, rfl⟩ := block_eq_ok read
  rw [Reader.errors_advance] at clean
  have facing : Facing inner (⟨.mark .rightBrace, closing⟩ :: x)
      (⟨.mark .rightBrace, closing⟩ :: y) r.advance r'.advance :=
    ⟨before.step.2.2, (Onward.advance r').placed placed', rest_advance_of_rest left',
      by rwa [Reader.errors_advance]⟩
  obtain ⟨last, u', within', found⟩ := ih (Nat.le_of_succ_le enough) (.inr ⟨rfl, rfl⟩)
    (.inr ⟨rfl, rfl⟩) facing within clean
  refine ⟨rest_advance_of_rest last, u', ?_, found⟩
  have read' := (StatementRead.block (block_of_statements (Reader.next?_of_rest left') within'
    (Reader.next?_of_rest found.rest))).eq_ok
  rw [read', here_of_rest left, here_of_rest left', previous_advance_of_rest last,
    previous_advance_of_rest found.rest]

/-- The braces of a block are passed over at both places, and the items in it are read. -/
theorem recovers_block {opening closing : Span} {inner others : Items}
    (ih : Recovers inner) (ih' : Recovers others)
    : Recovers (.block opening inner closing others) := by
  intro room nested x y r r' s stmts enough ends ends' ⟨before, placed', left', few⟩ done clean
  rw [Items.brokenCount] at few
  rw [Items.repaired, Items.lexemes, List.cons_append, List.append_assoc,
    List.cons_append] at before
  rw [Items.lexemes, List.cons_append, List.append_assoc, List.cons_append] at left'
  rcases statements_clean before.placed clean done with
    ⟨here, -, -⟩ | ⟨first, more, t, rfl, -, read, quiet, behind⟩
  · exact absurd here (not_ended_of_rest nested before.rest nofun)
  obtain ⟨last, u', read', found⟩ :=
    block_recovered ih enough before placed' left' (by omega) read quiet
  have onward : Onward r t := .of_ok read
  have onward' : Onward r' u'.advance := .of_ok read'
  have last' := rest_advance_of_rest found.rest
  have facing : Facing others x y t u'.advance := by
    refine ⟨⟨last, quiet, onward.placed before.placed⟩, onward'.placed placed', last', ?_⟩
    rw [Reader.errors_advance, found.length_errors, Reader.errors_advance]
    omega
  obtain ⟨final, s', done', found'⟩ := ih' enough ends ends' facing behind clean
  have ahead : r'.rest = [⟨.mark .leftBrace, opening⟩] ++ r'.advance.rest := by
    rw [rest_advance_of_rest left', left']
    rfl
  have whole : r'.rest = ⟨.mark .leftBrace, opening⟩
      :: (inner.lexemes ++ [⟨.mark .rightBrace, closing⟩]) ++ u'.advance.rest := by
    rw [last', left', List.cons_append, List.append_assoc]
    rfl
  refine ⟨final, s', ?_, found.block found' (Reader.errors_advance r')
    (position_of_rest (.advance r') ahead) (Reader.errors_advance u') ?_⟩
  · rw [statements_of_statement placed' (not_ended_of_rest nested left' nofun) (by omega) read',
      done']
  · rw [position_of_rest onward' whole, List.length_cons, List.length_append,
      List.length_singleton]
    rfl

theorem recovers {items : Items} (valid : items.Valid) : Recovers items := by
  induction items with
  | nil => exact recovers_nil
  | statement read others ih => exact recovers_statement valid (ih valid.2)
  | broken read semicolon others ih => exact recovers_broken valid (ih valid.2.2.2)
  | block opening inner closing others inside ih =>
      exact recovers_block (inside valid.1) (ih valid.2)

/-- Recovery from errors is local: statements and blocks with fewer than twenty broken statements
between them, at any depth, are read as the tree that they have without the broken ones, and
each broken statement brings one error, in order, which is noticed at one of its own tokens. No
more is asked of the nesting than that it is not too deep without the broken statements.
-/
theorem parse_recovers {items : Items} (valid : items.Valid)
    (few : items.brokenCount < errorLimit)
    (shallow : ∀ error ∈ (parse items.repaired.lexemes).2, error.cause ≠ .tooDeep)
    : parse items.repaired.lexemes = (⟨items.trees⟩, [])
      ∧ ∃ errors,
          parse items.lexemes = (⟨items.trees⟩, errors)
          ∧ errors.length = items.brokenCount
          ∧ List.Forall₂ NoticedIn (items.spots 0) errors := by
  have repaired : parse items.repaired.lexemes = (⟨items.trees⟩, []) := by
    obtain ⟨derived, distinct⟩ := Items.derived valid
    have complete : parse items.repaired.lexemes = (⟨items.trees⟩, [])
        ∨ TooDeep (parse items.repaired.lexemes).2 := parse_complete derived distinct
    rcases complete with read | ⟨error, more, errors, cause⟩
    · exact read
    · exact absurd cause (shallow error (errors ▸ List.mem_cons_self))
  refine ⟨repaired, ?_⟩
  have facing : Facing items [] [] (.start items.repaired.lexemes) (.start items.lexemes) :=
    ⟨⟨(List.append_nil _).symm, rfl, Reader.placed_start _⟩, Reader.placed_start _,
      (List.append_nil _).symm, (Nat.zero_add _).symm ▸ few⟩
  unfold parse at repaired
  generalize done : statements nestingLimit false (.start items.repaired.lexemes) = outcome
    at repaired
  obtain ⟨stmts, last⟩ := outcome
  simp only [Prod.mk.injEq, Script.mk.injEq] at repaired
  obtain ⟨rfl, clean⟩ := repaired
  obtain ⟨-, s', read, recovered⟩ :=
    recovers valid (Nat.le_refl _) (.inl rfl) (.inl rfl) facing done clean
  obtain ⟨errors, noted, spots⟩ := recovered.errors
  refine ⟨errors, ?_, ?_, spots⟩
  · simp only [parse, read, noted]
    rfl
  · rw [← spots.length_eq, Reader.start, items.length_spots]

/-- A token of one character. -/
def tokenAt (place : Nat) (token : Token) : Lexeme :=
  ⟨token, ⟨place, place + 1⟩⟩

/-- The items of `x=1; (y; {let; y;} z;`: one broken statement outside the block, one in it. -/
def scattered : Items :=
  .statement
    [tokenAt 0 (.name "x"), tokenAt 1 (.mark .assign), tokenAt 2 (.number "1"),
      tokenAt 3 (.mark .semicolon)]
    (.broken [tokenAt 5 (.mark .leftParen), tokenAt 6 (.name "y")] ⟨7, 8⟩
      (.block ⟨9, 10⟩
        (.broken [⟨.keyword .letWord, ⟨10, 13⟩⟩] ⟨13, 14⟩
          (.statement [tokenAt 15 (.name "y"), tokenAt 16 (.mark .semicolon)] .nil))
        ⟨17, 18⟩
        (.statement [tokenAt 19 (.name "z"), tokenAt 20 (.mark .semicolon)] .nil)))

theorem valid_scattered : scattered.Valid := by
  refine ⟨⟨.discard ⟨0, 4⟩ (.assign "x" .set (.literal (.number "1"))), ?_⟩, ?_, by decide, ?_,
    ⟨?_, by decide, ?_, ⟨.discard ⟨15, 17⟩ (.name "y"), ?_⟩, trivial⟩,
    ⟨.discard ⟨19, 21⟩ (.name "z"), ?_⟩, trivial⟩
  · cbv
  · simp [tokenAt, Token.isInner]
  · cbv
    exact List.cons_ne_nil _ _
  · simp [Token.isInner]
  · cbv
    exact List.cons_ne_nil _ _
  · cbv
  · cbv

/-- Both broken statements are noticed, and the block keeps its statement. -/
theorem parse_recovers_scattered
    : scattered.Valid
      ∧ scattered.brokenCount < errorLimit
      ∧ (∀ error ∈ (parse scattered.repaired.lexemes).2, error.cause ≠ .tooDeep)
      ∧ ∃ errors,
          parse scattered.lexemes = (⟨scattered.trees⟩, errors)
          ∧ errors.length = 2
          ∧ List.Forall₂ NoticedIn [(4, 6), (8, 9)] errors := by
  have count : scattered.brokenCount = 2 := by decide
  have few : scattered.brokenCount < errorLimit := by rw [count]; decide
  have clean : (parse scattered.repaired.lexemes).2 = [] := by cbv
  have shallow : ∀ error ∈ (parse scattered.repaired.lexemes).2, error.cause ≠ .tooDeep := by
    rw [clean]
    exact fun error none => absurd none List.not_mem_nil
  have places : scattered.spots 0 = [(4, 6), (8, 9)] := by decide
  obtain ⟨-, errors, read, length, spots⟩ := parse_recovers valid_scattered few shallow
  rw [count] at length
  rw [places] at spots
  exact ⟨valid_scattered, few, shallow, errors, read, length, spots⟩

end Parse

end StackScript
