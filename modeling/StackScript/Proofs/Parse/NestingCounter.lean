import Mathlib.Algebra.Order.BigOperators.Group.List
import Mathlib.Algebra.Order.Group.Nat
import StackScript.Proofs.Parse.Counting

/-! The counter of the nesting is balanced. Where the room is what the counter leaves of the limit,
reading that tests the counter comes to what reading that looks at the room comes to: the same
result or the same error, at the same place. The recursion is never cut off, each phrase that is
read leaves the counter as it was, and no value of the counter is above the limit.
-/

namespace StackScript

variable {α β : Type} {most room deep : Nat}

namespace Gauge

/-- No value of the counter, now or earlier, is above the given one. -/
structure Within (most : Nat) (g : Gauge) : Prop where
  depth : g.depth ≤ most
  history : ∀ value ∈ g.history, value ≤ most

theorem Within.count {g : Gauge} {value : Nat} (within : g.Within most) (low : value ≤ most)
    : (g.count value).Within most := by
  refine ⟨low, fun other found => ?_⟩
  rcases List.mem_append.mp found with earlier | now
  · exact within.history other earlier
  · rwa [List.mem_singleton.mp now]

theorem Within.place {g : Gauge} (within : g.Within most) (r : Reader)
    : (g.place r).Within most :=
  ⟨within.depth, within.history⟩

/-- A gauge at some nesting, which leaves the given room. -/
structure Ready (most room deep : Nat) (g : Gauge) : Prop where
  limit : nestingLimit ≤ most
  within : g.Within most
  placed : g.reader.Placed
  depth : g.depth = deep
  room : room = nestingLimit - deep

theorem Ready.behind {g g' : Gauge} (ready : Ready most room deep g)
    (onward : Reader.Onward g.reader g'.reader) (within : g'.Within most)
    (same : g'.depth = deep)
    : Ready most room deep g' :=
  ⟨ready.limit, within, onward.placed ready.placed, same, ready.room⟩

theorem Ready.place {g : Gauge} {r : Reader} (ready : Ready most room deep g)
    (onward : Reader.Onward g.reader r)
    : Ready most room deep (g.place r) :=
  ready.behind onward (ready.within.place r) ready.depth

/-- What the counter leaves of the limit is its room, under some bound. -/
theorem exists_ready {g : Gauge} (placed : g.reader.Placed)
    : ∃ most, Ready most (nestingLimit - g.depth) g.depth g := by
  refine ⟨nestingLimit + g.depth + g.history.sum, by omega, ⟨by omega, fun value found => ?_⟩,
    placed, rfl, rfl⟩
  have := List.le_sum_of_mem found
  omega

theorem Within.ready {g : Gauge} (within : g.Within nestingLimit) (placed : g.reader.Placed)
    : Ready nestingLimit (nestingLimit - g.depth) g.depth g :=
  ⟨Nat.le_refl _, within, placed, rfl, rfl⟩

theorem within_start {depth : Nat} (low : depth ≤ nestingLimit) (lexemes : List Lexeme)
    : (start depth lexemes).Within nestingLimit :=
  ⟨low, fun _ found => List.mem_singleton.mp found ▸ low⟩

end Gauge

namespace Counting

open Gauge (Ready)
open Parse hiding statements statement listed block expression chain chainTail call callTail
  argumentList arguments operand
open Reader (Onward)
open StackScript.Parser (Keeps)

/-- Reading with the counter came to the same as reading with room. If it succeeded, the counter
is left at a value of the given kind.
-/
inductive Tallied (most : Nat) (ends : Nat → Prop)
    : EStateM.Result SyntaxError Reader α → Option (Except SyntaxError α × Gauge) → Prop
  | ok {value : α} {g : Gauge} (within : g.Within most) (left : ends g.depth)
      : Tallied most ends (.ok value g.reader) (some (.ok value, g))
  | error {error : SyntaxError} {g : Gauge} (within : g.Within most)
      : Tallied most ends (.error error g.reader) (some (.error error, g))

/-- Reading with the counter comes to the same as reading with room wherever the counter has the
given value.
-/
def Follows (most room deep : Nat) (ends : Nat → Prop) (p : Counting α) (q : Parser α)
    : Prop :=
  ∀ g, Ready most room deep g → Tallied most ends (q g.reader) (p g)

-----------------------------------------------------------------------------------------
-- Steps
-----------------------------------------------------------------------------------------

theorem bind_of_ok {p : Counting α} {next : α → Counting β} {value : α} {g g' : Gauge}
    (read : p g = some (.ok value, g'))
    : (p >>= next) g = next value g' := by
  simp only [bind, ExceptT.bind, ExceptT.mk, StateT.bind, read, Option.bind_some,
    ExceptT.bindCont]

theorem bind_of_error {p : Counting α} {next : α → Counting β} {error : SyntaxError}
    {g g' : Gauge} (read : p g = some (.error error, g'))
    : (p >>= next) g = some (.error error, g') := by
  simp only [bind, ExceptT.bind, ExceptT.mk, StateT.bind, read, Option.bind_some,
    ExceptT.bindCont]
  rfl

theorem Tallied.exists_outcome {ends : Nat → Prop}
    {result : EStateM.Result SyntaxError Reader α}
    {counted : Option (Except SyntaxError α × Gauge)}
    (tallied : Tallied most ends result counted)
    : ∃ outcome g,
        counted = some (outcome, g)
        ∧ g.Within most
        ∧ ∀ value, outcome = .ok value → ends g.depth := by
  cases tallied with
  | ok within left => exact ⟨_, _, rfl, within, fun _ _ => left⟩
  | error within => exact ⟨_, _, rfl, within, nofun⟩

/-- Steps behind one that leaves the counter as it was, from one place on. -/
theorem Tallied.bind {ends : Nat → Prop} {p : Counting α} {q : Parser α} [Keeps Onward q]
    {next : α → Counting β} {next' : α → Parser β} {g : Gauge}
    (first : Tallied most (· = deep) (q g.reader) (p g)) (ready : Ready most room deep g)
    (others : ∀ value g', Ready most room deep g' → q g.reader = .ok value g'.reader
      → Tallied most ends (next' value g'.reader) (next value g'))
    : Tallied most ends ((q >>= next') g.reader) ((p >>= next) g) := by
  generalize counted : p g = outcome at first
  generalize read : q g.reader = result at first
  cases first with
  | @ok value g' within same =>
      rw [bind_of_ok counted, Parser.bind_of_ok read]
      exact others value g' (ready.behind (.of_ok read) within same) read
  | error within =>
      rw [bind_of_error counted, Parser.bind_of_error read]
      exact .error within

namespace Follows

variable {ends : Nat → Prop} {p : Counting α} {q : Parser α}

theorem pure (value : α) (left : ends deep)
    : Follows most room deep ends (Pure.pure value) (Pure.pure value) := by
  intro g ready
  exact .ok ready.within (ready.depth ▸ left)

theorem lift (q : Parser α) : Follows most room deep (· = deep) (lift q) q := by
  intro g ready
  unfold Counting.lift
  cases read : q g.reader with
  | ok value s => exact .ok (g := g.place s) (ready.within.place s) ready.depth
  | error error s => exact .error (g := g.place s) (ready.within.place s)

theorem fail (cause : SyntaxCause)
    : Follows most room deep ends (Counting.lift (Parser.fail cause) : Counting α)
        (Parser.fail cause) := by
  intro g ready
  exact .error (g := g.place g.reader) (ready.within.place _)

/-- Steps behind one that leaves the counter as it was. -/
theorem bind [Keeps Onward q] {next : α → Counting β} {next' : α → Parser β}
    (first : Follows most room deep (· = deep) p q)
    (others : ∀ value, Follows most room deep ends (next value) (next' value))
    : Follows most room deep ends (p >>= next) (q >>= next') :=
  fun g ready => (first g ready).bind ready fun value g' ready' _ => others value g' ready'

theorem map [Keeps Onward q] (change : α → β) (first : Follows most room deep (· = deep) p q)
    : Follows most room deep (· = deep) (change <$> p) (change <$> q) := by
  rw [← bind_pure_comp, ← bind_pure_comp]
  exact first.bind fun value => .pure _ rfl

/-- The counter is found at its value. -/
theorem found {next : Nat → Counting α} (others : Follows most room deep ends (next deep) q)
    : Follows most room deep ends (Counting.depth >>= next) q := by
  intro g ready
  have read : Counting.depth g = some (.ok deep, g) := by
    rw [Counting.depth, ready.depth]
  rw [bind_of_ok read]
  exact others g ready

/-- A result is kept while the counter is moved. -/
theorem finish {kept : Nat → Prop} {last : Counting Unit}
    (inner : Follows most room deep kept p q)
    (moves : ∀ g : Gauge, g.Within most → kept g.depth → deep ≤ most
      → ∃ value, last g = some (.ok (), g.count value) ∧ value ≤ most ∧ ends value)
    : Follows most room deep ends (p >>= fun value => last >>= fun _ => Pure.pure value) q := by
  intro g ready
  have low : deep ≤ most := ready.depth ▸ ready.within.depth
  have tallied := inner g ready
  generalize counted : p g = outcome at tallied
  generalize q g.reader = result at tallied
  cases tallied with
  | @ok value g' within left =>
      obtain ⟨less, moved, low, last⟩ := moves g' within left low
      rw [bind_of_ok counted, bind_of_ok moved]
      exact .ok (g := g'.count less) (within.count low) last
  | error within =>
      rw [bind_of_error counted]
      exact .error within

/-- The counter is put back to the value that was found. -/
theorem restore {kept : Nat → Prop} (inner : Follows most room deep kept p q)
    : Follows most room deep (· = deep)
        (p >>= fun value => Counting.restore deep >>= fun _ => Pure.pure value) q :=
  inner.finish fun _ _ _ low => ⟨deep, rfl, low, rfl⟩

theorem ascend (inner : Follows most room (deep + 1) (· = deep + 1) p q)
    : Follows most room (deep + 1) (· = deep)
        (p >>= fun value => Counting.ascend >>= fun _ => Pure.pure value) q := by
  refine inner.finish fun g _ found low => ⟨deep, ?_, Nat.le_of_succ_le low, rfl⟩
  rw [Counting.ascend, found]

/-- Without room there is an error. -/
theorem tooDeep {next : Unit → Counting α}
    : Follows most 0 deep ends (descend >>= next) (Parser.fail .tooDeep) := by
  intro g ready
  have atLimit : nestingLimit ≤ g.depth := by
    have := ready.room
    have := ready.depth
    omega
  have stopped : descend g = Counting.lift (Parser.fail .tooDeep) g := if_pos atLimit
  rw [bind_of_error stopped]
  exact .error (g := g.place g.reader) (ready.within.place _)

/-- With room, the counter goes up by one, and there is one level less room. -/
theorem deeper (inner : Follows most room (deep + 1) ends p q)
    : Follows most (room + 1) deep ends (descend >>= fun _ => p) q := by
  intro g ready
  have := ready.room
  have := ready.limit
  have below : ¬nestingLimit ≤ g.depth := by
    have := ready.depth
    omega
  have counted : descend g = some (.ok (), g.count (g.depth + 1)) := if_neg below
  rw [bind_of_ok counted]
  exact inner (g.count (g.depth + 1)) ⟨ready.limit, ready.within.count (by omega), ready.placed,
    congrArg (· + 1) ready.depth, by omega⟩

/-- A statement or an expression, one level deeper than what holds it. -/
theorem level (inner : Follows most room (deep + 1) (· = deep + 1) p q)
    : Follows most (room + 1) deep (· = deep)
        (descend >>= fun _ => p >>= fun value => Counting.ascend >>= fun _ => Pure.pure value)
        q :=
  .deeper inner.ascend

end Follows

-----------------------------------------------------------------------------------------
-- Phrases
-----------------------------------------------------------------------------------------

section

variable (value : Follows most room deep (· = deep) (expression room) (Parse.expression room))
  (side : Follows most room deep (· = deep) (statement room) (Parse.statement room))

include side in
/-- A list of statements leaves the counter as it was, whether its statements fail or not, by
induction on the tokens that are left.
-/
theorem statements_follows (nested : Bool) (g : Gauge) (ready : Ready most room deep g)
    : ∃ last,
        statements room nested g = some ((Parse.statements room nested g.reader).1, last)
        ∧ last.reader = (Parse.statements room nested g.reader).2
        ∧ Ready most room deep last := by
  induction size : g.reader.rest.length using Nat.strongRecOn generalizing g with
  | ind size ih =>
  rw [statements]
  by_cases here : Ended nested g.reader
  · rw [if_pos (ended_iff.mpr here), statements_of_ended here]
    exact ⟨g, rfl, rfl, ready⟩
  rw [if_neg (mt ended_iff.mp here)]
  by_cases many : errorLimit ≤ g.reader.errors.length
  · rw [if_pos many, Parse.statements, if_neg (mt ended_iff.mp here), if_pos many]
    exact ⟨_, rfl, rfl, ready.place (Reader.Forward.skip (R := Onward) _ g.reader)⟩
  rw [if_neg many]
  rw [Nat.not_le] at many
  have tallied := side g ready
  generalize counted : statement room g = outcome at tallied
  generalize read : Parse.statement room g.reader = result at tallied
  have low : g.depth ≤ most := ready.within.depth
  cases tallied with
  | @ok first g' within _ =>
      have onward : Onward g.reader g'.reader := .of_ok read
      have shorter := statement_shorter read
      obtain ⟨last, others, place, ready'⟩ := ih _ (size ▸ shorter)
        (g'.count g.depth) (ready.behind onward (within.count low) ready.depth) rfl
      rw [statements_of_statement ready.placed here many read]
      refine ⟨last, ?_, place, ready'⟩
      simp only [bind, Option.bind, others]
      exact if_pos (onward.remaining_lt ready.placed shorter)
  | @error error g' within =>
      have onward : Onward g.reader (g'.reader.report error) :=
        (Onward.of_error read).trans (.report _ _)
      have onward' : Onward g.reader ((g'.reader.report error).recover nested) :=
        onward.trans (Reader.Forward.recover nested _)
      have shorter := recover_shorter here onward
      obtain ⟨last, others, place, ready'⟩ := ih _ (size ▸ shorter)
        ((g'.count g.depth).place ((g'.reader.report error).recover nested))
        (ready.behind onward' ((within.count low).place _) ready.depth) rfl
      rw [statements_of_error ready.placed here many read]
      refine ⟨last, ?_, place, ready'⟩
      exact (if_pos (onward'.remaining_lt ready.placed shorter)).trans others

include side in
theorem listed_follows (nested : Bool)
    : Follows most room deep (· = deep) (listed room nested) (Parse.listed room nested) := by
  intro g ready
  obtain ⟨last, counted, place, ready'⟩ := statements_follows side nested g ready
  have read
      : listed room nested g = some (.ok (Parse.statements room nested g.reader).1, last) := by
    rw [listed, counted]
    rfl
  rw [read, Parse.listed, ← place]
  exact .ok ready'.within ready'.depth

include side in
theorem block_follows
    : Follows most room deep (· = deep) (block room) (Parse.block room) := by
  have : Keeps Onward (Parse.listed room true) := ⟨onward_statements room true⟩
  rw [block, Parse.block]
  exact .bind (.lift _) fun _ => .bind (q := Parse.listed room true)
    (listed_follows side true) fun _ => .bind (.lift _) fun _ => .pure _ rfl

include value side in
/-- A condition and its statements, as steps of reading with room. -/
theorem branch_follows (start : Span)
    : Follows most room deep (· = deep) (branch room start) (do
        Parser.expect (.mark .leftParen)
        let condition ← Parse.expression room
        Parser.expect (.mark .rightParen)
        let yes ← Parse.statement room
        let no ←
          if ← Parser.accept (.keyword .elseWord) then some <$> Parse.statement room
          else pure none
        return .branch (← Parser.spanFrom start) condition yes no) := by
  rw [branch]
  refine .bind (.lift _) fun _ => .bind value fun condition => ?_
  refine .bind (.lift _) fun _ => .bind side fun yes => .bind (.lift _) fun found => ?_
  dsimp only
  split
  · exact .bind (side.map _) fun no => .bind (.lift _) fun span => .pure _ rfl
  · exact .bind (.pure _ rfl) fun no => .bind (.lift _) fun span => .pure _ rfl

include value in
theorem ret_follows (start : Span)
    : Follows most room deep (· = deep) (ret room start) (do
        let value ←
          if (← Parser.peek?) = some (.mark .semicolon) then pure none
          else some <$> Parse.expression room
        Parser.expect (.mark .semicolon)
        return .ret (← Parser.spanFrom start) value) := by
  rw [ret]
  refine .bind (.lift _) fun next => ?_
  dsimp only
  split
  · exact .bind (.pure _ rfl) fun _ => .bind (.lift _) fun _ => .bind (.lift _) fun _ =>
      .pure _ rfl
  · exact .bind (value.map _) fun _ => .bind (.lift _) fun _ => .bind (.lift _) fun _ =>
      .pure _ rfl

include value in
theorem define_follows (start : Span)
    : Follows most room deep (· = deep) (define room start) (do
        let name ← Parser.expectName
        let value ←
          if ← Parser.accept (.mark .assign) then some <$> Parse.expression room
          else pure none
        Parser.expect (.mark .semicolon)
        return .define (← Parser.spanFrom start) name value) := by
  rw [define]
  refine .bind (.lift _) fun name => .bind (.lift _) fun found => ?_
  dsimp only
  split
  · exact .bind (value.map _) fun _ => .bind (.lift _) fun _ => .bind (.lift _) fun _ =>
      .pure _ rfl
  · exact .bind (.pure _ rfl) fun _ => .bind (.lift _) fun _ => .bind (.lift _) fun _ =>
      .pure _ rfl

theorem function_follows
    (body : Follows most room deep (· = deep) (block room) (Parse.block room))
    : Follows most room deep (· = deep) (function room) (do
        let params ← parameterList
        return .function params (← Parse.block room)) := by
  rw [function]
  exact .bind (.lift _) fun _ => .bind body fun _ => .pure _ rfl

/-- The arguments of a call, up to its closing parenthesis, as steps of reading with room. -/
theorem argumentList_follows
    (others : Follows most room deep (· = deep) (arguments room) (Parse.argumentList room))
    : Follows most room deep (· = deep) (argumentList room) (do
        let args ←
          if (← Parser.peek?) = some (.mark .rightParen) then pure []
          else Parse.argumentList room
        Parser.expect (.mark .rightParen)
        return args) := by
  rw [argumentList]
  refine .bind (.lift _) fun next => ?_
  dsimp only
  split
  · exact .bind (.pure _ rfl) fun _ => .bind (.lift _) fun _ => .pure _ rfl
  · exact .bind others fun _ => .bind (.lift _) fun _ => .pure _ rfl

end

-- By induction on the room. Without room both readings stop with the same error, and with room
-- the phrases inside are read one level deeper, with one level less room.
mutual

theorem statement_follows (room deep : Nat)
    : Follows most room deep (· = deep) (statement room) (Parse.statement room) := by
  match room with
  | 0 =>
      rw [statement, Parse.statement]
      exact .tooDeep
  | room + 1 =>
      rw [statement]
      exact .level (form_follows room (deep + 1))
termination_by (room, 0)

theorem form_follows (room deep : Nat)
    : Follows most room deep (· = deep) (form room) (Parse.statement (room + 1)) := by
  have value := expression_follows room deep
  have side := statement_follows room deep
  rw [form, Parse.statement]
  refine .bind (.lift _) fun start => .bind (.lift _) fun next => ?_
  dsimp only
  split
  · exact .bind (block_follows side) fun body => .bind (.lift _) fun span => .pure _ rfl
  · exact .bind (.lift _) fun _ => branch_follows value side start
  · exact .bind (.lift _) fun _ => ret_follows value start
  · exact .bind (.lift _) fun _ => define_follows value start
  · -- where the other reading still tests the token, it finds none of the four above
    try split
    all_goals first
      | exact .bind value fun e => .bind (.lift _) fun _ => .bind (.lift _) fun span =>
          .pure _ rfl
      | simp_all
  · exact .fail _
termination_by (room, 8 + levels)

theorem expression_follows (room deep : Nat)
    : Follows most room deep (· = deep) (expression room) (Parse.expression room) := by
  match room with
  | 0 =>
      rw [expression, Parse.expression]
      exact .tooDeep
  | room + 1 =>
      rw [expression]
      exact .level (assign_follows room (deep + 1))
termination_by (room, 0)

theorem assign_follows (room deep : Nat)
    : Follows most room deep (· = deep) (assign room) (Parse.expression (room + 1)) := by
  have value := expression_follows room deep
  have operands := chain_follows room deep levels
  rw [assign, Parse.expression]
  refine .bind (.lift _) fun r => ?_
  cases assignmentAhead? r with
  | none => exact operands
  | some assignment =>
      exact .bind (.lift _) fun _ => .bind (.lift _) fun _ => .bind value fun _ => .pure _ rfl
termination_by (room, 7 + levels)

theorem chain_follows (room deep level : Nat)
    : Follows most room deep (· = deep) (chain room level) (Parse.chain room level) := by
  match level with
  | 0 =>
      rw [chain, chain_zero]
      exact call_follows room deep
  | level + 1 =>
      rw [chain, Parse.chain]
      exact .found (.bind (chain_follows room deep level) fun left =>
        .restore (chainTail_follows room deep level left))
termination_by (room, 6 + level)

theorem chainTail_follows (room deep level : Nat) (left : Expr)
    : Follows most room deep (fun _ => True) (chainTail room level left)
        (Parse.chainTail room level left) := by
  rw [chainTail, Parse.chainTail]
  refine .bind (.lift _) fun next => ?_
  cases next.bind (jointAt? level) with
  | none => exact .pure _ trivial
  | some joint =>
      refine .bind (.lift _) fun _ => ?_
      match room with
      | 0 => exact .tooDeep
      | room + 1 =>
          exact .deeper (.bind (chain_follows room (deep + 1) level) fun right =>
            chainTail_follows room (deep + 1) level _)
termination_by (room, 0)

theorem call_follows (room deep : Nat)
    : Follows most room deep (· = deep) (call room) (Parse.call room) := by
  rw [call, Parse.call]
  exact .found (.bind (operand_follows room deep) fun callee =>
    .restore (callTail_follows room deep callee))
termination_by (room, 5)

theorem callTail_follows (room deep : Nat) (callee : Expr)
    : Follows most room deep (fun _ => True) (callTail room callee)
        (Parse.callTail room callee) := by
  rw [callTail.eq_def, Parse.callTail.eq_def]
  refine .bind (.lift _) fun found => ?_
  dsimp only
  split
  · match room with
    | 0 => exact .tooDeep
    | room + 1 =>
        have some := arguments_follows room (deep + 1)
        refine .deeper ?_
        simp only [argumentList, bind_assoc]
        refine .bind (.lift _) fun next => ?_
        split <;> simp only [bind_assoc, pure_bind]
        · exact .bind (.lift _) fun _ => callTail_follows room (deep + 1) _
        · exact .bind (q := Parse.argumentList room) some fun args => .bind (.lift _) fun _ =>
            callTail_follows room (deep + 1) _
  · exact .pure _ trivial
termination_by (room, 0)

theorem arguments_follows (room deep : Nat)
    : Follows most room deep (· = deep) (arguments room) (Parse.argumentList room) := by
  have value := expression_follows room deep
  intro g ready
  induction size : g.reader.rest.length using Nat.strongRecOn generalizing g with
  | ind size ih =>
  rw [arguments, Parse.argumentList, arguments_eq ready.placed]
  refine (value g ready).bind ready fun first t behind read => ?_
  refine (Follows.lift _ t behind).bind behind fun comma u behind accepted => ?_
  split
  · have passed : Onward t.reader u.reader := .of_ok accepted
    have shorter : u.reader.rest.length < g.reader.rest.length :=
      Nat.lt_of_le_of_lt passed.length_le (expression_shorter read)
    have ahead := ((Onward.of_ok read).trans passed).remaining_lt ready.placed shorter
    refine Tallied.bind (q := Parse.argumentList room) ?_ behind fun others last ready _ =>
      .ok ready.within ready.depth
    rw [if_pos ahead]
    exact ih _ (size ▸ shorter) u behind rfl
  · exact .ok behind.within behind.depth
termination_by (room, 1)

theorem operand_follows (room deep : Nat)
    : Follows most room deep (· = deep) (operand room) (Parse.operand room) := by
  have value := expression_follows room deep
  have body := block_follows (statement_follows room deep)
  rw [operand, Parse.operand]
  refine .bind (.lift _) fun next => ?_
  split
  all_goals try
    exact .bind (.lift _) fun _ => .pure _ rfl
  · exact .bind (.lift _) fun _ => .bind value fun _ => .bind (.lift _) fun _ => .pure _ rfl
  · exact .bind (.lift _) fun _ => function_follows body
  · -- where the other reading still tests the token, it fails on it too
    try split
    all_goals first
      | exact .fail _
      | simp_all
termination_by (room, 4)

end

-----------------------------------------------------------------------------------------
-- Balance
-----------------------------------------------------------------------------------------

/-- Wherever it starts, with the room that the counter leaves of the limit, a step of reading has
an outcome, which leaves the counter as it was if it is a success, and the counter is kept within
the limit.
-/
def Balanced (p : Nat → Counting α) : Prop :=
  ∀ g : Gauge, g.reader.Placed
    → ∃ outcome g',
        p (nestingLimit - g.depth) g = some (outcome, g')
        ∧ (∀ value, outcome = .ok value → g'.depth = g.depth)
        ∧ (g.Within nestingLimit → g'.Within nestingLimit)

theorem Follows.balanced {p : Nat → Counting α} (q : Nat → Parser α)
    (follows : ∀ most room deep, Follows most room deep (· = deep) (p room) (q room))
    : Balanced p := by
  intro g placed
  obtain ⟨most, ready⟩ := Gauge.exists_ready placed
  obtain ⟨outcome, g', counted, -, left⟩ := (follows most _ _ g ready).exists_outcome
  refine ⟨outcome, g', counted, left, fun within => ?_⟩
  obtain ⟨_, _, counted', within', -⟩ :=
    (follows _ _ _ g (within.ready placed)).exists_outcome
  cases counted.symm.trans counted'
  exact within'

/-- Wherever it starts, a step of reading has the outcome of one that looks at the room only. -/
def Agrees (p : Nat → Counting α) (q : Nat → Parser α) : Prop :=
  ∀ g : Gauge, g.reader.Placed
    → match q (nestingLimit - g.depth) g.reader with
      | .ok value s => ∃ g', p (nestingLimit - g.depth) g = some (.ok value, g') ∧ g'.reader = s
      | .error error s =>
          ∃ g', p (nestingLimit - g.depth) g = some (.error error, g') ∧ g'.reader = s

theorem Follows.agrees {p : Nat → Counting α} {q : Nat → Parser α}
    (follows : ∀ most room deep, Follows most room deep (· = deep) (p room) (q room))
    : Agrees p q := by
  intro g placed
  obtain ⟨most, ready⟩ := Gauge.exists_ready placed
  have tallied := follows most _ _ g ready
  generalize q (nestingLimit - g.depth) g.reader = result at tallied
  generalize p (nestingLimit - g.depth) g = outcome at tallied
  cases tallied with
  | @ok value g' _ _ => exact ⟨g', rfl, rfl⟩
  | @error error g' _ => exact ⟨g', rfl, rfl⟩

/-- Every function that reads a phrase has the outcome of its counterpart. What stands behind the
word of a statement or of a function is read inside the counterparts of these.
-/
structure PhrasesAgree : Prop where
  listed (nested : Bool) : Agrees (listed · nested) (Parse.listed · nested)
  statement : Agrees statement Parse.statement
  form : Agrees form fun room => Parse.statement (room + 1)
  block : Agrees block Parse.block
  expression : Agrees expression Parse.expression
  assign : Agrees assign fun room => Parse.expression (room + 1)
  chain (level : Nat) : Agrees (chain · level) (Parse.chain · level)
  call : Agrees call Parse.call
  arguments : Agrees arguments Parse.argumentList
  operand : Agrees operand Parse.operand

theorem phrases_agree : PhrasesAgree where
  listed nested := Follows.agrees fun _ room deep =>
    listed_follows (statement_follows room deep) nested
  statement := Follows.agrees fun _ => statement_follows
  form := Follows.agrees fun _ => form_follows
  block := Follows.agrees fun _ room deep => block_follows (statement_follows room deep)
  expression := Follows.agrees fun _ => expression_follows
  assign := Follows.agrees fun _ => assign_follows
  chain level := Follows.agrees fun _ room deep => chain_follows room deep level
  call := Follows.agrees fun _ => call_follows
  arguments := Follows.agrees fun _ => arguments_follows
  operand := Follows.agrees fun _ => operand_follows

/-- Every function that reads a phrase is balanced. -/
structure PhrasesBalanced : Prop where
  statement : Balanced statement
  form : Balanced form
  block : Balanced block
  branch (start : Span) : Balanced (branch · start)
  ret (start : Span) : Balanced (ret · start)
  define (start : Span) : Balanced (define · start)
  expression : Balanced expression
  assign : Balanced assign
  chain (level : Nat) : Balanced (chain · level)
  call : Balanced call
  argumentList : Balanced argumentList
  arguments : Balanced fun room => (arguments room : Counting (List Expr))
  operand : Balanced operand
  function : Balanced function

theorem phrases_balanced : PhrasesBalanced where
  statement := Follows.balanced _ fun _ => statement_follows
  form := Follows.balanced _ fun _ => form_follows
  block := Follows.balanced _ fun _ room deep => block_follows (statement_follows room deep)
  branch start := Follows.balanced _ fun _ room deep =>
    branch_follows (expression_follows room deep) (statement_follows room deep) start
  ret start := Follows.balanced _ fun _ room deep =>
    ret_follows (expression_follows room deep) start
  define start := Follows.balanced _ fun _ room deep =>
    define_follows (expression_follows room deep) start
  expression := Follows.balanced _ fun _ => expression_follows
  assign := Follows.balanced _ fun _ => assign_follows
  chain level := Follows.balanced _ fun _ room deep => chain_follows room deep level
  call := Follows.balanced _ fun _ => call_follows
  argumentList := Follows.balanced _ fun _ room deep =>
    argumentList_follows (arguments_follows room deep)
  arguments := Follows.balanced _ fun _ => arguments_follows
  operand := Follows.balanced _ fun _ => operand_follows
  function := Follows.balanced _ fun _ room deep =>
    function_follows (block_follows (statement_follows room deep))

/-- A list of statements always has an outcome and leaves the counter as it was, also if
statements inside it fail.
-/
theorem statements_balanced (nested : Bool) {g : Gauge} (placed : g.reader.Placed)
    : ∃ stmts last,
        statements (nestingLimit - g.depth) nested g = some (stmts, last)
        ∧ last.depth = g.depth := by
  obtain ⟨most, ready⟩ := Gauge.exists_ready placed
  obtain ⟨last, counted, -, ready⟩ :=
    statements_follows (statement_follows _ _) nested g ready
  exact ⟨_, last, counted, ready.depth⟩

/-- Reading with the counter gives what reading with room gives, and never counts above the
limit.
-/
theorem parse_within (lexemes : List Lexeme)
    : ∃ history,
        parse lexemes = some (StackScript.parse lexemes, history)
        ∧ ∀ value ∈ history, value ≤ nestingLimit := by
  have ready := (Gauge.within_start (Nat.zero_le _) lexemes).ready (Reader.placed_start lexemes)
  obtain ⟨last, counted, place, ready⟩ :=
    statements_follows (statement_follows _ _) false _ ready
  have counted : statements nestingLimit false (Gauge.start 0 lexemes)
      = some ((Parse.statements nestingLimit false (Reader.start lexemes)).1, last) := counted
  have place : last.reader = (Parse.statements nestingLimit false (Reader.start lexemes)).2 :=
    place
  refine ⟨last.history, ?_, ready.within.history⟩
  simp only [parse, counted, StackScript.parse, ← place]
  rfl

end Counting

end StackScript
