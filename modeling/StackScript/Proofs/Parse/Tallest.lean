import StackScript.Proofs.Parse.Completeness
import StackScript.Proofs.Parse.Depth

/-! Scripts whose trees are as deep as reading allows. A ladder is an operand with the same
number of calls and of further operands at each level of operators; each of them puts what
stands before it one level deeper. A tower is a ladder on a ladder in parentheses, and so on,
and reaches the bound on the depth at every room, so that the bound is exact. Already a ladder
on a single number is deeper than the nesting limit.
-/

namespace StackScript

namespace Parse

open StackScript.Parser

variable {room level count depth : Nat} {r s : Reader} {rest : List Lexeme}

-----------------------------------------------------------------------------------------
-- Ladders
-----------------------------------------------------------------------------------------

/-- An operator of each level. -/
def symbol : Nat → Joint
  | 0 => .binary .multiply
  | 1 => .binary .add
  | 2 => .binary .less
  | 3 => .binary .equal
  | 4 => .logical .and
  | _ => .logical .or

theorem level_symbol (known : level < levels) : (symbol level).level = level := by
  match level, known with
  | 0, _ => rfl
  | 1, _ => rfl
  | 2, _ => rfl
  | 3, _ => rfl
  | 4, _ => rfl
  | 5, _ => rfl

/-- A number of calls without arguments. -/
def calls : Nat → List Lexeme
  | 0 => []
  | count + 1 =>
      ⟨.mark .leftParen, Span.unknown⟩ :: ⟨.mark .rightParen, Span.unknown⟩ :: calls count

/-- A number of further operands at one level. -/
def rung (level : Nat) : Nat → List Lexeme
  | 0 => []
  | count + 1 =>
      ⟨(symbol level).token, Span.unknown⟩ :: ⟨.number "1", Span.unknown⟩ :: rung level count

/-- Calls and then further operands at each level below the given one. -/
def ladder (count : Nat) : Nat → List Lexeme
  | 0 => calls count
  | level + 1 => ladder count level ++ rung level count

/-- An expression of the given depth is read up to the given tokens. -/
def Climbs (depth : Nat) (rest : List Lexeme) (outcome : EStateM.Result SyntaxError Reader Expr)
    : Prop :=
  ∃ e s, outcome = .ok e s ∧ e.depth = depth ∧ s.Before rest

/-- Each call is one level, by induction on their number. -/
theorem callTail_calls (callee : Expr) (low : 0 < callee.depth) (fits : count ≤ room)
    (before : r.Before (calls count ++ rest)) (last : ¬goesOn 0 (upcoming rest))
    : Climbs (callee.depth + count) rest (callTail room callee r) := by
  induction count generalizing room r callee with
  | zero => exact ⟨callee, r, further_done 0 (before.next? ▸ last), rfl, before⟩
  | succ count ih =>
      obtain ⟨less, rfl⟩ : ∃ less, room = less + 1 := ⟨room - 1, by omega⟩
      obtain ⟨opening, -, before⟩ := before.step
      obtain ⟨closing, -, before⟩ := before.step
      have deeper : (Expr.call callee []).depth = callee.depth + 1 := by
        rw [Expr.depth, depthOfArgs]
        omega
      have others := ih (.call callee []) (by omega) (by omega : count ≤ less) before
      rw [callTail.eq_def, accept_bind opening, if_pos rfl]
      dsimp only
      rw [peek?_bind, if_pos closing, pure_bind, expect_bind closing]
      rwa [deeper, Nat.add_assoc, Nat.add_comm 1 count] at others

/-- A number is a chain of any level, if no operator below goes on with it. -/
theorem chain_number (room : Nat) (before : r.Before (⟨.number "1", Span.unknown⟩ :: rest))
    (last : ∀ below ≤ level, ¬goesOn below (upcoming rest))
    : chain room level r = .ok (.literal (.number "1")) r.advance := by
  obtain ⟨next, -, behind⟩ := before.step
  induction level with
  | zero =>
      rw [chain_zero, call, bind_of_ok (operand_of_literal (.number "1") next)]
      exact further_done 0 (behind.next? ▸ last 0 (Nat.le_refl 0))
  | succ level ih =>
      rw [chain, bind_of_ok (ih fun below less => last below (by omega))]
      exact further_done (level + 1) (behind.next? ▸ last _ (Nat.le_refl _))

theorem not_goesOn_rung (known : level < levels)
    (last : ∀ below ≤ level, ¬goesOn below (upcoming rest)) (below : Nat) (less : below ≤ level)
    : ¬goesOn below (upcoming (rung level count ++ rest)) := by
  cases count with
  | zero => exact last below less
  | succ count => exact not_goesOn_joint (by rwa [level_symbol known])

/-- Each further operand is one level, by induction on their number. -/
theorem chainTail_rung (left : Expr) (low : 0 < left.depth) (known : level < levels)
    (fits : count ≤ room) (before : r.Before (rung level count ++ rest))
    (last : ∀ below ≤ level + 1, ¬goesOn below (upcoming rest))
    : Climbs (left.depth + count) rest (chainTail room level left r) := by
  induction count generalizing room r left with
  | zero =>
      exact ⟨left, r, further_done (level + 1) (before.next? ▸ last _ (Nat.le_refl _)),
        rfl, before⟩
  | succ count ih =>
      obtain ⟨less, rfl⟩ : ∃ less, room = less + 1 := ⟨room - 1, by omega⟩
      obtain ⟨next, -, before⟩ := before.step
      have right := chain_number less before
        (not_goesOn_rung known fun below less => last below (by omega))
      obtain ⟨-, -, before⟩ := before.step
      have deeper
          : ((symbol level).join left (.literal (.number "1"))).depth = left.depth + 1 := by
        rw [Joint.depth_join, Expr.depth]
        omega
      have others := ih ((symbol level).join left (.literal (.number "1"))) (by omega)
        (by omega : count ≤ less) before
      rw [chainTail, peek?_bind, next, Option.bind_some,
        jointAt?_eq_some_iff.mpr ⟨level_symbol known, rfl⟩]
      dsimp only
      rw [advance_bind, bind_of_ok right]
      rwa [deeper, Nat.add_assoc, Nat.add_comm 1 count] at others

/-- A ladder adds its number of steps once for the calls and once for each level. -/
theorem chain_ladder (known : level ≤ levels) (low : 0 < depth) (fits : count ≤ room)
    (operand : Climbs depth (ladder count level ++ rest) (operand room r))
    (last : ∀ below ≤ level, ¬goesOn below (upcoming rest))
    : Climbs (depth + (level + 1) * count) rest (chain room level r) := by
  induction level generalizing rest with
  | zero =>
      obtain ⟨callee, t, done, rfl, before⟩ := operand
      rw [chain_zero, call, bind_of_ok done, Nat.zero_add, Nat.one_mul]
      exact callTail_calls _ low fits before (last 0 (Nat.le_refl 0))
  | succ level ih =>
      rw [ladder, List.append_assoc] at operand
      obtain ⟨left, t, done, deep, before⟩ := ih (by omega) operand
        (not_goesOn_rung (by omega) fun below less => last below (by omega))
      rw [chain, bind_of_ok done, Nat.succ_mul (level + 1), ← Nat.add_assoc, ← deep]
      exact chainTail_rung _ (by omega) (by omega) fits before last

/-- An expression that is a ladder, up to a token that ends it. -/
theorem expression_ladder (low : 0 < depth) (fits : count ≤ room)
    (operand : Climbs depth (ladder count levels ++ rest) (operand room r))
    (other : ∀ name, r.next? ≠ some (.name name)) (ends : EndsExpression (upcoming rest))
    : Climbs (depth + 7 * count) rest (expression (room + 1) r) := by
  have ahead : assignmentAhead? r = none := by
    cases found : assignmentAhead? r with
    | none => rfl
    | some assignment => exact absurd (next?_of_assignmentAhead? found).1 (other _)
  rw [expression, get_bind, ahead]
  exact chain_ladder (Nat.le_refl levels) low fits operand fun below _ => ends.not_goesOn below

/-- A script of one expression. -/
theorem parse_discard {lexemes : List Lexeme} (token : Token)
    (first : upcoming lexemes = some token)
    (opens : token.opensOperand = true)
    (climbs : Climbs depth [⟨.mark .semicolon, Span.unknown⟩]
      (expression (nestingLimit - 1) (Reader.start lexemes)))
    : (parse lexemes).2 = [] ∧ depthOfBody (parse lexemes).1.statements = depth + 1 := by
  obtain ⟨e, s, done, rfl, before⟩ := climbs
  obtain ⟨semicolon, -, behind⟩ := before.step
  have start : (Reader.start lexemes).Before lexemes := ⟨rfl, rfl, Reader.placed_start lexemes⟩
  have next : (Reader.start lexemes).next? = some token := start.next?.trans first
  have read := statement_of_opens (nestingLimit - 1) next opens
  rw [bind_of_ok done, expect_bind semicolon, spanFrom_bind] at read
  have inside : ¬Ended false (Reader.start lexemes) := by
    rintro (none | ⟨block, -⟩)
    · rw [Reader.next?, none] at next
      cases next
    · cases block
  have few : (Reader.start lexemes).errors.length < errorLimit := by
    rw [start.clean]
    decide
  have all := statements_of_statement start.placed inside few read
  rw [statements_of_ended (.inl behind.rest)] at all
  have script : parse lexemes
      = (⟨[.discard ((Reader.start lexemes).here.merge s.advance.previous) e]⟩,
        s.advance.errors) := by
    unfold parse
    rw [show nestingLimit = nestingLimit - 1 + 1 from rfl, all]
  rw [script, behind.clean]
  refine ⟨rfl, ?_⟩
  rw [depthOfBody, depthOfBody, Stmt.depth]
  omega

/-- A ladder on a number. -/
def numberLadder (count : Nat) : List Lexeme :=
  ⟨.number "1", Span.unknown⟩ :: (ladder count levels ++ [⟨.mark .semicolon, Span.unknown⟩])

/-- A ladder on a number is read as long as the nesting limit leaves room for its steps, which
make it seven times as deep.
-/
theorem parse_numberLadder (fits : count + 2 ≤ nestingLimit)
    : (parse (numberLadder count)).2 = []
      ∧ depthOfBody (parse (numberLadder count)).1.statements = 7 * count + 2 := by
  have before : (Reader.start (numberLadder count)).Before (numberLadder count) :=
    ⟨rfl, rfl, Reader.placed_start _⟩
  obtain ⟨next, -, behind⟩ := before.step
  have number : Climbs 1 (ladder count levels ++ [⟨.mark .semicolon, Span.unknown⟩])
      (operand (nestingLimit - 2) (Reader.start (numberLadder count))) :=
    ⟨_, _, operand_of_literal (.number "1") next, by rw [Expr.depth], behind⟩
  have climbs := expression_ladder Nat.one_pos (by omega : count ≤ nestingLimit - 2) number
    (by rw [next]; exact nofun) (.inl rfl)
  have read := parse_discard (.number "1") rfl rfl climbs
  exact ⟨read.1, by omega⟩

/-- Scripts that are read can be deeper than the nesting limit. -/
theorem parse_numberLadder_too_deep
    : (parse (numberLadder 19)).2 = []
      ∧ ¬depthOfBody (parse (numberLadder 19)).1.statements ≤ nestingLimit := by
  obtain ⟨clean, depth⟩ := parse_numberLadder (show 19 + 2 ≤ nestingLimit by decide)
  exact ⟨clean, by rw [depth]; decide⟩

-----------------------------------------------------------------------------------------
-- Towers
-----------------------------------------------------------------------------------------

/-- The deepest operand that is read with some room. -/
def tower : Nat → List Lexeme
  | 0 => [⟨.number "1", Span.unknown⟩]
  | 1 =>
      [⟨.keyword .functionWord, Span.unknown⟩, ⟨.mark .leftParen, Span.unknown⟩,
        ⟨.mark .rightParen, Span.unknown⟩, ⟨.mark .leftBrace, Span.unknown⟩,
        ⟨.keyword .returnWord, Span.unknown⟩, ⟨.mark .semicolon, Span.unknown⟩,
        ⟨.mark .rightBrace, Span.unknown⟩]
  | room + 2 =>
      ⟨.mark .leftParen, Span.unknown⟩
        :: (tower (room + 1)
          ++ (ladder (room + 1) levels ++ [⟨.mark .rightParen, Span.unknown⟩]))

/-- A tower begins with a token that is no name. -/
theorem tower_opens (room : Nat)
    : ∃ first more,
        tower room = first :: more
        ∧ first.token.opensOperand = true
        ∧ ∀ name, first.token ≠ .name name := by
  match room with
  | 0 => exact ⟨_, _, rfl, rfl, by simp⟩
  | 1 => exact ⟨_, _, rfl, rfl, by simp⟩
  | room + 2 => exact ⟨_, _, rfl, rfl, by simp⟩

/-- With some room, the deepest operand is an expression in parentheses. -/
theorem deepest_add_two (room : Nat)
    : (deepest (room + 2)).1 = deepestOperand (room + 2)
      ∧ (deepest (room + 2)).2 ≤ deepestOperand (room + 2) := by
  unfold deepestOperand
  rw [deepest_succ]
  unfold deepestOperand
  dsimp only
  omega

theorem deepestOperand_add_two (room : Nat)
    : deepestOperand (room + 2) = deepestOperand (room + 1) + 7 * (room + 1) := by
  rw [← (deepest_add_two room).1, deepest_succ, Nat.add_comm]

theorem deepest_add_three (room : Nat)
    : (deepest (room + 3)).2 = deepestOperand (room + 1) + 7 * (room + 1) + 1 := by
  obtain ⟨expression, statement⟩ := deepest_add_two room
  rw [deepest_succ, expression, ← deepestOperand_add_two]
  dsimp only
  omega

theorem operand_of_block {params : List String} {body : List Stmt} {t : Reader}
    (word : r.next? = some (.keyword .functionWord))
    (head : parameterList r.advance = .ok params s) (inner : block room s = .ok body t)
    : operand room r = .ok (.function params body) t := by
  rw [operand, peek?_bind, word]
  dsimp only
  rw [advance_bind, bind_of_ok head, bind_of_ok inner]
  rfl

/-- A function whose body returns nothing is the deepest operand with room for one level. -/
theorem operand_function (before : r.Before (tower 1 ++ rest))
    : Climbs (deepestOperand 1) rest (operand 1 r) := by
  obtain ⟨word, -, before⟩ := before.step
  obtain ⟨opening, -, before⟩ := before.step
  obtain ⟨closing, -, before⟩ := before.step
  obtain ⟨leftBrace, -, before⟩ := before.step
  obtain ⟨returned, -, behind⟩ := before.step
  obtain ⟨semicolon, -, behind⟩ := behind.step
  have ret := statement_of_return 0 returned semicolon
  have few := before.clean ▸ (by decide : ([] : List SyntaxError).length < errorLimit)
  have body := statements_of_statement before.placed
    (not_ended_of_rest true before.rest nofun) few ret
  rw [statements_of_ended (.inr ⟨rfl, behind.next?⟩)] at body
  obtain ⟨rightBrace, -, behind⟩ := behind.step
  have block := block_of_statements leftBrace body rightBrace
  have read := operand_of_block word (parameterList_of_next opening closing) block
  refine ⟨_, _, read, ?_, behind⟩
  rw [Expr.depth, depthOfBody, depthOfBody, Stmt.depth]
  rfl

/-- A tower is read as an operand of the greatest depth, by induction on the room. -/
theorem operand_tower {room : Nat} {r : Reader} {rest : List Lexeme}
    (before : r.Before (tower room ++ rest))
    : Climbs (deepestOperand room) rest (operand room r) := by
  match room with
  | 0 =>
      obtain ⟨next, -, before⟩ := before.step
      exact ⟨_, _, operand_of_literal (.number "1") next, by rw [Expr.depth]; rfl, before⟩
  | 1 => exact operand_function before
  | room + 2 =>
      rw [tower, List.cons_append, List.append_assoc, List.append_assoc] at before
      obtain ⟨opening, -, before⟩ := before.step
      have other : ∀ name, r.advance.next? ≠ some (.name name) := by
        obtain ⟨first, more, same, -, other⟩ := tower_opens (room + 1)
        rw [before.next?, same]
        exact fun name found => other name (Option.some.inj found)
      have inner := expression_ladder (deepestOperand_pos (room + 1)) (Nat.le_refl (room + 1))
        (operand_tower before) other (.inr (.inl rfl))
      obtain ⟨e, s, done, deep, before⟩ := inner
      obtain ⟨closing, -, before⟩ := before.step
      refine ⟨e, s.advance, ?_, by rw [deep, deepestOperand_add_two], before⟩
      rw [operand, peek?_bind, opening]
      dsimp only
      rw [advance_bind, bind_of_ok done, expect_bind closing]
      rfl

/-- A ladder on a tower, as high as the nesting limit allows. -/
def tallest : List Lexeme :=
  tower (nestingLimit - 2)
    ++ (ladder (nestingLimit - 2) levels ++ [⟨.mark .semicolon, Span.unknown⟩])

/-- The bound on the depth is reached. -/
theorem parse_tallest
    : (parse tallest).2 = [] ∧ depthOfBody (parse tallest).1.statements = 56010 := by
  have before : (Reader.start tallest).Before tallest := ⟨rfl, rfl, Reader.placed_start _⟩
  obtain ⟨first, more, same, opens, other⟩ := tower_opens (nestingLimit - 2)
  have next : upcoming tallest = some first.token := by
    rw [tallest, same]
    rfl
  have climbs := expression_ladder (deepestOperand_pos _) (Nat.le_refl (nestingLimit - 2))
    (operand_tower before)
    (by rw [before.next?, next]; exact fun name found => other name (Option.some.inj found))
    (.inl rfl)
  have read := parse_discard first.token next opens climbs
  have limit : nestingLimit = 125 + 3 := rfl
  have less : nestingLimit - 2 = 125 + 1 := rfl
  have most := deepest_nestingLimit
  rw [limit, deepest_add_three, ← less] at most
  exact ⟨read.1, read.2.trans most⟩

end Parse

end StackScript
