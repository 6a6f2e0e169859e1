import StackScript.Proofs.Parse.Replay
import StackScript.Proofs.Parse.Soundness

/-! The members of a list are read apart. What stands in a list of statements, in a block or
between the parentheses of a call is read exactly when the tokens can be divided into members
that are each read where they stand alone, with the room that the list has. How many members
there are makes no difference, and the members are the phrases that the grammar sees.
-/

namespace StackScript

variable {α : Type}

/-- A step of reading succeeds, notes no error and leaves the given tokens. -/
def Parser.ReadsTo (p : Parser α) (r : Reader) (rest : List Lexeme) : Prop :=
  ∃ value s, p r = .ok value s ∧ s.rest = rest ∧ s.errors = r.errors

/-- Tokens that are read where they stand alone. -/
def Parser.ReadsAlone (p : Parser α) (tokens : List Lexeme) : Prop :=
  ReadsTo p (Reader.start tokens) []

namespace Parse

open Reader (Onward Past)
open StackScript.Parser

variable {r s t r' s' : Reader} {room : Nat} {x y m tokens rest : List Lexeme}
  {members others : List (List Lexeme)} {noted : List SyntaxError}

-----------------------------------------------------------------------------------------
-- Members
-----------------------------------------------------------------------------------------

/-- A phrase that may stand in a list: it is read alike wherever its tokens stand, if the token
behind them is of the given kind, and it is what the grammar derives.
-/
structure Member (p : Parser α) (ends : Option Token → Prop) (phrase : List Lexeme → Prop)
    : Prop where
  last : ends none
  beside {x y : List Lexeme} {noted : List SyntaxError} {r s r' : Reader} {value : α}
      (beside : Beside x y noted r r') (read : p r = .ok value s) (still : Still x r s)
      (ends : x.length < s.rest.length ∨ ends (upcoming y))
    : ∃ s', p r' = .ok value s' ∧ Beside x y noted s s'
  derived {r s : Reader} {value : α} (placed : r.Placed) (clean : s.errors = [])
      (read : p r = .ok value s)
    : ∃ tokens, Past tokens r s ∧ phrase tokens

namespace Member

variable {p : Parser α} {ends : Option Token → Prop} {phrase : List Lexeme → Prop}

/-- What was read somewhere is read where its tokens stand alone. -/
theorem alone [Keeps Onward p] {value : α} (member : Member p ends phrase) (placed : r.Placed)
    (read : p r = .ok value t) (errors : t.errors = r.errors)
    : ∃ m, r.rest = m ++ t.rest ∧ ReadsAlone p m := by
  obtain ⟨m, past⟩ := (Onward.of_ok read).past
  have beside : Beside t.rest [] [] r (Reader.start m) :=
    ⟨⟨m, past.rest, (List.append_nil m).symm⟩, placed, Reader.placed_start m, rfl, errorLimit_pos⟩
  obtain ⟨s, read', behind⟩ :=
    member.beside beside read ⟨errors, Nat.le_refl _⟩ (.inr member.last)
  exact ⟨m, past.rest, value, s, read', behind.rest_eq rfl, behind.errors⟩

/-- What is read where it stands alone is read before the tokens that may stand behind it. -/
theorem again (member : Member p ends phrase) (alone : ReadsAlone p m)
    (left : r.rest = m ++ rest) (placed : r.Placed) (few : r.errors.length < errorLimit)
    (behind : ends (upcoming rest))
    : ReadsTo p r rest := by
  obtain ⟨value, s, read, none, clean⟩ := alone
  have beside : Beside [] rest r.errors (Reader.start m) r :=
    ⟨⟨m, (List.append_nil m).symm, left⟩, Reader.placed_start m, placed, rfl, few⟩
  obtain ⟨t, read', last⟩ := member.beside beside read ⟨clean, Nat.zero_le _⟩ (.inr behind)
  exact ⟨value, t, read', last.rest_eq none, last.errors⟩

theorem phrase_of_alone (member : Member p ends phrase)
    (alone : ReadsAlone p m)
    : phrase m := by
  obtain ⟨value, s, read, none, clean⟩ := alone
  obtain ⟨tokens, past, found⟩ := member.derived (Reader.placed_start m) clean read
  have whole : m = tokens := by
    have := past.rest
    rwa [none, List.append_nil] at this
  rwa [whole]

/-- Of two divisions of the same tokens, one into what is read alone and one into phrases, the
first parts are the same.
-/
theorem boundary {m' rest' : List Lexeme} (member : Member p ends phrase)
    (alone : ReadsAlone p m') (same : m' ++ rest' = m ++ rest)
    (behind : ends (upcoming rest'))
    (whole : ∀ {r : Reader}, r.Before (m ++ rest) → ∃ value, Yields r m rest value (p r))
    : m' = m ∧ rest' = rest := by
  obtain ⟨value, s, read, left, clean⟩ :=
    member.again (r := Reader.start (m ++ rest)) alone same.symm (Reader.placed_start _)
      errorLimit_pos behind
  obtain ⟨_, ⟨t, done, -, before⟩ | ⟨error, more, some, -⟩⟩ :=
    whole ⟨rfl, rfl, Reader.placed_start (m ++ rest)⟩
  · cases read.symm.trans done
    obtain rfl : rest' = rest := left.symm.trans before.rest
    exact ⟨List.append_cancel_right same, rfl⟩
  · rw [read, noted, clean] at some
    cases some

end Member

/-- Tokens that derive a statement, in which no function has two parameters of one name. -/
def IsStatement (tokens : List Lexeme) : Prop :=
  ∃ stmt, Grammar.Statement tokens stmt ∧ stmt.DistinctParams

/-- Tokens that derive an expression, in which no function has two parameters of one name. -/
def IsExpression (tokens : List Lexeme) : Prop :=
  ∃ e, Grammar.Expression tokens e ∧ e.DistinctParams

theorem statement_member (room : Nat)
    : Member (statement room) (· ≠ some (.keyword .elseWord)) IsStatement where
  last := nofun
  beside := statement_beside (Nat.le_refl room)
  derived placed clean read := by
    obtain ⟨tokens, past, derived, distinct, -⟩ := statement_derived placed clean read
    exact ⟨tokens, past, _, derived, distinct⟩

theorem expression_member (room : Nat) : Member (expression room) Stops IsExpression where
  last := stops_none
  beside := expression_beside (Nat.le_refl room)
  derived placed clean read := by
    obtain ⟨tokens, past, derived, distinct⟩ := expression_derived placed clean read
    exact ⟨tokens, past, _, derived, distinct⟩

-----------------------------------------------------------------------------------------
-- Lists of statements
-----------------------------------------------------------------------------------------

theorem IsExpression.ne_nil (phrase : IsExpression m) : m ≠ [] := by
  obtain ⟨e, derived, -⟩ := phrase
  obtain ⟨first, more, rfl, -⟩ := derived.opens
  exact nofun

theorem IsStatement.opens (phrase : IsStatement m)
    : ∃ first more,
        m = first :: more
        ∧ first.token ≠ .mark .rightBrace
        ∧ first.token ≠ .keyword .elseWord := by
  obtain ⟨stmt, derived, -⟩ := phrase
  exact derived.opens

/-- No `else` stands before further statements. -/
theorem upcoming_flatten_ne_else (phrases : ∀ m ∈ members, IsStatement m)
    (behind : upcoming rest ≠ some (.keyword .elseWord))
    : upcoming (members.flatten ++ rest) ≠ some (.keyword .elseWord) := by
  cases members with
  | nil => exact behind
  | cons m members =>
      obtain ⟨first, more, rfl, -, other⟩ := (phrases m List.mem_cons_self).opens
      exact fun same => other (Option.some.inj same)

theorem Ends.ne_else {nested : Bool} (ends : Ends nested rest)
    : upcoming rest ≠ some (.keyword .elseWord) := by
  rcases ends with rfl | ⟨-, brace⟩
  · exact nofun
  · rw [brace]
    exact nofun

theorem readsTo_listed {nested : Bool}
    : ReadsTo (listed room nested) r rest
      ↔ ∃ stmts s, statements room nested r = (stmts, s) ∧ s.rest = rest ∧ s.errors = r.errors := by
  constructor
  · rintro ⟨_, _, ⟨⟩, left, clean⟩
    exact ⟨_, _, rfl, left, clean⟩
  · rintro ⟨stmts, s, read, left, clean⟩
    exact ⟨stmts, s, by rw [listed, read], left, clean⟩

/-- A list of statements that is read consists of statements that are read where they stand
alone, by induction on the tokens that are left.
-/
theorem exists_members_of_listed {nested : Bool} (placed : r.Placed)
    (few : r.errors.length < errorLimit) (read : ReadsTo (listed room nested) r rest)
    : ∃ members : List (List Lexeme),
        r.rest = members.flatten ++ rest
        ∧ ∀ m ∈ members, ReadsAlone (statement room) m := by
  induction size : r.rest.length using Nat.strongRecOn generalizing r with
  | ind size ih =>
  obtain ⟨stmts, s, done, left, clean⟩ := readsTo_listed.mp read
  cases statements_read placed done with
  | ended here => exact ⟨[], left, nofun⟩
  | tooMany inside many => exact absurd few (Nat.not_lt.mpr many)
  | @statement _ _ _ t inside few first shorter behind =>
      have onward : Onward r t := .of_ok first
      have onward' := onward_statements room nested t
      rw [behind] at onward'
      have same : t.errors = r.errors := errors_part (.refl r) onward onward' clean
      obtain ⟨m, whole, alone⟩ := (statement_member room).alone placed first same
      obtain ⟨members, whole', others⟩ := ih _ (size ▸ shorter) (onward.placed placed)
        (same ▸ few) (readsTo_listed.mpr ⟨_, s, behind, left, clean.trans same.symm⟩) rfl
      refine ⟨m :: members, ?_, List.forall_mem_cons.mpr ⟨alone, others⟩⟩
      rw [whole, whole', List.flatten_cons, List.append_assoc]
  | error inside few wrong shorter behind =>
      exact absurd clean (errors_ne_of_error wrong behind)

/-- Statements that are read where they stand alone are read as a list. -/
theorem listed_of_members {nested : Bool}
    (alone : ∀ m ∈ members, ReadsAlone (statement room) m)
    (left : r.rest = members.flatten ++ rest) (placed : r.Placed)
    (few : r.errors.length < errorLimit) (ends : Ends nested rest)
    : ReadsTo (listed room nested) r rest := by
  induction members generalizing r with
  | nil =>
      exact readsTo_listed.mpr
        ⟨[], r, statements_of_ended (ended_of_rest left ends), left, rfl⟩
  | cons m members ih =>
      have phrases m found := (statement_member room).phrase_of_alone (alone m found)
      obtain ⟨first, others⟩ := List.forall_mem_cons.mp alone
      rw [List.flatten_cons, List.append_assoc] at left
      have inside : ¬Ended nested r := by
        obtain ⟨lexeme, more, rfl, other, -⟩ := (phrases m List.mem_cons_self).opens
        exact not_ended_of_rest nested left other
      have behind := upcoming_flatten_ne_else
        (fun m found => phrases m (List.mem_cons_of_mem _ found)) ends.ne_else
      obtain ⟨stmt, t, read, left', clean⟩ :=
        (statement_member room).again first left placed few behind
      have onward : Onward r t := .of_ok read
      obtain ⟨stmts, s, done, last, clean'⟩ := readsTo_listed.mp
        (ih others left' (onward.placed placed) (clean ▸ few))
      refine readsTo_listed.mpr ⟨stmt :: stmts, s, ?_, last, clean'.trans clean⟩
      rw [statements_of_statement placed inside few read, done]

/-- Tokens can be divided into statements in one way only. -/
theorem statements_unique (alone : ∀ m ∈ others, ReadsAlone (statement room) m)
    (phrases : ∀ m ∈ members, IsStatement m) (same : others.flatten = members.flatten)
    : others = members := by
  have phrases' m found := (statement_member room).phrase_of_alone (alone m found)
  induction members generalizing others with
  | nil =>
      cases others with
      | nil => rfl
      | cons m others =>
          obtain ⟨first, more, rfl, -⟩ := (phrases' m List.mem_cons_self).opens
          cases same
  | cons m members ih =>
      cases others with
      | nil =>
          obtain ⟨first, more, rfl, -⟩ := (phrases m List.mem_cons_self).opens
          cases same
      | cons m' others =>
          obtain ⟨⟨stmt, derived, distinct⟩, others⟩ := List.forall_mem_cons.mp phrases
          obtain ⟨-, phrases'⟩ := List.forall_mem_cons.mp phrases'
          obtain ⟨first, alone⟩ := List.forall_mem_cons.mp alone
          have behind {members : List (List Lexeme)} (phrases : ∀ m ∈ members, IsStatement m)
              : upcoming members.flatten ≠ some (.keyword .elseWord) := by
            rw [← List.append_nil members.flatten]
            exact upcoming_flatten_ne_else phrases nofun
          obtain ⟨rfl, tail⟩ := (statement_member room).boundary first same (behind phrases')
            fun before => ⟨stmt, statement_complete room derived distinct before
              fun _ => behind others⟩
          rw [ih alone others tail phrases']

-----------------------------------------------------------------------------------------
-- Arguments
-----------------------------------------------------------------------------------------

/-- Members with a comma between each and the next, and a closing parenthesis. -/
inductive Separated : List (List Lexeme) → List Lexeme → Prop
  | none (a : Span) : Separated [] [⟨.mark .rightParen, a⟩]
  | last (m : List Lexeme) (a : Span) : Separated [m] (m ++ [⟨.mark .rightParen, a⟩])
  | more {m second tokens : List Lexeme} {members : List (List Lexeme)} {a : Span}
      (others : Separated (second :: members) tokens)
      : Separated (m :: second :: members) (m ++ ⟨.mark .comma, a⟩ :: tokens)

/-- Arguments that are read are expressions that are read where they stand alone, by induction
on the tokens that are left.
-/
theorem exists_members_of_arguments {a : Span} (placed : r.Placed)
    (read : ReadsTo (argumentList room) r (⟨.mark .rightParen, a⟩ :: rest))
    : ∃ m members tokens,
        r.rest = tokens ++ rest
        ∧ Separated (m :: members) tokens
        ∧ ∀ part ∈ m :: members, ReadsAlone (expression room) part := by
  induction size : r.rest.length using Nat.strongRecOn generalizing r with
  | ind size ih =>
  obtain ⟨args, s, read, left, clean⟩ := read
  cases arguments_read placed read with
  | last first next =>
      obtain ⟨m, whole, alone⟩ := (expression_member room).alone placed first clean
      refine ⟨m, [], _, ?_, .last m a, List.forall_mem_singleton.mpr alone⟩
      rw [whole, left, List.append_assoc]
      rfl
  | @more _ others _ t first comma shorter behind =>
      have onward : Onward r t := .of_ok first
      have onward' : Onward t.advance s := .of_ok behind
      have same := errors_part (.refl r) onward ((Onward.advance t).trans onward') clean
      have same' : t.advance.errors = r.errors := (Reader.errors_advance t).trans same
      obtain ⟨m, whole, alone⟩ := (expression_member room).alone placed first same
      obtain ⟨b, past⟩ := Reader.past_advance comma
      obtain ⟨second, members, tokens, whole', separated, alone'⟩ := ih _ (size ▸ shorter)
        (past.placed (onward.placed placed))
        ⟨others, s, behind, left, clean.trans same'.symm⟩ rfl
      refine ⟨m, second :: members, _, ?_, .more (a := b) separated,
        List.forall_mem_cons.mpr ⟨alone, alone'⟩⟩
      rw [whole, past.rest, whole', List.append_assoc]
      rfl

/-- Expressions that are read where they stand alone are read as arguments. -/
theorem arguments_of_members (separated : Separated (m :: members) tokens)
    (alone : ∀ part ∈ m :: members, ReadsAlone (expression room) part)
    (left : r.rest = tokens ++ rest) (placed : r.Placed) (few : r.errors.length < errorLimit)
    : ∃ a, ReadsTo (argumentList room) r (⟨.mark .rightParen, a⟩ :: rest) := by
  induction members generalizing m tokens r with
  | nil =>
      obtain _ | ⟨_, a⟩ := separated
      rw [List.append_assoc] at left
      obtain ⟨e, s, read, left', clean⟩ := (expression_member room).again
        (alone m List.mem_cons_self) left placed few (EndsExpression.stops (.inr (.inl rfl)))
      have next : s.next? ≠ some (.mark .comma) := by
        rw [Reader.next?_of_rest left']
        exact nofun
      exact ⟨a, [e], s, (ArgumentsRead.last read next).eq_ok placed, left', clean⟩
  | cons second members ih =>
      obtain _ | _ | ⟨others⟩ := separated
      obtain ⟨first, alone⟩ := List.forall_mem_cons.mp alone
      rw [List.append_assoc] at left
      obtain ⟨e, t, read, left', clean⟩ := (expression_member room).again first left placed few
        (EndsExpression.stops (.inr (.inr rfl)))
      have comma : t.next? = some (.mark .comma) := Reader.next?_of_rest left'
      have onward : Onward r t := .of_ok read
      have same : t.advance.errors = r.errors := (Reader.errors_advance t).trans clean
      obtain ⟨a, args, s, behind, last, clean'⟩ := ih others alone (rest_advance_of_rest left')
        ((onward.trans (.advance t)).placed placed) (same ▸ few)
      have more := ArgumentsRead.more read comma (argument_shorter read) behind
      exact ⟨a, e :: args, s, more.eq_ok placed, last, clean'.trans same⟩

/-- Behind the first member stands a parenthesis or a comma. -/
theorem Separated.behind (separated : Separated (m :: members) tokens)
    : ∃ sign more,
        tokens = m ++ sign :: more
        ∧ EndsExpression (some sign.token)
        ∧ (sign.token = .mark .rightParen ∧ members = [] ∧ more = []
          ∨ sign.token = .mark .comma ∧ Separated members more) := by
  cases separated with
  | last m a => exact ⟨_, _, rfl, .inr (.inl rfl), .inl ⟨rfl, rfl, rfl⟩⟩
  | more others => exact ⟨_, _, rfl, .inr (.inr rfl), .inr ⟨rfl, others⟩⟩

/-- If the parenthesis alone can be divided into members, the first of them has no tokens. -/
theorem Separated.first_eq_nil (separated : Separated (m :: members) tokens)
    (closing : Separated [] tokens)
    : m = [] := by
  obtain ⟨sign, more, same, -⟩ := separated.behind
  cases closing
  cases m with
  | nil => rfl
  | cons first m => cases m <;> cases same

/-- Tokens can be divided into arguments in one way only. -/
theorem arguments_unique (separated' : Separated others tokens)
    (alone : ∀ m ∈ others, ReadsAlone (expression room) m)
    (separated : Separated members tokens) (phrases : ∀ m ∈ members, IsExpression m)
    : others = members := by
  have phrases' m found := (expression_member room).phrase_of_alone (alone m found)
  induction members generalizing others tokens with
  | nil =>
      cases others with
      | nil => rfl
      | cons m others =>
          exact absurd (separated'.first_eq_nil separated) (phrases' m List.mem_cons_self).ne_nil
  | cons m members ih =>
      cases others with
      | nil =>
          exact absurd (separated.first_eq_nil separated') (phrases m List.mem_cons_self).ne_nil
      | cons m' others =>
          obtain ⟨⟨e, derived, distinct⟩, later⟩ := List.forall_mem_cons.mp phrases
          obtain ⟨first, alone⟩ := List.forall_mem_cons.mp alone
          obtain ⟨sign, more, rfl, ends, others⟩ := separated.behind
          obtain ⟨sign', more', same, ends', others'⟩ := separated'.behind
          obtain ⟨rfl, tail⟩ := (expression_member room).boundary first same.symm ends'.stops
            fun before => ⟨e, expression_complete room derived distinct before ends⟩
          obtain ⟨rfl, rfl⟩ := List.cons.inj tail
          rcases others with ⟨closing, rfl, -⟩ | ⟨comma, others⟩ <;>
            rcases others' with ⟨closing', rfl, -⟩ | ⟨comma', others'⟩
          · rfl
          · cases closing.symm.trans comma'
          · cases comma.symm.trans closing'
          · rw [ih others' alone others later fun part found =>
              phrases' part (List.mem_cons_of_mem _ found)]

-----------------------------------------------------------------------------------------
-- Blocks and calls
-----------------------------------------------------------------------------------------

/-- Members one after another between braces. -/
def Braced (members : List (List Lexeme)) (tokens : List Lexeme) : Prop :=
  ∃ a b, tokens = ⟨.mark .leftBrace, a⟩ :: (members.flatten ++ [⟨.mark .rightBrace, b⟩])

/-- The arguments of a call, if there are any, and its closing parenthesis. -/
def passed (room : Nat) : Parser (List Expr) := do
  let args ←
    if (← Parser.peek?) = some (.mark .rightParen) then pure []
    else argumentList room
  Parser.expect (.mark .rightParen)
  return args

theorem readsTo_block {a b : Span} {inner : List Lexeme}
    (left : r.rest = ⟨.mark .leftBrace, a⟩ :: (inner ++ ⟨.mark .rightBrace, b⟩ :: rest))
    (read : ReadsTo (listed room true) r.advance (⟨.mark .rightBrace, b⟩ :: rest))
    : ReadsTo (block room) r rest := by
  obtain ⟨body, t, done, left', clean⟩ := readsTo_listed.mp read
  refine ⟨body, t.advance, block_of_statements (Reader.next?_of_rest left) done
    (Reader.next?_of_rest left'), rest_advance_of_rest left', ?_⟩
  rw [Reader.errors_advance, clean, Reader.errors_advance]

theorem listed_of_block (read : ReadsTo (block room) r rest)
    : ∃ a b,
        ⟨.mark .leftBrace, a⟩ :: r.advance.rest = r.rest
        ∧ ReadsTo (listed room true) r.advance (⟨.mark .rightBrace, b⟩ :: rest) := by
  obtain ⟨body, s, read, left, clean⟩ := read
  obtain ⟨t, opening, inner, closing, rfl⟩ := block_eq_ok read
  obtain ⟨a, past⟩ := Reader.past_advance opening
  obtain ⟨b, past'⟩ := Reader.past_advance closing
  refine ⟨a, b, past.rest.symm, readsTo_listed.mpr ⟨body, t, inner, ?_, ?_⟩⟩
  · rw [past'.rest, left]
    rfl
  · rw [Reader.errors_advance, ← clean, Reader.errors_advance]

theorem passed_of_closing (closing : r.next? = some (.mark .rightParen))
    : passed room r = .ok [] r.advance := by
  rw [passed, peek?_bind, if_pos closing, pure_bind]
  exact expect_bind closing

theorem passed_of_arguments {args : List Expr} (placed : r.Placed)
    (read : argumentList room r = .ok args t) (closing : t.next? = some (.mark .rightParen))
    : passed room r = .ok args t.advance := by
  obtain ⟨token, next, opens⟩ := arguments_opens placed read
  rw [passed, peek?_bind, if_neg (next?_ne_of_found next opens rfl), bind_of_ok read]
  exact expect_bind closing

theorem passed_eq_ok {args : List Expr} (read : passed room r = .ok args s)
    : (r.next? = some (.mark .rightParen) ∧ s = r.advance)
      ∨ ∃ t,
          argumentList room r = .ok args t
          ∧ t.next? = some (.mark .rightParen)
          ∧ s = t.advance := by
  rw [passed, peek?_bind] at read
  split at read
  · simp only [pure_bind, bind_ok_iff, expect_ok_iff, pure_ok_iff] at read
    obtain ⟨_, _, ⟨closing, rfl⟩, -, rfl⟩ := read
    exact .inl ⟨closing, rfl⟩
  · obtain ⟨_, t, inner, others⟩ := bind_ok_iff.mp read
    simp only [bind_ok_iff, expect_ok_iff, pure_ok_iff] at others
    obtain ⟨_, _, ⟨closing, rfl⟩, rfl, rfl⟩ := others
    exact .inr ⟨t, inner, closing, rfl⟩

-----------------------------------------------------------------------------------------
-- Siblings
-----------------------------------------------------------------------------------------

/-- What is read as a list is what can be divided into members that are read where they stand
alone, and the division is that into phrases.
-/
structure Apart {β : Type} (list : Parser α) (member : Parser β) (behind : List Lexeme → Prop)
    (lists : List (List Lexeme) → List Lexeme → Prop) (phrase : List Lexeme → Prop)
    : Prop where
  divides {r : Reader} {tokens rest : List Lexeme} (placed : r.Placed)
      (few : r.errors.length < errorLimit) (left : r.rest = tokens ++ rest)
      (read : ReadsTo list r rest)
    : ∃ members, lists members tokens ∧ ∀ m ∈ members, ReadsAlone member m
  gathers {r : Reader} {members : List (List Lexeme)} {tokens rest : List Lexeme}
      (placed : r.Placed) (few : r.errors.length < errorLimit) (left : r.rest = tokens ++ rest)
      (ends : behind rest) (parts : lists members tokens)
      (alone : ∀ m ∈ members, ReadsAlone member m)
    : ReadsTo list r rest
  unique {members others : List (List Lexeme)} {tokens : List Lexeme}
      (parts' : lists others tokens) (alone : ∀ m ∈ others, ReadsAlone member m)
      (parts : lists members tokens) (phrases : ∀ m ∈ members, phrase m)
    : others = members

theorem listed_apart (room : Nat) (nested : Bool)
    : Apart (listed room nested) (statement room) (Ends nested)
        (fun members tokens => members.flatten = tokens) IsStatement where
  divides placed few left read := by
    obtain ⟨members, whole, alone⟩ := exists_members_of_listed placed few read
    exact ⟨members, List.append_cancel_right (whole.symm.trans left), alone⟩
  gathers placed few left ends parts alone :=
    listed_of_members alone (parts ▸ left) placed few ends
  unique parts' alone parts phrases := statements_unique alone phrases (parts'.trans parts.symm)

theorem block_apart (room : Nat)
    : Apart (block room) (statement room) (fun _ => True) Braced IsStatement where
  divides {r tokens rest} placed few left read := by
    obtain ⟨a, b, whole, inner⟩ := listed_of_block read
    obtain ⟨members, whole', alone⟩ := exists_members_of_listed ((Onward.advance r).placed placed)
      ((Reader.errors_advance r).symm ▸ few) inner
    have same : tokens ++ rest
        = ⟨.mark .leftBrace, a⟩ :: (members.flatten ++ [⟨.mark .rightBrace, b⟩]) ++ rest := by
      rw [← left, ← whole, whole', List.cons_append, List.append_assoc]
      rfl
    exact ⟨members, ⟨a, b, List.append_cancel_right same⟩, alone⟩
  gathers {r _ _ _} placed few left _ parts alone := by
    obtain ⟨a, b, rfl⟩ := parts
    rw [List.cons_append, List.append_assoc] at left
    exact readsTo_block left (listed_of_members alone (rest_advance_of_rest left)
      ((Onward.advance r).placed placed) ((Reader.errors_advance r).symm ▸ few) (.inr ⟨rfl, rfl⟩))
  unique parts' alone parts phrases := by
    obtain ⟨a, b, rfl⟩ := parts
    obtain ⟨a', b', same⟩ := parts'
    obtain ⟨-, same⟩ := List.cons.inj same
    exact statements_unique alone phrases (List.append_inj_left' same rfl).symm

theorem passed_apart (room : Nat)
    : Apart (passed room) (expression room) (fun _ => True) Separated IsExpression where
  divides {r tokens rest} placed few left read := by
    obtain ⟨args, s, read, last, clean⟩ := read
    rcases passed_eq_ok read with ⟨closing, rfl⟩ | ⟨t, inner, closing, rfl⟩
    · obtain ⟨a, past⟩ := Reader.past_advance closing
      have whole := past.rest
      rw [last, left] at whole
      obtain rfl := List.append_cancel_right whole
      exact ⟨[], .none a, nofun⟩
    · obtain ⟨a, past⟩ := Reader.past_advance closing
      have whole := past.rest
      rw [last] at whole
      obtain ⟨m, members, tokens', whole', separated, alone⟩ :=
        exists_members_of_arguments placed
          ⟨args, t, inner, whole, (Reader.errors_advance t).symm.trans clean⟩
      obtain rfl := List.append_cancel_right (left.symm.trans whole')
      exact ⟨_, separated, alone⟩
  gathers {r members _ _} placed few left _ parts alone := by
    cases members with
    | nil =>
        cases parts
        exact ⟨[], r.advance, passed_of_closing (Reader.next?_of_rest left),
          rest_advance_of_rest left, Reader.errors_advance r⟩
    | cons m members =>
        obtain ⟨a, args, t, read, left', clean⟩ :=
          arguments_of_members parts alone left placed few
        exact ⟨args, t.advance, passed_of_arguments placed read (Reader.next?_of_rest left'),
          rest_advance_of_rest left', (Reader.errors_advance t).trans clean⟩
  unique := arguments_unique

end Parse

end StackScript
