import StackScript.Proofs.Parse.Forms

/-! Reading depends on the tokens of a phrase alone. A phrase that was read without noting an
error is read alike at every other place before the same tokens, whatever stands behind them
and whatever errors were noted earlier, as long as there is no less room and no list of
statements gives up. Where such a phrase ends with the common tokens, what stands behind them
must not go on with it.
-/

namespace StackScript

namespace Parse

open Reader (Onward Past)
open StackScript.Parser

variable {x y : List Lexeme} {noted : List SyntaxError} {r s t u r' s' : Reader}

/-- With this token an expression neither goes on nor turns out to be an assignment. -/
structure Stops (next : Option Token) : Prop where
  last (level : Nat) : ¬goesOn level next
  plain : next.bind assignment? = none

theorem EndsExpression.stops {next : Option Token} (ends : EndsExpression next) : Stops next :=
  ⟨ends.not_goesOn, ends.assignment?⟩

theorem stops_none : Stops none where
  last level := by
    cases level with
    | zero => exact nofun
    | succ level => exact fun goes => goes rfl
  plain := rfl

-----------------------------------------------------------------------------------------
-- Places before the same tokens
-----------------------------------------------------------------------------------------

/-- Two places before the same tokens, behind which the given ones stand, with the given errors
noted at the second place.
-/
structure Beside (x y : List Lexeme) (noted : List SyntaxError) (r r' : Reader) : Prop where
  ahead : ∃ same, r.rest = same ++ x ∧ r'.rest = same ++ y
  placed : r.Placed
  placed' : r'.Placed
  errors : r'.errors = noted
  few : noted.length < errorLimit

/-- From one place to another no error was noted, and the given tokens are left. -/
structure Still (x : List Lexeme) (r s : Reader) : Prop where
  errors : s.errors = r.errors
  within : x.length ≤ s.rest.length

/-- From one place to another no error was noted, and a token is left before the given ones. -/
structure Quietly (x : List Lexeme) (r s : Reader) : Prop where
  errors : s.errors = r.errors
  inside : x.length < s.rest.length

theorem errorLimit_pos : 0 < errorLimit := by
  decide

theorem inside_of_next {token : Token} (next : r.next? = some token)
    (within : x.length ≤ r.advance.rest.length)
    : x.length < r.rest.length := by
  have := length_rest_pos next
  rw [length_rest_advance] at within
  omega

namespace Beside

/-- While tokens are left that both places stand before, the next token is the same. -/
theorem next? (beside : Beside x y noted r r') (inside : x.length < r.rest.length)
    : r'.next? = r.next? := by
  obtain ⟨same, left, left'⟩ := beside.ahead
  cases same with
  | nil =>
      rw [left] at inside
      exact absurd inside (Nat.lt_irrefl _)
  | cons lexeme same =>
      rw [Reader.next?_of_rest left, Reader.next?_of_rest left']

/-- The end of the common tokens is reached at both places. -/
theorem rest_eq (beside : Beside x y noted r r') (left : r.rest = x) : r'.rest = y := by
  obtain ⟨same, ahead, ahead'⟩ := beside.ahead
  obtain rfl : same = [] := List.append_left_eq_self.mp (ahead.symm.trans left)
  exact ahead'

/-- Both places pass over the same token. -/
theorem step {token : Token} (beside : Beside x y noted r r') (next : r.next? = some token)
    (within : x.length ≤ r.advance.rest.length)
    : r'.next? = some token ∧ Beside x y noted r.advance r'.advance := by
  have inside := inside_of_next next within
  obtain ⟨same, left, left'⟩ := beside.ahead
  cases same with
  | nil =>
      rw [left] at inside
      exact absurd inside (Nat.lt_irrefl _)
  | cons lexeme same =>
      exact ⟨(beside.next? inside).trans next,
        ⟨same, rest_advance_of_rest left, rest_advance_of_rest left'⟩,
        (Onward.advance r).placed beside.placed, (Onward.advance r').placed beside.placed',
        (Reader.errors_advance r').trans beside.errors, beside.few⟩

/-- What is known of the next token at the first place and, unless a common token is left, of the
one behind the common tokens is known at the second place.
-/
theorem holds_next? (holds : Option Token → Prop) (beside : Beside x y noted r r')
    (here : holds r.next?) (ends : x.length < r.rest.length ∨ holds (upcoming y))
    : holds r'.next? := by
  rcases ends with inside | behind
  · rwa [beside.next? inside]
  · obtain ⟨same, left, left'⟩ := beside.ahead
    cases same with
    | nil => rwa [Reader.next?, left']
    | cons lexeme same =>
        rw [Reader.next?_of_rest left] at here
        rwa [Reader.next?_of_rest left']

/-- With two tokens left that both places stand before, the same assignment is ahead. -/
theorem assignmentAhead? (beside : Beside x y noted r r') (two : x.length + 1 < r.rest.length)
    : Parse.assignmentAhead? r' = Parse.assignmentAhead? r := by
  obtain ⟨same, left, left'⟩ := beside.ahead
  match same with
  | [] | [_] =>
      rw [left] at two
      simp only [List.nil_append, List.length_append, List.length_singleton] at two
      omega
  | ⟨token, a⟩ :: ⟨sign, b⟩ :: same =>
      rw [Parse.assignmentAhead?, Parse.assignmentAhead?, left, left']
      cases token <;> rfl

/-- If no assignment is ahead at the first place, none is at the second. -/
theorem assignmentAhead?_eq_none (beside : Beside x y noted r r')
    (plain : Parse.assignmentAhead? r = none) (some : x.length < r.rest.length)
    (ends : x.length + 1 < r.rest.length ∨ Stops (upcoming y))
    : Parse.assignmentAhead? r' = none := by
  rcases ends with two | stops
  · exact (beside.assignmentAhead? two).trans plain
  obtain ⟨same, left, left'⟩ := beside.ahead
  match same with
  | [] =>
      rw [left] at some
      exact absurd some (Nat.lt_irrefl _)
  | [⟨token, a⟩] =>
      rw [Parse.assignmentAhead?, left']
      cases token with
      | name name =>
          cases y with
          | nil => rfl
          | cons sign more => exact congrArg (Option.map _) stops.plain
      | _ => rfl
  | _ :: _ :: same =>
      refine (beside.assignmentAhead? ?_).trans plain
      rw [left]
      simp only [List.cons_append, List.length_cons, List.length_append]
      omega

/-- A list of statements ends at both places or at none. -/
theorem ended_iff {nested : Bool} (beside : Beside x y noted r r')
    (inside : x.length < r.rest.length)
    : Ended nested r' ↔ Ended nested r := by
  obtain ⟨same, left, left'⟩ := beside.ahead
  have next := beside.next? inside
  cases same with
  | nil =>
      rw [left] at inside
      exact absurd inside (Nat.lt_irrefl _)
  | cons lexeme same => rw [Ended, Ended, left, left', next]; simp

/-- The spans from one pair of places to another are the same. -/
theorem merge (first : Beside x y noted r r') (second : Beside x y noted s s')
    (onward : Onward r s) (onward' : Onward r' s') (shorter : s.rest.length < r.rest.length)
    : r.here.merge s.previous = r'.here.merge s'.previous := by
  obtain ⟨front, left, left'⟩ := first.ahead
  obtain ⟨back, behind, behind'⟩ := second.ahead
  obtain ⟨read, past⟩ := onward.past
  obtain ⟨read', past'⟩ := onward'.past
  have whole : front = read ++ back := by
    have := past.rest
    rw [left, behind, ← List.append_assoc] at this
    exact List.append_cancel_right this
  have whole' : front = read' ++ back := by
    have := past'.rest
    rw [left', behind', ← List.append_assoc] at this
    exact List.append_cancel_right this
  obtain rfl : read = read' := List.append_cancel_right (whole.symm.trans whole')
  have some : read ≠ [] := by
    rintro rfl
    rw [past.rest] at shorter
    exact absurd shorter (Nat.lt_irrefl _)
  rw [merge_of_past past some, merge_of_past past' some]

end Beside

/-- Where errors are only added, a part adds none if the whole adds none. -/
theorem errors_part (first : Onward r t) (middle : Onward t u) (last : Onward u s)
    (errors : s.errors = r.errors)
    : u.errors = t.errors := by
  have one := first.errors.length_le
  have two := middle.errors.length_le
  have three := last.errors.length_le
  have all := congrArg List.length errors
  exact (middle.errors.eq_of_length (by omega)).symm

namespace Still

/-- Reading up to a token that is passed over leaves that token. -/
theorem upTo {token : Token} (still : Still x r s) (first : Onward r t) (middle : Onward t u)
    (next : u.next? = some token) (last : Onward u.advance s)
    : Quietly x t u :=
  ⟨errors_part first middle ((Onward.advance u).trans last) still.errors,
    inside_of_next next (Nat.le_trans still.within last.length_le)⟩

/-- A part of what was read without errors was read without errors. -/
theorem part (still : Still x r s) (first : Onward r t) (middle : Onward t u) (last : Onward u s)
    : Still x t u :=
  ⟨errors_part first middle last still.errors, Nat.le_trans still.within last.length_le⟩

theorem within_of (still : Still x r s) (onward : Onward t s) : x.length ≤ t.rest.length :=
  Nat.le_trans still.within onward.length_le

end Still

/-- A token that is left behind a part of what was read is left behind the whole. -/
theorem inside_before {stops : Prop} (onward : Onward r s)
    (ends : x.length < s.rest.length ∨ stops)
    : x.length < r.rest.length ∨ stops :=
  ends.imp_left fun inside => Nat.lt_of_lt_of_le inside onward.length_le

namespace Quietly

theorem still (quiet : Quietly x r s) : Still x r s :=
  ⟨quiet.errors, Nat.le_of_lt quiet.inside⟩

/-- A part of what was read quietly was read quietly. -/
theorem part (quiet : Quietly x r s) (first : Onward r t) (middle : Onward t u)
    (last : Onward u s)
    : Quietly x t u :=
  ⟨errors_part first middle last quiet.errors,
    Nat.lt_of_lt_of_le quiet.inside last.length_le⟩

theorem inside_of (quiet : Quietly x r s) (onward : Onward t s) : x.length < t.rest.length :=
  Nat.lt_of_lt_of_le quiet.inside onward.length_le

end Quietly

-----------------------------------------------------------------------------------------
-- Parameters
-----------------------------------------------------------------------------------------

theorem parameters_beside {seen params : List String} (beside : Beside x y noted r r')
    (read : parameters seen r = .ok params s) (inside : x.length < s.rest.length)
    : ∃ s', parameters seen r' = .ok params s' ∧ Beside x y noted s s' := by
  revert r'
  fun_induction parameters seen r with
  | case1 => cases read
  | case2 seen r name next behind new comma ih =>
      intro r' beside
      have onward : Onward r.advance.advance s :=
        @Keeps.of_ok _ _ _ (parameters_keeps _) _ _ _ read
      have within := Nat.le_trans (Nat.le_of_lt inside) onward.length_le
      obtain ⟨next', beside⟩ :=
        beside.step next (Nat.le_trans within (Onward.advance _).length_le)
      obtain ⟨comma', beside⟩ := beside.step comma within
      obtain ⟨s', read', beside⟩ := ih read beside
      exact ⟨s', (parameters_of_comma next' new comma').trans read', beside⟩
  | case3 seen r name next behind new last =>
      intro r' beside
      obtain ⟨rfl, rfl⟩ := EStateM.Result.ok.inj read
      obtain ⟨next', beside⟩ := beside.step next (Nat.le_of_lt inside)
      have last' : r'.advance.next? ≠ some (.mark .comma) := by
        rwa [beside.next? inside]
      exact ⟨_, parameters_of_last next' new last', beside⟩
  | case4 => cases read

theorem parameterList_beside {params : List String} (beside : Beside x y noted r r')
    (read : parameterList r = .ok params s) (inside : x.length < s.rest.length)
    : ∃ s', parameterList r' = .ok params s' ∧ Beside x y noted s s' := by
  obtain ⟨opening, ⟨closing, rfl, rfl⟩ | ⟨t, names, closing, rfl⟩⟩ := parameterList_eq_ok read
  · obtain ⟨opening', beside⟩ := beside.step opening
      (Nat.le_trans (Nat.le_of_lt inside) (Onward.advance _).length_le)
    obtain ⟨closing', beside⟩ := beside.step closing (Nat.le_of_lt inside)
    exact ⟨_, parameterList_of_next opening' closing', beside⟩
  · have onward : Onward r.advance t := @Keeps.of_ok _ _ _ (parameters_keeps _) _ _ _ names
    have inner := Nat.lt_of_lt_of_le inside (Onward.advance t).length_le
    obtain ⟨opening', beside⟩ := beside.step opening
      (Nat.le_trans (Nat.le_of_lt inner) onward.length_le)
    obtain ⟨t', names', beside⟩ := parameters_beside beside names inner
    obtain ⟨closing', beside⟩ := beside.step closing (Nat.le_of_lt inside)
    exact ⟨_, parameterList_of_names opening' names' closing', beside⟩

-----------------------------------------------------------------------------------------
-- Phrases
-----------------------------------------------------------------------------------------

theorem assignmentAhead?_of_next {name : String} {token : Token} {how : Assignment}
    (named : r.next? = some (.name name)) (next : r.advance.next? = some token)
    (sign : assignment? token = some how)
    : assignmentAhead? r = some (name, how) := by
  obtain ⟨a, rest, left⟩ := Reader.rest_of_next? named
  obtain ⟨b, more, behind⟩ := Reader.rest_of_next? next
  rw [Reader.rest_advance, left] at behind
  rw [List.tail_cons] at behind
  rw [assignmentAhead?, left, behind]
  exact congrArg (Option.map fun how => (name, how)) sign

/-- More room is at least one more if less room is. -/
theorem exists_less {room room' : Nat} (more : room + 1 ≤ room')
    : ∃ less, room' = less + 1 ∧ room ≤ less := by
  obtain ⟨less, rfl⟩ := Nat.exists_eq_add_one.mpr (Nat.zero_lt_of_lt more)
  exact ⟨less, rfl, Nat.le_of_succ_le_succ more⟩

/-- A statement that is read at both places has the same span. -/
theorem respan {room : Nat} (wrap : Span → Stmt) (beside : Beside x y noted r r')
    (behind : Beside x y noted s s') (onward : Onward r s)
    (shorter : s.rest.length < r.rest.length)
    (read' : statement room r' = .ok (wrap (r'.here.merge s'.previous)) s')
    : ∃ s',
        statement room r' = .ok (wrap (r.here.merge s.previous)) s'
        ∧ Beside x y noted s s' := by
  refine ⟨s', ?_, behind⟩
  rwa [beside.merge behind onward (.of_ok read') shorter]

/-- What the first parser reads without an error, the second reads at a place beside. -/
def Repeats {α : Type} (x y : List Lexeme) (noted : List SyntaxError) (p p' : Parser α) : Prop :=
  ∀ {r s r' value},
    Beside x y noted r r'
    → p r = .ok value s
    → Quietly x r s
    → ∃ s', p' r' = .ok value s' ∧ Beside x y noted s s'

/-- What the first parser reads without an error, the second reads at a place beside, also up to
the end of the common tokens if what stands behind them stops an expression.
-/
def RepeatsToEnd {α : Type} (x y : List Lexeme) (noted : List SyntaxError) (p p' : Parser α)
    : Prop :=
  ∀ {r s r' value},
    Beside x y noted r r'
    → p r = .ok value s
    → Still x r s
    → (x.length < s.rest.length ∨ Stops (upcoming y))
    → ∃ s', p' r' = .ok value s' ∧ Beside x y noted s s'

theorem RepeatsToEnd.repeats {α : Type} {p p' : Parser α}
    (repeats : RepeatsToEnd x y noted p p')
    : Repeats x y noted p p' :=
  fun beside read quiet => repeats beside read quiet.still (.inl quiet.inside)

/-- Up to some room, expressions and statements are read alike at places beside each other that
have no less room. A statement may reach the end of the common tokens, if no `else` stands
behind them.
-/
structure Alike (x y : List Lexeme) (noted : List SyntaxError) (top : Nat) : Prop where
  expression {room room' : Nat} (below : room ≤ top) (more : room ≤ room')
    : Repeats x y noted (expression room) (expression room')
  statement {room room' : Nat} {r s r' : Reader} {stmt : Stmt} (below : room ≤ top)
      (more : room ≤ room') (beside : Beside x y noted r r')
      (read : statement room r = .ok stmt s) (still : Still x r s)
      (ends : x.length < s.rest.length ∨ upcoming y ≠ some (.keyword .elseWord))
    : ∃ s', Parse.statement room' r' = .ok stmt s' ∧ Beside x y noted s s'

namespace Alike

variable {top room room' : Nat}

/-- An expression and the token behind it. -/
theorem followed {e : Expr} {token : Token} (alike : Alike x y noted top)
    (below : room ≤ top) (more : room ≤ room') (beside : Beside x y noted r r')
    (read : Parse.expression room r = .ok e t) (next : t.next? = some token)
    (still : Still x r t.advance)
    : ∃ t',
        Parse.expression room' r' = .ok e t'
        ∧ t'.next? = some token
        ∧ Beside x y noted t.advance t'.advance := by
  have quiet := still.upTo (.refl r) (.of_ok read) next (.refl _)
  obtain ⟨t', read', behind⟩ := alike.expression below more beside read quiet
  obtain ⟨next', behind⟩ := behind.step next still.within
  exact ⟨t', read', next', behind⟩

/-- Arguments are read alike, by induction on the tokens that are left. -/
theorem arguments (alike : Alike x y noted top) (below : room ≤ top) (more : room ≤ room')
    : Repeats x y noted (arguments room) (arguments room') := by
  intro r s r' args beside read quiet
  induction size : r.rest.length using Nat.strongRecOn generalizing r r' args with
  | ind size ih =>
  cases arguments_read beside.placed read with
  | last first next =>
      obtain ⟨s', first', behind⟩ := alike.expression below more beside first quiet
      rw [← behind.next? quiet.inside] at next
      exact ⟨s', (ArgumentsRead.last first' next).eq_ok beside.placed', behind⟩
  | @more _ _ _ t first comma shorter others =>
      have onward : Onward r t := .of_ok first
      have onward' : Onward t.advance s := .of_ok others
      have rest := onward.trans (.advance t)
      obtain ⟨t', first', comma', behind⟩ := alike.followed below more beside first comma
        (quiet.still.part (.refl r) rest onward')
      obtain ⟨s', others', behind⟩ :=
        ih _ (size ▸ shorter) behind others (quiet.part rest onward' (.refl s)) rfl
      have more' := ArgumentsRead.more first' comma' (argument_shorter first') others'
      exact ⟨s', more'.eq_ok beside.placed', behind⟩

/-- Calls are read alike, by induction on the room, of which each takes one. -/
theorem callTail {callee : Expr} (alike : Alike x y noted top) (below : room ≤ top)
    (more : room ≤ room')
    : RepeatsToEnd x y noted (callTail room callee) (callTail room' callee) := by
  intro r s r' e beside read still ends
  induction room using Nat.strongRecOn generalizing room' callee r r' with
  | ind room ih =>
  cases callTail_read read with
  | done last =>
      have last' : r'.next? ≠ some (.mark .leftParen) :=
        beside.holds_next? (· ≠ _) last (ends.imp_right fun stops => stops.last 0)
      exact ⟨r', (CallTailRead.done last').eq_ok beside.placed', beside⟩
  | @noArguments less _ _ deeper opening closing others =>
      subst deeper
      obtain ⟨less', rfl, enough⟩ := exists_less more
      have onward : Onward r.advance.advance s := .of_ok others
      obtain ⟨opening', inner⟩ :=
        beside.step opening (still.within_of ((Onward.advance _).trans onward))
      obtain ⟨closing', inner⟩ := inner.step closing (still.within_of onward)
      obtain ⟨s', others', behind⟩ := ih less (Nat.lt_succ_self less) (Nat.le_of_succ_le below)
        enough inner others (still.part ((Onward.advance r).trans (.advance _)) onward (.refl s))
      exact ⟨s', (CallTailRead.noArguments rfl opening' closing' others').eq_ok beside.placed',
        behind⟩
  | @call less _ _ _ t deeper opening inner closing others =>
      subst deeper
      obtain ⟨less', rfl, enough⟩ := exists_less more
      have onward : Onward r.advance t := .of_ok inner
      have onward' : Onward t.advance s := .of_ok others
      have rest := (Onward.advance t).trans onward'
      obtain ⟨opening', first⟩ := beside.step opening (still.within_of (onward.trans rest))
      obtain ⟨t', inner', first⟩ := alike.arguments (Nat.le_of_succ_le below) enough first inner
        (still.upTo (.advance r) onward closing onward')
      obtain ⟨closing', first⟩ := first.step closing (still.within_of onward')
      obtain ⟨s', others', behind⟩ := ih less (Nat.lt_succ_self less) (Nat.le_of_succ_le below)
        enough first others
        (still.part (((Onward.advance r).trans onward).trans (.advance t)) onward' (.refl s))
      exact ⟨s', (CallTailRead.call rfl opening' inner' closing' others').eq_ok beside.placed',
        behind⟩

/-- Lists of statements are read alike, by induction on the tokens that are left. -/
theorem statements {nested : Bool} {stmts : List Stmt} (alike : Alike x y noted top)
    (below : room ≤ top) (more : room ≤ room') (beside : Beside x y noted r r')
    (read : statements room nested r = (stmts, s)) (quiet : Quietly x r s)
    : ∃ s', Parse.statements room' nested r' = (stmts, s') ∧ Beside x y noted s s' := by
  induction size : r.rest.length using Nat.strongRecOn generalizing r r' stmts with
  | ind size ih =>
  cases statements_read beside.placed read with
  | ended here =>
      exact ⟨r', statements_of_ended ((beside.ended_iff quiet.inside).mpr here), beside⟩
  | tooMany inside many =>
      have none := quiet.inside
      rw [Reader.skipAll, rest_skip, List.drop_length] at none
      exact absurd none (Nat.not_lt_zero _)
  | @statement _ _ _ t inside few first shorter others =>
      have onward : Onward r t := .of_ok first
      have onward' := onward_statements room nested t
      rw [others] at onward'
      have strict := quiet.part (.refl r) onward onward'
      obtain ⟨t', first', behind⟩ :=
        alike.statement below more beside first strict.still (.inl strict.inside)
      obtain ⟨s', others', behind⟩ :=
        ih _ (size ▸ shorter) behind others (quiet.part onward onward' (.refl s)) rfl
      have inside' : ¬Ended nested r' := by
        rwa [beside.ended_iff (quiet.inside_of (onward.trans onward'))]
      have few' : r'.errors.length < errorLimit := beside.errors ▸ beside.few
      refine ⟨s', ?_, behind⟩
      rw [statements_of_statement beside.placed' inside' few' first', others']
  | error inside few wrong shorter others =>
      exact absurd quiet.errors (errors_ne_of_error wrong others)

theorem block {body : List Stmt} (alike : Alike x y noted top) (below : room ≤ top)
    (more : room ≤ room') (beside : Beside x y noted r r')
    (read : block room r = .ok body s) (still : Still x r s)
    : ∃ s', Parse.block room' r' = .ok body s' ∧ Beside x y noted s s' := by
  obtain ⟨t, opening, inner, closing, rfl⟩ := block_eq_ok read
  have onward := onward_statements room true r.advance
  rw [inner] at onward
  obtain ⟨opening', behind⟩ :=
    beside.step opening (still.within_of (onward.trans (.advance t)))
  obtain ⟨t', inner', behind⟩ := alike.statements below more behind inner
    (still.upTo (.advance r) onward closing (.refl _))
  obtain ⟨closing', behind⟩ := behind.step closing still.within
  exact ⟨_, block_of_statements opening' inner' closing', behind⟩

/-- An operand ends with its own last token, whatever stands behind it. -/
theorem operand {e : Expr} (alike : Alike x y noted top) (below : room ≤ top)
    (more : room ≤ room') (beside : Beside x y noted r r') (read : operand room r = .ok e s)
    (still : Still x r s)
    : ∃ s', Parse.operand room' r' = .ok e s' ∧ Beside x y noted s s' := by
  cases operand_read read with
  | literal next =>
      obtain ⟨next', behind⟩ := beside.step next still.within
      exact ⟨_, (OperandRead.literal next').eq_ok, behind⟩
  | name next =>
      obtain ⟨next', behind⟩ := beside.step next still.within
      exact ⟨_, (OperandRead.name next').eq_ok, behind⟩
  | @paren _ t opening inner closing =>
      have onward : Onward r.advance t := .of_ok inner
      have rest := onward.trans (.advance t)
      obtain ⟨opening', behind⟩ := beside.step opening (still.within_of rest)
      obtain ⟨t', inner', closing', behind⟩ := alike.followed below more behind inner closing
        (still.part (.advance r) rest (.refl _))
      exact ⟨_, (OperandRead.paren opening' inner' closing').eq_ok, behind⟩
  | @function _ _ t _ word head inner =>
      have onward : Onward r.advance t := .of_ok head
      have onward' : Onward t s := .of_ok inner
      obtain ⟨word', behind⟩ := beside.step word (still.within_of (onward.trans onward'))
      obtain ⟨t', head', behind⟩ := parameterList_beside behind head
        (Nat.lt_of_le_of_lt still.within (block_shorter inner))
      obtain ⟨s', inner', behind⟩ := alike.block below more behind inner
        (still.part ((Onward.advance r).trans onward) onward' (.refl s))
      exact ⟨s', (OperandRead.function word' head' inner').eq_ok, behind⟩

theorem call (alike : Alike x y noted top) (below : room ≤ top) (more : room ≤ room')
    : RepeatsToEnd x y noted (call room) (call room') := by
  intro r s r' e beside read still ends
  obtain ⟨callee, t, first, others⟩ := call_eq_ok read
  have onward : Onward r t := .of_ok first
  have onward' : Onward t s := .of_ok others
  obtain ⟨t', first', beside⟩ :=
    alike.operand below more beside first (still.part (.refl r) onward onward')
  obtain ⟨s', others', beside⟩ :=
    alike.callTail below more beside others (still.part onward onward' (.refl s)) ends
  exact ⟨s', call_of_operand first' others', beside⟩

mutual

theorem chain {room room' level : Nat} (alike : Alike x y noted top) (below : room ≤ top)
    (more : room ≤ room')
    : RepeatsToEnd x y noted (chain room level) (chain room' level) := by
  intro r s r' e beside read still ends
  match level with
  | 0 =>
      rw [chain_zero] at read ⊢
      exact alike.call below more beside read still ends
  | level + 1 =>
      obtain ⟨left, t, first, others⟩ := chain_succ_eq_ok read
      have onward : Onward r t := .of_ok first
      have onward' : Onward t s := .of_ok others
      obtain ⟨t', first', beside⟩ := alike.chain below more beside first
        (still.part (.refl r) onward onward') (inside_before onward' ends)
      obtain ⟨s', others', beside⟩ :=
        alike.chainTail below more beside others (still.part onward onward' (.refl s)) ends
      exact ⟨s', chain_of_left first' others', beside⟩
termination_by (room, level)

theorem chainTail {room room' level : Nat} {left : Expr} (alike : Alike x y noted top)
    (below : room ≤ top) (more : room ≤ room')
    : RepeatsToEnd x y noted (chainTail room level left) (chainTail room' level left) := by
  intro r s r' e beside read still ends
  cases chainTail_read read with
  | done last =>
      have last' : r'.next?.bind (jointAt? level) = none :=
        beside.holds_next? (·.bind _ = none) last
          (ends.imp_right fun stops => Classical.not_not.mp (stops.last (level + 1)))
      exact ⟨r', (ChainTailRead.done last').eq_ok, beside⟩
  | @joined less _ _ _ _ _ t deeper next known inner others =>
      subst deeper
      obtain ⟨less', rfl, enough⟩ := exists_less more
      have onward : Onward r.advance t := .of_ok inner
      have onward' : Onward t s := .of_ok others
      have lower := Nat.le_of_succ_le below
      obtain ⟨next', beside⟩ := beside.step next (still.within_of (onward.trans onward'))
      obtain ⟨t', inner', beside⟩ := alike.chain lower enough beside inner
        (still.part (.advance r) onward onward') (inside_before onward' ends)
      obtain ⟨s', others', beside⟩ := alike.chainTail lower enough beside others
        (still.part ((Onward.advance r).trans onward) onward' (.refl s)) ends
      exact ⟨s', (ChainTailRead.joined rfl next' known inner' others').eq_ok, beside⟩
termination_by (room, level)

end

/-- An expression is read alike with one more level of nesting too, by induction on the room, as
an assignment may end where the whole does.
-/
theorem expression_toEnd (alike : Alike x y noted top) (below : room ≤ top + 1)
    (more : room ≤ room')
    : RepeatsToEnd x y noted (Parse.expression room) (Parse.expression room') := by
  intro r s r' e beside read still ends
  induction room generalizing room' r r' e with
  | zero => exact (not_expression_zero read).elim
  | succ room ih =>
  obtain ⟨less, rfl, enough⟩ := exists_less more
  cases expression_read read with
  | assign ahead inner =>
      obtain ⟨named, token, next, sign⟩ := next?_of_assignmentAhead? ahead
      have onward : Onward r.advance.advance s := .of_ok inner
      have inside := still.part ((Onward.advance r).trans (.advance _)) onward (.refl s)
      obtain ⟨named', beside⟩ :=
        beside.step named (still.within_of ((Onward.advance _).trans onward))
      obtain ⟨next', beside⟩ := beside.step next (still.within_of onward)
      obtain ⟨s', inner', beside⟩ :=
        ih (Nat.le_of_succ_le below) enough beside inner inside
      have ahead' := assignmentAhead?_of_next named' next' sign
      exact ⟨s', (ExpressionRead.assign ahead' inner').eq_ok, beside⟩
  | chain ahead operands =>
      have shorter := chain_shorter operands
      have within := still.within
      obtain ⟨s', operands', behind⟩ :=
        alike.chain (Nat.le_of_succ_le_succ below) enough beside operands still ends
      have ahead' := beside.assignmentAhead?_eq_none ahead (by omega) (ends.imp_left (by omega))
      exact ⟨s', (ExpressionRead.chain ahead' operands').eq_ok, behind⟩

/-- The word `if` and the condition behind it, with its parentheses. -/
theorem condition {e : Expr} (alike : Alike x y noted top) (more : top ≤ room')
    (beside : Beside x y noted r r')
    (word : r.next? = some (.keyword .ifWord))
    (opening : r.advance.next? = some (.mark .leftParen))
    (test : Parse.expression top r.advance.advance = .ok e t)
    (closing : t.next? = some (.mark .rightParen)) (still : Still x r t.advance)
    : ∃ t',
        r'.next? = some (.keyword .ifWord)
        ∧ r'.advance.next? = some (.mark .leftParen)
        ∧ Parse.expression room' r'.advance.advance = .ok e t'
        ∧ t'.next? = some (.mark .rightParen)
        ∧ Beside x y noted t.advance t'.advance := by
  have tested : Onward r.advance.advance t := .of_ok test
  have rest := tested.trans (.advance t)
  obtain ⟨word', behind⟩ := beside.step word (still.within_of ((Onward.advance _).trans rest))
  obtain ⟨opening', behind⟩ := behind.step opening (still.within_of rest)
  obtain ⟨t', test', closing', behind⟩ := alike.followed (Nat.le_refl top) more behind test
    closing (still.part ((Onward.advance r).trans (.advance _)) rest (.refl _))
  exact ⟨t', word', opening', test', closing', behind⟩

/-- A statement with one more level of nesting. -/
theorem statement_succ {stmt : Stmt} (alike : Alike x y noted top) (more : top ≤ room')
    (beside : Beside x y noted r r') (read : Parse.statement (top + 1) r = .ok stmt s)
    (still : Still x r s)
    (ends : x.length < s.rest.length ∨ upcoming y ≠ some (.keyword .elseWord))
    : ∃ s', Parse.statement (room' + 1) r' = .ok stmt s' ∧ Beside x y noted s s' := by
  have here := Nat.le_refl top
  have onward : Onward r s := .of_ok read
  have shorter := statement_shorter read
  cases statement_read read with
  | block inner =>
      obtain ⟨s', inner', behind⟩ := alike.block here more beside inner still
      exact respan (.block · _) beside behind onward shorter (StatementRead.block inner').eq_ok
  | @branch _ _ _ t word opening test closing first last =>
      have tested : Onward r.advance.advance t := .of_ok test
      have side : Onward t.advance s := .of_ok first
      have before := ((Onward.advance r).trans (.advance _)).trans (tested.trans (.advance t))
      obtain ⟨t', word', opening', test', closing', behind⟩ :=
        alike.condition more beside word opening test closing (still.part (.refl r) before side)
      obtain ⟨s', first', behind⟩ :=
        alike.statement here more behind first (still.part before side (.refl s)) ends
      have last' : s'.next? ≠ some (.keyword .elseWord) :=
        behind.holds_next? (· ≠ _) last ends
      exact respan (.branch · _ _ none) beside behind onward shorter
        (StatementRead.branch word' opening' test' closing' first' last').eq_ok
  | @branchElse _ _ _ _ t u word opening test closing first middle second =>
      have tested : Onward r.advance.advance t := .of_ok test
      have side : Onward t.advance u := .of_ok first
      have other : Onward u.advance s := .of_ok second
      have before := ((Onward.advance r).trans (.advance _)).trans (tested.trans (.advance t))
      have rest := side.trans ((Onward.advance u).trans other)
      obtain ⟨t', word', opening', test', closing', behind⟩ :=
        alike.condition more beside word opening test closing (still.part (.refl r) before rest)
      have quiet := still.upTo before side middle other
      obtain ⟨u', first', behind⟩ :=
        alike.statement here more behind first quiet.still (.inl quiet.inside)
      obtain ⟨middle', behind⟩ := behind.step middle (still.within_of other)
      obtain ⟨s', second', behind⟩ := alike.statement here more behind second
        (still.part (before.trans (side.trans (.advance u))) other (.refl s)) ends
      exact respan (.branch · _ _ (some _)) beside behind onward shorter
        (StatementRead.branchElse word' opening' test' closing' first' middle' second').eq_ok
  | retNothing word semicolon =>
      obtain ⟨word', behind⟩ := beside.step word (still.within_of (.advance _))
      obtain ⟨semicolon', behind⟩ := behind.step semicolon still.within
      exact respan (.ret · none) beside behind onward shorter
        (StatementRead.retNothing word' semicolon').eq_ok
  | @ret _ t word inner semicolon =>
      have value : Onward r.advance t := .of_ok inner
      have rest := value.trans (.advance t)
      obtain ⟨word', behind⟩ := beside.step word (still.within_of rest)
      obtain ⟨t', inner', semicolon', behind⟩ := alike.followed here more behind inner semicolon
        (still.part (.advance r) rest (.refl _))
      exact respan (.ret · (some _)) beside behind onward shorter
        (StatementRead.ret word' inner' semicolon').eq_ok
  | declare word named semicolon =>
      obtain ⟨word', behind⟩ :=
        beside.step word (still.within_of ((Onward.advance _).trans (.advance _)))
      obtain ⟨named', behind⟩ := behind.step named (still.within_of (.advance _))
      obtain ⟨semicolon', behind⟩ := behind.step semicolon still.within
      exact respan (.define · _ none) beside behind onward shorter
        (StatementRead.declare word' named' semicolon').eq_ok
  | @define _ _ t word named sign inner semicolon =>
      have value : Onward r.advance.advance.advance t := .of_ok inner
      have rest := value.trans (.advance t)
      have before := ((Onward.advance r).trans (.advance _)).trans (.advance _)
      obtain ⟨word', behind⟩ := beside.step word
        (still.within_of (((Onward.advance _).trans (.advance _)).trans rest))
      obtain ⟨named', behind⟩ :=
        behind.step named (still.within_of ((Onward.advance _).trans rest))
      obtain ⟨sign', behind⟩ := behind.step sign (still.within_of rest)
      obtain ⟨t', inner', semicolon', behind⟩ := alike.followed here more behind inner semicolon
        (still.part before rest (.refl _))
      exact respan (.define · _ (some _)) beside behind onward shorter
        (StatementRead.define word' named' sign' inner' semicolon').eq_ok
  | discard inner semicolon =>
      obtain ⟨t', inner', semicolon', behind⟩ :=
        alike.followed here more beside inner semicolon still
      exact respan (.discard · _) beside behind onward shorter
        (StatementRead.discard inner' semicolon').eq_ok

end Alike

/-- Expressions and statements are read alike, by induction on the room. -/
theorem alike (x y : List Lexeme) (noted : List SyntaxError) (top : Nat)
    : Alike x y noted top := by
  induction top with
  | zero =>
      constructor
      · intro room room' below more r s r' e beside read quiet
        cases Nat.le_zero.mp below
        exact (not_expression_zero read).elim
      · intro room room' r s r' stmt below more beside read still ends
        cases Nat.le_zero.mp below
        exact (not_statement_zero read).elim
  | succ top ih =>
      constructor
      · intro room room' below more
        exact RepeatsToEnd.repeats (ih.expression_toEnd below more)
      · intro room room' r s r' stmt below more beside read still ends
        rcases Nat.lt_or_eq_of_le below with lower | rfl
        · exact ih.statement (Nat.le_of_lt_succ lower) more beside read still ends
        · obtain ⟨less, rfl, enough⟩ := exists_less more
          exact ih.statement_succ enough beside read still ends

/-- An expression that is read without errors is read alike at a place beside. -/
theorem expression_beside {room room' : Nat} {e : Expr} (more : room ≤ room')
    (beside : Beside x y noted r r') (read : expression room r = .ok e s) (still : Still x r s)
    (ends : x.length < s.rest.length ∨ Stops (upcoming y))
    : ∃ s', expression room' r' = .ok e s' ∧ Beside x y noted s s' :=
  (alike x y noted room).expression_toEnd (Nat.le_succ room) more beside read still ends

/-- A statement that is read without errors is read alike at a place beside. -/
theorem statement_beside {room room' : Nat} {stmt : Stmt} (more : room ≤ room')
    (beside : Beside x y noted r r') (read : statement room r = .ok stmt s)
    (still : Still x r s)
    (ends : x.length < s.rest.length ∨ upcoming y ≠ some (.keyword .elseWord))
    : ∃ s', statement room' r' = .ok stmt s' ∧ Beside x y noted s s' :=
  (alike x y noted room).statement (Nat.le_refl room) more beside read still ends

end Parse

end StackScript
