import Mathlib.Data.List.Chain
import StackScript.Proofs.Parse.Forms

/-! Reading gets ahead. To read a phrase comes to reading its parts one after another, each
with less room or from a later place, so that reading ends whatever the tokens are. No part
begins or ends before the place where the one before it ended. Each round of a list of
statements passes over a token, the last one apart, and nothing is left behind a script.
-/

namespace StackScript

namespace Parse

open Reader (Forward Onward)
open StackScript.Parser

variable {α β : Type} {r s t : Reader}

-----------------------------------------------------------------------------------------
-- Rounds
-----------------------------------------------------------------------------------------

/-- The place where the next round of a list of statements begins, unless this is the last. -/
def nextRound? (room : Nat) (nested : Bool) (r : Reader) : Option Reader :=
  if r.rest.isEmpty || (nested && r.next? = some (.mark .rightBrace)) then none
  else if errorLimit ≤ r.errors.length then none
  else
    match statement room r with
    | .ok _ behind => some behind
    | .error error found => some ((found.report error).recover nested)

/-- What a round of a list of statements comes to. -/
inductive RoundRead (room : Nat) (nested : Bool) (r : Reader) : Reader → Prop
  | statement {first : Stmt} {s : Reader} (inside : ¬Ended nested r)
      (few : r.errors.length < errorLimit) (read : statement room r = .ok first s)
      : RoundRead room nested r s
  | error {error : SyntaxError} {found : Reader} (inside : ¬Ended nested r)
      (few : r.errors.length < errorLimit) (read : statement room r = .error error found)
      : RoundRead room nested r ((found.report error).recover nested)

theorem nextRound?_read {room : Nat} {nested : Bool} (next : nextRound? room nested r = some s)
    : RoundRead room nested r s := by
  unfold nextRound? at next
  split at next
  · cases next
  rename_i inside
  rw [ended_iff] at inside
  split at next
  · cases next
  rename_i few
  rw [Nat.not_le] at few
  split at next <;> rename_i read <;> cases next
  · exact .statement inside few read
  · exact .error inside few read

namespace RoundRead

variable {room : Nat} {nested : Bool}

/-- A round ends behind its statement. -/
theorem behind (round : RoundRead room nested r s)
    : Onward (place (Parse.statement room r)) s := by
  cases round with
  | statement _ _ read =>
      rw [read]
      exact .refl s
  | error _ _ read =>
      rw [read]
      exact (Onward.report _ _).trans (Forward.recover nested _)

theorem onward (round : RoundRead room nested r s) : Onward r s :=
  Onward.trans (Keeps.reach r) round.behind

/-- A round leaves fewer tokens than it found. -/
theorem shorter (round : RoundRead room nested r s) : s.rest.length < r.rest.length := by
  cases round with
  | statement _ _ read => exact statement_shorter read
  | error inside _ read =>
      exact recover_shorter inside ((Onward.of_error read).trans (.report _ _))

theorem position_lt (round : RoundRead room nested r s) : r.position < s.position := by
  obtain ⟨read, past⟩ := round.onward.past
  have shorter := round.shorter
  rw [past.rest, List.length_append] at shorter
  rw [past.position]
  omega

/-- What stands behind a round ends where the list does. -/
theorem statements_eq (round : RoundRead room nested r s) (placed : r.Placed)
    : (statements room nested r).2 = (statements room nested s).2 := by
  cases round with
  | statement inside few read => rw [statements_of_statement placed inside few read]
  | error inside few read => rw [statements_of_error placed inside few read]

end RoundRead

-----------------------------------------------------------------------------------------
-- Phrases and their parts
-----------------------------------------------------------------------------------------

/-- What can be read, with the room that there is for it. -/
inductive Phrase
  | statements (room : Nat) (nested : Bool)
  | statement (room : Nat)
  | block (room : Nat)
  | expression (room : Nat)
  | chain (room level : Nat)
  | chainTail (room level : Nat) (left : Expr)
  | call (room : Nat)
  | callTail (room : Nat) (callee : Expr)
  | arguments (room : Nat)
  | operand (room : Nat)
  | parameterList
  | parameters (seen : List String)

/-- A phrase that is read from a place on. -/
structure Reading where
  phrase : Phrase
  start : Reader

/-- What is read behind a token, if that is the next one. -/
def behindToken (token : Token) (r : Reader) (others : Reader → List Reading) : List Reading :=
  if r.next? = some token then others r.advance else []

/-- What is read behind a phrase, if that is read without an error. -/
def behindPhrase (result : EStateM.Result SyntaxError Reader α)
    (others : α → Reader → List Reading)
    : List Reading :=
  match result with
  | .ok value r => others value r
  | .error _ _ => []

namespace Phrase

/-- The place where reading the phrase ends. -/
def stop (r : Reader) : Phrase → Reader
  | statements room nested => (Parse.statements room nested r).2
  | statement room => place (Parse.statement room r)
  | block room => place (Parse.block room r)
  | expression room => place (Parse.expression room r)
  | chain room level => place (Parse.chain room level r)
  | chainTail room level left => place (Parse.chainTail room level left r)
  | call room => place (Parse.call room r)
  | callTail room callee => place (Parse.callTail room callee r)
  | arguments room => place (Parse.arguments room r)
  | operand room => place (Parse.operand room r)
  | parameterList => place (Parse.parameterList r)
  | parameters seen => place (Parse.parameters seen r)

/-- The phrases that are read, one after another, in the course of reading the phrase. -/
def parts (r : Reader) : Phrase → List Reading
  | statements room nested =>
      match nextRound? room nested r with
      | some s => [⟨statement room, r⟩, ⟨statements room nested, s⟩]
      | none => []
  | statement 0 => []
  | statement (room + 1) =>
      match r.next? with
      | some (.mark .leftBrace) => [⟨block room, r⟩]
      | some (.keyword .ifWord) =>
          behindToken (.mark .leftParen) r.advance fun r =>
            ⟨expression room, r⟩ :: behindPhrase (Parse.expression room r) fun _ r =>
              behindToken (.mark .rightParen) r fun r =>
                ⟨statement room, r⟩ :: behindPhrase (Parse.statement room r) fun _ r =>
                  behindToken (.keyword .elseWord) r fun r => [⟨statement room, r⟩]
      | some (.keyword .returnWord) =>
          if r.advance.next? = some (.mark .semicolon) then []
          else [⟨expression room, r.advance⟩]
      | some (.keyword .letWord) =>
          match r.advance.next? with
          | some (.name _) =>
              behindToken (.mark .assign) r.advance.advance fun r => [⟨expression room, r⟩]
          | _ => []
      | some _ => [⟨expression room, r⟩]
      | none => []
  | block room =>
      behindToken (.mark .leftBrace) r fun r => [⟨statements room true, r⟩]
  | expression 0 => []
  | expression (room + 1) =>
      match assignmentAhead? r with
      | some _ => [⟨expression room, r.advance.advance⟩]
      | none => [⟨chain room levels, r⟩]
  | chain room 0 => [⟨call room, r⟩]
  | chain room (level + 1) =>
      ⟨chain room level, r⟩ :: behindPhrase (Parse.chain room level r) fun left r =>
        [⟨chainTail room level left, r⟩]
  | chainTail 0 _ _ => []
  | chainTail (room + 1) level left =>
      match r.next?.bind (jointAt? level) with
      | some joint =>
          ⟨chain room level, r.advance⟩
            :: behindPhrase (Parse.chain room level r.advance) fun right r =>
              [⟨chainTail room level (joint.join left right), r⟩]
      | none => []
  | call room =>
      ⟨operand room, r⟩ :: behindPhrase (Parse.operand room r) fun callee r =>
        [⟨callTail room callee, r⟩]
  | callTail 0 _ => []
  | callTail (room + 1) callee =>
      behindToken (.mark .leftParen) r fun r =>
        if r.next? = some (.mark .rightParen) then [⟨callTail room (.call callee []), r.advance⟩]
        else
          ⟨arguments room, r⟩ :: behindPhrase (Parse.arguments room r) fun args r =>
            behindToken (.mark .rightParen) r fun r => [⟨callTail room (.call callee args), r⟩]
  | arguments room =>
      ⟨expression room, r⟩ :: behindPhrase (Parse.expression room r) fun _ r =>
        behindToken (.mark .comma) r fun r => [⟨arguments room, r⟩]
  | operand room =>
      match r.next? with
      | some (.mark .leftParen) => [⟨expression room, r.advance⟩]
      | some (.keyword .functionWord) =>
          ⟨parameterList, r.advance⟩
            :: behindPhrase (Parse.parameterList r.advance) fun _ r => [⟨block room, r⟩]
      | _ => []
  | parameterList =>
      behindToken (.mark .leftParen) r fun r =>
        if r.next? = some (.mark .rightParen) then [] else [⟨parameters [], r⟩]
  | parameters seen =>
      match r.next? with
      | some (.name name) =>
          if seen.contains name then []
          else
            behindToken (.mark .comma) r.advance fun r => [⟨parameters (seen ++ [name]), r⟩]
      | _ => []

/-- How much can still be read in a phrase: the room for it, then a number that tells apart
the phrases with the same room, then the tokens that are left.
-/
def size (left : Nat) : Phrase → Nat × Nat × Nat
  | statements room _ => (room, 1, left)
  | statement room => (room, 0, left)
  | block room => (room, 2, left)
  | expression room => (room, 0, left)
  | chain room level => (room, 6 + level, left)
  | chainTail room _ _ => (room, 0, left)
  | call room => (room, 5, left)
  | callTail room _ => (room, 0, left)
  | arguments room => (room, 1, left)
  | operand room => (room, 4, left)
  | parameterList => (0, 3, left)
  | parameters _ => (0, 2, left)

end Phrase

namespace Reading

def stop (reading : Reading) : Reader :=
  reading.phrase.stop reading.start

def parts (reading : Reading) : List Reading :=
  reading.phrase.parts reading.start

def size (reading : Reading) : Nat × Nat × Nat :=
  reading.phrase.size reading.start.rest.length

/-- There is less to read in one phrase than in another. -/
def Smaller (part whole : Reading) : Prop :=
  Prod.Lex (· < ·) (Prod.Lex (· < ·) (· < ·)) part.size whole.size

theorem smaller_wellFounded : WellFounded Smaller :=
  InvImage.wf size (Prod.lex Nat.lt_wfRel (Prod.lex Nat.lt_wfRel Nat.lt_wfRel)).wf

namespace Smaller

variable {part whole : Reading}

theorem of_room (less : part.size.1 < whole.size.1) : Smaller part whole :=
  .left _ _ less

theorem of_kind (same : part.size.1 ≤ whole.size.1) (less : part.size.2.1 < whole.size.2.1)
    : Smaller part whole := by
  rcases Nat.lt_or_eq_of_le same with lower | same
  · exact of_room lower
  · exact Prod.lex_def.mpr (.inr ⟨same, .left _ _ less⟩)

theorem of_left (same : part.size.1 = whole.size.1) (kind : part.size.2.1 = whole.size.2.1)
    (less : part.size.2.2 < whole.size.2.2)
    : Smaller part whole :=
  Prod.lex_def.mpr (.inr ⟨same, Prod.lex_def.mpr (.inr ⟨kind, less⟩)⟩)

end Smaller

variable {Q : Reading → Prop}

theorem forall_behindToken {token : Token} {others : Reader → List Reading}
    (ahead : r.next? = some token → ∀ part ∈ others r.advance, Q part)
    : ∀ part ∈ behindToken token r others, Q part := by
  unfold behindToken
  split
  · rename_i next
    exact ahead next
  · exact List.forall_mem_nil Q

theorem forall_behindPhrase {result : EStateM.Result SyntaxError Reader α}
    {others : α → Reader → List Reading}
    (ok : ∀ value t, result = .ok value t → ∀ part ∈ others value t, Q part)
    : ∀ part ∈ behindPhrase result others, Q part := by
  cases result with
  | ok value t => exact ok value t rfl
  | error error t => exact List.forall_mem_nil Q

theorem forall_one {part : Reading} (one : Q part) : ∀ other ∈ [part], Q other :=
  List.forall_mem_singleton.mpr one

theorem forall_first {part : Reading} {others : List Reading} (first : Q part)
    (behind : ∀ other ∈ others, Q other)
    : ∀ other ∈ part :: others, Q other :=
  List.forall_mem_cons.mpr ⟨first, behind⟩

/-- There is less to read in the parts of a phrase than in the phrase. -/
theorem parts_smaller (whole : Reading) : ∀ part ∈ whole.parts, Smaller part whole := by
  obtain ⟨phrase, r⟩ := whole
  -- Most phrases leave their parts less room.
  have less {part : Reading} {room : Nat} {phrase : Phrase} (inside : part.size.1 = room)
      (around : (Reading.mk phrase r).size.1 = room + 1)
      : Smaller part ⟨phrase, r⟩ :=
    .of_room (by omega)
  unfold parts Phrase.parts
  cases phrase with
  | statements room nested =>
      dsimp only
      split
      · rename_i s next
        have shorter := (nextRound?_read next).shorter
        exact forall_first (.of_kind (Nat.le_refl _) Nat.zero_lt_one)
          (forall_one (.of_left rfl rfl shorter))
      · exact List.forall_mem_nil _
  | statement room =>
      cases room with
      | zero => exact List.forall_mem_nil _
      | succ room =>
          dsimp only
          split
          · exact forall_one (less rfl rfl)
          · refine forall_behindToken fun _ => forall_first (less rfl rfl) ?_
            refine forall_behindPhrase fun _ t _ => forall_behindToken fun _ => ?_
            refine forall_first (less rfl rfl) (forall_behindPhrase fun _ u _ => ?_)
            exact forall_behindToken fun _ => forall_one (less rfl rfl)
          · split
            · exact List.forall_mem_nil _
            · exact forall_one (less rfl rfl)
          · split
            · exact forall_behindToken fun _ => forall_one (less rfl rfl)
            · exact List.forall_mem_nil _
          · exact forall_one (less rfl rfl)
          · exact List.forall_mem_nil _
  | block room =>
      exact forall_behindToken fun _ => forall_one (.of_kind (Nat.le_refl _) Nat.one_lt_two)
  | expression room =>
      cases room with
      | zero => exact List.forall_mem_nil _
      | succ room =>
          dsimp only
          split <;> exact forall_one (less rfl rfl)
  | chain room level =>
      cases level with
      | zero => exact forall_one (.of_kind (Nat.le_refl _) (Nat.lt_succ_self 5))
      | succ level =>
          refine forall_first (.of_kind (Nat.le_refl _) (Nat.lt_succ_self _)) ?_
          exact forall_behindPhrase fun _ t _ =>
            forall_one (.of_kind (Nat.le_refl _) (Nat.succ_pos _))
  | chainTail room level left =>
      cases room with
      | zero => exact List.forall_mem_nil _
      | succ room =>
          dsimp only
          split
          · refine forall_first (less rfl rfl) ?_
            exact forall_behindPhrase fun _ t _ => forall_one (less rfl rfl)
          · exact List.forall_mem_nil _
  | call room =>
      refine forall_first (.of_kind (Nat.le_refl _) (Nat.lt_succ_self 4)) ?_
      exact forall_behindPhrase fun _ t _ =>
        forall_one (.of_kind (Nat.le_refl _) (Nat.succ_pos 4))
  | callTail room callee =>
      cases room with
      | zero => exact List.forall_mem_nil _
      | succ room =>
          refine forall_behindToken fun _ => ?_
          split
          · exact forall_one (less rfl rfl)
          · refine forall_first (less rfl rfl) (forall_behindPhrase fun _ t _ => ?_)
            exact forall_behindToken fun _ => forall_one (less rfl rfl)
  | arguments room =>
      refine forall_first (.of_kind (Nat.le_refl _) Nat.zero_lt_one) ?_
      refine forall_behindPhrase fun _ t read => forall_behindToken fun comma => forall_one ?_
      have onward : Onward r t := .of_ok read
      have shorter := Nat.lt_of_lt_of_le (shorter_of_next comma (.refl _)) onward.length_le
      exact .of_left rfl rfl shorter
  | operand room =>
      dsimp only
      split
      · exact forall_one (.of_kind (Nat.le_refl _) (Nat.succ_pos 3))
      · refine forall_first (.of_kind (Nat.zero_le _) (Nat.lt_succ_self 3)) ?_
        exact forall_behindPhrase fun _ t _ =>
          forall_one (.of_kind (Nat.le_refl _) (show 2 < 4 by decide))
      · exact List.forall_mem_nil _
  | parameterList =>
      refine forall_behindToken fun _ => ?_
      split
      · exact List.forall_mem_nil _
      · exact forall_one (.of_kind (Nat.le_refl _) (Nat.lt_succ_self 2))
  | parameters seen =>
      dsimp only
      split
      · rename_i next
        split
        · exact List.forall_mem_nil _
        · refine forall_behindToken fun comma => forall_one ?_
          have shorter := shorter_of_next next (.advance r.advance)
          exact .of_left rfl rfl shorter
      · exact List.forall_mem_nil _

theorem parts_wellFounded : WellFounded fun part whole : Reading => part ∈ whole.parts :=
  Subrelation.wf (fun inside => parts_smaller _ _ inside) smaller_wellFounded

/-- The places where the phrase and all phrases in it begin and end, in the order in which
reading comes to them.
-/
def places (whole : Reading) : List Reader :=
  whole.start :: (whole.parts.attach.flatMap fun ⟨part, _⟩ => part.places) ++ [whole.stop]
termination_by parts_wellFounded.wrap whole

theorem places_eq (whole : Reading)
    : whole.places = whole.start :: whole.parts.flatMap places ++ [whole.stop] := by
  rw [places, List.flatMap_subtype fun _ _ => rfl, List.unattach_attach]

-----------------------------------------------------------------------------------------
-- The order of the parts
-----------------------------------------------------------------------------------------

/-- Between two places some phrases are read one after another, with no more than tokens
passed over and errors noted in front of them, between them and behind them.
-/
inductive InOrder : Reader → List Reading → Reader → Prop
  | nil {r s : Reader} (onward : Onward r s) : InOrder r [] s
  | cons {r s : Reader} {part : Reading} {others : List Reading}
    (before : Onward r part.start) (behind : InOrder part.stop others s)
    : InOrder r (part :: others) s

/-- Reading a phrase goes forward. -/
theorem onward (whole : Reading) : Onward whole.start whole.stop := by
  obtain ⟨phrase, r⟩ := whole
  cases phrase with
  | statements room nested => exact onward_statements room nested r
  | parameters seen => exact (parameters_keeps seen).reach r
  | _ => exact Keeps.reach r

namespace InOrder

variable {parts : List Reading}

theorem before (first : Onward r t) (order : InOrder t parts s) : InOrder r parts s := by
  cases order with
  | nil onward => exact .nil (first.trans onward)
  | cons onward behind => exact .cons (first.trans onward) behind

theorem of_keeps {p : Parser α} [Keeps Onward p] : InOrder r [] (place (p r)) :=
  .nil (Keeps.reach r)

/-- Behind a token that must be next. -/
theorem expect {token : Token} {next : Unit → Parser β} {others : Reader → List Reading}
    (behind
      : r.next? = some token
        → InOrder r.advance (others r.advance) (place (next () r.advance)))
    : InOrder r (behindToken token r others) (place ((Parser.expect token >>= next) r)) := by
  unfold behindToken
  split
  · rename_i ahead
    rw [expect_bind ahead]
    exact before (.advance r) (behind ahead)
  · rename_i other
    rw [bind_of_error (expect_of_not_next other)]
    exact .nil (.refl r)

/-- Behind a token that may be next. -/
theorem accept {token : Token} {next : Bool → Parser β} {others : Reader → List Reading}
    (behind
      : r.next? = some token → InOrder r.advance (others r.advance) (place (next true r.advance)))
    (other : Onward r (place (next false r)))
    : InOrder r (behindToken token r others) (place ((Parser.accept token >>= next) r)) := by
  unfold behindToken
  split
  · rename_i ahead
    rw [accept_bind ahead]
    exact before (.advance r) (behind ahead)
  · rename_i noToken
    rw [accept_bind_of_not noToken]
    exact .nil other

/-- Behind a phrase. -/
theorem part {p : Parser α} {next : α → Parser β} {phrase : Phrase}
    {others : α → Reader → List Reading} (same : phrase.stop r = place (p r))
    (behind : ∀ value t, p r = .ok value t → InOrder t (others value t) (place (next value t)))
    : InOrder r (⟨phrase, r⟩ :: behindPhrase (p r) others) (place ((p >>= next) r)) := by
  refine .cons (.refl r) ?_
  rw [stop, same]
  cases read : p r with
  | ok value t =>
      rw [bind_of_ok read]
      exact behind value t read
  | error error t =>
      rw [bind_of_error read]
      exact .nil (.refl t)

theorem only {phrase : Phrase} : InOrder r [⟨phrase, r⟩] (phrase.stop r) :=
  .cons (.refl r) (.nil (.refl _))

/-- The last phrase. -/
theorem last {p : Parser α} {next : α → Parser β} {phrase : Phrase}
    [∀ value, Keeps Onward (next value)] (same : phrase.stop r = place (p r))
    : InOrder r [⟨phrase, r⟩] (place ((p >>= next) r)) := by
  have order : InOrder r (⟨phrase, r⟩ :: behindPhrase (p r) fun _ _ => [])
      (place ((p >>= next) r)) :=
    part same fun value t _ => of_keeps
  cases read : p r <;> rwa [read] at order

end InOrder

set_option synthInstance.maxSize 1000

/-- The parts of a phrase are read in their order in the course of reading the phrase. -/
theorem parts_inOrder (whole : Reading) (placed : whole.start.Placed)
    : InOrder whole.start whole.parts whole.stop := by
  obtain ⟨phrase, r⟩ := whole
  unfold parts Phrase.parts stop Phrase.stop
  cases phrase with
  | statements room nested =>
      dsimp only
      split
      · rename_i s next
        have round := nextRound?_read next
        rw [round.statements_eq placed]
        exact .cons (.refl r) (.cons round.behind (.nil (.refl _)))
      · exact .nil (onward_statements room nested r)
  | statement room =>
      cases room with
      | zero => exact .of_keeps
      | succ room =>
          dsimp only
          rw [Parse.statement, here_bind, peek?_bind]
          generalize r.next? = found
          split
          · exact .last rfl
          · dsimp only
            rw [advance_bind]
            refine .before (.advance r) (.expect fun _ => .part rfl fun condition t _ => ?_)
            refine .expect fun _ => .part rfl fun yes u _ => .accept (fun _ => ?_) (.refl u)
            simp only [if_true, bind_map_left]
            exact .last rfl
          · dsimp only
            rw [advance_bind, peek?_bind]
            refine .before (.advance r) ?_
            split
            · exact .of_keeps
            · simp only [bind_map_left]
              exact .last rfl
          · dsimp only
            rw [advance_bind]
            refine .before (.advance r) ?_
            split
            · rename_i name named
              rw [expectName_bind named]
              refine .before (.advance _) (.accept (fun _ => ?_) (Keeps.reach _))
              simp only [if_true, bind_map_left]
              exact .last rfl
            · exact .of_keeps
          · simp only [bind_pure_comp]
            exact .last rfl
          · exact .of_keeps
  | block room =>
      dsimp only
      rw [Parse.block]
      exact .expect fun _ => .last rfl
  | expression room =>
      cases room with
      | zero => exact .of_keeps
      | succ room =>
          dsimp only
          rw [Parse.expression, get_bind]
          generalize assignmentAhead? r = ahead
          split
          · dsimp only
            rw [advance_bind, advance_bind]
            exact .before (.advance r) (.before (.advance _) (.last rfl))
          · exact .only
  | chain room level =>
      cases level with
      | zero =>
          dsimp only
          rw [Parse.chain]
          exact .only
      | succ level =>
          dsimp only
          rw [Parse.chain]
          exact .part rfl fun left t _ => .only
  | chainTail room level left =>
      cases room with
      | zero =>
          have onward : Onward r (place (Parse.chainTail 0 level left r)) := Keeps.reach r
          exact .nil onward
      | succ room =>
          dsimp only
          rw [Parse.chainTail, peek?_bind]
          generalize r.next?.bind (jointAt? level) = ahead
          split
          · dsimp only
            rw [advance_bind]
            refine .before (.advance r) (.part rfl fun right t _ => ?_)
            exact .only
          · exact .of_keeps
  | call room =>
      dsimp only
      rw [Parse.call]
      exact .part rfl fun callee t _ => .only
  | callTail room callee =>
      cases room with
      | zero => exact .of_keeps
      | succ room =>
          dsimp only
          rw [Parse.callTail]
          refine .accept (fun _ => ?_) (.refl r)
          rw [if_pos rfl, peek?_bind]
          split
          · rename_i closing
            rw [pure_bind]
            dsimp only
            rw [expect_bind closing]
            exact .before (.advance _) .only
          · exact .part rfl fun args t _ => .expect fun _ => .only
  | arguments room =>
      dsimp only
      rw [Parse.arguments]
      refine .cons (.refl r) ?_
      rw [stop, Phrase.stop]
      cases read : Parse.expression room r with
      | error error t => exact .nil (.refl t)
      | ok first t =>
          have onward : Onward r t := .of_ok read
          refine .before (.refl t) ?_
          dsimp only [behindPhrase]
          unfold behindToken
          split
          · rw [if_pos ((onward.trans (.advance t)).remaining_lt placed (argument_shorter read))]
            have order : InOrder t.advance [⟨.arguments room, t.advance⟩]
                (place (Parse.arguments room t.advance)) :=
              .only
            split <;> rename_i others <;> rw [others] at order <;>
            exact .before (.advance t) order
          · exact .nil (.refl t)
  | operand room =>
      dsimp only
      rw [Parse.operand, peek?_bind]
      generalize r.next? = found
      split
      · dsimp only
        rw [advance_bind]
        exact .before (.advance r) (.last rfl)
      · dsimp only
        rw [advance_bind]
        exact .before (.advance r) (.part rfl fun params t _ => .last rfl)
      · split <;> exact .of_keeps
  | parameterList =>
      dsimp only
      rw [Parse.parameterList]
      refine .expect fun _ => ?_
      rw [peek?_bind]
      split
      · exact .of_keeps
      · exact .last rfl
  | parameters seen =>
      dsimp only
      split
      · rename_i name next
        split
        · exact .nil ((parameters_keeps seen).reach r)
        · rename_i fresh
          unfold behindToken
          split
          · rename_i comma
            rw [parameters_of_comma next (by simpa using fresh) comma]
            exact .before (.advance r) (.before (.advance _) .only)
          · exact .nil ((parameters_keeps seen).reach r)
      · exact .nil ((parameters_keeps seen).reach r)

/-- Behind each of the places in parts that are read in their order comes the next. -/
theorem InOrder.chain {parts : List Reading} (order : InOrder r parts s) (placed : r.Placed)
    (inside : ∀ part ∈ parts, part.start.Placed → part.places.IsChain Onward)
    : (r :: parts.flatMap places ++ [s]).IsChain Onward := by
  induction order with
  | nil onward => exact .cons_cons onward (.singleton _)
  | @cons r s part others before _ ih =>
      obtain ⟨first, inside⟩ := List.forall_mem_cons.mp inside
      have started := before.placed placed
      have later := ih (part.onward.placed started) inside
      have first := first started
      rw [places_eq] at first
      have joined := List.isChain_split.mpr ⟨first, later⟩
      rw [List.flatMap_cons, places_eq]
      simpa using List.IsChain.cons_cons before joined

/-- The places in a phrase come one behind the other, by induction on what there is to read. -/
theorem places_chain (whole : Reading) (placed : whole.start.Placed)
    : whole.places.IsChain Onward := by
  induction whole using parts_wellFounded.induction with
  | _ whole ih =>
      rw [places_eq]
      exact (whole.parts_inOrder placed).chain placed ih

/-- A phrase is read in the course of reading another. -/
abbrev Reaches : Reading → Reading → Prop :=
  Relation.ReflTransGen fun whole part => part ∈ whole.parts

theorem InOrder.placed {parts : List Reading} (order : InOrder r parts s) (placed : r.Placed)
    : ∀ part ∈ parts, part.start.Placed := by
  induction order with
  | nil => exact List.forall_mem_nil _
  | @cons r s part others before _ ih =>
      have started := before.placed placed
      exact List.forall_mem_cons.mpr ⟨started, ih (part.onward.placed started)⟩

theorem Reaches.placed {whole part : Reading} (reached : whole.Reaches part)
    (placed : whole.start.Placed)
    : part.start.Placed := by
  induction reached with
  | refl => exact placed
  | @tail whole part _ inside ih => exact (whole.parts_inOrder ih).placed ih part inside

/-- All of a script. -/
def script (lexemes : List Lexeme) : Reading :=
  ⟨.statements nestingLimit false, .start lexemes⟩

end Reading

-----------------------------------------------------------------------------------------
-- Scripts
-----------------------------------------------------------------------------------------

/-- The statement that was read, if one was. -/
def readOne : EStateM.Result SyntaxError Reader Stmt → List Stmt
  | .ok stmt _ => [stmt]
  | .error _ _ => []

/-- The round of a list of statements at a place passes over a token, and behind it the list
goes on. If it is the last one, the list has ended there, or all that is left is passed over.
-/
structure Loops (room : Nat) (nested : Bool) (r : Reader) : Prop where
  next
    : ∀ s,
        nextRound? room nested r = some s
        → r.position < s.position
          ∧ statements room nested r
            = (readOne (statement room r) ++ (statements room nested s).1,
                (statements room nested s).2)
  last
    : nextRound? room nested r = none
      → (Ended nested r ∧ statements room nested r = ([], r))
        ∨ (errorLimit ≤ r.errors.length
          ∧ r.position < r.skipAll.position
          ∧ statements room nested r = ([], r.skipAll))

theorem rest_skipAll (r : Reader) : r.skipAll.rest = [] := by
  rw [Reader.skipAll, rest_skip, List.drop_length]

/-- Giving up passes over the tokens that are left. -/
theorem skipAll_position {token : Token} (next : r.next? = some token)
    : r.position < r.skipAll.position := by
  have onward : Onward r r.skipAll := Forward.skip r.rest.length r
  obtain ⟨read, past⟩ := onward.past
  have some := length_rest_pos next
  rw [past.rest, rest_skipAll, List.append_nil] at some
  rw [past.position]
  omega

theorem loops {room : Nat} {nested : Bool} (placed : r.Placed) : Loops room nested r where
  next s next := by
    have round := nextRound?_read next
    refine ⟨round.position_lt, ?_⟩
    cases round with
    | statement inside few read =>
        rw [statements_of_statement placed inside few read, read]
        rfl
    | error inside few read =>
        rw [statements_of_error placed inside few read, read]
        rfl
  last none := by
    unfold nextRound? at none
    split at none
    · rename_i here
      rw [ended_iff] at here
      exact .inl ⟨here, statements_of_ended here⟩
    rename_i inside
    split at none
    · rename_i many
      refine .inr ⟨many, ?_, ?_⟩
      · obtain ⟨token, next, -⟩ := next?_of_not_ended (ended_iff.not.mp inside)
        exact skipAll_position next
      · rw [statements, if_neg inside, if_pos many]
    · split at none <;> cases none

/-- A list of statements ends at its end, by induction on the tokens that are left. -/
theorem statements_ended {room : Nat} {nested : Bool} {r : Reader} (placed : r.Placed)
    : Ended nested (statements room nested r).2 := by
  have loops : Loops room nested r := loops placed
  cases next : nextRound? room nested r with
  | none =>
      rcases loops.last next with ⟨here, read⟩ | ⟨-, -, read⟩ <;> rw [read]
      · exact here
      · exact .inl (rest_skipAll r)
  | some s =>
      have round := nextRound?_read next
      have shorter := round.shorter
      rw [(loops.next s next).2]
      exact statements_ended (round.onward.placed placed)
termination_by r.rest.length

/-- Reading gets ahead on all tokens. There is no endless descent into parts of phrases, each
round of a list of statements passes over a token unless it is the last, the places where
phrases begin and end come in order, and reading ends behind all tokens.
-/
theorem parse_gets_ahead (lexemes : List Lexeme)
    : (WellFounded fun part whole : Reading => part ∈ whole.parts)
      ∧ (∀ room nested r,
          (Reading.script lexemes).Reaches ⟨.statements room nested, r⟩ → Loops room nested r)
      ∧ (Reading.script lexemes).places.Pairwise (fun r s => r.position ≤ s.position)
      ∧ (Reading.script lexemes).stop.rest = []
      ∧ (Reading.script lexemes).stop.position = lexemes.length := by
  have placed : (Reading.script lexemes).start.Placed := Reader.placed_start lexemes
  have chain := (Reading.script lexemes).places_chain placed
  have ends : (Reading.script lexemes).stop.rest = [] := by
    have ended : Ended false (Reading.script lexemes).stop := statements_ended placed
    rcases ended with none | block
    · exact none
    · cases block.1
  have onward := (Reading.script lexemes).onward
  refine ⟨Reading.parts_wellFounded, ?_, ?_, ends, ?_⟩
  · intro room nested r reached
    exact loops (reached.placed placed)
  · exact (List.isChain_iff_pairwise.mp chain).imp Onward.position_le
  · have last := onward.placed placed
    obtain ⟨read, past⟩ := onward.past
    rw [Reader.Placed, ends, past.total] at last
    exact last

end Parse

end StackScript
