import StackScript.Proofs.Parse.Reading

/-! What reading a phrase keeps. A family of relations between places, one for each amount of
room, holds over every phrase if it holds over the passing of a token and over blocks.
-/

namespace StackScript

namespace Parse

open Reader (Blames Forward)
open StackScript.Parser (Keeps Tracks place)

theorem parameters_tracks {R : Reader → Reader → Prop}
    {E : Reader → SyntaxError → Reader → Prop} [Blames R E] (seen : List String)
    : Tracks R E (parameters seen) := by
  have outcome (r : Reader)
      : (∀ {value s}, parameters seen r = .ok value s → R r s)
        ∧ ∀ {error s}, parameters seen r = .error error s → E r error s := by
    fun_induction parameters seen r with
    | case1 seen r name next behind twice =>
        refine ⟨nofun, ?_⟩
        rintro _ _ ⟨⟩
        exact Blames.duplicate R next
    | case2 seen r name next behind once comma ih =>
        have passed := Forward.trans (Forward.advance (R := R) r) (Forward.advance behind)
        exact ⟨fun read => Forward.trans passed (ih.1 read),
          fun read => Blames.behind passed (ih.2 read)⟩
    | case3 seen r name next behind once last =>
        refine ⟨?_, nofun⟩
        rintro _ _ ⟨⟩
        exact Forward.advance r
    | case4 seen r missing =>
        refine ⟨nofun, ?_⟩
        rintro _ _ ⟨⟩
        exact Blames.fail R _ r
  exact ⟨fun read => (outcome _).1 read, fun read => (outcome _).2 read⟩

instance parameterList_tracks {R : Reader → Reader → Prop}
    {E : Reader → SyntaxError → Reader → Prop} [Blames R E]
    : Tracks R E parameterList := by
  unfold parameterList
  dsimp only
  refine @Tracks.bind _ _ _ _ _ _ _ inferInstance fun _ => ?_
  refine @Tracks.bind _ _ _ _ _ _ _ inferInstance fun found => ?_
  split
  · infer_instance
  · exact @Tracks.bind _ _ _ _ _ (parameters []) _ (parameters_tracks []) inferInstance

theorem parameters_keeps {R : Reader → Reader → Prop} [Forward R] (seen : List String)
    : Keeps R (parameters seen) :=
  have := Forward.blames (R := R)
  .of_tracks (parameters_tracks seen)

instance parameterList_keeps {R : Reader → Reader → Prop} [Forward R] : Keeps R parameterList :=
  have := Forward.blames (R := R)
  .of_tracks parameterList_tracks

/-- A list of statements keeps a relation that holds over each of its rounds, by induction on
the tokens that are left.
-/
theorem statements_keeps {R : Reader → Reader → Prop} [Forward R] {room : Nat} {nested : Bool}
    (ok : ∀ {r s stmt}, r.errors.length < errorLimit → statement room r = .ok stmt s → R r s)
    (error : ∀ {r s error}, r.errors.length < errorLimit → statement room r = .error error s
      → R r (s.report error))
    (r : Reader)
    : R r (statements room nested r).2 := by
  rw [statements]
  split
  · exact Forward.refl r
  split
  · exact Forward.skip _ r
  rename_i few
  rw [Nat.not_le] at few
  split
  · rename_i read
    have first := ok few read
    split
    · exact Forward.trans first (statements_keeps ok error _)
    · exact first
  · rename_i read
    have behind := Forward.trans (error few read) (Forward.recover nested _)
    dsimp only
    split
    · exact Forward.trans behind (statements_keeps ok error _)
    · exact behind
termination_by r.remaining

/-- Behind its opening brace a block keeps what the statements in it keep. -/
theorem block_keeps_inside {R : Reader → Reader → Prop} [Forward R] {room : Nat}
    (body : ∀ r, R r (statements room true r).2) {r : Reader}
    (opening : r.next? = some (.mark .leftBrace))
    : R r.advance (place (block room r)) := by
  unfold block
  rw [Parser.expect_bind opening]
  refine @Keeps.reach _ R _ ?_ r.advance
  exact @Keeps.bind _ _ _ _ _ _ ⟨body⟩ inferInstance

theorem block_of_not_next {room : Nat} {r : Reader} (other : r.next? ≠ some (.mark .leftBrace))
    : block room r = .error ⟨.expected (.mark .leftBrace) r.next?, r.position, r.here⟩ r := by
  unfold block
  rw [Parser.bind_of_error (Parser.expect_of_not_next other)]

theorem block_keeps {R : Reader → Reader → Prop} [Forward R] {room : Nat}
    (body : ∀ r, R r (statements room true r).2)
    : Keeps R (block room) := by
  refine ⟨fun r => ?_⟩
  by_cases opening : r.next? = some (.mark .leftBrace)
  · exact Forward.trans (Forward.advance r) (block_keeps_inside body opening)
  · rw [block_of_not_next opening]
    exact Forward.refl r

theorem block_tracks {R : Reader → Reader → Prop} {E : Reader → SyntaxError → Reader → Prop}
    [Blames R E] {room : Nat} (body : ∀ r, R r (statements room true r).2)
    : Tracks R E (block room) := by
  unfold block
  refine @Tracks.bind _ _ _ _ _ _ _ inferInstance fun _ => ?_
  exact @Tracks.bind _ _ _ _ _ _ _ (.of_total (fun _ => rfl) body) inferInstance

/-- Families of relations that grow with the room, the one between places and the other to
errors, and hold over blocks if they hold over the statements in them.
-/
structure Passed (R : Nat → Reader → Reader → Prop)
    (E : Nat → Reader → SyntaxError → Reader → Prop)
    : Prop where
  blames (room : Nat) : Blames (R room) (E room)
  grow {room : Nat} {r s : Reader} (small : R room r s) : R (room + 1) r s
  growError {room : Nat} {r s : Reader} {error : SyntaxError} (small : E room r error s)
    : E (room + 1) r error s
  block {room : Nat} (statement : Tracks (R room) (E room) (statement room))
    : Tracks (R (room + 1)) (E (room + 1)) (block room)

-- The instances follow the steps of a phrase, of which statements have many.
set_option synthInstance.maxSize 1000

namespace Passed

variable {R : Nat → Reader → Reader → Prop} {E : Nat → Reader → SyntaxError → Reader → Prop}

theorem tracks_grow {α : Type} (passed : Passed R E) {room : Nat} {p : Parser α}
    (small : Tracks (R room) (E room) p)
    : Tracks (R (room + 1)) (E (room + 1)) p :=
  ⟨fun read => passed.grow (small.ok read), fun read => passed.growError (small.error read)⟩

mutual

theorem statement (passed : Passed R E) (room : Nat)
    : Tracks (R room) (E room) (statement room) := by
  have := passed.blames room
  match room with
  | 0 =>
      unfold Parse.statement
      infer_instance
  | room + 1 =>
      have := passed.block (statement passed room)
      have := passed.tracks_grow (statement passed room)
      have := passed.tracks_grow (expression passed room)
      unfold Parse.statement
      refine @Tracks.bind _ _ _ _ _ _ _ inferInstance fun start => ?_
      refine @Tracks.bind _ _ _ _ _ _ _ inferInstance fun found => ?_
      dsimp only
      split <;> infer_instance
termination_by (room, 0, 0)

theorem expression (passed : Passed R E) (room : Nat)
    : Tracks (R room) (E room) (expression room) := by
  have := passed.blames room
  match room with
  | 0 =>
      unfold Parse.expression
      infer_instance
  | room + 1 =>
      have := passed.tracks_grow (expression passed room)
      have := chain passed room levels
      unfold Parse.expression
      refine @Tracks.bind _ _ _ _ _ _ _ inferInstance fun r => ?_
      split <;> infer_instance
termination_by (room, 0, 0)

theorem chain (passed : Passed R E) (room level : Nat)
    : Tracks (R (room + 1)) (E (room + 1)) (chain room level) := by
  have := passed.blames (room + 1)
  match level with
  | 0 =>
      have := call passed room
      unfold Parse.chain
      infer_instance
  | level + 1 =>
      have := chain passed room level
      have := chainTail passed room level
      unfold Parse.chain
      infer_instance
termination_by (room, 6 + level, 0)

theorem chainTail (passed : Passed R E) (room level : Nat) (left : Expr)
    : Tracks (R (room + 1)) (E (room + 1)) (chainTail room level left) := by
  have := passed.blames (room + 1)
  unfold Parse.chainTail
  refine @Tracks.bind _ _ _ _ _ _ _ inferInstance fun found => ?_
  split
  · infer_instance
  · rename_i joint _
    match room with
    | 0 => infer_instance
    | room + 1 =>
        have := passed.tracks_grow (chain passed room level)
        have (right : Expr) :=
          passed.tracks_grow (chainTail passed room level (joint.join left right))
        infer_instance
termination_by (room, 0, 0)

theorem call (passed : Passed R E) (room : Nat)
    : Tracks (R (room + 1)) (E (room + 1)) (call room) := by
  have := passed.blames (room + 1)
  have := operand passed room
  have := callTail passed room
  unfold Parse.call
  infer_instance
termination_by (room, 5, 0)

theorem callTail (passed : Passed R E) (room : Nat) (callee : Expr)
    : Tracks (R (room + 1)) (E (room + 1)) (callTail room callee) := by
  have := passed.blames (room + 1)
  unfold Parse.callTail
  refine @Tracks.bind _ _ _ _ _ _ _ inferInstance fun found => ?_
  split
  · match room with
    | 0 => infer_instance
    | room + 1 =>
        have outcome := arguments passed room
        have read : Tracks (R room) (E room) (Parse.arguments room) :=
          ⟨fun read => (outcome _).1 read, fun read => (outcome _).2 read⟩
        have read := passed.tracks_grow (passed.tracks_grow read)
        have (args : List Expr) :=
          passed.tracks_grow (callTail passed room (.call callee args))
        refine @Tracks.bind _ _ _ _ _ _ _ inferInstance fun found => ?_
        dsimp only
        split
        · infer_instance
        · exact @Tracks.bind _ _ _ _ _ (Parse.arguments room) _ read inferInstance
  · infer_instance
termination_by (room, 0, 0)

theorem arguments (passed : Passed R E) (room : Nat) (r : Reader)
    : (∀ {value s}, arguments room r = .ok value s → R room r s)
      ∧ ∀ {error s}, arguments room r = .error error s → E room r error s := by
  have := passed.blames room
  have first := expression passed room
  rw [Parse.arguments]
  split
  · rename_i read
    refine ⟨nofun, ?_⟩
    rintro _ _ ⟨⟩
    exact first.error read
  · rename_i behind read
    have first := first.ok read
    split
    · have comma := Forward.trans first (Forward.advance _)
      split
      · have others := arguments passed room behind.advance
        split <;> rename_i read
        · refine ⟨?_, nofun⟩
          rintro _ _ ⟨⟩
          exact Forward.trans comma (others.1 read)
        · refine ⟨nofun, ?_⟩
          rintro _ _ ⟨⟩
          exact Blames.behind comma (others.2 read)
      · refine ⟨?_, nofun⟩
        rintro _ _ ⟨⟩
        exact comma
    · refine ⟨?_, nofun⟩
      rintro _ _ ⟨⟩
      exact first
termination_by (room, 1, r.remaining)

theorem operand (passed : Passed R E) (room : Nat)
    : Tracks (R (room + 1)) (E (room + 1)) (operand room) := by
  have := passed.blames (room + 1)
  have := passed.block (statement passed room)
  have := passed.tracks_grow (expression passed room)
  unfold Parse.operand
  refine @Tracks.bind _ _ _ _ _ _ _ inferInstance fun found => ?_
  split <;> infer_instance
termination_by (room, 4, 0)

end

end Passed

/-- A family of relations that grows with the room and holds over blocks, if it holds over
the statements in them.
-/
structure Carried (R : Nat → Reader → Reader → Prop) : Prop where
  forward (room : Nat) : Forward (R room)
  grow {room : Nat} {r s : Reader} (small : R room r s) : R (room + 1) r s
  block {room : Nat} (kept : Keeps (R room) (statement room))
    : Keeps (R (room + 1)) (block room)

namespace Carried

variable {R : Nat → Reader → Reader → Prop} (carried : Carried R)

include carried

theorem passed : Passed R fun room r _ s => R room r s where
  blames room := (carried.forward room).blames
  grow := carried.grow
  growError := carried.grow
  block tracks := .of_keeps (carried.block (.of_tracks tracks))

theorem statement (room : Nat) : Keeps (R room) (statement room) :=
  .of_tracks (carried.passed.statement room)

theorem expression (room : Nat) : Keeps (R room) (expression room) :=
  .of_tracks (carried.passed.expression room)

theorem chain (room level : Nat) : Keeps (R (room + 1)) (chain room level) :=
  .of_tracks (carried.passed.chain room level)

theorem chainTail (room level : Nat) (left : Expr)
    : Keeps (R (room + 1)) (chainTail room level left) :=
  .of_tracks (carried.passed.chainTail room level left)

theorem call (room : Nat) : Keeps (R (room + 1)) (call room) :=
  .of_tracks (carried.passed.call room)

theorem callTail (room : Nat) (callee : Expr) : Keeps (R (room + 1)) (callTail room callee) :=
  .of_tracks (carried.passed.callTail room callee)

theorem arguments (room : Nat) (r : Reader) : R room r (place (arguments room r)) := by
  have outcome := carried.passed.arguments room r
  cases read : Parse.arguments room r with
  | ok value s => exact outcome.1 read
  | error error s => exact outcome.2 read

theorem operand (room : Nat) : Keeps (R (room + 1)) (operand room) :=
  .of_tracks (carried.passed.operand room)

end Carried

end Parse

end StackScript
