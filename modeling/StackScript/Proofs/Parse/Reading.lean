import StackScript.Parse.Grammar

/-! Steps of reading, one after another. A successful sequence of steps consists of successful
steps, and a relation between places that holds over every step holds over the sequence.
-/

namespace StackScript

variable {α β : Type}

namespace Reader

theorem rest_advance (r : Reader) : r.advance.rest = r.rest.tail := by
  unfold advance
  split <;> simp_all

theorem errors_advance (r : Reader) : r.advance.errors = r.errors := by
  unfold advance
  split <;> rfl

theorem next?_of_rest {r : Reader} {lexeme : Lexeme} {rest : List Lexeme}
    (left : r.rest = lexeme :: rest)
    : r.next? = some lexeme.token := by
  rw [next?, left]
  rfl

theorem rest_of_next? {r : Reader} {token : Token} (next : r.next? = some token)
    : ∃ span rest, r.rest = ⟨token, span⟩ :: rest := by
  unfold next? at next
  cases left : r.rest with
  | nil => simp [left] at next
  | cons lexeme rest =>
      rw [left] at next
      cases next
      exact ⟨lexeme.span, rest, rfl⟩

end Reader

-----------------------------------------------------------------------------------------
-- Successful steps
-----------------------------------------------------------------------------------------

namespace Parser

variable {r s : Reader}

theorem bind_ok_iff {p : Parser α} {next : α → Parser β} {result : β}
    : (p >>= next) r = .ok result s
      ↔ ∃ value t, p r = .ok value t ∧ next value t = .ok result s := by
  cases read : p r <;> simp [bind, EStateM.bind, read, and_assoc]

theorem pure_ok_iff {value result : α}
    : (pure value : Parser α) r = .ok result s ↔ value = result ∧ r = s := by
  simp [pure, EStateM.pure]

theorem map_ok_iff {p : Parser α} {change : α → β} {result : β}
    : (change <$> p) r = .ok result s ↔ ∃ value, p r = .ok value s ∧ change value = result := by
  rw [← bind_pure_comp, bind_ok_iff]
  simp only [pure_ok_iff]
  constructor
  · rintro ⟨value, _, read, changed, rfl⟩
    exact ⟨value, read, changed⟩
  · rintro ⟨value, read, changed⟩
    exact ⟨value, s, read, changed, rfl⟩

theorem get_ok_iff {result : Reader}
    : (get : Parser Reader) r = .ok result s ↔ r = result ∧ r = s := by
  constructor
  · rintro ⟨⟩
    exact ⟨rfl, rfl⟩
  · rintro ⟨rfl, rfl⟩
    rfl

theorem fail_ok_iff {cause : SyntaxCause} {result : α}
    : fail cause r = .ok result s ↔ False := by
  simp [fail]

theorem peek?_ok_iff {found : Option Token}
    : peek? r = .ok found s ↔ r.next? = found ∧ r = s := by
  simp [peek?]

theorem here_ok_iff {span : Span} : here r = .ok span s ↔ r.here = span ∧ r = s := by
  simp [here]

theorem spanFrom_ok_iff {start span : Span}
    : spanFrom start r = .ok span s ↔ start.merge r.previous = span ∧ r = s := by
  simp [spanFrom]

theorem advance_ok_iff {result : Unit} : advance r = .ok result s ↔ r.advance = s := by
  simp [advance]

theorem accept_ok_iff {token : Token} {found : Bool}
    : accept token r = .ok found s
      ↔ (r.next? = some token ∧ found = true ∧ r.advance = s)
        ∨ (r.next? ≠ some token ∧ found = false ∧ r = s) := by
  unfold accept
  split <;> simp_all [eq_comm]

theorem expect_ok_iff {token : Token} {result : Unit}
    : expect token r = .ok result s ↔ r.next? = some token ∧ r.advance = s := by
  unfold expect
  split <;> simp_all [fail]

theorem expectName_ok_iff {name : String}
    : expectName r = .ok name s ↔ r.next? = some (.name name) ∧ r.advance = s := by
  unfold expectName
  split <;> simp_all [fail]

end Parser

-----------------------------------------------------------------------------------------
-- Steps behind a step
-----------------------------------------------------------------------------------------

namespace Parser

variable {r s : Reader}

/-- A step behind a successful one. -/
theorem bind_of_ok {p : Parser α} {next : α → Parser β} {value : α} (read : p r = .ok value s)
    : (p >>= next) r = next value s := by
  simp only [bind, EStateM.bind, read]

/-- An error stops all steps behind it. -/
theorem bind_of_error {p : Parser α} {next : α → Parser β} {error : SyntaxError}
    (read : p r = .error error s)
    : (p >>= next) r = .error error s := by
  simp only [bind, EStateM.bind, read]

theorem expect_of_not_next {token : Token} (other : r.next? ≠ some token)
    : expect token r = .error ⟨.expected token r.next?, r.position, r.here⟩ r :=
  if_neg other

theorem peek?_bind {next : Option Token → Parser β} : (peek? >>= next) r = next r.next? r :=
  rfl

theorem here_bind {next : Span → Parser β} : (here >>= next) r = next r.here r :=
  rfl

theorem spanFrom_bind {start : Span} {next : Span → Parser β}
    : (spanFrom start >>= next) r = next (start.merge r.previous) r :=
  rfl

theorem get_bind {next : Reader → Parser β} : (get >>= next) r = next r r :=
  rfl

theorem advance_bind {next : Unit → Parser β} : (advance >>= next) r = next () r.advance :=
  rfl

theorem expect_bind {token : Token} {next : Unit → Parser β} (ahead : r.next? = some token)
    : (expect token >>= next) r = next () r.advance :=
  bind_of_ok (if_pos ahead)

theorem expectName_bind {name : String} {next : String → Parser β}
    (ahead : r.next? = some (.name name))
    : (expectName >>= next) r = next name r.advance :=
  bind_of_ok (expectName_ok_iff.mpr ⟨ahead, rfl⟩)

theorem accept_bind {token : Token} {next : Bool → Parser β} (ahead : r.next? = some token)
    : (accept token >>= next) r = next true r.advance :=
  bind_of_ok (accept_ok_iff.mpr (.inl ⟨ahead, rfl, rfl⟩))

theorem accept_bind_of_not {token : Token} {next : Bool → Parser β}
    (other : r.next? ≠ some token)
    : (accept token >>= next) r = next false r :=
  bind_of_ok (accept_ok_iff.mpr (.inr ⟨other, rfl, rfl⟩))

end Parser

-----------------------------------------------------------------------------------------
-- Relations that hold over steps
-----------------------------------------------------------------------------------------

/-- The place where a step of reading ends, whether it succeeds or is stopped by an error. -/
def Parser.place : EStateM.Result SyntaxError Reader α → Reader
  | .ok _ r => r
  | .error _ r => r

/-- A relation between places that holds over each passing of a token, and over any number of
steps if it holds over each.
-/
class Reader.Forward (R : Reader → Reader → Prop) : Prop where
  refl (r : Reader) : R r r
  trans {r s t : Reader} (first : R r s) (second : R s t) : R r t
  advance (r : Reader) : R r r.advance

theorem Reader.Forward.skip {R : Reader → Reader → Prop} [Forward R] (count : Nat) (r : Reader)
    : R r (r.skip count) := by
  induction count generalizing r with
  | zero => exact refl r
  | succ count ih => exact trans (advance r) (ih r.advance)

theorem Reader.Forward.recover {R : Reader → Reader → Prop} [Forward R] (nested : Bool)
    (r : Reader)
    : R r (r.recover nested) :=
  skip _ r

/-- A relation holds between the places where a step of reading starts and ends. -/
class Parser.Keeps (R : Reader → Reader → Prop) (p : Parser α) : Prop where
  reach (r : Reader) : R r (place (p r))

namespace Parser.Keeps

open Reader (Forward)

variable {R : Reader → Reader → Prop}

theorem of_ok {p : Parser α} [kept : Keeps R p] {r s : Reader} {value : α}
    (read : p r = .ok value s)
    : R r s := by
  simpa only [place, read] using kept.reach r

theorem of_error {p : Parser α} [kept : Keeps R p] {r s : Reader} {error : SyntaxError}
    (read : p r = .error error s)
    : R r s := by
  simpa only [place, read] using kept.reach r

variable [Forward R]

instance pure (value : α) : Keeps R (Pure.pure value : Parser α) :=
  ⟨Forward.refl⟩

instance bind (p : Parser α) (next : α → Parser β) [Keeps R p] [∀ value, Keeps R (next value)]
    : Keeps R (p >>= next) where
  reach r := by
    cases read : p r with
    | error error s =>
        rw [bind_of_error read]
        exact of_error read
    | ok value s =>
        rw [bind_of_ok read]
        exact Forward.trans (of_ok read) ((inferInstance : Keeps R (next value)).reach s)

instance map (change : α → β) (p : Parser α) [Keeps R p] : Keeps R (change <$> p) := by
  rw [← bind_pure_comp]
  infer_instance

instance ite (c : Prop) [Decidable c] (p q : Parser α) [Keeps R p] [Keeps R q]
    : Keeps R (if c then p else q) := by
  split <;> infer_instance

instance get : Keeps R (MonadState.get : Parser Reader) :=
  ⟨Forward.refl⟩

instance fail (cause : SyntaxCause) : Keeps R (Parser.fail cause : Parser α) :=
  ⟨Forward.refl⟩

instance peek? : Keeps R Parser.peek? :=
  ⟨Forward.refl⟩

instance here : Keeps R Parser.here :=
  ⟨Forward.refl⟩

instance spanFrom (start : Span) : Keeps R (Parser.spanFrom start) :=
  ⟨Forward.refl⟩

instance advance : Keeps R Parser.advance :=
  ⟨Forward.advance⟩

instance accept (token : Token) : Keeps R (Parser.accept token) where
  reach r := by
    by_cases next : r.next? = some token
    · simpa only [place, Parser.accept, next, if_true] using Forward.advance r
    · simpa only [place, Parser.accept, next, if_false] using Forward.refl r

instance expect (token : Token) : Keeps R (Parser.expect token) where
  reach r := by
    by_cases next : r.next? = some token
    · simpa only [place, Parser.expect, next, if_true] using Forward.advance r
    · simpa only [place, Parser.expect, next, if_false, Parser.fail] using Forward.refl r

instance expectName : Keeps R Parser.expectName where
  reach r := by
    unfold place Parser.expectName
    split
    · rename_i read
      split at read <;> cases read
      exact Forward.advance r
    · rename_i read
      split at read <;> cases read
      exact Forward.refl r

end Parser.Keeps

-----------------------------------------------------------------------------------------
-- Relations that hold up to errors
-----------------------------------------------------------------------------------------

/-- Besides a relation between places, one between a place, an error that is found behind it and
the place where that stops reading.
-/
class Reader.Blames (R : Reader → Reader → Prop) (E : Reader → SyntaxError → Reader → Prop)
    : Prop
    extends Forward R where
  fail (cause : SyntaxCause) (r : Reader) : E r ⟨cause, r.position, r.here⟩ r
  duplicate {r : Reader} {name : String} (next : r.next? = some (.name name))
    : E r ⟨.duplicateParameter name, r.advance.position, r.advance.previous⟩ r.advance
  behind {r s t : Reader} {error : SyntaxError} (first : R r s) (second : E s error t)
    : E r error t

/-- A relation holds from where a step of reading starts to where it succeeds, or another to
the error that stops it.
-/
class Parser.Tracks (R : Reader → Reader → Prop) (E : Reader → SyntaxError → Reader → Prop)
    (p : Parser α)
    : Prop where
  ok {r s : Reader} {value : α} (read : p r = .ok value s) : R r s
  error {r s : Reader} {error : SyntaxError} (read : p r = .error error s) : E r error s

namespace Parser.Tracks

open Reader (Forward Blames)

variable {R : Reader → Reader → Prop} {E : Reader → SyntaxError → Reader → Prop}

/-- A step that is never stopped. -/
theorem of_total {p : Parser α} {value : Reader → α} {behind : Reader → Reader}
    (total : ∀ r, p r = .ok (value r) (behind r)) (holds : ∀ r, R r (behind r))
    : Tracks R E p where
  ok read := by
    cases (total _).symm.trans read
    exact holds _
  error read := by cases (total _).symm.trans read

variable [Blames R E]

instance pure (value : α) : Tracks R E (Pure.pure value : Parser α) :=
  of_total (fun _ => rfl) Forward.refl

instance bind (p : Parser α) (next : α → Parser β) [Tracks R E p]
    [∀ value, Tracks R E (next value)]
    : Tracks R E (p >>= next) where
  ok read := by
    obtain ⟨value, t, first, second⟩ := bind_ok_iff.mp read
    exact Forward.trans (Tracks.ok E first) (Tracks.ok E second)
  error {r s error} read := by
    cases first : p r with
    | ok value t =>
        rw [bind_of_ok first] at read
        exact Blames.behind (R := R) (Tracks.ok E first) (Tracks.error R read)
    | error found t =>
        rw [bind_of_error first] at read
        cases read
        exact Tracks.error R first

instance map (change : α → β) (p : Parser α) [Tracks R E p] : Tracks R E (change <$> p) := by
  rw [← bind_pure_comp]
  infer_instance

instance ite (c : Prop) [Decidable c] (p q : Parser α) [Tracks R E p] [Tracks R E q]
    : Tracks R E (if c then p else q) := by
  split <;> infer_instance

instance get : Tracks R E (MonadState.get : Parser Reader) :=
  of_total (fun _ => rfl) Forward.refl

instance fail (cause : SyntaxCause) : Tracks R E (Parser.fail cause : Parser α) where
  ok read := nomatch read
  error {r s error} read := by
    cases read
    exact Blames.fail R cause r

instance peek? : Tracks R E Parser.peek? :=
  of_total (fun _ => rfl) Forward.refl

instance here : Tracks R E Parser.here :=
  of_total (fun _ => rfl) Forward.refl

instance spanFrom (start : Span) : Tracks R E (Parser.spanFrom start) :=
  of_total (fun _ => rfl) Forward.refl

instance advance : Tracks R E Parser.advance :=
  of_total (fun _ => rfl) Forward.advance

instance accept (token : Token) : Tracks R E (Parser.accept token) where
  ok read := by
    rcases accept_ok_iff.mp read with ⟨-, -, rfl⟩ | ⟨-, -, rfl⟩
    · exact Forward.advance _
    · exact Forward.refl _
  error read := by
    unfold Parser.accept at read
    split at read <;> cases read

instance expect (token : Token) : Tracks R E (Parser.expect token) where
  ok read := by
    obtain ⟨-, rfl⟩ := expect_ok_iff.mp read
    exact Forward.advance _
  error read := by
    unfold Parser.expect at read
    split at read
    · cases read
    · exact Tracks.error R read

instance expectName : Tracks R E Parser.expectName where
  ok read := by
    obtain ⟨-, rfl⟩ := expectName_ok_iff.mp read
    exact Forward.advance _
  error read := by
    unfold Parser.expectName at read
    split at read
    · cases read
    · exact Tracks.error R read

end Parser.Tracks

section

open Reader (Forward Blames)
open StackScript.Parser (Keeps Tracks place)

variable {R : Reader → Reader → Prop} {p : Parser α}

/-- A relation between places that does not ask for the error. -/
theorem Reader.Forward.blames [Forward R] : Blames R fun r _ s => R r s where
  fail _ r := Forward.refl r
  duplicate _ := Forward.advance _
  behind first second := Forward.trans first second

theorem Parser.Keeps.of_tracks (tracks : Tracks R (fun r _ s => R r s) p) : Keeps R p where
  reach r := by
    cases read : p r with
    | ok value s => exact tracks.ok read
    | error error s => exact tracks.error read

theorem Parser.Tracks.of_keeps (kept : Keeps R p) : Tracks R (fun r _ s => R r s) p :=
  ⟨kept.of_ok, kept.of_error⟩

end

end StackScript
