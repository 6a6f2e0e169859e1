import StackScript.Proofs.Parse.Keeping

/-! Reading goes forward. Whatever is read, the tokens that are left are an end of those that
were left before, the place is known from the number of tokens between, and errors are only
added behind those noted before. Recovery from an error passes over a token if the statement
did not, so that every round of a list of statements gets ahead.
-/

namespace StackScript

-----------------------------------------------------------------------------------------
-- Passing over tokens
-----------------------------------------------------------------------------------------

namespace Reader

/-- The place behind the given tokens, up to the errors noted on the way. -/
structure Past (read : List Lexeme) (r s : Reader) : Prop where
  rest : r.rest = read ++ s.rest
  position : s.position = r.position + read.length
  total : s.total = r.total
  previous : s.previous = (read.getLast?.map Lexeme.span).getD r.previous

namespace Past

variable {r s t : Reader} {read more : List Lexeme}

theorem refl (r : Reader) : Past [] r r :=
  ⟨rfl, rfl, rfl, rfl⟩

theorem append (first : Past read r s) (second : Past more s t) : Past (read ++ more) r t where
  rest := by rw [first.rest, second.rest, List.append_assoc]
  position := by rw [second.position, first.position, List.length_append, Nat.add_assoc]
  total := second.total.trans first.total
  previous := by
    rw [second.previous, first.previous, List.getLast?_append]
    cases more.getLast? <;> rfl

end Past

/-- The next token is passed over. -/
theorem past_advance {r : Reader} {token : Token} (next : r.next? = some token)
    : ∃ span, Past [⟨token, span⟩] r r.advance := by
  obtain ⟨span, rest, left⟩ := rest_of_next? next
  refine ⟨span, ?_⟩
  unfold advance
  rw [left]
  exact ⟨left, rfl, rfl, rfl⟩

/-- The place of the reader in the sequence agrees with the tokens that are left. -/
def Placed (r : Reader) : Prop :=
  r.position + r.rest.length = r.total

theorem placed_start (lexemes : List Lexeme) : (start lexemes).Placed :=
  Nat.zero_add _

theorem Placed.remaining_eq {r : Reader} (placed : r.Placed) : r.remaining = r.rest.length := by
  unfold Placed at placed
  unfold remaining
  omega

theorem Past.placed {r s : Reader} {read : List Lexeme} (past : Past read r s)
    (placed : r.Placed)
    : s.Placed := by
  unfold Placed at placed ⊢
  rw [past.rest, List.length_append] at placed
  rw [past.position, past.total, ← placed, Nat.add_assoc]

-----------------------------------------------------------------------------------------
-- Going forward
-----------------------------------------------------------------------------------------

/-- From one place to another reading passed over some tokens and noted some errors. -/
structure Onward (r s : Reader) : Prop where
  past : ∃ read, Past read r s
  errors : r.errors <+: s.errors

namespace Onward

variable {r s t : Reader}

theorem refl (r : Reader) : Onward r r :=
  ⟨⟨[], .refl r⟩, List.prefix_refl _⟩

theorem trans (first : Onward r s) (second : Onward s t) : Onward r t := by
  obtain ⟨⟨_, past⟩, errors⟩ := first
  obtain ⟨⟨_, past'⟩, errors'⟩ := second
  exact ⟨⟨_, past.append past'⟩, errors.trans errors'⟩

theorem advance (r : Reader) : Onward r r.advance := by
  cases next : r.next? with
  | none =>
      have left : r.rest = [] := by simpa [next?] using next
      have same : r.advance = r := by
        unfold Reader.advance
        rw [left]
      rw [same]
      exact refl r
  | some token =>
      obtain ⟨span, past⟩ := past_advance next
      exact ⟨⟨_, past⟩, (errors_advance r).symm ▸ List.prefix_refl _⟩

theorem report (r : Reader) (error : SyntaxError) : Onward r (r.report error) :=
  ⟨⟨[], rfl, rfl, rfl, rfl⟩, List.prefix_append _ _⟩

instance : Forward Onward :=
  ⟨refl, trans, advance⟩

instance : Trans Onward Onward Onward :=
  ⟨trans⟩

theorem length_le (onward : Onward r s) : s.rest.length ≤ r.rest.length := by
  obtain ⟨read, past⟩ := onward.past
  rw [past.rest, List.length_append]
  omega

theorem position_le (onward : Onward r s) : r.position ≤ s.position := by
  obtain ⟨read, past⟩ := onward.past
  rw [past.position]
  exact Nat.le_add_right _ _

theorem placed (onward : Onward r s) (placed : r.Placed) : s.Placed := by
  obtain ⟨read, past⟩ := onward.past
  exact past.placed placed

/-- The checks that each round gets ahead look at the tokens that remain. -/
theorem remaining_lt (onward : Onward r s) (placed : r.Placed)
    (shorter : s.rest.length < r.rest.length)
    : s.remaining < r.remaining := by
  rwa [placed.remaining_eq, (onward.placed placed).remaining_eq]

theorem of_ok {α : Type} {p : Parser α} [Parser.Keeps Onward p] {value : α}
    (read : p r = .ok value s)
    : Onward r s :=
  Parser.Keeps.of_ok read

theorem of_error {α : Type} {p : Parser α} [Parser.Keeps Onward p] {error : SyntaxError}
    (read : p r = .error error s)
    : Onward r s :=
  Parser.Keeps.of_error read

end Onward

end Reader

namespace Parse

open Reader (Onward)
open StackScript.Parser (Keeps)

/-- A list of statements goes forward if each statement does. -/
theorem statements_onward {room : Nat} (kept : Keeps Onward (statement room)) (nested : Bool)
    (r : Reader)
    : Onward r (statements room nested r).2 :=
  statements_keeps (fun _ read => .of_ok read)
    (fun _ read => (Onward.of_error read).trans (.report _ _)) r

theorem carried_onward : Carried fun _ => Onward where
  forward _ := inferInstance
  grow small := small
  block kept := block_keeps (statements_onward kept true)

variable (room level : Nat) (before : Expr)

instance : Keeps Onward (statement room) :=
  carried_onward.statement room

instance : Keeps Onward (block room) :=
  block_keeps (statements_onward inferInstance true)

instance : Keeps Onward (expression room) :=
  carried_onward.expression room

instance : Keeps Onward (chain room level) :=
  carried_onward.chain room level

instance : Keeps Onward (chainTail room level before) :=
  carried_onward.chainTail room level before

instance : Keeps Onward (call room) :=
  carried_onward.call room

instance : Keeps Onward (callTail room before) :=
  carried_onward.callTail room before

instance : Keeps Onward (arguments room) :=
  ⟨carried_onward.arguments room⟩

instance : Keeps Onward (operand room) :=
  carried_onward.operand room

/-- A list of statements goes forward. -/
theorem onward_statements (room : Nat) (nested : Bool) (r : Reader)
    : Onward r (statements room nested r).2 :=
  statements_onward inferInstance nested r

end Parse

end StackScript
