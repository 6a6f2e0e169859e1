import StackScript.Proofs.Parse.SpanOrder

/-! Errors are noted in the order of the source. An error is found no earlier than those noted
before it, and points to the next token or, where a parameter is named twice, to the name that
was just read. So the places of the errors come in order, and their spans begin in order.
-/

namespace StackScript

open Reader (Blames Forward Onward)
open StackScript.Parser (Tracks)

variable {r s t : Reader}

-----------------------------------------------------------------------------------------
-- Errors in order
-----------------------------------------------------------------------------------------

/-- The keys of the errors come in order and lie between two bounds. -/
structure Rising (key : SyntaxError → Nat) (low high : Nat) (errors : List SyntaxError)
    : Prop where
  ordered : errors.Pairwise fun first second => key first ≤ key second
  bounds : ∀ error ∈ errors, low ≤ key error ∧ key error ≤ high

namespace Rising

variable {key : SyntaxError → Nat} {low middle high : Nat} {errors more : List SyntaxError}

theorem nil : Rising key low high [] :=
  ⟨.nil, List.forall_mem_nil _⟩

theorem single {error : SyntaxError} (above : low ≤ key error) (below : key error ≤ high)
    : Rising key low high [error] :=
  ⟨List.pairwise_singleton _ _, List.forall_mem_singleton.mpr ⟨above, below⟩⟩

theorem append (first : Rising key low middle errors) (second : Rising key middle high more)
    (front : low ≤ middle) (back : middle ≤ high)
    : Rising key low high (errors ++ more) where
  ordered := by
    refine List.pairwise_append.mpr ⟨first.ordered, second.ordered, ?_⟩
    intro error member other member'
    exact Nat.le_trans (first.bounds error member).2 (second.bounds other member').1
  bounds := by
    rw [List.forall_mem_append]
    constructor
    · intro error member
      have bounds := first.bounds error member
      exact ⟨bounds.1, Nat.le_trans bounds.2 back⟩
    · intro error member
      have bounds := second.bounds error member
      exact ⟨Nat.le_trans front bounds.1, bounds.2⟩

end Rising

/-- Between two places the given errors are noted, in order, where one of the tokens begins or
ends.
-/
structure NotedBetween (r s : Reader) (errors : List SyntaxError) : Prop where
  positions : Rising SyntaxError.position r.position s.position errors
  starts : r.Ordered → Rising (fun error => error.span.start) r.here.start s.here.start errors
  edges
    : ∀ error ∈ errors, ∃ span ∈ r.spans,
        error.span.start = span.start ∨ error.span.start = span.stop

namespace NotedBetween

variable {errors more : List SyntaxError}

theorem nil : NotedBetween r s [] :=
  ⟨.nil, fun _ => .nil, List.forall_mem_nil _⟩

theorem append (first : NotedBetween r s errors) (second : NotedBetween s t more)
    (front : Onward r s) (back : Onward s t)
    : NotedBetween r t (errors ++ more) where
  positions := first.positions.append second.positions front.position_le back.position_le
  starts ordered := by
    have ordered' := ordered.onward front
    exact (first.starts ordered).append (second.starts ordered') (ordered.here_le front)
      (ordered'.here_le back)
  edges := by
    rw [List.forall_mem_append]
    refine ⟨first.edges, fun error member => ?_⟩
    obtain ⟨span, found, edge⟩ := second.edges error member
    exact ⟨span, front.spans_suffix.mem found, edge⟩

end NotedBetween

/-- From one place to another reading goes on and notes errors in order. -/
structure Notes (r s : Reader) : Prop where
  onward : Onward r s
  noted : ∃ errors, s.errors = r.errors ++ errors ∧ NotedBetween r s errors

namespace Notes

theorem of_same (onward : Onward r s) (same : s.errors = r.errors) : Notes r s :=
  ⟨onward, [], by rw [same, List.append_nil], .nil⟩

theorem trans (first : Notes r s) (second : Notes s t) : Notes r t := by
  obtain ⟨front, errors, same, noted⟩ := first
  obtain ⟨back, more, same', noted'⟩ := second
  refine ⟨front.trans back, errors ++ more, ?_, noted.append noted' front back⟩
  rw [same', same, List.append_assoc]

instance : Forward Notes where
  refl r := .of_same (.refl r) rfl
  trans := trans
  advance r := .of_same (.advance r) (Reader.errors_advance r)

end Notes

/-- The error that stops reading is found at a place up to which reading noted errors, and points
to the token there.
-/
structure Blamed (r : Reader) (error : SyntaxError) (s : Reader) : Prop where
  found
    : ∃ place,
        Notes r place
        ∧ Onward place s
        ∧ s.errors = place.errors
        ∧ error.span.start = place.here.start
  position : error.position = s.position

theorem Blamed.report {error : SyntaxError} (blamed : Blamed r error s)
    : Notes r (s.report error) := by
  obtain ⟨⟨place, notes, onward, same, start⟩, position⟩ := blamed
  have behind : Onward place (s.report error) := onward.trans (.report s error)
  refine notes.trans ⟨behind, [error], ?_, ?_, ?_, ?_⟩
  · rw [Reader.report, same]
  · exact .single (position ▸ onward.position_le) (Nat.le_of_eq position)
  · intro ordered
    have below := ordered.here_le behind
    rw [← start] at below
    exact .single (Nat.le_of_eq start.symm) below
  · rw [List.forall_mem_singleton, start]
    exact place.here_mem_spans

instance : Blames Notes Blamed where
  fail _ r := ⟨⟨r, Forward.refl r, .refl r, rfl, rfl⟩, rfl⟩
  duplicate {r name} next := by
    obtain ⟨span, rest, left⟩ := Reader.rest_of_next? next
    refine ⟨⟨r, Forward.refl r, .advance r, Reader.errors_advance r, ?_⟩, rfl⟩
    rw [Reader.here, Reader.advance, left]
  behind first second := by
    obtain ⟨⟨place, notes, others⟩, position⟩ := second
    exact ⟨⟨place, first.trans notes, others⟩, position⟩

-----------------------------------------------------------------------------------------
-- Phrases
-----------------------------------------------------------------------------------------

namespace Parse

theorem statements_notes {room : Nat} (tracks : Tracks Notes Blamed (statement room))
    (nested : Bool) (r : Reader)
    : Notes r (statements room nested r).2 :=
  statements_keeps (fun _ read => tracks.ok read) (fun _ read => (tracks.error read).report) r

theorem passed_notes : Passed (fun _ => Notes) fun _ => Blamed where
  blames _ := inferInstance
  grow small := small
  growError small := small
  block tracks := block_tracks (statements_notes tracks true)

/-- The errors of a script come in the order of the tokens at which they are found. -/
theorem parse_notes (lexemes : List Lexeme)
    : ∃ last,
        Onward (.start lexemes) last
        ∧ NotedBetween (.start lexemes) last (parse lexemes).2 := by
  have notes := statements_notes (passed_notes.statement nestingLimit) false (.start lexemes)
  obtain ⟨errors, same, noted⟩ := notes.noted
  obtain rfl : (parse lexemes).2 = errors := same
  exact ⟨_, notes.onward, noted⟩

/-- The places of the errors come in order and are among those of the tokens. -/
theorem positions_ordered (lexemes : List Lexeme)
    : ((parse lexemes).2.Pairwise fun first second => first.position ≤ second.position)
      ∧ ∀ error ∈ (parse lexemes).2, error.position ≤ lexemes.length := by
  obtain ⟨last, onward, noted⟩ := parse_notes lexemes
  have placed := onward.placed (Reader.placed_start lexemes)
  obtain ⟨read, past⟩ := onward.past
  have inside : last.position ≤ lexemes.length := by
    rw [Reader.Placed, past.total] at placed
    exact Nat.le.intro placed
  exact ⟨noted.positions.ordered,
    fun error member => Nat.le_trans (noted.positions.bounds error member).2 inside⟩

/-- The spans of the errors begin in order, each where a token begins or ends, or at the start of
an empty input.
-/
theorem starts_ordered {lexemes : List Lexeme} (rows : Span.Rows (lexemes.map Lexeme.span))
    : ((parse lexemes).2.Pairwise fun first second => first.span.start ≤ second.span.start)
      ∧ ∀ error ∈ (parse lexemes).2, ∃ span ∈ Span.unknown :: lexemes.map Lexeme.span,
          error.span.start = span.start ∨ error.span.start = span.stop := by
  obtain ⟨last, -, noted⟩ := parse_notes lexemes
  exact ⟨(noted.starts (Reader.ordered_start rows)).ordered, noted.edges⟩

end Parse

end StackScript
