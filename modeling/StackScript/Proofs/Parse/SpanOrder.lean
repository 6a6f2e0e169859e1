import StackScript.Proofs.Parse.Onward

/-! Places in the source. If the spans of the tokens come one behind the other, so do the places
to which reading comes: the next token begins no earlier than the last one ended, and neither
the start of the next token nor the end of the last one ever goes back.
-/

namespace StackScript

/-- One span lies in another. -/
def Span.Within (inner outer : Span) : Prop :=
  outer.start ≤ inner.start ∧ inner.stop ≤ outer.stop

/-- Spans that come one behind the other. -/
structure Span.Rows (spans : List Span) : Prop where
  forward : ∀ span ∈ spans, span.start ≤ span.stop
  apart : spans.Pairwise fun first second => first.stop ≤ second.start

namespace Span.Rows

variable {span other : Span} {spans more : List Span}

theorem suffix (rows : Rows spans) (behind : more <:+ spans) : Rows more where
  forward span member := rows.forward span (behind.mem member)
  apart := rows.apart.sublist behind.sublist

theorem tail (rows : Rows (span :: spans)) : Rows spans :=
  rows.suffix (List.suffix_cons span spans)

/-- The first span starts and ends before the others do. -/
theorem first_le (rows : Rows (span :: spans)) (member : other ∈ span :: spans)
    : span.start ≤ other.start ∧ span.stop ≤ other.stop := by
  rcases List.mem_cons.mp member with rfl | member
  · exact ⟨Nat.le_refl _, Nat.le_refl _⟩
  · have apart := List.rel_of_pairwise_cons rows.apart member
    have first := rows.forward span List.mem_cons_self
    have second := rows.forward other (List.mem_cons_of_mem span member)
    exact ⟨Nat.le_trans first apart, Nat.le_trans apart second⟩

end Span.Rows

namespace Reader

variable {r s t : Reader} {read : List Lexeme}

/-- The span of the token before a place, and the spans of those behind it. -/
def spans (r : Reader) : List Span :=
  r.previous :: r.rest.map Lexeme.span

/-- Passing over tokens leaves an end of the spans. -/
theorem Past.spans_suffix (past : Past read r s) : s.spans <:+ r.spans := by
  unfold spans
  rw [past.rest, past.previous]
  rcases List.eq_nil_or_concat read with rfl | ⟨front, last, rfl⟩
  · exact List.suffix_refl _
  · refine ⟨r.previous :: front.map Lexeme.span, ?_⟩
    simp

theorem Onward.spans_suffix (onward : Onward r s) : s.spans <:+ r.spans := by
  obtain ⟨read, past⟩ := onward.past
  exact past.spans_suffix

/-- The spans at a place come one behind the other. -/
def Ordered (r : Reader) : Prop :=
  Span.Rows r.spans

theorem Ordered.onward (ordered : r.Ordered) (onward : Onward r s) : s.Ordered :=
  Span.Rows.suffix ordered onward.spans_suffix

theorem ordered_start {lexemes : List Lexeme} (rows : Span.Rows (lexemes.map Lexeme.span))
    : (start lexemes).Ordered where
  forward := List.forall_mem_cons.mpr ⟨Nat.le_refl 0, rows.forward⟩
  apart := .cons (fun span _ => Nat.zero_le span.start) rows.apart

/-- The next token begins no earlier than the last one ended. -/
theorem Ordered.previous_le (ordered : r.Ordered) : r.previous.stop ≤ r.here.start := by
  unfold here
  cases left : r.rest with
  | nil => exact Nat.le_refl _
  | cons lexeme rest =>
      have apart := ordered.apart
      rw [spans, left] at apart
      exact List.rel_of_pairwise_cons apart List.mem_cons_self

/-- The place is where one of the tokens begins or ends. -/
theorem here_mem_spans (r : Reader)
    : ∃ span ∈ r.spans, r.here.start = span.start ∨ r.here.start = span.stop := by
  unfold here
  cases left : r.rest with
  | nil => exact ⟨r.previous, List.mem_cons_self, .inr rfl⟩
  | cons lexeme rest =>
      refine ⟨lexeme.span, List.mem_cons_of_mem _ ?_, .inl rfl⟩
      rw [left]
      exact List.mem_cons_self

/-- The token that was next neither begins nor ends behind the last one that was read. -/
theorem Ordered.here_le_previous (ordered : r.Ordered) (onward : Onward r s)
    (shorter : s.rest.length < r.rest.length)
    : r.here.start ≤ s.previous.start ∧ r.here.stop ≤ s.previous.stop := by
  obtain ⟨read, past⟩ := onward.past
  cases read with
  | nil =>
      rw [past.rest] at shorter
      exact absurd shorter (Nat.lt_irrefl _)
  | cons first more =>
      have rows : Span.Rows (r.rest.map Lexeme.span) := Span.Rows.tail ordered
      rw [past.rest] at rows
      rw [here, past.rest, past.previous]
      obtain ⟨last, found⟩ := List.getLast?_isSome.mpr (List.cons_ne_nil first more)
        |> Option.isSome_iff_exists.mp
      rw [found]
      have member : last.span ∈ (first :: more ++ s.rest).map Lexeme.span :=
        List.mem_map_of_mem (List.mem_append_left _ (List.mem_of_getLast? found))
      exact rows.first_le member

/-- The span from the next token to the last one that was read begins and ends where these do. -/
theorem Ordered.merge_eq (ordered : r.Ordered) (onward : Onward r s)
    (shorter : s.rest.length < r.rest.length)
    : r.here.merge s.previous = ⟨r.here.start, s.previous.stop⟩ := by
  obtain ⟨starts, stops⟩ := ordered.here_le_previous onward shorter
  rw [Span.merge, Nat.min_eq_left starts, Nat.max_eq_right stops]

/-- The end of the last token does not go back. -/
theorem Ordered.previous_stop_le (ordered : r.Ordered) (onward : Onward r s)
    : r.previous.stop ≤ s.previous.stop :=
  (Span.Rows.first_le ordered (onward.spans_suffix.mem List.mem_cons_self)).2

/-- The start of the next token does not go back. -/
theorem Ordered.here_le (ordered : r.Ordered) (onward : Onward r s)
    : r.here.start ≤ s.here.start := by
  obtain ⟨read, past⟩ := onward.past
  cases read with
  | nil =>
      have same : r.here = s.here := by
        unfold here
        rw [past.rest, past.previous]
        rfl
      exact Nat.le_of_eq (congrArg Span.start same)
  | cons first more =>
      have shorter : s.rest.length < r.rest.length := by
        rw [past.rest, List.length_append, List.length_cons]
        omega
      have behind := ordered.onward onward
      calc r.here.start
        _ ≤ s.previous.start := (ordered.here_le_previous onward shorter).1
        _ ≤ s.previous.stop := behind.forward s.previous List.mem_cons_self
        _ ≤ s.here.start := behind.previous_le

end Reader

end StackScript
