import Mathlib.Data.List.Forall2
import StackScript.Machine.Snapshot
import StackScript.Proofs.Bytecode.ListingReading
import StackScript.Proofs.Json.WrittenValues
import StackScript.Proofs.Machine.Consistency

/-! What a snapshot tells about a run. Its text determines everything in the state but the result
and the sink, the built-in functions, and which of the infinities and NaNs a number is.
-/

namespace StackScript

-----------------------------------------------------------------------------------------
-- Values
-----------------------------------------------------------------------------------------

/-- Values that a snapshot shows alike: equal ones, numbers that have no JSON form, and built-in
functions.
-/
inductive Value.Alike : Value → Value → Prop
  | same (value : Value) : Alike value value
  | undefined {number other : Binary64} (first : number.isFinite = false)
      (second : other.isFinite = false)
      : Alike (.number number) (.number other)
  | native (builtin other : Builtin) (identity identity' : Nat)
      : Alike (.native builtin identity) (.native other identity')

/-- Numbers of which JSON shows the same are equal or not finite. -/
theorem Json.alike_of_written_number {number other : Binary64}
    (same : (Json.number number).written = (Json.number other).written)
    : (Value.number number).Alike (.number other) := by
  rw [written, written] at same
  cases first : number.isFinite <;> cases second : other.isFinite <;> rw [first, second] at same
  · exact .undefined first second
  · cases same
  · cases same
  · cases same
    exact .same _

namespace Value

variable {value other : Value}

theorem written_snapshot (value : Value)
    : value.snapshot.written
      = .object [("type", .string value.tag.name), ("v", value.content.written)] := by
  simp [snapshot, Json.written]

/-- Values with the same kind are alike if JSON shows the same of what they hold. -/
theorem alike_of_content (tags : value.tag = other.tag)
    (contents : value.content.written = other.content.written)
    : value.Alike other := by
  cases value with
  | number value =>
      cases other with
      | number other => exact Json.alike_of_written_number contents
      | _ => cases tags
  | long value =>
      cases other with
      | long other =>
          simp only [content, Json.written, Json.int.injEq] at contents
          rw [Int64.toInt_inj.mp contents]
          exact .same _
      | _ => cases tags
  | string text =>
      cases other with
      | string other =>
          simp only [content, Json.written, Json.string.injEq] at contents
          rw [contents]
          exact .same _
      | _ => cases tags
  | boolean value =>
      cases other with
      | boolean other =>
          simp only [content, Json.written, Json.bool.injEq] at contents
          rw [contents]
          exact .same _
      | _ => cases tags
  | null =>
      cases other with
      | null => exact .same _
      | _ => cases tags
  | function id =>
      cases other with
      | function other =>
          simp only [content, Json.nat, Json.written, Json.int.injEq, Int.natCast_inj] at contents
          rw [UInt8.toNat_inj.mp contents]
          exact .same _
      | _ => cases tags
  | native builtin identity =>
      cases other with
      | native other identity' => exact .native ..
      | _ => cases tags

theorem alike_iff (value other : Value)
    : value.Alike other ↔ value.snapshot.written = other.snapshot.written := by
  rw [written_snapshot, written_snapshot]
  constructor
  · intro alike
    cases alike with
    | same => rfl
    | undefined first second => simp [tag, content, Json.written, first, second]
    | native => simp [tag, content]
  · intro same
    obtain ⟨names, contents⟩ : value.tag.name = other.tag.name
        ∧ value.content.written = other.content.written := by
      simpa using same
    exact alike_of_content (Tag.name_injective names) contents

/-- Slots are alike if both lack a value or both have one and the values are alike. -/
theorem slots_alike_iff (slot slot' : Option Value)
    : Option.Rel Alike slot slot'
      ↔ (Json.ofOption snapshot slot).written = (Json.ofOption snapshot slot').written := by
  have unset : (Json.ofOption snapshot none).written = .null := by
    rw [Json.ofOption, Json.written]
  have apart : ∀ value : Value, value.snapshot.written ≠ .null := by
    intro value null
    rw [written_snapshot] at null
    cases null
  cases slot with
  | none =>
      cases slot' with
      | none => exact iff_of_true .none rfl
      | some value' =>
          refine iff_of_false (by rintro ⟨⟩) fun same => ?_
          exact apart value' (same.symm.trans unset)
  | some value =>
      cases slot' with
      | none =>
          refine iff_of_false (by rintro ⟨⟩) fun same => ?_
          exact apart value (same.trans unset)
      | some value' => exact Option.rel_some_some.trans (alike_iff value value')

end Value

-----------------------------------------------------------------------------------------
-- States
-----------------------------------------------------------------------------------------

/-- States that differ at most in their results and in values that are shown alike. -/
structure State.Alike {σ τ : Type} (s : State σ) (t : State τ) : Prop where
  ip : s.ip = t.ip
  base : s.base = t.base
  function : s.function = t.function
  frames : s.frames = t.frames
  halted : s.isHalted = t.isHalted
  stack : List.Forall₂ Value.Alike s.stack.toList t.stack.toList
  globals : List.Forall₂ (Option.Rel Value.Alike) s.globals.toList t.globals.toList

/-- Lists are shown the same if their entries are shown the same one by one. -/
theorem forall₂_iff_map_eq {α : Type} {alike : α → α → Prop} {shown : α → Json}
    (one : ∀ entry entry', alike entry entry' ↔ shown entry = shown entry')
    (entries entries' : List α)
    : List.Forall₂ alike entries entries' ↔ entries.map shown = entries'.map shown := by
  rw [← List.forall₂_eq_eq_eq, List.forall₂_map_left_iff, List.forall₂_map_right_iff]
  exact ⟨.imp fun _ _ => (one _ _).mp, .imp fun _ _ => (one _ _).mpr⟩

/-- Frames are shown in full. -/
theorem Frame.written_snapshot_injective
    : Function.Injective fun frame : Frame => frame.snapshot.written := by
  rintro ⟨function, ip, base⟩ ⟨function', ip', base'⟩ same
  simpa [snapshot, Json.nat, Json.written] using same

namespace State

variable {σ τ : Type} {s : State σ} {t : State τ}

/-- Two states are shown alike exactly if JSON shows the same of them. -/
theorem alike_iff_written : s.Alike t ↔ s.snapshot.written = t.snapshot.written := by
  have frames := (List.map_injective_iff.mpr Frame.written_snapshot_injective).eq_iff
    (a := s.frames) (b := t.frames)
  have stack := forall₂_iff_map_eq Value.alike_iff s.stack.toList t.stack.toList
  have globals := forall₂_iff_map_eq Value.slots_alike_iff s.globals.toList t.globals.toList
  have parts : s.snapshot.written = t.snapshot.written
      ↔ s.ip = t.ip ∧ s.base = t.base ∧ s.function = t.function
        ∧ s.stack.toList.map (·.snapshot.written) = t.stack.toList.map (·.snapshot.written)
        ∧ s.globals.toList.map (fun slot => (Json.ofOption Value.snapshot slot).written)
          = t.globals.toList.map (fun slot => (Json.ofOption Value.snapshot slot).written)
        ∧ s.frames.map (fun frame => frame.snapshot.written)
          = t.frames.map (fun frame => frame.snapshot.written)
        ∧ s.isHalted = t.isHalted := by
    simp [snapshot, Json.nat, Json.written, Function.comp_def]
  rw [parts, ← stack, ← globals, frames]
  constructor
  · rintro ⟨ip, base, function, frames, halted, stack, globals⟩
    exact ⟨ip, base, function, stack, globals, frames, halted⟩
  · rintro ⟨ip, base, function, stack, globals, frames, halted⟩
    exact ⟨ip, base, function, frames, halted, stack, globals⟩

-----------------------------------------------------------------------------------------
-- Texts of snapshots
-----------------------------------------------------------------------------------------

theorem compact_snapshot_of_alike (alike : s.Alike t)
    : s.snapshot.compact = t.snapshot.compact :=
  (Json.compact_eq_iff _ _).mpr (alike_iff_written.mp alike)

/-- Two states have the same snapshot exactly if they are at the same place with the same frames,
both or neither have a result, and their globals and stacks agree entry by entry, where only
numbers that are not finite stand for each other, and built-in functions.
-/
theorem snapshot_tells_state (s : State σ) (t : State τ)
    : s.snapshot.compact = t.snapshot.compact ↔ s.Alike t :=
  (Json.compact_eq_iff _ _).trans alike_iff_written.symm

end State

/-- The main code calls a function that puts both infinities on the stack and returns the last
value there.
-/
def Program.bothInfinities : Program where
  main := #[0, 5, 1, 10, 0]
  functions :=
    #[some ⟨0, #[0, 0, 0, 0, 0, 0, 0, 0, 240, 127, 0, 0, 0, 0, 0, 0, 0, 0, 240, 255, 11]⟩]
  strings := #[]
  globalCount := 0

/-- Where there is no room for the negative infinity, a run that goes on behind the fault returns
the positive one, and the snapshot is that of a run with more room.
-/
theorem State.snapshot_hides_infinity
    : ∃ s t : State Capture,
        Machine.Proceeds ⟨Program.bothInfinities, ⟨2, 4096⟩⟩
          (State.initial Program.bothInfinities (Capture.empty none)) s
        ∧ Machine.Proceeds ⟨Program.bothInfinities, .default⟩
            (State.initial Program.bothInfinities (Capture.empty none)) t
        ∧ s.snapshot.compact = t.snapshot.compact
        ∧ s.stack[0]? = some (.number (.infinity false))
        ∧ t.stack[0]? = some (.number (.infinity true)) := by
  refine ⟨_, _, .head rfl <| .head rfl <| .head rfl <| .head rfl <| .head rfl .refl,
    .head rfl <| .head rfl <| .head rfl <| .head rfl <| .head rfl .refl, ?_, rfl, rfl⟩
  refine compact_snapshot_of_alike ⟨rfl, rfl, rfl, rfl, rfl, ?_, ?_⟩
  · exact .cons (.undefined (by decide) (by decide)) .nil
  · exact .cons .none (.cons (.some (.same _)) (.cons (.some (.same _)) .nil))

end StackScript
