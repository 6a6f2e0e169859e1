import StackScript.Bytecode.Listing
import StackScript.Proofs.Bytecode.Flow

/-! Where control can go in bytes. From an offset it goes on behind the instruction that stands
there, or to the target of a jump. In the bytes of balanced code these are the ways between the
places of its instructions, so that what is reached can be told from the instructions alone.
-/

namespace StackScript

/-- Control can go from one offset of some bytes to another in one step: behind the instruction
at the offset, unless that is a return or a jump that is always taken, or to the target of a
jump.
-/
inductive Leads (code : Array UInt8) : Nat → Nat → Prop
  | next {offset : Nat} {instruction : Instruction}
    (found : Instruction.decode code offset = .ok instruction)
    (passes : instruction.passes = true)
    : Leads code offset (offset + instruction.length)
  | jump {offset : Nat} {when : Jump} {distance : UInt16}
    (found : Instruction.decode code offset = .ok (.jump when distance))
    : Leads code offset (Instruction.target offset distance)

/-- Control can go from one offset of some bytes to another. -/
abbrev Route (code : Array UInt8) : Nat → Nat → Prop :=
  Relation.ReflTransGen (Leads code)

/-- A path goes to an end of the code at which it starts. -/
theorem Path.suffix {place next : List Instruction} (path : Path place next)
    : next <:+ place := by
  induction path with
  | refl => exact List.suffix_refl place
  | tail _ flows ih =>
      refine .trans ?_ ih
      cases flows with
      | next => exact List.suffix_cons _ _
      | jump when _ => exact (List.suffix_append _ _).trans (List.suffix_cons _ _)

namespace CodeFrom

variable {code : Array UInt8} {offset target height : Nat} {place next : List Instruction}

/-- A step between places is one between their offsets. -/
theorem leads (placed : CodeFrom code offset place) (flows : Flows place next)
    : ∃ target, Leads code offset target ∧ CodeFrom code target next := by
  cases flows with
  | next rest passes => exact ⟨_, .next placed.decode passes, placed.tail⟩
  | jump when rest length =>
      have behind := placed.tail.skip
      rw [length] at behind
      exact ⟨_, .jump placed.decode, behind⟩

/-- A step from the offset of a place in balanced code is one from that place. -/
theorem flows (placed : CodeFrom code offset place) (balanced : Balanced height place)
    (leads : Leads code offset target)
    : ∃ next height,
        Flows place next ∧ CodeFrom code target next ∧ Balanced height next := by
  cases place with
  | nil =>
      have nothing := Instruction.decode_of_size_le (Nat.le_of_eq placed.size_eq)
      cases leads with
      | next found => cases nothing.symm.trans found
      | jump found => cases nothing.symm.trans found
  | cons first rest =>
      obtain ⟨-, lands, balanced⟩ := balanced
      cases leads with
      | next found passes =>
          cases placed.decode.symm.trans found
          exact ⟨rest, _, .next rest passes, placed.tail, balanced⟩
      | @jump when distance found =>
          cases placed.decode.symm.trans found
          obtain ⟨skipped, target, rfl, length, -⟩ := lands when distance rfl
          have behind := placed.tail.skip
          rw [length] at behind
          exact ⟨target, _, .jump when target length, behind, balanced.behind⟩

theorem route (placed : CodeFrom code offset place) (path : Path place next)
    : ∃ target, Route code offset target ∧ CodeFrom code target next := by
  induction path with
  | refl => exact ⟨offset, .refl, placed⟩
  | tail _ flows ih =>
      obtain ⟨middle, route, there⟩ := ih
      obtain ⟨target, leads, behind⟩ := there.leads flows
      exact ⟨target, route.tail leads, behind⟩

theorem path (placed : CodeFrom code offset place) (balanced : Balanced height place)
    (route : Route code offset target)
    : ∃ next height, Path place next ∧ CodeFrom code target next ∧ Balanced height next := by
  induction route with
  | refl => exact ⟨place, height, .refl, placed, balanced⟩
  | tail _ leads ih =>
      obtain ⟨middle, _, path, there, balanced⟩ := ih
      obtain ⟨next, height, flows, behind, balanced⟩ := there.flows balanced leads
      exact ⟨next, height, path.tail flows, behind, balanced⟩

end CodeFrom

/-- In the bytes of balanced code, a route leads from the start to an offset between two of the
instructions just where a path leads to the instructions behind it.
-/
theorem route_iff_path {height : Nat} {front rest : List Instruction}
    (balanced : Balanced height (front ++ rest))
    : Route (encodeAll (front ++ rest)).toArray 0 (codeLength front)
      ↔ Path (front ++ rest) rest := by
  have start := CodeFrom.start (front ++ rest)
  constructor
  · intro route
    obtain ⟨next, _, path, there, -⟩ := start.path balanced route
    obtain ⟨before, whole⟩ := path.suffix
    have size := there.size_eq
    rw [start.size_eq, Nat.zero_add, ← whole, codeLength_append] at size
    obtain ⟨-, rfl⟩ := split_unique whole (Nat.add_right_cancel size)
    exact path
  · intro path
    obtain ⟨target, route, there⟩ := start.route path
    have size := there.size_eq
    rw [start.size_eq, Nat.zero_add, codeLength_append] at size
    rwa [Nat.add_right_cancel size]

/-- In the bytes of balanced code, a route leads to the end just where a path does. -/
theorem route_end_iff {height : Nat} {code : List Instruction} (balanced : Balanced height code)
    : Route (encodeAll code).toArray 0 (encodeAll code).toArray.size ↔ Path code [] := by
  rw [← List.append_nil code] at balanced
  have ends := route_iff_path balanced
  rwa [List.append_nil, ← length_encodeAll, ← List.size_toArray] at ends

end StackScript
