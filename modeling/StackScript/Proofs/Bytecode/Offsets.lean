import StackScript.Proofs.Bytecode.RoundTrip

/-! Instructions with their offsets. An instruction of some code stands at the offset to which
the lengths of those in front of it add up, and no two stand at the same.
-/

namespace StackScript

/-- The instructions of code, each with its offset. -/
def located (code : List Instruction) : List (Nat × Instruction) :=
  code.mapIdx fun place instruction => (codeLength (code.take place), instruction)

/-- The bytes of instructions are decoded to them. -/
theorem decodeAll_encodeAll (code : List Instruction)
    : Instruction.decodeAll (encodeAll code).toArray = .ok (located code) := by
  have decoded := (CodeFrom.start code).decodeFrom
  simp only [Nat.zero_add] at decoded
  exact decoded

theorem map_snd_located (code : List Instruction) : (located code).map Prod.snd = code := by
  refine List.ext_getElem? fun place => ?_
  simp [located, List.getElem?_mapIdx, Function.comp_def]

/-- An instruction stands at an offset if the code splits there in front of it. -/
theorem mem_located_iff {code : List Instruction} {offset : Nat} {instruction : Instruction}
    : (offset, instruction) ∈ located code
      ↔ ∃ front rest, code = front ++ instruction :: rest ∧ codeLength front = offset := by
  rw [located, List.mem_mapIdx]
  constructor
  · rintro ⟨place, inside, same⟩
    obtain ⟨rfl, rfl⟩ := Prod.mk.inj same
    refine ⟨code.take place, code.drop (place + 1), ?_, rfl⟩
    rw [← List.drop_eq_getElem_cons inside, List.take_append_drop]
  · rintro ⟨front, rest, rfl, rfl⟩
    refine ⟨front.length, by simp, ?_⟩
    simp

end StackScript
