import StackScript.Bytecode.Program
import StackScript.Proofs.Bytecode.Decoding

/-! Places in code. The bytes of a piece of code are those of a list of instructions, and a
place at which an instruction starts splits that list in two. A place is described by the
instructions from there to the end, which tell what decoding finds and where jumps lead.
-/

namespace StackScript

-----------------------------------------------------------------------------------------
-- Lengths of instruction lists
-----------------------------------------------------------------------------------------

@[simp] theorem codeLength_nil : codeLength [] = 0 := rfl

@[simp] theorem codeLength_cons (first : Instruction) (rest : List Instruction)
    : codeLength (first :: rest) = first.length + codeLength rest :=
  rfl

@[simp] theorem codeLength_append (front back : List Instruction)
    : codeLength (front ++ back) = codeLength front + codeLength back := by
  induction front with
  | nil => simp
  | cons first rest ih => simp only [List.cons_append, codeLength_cons, ih, Nat.add_assoc]

theorem codeLength_pops (count : Nat) : codeLength (List.replicate count .pop) = count := by
  induction count with
  | zero => rfl
  | succ count ih =>
      rw [List.replicate_succ, codeLength_cons, ih, Nat.add_comm]
      rfl

theorem length_encodeAll (code : List Instruction)
    : (encodeAll code).length = codeLength code := by
  induction code with
  | nil => rfl
  | cons first rest ih =>
      have tail : encodeAll (first :: rest) = first.encode ++ encodeAll rest := rfl
      rw [tail, List.length_append, ih, Instruction.length_encode, codeLength_cons]

theorem encodeAll_append (front back : List Instruction)
    : encodeAll (front ++ back) = encodeAll front ++ encodeAll back :=
  List.flatMap_append

/-- Instructions have bytes, so that a list of them is known to end by its length. -/
theorem eq_nil_of_codeLength_eq_zero {code : List Instruction} (none : codeLength code = 0)
    : code = [] := by
  cases code with
  | nil => rfl
  | cons first rest =>
      have := first.length_pos
      rw [codeLength_cons] at none
      omega

/-- Two splits of one instruction list at the same offset are the same split. -/
theorem split_unique {front back front' back' : List Instruction}
    (same : front ++ back = front' ++ back') (length : codeLength front = codeLength front')
    : front = front' ∧ back = back' := by
  induction front generalizing front' with
  | nil =>
      have none := eq_nil_of_codeLength_eq_zero length.symm
      subst none
      exact ⟨rfl, same⟩
  | cons first rest ih =>
      cases front' with
      | nil =>
          have := first.length_pos
          simp only [codeLength_cons, codeLength_nil] at length
          omega
      | cons first' rest' =>
          rw [List.cons_append, List.cons_append, List.cons.injEq] at same
          obtain ⟨rfl, same⟩ := same
          rw [codeLength_cons, codeLength_cons] at length
          obtain ⟨rfl, rfl⟩ := ih same (by omega)
          exact ⟨rfl, rfl⟩

-----------------------------------------------------------------------------------------
-- Places
-----------------------------------------------------------------------------------------

/-- From an offset to its end the code consists of the given instructions. -/
structure CodeFrom (code : Array UInt8) (offset : Nat) (rest : List Instruction) : Prop where
  inside : offset ≤ code.size
  bytes : code.toList.drop offset = encodeAll rest

namespace CodeFrom

variable {code : Array UInt8} {offset : Nat} {front rest : List Instruction}
  {first : Instruction}

/-- Encoded code consists of its instructions. -/
theorem start (code : List Instruction) : CodeFrom (encodeAll code).toArray 0 code :=
  ⟨Nat.zero_le _, rfl⟩

theorem size_eq (placed : CodeFrom code offset rest) : code.size = offset + codeLength rest := by
  have bytes := congrArg List.length placed.bytes
  rw [List.length_drop, length_encodeAll, Array.length_toList] at bytes
  have := placed.inside
  omega

/-- Behind some instructions the others remain. -/
theorem skip (placed : CodeFrom code offset (front ++ rest))
    : CodeFrom code (offset + codeLength front) rest := by
  refine ⟨?_, ?_⟩
  · rw [placed.size_eq, codeLength_append]
    omega
  · rw [← List.drop_drop, placed.bytes, encodeAll_append, ← length_encodeAll, List.drop_left]

theorem tail (placed : CodeFrom code offset (first :: rest))
    : CodeFrom code (offset + first.length) rest := by
  have behind : CodeFrom code (offset + codeLength [first]) rest := skip placed
  simpa only [codeLength_cons, codeLength_nil, Nat.add_zero] using behind

/-- The instruction at a place is what decoding finds there. -/
theorem decode (placed : CodeFrom code offset (first :: rest))
    : Instruction.decode code offset = .ok first := by
  refine Instruction.decode_of_bytes ⟨encodeAll rest, ?_⟩
  rw [placed.bytes]
  rfl

/-- Where an instruction stands the code has not ended. -/
theorem lt_size (placed : CodeFrom code offset (first :: rest)) : offset < code.size := by
  have := first.length_pos
  rw [placed.size_eq, codeLength_cons]
  omega

end CodeFrom

/-- From an offset to its end a numbered piece of code consists of the given instructions. -/
def Program.CodeFrom (program : Program) (id offset : Nat) (rest : List Instruction) : Prop :=
  ∃ code, program.code? id = some code ∧ StackScript.CodeFrom code offset rest

namespace Program.CodeFrom

variable {program : Program} {id offset : Nat} {front rest : List Instruction}
  {first : Instruction}

theorem skip (placed : program.CodeFrom id offset (front ++ rest))
    : program.CodeFrom id (offset + codeLength front) rest := by
  obtain ⟨code, found, placed⟩ := placed
  exact ⟨code, found, placed.skip⟩

theorem tail (placed : program.CodeFrom id offset (first :: rest))
    : program.CodeFrom id (offset + first.length) rest := by
  obtain ⟨code, found, placed⟩ := placed
  exact ⟨code, found, placed.tail⟩

end Program.CodeFrom

end StackScript
