import StackScript.Proofs.Bytecode.Flow

/-! Programs whose code keeps to the operand stack. Every piece of code is balanced from the
number of its parameters on, names only entries of the tables, and is left at its end only if
it is the main code.
-/

namespace StackScript

/-- What the instruction names is in the tables of the program. -/
def Instruction.KnownIn (program : Program) : Instruction → Prop
  | .push (.string index) => index.toNat < program.strings.size
  | .push (.function id) => (program.function? id.toNat).isSome
  | _ => True

/-- The height above the base at which a piece of code starts. -/
def Program.arity (program : Program) (id : Nat) : Nat :=
  ((program.function? id).map fun function => function.arity.toNat).getD 0

theorem Program.arity_of_function {program : Program} {id : Nat} {function : Function}
    (found : program.function? id = some function)
    : program.arity id = function.arity.toNat := by
  rw [arity, found]
  rfl

theorem Program.arity_zero (program : Program) : program.arity 0 = 0 := rfl

/-- A numbered piece of code consists of the given instructions, which keep to the operand
stack.
-/
structure Program.Piece (program : Program) (id : Nat) (bytes : Array UInt8)
    (code : List Instruction)
    : Prop where
  bytes_eq : bytes = (encodeAll code).toArray
  balanced : Balanced (program.arity id) code
  known : ∀ instruction ∈ code, instruction.KnownIn program
  closed : id ≠ 0 → Sealed code
  main : id = 0 → heightBehind 0 code = 0

/-- Every piece of code of the program keeps to the operand stack. -/
def Program.Disciplined (program : Program) (code : Nat → List Instruction) : Prop :=
  ∀ (id : Nat) (bytes : Array UInt8),
    program.code? id = some bytes → program.Piece id bytes (code id)

/-- A frame stands at a place of its code: in front of the remaining instructions and at the
height to which those before them lead.
-/
structure Program.Stands (program : Program) (code : Nat → List Instruction) (id ip : Nat)
    (rest : List Instruction) (height : Nat)
    : Prop where
  found : ∃ bytes, program.code? id = some bytes
  place
    : ∃ front,
        code id = front ++ rest
        ∧ codeLength front = ip
        ∧ heightBehind (program.arity id) front = height
  closed : id ≠ 0 → Sealed rest

namespace Program.Stands

variable {program : Program} {code : Nat → List Instruction} {id ip height : Nat}
  {first : Instruction} {rest : List Instruction}

/-- A function starts with its arguments above the base. -/
theorem start (disciplined : program.Disciplined code) {function : Function}
    (found : program.function? id = some function)
    : program.Stands code id 0 (code id) function.arity.toNat := by
  have bytes : program.code? id = some function.code := by
    cases id with
    | zero => cases found
    | succ place => simp [code?, found]
  exact ⟨⟨_, bytes⟩, ⟨[], rfl, rfl, program.arity_of_function found⟩,
    (disciplined id _ bytes).closed⟩

/-- The main code starts with nothing above the base. -/
theorem main : program.Stands code 0 0 (code 0) 0 :=
  ⟨⟨_, rfl⟩, ⟨[], rfl, rfl, rfl⟩, fun other => absurd rfl other⟩

/-- At the end of the main code nothing is left above the base. -/
theorem main_end (stands : program.Stands code 0 ip [] height)
    (disciplined : program.Disciplined code)
    : height = 0 := by
  obtain ⟨bytes, found⟩ := stands.found
  obtain ⟨front, split, -, rfl⟩ := stands.place
  have level := (disciplined 0 bytes found).main rfl
  rwa [split, List.append_nil] at level

theorem codeFrom (stands : program.Stands code id ip rest height)
    (disciplined : program.Disciplined code)
    : program.CodeFrom id ip rest := by
  obtain ⟨bytes, found⟩ := stands.found
  obtain ⟨front, split, rfl, -⟩ := stands.place
  refine ⟨bytes, found, ?_⟩
  have placed := CodeFrom.start (code id)
  rw [(disciplined id bytes found).bytes_eq]
  rw [split] at placed ⊢
  simpa only [Nat.zero_add] using placed.skip

theorem balanced (stands : program.Stands code id ip rest height)
    (disciplined : program.Disciplined code)
    : Balanced height rest := by
  obtain ⟨bytes, found⟩ := stands.found
  obtain ⟨front, split, -, rfl⟩ := stands.place
  have whole := (disciplined id bytes found).balanced
  rw [split] at whole
  exact whole.behind

theorem known (stands : program.Stands code id ip (first :: rest) height)
    (disciplined : program.Disciplined code)
    : first.KnownIn program := by
  obtain ⟨bytes, found⟩ := stands.found
  obtain ⟨front, split, -⟩ := stands.place
  refine (disciplined id bytes found).known first ?_
  rw [split]
  exact List.mem_append_right front List.mem_cons_self

/-- Behind an instruction that control passes. -/
theorem next (stands : program.Stands code id ip (first :: rest) height)
    (passes : first.passes = true)
    : program.Stands code id (ip + first.length) rest (first.heightAfter height) := by
  obtain ⟨front, split, rfl, rfl⟩ := stands.place
  refine ⟨stands.found, ⟨front ++ [first], ?_, ?_, ?_⟩, fun other => ?_⟩
  · rw [split, List.append_assoc]
    rfl
  · rw [codeLength_append]
    rfl
  · rw [heightBehind_append]
    rfl
  · exact (stands.closed other).step (.next rest passes)

/-- Behind a jump that is taken. -/
theorem jump {when : Jump} {offset : UInt16}
    (stands : program.Stands code id ip (.jump when offset :: rest) height)
    (disciplined : program.Disciplined code)
    : ∃ target,
        program.Stands code id (ip + (Instruction.jump when offset).length + offset.toNat) target
          ((Instruction.jump when offset).heightAfter height) := by
  obtain ⟨-, lands, -⟩ := stands.balanced disciplined
  obtain ⟨skipped, target, rfl, length, level⟩ := lands when offset rfl
  obtain ⟨front, split, rfl, rfl⟩ := stands.place
  refine ⟨target, stands.found, ⟨front ++ .jump when offset :: skipped, ?_, ?_, ?_⟩, fun other => ?_⟩
  · rw [split, List.append_assoc]
    rfl
  · rw [codeLength_append, codeLength_cons, length, Nat.add_assoc]
  · rw [heightBehind_append, heightBehind_cons, level]
  · exact (stands.closed other).step (.jump when target length)

/-- The height at a place is determined by the place. -/
theorem height_unique {rest' : List Instruction} {height' : Nat}
    (stands : program.Stands code id ip rest height)
    (stands' : program.Stands code id ip rest' height')
    : height = height' := by
  obtain ⟨front, split, length, rfl⟩ := stands.place
  obtain ⟨front', split', length', rfl⟩ := stands'.place
  obtain ⟨rfl, -⟩ := split_unique (split.symm.trans split') (length.trans length'.symm)
  rfl

end Program.Stands

end StackScript
