import StackScript.Proofs.Bytecode.Placement

/-! The height of the operand stack above the base of a frame, as far as it can be told from
the code alone. Every instruction changes the height by a fixed amount, also the jumps and
the return, so that a height for every place follows from the height at the start. Code is
balanced if every instruction finds the values that it takes and every jump arrives at the
height at which the code before its target leaves.
-/

namespace StackScript

-----------------------------------------------------------------------------------------
-- Heights behind instructions
-----------------------------------------------------------------------------------------

namespace Instruction

/-- The least height above the base at which the instruction can be carried out. -/
def demand : Instruction → Nat
  | .push _ => 0
  | .pop => 1
  | .jump .always _ => 0
  | .jump _ _ => 1
  | .access .getLocal slot => slot.toNat + 1
  | .access .setLocal slot => slot.toNat + 1
  | .access .getGlobal _ => 0
  | .access .setGlobal _ => 1
  | .call argCount => argCount.toNat + 1
  | .ret => 1
  | .operate _ => 2

/-- The height behind the instruction. What stands behind a return is reached by jumps alone,
which start at the height before the returned value was pushed.
-/
def heightAfter (height : Nat) : Instruction → Nat
  | .push _ => height + 1
  | .pop => height - 1
  | .jump .popFalsy _ => height - 1
  | .jump _ _ => height
  | .access .getLocal _ => height + 1
  | .access .setLocal _ => height
  | .access .getGlobal _ => height + 1
  | .access .setGlobal _ => height
  | .call argCount => height - argCount.toNat
  | .ret => height - 1
  | .operate _ => height - 1

end Instruction

/-- The height behind some code. -/
def heightBehind (height : Nat) (code : List Instruction) : Nat :=
  code.foldl Instruction.heightAfter height

@[simp] theorem heightBehind_nil (height : Nat) : heightBehind height [] = height := rfl

@[simp] theorem heightBehind_cons (height : Nat) (first : Instruction)
    (rest : List Instruction)
    : heightBehind height (first :: rest) = heightBehind (first.heightAfter height) rest :=
  rfl

@[simp] theorem heightBehind_append (height : Nat) (front back : List Instruction)
    : heightBehind height (front ++ back) = heightBehind (heightBehind height front) back :=
  List.foldl_append

-----------------------------------------------------------------------------------------
-- Balanced code
-----------------------------------------------------------------------------------------

/-- A jump over some bytes arrives between two instructions of the code behind it, at the
height at which it started.
-/
def Lands (distance height : Nat) (code : List Instruction) : Prop :=
  ∃ skipped rest,
    code = skipped ++ rest
    ∧ codeLength skipped = distance
    ∧ heightBehind height skipped = height

/-- From the given height on every instruction finds the values that it takes, and every jump
lands in the code at its own height.
-/
def Balanced : Nat → List Instruction → Prop
  | _, [] => True
  | height, first :: rest =>
      first.demand ≤ height
      ∧ (∀ when offset, first = .jump when offset
          → Lands offset.toNat (first.heightAfter height) rest)
      ∧ Balanced (first.heightAfter height) rest

theorem Lands.append {distance height : Nat} {code : List Instruction}
    (lands : Lands distance height code) (more : List Instruction)
    : Lands distance height (code ++ more) := by
  obtain ⟨skipped, rest, rfl, length, level⟩ := lands
  exact ⟨skipped, rest ++ more, List.append_assoc _ _ _, length, level⟩

/-- Balanced code stays so in front of more code that is balanced from its own height on, by
induction over the code in front.
-/
theorem Balanced.append {height : Nat} {front back : List Instruction}
    (first : Balanced height front) (second : Balanced (heightBehind height front) back)
    : Balanced height (front ++ back) := by
  induction front generalizing height with
  | nil => exact second
  | cons instruction rest ih =>
      obtain ⟨demand, lands, balanced⟩ := first
      refine ⟨demand, ?_, ih balanced second⟩
      intro when offset same
      exact (lands when offset same).append back

/-- The code behind any place of balanced code is balanced from its own height on. -/
theorem Balanced.behind {height : Nat} {front back : List Instruction}
    (balanced : Balanced height (front ++ back))
    : Balanced (heightBehind height front) back := by
  induction front generalizing height with
  | nil => exact balanced
  | cons instruction rest ih => exact ih balanced.2.2

-----------------------------------------------------------------------------------------
-- Code that leads from one height to another
-----------------------------------------------------------------------------------------

/-- Balanced code that starts at one height and ends at another. -/
structure Levels (before : Nat) (code : List Instruction) (after : Nat) : Prop where
  balanced : Balanced before code
  behind : heightBehind before code = after

namespace Levels

variable {before middle after : Nat} {front back code : List Instruction}

theorem nil (height : Nat) : Levels height [] height := ⟨trivial, rfl⟩

theorem append (first : Levels before front middle) (second : Levels middle back after)
    : Levels before (front ++ back) after := by
  obtain ⟨balanced, rfl⟩ := first
  refine ⟨balanced.append second.balanced, ?_⟩
  rw [heightBehind_append, second.behind]

/-- An instruction that is no jump leads to the height behind it. -/
theorem single {instruction : Instruction} (demand : instruction.demand ≤ before)
    (noJump : ∀ when offset, instruction ≠ .jump when offset)
    : Levels before [instruction] (instruction.heightAfter before) :=
  ⟨⟨demand, fun when offset same => absurd same (noJump when offset), trivial⟩, rfl⟩

/-- A jump over some of the code behind it, which ends at the height of the jump. -/
theorem jump {when : Jump} {offset : UInt16} {height : Nat}
    (demand : (Instruction.jump when offset).demand ≤ before)
    (level : (Instruction.jump when offset).heightAfter before = height)
    (length : codeLength front = offset.toNat) (kept : heightBehind height front = height)
    (code : Levels height (front ++ back) after)
    : Levels before (.jump when offset :: (front ++ back)) after := by
  obtain ⟨balanced, behind⟩ := code
  subst level
  refine ⟨⟨demand, ?_, balanced⟩, behind⟩
  rintro when' offset' same
  rw [Instruction.jump.injEq] at same
  obtain ⟨rfl, rfl⟩ := same
  exact ⟨front, back, rfl, length, kept⟩

/-- Taking values off the stack one by one. -/
theorem pops (height count : Nat)
    : Levels (height + count) (List.replicate count .pop) height := by
  induction count with
  | zero => exact nil height
  | succ count ih =>
      have pop : Levels (height + (count + 1)) [.pop] (height + count) :=
        single (by simp only [Instruction.demand]; omega) (fun _ _ same => nomatch same)
      exact pop.append ih

end Levels

end StackScript
