import Mathlib.Logic.Relation
import StackScript.Proofs.Bytecode.Heights

/-! Where control can go in code. A place is given by the instructions from there to the end,
and the end of the code is the empty list. All jumps go forward, to a place behind them.
-/

namespace StackScript

/-- Control may go on behind the instruction. -/
def Instruction.passes : Instruction → Bool
  | .ret => false
  | .jump .always _ => false
  | _ => true

/-- Control can go from one place of code to another in one step. -/
inductive Flows : List Instruction → List Instruction → Prop
  | next {first : Instruction} (rest : List Instruction) (passes : first.passes = true)
    : Flows (first :: rest) rest
  | jump (when : Jump) {offset : UInt16} {skipped : List Instruction}
    (rest : List Instruction) (length : codeLength skipped = offset.toNat)
    : Flows (.jump when offset :: (skipped ++ rest)) rest

/-- Control can go from one place of code to another. -/
abbrev Path : List Instruction → List Instruction → Prop :=
  Relation.ReflTransGen Flows

/-- Control never gets from the start of the code to its end. -/
def Sealed (code : List Instruction) : Prop :=
  ¬ Path code []

namespace Sealed

theorem step {place next : List Instruction} (closed : Sealed place)
    (flows : Flows place next)
    : Sealed next :=
  fun path => closed (.head flows path)

theorem not_nil {code : List Instruction} (closed : Sealed code) : code ≠ [] := by
  rintro rfl
  exact closed .refl

/-- Nothing is reached behind a return. -/
theorem ret (rest : List Instruction) : Sealed (.ret :: rest) := by
  intro path
  rcases Relation.ReflTransGen.cases_head path with same | ⟨next, flows, -⟩
  · cases same
  · cases flows with
    | next _ passes => exact Bool.false_ne_true passes

/-- An instruction that is no jump leads on to the code behind it alone. -/
theorem cons {first : Instruction} {rest : List Instruction}
    (noJump : ∀ when offset, first ≠ .jump when offset) (closed : Sealed rest)
    : Sealed (first :: rest) := by
  intro path
  rcases Relation.ReflTransGen.cases_head path with same | ⟨next, flows, path⟩
  · cases same
  · cases flows with
    | next => exact closed path
    | jump when => exact noJump _ _ rfl

/-- A jump leads on to the code behind it and to its target, whichever way it goes. -/
theorem jump {when : Jump} {offset : UInt16} {skipped rest : List Instruction}
    (length : codeLength skipped = offset.toNat) (near : Sealed (skipped ++ rest))
    (far : Sealed rest)
    : Sealed (.jump when offset :: (skipped ++ rest)) := by
  intro path
  rcases Relation.ReflTransGen.cases_head path with same | ⟨next, flows, path⟩
  · cases same
  · generalize whole : skipped ++ rest = behind at flows
    cases flows with
    | next =>
        subst whole
        exact near path
    | jump _ next length' =>
        obtain ⟨-, rfl⟩ := split_unique whole (length.trans length'.symm)
        exact far path

/-- Balanced code is left at its end alone, so that it seals what it stands in front of if
that is sealed. The induction is on the bytes of the code, for a jump skips some of it.
-/
theorem behind {front rest : List Instruction} {height : Nat} (closed : Sealed rest)
    (balanced : Balanced height front)
    : Sealed (front ++ rest) := by
  cases front with
  | nil => exact closed
  | cons first more =>
      have shorter := first.length_pos
      have near := behind closed balanced.2.2
      cases first with
      | jump when offset =>
          obtain ⟨skipped, target, rfl, length, level⟩ := balanced.2.1 when offset rfl
          have far : Sealed (target ++ rest) := behind closed balanced.2.2.behind
          rw [List.append_assoc] at near
          rw [List.cons_append, List.append_assoc]
          exact jump length near far
      | _ => exact cons (fun _ _ same => nomatch same) near
termination_by codeLength front
decreasing_by
  all_goals
    subst_vars
    simp only [codeLength_cons, codeLength_append]
    omega

end Sealed

-----------------------------------------------------------------------------------------
-- Jumps that stay inside of code
-----------------------------------------------------------------------------------------

/-- No jump goes to the end of the code or beyond it. -/
def JumpsInside : List Instruction → Prop
  | [] => True
  | first :: rest =>
      (∀ when offset, first = .jump when offset → offset.toNat < codeLength rest)
      ∧ JumpsInside rest

namespace JumpsInside

variable {front back : List Instruction}

theorem append (first : JumpsInside front) (second : JumpsInside back)
    : JumpsInside (front ++ back) := by
  induction front with
  | nil => exact second
  | cons instruction rest ih =>
      rw [List.cons_append]
      refine ⟨fun when offset same => ?_, ih first.2⟩
      rw [codeLength_append]
      exact Nat.lt_of_lt_of_le (first.1 when offset same) (Nat.le_add_right _ _)

/-- Jumps of balanced code may go to its end, which is inside if some code stands behind it. -/
theorem behind {height : Nat} (inside : JumpsInside back) (some : back ≠ [])
    (balanced : Balanced height front)
    : JumpsInside (front ++ back) := by
  induction front generalizing height with
  | nil => exact inside
  | cons instruction rest ih =>
      obtain ⟨-, lands, balanced⟩ := balanced
      rw [List.cons_append]
      refine ⟨fun when offset same => ?_, ih balanced⟩
      obtain ⟨skipped, target, rfl, length, -⟩ := lands when offset same
      have positive : 0 < codeLength back :=
        Nat.pos_of_ne_zero fun zero => some (eq_nil_of_codeLength_eq_zero zero)
      simp only [codeLength_append]
      omega

/-- The target of a jump has instructions from there to the end of the code. -/
theorem of_append {when : Jump} {offset : UInt16} {skipped target : List Instruction}
    (inside : JumpsInside (front ++ .jump when offset :: (skipped ++ target)))
    (length : codeLength skipped = offset.toNat)
    : target ≠ [] := by
  induction front with
  | nil =>
      rintro rfl
      have short := inside.1 when offset rfl
      rw [List.append_nil, length] at short
      exact Nat.lt_irrefl _ short
  | cons instruction rest ih => exact ih inside.2

theorem pops (count : Nat) : JumpsInside (List.replicate count .pop) := by
  induction count with
  | zero => trivial
  | succ count ih => exact ⟨nofun, ih⟩

end JumpsInside

-----------------------------------------------------------------------------------------
-- Code that returns
-----------------------------------------------------------------------------------------

/-- Code that returns whichever way it is run: it ends with a return, or it forks into two
sides that return. What stands behind that is never reached.
-/
inductive Returning : List Instruction → Prop
  | ret : Returning [.ret]
  | behind {front back : List Instruction} {height : Nat} (balanced : Balanced height front)
    (returns : Returning back)
    : Returning (front ++ back)
  | fork {when : Jump} {offset : UInt16} {near far : List Instruction}
    (length : codeLength near = offset.toNat) (nearReturns : Returning near)
    (farReturns : Returning far)
    : Returning (.jump when offset :: (near ++ far))
  | pops {code : List Instruction} (returns : Returning code) (count : Nat)
    : Returning (code ++ List.replicate count .pop)

namespace Returning

variable {code : List Instruction}

/-- Nothing behind code that returns is reached, by induction on the ways through it. -/
theorem seals (returns : Returning code) (rest : List Instruction) : Sealed (code ++ rest) := by
  induction returns generalizing rest with
  | ret => exact .ret rest
  | behind balanced _ ih =>
      rw [List.append_assoc]
      exact .behind (ih rest) balanced
  | @fork _ _ near far length _ _ nearSeals farSeals =>
      rw [List.cons_append, List.append_assoc]
      exact .jump length (nearSeals (far ++ rest)) (farSeals rest)
  | pops _ count ih =>
      rw [List.append_assoc]
      exact ih _

theorem closed (returns : Returning code) : Sealed code := by
  have closed := returns.seals []
  rwa [List.append_nil] at closed

theorem ne_nil (returns : Returning code) : code ≠ [] :=
  returns.closed.not_nil

/-- No jump of code that returns goes to its end, not even where nothing reaches it. -/
theorem inside (returns : Returning code) : JumpsInside code := by
  induction returns with
  | ret => exact ⟨nofun, trivial⟩
  | behind balanced returns ih => exact ih.behind returns.ne_nil balanced
  | @fork _ _ _ far length _ farReturns nearInside farInside =>
      refine ⟨?_, nearInside.append farInside⟩
      rintro _ _ ⟨⟩
      have positive : 0 < codeLength far :=
        Nat.pos_of_ne_zero fun zero => farReturns.ne_nil (eq_nil_of_codeLength_eq_zero zero)
      rw [codeLength_append]
      omega
  | pops _ count ih => exact ih.append (.pops count)

end Returning

-----------------------------------------------------------------------------------------
-- Code that can be passed
-----------------------------------------------------------------------------------------

/-- Control can get through the code to what stands behind it. -/
def Passable (code : List Instruction) : Prop :=
  ∀ rest, Path (code ++ rest) rest

namespace Passable

variable {first : Instruction} {front back : List Instruction}

theorem nil : Passable [] :=
  fun _ => .refl

theorem append (near : Passable front) (far : Passable back) : Passable (front ++ back) := by
  intro rest
  rw [List.append_assoc]
  exact (near (back ++ rest)).trans (far rest)

theorem cons (passes : first.passes = true) (behind : Passable back)
    : Passable (first :: back) :=
  fun rest => .head (.next _ passes) (behind rest)

theorem single (passes : first.passes = true) : Passable [first] :=
  cons passes nil

/-- A jump leads over the code in front of its target. -/
theorem across {when : Jump} {offset : UInt16} (length : codeLength front = offset.toNat)
    (behind : Passable back)
    : Passable (.jump when offset :: (front ++ back)) := by
  intro rest
  rw [List.cons_append, List.append_assoc]
  exact .head (.jump when _ length) (behind rest)

theorem pops (count : Nat) : Passable (List.replicate count .pop) := by
  induction count with
  | zero => exact nil
  | succ count ih => exact cons rfl ih

end Passable

end StackScript
