import Mathlib.Data.Finset.Dedup
import Mathlib.Data.Finset.Card
import Mathlib.Data.Finset.SDiff
import StackScript.Proofs.Compile.References
import StackScript.Proofs.Evaluation.Outline

/-! Names in tables. A table holds each name once, in the order of the first mentions, so that
slots can be told from the tree alone. A name is looked up there if no live local has it.
-/

namespace StackScript

open Generate

-----------------------------------------------------------------------------------------
-- Entering each name once
-----------------------------------------------------------------------------------------

theorem enterNames_append (names front back : List String)
    : enterNames names (front ++ back) = enterNames (enterNames names front) back :=
  List.foldl_append

theorem enterNames_singleton (names : List String) (name : String)
    : enterNames names [name] = if name ∈ names then names else names ++ [name] :=
  rfl

theorem prefix_enterNames (names mentioned : List String)
    : names <+: enterNames names mentioned := by
  induction mentioned generalizing names with
  | nil => exact List.prefix_rfl
  | cons name rest ih =>
      refine List.IsPrefix.trans ?_ (ih (if name ∈ names then names else names ++ [name]))
      split
      · exact List.prefix_rfl
      · exact List.prefix_append _ _

theorem mem_enterNames {names mentioned : List String} {name : String}
    : name ∈ enterNames names mentioned ↔ name ∈ names ∨ name ∈ mentioned := by
  induction mentioned generalizing names with
  | nil => simp [enterNames]
  | cons first rest ih =>
      have next : enterNames names (first :: rest)
          = enterNames (if first ∈ names then names else names ++ [first]) rest :=
        rfl
      rw [next, ih]
      split
      · rename_i known
        constructor
        · rintro (old | new)
          · exact .inl old
          · exact .inr (List.mem_cons_of_mem _ new)
        · rintro (old | new)
          · exact .inl old
          · rcases List.mem_cons.mp new with rfl | new
            · exact .inl known
            · exact .inr new
      · simp [or_assoc]

theorem nodup_enterNames {names mentioned : List String} (distinct : names.Nodup)
    : (enterNames names mentioned).Nodup := by
  induction mentioned generalizing names with
  | nil => exact distinct
  | cons name rest ih =>
      have entered : (if name ∈ names then names else names ++ [name]).Nodup := by
        split
        · exact distinct
        · rename_i new
          refine List.nodup_append.mpr ⟨distinct, List.nodup_singleton name, ?_⟩
          rintro other member _ single rfl
          exact new (List.mem_singleton.mp single ▸ member)
      exact ih entered

/-- There are as many entered names as distinct ones. -/
theorem length_enterNames {names mentioned : List String} (distinct : names.Nodup)
    : (enterNames names mentioned).length = (names.toFinset ∪ mentioned.toFinset).card := by
  rw [← List.toFinset_card_of_nodup (nodup_enterNames distinct)]
  congr 1
  ext name
  simp [mem_enterNames]

-----------------------------------------------------------------------------------------
-- Names of locals
-----------------------------------------------------------------------------------------

/-- The names of the live locals, the latest first. -/
def Scope.names (scope : Scope) : List String :=
  scope.locals.map Local.name

theorem Scope.slotIn?_eq_none {name : String} {locals : List Local}
    : slotIn? name locals = none ↔ name ∉ locals.map Local.name := by
  induction locals with
  | nil => simp [slotIn?]
  | cons latest older ih =>
      unfold slotIn?
      by_cases same : latest.name = name
      · simp [same]
      · have differs : ¬ name = latest.name := fun h => same h.symm
        simp [same, differs, ih]

theorem Stmt.declares_names (statement : Stmt) {depth : Nat} (inside : depth ≠ 0)
    : (statement.declares depth).map Local.name = statement.localNames true := by
  cases statement with
  | define span name value => simp [declares, localNames, inside]
  | _ => rfl

theorem mentionOf_of_slot {name : String} {scope : Scope} {slot : UInt8}
    (found : scope.slot? name = some slot)
    : mentionOf scope.names name = [] := by
  have known : ¬ name ∉ scope.names := by
    intro unknown
    have missing : scope.slot? name = none := Scope.slotIn?_eq_none.mpr unknown
    rw [found] at missing
    cases missing
  exact if_pos (Decidable.of_not_not known)

theorem mentionOf_of_global {name : String} {scope : Scope} (missing : scope.slot? name = none)
    : mentionOf scope.names name = [name] :=
  if_neg (Scope.slotIn?_eq_none.mp missing)

end StackScript
