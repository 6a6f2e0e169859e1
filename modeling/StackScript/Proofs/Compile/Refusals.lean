import StackScript.Proofs.Compile.Assembly

/-! Why scripts do not compile. An entry for which a table has no room is one too many for the
script as a whole; the other errors show at single nodes. So every error names a limit that the
script breaks.
-/

namespace StackScript

/-- A table without room behind all of a script is a limit that the script breaks. -/
theorem Script.breaks_of_exceeds {script : Script} {error : CompileError}
    (exceeds : (inventoryOfMain script.statements).Exceeds .initial error)
    : script.Breaks error := by
  cases error with
  | tooManyGlobals name =>
      obtain ⟨mentioned, many⟩ := exceeds
      refine ⟨mentioned, ?_⟩
      have distinct : reservedGlobals.Nodup := by decide
      have reserved : reservedGlobals.toFinset.card = 2 := List.toFinset_card_of_nodup distinct
      have total : (reservedGlobals.toFinset ∪ script.mentions.toFinset).card
          = 2 + (script.mentions.toFinset \ reservedGlobals.toFinset).card := by
        rw [← reserved, ← Finset.union_sdiff_self_eq_union,
          Finset.card_union_of_disjoint Finset.disjoint_sdiff]
      have entered : (enterNames reservedGlobals script.mentions).length = _ :=
        length_enterNames distinct
      change 255 < (enterNames reservedGlobals script.mentions).length at many
      omega
  | tooManyFunctions =>
      change 255 < 0 + script.literals.length at exceeds
      change 255 < script.literals.length
      omega
  | tooManyStrings =>
      change 65536 < (enterNames [] script.texts).length at exceeds
      change 65536 < script.texts.toFinset.card
      rwa [length_enterNames List.nodup_nil, List.toFinset_nil, Finset.empty_union] at exceeds
  | _ => exact exceeds.elim

/-- A node that breaks a limit is one of the script that does. -/
theorem Script.breaks_of_node {script : Script} {error : CompileError} {node : Node}
    (member : node ∈ script.nodes) (breaks : node.Breaks error)
    : script.Breaks error := by
  cases error with
  | scopeUnderflow | tooManyGlobals | tooManyFunctions | tooManyStrings => nomatch breaks
  | _ => exact ⟨node, member, breaks⟩

/-- If a script does not compile, then the part of it that has code breaks the limit that the
error names.
-/
theorem Script.compile_error_breaks {script : Script} {error : CompileError}
    (failed : script.compile = .error error)
    : script.Breaks error := by
  have explained :=
    generateMain_explained script.statements .initial (List.Subset.refl script.nodes)
  rw [Script.compile_eq] at failed
  cases result : generateMain script.statements .initial with
  | ok main =>
      rw [result] at failed
      cases failed
  | error cause =>
      rw [result] at failed explained
      obtain rfl : cause = error := Except.error.inj failed
      rcases explained with exceeds | ⟨node, member, breaks⟩
      · exact Script.breaks_of_exceeds exceeds
      · exact Script.breaks_of_node member breaks

/-- A block with one local too many: 257 times `let x;` between braces. -/
def Script.crowded : Script where
  statements := [.block Span.unknown (List.replicate 257 (.define Span.unknown "x" none))]

theorem Script.compile_error_breaks_crowded
    : Script.crowded.compile = .error (.tooManyLocals "x")
      ∧ Script.crowded.Breaks (.tooManyLocals "x") := by
  have failed : Script.crowded.compile = .error (.tooManyLocals "x") := by decide +kernel
  exact ⟨failed, Script.compile_error_breaks failed⟩

end StackScript
