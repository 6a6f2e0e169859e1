import StackScript.Diagnostic.Json
import StackScript.Proofs.Json.WholeNumbers

/-! A diagnostic as JSON is one line from which everything the diagnostic says is read back. A
field is there exactly if the diagnostic has what it stands for, and no field is there twice.
-/

namespace StackScript

-----------------------------------------------------------------------------------------
-- Fields that may be left out
-----------------------------------------------------------------------------------------

namespace Json

@[simp]
theorem field?_nil (name : String) : field? name [] = none := rfl

@[simp]
theorem field?_cons (name : String) (field : String × Json) (fields : List (String × Json))
    : field? name (field :: fields)
      = if field.1 = name then some field.2 else field? name fields := by
  rw [field?, List.find?_cons]
  by_cases same : field.1 = name <;> simp [same, field?]

@[simp]
theorem field?_append (name : String) (fields more : List (String × Json))
    : field? name (fields ++ more) = (field? name fields).or (field? name more) := by
  rw [field?, List.find?_append, Option.map_or]
  rfl

variable {α : Type} (name : String) (encode : α → Json) (value : Option α)

@[simp]
theorem field?_optionalField (other : String)
    : field? name (optionalField other encode value)
      = if other = name then value.map encode else none := by
  cases value with
  | none => rw [optionalField, field?_nil, Option.map_none, ite_self]
  | some content => rw [optionalField, field?_cons, field?_nil, Option.map_some]

theorem names_optionalField
    : ((optionalField name encode value).map Prod.fst).Sublist [name] := by
  cases value with
  | none => exact List.nil_sublist _
  | some content => exact List.Sublist.refl _

theorem whole_optionalField (each : ∀ content, (encode content).Whole)
    : ∀ field ∈ optionalField name encode value, field.2.Whole := by
  cases value with
  | none => exact List.forall_mem_nil _
  | some content => exact List.forall_mem_singleton.mpr (each content)

end Json

-----------------------------------------------------------------------------------------
-- Labels
-----------------------------------------------------------------------------------------

namespace Label

/-- The fields say what the label says, and where its span starts if there is a source. -/
structure ToldBy (label : Label) (source : Option String) (fields : List (String × Json))
    : Prop where
  names : (fields.map Prod.fst).Sublist ["col", "end", "line", "message", "start"]
  start : Json.field? "start" fields = some (.nat label.span.start)
  stop : Json.field? "end" fields = some (.nat label.span.stop)
  message : Json.field? "message" fields = some (.string label.message)
  line : Json.field? "line" fields
    = source.map fun text => .nat (Source.position text label.span.start).line
  column : Json.field? "col" fields
    = source.map fun text => .nat (Source.position text label.span.start).column

theorem toldBy_toJson (label : Label) (source : Option String)
    : ∃ fields, label.toJson source = .object fields ∧ label.ToldBy source fields := by
  refine ⟨_, rfl, ?_⟩
  constructor
  case names =>
    rw [List.map_append, List.map_append, List.map_append]
    exact (((Json.names_optionalField ..).append (.refl ["end"])).append
      (Json.names_optionalField ..)).append (.refl ["message", "start"])
  all_goals simp [Function.comp_def]

theorem whole_toJson (label : Label) (source : Option String) : (label.toJson source).Whole := by
  refine .object ?_
  rw [List.forall_mem_append, List.forall_mem_append, List.forall_mem_append]
  refine ⟨⟨⟨?_, ?_⟩, ?_⟩, ?_⟩
  · exact Json.whole_optionalField _ _ _ fun _ => .int _
  · exact List.forall_mem_singleton.mpr (.int _)
  · exact Json.whole_optionalField _ _ _ fun _ => .int _
  · exact List.forall_mem_cons.mpr ⟨.string _, List.forall_mem_singleton.mpr (.int _)⟩

end Label

-----------------------------------------------------------------------------------------
-- Diagnostics
-----------------------------------------------------------------------------------------

namespace Diagnostic

/-- The fields say what the diagnostic says. -/
structure ToldBy (diagnostic : Diagnostic) (fields : List (String × Json)) : Prop where
  names : (fields.map Prod.fst).Sublist
    ["code", "label", "message", "notes", "severity", "suggestion"]
  severity : Json.field? "severity" fields = some (.string "error")
  message : Json.field? "message" fields = some (.string diagnostic.message)
  notes : Json.field? "notes" fields = some (.array (diagnostic.notes.map .string))
  code : Json.field? "code" fields = diagnostic.code.map .string
  suggestion : Json.field? "suggestion" fields = diagnostic.suggestion.map .string
  unlabelled : diagnostic.label = none → Json.field? "label" fields = none
  labelled : ∀ label, diagnostic.label = some label →
    ∃ parts, Json.field? "label" fields = some (.object parts)
      ∧ label.ToldBy diagnostic.source parts

theorem toldBy_toJson (diagnostic : Diagnostic)
    : ∃ fields, diagnostic.toJson = .object fields ∧ diagnostic.ToldBy fields := by
  refine ⟨_, rfl, ?_⟩
  constructor
  case names =>
    rw [List.map_append, List.map_append, List.map_append]
    exact (((Json.names_optionalField ..).append (Json.names_optionalField ..)).append
      (.refl ["message", "notes", "severity"])).append (Json.names_optionalField ..)
  case labelled =>
    intro label labelled
    obtain ⟨parts, form, told⟩ := label.toldBy_toJson diagnostic.source
    exact ⟨parts, by simp [labelled, form], told⟩
  case unlabelled =>
    intro unlabelled
    simp [unlabelled]
  all_goals simp

theorem whole_toJson (diagnostic : Diagnostic) : diagnostic.toJson.Whole := by
  refine .object ?_
  rw [List.forall_mem_append, List.forall_mem_append, List.forall_mem_append]
  refine ⟨⟨⟨?_, ?_⟩, ?_⟩, ?_⟩
  · exact Json.whole_optionalField _ _ _ .string
  · exact Json.whole_optionalField _ _ _ fun label => label.whole_toJson diagnostic.source
  · have notes : ∀ note ∈ diagnostic.notes.map Json.string, note.Whole :=
      List.forall_mem_map.mpr fun note _ => .string note
    exact List.forall_mem_cons.mpr ⟨.string _,
      List.forall_mem_cons.mpr ⟨.array notes, List.forall_mem_singleton.mpr (.string _)⟩⟩
  · exact Json.whole_optionalField _ _ _ .string

/-- The JSON form of a diagnostic is one line without control characters, and what is read back
from it is an object that says what the diagnostic says.
-/
theorem jsonLine_lossless (diagnostic : Diagnostic)
    : (∀ c ∈ diagnostic.jsonLine.toList, 32 ≤ c.toNat)
      ∧ ∃ fields,
          Json.readLine diagnostic.jsonLine = some (.object fields)
          ∧ diagnostic.ToldBy fields := by
  refine ⟨diagnostic.toJson.printable_compact, ?_⟩
  obtain ⟨fields, form, told⟩ := diagnostic.toldBy_toJson
  refine ⟨fields, ?_, told⟩
  rw [← form]
  exact diagnostic.whole_toJson.readLine_compact

end Diagnostic

end StackScript
