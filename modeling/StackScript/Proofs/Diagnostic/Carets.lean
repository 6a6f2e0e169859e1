import StackScript.Diagnostic.Terminal
import StackScript.Proofs.Source.Lines

/-! Reports without colour. Under the line in which a span starts, the carets stand below the
characters of the span up to the end of that line.
-/

namespace StackScript

open Source (firstLine firstLine_append_of_mem firstLine_eq_self firstLine_prefix lastLine
  lastLine_append lineText position)

-----------------------------------------------------------------------------------------
-- Texts of reports
-----------------------------------------------------------------------------------------

/-- Without colour a fragment is its text. -/
theorem Fragment.render_plain (fragment : Fragment) : fragment.render false = fragment.text := by
  unfold render
  split
  · rename_i colored
    cases colored
  · rfl

namespace Diagnostic

/-- The first line of a report. -/
def headline (diagnostic : Diagnostic) : String :=
  match diagnostic.code with
  | some code => "error[" ++ code ++ "]: " ++ diagnostic.message ++ "\n"
  | none => "error: " ++ diagnostic.message ++ "\n"

/-- The lines of a report below the source. -/
def remarks (diagnostic : Diagnostic) : String :=
  String.join (diagnostic.notes.map fun note => "  = note: " ++ note ++ "\n")
    ++ match diagnostic.suggestion with
      | some suggestion => "  = help: " ++ suggestion ++ "\n"
      | none => ""

/-- A line of a source with its number, and carets under some of its characters: below the first
`indent` of them there are spaces.
-/
def markedLine (number : Nat) (line : List Char) (indent carets : Nat) (message : String)
    : String :=
  let pad := repeated ' ' (toString number).length
  "  --> " ++ toString number ++ ":" ++ toString (indent + 1) ++ "\n"
    ++ pad ++ " |\n"
    ++ toString number ++ " | " ++ String.ofList line ++ "\n"
    ++ pad ++ " | " ++ repeated ' ' indent ++ repeated '^' carets
      ++ (if message = "" then "" else " " ++ message) ++ "\n"
    ++ pad ++ " |\n"

theorem join_remark (word text : String)
    : String.join ((remark word text).map (Fragment.render false))
      = "  = " ++ word ++ ": " ++ text ++ "\n" := by
  simp [remark, Fragment.render_plain, plain, ← String.toList_inj]

/-- The parts of a report: its first line, the source if there is one for the label, and the
remarks.
-/
theorem render_parts (diagnostic : Diagnostic)
    : diagnostic.render false
      = diagnostic.headline
        ++ (match diagnostic.label, diagnostic.source with
          | some label, some source =>
              String.join ((labelFragments label source).map (Fragment.render false))
          | _, _ => "")
        ++ diagnostic.remarks := by
  have notes : String.join ((diagnostic.notes.flatMap (remark "note")).map (Fragment.render false))
      = String.join (diagnostic.notes.map fun note => "  = note: " ++ note ++ "\n") := by
    induction diagnostic.notes with
    | nil => rfl
    | cons note notes ih =>
        rw [List.flatMap_cons, List.map_append, String.join_append, ih, join_remark]
        simp
  unfold render fragments headline remarks
  simp only [List.map_append, String.join_append, notes, String.append_assoc]
  congr 1
  · cases diagnostic.code <;> simp [Fragment.render_plain, plain, ← String.toList_inj]
  congr 1
  · cases diagnostic.label with
    | none => rfl
    | some label => cases diagnostic.source <;> rfl
  congr 1
  cases diagnostic.suggestion with
  | none => rfl
  | some suggestion => exact join_remark "help" suggestion

/-- The source of a label is shown by its line and the carets. -/
theorem join_labelFragments {label : Label} {source : String} {number indent : Nat}
    (start : position source label.span.start = ⟨number, indent + 1⟩)
    : String.join ((labelFragments label source).map (Fragment.render false))
      = markedLine number (lineText source number).toList indent
          (caretCount source label.span ⟨number, indent + 1⟩) label.message := by
  unfold labelFragments markedLine
  rw [start]
  split <;> simp [Fragment.render_plain, plain, ← String.toList_inj]

-----------------------------------------------------------------------------------------
-- Carets
-----------------------------------------------------------------------------------------

section

variable {source : String} {before inside behind : List Char} {span : Span}
  (parts : source.toList = before ++ (inside ++ behind)) (noReturn : '\r' ∉ source.toList)
  (start : min span.start source.utf8ByteSize = Token.bytes before)
  (stop : min span.stop source.utf8ByteSize = Token.bytes (before ++ inside))

include parts noReturn in
/-- A line of a source without carriage returns is shown whole. -/
theorem toList_lineText_whole
    : (lineText source (before.count '\n' + 1)).toList
      = lastLine before ++ firstLine (inside ++ behind) := by
  rw [Source.toList_lineText parts]
  refine Source.trimReturns_eq_self fun found => noReturn ?_
  rw [parts]
  rcases List.mem_append.mp found with left | right
  · exact List.mem_append_left _ ((List.rtakeWhile_suffix _ _).subset left)
  · exact List.mem_append_right _ ((List.takeWhile_prefix _).subset right)

include parts noReturn start stop in
/-- There are as many carets as the span has characters before the end of the line in which it
starts: all its characters if it ends in that line, and otherwise all up to that end.
-/
theorem caretCount_eq
    : caretCount source span (position source span.start) = max (firstLine inside).length 1 := by
  have whole := parts
  rw [← List.append_assoc] at whole
  have line := toList_lineText_whole parts noReturn
  unfold caretCount
  rw [Source.position_split whole stop, Source.position_split parts start]
  dsimp only
  by_cases newline : '\n' ∈ inside
  · have some := List.count_pos_iff.mpr newline
    have length := congrArg List.length line
    rw [firstLine_append_of_mem behind newline, List.length_append, String.length_toList] at length
    rw [List.count_append, if_neg (by omega), length, Nat.add_right_comm, Nat.add_sub_cancel_left]
  · rw [List.count_append, List.count_eq_zero.mpr newline, Nat.add_zero, if_pos rfl,
      lastLine_append before newline, List.length_append, firstLine_eq_self newline,
      Nat.add_right_comm, Nat.add_sub_cancel_left]

end

/-- The report of a label whose source has no carriage returns. Its span begins behind the
characters of the line that are left of it and has characters up to the end of that line or its
own; they are marked by as many carets, with a space for each character left of them, or by one
caret if there are none. So carets of which there are several stand below characters of the line.
-/
theorem render_marks_span {diagnostic : Diagnostic} {label : Label}
    {source before inside behind : String} (labelled : diagnostic.label = some label)
    (sourced : diagnostic.source = some source) (noReturn : '\r' ∉ source.toList)
    (parts : source = before ++ inside ++ behind)
    (start : min label.span.start source.utf8ByteSize = before.utf8ByteSize)
    (stop : min label.span.stop source.utf8ByteSize = (before ++ inside).utf8ByteSize)
    : let left := lastLine before.toList
      let marked := firstLine inside.toList
      let line := left ++ firstLine (inside ++ behind).toList
      let carets := max marked.length 1
      diagnostic.render false
          = diagnostic.headline
            ++ markedLine (1 + before.toList.count '\n') line left.length carets label.message
            ++ diagnostic.remarks
        ∧ left ++ marked <+: line
        ∧ (1 < carets → left.length + carets ≤ line.length) := by
  have characters : source.toList = before.toList ++ (inside.toList ++ behind.toList) := by
    rw [parts, String.toList_append, String.toList_append, List.append_assoc]
  rw [← Token.bytes_toList before] at start
  rw [← Token.bytes_toList (before ++ inside), String.toList_append] at stop
  have place := Source.position_split characters start
  have carets := caretCount_eq characters noReturn start stop
  have line := toList_lineText_whole characters noReturn
  have front : firstLine inside.toList <+: firstLine (inside ++ behind).toList := by
    rw [String.toList_append]
    exact firstLine_prefix _ _
  refine ⟨?_, List.prefix_append_right_inj .. |>.mpr front, fun several => ?_⟩
  · rw [place] at carets
    rw [render_parts, labelled, sourced]
    dsimp only
    rw [join_labelFragments place, carets, line, String.toList_append, Nat.add_comm 1]
  · have within := front.length_le
    rw [List.length_append]
    omega

/-- A report whose span begins behind a character of two bytes and ends behind the end of its line
and of the source.
-/
def behindAccent : Diagnostic where
  code := none
  message := "no"
  label := some ⟨⟨10, 99⟩, "here"⟩
  notes := ["first"]
  suggestion := none
  source := some "let a;\nlé = 2;\n"

theorem render_marks_span_behindAccent
    : '\r' ∉ "let a;\nlé = 2;\n".toList
      ∧ min 10 "let a;\nlé = 2;\n".utf8ByteSize = "let a;\nlé".utf8ByteSize
      ∧ min 99 "let a;\nlé = 2;\n".utf8ByteSize = ("let a;\nlé" ++ " = 2;\n").utf8ByteSize
      ∧ behindAccent.render false
        = "error: no\n  --> 2:3\n  |\n2 | lé = 2;\n  |   ^^^^^ here\n  |\n  = note: first\n" := by
  have noReturn : '\r' ∉ "let a;\nlé = 2;\n".toList := by decide
  have parts : "let a;\nlé = 2;\n" = "let a;\nlé" ++ " = 2;\n" ++ "" := by decide
  have start : min 10 "let a;\nlé = 2;\n".utf8ByteSize = "let a;\nlé".utf8ByteSize := by decide
  have stop : min 99 "let a;\nlé = 2;\n".utf8ByteSize
      = ("let a;\nlé" ++ " = 2;\n").utf8ByteSize := by
    decide
  have labelled : behindAccent.label = some ⟨⟨10, 99⟩, "here"⟩ := rfl
  obtain ⟨shown, -⟩ := render_marks_span labelled rfl noReturn parts start stop
  exact ⟨noReturn, start, stop, shown.trans (by decide)⟩

end Diagnostic

end StackScript
