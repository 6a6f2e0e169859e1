import StackScript.Proofs.Diagnostic.Carets
import StackScript.Proofs.Text.Runs

/-! Reports in colour. A terminal finds characters and control sequences for styles in a text.
Without the sequences a report in colour is the report without colour, and no style that is set
outlasts the fragment for which it was set.
-/

namespace StackScript

-----------------------------------------------------------------------------------------
-- Texts as terminals read them
-----------------------------------------------------------------------------------------

namespace Terminal

/-- The character with which control sequences start. -/
def escape : Char := '\x1b'

/-- What a terminal finds in a text: a character, or a control sequence that sets the style. -/
inductive Sign
  | char (c : Char)
  | style (parameters : List Char)
deriving DecidableEq

namespace Sign

/-- The text that stands for the sign. -/
def text : Sign → List Char
  | .char c => [c]
  | .style parameters => escape :: '[' :: parameters ++ ['m']

/-- The character that is shown. A style shows nothing. -/
def shown? : Sign → Option Char
  | .char c => some c
  | .style _ => none

/-- The style that ends all styles. -/
def reset : Sign := .style ['0']

end Sign

/-- The characters of which the parameters of a style are made. -/
def isParameter (c : Char) : Bool :=
  c.isDigit || c = ';'

/-- The parameters of the control sequence for a style, if one stands here without its first
character, and the text behind it.
-/
def sequence? : List Char → Option (List Char × List Char)
  | '[' :: rest =>
      match rest.dropWhile isParameter with
      | 'm' :: behind => some (rest.takeWhile isParameter, behind)
      | _ => none
  | _ => none

/-- A control sequence is its parameters between a bracket and a letter. -/
theorem sequence?_eq_some {text parameters behind : List Char}
    (found : sequence? text = some (parameters, behind))
    : text = '[' :: parameters ++ 'm' :: behind := by
  unfold sequence? at found
  split at found
  · rename_i rest
    split at found
    · rename_i ends
      obtain ⟨rfl, rfl⟩ := Prod.mk.inj (Option.some.inj found)
      rw [List.cons_append, ← ends, List.takeWhile_append_dropWhile]
    · cases found
  · cases found

/-- The first sign of a text and what stands behind it. An escape character that starts no
sequence for a style is a character like others.
-/
def sign (c : Char) (rest : List Char) : Sign × List Char :=
  match if c = escape then sequence? rest else none with
  | some (parameters, behind) => (.style parameters, behind)
  | none => (.char c, rest)

/-- A sign is the text that was in front of what stands behind it. -/
theorem text_sign (c : Char) (rest : List Char)
    : (sign c rest).1.text ++ (sign c rest).2 = c :: rest := by
  unfold sign
  split
  · rename_i parameters behind found
    split at found
    · rename_i same
      rw [sequence?_eq_some found, same]
      simp [Sign.text]
    · cases found
  · rfl

theorem length_sign_le (c : Char) (rest : List Char) : (sign c rest).2.length ≤ rest.length := by
  have whole := congrArg List.length (text_sign c rest)
  have some : 1 ≤ (sign c rest).1.text.length := by
    cases (sign c rest).1 <;> simp [Sign.text]
  rw [List.length_append, List.length_cons] at whole
  omega

/-- The signs of a text. -/
def read : List Char → List Sign
  | [] => []
  | c :: rest => (sign c rest).1 :: read (sign c rest).2
termination_by text => text.length
decreasing_by exact Nat.lt_succ_of_le (length_sign_le c rest)

/-- The text without its control sequences for styles. -/
def withoutStyles (text : String) : String :=
  String.ofList ((read text.toList).filterMap Sign.shown?)

/-- Each style that is set is reset before another is set and before the end, and nothing is reset
that was not set.
-/
inductive Closed : List Sign → Prop
  | nil : Closed []
  | char {rest : List Sign} (c : Char) (closed : Closed rest) : Closed (.char c :: rest)
  | styled {style : List Char} {rest : List Sign} (set : .style style ≠ Sign.reset)
    (text : List Char) (closed : Closed rest)
    : Closed (.style style :: text.map .char ++ Sign.reset :: rest)

-----------------------------------------------------------------------------------------
-- Reading
-----------------------------------------------------------------------------------------

theorem read_char {c : Char} (other : c ≠ escape) (rest : List Char)
    : read (c :: rest) = .char c :: read rest := by
  simp [read, sign, other]

/-- Nothing of a text is lost when it is read, by induction on the signs that are found. -/
theorem text_read (text : List Char) : (read text).flatMap Sign.text = text := by
  induction text using read.induct with
  | case1 => simp [read]
  | case2 c rest ih => rw [read, List.flatMap_cons, ih, text_sign]

/-- Characters in front of a text are read as they are if none starts a sequence. -/
theorem read_append {front : List Char} (noEscape : escape ∉ front) (rest : List Char)
    : read (front ++ rest) = front.map .char ++ read rest := by
  induction front with
  | nil => rfl
  | cons c front ih =>
      have other : c ≠ escape := fun same => noEscape (same ▸ List.mem_cons_self)
      rw [List.cons_append, read_char other, ih (fun found => noEscape (.tail c found))]
      rfl

/-- The control sequence for a style is read as this style. -/
theorem read_style {parameters : List Char} (inner : ∀ c ∈ parameters, isParameter c = true)
    (rest : List Char)
    : read ((Sign.style parameters).text ++ rest) = .style parameters :: read rest := by
  have leaves : Text.Leaves isParameter ('m' :: rest) := .cons (by decide)
  have found : sequence? ('[' :: (parameters ++ 'm' :: rest)) = some (parameters, rest) := by
    simp [sequence?, leaves.takeWhile_append inner, leaves.dropWhile_append inner]
  have whole : (Sign.style parameters).text ++ rest
      = escape :: '[' :: (parameters ++ 'm' :: rest) := by
    simp [Sign.text]
  rw [whole]
  simp [read, sign, found]

end Terminal

open Terminal

-----------------------------------------------------------------------------------------
-- Fragments
-----------------------------------------------------------------------------------------

/-- The parameters of a style can be told from the text around them, and are not those that reset
it.
-/
theorem Style.parameters_set {style : Style} {parameters : String}
    (some : style.parameters? = some parameters)
    : (∀ c ∈ parameters.toList, isParameter c = true)
      ∧ Sign.style parameters.toList ≠ Sign.reset := by
  cases style <;> cases some <;> exact ⟨List.all_eq_true.mp rfl, by decide⟩

namespace Fragment

/-- The fragment as a terminal reads it in colour. -/
def signs (fragment : Fragment) : List Sign :=
  match fragment.style.parameters? with
  | some parameters =>
      .style parameters.toList :: fragment.text.toList.map .char ++ [Sign.reset]
  | none => fragment.text.toList.map .char

/-- In front of any text a fragment without escape characters is read by itself. -/
theorem read_render {fragment : Fragment} (noEscape : escape ∉ fragment.text.toList)
    (rest : List Char)
    : read ((fragment.render true).toList ++ rest) = fragment.signs ++ read rest := by
  unfold render signs
  cases set : fragment.style.parameters? with
  | none => exact read_append noEscape rest
  | some parameters =>
      obtain ⟨inner, -⟩ := Style.parameters_set set
      have written : ("\x1b[" ++ parameters ++ "m" ++ fragment.text ++ "\x1b[0m").toList ++ rest
          = (Sign.style parameters.toList).text
            ++ (fragment.text.toList ++ (Sign.reset.text ++ rest)) := by
        simp [Sign.text, Sign.reset, escape]
      simp only [written, read_style inner, read_append noEscape]
      rw [Sign.reset, read_style (List.all_eq_true.mp rfl)]
      simp

theorem shown_signs (fragment : Fragment)
    : fragment.signs.filterMap Sign.shown? = (fragment.render false).toList := by
  have shown : ∀ text : List Char, (text.map Sign.char).filterMap Sign.shown? = text := by
    intro text
    rw [List.filterMap_map]
    exact List.filterMap_some
  rw [render_plain]
  unfold signs
  split
  · rw [List.cons_append, List.filterMap_cons_none rfl, List.filterMap_append, shown]
    exact List.append_nil _
  · exact shown _

theorem closed_signs (fragment : Fragment) {rest : List Sign} (closed : Closed rest)
    : Closed (fragment.signs ++ rest) := by
  unfold signs
  split
  · rename_i parameters some
    have styled := closed.styled (Style.parameters_set some).2 fragment.text.toList
    simpa using styled
  · induction fragment.text.toList with
    | nil => exact closed
    | cons c text ih => exact ih.char c

/-- Fragments without escape characters are read one by one, by induction on their list. -/
theorem read_join {fragments : List Fragment}
    (noEscape : ∀ fragment ∈ fragments, escape ∉ fragment.text.toList)
    : read (String.join (fragments.map (render true))).toList = fragments.flatMap signs := by
  induction fragments with
  | nil => simp [Terminal.read]
  | cons fragment fragments ih =>
      obtain ⟨first, others⟩ := List.forall_mem_cons.mp noEscape
      rw [List.map_cons, String.join_cons, String.toList_append, read_render first, ih others,
        List.flatMap_cons]

end Fragment

-----------------------------------------------------------------------------------------
-- Texts without escape characters
-----------------------------------------------------------------------------------------

/-- A line of a text has characters of the text only, by induction on the text. -/
theorem Source.subset_of_mem_splitLines {text line : List Char} (member : line ∈ splitLines text)
    : line ⊆ text := by
  induction text generalizing line with
  | nil =>
      rw [List.mem_singleton.mp member]
      exact List.nil_subset _
  | cons c rest ih =>
      by_cases newline : c = '\n'
      · subst newline
        rw [splitLines_newline] at member
        rcases List.mem_cons.mp member with rfl | later
        · exact List.nil_subset _
        · exact List.Subset.trans (ih later) (List.subset_cons_self _ _)
      · obtain ⟨first, lines, same⟩ := List.exists_cons_of_ne_nil (splitLines_ne_nil rest)
        rw [splitLines_other newline same] at member
        rw [same] at ih
        rcases List.mem_cons.mp member with rfl | later
        · exact List.cons_subset_cons c (ih List.mem_cons_self)
        · exact List.Subset.trans (ih (.tail first later)) (List.subset_cons_self _ _)

/-- The text has no escape character. -/
def NoEscape (text : String) : Prop :=
  escape ∉ text.toList

instance : DecidablePred NoEscape :=
  fun text => inferInstanceAs (Decidable (escape ∉ text.toList))

namespace NoEscape

@[simp] theorem append_iff {front back : String}
    : NoEscape (front ++ back) ↔ NoEscape front ∧ NoEscape back := by
  simp [NoEscape, not_or]

@[simp] theorem nat (number : Nat) : NoEscape number.repr := by
  intro found
  rw [← Nat.toString_eq_repr, Text.toList_toString_nat] at found
  exact absurd (Text.isDigit_of_mem_digits found) (by decide)

theorem repeated {c : Char} (other : c ≠ escape) (count : Nat)
    : NoEscape (Diagnostic.repeated c count) := by
  intro found
  rw [Diagnostic.repeated, String.toList_ofList] at found
  exact other (List.eq_of_mem_replicate found).symm

/-- The line that is shown of a source has characters of the source only. -/
theorem lineText {source : String} (noEscape : NoEscape source) (line : Nat)
    : NoEscape (Source.lineText source line) := by
  intro found
  unfold Source.lineText at found
  split at found
  · cases found
  · rw [String.toList_ofList, Source.trimReturns, List.mem_reverse] at found
    have inLine := List.mem_reverse.mp ((List.dropWhile_sublist _).mem found)
    cases entry : (Source.splitLines source.toList)[line - 1]? with
    | none =>
        rw [entry] at inLine
        cases inLine
    | some text =>
        rw [entry] at inLine
        exact noEscape (Source.subset_of_mem_splitLines (List.mem_of_getElem? entry) inLine)

end NoEscape

-----------------------------------------------------------------------------------------
-- Reports
-----------------------------------------------------------------------------------------

namespace Diagnostic

/-- The texts that a report is made from. -/
def texts (diagnostic : Diagnostic) : List String :=
  diagnostic.message :: diagnostic.code.toList ++ (diagnostic.label.map Label.message).toList
    ++ diagnostic.notes ++ diagnostic.suggestion.toList ++ diagnostic.source.toList

theorem noEscape_remark {word text : String} (known : NoEscape word) (noEscape : NoEscape text)
    : ∀ fragment ∈ remark word text, NoEscape fragment.text := by
  simp +decide [remark, plain, known, noEscape]

theorem noEscape_labelFragments {label : Label} {source : String}
    (said : NoEscape label.message) (noEscape : NoEscape source)
    : ∀ fragment ∈ labelFragments label source, NoEscape fragment.text := by
  have spaces := @NoEscape.repeated ' ' (by decide)
  have carets := @NoEscape.repeated '^' (by decide)
  have line := NoEscape.lineText noEscape
  simp +decide [labelFragments, plain, spaces, carets, line, said, or_imp, forall_and]

/-- What is written around the texts of a report has no escape character either. -/
theorem noEscape_fragments {diagnostic : Diagnostic}
    (noEscape : ∀ text ∈ diagnostic.texts, NoEscape text)
    : ∀ fragment ∈ diagnostic.fragments, NoEscape fragment.text := by
  rcases diagnostic with ⟨code, message, label, notes, suggestion, source⟩
  simp only [texts, List.cons_append, List.forall_mem_cons, List.forall_mem_append] at noEscape
  obtain ⟨said, ⟨⟨⟨known, labelled⟩, noted⟩, advised⟩, sourced⟩ := noEscape
  simp only [fragments, List.forall_mem_append]
  refine ⟨⟨⟨?_, ?_⟩, ?_⟩, ?_⟩
  · cases code with
    | none => simp +decide [plain, said]
    | some code =>
        have stable := known code List.mem_cons_self
        simp +decide [plain, said, stable]
  · cases label with
    | none =>
        intro fragment member
        cases member
    | some label =>
        cases source with
        | none =>
            intro fragment member
            cases member
        | some source =>
            exact noEscape_labelFragments (labelled label.message List.mem_cons_self)
              (sourced source List.mem_cons_self)
  · intro fragment member
    obtain ⟨note, inNotes, inRemark⟩ := List.mem_flatMap.mp member
    exact noEscape_remark (by decide) (noted note inNotes) fragment inRemark
  · cases suggestion with
    | none =>
        intro fragment member
        cases member
    | some suggestion =>
        exact noEscape_remark (by decide) (advised suggestion List.mem_cons_self)

/-- The report in colour of a diagnostic without escape characters. Without its control sequences
for styles it is the report without colour, and in it each style that is set is reset before
another is set and before the end.
-/
theorem render_colored {diagnostic : Diagnostic}
    (noEscape : ∀ text ∈ diagnostic.texts, NoEscape text)
    : withoutStyles (diagnostic.render true) = diagnostic.render false
      ∧ Closed (read (diagnostic.render true).toList) := by
  have found := Fragment.read_join (noEscape_fragments noEscape)
  unfold withoutStyles render
  rw [found]
  constructor
  · simp [Fragment.shown_signs, List.filterMap_flatMap, List.flatMap_map, ← String.toList_inj]
  · induction diagnostic.fragments with
    | nil => exact .nil
    | cons fragment fragments ih => exact fragment.closed_signs ih

/-- A report with all of its parts. -/
def trailingComma : Diagnostic where
  code := some "SPD-P006"
  message := "expected expression"
  label := some ⟨⟨8, 9⟩, "here"⟩
  notes := ["in a call"]
  suggestion := some "remove it"
  source := some "1;\n f(1,);"

theorem render_colored_trailingComma
    : (∀ text ∈ trailingComma.texts, NoEscape text)
      ∧ trailingComma.render true
        = "\x1b[1;31merror[SPD-P006]\x1b[0m: \x1b[1mexpected expression\x1b[0m\n"
          ++ "  \x1b[36m-->\x1b[0m 2:6\n"
          ++ "  \x1b[36m|\x1b[0m\n"
          ++ "\x1b[36m2\x1b[0m \x1b[36m|\x1b[0m  f(1,);\n"
          ++ "  \x1b[36m|\x1b[0m      \x1b[1;31m^\x1b[0m \x1b[1;31mhere\x1b[0m\n"
          ++ "  \x1b[36m|\x1b[0m\n"
          ++ "  \x1b[2m=\x1b[0m note: in a call\n"
          ++ "  \x1b[2m=\x1b[0m help: remove it\n"
      ∧ withoutStyles (trailingComma.render true)
        = "error[SPD-P006]: expected expression\n"
          ++ "  --> 2:6\n  |\n2 |  f(1,);\n  |      ^ here\n  |\n"
          ++ "  = note: in a call\n  = help: remove it\n"
      ∧ Closed (read (trailingComma.render true).toList) := by
  have noEscape : ∀ text ∈ trailingComma.texts, NoEscape text := by decide
  obtain ⟨same, closed⟩ := render_colored noEscape
  exact ⟨noEscape, by decide +kernel, same.trans (by decide), closed⟩

end Diagnostic

end StackScript
