import StackScript.Script
import StackScript.Proofs.Parse.ErrorOrder
import StackScript.Proofs.Source.Positions

/-! What is wrong with a source text is reported in the order of the text. The reports are those
of the bad spots or, in a text that reads into tokens, those of the syntax errors. Both have
their places in order and between characters, and so have the positions in the reports.
-/

namespace StackScript

open Source (Boundary Position position position_inside position_notAfter)

-----------------------------------------------------------------------------------------
-- Tokens and bad spots in a source
-----------------------------------------------------------------------------------------

namespace Token

/-- Reading a source tiles it with tokens or finds spots in it at which nothing starts. -/
theorem lex_reads (source : String)
    : match lex source with
      | .ok lexemes => Tiles 0 source.toList lexemes
      | .error errors => errors ≠ [] ∧ Spots 0 source.toList errors := by
  obtain ⟨⟨lexemes, errors, same, spots, tiles⟩, -⟩ :=
    read_reads 0 ⟨[], []⟩ source.toList (by decide)
  unfold lex
  rw [same]
  simp only [List.append_nil, List.reverse_reverse, List.isEmpty_reverse]
  by_cases none : errors = []
  · subst none
    exact tiles rfl
  · rw [if_neg (by simpa using none)]
    exact ⟨none, spots⟩

/-- A text in a source begins and ends between characters. -/
theorem StandsAt.boundaries {source text behind : String} {offset : Nat}
    (stands : StandsAt source offset text behind)
    : Boundary source offset ∧ Boundary source (offset + text.utf8ByteSize) := by
  obtain ⟨before, rfl, rfl⟩ := stands
  constructor
  · refine ⟨before.toList, text.toList ++ behind.toList, ?_, (bytes_toList before).symm⟩
    rw [String.toList_append, String.toList_append, List.append_assoc]
  · refine ⟨(before ++ text).toList, behind.toList, String.toList_append .., ?_⟩
    rw [bytes_toList, String.utf8ByteSize_append]

theorem Matched.boundaries {source : String} {lexeme : Lexeme} (matched : Matched source lexeme)
    : Boundary source lexeme.span.start ∧ Boundary source lexeme.span.stop := by
  obtain ⟨behind, stands, -⟩ := matched.spelled
  rw [matched.size]
  exact stands.boundaries

variable {source : String} {lexemes : List Lexeme} {errors : List LexError}

/-- The tokens of a source stand in it. -/
theorem Tiles.matched_source (tiles : Tiles 0 source.toList lexemes)
    : ∀ lexeme ∈ lexemes, Matched source lexeme := by
  have matched := tiles.matched [] rfl
  rwa [List.nil_append, String.ofList_toList] at matched

/-- The tokens of a source come one behind the other. -/
theorem Tiles.rows (tiles : Tiles 0 source.toList lexemes)
    : Span.Rows (lexemes.map Lexeme.span) where
  forward := by
    rw [List.forall_mem_map]
    exact fun lexeme member => Nat.le_of_lt (tiles.matched_source lexeme member).some
  apart := List.pairwise_map.mpr tiles.ordered

/-- The tokens of a source begin and end between characters. -/
theorem Tiles.boundaries (tiles : Tiles 0 source.toList lexemes)
    : ∀ span ∈ Span.unknown :: lexemes.map Lexeme.span,
        Boundary source span.start ∧ Boundary source span.stop := by
  rw [List.forall_mem_cons, List.forall_mem_map]
  exact ⟨⟨.zero source, .zero source⟩,
    fun lexeme member => (tiles.matched_source lexeme member).boundaries⟩

/-- The bad spots of a source begin between characters. -/
theorem Spots.boundaries (spots : Spots 0 source.toList errors)
    : ∀ error ∈ errors, Boundary source error.offset := by
  intro error member
  obtain ⟨-, behind, stands, -⟩ := spots.noStart [] rfl error member
  rw [List.nil_append, String.ofList_toList] at stands
  exact stands.boundaries.1

end Token

-----------------------------------------------------------------------------------------
-- Reports
-----------------------------------------------------------------------------------------

/-- What the caller is told about a text that is no script, in this order. -/
def Compilation.reports : Compilation → List (Position × String)
  | rejected errors => errors
  | failed _ | compiled _ => []

/-- The places of errors in a source come in order and between characters. -/
structure Source.Places (source : String) (offsets : List Nat) : Prop where
  ordered : offsets.Pairwise (· ≤ ·)
  boundaries : ∀ offset ∈ offsets, Boundary source offset

namespace Source.Places

variable {source : String} {offsets : List Nat}

theorem positions_ordered (places : Places source offsets)
    : (offsets.map (position source)).Pairwise Position.NotAfter := by
  rw [List.pairwise_map]
  exact places.ordered.imp_of_mem fun first second order =>
    position_notAfter (places.boundaries _ first) (places.boundaries _ second) order

theorem positions_inside (places : Places source offsets)
    : ∀ here ∈ offsets.map (position source), here.Inside source := by
  rw [List.forall_mem_map]
  exact fun offset member => position_inside (places.boundaries offset member)

end Source.Places

theorem Token.Spots.places {source : String} {errors : List LexError}
    (spots : Spots 0 source.toList errors)
    : Source.Places source (errors.map LexError.offset) where
  ordered := List.pairwise_map.mpr (spots.ordered.imp Nat.le_of_lt)
  boundaries := List.forall_mem_map.mpr spots.boundaries

theorem Token.Tiles.places {source : String} {lexemes : List Lexeme}
    (tiles : Tiles 0 source.toList lexemes)
    : Source.Places source ((parse lexemes).2.map fun error => error.span.start) where
  ordered := List.pairwise_map.mpr (Parse.starts_ordered tiles.rows).1
  boundaries := by
    rw [List.forall_mem_map]
    intro error member
    obtain ⟨span, found, edge⟩ := (Parse.starts_ordered tiles.rows).2 error member
    have ends := tiles.boundaries span found
    rcases edge with edge | edge
    · exact edge ▸ ends.1
    · exact edge ▸ ends.2

namespace LexError

/-- The report of a bad spot names its position. -/
theorem position_diagnostic (source : String) (error : LexError)
    : error.diagnostic.position source = Source.position source error.offset := by
  unfold diagnostic
  split <;> rfl

end LexError

/-- The reports that a script does not read are those of errors. -/
theorem Script.reports_ne_nil {source : String} {reports : List Diagnostic}
    (rejected : Script.read source = .error reports)
    : reports ≠ [] := by
  have reads := Token.lex_reads source
  unfold Script.read at rejected
  cases tokens : lex source with
  | error errors =>
      rw [tokens] at reads rejected
      obtain rfl := Except.error.inj rejected
      exact mt List.map_eq_nil_iff.mp reads.1
  | ok lexemes =>
      rw [tokens] at rejected
      dsimp only at rejected
      split at rejected
      · exact nomatch rejected
      · next errors some _ =>
          obtain rfl := Except.error.inj rejected
          exact mt List.map_eq_nil_iff.mp some

/-- A text is rejected if and only if there is something to report. -/
theorem rejected_iff_reports (source : String)
    : (∃ errors, compileSource source = .rejected errors)
      ↔ (compileSource source).reports ≠ [] := by
  cases read : Script.read source with
  | error reports =>
      have some := Script.reports_ne_nil read
      simp [compileSource, read, Compilation.reports, some]
  | ok script =>
      simp only [compileSource, read]
      cases script.compile <;> simp [Compilation.reports]

/-- The reports are those of the bad spots or, where there are none, of the syntax errors. -/
theorem reports_eq (source : String)
    : (compileSource source).reports
      = match lex source with
        | .error errors => errors.map fun error =>
            (position source error.offset, error.diagnostic.message)
        | .ok lexemes => (parse lexemes).2.map fun error =>
            (position source error.span.start, error.diagnostic.message) := by
  unfold compileSource Script.read
  cases tokens : lex source with
  | error errors =>
      simp only [Compilation.reports, List.map_map]
      refine List.map_congr_left fun error _ => ?_
      exact congrArg (·, _) (error.position_diagnostic source)
  | ok lexemes =>
      rcases parsed : parse lexemes with ⟨script, errors⟩
      cases errors with
      | nil =>
          simp only [parsed]
          cases script.compile <;> rfl
      | cons error errors =>
          simp only [parsed, Compilation.reports, List.map_map]
          rfl

/-- A text is rejected if and only if something is reported: each bad spot or, where there are
none, each syntax error. The reports come in the order of their positions, which are places in
the text, and the syntax errors in the order of the tokens at which they are found.
-/
theorem compileSource_reports (source : String)
    : ((∃ errors, compileSource source = .rejected errors)
        ↔ (compileSource source).reports ≠ [])
      ∧ ((compileSource source).reports.map Prod.fst).Pairwise Position.NotAfter
      ∧ (∀ report ∈ (compileSource source).reports, report.1.Inside source)
      ∧ match lex source with
        | .error errors =>
            (compileSource source).reports = errors.map fun error =>
              (position source error.offset, error.diagnostic.message)
        | .ok lexemes =>
            ((compileSource source).reports = (parse lexemes).2.map fun error =>
              (position source error.span.start, error.diagnostic.message))
            ∧ (parse lexemes).2.Pairwise (fun first second => first.position ≤ second.position)
            ∧ ∀ error ∈ (parse lexemes).2, error.position ≤ lexemes.length := by
  refine ⟨rejected_iff_reports source, ?_⟩
  have reads := Token.lex_reads source
  have same := reports_eq source
  cases tokens : lex source with
  | error errors =>
      rw [tokens] at reads same
      have places := reads.2.places
      have positions : (compileSource source).reports.map Prod.fst
          = (errors.map LexError.offset).map (position source) := by
        rw [same, List.map_map, List.map_map]
        rfl
      refine ⟨positions ▸ places.positions_ordered, ?_, same⟩
      exact List.forall_mem_map.mp (positions ▸ places.positions_inside)
  | ok lexemes =>
      rw [tokens] at reads same
      have places := reads.places
      have positions : (compileSource source).reports.map Prod.fst
          = ((parse lexemes).2.map fun error => error.span.start).map (position source) := by
        rw [same, List.map_map, List.map_map]
        rfl
      refine ⟨positions ▸ places.positions_ordered, ?_, same, Parse.positions_ordered lexemes⟩
      exact List.forall_mem_map.mp (positions ▸ places.positions_inside)

end StackScript
