import Mathlib
import StackScript.Proofs.Parse.NestingCounter
import StackScript.Proofs.Parse.Siblings

/-! The nesting of siblings does not add up. As the counter is balanced, each member of a list
is read with the value that the counter has at the beginning of the list, and the list is
accepted exactly when each member is accepted at that value.
-/

namespace StackScript

variable {α β : Type}

namespace Counting

open Parse hiding statements statement listed block expression chain chainTail call callTail
  argumentList arguments operand
open StackScript.Parser (ReadsTo ReadsAlone)

/-- With the room that the counter leaves of the limit, a step of reading succeeds, notes no error
and leaves the given tokens.
-/
def Accepts (p : Nat → Counting α) (g : Gauge) (rest : List Lexeme) : Prop :=
  ∃ value g',
    p (nestingLimit - g.depth) g = some (.ok value, g')
    ∧ g'.reader.rest = rest
    ∧ g'.reader.errors = g.reader.errors

/-- The tokens alone are accepted at some value of the counter. -/
def AcceptsAlone (p : Nat → Counting α) (depth : Nat) (tokens : List Lexeme) : Prop :=
  Accepts p (Gauge.start depth tokens) []

theorem Follows.accepts_iff {p : Nat → Counting α} {q : Nat → Parser α} {g : Gauge}
    {rest : List Lexeme}
    (follows : ∀ most room deep, Follows most room deep (· = deep) (p room) (q room))
    (placed : g.reader.Placed)
    : Accepts p g rest ↔ ReadsTo (q (nestingLimit - g.depth)) g.reader rest := by
  obtain ⟨most, ready⟩ := Gauge.exists_ready placed
  have tallied := follows most _ _ g ready
  unfold Accepts ReadsTo
  generalize p (nestingLimit - g.depth) g = outcome at tallied ⊢
  generalize q (nestingLimit - g.depth) g.reader = result at tallied ⊢
  cases tallied with
  | ok within left =>
      constructor <;> rintro ⟨_, _, ⟨⟩, left, clean⟩ <;> exact ⟨_, _, rfl, left, clean⟩
  | error within => constructor <;> rintro ⟨_, _, ⟨⟩, _⟩

theorem Follows.acceptsAlone_iff {p : Nat → Counting α} {q : Nat → Parser α} {depth : Nat}
    {tokens : List Lexeme}
    (follows : ∀ most room deep, Follows most room deep (· = deep) (p room) (q room))
    : AcceptsAlone p depth tokens ↔ ReadsAlone (q (nestingLimit - depth)) tokens :=
  accepts_iff (g := Gauge.start depth tokens) follows (Reader.placed_start tokens)

/-- A list is accepted exactly when its members are accepted at the value that the counter has
where the list begins, as long as the limit of errors is not reached: when the tokens can be
divided into such members and, if they are divided into phrases, when these are such members.
-/
structure SiblingsApart (list : Nat → Counting α) (member : Nat → Counting β)
    (behind : List Lexeme → Prop) (lists : List (List Lexeme) → List Lexeme → Prop)
    (phrase : List Lexeme → Prop)
    : Prop where
  divided
    : ∀ (g : Gauge) (tokens rest : List Lexeme),
        g.reader.Placed
        → g.reader.errors.length < errorLimit
        → g.reader.rest = tokens ++ rest
        → behind rest
        → (Accepts list g rest
          ↔ ∃ members, lists members tokens ∧ ∀ m ∈ members, AcceptsAlone member g.depth m)
  each
    : ∀ (g : Gauge) (members : List (List Lexeme)) (tokens rest : List Lexeme),
        g.reader.Placed
        → g.reader.errors.length < errorLimit
        → g.reader.rest = tokens ++ rest
        → behind rest
        → lists members tokens
        → (∀ m ∈ members, phrase m)
        → (Accepts list g rest ↔ ∀ m ∈ members, AcceptsAlone member g.depth m)

/-- Members that are read apart are so with the counter. -/
theorem siblingsApart_of_apart {list : Nat → Counting α} {member : Nat → Counting β}
    {behind : List Lexeme → Prop} {lists : List (List Lexeme) → List Lexeme → Prop}
    {phrase : List Lexeme → Prop} {q : Nat → Parser α} {q' : Nat → Parser β}
    (apart : ∀ room, Apart (q room) (q' room) behind lists phrase)
    (whole : ∀ most room deep, Follows most room deep (· = deep) (list room) (q room))
    (part : ∀ most room deep, Follows most room deep (· = deep) (member room) (q' room))
    : SiblingsApart list member behind lists phrase where
  divided g tokens rest placed few left ends := by
    rw [Follows.accepts_iff whole placed]
    simp only [Follows.acceptsAlone_iff part]
    constructor
    · exact (apart _).divides placed few left
    · rintro ⟨members, parts, alone⟩
      exact (apart _).gathers placed few left ends parts alone
  each g members tokens rest placed few left ends parts phrases := by
    rw [Follows.accepts_iff whole placed]
    simp only [Follows.acceptsAlone_iff part]
    constructor
    · intro read
      obtain ⟨others, parts', alone⟩ := (apart _).divides placed few left read
      rwa [← (apart _).unique parts' alone parts phrases]
    · exact (apart _).gathers placed few left ends parts

theorem listed_siblings (nested : Bool)
    : SiblingsApart (listed · nested) statement (Ends nested)
        (fun members tokens => members.flatten = tokens) IsStatement :=
  siblingsApart_of_apart (fun room => listed_apart room nested)
    (fun _ room deep => listed_follows (statement_follows room deep) nested)
    fun _ => statement_follows

theorem block_siblings
    : SiblingsApart block statement (fun _ => True) Braced IsStatement :=
  siblingsApart_of_apart block_apart
    (fun _ room deep => block_follows (statement_follows room deep)) fun _ => statement_follows

theorem argumentList_siblings
    : SiblingsApart argumentList expression (fun _ => True) Separated IsExpression :=
  siblingsApart_of_apart passed_apart
    (fun _ room deep => argumentList_follows (arguments_follows room deep))
    fun _ => expression_follows

/-- The counter of the nesting is balanced. Reading with it is reading, and it is never above the
limit. Each phrase that is read leaves it as it was, and so does each list of statements, also
if statements inside it fail. Therefore siblings do not add up: a list of statements, a block or
the arguments of a call are accepted exactly when each member is accepted at the value that the
list begins with.
-/
theorem nesting_balanced
    : (∀ lexemes, ∃ history,
        parse lexemes = some (StackScript.parse lexemes, history)
        ∧ ∀ value ∈ history, value ≤ nestingLimit)
      ∧ PhrasesAgree
      ∧ PhrasesBalanced
      ∧ (∀ (nested : Bool) (g : Gauge),
          g.reader.Placed
          → ∃ stmts last,
            statements (nestingLimit - g.depth) nested g = some (stmts, last)
            ∧ last.depth = g.depth)
      ∧ (∀ nested,
          SiblingsApart (listed · nested) statement (Ends nested)
            (fun members tokens => members.flatten = tokens) IsStatement)
      ∧ SiblingsApart block statement (fun _ => True) Braced IsStatement
      ∧ SiblingsApart argumentList expression (fun _ => True) Separated IsExpression :=
  ⟨parse_within, phrases_agree, phrases_balanced, fun nested _ => statements_balanced nested,
    listed_siblings, block_siblings, argumentList_siblings⟩

/-- Tokens without a place in a text. -/
def unplaced (tokens : List Token) : List Lexeme :=
  tokens.map fun token => ⟨token, Span.unknown⟩

/-- The arguments `1` and `((2))`. -/
def shallowAndDeep : List (List Lexeme) :=
  [unplaced [.number "1"],
    unplaced [.mark .leftParen, .mark .leftParen, .number "2", .mark .rightParen,
      .mark .rightParen]]

/-- The end of a call, `1, ((2)))`. -/
def shallowAndDeepCall : List Lexeme :=
  unplaced [.number "1", .mark .comma, .mark .leftParen, .mark .leftParen, .number "2",
    .mark .rightParen, .mark .rightParen, .mark .rightParen]

/-- Three levels below the limit both arguments are accepted, and so are both together. Two
levels below it the second is not, and so both together are not.
-/
theorem nesting_balanced_call
    : (∃ stmts last,
        statements 121 true (Gauge.start 7 shallowAndDeepCall) = some (stmts, last)
        ∧ last.depth = 7)
      ∧ Accepts argumentList (Gauge.start 125 shallowAndDeepCall) []
      ∧ ¬Accepts argumentList (Gauge.start 126 shallowAndDeepCall) [] := by
  obtain ⟨-, -, -, kept, -, -, apart⟩ := nesting_balanced
  have alone : ∀ m ∈ shallowAndDeep, ReadsAlone (Parse.expression 3) m := by
    rw [shallowAndDeep, List.forall_mem_cons, List.forall_mem_singleton]
    exact ⟨⟨.literal (.number "1"), ⟨[], 1, 1, Span.unknown, []⟩, by cbv, rfl, rfl⟩,
      ⟨.literal (.number "2"), ⟨[], 5, 5, Span.unknown, []⟩, by cbv, rfl, rfl⟩⟩
  have each (depth : Nat) := apart.each (Gauge.start depth shallowAndDeepCall) shallowAndDeep
    shallowAndDeepCall [] (Reader.placed_start _) errorLimit_pos (List.append_nil _).symm trivial
    (.more (.last _ _)) fun m found => (expression_member 3).phrase_of_alone (alone m found)
  refine ⟨kept true (Gauge.start 7 shallowAndDeepCall) (Reader.placed_start _),
    (each 125).mpr fun m found => ?_, fun read => ?_⟩
  · exact (Follows.acceptsAlone_iff fun _ => expression_follows).mpr (alone m found)
  · have deep := (each 126).mp read _ (.tail _ (.head _))
    obtain ⟨e, s, read, -⟩ := (Follows.acceptsAlone_iff fun _ => expression_follows).mp deep
    have stopped : ∃ error found,
        Parse.expression 2 (Reader.start (unplaced [.mark .leftParen, .mark .leftParen,
          .number "2", .mark .rightParen, .mark .rightParen])) = .error error found :=
      ⟨⟨.tooDeep, 2, Span.unknown⟩, ⟨unplaced [.number "2", .mark .rightParen,
        .mark .rightParen], 2, 5, Span.unknown, []⟩, by cbv⟩
    obtain ⟨error, found, stopped⟩ := stopped
    cases stopped.symm.trans read

end Counting

end StackScript
