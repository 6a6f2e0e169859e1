import StackScript.Proofs.Parse.Phrases

/-! What is read without an error is derived by the grammar. The tokens that a phrase passed
over derive the tree that was built from them, and a list of statements ends where it should.
-/

namespace StackScript

namespace Parse

open Reader (Onward Past)

variable {r s t : Reader}

/-- Where no errors are noted, none were noted before. -/
theorem clean_before (onward : Onward r s) (clean : s.errors = []) : r.errors = [] := by
  have := onward.errors
  rw [clean] at this
  exact List.prefix_nil.mp this

-----------------------------------------------------------------------------------------
-- Parameters
-----------------------------------------------------------------------------------------

theorem nodup_concat {names : List String} {name : String} (distinct : names.Nodup)
    (new : ¬names.contains name = true)
    : (names ++ [name]).Nodup := by
  rw [List.nodup_append]
  grind

theorem parameters_derived {seen params : List String} (read : parameters seen r = .ok params s)
    : ∃ names tokens,
        params = seen ++ names
        ∧ Past tokens r s
        ∧ Grammar.Names tokens names
        ∧ (seen.Nodup → params.Nodup) := by
  fun_induction parameters seen r with
  | case1 seen r name next behind known => cases read
  | case2 seen r name next behind new comma ih =>
      obtain ⟨names, tokens, rfl, past, derived, distinct⟩ := ih read
      obtain ⟨a, one⟩ := Reader.past_advance next
      obtain ⟨b, two⟩ := Reader.past_advance comma
      exact ⟨name :: names, _, List.append_assoc seen [name] names,
        one.append (two.append past), .more derived,
        fun others => distinct (nodup_concat others new)⟩
  | case3 seen r name next behind new last =>
      obtain ⟨rfl, rfl⟩ := EStateM.Result.ok.inj read
      obtain ⟨a, one⟩ := Reader.past_advance next
      exact ⟨[name], _, rfl, one, .last, fun others => nodup_concat others new⟩
  | case4 => cases read

theorem parameterList_derived {params : List String} (read : parameterList r = .ok params s)
    : ∃ tokens, Past tokens r s ∧ Grammar.Parameters tokens params ∧ params.Nodup := by
  obtain ⟨opening, ⟨closing, rfl, rfl⟩ | ⟨t, names, closing, rfl⟩⟩ := parameterList_eq_ok read
  · obtain ⟨a, one⟩ := Reader.past_advance opening
    obtain ⟨b, two⟩ := Reader.past_advance closing
    exact ⟨_, one.append two, .empty, List.nodup_nil⟩
  · obtain ⟨a, one⟩ := Reader.past_advance opening
    obtain ⟨names, tokens, rfl, past, derived, distinct⟩ := parameters_derived names
    obtain ⟨b, two⟩ := Reader.past_advance closing
    exact ⟨_, one.append (past.append two), .names derived, distinct List.nodup_nil⟩

-----------------------------------------------------------------------------------------
-- Phrases
-----------------------------------------------------------------------------------------

mutual

theorem expression_derived {room : Nat} {r s : Reader} {e : Expr} (placed : r.Placed)
    (clean : s.errors = []) (read : expression room r = .ok e s)
    : ∃ tokens, Past tokens r s ∧ Grammar.Expression tokens e ∧ e.DistinctParams := by
  match room with
  | 0 => exact (not_expression_zero read).elim
  | room + 1 =>
      cases expression_read read with
      | assign ahead inner =>
          obtain ⟨named, token, next, sign⟩ := next?_of_assignmentAhead? ahead
          obtain ⟨a, one⟩ := Reader.past_advance named
          obtain ⟨b, two⟩ := Reader.past_advance next
          have behind := two.placed (one.placed placed)
          obtain ⟨tokens, past, derived, distinct⟩ := expression_derived behind clean inner
          refine ⟨_, one.append (two.append past), ?_, distinct⟩
          unfold assignment? at sign
          split at sign <;> cases sign
          · exact .set derived
          · exact .update derived
      | chain ahead operands =>
          obtain ⟨tokens, past, derived, distinct⟩ := chain_derived placed clean operands
          exact ⟨tokens, past, .chain derived, distinct⟩
termination_by (room, 0, 0)

/-- A statement that ends with an open `if` was read up to a token other than `else`. -/
theorem statement_derived {room : Nat} {r s : Reader} {stmt : Stmt} (placed : r.Placed)
    (clean : s.errors = []) (read : statement room r = .ok stmt s)
    : ∃ tokens,
        Past tokens r s
        ∧ Grammar.Statement tokens stmt
        ∧ stmt.DistinctParams
        ∧ (stmt.endsOpen = true → s.next? ≠ some (.keyword .elseWord)) := by
  match room with
  | 0 => exact (not_statement_zero read).elim
  | room + 1 =>
      cases statement_read read with
      | block inner =>
          obtain ⟨tokens, past, derived, distinct⟩ := block_derived placed clean inner
          have some : tokens ≠ [] := by rintro rfl; cases derived
          refine ⟨tokens, past, ?_, by rwa [Stmt.DistinctParams], nofun⟩
          rw [merge_of_past past some]
          exact .block derived
      | branch word opening test closing first last =>
          obtain ⟨a, one⟩ := Reader.past_advance word
          obtain ⟨b, two⟩ := Reader.past_advance opening
          obtain ⟨d, four⟩ := Reader.past_advance closing
          have tested := (Onward.advance _).trans (Onward.of_ok first)
          obtain ⟨_, three, condition, distinct⟩ := expression_derived
            (two.placed (one.placed placed)) (clean_before tested clean) test
          have behind := four.placed (three.placed (two.placed (one.placed placed)))
          obtain ⟨_, five, yes, distinct', -⟩ := statement_derived behind clean first
          have past := one.append (two.append (three.append (four.append five)))
          refine ⟨_, past, ?_, by rw [Stmt.DistinctParams]; exact ⟨distinct, distinct'⟩,
            fun _ => last⟩
          rw [merge_of_past past nofun]
          exact .branch condition yes rfl
      | branchElse word opening test closing first middle second =>
          obtain ⟨a, one⟩ := Reader.past_advance word
          obtain ⟨b, two⟩ := Reader.past_advance opening
          obtain ⟨d, four⟩ := Reader.past_advance closing
          obtain ⟨f, six⟩ := Reader.past_advance middle
          have other := (Onward.advance _).trans (Onward.of_ok second)
          have tested := ((Onward.advance _).trans (Onward.of_ok first)).trans other
          obtain ⟨_, three, condition, distinct⟩ := expression_derived
            (two.placed (one.placed placed)) (clean_before tested clean) test
          have behind := four.placed (three.placed (two.placed (one.placed placed)))
          obtain ⟨_, five, yes, distinct', nearest⟩ :=
            statement_derived behind (clean_before other clean) first
          obtain ⟨_, seven, no, distinct'', last⟩ :=
            statement_derived (six.placed (five.placed behind)) clean second
          have past := one.append (two.append (three.append (four.append (five.append
            (six.append seven)))))
          refine ⟨_, past, ?_,
            by rw [Stmt.DistinctParams]; exact ⟨distinct, distinct', distinct''⟩, last⟩
          have closed := Bool.eq_false_iff.mpr fun ends => nearest ends middle
          rw [merge_of_past past nofun]
          exact .branchElse condition yes closed no rfl
      | retNothing word semicolon =>
          obtain ⟨a, one⟩ := Reader.past_advance word
          obtain ⟨b, two⟩ := Reader.past_advance semicolon
          have past := one.append two
          refine ⟨_, past, ?_, by rw [Stmt.DistinctParams]; trivial, nofun⟩
          rw [merge_of_past past nofun]
          exact .retNothing rfl
      | ret word value semicolon =>
          obtain ⟨a, one⟩ := Reader.past_advance word
          obtain ⟨c, three⟩ := Reader.past_advance semicolon
          obtain ⟨_, two, result, distinct⟩ :=
            expression_derived (one.placed placed) (clean_before (.advance _) clean) value
          have past := one.append (two.append three)
          refine ⟨_, past, ?_, by rwa [Stmt.DistinctParams], nofun⟩
          rw [merge_of_past past nofun]
          exact .ret result rfl
      | declare word named semicolon =>
          obtain ⟨a, one⟩ := Reader.past_advance word
          obtain ⟨b, two⟩ := Reader.past_advance named
          obtain ⟨c, three⟩ := Reader.past_advance semicolon
          have past := one.append (two.append three)
          refine ⟨_, past, ?_, by rw [Stmt.DistinctParams]; trivial, nofun⟩
          rw [merge_of_past past nofun]
          exact .declare rfl
      | define word named sign value semicolon =>
          obtain ⟨a, one⟩ := Reader.past_advance word
          obtain ⟨b, two⟩ := Reader.past_advance named
          obtain ⟨c, three⟩ := Reader.past_advance sign
          obtain ⟨e, five⟩ := Reader.past_advance semicolon
          obtain ⟨_, four, initial, distinct⟩ :=
            expression_derived (three.placed (two.placed (one.placed placed)))
              (clean_before (.advance _) clean) value
          have past := one.append (two.append (three.append (four.append five)))
          refine ⟨_, past, ?_, by rwa [Stmt.DistinctParams], nofun⟩
          rw [merge_of_past past nofun]
          exact .define initial rfl
      | discard value semicolon =>
          obtain ⟨b, two⟩ := Reader.past_advance semicolon
          obtain ⟨_, one, result, distinct⟩ :=
            expression_derived placed (clean_before (.advance _) clean) value
          have past := one.append two
          refine ⟨_, past, ?_, by rwa [Stmt.DistinctParams], nofun⟩
          rw [merge_of_past past (List.append_ne_nil_of_right_ne_nil _ nofun)]
          exact .discard result rfl
termination_by (room, 0, 0)

theorem statements_derived {room : Nat} {nested : Bool} {r s : Reader} {stmts : List Stmt}
    (placed : r.Placed) (clean : s.errors = []) (read : statements room nested r = (stmts, s))
    : ∃ tokens,
        Past tokens r s
        ∧ Grammar.Statements tokens stmts
        ∧ DistinctParamsIn stmts
        ∧ Ended nested s := by
  cases statements_read placed read with
  | ended here => exact ⟨_, .refl r, .nil, by rw [DistinctParamsIn]; trivial, here⟩
  | tooMany inside many =>
      have before := clean_before (Reader.Forward.skip (R := Onward) _ r) clean
      rw [before] at many
      cases many
  | @statement _ _ _ t inside few first shorter behind =>
      have onward := onward_statements room nested t
      rw [behind] at onward
      obtain ⟨_, one, stmt, distinct, -⟩ :=
        statement_derived placed (clean_before onward clean) first
      obtain ⟨_, two, others, distinct', here⟩ :=
        statements_derived (one.placed placed) clean behind
      exact ⟨_, one.append two, .cons stmt others,
        by rw [DistinctParamsIn]; exact ⟨distinct, distinct'⟩, here⟩
  | error inside few wrong shorter behind =>
      have onward := onward_statements room nested r
      rw [read] at onward
      have same := clean.trans (clean_before onward clean).symm
      exact absurd same (errors_ne_of_error wrong behind)
termination_by (room, 1, r.rest.length)

theorem block_derived {room : Nat} {r s : Reader} {body : List Stmt} (placed : r.Placed)
    (clean : s.errors = []) (read : block room r = .ok body s)
    : ∃ tokens, Past tokens r s ∧ Grammar.Block tokens body ∧ DistinctParamsIn body := by
  obtain ⟨t, opening, inner, closing, rfl⟩ := block_eq_ok read
  obtain ⟨a, one⟩ := Reader.past_advance opening
  obtain ⟨b, three⟩ := Reader.past_advance closing
  obtain ⟨_, two, stmts, distinct, -⟩ :=
    statements_derived (one.placed placed) (clean_before (.advance t) clean) inner
  exact ⟨_, one.append (two.append three), .braces stmts, distinct⟩
termination_by (room, 2, 0)

theorem operand_derived {room : Nat} {r s : Reader} {e : Expr} (placed : r.Placed)
    (clean : s.errors = []) (read : operand room r = .ok e s)
    : ∃ tokens, Past tokens r s ∧ Grammar.Primary tokens e ∧ e.DistinctParams := by
  cases operand_read read with
  | literal next =>
      obtain ⟨a, one⟩ := Reader.past_advance next
      exact ⟨_, one, .literal, by rw [Expr.DistinctParams]; trivial⟩
  | name next =>
      obtain ⟨a, one⟩ := Reader.past_advance next
      exact ⟨_, one, .name, by rw [Expr.DistinctParams]; trivial⟩
  | paren opening inner closing =>
      obtain ⟨a, one⟩ := Reader.past_advance opening
      obtain ⟨b, three⟩ := Reader.past_advance closing
      obtain ⟨_, two, enclosed, distinct⟩ :=
        expression_derived (one.placed placed) (clean_before (.advance _) clean) inner
      exact ⟨_, one.append (two.append three), .paren enclosed, distinct⟩
  | function word head inner =>
      obtain ⟨a, one⟩ := Reader.past_advance word
      obtain ⟨_, two, parameters, distinct⟩ := parameterList_derived head
      obtain ⟨_, three, body, distinct'⟩ :=
        block_derived (two.placed (one.placed placed)) clean inner
      refine ⟨_, one.append (two.append three), ?_,
        by rw [Expr.DistinctParams]; exact ⟨distinct, distinct'⟩⟩
      rw [List.singleton_append]
      exact .function parameters body
termination_by (room, 4, 0)

theorem call_derived {room : Nat} {r s : Reader} {e : Expr} (placed : r.Placed)
    (clean : s.errors = []) (read : call room r = .ok e s)
    : ∃ tokens, Past tokens r s ∧ Grammar.Call tokens e ∧ e.DistinctParams := by
  obtain ⟨callee, t, first, others⟩ := call_eq_ok read
  obtain ⟨_, one, called, distinct⟩ :=
    operand_derived placed (clean_before (Onward.of_ok others) clean) first
  obtain ⟨_, two, derived, distinct'⟩ :=
    callTail_derived (one.placed placed) clean (.primary called) distinct others
  exact ⟨_, one.append two, derived, distinct'⟩
termination_by (room, 5, 0)

theorem callTail_derived {room : Nat} {r s : Reader} {callee e : Expr} {before : List Lexeme}
    (placed : r.Placed) (clean : s.errors = []) (called : Grammar.Call before callee)
    (distinct : callee.DistinctParams) (read : callTail room callee r = .ok e s)
    : ∃ tokens, Past tokens r s ∧ Grammar.Call (before ++ tokens) e ∧ e.DistinctParams := by
  cases callTail_read read with
  | done last => exact ⟨_, .refl r, by rwa [List.append_nil], distinct⟩
  | noArguments deeper opening closing others =>
      subst deeper
      obtain ⟨a, one⟩ := Reader.past_advance opening
      obtain ⟨b, two⟩ := Reader.past_advance closing
      obtain ⟨_, three, derived, distinct'⟩ :=
        callTail_derived (two.placed (one.placed placed)) clean
          (.noArguments (a := a) (b := b) called)
          (by rw [Expr.DistinctParams]; exact ⟨distinct, trivial⟩) others
      refine ⟨_, one.append (two.append three), ?_, distinct'⟩
      simpa using derived
  | call deeper opening inner closing others =>
      subst deeper
      obtain ⟨a, one⟩ := Reader.past_advance opening
      obtain ⟨b, three⟩ := Reader.past_advance closing
      have onward := (Onward.advance _).trans (Onward.of_ok others)
      obtain ⟨_, two, passed, distinctArgs⟩ :=
        arguments_derived (one.placed placed) (clean_before onward clean) inner
      obtain ⟨_, four, derived, distinct'⟩ :=
        callTail_derived (three.placed (two.placed (one.placed placed))) clean
          (.arguments (a := a) (b := b) called passed)
          (by rw [Expr.DistinctParams]; exact ⟨distinct, distinctArgs⟩) others
      refine ⟨_, one.append (two.append (three.append four)), ?_, distinct'⟩
      simpa using derived
termination_by (room, 0, 0)

theorem arguments_derived {room : Nat} {r s : Reader} {args : List Expr} (placed : r.Placed)
    (clean : s.errors = []) (read : arguments room r = .ok args s)
    : ∃ tokens,
        Past tokens r s ∧ Grammar.Arguments tokens args ∧ DistinctParamsOfArgs args := by
  cases arguments_read placed read with
  | last first next =>
      obtain ⟨_, one, argument, distinct⟩ := expression_derived placed clean first
      exact ⟨_, one, .last argument,
        by rw [DistinctParamsOfArgs, DistinctParamsOfArgs]; exact ⟨distinct, trivial⟩⟩
  | more first comma shorter behind =>
      have onward := (Onward.advance _).trans (Onward.of_ok behind)
      obtain ⟨_, one, argument, distinct⟩ :=
        expression_derived placed (clean_before onward clean) first
      obtain ⟨a, two⟩ := Reader.past_advance comma
      obtain ⟨_, three, others, distinct'⟩ :=
        arguments_derived (two.placed (one.placed placed)) clean behind
      exact ⟨_, one.append (two.append three), .more argument others,
        by rw [DistinctParamsOfArgs]; exact ⟨distinct, distinct'⟩⟩
termination_by (room, 1, r.rest.length)

theorem chain_derived {room level : Nat} {r s : Reader} {e : Expr} (placed : r.Placed)
    (clean : s.errors = []) (read : chain room level r = .ok e s)
    : ∃ tokens, Past tokens r s ∧ Grammar.Chain level tokens e ∧ e.DistinctParams := by
  match level with
  | 0 =>
      rw [chain_zero] at read
      obtain ⟨_, one, derived, distinct⟩ := call_derived placed clean read
      exact ⟨_, one, .call derived, distinct⟩
  | level + 1 =>
      obtain ⟨left, t, first, others⟩ := chain_succ_eq_ok read
      obtain ⟨_, one, operand, distinct⟩ :=
        chain_derived placed (clean_before (Onward.of_ok others) clean) first
      obtain ⟨_, two, derived, distinct'⟩ :=
        chainTail_derived (one.placed placed) clean (.tighter operand) distinct others
      exact ⟨_, one.append two, derived, distinct'⟩
termination_by (room, 6 + level, 0)

theorem chainTail_derived {room level : Nat} {r s : Reader} {left e : Expr}
    {before : List Lexeme} (placed : r.Placed) (clean : s.errors = [])
    (first : Grammar.Chain (level + 1) before left) (distinct : left.DistinctParams)
    (read : chainTail room level left r = .ok e s)
    : ∃ tokens,
        Past tokens r s
        ∧ Grammar.Chain (level + 1) (before ++ tokens) e
        ∧ e.DistinctParams := by
  cases chainTail_read read with
  | done last => exact ⟨_, .refl r, by rwa [List.append_nil], distinct⟩
  | joined deeper next known inner others =>
      subst deeper
      obtain ⟨same, rfl⟩ := jointAt?_eq_some_iff.mp known
      obtain ⟨a, one⟩ := Reader.past_advance next
      obtain ⟨_, two, second, distinct'⟩ :=
        chain_derived (one.placed placed) (clean_before (Onward.of_ok others) clean) inner
      obtain ⟨_, three, derived, distinct''⟩ :=
        chainTail_derived (two.placed (one.placed placed)) clean
          (.join (a := a) first same second)
          (Joint.distinctParams_join.mpr ⟨distinct, distinct'⟩) others
      refine ⟨_, one.append (two.append three), ?_, distinct''⟩
      simpa using derived
termination_by (room, 0, 0)

end

end Parse

end StackScript
