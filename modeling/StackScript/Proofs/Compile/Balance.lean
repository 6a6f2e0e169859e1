import StackScript.Proofs.Bytecode.Heights
import StackScript.Proofs.Compile.Scoping

/-! Generated code is balanced. The code of an expression raises the operand stack by one value
from wherever it stands above the locals; the code of a statement leads from the height of
the locals before it to the height of those behind it.
-/

namespace StackScript

open Generate

-----------------------------------------------------------------------------------------
-- Pieces of code
-----------------------------------------------------------------------------------------

theorem slotIn?_lt {name : String} {locals : List Local} {slot : UInt8}
    (found : Scope.slotIn? name locals = some slot)
    : slot.toNat < locals.length := by
  induction locals with
  | nil => cases found
  | cons latest older ih =>
      unfold Scope.slotIn? at found
      split at found
      · obtain rfl := Option.some.inj found
        have : (UInt8.ofNat older.length).toNat ≤ older.length := Nat.mod_le _ _
        rw [List.length_cons]
        omega
      · exact Nat.lt_succ_of_lt (ih found)

theorem load_levels {name : String} {scope : Scope} {symbols after : Symbols}
    {code : List Instruction} {height : Nat}
    (loaded : load name scope symbols = .ok (code, after))
    (above : scope.locals.length ≤ height)
    : Levels height code (height + 1) := by
  rcases load_eq_ok loaded with ⟨slot, found, rfl, -⟩ | ⟨slot, -, -, rfl⟩
  · have inside := slotIn?_lt found
    exact .single (Nat.le_trans inside above) (fun _ _ same => nomatch same)
  · exact .single (Nat.zero_le _) (fun _ _ same => nomatch same)

theorem store_levels {name : String} {scope : Scope} {symbols after : Symbols}
    {code : List Instruction} {height : Nat}
    (stored : store name scope symbols = .ok (code, after))
    (above : scope.locals.length ≤ height)
    : Levels (height + 1) code (height + 1) := by
  rcases store_eq_ok stored with ⟨slot, found, rfl, -⟩ | ⟨slot, -, -, rfl⟩
  · have inside := slotIn?_lt found
    exact .single (Nat.succ_le_succ (Nat.le_of_lt (Nat.lt_of_lt_of_le inside above)))
      (fun _ _ same => nomatch same)
  · exact .single (Nat.le_add_left 1 height) (fun _ _ same => nomatch same)

theorem Levels.push (height : Nat) (value : Constant)
    : Levels height [.push value] (height + 1) :=
  .single (Nat.zero_le _) (fun _ _ same => nomatch same)

theorem Levels.pop (height : Nat) : Levels (height + 1) [.pop] height :=
  .single (Nat.le_add_left 1 height) (fun _ _ same => nomatch same)

theorem Levels.ret (height : Nat) : Levels (height + 1) [.ret] height :=
  .single (Nat.le_add_left 1 height) (fun _ _ same => nomatch same)

theorem Levels.operate (height : Nat) (op : Operator)
    : Levels (height + 1 + 1) [.operate op] (height + 1) :=
  .single (Nat.le_add_left 2 height) (fun _ _ same => nomatch same)

theorem Levels.call {height count : Nat} (few : count ≤ 255)
    : Levels (height + 1 + count) [.call (UInt8.ofNat count)] (height + 1) := by
  have exact : (UInt8.ofNat count).toNat = count := UInt8.toNat_ofNat_of_lt (Nat.lt_succ_of_le few)
  have single : Levels (height + 1 + count) [.call (UInt8.ofNat count)]
      (height + 1 + count - (UInt8.ofNat count).toNat) :=
    .single (by simp only [Instruction.demand, exact]; omega) (fun _ _ same => nomatch same)
  rwa [exact, Nat.add_sub_cancel] at single

theorem literal_levels {value : Literal} {symbols after : Symbols} {code : List Instruction}
    (generated : literal value symbols = .ok (code, after)) (height : Nat)
    : Levels height code (height + 1) := by
  rcases literal_eq_ok generated with
    ⟨_, _, -, -, rfl, -⟩ | ⟨_, _, -, -, rfl⟩ | ⟨_, -, rfl, -⟩ | ⟨-, rfl, -⟩
  all_goals exact .push _ _

-----------------------------------------------------------------------------------------
-- Expressions
-----------------------------------------------------------------------------------------

mutual

/-- The code of an expression leaves one more value than it finds, by induction on the
expression. A function literal is one push, whatever its body.
-/
theorem Expr.generate_levels {expression : Expr} {scope : Scope} {symbols after : Symbols}
    {code : List Instruction} {height : Nat}
    (generated : expression.generate scope symbols = .ok (code, after))
    (above : scope.locals.length ≤ height)
    : Levels height code (height + 1) := by
  cases expression with
  | literal value => exact literal_levels generated height
  | name name => exact load_levels generated above
  | binary op left right =>
      obtain ⟨leftCode, _, rightCode, left', right', rfl⟩ := Expr.generate_binary generated
      have first := Expr.generate_levels left' above
      have second := Expr.generate_levels right' (Nat.le_succ_of_le above)
      exact (first.append second).append (.operate height op)
  | logical op left right =>
      obtain ⟨leftCode, _, rightCode, offset, left', right', distance, rfl⟩ :=
        Expr.generate_logical generated
      have first := Expr.generate_levels left' above
      have second := (Levels.pop height).append (Expr.generate_levels right' above)
      -- The right operand starts behind the pop of the left one and ends where the jump does.
      refine first.append ?_
      rw [← List.append_nil (Instruction.pop :: rightCode)]
      refine .jump ?_ ?_ ?_ second.behind (second.append (.nil _))
      · cases op <;> exact Nat.le_add_left 1 height
      · cases op <;> rfl
      · rw [distance]
        rfl
  | assign name how value =>
      cases how with
      | set =>
          obtain ⟨valueCode, _, storeCode, value', stored, rfl⟩ :=
            Expr.generate_assign_set generated
          exact (Expr.generate_levels value' above).append (store_levels stored above)
      | update op =>
          obtain ⟨loadCode, _, valueCode, _, storeCode, loaded, value', stored, rfl⟩ :=
            Expr.generate_assign_update generated
          have first := load_levels loaded above
          have second := Expr.generate_levels value' (Nat.le_succ_of_le above)
          have last := (Levels.operate height op).append (store_levels stored above)
          exact (first.append second).append last
  | call callee args =>
      obtain ⟨calleeCode, _, argsCode, few, callee', args', rfl⟩ := Expr.generate_call generated
      have first := Expr.generate_levels callee' above
      have second := generateArgs_levels args' (Nat.le_succ_of_le above)
      exact (first.append second).append (.call few)
  | function params body =>
      obtain ⟨_, _, _, _, _, _, id, -, -, -, -, -, rfl⟩ := Expr.generate_function generated
      exact .push _ _
termination_by structural expression

/-- The code of arguments leaves a value for each of them. -/
theorem generateArgs_levels {args : List Expr} {scope : Scope} {symbols after : Symbols}
    {code : List Instruction} {height : Nat}
    (generated : generateArgs args scope symbols = .ok (code, after))
    (above : scope.locals.length ≤ height)
    : Levels height code (height + args.length) := by
  cases args with
  | nil =>
      cases generated
      exact .nil height
  | cons arg rest =>
      obtain ⟨argCode, _, restCode, arg', rest', rfl⟩ := generateArgs_cons generated
      have first := Expr.generate_levels arg' above
      have second : Levels (height + 1) restCode (height + 1 + rest.length) :=
        generateArgs_levels rest' (Nat.le_succ_of_le above)
      rw [Nat.add_assoc, Nat.add_comm 1] at second
      exact first.append second
termination_by structural args

end

-----------------------------------------------------------------------------------------
-- Statements
-----------------------------------------------------------------------------------------

theorem define_levels {name : String} {scope outer : Scope} {symbols after : Symbols}
    {code : List Instruction}
    (defined : define name scope symbols = .ok (code, outer, after))
    : Levels (scope.locals.length + 1) code outer.locals.length := by
  rcases define_eq_ok defined with ⟨-, rfl, slot, -, rfl⟩ | ⟨-, -, rfl, rfl, -⟩
  · have store : Levels (outer.locals.length + 1) [.access .setGlobal slot]
        (outer.locals.length + 1) :=
      .single (Nat.le_add_left 1 _) (fun _ _ same => nomatch same)
    exact store.append (.pop _)
  · exact .nil _

/-- The values of the locals of a scope are taken off the stack at its end. -/
theorem closeScope_levels {scope outer : Scope} {new : List Local} {body code : List Instruction}
    (closed : closeScope body (scope.enter.extend new) = .ok (code, outer))
    (nested : scope.WellNested) (depths : ∀ entry ∈ new, entry.depth = scope.depth + 1)
    (levels : Levels scope.locals.length body (scope.enter.extend new).locals.length)
    : Levels scope.locals.length code scope.locals.length := by
  obtain ⟨-, rfl⟩ := closeScope_extend closed nested depths
  have height : (scope.enter.extend new).locals.length = scope.locals.length + new.length := by
    simp only [Scope.extend, Scope.enter, List.length_append]
    omega
  rw [height] at levels
  exact levels.append (.pops _ _)

/-- The code of a side of a branch leaves the height of the locals as it is. -/
theorem SideGenerated.levels_of {side : Stmt} {scope outer : Scope} {symbols after : Symbols}
    {code : List Instruction}
    (levels
      : ∀ {scope outer : Scope} {code : List Instruction},
          side.generate scope symbols = .ok (code, outer, after)
          → scope.WellNested
          → Levels scope.locals.length code outer.locals.length)
    (generated : SideGenerated side scope symbols code outer after) (nested : scope.WellNested)
    : Levels scope.locals.length code scope.locals.length := by
  have behind := generated.scope nested
  cases generated with
  | own _ _ generated closed =>
      have body := levels generated nested.enter
      rw [Stmt.generate_scope generated nested.enter] at body closed
      exact closeScope_levels closed nested Stmt.declares_depth body
  | shared _ generated =>
      subst behind
      exact levels generated nested

mutual

/-- The code of a statement leads from the height of the locals before it to the height of
those behind it, by induction on the statement.
-/
theorem Stmt.generate_levels {statement : Stmt} {scope outer : Scope} {symbols after : Symbols}
    {code : List Instruction}
    (generated : statement.generate scope symbols = .ok (code, outer, after))
    (nested : scope.WellNested)
    : Levels scope.locals.length code outer.locals.length := by
  cases statement with
  | block span body =>
      have behind := Stmt.generate_scope generated nested
      subst behind
      obtain ⟨bodyCode, inner, body', closed⟩ := Stmt.generate_block generated
      have levels := generateBody_levels body' nested.enter
      rw [generateBody_scope body' nested.enter] at levels closed
      exact closeScope_levels closed nested declaredIn_depth levels
  | branch span condition yes no =>
      cases no with
      | none =>
          obtain ⟨testCode, _, yesCode, offset, test', side, distance, rfl⟩ :=
            Stmt.generate_branch_none generated
          have behind := side.scope nested
          subst behind
          have test := Expr.generate_levels test' (Nat.le_refl _)
          have yes' := side.levels_of Stmt.generate_levels nested
          refine test.append ?_
          rw [← List.append_nil yesCode]
          exact .jump (Nat.le_add_left 1 _) rfl distance.symm yes'.behind (yes'.append (.nil _))
      | some no =>
          obtain ⟨testCode, _, yesCode, between, _, noCode, offset, test', yesSide, noSide, result⟩ :=
            Stmt.generate_branch_some generated
          have same := yesSide.scope nested
          subst same
          have behind := noSide.scope nested
          subst behind
          have test := Expr.generate_levels test' (Nat.le_refl _)
          have yes' := yesSide.levels_of Stmt.generate_levels nested
          have no' := noSide.levels_of Stmt.generate_levels nested
          rcases result with ⟨-, distance, rfl⟩ | ⟨beyond, -, distance, distance', rfl⟩
          · refine test.append ?_
            exact .jump (Nat.le_add_left 1 _) rfl distance.symm yes'.behind (yes'.append no')
          · have skip : Levels outer.locals.length (.jump .always beyond :: (noCode ++ []))
                outer.locals.length :=
              .jump (Nat.zero_le _) rfl distance'.symm no'.behind (no'.append (.nil _))
            have sides := yes'.append skip
            -- The first jump goes behind the second.
            have length : codeLength (yesCode ++ [.jump .always beyond]) = offset.toNat := by
              rw [codeLength_append, distance]
              rfl
            have arrives : heightBehind outer.locals.length (yesCode ++ [.jump .always beyond])
                = outer.locals.length := by
              rw [heightBehind_append, yes'.behind]
              rfl
            rw [List.append_nil, List.append_cons] at sides
            rw [List.append_cons yesCode]
            exact test.append (.jump (Nat.le_add_left 1 _) rfl length arrives sides)
  | ret span value =>
      cases value with
      | none =>
          cases generated
          exact (Levels.push _ .null).append (.ret _)
      | some value =>
          obtain ⟨valueCode, value', rfl, rfl⟩ := Stmt.generate_ret_some generated
          exact (Expr.generate_levels value' (Nat.le_refl _)).append (.ret _)
  | define span name value =>
      cases value with
      | none =>
          obtain ⟨defineCode, defined, rfl⟩ := Stmt.generate_define_none generated
          exact (Levels.push _ .null).append (define_levels defined)
      | some value =>
          obtain ⟨valueCode, _, defineCode, value', defined, rfl⟩ :=
            Stmt.generate_define_some generated
          exact (Expr.generate_levels value' (Nat.le_refl _)).append (define_levels defined)
  | discard span value =>
      obtain ⟨valueCode, value', rfl, rfl⟩ := Stmt.generate_discard generated
      exact (Expr.generate_levels value' (Nat.le_refl _)).append (.pop _)
termination_by structural statement

/-- The code of the statements of a block leads to the height of the locals behind them. -/
theorem generateBody_levels {body : List Stmt} {scope outer : Scope} {symbols after : Symbols}
    {code : List Instruction}
    (generated : generateBody body scope symbols = .ok (code, outer, after))
    (nested : scope.WellNested)
    : Levels scope.locals.length code outer.locals.length := by
  cases body with
  | nil =>
      cases generated
      exact .nil _
  | cons statement rest =>
      rcases generateBody_cons generated with ⟨-, first⟩ | ⟨_, between, _, _, -, first, rest', rfl⟩
      · exact Stmt.generate_levels first nested
      · have levels := Stmt.generate_levels first nested
        have behind := Stmt.generate_scope first nested
        subst behind
        exact levels.append (generateBody_levels rest' (nested.extend Stmt.declares_depth))
termination_by structural body

end

end StackScript
