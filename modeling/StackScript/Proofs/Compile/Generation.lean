import StackScript.Compile.Write

/-! What successful code generation consists of, one statement for each form of the tree. A
tree whose code is known has parts whose codes are known, and its code is put together from
theirs. Later proofs about generated code take trees apart through these statements alone.
-/

namespace StackScript

open Generate

theorem bind_eq_ok {ε α β : Type} {x : Except ε α} {next : α → Except ε β} {result : β}
    : x >>= next = .ok result ↔ ∃ middle, x = .ok middle ∧ next middle = .ok result := by
  cases x <;> simp [bind, Except.bind]

theorem pure_eq_ok {ε α : Type} {value result : α}
    : (pure value : Except ε α) = .ok result ↔ value = result := by
  simp [pure, Except.pure]

theorem map_eq_ok {ε α β : Type} {x : Except ε α} {change : α → β} {result : β}
    : x.map change = .ok result ↔ ∃ value, x = .ok value ∧ change value = result := by
  cases x <;> simp [Except.map]

variable {scope outer : Scope} {symbols after : Symbols} {code : List Instruction}

-----------------------------------------------------------------------------------------
-- Pieces of code
-----------------------------------------------------------------------------------------

/-- A jump that can be placed goes over fewer than 65536 bytes. -/
theorem jumpOver_eq_ok {when : Jump} {distance : Nat} {instruction : Instruction}
    (placed : jumpOver when distance = .ok instruction)
    : ∃ offset : UInt16, offset.toNat = distance ∧ instruction = .jump when offset := by
  unfold jumpOver at placed
  split at placed
  · rename_i fits
    exact ⟨UInt16.ofNat distance, UInt16.toNat_ofNat_of_lt fits, (Except.ok.inj placed).symm⟩
  · cases placed

/-- A name is read from the slot of the local that it means, else from that of a global. -/
theorem load_eq_ok {name : String} (loaded : load name scope symbols = .ok (code, after))
    : (∃ slot, scope.slot? name = some slot ∧ code = [.access .getLocal slot] ∧ after = symbols)
      ∨ (∃ slot,
          scope.slot? name = none
          ∧ symbols.global name = .ok (slot, after)
          ∧ code = [.access .getGlobal slot]) := by
  unfold load at loaded
  split at loaded
  · rename_i slot found
    cases loaded
    exact .inl ⟨slot, found, rfl, rfl⟩
  · rename_i missing
    simp only [bind_eq_ok, pure_eq_ok, Prod.exists, Prod.mk.injEq] at loaded
    obtain ⟨slot, _, entered, rfl, rfl⟩ := loaded
    exact .inr ⟨slot, missing, entered, rfl⟩

/-- A name is written to the slot of the local that it means, else to that of a global. -/
theorem store_eq_ok {name : String} (stored : store name scope symbols = .ok (code, after))
    : (∃ slot, scope.slot? name = some slot ∧ code = [.access .setLocal slot] ∧ after = symbols)
      ∨ (∃ slot,
          scope.slot? name = none
          ∧ symbols.global name = .ok (slot, after)
          ∧ code = [.access .setGlobal slot]) := by
  unfold store at stored
  split at stored
  · rename_i slot found
    cases stored
    exact .inl ⟨slot, found, rfl, rfl⟩
  · rename_i missing
    simp only [bind_eq_ok, pure_eq_ok, Prod.exists, Prod.mk.injEq] at stored
    obtain ⟨slot, _, entered, rfl, rfl⟩ := stored
    exact .inr ⟨slot, missing, entered, rfl⟩

/-- A literal is the push of a constant. Texts alone are entered in a table. -/
theorem literal_eq_ok {value : Literal} (generated : literal value symbols = .ok (code, after))
    : (∃ digits constant,
        value = .number digits
        ∧ Literal.numeric digits = .ok constant
        ∧ code = [.push constant]
        ∧ after = symbols)
      ∨ (∃ content place,
          value = .text content
          ∧ symbols.intern content = .ok (place, after)
          ∧ code = [.push (.string place)])
      ∨ (∃ truth, value = .bool truth ∧ code = [.push (.boolean truth)] ∧ after = symbols)
      ∨ (value = .null ∧ code = [.push .null] ∧ after = symbols) := by
  cases value with
  | number digits =>
      simp only [literal, bind_eq_ok, pure_eq_ok, Prod.mk.injEq] at generated
      obtain ⟨constant, read, rfl, rfl⟩ := generated
      exact .inl ⟨digits, constant, rfl, read, rfl, rfl⟩
  | text content =>
      simp only [literal, bind_eq_ok, pure_eq_ok, Prod.exists, Prod.mk.injEq] at generated
      obtain ⟨place, _, entered, rfl, rfl⟩ := generated
      exact .inr (.inl ⟨content, place, rfl, entered, rfl⟩)
  | bool truth =>
      cases generated
      exact .inr (.inr (.inl ⟨truth, rfl, rfl, rfl⟩))
  | null =>
      cases generated
      exact .inr (.inr (.inr ⟨rfl, rfl, rfl⟩))

/-- A declared local stands in front of the others and has the depth of the scope. -/
theorem declare_eq_ok {name : String} {slot : UInt8}
    (declared : scope.declare name = .ok (slot, outer))
    : scope.locals.length < 256
      ∧ slot = UInt8.ofNat scope.locals.length
      ∧ outer = ⟨scope.depth, ⟨name, scope.depth⟩ :: scope.locals⟩ := by
  unfold Scope.declare at declared
  split at declared
  · rename_i room
    simp only [Except.ok.injEq, Prod.mk.injEq] at declared
    obtain ⟨rfl, rfl⟩ := declared
    exact ⟨room, rfl, rfl⟩
  · cases declared

/-- A definition is a global outside all scopes and a local in them. -/
theorem define_eq_ok {name : String}
    (defined : define name scope symbols = .ok (code, outer, after))
    : (scope.depth = 0
        ∧ outer = scope
        ∧ ∃ slot,
            symbols.global name = .ok (slot, after) ∧ code = [.access .setGlobal slot, .pop])
      ∨ (scope.depth ≠ 0
        ∧ scope.locals.length < 256
        ∧ outer = ⟨scope.depth, ⟨name, scope.depth⟩ :: scope.locals⟩
        ∧ code = []
        ∧ after = symbols) := by
  unfold define at defined
  split at defined
  · rename_i outside
    simp only [bind_eq_ok, pure_eq_ok, Prod.exists, Prod.mk.injEq] at defined
    obtain ⟨slot, _, entered, rfl, rfl, rfl⟩ := defined
    exact .inl ⟨outside, rfl, slot, entered, rfl⟩
  · rename_i inside
    simp only [bind_eq_ok, pure_eq_ok, Prod.exists, Prod.mk.injEq] at defined
    obtain ⟨slot, _, declared, rfl, rfl, rfl⟩ := defined
    obtain ⟨room, -, rfl⟩ := declare_eq_ok declared
    exact .inr ⟨inside, room, rfl, rfl, rfl⟩

/-- Closing a scope takes the locals that it declared off the stack. -/
theorem closeScope_eq_ok {body : List Instruction}
    (closed : closeScope body scope = .ok (code, outer))
    : ∃ count, scope.leave = .ok (count, outer) ∧ code = body ++ List.replicate count .pop := by
  simp only [closeScope, bind_eq_ok, pure_eq_ok, Prod.exists, Prod.mk.injEq] at closed
  obtain ⟨count, _, left, rfl, rfl⟩ := closed
  exact ⟨count, left, rfl⟩

-----------------------------------------------------------------------------------------
-- Expressions
-----------------------------------------------------------------------------------------

namespace Expr

theorem generate_binary {op : Operator} {left right : Expr}
    (generated : (binary op left right).generate scope symbols = .ok (code, after))
    : ∃ leftCode middle rightCode,
        left.generate scope symbols = .ok (leftCode, middle)
        ∧ right.generate scope middle = .ok (rightCode, after)
        ∧ code = leftCode ++ rightCode ++ [.operate op] := by
  simp only [generate, bind_eq_ok, pure_eq_ok, Prod.exists, Prod.mk.injEq] at generated
  obtain ⟨leftCode, middle, left', rightCode, _, right', rfl, rfl⟩ := generated
  exact ⟨leftCode, middle, rightCode, left', right', rfl⟩

end Expr

/-- The jump over the right operand of a logical operator. -/
def LogicalOperator.skip : LogicalOperator → Jump
  | .and => .keepFalsy
  | .or => .keepTruthy

namespace Expr

theorem generate_logical {op : LogicalOperator} {left right : Expr}
    (generated : (logical op left right).generate scope symbols = .ok (code, after))
    : ∃ leftCode middle rightCode offset,
        left.generate scope symbols = .ok (leftCode, middle)
        ∧ right.generate scope middle = .ok (rightCode, after)
        ∧ offset.toNat = 1 + codeLength rightCode
        ∧ code = leftCode ++ .jump op.skip offset :: .pop :: rightCode := by
  simp only [generate, bind_eq_ok, pure_eq_ok, Prod.exists, Prod.mk.injEq] at generated
  obtain ⟨leftCode, middle, left', rightCode, _, right', _, jump, rfl, rfl⟩ := generated
  obtain ⟨offset, distance, rfl⟩ := jumpOver_eq_ok jump
  refine ⟨leftCode, middle, rightCode, offset, left', right', distance, ?_⟩
  cases op <;> rfl

theorem generate_assign_set {name : String} {value : Expr}
    (generated : (assign name .set value).generate scope symbols = .ok (code, after))
    : ∃ valueCode middle storeCode,
        value.generate scope symbols = .ok (valueCode, middle)
        ∧ store name scope middle = .ok (storeCode, after)
        ∧ code = valueCode ++ storeCode := by
  simp only [generate, bind_eq_ok, pure_eq_ok, Prod.exists, Prod.mk.injEq] at generated
  obtain ⟨valueCode, middle, value', storeCode, _, stored, rfl, rfl⟩ := generated
  exact ⟨valueCode, middle, storeCode, value', stored, rfl⟩

theorem generate_assign_update {name : String} {op : Operator} {value : Expr}
    (generated : (assign name (.update op) value).generate scope symbols = .ok (code, after))
    : ∃ loadCode loaded valueCode middle storeCode,
        load name scope symbols = .ok (loadCode, loaded)
        ∧ value.generate scope loaded = .ok (valueCode, middle)
        ∧ store name scope middle = .ok (storeCode, after)
        ∧ code = loadCode ++ valueCode ++ .operate op :: storeCode := by
  simp only [generate, bind_eq_ok, pure_eq_ok, Prod.exists, Prod.mk.injEq] at generated
  obtain ⟨loadCode, loaded, load', valueCode, middle, value', storeCode, _, stored, rfl, rfl⟩ :=
    generated
  exact ⟨loadCode, loaded, valueCode, middle, storeCode, load', value', stored, rfl⟩

theorem generate_call {callee : Expr} {args : List Expr}
    (generated : (call callee args).generate scope symbols = .ok (code, after))
    : ∃ calleeCode middle argsCode,
        args.length ≤ 255
        ∧ callee.generate scope symbols = .ok (calleeCode, middle)
        ∧ generateArgs args scope middle = .ok (argsCode, after)
        ∧ code = calleeCode ++ argsCode ++ [.call (UInt8.ofNat args.length)] := by
  rw [generate] at generated
  split at generated
  · cases generated
  simp only [bind_eq_ok, pure_eq_ok, Prod.exists, Prod.mk.injEq] at generated
  obtain ⟨calleeCode, middle, callee', argsCode, _, args', rfl, rfl⟩ := generated
  exact ⟨calleeCode, middle, argsCode, by omega, callee', args', rfl⟩

/-- A function literal is entered in the table behind those inside it. -/
theorem generate_function {params : List String} {body : List Stmt}
    (generated : (function params body).generate scope symbols = .ok (code, after))
    : ∃ own bodyCode inner middle closed outer id,
        params.length ≤ 255
        ∧ parameterScope params = .ok own
        ∧ generateBody body own.enter symbols = .ok (bodyCode, inner, middle)
        ∧ closeScope bodyCode inner = .ok (closed, outer)
        ∧ middle.addFunction
            ⟨UInt8.ofNat params.length, (encodeAll (closed ++ epilogue body)).toArray⟩
          = .ok (id, after)
        ∧ code = [.push (.function id)] := by
  rw [generate] at generated
  split at generated
  · cases generated
  simp only [bind_eq_ok, pure_eq_ok, Prod.exists, Prod.mk.injEq] at generated
  obtain ⟨own, own', bodyCode, inner, middle, body', closed, outer, closed', id, _, entered, rfl,
    rfl⟩ := generated
  exact ⟨own, bodyCode, inner, middle, closed, outer, id, by omega, own', body', closed', entered,
    rfl⟩

end Expr

theorem generateArgs_cons {arg : Expr} {rest : List Expr}
    (generated : generateArgs (arg :: rest) scope symbols = .ok (code, after))
    : ∃ argCode middle restCode,
        arg.generate scope symbols = .ok (argCode, middle)
        ∧ generateArgs rest scope middle = .ok (restCode, after)
        ∧ code = argCode ++ restCode := by
  simp only [generateArgs, bind_eq_ok, pure_eq_ok, Prod.exists, Prod.mk.injEq] at generated
  obtain ⟨argCode, middle, arg', restCode, _, rest', rfl, rfl⟩ := generated
  exact ⟨argCode, middle, restCode, arg', rest', rfl⟩

-----------------------------------------------------------------------------------------
-- Statements
-----------------------------------------------------------------------------------------

/-- One side of a branch has the given code, with the given scope behind it: in a scope of its
own, or as a statement among others.
-/
inductive SideGenerated (side : Stmt) (scope : Scope) (symbols : Symbols)
    (code : List Instruction) (outer : Scope) (after : Symbols)
    : Prop
  | own {body : List Instruction} {inner : Scope} (inside : scope.depth ≠ 0)
    (bare : side.isBlock = false)
    (generated : side.generate scope.enter symbols = .ok (body, inner, after))
    (closed : closeScope body inner = .ok (code, outer))
  | shared (shares : scope.depth = 0 ∨ side.isBlock = true)
    (generated : side.generate scope symbols = .ok (code, outer, after))

theorem SideGenerated.of_close {side : Stmt} {body : List Instruction} {inner : Scope}
    (generated : side.generate (sideScope scope side) symbols = .ok (body, inner, after))
    (closed : closeSide scope side body inner = .ok (code, outer))
    : SideGenerated side scope symbols code outer after := by
  unfold sideScope at generated
  unfold closeSide at closed
  split at closed
  · rename_i needs
    rw [if_pos needs] at generated
    obtain ⟨inside, bare⟩ := Bool.and_eq_true_iff.mp needs
    exact .own (bne_iff_ne.mp inside) (by simpa using bare) generated closed
  · rename_i needs
    rw [if_neg needs] at generated
    obtain ⟨rfl, rfl⟩ := Prod.mk.inj (Except.ok.inj closed)
    refine .shared ?_ generated
    by_cases outside : scope.depth = 0
    · exact .inl outside
    · exact .inr (by simpa [needsScope, outside] using needs)

namespace Stmt

theorem generate_block {span : Span} {body : List Stmt}
    (generated : (block span body).generate scope symbols = .ok (code, outer, after))
    : ∃ bodyCode inner,
        generateBody body scope.enter symbols = .ok (bodyCode, inner, after)
        ∧ closeScope bodyCode inner = .ok (code, outer) := by
  simp only [generate, bind_eq_ok, pure_eq_ok, Prod.exists, Prod.mk.injEq] at generated
  obtain ⟨bodyCode, inner, _, body', _, _, closed, rfl, rfl, rfl⟩ := generated
  exact ⟨bodyCode, inner, body', closed⟩

theorem generate_branch_none {span : Span} {condition : Expr} {yes : Stmt}
    (generated
      : (branch span condition yes none).generate scope symbols = .ok (code, outer, after))
    : ∃ testCode tested yesCode offset,
        condition.generate scope symbols = .ok (testCode, tested)
        ∧ SideGenerated yes scope tested yesCode outer after
        ∧ offset.toNat = codeLength yesCode
        ∧ code = testCode ++ .jump .popFalsy offset :: yesCode := by
  simp only [generate, bind_eq_ok, pure_eq_ok, Prod.exists, Prod.mk.injEq] at generated
  obtain ⟨testCode, tested, test', sideCode, inner, _, side', yesCode, _, closed, _, jump, rfl, rfl,
    rfl⟩ := generated
  obtain ⟨offset, distance, rfl⟩ := jumpOver_eq_ok jump
  exact ⟨testCode, tested, yesCode, offset, test', .of_close side' closed, distance, rfl⟩

/-- A branch with two sides. A side that always returns is followed by the other at once, else
a jump over the other stands between them.
-/
theorem generate_branch_some {span : Span} {condition : Expr} {yes no : Stmt}
    (generated
      : (branch span condition yes (some no)).generate scope symbols = .ok (code, outer, after))
    : ∃ testCode tested yesCode between middle noCode offset,
        condition.generate scope symbols = .ok (testCode, tested)
        ∧ SideGenerated yes scope tested yesCode between middle
        ∧ SideGenerated no between middle noCode outer after
        ∧ ((yes.alwaysReturns = true
            ∧ offset.toNat = codeLength yesCode
            ∧ code = testCode ++ .jump .popFalsy offset :: (yesCode ++ noCode))
          ∨ (∃ beyond : UInt16,
              yes.alwaysReturns = false
              ∧ offset.toNat = codeLength yesCode + 3
              ∧ beyond.toNat = codeLength noCode
              ∧ code
                = testCode
                  ++ .jump .popFalsy offset :: (yesCode ++ .jump .always beyond :: noCode))) := by
  simp only [generate, bind_eq_ok, Prod.exists] at generated
  obtain ⟨testCode, tested, test', yesSide, inner, middle, yes', yesCode, between, yesClosed, skip,
    jump, noSide, inner', _, no', noCode, _, noClosed, result⟩ := generated
  obtain ⟨offset, distance, rfl⟩ := jumpOver_eq_ok jump
  refine ⟨testCode, tested, yesCode, between, middle, noCode, offset, test', ?_⟩
  split at result
  · rename_i returns
    simp only [pure_eq_ok, Prod.mk.injEq] at result
    obtain ⟨rfl, rfl, rfl⟩ := result
    rw [if_pos returns] at distance
    refine ⟨.of_close yes' yesClosed, .of_close no' noClosed, .inl ?_⟩
    exact ⟨returns, distance, by simp⟩
  · rename_i goesOn
    simp only [bind_eq_ok, pure_eq_ok, Prod.mk.injEq] at result
    obtain ⟨_, jump, rfl, rfl, rfl⟩ := result
    obtain ⟨beyond, distance', rfl⟩ := jumpOver_eq_ok jump
    rw [if_neg goesOn] at distance
    refine ⟨.of_close yes' yesClosed, .of_close no' noClosed, .inr ?_⟩
    exact ⟨beyond, Bool.eq_false_iff.mpr goesOn, distance, distance', by simp⟩

theorem generate_ret_some {span : Span} {value : Expr}
    (generated : (ret span (some value)).generate scope symbols = .ok (code, outer, after))
    : ∃ valueCode,
        value.generate scope symbols = .ok (valueCode, after)
        ∧ outer = scope
        ∧ code = valueCode ++ [.ret] := by
  simp only [generate, bind_eq_ok, pure_eq_ok, Prod.exists, Prod.mk.injEq] at generated
  obtain ⟨valueCode, _, value', rfl, rfl, rfl⟩ := generated
  exact ⟨valueCode, value', rfl, rfl⟩

theorem generate_define_none {span : Span} {name : String}
    (generated : (define span name none).generate scope symbols = .ok (code, outer, after))
    : ∃ defineCode,
        Generate.define name scope symbols = .ok (defineCode, outer, after)
        ∧ code = .push .null :: defineCode := by
  simp only [generate, bind_eq_ok, pure_eq_ok, Prod.exists, Prod.mk.injEq] at generated
  obtain ⟨defineCode, _, _, defined, rfl, rfl, rfl⟩ := generated
  exact ⟨defineCode, defined, rfl⟩

theorem generate_define_some {span : Span} {name : String} {value : Expr}
    (generated
      : (define span name (some value)).generate scope symbols = .ok (code, outer, after))
    : ∃ valueCode middle defineCode,
        value.generate scope symbols = .ok (valueCode, middle)
        ∧ Generate.define name scope middle = .ok (defineCode, outer, after)
        ∧ code = valueCode ++ defineCode := by
  simp only [generate, bind_eq_ok, pure_eq_ok, Prod.exists, Prod.mk.injEq] at generated
  obtain ⟨valueCode, middle, value', defineCode, _, _, defined, rfl, rfl, rfl⟩ := generated
  exact ⟨valueCode, middle, defineCode, value', defined, rfl⟩

theorem generate_discard {span : Span} {value : Expr}
    (generated : (discard span value).generate scope symbols = .ok (code, outer, after))
    : ∃ valueCode,
        value.generate scope symbols = .ok (valueCode, after)
        ∧ outer = scope
        ∧ code = valueCode ++ [.pop] := by
  simp only [generate, bind_eq_ok, pure_eq_ok, Prod.exists, Prod.mk.injEq] at generated
  obtain ⟨valueCode, _, value', rfl, rfl, rfl⟩ := generated
  exact ⟨valueCode, value', rfl, rfl⟩

end Stmt

/-- The code of statements ends behind the first that always returns. -/
theorem generateBody_cons {statement : Stmt} {rest : List Stmt}
    (generated : generateBody (statement :: rest) scope symbols = .ok (code, outer, after))
    : (statement.alwaysReturns = true ∧ statement.generate scope symbols = .ok (code, outer, after))
      ∨ (∃ first between middle restCode,
          statement.alwaysReturns = false
          ∧ statement.generate scope symbols = .ok (first, between, middle)
          ∧ generateBody rest between middle = .ok (restCode, outer, after)
          ∧ code = first ++ restCode) := by
  simp only [generateBody, bind_eq_ok, Prod.exists] at generated
  obtain ⟨first, between, middle, first', result⟩ := generated
  split at result
  · rename_i returns
    simp only [pure_eq_ok, Prod.mk.injEq] at result
    obtain ⟨rfl, rfl, rfl⟩ := result
    exact .inl ⟨returns, first'⟩
  · rename_i goesOn
    simp only [bind_eq_ok, pure_eq_ok, Prod.exists, Prod.mk.injEq] at result
    obtain ⟨restCode, _, _, rest', rfl, rfl, rfl⟩ := result
    exact .inr ⟨first, between, middle, restCode, Bool.eq_false_iff.mpr goesOn, first', rest', rfl⟩

end StackScript
