import StackScript.Proofs.Compile.Assembly

/-! Returns outside all blocks. Only branches stand between such a return and the main code, so
that its place in the main code follows from the code of what stands before it.
-/

namespace StackScript

open Generate

/-- In the code of a statement outside all scopes, the instruction of a return that is in no
scope either stands at the given offset.
-/
inductive Stmt.ReturnsAt : Stmt → Symbols → Nat → Prop
  | ret_none {span : Span} {symbols : Symbols}
    : ReturnsAt (.ret span none) symbols (codeLength [.push .null])
  | ret_some {span : Span} {value : Expr} {symbols after : Symbols} {code : List Instruction}
    (value' : value.generate Scope.root symbols = .ok (code, after))
    : ReturnsAt (.ret span (some value)) symbols (codeLength code)
  | yes {span : Span} {condition : Expr} {yes : Stmt} {no : Option Stmt}
    {symbols tested : Symbols} {testCode : List Instruction} {offset : Nat}
    (test : condition.generate Scope.root symbols = .ok (testCode, tested))
    (inside : ReturnsAt yes tested offset)
    : ReturnsAt (.branch span condition yes no) symbols (codeLength testCode + 3 + offset)
  | no {span : Span} {condition : Expr} {yes no : Stmt} {symbols tested middle : Symbols}
    {testCode yesCode : List Instruction} {offset : Nat}
    (test : condition.generate Scope.root symbols = .ok (testCode, tested))
    (yes' : yes.generate Scope.root tested = .ok (yesCode, Scope.root, middle))
    (inside : ReturnsAt no middle offset)
    : ReturnsAt (.branch span condition yes (some no)) symbols
        (codeLength testCode + 3 + (codeLength yesCode + if yes.alwaysReturns then 0 else 3)
          + offset)

/-- A return that is in no scope has its instruction at the given offset of the main code. -/
def Script.ReturnsAt (script : Script) (offset : Nat) : Prop :=
  ∃ before statement behind code symbols inner,
    script.statements = before ++ statement :: behind
    ∧ generateMain before .initial = .ok (code, symbols)
    ∧ Stmt.ReturnsAt statement symbols inner
    ∧ offset = codeLength code + inner

/-- Some code has a return at an offset, where the returned value alone is above the base. -/
def HasReturn (code : List Instruction) (offset : Nat) : Prop :=
  ∃ front rest,
    code = front ++ .ret :: rest ∧ codeLength front = offset ∧ heightBehind 0 front = 1

namespace HasReturn

variable {code : List Instruction} {offset : Nat}

theorem behind {front : List Instruction} (has : HasReturn code offset)
    (level : heightBehind 0 front = 0)
    : HasReturn (front ++ code) (codeLength front + offset) := by
  obtain ⟨before, rest, rfl, rfl, height⟩ := has
  refine ⟨front ++ before, rest, ?_, codeLength_append _ _, ?_⟩
  · rw [List.append_assoc]
  · rw [heightBehind_append, level, height]

theorem append (has : HasReturn code offset) (more : List Instruction)
    : HasReturn (code ++ more) offset := by
  obtain ⟨before, rest, rfl, length, height⟩ := has
  exact ⟨before, rest ++ more, List.append_assoc _ _ _, length, height⟩

end HasReturn

/-- A side of a branch outside all scopes is in no scope either. -/
theorem SideGenerated.of_root {side : Stmt} {outer : Scope} {symbols after : Symbols}
    {code : List Instruction}
    (generated : SideGenerated side Scope.root symbols code outer after)
    : side.generate Scope.root symbols = .ok (code, outer, after) := by
  cases generated with
  | own inside => exact absurd rfl inside
  | shared _ generated => exact generated

/-- The offset of a return is that of its instruction, by induction on the branches around
it.
-/
theorem Stmt.ReturnsAt.hasReturn {statement : Stmt} {symbols after : Symbols} {offset : Nat}
    {code : List Instruction} {outer : Scope} (returns : statement.ReturnsAt symbols offset)
    (generated : statement.generate Scope.root symbols = .ok (code, outer, after))
    : HasReturn code offset := by
  induction returns generalizing code outer after with
  | ret_none =>
      cases generated
      exact ⟨[.push .null], [], rfl, rfl, rfl⟩
  | ret_some value' =>
      obtain ⟨valueCode, value'', -, rfl⟩ := Stmt.generate_ret_some generated
      obtain ⟨rfl, rfl⟩ := Prod.mk.inj (Except.ok.inj (value'.symm.trans value''))
      exact ⟨_, [], rfl, rfl, (Expr.generate_levels value' (Nat.zero_le 0)).behind⟩
  | @yes span condition yes no symbols tested testCode offset test inside ih =>
      have level := (Expr.generate_levels test (Nat.zero_le 0)).behind
      have front : ∀ skip : UInt16, heightBehind 0 (testCode ++ [.jump .popFalsy skip]) = 0 := by
        intro skip
        rw [heightBehind_append, level]
        rfl
      have length : ∀ skip : UInt16,
          codeLength (testCode ++ [.jump .popFalsy skip]) = codeLength testCode + 3 :=
        fun skip => codeLength_append _ _
      cases no with
      | none =>
          obtain ⟨_, _, yesCode, skip, test', side, -, rfl⟩ := Stmt.generate_branch_none generated
          obtain ⟨rfl, rfl⟩ := Prod.mk.inj (Except.ok.inj (test.symm.trans test'))
          have has := (ih side.of_root).behind (front skip)
          rwa [length, List.append_assoc] at has
      | some no =>
          obtain ⟨_, _, yesCode, _, _, noCode, skip, test', side, -, result⟩ :=
            Stmt.generate_branch_some generated
          obtain ⟨rfl, rfl⟩ := Prod.mk.inj (Except.ok.inj (test.symm.trans test'))
          rcases result with ⟨-, -, rfl⟩ | ⟨beyond, -, -, -, rfl⟩
          · have has := ((ih side.of_root).append noCode).behind (front skip)
            rwa [length, List.append_assoc] at has
          · have has := ((ih side.of_root).append (.jump .always beyond :: noCode)).behind (front skip)
            rwa [length, List.append_assoc] at has
  | @no span condition yes no symbols tested middle testCode yesCode offset test yes' inside ih =>
      have level := (Expr.generate_levels test (Nat.zero_le 0)).behind
      have yesLevel : heightBehind 0 yesCode = 0 := (Stmt.generate_levels yes' .root).behind
      obtain ⟨_, _, _, between, _, noCode, skip, test', yesSide, noSide, result⟩ :=
        Stmt.generate_branch_some generated
      obtain ⟨rfl, rfl⟩ := Prod.mk.inj (Except.ok.inj (test.symm.trans test'))
      have same := yesSide.scope .root
      subst same
      obtain ⟨rfl, -, rfl⟩ := Prod.mk.inj (Except.ok.inj (yes'.symm.trans yesSide.of_root))
      have has := ih noSide.of_root
      rcases result with ⟨returns, -, rfl⟩ | ⟨beyond, goesOn, -, -, rfl⟩
      · have front : heightBehind 0 (testCode ++ .jump .popFalsy skip :: yesCode) = 0 := by
          rw [heightBehind_append, level]
          exact yesLevel
        have placed := has.behind front
        simp only [codeLength_append, codeLength_cons, List.append_assoc, List.cons_append]
          at placed
        rw [if_pos returns, Nat.add_zero, Nat.add_assoc (codeLength testCode)]
        exact placed
      · have front
            : heightBehind 0 (testCode ++ .jump .popFalsy skip :: (yesCode ++ [.jump .always beyond]))
              = 0 := by
          rw [heightBehind_append, level, heightBehind_cons, heightBehind_append]
          exact yesLevel
        have placed := has.behind front
        simp only [codeLength_append, codeLength_cons, List.append_assoc, List.cons_append]
          at placed
        rw [goesOn, Nat.add_assoc (codeLength testCode)]
        exact placed

/-- The main code of a script has its returns outside all blocks where they are said to be. -/
theorem Script.ReturnsAt.hasReturn {script : Script} {main : List Instruction}
    {symbols : Symbols} {program : Program} {offset : Nat} (returns : script.ReturnsAt offset)
    (assembles : script.Assembles main symbols program)
    : HasReturn main offset := by
  obtain ⟨before, statement, behind, code, entered, inner, split, front, returns, rfl⟩ := returns
  have generated := assembles.generated
  rw [split] at generated
  obtain ⟨_, _, rest, front', rest', rfl⟩ := generateMain_split generated
  obtain ⟨rfl, rfl⟩ := Prod.mk.inj (Except.ok.inj (front.symm.trans front'))
  obtain ⟨first, _, more, first', -, rfl⟩ := generateMain_cons rest'
  exact ((returns.hasReturn first').append more).behind (generateMain_levels front).behind

end StackScript
