import StackScript.Proofs.Bytecode.Placement
import StackScript.Proofs.Compile.Generation

/-! Writing and generating code come to the same. The bytes that are written for a tree, with
the distances of jumps filled in behind the code that they skip, are those of the
instructions that are generated for it, and both fail alike.
-/

namespace StackScript

/-- What follows an action matters for its result alone. -/
theorem bind_congr_of_ok {ε α β : Type} {x : Except ε α} {first second : α → Except ε β}
    (same : ∀ value, x = .ok value → first value = second value)
    : x >>= first = x >>= second := by
  cases x with
  | error error => rfl
  | ok value => exact same value rfl

-----------------------------------------------------------------------------------------
-- Bodies
-----------------------------------------------------------------------------------------

namespace Body

theorem eq_of_toList {body other : Body} (code : body.code.toList = other.code.toList)
    (scope : body.scope = other.scope)
    : body = other := by
  rcases body with ⟨⟨code⟩, scope⟩
  rcases other with ⟨⟨other⟩, _⟩
  cases code
  cases scope
  rfl

theorem toList_emit (body : Body) (bytes : List UInt8)
    : (body.emit bytes).code.toList = body.code.toList ++ bytes :=
  Array.toList_appendList

theorem emit_emit (body : Body) (front back : List UInt8)
    : (body.emit front).emit back = body.emit (front ++ back) := by
  refine eq_of_toList ?_ rfl
  simp only [toList_emit, List.append_assoc]

theorem toList_emitCode (body : Body) (code : List Instruction)
    : (body.emitCode code).code.toList = body.code.toList ++ encodeAll code :=
  body.toList_emit _

@[simp] theorem emitCode_nil (body : Body) : body.emitCode [] = body := by
  refine eq_of_toList ?_ rfl
  rw [toList_emitCode]
  exact List.append_nil _

@[simp] theorem emitCode_emitCode (body : Body) (front back : List Instruction)
    : (body.emitCode front).emitCode back = body.emitCode (front ++ back) := by
  simp only [emitCode, emit_emit, encodeAll_append]

@[simp] theorem scope_emitCode (body : Body) (code : List Instruction)
    : (body.emitCode code).scope = body.scope :=
  rfl

@[simp] theorem withScope_emitCode (body : Body) (code : List Instruction) (scope : Scope)
    : { body.emitCode code with scope := scope } = { body with scope := scope }.emitCode code :=
  rfl

@[simp] theorem size_emitCode (body : Body) (code : List Instruction)
    : (body.emitCode code).code.size = body.code.size + codeLength code := by
  rw [← Array.length_toList, toList_emitCode, List.length_append, Array.length_toList,
    length_encodeAll]

theorem emit_encode (body : Body) (instruction : Instruction)
    : body.emit instruction.encode = body.emitCode [instruction] :=
  congrArg body.emit (List.append_nil _).symm

theorem emitConstant_eq (body : Body) (value : Constant)
    : body.emitConstant value = body.emitCode [.push value] := by
  rw [emitConstant, emitPush, emit_emit, ← emit_encode]
  rfl

theorem emitPush_null (body : Body) : body.emitPush .null = body.emitCode [.push .null] :=
  body.emitConstant_eq .null

/-- An opcode without an operand is an instruction. -/
theorem emitOpcode_eq (body : Body) (instruction : Instruction)
    (bare : instruction.item.operand = .none)
    : body.emitOpcode instruction.opcode = body.emitCode [instruction] := by
  rw [← emit_encode, Instruction.encode, CodeItem.encode, bare]
  rfl

/-- An opcode with an operand of one byte is an instruction. -/
theorem emitWithByte_eq (body : Body) (instruction : Instruction) {operand : UInt8}
    (single : instruction.item.operand = .byte operand)
    : body.emitWithByte instruction.opcode operand = body.emitCode [instruction] := by
  rw [emitWithByte, emitOpcode, emit_emit, ← emit_encode, Instruction.encode, CodeItem.encode,
    single]
  rfl

/-- A jump is written with the greatest distance at first. -/
theorem emitJump_eq (body : Body) (when : Jump)
    : body.emitJump (.jump when) = (body.code.size + 1, body.emitCode [.jump when 65535]) :=
  rfl

theorem encodeAll_jump {when : Jump} {distance : Nat} (fits : distance < 65536)
    (rest : List Instruction)
    : encodeAll (.jump when (UInt16.ofNat distance) :: rest)
      = (Opcode.jump when).byte
        :: UInt8.ofNat (distance % 256) :: UInt8.ofNat (distance / 256) :: encodeAll rest := by
  have exact : (UInt16.ofNat distance).toNat = distance := UInt16.toNat_ofNat_of_lt fits
  have high : distance / 256 % 256 = distance / 256 :=
    Nat.mod_eq_of_lt (Nat.div_lt_of_lt_mul fits)
  change (Opcode.jump when).byte :: (littleEndian 2 _ ++ encodeAll rest) = _
  simp only [littleEndian, exact, high, List.cons_append, List.nil_append]

/-- The distance of a jump is filled in when all the code that it skips is there. -/
theorem patchJump_emitCode (body : Body) (when : Jump) (front skipped : List Instruction)
    {place : Nat} (here : place = body.code.size + codeLength front + 1)
    : (body.emitCode (front ++ .jump when 65535 :: skipped)).patchJump place
      = (fun skip => body.emitCode (front ++ skip :: skipped))
        <$> Generate.jumpOver when (codeLength skipped) := by
  subst here
  have distance : (body.emitCode (front ++ .jump when 65535 :: skipped)).code.size
      - (body.code.size + codeLength front + 1 + 2) = codeLength skipped := by
    have three : (Instruction.jump when 65535).length = 3 := rfl
    simp only [size_emitCode, codeLength_append, codeLength_cons, three]
    omega
  unfold patchJump Generate.jumpOver
  simp only [distance]
  split
  · rename_i fits
    have bytes : ∀ jump rest, (body.emitCode (front ++ jump :: rest)).code.toList
        = (body.code.toList ++ encodeAll front) ++ encodeAll (jump :: rest) := by
      intro jump rest
      rw [toList_emitCode, encodeAll_append, List.append_assoc]
    have size : body.code.size + codeLength front
        = (body.code.toList ++ encodeAll front).length := by
      rw [List.length_append, Array.length_toList, length_encodeAll]
    have unknown : encodeAll (.jump when 65535 :: skipped)
        = (Opcode.jump when).byte :: 255 :: 255 :: encodeAll skipped :=
      rfl
    refine congrArg Except.ok (eq_of_toList ?_ rfl)
    rw [Array.toList_setIfInBounds, Array.toList_setIfInBounds, bytes, bytes, size,
      List.set_append_right _ _ (Nat.le_add_right _ _), Nat.add_sub_cancel_left,
      List.set_append_right _ _ (by omega), Nat.add_assoc, Nat.add_sub_cancel_left,
      unknown, encodeAll_jump fits]
    rfl
  · rfl

/-- A body behind more code. -/
def extend (body : Body) (generated : List Instruction × Symbols) : Body × Symbols :=
  (body.emitCode generated.1, generated.2)

@[simp] theorem extend_mk (body : Body) (code : List Instruction) (symbols : Symbols)
    : body.extend (code, symbols) = (body.emitCode code, symbols) :=
  rfl

/-- A body behind more code that ends in another scope. -/
def extendIn (body : Body) (generated : List Instruction × Scope × Symbols) : Body × Symbols :=
  ({ body with scope := generated.2.1 }.emitCode generated.1, generated.2.2)

@[simp] theorem extendIn_mk (body : Body) (code : List Instruction) (scope : Scope)
    (symbols : Symbols)
    : body.extendIn (code, scope, symbols)
      = ({ body with scope := scope }.emitCode code, symbols) :=
  rfl

end Body

-----------------------------------------------------------------------------------------
-- Pieces of code
-----------------------------------------------------------------------------------------

namespace Write

theorem access_eq (toLocal toGlobal : Access) (name : String) (body : Body) (symbols : Symbols)
    : access toLocal toGlobal name body symbols
      = body.extend
        <$> match body.scope.slot? name with
          | some slot => .ok ([.access toLocal slot], symbols)
          | none => do
              let (slot, symbols) ← symbols.global name
              return ([.access toGlobal slot], symbols) := by
  have written : ∀ what slot, body.emitWithByte (.access what) slot
      = body.emitCode [.access what slot] :=
    fun what slot => body.emitWithByte_eq (.access what slot) rfl
  unfold access
  simp only [written]
  cases body.scope.slot? name with
  | some slot => rfl
  | none =>
      simp only [map_bind]
      rfl

theorem load_eq (name : String) (body : Body) (symbols : Symbols)
    : load name body symbols = body.extend <$> Generate.load name body.scope symbols :=
  access_eq _ _ _ _ _

theorem store_eq (name : String) (body : Body) (symbols : Symbols)
    : store name body symbols = body.extend <$> Generate.store name body.scope symbols :=
  access_eq _ _ _ _ _

theorem literal_eq (value : Literal) (body : Body) (symbols : Symbols)
    : literal value body symbols = body.extend <$> Generate.literal value symbols := by
  cases value with
  | number digits =>
      simp only [literal, Generate.literal, Body.emitConstant_eq, map_bind]
      rfl
  | text content =>
      simp only [literal, Generate.literal, Body.emitConstant_eq, map_bind]
      rfl
  | bool value =>
      rw [literal, Body.emitConstant_eq]
      rfl
  | null =>
      rw [literal, Body.emitConstant_eq]
      rfl

theorem define_eq (name : String) (body : Body) (symbols : Symbols)
    : define name body symbols = body.extendIn <$> Generate.define name body.scope symbols := by
  have pop : ∀ body : Body, body.emitOpcode .pop = body.emitCode [.pop] :=
    fun body => body.emitOpcode_eq .pop rfl
  have set : ∀ slot, body.emitWithByte (.access .setGlobal) slot
      = body.emitCode [.access .setGlobal slot] :=
    fun slot => body.emitWithByte_eq (.access .setGlobal slot) rfl
  unfold define Generate.define
  split
  · simp only [set, pop, map_bind, Body.emitCode_emitCode]
    rfl
  · simp only [Body.declare, map_bind, bind_assoc, pure_bind]
    refine bind_congr fun ⟨slot, scope⟩ => ?_
    simp [Body.extendIn]

theorem parameters_eq (params : List String)
    : parameters params = (fun scope => ⟨#[], scope⟩) <$> Generate.parameterScope params := by
  have step : ∀ scope, params.foldlM (fun body name => (body.declare name).map Prod.snd)
        (⟨#[], scope⟩ : Body)
      = (fun scope => ⟨#[], scope⟩)
        <$> params.foldlM (fun (scope : Scope) name => (scope.declare name).map Prod.snd)
          scope := by
    induction params with
    | nil => exact fun _ => rfl
    | cons name rest ih =>
        intro scope
        rw [List.foldlM_cons, List.foldlM_cons, map_bind]
        simp only [Body.declare]
        cases scope.declare name with
        | error error => rfl
        | ok declared => exact ih declared.2
  exact step _

/-- Closing a scope adds the instructions that take its locals off the stack. -/
theorem closeScope_eq (body : Body) (code : List Instruction)
    : closeScope (body.emitCode code)
      = (fun closed => { body with scope := closed.2 }.emitCode closed.1)
        <$> Generate.closeScope code body.scope := by
  simp only [closeScope, Body.leaveScope, Generate.closeScope, Body.scope_emitCode]
  cases body.scope.leave with
  | error error => rfl
  | ok left =>
      refine congrArg Except.ok ?_
      simp only [Body.withScope_emitCode, Body.emitCode_emitCode]

@[simp] theorem scope_openSide (side : Stmt) (body : Body)
    : (openSide side body).scope = Generate.sideScope body.scope side := by
  unfold openSide Generate.sideScope
  split <;> rfl

@[simp] theorem withScope_openSide (side : Stmt) (body : Body) (scope : Scope)
    : { openSide side body with scope := scope } = { body with scope := scope } := by
  unfold openSide
  split <;> rfl

/-- Closing the scope of a side of a branch leaves the code in front of the side as it is. -/
theorem closeSide_eq (outer : Scope) (side : Stmt) (body : Body) (front code : List Instruction)
    : closeSide outer side (body.emitCode (front ++ code))
      = (fun closed => { body with scope := closed.2 }.emitCode (front ++ closed.1))
        <$> Generate.closeSide outer side code body.scope := by
  unfold closeSide Generate.closeSide
  split
  · rw [closeScope_eq]
    unfold Generate.closeScope
    cases body.scope.leave with
    | error error => rfl
    | ok left =>
        refine congrArg Except.ok ?_
        simp only [List.append_assoc]
  · rfl

theorem epilogue_eq (statements : List Stmt) (body : Body)
    : epilogue statements body = body.emitCode (Generate.epilogue statements) := by
  have ret : ∀ body : Body, body.emitOpcode .ret = body.emitCode [.ret] :=
    fun body => body.emitOpcode_eq .ret rfl
  unfold epilogue Generate.epilogue
  split
  · rw [Body.emitCode_nil]
  · rw [Body.emitPush_null, ret, Body.emitCode_emitCode]
    rfl

theorem toFunction_eq (scope : Scope) (code : List Instruction) (arity : UInt8)
    (symbols : Symbols)
    : (Body.emitCode ⟨#[], scope⟩ code).toFunction arity symbols
      = symbols.addFunction ⟨arity, (encodeAll code).toArray⟩ := by
  have bytes : (Body.emitCode ⟨#[], scope⟩ code).code = (encodeAll code).toArray :=
    Array.toList_inj.mp (Body.toList_emitCode _ _)
  rw [Body.toFunction, bytes]

end Write

-----------------------------------------------------------------------------------------
-- Trees
-----------------------------------------------------------------------------------------

@[simp] theorem Body.emitOpcode_pop (body : Body) : body.emitOpcode .pop = body.emitCode [.pop] :=
  body.emitOpcode_eq .pop rfl

@[simp] theorem Body.emitOpcode_ret (body : Body) : body.emitOpcode .ret = body.emitCode [.ret] :=
  body.emitOpcode_eq .ret rfl

@[simp] theorem Body.emitOpcode_operate (body : Body) (op : Operator)
    : body.emitOpcode (.operate op) = body.emitCode [.operate op] :=
  body.emitOpcode_eq (.operate op) rfl

@[simp] theorem Body.emitWithByte_call (body : Body) (argCount : UInt8)
    : body.emitWithByte .call argCount = body.emitCode [.call argCount] :=
  body.emitWithByte_eq (.call argCount) rfl

attribute [simp] Body.emitConstant_eq Body.emitPush_null Body.emitJump_eq

mutual

/-- Writing an expression adds the instructions that are generated for it, by induction on the
expression.
-/
theorem Expr.write_eq (expression : Expr) (body : Body) (symbols : Symbols)
    : expression.write body symbols
      = body.extend <$> expression.generate body.scope symbols := by
  cases expression with
  | literal value => exact Write.literal_eq value body symbols
  | name name => exact Write.load_eq name body symbols
  | binary op left right =>
      simp only [Expr.write, Expr.generate, Expr.write_eq left, bind_map_left, map_bind]
      refine bind_congr fun ⟨leftCode, symbols⟩ => ?_
      simp only [Body.extend_mk, Expr.write_eq right, Body.scope_emitCode, bind_map_left]
      refine bind_congr fun ⟨rightCode, symbols⟩ => ?_
      simp
  | logical op left right =>
      simp only [Expr.write, Expr.generate, Expr.write_eq left, bind_map_left, map_bind]
      refine bind_congr fun ⟨leftCode, symbols⟩ => ?_
      simp only [Body.extend_mk, Body.emitJump_eq, Body.emitOpcode_pop, Body.emitCode_emitCode,
        Expr.write_eq right, Body.scope_emitCode, bind_map_left]
      refine bind_congr fun ⟨rightCode, symbols⟩ => ?_
      have skipped : codeLength (.pop :: rightCode) = 1 + codeLength rightCode := rfl
      simp only [Body.extend_mk, Body.emitCode_emitCode, List.append_assoc, List.cons_append,
        List.nil_append]
      rw [Body.patchJump_emitCode _ _ _ _ (by rw [Body.size_emitCode]), skipped, bind_map_left]
      refine bind_congr fun skip => ?_
      simp
  | assign name how value =>
      cases how with
      | set =>
          simp only [Expr.write, Expr.generate, Expr.write_eq value, bind_map_left, map_bind]
          refine bind_congr fun ⟨valueCode, symbols⟩ => ?_
          simp only [Body.extend_mk, Write.store_eq, Body.scope_emitCode, map_eq_pure_bind]
          refine bind_congr fun ⟨storeCode, symbols⟩ => ?_
          simp
      | update op =>
          simp only [Expr.write, Expr.generate, Write.load_eq, bind_map_left, map_bind]
          refine bind_congr fun ⟨loadCode, symbols⟩ => ?_
          simp only [Body.extend_mk, Expr.write_eq value, Body.scope_emitCode, bind_map_left]
          refine bind_congr fun ⟨valueCode, symbols⟩ => ?_
          simp only [Body.extend_mk, Body.emitOpcode_operate, Body.emitCode_emitCode,
            Write.store_eq, Body.scope_emitCode, map_eq_pure_bind]
          refine bind_congr fun ⟨storeCode, symbols⟩ => ?_
          simp
  | call callee args =>
      unfold Expr.write Expr.generate
      split
      · rfl
      simp only [Expr.write_eq callee, bind_map_left, map_bind]
      refine bind_congr fun ⟨calleeCode, symbols⟩ => ?_
      simp only [Body.extend_mk, writeArgs_eq args, Body.scope_emitCode, bind_map_left]
      refine bind_congr fun ⟨argsCode, symbols⟩ => ?_
      simp
  | function params statements =>
      unfold Expr.write Expr.generate
      split
      · rfl
      simp only [Write.parameters_eq, bind_map_left, map_bind]
      refine bind_congr fun scope => ?_
      simp only [writeStatements_eq statements, bind_map_left]
      refine bind_congr fun ⟨bodyCode, inner, symbols⟩ => ?_
      simp only [Body.extendIn_mk, Write.closeScope_eq, bind_map_left]
      refine bind_congr fun ⟨closed, outer⟩ => ?_
      simp only [Body.enterScope, Write.epilogue_eq, Body.emitCode_emitCode, Write.toFunction_eq]
      refine bind_congr fun ⟨id, symbols⟩ => ?_
      simp
termination_by structural expression

theorem writeArgs_eq (args : List Expr) (body : Body) (symbols : Symbols)
    : writeArgs args body symbols = body.extend <$> generateArgs args body.scope symbols := by
  cases args with
  | nil =>
      rw [writeArgs, generateArgs, ← body.emitCode_nil]
      rfl
  | cons arg rest =>
      simp only [writeArgs, generateArgs, Expr.write_eq arg, bind_map_left, map_bind]
      refine bind_congr fun ⟨argCode, symbols⟩ => ?_
      simp only [Body.extend_mk, writeArgs_eq rest, Body.scope_emitCode, map_eq_pure_bind]
      refine bind_congr fun ⟨restCode, symbols⟩ => ?_
      simp
termination_by structural args

theorem Stmt.write_eq (statement : Stmt) (body : Body) (symbols : Symbols)
    : statement.write body symbols
      = body.extendIn <$> statement.generate body.scope symbols := by
  cases statement with
  | block span statements =>
      simp only [Stmt.write, Stmt.generate, writeStatements_eq statements, bind_map_left, map_bind]
      refine bind_congr fun ⟨bodyCode, inner, symbols⟩ => ?_
      simp only [Body.extendIn_mk, Write.closeScope_eq, bind_map_left]
      refine bind_congr fun ⟨closed, outer⟩ => ?_
      rfl
  | branch span condition yes no =>
      cases no with
      | none =>
          simp only [Stmt.write, Stmt.generate, Expr.write_eq condition, bind_map_left, map_bind]
          refine bind_congr fun ⟨testCode, symbols⟩ => ?_
          simp only [Body.extend_mk, Body.emitJump_eq, Body.emitCode_emitCode, Stmt.write_eq yes,
            Write.scope_openSide, Body.scope_emitCode, bind_map_left]
          refine bind_congr fun ⟨sideCode, inner, symbols⟩ => ?_
          simp only [Body.extendIn_mk, Write.withScope_openSide, Body.withScope_emitCode,
            Body.emitCode_emitCode, Write.closeSide_eq, bind_map_left]
          refine bind_congr fun ⟨yesCode, outer⟩ => ?_
          simp only [List.append_assoc, List.cons_append, List.nil_append]
          rw [Body.patchJump_emitCode _ _ _ _ (by rw [Body.size_emitCode]), bind_map_left]
          refine bind_congr fun skip => ?_
          rfl
      | some no =>
          simp only [Stmt.write, Stmt.generate, Expr.write_eq condition, bind_map_left, map_bind]
          refine bind_congr fun ⟨testCode, symbols⟩ => ?_
          simp only [Body.extend_mk, Body.emitJump_eq, Body.emitCode_emitCode, Stmt.write_eq yes,
            Write.scope_openSide, Body.scope_emitCode, bind_map_left]
          refine bind_congr fun ⟨sideCode, inner, symbols⟩ => ?_
          simp only [Body.extendIn_mk, Write.withScope_openSide, Body.withScope_emitCode,
            Body.emitCode_emitCode, Write.closeSide_eq, bind_map_left]
          refine bind_congr fun ⟨yesCode, between⟩ => ?_
          split
          · simp only [List.append_assoc, List.cons_append, List.nil_append]
            rw [Body.patchJump_emitCode _ _ _ _ (by rw [Body.size_emitCode]), bind_map_left]
            refine bind_congr fun skip => ?_
            simp only [Stmt.write_eq no, Write.scope_openSide, Body.scope_emitCode, bind_map_left]
            refine bind_congr fun ⟨sideCode, inner, symbols⟩ => ?_
            simp only [Body.extendIn_mk, Write.withScope_openSide, Body.withScope_emitCode,
              Body.emitCode_emitCode, Write.closeSide_eq, bind_map_left]
            refine bind_congr fun ⟨noCode, outer⟩ => ?_
            simp
          · have skipped : codeLength (yesCode ++ [.jump .always 65535])
                = codeLength yesCode + 3 := by
              rw [codeLength_append]
              rfl
            simp only [List.append_assoc, List.cons_append, List.nil_append]
            rw [Body.patchJump_emitCode _ _ _ _ (by rw [Body.size_emitCode]), skipped,
              bind_map_left]
            refine bind_congr_of_ok fun skipYes placed => ?_
            obtain ⟨distance, -, rfl⟩ := jumpOver_eq_ok placed
            simp only [Stmt.write_eq no, Write.scope_openSide, Body.scope_emitCode, bind_map_left]
            refine bind_congr fun ⟨sideCode, inner, symbols⟩ => ?_
            simp only [Body.extendIn_mk, Write.withScope_openSide, Body.withScope_emitCode,
              Body.emitCode_emitCode, Write.closeSide_eq, bind_map_left]
            refine bind_congr fun ⟨noCode, outer⟩ => ?_
            -- The first jump is there by now, and is as long as the one that stood for it.
            have front : testCode ++ Instruction.jump .popFalsy distance
                  :: (yesCode ++ [Instruction.jump .always 65535]) ++ noCode
                = (testCode ++ Instruction.jump .popFalsy distance :: yesCode)
                  ++ Instruction.jump .always 65535 :: noCode := by
              simp
            have place : ({ body with scope := between }.emitCode
                  (testCode ++ Instruction.jump .popFalsy 65535 :: yesCode)).code.size + 1
                = body.code.size
                  + codeLength (testCode ++ Instruction.jump .popFalsy distance :: yesCode)
                  + 1 := by
              simp only [Body.size_emitCode, codeLength_append, codeLength_cons]
              rfl
            rw [front, Body.patchJump_emitCode { body with scope := outer } _ _ _ place,
              bind_map_left, map_bind]
            refine bind_congr fun skipNo => ?_
            simp
  | ret span value =>
      cases value with
      | none =>
          simp only [Stmt.write, Stmt.generate, Body.emitPush_null, Body.emitOpcode_ret,
            Body.emitCode_emitCode]
          rfl
      | some value =>
          simp only [Stmt.write, Stmt.generate, Expr.write_eq value, bind_map_left, map_bind]
          refine bind_congr fun ⟨valueCode, symbols⟩ => ?_
          simp
  | define span name value =>
      cases value with
      | none =>
          simp only [Stmt.write, Stmt.generate, Body.emitPush_null, Write.define_eq,
            Body.scope_emitCode, map_eq_pure_bind, bind_assoc]
          refine bind_congr fun ⟨defineCode, outer, symbols⟩ => ?_
          simp
      | some value =>
          simp only [Stmt.write, Stmt.generate, Expr.write_eq value, bind_map_left, map_bind]
          refine bind_congr fun ⟨valueCode, symbols⟩ => ?_
          simp only [Body.extend_mk, Write.define_eq, Body.scope_emitCode, map_eq_pure_bind]
          refine bind_congr fun ⟨defineCode, outer, symbols⟩ => ?_
          simp
  | discard span value =>
      simp only [Stmt.write, Stmt.generate, Expr.write_eq value, bind_map_left, map_bind]
      refine bind_congr fun ⟨valueCode, symbols⟩ => ?_
      simp
termination_by structural statement

theorem writeStatements_eq (statements : List Stmt) (body : Body) (symbols : Symbols)
    : writeStatements statements body symbols
      = body.extendIn <$> generateBody statements body.scope symbols := by
  cases statements with
  | nil =>
      rw [writeStatements, generateBody, ← body.emitCode_nil]
      rfl
  | cons statement rest =>
      simp only [writeStatements, generateBody, Stmt.write_eq statement, bind_map_left, map_bind]
      refine bind_congr fun ⟨firstCode, between, symbols⟩ => ?_
      split
      · rfl
      · simp only [Body.extendIn_mk, writeStatements_eq rest, Body.scope_emitCode,
          map_eq_pure_bind, bind_assoc, pure_bind]
        refine bind_congr fun ⟨restCode, outer, symbols⟩ => ?_
        simp
termination_by structural statements

end
end StackScript
