import StackScript.Proofs.Compile.FunctionTable
import StackScript.Proofs.Compile.Inventory

/-! Code that is generated or is not. What a tree asks for explains what comes of it: the tables
behind it hold what it asks for, or there is no room for it, or a node in it breaks a limit.
-/

namespace StackScript

open Generate

-----------------------------------------------------------------------------------------
-- Pieces of code
-----------------------------------------------------------------------------------------

open Inventory

variable {nodes : List Node}

/-- Entering a global fails only where the table is full without it. -/
theorem Symbols.global_explained (symbols : Symbols) (name : String)
    : Explains ⟨[name], [], []⟩ nodes symbols Prod.snd (symbols.global name) := by
  unfold global
  split
  · rename_i place found
    have known := Array.mem_of_getElem? (getElem?_of_idxOf? found)
    refine ⟨?_, rfl, rfl⟩
    rw [enterNames_singleton, if_pos (Array.mem_def.mp known)]
  · rename_i missing
    have new : name ∉ symbols.globals.toList :=
      fun member => Array.idxOf?_eq_none_iff.mp missing (Array.mem_def.mpr member)
    split
    · refine ⟨?_, rfl, rfl⟩
      rw [enterNames_singleton, if_neg new, Array.toList_push]
    · rename_i full
      refine .inl ⟨List.mem_singleton_self name, ?_⟩
      rw [enterNames_singleton, if_neg new, List.length_append, Array.length_toList,
        List.length_singleton]
      omega

theorem Symbols.addFunction_explained (symbols : Symbols) (function : Function)
    (literal : FunctionLiteral)
    : Explains ⟨[], [literal], []⟩ nodes symbols Prod.snd (symbols.addFunction function) := by
  unfold addFunction
  split
  · exact ⟨rfl, Array.size_push _, rfl⟩
  · rename_i full
    refine .inl (?_ : 255 < _)
    rw [List.length_singleton]
    omega

theorem StringTable.index_eq_none {table : StringTable} {text : String}
    (missing : table.index[text]? = none)
    : text ∉ table.entries := by
  intro member
  obtain ⟨place, found⟩ := Array.mem_iff_getElem?.mp member
  have known := (table.index_iff text place).mpr found
  rw [missing] at known
  cases known

theorem Symbols.intern_explained (symbols : Symbols) (locals : List String) (text : String)
    : Explains ⟨[], [], [.expression locals (.literal (.text text))]⟩ nodes symbols Prod.snd
        (symbols.intern text) := by
  unfold intern
  split
  · rename_i place known
    have found := (symbols.strings.index_iff text place).mp known
    refine ⟨rfl, rfl, ?_⟩
    exact (if_pos (Array.mem_def.mp (Array.mem_of_getElem? found))).symm
  · rename_i missing
    have new : text ∉ symbols.strings.entries.toList :=
      fun member => StringTable.index_eq_none missing (Array.mem_def.mpr member)
    split
    · refine ⟨rfl, rfl, ?_⟩
      exact Array.toList_push.trans (if_neg new).symm
    · rename_i full
      refine .inl (?_ : 65536 < (enterNames symbols.strings.entries.toList [text]).length)
      rw [enterNames_singleton, if_neg new, List.length_append, Array.length_toList,
        List.length_singleton]
      omega

theorem load_explained (name : String) (scope : Scope) (symbols : Symbols)
    : Explains ⟨mentionOf scope.names name, [], []⟩ nodes symbols Prod.snd
        (load name scope symbols) := by
  unfold load
  split
  · rename_i slot found
    rw [mentionOf_of_slot found]
    exact .empty symbols
  · rename_i missing
    rw [mentionOf_of_global missing]
    exact (symbols.global_explained name).andThen fun _ _ => .empty _

theorem store_explained (name : String) (scope : Scope) (symbols : Symbols)
    : Explains ⟨mentionOf scope.names name, [], []⟩ nodes symbols Prod.snd
        (store name scope symbols) := by
  unfold store
  split
  · rename_i slot found
    rw [mentionOf_of_slot found]
    exact .empty symbols
  · rename_i missing
    rw [mentionOf_of_global missing]
    exact (symbols.global_explained name).andThen fun _ _ => .empty _

/-- The jump of a node over so many bytes. -/
theorem jumpOver_explained {node : Node} {distance size : Nat} (when : Jump) (symbols : Symbols)
    (member : node ∈ nodes) (skips : node.Skips size) (same : distance = size)
    : Explains .empty nodes symbols (fun _ => symbols) (jumpOver when distance) := by
  unfold jumpOver
  split
  · exact .empty symbols
  · rename_i far
    exact .inr ⟨node, member, .jump (same ▸ skips) (by omega)⟩

/-- Only the text of a number is to blame where it means nothing. -/
theorem Literal.numeric_eq_error {text : String} {error : CompileError}
    (rejected : Literal.numeric text = .error error)
    : error = .longOutOfRange text ∨ error = .invalidLiteral text := by
  unfold numeric at rejected
  split at rejected
  · split at rejected
    · cases rejected
    · exact .inl (Except.error.inj rejected).symm
    · exact .inr (Except.error.inj rejected).symm
  · split at rejected
    · cases rejected
    · exact .inr (Except.error.inj rejected).symm

theorem literal_explained {value : Literal} {locals : List String} (symbols : Symbols)
    (member : .expression locals (.literal value) ∈ nodes)
    : Explains ⟨[], [], [.expression locals (.literal value)]⟩ nodes symbols Prod.snd
        (literal value symbols) := by
  cases value with
  | number digits =>
      have generated : literal (.number digits) symbols
          = Literal.numeric digits >>= fun constant => .ok ([.push constant], symbols) :=
        rfl
      rw [generated]
      cases read : Literal.numeric digits with
      | ok constant => exact ⟨rfl, rfl, rfl⟩
      | error error =>
          refine .inr ⟨_, member, ?_⟩
          rcases Literal.numeric_eq_error read with rfl | rfl
          · exact .range read
          · exact .malformed read
  | text content => exact (symbols.intern_explained locals content).andThen fun _ _ => .empty _
  | bool value => exact ⟨rfl, rfl, rfl⟩
  | null => exact ⟨rfl, rfl, rfl⟩

/-- Defining a name fails where the table of globals is full without it, or so many locals are
alive.
-/
theorem define_explained {span : Span} {name : String} {value : Option Expr} {scope : Scope}
    (symbols : Symbols)
    (member : .statement (scope.depth != 0) scope.names (.define span name value) ∈ nodes)
    : Explains ⟨if scope.depth != 0 then [] else [name], [], []⟩ nodes symbols
        (fun code => code.2.2) (define name scope symbols) := by
  unfold define
  by_cases outside : scope.depth = 0
  · rw [if_pos outside, outside]
    exact (symbols.global_explained name).andThen fun _ _ => .empty _
  · have inScope : (scope.depth != 0) = true := bne_iff_ne.mpr outside
    rw [inScope] at member
    rw [if_neg outside, if_pos inScope]
    unfold Scope.declare
    split
    · exact .empty symbols
    · rename_i full
      refine .inr ⟨_, member, .locals ?_⟩
      rw [List.length_cons, Scope.names, List.length_map]
      omega

theorem sideScope_names (scope : Scope) (side : Stmt)
    : (sideScope scope side).names = scope.names := by
  unfold sideScope
  split <;> rfl

theorem sideScope_inScope (scope : Scope) (side : Stmt)
    : ((sideScope scope side).depth != 0) = (scope.depth != 0) := by
  unfold sideScope
  split
  · rename_i needs
    have inside := (Bool.and_eq_true_iff.mp needs).1
    simp only [inside, Scope.enter, bne_iff_ne, ne_eq, Nat.succ_ne_zero, not_false_eq_true]
  · rfl

theorem Scope.WellNested.sideScope {scope : Scope} (nested : scope.WellNested) (side : Stmt)
    : (sideScope scope side).WellNested := by
  unfold Generate.sideScope
  split
  · exact nested.enter
  · exact nested

/-- The scope of a side of a branch, if it has one, can be closed behind it. -/
theorem exists_closeSide {side : Stmt} {scope inner : Scope} {symbols after : Symbols}
    {body : List Instruction} (nested : scope.WellNested)
    (generated : side.generate (sideScope scope side) symbols = .ok (body, inner, after))
    : ∃ code,
        closeSide scope side body inner = .ok (code, scope)
        ∧ SideGenerated side scope symbols code scope after := by
  have behind := Stmt.generate_scope generated (nested.sideScope side)
  by_cases needs : needsScope scope side = true
  · have opened : sideScope scope side = scope.enter := if_pos needs
    have closes : closeScope body inner
        = .ok (body ++ List.replicate (side.declares (scope.depth + 1)).length .pop, scope) := by
      rw [behind, opened]
      exact closeScope_eq body nested Stmt.declares_depth
    have closed : closeSide scope side body inner = _ := (if_pos needs).trans closes
    exact ⟨_, closed, .of_close generated closed⟩
  · have closed : closeSide scope side body inner = .ok (body, inner) := if_neg needs
    obtain rfl := (SideGenerated.of_close generated closed).scope nested
    exact ⟨body, closed, .of_close generated closed⟩

-----------------------------------------------------------------------------------------
-- Trees
-----------------------------------------------------------------------------------------

/-- One side of a branch, whose own scope can be closed behind it, if what it asks for explains
what comes of it.
-/
theorem Inventory.Explains.side {α : Type} {second : Inventory} {tables : α → Symbols}
    {side : Stmt} {scope : Scope} {symbols : Symbols}
    {next : List Instruction × Scope × Symbols → Except CompileError α}
    (explained
      : (sideScope scope side).WellNested
        → side.nodes ((sideScope scope side).depth != 0) (sideScope scope side).names ⊆ nodes
        → (side.inventory ((sideScope scope side).depth != 0)
            (sideScope scope side).names).Explains nodes symbols (fun code => code.2.2)
            (side.generate (sideScope scope side) symbols))
    (nested : scope.WellNested) (within : side.nodes (scope.depth != 0) scope.names ⊆ nodes)
    (back
      : ∀ {body code : List Instruction} {inner : Scope} {after : Symbols},
          closeSide scope side body inner = .ok (code, scope)
          → SideGenerated side scope symbols code scope after
          → second.Explains nodes after tables (next (body, inner, after)))
    : (side.inventory (scope.depth != 0) scope.names ++ second).Explains nodes symbols tables
        (side.generate (sideScope scope side) symbols >>= next) := by
  rw [sideScope_names, sideScope_inScope] at explained
  refine (explained (nested.sideScope side) within).bind fun ⟨body, inner, after⟩ generated => ?_
  obtain ⟨code, closed, side'⟩ := exists_closeSide nested generated
  exact back closed side'

-- The nodes of a tree lie within those of the script, where the one to blame is looked for. That
-- is why `nodes` stays the same along the induction.

mutual

/-- What an expression asks for explains what comes of it, by induction on the expression. -/
theorem Expr.generate_explained (expression : Expr) (scope : Scope) (symbols : Symbols)
    (within : expression.nodes scope.names ⊆ nodes)
    : (expression.inventory scope.names).Explains nodes symbols Prod.snd
        (expression.generate scope symbols) := by
  cases expression with
  | literal value => exact literal_explained symbols (within (List.mem_singleton_self _))
  | name name => exact (load_explained name scope symbols).node rfl
  | binary op left right =>
      obtain ⟨left', right'⟩ := List.append_subset.mp (List.cons_subset.mp within).2
      have operands
          : (left.inventory scope.names ++ right.inventory scope.names).Explains nodes symbols
              Prod.snd ((Expr.binary op left right).generate scope symbols) :=
        (Expr.generate_explained left scope symbols left').bind fun first _ =>
          (Expr.generate_explained right scope first.2 right').andThen fun _ _ => Fills.empty _
      exact operands.node rfl
  | logical op left right =>
      obtain ⟨here, inside⟩ := List.cons_subset.mp within
      obtain ⟨left', right'⟩ := List.append_subset.mp inside
      have operands
          : (left.inventory scope.names ++ right.inventory scope.names).Explains nodes symbols
              Prod.snd ((Expr.logical op left right).generate scope symbols) :=
        (Expr.generate_explained left scope symbols left').bind fun first _ =>
          (Expr.generate_explained right scope first.2 right').andThen fun _ generated =>
            have size := congrArg (1 + ·) (Expr.generate_size generated)
            (jumpOver_explained _ _ here .operand size).andThen fun _ _ => Fills.empty _
      exact operands.node rfl
  | assign name how value =>
      have value' := (List.cons_subset.mp within).2
      cases how with
      | set =>
          have stored
              : (value.inventory scope.names ++ ⟨mentionOf scope.names name, [], []⟩).Explains
                  nodes symbols Prod.snd ((Expr.assign name .set value).generate scope symbols) :=
            (Expr.generate_explained value scope symbols value').bind fun first _ =>
              (store_explained name scope first.2).andThen fun _ _ => Fills.empty _
          rw [append_names] at stored
          exact stored.node rfl
      | update op =>
          have stored
              : (⟨mentionOf scope.names name, [], []⟩ ++ (value.inventory scope.names
                  ++ ⟨mentionOf scope.names name, [], []⟩)).Explains
                  nodes symbols Prod.snd
                  ((Expr.assign name (.update op) value).generate scope symbols) :=
            (load_explained name scope symbols).bind fun first _ =>
              (Expr.generate_explained value scope first.2 value').bind fun second _ =>
                (store_explained name scope second.2).andThen fun _ _ => Fills.empty _
          rw [append_names] at stored
          exact stored.node rfl
  | call callee args =>
      obtain ⟨here, inside⟩ := List.cons_subset.mp within
      obtain ⟨callee', args'⟩ := List.append_subset.mp inside
      rw [Expr.generate]
      split
      · rename_i many
        exact .inr ⟨_, here, .arguments many⟩
      · refine Inventory.Explains.node
          (?_ : (callee.inventory scope.names ++ inventoryOfArgs scope.names args).Explains nodes
            symbols Prod.snd _) rfl
        exact (Expr.generate_explained callee scope symbols callee').bind fun first _ =>
          (generateArgs_explained args scope first.2 args').andThen fun _ _ => Fills.empty _
  | function params body =>
      obtain ⟨here, inside⟩ := List.cons_subset.mp within
      rw [Expr.generate]
      split
      · rename_i many
        exact .inr ⟨_, here, .parameters many⟩
      · rename_i few
        have nested := FunctionLiteral.scope_nested ⟨params, body⟩
        have names : (FunctionLiteral.scope ⟨params, body⟩).enter.names = params.reverse := by
          simp [Scope.names, Scope.enter, FunctionLiteral.scope, Function.comp_def]
        have own := generateBody_explained body _ symbols nested.enter (Nat.succ_ne_zero 1)
          (names ▸ inside)
        rw [names] at own
        refine .known (parameterScope_eq (Nat.not_lt.mp few)) (Explains.node
          (own.function ⟨params, body⟩ fun ⟨bodyCode, inner, after⟩ generated => ?_) rfl)
        obtain rfl := generateBody_scope generated nested.enter
        refine .known (closeScope_eq bodyCode nested declaredIn_depth) ?_
        exact (after.addFunction_explained _ _).andThen fun _ _ => Fills.empty _
termination_by structural expression

theorem generateArgs_explained (args : List Expr) (scope : Scope) (symbols : Symbols)
    (within : nodesOfArgs scope.names args ⊆ nodes)
    : (inventoryOfArgs scope.names args).Explains nodes symbols Prod.snd
        (generateArgs args scope symbols) := by
  cases args with
  | nil => exact Fills.empty symbols
  | cons arg rest =>
      obtain ⟨arg', rest'⟩ := List.append_subset.mp within
      have both
          : (arg.inventory scope.names ++ inventoryOfArgs scope.names rest).Explains nodes symbols
              Prod.snd (generateArgs (arg :: rest) scope symbols) :=
        (Expr.generate_explained arg scope symbols arg').bind fun first _ =>
          (generateArgs_explained rest scope first.2 rest').andThen fun _ _ => Fills.empty _
      exact both
termination_by structural args

/-- What a statement asks for explains what comes of it. -/
theorem Stmt.generate_explained (statement : Stmt) (scope : Scope) (symbols : Symbols)
    (nested : scope.WellNested)
    (within : statement.nodes (scope.depth != 0) scope.names ⊆ nodes)
    : (statement.inventory (scope.depth != 0) scope.names).Explains nodes symbols
        (fun code => code.2.2) (statement.generate scope symbols) := by
  cases statement with
  | block span body =>
      have body' := (List.cons_subset.mp within).2
      have closes
          : (inventoryOfBody scope.names body).Explains nodes symbols (fun code => code.2.2)
              ((Stmt.block span body).generate scope symbols) := by
        refine (generateBody_explained body scope.enter symbols nested.enter (Nat.succ_ne_zero _)
          body').andThen fun ⟨bodyCode, inner, after⟩ generated => ?_
        obtain rfl := generateBody_scope generated nested.enter
        exact .known (closeScope_eq bodyCode nested declaredIn_depth) (Fills.empty _)
      exact closes.node rfl
  | branch span condition yes no =>
      cases no with
      | none =>
          obtain ⟨here, inside⟩ := List.cons_subset.mp within
          obtain ⟨test', yes'⟩ := List.append_subset.mp inside
          have parts
              : (condition.inventory scope.names
                  ++ (yes.inventory (scope.depth != 0) scope.names ++ .empty)).Explains nodes
                  symbols (fun code => code.2.2)
                  ((Stmt.branch span condition yes none).generate scope symbols) :=
            (Expr.generate_explained condition scope symbols test').bind fun ⟨_, tested⟩ _ =>
              .side (Stmt.generate_explained yes _ tested) nested yes' fun closed side =>
                .known closed <|
                  (jumpOver_explained _ _ here .onlySide (side.size nested)).andThen fun _ _ =>
                    Fills.empty _
          rw [append_empty] at parts
          exact parts.node rfl
      | some no =>
          obtain ⟨here, inside⟩ := List.cons_subset.mp within
          obtain ⟨test', sides⟩ := List.append_subset.mp inside
          obtain ⟨yes', no'⟩ := List.append_subset.mp sides
          have parts
              : (condition.inventory scope.names
                  ++ (yes.inventory (scope.depth != 0) scope.names
                    ++ (no.inventory (scope.depth != 0) scope.names ++ .empty))).Explains nodes
                  symbols (fun code => code.2.2)
                  ((Stmt.branch span condition yes (some no)).generate scope symbols) := by
            refine (Expr.generate_explained condition scope symbols test').bind
              fun ⟨_, tested⟩ _ => ?_
            refine .side (Stmt.generate_explained yes _ tested) nested yes' fun closed side => ?_
            refine .known closed ?_
            have size := congrArg (· + if yes.alwaysReturns then 0 else 3) (side.size nested)
            refine .check (jumpOver_explained _ _ here .firstSide size) fun _ _ => ?_
            refine .side (Stmt.generate_explained no _ _) nested no' fun closed side => ?_
            refine .known closed ?_
            -- Only a side that goes on has a jump behind it.
            change Inventory.empty.Explains nodes _ _ (if yes.alwaysReturns then _ else _)
            split
            · exact Fills.empty _
            · rename_i goesOn
              refine .check ?_ fun _ _ => Fills.empty _
              exact jumpOver_explained _ _ here (.secondSide (Bool.eq_false_iff.mpr goesOn))
                (side.size nested)
          rw [append_empty] at parts
          exact parts.node rfl
  | ret span value =>
      cases value with
      | none =>
          have returned
              : Inventory.empty.Explains nodes symbols (fun code => code.2.2)
                  ((Stmt.ret span none).generate scope symbols) :=
            Fills.empty symbols
          exact returned.node rfl
      | some value =>
          have value' := (List.cons_subset.mp within).2
          have returned
              : (value.inventory scope.names).Explains nodes symbols (fun code => code.2.2)
                  ((Stmt.ret span (some value)).generate scope symbols) :=
            (Expr.generate_explained value scope symbols value').andThen fun _ _ => Fills.empty _
          exact returned.node rfl
  | define span name value =>
      cases value with
      | none =>
          have here := within (List.mem_singleton_self _)
          have defined
              : Explains ⟨if scope.depth != 0 then [] else [name], [], []⟩ nodes symbols
                  (fun code => code.2.2)
                  ((Stmt.define span name none).generate scope symbols) :=
            (define_explained symbols here).andThen fun _ _ => Fills.empty _
          exact defined.node rfl
      | some value =>
          obtain ⟨here, value'⟩ := List.cons_subset.mp within
          have defined
              : (value.inventory scope.names
                  ++ ⟨if scope.depth != 0 then [] else [name], [], []⟩).Explains nodes symbols
                  (fun code => code.2.2)
                  ((Stmt.define span name (some value)).generate scope symbols) :=
            (Expr.generate_explained value scope symbols value').bind fun first _ =>
              (define_explained first.2 here).andThen fun _ _ => Fills.empty _
          rw [append_names] at defined
          exact defined.node rfl
  | discard span value =>
      have value' := (List.cons_subset.mp within).2
      have discarded
          : (value.inventory scope.names).Explains nodes symbols (fun code => code.2.2)
              ((Stmt.discard span value).generate scope symbols) :=
        (Expr.generate_explained value scope symbols value').andThen fun _ _ => Fills.empty _
      exact discarded.node rfl
termination_by structural statement

/-- What the statements of a block ask for explains what comes of them. -/
theorem generateBody_explained (body : List Stmt) (scope : Scope) (symbols : Symbols)
    (nested : scope.WellNested) (inside : scope.depth ≠ 0)
    (within : nodesOfBody scope.names body ⊆ nodes)
    : (inventoryOfBody scope.names body).Explains nodes symbols (fun code => code.2.2)
        (generateBody body scope symbols) := by
  have inScope : (scope.depth != 0) = true := bne_iff_ne.mpr inside
  cases body with
  | nil => exact Fills.empty symbols
  | cons statement rest =>
      have first := Stmt.generate_explained statement scope symbols nested
      rw [inScope] at first
      by_cases returns : statement.alwaysReturns = true
      · have alone
            : inventoryOfBody scope.names (statement :: rest)
              = statement.inventory true scope.names := by
          simp only [inventoryOfBody, mentionsOfBody, literalsOfBody, nodesOfBody, if_pos returns,
            Stmt.inventory]
        rw [nodesOfBody, if_pos returns] at within
        rw [alone, generateBody]
        refine (first within).andThen fun ⟨code, outer, after⟩ _ => ?_
        -- The choice stands behind the match on the code, where `rw` does not see it.
        change Inventory.empty.Explains nodes _ _ (if statement.alwaysReturns then _ else _)
        rw [if_pos returns]
        exact Fills.empty _
      · have both
            : inventoryOfBody scope.names (statement :: rest)
              = statement.inventory true scope.names
                ++ inventoryOfBody (statement.localNames true ++ scope.names) rest := by
          simp only [inventoryOfBody, mentionsOfBody, literalsOfBody, nodesOfBody, if_neg returns,
            Stmt.inventory, mk_append]
        rw [nodesOfBody, if_neg returns] at within
        obtain ⟨statement', rest'⟩ := List.append_subset.mp within
        rw [both, generateBody]
        refine (first statement').bind fun ⟨code, outer, after⟩ generated => ?_
        obtain rfl := Stmt.generate_scope generated nested
        have names : (scope.extend (statement.declares scope.depth)).names
            = statement.localNames true ++ scope.names := by
          rw [← Stmt.declares_names statement inside]
          exact List.map_append
        have others := generateBody_explained rest _ after (nested.extend Stmt.declares_depth)
          inside (names ▸ rest')
        rw [names] at others
        change Inventory.Explains _ nodes _ _ (if statement.alwaysReturns then _ else _)
        rw [if_neg returns]
        exact others.andThen fun _ _ => Fills.empty _
termination_by structural body

end

end StackScript
