import StackScript.Proofs.Compile.Limits

/-! What trees ask for while code is generated: entries in the tables, and code for their nodes.
The tables behind a tree hold what the tree asks for; where there is no room for it, generating
fails. Laws for actions one after another carry this from nodes to trees.
-/

namespace StackScript

-----------------------------------------------------------------------------------------
-- What trees ask for
-----------------------------------------------------------------------------------------

/-- What a tree asks for: entries in the tables, and code for its nodes. -/
structure Inventory where
  mentions : List String
  literals : List FunctionLiteral
  nodes : List Node

namespace Inventory

instance : Append Inventory where
  append first second :=
    ⟨first.mentions ++ second.mentions, first.literals ++ second.literals,
      first.nodes ++ second.nodes⟩

@[simp] theorem mk_append (mentions mentions' : List String)
    (literals literals' : List FunctionLiteral) (nodes nodes' : List Node)
    : (⟨mentions, literals, nodes⟩ ++ ⟨mentions', literals', nodes'⟩ : Inventory)
      = ⟨mentions ++ mentions', literals ++ literals', nodes ++ nodes'⟩ :=
  rfl

/-- Nothing at all. -/
def empty : Inventory := ⟨[], [], []⟩

/-- The texts that have to be in the string table. -/
def texts (inventory : Inventory) : List String :=
  inventory.nodes.filterMap Node.text?

theorem texts_append (first second : Inventory)
    : (first ++ second).texts = first.texts ++ second.texts :=
  List.filterMap_append

theorem append_empty (inventory : Inventory) : inventory ++ empty = inventory := by
  change (⟨_ ++ [], _ ++ [], _ ++ []⟩ : Inventory) = inventory
  simp only [List.append_nil]

theorem append_names (inventory : Inventory) (names : List String)
    : inventory ++ ⟨names, [], []⟩
      = ⟨inventory.mentions ++ names, inventory.literals, inventory.nodes⟩ := by
  change (⟨_ ++ names, _ ++ [], _ ++ []⟩ : Inventory) = _
  simp only [List.append_nil]

theorem append_function (inventory : Inventory) (literal : FunctionLiteral)
    : inventory ++ ⟨[], [literal], []⟩
      = ⟨inventory.mentions, inventory.literals ++ [literal], inventory.nodes⟩ := by
  change (⟨_ ++ [], _ ++ [literal], _ ++ []⟩ : Inventory) = _
  simp only [List.append_nil]

/-- The tables have grown by the entries that were asked for. -/
structure Fills (inventory : Inventory) (before after : Symbols) : Prop where
  globals : after.globals.toList = enterNames before.globals.toList inventory.mentions
  functions : after.functions.size = before.functions.size + inventory.literals.length
  strings
    : after.strings.entries.toList
      = enterNames before.strings.entries.toList inventory.texts

/-- The tables have no room for the entries that are asked for. -/
def Exceeds (inventory : Inventory) (before : Symbols) : CompileError → Prop
  | .tooManyGlobals name =>
      name ∈ inventory.mentions
      ∧ 255 < (enterNames before.globals.toList inventory.mentions).length
  | .tooManyFunctions => 255 < before.functions.size + inventory.literals.length
  | .tooManyStrings =>
      65536 < (enterNames before.strings.entries.toList inventory.texts).length
  | _ => False

variable {first second : Inventory} {before middle after : Symbols}

theorem Fills.empty (symbols : Symbols) : Inventory.empty.Fills symbols symbols :=
  ⟨rfl, rfl, rfl⟩

theorem Fills.append (front : first.Fills before middle) (back : second.Fills middle after)
    : (first ++ second).Fills before after where
  globals := by
    rw [back.globals, front.globals, ← enterNames_append]
    rfl
  functions := by
    rw [back.functions, front.functions, Nat.add_assoc]
    exact congrArg _ List.length_append.symm
  strings := by rw [back.strings, front.strings, texts_append, enterNames_append]

/-- What is asked for later cannot help. -/
theorem Exceeds.append {error : CompileError} (exceeds : first.Exceeds before error)
    (second : Inventory)
    : (first ++ second).Exceeds before error := by
  cases error with
  | tooManyGlobals name =>
      obtain ⟨mentioned, many⟩ := exceeds
      refine ⟨List.mem_append_left _ mentioned, Nat.lt_of_lt_of_le many ?_⟩
      have grown := prefix_enterNames (enterNames before.globals.toList first.mentions)
        second.mentions
      rw [← enterNames_append] at grown
      exact grown.length_le
  | tooManyFunctions =>
      have total : (first ++ second).literals.length
          = first.literals.length + second.literals.length :=
        List.length_append
      change 255 < _
      rw [total]
      exact Nat.lt_of_lt_of_le exceeds (by omega)
  | tooManyStrings =>
      refine Nat.lt_of_lt_of_le exceeds ?_
      have grown := prefix_enterNames (enterNames before.strings.entries.toList first.texts)
        second.texts
      rw [← enterNames_append, ← texts_append] at grown
      exact grown.length_le
  | _ => exact exceeds

/-- What was entered before counts. -/
theorem Fills.exceeds {error : CompileError} (front : first.Fills before middle)
    (exceeds : second.Exceeds middle error)
    : (first ++ second).Exceeds before error := by
  cases error with
  | tooManyGlobals name =>
      obtain ⟨mentioned, many⟩ := exceeds
      rw [front.globals, ← enterNames_append] at many
      exact ⟨List.mem_append_right _ mentioned, many⟩
  | tooManyFunctions =>
      have many : 255 < middle.functions.size + second.literals.length := exceeds
      rw [front.functions, Nat.add_assoc, ← List.length_append] at many
      exact many
  | tooManyStrings =>
      have many : 65536 < (enterNames middle.strings.entries.toList second.texts).length := exceeds
      rw [front.strings, ← enterNames_append, ← texts_append] at many
      exact many
  | _ => exact exceeds

-----------------------------------------------------------------------------------------
-- Results of generating
-----------------------------------------------------------------------------------------

/-- An inventory explains a result: the tables behind have grown by it, or there is no room for
it, or one of the nodes around breaks a limit.
-/
def Explains {α : Type} (inventory : Inventory) (nodes : List Node) (before : Symbols)
    (tables : α → Symbols)
    : Except CompileError α → Prop
  | .ok value => inventory.Fills before (tables value)
  | .error error => inventory.Exceeds before error ∨ ∃ node ∈ nodes, node.Breaks error

namespace Explains

variable {α β : Type} {inventory : Inventory} {nodes : List Node} {tables : α → Symbols}
  {tables' : β → Symbols} {x : Except CompileError α} {next : α → Except CompileError β}

/-- One action after another asks for what both ask for. -/
theorem bind (front : first.Explains nodes before tables x)
    (back
      : ∀ value, x = .ok value → second.Explains nodes (tables value) tables' (next value))
    : (first ++ second).Explains nodes before tables' (x >>= next) := by
  cases x with
  | error error => exact front.imp_left fun exceeds => exceeds.append second
  | ok value =>
      have behind := back value rfl
      change (first ++ second).Explains nodes before tables' (next value)
      cases result : next value with
      | error error =>
          rw [result] at behind
          exact behind.imp_left front.exceeds
      | ok value' =>
          rw [result] at behind
          exact Fills.append front behind

/-- What comes behind asks for nothing and succeeds, or a node breaks a limit. -/
theorem andThen (front : inventory.Explains nodes before tables x)
    (back
      : ∀ value,
          x = .ok value → Inventory.empty.Explains nodes (tables value) tables' (next value))
    : inventory.Explains nodes before tables' (x >>= next) := by
  have both := front.bind back
  rwa [append_empty] at both

/-- An action in front that does not touch the tables. -/
theorem check (front : Inventory.empty.Explains nodes before (fun _ => before) x)
    (back : ∀ value, x = .ok value → inventory.Explains nodes before tables' (next value))
    : inventory.Explains nodes before tables' (x >>= next) :=
  front.bind back

/-- An action in front that succeeds. -/
theorem known {value : α} (succeeds : x = .ok value)
    (back : inventory.Explains nodes before tables' (next value))
    : inventory.Explains nodes before tables' (x >>= next) := by
  rw [succeeds]
  exact back

/-- The entry of a function behind those inside it. -/
theorem function (literal : FunctionLiteral)
    (inside : inventory.Explains nodes before tables x)
    (back
      : ∀ value,
          x = .ok value
          → Inventory.Explains ⟨[], [literal], []⟩ nodes (tables value) tables' (next value))
    : Inventory.Explains ⟨inventory.mentions, inventory.literals ++ [literal], inventory.nodes⟩
        nodes before tables' (x >>= next) := by
  have both := inside.bind back
  rwa [append_function] at both

/-- A node that holds no text itself asks the tables for nothing. -/
theorem node {first : Node} (explained : inventory.Explains nodes before tables x)
    (bare : first.text? = none)
    : Inventory.Explains ⟨inventory.mentions, inventory.literals, first :: inventory.nodes⟩ nodes
        before tables x := by
  have texts : Inventory.texts ⟨inventory.mentions, inventory.literals, first :: inventory.nodes⟩
      = inventory.texts :=
    List.filterMap_cons_none bare
  cases x with
  | ok value => exact ⟨explained.globals, explained.functions, texts ▸ explained.strings⟩
  | error error =>
      refine explained.imp_left fun exceeds => ?_
      cases error with
      | tooManyStrings =>
          change 65536 < (enterNames _ _).length
          rw [texts]
          exact exceeds
      | _ => exact exceeds

end Explains

end Inventory

-----------------------------------------------------------------------------------------
-- Trees
-----------------------------------------------------------------------------------------

/-- What an expression asks for among the given local names. -/
def Expr.inventory (locals : List String) (expression : Expr) : Inventory :=
  ⟨expression.mentions locals, expression.literals, expression.nodes locals⟩

/-- What arguments ask for. -/
def inventoryOfArgs (locals : List String) (args : List Expr) : Inventory :=
  ⟨mentionsOfArgs locals args, literalsOfArgs args, nodesOfArgs locals args⟩

/-- What a statement asks for. -/
def Stmt.inventory (inScope : Bool) (locals : List String) (statement : Stmt) : Inventory :=
  ⟨statement.mentions inScope locals, statement.literals, statement.nodes inScope locals⟩

/-- What the statements of a block ask for. -/
def inventoryOfBody (locals : List String) (body : List Stmt) : Inventory :=
  ⟨mentionsOfBody locals body, literalsOfBody body, nodesOfBody locals body⟩

/-- What main statements ask for. -/
def inventoryOfMain (statements : List Stmt) : Inventory :=
  ⟨statements.flatMap (Stmt.mentions false []), statements.flatMap Stmt.literals,
    statements.flatMap (Stmt.nodes false [])⟩

end StackScript
