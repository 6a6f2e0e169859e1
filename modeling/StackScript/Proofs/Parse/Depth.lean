import StackScript.Proofs.Parse.Phrases

/-! How deep the trees are that reading builds. Room is what is left of the nesting limit. A
statement, an assignment and a function take what they hold from it, but a chain does not:
its first operand is read with all the room there is and then pushed down by each of the
others, at every level of operators again, and calls do the same with what they call. So a
tree can be deeper than the limit by the operators and calls on its longest path. Their number
is bounded by the room that each of them leaves to the next one, which makes the depth bounded
by a sum over all rooms below the limit.
-/

namespace StackScript

mutual

/-- The number of expressions and statements on the longest path down from an expression. -/
def Expr.depth : Expr → Nat
  | .literal _ => 1
  | .name _ => 1
  | .binary _ left right => 1 + max left.depth right.depth
  | .logical _ left right => 1 + max left.depth right.depth
  | .assign _ _ value => 1 + value.depth
  | .call callee args => 1 + max callee.depth (depthOfArgs args)
  | .function _ body => 1 + depthOfBody body

/-- The depth of the deepest of some arguments. -/
def depthOfArgs : List Expr → Nat
  | [] => 0
  | arg :: rest => max arg.depth (depthOfArgs rest)

/-- The number of expressions and statements on the longest path down from a statement. -/
def Stmt.depth : Stmt → Nat
  | .block _ body => 1 + depthOfBody body
  | .branch _ condition yes none => 1 + max condition.depth yes.depth
  | .branch _ condition yes (some no) => 1 + max condition.depth (max yes.depth no.depth)
  | .ret _ none => 1
  | .ret _ (some value) => 1 + value.depth
  | .define _ _ none => 1
  | .define _ _ (some value) => 1 + value.depth
  | .discard _ value => 1 + value.depth

/-- The depth of the deepest of some statements. -/
def depthOfBody : List Stmt → Nat
  | [] => 0
  | stmt :: rest => max stmt.depth (depthOfBody rest)

end

mutual

/-- The greatest number of operators and calls on a path down from an expression. -/
def Expr.chained : Expr → Nat
  | .literal _ => 0
  | .name _ => 0
  | .binary _ left right => 1 + max left.chained right.chained
  | .logical _ left right => 1 + max left.chained right.chained
  | .assign _ _ value => value.chained
  | .call callee args => 1 + max callee.chained (chainedOfArgs args)
  | .function _ body => chainedOfBody body

/-- The greatest number of operators and calls on a path down from some arguments. -/
def chainedOfArgs : List Expr → Nat
  | [] => 0
  | arg :: rest => max arg.chained (chainedOfArgs rest)

/-- The greatest number of operators and calls on a path down from a statement. -/
def Stmt.chained : Stmt → Nat
  | .block _ body => chainedOfBody body
  | .branch _ condition yes none => max condition.chained yes.chained
  | .branch _ condition yes (some no) => max condition.chained (max yes.chained no.chained)
  | .ret _ none => 0
  | .ret _ (some value) => value.chained
  | .define _ _ none => 0
  | .define _ _ (some value) => value.chained
  | .discard _ value => value.chained

/-- The greatest number of operators and calls on a path down from some statements. -/
def chainedOfBody : List Stmt → Nat
  | [] => 0
  | stmt :: rest => max stmt.chained (chainedOfBody rest)

end

/-- The greatest depths of an expression and of a statement that are read with some room. -/
def deepest : Nat → Nat × Nat
  | 0 => (0, 0)
  | room + 1 =>
      let (expression, statement) := deepest room
      (7 * room + max expression (1 + statement), 1 + max expression statement)

/-- The greatest depth of an operand, in parentheses or as the body of a function. -/
def deepestOperand (room : Nat) : Nat :=
  max (deepest room).1 (1 + (deepest room).2)

theorem deepest_succ (room : Nat)
    : deepest (room + 1)
      = (7 * room + deepestOperand room, 1 + max (deepest room).1 (deepest room).2) :=
  rfl

theorem deepestOperand_le_succ (room : Nat)
    : deepestOperand room ≤ deepestOperand (room + 1) := by
  have grow := deepest_succ room
  unfold deepestOperand at grow ⊢
  rw [grow]
  dsimp only
  omega

theorem Parse.Joint.depth_join (joint : Joint) (left right : Expr)
    : (joint.join left right).depth = 1 + max left.depth right.depth := by
  cases joint <;> simp only [join, Expr.depth]

theorem Parse.Joint.chained_join (joint : Joint) (left right : Expr)
    : (joint.join left right).chained = 1 + max left.chained right.chained := by
  cases joint <;> simp only [join, Expr.chained]

namespace Parse

open Reader (Onward)

/-- A depth that is bounded both by a number and by a room and the operators and calls on a
path.
-/
structure Shallow (most room depth chained : Nat) : Prop where
  most : depth ≤ most
  room : depth ≤ room + chained

theorem Shallow.mono {most most' room room' depth chained : Nat}
    (shallow : Shallow most room depth chained) (more : most ≤ most') (wider : room ≤ room')
    : Shallow most' room' depth chained :=
  ⟨Nat.le_trans shallow.most more,
    Nat.le_trans shallow.room (Nat.add_le_add_right wider chained)⟩

/-- What stands below two nodes that hang side by side. -/
theorem Shallow.max {most room depth depth' chained chained' : Nat}
    (first : Shallow most room depth chained) (second : Shallow most room depth' chained')
    : Shallow most room (max depth depth') (max chained chained') := by
  have := first.most
  have := first.room
  have := second.most
  have := second.room
  exact ⟨by omega, by omega⟩

/-- A node that takes a level from the room. -/
theorem Shallow.level {most room depth chained : Nat}
    (below : Shallow most room depth chained)
    : Shallow (1 + most) (room + 1) (1 + depth) chained := by
  have := below.most
  have := below.room
  exact ⟨by omega, by omega⟩

/-- A node that takes no level from the room: an operator or a call. -/
theorem Shallow.chain {most room depth chained : Nat}
    (below : Shallow most room depth chained)
    : Shallow (most + 1) room (1 + depth) (1 + chained) := by
  have := below.most
  have := below.room
  exact ⟨by omega, by omega⟩

/-- A leaf. -/
theorem Shallow.leaf {most room : Nat} (some : 0 < most) : Shallow most (room + 1) 1 0 :=
  ⟨some, by omega⟩

theorem deepestOperand_pos (room : Nat) : 0 < deepestOperand room := by
  unfold deepestOperand
  omega

/-! The bounds, by recursion along with reading. A chain or a row of calls that has come to
some depth gets at most one deeper for each level of room that is left.
-/

mutual

theorem expression_shallow {room : Nat} {r s : Reader} {e : Expr} (placed : r.Placed)
    (read : expression room r = .ok e s)
    : Shallow (deepest room).1 room e.depth e.chained := by
  match room with
  | 0 => exact (not_expression_zero read).elim
  | room + 1 =>
      rw [deepest_succ]
      cases expression_read read with
      | assign ahead value =>
          have inside := expression_shallow
            (((Onward.advance _).trans (.advance _)).placed placed) value
          have some : 0 < room := Nat.pos_of_ne_zero fun none =>
            not_expression_zero (none ▸ value)
          have : (deepest room).1 ≤ deepestOperand room := Nat.le_max_left _ _
          rw [Expr.depth, Expr.chained]
          exact inside.level.mono (by dsimp only; omega) (Nat.le_refl _)
      | chain ahead operands =>
          have inside := chain_shallow placed operands
          simp only [levels] at inside
          exact inside.mono (by dsimp only; omega) (Nat.le_refl _)
termination_by (room, 0, 0)

theorem statement_shallow {room : Nat} {r s : Reader} {stmt : Stmt} (placed : r.Placed)
    (read : statement room r = .ok stmt s)
    : Shallow (deepest room).2 room stmt.depth stmt.chained := by
  match room with
  | 0 => exact (not_statement_zero read).elim
  | room + 1 =>
      rw [deepest_succ]
      have one := (Onward.advance r).placed placed
      have two := (Onward.advance _).placed one
      have value {e : Expr} (inside : Shallow (deepest room).1 room e.depth e.chained)
          : Shallow (max (deepest room).1 (deepest room).2) room e.depth e.chained :=
        inside.mono (Nat.le_max_left _ _) (Nat.le_refl _)
      have side {depth chained : Nat} (inside : Shallow (deepest room).2 room depth chained)
          : Shallow (max (deepest room).1 (deepest room).2) room depth chained :=
        inside.mono (Nat.le_max_right _ _) (Nat.le_refl _)
      cases statement_read read with
      | block body =>
          rw [Stmt.depth, Stmt.chained]
          exact (side (block_shallow placed body)).level
      | branch word opening test closing first last =>
          have behind := ((Onward.of_ok test).trans (.advance _)).placed two
          rw [Stmt.depth, Stmt.chained]
          exact ((value (expression_shallow two test)).max
            (side (statement_shallow behind first))).level
      | branchElse word opening test closing first middle second =>
          have behind := ((Onward.of_ok test).trans (.advance _)).placed two
          have behind' := ((Onward.of_ok first).trans (.advance _)).placed behind
          rw [Stmt.depth, Stmt.chained]
          exact ((value (expression_shallow two test)).max
            ((side (statement_shallow behind first)).max
              (side (statement_shallow behind' second)))).level
      | retNothing word semicolon =>
          rw [Stmt.depth, Stmt.chained]
          exact .leaf (Nat.lt_add_right _ Nat.one_pos)
      | ret word result semicolon =>
          rw [Stmt.depth, Stmt.chained]
          exact (value (expression_shallow one result)).level
      | declare word named semicolon =>
          rw [Stmt.depth, Stmt.chained]
          exact .leaf (Nat.lt_add_right _ Nat.one_pos)
      | define word named sign initial semicolon =>
          rw [Stmt.depth, Stmt.chained]
          exact (value (expression_shallow ((Onward.advance _).placed two) initial)).level
      | discard result semicolon =>
          rw [Stmt.depth, Stmt.chained]
          exact (value (expression_shallow placed result)).level
termination_by (room, 0, 0)

theorem statements_shallow (room : Nat) (nested : Bool) {r : Reader} (placed : r.Placed)
    : Shallow (deepest room).2 room (depthOfBody (statements room nested r).1)
        (chainedOfBody (statements room nested r).1) := by
  generalize read : statements room nested r = outcome
  obtain ⟨stmts, s⟩ := outcome
  cases statements_read placed read with
  | ended here => exact ⟨Nat.zero_le _, Nat.zero_le _⟩
  | tooMany inside many => exact ⟨Nat.zero_le _, Nat.zero_le _⟩
  | statement inside few first shorter behind =>
      have others := statements_shallow room nested ((Onward.of_ok first).placed placed)
      rw [behind] at others
      rw [depthOfBody, chainedOfBody]
      exact (statement_shallow placed first).max others
  | @error _ error found _ inside few wrong shorter behind =>
      have onward := ((Onward.of_error wrong).trans (.report found error)).trans
        (Reader.Forward.recover nested _)
      have others := statements_shallow room nested (onward.placed placed)
      rwa [behind] at others
termination_by (room, 1, r.rest.length)

theorem block_shallow {room : Nat} {r s : Reader} {body : List Stmt} (placed : r.Placed)
    (read : block room r = .ok body s)
    : Shallow (deepest room).2 room (depthOfBody body) (chainedOfBody body) := by
  obtain ⟨t, opening, inner, closing, rfl⟩ := block_eq_ok read
  have := statements_shallow room true ((Onward.advance r).placed placed)
  rwa [inner] at this
termination_by (room, 2, 0)

theorem operand_shallow {room : Nat} {r s : Reader} {e : Expr} (placed : r.Placed)
    (read : operand room r = .ok e s)
    : Shallow (deepestOperand room) (room + 1) e.depth e.chained := by
  have behind := (Onward.advance r).placed placed
  cases operand_read read with
  | literal next =>
      rw [Expr.depth, Expr.chained]
      exact .leaf (deepestOperand_pos room)
  | name next =>
      rw [Expr.depth, Expr.chained]
      exact .leaf (deepestOperand_pos room)
  | paren opening inner closing =>
      exact (expression_shallow behind inner).mono (Nat.le_max_left _ _) (Nat.le_succ room)
  | function word head body =>
      rw [Expr.depth, Expr.chained]
      have inside := block_shallow ((Onward.of_ok head).placed behind) body
      exact inside.level.mono (Nat.le_max_right _ _) (Nat.le_refl _)
termination_by (room, 4, 0)

theorem call_shallow {room : Nat} {r s : Reader} {e : Expr} (placed : r.Placed)
    (read : call room r = .ok e s)
    : Shallow (deepestOperand room + room) (room + 1) e.depth e.chained := by
  obtain ⟨callee, t, first, others⟩ := call_eq_ok read
  exact callTail_shallow ((Onward.of_ok first).placed placed) (operand_shallow placed first)
    (Nat.le_refl _) (Nat.le_succ room) others
termination_by (room, 5, 0)

theorem callTail_shallow {room most top : Nat} {r s : Reader} {callee e : Expr}
    (placed : r.Placed) (reached : Shallow most top callee.depth callee.chained)
    (high : deepestOperand room ≤ most) (wide : room ≤ top)
    (read : callTail room callee r = .ok e s)
    : Shallow (most + room) top e.depth e.chained := by
  have behind := (Onward.advance r).placed placed
  cases callTail_read read with
  | done last => exact reached.mono (Nat.le_add_right _ _) (Nat.le_refl _)
  | @noArguments less _ _ deeper opening closing others =>
      subst deeper
      have grow := deepestOperand_le_succ less
      have nothing : Shallow most top (depthOfArgs []) (chainedOfArgs []) :=
        ⟨Nat.zero_le _, Nat.zero_le _⟩
      have reached' : Shallow (most + 1) top (Expr.call callee []).depth
          (Expr.call callee []).chained := by
        rw [Expr.depth, Expr.chained]
        exact (reached.max nothing).chain
      have := callTail_shallow ((Onward.advance _).placed behind) reached' (by omega) (by omega)
        others
      exact this.mono (by omega) (Nat.le_refl _)
  | @call less args _ _ _ deeper opening inner closing others =>
      subst deeper
      have grow := deepestOperand_le_succ less
      have below : (deepest less).1 ≤ deepestOperand less := Nat.le_max_left _ _
      have inside := (arguments_shallow behind inner).mono
        (by omega : _ ≤ most) (by omega : _ ≤ top)
      have reached' : Shallow (most + 1) top (Expr.call callee args).depth
          (Expr.call callee args).chained := by
        rw [Expr.depth, Expr.chained]
        exact (reached.max inside).chain
      have placed' := ((Onward.of_ok inner).trans (.advance _)).placed behind
      have := callTail_shallow placed' reached' (by omega) (by omega) others
      exact this.mono (by omega) (Nat.le_refl _)
termination_by (room, 0, 0)

theorem arguments_shallow {room : Nat} {r s : Reader} {args : List Expr} (placed : r.Placed)
    (read : arguments room r = .ok args s)
    : Shallow (deepest room).1 room (depthOfArgs args) (chainedOfArgs args) := by
  cases arguments_read placed read with
  | last first next =>
      have := expression_shallow placed first
      simpa only [depthOfArgs, chainedOfArgs, Nat.max_zero] using this
  | more first comma shorter behind =>
      have placed' := ((Onward.of_ok first).trans (.advance _)).placed placed
      rw [depthOfArgs, chainedOfArgs]
      exact (expression_shallow placed first).max (arguments_shallow placed' behind)
termination_by (room, 1, r.rest.length)

theorem chain_shallow {room level : Nat} {r s : Reader} {e : Expr} (placed : r.Placed)
    (read : chain room level r = .ok e s)
    : Shallow (deepestOperand room + (level + 1) * room) (room + 1) e.depth e.chained := by
  match level with
  | 0 =>
      rw [chain_zero] at read
      rw [Nat.zero_add, Nat.one_mul]
      exact call_shallow placed read
  | level + 1 =>
      obtain ⟨left, t, first, others⟩ := chain_succ_eq_ok read
      have := chainTail_shallow ((Onward.of_ok first).placed placed)
        (chain_shallow placed first) (Nat.le_refl _) (Nat.le_refl _) others
      rwa [Nat.succ_mul (level + 1), ← Nat.add_assoc]
termination_by (room, 6 + level, 0)

theorem chainTail_shallow {room level most top : Nat} {r s : Reader} {left e : Expr}
    (placed : r.Placed) (reached : Shallow most top left.depth left.chained)
    (high : deepestOperand room + (level + 1) * room ≤ most) (wide : room + 1 ≤ top)
    (read : chainTail room level left r = .ok e s)
    : Shallow (most + room) top e.depth e.chained := by
  cases chainTail_read read with
  | done last => exact reached.mono (Nat.le_add_right _ _) (Nat.le_refl _)
  | @joined less _ joint right _ _ _ deeper next known inner others =>
      subst deeper
      rw [Nat.mul_succ] at high
      have grow := deepestOperand_le_succ less
      have behind := (Onward.advance r).placed placed
      have inside := (chain_shallow behind inner).mono
        (by omega : _ ≤ most) (by omega : _ ≤ top)
      have reached' : Shallow (most + 1) top (joint.join left right).depth
          (joint.join left right).chained := by
        rw [joint.depth_join, joint.chained_join]
        exact (reached.max inside).chain
      have := chainTail_shallow ((Onward.of_ok inner).placed behind) reached' (by omega)
        (by omega) others
      exact this.mono (by omega) (Nat.le_refl _)
termination_by (room, 0, 0)

end

theorem deepest_nestingLimit : (deepest nestingLimit).2 = 56010 := by
  decide +kernel

/-- A tree is deeper than the nesting limit by at most the operators and calls on a path, so
that scripts without any keep to the limit, and it has at most 56010 levels.
-/
theorem depth_parse_le (lexemes : List Lexeme)
    : depthOfBody (parse lexemes).1.statements
      ≤ min 56010 (nestingLimit + chainedOfBody (parse lexemes).1.statements) := by
  have shallow := statements_shallow nestingLimit false (Reader.placed_start lexemes)
  have most := shallow.most
  rw [deepest_nestingLimit] at most
  exact Nat.le_min.mpr ⟨most, shallow.room⟩

end Parse

end StackScript
