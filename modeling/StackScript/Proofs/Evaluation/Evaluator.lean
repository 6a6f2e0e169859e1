import StackScript.Compile.Literal
import StackScript.Machine.Builtin
import StackScript.Proofs.Evaluation.Outline

/-! The meaning of scripts, read off their trees. Every activation of a function has a stack of
scopes of its own, which starts with that of the parameters; a name means its innermost
binding there, else a global. There is no code and no operand stack: an expression is
evaluated to its value, a statement to the value that it returns, if it returns one.
-/

namespace StackScript

variable {σ : Type}

-----------------------------------------------------------------------------------------
-- Environments
-----------------------------------------------------------------------------------------

/-- The bindings of a scope, the latest first. -/
abbrev Bindings := List (String × Value)

/-- What an evaluation works on. -/
structure Env (σ : Type) where
  /-- The open scopes of the activation, the innermost first. The main statements have none. -/
  scopes : List Bindings
  globals : String → Option Value
  sink : σ

/-- The bindings with a new value for the latest binding of a name. -/
def rebind (name : String) (value : Value) : Bindings → Bindings
  | [] => []
  | (latest, old) :: rest =>
      if latest = name then (name, value) :: rest else (latest, old) :: rebind name value rest

/-- The scopes with a new value for the innermost binding of a name. -/
def rebindIn (name : String) (value : Value) : List Bindings → List Bindings
  | [] => []
  | inner :: outer =>
      if name ∈ inner.map Prod.fst then rebind name value inner :: outer
      else inner :: rebindIn name value outer

namespace Env

/-- The built-in functions are the globals that are set at the start. -/
def initial (sink : σ) : Env σ where
  scopes := []
  globals := fun name =>
    if name = Builtin.emit.name then some (.native .emit 1)
    else if name = Builtin.typeOf.name then some (.native .typeOf 2)
    else none
  sink := sink

/-- The value of a local variable: that of its innermost binding. -/
def localValue? (env : Env σ) (name : String) : Option Value :=
  env.scopes.flatten.lookup name

/-- Sets a global, unless its name is reserved. -/
def setGlobal (env : Env σ) (name : String) (value : Value) : Env σ :=
  if name ∈ reservedGlobals then env
  else { env with globals := fun other => if other = name then some value else env.globals other }

/-- Sets the variable that a name means. -/
def set (env : Env σ) (name : String) (value : Value) : Env σ :=
  match env.localValue? name with
  | some _ => { env with scopes := rebindIn name value env.scopes }
  | none => env.setGlobal name value

/-- Makes a variable: a local of the innermost scope, or a global where no scope is open. -/
def define (env : Env σ) (name : String) (value : Value) : Env σ :=
  match env.scopes with
  | [] => env.setGlobal name value
  | inner :: outer => { env with scopes := ((name, value) :: inner) :: outer }

end Env

-----------------------------------------------------------------------------------------
-- Evaluations
-----------------------------------------------------------------------------------------

/-- Why an evaluation gives no value. -/
inductive Stop
  | fault (fault : Fault)
  /-- A number means nothing. -/
  | invalid (error : CompileError)
  /-- More activations are nested than the evaluation may nest. -/
  | unfinished

/-- A computation that changes an environment and gives a value, or stops. -/
def Evaluation (σ α : Type) : Type :=
  Env σ → Except Stop α × Env σ

namespace Evaluation

instance : Monad (Evaluation σ) where
  pure value := fun env => (.ok value, env)
  bind evaluation next := fun env =>
    match evaluation env with
    | (.ok value, env) => next value env
    | (.error stop, env) => (.error stop, env)

/-- Gives the outcome of something that leaves the environment as it is. -/
def lift {ε α : Type} (reason : ε → Stop) (outcome : Except ε α) : Evaluation σ α :=
  fun env => (outcome.mapError reason, env)

/-- The value of a variable. An unset global is named by its slot. -/
def read (slot : String → UInt8) (name : String) : Evaluation σ Value := fun env =>
  match env.localValue? name with
  | some value => (.ok value, env)
  | none =>
      match env.globals name with
      | some value => (.ok value, env)
      | none => (.error (.fault (.unsetGlobal (slot name))), env)

/-- Sets a variable, and gives the value that it was set to. -/
def write (name : String) (value : Value) : Evaluation σ Value := fun env =>
  (.ok value, env.set name value)

/-- A definition returns nothing. -/
def define (name : String) (value : Value) : Evaluation σ (Option Value) := fun env =>
  (.ok none, env.define name value)

/-- Evaluates in a new innermost scope. -/
def nested {α : Type} (body : Evaluation σ α) : Evaluation σ α := fun env =>
  match body { env with scopes := [] :: env.scopes } with
  | (outcome, inner) => (outcome, { inner with scopes := inner.scopes.tail })

/-- Evaluates a side of a branch: in a scope of its own if it stands in a scope and has no
braces.
-/
def side (statement : Stmt) (body : Evaluation σ (Option Value))
    : Evaluation σ (Option Value) := fun env =>
  if env.scopes.isEmpty || statement.isBlock then body env else nested body env

/-- Evaluates the body of a function among its parameters alone. A body that does not return
gives null.
-/
def activate (parameters : Bindings) (body : Evaluation σ (Option Value))
    : Evaluation σ Value := fun env =>
  match nested body { env with scopes := [parameters] } with
  | (outcome, inner) =>
      (outcome.map fun value => value.getD .null, { inner with scopes := env.scopes })

/-- Calls a built-in function. -/
def builtin [Sink σ] (builtin : Builtin) (args : List Value) : Evaluation σ Value := fun env =>
  match builtin.call args env.sink with
  | (outcome, sink) => (outcome.mapError .fault, { env with sink := sink })

end Evaluation

-----------------------------------------------------------------------------------------
-- Trees
-----------------------------------------------------------------------------------------

/-- What an activation refers to outside of itself. -/
structure Linkage (σ : Type) where
  /-- The slots of the globals. -/
  slot : String → UInt8
  /-- Calls a function of the script. -/
  enter : UInt8 → List Value → Evaluation σ Value

/-- Calls a value. -/
def Linkage.call [Sink σ] (links : Linkage σ) (callee : Value) (args : List Value)
    : Evaluation σ Value :=
  match callee with
  | .function id => links.enter id args
  | .native builtin _ => .builtin builtin args
  | other => .lift .fault (.error (.notCallable other.tag))

/-- The value of the left operand is that of the whole, and the right one is not evaluated. -/
def LogicalOperator.decides (op : LogicalOperator) (value : Value) : Bool :=
  match op with
  | .and => !value.isTruthy
  | .or => value.isTruthy

/-- The value of a literal. -/
def Literal.value : Literal → Except CompileError Value
  | .number digits =>
      (Literal.numeric digits).map fun constant =>
        match constant with
        | .number value => .number value
        | .long value => .long value
        | _ => .null
  | .text content => .ok (.string content)
  | .bool value => .ok (.boolean value)
  | .null => .ok .null

section

variable [Sink σ]

mutual

/-- Evaluates an expression, from left to right. The function literals before it are counted,
for a function value is the number of its literal.
-/
def Expr.eval (links : Linkage σ) (count : Nat) : Expr → Evaluation σ Value
  | .literal value => .lift .invalid value.value
  | .name name => .read links.slot name
  | .binary op left right => do
      let a ← left.eval links count
      let b ← right.eval links (count + left.literals.length)
      .lift .fault (op.applyValues a b)
  | .logical op left right => do
      let a ← left.eval links count
      if op.decides a then return a else right.eval links (count + left.literals.length)
  | .assign name .set value => do
      let new ← value.eval links count
      .write name new
  | .assign name (.update op) value => do
      let old ← .read links.slot name
      let operand ← value.eval links count
      let new ← .lift .fault (op.applyValues old operand)
      .write name new
  | .call callee args => do
      let function ← callee.eval links count
      let values ← evalArgs links (count + callee.literals.length) args
      links.call function values
  | .function _ body =>
      return .function (UInt8.ofNat (count + (literalsOfBody body).length + 1))

def evalArgs (links : Linkage σ) (count : Nat) : List Expr → Evaluation σ (List Value)
  | [] => return []
  | arg :: rest => do
      let value ← arg.eval links count
      let values ← evalArgs links (count + arg.literals.length) rest
      return value :: values

/-- Evaluates a statement, and gives the value that it returns if it returns. -/
def Stmt.eval (links : Linkage σ) (count : Nat) : Stmt → Evaluation σ (Option Value)
  | .block _ body => .nested (evalBody links count body)
  | .branch _ condition yes none => do
      let test ← condition.eval links count
      if test.isTruthy then .side yes (yes.eval links (count + condition.literals.length))
      else return none
  | .branch _ condition yes (some no) => do
      let test ← condition.eval links count
      if test.isTruthy then .side yes (yes.eval links (count + condition.literals.length))
      else
        .side no
          (no.eval links (count + condition.literals.length + yes.literals.length))
  | .ret _ none => return some .null
  | .ret _ (some value) => do
      let result ← value.eval links count
      return some result
  | .define _ name none => .define name .null
  | .define _ name (some value) => do
      let new ← value.eval links count
      .define name new
  | .discard _ value => do
      let _ ← value.eval links count
      return none

/-- Evaluates statements up to the first that returns. -/
def evalBody (links : Linkage σ) (count : Nat) : List Stmt → Evaluation σ (Option Value)
  | [] => return none
  | statement :: rest => do
      match ← statement.eval links count with
      | some result => return some result
      | none => evalBody links (count + statement.literals.length) rest

end

-----------------------------------------------------------------------------------------
-- Scripts
-----------------------------------------------------------------------------------------

namespace Script

/-- The literal of the function with the given number. -/
def literal? (script : Script) (id : Nat) : Option FunctionLiteral :=
  match id with
  | 0 => none
  | place + 1 => script.literals[place]?

/-- Calls a function of a script, where at most the given number of activations are nested. -/
def enter (script : Script) : Nat → UInt8 → List Value → Evaluation σ Value
  | 0, _, _ => .lift id (.error .unfinished)
  | depth + 1, number, args =>
      match script.literal? number.toNat with
      | none => .lift .fault (.error (.noFunction number.toNat))
      | some ⟨params, body⟩ =>
          if params.length = args.length then
            .activate (params.zip args).reverse
              (evalBody ⟨script.slot, enter script depth⟩
                (number.toNat - 1 - (literalsOfBody body).length) body)
          else
            .lift .fault
              (.error
                (.arityMismatch number (UInt8.ofNat params.length) (UInt8.ofNat args.length)))

/-- Evaluates a script: its value is what it returns, or null. -/
def evaluate (script : Script) (depth : Nat) (sink : σ) : Except Stop Value × Env σ :=
  match evalBody ⟨script.slot, script.enter depth⟩ 0 script.statements (.initial sink) with
  | (outcome, env) => (outcome.map fun value => value.getD .null, env)

/-- The evaluation of a script ends with a value or a fault, and leaves the sink as given. -/
def Evaluates (script : Script) (sink : σ) (answer : Except Fault Value) (written : σ) : Prop :=
  ∃ depth env, script.evaluate depth sink = (answer.mapError .fault, env) ∧ env.sink = written

end Script

end

end StackScript
