import StackScript.Bytecode.Instruction

/-! Compiled programs. -/

namespace StackScript

/-- The code of a function with the number of its parameters. -/
structure Function where
  arity : UInt8
  code : Array UInt8
deriving DecidableEq, Repr, Inhabited

/-- A compiled program: the main code, and the tables to which instructions refer. Functions
are numbered from one, for number zero is the main code.
-/
structure Program where
  main : Array UInt8
  functions : Array (Option Function)
  strings : Array String
  /-- The number of slots for globals. -/
  globalCount : Nat
deriving DecidableEq, Repr, Inhabited

namespace Program

/-- The function with the given number. -/
def function? (program : Program) (id : Nat) : Option Function :=
  match id with
  | 0 => none
  | place + 1 => (program.functions[place]?).join

/-- The code with the given number. -/
def code? (program : Program) (id : Nat) : Option (Array UInt8) :=
  match id with
  | 0 => some program.main
  | id => (program.function? id).map Function.code

/-- Every piece of code with its number, the main code first. -/
def sections (program : Program) : List (Nat × Array UInt8) :=
  (0, program.main)
    :: (program.functions.toList.zipIdx 1).filterMap fun (entry, id) =>
      entry.map fun function => (id, function.code)

end Program

/-- The names of the globals that every program has, in the order of their slots from one. -/
def reservedGlobals : List String := ["$emit", "$typeof"]

/-- The greatest slot that programs cannot write. -/
def reservedSlots : Nat := 2

end StackScript
