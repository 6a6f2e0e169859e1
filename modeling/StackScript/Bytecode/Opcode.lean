import StackScript.Operator

/-! The kinds of instructions and of values, with the bytes that stand for them in code. -/

namespace StackScript

/-- When a jump is taken, and whether it keeps the value it looks at. -/
inductive Jump
  /-- Always. -/
  | always
  /-- If the value on top is falsy, which is removed. -/
  | popFalsy
  /-- If the value on top is truthy, which stays. -/
  | keepTruthy
  /-- If the value on top is falsy, which stays. -/
  | keepFalsy
deriving DecidableEq, Repr, Inhabited

namespace Jump

/-- The name of the jump's instruction. -/
def mnemonic : Jump → String
  | .always => "JMP"
  | .popFalsy => "CJF"
  | .keepTruthy => "JT"
  | .keepFalsy => "JF"

end Jump

/-- What is done with a variable. -/
inductive Access
  | getLocal
  | setLocal
  | getGlobal
  | setGlobal
deriving DecidableEq, Repr, Inhabited

namespace Access

/-- The name of the access's instruction. -/
def mnemonic : Access → String
  | .getLocal => "GETLOCAL"
  | .setLocal => "SETLOCAL"
  | .getGlobal => "GETGLOBAL"
  | .setGlobal => "SETGLOBAL"

end Access

/-- The kinds of instructions. -/
inductive Opcode
  | push
  | pop
  | jump (when : Jump)
  | access (what : Access)
  | call
  | ret
  | operate (op : Operator)
deriving DecidableEq, Repr, Inhabited

namespace Opcode

/-- Every kind, in the order of their bytes from zero. -/
def all : List Opcode :=
  [.push, .pop, .jump .always, .jump .popFalsy, .jump .keepTruthy, .jump .keepFalsy,
    .access .getLocal, .access .setLocal, .access .getGlobal, .access .setGlobal,
    .call, .ret]
    ++ Operator.all.map .operate

/-- The byte that stands for the kind. -/
def byte : Opcode → UInt8
  | .push => 0
  | .pop => 1
  | .jump .always => 2
  | .jump .popFalsy => 3
  | .jump .keepTruthy => 4
  | .jump .keepFalsy => 5
  | .access .getLocal => 6
  | .access .setLocal => 7
  | .access .getGlobal => 8
  | .access .setGlobal => 9
  | .call => 10
  | .ret => 11
  | .operate .add => 12
  | .operate .subtract => 13
  | .operate .multiply => 14
  | .operate .divide => 15
  | .operate .remainder => 16
  | .operate .equal => 17
  | .operate .notEqual => 18
  | .operate .less => 19
  | .operate .lessOrEqual => 20
  | .operate .greater => 21
  | .operate .greaterOrEqual => 22

/-- The kind that a byte stands for. -/
def ofByte? (byte : UInt8) : Option Opcode :=
  if byte = 0 then some .push
  else if byte = 1 then some .pop
  else if byte = 2 then some (.jump .always)
  else if byte = 3 then some (.jump .popFalsy)
  else if byte = 4 then some (.jump .keepTruthy)
  else if byte = 5 then some (.jump .keepFalsy)
  else if byte = 6 then some (.access .getLocal)
  else if byte = 7 then some (.access .setLocal)
  else if byte = 8 then some (.access .getGlobal)
  else if byte = 9 then some (.access .setGlobal)
  else if byte = 10 then some .call
  else if byte = 11 then some .ret
  else if byte = 12 then some (.operate .add)
  else if byte = 13 then some (.operate .subtract)
  else if byte = 14 then some (.operate .multiply)
  else if byte = 15 then some (.operate .divide)
  else if byte = 16 then some (.operate .remainder)
  else if byte = 17 then some (.operate .equal)
  else if byte = 18 then some (.operate .notEqual)
  else if byte = 19 then some (.operate .less)
  else if byte = 20 then some (.operate .lessOrEqual)
  else if byte = 21 then some (.operate .greater)
  else if byte = 22 then some (.operate .greaterOrEqual)
  else none

/-- The name of the kind. -/
def mnemonic : Opcode → String
  | .push => "PUSH"
  | .pop => "POP"
  | .jump when => when.mnemonic
  | .access what => what.mnemonic
  | .call => "CALL"
  | .ret => "RETURN"
  | .operate op => op.mnemonic

/-- The kind with the given name. -/
def ofMnemonic? (name : String) : Option Opcode :=
  all.find? fun op => op.mnemonic = name

/-- The instruction works on two operands. -/
def isBinary : Opcode → Bool
  | .operate _ => true
  | _ => false

/-- The instruction may change where execution goes on. -/
def isJump : Opcode → Bool
  | .jump _ => true
  | _ => false

end Opcode

/-- The kinds of values. -/
inductive Tag
  | number
  | long
  | string
  | boolean
  | null
  | function
  | native
deriving DecidableEq, Repr, Inhabited

namespace Tag

/-- The byte that stands for the kind. -/
def byte : Tag → UInt8
  | .number => 0
  | .long => 1
  | .string => 2
  | .boolean => 3
  | .null => 4
  | .function => 5
  | .native => 6

/-- The kind that a byte stands for. -/
def ofByte? (byte : UInt8) : Option Tag :=
  if byte = 0 then some .number
  else if byte = 1 then some .long
  else if byte = 2 then some .string
  else if byte = 3 then some .boolean
  else if byte = 4 then some .null
  else if byte = 5 then some .function
  else if byte = 6 then some .native
  else none

/-- The name of the kind. -/
def name : Tag → String
  | .number => "NUMBER"
  | .long => "LONG"
  | .string => "STRING"
  | .boolean => "BOOLEAN"
  | .null => "NULL"
  | .function => "FUNCTION"
  | .native => "NATIVE_FUNCTION"

/-- The kind with the given name. -/
def ofName? (text : String) : Option Tag :=
  [.number, .long, .string, .boolean, .null, .function, .native].find? fun tag =>
    tag.name = text

end Tag

end StackScript
