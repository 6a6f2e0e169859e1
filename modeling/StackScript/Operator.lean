/-! The binary operators of the language, shared by tokens, trees and instructions. -/

namespace StackScript

/-- An operator on two numbers: arithmetic, then comparison. -/
inductive Operator
  | add
  | subtract
  | multiply
  | divide
  | remainder
  | equal
  | notEqual
  | less
  | lessOrEqual
  | greater
  | greaterOrEqual
deriving DecidableEq, Repr, Inhabited

namespace Operator

/-- Every operator, in the order of their instructions. -/
def all : List Operator :=
  [.add, .subtract, .multiply, .divide, .remainder, .equal, .notEqual, .less, .lessOrEqual,
    .greater, .greaterOrEqual]

/-- The operator as it is written in a program. -/
def spelling : Operator → String
  | .add => "+"
  | .subtract => "-"
  | .multiply => "*"
  | .divide => "/"
  | .remainder => "%"
  | .equal => "=="
  | .notEqual => "!="
  | .less => "<"
  | .lessOrEqual => "<="
  | .greater => ">"
  | .greaterOrEqual => ">="

/-- The operator with the given spelling. -/
def ofSpelling? (text : String) : Option Operator :=
  all.find? fun op => op.spelling = text

/-- The name of the operator in the JSON form of trees. -/
def treeName : Operator → String
  | .add => "Add"
  | .subtract => "Subtract"
  | .multiply => "Multiply"
  | .divide => "Divide"
  | .remainder => "Modulo"
  | .equal => "Equals"
  | .notEqual => "NotEquals"
  | .less => "LessThan"
  | .lessOrEqual => "LessOrEqual"
  | .greater => "GreaterThan"
  | .greaterOrEqual => "GreaterOrEqual"

/-- The operator with the given name in the JSON form of trees. -/
def ofTreeName? (name : String) : Option Operator :=
  all.find? fun op => op.treeName = name

/-- The name of the operator's instruction. -/
def mnemonic : Operator → String
  | .add => "ADD"
  | .subtract => "SUB"
  | .multiply => "MUL"
  | .divide => "DIV"
  | .remainder => "MOD"
  | .equal => "CEQ"
  | .notEqual => "CNE"
  | .less => "CLT"
  | .lessOrEqual => "CLE"
  | .greater => "CGT"
  | .greaterOrEqual => "CGE"

end Operator

/-- The operators that may leave their right operand unevaluated. -/
inductive LogicalOperator
  | and
  | or
deriving DecidableEq, Repr, Inhabited

namespace LogicalOperator

/-- The name of the operator in the JSON form of trees. -/
def treeName : LogicalOperator → String
  | .and => "And"
  | .or => "Or"

/-- The operator with the given name in the JSON form of trees. -/
def ofTreeName? (name : String) : Option LogicalOperator :=
  [.and, .or].find? fun op => op.treeName = name

end LogicalOperator

end StackScript
