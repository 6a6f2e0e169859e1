/-! Why a tree cannot be compiled. -/

namespace StackScript

/-- A limit that a tree breaks, or a number that means nothing. -/
inductive CompileError
  | scopeUnderflow
  | tooManyLocals (name : String)
  | tooManyGlobals (name : String)
  | tooManyFunctions
  | tooManyStrings
  | tooManyArguments (count : Nat)
  | tooManyParameters (count : Nat)
  | jumpTooLarge (distance : Nat)
  | longOutOfRange (text : String)
  | invalidLiteral (text : String)
deriving DecidableEq, Repr

namespace CompileError

/-- The error as one sentence. -/
def message : CompileError → String
  | .scopeUnderflow => "internal error: scope depth fell below zero"
  | .tooManyLocals name => "too many locals in one function (at '" ++ name ++ "'; limit 256)"
  | .tooManyGlobals name => "too many globals (at '" ++ name ++ "'; limit 255)"
  | .tooManyFunctions => "too many function literals (limit 255)"
  | .tooManyStrings => "too many distinct string literals (limit 65536)"
  | .tooManyArguments count => "call has " ++ toString count ++ " arguments (limit 255)"
  | .tooManyParameters count => "function has " ++ toString count ++ " parameters (limit 255)"
  | .jumpTooLarge distance =>
      "jump over " ++ toString distance ++ " bytes does not fit in 16 bits"
  | .longOutOfRange text => "LONG literal out of range: " ++ text
  | .invalidLiteral text => "invalid numeric literal: " ++ text

end CompileError

end StackScript
