import StackScript.Binary64.DecimalText
import StackScript.Bytecode.Program
import StackScript.Text.Quoted

/-! Listings: one line for each instruction, with its offset, its name and its operand. A
program's listing has a line above each piece of code, and every line knows where it came
from, so that a place in the code can be found in the text.
-/

namespace StackScript

/-- A number with zeros in front up to four digits. -/
def paddedOffset (offset : Nat) : String :=
  let digits := Nat.toDigits 10 offset
  String.ofList (List.replicate (4 - digits.length) '0' ++ digits)

namespace Constant

/-- The operand in a listing. A string is shown with its text if the table has one. -/
def listed (strings : Array String) : Constant → String
  | .number value => " " ++ value.format Binary64.plain
  | .long value => " " ++ toString value.toInt
  | .boolean value => if value then " true" else " false"
  | .string index =>
      " " ++ toString index.toNat
        ++ match strings[index.toNat]? with
          | some text => " " ++ Text.quoted text
          | none => ""
  | .function index => " " ++ toString index.toNat
  | .null => ""

end Constant

namespace Instruction

/-- Where a jump that starts at an offset goes if it is taken. -/
def target (offset : Nat) (distance : UInt16) : Nat :=
  offset + 3 + distance.toNat

/-- The line of an instruction that starts at an offset. -/
def listed (strings : Array String) (offset : Nat) (instruction : Instruction) : String :=
  paddedOffset offset ++ ": " ++ instruction.opcode.mnemonic
    ++ match instruction with
      | .push value => " " ++ value.tag.name ++ value.listed strings
      | .jump _ distance =>
          " " ++ toString distance.toNat ++ " (-> " ++ paddedOffset (target offset distance)
            ++ ")"
      | .access _ slot => " " ++ toString slot.toNat
      | .call argCount => " " ++ toString argCount.toNat
      | _ => ""

end Instruction

/-- A line of a listing and where it came from. The lines above pieces of code have no offset. -/
structure ListingLine where
  function : Nat
  offset : Option Nat
  text : String
deriving DecidableEq, Repr, Inhabited

/-- The lines of a listing. -/
structure Listing where
  lines : List ListingLine
deriving DecidableEq, Repr, Inhabited

namespace Listing

/-- The text of the listing, every line ended. -/
def text (listing : Listing) : String :=
  String.join (listing.lines.map fun line => line.text ++ "\n")

/-- The number of the line of the instruction at an offset of a piece of code, from zero. -/
def lineOf? (listing : Listing) (function offset : Nat) : Option Nat :=
  listing.lines.findIdx? fun line => line.function = function && line.offset = some offset

/-- The lines of one piece of code without a line above them. -/
def ofCode (code : Array UInt8) : Except DecodeError Listing :=
  (Instruction.decodeAll code).map fun instructions =>
    ⟨instructions.map fun (offset, instruction) =>
      ⟨0, some offset, instruction.listed #[] offset⟩⟩

/-- The lines of a numbered piece of code. -/
def linesOf (strings : Array String) (function : Nat) (code : Array UInt8)
    : Except DecodeError (List ListingLine) :=
  (Instruction.decodeAll code).map fun instructions =>
    ⟨function, none, if function = 0 then "main:" else toString function ++ ":"⟩
      :: instructions.map fun (offset, instruction) =>
        ⟨function, some offset, "\t" ++ instruction.listed strings offset⟩

/-- The listing of a program, in the order of its pieces of code. -/
def ofProgram (program : Program) : Except DecodeError Listing :=
  (program.sections.mapM fun (function, code) => linesOf program.strings function code).map
    fun sections => ⟨List.flatten sections⟩

end Listing

end StackScript
