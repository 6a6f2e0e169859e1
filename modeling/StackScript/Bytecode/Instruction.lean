import StackScript.Binary64.Basic
import StackScript.Bytecode.Opcode

/-! Instructions and their bytes. An instruction is an opcode byte and the bytes of its
operand, the least significant first; a pushed constant has a byte for its kind between the
two. What decoding looks at ends where the instruction ends.
-/

namespace StackScript

/-- The bytes of a number, the least significant first. -/
def littleEndian : Nat → Nat → List UInt8
  | 0, _ => []
  | width + 1, value => UInt8.ofNat (value % 256) :: littleEndian width (value / 256)

/-- The number in `width` bytes of code from an offset on, if the code is long enough. -/
def readLittleEndian? (code : Array UInt8) : Nat → Nat → Option Nat
  | 0, _ => some 0
  | width + 1, offset =>
      match code[offset]?, readLittleEndian? code width (offset + 1) with
      | some low, some high => some (low.toNat + 256 * high)
      | _, _ => none

/-- The operand of a push. Strings and functions are given by their places in tables. -/
inductive Constant
  | number (value : Binary64)
  | long (value : Int64)
  | boolean (value : Bool)
  | string (index : UInt16)
  | function (index : UInt8)
  | null
deriving DecidableEq, Repr, Inhabited

namespace Constant

/-- The kind of value that is pushed. -/
def tag : Constant → Tag
  | .number _ => .number
  | .long _ => .long
  | .boolean _ => .boolean
  | .string _ => .string
  | .function _ => .function
  | .null => .null

/-- The number of bytes behind the byte for the kind. -/
def width : Constant → Nat
  | .number _ => 8
  | .long _ => 8
  | .boolean _ => 1
  | .string _ => 2
  | .function _ => 1
  | .null => 0

/-- The bytes behind the byte for the kind. -/
def payload : Constant → List UInt8
  | .number value => littleEndian 8 value.bits.toNat
  | .long value => littleEndian 8 value.toUInt64.toNat
  | .boolean value => [if value then 1 else 0]
  | .string index => littleEndian 2 index.toNat
  | .function index => [index]
  | .null => []

end Constant

/-- The operand of an instruction, whatever its opcode. -/
inductive Operand
  | none
  | byte (value : UInt8)
  | word (value : UInt16)
  | constant (value : Constant)
deriving DecidableEq, Repr, Inhabited

namespace Operand

/-- The bytes of the operand. -/
def encode : Operand → List UInt8
  | .none => []
  | .byte value => [value]
  | .word value => littleEndian 2 value.toNat
  | .constant value => value.tag.byte :: value.payload

/-- The number of bytes of the operand. -/
def length : Operand → Nat
  | .none => 0
  | .byte _ => 1
  | .word _ => 2
  | .constant value => 1 + value.width

end Operand

/-- An opcode with an operand of any form, as an assembler writes it. -/
structure CodeItem where
  opcode : Opcode
  operand : Operand
deriving DecidableEq, Repr, Inhabited

namespace CodeItem

/-- The bytes of the item. -/
def encode (item : CodeItem) : List UInt8 :=
  item.opcode.byte :: item.operand.encode

/-- The number of bytes of the item. -/
def length (item : CodeItem) : Nat :=
  1 + item.operand.length

end CodeItem

/-- An instruction: an opcode with an operand of the form that it takes. -/
inductive Instruction
  | push (value : Constant)
  | pop
  | jump (when : Jump) (offset : UInt16)
  | access (what : Access) (slot : UInt8)
  | call (argCount : UInt8)
  | ret
  | operate (op : Operator)
deriving DecidableEq, Repr, Inhabited

namespace Instruction

/-- The opcode and the operand of the instruction. -/
def item : Instruction → CodeItem
  | .push value => ⟨.push, .constant value⟩
  | .pop => ⟨.pop, .none⟩
  | .jump when offset => ⟨.jump when, .word offset⟩
  | .access what slot => ⟨.access what, .byte slot⟩
  | .call argCount => ⟨.call, .byte argCount⟩
  | .ret => ⟨.ret, .none⟩
  | .operate op => ⟨.operate op, .none⟩

/-- The kind of the instruction. -/
def opcode (instruction : Instruction) : Opcode :=
  instruction.item.opcode

/-- The bytes of the instruction. -/
def encode (instruction : Instruction) : List UInt8 :=
  instruction.item.encode

/-- The number of bytes of the instruction. -/
def length (instruction : Instruction) : Nat :=
  instruction.item.length

/-- Every instruction takes at least a byte. -/
theorem length_pos (instruction : Instruction) : 0 < instruction.length := by
  unfold length CodeItem.length
  omega

end Instruction

/-- The number of bytes of a sequence of instructions. -/
def codeLength : List Instruction → Nat
  | [] => 0
  | first :: rest => first.length + codeLength rest

/-- The bytes of a sequence of instructions. -/
def encodeAll (code : List Instruction) : List UInt8 :=
  code.flatMap Instruction.encode

/-- Why the bytes from an offset on are no instruction. -/
inductive DecodeError
  | unknownOpcode (byte : UInt8) (offset : Nat)
  | unknownTag (byte : UInt8) (offset : Nat)
  | unpushableTag (tag : Tag) (offset : Nat)
  | truncated (offset : Nat)
deriving DecidableEq, Repr

namespace DecodeError

/-- The error as one sentence. -/
def message : DecodeError → String
  | .unknownOpcode byte offset =>
      "unknown opcode " ++ toString byte.toNat ++ " at offset " ++ toString offset
  | .unknownTag byte offset =>
      "unknown type tag " ++ toString byte.toNat ++ " at offset " ++ toString offset
  | .unpushableTag tag offset =>
      tag.name ++ " cannot be a PUSH operand (offset " ++ toString offset ++ ")"
  | .truncated offset => "instruction at offset " ++ toString offset ++ " is truncated"

end DecodeError

namespace Constant

/-- The constant of the given kind whose payload starts at `payloadAt`, in the instruction that
starts at `offset`.
-/
def decode (code : Array UInt8) (offset payloadAt : Nat) (tag : Tag)
    : Except DecodeError Constant :=
  let read (width : Nat) (make : Nat → Constant) : Except DecodeError Constant :=
    match readLittleEndian? code width payloadAt with
    | some value => .ok (make value)
    | none => .error (.truncated offset)
  match tag with
  | .number => read 8 fun value => .number ⟨UInt64.ofNat value⟩
  | .long => read 8 fun value => .long (UInt64.ofNat value).toInt64
  | .boolean => read 1 fun value => .boolean (value != 0)
  | .string => read 2 fun value => .string (UInt16.ofNat value)
  | .function => read 1 fun value => .function (UInt8.ofNat value)
  | .null => .ok .null
  | .native => .error (.unpushableTag .native offset)

end Constant

namespace Instruction

/-- The instruction that starts at an offset. -/
def decode (code : Array UInt8) (offset : Nat) : Except DecodeError Instruction :=
  match code[offset]? with
  | none => .error (.truncated offset)
  | some byte =>
      match Opcode.ofByte? byte with
      | none => .error (.unknownOpcode byte offset)
      | some .push =>
          match code[offset + 1]? with
          | none => .error (.truncated offset)
          | some tagByte =>
              match Tag.ofByte? tagByte with
              | none => .error (.unknownTag tagByte offset)
              | some tag => (Constant.decode code offset (offset + 2) tag).map .push
      | some (.jump when) =>
          match readLittleEndian? code 2 (offset + 1) with
          | none => .error (.truncated offset)
          | some value => .ok (.jump when (UInt16.ofNat value))
      | some (.access what) =>
          match code[offset + 1]? with
          | none => .error (.truncated offset)
          | some slot => .ok (.access what slot)
      | some .call =>
          match code[offset + 1]? with
          | none => .error (.truncated offset)
          | some argCount => .ok (.call argCount)
      | some .pop => .ok .pop
      | some .ret => .ok .ret
      | some (.operate op) => .ok (.operate op)

/-- The instructions from an offset to the end of the code, each with its own offset. -/
def decodeFrom (code : Array UInt8) (offset : Nat)
    : Except DecodeError (List (Nat × Instruction)) :=
  if offset < code.size then
    match decode code offset with
    | .error error => .error error
    | .ok instruction =>
        match decodeFrom code (offset + instruction.length) with
        | .error error => .error error
        | .ok rest => .ok ((offset, instruction) :: rest)
  else .ok []
termination_by code.size - offset
decreasing_by
  have := instruction.length_pos
  omega

/-- All instructions of the code, each with its offset. -/
def decodeAll (code : Array UInt8) : Except DecodeError (List (Nat × Instruction)) :=
  decodeFrom code 0

end Instruction

end StackScript
