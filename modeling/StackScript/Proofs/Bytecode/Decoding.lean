import StackScript.Bytecode.Instruction

/-! Decoding reads back what encoding wrote. An instruction whose bytes stand at an offset is
the one that decoding finds there, whatever stands in front of it and behind it.
-/

namespace StackScript

-----------------------------------------------------------------------------------------
-- Bytes that stand in code
-----------------------------------------------------------------------------------------

/-- The given bytes stand in code from an offset on. -/
def BytesFrom (code : Array UInt8) (offset : Nat) (bytes : List UInt8) : Prop :=
  bytes <+: code.toList.drop offset

namespace BytesFrom

variable {code : Array UInt8} {offset : Nat}

/-- The first of some bytes is the one at the offset, and the others follow it. -/
theorem cons {byte : UInt8} {bytes : List UInt8} (placed : BytesFrom code offset (byte :: bytes))
    : code[offset]? = some byte ∧ BytesFrom code (offset + 1) bytes := by
  obtain ⟨behind, placed⟩ := placed
  have first := congrArg List.head? placed
  have others := congrArg List.tail placed
  rw [List.head?_drop, Array.getElem?_toList] at first
  rw [List.tail_drop] at others
  exact ⟨first.symm, behind, others⟩

end BytesFrom

-----------------------------------------------------------------------------------------
-- Numbers, opcodes and kinds
-----------------------------------------------------------------------------------------

/-- A number is read back if it fits in its bytes, by induction on their number. -/
theorem readLittleEndian?_of_bytes {code : Array UInt8} {width value offset : Nat}
    (fits : value < Nat.pow 256 width)
    (placed : BytesFrom code offset (littleEndian width value))
    : readLittleEndian? code width offset = some value := by
  induction width generalizing value offset with
  | zero =>
      have zero : value = 0 := Nat.lt_one_iff.mp fits
      subst zero
      rfl
  | succ width ih =>
      obtain ⟨low, placed⟩ := placed.cons
      have high : value / 256 < Nat.pow 256 width := Nat.div_lt_of_lt_mul (by
        rw [Nat.mul_comm]
        exact fits)
      rw [readLittleEndian?, low, ih high placed]
      have byte : (UInt8.ofNat (value % 256)).toNat = value % 256 :=
        UInt8.toNat_ofNat_of_lt (Nat.mod_lt value (by decide))
      simp only [byte, Nat.mod_add_div]

/-- The byte of an opcode stands for it. -/
theorem Opcode.ofByte?_byte (opcode : Opcode) : Opcode.ofByte? opcode.byte = some opcode := by
  cases opcode with
  | jump when => cases when <;> rfl
  | access what => cases what <;> rfl
  | operate op => cases op <;> rfl
  | _ => rfl

/-- The byte of a kind of values stands for it. -/
theorem Tag.ofByte?_byte (tag : Tag) : Tag.ofByte? tag.byte = some tag := by
  cases tag <;> rfl

-----------------------------------------------------------------------------------------
-- Instructions
-----------------------------------------------------------------------------------------

namespace Constant

theorem length_payload (value : Constant) : value.payload.length = value.width := by
  cases value <;> rfl

/-- A constant is read back from its payload. -/
theorem decode_of_bytes {code : Array UInt8} {offset payloadAt : Nat} {value : Constant}
    (placed : BytesFrom code payloadAt value.payload)
    : decode code offset payloadAt value.tag = .ok value := by
  cases value with
  | number value =>
      have read := readLittleEndian?_of_bytes (value.bits.toNat_lt) placed
      simp only [tag, decode, read, UInt64.ofNat_toNat]
  | long value =>
      have read := readLittleEndian?_of_bytes (value.toUInt64.toNat_lt) placed
      simp only [tag, decode, read, UInt64.ofNat_toNat]
      rfl
  | boolean value =>
      obtain ⟨byte, -⟩ := placed.cons
      cases value <;> simp [tag, decode, readLittleEndian?, byte]
  | string index =>
      have read := readLittleEndian?_of_bytes (index.toNat_lt) placed
      simp only [tag, decode, read, UInt16.ofNat_toNat]
  | function index =>
      obtain ⟨byte, -⟩ := placed.cons
      simp [tag, decode, readLittleEndian?, byte]
  | null => rfl

end Constant

namespace Instruction

theorem length_encode (instruction : Instruction)
    : instruction.encode.length = instruction.length := by
  cases instruction with
  | push value =>
      simp only [encode, item, CodeItem.encode, Operand.encode, length, CodeItem.length,
        Operand.length, List.length_cons, value.length_payload]
      omega
  | _ => rfl

/-- The instruction whose bytes stand at an offset is decoded there. -/
theorem decode_of_bytes {code : Array UInt8} {offset : Nat} {instruction : Instruction}
    (placed : BytesFrom code offset instruction.encode)
    : decode code offset = .ok instruction := by
  obtain ⟨first, operand⟩ := placed.cons
  have opcode := Opcode.ofByte?_byte instruction.item.opcode
  cases instruction with
  | push value =>
      obtain ⟨kind, payload⟩ := operand.cons
      simp only [decode, first, opcode, kind, Tag.ofByte?_byte]
      simp only [item, Constant.decode_of_bytes payload]
      rfl
  | jump when offset =>
      have distance := readLittleEndian?_of_bytes (offset.toNat_lt) operand
      simp only [decode, first, opcode, distance, UInt16.ofNat_toNat]
      rfl
  | access what slot =>
      obtain ⟨byte, -⟩ := operand.cons
      simp only [decode, first, opcode, byte]
      rfl
  | call argCount =>
      obtain ⟨byte, -⟩ := operand.cons
      simp only [decode, first, opcode, byte]
      rfl
  | pop =>
      simp only [decode, first, opcode]
      rfl
  | ret =>
      simp only [decode, first, opcode]
      rfl
  | operate op =>
      simp only [decode, first, opcode]
      rfl

/-- Nothing can be read behind the end of code. -/
theorem decode_of_size_le {code : Array UInt8} {offset : Nat} (ends : code.size ≤ offset)
    : decode code offset = .error (.truncated offset) := by
  rw [decode, Array.getElem?_eq_none ends]

end Instruction

end StackScript
