import StackScript.Proofs.Bytecode.Placement

/-! Encoding and decoding undo one another. Instructions encoded one after another are read
back, each at the offset that the lengths of those before it add up to. Bytes that can be
decoded are the bytes of what they decode to, except that decoding takes every byte other
than zero for a pushed `true`, while encoding writes a one.
-/

namespace StackScript

-----------------------------------------------------------------------------------------
-- From instructions to bytes and back
-----------------------------------------------------------------------------------------

namespace CodeFrom

variable {code : Array UInt8} {offset : Nat} {rest : List Instruction}

/-- Decoding lists the instructions that stand in code with their offsets, by induction on
them.
-/
theorem decodeFrom (placed : CodeFrom code offset rest)
    : Instruction.decodeFrom code offset
      = .ok (rest.mapIdx fun place instruction =>
          (offset + codeLength (rest.take place), instruction)) := by
  induction rest generalizing offset with
  | nil =>
      have size := placed.size_eq
      rw [codeLength_nil] at size
      rw [Instruction.decodeFrom, if_neg (by omega)]
      rfl
  | cons first rest ih =>
      rw [Instruction.decodeFrom, if_pos placed.lt_size, placed.decode]
      simp only [ih placed.tail]
      simp only [List.mapIdx_cons, List.take_succ_cons, List.take_zero, codeLength_nil,
        codeLength_cons, Nat.add_zero, Nat.add_assoc]

end CodeFrom

-----------------------------------------------------------------------------------------
-- Bytes that were read
-----------------------------------------------------------------------------------------

namespace BytesFrom

variable {code : Array UInt8} {offset : Nat}

theorem nil : BytesFrom code offset [] :=
  List.nil_prefix

/-- A byte in front of others that stand in code. -/
theorem of_cons {byte : UInt8} {bytes : List UInt8} (first : code[offset]? = some byte)
    (others : BytesFrom code (offset + 1) bytes)
    : BytesFrom code offset (byte :: bytes) := by
  obtain ⟨behind, placed⟩ := others
  refine ⟨behind, ?_⟩
  obtain ⟨inside, rfl⟩ := Array.getElem?_eq_some_iff.mp first
  rw [List.cons_append, placed, ← Array.getElem_toList, ← List.drop_eq_getElem_cons]

/-- Bytes that stand in code end inside of it, if they start there. -/
theorem length_le {bytes : List UInt8} (placed : BytesFrom code offset bytes)
    (inside : offset ≤ code.size)
    : offset + bytes.length ≤ code.size := by
  have fits := List.IsPrefix.length_le placed
  simp only [List.length_drop, Array.length_toList] at fits
  omega

theorem getElem? {bytes : List UInt8} {place : Nat} (placed : BytesFrom code offset bytes)
    (inside : place < bytes.length)
    : bytes[place]? = code[offset + place]? := by
  obtain ⟨behind, placed⟩ := placed
  rw [← Array.getElem?_toList, ← List.getElem?_drop, ← placed, List.getElem?_append_left inside]

end BytesFrom

theorem readLittleEndian?_lt {code : Array UInt8} {width offset value : Nat}
    (read : readLittleEndian? code width offset = some value)
    : value < Nat.pow 256 width := by
  induction width generalizing offset value with
  | zero =>
      cases read
      decide
  | succ width ih =>
      rw [readLittleEndian?] at read
      split at read
      · rename_i low high _ others
        cases read
        have small := low.toNat_lt
        have smaller := ih others
        have step : Nat.pow 256 (width + 1) = Nat.pow 256 width * 256 := rfl
        omega
      · cases read

/-- A number that was read has the bytes that it was read from, by induction on their number. -/
theorem bytes_of_readLittleEndian? {code : Array UInt8} {width offset value : Nat}
    (read : readLittleEndian? code width offset = some value)
    : BytesFrom code offset (littleEndian width value) := by
  induction width generalizing offset value with
  | zero => exact .nil
  | succ width ih =>
      rw [readLittleEndian?] at read
      split at read
      · rename_i low high first others
        cases read
        have small := low.toNat_lt
        have remainder : (low.toNat + 256 * high) % 256 = low.toNat := by omega
        have quotient : (low.toNat + 256 * high) / 256 = high := by omega
        rw [littleEndian, remainder, quotient, UInt8.ofNat_toNat]
        exact .of_cons first (ih others)
      · cases read

/-- A number that was read from one byte is that byte. -/
theorem byte_of_readLittleEndian? {code : Array UInt8} {offset value : Nat}
    (read : readLittleEndian? code 1 offset = some value)
    : ∃ byte, code[offset]? = some byte ∧ value = byte.toNat := by
  simp only [readLittleEndian?] at read
  split at read
  · rename_i low high first none
    cases none
    cases read
    exact ⟨low, first, rfl⟩
  · cases read

/-- A byte stands for no opcode but the one whose byte it is. -/
theorem Opcode.byte_of_ofByte? {byte : UInt8} {opcode : Opcode}
    (known : Opcode.ofByte? byte = some opcode)
    : opcode.byte = byte := by
  have all : ∀ value < 256, ∀ opcode ∈ Opcode.ofByte? (UInt8.ofNat value),
      opcode.byte = UInt8.ofNat value := by
    decide +kernel
  simpa only [UInt8.ofNat_toNat] using
    all byte.toNat byte.toNat_lt opcode (by
      simpa only [UInt8.ofNat_toNat, Option.mem_def] using known)

/-- A byte stands for no kind of values but the one whose byte it is. -/
theorem Tag.byte_of_ofByte? {byte : UInt8} {tag : Tag} (known : Tag.ofByte? byte = some tag)
    : tag.byte = byte := by
  have all : ∀ value < 256, ∀ tag ∈ Tag.ofByte? (UInt8.ofNat value),
      tag.byte = UInt8.ofNat value := by
    decide +kernel
  simpa only [UInt8.ofNat_toNat] using
    all byte.toNat byte.toNat_lt tag (by
      simpa only [UInt8.ofNat_toNat, Option.mem_def] using known)

-----------------------------------------------------------------------------------------
-- Instructions that were read
-----------------------------------------------------------------------------------------

/-- The instruction pushes a truth value. -/
def Instruction.pushesTruth : Instruction → Bool
  | .push (.boolean _) => true
  | _ => false

theorem Instruction.eq_push_of_pushesTruth {instruction : Instruction}
    (truth : instruction.pushesTruth)
    : ∃ value, instruction = .push (.boolean value) := by
  unfold pushesTruth at truth
  split at truth
  · exact ⟨_, rfl⟩
  · cases truth

/-- The bytes may stand for the instruction: they are its own, or they push a truth value and
end with any byte that is read as it.
-/
inductive Instruction.WrittenAs : Instruction → List UInt8 → Prop
  | own (instruction : Instruction) : WrittenAs instruction instruction.encode
  | truth (byte : UInt8)
      : WrittenAs (.push (.boolean (byte != 0))) [Opcode.push.byte, Tag.boolean.byte, byte]

/-- A constant that was read has the bytes that it was read from, or it is a truth value. -/
theorem Constant.bytes_of_decode {code : Array UInt8} {offset payloadAt : Nat} {tag : Tag}
    {value : Constant} (decoded : Constant.decode code offset payloadAt tag = .ok value)
    : value.tag = tag
      ∧ (BytesFrom code payloadAt value.payload
        ∨ ∃ byte, code[payloadAt]? = some byte ∧ value = .boolean (byte != 0)) := by
  cases tag with
  | number =>
      simp only [Constant.decode] at decoded
      split at decoded
      · rename_i bits read
        cases decoded
        have bytes := bytes_of_readLittleEndian? read
        have fits : (UInt64.ofNat bits).toNat = bits :=
          UInt64.toNat_ofNat_of_lt (readLittleEndian?_lt read)
        exact ⟨rfl, .inl (by simpa only [Constant.payload, fits] using bytes)⟩
      · cases decoded
  | long =>
      simp only [Constant.decode] at decoded
      split at decoded
      · rename_i bits read
        cases decoded
        have bytes := bytes_of_readLittleEndian? read
        have fits : (UInt64.ofNat bits).toInt64.toUInt64.toNat = bits :=
          UInt64.toNat_ofNat_of_lt (readLittleEndian?_lt read)
        exact ⟨rfl, .inl (by simpa only [Constant.payload, fits] using bytes)⟩
      · cases decoded
  | boolean =>
      simp only [Constant.decode] at decoded
      split at decoded
      · rename_i read
        cases decoded
        obtain ⟨byte, here, rfl⟩ := byte_of_readLittleEndian? read
        have same : (byte.toNat != 0) = (byte != 0) := by
          rw [Bool.eq_iff_iff, bne_iff_ne, bne_iff_ne, ne_eq, ne_eq, ← UInt8.toNat_inj]
          rfl
        exact ⟨rfl, .inr ⟨byte, here, by rw [same]⟩⟩
      · cases decoded
  | string =>
      simp only [Constant.decode] at decoded
      split at decoded
      · rename_i index read
        cases decoded
        have bytes := bytes_of_readLittleEndian? read
        have fits : (UInt16.ofNat index).toNat = index :=
          UInt16.toNat_ofNat_of_lt (readLittleEndian?_lt read)
        exact ⟨rfl, .inl (by simpa only [Constant.payload, fits] using bytes)⟩
      · cases decoded
  | function =>
      simp only [Constant.decode] at decoded
      split at decoded
      · rename_i read
        cases decoded
        obtain ⟨byte, here, rfl⟩ := byte_of_readLittleEndian? read
        rw [UInt8.ofNat_toNat]
        exact ⟨rfl, .inl (.of_cons here .nil)⟩
      · cases decoded
  | null =>
      cases decoded
      exact ⟨rfl, .inl .nil⟩
  | native => cases decoded

namespace Instruction

variable {code : Array UInt8} {offset : Nat} {instruction : Instruction}

/-- A decoded instruction was read from bytes that may stand for it. -/
theorem written_of_decode (decoded : decode code offset = .ok instruction)
    : ∃ bytes, instruction.WrittenAs bytes ∧ BytesFrom code offset bytes := by
  unfold decode at decoded
  split at decoded
  · cases decoded
  rename_i byte first
  cases known : Opcode.ofByte? byte with
  | none =>
      rw [known] at decoded
      cases decoded
  | some opcode =>
      rw [known] at decoded
      have byte := Opcode.byte_of_ofByte? known
      subst byte
      cases opcode with
      | push =>
          simp only at decoded
          split at decoded
          · cases decoded
          rename_i tagByte second
          split at decoded
          · cases decoded
          rename_i tag knownTag
          have kind := Tag.byte_of_ofByte? knownTag
          subst kind
          cases read : Constant.decode code offset (offset + 2) tag with
          | error _ =>
              rw [read] at decoded
              cases decoded
          | ok value =>
              rw [read] at decoded
              cases decoded
              obtain ⟨rfl, payload | ⟨truth, third, rfl⟩⟩ := Constant.bytes_of_decode read
              · exact ⟨_, .own _, .of_cons first (.of_cons second payload)⟩
              · exact ⟨_, .truth truth, .of_cons first (.of_cons second (.of_cons third .nil))⟩
      | jump when =>
          simp only at decoded
          split at decoded
          · cases decoded
          rename_i distance read
          cases decoded
          have bytes := bytes_of_readLittleEndian? read
          have fits : (UInt16.ofNat distance).toNat = distance :=
            UInt16.toNat_ofNat_of_lt (readLittleEndian?_lt read)
          refine ⟨_, .own _, .of_cons first ?_⟩
          simpa only [item, Operand.encode, fits] using bytes
      | access what =>
          simp only at decoded
          split at decoded
          · cases decoded
          rename_i slot second
          cases decoded
          exact ⟨_, .own _, .of_cons first (.of_cons second .nil)⟩
      | call =>
          simp only at decoded
          split at decoded
          · cases decoded
          rename_i argCount second
          cases decoded
          exact ⟨_, .own _, .of_cons first (.of_cons second .nil)⟩
      | pop =>
          cases decoded
          exact ⟨_, .own _, .of_cons first .nil⟩
      | ret =>
          cases decoded
          exact ⟨_, .own _, .of_cons first .nil⟩
      | operate op =>
          cases decoded
          exact ⟨_, .own _, .of_cons first .nil⟩

namespace WrittenAs

variable {bytes : List UInt8}

theorem length_eq (written : instruction.WrittenAs bytes)
    : bytes.length = instruction.length := by
  cases written with
  | own => exact length_encode instruction
  | truth byte => rfl

/-- Encoding changes a byte that was read only where it stands for `true`, which it writes as
a one.
-/
theorem getElem?_encode (written : instruction.WrittenAs bytes) {place : Nat} {byte : UInt8}
    (here : bytes[place]? = some byte)
    : instruction.encode[place]?
      = some (if (instruction.pushesTruth ∧ place = 2) ∧ byte ≠ 0 then 1 else byte) := by
  cases written with
  | own =>
      rw [here]
      split
      · rename_i changed
        obtain ⟨⟨truth, rfl⟩, nonzero⟩ := changed
        obtain ⟨value, rfl⟩ := eq_push_of_pushesTruth truth
        cases value with
        | false => exact absurd (Option.some.inj here).symm nonzero
        | true => exact here.symm
      · rfl
  | truth read =>
      match place with
      | 0 | 1 =>
          cases here
          rfl
      | 2 =>
          cases here
          by_cases zero : byte = 0
          · subst zero
            rfl
          · simp [encode, item, CodeItem.encode, Operand.encode, Constant.payload,
              pushesTruth, zero]
      | _ + 3 => cases here

end WrittenAs

-----------------------------------------------------------------------------------------
-- From bytes to instructions and back
-----------------------------------------------------------------------------------------

/-- Among decoded instructions, the byte at a place is the payload of a pushed truth value. -/
def IsTruthByte (found : List (Nat × Instruction)) (place : Nat) : Prop :=
  ∃ entry ∈ found, entry.2.pushesTruth ∧ place = entry.1 + 2

instance (found : List (Nat × Instruction)) (place : Nat) : Decidable (IsTruthByte found place) :=
  inferInstanceAs (Decidable (∃ entry ∈ found, _))

variable {found : List (Nat × Instruction)}

theorem decodeFrom_eq_ok (decoded : decodeFrom code offset = .ok found)
    : (code.size ≤ offset ∧ found = [])
      ∨ ∃ first rest,
          offset < code.size
          ∧ decode code offset = .ok first
          ∧ decodeFrom code (offset + first.length) = .ok rest
          ∧ found = (offset, first) :: rest := by
  rw [decodeFrom] at decoded
  split at decoded
  · rename_i inside
    split at decoded
    · cases decoded
    rename_i first read
    split at decoded
    · cases decoded
    rename_i rest others
    cases decoded
    exact .inr ⟨first, rest, inside, read, others, rfl⟩
  · cases decoded
    exact .inl ⟨by omega, rfl⟩

/-- Decoding goes forward only. -/
theorem le_of_mem_decodeFrom (decoded : decodeFrom code offset = .ok found)
    {entry : Nat × Instruction} (member : entry ∈ found)
    : offset ≤ entry.1 := by
  induction found generalizing offset with
  | nil => cases member
  | cons head rest ih =>
      obtain ⟨_, none⟩ | ⟨first, others, _, _, decodedRest, same⟩ := decodeFrom_eq_ok decoded
      · cases none
      · cases same
        cases member with
        | head => exact Nat.le_refl _
        | tail _ member => exact Nat.le_trans (Nat.le_add_right _ _) (ih decodedRest member)

theorem isTruthByte_cons {entry : Nat × Instruction} {place : Nat}
    : IsTruthByte (entry :: found) place
      ↔ (entry.2.pushesTruth ∧ place = entry.1 + 2) ∨ IsTruthByte found place := by
  simp [IsTruthByte]

/-- Inside the first instruction a truth value can only be the one that it pushes. -/
theorem isTruthByte_first {first : Instruction} {place : Nat}
    (behind : ∀ entry ∈ found, offset + first.length ≤ entry.1) (inside : place < first.length)
    : IsTruthByte ((offset, first) :: found) (offset + place)
      ↔ first.pushesTruth ∧ place = 2 := by
  rw [isTruthByte_cons]
  constructor
  · rintro (⟨truth, here⟩ | ⟨entry, member, -, here⟩)
    · exact ⟨truth, by simpa using here⟩
    · have := behind entry member
      omega
  · rintro ⟨truth, rfl⟩
    exact .inl ⟨truth, rfl⟩

/-- Behind the first instruction a truth value is one that the others push. -/
theorem isTruthByte_rest {first : Instruction} {place : Nat} (outside : first.length ≤ place)
    : IsTruthByte ((offset, first) :: found) (offset + place)
      ↔ IsTruthByte found (offset + place) := by
  rw [isTruthByte_cons, or_iff_right_iff_imp]
  rintro ⟨truth, here⟩
  obtain ⟨value, rfl⟩ := eq_push_of_pushesTruth truth
  have three : (push (.boolean value)).length = 3 := rfl
  simp only at here
  omega

/-- Decoded bytes are encoded again as they were, except that `true` becomes a one, by
induction on the instructions.
-/
theorem encodeAll_of_decodeFrom (inside : offset ≤ code.size)
    (decoded : decodeFrom code offset = .ok found)
    : offset + (encodeAll (found.map Prod.snd)).length = code.size
      ∧ ∀ place byte,
          code[offset + place]? = some byte
            → (encodeAll (found.map Prod.snd))[place]?
              = some (if IsTruthByte found (offset + place) ∧ byte ≠ 0 then 1 else byte) := by
  induction found generalizing offset with
  | nil =>
      obtain ⟨outside, -⟩ | ⟨_, _, _, _, _, none⟩ := decodeFrom_eq_ok decoded
      · refine ⟨Nat.le_antisymm inside outside, fun place byte here => ?_⟩
        have := (Array.getElem?_eq_some_iff.mp here).1
        omega
      · cases none
  | cons head rest ih =>
      obtain ⟨_, none⟩ | ⟨first, others, _, read, decodedRest, same⟩ := decodeFrom_eq_ok decoded
      · cases none
      cases same
      obtain ⟨bytes, written, placed⟩ := written_of_decode read
      have fits := placed.length_le inside
      rw [written.length_eq] at fits
      obtain ⟨length, again⟩ := ih fits decodedRest
      have split : encodeAll (((offset, first) :: rest).map Prod.snd)
          = first.encode ++ encodeAll (rest.map Prod.snd) :=
        rfl
      rw [split, List.length_append, first.length_encode]
      refine ⟨by omega, fun place byte here => ?_⟩
      by_cases early : place < first.length
      · have behind : ∀ entry ∈ rest, offset + first.length ≤ entry.1 := fun entry =>
          le_of_mem_decodeFrom decodedRest
        rw [List.getElem?_append_left (by rw [first.length_encode]; exact early)]
        simp only [isTruthByte_first behind early]
        refine written.getElem?_encode ?_
        rw [placed.getElem? (by rw [written.length_eq]; exact early), here]
      · obtain ⟨later, rfl⟩ := Nat.exists_eq_add_of_le (Nat.le_of_not_lt early)
        rw [List.getElem?_append_right (by rw [first.length_encode]; omega), first.length_encode,
          Nat.add_sub_cancel_left]
        simp only [isTruthByte_rest (Nat.le_add_right first.length later)]
        rw [← Nat.add_assoc] at here ⊢
        exact again later byte here

-----------------------------------------------------------------------------------------
-- Both round trips
-----------------------------------------------------------------------------------------

/-- Instructions encoded one after another are decoded to themselves, each at the offset that
the lengths of those before it add up to. Bytes that can be decoded are encoded again with the
same length, and a byte changes only where it stands for a pushed `true`, where it becomes a
one.
-/
theorem encoding_round_trips
    : (∀ code : List Instruction,
        decodeAll (encodeAll code).toArray
          = .ok (code.mapIdx fun place instruction =>
              (codeLength (code.take place), instruction)))
      ∧ ∀ (code : Array UInt8) (found : List (Nat × Instruction)),
          decodeAll code = .ok found
            → (encodeAll (found.map Prod.snd)).length = code.size
              ∧ ∀ place byte,
                  code[place]? = some byte
                    → (encodeAll (found.map Prod.snd))[place]?
                      = some (if IsTruthByte found place ∧ byte ≠ 0 then 1 else byte) := by
  refine ⟨fun code => ?_, fun code found decoded => ?_⟩
  · simpa only [Nat.zero_add, decodeAll] using (CodeFrom.start code).decodeFrom
  · simpa only [Nat.zero_add] using encodeAll_of_decodeFrom (Nat.zero_le _) decoded

/-- In code that pushes `true` by a seven and then a NaN with a payload, only the seven
changes.
-/
theorem encoding_round_trips_seven
    : let code := #[0, 3, 7, 0, 0, 1, 0, 0, 0, 0, 0, 248, 127, 11]
      let found : List (Nat × Instruction) :=
        [(0, .push (.boolean true)), (3, .push (.number ⟨0x7ff8000000000001⟩)), (13, .ret)]
      decodeAll code = .ok found
      ∧ (encodeAll (found.map Prod.snd)).length = code.size
      ∧ ∀ place byte,
          code[place]? = some byte
            → (encodeAll (found.map Prod.snd))[place]?
              = some (if IsTruthByte found place ∧ byte ≠ 0 then 1 else byte) :=
  have decoded : decodeAll #[0, 3, 7, 0, 0, 1, 0, 0, 0, 0, 0, 248, 127, 11]
      = .ok [(0, .push (.boolean true)), (3, .push (.number ⟨0x7ff8000000000001⟩)),
          (13, .ret)] := by
    cbv
  ⟨decoded, encoding_round_trips.2 _ _ decoded⟩

end Instruction

end StackScript
