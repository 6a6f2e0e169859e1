import StackScript.Proofs.Bytecode.RoundTrip

/-! What decoding looks at. An instruction depends on its own bytes only. A byte that cannot be
part of an instruction is reported whatever follows it, and an instruction is reported as
truncated exactly if bytes behind the code could complete it.
-/

namespace StackScript

-----------------------------------------------------------------------------------------
-- Bytes
-----------------------------------------------------------------------------------------

/-- Bytes stand in code if each of them does. -/
theorem BytesFrom.of_getElem? {code : Array UInt8} {offset : Nat} {bytes : List UInt8}
    (each : ∀ place, place < bytes.length → code[offset + place]? = bytes[place]?)
    : BytesFrom code offset bytes := by
  induction bytes generalizing offset with
  | nil => exact .nil
  | cons byte bytes ih =>
      refine .of_cons (each 0 (Nat.succ_pos _)) (ih fun place inside => ?_)
      have next := each (place + 1) (Nat.succ_lt_succ inside)
      rw [List.getElem?_cons_succ] at next
      rw [← next, Nat.add_assoc, Nat.add_comm 1]

/-- A byte of code stays in its place if bytes are appended. -/
theorem getElem?_append_of_some {code : Array UInt8} (more : Array UInt8) {place : Nat}
    {byte : UInt8} (here : code[place]? = some byte)
    : (code ++ more)[place]? = some byte := by
  obtain ⟨inside, -⟩ := Array.getElem?_eq_some_iff.mp here
  rw [Array.getElem?_append_left inside, here]

/-- A number that was read is read again if bytes are appended, by induction on its width. -/
theorem readLittleEndian?_append {code : Array UInt8} (more : Array UInt8)
    {width offset value : Nat} (read : readLittleEndian? code width offset = some value)
    : readLittleEndian? (code ++ more) width offset = some value := by
  induction width generalizing offset value with
  | zero => exact read
  | succ width ih =>
      rw [readLittleEndian?] at read ⊢
      split at read
      · rename_i low high first others
        rw [getElem?_append_of_some more first, ih others]
        exact read
      · cases read

/-- A number can be read if there are enough bytes, by induction on its width. -/
theorem exists_readLittleEndian? {code : Array UInt8} {width offset : Nat}
    (room : offset + width ≤ code.size)
    : ∃ value, readLittleEndian? code width offset = some value := by
  induction width generalizing offset with
  | zero => exact ⟨0, rfl⟩
  | succ width ih =>
      obtain ⟨high, others⟩ := ih (show offset + 1 + width ≤ code.size by omega)
      have first : code[offset]? = some code[offset] := Array.getElem?_eq_getElem (by omega)
      rw [readLittleEndian?, first, others]
      exact ⟨_, rfl⟩

-----------------------------------------------------------------------------------------
-- Constants
-----------------------------------------------------------------------------------------

/-- The offset of the instruction that the error is about. -/
def DecodeError.offset : DecodeError → Nat
  | .unknownOpcode _ offset => offset
  | .unknownTag _ offset => offset
  | .unpushableTag _ offset => offset
  | .truncated offset => offset

namespace Constant

/-- Values of the kind have a payload of the given width and are made of its value. -/
structure HasPayload (tag : Tag) (width : Nat) (make : Nat → Constant) : Prop where
  complete
    : ∀ {code offset payloadAt value}, readLittleEndian? code width payloadAt = some value
      → decode code offset payloadAt tag = .ok (make value)
  truncated
    : ∀ {code offset payloadAt}, readLittleEndian? code width payloadAt = none
      → decode code offset payloadAt tag = .error (.truncated offset)

/-- Every kind has a payload of at most eight bytes, or it needs none or cannot be pushed. -/
theorem payload_cases (tag : Tag)
    : (∃ width make, width ≤ 8 ∧ HasPayload tag width make)
      ∨ (∀ code offset payloadAt, decode code offset payloadAt tag = .ok .null)
      ∨ (tag = .native
        ∧ ∀ code offset payloadAt,
            decode code offset payloadAt tag = .error (.unpushableTag .native offset)) := by
  cases tag with
  | number =>
      refine .inl ⟨8, fun value => .number ⟨UInt64.ofNat value⟩, by decide, ?_⟩
      constructor <;> intros <;> simp only [decode, *]
  | long =>
      refine .inl ⟨8, fun value => .long (UInt64.ofNat value).toInt64, by decide, ?_⟩
      constructor <;> intros <;> simp only [decode, *]
  | boolean =>
      refine .inl ⟨1, fun value => .boolean (value != 0), by decide, ?_⟩
      constructor <;> intros <;> simp only [decode, *]
  | string =>
      refine .inl ⟨2, fun value => .string (UInt16.ofNat value), by decide, ?_⟩
      constructor <;> intros <;> simp only [decode, *]
  | function =>
      refine .inl ⟨1, fun value => .function (UInt8.ofNat value), by decide, ?_⟩
      constructor <;> intros <;> simp only [decode, *]
  | null => exact .inr (.inl fun _ _ _ => rfl)
  | native => exact .inr (.inr ⟨rfl, fun _ _ _ => rfl⟩)

variable {code : Array UInt8} {offset payloadAt : Nat} {tag : Tag}

/-- Appended bytes change what is decoded only if the payload is not complete. -/
theorem decode_append (code more : Array UInt8) (offset payloadAt : Nat) (tag : Tag)
    : decode (code ++ more) offset payloadAt tag = decode code offset payloadAt tag
      ∨ decode code offset payloadAt tag = .error (.truncated offset) := by
  rcases payload_cases tag with ⟨width, make, -, payload⟩ | none | ⟨-, refused⟩
  · cases read : readLittleEndian? code width payloadAt with
    | none => exact .inr (payload.truncated read)
    | some value =>
        rw [payload.complete read, payload.complete (readLittleEndian?_append more read)]
        exact .inl rfl
  · exact .inl ((none ..).trans (none ..).symm)
  · exact .inl ((refused ..).trans (refused ..).symm)

/-- A payload of a kind that can be pushed is decoded if there are enough bytes. -/
theorem exists_decode (room : payloadAt + 8 ≤ code.size) (pushable : tag ≠ .native)
    : ∃ value, decode code offset payloadAt tag = .ok value := by
  rcases payload_cases tag with ⟨width, make, small, payload⟩ | none | ⟨native, -⟩
  · obtain ⟨value, read⟩ :=
      exists_readLittleEndian? (show payloadAt + width ≤ code.size by omega)
    exact ⟨_, payload.complete read⟩
  · exact ⟨_, none ..⟩
  · exact absurd native pushable

/-- An error names the instruction that the payload belongs to. -/
theorem offset_of_decode {error : DecodeError}
    (failed : decode code offset payloadAt tag = .error error)
    : error.offset = offset := by
  rcases payload_cases tag with ⟨width, make, -, payload⟩ | none | ⟨-, refused⟩
  · cases read : readLittleEndian? code width payloadAt with
    | none =>
        rw [payload.truncated read] at failed
        cases failed
        rfl
    | some value =>
        rw [payload.complete read] at failed
        cases failed
  · rw [none] at failed
    cases failed
  · rw [refused] at failed
    cases failed
    rfl

end Constant

-----------------------------------------------------------------------------------------
-- Instructions
-----------------------------------------------------------------------------------------

namespace Instruction

variable {code : Array UInt8} {offset : Nat} {instruction : Instruction}

/-- An instruction is decoded from any bytes that may stand for it. -/
theorem WrittenAs.decode {bytes : List UInt8} (written : instruction.WrittenAs bytes)
    (placed : BytesFrom code offset bytes)
    : Instruction.decode code offset = .ok instruction := by
  cases written with
  | own => exact decode_of_bytes placed
  | truth byte =>
      obtain ⟨first, kind⟩ := placed.cons
      obtain ⟨second, payload⟩ := kind.cons
      obtain ⟨third, -⟩ := payload.cons
      have read : readLittleEndian? code 1 (offset + 2) = some byte.toNat := by
        rw [readLittleEndian?, third]
        rfl
      have same : (byte.toNat != 0) = (byte != 0) := by
        rw [Bool.eq_iff_iff, bne_iff_ne, bne_iff_ne, ne_eq, ne_eq, ← UInt8.toNat_inj]
        rfl
      simp only [Instruction.decode, first, second, Opcode.ofByte?_byte, Tag.ofByte?_byte,
        Constant.decode, read, same]
      rfl

/-- Appended bytes change what is decoded only if the instruction is not complete. -/
theorem decode_append (code more : Array UInt8) (offset : Nat)
    : decode (code ++ more) offset = decode code offset
      ∨ decode code offset = .error (.truncated offset) := by
  unfold decode
  cases first : code[offset]? with
  | none => exact .inr rfl
  | some byte =>
      rw [getElem?_append_of_some more first]
      dsimp only
      cases Opcode.ofByte? byte with
      | none => exact .inl rfl
      | some opcode =>
          cases opcode with
          | push =>
              dsimp only
              cases second : code[offset + 1]? with
              | none => exact .inr rfl
              | some tagByte =>
                  rw [getElem?_append_of_some more second]
                  dsimp only
                  cases Tag.ofByte? tagByte with
                  | none => exact .inl rfl
                  | some tag =>
                      rcases Constant.decode_append code more offset (offset + 2) tag
                        with same | truncated
                      · exact .inl (congrArg (Except.map push) same)
                      · exact .inr (congrArg (Except.map push) truncated)
          | jump when =>
              dsimp only
              cases read : readLittleEndian? code 2 (offset + 1) with
              | none => exact .inr rfl
              | some distance =>
                  rw [readLittleEndian?_append more read]
                  exact .inl rfl
          | access what =>
              dsimp only
              cases second : code[offset + 1]? with
              | none => exact .inr rfl
              | some slot =>
                  rw [getElem?_append_of_some more second]
                  exact .inl rfl
          | call =>
              dsimp only
              cases second : code[offset + 1]? with
              | none => exact .inr rfl
              | some argCount =>
                  rw [getElem?_append_of_some more second]
                  exact .inl rfl
          | pop => exact .inl rfl
          | ret => exact .inl rfl
          | operate op => exact .inl rfl

/-- An instruction that is not complete could be continued: behind enough zeros something is
decoded, for a zero is an opcode, a kind of values and part of any payload.
-/
theorem exists_decode_of_truncated {named : Nat}
    (truncated : decode code offset = .error (.truncated named))
    : ∃ more instruction, decode (code ++ more) offset = .ok instruction := by
  let padded := code ++ Array.replicate (offset + 10) 0
  have room : offset + 10 ≤ padded.size := by
    rw [Array.size_append, Array.size_replicate]
    omega
  have kept : ∀ {place byte}, code[place]? = some byte → padded[place]? = some byte :=
    getElem?_append_of_some _
  have zero : ∀ {place}, code[place]? = none → place < offset + 10 → padded[place]? = some 0 := by
    intro place none inside
    have behind := Array.getElem?_eq_none_iff.mp none
    rw [Array.getElem?_append_right behind, Array.getElem?_replicate, if_pos (by omega)]
  have pushed : ∀ tag : Tag, tag ≠ .native
      → ∃ value, Constant.decode padded offset (offset + 2) tag = .ok value :=
    fun tag => Constant.exists_decode (by omega)
  refine ⟨Array.replicate (offset + 10) 0, ?_⟩
  change ∃ instruction, decode padded offset = .ok instruction
  unfold decode at truncated ⊢
  cases first : code[offset]? with
  | none =>
      have second : code[offset + 1]? = none :=
        Array.getElem?_eq_none (Nat.le_succ_of_le (Array.getElem?_eq_none_iff.mp first))
      rw [zero first (by omega), zero second (by omega)]
      obtain ⟨value, decoded⟩ := pushed .number nofun
      exact ⟨_, congrArg (Except.map push) decoded⟩
  | some byte =>
      rw [first] at truncated
      rw [kept first]
      dsimp only at truncated ⊢
      cases known : Opcode.ofByte? byte with
      | none =>
          rw [known] at truncated
          cases truncated
      | some opcode =>
          rw [known] at truncated
          cases opcode with
          | push =>
              dsimp only at truncated ⊢
              cases second : code[offset + 1]? with
              | none =>
                  rw [zero second (by omega)]
                  obtain ⟨value, decoded⟩ := pushed .number nofun
                  exact ⟨_, congrArg (Except.map push) decoded⟩
              | some tagByte =>
                  rw [second] at truncated
                  rw [kept second]
                  dsimp only at truncated ⊢
                  cases knownTag : Tag.ofByte? tagByte with
                  | none =>
                      rw [knownTag] at truncated
                      cases truncated
                  | some tag =>
                      rw [knownTag] at truncated
                      have pushable : tag ≠ .native := by
                        rintro rfl
                        cases truncated
                      obtain ⟨value, decoded⟩ := pushed tag pushable
                      exact ⟨_, congrArg (Except.map push) decoded⟩
          | jump when =>
              obtain ⟨distance, read⟩ :=
                exists_readLittleEndian? (show offset + 1 + 2 ≤ padded.size by omega)
              dsimp only
              rw [read]
              exact ⟨_, rfl⟩
          | access what =>
              dsimp only
              rw [Array.getElem?_eq_getElem (show offset + 1 < padded.size by omega)]
              exact ⟨_, rfl⟩
          | call =>
              dsimp only
              rw [Array.getElem?_eq_getElem (show offset + 1 < padded.size by omega)]
              exact ⟨_, rfl⟩
          | pop => exact ⟨_, rfl⟩
          | ret => exact ⟨_, rfl⟩
          | operate op => exact ⟨_, rfl⟩

/-- An error names the offset at which decoding started. -/
theorem offset_of_decode {error : DecodeError} (failed : decode code offset = .error error)
    : error.offset = offset := by
  unfold decode at failed
  split at failed
  · cases failed
    rfl
  split at failed
  · cases failed
    rfl
  · split at failed
    · cases failed
      rfl
    split at failed
    · cases failed
      rfl
    · rename_i tag _
      cases read : Constant.decode code offset (offset + 2) tag with
      | error inner =>
          rw [read] at failed
          cases failed
          exact Constant.offset_of_decode read
      | ok value =>
          rw [read] at failed
          cases failed
  · split at failed <;> cases failed
    rfl
  · split at failed <;> cases failed
    rfl
  · split at failed <;> cases failed
    rfl
  · cases failed
  · cases failed
  · cases failed

/-- A decoded instruction lies inside the code and is decoded from any other code that has the
same bytes in its place.
-/
theorem decode_of_agreement (decoded : decode code offset = .ok instruction)
    : offset + instruction.length ≤ code.size
      ∧ ∀ other : Array UInt8,
          (∀ place,
            offset ≤ place → place < offset + instruction.length → other[place]? = code[place]?)
          → decode other offset = .ok instruction := by
  obtain ⟨bytes, written, placed⟩ := written_of_decode decoded
  have starts : offset ≤ code.size := by
    refine Nat.le_of_not_le fun outside => ?_
    rw [decode_of_size_le outside] at decoded
    cases decoded
  have inside := placed.length_le starts
  rw [written.length_eq] at inside
  refine ⟨inside, fun other agrees => written.decode (.of_getElem? fun place within => ?_)⟩
  rw [placed.getElem? within]
  rw [written.length_eq] at within
  exact agrees _ (Nat.le_add_right _ _) (Nat.add_lt_add_left within _)

/-- Decoding is local and its errors are exact. A decoded instruction takes at least a byte,
lies inside the code and depends on no other bytes. An error names the place, and other errors
than truncation stay whatever is appended. The instruction is truncated exactly if decoding
fails and succeeds behind some appended bytes.
-/
theorem decoding_is_exact (code : Array UInt8) (offset : Nat)
    : (∀ instruction,
        decode code offset = .ok instruction
        → 1 ≤ instruction.length
          ∧ offset + instruction.length ≤ code.size
          ∧ ∀ other : Array UInt8,
              (∀ place,
                offset ≤ place
                → place < offset + instruction.length
                → other[place]? = code[place]?)
              → decode other offset = .ok instruction)
      ∧ (∀ error,
          decode code offset = .error error
          → error.offset = offset
            ∧ (error ≠ .truncated offset → ∀ more, decode (code ++ more) offset = .error error))
      ∧ (decode code offset = .error (.truncated offset)
          ↔ (∃ error, decode code offset = .error error)
            ∧ ∃ more instruction, decode (code ++ more) offset = .ok instruction) := by
  refine ⟨fun instruction decoded => ?_, fun error failed => ?_, fun truncated => ?_, ?_⟩
  · exact ⟨instruction.length_pos, decode_of_agreement decoded⟩
  · refine ⟨offset_of_decode failed, fun other more => ?_⟩
    rcases decode_append code more offset with same | truncated
    · exact same.trans failed
    · exact absurd (Except.error.inj (failed.symm.trans truncated)) other
  · exact ⟨⟨_, truncated⟩, exists_decode_of_truncated truncated⟩
  · rintro ⟨⟨error, failed⟩, more, instruction, decoded⟩
    rcases decode_append code more offset with same | truncated
    · rw [failed, decoded] at same
      cases same
    · exact truncated

/-- A seven pushes `true` in any code, a nine is no kind of values whatever follows it, and the
number at the end lacks seven bytes.
-/
theorem decoding_is_exact_mixture
    : decode #[0, 3, 7, 0, 9, 0, 0, 1] 0 = .ok (.push (.boolean true))
      ∧ decode #[0, 3, 7] 0 = .ok (.push (.boolean true))
      ∧ decode #[0, 3, 7, 0, 9, 0, 0, 1] 3 = .error (.unknownTag 9 3)
      ∧ decode (#[0, 3, 7, 0, 9, 0, 0, 1] ++ #[11, 11]) 3 = .error (.unknownTag 9 3)
      ∧ decode #[0, 3, 7, 0, 9, 0, 0, 1] 5 = .error (.truncated 5)
      ∧ ∃ more instruction,
          decode (#[0, 3, 7, 0, 9, 0, 0, 1] ++ more) 5 = .ok instruction := by
  have truth : decode #[0, 3, 7, 0, 9, 0, 0, 1] 0 = .ok (.push (.boolean true)) := by cbv
  have unknown : decode #[0, 3, 7, 0, 9, 0, 0, 1] 3 = .error (.unknownTag 9 3) := by cbv
  have truncated : decode #[0, 3, 7, 0, 9, 0, 0, 1] 5 = .error (.truncated 5) := by cbv
  refine ⟨truth, ?_, unknown, ?_, truncated, ?_⟩
  · refine ((decoding_is_exact _ 0).1 _ truth).2.2 _ fun place _ inside => ?_
    change place < 3 at inside
    obtain rfl | rfl | rfl : place = 0 ∨ place = 1 ∨ place = 2 := by omega
    all_goals rfl
  · exact ((decoding_is_exact _ 3).2.1 _ unknown).2 (by rintro ⟨⟩) _
  · exact ((decoding_is_exact _ 5).2.2.1 truncated).2

end Instruction

end StackScript
