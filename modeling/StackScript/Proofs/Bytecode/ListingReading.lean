import Mathlib.Data.List.Forall2
import StackScript.Proofs.Bytecode.ListingText
import StackScript.Proofs.Text.Runs

/-! Listings lose nothing. A line tells the offset and the instruction that it shows, except for
numbers that have the same text, and the text of a listing tells its lines.
-/

namespace StackScript

open Text

-----------------------------------------------------------------------------------------
-- Names and offsets
-----------------------------------------------------------------------------------------

/-- The character is part of a word, which ends at a space. -/
def isWordChar (c : Char) : Bool :=
  c != ' '

theorem Opcode.mnemonic_word (opcode : Opcode) : ∀ c ∈ opcode.mnemonic.toList, isWordChar c := by
  refine List.all_eq_true.mp ?_
  cases opcode with
  | jump when => cases when <;> decide
  | access what => cases what <;> decide
  | operate op => cases op <;> decide
  | _ => decide

/-- A kind of instructions has its name for itself. -/
theorem Opcode.ofMnemonic?_mnemonic (opcode : Opcode)
    : ofMnemonic? opcode.mnemonic = some opcode := by
  cases opcode with
  | jump when => cases when <;> decide
  | access what => cases what <;> decide
  | operate op => cases op <;> decide
  | _ => decide

theorem Opcode.mnemonic_injective {opcode other : Opcode}
    (same : opcode.mnemonic = other.mnemonic)
    : opcode = other := by
  have found := ofMnemonic?_mnemonic opcode
  rw [same, ofMnemonic?_mnemonic] at found
  exact (Option.some.inj found).symm

theorem Tag.name_word (tag : Tag) : ∀ c ∈ tag.name.toList, isWordChar c := by
  refine List.all_eq_true.mp ?_
  cases tag <;> decide

/-- A kind of values has its name for itself. -/
theorem Tag.ofName?_name (tag : Tag) : ofName? tag.name = some tag := by
  cases tag <;> decide

theorem Tag.name_injective {tag other : Tag} (same : tag.name = other.name) : tag = other := by
  have found := ofName?_name tag
  rw [same, ofName?_name] at found
  exact (Option.some.inj found).symm

theorem isDigit_of_mem_paddedOffset {offset : Nat} {c : Char}
    (found : c ∈ (paddedOffset offset).toList)
    : c.isDigit = true := by
  rw [paddedOffset, String.toList_ofList] at found
  rcases List.mem_append.mp found with found | found
  · rw [List.eq_of_mem_replicate found]
    rfl
  · exact isDigit_of_mem_digits found

/-- Zeros in front do not change which offset it is, however many digits the offset has. -/
theorem paddedOffset_injective {offset other : Nat}
    (same : (paddedOffset offset).toList = (paddedOffset other).toList)
    : offset = other := by
  have value : ∀ offset, Nat.ofDigitChars 10 (paddedOffset offset).toList 0 = offset := by
    intro offset
    rw [paddedOffset, String.toList_ofList, Nat.ofDigitChars_append,
      Nat.ofDigitChars_replicate_zero, Nat.mul_zero, Nat.ofDigitChars_ten_toDigits]
  rw [← value offset, same, value other]

-----------------------------------------------------------------------------------------
-- Operands
-----------------------------------------------------------------------------------------

/-- Two instructions have the same line in a listing of code: they are the same, or they push
numbers that have the same text.
-/
inductive Instruction.ShownAlike : Instruction → Instruction → Prop
  | same (instruction : Instruction) : ShownAlike instruction instruction
  | numbers {value other : Binary64}
    (text : value.format Binary64.plain = other.format Binary64.plain)
    : ShownAlike (.push (.number value)) (.push (.number other))

namespace Constant

theorem listed_leaves (value : Constant) : Leaves isWordChar (value.listed #[]).toList := by
  have spaced : ∀ text : String, Leaves isWordChar (" " ++ text).toList := by
    intro text
    rw [String.toList_append]
    exact .cons rfl
  cases value with
  | number value => exact spaced _
  | long value => exact spaced _
  | boolean value =>
      cases value with
      | false => exact spaced "false"
      | true => exact spaced "true"
  | string index =>
      rw [listed, String.append_assoc]
      exact spaced _
  | function index => exact spaced _
  | null => exact .nil

/-- Constants of one kind that are shown by the same text are pushed alike. -/
theorem shownAlike {value other : Constant} (kind : value.tag = other.tag)
    (same : value.listed #[] = other.listed #[])
    : Instruction.ShownAlike (.push value) (.push other) := by
  cases value with
  | number value =>
      cases other with
      | number other => exact .numbers ((String.append_right_inj _).mp same)
      | _ => cases kind
  | long value =>
      cases other with
      | long other =>
          have equal := toString_int_injective ((String.append_right_inj _).mp same)
          rw [Int64.toInt_inj.mp equal]
          exact .same _
      | _ => cases kind
  | boolean value =>
      cases other with
      | boolean other =>
          have equal : ∀ value other : Bool,
              (if value then " true" else " false") = (if other then " true" else " false")
                → value = other := by
            decide
          rw [equal value other same]
          exact .same _
      | _ => cases kind
  | string index =>
      cases other with
      | string other =>
          have texts : toString index.toNat = toString other.toNat := by simpa [listed] using same
          rw [UInt16.toNat_inj.mp (toString_nat_injective texts)]
          exact .same _
      | _ => cases kind
  | function index =>
      cases other with
      | function other =>
          have texts := (String.append_right_inj _).mp same
          rw [UInt8.toNat_inj.mp (toString_nat_injective texts)]
          exact .same _
      | _ => cases kind
  | null =>
      cases other with
      | null => exact .same _
      | _ => cases kind

end Constant

namespace Instruction

/-- What stands behind the name of the instruction in its line. -/
def listedOperand (offset : Nat) : Instruction → String
  | .push value => " " ++ value.tag.name ++ value.listed #[]
  | .jump _ distance =>
      " " ++ toString distance.toNat ++ " (-> " ++ paddedOffset (target offset distance) ++ ")"
  | .access _ slot => " " ++ toString slot.toNat
  | .call argCount => " " ++ toString argCount.toNat
  | _ => ""

theorem listed_eq (offset : Nat) (instruction : Instruction)
    : (instruction.listed #[] offset).toList
      = (paddedOffset offset).toList
        ++ ':' :: ' ' :: (instruction.opcode.mnemonic.toList
          ++ (instruction.listedOperand offset).toList) := by
  cases instruction <;> simp [listed, listedOperand]

theorem listedOperand_leaves (offset : Nat) (instruction : Instruction)
    : Leaves isWordChar (instruction.listedOperand offset).toList := by
  cases instruction <;> simp only [listedOperand, String.toList_append, List.append_assoc]
  all_goals first
    | exact .cons rfl
    | exact .nil

/-- Instructions of one kind with the same text behind the name are shown alike. -/
theorem shownAlike_of_operand {offset : Nat} {instruction other : Instruction}
    (kind : instruction.opcode = other.opcode)
    (same : instruction.listedOperand offset = other.listedOperand offset)
    : instruction.ShownAlike other := by
  have bytes : ∀ {byte byte' : UInt8},
      " " ++ toString byte.toNat = " " ++ toString byte'.toNat → byte = byte' := by
    intro byte byte' same
    have texts := (String.append_right_inj _).mp same
    exact UInt8.toNat_inj.mp (toString_nat_injective texts)
  cases instruction with
  | push value =>
      cases other with
      | push other =>
          have texts := congrArg String.toList same
          simp only [listedOperand, String.toList_append, List.append_assoc] at texts
          obtain ⟨names, operands⟩ := run_unique value.tag.name_word other.tag.name_word
            value.listed_leaves other.listed_leaves (List.append_cancel_left texts)
          exact Constant.shownAlike (Tag.name_injective (String.toList_inj.mp names))
            (String.toList_inj.mp operands)
      | _ => cases kind
  | jump when distance =>
      cases other with
      | jump when' distance' =>
          cases kind
          have texts := congrArg String.toList same
          simp only [listedOperand, String.toList_append, List.append_assoc,
            toList_toString_nat] at texts
          obtain ⟨digits, -⟩ := run_unique (fun _ => isDigit_of_mem_digits)
            (fun _ => isDigit_of_mem_digits) (.cons rfl) (.cons rfl)
            (List.append_cancel_left texts)
          rw [UInt16.toNat_inj.mp (digits_injective digits)]
          exact .same _
      | _ => cases kind
  | access what slot =>
      cases other with
      | access what' slot' =>
          cases kind
          rw [bytes same]
          exact .same _
      | _ => cases kind
  | call argCount =>
      cases other with
      | call argCount' =>
          rw [bytes same]
          exact .same _
      | _ => cases kind
  | operate op =>
      cases other with
      | operate op' =>
          cases kind
          exact .same _
      | _ => cases kind
  | pop =>
      cases other with
      | pop => exact .same _
      | _ => cases kind
  | ret =>
      cases other with
      | ret => exact .same _
      | _ => cases kind

/-- A line tells its offset and, up to numbers with the same text, its instruction. -/
theorem shownAlike_of_listed {offset offset' : Nat} {instruction other : Instruction}
    (same : (instruction.listed #[] offset).toList = (other.listed #[] offset').toList)
    : offset = offset' ∧ instruction.ShownAlike other := by
  rw [listed_eq, listed_eq] at same
  obtain ⟨offsets, lines⟩ := run_unique (fun _ => isDigit_of_mem_paddedOffset)
    (fun _ => isDigit_of_mem_paddedOffset) (.cons rfl) (.cons rfl) same
  obtain rfl := paddedOffset_injective offsets
  simp only [List.cons.injEq, true_and] at lines
  obtain ⟨names, operands⟩ := run_unique instruction.opcode.mnemonic_word
    other.opcode.mnemonic_word (instruction.listedOperand_leaves offset)
    (other.listedOperand_leaves offset) lines
  exact ⟨rfl, shownAlike_of_operand (Opcode.mnemonic_injective (String.toList_inj.mp names))
    (String.toList_inj.mp operands)⟩

end Instruction

-----------------------------------------------------------------------------------------
-- Listings of code
-----------------------------------------------------------------------------------------

namespace Listing

variable {code : Array UInt8} {listing : Listing}

/-- Code has a listing exactly if it can be decoded, and then every instruction has a line. -/
theorem ofCode_eq_ok_iff
    : ofCode code = .ok listing
      ↔ ∃ found,
          Instruction.decodeAll code = .ok found
          ∧ listing.lines
            = found.map fun entry => ⟨0, some entry.1, entry.2.listed #[] entry.1⟩ := by
  unfold ofCode
  cases Instruction.decodeAll code with
  | error error => exact ⟨nofun, fun ⟨_, decoded, _⟩ => nomatch decoded⟩
  | ok found =>
      constructor
      · intro listed
        exact ⟨found, rfl, congrArg lines (Except.ok.inj listed).symm⟩
      · rintro ⟨_, decoded, shown⟩
        obtain rfl := Except.ok.inj decoded
        exact congrArg _ (congrArg mk shown.symm)

/-- The text of a listing of code is cut at its line feeds into the lines of the instructions. -/
theorem splitLines_ofCode (listed : ofCode code = .ok listing)
    : Source.splitLines listing.text.toList
      = listing.lines.map (fun line => line.text.toList) ++ [[]] := by
  refine splitLines_join fun line member => ?_
  obtain ⟨found, -, lines⟩ := ofCode_eq_ok_iff.mp listed
  rw [lines] at member
  obtain ⟨entry, -, rfl⟩ := List.mem_map.mp member
  exact .instruction _ _ _

/-- Disassembly loses nothing. Two pieces of code whose listings have the same text have the same
instructions at the same offsets, except that pushed numbers may differ if they have the same
text. Code has a listing exactly if it can be decoded; then the listing gives the offsets of
the decoded instructions, and the text has one line for each of them, ended by a line feed.
-/
theorem text_tells_code
    : (∀ {code code' : Array UInt8} {listing listing' : Listing},
        ofCode code = .ok listing
        → ofCode code' = .ok listing'
        → listing.text = listing'.text
        → ∃ found found',
            Instruction.decodeAll code = .ok found
            ∧ Instruction.decodeAll code' = .ok found'
            ∧ found.Forall₂ (fun entry entry' =>
                entry.1 = entry'.1 ∧ entry.2.ShownAlike entry'.2) found')
      ∧ (∀ code : Array UInt8,
          (∃ listing, ofCode code = .ok listing)
            ↔ ∃ found, Instruction.decodeAll code = .ok found)
      ∧ ∀ {code : Array UInt8} {listing : Listing},
          ofCode code = .ok listing
          → ∃ found,
              Instruction.decodeAll code = .ok found
              ∧ listing.lines.map ListingLine.offset = found.map (fun entry => some entry.1)
              ∧ Source.splitLines listing.text.toList
                = found.map (fun entry => (entry.2.listed #[] entry.1).toList) ++ [[]] := by
  refine ⟨?_, fun code => ?_, ?_⟩
  · intro code code' listing listing' listed listed' same
    obtain ⟨found, decoded, lines⟩ := ofCode_eq_ok_iff.mp listed
    obtain ⟨found', decoded', lines'⟩ := ofCode_eq_ok_iff.mp listed'
    have texts := splitLines_ofCode listed
    rw [same, splitLines_ofCode listed', lines, lines', List.map_map, List.map_map] at texts
    have alike : List.Forall₂ Eq (found.map fun entry => (entry.2.listed #[] entry.1).toList)
        (found'.map fun entry => (entry.2.listed #[] entry.1).toList) := by
      rw [List.forall₂_eq_eq_eq]
      exact (List.append_cancel_right texts).symm
    rw [List.forall₂_map_left_iff, List.forall₂_map_right_iff] at alike
    exact ⟨found, found', decoded, decoded', alike.imp fun _ _ => Instruction.shownAlike_of_listed⟩
  · constructor
    · rintro ⟨listing, listed⟩
      obtain ⟨found, decoded, -⟩ := ofCode_eq_ok_iff.mp listed
      exact ⟨found, decoded⟩
    · rintro ⟨found, decoded⟩
      exact ⟨⟨_⟩, ofCode_eq_ok_iff.mpr ⟨found, decoded, rfl⟩⟩
  · intro code listing listed
    obtain ⟨found, decoded, lines⟩ := ofCode_eq_ok_iff.mp listed
    refine ⟨found, decoded, ?_, ?_⟩
    · rw [lines, List.map_map]
      rfl
    · rw [splitLines_ofCode listed, lines, List.map_map]
      rfl

/-- Two pushes of a NaN with different bits have the same line, and all else in the two pieces of
code is the same.
-/
theorem text_tells_code_twoNaNs
    : ∃ (listing listing' : Listing) (found found' : List (Nat × Instruction)),
        ofCode #[0, 0, 0, 0, 0, 0, 0, 0, 248, 127, 3, 1, 0, 1, 11] = .ok listing
        ∧ ofCode #[0, 0, 1, 0, 0, 0, 0, 0, 248, 255, 3, 1, 0, 1, 11] = .ok listing'
        ∧ listing.text = listing'.text
        ∧ found ≠ found'
        ∧ found.Forall₂ (fun entry entry' =>
            entry.1 = entry'.1 ∧ entry.2.ShownAlike entry'.2) found'
        ∧ listing.lines.map ListingLine.offset = [some 0, some 10, some 13, some 14] := by
  have decoded : Instruction.decodeAll #[0, 0, 0, 0, 0, 0, 0, 0, 248, 127, 3, 1, 0, 1, 11]
      = .ok [(0, .push (.number ⟨0x7ff8000000000000⟩)), (10, .jump .popFalsy 1), (13, .pop),
          (14, .ret)] := by
    cbv
  have decoded' : Instruction.decodeAll #[0, 0, 1, 0, 0, 0, 0, 0, 248, 255, 3, 1, 0, 1, 11]
      = .ok [(0, .push (.number ⟨0xfff8000000000001⟩)), (10, .jump .popFalsy 1), (13, .pop),
          (14, .ret)] := by
    cbv
  obtain ⟨listing, listed⟩ := (text_tells_code.2.1 _).mpr ⟨_, decoded⟩
  obtain ⟨listing', listed'⟩ := (text_tells_code.2.1 _).mpr ⟨_, decoded'⟩
  have same : listing.text = listing'.text := by
    obtain ⟨_, again, lines⟩ := ofCode_eq_ok_iff.mp listed
    obtain rfl := Except.ok.inj (decoded.symm.trans again)
    obtain ⟨_, again, lines'⟩ := ofCode_eq_ok_iff.mp listed'
    obtain rfl := Except.ok.inj (decoded'.symm.trans again)
    have first : (Binary64.mk 0x7ff8000000000000).format Binary64.plain = "NaN" :=
      if_pos (by decide)
    have second : (Binary64.mk 0xfff8000000000001).format Binary64.plain = "NaN" :=
      if_pos (by decide)
    rw [text, text, lines, lines']
    simp only [List.map_cons, Instruction.listed, Constant.listed, Constant.tag, first, second]
    rfl
  obtain ⟨found, found', known, known', alike⟩ := text_tells_code.1 listed listed' same
  obtain ⟨_, again, offsets, -⟩ := text_tells_code.2.2 listed
  obtain rfl := Except.ok.inj (decoded.symm.trans known)
  obtain rfl := Except.ok.inj (decoded'.symm.trans known')
  obtain rfl := Except.ok.inj (decoded.symm.trans again)
  exact ⟨listing, listing', _, _, listed, listed', same, by decide, alike, offsets⟩

end Listing

end StackScript
