import NfcForumTags.TlvGrammar

/-!
# Decoding what was encoded

A control value that was read from three bytes is serialized to bytes it is read from
again, and a value of data bytes gets the length field of its length. So blocks that
are serialized one behind the other are whole blocks, and the parser returns them.
-/
namespace NfcForumTags

open Program

/-! ## Control values -/

/-- A byte is joined from its two nibbles. -/
theorem joined_nibbles (byte : UInt8) : ((byte >>> 4) <<< 4) ||| (byte &&& 0x0F) = byte := by
  apply UInt8.eq_of_toBitVec_eq
  simp only [UInt8.toBitVec_or, UInt8.toBitVec_shiftLeft, UInt8.toBitVec_shiftRight,
    UInt8.toBitVec_and]
  generalize byte.toBitVec = bits
  revert bits
  decide +kernel

/-- The low nibble is its own low nibble. -/
theorem low_nibble (byte : UInt8) : byte &&& 0x0F &&& 0x0F = byte &&& 0x0F := by
  rw [UInt8.and_assoc, UInt8.and_self]

/-- A size of 256 and the size byte 0 stand for each other. -/
theorem size_byte {byte : UInt8} {size : Nat} (read : size = if byte = 0 then 256 else byte.toNat) :
    (if size = 256 then 0 else size.toUInt8) = byte := by
  have bound := byte.toNat_lt
  by_cases zero : byte = 0
  · rw [if_pos zero] at read
    rw [if_pos read, zero]
  · rw [if_neg zero] at read
    rw [if_neg (by omega), read, Nat.toUInt8, UInt8.ofNat_toNat]

/-- A lock control value is serialized to the bytes it was read from. -/
theorem LockControlValue.toBytes_of_read {bytes : Vector UInt8 3} {value : LockControlValue}
    (read : fromBytes bytes = .ok value) : value.toBytes = bytes := by
  obtain ⟨page, offset, size, perPage, perBit⟩ := fields_of_read read
  simp only [toBytes, size_byte size, page, offset, perPage, perBit, low_nibble,
    joined_nibbles, vector_three]

/-- A memory control value is read again from the bytes it is serialized to. -/
theorem MemoryControlValue.fromBytes_toBytes {bytes : Vector UInt8 3} {value : MemoryControlValue}
    (read : fromBytes bytes = .ok value) : fromBytes value.toBytes = .ok value := by
  obtain ⟨page, offset, size, perPage⟩ := fields_of_read read
  rw [← read]
  simp only [toBytes, size_byte size, page, offset, perPage, low_nibble, joined_nibbles]
  exact fromBytes_congr rfl rfl (low_nibble bytes[2])

/-! ## Blocks -/

/-- A block whose control value can be read from bytes, or whose data has a length that
a length field can give. -/
def Tlv.Encodable : Tlv → Prop
  | .lockControl value => ∃ bytes, LockControlValue.fromBytes bytes = .ok value
  | .memoryControl value => ∃ bytes, MemoryControlValue.fromBytes bytes = .ok value
  | .ndefMessage data | .proprietary data => data.length ≤ 0xFFFE
  | .null | .terminator => True

/-- An encodable block is serialized to a whole block. -/
theorem Tlv.Encodable.block {tlv : Tlv} (encodable : tlv.Encodable) (other : tlv ≠ .terminator) :
    ∃ block, tlv.toBytes .alloc = .ok block ∧ TlvBlock block (some tlv) := by
  have three : LengthField [0x03] 3 := .short 0x03 (by decide)
  cases tlv with
  | null => exact ⟨_, rfl, .null⟩
  | lockControl value =>
    obtain ⟨bytes, read⟩ := encodable
    have again : LockControlValue.fromBytes value.toBytes = .ok value := by
      rw [LockControlValue.toBytes_of_read read]
      exact read
    exact ⟨_, rfl, .valued (by decide) (by decide) three (.lock again)⟩
  | memoryControl value =>
    obtain ⟨bytes, read⟩ := encodable
    exact ⟨_, rfl, .valued (by decide) (by decide) three
      (.memory (MemoryControlValue.fromBytes_toBytes read))⟩
  | ndefMessage data =>
    exact ⟨_, encodeValue_eq encodable rfl, .encodedNdef encodable⟩
  | proprietary data =>
    exact ⟨_, encodeValue_eq encodable rfl,
      .serialized (by decide) (by decide) (.proprietary data) encodable⟩
  | terminator => exact absurd rfl other

/-- Encodable blocks other than a Terminator are serialized to whole blocks.

Induction on the blocks. -/
theorem encodeTlvs_blocks {front : List Tlv} (encodable : ∀ tlv ∈ front, tlv.Encodable)
    (others : Tlv.terminator ∉ front) :
    ∃ bytes, encodeTlvs .alloc front = .ok bytes ∧ TlvBlocks bytes front := by
  induction front with
  | nil => exact ⟨[], rfl, .nil⟩
  | cons tlv front inductionHypothesis =>
    rw [List.forall_mem_cons] at encodable
    rw [List.mem_cons, not_or] at others
    obtain ⟨block, first, whole⟩ := encodable.1.block (Ne.symm others.1)
    obtain ⟨bytes, onward, blocks⟩ := inductionHypothesis encodable.2 others.2
    refine ⟨block ++ bytes, ?_, .cons whole blocks⟩
    rw [encodeTlvs, first]
    change encodeTlvs .alloc front >>= _ = _
    rw [onward]
    rfl

/-- Serialized sequences are joined. -/
theorem encodeTlvs_append {build : Build} {front back : List Tlv} {bytes others : List UInt8}
    (first : encodeTlvs build front = .ok bytes) (second : encodeTlvs build back = .ok others) :
    encodeTlvs build (front ++ back) = .ok (bytes ++ others) := by
  induction front generalizing bytes with
  | nil =>
    obtain rfl := Except.ok.inj first
    exact second
  | cons tlv front inductionHypothesis =>
    obtain ⟨block, encoded, first⟩ := ok_of_bind first
    obtain ⟨onward, rest, same⟩ := ok_of_bind first
    obtain rfl := Except.ok.inj same
    rw [List.cons_append, encodeTlvs, encoded]
    change encodeTlvs build (front ++ back) >>= _ = _
    rw [inductionHypothesis rest, List.append_assoc]
    rfl

/-- Blocks among which a Terminator is at most the last one end with it, or have none. -/
theorem terminator_cases {tlvs : List Tlv} (last : Tlv.terminator ∉ tlvs.dropLast) :
    Tlv.terminator ∉ tlvs ∨ ∃ front, tlvs = front ++ [.terminator] ∧ Tlv.terminator ∉ front := by
  rcases List.eq_nil_or_concat tlvs with rfl | ⟨front, final, rfl⟩
  · exact Or.inl (by simp)
  · rw [List.concat_eq_append] at last ⊢
    rw [List.dropLast_concat] at last
    by_cases ends : final = .terminator
    · exact Or.inr ⟨front, ends ▸ rfl, last⟩
    · refine Or.inl ?_
      rw [List.mem_append, not_or]
      exact ⟨last, fun member => ends (List.mem_singleton.mp member).symm⟩

/-- A value that no length field can give the length of is refused. -/
theorem checkedValueLength_refused {len : Nat} (long : 0xFFFE < len) :
    checkedValueLength len = .error .outOfRange :=
  if_neg fun both => absurd both.2 (Nat.not_le.mpr long)

/-- With growable buffers, every list of encodable blocks with a Terminator at most at
its end is serialized, and parsed from its serialization; behind a Terminator anything
may follow. A value of more than 0xFFFE bytes is refused, in either build.

Proof: the serialization of encodable blocks is whole blocks of the grammar, with the
Terminator behind them or none, and the parser accepts exactly these streams. A length above
the maximum is refused by the check ahead of both encoders. -/
theorem parse_encoded :
    (∀ tlvs : List Tlv, Tlv.terminator ∉ tlvs.dropLast → (∀ tlv ∈ tlvs, tlv.Encodable) →
      (∀ tlv ∈ tlvs, ∃ block, tlv.toBytes .alloc = .ok block) ∧
      ∃ bytes, encodeTlvs .alloc tlvs = .ok bytes ∧ parseTlvs .alloc bytes = .ok tlvs ∧
        (tlvs.getLast? = some .terminator → ∀ rest, parseTlvs .alloc (bytes ++ rest) = .ok tlvs)) ∧
    (∀ build data, 0xFFFE < data.length →
      (Tlv.ndefMessage data).toBytes build = .error .outOfRange ∧
      (Tlv.proprietary data).toBytes build = .error .outOfRange ∧
      (Tlv.ndefMessage data).valueLength = .error .outOfRange ∧
      (Tlv.proprietary data).valueLength = .error .outOfRange) := by
  constructor
  · intro tlvs last encodable
    refine ⟨fun tlv member => ?_, ?_⟩
    · by_cases ends : tlv = .terminator
      · exact ⟨_, by rw [ends]; rfl⟩
      · obtain ⟨block, encoded, -⟩ := (encodable tlv member).block ends
        exact ⟨block, encoded⟩
    · rcases terminator_cases last with none | ⟨front, rfl, none⟩
      · obtain ⟨bytes, encoded, blocks⟩ := encodeTlvs_blocks encodable none
        refine ⟨bytes, encoded, TlvStream.parse ⟨_, _, blocks, Or.inl ⟨rfl, rfl⟩⟩, fun ends => ?_⟩
        exact absurd (List.mem_of_getLast? ends) none
      · obtain ⟨bytes, encoded, blocks⟩ :=
          encodeTlvs_blocks (fun tlv member => encodable tlv (List.mem_append_left _ member)) none
        have parsed : ∀ rest, parseTlvs .alloc (bytes ++ TLV_TERMINATOR :: rest) =
            .ok (front ++ [.terminator]) :=
          fun rest => TlvStream.parse ⟨_, _, blocks, Or.inr ⟨rest, rfl, rfl⟩⟩
        refine ⟨bytes ++ [TLV_TERMINATOR], encodeTlvs_append encoded rfl, parsed [],
          fun _ rest => ?_⟩
        rw [List.append_assoc]
        exact parsed rest
  · intro build data long
    have refused := checkedValueLength_refused long
    refine ⟨?_, ?_, refused, refused⟩
    · rw [Tlv.toBytes, refused]
      rfl
    · rw [Tlv.toBytes, refused]
      rfl

/-- A lock area of 256 bits, the length at which the length field gets three bytes, and a
Terminator tag inside a value. -/
example : (encodeTlvs .alloc [.lockControl ⟨0x0E, 0, 256, 3, 3⟩, .proprietary [0xFE],
    .ndefMessage (List.replicate 255 0x44), .terminator] >>= parseTlvs .alloc).isOk = true := by
  decide +kernel

end NfcForumTags
