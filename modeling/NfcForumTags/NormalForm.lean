import NfcForumTags.TlvRoundTrip
import NfcForumTags.Framing

/-!
# The normal form of TLV data

Different data are parsed to the same blocks: a length field may take three bytes where
one would do, blocks of unknown tags leave nothing, nor does what follows a Terminator, and
half a byte of a Memory Control value is ignored. Serializing what was parsed undoes all
of that: it is parsed again to the same blocks, and nothing shorter is.
-/
namespace NfcForumTags

open Program

/-- A length that passes the check can be encoded. -/
theorem checkedValueLength_ok {len checked : Nat} (passes : checkedValueLength len = .ok checked) :
    len ≤ MAX_TLV_LENGTH := by
  unfold checkedValueLength at passes
  split at passes
  · next both => exact both.2
  · cases passes

/-- The length of a serialized block, by the value it was parsed from. -/
theorem Recorded.toBytes_length {tag : UInt8} {value block : List UInt8} {tlv : Tlv}
    (recorded : Recorded tag value (some tlv)) (encoded : tlv.toBytes .alloc = .ok block) :
    block.length = 1 + lFieldSize value.length + value.length := by
  cases recorded with
  | lock read | memory read =>
    obtain rfl := Except.ok.inj encoded
    rfl
  | ndef | proprietary =>
    obtain ⟨len, passes, -⟩ := ok_of_bind encoded
    have encodable := checkedValueLength_ok passes
    obtain rfl := Except.ok.inj ((encodeValue_eq encodable rfl).symm.trans encoded)
    exact length_encodedValue _ _

/-- A serialized block is not longer than one that is parsed to it. -/
theorem TlvBlock.toBytes_le {block bytes : List UInt8} {tlv : Tlv}
    (whole : TlvBlock block (some tlv))
    (encoded : tlv.toBytes .alloc = .ok bytes) : bytes.length ≤ block.length := by
  cases whole with
  | null =>
    obtain rfl := Except.ok.inj encoded
    exact le_refl _
  | valued notNull notTerminator length recorded =>
    have size := recorded.toBytes_length encoded
    have canonical := length.canonical_le
    rw [List.length_cons, List.length_append]
    omega

/-- What is parsed serializes to no more bytes than it was parsed from.

Induction on the blocks; one that is skipped only makes the data longer. -/
theorem TlvBlocks.encodeTlvs_le {body bytes : List UInt8} {front : List Tlv}
    (whole : TlvBlocks body front)
    (encoded : encodeTlvs .alloc front = .ok bytes) : bytes.length ≤ body.length := by
  induction whole generalizing bytes with
  | nil =>
    obtain rfl := Except.ok.inj encoded
    exact le_refl _
  | @cons block rest found tlvs first onward inductionHypothesis =>
    rw [List.length_append]
    cases found with
    | none => exact (inductionHypothesis encoded).trans (Nat.le_add_left _ _)
    | some tlv =>
      obtain ⟨head, written, encoded⟩ := ok_of_bind encoded
      obtain ⟨tail, others, same⟩ := ok_of_bind encoded
      obtain rfl := Except.ok.inj same
      rw [List.length_append]
      exact Nat.add_le_add (first.toBytes_le written) (inductionHypothesis others)

/-- No shorter data is parsed to the blocks, with a Terminator or without. -/
theorem encodeTlvs_shortest {front : List Tlv} {bytes : List UInt8}
    (encoded : encodeTlvs .alloc front = .ok bytes)
    (others : Tlv.terminator ∉ front) :
    (∀ data, TlvStream data front → bytes.length ≤ data.length) ∧
    ∀ data, TlvStream data (front ++ [.terminator]) → bytes.length + 1 ≤ data.length := by
  constructor
  · rintro data ⟨body, found, whole, ⟨rfl, rfl⟩ | ⟨rest, -, rfl⟩⟩
    · exact whole.encodeTlvs_le encoded
    · exact absurd (List.mem_append_right _ (List.mem_singleton_self _)) others
  · rintro data ⟨body, found, whole, ⟨-, rfl⟩ | ⟨rest, rfl, same⟩⟩
    · exact absurd (List.mem_append_right _ (List.mem_singleton_self _)) whole.ne_terminator
    · obtain rfl := List.append_cancel_right same
      have shorter := whole.encodeTlvs_le encoded
      rw [List.length_append, List.length_cons]
      omega

/-! ## What is parsed can be serialized, but for the reserved length -/

/-- A value of the reserved length is parsed, and cannot be serialized. -/
def Tlv.Oversized (tlv : Tlv) : Prop :=
  tlv.valueLength = .error .outOfRange ∧ tlv.toBytes .alloc = .error .outOfRange

/-- A sequence is not serialized when its first block is not. -/
theorem encodeTlvs_head {build : Build} {tlv : Tlv} {rest : List Tlv} {refusal : Type2Error}
    (refused : tlv.toBytes build = .error refusal) : encodeTlvs build (tlv :: rest) =
      .error refusal := by
  rw [encodeTlvs, refused]
  rfl

/-- Nor when its other blocks are not. -/
theorem encodeTlvs_tail {build : Build} {tlv : Tlv} {rest : List Tlv} {block : List UInt8}
    {refusal : Type2Error} (written : tlv.toBytes build = .ok block)
    (refused : encodeTlvs build rest = .error refusal) : encodeTlvs build (tlv :: rest) =
      .error refusal := by
  rw [encodeTlvs, written]
  change encodeTlvs build rest >>= _ = _
  rw [refused]
  rfl

/-- A block is encodable, or so long that its length field gives the reserved length. -/
theorem TlvBlock.encodable {block : List UInt8} {tlv : Tlv} (whole : TlvBlock block (some tlv)) :
    tlv.Encodable ∨ tlv.Oversized ∧ 65538 < block.length := by
  cases whole with
  | null => exact Or.inl trivial
  | @valued tag field value found notNull notTerminator length recorded =>
    have longer : 0xFFFE < value.length → 65538 < (tag :: (field ++ value)).length := by
      intro long
      rw [List.length_cons, List.length_append]
      generalize value.length = len at length long
      cases length with
      | short len small =>
        have bound := len.toNat_lt
        omega
      | long msb lsb =>
        simp only [List.length_cons, List.length_nil]
        omega
    cases recorded with
    | lock read | memory read => exact Or.inl ⟨_, read⟩
    | ndef | proprietary =>
      rcases Nat.lt_or_ge 0xFFFE value.length with long | fits
      · have refused := checkedValueLength_refused long
        exact Or.inr ⟨⟨refused, by rw [Tlv.toBytes, refused]; rfl⟩, longer long⟩
      · exact Or.inl fits

/-- Parsed blocks can be encoded, or one of them has the length 0xFFFF and ends the
serialization.

Induction on the blocks: the first that is not encodable ends the serialization. -/
theorem TlvBlocks.encodable {body : List UInt8} {front : List Tlv} (whole : TlvBlocks body front) :
    (∀ tlv ∈ front, tlv.Encodable) ∨
      (∃ tlv ∈ front, tlv.Oversized) ∧ 65538 < body.length ∧ encodeTlvs .alloc front =
        .error .outOfRange := by
  induction whole with
  | nil => exact Or.inl fun _ member => nomatch member
  | @cons block rest found tlvs first onward inductionHypothesis =>
    rw [List.length_append]
    cases found with
    | none =>
      refine inductionHypothesis.imp id fun ⟨oversized, long, refused⟩ => ⟨oversized, ?_, refused⟩
      omega
    | some tlv =>
      rcases first.encodable with encodable | ⟨oversized, long⟩
      · refine inductionHypothesis.imp ?_ fun ⟨⟨other, member, oversized⟩, long, refused⟩ => ?_
        · exact fun others => List.forall_mem_cons.mpr ⟨encodable, others⟩
        · obtain ⟨bytes, written, -⟩ := encodable.block (first.continues tlv rfl)
          exact ⟨⟨other, List.mem_cons_of_mem _ member, oversized⟩, by omega,
            encodeTlvs_tail written refused⟩
      · exact Or.inr ⟨⟨tlv, List.mem_cons_self, oversized⟩, by omega, encodeTlvs_head oversized.2⟩

/-- What follows does not help a sequence that cannot be serialized.

Induction on the blocks. -/
theorem encodeTlvs_append_error {build : Build} {front back : List Tlv} {refusal : Type2Error}
    (refused : encodeTlvs build front = .error refusal) :
    encodeTlvs build (front ++ back) = .error refusal := by
  induction front with
  | nil => cases refused
  | cons tlv front inductionHypothesis =>
    rcases error_of_bind refused with head | ⟨block, head, refused⟩
    · exact encodeTlvs_head head
    · rcases error_of_bind refused with others | ⟨onward, -, joined⟩
      · exact encodeTlvs_tail head (inductionHypothesis others)
      · cases joined

/-- Data that is parsed has a normal form: its blocks are serialized, parsed again from
their serialization, and from nothing shorter. Only a value of the reserved length, in
data of more than 65538 bytes, is parsed and refused by the serializer.

Proof: parsed blocks can be serialized unless one has the reserved length. The serialization
is made of the same blocks, each in its shortest length field, and any data that parses to
them has a block for each. -/
theorem parse_normalForm {data : List UInt8} {tlvs : List Tlv}
    (parsed : parseTlvs .alloc data = .ok tlvs) :
    (∃ bytes, encodeTlvs .alloc tlvs = .ok bytes ∧ parseTlvs .alloc bytes = .ok tlvs ∧
      ∀ other, parseTlvs .alloc other = .ok tlvs → bytes.length ≤ other.length) ∨
    (∃ tlv ∈ tlvs, tlv.Oversized) ∧ 65538 < data.length ∧ encodeTlvs .alloc tlvs =
      .error .outOfRange := by
  simp only [parseTlvs_iff] at parsed ⊢
  obtain ⟨body, front, whole, ends⟩ := parsed
  rcases whole.encodable with encodable | ⟨⟨tlv, member, oversized⟩, long, refused⟩
  · obtain ⟨bytes, encoded, blocks⟩ := encodeTlvs_blocks encodable whole.ne_terminator
    have shortest := encodeTlvs_shortest encoded whole.ne_terminator
    left
    rcases ends with ⟨rfl, rfl⟩ | ⟨rest, rfl, rfl⟩
    · exact ⟨bytes, encoded, ⟨_, _, blocks, Or.inl ⟨rfl, rfl⟩⟩, shortest.1⟩
    · refine ⟨bytes ++ [TLV_TERMINATOR], encodeTlvs_append encoded rfl,
        ⟨_, _, blocks, Or.inr ⟨[], rfl, rfl⟩⟩, fun other stream => ?_⟩
      rw [List.length_append]
      exact shortest.2 other stream
  · right
    rcases ends with ⟨rfl, rfl⟩ | ⟨rest, rfl, rfl⟩
    · exact ⟨⟨tlv, member, oversized⟩, long, refused⟩
    · refine ⟨⟨tlv, List.mem_append_left _ member, oversized⟩, ?_, encodeTlvs_append_error refused⟩
      rw [List.length_append]
      omega

/-- A length field of three bytes, a block of an unknown tag and bytes after the Terminator:
no data of less than four bytes has these blocks. -/
theorem parse_normalForm_long :
    encodeTlvs .alloc [.ndefMessage [0xD0], .terminator] = .ok [0x03, 0x01, 0xD0, 0xFE] ∧
    ∀ other, parseTlvs .alloc other = .ok [.ndefMessage [0xD0], .terminator] →
      4 ≤ other.length := by
  have parsed : parseTlvs .alloc [0x03, 0xFF, 0x00, 0x01, 0xD0, 0x44, 0x01, 0x07, 0xFE, 0x99] =
      .ok [.ndefMessage [0xD0], .terminator] := by decide +kernel
  have written : encodeTlvs .alloc [.ndefMessage [0xD0], .terminator] =
      .ok [0x03, 0x01, 0xD0, 0xFE] := by
    decide +kernel
  obtain ⟨bytes, encoded, -, shortest⟩ := (parse_normalForm parsed).resolve_right fun oversized =>
    absurd oversized.2.1 (by decide)
  obtain rfl : bytes = [0x03, 0x01, 0xD0, 0xFE] := Except.ok.inj (encoded.symm.trans written)
  exact ⟨written, shortest⟩

end NfcForumTags
