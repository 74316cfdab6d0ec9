import NfcForumTags.DataArea

/-!
# The encoding of a TLV

What `Tlv::to_bytes` produces within a buffer's capacity: the tag, the length field
and the value. The writer of the data area builds the same length field by hand.
-/
namespace NfcForumTags

/-- The zeroed length field has the size of the real one, so that setting the length at last
moves no byte of the message. -/
@[simp] theorem length_zeroLengthField (len : Nat) : (zeroLengthField len).length =
    lFieldSize len := by
  unfold zeroLengthField lFieldSize
  split <;> rfl

/-- The real length field has the size that `l_field_size` gives: one byte for a length
below 0xFF and three otherwise. -/
@[simp] theorem length_realLengthField (len : Nat) : (realLengthField len).length =
    lFieldSize len := by
  unfold realLengthField lFieldSize
  split <;> rfl

/-- A length field has a byte at least, so that the value of a block never starts at its
tag. -/
theorem lFieldSize_pos (len : Nat) : 0 < lFieldSize len := by
  unfold lFieldSize
  split <;> omega

/-- It has three at most, which bounds what a message needs besides its own bytes. -/
theorem lFieldSize_le (len : Nat) : lFieldSize len ≤ 3 := by
  unfold lFieldSize
  split <;> omega

/-- The serializer's length field is the one that the writer builds by hand, as long as the
buffer has room for it.

Proof: the three cases of the serializer, of which the refused one is excluded; the two
bytes behind the marker are the length in base 256. -/
theorem encodeTlvLength_eq {capacity : Option Nat} {len : Nat} {out : List UInt8}
    (encodable : len ≤ MAX_TLV_LENGTH)
    (enough : fits capacity (out.length + lFieldSize len) = true) :
    encodeTlvLength capacity len out = .ok (out ++ realLengthField len) := by
  unfold encodeTlvLength sharedEncodeTlvLength realLengthField
  rw [if_neg (Nat.not_lt.mpr encodable)]
  unfold lFieldSize at enough
  split
  · next short =>
    rw [if_pos short] at enough
    rw [tryPush_of_fits enough]
    rfl
  · next long =>
    rw [if_neg long] at enough
    rw [tryPush_of_fits (fits_mono (by omega) enough)]
    simp only [Except.mapError, bind, Except.bind]
    rw [tryExtend_of_fits (by simpa [Nat.add_assoc] using enough)]
    simp [Nat.shiftRight_eq_div_pow]

/-- The bytes of a block with a value: its tag, the length field and the value. -/
def encodedValue (tag : UInt8) (data : List UInt8) : List UInt8 :=
  tag :: (realLengthField data.length ++ data)

/-- Such a block is as long as its tag, its length field and its value together. -/
@[simp] theorem length_encodedValue (tag : UInt8) (data : List UInt8) :
    (encodedValue tag data).length = 1 + lFieldSize data.length + data.length := by
  simp [encodedValue]
  omega

/-- An encodable value within the capacity is serialized: neither the check of its length
nor a push into the buffer fails. -/
theorem encodeValue_eq {build : Build} {tag : UInt8} {data : List UInt8}
    (encodable : data.length ≤ MAX_TLV_LENGTH)
    (enough : fits build.dataCapacity (1 + lFieldSize data.length + data.length) = true) :
    (do
      let len ← checkedValueLength data.length
      let out ← tryPush build.dataCapacity [] tag
      let out ← encodeTlvLength build.dataCapacity len out
      tryExtend build.dataCapacity out data) = .ok (encodedValue tag data) := by
  have checked : checkedValueLength data.length = .ok data.length := by
    unfold checkedValueLength
    exact if_pos ⟨Nat.le_trans encodable (by decide), encodable⟩
  rw [checked]
  simp only [bind, Except.bind]
  rw [tryPush_of_fits (fits_mono (by simp; omega) enough)]
  simp only [List.nil_append]
  rw [encodeTlvLength_eq encodable (fits_mono (by simp) enough)]
  simp only
  rw [tryExtend_of_fits (fits_mono (by simp [Nat.add_comm]) enough)]
  simp [encodedValue]

/-- `Tlv::to_bytes` of an NDEF Message TLV, which is what the writer has placed once the
real length is set. -/
theorem toBytes_ndefMessage {build : Build} {data : List UInt8}
    (encodable : data.length ≤ MAX_TLV_LENGTH)
    (enough : fits build.dataCapacity (1 + lFieldSize data.length + data.length) = true) :
    (Tlv.ndefMessage data).toBytes build = .ok (encodedValue TLV_NDEF_MESSAGE data) :=
  encodeValue_eq encodable enough

/-- Serialized blocks, one behind the other: what a data area made of these blocks starts
with. -/
def encodeTlvs (build : Build) : List Tlv → Except Type2Error (List UInt8)
  | [] => .ok []
  | tlv :: rest => do
    let block ← tlv.toBytes build
    let onward ← encodeTlvs build rest
    return block ++ onward

end NfcForumTags
