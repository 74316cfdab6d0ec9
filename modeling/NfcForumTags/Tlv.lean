import NfcForumTags.Buffer

/-!
# TLV blocks

The data area holds a sequence of Tag-Length-Value blocks. NULL and Terminator
have neither length nor value; a length is one byte below 0xFF, or 0xFF followed
by two big-endian bytes. The parser walks an offset through the data, skips the
value of an unknown tag without recording it, and stops at the first Terminator
at a block boundary.
-/
namespace NfcForumTags

open Program

/-- Bytes of a block. -/
def BLOCK_SIZE : Nat := 4

/-- Blocks of a sector. -/
def BLOCKS_PER_SECTOR : Nat := 256

/-- Bytes of a sector. -/
def SECTOR_SIZE : Nat := BLOCK_SIZE * BLOCKS_PER_SECTOR

/-- Highest addressable sector number; sector 0xFF is reserved. -/
def MAX_SECTOR : UInt8 := 0xFE

/-- One past the last addressable byte. -/
def ADDRESS_SPACE_END : Nat := (MAX_SECTOR.toNat + 1) * SECTOR_SIZE

/-- The size of a block as a number. -/
@[simp] theorem BLOCK_SIZE_eq : BLOCK_SIZE = 4 := rfl

/-- The size of a sector as a number. -/
@[simp] theorem SECTOR_SIZE_eq : SECTOR_SIZE = 1024 := rfl

/-- The last sector that may be selected, as a number. -/
@[simp] theorem MAX_SECTOR_toNat : MAX_SECTOR.toNat = 254 := rfl

/-- The end of the address space as a number: 255 sectors. -/
@[simp] theorem ADDRESS_SPACE_END_eq : ADDRESS_SPACE_END = 261120 := rfl

/-- Largest value of a 32-bit address. -/
def U32_MAX : Nat := 4294967295

/-- Tag byte of a NULL block. -/
def TLV_NULL : UInt8 := 0x00

/-- Tag byte of a Lock Control TLV. -/
def TLV_LOCK_CONTROL : UInt8 := 0x01

/-- Tag byte of a Memory Control TLV. -/
def TLV_MEMORY_CONTROL : UInt8 := 0x02

/-- Tag byte of an NDEF Message TLV. -/
def TLV_NDEF_MESSAGE : UInt8 := 0x03

/-- Tag byte of a Proprietary TLV. -/
def TLV_PROPRIETARY : UInt8 := 0xFD

/-- Tag byte of the Terminator. -/
def TLV_TERMINATOR : UInt8 := 0xFE

/-- Largest length encodable in a length field; 0xFFFF is reserved. -/
def MAX_TLV_LENGTH : Nat := 0xFFFE

/-! ## The length field -/

/-- Errors of the shared TLV helpers. -/
inductive TlvError where
  | invalidTlv
  | bufferFull
deriving DecidableEq, Repr

/-- The value of the length field starting at `offset`, and its size. -/
def sharedParseTlvLength (data : List UInt8) (offset : Nat) : Except TlvError (Nat × Nat) :=
  if outside : data.length ≤ offset then .error .invalidTlv
  else
    let first := data[offset]
    if first < 0xFF then .ok (first.toNat, 1)
    else if short : data.length < offset + 3 then .error .invalidTlv
    else .ok (data[offset + 1].toNat * 256 + data[offset + 2].toNat, 3)

/-- Append a length field: one byte below 255, three from 255 on. -/
def sharedEncodeTlvLength (capacity : Option Nat) (len : Nat) (out : List UInt8) :
    Except TlvError (List UInt8) :=
  if MAX_TLV_LENGTH < len then .error .invalidTlv
  else if len < 0xFF then (tryPush capacity out len.toUInt8).mapError fun _ => .bufferFull
  else do
    let out ← (tryPush capacity out 0xFF).mapError fun _ => .bufferFull
    (tryExtend capacity out [(len / 256).toUInt8, len.toUInt8]).mapError fun _ => .bufferFull

/-- `parse_tlv_length` of the Type 2 parser: every error is a malformed TLV. -/
def parseTlvLength (data : List UInt8) (offset : Nat) : Except Type2Error (Nat × Nat) :=
  (sharedParseTlvLength data offset).mapError fun _ => .invalidTlv

/-- `encode_tlv_length` of the Type 2 serializer. -/
def encodeTlvLength (capacity : Option Nat) (len : Nat) (out : List UInt8) :
    Except Type2Error (List UInt8) :=
  (sharedEncodeTlvLength capacity len out).mapError fun error =>
    match error with
    | .bufferFull => .bufferFull
    | .invalidTlv => .invalidTlv

/-! ## Control values -/

/-- Three bytes are the vector of its three entries. -/
theorem vector_three {α : Type} (bytes : Vector α 3) :
    #v[bytes[0], bytes[1], bytes[2]] = bytes := by
  ext i inside
  obtain rfl | rfl | rfl : i = 0 ∨ i = 1 ∨ i = 2 := by omega
  all_goals rfl

/-- A control descriptor's whole range lies in the addressable sectors. -/
def checkAreaInAddressSpace (start size : Nat) : Except Type2Error Unit :=
  if U32_MAX < start + size then .error .invalidTlv
  else if ADDRESS_SPACE_END ≤ start ∨ ADDRESS_SPACE_END < start + size then .error .invalidTlv
  else .ok ()

/-- A range that passes the check lies in the address space. -/
theorem inside_of_checked {start size : Nat}
    (checked : checkAreaInAddressSpace start size = .ok ()) :
    start + size ≤ ADDRESS_SPACE_END := by
  unfold checkAreaInAddressSpace at checked
  split at checked
  · cases checked
  split at checked
  · cases checked
  · omega

/-- Position and size of a dynamic lock area. -/
structure LockControlValue where
  pageAddr : UInt8
  byteOffset : UInt8
  /-- Number of lock bits; the byte 0x00 stands for 256. -/
  sizeInBits : Nat
  bytesPerPage : UInt8
  bytesLockedPerBit : UInt8
deriving DecidableEq, Repr

namespace LockControlValue

/-- First lock byte in the linear address space. -/
def byteAddress (value : LockControlValue) : Nat :=
  value.pageAddr.toNat * 2 ^ value.bytesPerPage.toNat + value.byteOffset.toNat

/-- Lock bits rounded up to whole bytes. -/
def lockByteCount (value : LockControlValue) : Nat := (value.sizeInBits + 7) / 8

/-- Number of data bytes each lock bit protects. -/
def bytesPerLockBit (value : LockControlValue) : Nat := 2 ^ value.bytesLockedPerBit.toNat

/-- `LockControlValue::from_bytes`: refused if the field of the bytes per page or that of
the bytes locked per bit is zero, or if the lock bytes leave the address space. -/
def fromBytes (bytes : Vector UInt8 3) : Except Type2Error LockControlValue := do
  let bytesPerPage := bytes[2] &&& 0x0F
  let bytesLockedPerBit := bytes[2] >>> 4
  if bytesPerPage = 0 ∨ bytesLockedPerBit = 0 then throw .invalidTlv
  let value : LockControlValue := {
    pageAddr := bytes[0] >>> 4
    byteOffset := bytes[0] &&& 0x0F
    sizeInBits := if bytes[1] = 0 then 256 else bytes[1].toNat
    bytesPerPage
    bytesLockedPerBit }
  checkAreaInAddressSpace value.byteAddress value.lockByteCount
  return value

/-- The fields of a lock control value, by the bytes they are read from. -/
theorem fields_of_read {bytes : Vector UInt8 3} {value : LockControlValue}
    (read : fromBytes bytes = .ok value) :
    value.pageAddr = bytes[0] >>> 4 ∧ value.byteOffset = bytes[0] &&& 0x0F ∧
      value.sizeInBits = (if bytes[1] = 0 then 256 else bytes[1].toNat) ∧
      value.bytesPerPage = bytes[2] &&& 0x0F ∧ value.bytesLockedPerBit = bytes[2] >>> 4 := by
  unfold fromBytes at read
  dsimp only at read
  split at read
  · cases read
  obtain ⟨_, -, same⟩ := ok_of_bind read
  obtain rfl := Except.ok.inj same
  exact ⟨rfl, rfl, rfl, rfl, rfl⟩

/-- The lock bytes lie in the address space. -/
theorem inside_of_read {bytes : Vector UInt8 3} {value : LockControlValue}
    (read : fromBytes bytes = .ok value) :
    value.byteAddress + value.lockByteCount ≤ ADDRESS_SPACE_END := by
  unfold fromBytes at read
  dsimp only at read
  split at read
  · cases read
  obtain ⟨_, checked, same⟩ := ok_of_bind read
  obtain rfl := Except.ok.inj same
  exact inside_of_checked checked

/-- `LockControlValue::to_bytes`: a size of 256 lock bits is the byte zero. -/
def toBytes (value : LockControlValue) : Vector UInt8 3 :=
  #v[(value.pageAddr <<< 4) ||| (value.byteOffset &&& 0x0F),
    if value.sizeInBits = 256 then 0 else value.sizeInBits.toUInt8,
    (value.bytesLockedPerBit <<< 4) ||| (value.bytesPerPage &&& 0x0F)]

end LockControlValue

/-- Position and size of a reserved memory area. -/
structure MemoryControlValue where
  pageAddr : UInt8
  byteOffset : UInt8
  /-- Size of the reserved area; the byte 0x00 stands for 256. -/
  sizeInBytes : Nat
  bytesPerPage : UInt8
deriving DecidableEq, Repr

namespace MemoryControlValue

/-- First reserved byte in the linear address space. -/
def byteAddress (value : MemoryControlValue) : Nat :=
  value.pageAddr.toNat * 2 ^ value.bytesPerPage.toNat + value.byteOffset.toNat

/-- `MemoryControlValue::from_bytes`: refused if the field of the bytes per page is zero or
if the area leaves the address space. -/
def fromBytes (bytes : Vector UInt8 3) : Except Type2Error MemoryControlValue := do
  let bytesPerPage := bytes[2] &&& 0x0F
  if bytesPerPage = 0 then throw .invalidTlv
  let value : MemoryControlValue := {
    pageAddr := bytes[0] >>> 4
    byteOffset := bytes[0] &&& 0x0F
    sizeInBytes := if bytes[1] = 0 then 256 else bytes[1].toNat
    bytesPerPage }
  checkAreaInAddressSpace value.byteAddress value.sizeInBytes
  return value

/-- The fields of a memory control value, by the bytes they are read from. -/
theorem fields_of_read {bytes : Vector UInt8 3} {value : MemoryControlValue}
    (read : fromBytes bytes = .ok value) :
    value.pageAddr = bytes[0] >>> 4 ∧ value.byteOffset = bytes[0] &&& 0x0F ∧
      value.sizeInBytes = (if bytes[1] = 0 then 256 else bytes[1].toNat) ∧
      value.bytesPerPage = bytes[2] &&& 0x0F := by
  unfold fromBytes at read
  dsimp only at read
  split at read
  · cases read
  obtain ⟨_, -, same⟩ := ok_of_bind read
  obtain rfl := Except.ok.inj same
  exact ⟨rfl, rfl, rfl, rfl⟩

/-- The reserved bytes lie in the address space. -/
theorem inside_of_read {bytes : Vector UInt8 3} {value : MemoryControlValue}
    (read : fromBytes bytes = .ok value) :
    value.byteAddress + value.sizeInBytes ≤ ADDRESS_SPACE_END := by
  unfold fromBytes at read
  dsimp only at read
  split at read
  · cases read
  obtain ⟨_, checked, same⟩ := ok_of_bind read
  obtain rfl := Except.ok.inj same
  exact inside_of_checked checked

/-- The upper nibble of the last byte of a memory control value is not looked at. -/
theorem fromBytes_congr {bytes others : Vector UInt8 3}
    (first : bytes[0] = others[0]) (second : bytes[1] = others[1])
    (third : bytes[2] &&& (0x0F : UInt8) = others[2] &&& (0x0F : UInt8)) :
    fromBytes bytes = fromBytes others := by
  unfold fromBytes
  simp only [first, second, third]

/-- Two times three bytes that differ in nothing but the upper nibble of the last. -/
structure Agree (bytes others : Vector UInt8 3) : Prop where
  first : bytes[0] = others[0]
  second : bytes[1] = others[1]
  third : bytes[2] &&& (0x0F : UInt8) = others[2] &&& (0x0F : UInt8)

/-- `MemoryControlValue::to_bytes`: a size of 256 bytes is the byte zero. -/
def toBytes (value : MemoryControlValue) : Vector UInt8 3 :=
  #v[(value.pageAddr <<< 4) ||| (value.byteOffset &&& 0x0F),
    if value.sizeInBytes = 256 then 0 else value.sizeInBytes.toUInt8,
    value.bytesPerPage &&& 0x0F]

end MemoryControlValue

/-! ## Blocks -/

/-- A parsed TLV block. -/
inductive Tlv where
  | null
  | lockControl (value : LockControlValue)
  | memoryControl (value : MemoryControlValue)
  | ndefMessage (data : List UInt8)
  | proprietary (data : List UInt8)
  | terminator
deriving DecidableEq, Repr

/-- `matches!(t, Tlv::LockControl(_) | Tlv::MemoryControl(_))`. -/
def Tlv.isControl : Tlv → Bool
  | .lockControl _ | .memoryControl _ => true
  | _ => false

/-- `push_tlv`: collect a parsed block, within the build's capacity. -/
def pushTlv (build : Build) (out : List Tlv) (tlv : Tlv) : Except Type2Error (List Tlv) :=
  tryPush build.tlvCapacity out tlv

/-- The parser's loop: the block at `offset`, then the rest. -/
def parseTlvsInto (build : Build) (data : List UInt8) (start : Nat) (out : List Tlv) :
    Except Type2Error (List Tlv) :=
  if inside : start < data.length then
    let tag := data[start]
    let offset := start + 1
    if tag = TLV_NULL then do
      let out ← pushTlv build out .null
      parseTlvsInto build data offset out
    else if tag = TLV_TERMINATOR then pushTlv build out .terminator
    else if tag = TLV_LOCK_CONTROL then do
      let (len, consumed) ← parseTlvLength data offset
      let offset := offset + consumed
      if bad : len ≠ 3 ∨ data.length < offset + 3 then throw .invalidTlv
      else
        let value ← LockControlValue.fromBytes #v[data[offset], data[offset + 1], data[offset + 2]]
        let out ← pushTlv build out (.lockControl value)
        parseTlvsInto build data (offset + 3) out
    else if tag = TLV_MEMORY_CONTROL then do
      let (len, consumed) ← parseTlvLength data offset
      let offset := offset + consumed
      if bad : len ≠ 3 ∨ data.length < offset + 3 then throw .invalidTlv
      else
        let value ← MemoryControlValue.fromBytes #v[data[offset], data[offset + 1],
          data[offset + 2]]
        let out ← pushTlv build out (.memoryControl value)
        parseTlvsInto build data (offset + 3) out
    else if tag = TLV_NDEF_MESSAGE then do
      let (len, consumed) ← parseTlvLength data offset
      let offset := offset + consumed
      if data.length < offset + len then throw .invalidTlv
      let value ← tryExtend build.dataCapacity [] ((data.drop offset).take len)
      let out ← pushTlv build out (.ndefMessage value)
      parseTlvsInto build data (offset + len) out
    else if tag = TLV_PROPRIETARY then do
      let (len, consumed) ← parseTlvLength data offset
      let offset := offset + consumed
      if data.length < offset + len then throw .invalidTlv
      let value ← tryExtend build.dataCapacity [] ((data.drop offset).take len)
      let out ← pushTlv build out (.proprietary value)
      parseTlvsInto build data (offset + len) out
    else do
      -- An unknown tag leaves nothing in the result.
      let (len, consumed) ← parseTlvLength data offset
      let offset := offset + consumed + len
      if data.length < offset then throw .invalidTlv
      parseTlvsInto build data offset out
  else .ok out
termination_by data.length - start

/-- Parse a sequence of TLV blocks, up to a Terminator or the end of the data. -/
def parseTlvs (build : Build) (data : List UInt8) : Except Type2Error (List Tlv) :=
  parseTlvsInto build data 0 []

/-- A value length the length field can represent. -/
def checkedValueLength (len : Nat) : Except Type2Error Nat :=
  if len ≤ 0xFFFF ∧ len ≤ MAX_TLV_LENGTH then .ok len else .error .outOfRange

/-- Serialize one TLV block. -/
def Tlv.toBytes (build : Build) (tlv : Tlv) : Except Type2Error (List UInt8) :=
  match tlv with
  | .null => tryPush build.dataCapacity [] TLV_NULL
  | .terminator => tryPush build.dataCapacity [] TLV_TERMINATOR
  | .lockControl value => do
    let out ← tryPush build.dataCapacity [] TLV_LOCK_CONTROL
    let out ← tryPush build.dataCapacity out 0x03
    tryExtend build.dataCapacity out value.toBytes.toList
  | .memoryControl value => do
    let out ← tryPush build.dataCapacity [] TLV_MEMORY_CONTROL
    let out ← tryPush build.dataCapacity out 0x03
    tryExtend build.dataCapacity out value.toBytes.toList
  | .ndefMessage data => do
    let len ← checkedValueLength data.length
    let out ← tryPush build.dataCapacity [] TLV_NDEF_MESSAGE
    let out ← encodeTlvLength build.dataCapacity len out
    tryExtend build.dataCapacity out data
  | .proprietary data => do
    let len ← checkedValueLength data.length
    let out ← tryPush build.dataCapacity [] TLV_PROPRIETARY
    let out ← encodeTlvLength build.dataCapacity len out
    tryExtend build.dataCapacity out data

/-- The message of an NDEF Message TLV. -/
def Tlv.ndefData : Tlv → Option (List UInt8)
  | .ndefMessage data => some data
  | _ => none

/-- The length of a block's value. -/
def Tlv.valueLength : Tlv → Except Type2Error Nat
  | .null | .terminator => .ok 0
  | .lockControl _ | .memoryControl _ => .ok 3
  | .ndefMessage data | .proprietary data => checkedValueLength data.length

/-- A Lock Control, a Memory Control and an empty NDEF Message TLV as a dynamic
tag presents them. -/
example : parseTlvs .alloc [0x01, 0x03, 0xE0, 0x06, 0x33, 0x02, 0x03, 0xE1, 0x0F, 0x03,
      0x03, 0x00, 0xFE] =
    .ok [.lockControl ⟨0x0E, 0, 6, 3, 3⟩, .memoryControl ⟨0x0E, 1, 15, 3⟩, .ndefMessage [],
      .terminator] := by decide +kernel

end NfcForumTags
