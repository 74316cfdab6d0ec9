import NfcForumTags.Buffer

/-!
# The Capability Container

Block 3 of a Type 2 Tag: a magic byte, the mapping version, the size of the data
area in units of eight bytes, and the access conditions as two nibbles. The size
byte bounds the data area by 2040 bytes; that bound is used by the writer and by
the address arithmetic of the layout.
-/
namespace NfcForumTags

/-- Access condition for read or write operations. -/
inductive AccessCondition where
  | granted
  | denied
  | proprietary (nibble : UInt8)
  | rfu (nibble : UInt8)
deriving DecidableEq, Repr

/-- Parse a 4-bit nibble. -/
def AccessCondition.fromNibble (nibble : UInt8) : AccessCondition :=
  if nibble = 0x00 then .granted
  else if nibble = 0x0F then .denied
  else if 0x08 ≤ nibble ∧ nibble ≤ 0x0E then .proprietary nibble
  else .rfu nibble

/-- Encode as a 4-bit nibble. -/
def AccessCondition.toNibble : AccessCondition → UInt8
  | .granted => 0x00
  | .denied => 0x0F
  | .proprietary nibble => nibble
  | .rfu nibble => nibble

/-- Tag lifecycle state. -/
inductive TagState where
  /-- The NDEF message is empty. -/
  | initialized
  /-- There is a message, and it may be written. -/
  | readWrite
  /-- There is a message, and writing is denied. -/
  | readOnly
deriving DecidableEq, Repr

/-- The first byte of a container. -/
def CC_MAGIC : UInt8 := 0xE1

/-- The last major version that is read. -/
def SUPPORTED_MAJOR_VERSION : UInt8 := 1

/-- The Capability Container: version, size of the data area and access conditions. -/
structure CapabilityContainer where
  versionMajor : UInt8
  versionMinor : UInt8
  /-- CC2: the data area holds eight times this many bytes. -/
  sizeField : UInt8
  readAccess : AccessCondition
  writeAccess : AccessCondition
deriving DecidableEq, Repr

/-- Four bytes are the vector of its four entries. -/
theorem vector_four {α : Type} (bytes : Vector α 4) :
    #v[bytes[0], bytes[1], bytes[2], bytes[3]] = bytes := by
  ext i inside
  obtain rfl | rfl | rfl | rfl : i = 0 ∨ i = 1 ∨ i = 2 ∨ i = 3 := by omega
  all_goals rfl

namespace CapabilityContainer

/-- Data area size in bytes. -/
def dataAreaSize (cc : CapabilityContainer) : Nat := cc.sizeField.toNat * 8

/-- Whether this is a dynamic memory tag, with a data area over 48 bytes. -/
def isDynamic (cc : CapabilityContainer) : Bool := decide (0x06 < cc.sizeField)

/-- Whether the version is supported and read access is granted. -/
def isValid (cc : CapabilityContainer) : Bool :=
  decide (cc.versionMajor = SUPPORTED_MAJOR_VERSION) && decide (cc.readAccess = .granted)

/-- The state of a tag with an NDEF message of this length; none without a valid
container, or when access and length fit no state. -/
def tagState (cc : CapabilityContainer) (ndefTlvLength : Nat) : Option TagState :=
  if cc.isValid = false then none
  else if ndefTlvLength = 0 ∧ cc.writeAccess = .granted then some .initialized
  else if 0 < ndefTlvLength ∧ cc.writeAccess = .granted then some .readWrite
  else if 0 < ndefTlvLength ∧ cc.writeAccess = .denied then some .readOnly
  else none

/-- Serialize to the four bytes of block 3. -/
def toBytes (cc : CapabilityContainer) : Vector UInt8 4 :=
  #v[CC_MAGIC, (cc.versionMajor <<< 4) ||| (cc.versionMinor &&& 0x0F), cc.sizeField,
    (cc.readAccess.toNibble <<< 4) ||| cc.writeAccess.toNibble]

/-- `TryFrom<[u8; 4]>`: the four bytes of block 3. -/
def tryFrom (bytes : Vector UInt8 4) : Except Type2Error CapabilityContainer :=
  if bytes[0] ≠ CC_MAGIC then .error (.invalidMagic bytes[0])
  else
    let versionMajor := bytes[1] >>> 4
    let versionMinor := bytes[1] &&& 0x0F
    if SUPPORTED_MAJOR_VERSION < versionMajor then
      .error (.unsupportedVersion versionMajor versionMinor)
    else .ok {
      versionMajor
      versionMinor
      sizeField := bytes[2]
      readAccess := .fromNibble (bytes[3] >>> 4)
      writeAccess := .fromNibble (bytes[3] &&& 0x0F) }

/-- `TryFrom<&[u8]>`: the first four bytes of a slice. -/
def tryFromSlice (slice : List UInt8) : Except Type2Error CapabilityContainer :=
  if short : slice.length < 4 then .error .invalidLength
  else tryFrom #v[slice[0], slice[1], slice[2], slice[3]]

/-- One size byte counts at most 255 units of eight bytes. -/
theorem dataAreaSize_le (cc : CapabilityContainer) : cc.dataAreaSize ≤ 2040 := by
  have byte : cc.sizeField.toNat < 256 := cc.sizeField.toNat_lt
  unfold dataAreaSize
  omega

end CapabilityContainer

end NfcForumTags
