import NfcForumTags.CapabilityContainer
import NfcForumTags.Tlv

/-!
# Memory layout

Blocks of four bytes, sectors of 256 blocks. A layout knows the size of the data
area and the lock and reserved areas that interrupt it. The bytes outside every
area are usable; the n-th usable byte from address 16 on is found by walking the
address space.
-/
namespace NfcForumTags

/-- Block number of the Capability Container. -/
def CC_BLOCK : UInt8 := 3

/-- First block of the data area. -/
def DATA_START_BLOCK : UInt8 := 4

/-- The block of the container as a number. -/
@[simp] theorem CC_BLOCK_toNat : CC_BLOCK.toNat = 3 := rfl

/-- The first block of the data area as a number. -/
@[simp] theorem DATA_START_BLOCK_toNat : DATA_START_BLOCK.toNat = 4 := rfl

/-- Data area size of the static memory structure. -/
def STATIC_DATA_AREA_SIZE : Nat := 48

/-- A contiguous region of lock bytes. -/
structure LockArea where
  byteAddress : Nat
  sizeInBits : Nat
  bytesPerLockBit : Nat
deriving DecidableEq, Repr

namespace LockArea

/-- `lock_byte_count`: eight lock bits to the byte, rounded up. -/
def lockByteCount (area : LockArea) : Nat := (area.sizeInBits + 7) / 8

/-- Saturating: an end past the 32-bit space is clamped, not wrapped. -/
def endAddress (area : LockArea) : Nat := min (area.byteAddress + area.lockByteCount) U32_MAX

/-- The area that a Lock Control TLV describes. -/
def fromLockControl (value : LockControlValue) : LockArea :=
  ⟨value.byteAddress, value.sizeInBits, value.bytesPerLockBit⟩

/-- Whether the area contains a byte address. -/
def contains (area : LockArea) (addr : Nat) : Bool :=
  decide (area.byteAddress ≤ addr) && decide (addr < area.endAddress)

end LockArea

/-- A reserved memory region. -/
structure ReservedArea where
  byteAddress : Nat
  size : Nat
deriving DecidableEq, Repr

namespace ReservedArea

/-- Saturating, as that of a lock area. -/
def endAddress (area : ReservedArea) : Nat := min (area.byteAddress + area.size) U32_MAX

/-- The area that a Memory Control TLV describes. -/
def fromMemoryControl (value : MemoryControlValue) : ReservedArea :=
  ⟨value.byteAddress, value.sizeInBytes⟩

/-- Whether the area contains a byte address. -/
def contains (area : ReservedArea) (addr : Nat) : Bool :=
  decide (area.byteAddress ≤ addr) && decide (addr < area.endAddress)

end ReservedArea

/-- The physical layout of a tag: the size of its data area and the areas to skip. -/
structure MemoryLayout where
  dataAreaSize : Nat
  lockAreas : List LockArea
  reservedAreas : List ReservedArea
deriving DecidableEq, Repr

/-- The lock area of a dynamic tag without a Lock Control TLV: one bit for every
eight bytes past the static data area, placed right after the data area. -/
def defaultDynamicLockArea (dataAreaSize : Nat) : LockArea :=
  let extraBytes := dataAreaSize - STATIC_DATA_AREA_SIZE
  { byteAddress := DATA_START_BLOCK.toNat * BLOCK_SIZE + dataAreaSize
    sizeInBits := (extraBytes + 7) / 8
    bytesPerLockBit := 8 }

/-- `push_area` with its result discarded: a full vector drops the area. -/
def pushArea {α : Type} (capacity : Option Nat) (areas : List α) (area : α) : List α :=
  match tryPush capacity areas area with
  | .ok pushed => pushed
  | .error _ => areas

namespace MemoryLayout

/-- The lock and reserved areas that the control TLVs describe, in order. -/
def collectAreas (build : Build) :
    List Tlv → List LockArea × List ReservedArea → List LockArea × List ReservedArea
  | [], areas => areas
  | .lockControl value :: rest, (locks, reserved) =>
    collectAreas build rest (pushArea build.areaCapacity locks (.fromLockControl value), reserved)
  | .memoryControl value :: rest, (locks, reserved) =>
    collectAreas build rest (locks, pushArea build.areaCapacity reserved (.fromMemoryControl value))
  | _ :: rest, areas => collectAreas build rest areas

/-- `MemoryLayout::from_cc_and_tlvs`: the areas of the control TLVs, and the default lock
area where a dynamic tag has no Lock Control TLV. -/
def fromCcAndTlvs (build : Build) (cc : CapabilityContainer) (tlvs : List Tlv) : MemoryLayout :=
  let dataAreaSize := cc.dataAreaSize
  let (locks, reserved) := collectAreas build tlvs ([], [])
  -- A dynamic tag without Lock Control TLVs has the default lock area.
  let locks :=
    if cc.isDynamic && locks.isEmpty then
      pushArea build.areaCapacity locks (defaultDynamicLockArea dataAreaSize)
    else locks
  { dataAreaSize, lockAreas := locks, reservedAreas := reserved }

/-- Whether a byte address is in a lock or reserved area. -/
def isSkipArea (layout : MemoryLayout) (byteAddr : Nat) : Bool :=
  layout.lockAreas.any (·.contains byteAddr) || layout.reservedAreas.any (·.contains byteAddr)

/-- The bytes before the data area, of the data area and of all areas. -/
def totalBytes (layout : MemoryLayout) : Nat :=
  layout.dataAreaSize + DATA_START_BLOCK.toNat * BLOCK_SIZE +
    (layout.lockAreas.map LockArea.lockByteCount).sum +
    (layout.reservedAreas.map ReservedArea.size).sum

/-- Total number of sectors needed, at most 255. The sum has 32 bits and wraps where
overflow is not checked. -/
def sectorCount (layout : MemoryLayout) : UInt8 :=
  let sectors := (layout.totalBytes % (U32_MAX + 1) + (SECTOR_SIZE - 1)) / SECTOR_SIZE
  (min sectors 255).toUInt8

/-- Sector, block and offset of a linear byte address, up to the last sector. -/
def addressToSectorBlock (byteAddr : Nat) : Option (UInt8 × UInt8 × UInt8) :=
  let sector := byteAddr / SECTOR_SIZE
  if MAX_SECTOR.toNat < sector then none
  else
    let withinSector := byteAddr % SECTOR_SIZE
    let block := (withinSector / BLOCK_SIZE).toUInt8
    let offset := (withinSector % BLOCK_SIZE).toUInt8
    some (sector.toUInt8, block, offset)

/-- Linear byte address of a sector, block and offset; none for the reserved sector. -/
def sectorBlockToAddress (sector block offset : UInt8) : Option Nat :=
  if MAX_SECTOR < sector then none
  else some (sector.toNat * SECTOR_SIZE + block.toNat * BLOCK_SIZE + offset.toNat)

/-- An address inside the address space is converted by division. -/
theorem addressToSectorBlock_eq {byteAddr : Nat} (inside : byteAddr < ADDRESS_SPACE_END) :
    addressToSectorBlock byteAddr = some ((byteAddr / 1024).toUInt8,
      (byteAddr % 1024 / 4).toUInt8, (byteAddr % 1024 % 4).toUInt8) := by
  simp only [ADDRESS_SPACE_END_eq] at inside
  have sector : ¬ 254 < byteAddr / 1024 := by omega
  simp [addressToSectorBlock, sector]

/-- A converted address lies in the address space, and its sector, block and
offset are its quotients and remainders without any byte overflow. -/
theorem addressToSectorBlock_some {byteAddr : Nat} {sector block offset : UInt8}
    (located : addressToSectorBlock byteAddr = some (sector, block, offset)) :
    byteAddr < ADDRESS_SPACE_END ∧ sector.toNat = byteAddr / 1024 ∧
      block.toNat = byteAddr % 1024 / 4 ∧ offset.toNat = byteAddr % 4 := by
  have inside : byteAddr < ADDRESS_SPACE_END := by
    by_contra outside
    simp only [ADDRESS_SPACE_END_eq] at outside
    have beyond : 254 < byteAddr / 1024 := by omega
    simp [addressToSectorBlock, beyond] at located
  rw [addressToSectorBlock_eq inside] at located
  simp only [ADDRESS_SPACE_END_eq] at inside
  simp only [Option.some.injEq, Prod.mk.injEq] at located
  obtain ⟨rfl, rfl, rfl⟩ := located
  refine ⟨inside, ?_, ?_, ?_⟩ <;> simp only [Nat.toUInt8, UInt8.toNat_ofNat'] <;> omega

/-- The next page begins closer to the end of the address space. -/
theorem nextPage_closer {byteAddr : Nat} {sector block offset : UInt8}
    (located : addressToSectorBlock byteAddr = some (sector, block, offset)) :
    ADDRESS_SPACE_END - (byteAddr - offset.toNat + BLOCK_SIZE) < ADDRESS_SPACE_END - byteAddr := by
  obtain ⟨inside, -, -, position⟩ := addressToSectorBlock_some located
  simp only [ADDRESS_SPACE_END_eq] at inside
  simp only [BLOCK_SIZE_eq, ADDRESS_SPACE_END_eq]
  omega

/-- The next block begins closer to the end of the address space. -/
theorem nextBlock_closer {byteAddr : Nat} {sector block offset : UInt8}
    (located : addressToSectorBlock byteAddr = some (sector, block, offset)) :
    ADDRESS_SPACE_END - (byteAddr + BLOCK_SIZE) < ADDRESS_SPACE_END - byteAddr := by
  obtain ⟨inside, -, -, -⟩ := addressToSectorBlock_some located
  simp only [ADDRESS_SPACE_END_eq] at inside
  simp only [BLOCK_SIZE_eq, ADDRESS_SPACE_END_eq]
  omega

/-- The walk of `usable_offset_to_address` from `addr` on. -/
def walkUsable (layout : MemoryLayout) (addr remaining : Nat) : Option Nat :=
  if ended : ADDRESS_SPACE_END ≤ addr then none
  else if layout.isSkipArea addr then layout.walkUsable (addr + 1) remaining
  else if remaining = 0 then some addr
  else layout.walkUsable (addr + 1) (remaining - 1)
termination_by ADDRESS_SPACE_END - addr
decreasing_by all_goals (simp only [ADDRESS_SPACE_END_eq] at ended ⊢; omega)

/-- Physical address of the `n`-th usable byte of the data area. -/
def usableOffsetToAddress (layout : MemoryLayout) (n : Nat) : Option Nat :=
  layout.walkUsable (DATA_START_BLOCK.toNat * BLOCK_SIZE) n

end MemoryLayout

end NfcForumTags
