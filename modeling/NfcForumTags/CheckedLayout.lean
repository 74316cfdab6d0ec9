import NfcForumTags.CheckedTlv

/-!
# The layout with checked operations

Layouts are built from control values, whose exponents are nibbles when they were read
from bytes, so that no address and no shift overflows. Whether an address is skipped is
decided with saturating additions only and cannot panic. The walk to the n-th usable byte
has a bound of one round for each address.
-/
namespace NfcForumTags

open Panic

namespace Checked

/-- `data_area_size`, its product checked in `u16`. -/
def dataAreaSize (cc : CapabilityContainer) : Except (Stop Type2Error) Nat :=
  mul U16_MAX cc.sizeField.toNat 8

/-- The lock area of a control value, its address and its shift checked. -/
def LockArea.fromLockControl (value : LockControlValue) : Except (Stop Type2Error) LockArea := do
  let byteAddress ← LockControlValue.byteAddress value
  let bytesPerLockBit ← LockControlValue.bytesPerLockBit value
  return ⟨byteAddress, value.sizeInBits, bytesPerLockBit⟩

/-- The reserved area of a control value, its address checked. -/
def ReservedArea.fromMemoryControl (value : MemoryControlValue) :
    Except (Stop Type2Error) ReservedArea := do
  let byteAddress ← MemoryControlValue.byteAddress value
  return ⟨byteAddress, value.sizeInBytes⟩

/-- The default lock area right behind the data area, its address checked in `u32`. -/
def defaultDynamicLockArea (dataAreaSize : Nat) : Except (Stop Type2Error) LockArea := do
  -- `saturating_sub`
  let extraBytes := dataAreaSize - STATIC_DATA_AREA_SIZE
  let byteAddress ← add U32_MAX (DATA_START_BLOCK.toNat * BLOCK_SIZE) dataAreaSize
  return {
    byteAddress
    sizeInBits := (extraBytes + 7) / 8
    bytesPerLockBit := 8 }

/-- The loop of `from_cc_and_tlvs` over the parsed blocks. -/
def collectAreas (build : Build) : List Tlv → List LockArea → List ReservedArea →
    Except (Stop Type2Error) (List LockArea × List ReservedArea)
  | [], locks, reserved => .ok (locks, reserved)
  | .lockControl value :: rest, locks, reserved => do
    let area ← LockArea.fromLockControl value
    collectAreas build rest (pushArea build.areaCapacity locks area) reserved
  | .memoryControl value :: rest, locks, reserved => do
    let area ← ReservedArea.fromMemoryControl value
    collectAreas build rest locks (pushArea build.areaCapacity reserved area)
  | _ :: rest, locks, reserved => collectAreas build rest locks reserved

/-- `MemoryLayout::from_cc_and_tlvs` over the checked areas. -/
def fromCcAndTlvs (build : Build) (cc : CapabilityContainer) (tlvs : List Tlv) :
    Except (Stop Type2Error) MemoryLayout := do
  let dataAreaSize ← dataAreaSize cc
  let (locks, reserved) ← collectAreas build tlvs [] []
  let locks ← (
    if cc.isDynamic && locks.isEmpty then do
      let defaultLock ← defaultDynamicLockArea dataAreaSize
      return pushArea build.areaCapacity locks defaultLock
    else return locks)
  return { dataAreaSize, lockAreas := locks, reservedAreas := reserved }

/-- The walk of `usable_offset_to_address`, of at most `rounds` rounds. -/
def walkUsable (layout : MemoryLayout) (rounds addr remaining : Nat) :
    Except (Stop Type2Error) (Option Nat) :=
  match rounds with
  | 0 => .error .hang
  | rounds + 1 =>
    if ADDRESS_SPACE_END ≤ addr then .ok none
    else if layout.isSkipArea addr = false ∧ remaining = 0 then .ok (some addr)
    else do
      let remaining ← if layout.isSkipArea addr then .ok remaining else sub remaining 1
      match checkedAdd U32_MAX addr 1 with
      | none => .ok none
      | some addr => walkUsable layout rounds addr remaining

/-- A round for each address and one to notice the end. -/
def usableOffsetToAddress (layout : MemoryLayout) (n : Nat) :
    Except (Stop Type2Error) (Option Nat) :=
  walkUsable layout (ADDRESS_SPACE_END + 1) (DATA_START_BLOCK.toNat * BLOCK_SIZE) n

/-- `sum` of an iterator, from this value on. -/
def sum (total : Nat) : List Nat → Except (Stop Type2Error) Nat
  | [] => .ok total
  | first :: rest => do sum (← add U32_MAX total first) rest

/-- `sector_count`, its four sums checked in `u32`. -/
def sectorCount (layout : MemoryLayout) : Except (Stop Type2Error) UInt8 := do
  let total ← add U32_MAX layout.dataAreaSize (DATA_START_BLOCK.toNat * BLOCK_SIZE)
  let total ← add U32_MAX total (← sum 0 (layout.lockAreas.map LockArea.lockByteCount))
  let total ← add U32_MAX total (← sum 0 (layout.reservedAreas.map ReservedArea.size))
  -- `div_ceil`
  let sectors := (total + (SECTOR_SIZE - 1)) / SECTOR_SIZE
  return (min sectors 255).toUInt8

/-! ## Agreement -/

/-- A size field is at most 255, so that eight times it fits a `u16`. -/
theorem dataAreaSize_ok (cc : CapabilityContainer) : dataAreaSize cc = .ok cc.dataAreaSize :=
  mul_ok (cc.dataAreaSize_le.trans (by decide))

/-- The lock area of a value that was read is computed without a panic: its fields are
nibbles, so that the shift stays below the width of the type and the address below 2^20. -/
theorem LockArea.fromLockControl_ok {bytes : Vector UInt8 3} {value : LockControlValue}
    (read : NfcForumTags.LockControlValue.fromBytes bytes = .ok value) :
    LockArea.fromLockControl value = .ok (.fromLockControl value) := by
  obtain ⟨-, -, -, perPage, perBit⟩ := LockControlValue.fields_of_read read
  have page : value.bytesPerPage.toNat < 16 := perPage ▸ lowNibble_lt _
  have bit : value.bytesLockedPerBit.toNat < 16 := perBit ▸ highNibble_lt _
  have small : 2 ^ value.bytesLockedPerBit.toNat ≤ 2 ^ 15 :=
    Nat.pow_le_pow_right (by decide) (by omega)
  unfold fromLockControl LockControlValue.byteAddress LockControlValue.bytesPerLockBit
  rw [controlAddress_ok _ _ page, shiftLeft_ok bit (by omega), Nat.one_mul]
  rfl

/-- So is the reserved area of a value that was read. -/
theorem ReservedArea.fromMemoryControl_ok {bytes : Vector UInt8 3} {value : MemoryControlValue}
    (read : NfcForumTags.MemoryControlValue.fromBytes bytes = .ok value) :
    ReservedArea.fromMemoryControl value = .ok (.fromMemoryControl value) := by
  obtain ⟨-, -, -, perPage⟩ := MemoryControlValue.fields_of_read read
  have page : value.bytesPerPage.toNat < 16 := perPage ▸ lowNibble_lt _
  unfold fromMemoryControl MemoryControlValue.byteAddress
  rw [controlAddress_ok _ _ page]
  rfl

/-- The areas of blocks that were read are collected without a panic.

Induction on the blocks. -/
theorem collectAreas_ok (build : Build) {tlvs : List Tlv} (read : ∀ tlv ∈ tlvs, tlv.FromBytes)
    (locks : List LockArea) (reserved : List ReservedArea) :
      collectAreas build tlvs locks reserved =
      .ok (MemoryLayout.collectAreas build tlvs (locks, reserved)) := by
  induction tlvs generalizing locks reserved with
  | nil => rfl
  | cons tlv rest inductionHypothesis =>
    have onward := inductionHypothesis fun tlv member => read tlv (List.mem_cons_of_mem _ member)
    have first := read tlv List.mem_cons_self
    cases tlv with
    | lockControl value =>
      obtain ⟨bytes, first⟩ := first
      rw [collectAreas, LockArea.fromLockControl_ok first]
      exact onward _ _
    | memoryControl value =>
      obtain ⟨bytes, first⟩ := first
      rw [collectAreas, ReservedArea.fromMemoryControl_ok first]
      exact onward _ _
    | null | ndefMessage _ | proprietary _ | terminator => exact onward locks reserved

/-- Building a layout from control values that were read from bytes does not panic. -/
theorem fromCcAndTlvs_ok (build : Build) (cc : CapabilityContainer) {tlvs : List Tlv}
    (read : ∀ tlv ∈ tlvs, tlv.FromBytes) :
    fromCcAndTlvs build cc tlvs = .ok (.fromCcAndTlvs build cc tlvs) := by
  have size := cc.dataAreaSize_le
  unfold fromCcAndTlvs MemoryLayout.fromCcAndTlvs
  rw [dataAreaSize_ok, collectAreas_ok build read]
  have default : defaultDynamicLockArea cc.dataAreaSize =
      .ok (NfcForumTags.defaultDynamicLockArea cc.dataAreaSize) := by
    unfold defaultDynamicLockArea
    rw [add_ok (by unfold U32_MAX; simp; omega)]
    rfl
  simp only [bind, Except.bind, pure, Except.pure, default]
  by_cases added :
      (cc.isDynamic && (MemoryLayout.collectAreas build tlvs ([], [])).1.isEmpty) = true
  · rw [if_pos added, if_pos added]
  · rw [if_neg added, if_neg added]

/-- The walk for a usable offset ends within its rounds, if these reach the end of the
address space.

Induction on the rounds. -/
theorem walkUsable_ok (layout : MemoryLayout) (rounds addr remaining : Nat)
    (reached : addr ≤ ADDRESS_SPACE_END) (enough : ADDRESS_SPACE_END < addr + rounds) :
    walkUsable layout rounds addr remaining = .ok (layout.walkUsable addr remaining) := by
  induction rounds generalizing addr remaining with
  | zero => omega
  | succ rounds inductionHypothesis =>
    rw [walkUsable, MemoryLayout.walkUsable]
    by_cases ended : ADDRESS_SPACE_END ≤ addr
    · rw [if_pos ended, dif_pos ended]
    rw [if_neg ended, dif_neg ended]
    have room : addr + 1 ≤ U32_MAX := by
      simp only [ADDRESS_SPACE_END_eq] at ended
      unfold U32_MAX
      omega
    rw [checkedAdd_some room]
    cases skipped : layout.isSkipArea addr with
    | true => exact inductionHypothesis (addr + 1) remaining (by omega) (by omega)
    | false =>
      by_cases last : remaining = 0
      · rw [if_pos ⟨rfl, last⟩, if_neg Bool.false_ne_true, if_pos last]
      · rw [if_neg fun both => last both.2, if_neg Bool.false_ne_true, if_neg Bool.false_ne_true,
          if_neg last, sub_ok (by omega)]
        exact inductionHypothesis (addr + 1) (remaining - 1) (by omega) (by omega)

/-- The walk for a usable offset neither panics nor hangs, whatever the layout and the
offset. -/
theorem usableOffsetToAddress_ok (layout : MemoryLayout) (n : Nat) :
    usableOffsetToAddress layout n = .ok (layout.usableOffsetToAddress n) :=
  walkUsable_ok layout _ _ n (by simp) (by omega)

/-- A sum that fits a `u32` is computed.

Induction on the summands. -/
theorem sum_ok {total : Nat} (sizes : List Nat) (room : total + sizes.sum ≤ U32_MAX) :
    sum total sizes = .ok (total + sizes.sum) := by
  induction sizes generalizing total with
  | nil => rfl
  | cons first rest inductionHypothesis =>
    rw [List.sum_cons] at room ⊢
    rw [sum, add_ok (by omega)]
    exact (inductionHypothesis (by omega)).trans (by rw [Nat.add_assoc])

/-- Counting the sectors does not panic where all bytes together are counted by 32 bits. -/
theorem sectorCount_ok {layout : MemoryLayout} (room : layout.totalBytes ≤ U32_MAX) :
    sectorCount layout = .ok layout.sectorCount := by
  unfold MemoryLayout.sectorCount
  rw [Nat.mod_eq_of_lt (Nat.lt_succ_of_le room)]
  unfold MemoryLayout.totalBytes at room ⊢
  unfold sectorCount
  rw [add_ok (by omega), sum_ok _ (by omega), sum_ok _ (by omega)]
  simp only [bind, Except.bind, Nat.zero_add]
  rw [add_ok (by omega)]
  dsimp only
  rw [add_ok (by omega)]
  rfl

end Checked

end NfcForumTags
