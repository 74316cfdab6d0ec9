import Mathlib.Data.List.Flatten
import Mathlib.Tactic.IntervalCases
import NfcForumTags.TlvGrammar

/-!
# The areas of a layout

A layout has the areas that the control values of a list of blocks describe, as far as
its vectors hold them, and on a dynamic tag without a Lock Control TLV the default lock
area. An address is skipped exactly when it lies in one of them. The areas of a data
area's blocks are few and small.
-/
namespace NfcForumTags

open Enumeration

/-! ## Within a capacity -/

section

variable {α : Type} {capacity : Option Nat}

/-- What a vector of this capacity holds after these elements have been pushed. -/
def held (capacity : Option Nat) (items : List α) : List α :=
  match capacity with
  | none => items
  | some limit => items.take limit

/-- A vector that nothing was pushed to holds nothing. -/
theorem held_nil : held capacity ([] : List α) = [] := by
  cases capacity with
  | none => rfl
  | some limit => exact List.take_nil

/-- What a vector holds is among what was pushed, in order. -/
theorem held_sublist (capacity : Option Nat) (items : List α) :
    (held capacity items).Sublist items := by
  cases capacity with
  | none => exact List.Sublist.refl items
  | some limit => exact List.take_sublist limit items

/-- Elements that fit are all held. -/
theorem held_of_fits {items : List α} (enough : fits capacity items.length = true) :
    held capacity items = items := by
  cases capacity with
  | none => rfl
  | some limit => exact List.take_of_length_le (of_decide_eq_true enough)

/-- What is made of the elements pushed is held as far as they are. -/
theorem held_map {β : Type} (f : α → β) (items : List α) :
    held capacity (items.map f) = (held capacity items).map f := by
  cases capacity with
  | none => rfl
  | some limit => exact List.map_take.symm

/-- With room for one element, a vector holds nothing only if nothing was pushed. -/
theorem held_isEmpty (room : fits capacity 1 = true) (items : List α) :
    (held capacity items).isEmpty = items.isEmpty := by
  cases capacity with
  | none => rfl
  | some limit =>
    have positive : 1 ≤ limit := of_decide_eq_true room
    cases items with
    | nil => rw [held_nil]
    | cons item rest =>
      obtain ⟨more, rfl⟩ := Nat.exists_eq_add_of_le' positive
      rfl

/-- A push is held if there is room, and dropped otherwise. -/
theorem pushArea_held (items : List α) (area : α) :
    pushArea capacity (held capacity items) area = held capacity (items ++ [area]) := by
  cases capacity with
  | none => rfl
  | some limit =>
    change pushArea (some limit) (items.take limit) area = (items ++ [area]).take limit
    unfold pushArea tryPush fits
    rw [List.length_take]
    by_cases room : items.length < limit
    · have enough : decide (min limit items.length + 1 ≤ limit) = true := decide_eq_true (by omega)
      have fits : (items ++ [area]).length ≤ limit := by
        rw [List.length_append, List.length_singleton]
        omega
      rw [if_pos enough, List.take_of_length_le room.le, List.take_of_length_le fits]
    · have full : ¬ decide (min limit items.length + 1 ≤ limit) = true := by simp; omega
      rw [if_neg full, List.take_append_of_le_length (Nat.le_of_not_lt room)]

/-- A push adds the area or drops it. -/
theorem pushArea_sublist (areas : List α) (area : α) :
    (pushArea capacity areas area).Sublist (areas ++ [area]) := by
  unfold pushArea tryPush
  cases fits capacity (areas.length + 1) with
  | true => exact List.Sublist.refl _
  | false => exact List.sublist_append_left areas [area]

end

/-! ## Between two addresses -/

section

variable {base size : Nat}

/-- An address before a clamped end is before the end. -/
theorem mem_range_of_clamped {addr : Nat}
    (inside : (decide (base ≤ addr) && decide (addr < min (base + size) U32_MAX)) = true) :
    addr ∈ List.range' base size := by
  rw [Bool.and_eq_true, decide_eq_true_iff, decide_eq_true_iff, Nat.lt_min] at inside
  exact List.mem_range'_1.mpr ⟨inside.1, inside.2.1⟩

/-- An end inside the 32-bit space is not clamped. -/
theorem clamped_iff (inside : base + size ≤ U32_MAX) (addr : Nat) :
    (decide (base ≤ addr) && decide (addr < min (base + size) U32_MAX)) = true ↔
      base ≤ addr ∧ addr < base + size := by
  rw [Bool.and_eq_true, decide_eq_true_iff, decide_eq_true_iff, Nat.min_eq_left inside]

end

/-! ## The areas described -/

/-- The values of the Lock Control TLVs among these blocks. -/
def lockControls (tlvs : List Tlv) : List LockControlValue :=
  tlvs.filterMap fun tlv =>
    match tlv with
    | .lockControl value => some value
    | _ => none

/-- The values of the Memory Control TLVs among these blocks. -/
def memoryControls (tlvs : List Tlv) : List MemoryControlValue :=
  tlvs.filterMap fun tlv =>
    match tlv with
    | .memoryControl value => some value
    | _ => none

/-- The values are those of the Lock Control TLVs in the list. -/
theorem mem_lockControls {tlvs : List Tlv} {value : LockControlValue} :
    value ∈ lockControls tlvs ↔ .lockControl value ∈ tlvs := by
  unfold lockControls
  rw [List.mem_filterMap]
  constructor
  · rintro ⟨tlv, member, taken⟩
    cases tlv with
    | lockControl own =>
      obtain rfl := Option.some.inj taken
      exact member
    | memoryControl _ | null | ndefMessage _ | proprietary _ | terminator => cases taken
  · exact fun member => ⟨.lockControl value, member, rfl⟩

/-- The values are those of the Memory Control TLVs in the list. -/
theorem mem_memoryControls {tlvs : List Tlv} {value : MemoryControlValue} :
    value ∈ memoryControls tlvs ↔ .memoryControl value ∈ tlvs := by
  unfold memoryControls
  rw [List.mem_filterMap]
  constructor
  · rintro ⟨tlv, member, taken⟩
    cases tlv with
    | memoryControl own =>
      obtain rfl := Option.some.inj taken
      exact member
    | lockControl _ | null | ndefMessage _ | proprietary _ | terminator => cases taken
  · exact fun member => ⟨.memoryControl value, member, rfl⟩

/-- The lock areas that a list of blocks describes. -/
def lockAreasOf (tlvs : List Tlv) : List LockArea := (lockControls tlvs).map .fromLockControl

/-- The reserved areas that a list of blocks describes. -/
def reservedAreasOf (tlvs : List Tlv) : List ReservedArea :=
  (memoryControls tlvs).map .fromMemoryControl

namespace MemoryLayout

variable {build : Build}

/-- Areas are collected behind those already held.

Induction on the blocks. -/
theorem collectAreas_held (build : Build) (tlvs : List Tlv) (locks : List LockArea)
    (reserved : List ReservedArea) :
    collectAreas build tlvs (held build.areaCapacity locks, held build.areaCapacity reserved) =
      (held build.areaCapacity (locks ++ lockAreasOf tlvs),
        held build.areaCapacity (reserved ++ reservedAreasOf tlvs)) := by
  induction tlvs generalizing locks reserved with
  | nil => simp [collectAreas, lockAreasOf, reservedAreasOf, lockControls, memoryControls]
  | cons tlv tlvs inductionHypothesis =>
    cases tlv with
    | lockControl value =>
      rw [collectAreas, pushArea_held, inductionHypothesis, List.append_assoc]
      rfl
    | memoryControl value =>
      rw [collectAreas, pushArea_held, inductionHypothesis, List.append_assoc]
      rfl
    | null | ndefMessage _ | proprietary _ | terminator => exact inductionHypothesis locks reserved

/-- The areas collected are those described, as far as they are held. -/
theorem collectAreas_eq (build : Build) (tlvs : List Tlv) : collectAreas build tlvs ([], []) =
    (held build.areaCapacity (lockAreasOf tlvs),
      held build.areaCapacity (reservedAreasOf tlvs)) := by
  have collected := collectAreas_held build tlvs [] []
  rw [held_nil, held_nil, List.nil_append, List.nil_append] at collected
  exact collected

/-- A layout holds the areas described, as far as there is room for them. -/
theorem fromCcAndTlvs_held (room : fits build.areaCapacity 1 = true) (cc : CapabilityContainer)
    (tlvs : List Tlv) : fromCcAndTlvs build cc tlvs = {
      dataAreaSize := cc.dataAreaSize
      lockAreas :=
        if cc.isDynamic && (lockAreasOf tlvs).isEmpty then [defaultDynamicLockArea cc.dataAreaSize]
        else held build.areaCapacity (lockAreasOf tlvs)
      reservedAreas := held build.areaCapacity (reservedAreasOf tlvs) } := by
  unfold fromCcAndTlvs
  rw [collectAreas_eq]
  dsimp only
  rw [held_isEmpty room]
  split
  · next default =>
    rw [Bool.and_eq_true, List.isEmpty_iff] at default
    have alone : held build.areaCapacity [defaultDynamicLockArea cc.dataAreaSize] = _ :=
      held_of_fits room
    rw [default.2, pushArea_held, List.nil_append, alone]
  · rfl

/-- With growable buffers no area is dropped. -/
theorem fromCcAndTlvs_alloc (cc : CapabilityContainer) (tlvs : List Tlv) :
    fromCcAndTlvs .alloc cc tlvs = {
      dataAreaSize := cc.dataAreaSize
      lockAreas :=
        if cc.isDynamic && (lockAreasOf tlvs).isEmpty then [defaultDynamicLockArea cc.dataAreaSize]
        else lockAreasOf tlvs
      reservedAreas := reservedAreasOf tlvs } := fromCcAndTlvs_held rfl cc tlvs

/-- All addresses of a layout's areas. -/
def areaAddresses (layout : MemoryLayout) : List Nat :=
  layout.lockAreas.flatMap (fun area => List.range' area.byteAddress area.lockByteCount) ++
    layout.reservedAreas.flatMap (fun area => List.range' area.byteAddress area.size)

/-- An address that is skipped is one of an area's: the clamp of an area's end only takes
addresses away. -/
theorem mem_areaAddresses {layout : MemoryLayout} {addr : Nat}
    (skipped : layout.isSkipArea addr = true) : addr ∈ layout.areaAddresses := by
  unfold isSkipArea at skipped
  rw [Bool.or_eq_true, List.any_eq_true, List.any_eq_true] at skipped
  rw [areaAddresses, List.mem_append, List.mem_flatMap, List.mem_flatMap]
  rcases skipped with ⟨area, member, inside⟩ | ⟨area, member, inside⟩
  · exact Or.inl ⟨area, member, mem_range_of_clamped inside⟩
  · exact Or.inr ⟨area, member, mem_range_of_clamped inside⟩

/-- The addresses of all areas are as many as their sizes add up to, overlaps counted twice. -/
theorem length_areaAddresses (layout : MemoryLayout) : layout.areaAddresses.length =
    (layout.lockAreas.map LockArea.lockByteCount).sum +
      (layout.reservedAreas.map ReservedArea.size).sum := by
  simp [areaAddresses, List.length_flatMap]

end MemoryLayout

/-! ## The addresses skipped -/

/-- A lock area inside the 32-bit space contains its bytes. -/
theorem LockArea.contains_iff {area : LockArea}
    (inside : area.byteAddress + area.lockByteCount ≤ U32_MAX)
    (addr : Nat) : area.contains addr = true ↔
      area.byteAddress ≤ addr ∧ addr < area.byteAddress + area.lockByteCount :=
  clamped_iff inside addr

/-- A reserved area inside the 32-bit space contains its bytes. -/
theorem ReservedArea.contains_iff {area : ReservedArea}
    (inside : area.byteAddress + area.size ≤ U32_MAX)
    (addr : Nat) : area.contains addr = true ↔
      area.byteAddress ≤ addr ∧ addr < area.byteAddress + area.size :=
  clamped_iff inside addr

/-- An address in an area that one of these control values describes, or, on a dynamic
tag without a lock control value, in the default lock area. -/
def Described (cc : CapabilityContainer) (locks : List LockControlValue)
    (reserved : List MemoryControlValue) (addr : Nat) : Prop :=
  (∃ value ∈ locks, value.byteAddress ≤ addr ∧ addr < value.byteAddress + value.lockByteCount) ∨
  (∃ value ∈ reserved, value.byteAddress ≤ addr ∧ addr < value.byteAddress + value.sizeInBytes) ∨
  cc.isDynamic = true ∧ locks = [] ∧ 16 + cc.dataAreaSize ≤ addr ∧
    addr < 16 + cc.dataAreaSize + ((cc.dataAreaSize - 48 + 7) / 8 + 7) / 8

instance (cc : CapabilityContainer) (locks : List LockControlValue)
    (reserved : List MemoryControlValue)
    (addr : Nat) : Decidable (Described cc locks reserved addr) :=
  inferInstanceAs (Decidable (_ ∨ _ ∨ _))

/-- Lock areas of values read from bytes contain the addresses described. -/
theorem any_lockArea_iff {locks : List LockControlValue}
    (read : ∀ value ∈ locks, ∃ bytes, LockControlValue.fromBytes bytes = .ok value) (addr : Nat) :
    (locks.map LockArea.fromLockControl).any (·.contains addr) = true ↔
      ∃ value ∈ locks, value.byteAddress ≤ addr ∧
        addr < value.byteAddress + value.lockByteCount := by
  rw [List.any_map, List.any_eq_true]
  refine exists_congr fun value => and_congr_right fun member => ?_
  obtain ⟨bytes, parsed⟩ := read value member
  exact LockArea.contains_iff ((LockControlValue.inside_of_read parsed).trans (by decide)) addr

/-- Reserved areas of values read from bytes contain the addresses described. -/
theorem any_reservedArea_iff {reserved : List MemoryControlValue}
    (read : ∀ value ∈ reserved, ∃ bytes, MemoryControlValue.fromBytes bytes = .ok value)
    (addr : Nat) :
    (reserved.map ReservedArea.fromMemoryControl).any (·.contains addr) = true ↔
      ∃ value ∈ reserved, value.byteAddress ≤ addr ∧
        addr < value.byteAddress + value.sizeInBytes := by
  rw [List.any_map, List.any_eq_true]
  refine exists_congr fun value => and_congr_right fun member => ?_
  obtain ⟨bytes, parsed⟩ := read value member
  exact ReservedArea.contains_iff ((MemoryControlValue.inside_of_read parsed).trans
    (by decide)) addr

/-- The default lock area contains the bytes right behind the data area, one for each eight
lock bits that the bytes above 48 call for. -/
theorem defaultDynamicLockArea_contains_iff (cc : CapabilityContainer) (addr : Nat) :
    (defaultDynamicLockArea cc.dataAreaSize).contains addr = true ↔
      16 + cc.dataAreaSize ≤ addr ∧
        addr < 16 + cc.dataAreaSize + ((cc.dataAreaSize - 48 + 7) / 8 + 7) / 8 := by
  have size := cc.dataAreaSize_le
  refine LockArea.contains_iff ?_ addr
  change 16 + cc.dataAreaSize + ((cc.dataAreaSize - 48 + 7) / 8 + 7) / 8 ≤ U32_MAX
  unfold U32_MAX
  omega

/-- With room for an area of each kind, an address is skipped exactly when it is in an
area that one of the values held describes, or in the default one. -/
theorem skipped_iff_held {build : Build} (room : fits build.areaCapacity 1 = true)
    (cc : CapabilityContainer) {tlvs : List Tlv} (read : ∀ tlv ∈ tlvs, tlv.FromBytes) (addr : Nat) :
    (MemoryLayout.fromCcAndTlvs build cc tlvs).isSkipArea addr = true ↔
      Described cc (held build.areaCapacity (lockControls tlvs))
        (held build.areaCapacity (memoryControls tlvs)) addr := by
  have locks := any_lockArea_iff (fun value member =>
    read _ (mem_lockControls.mp
      ((held_sublist build.areaCapacity (lockControls tlvs)).subset member))) addr
  have reserved := any_reservedArea_iff (fun value member =>
    read _ (mem_memoryControls.mp
      ((held_sublist build.areaCapacity (memoryControls tlvs)).subset member))) addr
  unfold MemoryLayout.isSkipArea Described
  rw [MemoryLayout.fromCcAndTlvs_held room, lockAreasOf, reservedAreasOf, held_map, held_map,
    List.isEmpty_map, ← held_isEmpty room, Bool.or_eq_true]
  dsimp only
  rw [reserved]
  by_cases default : (cc.isDynamic && (held build.areaCapacity (lockControls tlvs)).isEmpty) = true
  · rw [if_pos default]
    rw [Bool.and_eq_true, List.isEmpty_iff] at default
    have only : [defaultDynamicLockArea cc.dataAreaSize].any (·.contains addr) =
      (defaultDynamicLockArea cc.dataAreaSize).contains addr := Bool.or_false _
    rw [only, defaultDynamicLockArea_contains_iff, default.2]
    simp [default.1, or_comm]
  · rw [if_neg default, locks]
    rw [Bool.and_eq_true, List.isEmpty_iff] at default
    have none : ∀ rest,
        ¬ (cc.isDynamic = true ∧ held build.areaCapacity (lockControls tlvs) = [] ∧ rest) :=
      fun rest both => default ⟨both.1, both.2.1⟩
    simp only [none, or_false]

/-- For every list of blocks whose control values were read from bytes: with growable
buffers an address is skipped exactly when one of the control values describes an area
with it, or it is in the default lock area; in the default build this holds of the first
eight values of each kind, and the areas of all others are dropped.

Proof: the loop holds the areas of the values in order, as many of each kind as the vectors
hold, and an area contains an address exactly as its value describes it, since it ends
inside the 32-bit space. -/
theorem skipped_iff_described (cc : CapabilityContainer) {tlvs : List Tlv}
    (read : ∀ tlv ∈ tlvs, tlv.FromBytes) (addr : Nat) :
    ((MemoryLayout.fromCcAndTlvs .alloc cc tlvs).isSkipArea addr = true ↔
      Described cc (lockControls tlvs) (memoryControls tlvs) addr) ∧
    ((MemoryLayout.fromCcAndTlvs .heapless cc tlvs).isSkipArea addr = true ↔
      Described cc ((lockControls tlvs).take 8) ((memoryControls tlvs).take 8) addr) := by
  have growable : fits Build.alloc.areaCapacity 1 = true := rfl
  have fixed : fits Build.heapless.areaCapacity 1 = true := rfl
  exact ⟨skipped_iff_held growable cc read addr, skipped_iff_held fixed cc read addr⟩

/-- A dynamic tag with 96 bytes of data. -/
def dynamicCc : CapabilityContainer := ⟨1, 0, 12, .granted, .granted⟩

/-- A lock area of one byte at 112, and a reserved area of the fifteen bytes behind it. -/
def adjacentControls : List Tlv :=
    [.lockControl ⟨0x0E, 0, 6, 3, 3⟩, .memoryControl ⟨0x0E, 1, 15, 3⟩]

/-- The last reserved byte is skipped and the byte behind it is not. -/
theorem skipped_iff_described_adjacent :
    Described dynamicCc (lockControls adjacentControls) (memoryControls adjacentControls) 127 ∧
    ¬ Described dynamicCc (lockControls adjacentControls)
      (memoryControls adjacentControls) 128 := by
  have read : ∀ tlv ∈ adjacentControls, tlv.FromBytes := by
    intro tlv member
    rcases List.mem_pair.mp member with rfl | rfl
    · exact ⟨#v[0xE0, 6, 0x33], rfl⟩
    · exact ⟨#v[0xE1, 15, 0x03], rfl⟩
  constructor
  · exact (skipped_iff_described dynamicCc read 127).1.mp (by decide)
  · exact fun described => absurd ((skipped_iff_described dynamicCc read 128).1.mpr described)
      (by decide)

/-- Nine lock areas of one byte each, 16 bytes apart. -/
def nineLocks : List Tlv := (List.range' 1 9).map fun page =>
    .lockControl ⟨page.toUInt8, 0, 8, 4, 3⟩

/-- In the default build the ninth lock area, of the byte at 144, is not skipped. -/
theorem described_not_skipped :
    ¬ ((∀ cc tlvs, (∀ tlv ∈ tlvs, tlv.FromBytes) → ∀ addr ≤ U32_MAX,
        ((MemoryLayout.fromCcAndTlvs .heapless cc tlvs).isSkipArea addr = true ↔
          Described cc (lockControls tlvs) (memoryControls tlvs) addr)) ∧
      ∀ cc tlvs, (∀ tlv ∈ tlvs, tlv.FromBytes) → ∀ addr ≤ U32_MAX,
        ((MemoryLayout.fromCcAndTlvs .alloc cc tlvs).isSkipArea addr = true ↔
          Described cc (lockControls tlvs) (memoryControls tlvs) addr)) := by
  rintro ⟨default, -⟩
  have read : ∀ tlv ∈ nineLocks, tlv.FromBytes := by
    intro tlv member
    obtain ⟨page, inside, rfl⟩ := List.mem_map.mp member
    refine ⟨#v[page.toUInt8 <<< 4, 8, 0x34], ?_⟩
    obtain ⟨low, high⟩ := List.mem_range'_1.mp inside
    interval_cases page <;> rfl
  exact absurd ((default dynamicCc nineLocks read 144 (by decide)).mpr (by decide)) (by decide)

/-! ## Few and small areas -/

/-- A lock area that is read from a control block has at most 32 bytes. -/
theorem lockByteCount_le {bytes : Vector UInt8 3} {value : LockControlValue}
    (read : LockControlValue.fromBytes bytes = .ok value) :
    (LockArea.fromLockControl value).lockByteCount ≤ 32 := by
  obtain ⟨-, -, size, -, -⟩ := LockControlValue.fields_of_read read
  have byte := bytes[1].toNat_lt
  have few : value.sizeInBits ≤ 256 := by
    rw [size]
    split <;> omega
  change (value.sizeInBits + 7) / 8 ≤ 32
  omega

/-- A reserved area that is read from a control block has at most 256 bytes. -/
theorem reservedSize_le {bytes : Vector UInt8 3} {value : MemoryControlValue}
    (read : MemoryControlValue.fromBytes bytes = .ok value) :
    (ReservedArea.fromMemoryControl value).size ≤ 256 := by
  obtain ⟨-, -, size, -⟩ := MemoryControlValue.fields_of_read read
  have byte := bytes[1].toNat_lt
  change value.sizeInBytes ≤ 256
  rw [size]
  split <;> omega

/-- Bytes of all areas that a list of blocks describes. -/
def areaBytes (tlvs : List Tlv) : Nat :=
  ((lockAreasOf tlvs).map LockArea.lockByteCount).sum +
    ((reservedAreasOf tlvs).map ReservedArea.size).sum

/-- The areas of two lists of blocks add up. -/
theorem areaBytes_append (front back : List Tlv) :
    areaBytes (front ++ back) = areaBytes front + areaBytes back := by
  simp only [areaBytes, lockAreasOf, reservedAreasOf, lockControls, memoryControls,
    List.filterMap_append, List.map_append, List.sum_append]
  omega

/-- A Lock Control TLV describes its lock bytes. -/
theorem areaBytes_lockControl (value : LockControlValue) :
    areaBytes [.lockControl value] = (LockArea.fromLockControl value).lockByteCount := rfl

/-- A Memory Control TLV describes its reserved bytes. -/
theorem areaBytes_memoryControl (value : MemoryControlValue) :
    areaBytes [.memoryControl value] = (ReservedArea.fromMemoryControl value).size := by
  simp [areaBytes, lockAreasOf, reservedAreasOf, lockControls, memoryControls]

/-- Another block describes nothing. -/
theorem areaBytes_other {tlv : Tlv} (other : tlv.isControl = false) : areaBytes [tlv] = 0 := by
  cases tlv with
  | lockControl _ | memoryControl _ => cases other
  | null | ndefMessage _ | proprietary _ | terminator => rfl

/-- A control block describes at most 256 bytes of areas with its five bytes, another
block none. -/
theorem TlvBlock.areaBytes_le {block : List UInt8} {found : Option Tlv}
    (whole : TlvBlock block found) : 5 * areaBytes found.toList ≤ 256 * block.length := by
  cases whole with
  | null =>
    rw [Option.toList_some, areaBytes_other rfl]
    omega
  | valued notNull notTerminator length recorded =>
    rename_i field value
    have positive : 0 < field.length := Nat.lt_of_lt_of_le (lFieldSize_pos _) length.canonical_le
    cases recorded with
    | lock read =>
      have small := lockByteCount_le read
      rw [Option.toList_some, areaBytes_lockControl]
      simp only [List.length_cons, List.length_append]
      omega
    | memory read =>
      have small := reservedSize_le read
      rw [Option.toList_some, areaBytes_memoryControl]
      simp only [List.length_cons, List.length_append]
      omega
    | ndef data | proprietary data =>
      rw [Option.toList_some, areaBytes_other rfl]
      omega
    | unknown data _ _ _ _ => exact Nat.zero_le _

/-- Blocks describe no more than their sizes allow.

Induction on the blocks. -/
theorem TlvBlocks.areaBytes_le {body : List UInt8} {front : List Tlv}
    (whole : TlvBlocks body front) : 5 * areaBytes front ≤ 256 * body.length := by
  induction whole with
  | nil => exact Nat.zero_le _
  | cons first onward inductionHypothesis =>
    have head := first.areaBytes_le
    rw [areaBytes_append, List.length_append]
    omega

/-- The blocks of a data area describe no more bytes of areas than its own size allows. -/
theorem TlvStream.areaBytes_le {data : List UInt8} {tlvs : List Tlv}
    (stream : TlvStream data tlvs) :
    5 * areaBytes tlvs ≤ 256 * data.length := by
  obtain ⟨body, front, whole, ⟨rfl, rfl⟩ | ⟨rest, rfl, rfl⟩⟩ := stream
  · exact whole.areaBytes_le
  · have few := whole.areaBytes_le
    have none : areaBytes [.terminator] = 0 := rfl
    rw [areaBytes_append, none, List.length_append]
    omega

/-- A layout has no more areas than are described, and the default one. -/
theorem MemoryLayout.length_areaAddresses_le (build : Build) (cc : CapabilityContainer)
    (tlvs : List Tlv) : (fromCcAndTlvs build cc tlvs).areaAddresses.length ≤
      areaBytes tlvs + 32 := by
  have size := cc.dataAreaSize_le
  have default : (defaultDynamicLockArea cc.dataAreaSize).lockByteCount ≤ 32 := by
    unfold defaultDynamicLockArea LockArea.lockByteCount
    dsimp only
    omega
  have locks : (fromCcAndTlvs build cc tlvs).lockAreas.Sublist
      (lockAreasOf tlvs ++ [defaultDynamicLockArea cc.dataAreaSize]) := by
    have described : (held build.areaCapacity (lockAreasOf tlvs)).Sublist _ := held_sublist _ _
    unfold fromCcAndTlvs
    rw [collectAreas_eq]
    dsimp only
    split
    · exact (pushArea_sublist _ _).trans (described.append_right _)
    · exact described.trans (List.sublist_append_left _ _)
  have reserved : (fromCcAndTlvs build cc tlvs).reservedAreas.Sublist (reservedAreasOf tlvs) := by
    unfold fromCcAndTlvs
    rw [collectAreas_eq]
    exact held_sublist _ _
  have few : (fromCcAndTlvs build cc tlvs).areaAddresses.Sublist (MemoryLayout.mk 0
      (lockAreasOf tlvs ++ [defaultDynamicLockArea cc.dataAreaSize])
          (reservedAreasOf tlvs)).areaAddresses :=
    (locks.flatMap _).append (reserved.flatMap _)
  refine few.length_le.trans ?_
  rw [length_areaAddresses, List.map_append, List.sum_append, areaBytes]
  change _ + (_ + 0) + ((reservedAreasOf tlvs).map ReservedArea.size).sum ≤ _
  omega

end NfcForumTags
