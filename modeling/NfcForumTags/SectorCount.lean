import NfcForumTags.CheckedLayout
import NfcForumTags.AddressMap
import NfcForumTags.LayoutAreas
import NfcForumTags.Confinement

/-!
# The sectors that hold the data

A usable byte is not further from the beginning of the data area than there are usable
bytes before it and bytes of areas altogether, wherever the areas lie and however they
overlap. So its sector is one of those that `sector_count` counts: a tag of so many
sectors holds every byte that is read or written as data.
-/
namespace NfcForumTags

open Program Enumeration MemoryLayout

namespace MemoryLayout

variable {layout : MemoryLayout} {n addr : Nat}

/-- All bytes of a layout made of the blocks of a data area are addressable. -/
theorem totalBytes_inside (build : Build) (cc : CapabilityContainer) {data : List UInt8}
    {tlvs : List Tlv} (stream : TlvStream data tlvs) (small : data.length ≤ 2040) :
    (fromCcAndTlvs build cc tlvs).totalBytes ≤ ADDRESS_SPACE_END := by
  have size := cc.dataAreaSize_le
  have areas := length_areaAddresses_le build cc tlvs
  have few := stream.areaBytes_le
  rw [length_areaAddresses] at areas
  change cc.dataAreaSize + 16 + _ + _ ≤ 261120
  omega

/-- They are counted by 32 bits. -/
theorem totalBytes_le (build : Build) (cc : CapabilityContainer) {data : List UInt8}
    {tlvs : List Tlv} (stream : TlvStream data tlvs) (small : data.length ≤ 2040) :
    (fromCcAndTlvs build cc tlvs).totalBytes ≤ U32_MAX :=
  (totalBytes_inside build cc stream small).trans (by decide)

/-- Every skipped byte before a usable one is one of the bytes of the areas. -/
theorem usableOffsetToAddress_le (found : layout.usableOffsetToAddress n = some addr) :
    addr ≤ 16 + n + layout.areaAddresses.length := by
  rw [usableOffsetToAddress_eq] at found
  refine kept_getElem_le found fun addr _ _ rejected => ?_
  exact mem_areaAddresses (by simpa using rejected)

/-- The count is that of the sectors the total size touches, 255 at most. -/
theorem sectorCount_toNat (room : layout.totalBytes ≤ U32_MAX) :
    layout.sectorCount.toNat = min ((layout.totalBytes + 1023) / 1024) 255 := by
  unfold sectorCount
  rw [Nat.mod_eq_of_lt (Nat.lt_succ_of_le room)]
  change (min ((layout.totalBytes + 1023) / 1024) 255).toUInt8.toNat = _
  rw [Nat.toUInt8, UInt8.toNat_ofNat']
  omega

/-- The sector of a usable byte of the data area is counted. -/
theorem sector_lt_sectorCount (room : layout.totalBytes ≤ U32_MAX)
    (inside : n < layout.dataAreaSize)
    (found : layout.usableOffsetToAddress n = some addr) : addr / 1024 <
      layout.sectorCount.toNat := by
  have near := usableOffsetToAddress_le found
  obtain ⟨-, addressable, -⟩ := usableOffsetToAddress_some found
  have total : layout.totalBytes = layout.dataAreaSize + 16 + layout.areaAddresses.length := by
    rw [length_areaAddresses, ← Nat.add_assoc]
    rfl
  simp only [ADDRESS_SPACE_END_eq] at addressable
  rw [sectorCount_toNat room]
  omega

/-- A byte of the data area lies in the sectors counted. -/
theorem usable_lt_sectors (room : layout.totalBytes ≤ U32_MAX) (inside : n < layout.dataAreaSize)
    (found : layout.usable[n]? = some addr) : addr < layout.sectorCount.toNat * SECTOR_SIZE := by
  rw [← usableOffsetToAddress_eq] at found
  have counted := sector_lt_sectorCount room inside found
  change addr < layout.sectorCount.toNat * 1024
  omega

end MemoryLayout

section

variable {σ ε : Type} {build : Build}

/-- The bytes read lie in the sectors counted, whatever the transceiver does. -/
theorem readDataAreaSourced_within {t : Transceiver σ ε} {layout : MemoryLayout}
    {m next : Machine σ} {sourced : List (Nat × UInt8)} (room : layout.totalBytes ≤ U32_MAX)
    (run : readDataAreaSourced build t layout m = .ok sourced next) {pair : Nat × UInt8}
    (member : pair ∈ sourced) : pair.1 < layout.sectorCount.toNat * SECTOR_SIZE := by
  have bytes : readDataArea build t layout m = .ok (sourced.map Prod.snd) next := by
    rw [← map_readDataAreaSourced]
    exact run_map_ok _ run
  have count := (readDataArea_counted layout m).returned bytes
  obtain ⟨read, shape, first⟩ :=
    (readDataAreaSourcedFrom_addresses build t layout _ 0 .tag [] (by decide) m).returned run
  obtain ⟨i, short, same⟩ := List.getElem_of_mem member
  rw [List.length_map] at count
  refine usable_lt_sectors room (short.trans_le count) ?_
  obtain ⟨rest, usable⟩ := first
  have listed : layout.usable = sourced.map Prod.fst ++ rest := by
    rw [shape]
    exact usable.symm
  rw [listed, List.getElem?_append_left (by rwa [List.length_map]), List.getElem?_map,
    List.getElem?_eq_getElem short, same]
  rfl

/-- No stage of a plan changes a byte behind the sectors counted. -/
theorem planned_within {cc : CapabilityContainer} {tlvs : List Tlv} {ndefData : List UInt8}
    {job : WriteJob} (plan : job.Planned build cc tlvs ndefData)
    (room : job.layout.totalBytes ≤ U32_MAX) (base : Memory) (k : Nat) {addr : Nat}
    (behind : job.layout.sectorCount.toNat * SECTOR_SIZE ≤ addr) :
    planned base job.pages k addr = base addr := by
  apply plan.planned_outside
  intro i found
  have fits := plan.fits
  have size : job.layout.dataAreaSize = cc.dataAreaSize := by rw [plan.layout]; rfl
  by_cases inside : i < job.layout.dataAreaSize
  · have before := usable_lt_sectors room inside found
    omega
  · omega

end

/-- For every layout of a Capability Container and the blocks parsed out of at most 2040
bytes: counting its sectors does not overflow, and the sector of a usable byte of the data
area is below their number. So the bytes `read_data_area` returns come from below the end
of these sectors, and no run of `write_ndef` with this layout changes a byte from there on,
whatever errors the transceiver reports.

Proof: the blocks of 2040 bytes describe too few bytes of areas for the total to overflow.
The n-th usable address is at most the data area and all areas away from the start, overlaps
counted twice, so its sector is below the number counted; reads and writes stay at such
addresses. -/
theorem sectorCount_bounds (build : Build) (cc : CapabilityContainer) {data : List UInt8}
    {tlvs : List Tlv} (small : data.length ≤ 2040) (parsed : parseTlvs build data = .ok tlvs) :
    let layout := MemoryLayout.fromCcAndTlvs build cc tlvs
    Checked.sectorCount layout = .ok layout.sectorCount ∧
    (∀ n < layout.dataAreaSize, ∀ addr, layout.usableOffsetToAddress n = some addr →
      ∃ sector block offset, MemoryLayout.addressToSectorBlock addr = some (sector, block, offset) ∧
        sector < layout.sectorCount) ∧
    (∀ {σ ε : Type} (t : Transceiver σ ε) (m next : Machine σ) sourced,
      readDataAreaSourced build t layout m = .ok sourced next →
      ∀ pair ∈ sourced, pair.1 < layout.sectorCount.toNat * SECTOR_SIZE) ∧
    (∀ {σ ε : Type} (tag : Tag σ ε) (state : σ) (maxRetries : UInt8) (ndefData : List UInt8)
      (job : WriteJob) (prepared : Machine σ), tag.active state = 0 →
      prepareWrite build tag.toTransceiver ndefData (.start state maxRetries) = .ok job prepared →
      job.layout = layout → ∀ addr, layout.sectorCount.toNat * SECTOR_SIZE ≤ addr →
      ∀ exchange ∈ (stateAfter (writeNdef build tag.toTransceiver ndefData)
        (.start state maxRetries)).trace,
        tag.memory exchange.after addr = tag.memory state addr) := by
  intro layout
  have room : layout.totalBytes ≤ U32_MAX := totalBytes_le build cc (parseTlvs_sound parsed) small
  refine ⟨Checked.sectorCount_ok room, fun n inside addr found => ?_, ?_, ?_⟩
  · obtain ⟨-, addressable, -⟩ := usableOffsetToAddress_some found
    have located := addressToSectorBlock_eq addressable
    obtain ⟨-, value, -, -⟩ := addressToSectorBlock_some located
    refine ⟨_, _, _, located, UInt8.lt_iff_toNat_lt.mpr ?_⟩
    rw [value]
    exact sector_lt_sectorCount room inside found
  · intro σ ε t m next sourced run pair member
    exact readDataAreaSourced_within room run member
  · intro σ ε tag state maxRetries ndefData job prepared start preparing same addr behind exchange
    intro member
    have coherent := start_coherent build tag state maxRetries start
    have staged := writeNdef_staged coherent ndefData
    simp only [preparing] at staged
    obtain ⟨⟨recent, trace, each⟩, -⟩ := staged
    obtain ⟨-, plans⟩ := (prepareWrite_quiet coherent ndefData).returned preparing
    obtain ⟨_, -, _, -, -, -, -, -, plans⟩ := jobOf_ok plans
    rw [trace] at member
    obtain ⟨⟨k, -, stage⟩, -⟩ := each exchange member
    rw [stage]
    rw [← same] at room behind
    exact planned_within (planWrite_ok plans) room _ k behind

/-- A Capability Container of 2040 bytes. -/
def fullCc : CapabilityContainer := ⟨1, 0, 0xFF, .granted, .granted⟩

/-- The first 256 bytes of the data area are reserved; the default lock area lies behind it. -/
def firstReserved : List Tlv := [.memoryControl ⟨1, 0, 256, 4⟩, .terminator]

/-- The last usable byte is the last of all bytes counted, in the third sector of three. -/
theorem sectorCount_bounds_last :
    let layout := MemoryLayout.fromCcAndTlvs .heapless fullCc firstReserved
    layout.usableOffsetToAddress 2039 = some 2343 ∧ layout.totalBytes = 2344 ∧
      layout.sectorCount = 3 ∧
    ∃ sector block offset, MemoryLayout.addressToSectorBlock 2343 = some (sector, block, offset) ∧
      sector < 3 := by
  intro layout
  have parsed : parseTlvs .heapless [0x02, 0x03, 0x10, 0x00, 0x04, 0xFE] = .ok firstReserved := by
    decide +kernel
  have last : layout.usableOffsetToAddress 2039 = some 2343 := by decide +kernel
  have three : layout.sectorCount = 3 := by decide +kernel
  have bounds := (sectorCount_bounds .heapless fullCc (by decide) parsed).2.1 2039
    (by decide) 2343 last
  refine ⟨last, rfl, three, ?_⟩
  rw [← three]
  exact bounds

end NfcForumTags
