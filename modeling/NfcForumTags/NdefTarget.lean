import NfcForumTags.AddressMap
import NfcForumTags.Confinement
import NfcForumTags.CutMemory
import NfcForumTags.DataStream
import NfcForumTags.NdefOffset

/-!
# The TLV that write_ndef targets

`write_ndef` finds its target by two computations: the walk over the recorded blocks gives
an offset, and the layout of these blocks maps the offset to an address. The first is
compared with the index of the NDEF TLV among the bytes parsed, the second with the
addresses these bytes were read from, which are those of the layout of the last pass.
-/
namespace NfcForumTags

open Program Overlay

/-! ## What is discovered of a memory -/

/-- What reading and parsing a memory gives when it shows an NDEF Message TLV: the blocks
of the first pass, the data area of the last one, its blocks, and the first message with
the index of its tag byte. All of it is determined by the memory. -/
structure NdefDiscovery (build : Build) (memory : Memory) where
  cc : CapabilityContainer
  first : List Tlv
  data : List UInt8
  tlvs : List Tlv
  message : List UInt8
  index : Nat
  parsed : ccOf memory = .ok cc
  firstPass : (dataAreaOf build (MemoryLayout.fromCcAndTlvs build cc []) memory >>=
    parseTlvs build) = .ok first
  read : dataAreaWithLayoutOf build cc memory = .ok data
  listed : parseTlvs build data = .ok tlvs
  found : firstNdef tlvs = some message
  position : ndefPosition data = some index

namespace NdefDiscovery

variable {build : Build} {memory : Memory}

/-- The layout that the data area was read through. -/
def readLayout (discovery : NdefDiscovery build memory) : MemoryLayout :=
  lastLayout build discovery.cc discovery.first

/-- The layout that `write_ndef` makes of the blocks found. -/
def writeLayout (discovery : NdefDiscovery build memory) : MemoryLayout :=
  MemoryLayout.fromCcAndTlvs build discovery.cc discovery.tlvs

/-- The data area read is a beginning of the usable bytes of the layout it was read
through. -/
theorem begins (discovery : NdefDiscovery build memory) :
    discovery.data <+: dataBytes discovery.readLayout memory := by
  obtain ⟨first, pass, begins⟩ := dataAreaWithLayoutOf_prefix discovery.read
  obtain rfl : first = discovery.first := Except.ok.inj (pass.symm.trans discovery.firstPass)
  exact begins

/-- The message found stands in an NDEF TLV at the index. -/
theorem here (discovery : NdefDiscovery build memory) :
    NdefAt discovery.data discovery.index discovery.message := by
  obtain ⟨index, position, here, -⟩ := ndefTlvOffset_iff discovery.listed discovery.found
  obtain rfl : index = discovery.index :=
    Option.some.inj (position.symm.trans discovery.position)
  exact here

/-- The walk ends at the index or before it, and at the index exactly when the blocks ahead
are recorded and canonical. -/
theorem walk (discovery : NdefDiscovery build memory) :
    (∃ offset ≤ discovery.index, ndefTlvOffset discovery.tlvs 0 = some offset) ∧
      (ndefTlvOffset discovery.tlvs 0 = some discovery.index ↔
        canonicalFront discovery.data = true) := by
  obtain ⟨index, position, -, walk⟩ := ndefTlvOffset_iff discovery.listed discovery.found
  obtain rfl : index = discovery.index :=
    Option.some.inj (position.symm.trans discovery.position)
  exact walk

end NdefDiscovery

/-- More bytes behind the data leave an NDEF TLV where it is. -/
theorem NdefAt.extended {data longer : List UInt8} {index : Nat} {message : List UInt8}
    (here : NdefAt data index message) (begins : data <+: longer) :
    NdefAt longer index message := by
  obtain ⟨field, rest, length, shape⟩ := here
  obtain ⟨behind, rfl⟩ := begins
  have inside : index < data.length := by
    by_contra outside
    rw [List.drop_eq_nil_of_le (Nat.le_of_not_lt outside)] at shape
    cases shape
  refine ⟨field, rest ++ behind, length, ?_⟩
  rw [List.drop_append_of_le_length inside.le, shape]
  simp

/-- Every job planned on a memory is planned on what is discovered of it. -/
theorem jobOf_discovery {build : Build} {ndefData : List UInt8} {memory : Memory} {job : WriteJob}
    (plans : jobOf build ndefData memory = .ok job) :
    ∃ discovery : NdefDiscovery build memory,
      discovery.cc.isValid = true ∧ discovery.cc.writeAccess = .granted ∧
      job.Planned build discovery.cc discovery.tlvs ndefData := by
  obtain ⟨cc, data, tlvs, parsed, valid, granted, read, listed, planning⟩ := jobOf_ok plans
  have plan := planWrite_ok planning
  obtain ⟨message, found⟩ := firstNdef_of_walk plan.offset
  obtain ⟨index, position, -⟩ := ndefTlvOffset_iff listed found
  obtain ⟨first, firstPass, -⟩ := dataAreaWithLayoutOf_prefix read
  exact ⟨⟨cc, first, data, tlvs, message, index, parsed, firstPass, read, listed, found,
    position⟩, valid, granted, plan⟩

/-- A job planned on a memory is planned on a given discovery of it. -/
theorem NdefDiscovery.planned {build : Build} {memory : Memory}
    (discovery : NdefDiscovery build memory) {ndefData : List UInt8} {job : WriteJob}
    (plans : jobOf build ndefData memory = .ok job) :
    discovery.cc.isValid = true ∧ discovery.cc.writeAccess = .granted ∧
      job.Planned build discovery.cc discovery.tlvs ndefData ∧
      job.layout = discovery.writeLayout := by
  obtain ⟨cc, data, tlvs, parsed, valid, granted, read, listed, planning⟩ := jobOf_ok plans
  have plan := planWrite_ok planning
  obtain rfl : cc = discovery.cc := Except.ok.inj (parsed.symm.trans discovery.parsed)
  obtain rfl : data = discovery.data := Except.ok.inj (read.symm.trans discovery.read)
  obtain rfl : tlvs = discovery.tlvs := Except.ok.inj (listed.symm.trans discovery.listed)
  exact ⟨valid, granted, plan, plan.layout⟩

/-! ## Which writes are accepted -/

/-- A payload that the buffer holds is built. -/
theorem buildPayload_of_fits {build : Build} {ndefData : List UInt8}
    (capacity : fits build.dataCapacity (zeroedTlv ndefData).length = true) :
    buildPayload build ndefData = .ok (zeroedTlv ndefData) := by
  rw [length_zeroedTlv] at capacity
  have room : ∀ {count : Nat}, count ≤ 1 + lFieldSize ndefData.length + ndefData.length + 1 →
      fits build.dataCapacity count = true := fun few => fits_mono few capacity
  unfold buildPayload zeroedTlv zeroLengthField
  unfold lFieldSize at room
  rw [tryPush_of_fits (room (by simp))]
  split
  · next short =>
    rw [if_pos short] at room
    simp only [bind, Except.bind]
    rw [tryPush_of_fits (room (by simp; omega))]
    dsimp only
    rw [tryExtend_of_fits (room (by simp))]
    dsimp only
    rw [tryPush_of_fits (room (by simp; omega))]
    simp
  · next long =>
    rw [if_neg long] at room
    simp only [bind, Except.bind]
    rw [tryPush_of_fits (room (by simp; omega))]
    dsimp only
    rw [tryPush_of_fits (room (by simp; omega))]
    dsimp only
    rw [tryPush_of_fits (room (by simp; omega))]
    dsimp only
    rw [tryExtend_of_fits (room (by simp))]
    dsimp only
    rw [tryPush_of_fits (room (by simp; omega))]
    simp

/-- What `write_ndef` checks of a message, for an offset at which the walk ended: the
container is valid and grants writing, the length is encodable, T, L, V and a Terminator
fit the data area behind the offset and the buffer, and the address space has a usable
byte for every byte of the data area. -/
structure Accepts (build : Build) (cc : CapabilityContainer) (layout : MemoryLayout)
    (offset : Nat) (ndefData : List UInt8) : Prop where
  valid : cc.isValid = true
  granted : cc.writeAccess = .granted
  encodable : ndefData.length ≤ MAX_TLV_LENGTH
  room : offset + (zeroedTlv ndefData).length ≤ cc.dataAreaSize
  usable : cc.dataAreaSize ≤ layout.usable.length
  capacity : fits build.dataCapacity (zeroedTlv ndefData).length = true

/-- A job is planned exactly for the messages that pass these checks. -/
theorem NdefDiscovery.jobOf_iff {build : Build} {memory : Memory}
    (discovery : NdefDiscovery build memory) {offset : Nat}
    (walked : ndefTlvOffset discovery.tlvs 0 = some offset) (ndefData : List UInt8) :
    (∃ job, jobOf build ndefData memory = .ok job) ↔
      Accepts build discovery.cc discovery.writeLayout offset ndefData := by
  constructor
  · rintro ⟨job, plans⟩
    obtain ⟨valid, granted, plan, layout⟩ := discovery.planned plans
    obtain rfl : offset = job.ndefOffset := Option.some.inj (walked.symm.trans plan.offset)
    have fits := plan.fits
    exact {
      valid
      granted
      encodable := plan.encodable
      room := by rw [length_zeroedTlv]; omega
      usable := by
        rw [← layout]
        exact plan.enough
      capacity := by
        rw [← plan.payload_zeroed]
        exact plan.capacity }
  · intro accepts
    have room := accepts.room
    have usable := accepts.usable
    have small := discovery.cc.dataAreaSize_le
    rw [length_zeroedTlv] at room
    have same : asU16 offset = offset := Nat.mod_eq_of_lt (by omega)
    have address : ∀ i < discovery.cc.dataAreaSize, ∃ addr,
        (MemoryLayout.fromCcAndTlvs build discovery.cc discovery.tlvs).usableOffsetToAddress i =
          some addr := by
      intro i inside
      rw [MemoryLayout.usableOffsetToAddress_eq]
      exact ⟨_, List.getElem?_eq_getElem (inside.trans_le usable)⟩
    obtain ⟨begin, first⟩ := address offset (by omega)
    obtain ⟨limit, last⟩ := address (discovery.cc.dataAreaSize - 1) (by omega)
    have fits : ¬ discovery.cc.dataAreaSize <
        offset + 1 + lFieldSize ndefData.length + ndefData.length + 1 := by omega
    have short : ¬ 0xFFFE < ndefData.length := Nat.not_lt.mpr accepts.encodable
    have checks : refusal (discovery.cc.isValid = false) (.invalidMagic 0) = .ok () ∧
        refusal (discovery.cc.writeAccess ≠ .granted) .readOnly = .ok () :=
      ⟨if_neg (by simp [accepts.valid]), if_neg (by simp [accepts.granted])⟩
    unfold jobOf planWrite
    simp only [discovery.parsed, checks.1, checks.2, discovery.read, discovery.listed, short,
      walked, fits, same, first, last, buildPayload_of_fits accepts.capacity, if_false, bind,
      Except.bind]
    exact ⟨_, rfl⟩

/-! ## The data area with some WRITEs placed -/

namespace WriteJob.Planned

variable {build : Build} {cc : CapabilityContainer} {tlvs : List Tlv} {job : WriteJob}
  {new : List UInt8}

/-- The layout of a job covers the data area of the tag. -/
theorem layout_size (plan : job.Planned build cc tlvs new) :
    job.layout.dataAreaSize = cc.dataAreaSize := by
  rw [plan.layout]
  rfl

/-- The data area from an index on, out of all usable bytes from it on. -/
theorem drop_dataBytes (plan : job.Planned build cc tlvs new) (memory : Memory) (n : Nat) :
    (dataBytes job.layout memory).drop n =
      ((job.layout.usable.drop n).map memory).take (cc.dataAreaSize - n) := by
  rw [dataBytes, plan.layout_size, ← List.map_drop, List.drop_take, List.map_take]

end WriteJob.Planned

/-! ## Where the bytes were read -/

section

variable {σ ε : Type} {build : Build} {tag : FaultFreeTag σ ε} {m : Machine σ}

/-- The bytes read with addresses are those of the memory, in the order of the usable
addresses of the layout they were read through; and without the addresses they are the
data area that the memory reads as.

Proof: the reading loop with addresses takes the first usable addresses, and leaving the
addresses out gives the loop of the source, whose result is a beginning of the bytes at
these addresses. -/
theorem readDataAreaWithLayoutSourced_read (coherent : Coherent build tag.toTag m)
    {cc : CapabilityContainer} {sourced : List (Nat × UInt8)} {next : Machine σ}
    (read : readDataAreaWithLayoutSourced build tag.toTransceiver cc m = .ok sourced next) :
    dataAreaWithLayoutOf build cc (tag.memoryOf m) = .ok (sourced.map Prod.snd) ∧
    ∃ first, (dataAreaOf build (MemoryLayout.fromCcAndTlvs build cc []) (tag.memoryOf m) >>=
        parseTlvs build) = .ok first ∧
      sourced.map Prod.fst <+: (lastLayout build cc first).usable ∧
      ∀ pair ∈ sourced, pair.2 = tag.memoryOf m pair.1 := by
  have run := readDataAreaWithLayoutSourced_erased build tag.toTransceiver read
  have answers : Answers build tag (readDataAreaWithLayout build tag.toTransceiver cc)
      (dataAreaWithLayoutOf build cc (tag.memoryOf m)) m :=
    answers_of_computes ((faultFree_reads build tag m).readDataAreaWithLayout_rule cc m
      ⟨held_start coherent _, trivial⟩)
  have computed : dataAreaWithLayoutOf build cc (tag.memoryOf m) = .ok (sourced.map Prod.snd) :=
    (answers.outcome_iff _).mp (by rw [outcome, run])
  obtain ⟨first, pass, usable, -⟩ :=
    (readDataAreaWithLayoutSourced_rule coherent cc).returned read
  obtain ⟨again, same, begins⟩ := dataAreaWithLayoutOf_prefix computed
  obtain rfl : again = first := Except.ok.inj (same.symm.trans pass)
  refine ⟨computed, again, pass, usable, fun pair member => ?_⟩
  obtain ⟨i, inside, rfl⟩ := List.mem_iff_getElem.mp member
  have address : (lastLayout build cc again).usable[i]? = some sourced[i].1 := by
    obtain ⟨rest, shape⟩ := usable
    rw [← shape, List.getElem?_append_left (by rwa [List.length_map]), List.getElem?_map,
      List.getElem?_eq_getElem inside]
    rfl
  have byte : (dataBytes (lastLayout build cc again) (tag.memoryOf m))[i]? =
      some sourced[i].2 := by
    obtain ⟨rest, shape⟩ := begins
    rw [← shape, List.getElem?_append_left (by rwa [List.length_map]), List.getElem?_map,
      List.getElem?_eq_getElem inside]
    rfl
  rw [dataBytes, List.getElem?_map, List.getElem?_take] at byte
  split at byte
  · rw [address] at byte
    exact (Option.some.inj byte).symm
  · cases byte

end

/-! ## The target -/

/-- Writing a message spares a byte that was read: no byte of the new TLV or its
Terminator goes to the address it was read from, neither while the length is zero nor with
the real one, unless it is the byte that is there. -/
def Spared (layout : MemoryLayout) (index : Nat) (ndefData : List UInt8)
    (sourced : Nat × UInt8) : Prop :=
  ∀ i, layout.usableOffsetToAddress (index + i) = some sourced.1 →
    (∀ byte ∈ (zeroedTlv ndefData)[i]?, byte = sourced.2) ∧
    ∀ byte ∈ (encodedValue TLV_NDEF_MESSAGE ndefData ++ [TLV_TERMINATOR])[i]?, byte = sourced.2

/-- `write_ndef` targets the NDEF TLV at this index of the bytes read: its walk gives the
index, and whatever tag with this memory the message is written to, with any errors and
retries on the way, the bytes ahead of the index stay at the addresses they were read
from, after every exchange and at the end. -/
structure TargetsNdef (build : Build) (memory : Memory) (sourced : List (Nat × UInt8))
    (tlvs : List Tlv) (index : Nat) (ndefData : List UInt8) : Prop where
  offset : ndefTlvOffset tlvs 0 = some index
  spares : ∀ (σ ε : Type) (tag : Tag σ ε) (state : σ) (maxRetries : UInt8),
    tag.active state = 0 → tag.memory state = memory → ∀ pair ∈ sourced.take index,
      let run := stateAfter (writeNdef build tag.toTransceiver ndefData) (.start state maxRetries)
      (∀ exchange ∈ run.trace, tag.memory exchange.after pair.1 = pair.2) ∧
        tag.memoryOf run pair.1 = pair.2

section

variable {build : Build} {memory : Memory}

/-- A write whose walk is right and which spares every byte ahead leaves all of them as
they were, whatever fails on the way.

Proof: every memory of the run is a stage of the plan, and a stage has at each address the
old byte or one that the payload or the complete TLV has for it. -/
theorem TargetsNdef.of_spared (discovery : NdefDiscovery build memory)
    {sourced : List (Nat × UInt8)} {ndefData : List UInt8}
    (walked : ndefTlvOffset discovery.tlvs 0 = some discovery.index)
    (shown : ∀ pair ∈ sourced, pair.2 = memory pair.1)
    (spared : Accepts build discovery.cc discovery.writeLayout discovery.index ndefData →
      ∀ pair ∈ sourced.take discovery.index,
        Spared discovery.writeLayout discovery.index ndefData pair) :
    TargetsNdef build memory sourced discovery.tlvs discovery.index ndefData where
  offset := walked
  spares := by
    intro σ ε tag state maxRetries inSector0 same pair member run
    subst same
    have original : tag.memory state pair.1 = pair.2 :=
      (shown pair (List.mem_of_mem_take member)).symm
    have coherent := start_coherent build tag state maxRetries inSector0
    have staged := writeNdef_staged coherent ndefData
    cases preparing : prepareWrite build tag.toTransceiver ndefData (.start state maxRetries) with
    | error error prepared =>
      simp only [preparing] at staged
      obtain ⟨⟨recent, trace, quiet⟩, last⟩ := staged
      refine ⟨fun exchange inTrace => ?_, ?_⟩
      · rw [(quiet exchange (by rw [← List.nil_append recent]; exact trace ▸ inTrace)).2]
        exact original
      · change tag.memoryOf (stateAfter _ _) _ = _
        rw [last]
        exact original
    | ok job prepared =>
      simp only [preparing] at staged
      have plans : jobOf build ndefData (tag.memory state) = .ok job :=
        ((prepareWrite_quiet coherent ndefData).returned preparing).2
      have accepts := (discovery.jobOf_iff walked ndefData).mp ⟨job, plans⟩
      obtain ⟨-, -, plan, layout⟩ := discovery.planned plans
      have offset : discovery.index = job.ndefOffset :=
        Option.some.inj (walked.symm.trans plan.offset)
      have stage : ∀ k, planned (tag.memory state) job.pages k pair.1 = pair.2 := by
        intro k
        rcases plan.planned_byte (tag.memory state) k pair.1 with old | ⟨i, target, placed⟩
        · exact old.trans original
        · have here := spared accepts pair member i (by
            rw [MemoryLayout.usableOffsetToAddress_eq, offset, ← layout]
            exact target)
          exact placed.elim (fun byte => here.1 _ byte) fun byte => here.2 _ byte
      obtain ⟨⟨recent, trace, each⟩, k, -, last⟩ := staged
      refine ⟨fun exchange inTrace => ?_, ?_⟩
      · obtain ⟨⟨j, -, reached⟩, -⟩ :=
          each exchange (by rw [← List.nil_append recent]; exact trace ▸ inTrace)
        rw [reached]
        exact stage j
      · change tag.memoryOf (stateAfter _ _) _ = _
        rw [last]
        exact stage k

/-- What an address holds after every exchange of an accepted run on a tag that answers
everything, it holds at every stage of the plan after the first WRITE. -/
theorem stages_of_run {σ ε : Type} (tag : FaultFreeTag σ ε) (state : σ)
    (inSector0 : tag.active state = 0) {ndefData : List UInt8} {job : WriteJob}
    (plans : jobOf build ndefData (tag.memory state) = .ok job) {addr : Nat} {byte : UInt8}
    (holds : ∀ exchange ∈ (stateAfter (writeNdef build tag.toTransceiver ndefData)
      (.start state 0)).trace, tag.memory exchange.after addr = byte)
    (k : Nat) (positive : 0 < k) (inside : k ≤ job.pages.length) :
    planned (tag.memory state) job.pages k addr = byte := by
  have coherent := start_coherent build tag.toTag state 0 inSector0
  obtain ⟨last, run, -⟩ := writeNdef_accepted coherent plans
  obtain ⟨exchange, inTrace, reached⟩ :=
    (writeNdef_visits coherent plans).returned run k positive inside
  have same := holds exchange (by rw [stateAfter, run]; exact inTrace)
  rw [reached] at same
  exact same

/-- A write that leaves the bytes ahead as they were spares each of them: the payload and
the complete TLV are both in the memory at some point of a run on a tag that answers. -/
theorem TargetsNdef.spared (discovery : NdefDiscovery build memory)
    {sourced : List (Nat × UInt8)} {ndefData : List UInt8}
    (targets : TargetsNdef build memory sourced discovery.tlvs discovery.index ndefData)
    (accepts : Accepts build discovery.cc discovery.writeLayout discovery.index ndefData)
    {pair : Nat × UInt8} (member : pair ∈ sourced.take discovery.index) :
    Spared discovery.writeLayout discovery.index ndefData pair := by
  obtain ⟨job, plans⟩ := (discovery.jobOf_iff targets.offset ndefData).mpr accepts
  obtain ⟨-, -, plan, layout⟩ := discovery.planned plans
  have offset : discovery.index = job.ndefOffset :=
    Option.some.inj (targets.offset.symm.trans plan.offset)
  -- A run on a tag with this memory that answers everything goes through all stages.
  have stage : ∀ k, 0 < k → k ≤ job.pages.length →
      planned memory job.pages k pair.1 = pair.2 :=
    stages_of_run flatTag ⟨memory, 0⟩ rfl plans
      (targets.spares FlatState Unit flatTag.toTag ⟨memory, 0⟩ 0 rfl rfl pair member).1
  have positive : 0 < pageCount (job.layout.usable.drop job.ndefOffset) (zeroedTlv ndefData) := by
    by_contra none
    have placed := plan.cutBytes_payload
    rw [Nat.le_zero.mp (Nat.le_of_not_lt none)] at placed
    have size := congrArg List.length placed
    simp [cutBytes, firstPages] at size
  have total := plan.length_pages_eq
  unfold writeCount at total
  intro i target
  rw [MemoryLayout.usableOffsetToAddress_eq, offset, ← layout, ← List.getElem?_drop] at target
  have placedByte : ∀ k, 0 < k → k ≤ job.pages.length → ∀ byte ∈
      (cutBytes (job.layout.usable.drop job.ndefOffset) ndefData k)[i]?, byte = pair.2 := by
    intro k positive inside byte placed
    have shown := congrArg (·[i]?) (plan.planned_shown memory k)
    simp only [List.getElem?_map, target, Option.map_some] at shown
    rw [List.getElem?_append_left (List.getElem?_eq_some_iff.mp placed).1, placed,
      stage k positive inside] at shown
    exact (Option.some.inj shown).symm
  constructor
  · have payload := placedByte _ positive (by omega)
    rwa [plan.cutBytes_payload] at payload
  · have complete := placedByte job.pages.length (by omega) (Nat.le_refl _)
    rwa [plan.length_pages_eq, plan.cutBytes_complete] at complete

/-- Where the reader's map and the writer's agree up to the index, no byte ahead of it is
overwritten: the writer's map gives the index and all later ones larger addresses. -/
theorem spared_of_agree {read write : MemoryLayout} {sourced : List (Nat × UInt8)} {index : Nat}
    (usable : sourced.map Prod.fst <+: read.usable) (inside : index < sourced.length)
    (agree : AgreeUpTo ((sourced.take (index + 1)).map Prod.fst) read write)
    (ndefData : List UInt8) {pair : Nat × UInt8} (member : pair ∈ sourced.take index) :
    Spared write index ndefData pair := by
  have few : (sourced.take (index + 1)).map Prod.fst <+: read.usable := by
    rw [List.map_take]
    exact (List.take_prefix _ _).trans usable
  have maps := (mapped_iff_agree few).mpr agree
  obtain ⟨j, short, rfl⟩ := List.mem_iff_getElem.mp member
  rw [List.length_take] at short
  have ahead := maps j sourced[j].1 sourced[j].2
    (by rw [List.getElem?_take_of_lt (by omega), List.getElem?_eq_getElem (by omega)])
  intro i target
  rw [List.getElem_take, MemoryLayout.usableOffsetToAddress_eq] at target
  rw [MemoryLayout.usableOffsetToAddress_eq] at ahead
  exact absurd (Enumeration.kept_lt (show j < index + i by omega) ahead target) (Nat.lt_irrefl _)

end

/-- Every byte string that parses with an NDEF Message TLV has the tag byte of its first
one at an index, and the walk gives this index exactly when every block ahead has a known
tag and the length form of its length. On every tag whose data area reads as this byte
string, with these addresses, `write_ndef` of a message targets the NDEF TLV exactly when,
besides, the message is refused or each byte ahead of the index is spared at the address
it was read from.

Proof: the walk is settled on the byte string alone. For the bytes ahead, the stages of a
run on a tag that answers everything show what is overwritten, and every run on any tag
stays within these stages. -/
theorem targetsNdef_iff (build : Build) {data message : List UInt8} {tlvs : List Tlv}
    (accepted : parseTlvs build data = .ok tlvs) (found : firstNdef tlvs = some message) :
    ∃ index, ndefPosition data = some index ∧ NdefAt data index message ∧
      (ndefTlvOffset tlvs 0 = some index ↔ canonicalFront data = true) ∧
      ∀ {σ ε : Type} (tag : FaultFreeTag σ ε) (state : σ) (cc : CapabilityContainer)
        (sourced : List (Nat × UInt8)) (next : Machine σ),
        tag.active state = 0 → ccOf (tag.memory state) = .ok cc →
        readDataAreaWithLayoutSourced build tag.toTransceiver cc (.fresh state) =
          .ok sourced next →
        sourced.map Prod.snd = data → ∀ ndefData,
          let layout := MemoryLayout.fromCcAndTlvs build cc tlvs
          (TargetsNdef build (tag.memory state) sourced tlvs index ndefData ↔
            canonicalFront data = true ∧ (Accepts build cc layout index ndefData →
              ∀ pair ∈ sourced.take index, Spared layout index ndefData pair)) := by
  obtain ⟨index, position, here, -, walk⟩ := ndefTlvOffset_iff accepted found
  refine ⟨index, position, here, walk, ?_⟩
  intro σ ε tag state cc sourced next inSector0 parsed read bytes ndefData layout
  have coherent := fresh_coherent build tag.toTag state inSector0
  obtain ⟨computed, first, firstPass, -, shown⟩ := readDataAreaWithLayoutSourced_read coherent read
  rw [bytes] at computed
  let discovery : NdefDiscovery build (tag.memory state) :=
    ⟨cc, first, data, tlvs, message, index, parsed, firstPass, computed, accepted, found, position⟩
  constructor
  · intro targets
    exact ⟨walk.mp targets.offset, fun accepts pair member =>
      TargetsNdef.spared discovery targets accepts member⟩
  · rintro ⟨canonical, spared⟩
    exact TargetsNdef.of_spared discovery (walk.mpr canonical) shown spared

/-- A static tag with a NULL block and a proprietary block in the short form ahead of its
NDEF TLV. -/
def proprietaryState : FlatState where
  memory := fun addr => [0xE1, 0x10, 0x06, 0x00, 0x00, 0xFD, 0x01, 0x55, 0x03, 0x01, 0xD0,
    0xFE].getD (addr - 12) 0
  active := 0

/-- What is read of that tag, with the addresses. -/
def proprietaryBytes : List (Nat × UInt8) :=
  [(16, 0x00), (17, 0xFD), (18, 0x01), (19, 0x55), (20, 0x03), (21, 0x01), (22, 0xD0), (23, 0xFE)]

/-- Behind the NULL block and the proprietary block the NDEF TLV is targeted: both are
recorded and canonical, and without control TLVs the two maps are one. -/
theorem targetsNdef_iff_proprietary :
    outcome (readDataAreaWithLayoutSourced .alloc flatTag.toTransceiver staticCc)
      (.fresh proprietaryState) = .ok proprietaryBytes ∧
    TargetsNdef .alloc proprietaryState.memory proprietaryBytes
      [.null, .proprietary [0x55], .ndefMessage [0xD0], .terminator] 4 [0x44] := by
  have returned : outcome (readDataAreaWithLayoutSourced .alloc flatTag.toTransceiver staticCc)
      (.fresh proprietaryState) = .ok proprietaryBytes := by decide +kernel
  refine ⟨returned, ?_⟩
  obtain ⟨next, read⟩ : ∃ next, readDataAreaWithLayoutSourced .alloc flatTag.toTransceiver
      staticCc (.fresh proprietaryState) = .ok proprietaryBytes next := by
    unfold outcome at returned
    split at returned
    · next value next run => exact ⟨next, Except.ok.inj returned ▸ run⟩
    · cases returned
  have listed : parseTlvs .alloc (proprietaryBytes.map Prod.snd) =
      .ok [.null, .proprietary [0x55], .ndefMessage [0xD0], .terminator] := by decide +kernel
  obtain ⟨index, position, -, -, exact⟩ := targetsNdef_iff .alloc listed rfl
  have here : ndefPosition (proprietaryBytes.map Prod.snd) = some 4 := by decide +kernel
  obtain rfl : index = 4 := Option.some.inj (position.symm.trans here)
  refine (exact flatTag proprietaryState staticCc proprietaryBytes next rfl (by decide +kernel) read
    rfl [0x44]).mpr ⟨by decide +kernel, fun _ pair member => ?_⟩
  obtain ⟨-, first, -, usable, -⟩ := readDataAreaWithLayoutSourced_read
    (fresh_coherent .alloc flatTag.toTag proprietaryState rfl) read
  have single : lastLayout .alloc staticCc first = MemoryLayout.fromCcAndTlvs .alloc staticCc
      [.null, .proprietary [0x55], .ndefMessage [0xD0], .terminator] := by
    rw [fromCcAndTlvs_uncontrolled staticCc (by decide)]
    rfl
  rw [single] at usable
  exact spared_of_agree usable (by decide) (fun _ _ _ _ _ => rfl) [0x44] member

/-- A static tag whose data area begins with a block the parser skips. -/
def skippedBlockState : FlatState where
  memory := fun addr => [0xE1, 0x10, 0x06, 0x00, 0x7F, 0x01, 0xAA, 0x03, 0x01, 0xD0,
    0xFE].getD (addr - 12) 0
  active := 0

/-- The walk leaves the skipped block out: `write_ndef` starts at that block instead of
the NDEF TLV behind it, and overwrites it. -/
theorem targetsNdef_skipped_block :
    let data := [0x7F, 0x01, 0xAA, 0x03, 0x01, 0xD0, 0xFE]
    let tlvs := [.ndefMessage [0xD0], .terminator]
    parseTlvs .alloc data = .ok tlvs ∧ firstNdef tlvs = some [0xD0] ∧
    ndefPosition data = some 3 ∧ ndefTlvOffset tlvs 0 = some 0 ∧
    flatTag.memory skippedBlockState 16 = 0x7F ∧
    flatTag.memoryOf (stateAfter (writeNdef .alloc flatTag.toTransceiver [0xD1])
      (.fresh skippedBlockState)) 16 = 0x03 := by
  decide +kernel

/-- A dynamic tag with a Memory Control TLV for the bytes 21 to 25, where a Lock Control TLV
for the bytes 26 to 28 stands that only the first pass shows. -/
def hiddenControlState : FlatState where
  memory := fun addr => [0xE1, 0x10, 0x0C, 0x00, 0x02, 0x03, 0x15, 0x05, 0x04, 0x01, 0x03, 0x1A,
    0x18, 0x34, 0x00, 0x00, 0x00, 0xFD, 0x01, 0x55, 0x03, 0x01, 0xD0, 0xFE].getD (addr - 12) 0
  active := 0

-- A right offset is not enough: the proprietary block read from 29 to 31 is ahead of the NDEF
-- TLV at index 8, all blocks are canonical, and the writer's map gives index 8 the address 29.
example : (dataAreaWithLayoutOf .alloc ⟨1, 0, 0x0C, .granted, .granted⟩ hiddenControlState.memory =
      .ok [0x02, 0x03, 0x15, 0x05, 0x04, 0xFD, 0x01, 0x55, 0x03, 0x01, 0xD0, 0xFE]) ∧
    canonicalFront [0x02, 0x03, 0x15, 0x05, 0x04, 0xFD, 0x01, 0x55, 0x03, 0x01, 0xD0, 0xFE] =
      true ∧
    (List.range' 29 7).map hiddenControlState.memory =
      [0xFD, 0x01, 0x55, 0x03, 0x01, 0xD0, 0xFE] ∧
    (List.range' 29 7).map (flatTag.memoryOf (stateAfter
      (writeNdef .alloc flatTag.toTransceiver [0x44]) (.fresh hiddenControlState))) =
      [0x03, 0x01, 0x44, 0xFE, 0x01, 0xD0, 0xFE] := by
  decide +kernel

end NfcForumTags
