import NfcForumTags.Cache
import NfcForumTags.FaultFreeRuns
import NfcForumTags.Framing

/-!
# The bytes of a data area

Both walks over a layout enumerate the same addresses: `usable_offset_to_address`
indexes them, and `read_data_area` returns the memory at the first of them, up to the
size of the data area or the Terminator, wherever the reader was left before.
-/
namespace NfcForumTags

open Program

/-- How many of these bytes are read, when `size` of them may be. -/
def readCount (size : Nat) (scan : TlvScanState) (bytes : List UInt8) : Nat :=
  match stopIndex scan bytes with
  | none => size
  | some i => min size (i + 1)

/-- A byte that stops the scanner is the last one read. -/
theorem readCount_stop {scan : TlvScanState} {byte : UInt8}
    (fires : scan.feed byte = none) (size : Nat)
    (rest : List UInt8) : readCount (size + 1) scan (byte :: rest) = 1 := by
  rw [readCount, stopIndex, fires]
  exact Nat.min_eq_right (Nat.le_add_left 1 size)

/-- One that does not is read, and the scanner goes on. -/
theorem readCount_next {scan next : TlvScanState} {byte : UInt8} (fed : scan.feed byte = some next)
    (size : Nat) (rest : List UInt8) :
    readCount (size + 1) scan (byte :: rest) = readCount size next rest + 1 := by
  rw [readCount, readCount, stopIndex, fed]
  dsimp only
  cases stopIndex next rest with
  | none => rfl
  | some i => exact Nat.add_min_add_right size (i + 1) 1

/-- With growable buffers collecting takes that many bytes, or runs out of them.

Induction on the bytes that may still be taken. -/
theorem collect_count (size : Nat) (scan : TlvScanState) (result bytes : List UInt8) :
    collect .alloc size scan result bytes =
      if bytes.length < readCount size scan bytes then .error .outOfRange
      else .ok (result ++ bytes.take (readCount size scan bytes)) := by
  induction size generalizing scan result bytes with
  | zero =>
    have none : readCount 0 scan bytes = 0 := by
      rw [readCount]
      cases stopIndex scan bytes with
      | none => rfl
      | some i => exact Nat.zero_min _
    rw [none, if_neg (Nat.not_lt_zero _), List.take_zero, List.append_nil, collect]
  | succ size inductionHypothesis =>
    cases bytes with
    | nil => exact (if_pos (Nat.succ_pos size)).symm
    | cons byte rest =>
      have pushed : tryPush Build.alloc.dataCapacity result byte = .ok (result ++ [byte]) := rfl
      cases fed : scan.feed byte with
      | none =>
        rw [readCount_stop fed, if_neg (by simp), collect_stop pushed fed]
        rfl
      | some next =>
        rw [collect_next pushed fed, inductionHypothesis, readCount_next fed, List.length_cons,
          List.take_succ_cons, List.append_assoc]
        simp only [Nat.add_lt_add_iff_right]
        rfl

section

variable {σ ε : Type}

/-- Two contracts for one tag: its active sector, its memory and its answers. -/
def SameTag (past tag : Tag σ ε) : Prop :=
  past.active = tag.active ∧ past.memory = tag.memory ∧ past.answer = tag.answer

/-- A reader that is coherent with a tag is coherent with it through any transceiver. -/
theorem SameTag.coherent {build : Build} {past tag : Tag σ ε} (same : SameTag past tag)
    {m : Machine σ} (coherent : Coherent build past m) : Coherent build tag m := by
  obtain ⟨active, memory, answer⟩ := same
  have memoryOf : past.memoryOf m = tag.memoryOf m := congrFun memory _
  have activeOf : past.activeOf m = tag.activeOf m := congrFun active _
  refine ⟨fun sector known => activeOf ▸ coherent.tracks sector known, fun block cached => ?_,
    coherent.uncached⟩
  rw [← answer, ← memoryOf, ← activeOf]
  exact coherent.cached block cached

/-- `read_data_area` on a tag that answers everything. -/
theorem readDataArea_answers {build : Build} {tag : FaultFreeTag σ ε} {m : Machine σ}
    (coherent : Coherent build tag.toTag m) (layout : MemoryLayout) :
    Answers build tag (readDataArea build tag.toTransceiver layout)
      (dataAreaOf build layout (tag.memoryOf m)) m :=
  answers_of_computes
    ((faultFree_reads build tag m).readDataArea_rule layout m ⟨held_start coherent _, trivial⟩)

/-- The addresses that a layout of a Capability Container and blocks does not skip, in
increasing order, are those `usable_offset_to_address` finds, by their index. On a tag
that answers everything from now on, wherever a reader was left by a run of calls, with
any faults on the way: `read_data_area` returns the memory at the first of them, as many
as the data area has, or up to the byte at which the scanner fires; it is out of range
if there are not as many.

Proof: a coherent reader on a tag that answers everything collects the bytes of the usable
addresses until there are enough or the scanner fires, which is what the count says of the
list. -/
theorem readDataArea_enumerates (past : Tag σ ε) (tag : FaultFreeTag σ ε)
    (same : SameTag past tag.toTag) (state : σ) (start : past.active state = 0) (calls : List Call)
    (cc : CapabilityContainer) (tlvs : List Tlv) :
    let layout := MemoryLayout.fromCcAndTlvs .alloc cc tlvs
    let m := runCalls .alloc past.toTransceiver calls (.fresh state)
    let addresses := (List.range' 16 (ADDRESS_SPACE_END - 16)).filter fun addr =>
      !layout.isSkipArea addr
    let bytes := addresses.map (tag.memoryOf m)
    let count := readCount layout.dataAreaSize .tag bytes
    (∀ n, layout.usableOffsetToAddress n = addresses[n]?) ∧
    outcome (readDataArea .alloc tag.toTransceiver layout) m =
      if addresses.length < count then .error (.protocol .outOfRange)
      else .ok ((addresses.take count).map (tag.memoryOf m)) := by
  intro layout m addresses bytes count
  refine ⟨fun n => layout.usableOffsetToAddress_eq n, ?_⟩
  have coherent := same.coherent (coherent_run .alloc past calls state start)
  rw [(readDataArea_answers coherent layout).outcome_eq]
  have collected : dataAreaOf .alloc layout (tag.memoryOf m) =
      if bytes.length < count then .error .outOfRange else .ok ([] ++ bytes.take count) :=
    collect_count layout.dataAreaSize .tag [] bytes
  rw [collected, List.length_map, List.nil_append, List.map_take]
  split <;> rfl

/-- A tag with a lock area of one byte inside of its first page, and a Terminator. -/
def piercedState : FlatState where
  memory := fun addr =>
    [0xE1, 0x10, 0x12, 0x00, 0x00, 0x00, 0x55, 0x03, 0x01, 0xD0, 0xFE].getD (addr - 12) 0
  active := 0

/-- A Lock Control TLV that describes the lock area at address 18. -/
def piercingLock : Tlv := .lockControl ⟨1, 2, 8, 4, 3⟩

/-- A Capability Container of 144 bytes. -/
def piercedCc : CapabilityContainer := ⟨1, 0, 0x12, .granted, .granted⟩

/-- The byte at 18 is left out, in either walk, though block 4 was cached before. -/
theorem readDataArea_enumerates_pierced :
    let layout := MemoryLayout.fromCcAndTlvs .alloc piercedCc [piercingLock]
    let m := runCalls .alloc flatTag.toTransceiver [.read 4] (.fresh piercedState)
    ((List.range' 16 (ADDRESS_SPACE_END - 16)).filter fun addr => !layout.isSkipArea addr)[2]? =
      some 19 ∧
    outcome (readDataArea .alloc flatTag.toTransceiver layout) m =
      .ok [0x00, 0x00, 0x03, 0x01, 0xD0, 0xFE] := by
  have enumerates := readDataArea_enumerates flatTag.toTag flatTag ⟨rfl, rfl, rfl⟩ piercedState rfl
    [.read 4] piercedCc [piercingLock]
  exact ⟨(enumerates.1 2).symm.trans (by decide +kernel), by decide +kernel⟩

end

end NfcForumTags
