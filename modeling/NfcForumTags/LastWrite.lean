import NfcForumTags.Confinement
import NfcForumTags.FaultFreeRuns
import NfcForumTags.DataStream
import NfcForumTags.NdefOffset

/-!
# The last accepted write

On a tag without areas in its data area, whose NDEF TLV `write_ndef` targets, an
accepted write leaves a data area of the same kind: the blocks ahead of the NDEF TLV
stay, the message is the new one, and the Terminator behind it hides what is left of
the old content. So a read returns the message of the last accepted write.
-/
namespace NfcForumTags

open Program

/-! ## Data areas without areas -/

/-- No lock or reserved area of the layout meets the data area. -/
def MemoryLayout.Clear (layout : MemoryLayout) : Prop :=
  ∀ addr, 16 ≤ addr → addr < 16 + layout.dataAreaSize → layout.isSkipArea addr = false

/-- The bytes of the data area, skipping nothing. -/
def rawBytes (cc : CapabilityContainer) (memory : Memory) : List UInt8 :=
  (List.range' 16 cc.dataAreaSize).map memory

/-- As many raw bytes are read as the container says. -/
@[simp] theorem length_rawBytes (cc : CapabilityContainer) (memory : Memory) :
    (rawBytes cc memory).length = cc.dataAreaSize := by
  simp [rawBytes]

/-- Where no area is met, the first usable bytes are the first bytes. -/
theorem MemoryLayout.usable_take {layout : MemoryLayout} {count : Nat}
    (inside : 16 + count ≤ ADDRESS_SPACE_END)
    (free : ∀ addr, 16 ≤ addr → addr < 16 + count → layout.isSkipArea addr = false) :
    layout.usable.take count = List.range' 16 count := by
  have cut : layout.usable = Enumeration.kept (fun addr => !layout.isSkipArea addr)
      16 (16 + count) ++
      layout.usableFrom (16 + count) :=
    Enumeration.kept_append (by omega) inside
  have all : Enumeration.kept (fun addr => !layout.isSkipArea addr) 16 (16 + count) =
      List.range' 16 count := by
    unfold Enumeration.kept
    rw [Nat.add_sub_cancel_left, List.filter_eq_self]
    intro addr member
    have bounds := List.mem_range'_1.mp member
    rw [free addr bounds.1 bounds.2]
    rfl
  rw [cut, all]
  exact List.take_left' List.length_range'

/-- The usable bytes of a clear data area are all of it. -/
theorem MemoryLayout.Clear.usable_take {layout : MemoryLayout} (clear : layout.Clear)
    (small : layout.dataAreaSize ≤ 2040) :
    layout.usable.take layout.dataAreaSize = List.range' 16 layout.dataAreaSize :=
  MemoryLayout.usable_take (by simp only [ADDRESS_SPACE_END_eq]; omega) clear

/-- Where no area lies in the data area, the data bytes are the raw bytes. -/
theorem MemoryLayout.Clear.dataBytes {cc : CapabilityContainer} {tlvs : List Tlv}
    (clear : (MemoryLayout.fromCcAndTlvs .alloc cc tlvs).Clear) (memory : Memory) :
    dataBytes (MemoryLayout.fromCcAndTlvs .alloc cc tlvs) memory = rawBytes cc memory := by
  have usable := clear.usable_take (by rw [fromCcAndTlvs_size]; exact cc.dataAreaSize_le)
  rw [NfcForumTags.dataBytes, usable, fromCcAndTlvs_size, rawBytes]

/-- The lock area a dynamic tag has by default is behind its data area. -/
theorem defaultArea_outside {size addr : Nat} (inside : addr < 16 + size) :
    (defaultDynamicLockArea size).contains addr = false := by
  have before : ¬ (defaultDynamicLockArea size).byteAddress ≤ addr := by
    simp only [defaultDynamicLockArea, DATA_START_BLOCK_toNat, BLOCK_SIZE_eq]
    omega
  unfold LockArea.contains
  rw [decide_eq_false before, Bool.false_and]

/-- Without control blocks no byte of the data area is skipped. -/
theorem basic_clear (cc : CapabilityContainer) :
    (MemoryLayout.fromCcAndTlvs .alloc cc []).Clear := by
  intro addr low high
  rw [fromCcAndTlvs_size] at high
  rw [MemoryLayout.fromCcAndTlvs_alloc, MemoryLayout.isSkipArea, Bool.or_eq_false_iff]
  refine ⟨?_, rfl⟩
  dsimp only
  split
  · rw [List.any_cons, defaultArea_outside high]
    rfl
  · rfl

/-- Leaving control blocks out of a clear layout keeps it clear. -/
theorem MemoryLayout.Clear.of_subset {cc : CapabilityContainer} {tlvs others : List Tlv}
    (clear : (fromCcAndTlvs .alloc cc tlvs).Clear) (locks : lockAreasOf others ⊆ lockAreasOf tlvs)
    (reserved : reservedAreasOf others ⊆ reservedAreasOf tlvs) :
    (fromCcAndTlvs .alloc cc others).Clear := by
  intro addr low high
  rw [fromCcAndTlvs_size] at high
  have free := clear addr low (by rw [fromCcAndTlvs_size]; exact high)
  rw [fromCcAndTlvs_alloc] at free ⊢
  unfold isSkipArea at free ⊢
  rw [Bool.or_eq_false_iff, List.any_eq_false, List.any_eq_false] at free ⊢
  refine ⟨fun area member => ?_, fun area member => free.2 area (reserved member)⟩
  dsimp only at free member
  split at member
  · obtain rfl := List.mem_singleton.mp member
    rw [defaultArea_outside high]
    exact Bool.false_ne_true
  · have listed := locks member
    refine free.1 area ?_
    rw [if_neg]
    · exact listed
    · rw [Bool.and_eq_true, List.isEmpty_iff]
      rintro ⟨-, empty⟩
      rw [empty] at listed
      cases listed

/-! ## A tag that holds a message -/

/-- The memory of a tag that grants access, without areas in its data area, whose
first message is in an NDEF TLV behind these blocks, where the walk of `write_ndef`
finds it. -/
structure Holds (cc : CapabilityContainer) (ahead : List UInt8) (front : List Tlv)
    (memory : Memory) (message : List UInt8) : Prop where
  parsed : ccOf memory = .ok cc
  valid : cc.isValid = true
  blocks : TlvBlocks ahead front
  passed : Passed front
  walked : (front.map Tlv.walkSize).sum = ahead.length
  begins : ahead <+: rawBytes cc memory
  shows : ∃ behind, TlvStream (rawBytes cc memory) (front ++ .ndefMessage message :: behind) ∧
    (MemoryLayout.fromCcAndTlvs .alloc cc (front ++ .ndefMessage message :: behind)).Clear

section

variable {cc : CapabilityContainer} {ahead : List UInt8} {front : List Tlv} {memory : Memory}
  {message : List UInt8}

/-- Both passes over a clear data area see all of its bytes. -/
theorem readsAs_clear {tlvs : List Tlv} (stream : TlvStream (rawBytes cc memory) tlvs)
    (clear : (MemoryLayout.fromCcAndTlvs .alloc cc tlvs).Clear) : ReadsAs cc memory tlvs := by
  refine ⟨tlvs, ?_, ?_⟩
  · rw [(basic_clear cc).dataBytes]
    exact stream
  · unfold lastLayout
    split
    · rw [clear.dataBytes]
      exact stream
    · rw [(basic_clear cc).dataBytes]
      exact stream

/-- What the tag holds is read. -/
theorem Holds.ndefOf (holds : Holds cc ahead front memory message) :
    ndefOf .alloc memory = .ok message := by
  obtain ⟨behind, stream, clear⟩ := holds.shows
  rw [ndefOf_alloc_iff]
  exact ⟨cc, _, holds.parsed, holds.valid, readsAs_clear stream clear, by
    rw [firstNdef_passed holds.passed]
    rfl⟩

/-- The job of a write to a tag that holds a message. -/
theorem Holds.planned (holds : Holds cc ahead front memory message) {ndefData : List UInt8}
    {job : WriteJob} (plans : jobOf .alloc ndefData memory = .ok job) :
    ∃ tlvs, job.Planned .alloc cc tlvs ndefData ∧ job.ndefOffset = ahead.length ∧
      job.layout.Clear := by
  obtain ⟨behind, stream, clear⟩ := holds.shows
  obtain ⟨cc', dataArea, tlvs, parsed, -, -, read, listed, plans⟩ := jobOf_ok plans
  obtain rfl : cc = cc' := Except.ok.inj (holds.parsed.symm.trans parsed)
  have plan := planWrite_ok plans
  have seen : (dataAreaWithLayoutOf .alloc cc memory >>= parseTlvs .alloc) = .ok tlvs := by
    rw [read]
    exact listed
  have same : tlvs = front ++ .ndefMessage message :: behind :=
    Except.ok.inj (seen.symm.trans ((readsAs_iff cc memory _).mpr (readsAs_clear stream clear)))
  have offset := plan.offset
  rw [same, ndefTlvOffset_passed holds.passed, Nat.zero_add, holds.walked] at offset
  refine ⟨tlvs, plan, (Option.some.inj offset).symm, ?_⟩
  rw [plan.layout, same]
  exact clear

/-- After an accepted write the data area begins with what was ahead of the NDEF TLV, the
new one and a Terminator. -/
theorem Holds.rawBytes_written (holds : Holds cc ahead front memory message) {ndefData : List UInt8}
    {job : WriteJob} (plans : jobOf .alloc ndefData memory = .ok job) :
    ∃ tail, rawBytes cc (NfcForumTags.planned memory job.pages job.pages.length) =
      ahead ++ encodedValue TLV_NDEF_MESSAGE ndefData ++ TLV_TERMINATOR :: tail := by
  obtain ⟨tlvs, plan, offset, clear⟩ := holds.planned plans
  have size : job.layout.dataAreaSize = cc.dataAreaSize := by rw [plan.layout, fromCcAndTlvs_size]
  have small := cc.dataAreaSize_le
  have fits := plan.fits
  have raw : ∀ content : Memory, rawBytes cc content =
      (job.layout.usable.map content).take cc.dataAreaSize := by
    intro content
    rw [← List.map_take, ← size, clear.usable_take (size ▸ small), size, rawBytes]
  have kept : (job.layout.usable.take ahead.length).map
      (NfcForumTags.planned memory job.pages job.pages.length) = ahead := by
    have original : (job.layout.usable.take ahead.length).map memory = ahead := by
      have begins := List.prefix_iff_eq_take.mp holds.begins
      rw [raw memory, List.take_take, min_eq_left (by omega), ← List.map_take] at begins
      exact begins.symm
    refine Eq.trans (List.map_congr_left fun addr member => ?_) original
    obtain ⟨i, inside, rfl⟩ := List.mem_iff_getElem.mp member
    rw [List.length_take] at inside
    rw [List.getElem_take]
    refine planned_protected plan memory _ (Or.inr (Or.inr ⟨i, ?_, Or.inl (by omega)⟩))
    rw [MemoryLayout.usableOffsetToAddress_eq]
    exact List.getElem?_eq_getElem _
  have after := plan.usable_after memory
  rw [offset] at after
  have whole := congrArg (List.map (NfcForumTags.planned memory job.pages job.pages.length))
    (List.take_append_drop ahead.length job.layout.usable)
  rw [List.map_append, kept, after] at whole
  have length : (ahead ++ (encodedValue TLV_NDEF_MESSAGE ndefData ++ [TLV_TERMINATOR])).length ≤
      cc.dataAreaSize := by
    simp only [List.length_append, length_encodedValue, List.length_singleton]
    omega
  rw [raw, ← whole, ← List.append_assoc, List.take_append, List.take_of_length_le length]
  exact ⟨_, by rw [← List.append_assoc, List.append_assoc (ahead ++ _), List.singleton_append]⟩

/-- After an accepted write the tag holds the new message. -/
theorem Holds.written (holds : Holds cc ahead front memory message) {ndefData : List UInt8}
    {job : WriteJob} (plans : jobOf .alloc ndefData memory = .ok job) :
    Holds cc ahead front (NfcForumTags.planned memory job.pages job.pages.length) ndefData := by
  obtain ⟨tlvs, plan, -, -⟩ := holds.planned plans
  obtain ⟨behind, -, shown⟩ := holds.shows
  obtain ⟨tail, shape⟩ := holds.rawBytes_written plans
  exact {
    parsed := (ccOf_planned plan memory _).trans holds.parsed
    valid := holds.valid
    blocks := holds.blocks
    passed := holds.passed
    walked := holds.walked
    begins := ⟨_, by rw [shape, List.append_assoc]⟩
    shows := by
      refine ⟨[.terminator], ⟨_, front ++ [.ndefMessage ndefData],
        holds.blocks.append (TlvBlock.encodedNdef plan.encodable).single,
          Or.inr ⟨tail, shape, ?_⟩⟩, ?_⟩
      · simp
      · apply shown.of_subset <;> simp [lockAreasOf, reservedAreasOf, lockControls,
          memoryControls] }

end

/-! ## Runs of writes -/

/-- A tag with an NDEF Message TLV behind blocks of known tags in the length form of
their lengths, and no lock or reserved area in its data area. The areas are those of
the blocks of the first pass, so later passes and writes see the same data area. -/
structure PlainTag (cc : CapabilityContainer) (data : List UInt8) (tlvs : List Tlv)
    (memory : Memory) : Prop where
  parsed : ccOf memory = .ok cc
  valid : cc.isValid = true
  read : dataAreaOf .alloc (MemoryLayout.fromCcAndTlvs .alloc cc []) memory = .ok data
  listed : parseTlvs .alloc data = .ok tlvs
  found : ∃ message, firstNdef tlvs = some message
  canonical : canonicalFront data = true
  clear : (MemoryLayout.fromCcAndTlvs .alloc cc tlvs).Clear

/-- The blocks of a plain tag are those of all bytes of its data area. -/
theorem PlainTag.stream {cc : CapabilityContainer} {data : List UInt8} {tlvs : List Tlv}
    {memory : Memory} (plain : PlainTag cc data tlvs memory) :
    data = upToStop .tag (rawBytes cc memory) ∧ TlvStream (rawBytes cc memory) tlvs := by
  have read := emptyStream.dataAreaOf cc (by simp) memory
  rw [plain.read, (basic_clear cc).dataBytes] at read
  have stops : data = upToStop .tag (rawBytes cc memory) := Except.ok.inj read
  refine ⟨stops, ?_⟩
  rw [← upToStop_stream, ← stops]
  exact parseTlvs_sound plain.listed

/-- A plain tag holds its first message. -/
theorem PlainTag.holds {cc : CapabilityContainer} {data : List UInt8} {tlvs : List Tlv}
    {memory : Memory} (plain : PlainTag cc data tlvs memory) :
    ∃ ahead front message, Holds cc ahead front memory message := by
  obtain ⟨message, found⟩ := plain.found
  obtain ⟨ahead, front, field, rest, behind, blocks, passed, walked, length, shape, listed⟩ :=
    (parseTlvs_sound plain.listed).canonicalSplit found plain.canonical
  obtain ⟨stops, stream⟩ := plain.stream
  obtain ⟨behindStop, whole⟩ := upToStop_prefix .tag (rawBytes cc memory)
  exact ⟨ahead, front, message, {
    parsed := plain.parsed
    valid := plain.valid
    blocks
    passed
    walked
    begins := ⟨_, by rw [whole, ← stops, shape, List.append_assoc]⟩
    shows := ⟨behind, listed ▸ stream, listed ▸ plain.clear⟩ }⟩

section

variable {σ ε : Type}

/-- The message of the last write that was accepted, or the original one. -/
def lastAccepted {α : Type} (original : List UInt8) :
    List (List UInt8 × Except (ReaderError ε) α) → List UInt8
  | [] => original
  | (message, .ok _) :: rest => lastAccepted message rest
  | (_, .error _) :: rest => lastAccepted original rest

variable {tag : FaultFreeTag σ ε} {cc : CapabilityContainer} {ahead : List UInt8} {front : List Tlv}

/-- A run of writes leaves a tag that holds the message of the last accepted one.

Induction on the writes: an accepted one changes the message held, a refused one
changes nothing. -/
theorem Holds.writes {m : Machine σ} (coherent : Coherent .alloc tag.toTag m)
    {original : List UInt8} (holds : Holds cc ahead front (tag.memoryOf m) original)
    (messages : List (List UInt8)) :
    Coherent .alloc tag.toTag (runCalls .alloc tag.toTransceiver (messages.map .writeNdef) m) ∧
    Holds cc ahead front
      (tag.memoryOf (runCalls .alloc tag.toTransceiver (messages.map .writeNdef) m))
      (lastAccepted original (messages.zip
        (replies .alloc tag.toTransceiver (messages.map .writeNdef) m))) := by
  induction messages generalizing m original with
  | nil => exact ⟨coherent, holds⟩
  | cons message messages inductionHypothesis =>
    cases plans : jobOf .alloc message (tag.memoryOf m) with
    | ok job =>
      obtain ⟨next, run, after, memory⟩ := writeNdef_accepted coherent plans
      have held := holds.written plans
      rw [← memory] at held
      have call : (Call.writeNdef message).run .alloc tag.toTransceiver m = .ok .done next := by
        simp only [Call.run, bind, EStateM.bind, run]
        rfl
      have onward := inductionHypothesis after held
      simp only [List.map_cons, replies, List.zip_cons_cons, runCalls, List.foldl_cons, Call.after,
        stateAfter, outcome, call]
      exact onward
    | error refusal =>
      obtain ⟨next, run, after, memory⟩ := writeNdef_refused coherent plans
      rw [← memory] at holds
      have call : (Call.writeNdef message).run .alloc tag.toTransceiver m =
          .error (.protocol refusal) next := by
        simp only [Call.run, bind, EStateM.bind, run]
      have onward := inductionHypothesis after holds
      simp only [List.map_cons, replies, List.zip_cons_cons, runCalls, List.foldl_cons, Call.after,
        stateAfter, outcome, call]
      exact onward

/-- On a plain tag that answers everything: after any run of writes, accepted or not,
on a new reader, a read returns the message of the last accepted write, or the
message read before the run if none was accepted.

Proof: a write that is accepted leaves a plain tag whose message is the new one, and a
refused write leaves the memory; so the tag holds the last accepted message after the run,
by induction on the writes, and a read returns what the tag holds. -/
theorem lastAccepted_read (tag : FaultFreeTag σ ε) (state : σ) (inSector0 : tag.active state = 0)
    {data : List UInt8} {tlvs : List Tlv} (plain : PlainTag cc data tlvs (tag.memory state))
    {original : List UInt8}
    (readable : outcome (readNdef .alloc tag.toTransceiver) (.fresh state) = .ok original)
    (messages : List (List UInt8)) :
    outcome (readNdef .alloc tag.toTransceiver)
        (runCalls .alloc tag.toTransceiver (messages.map .writeNdef) (.fresh state)) =
      .ok (lastAccepted original (messages.zip
        (replies .alloc tag.toTransceiver (messages.map .writeNdef) (.fresh state)))) := by
  have coherent := fresh_coherent .alloc tag.toTag state inSector0
  obtain ⟨ahead, front, message, holds⟩ := plain.holds
  have reads : ∀ {m : Machine σ} {message : List UInt8}, Coherent .alloc tag.toTag m →
      Holds cc ahead front (tag.memoryOf m) message →
      outcome (readNdef .alloc tag.toTransceiver) m = .ok message :=
    fun coherent holds => ((readNdef_answers coherent).outcome_iff _).mpr holds.ndefOf
  have same := reads coherent holds
  rw [readable] at same
  obtain rfl := Except.ok.inj same
  obtain ⟨after, held⟩ := Holds.writes coherent holds messages
  exact reads after held

/-- A static tag with a message of one byte. -/
def oneByteState : FlatState where
  memory := fun addr => [0xE1, 0x10, 0x06, 0x00, 0x03, 0x01, 0xD0, 0xFE].getD (addr - 12) 0
  active := 0

/-- The tag with a message of one byte is a plain tag. -/
theorem oneByteState_plain : PlainTag staticCc [0x03, 0x01, 0xD0, 0xFE]
    [.ndefMessage [0xD0], .terminator] oneByteState.memory where
  parsed := by decide +kernel
  valid := by decide
  read := by decide +kernel
  listed := by decide +kernel
  found := ⟨[0xD0], rfl⟩
  canonical := by decide +kernel
  clear := fun _ _ _ => rfl

/-- A message that fits, one that does not, and a read: the first one is returned. -/
theorem lastAccepted_read_refused :
    outcome (readNdef .alloc flatTag.toTransceiver) (runCalls .alloc flatTag.toTransceiver
      ([[0x11, 0x22], List.replicate 60 0x33].map .writeNdef) (.fresh oneByteState)) =
        .ok [0x11, 0x22] := by
  have readable : outcome (readNdef .alloc flatTag.toTransceiver) (.fresh oneByteState) =
      .ok [0xD0] := by decide +kernel
  rw [lastAccepted_read flatTag oneByteState rfl oneByteState_plain readable]
  exact congrArg Except.ok (by decide +kernel)

end

end NfcForumTags
