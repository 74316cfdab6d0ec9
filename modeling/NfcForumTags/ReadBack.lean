import NfcForumTags.BuildAgreement
import NfcForumTags.CutMemory
import NfcForumTags.DataAreaBytes
import NfcForumTags.LastWrite

/-!
# Reading back in the default build

`write_ndef` bounds its own payload only, and a read bounds all bytes up to the
Terminator and all blocks it records. So what the default build has written it may be
unable to read: what lies ahead of the NDEF TLV counts for the read and not for the
write, and so does the Terminator that the write adds.
-/
namespace NfcForumTags

open Program

/-! ## What the buffers hold -/

/-- At most four blocks are recorded of the data before it ends, is malformed or reaches
a Terminator, which counts as one. -/
def FewBlocks (data : List UInt8) : Prop :=
  ∀ body front rest, data = body ++ rest → TlvBlocks body front →
    front.length ≤ 4 ∧ (rest.head? = some TLV_TERMINATOR → front.length ≤ 3)

/-- The bytes up to the first Terminator at a block boundary fit a buffer, and so do the
blocks in them. -/
def Roomy (data : List UInt8) : Prop :=
  (upToStop .tag data).length ≤ 1024 ∧ FewBlocks (upToStop .tag data)

/-- Reading a data area with enough usable bytes. -/
theorem dataAreaOf_heapless {layout : MemoryLayout} (memory : Memory)
    (enough : layout.dataAreaSize ≤ layout.usable.length) :
    dataAreaOf .heapless layout memory =
      if (upToStop .tag (dataBytes layout memory)).length ≤ 1024 then
        .ok (upToStop .tag (dataBytes layout memory))
      else .error .bufferFull := by
  rw [dataAreaOf_upToStop .heapless memory enough]
  simp only [fits, Build.heapless, decide_eq_true_eq]

/-! ## Blocks that are recorded -/

/-- A value within a buffer is copied as with growable ones. -/
theorem blockOfValue_heapless (tag : UInt8) {value : List UInt8} (short : value.length ≤ 1024) :
    blockOfValue .heapless tag value = blockOfValue .alloc tag value := by
  have copied : tryExtend Build.heapless.dataCapacity [] value = .ok value :=
    tryExtend_of_fits (by simpa [fits, Build.heapless] using short)
  have grown : tryExtend Build.alloc.dataCapacity [] value = .ok value := rfl
  unfold blockOfValue
  rw [copied, grown]

/-- So a block within a buffer is cut off as with growable ones. -/
theorem headBlock_heapless (tag : UInt8) {rest : List UInt8} (short : rest.length ≤ 1024) :
    headBlock .heapless tag rest = headBlock .alloc tag rest := by
  unfold headBlock
  split
  · rfl
  split
  · rfl
  cases lengthField rest with
  | error error => rfl
  | ok length =>
    obtain ⟨len, consumed⟩ := length
    change (takeExactly len (rest.drop consumed) >>= _) =
      (takeExactly len (rest.drop consumed) >>= _)
    cases taken : takeExactly len (rest.drop consumed) with
    | error error => rfl
    | ok value =>
      have inside : value.length ≤ 1024 := by
        unfold takeExactly at taken
        split at taken
        · cases taken
        · obtain rfl := Except.ok.inj taken
          rw [List.length_take, List.length_drop]
          omega
      simp only [bind, Except.bind, blockOfValue_heapless tag inside]

/-- Recording one block among at most four. -/
theorem pushTlv_heapless (out : List Tlv) (tlv : Tlv) :
    pushTlv .heapless out tlv =
      if out.length + 1 ≤ 4 then .ok (out ++ [tlv]) else .error .bufferFull := by
  simp [pushTlv, tryPush, fits, Build.heapless]

/-- An area is never refused for a full buffer. -/
theorem checkArea_notFull (start size : Nat) :
    checkAreaInAddressSpace start size ≠ .error .bufferFull := by
  unfold checkAreaInAddressSpace
  split
  · simp
  · split <;> simp

/-- Neither is a Lock Control value. -/
theorem lockControl_notFull (bytes : Vector UInt8 3) :
    LockControlValue.fromBytes bytes ≠ .error .bufferFull := by
  intro full
  unfold LockControlValue.fromBytes at full
  dsimp only at full
  split at full
  · cases full
  · rcases error_of_bind full with checked | ⟨_, _, returned⟩
    · exact checkArea_notFull _ _ checked
    · cases returned

/-- Nor a Memory Control value. -/
theorem memoryControl_notFull (bytes : Vector UInt8 3) :
    MemoryControlValue.fromBytes bytes ≠ .error .bufferFull := by
  intro full
  unfold MemoryControlValue.fromBytes at full
  dsimp only at full
  split at full
  · cases full
  · rcases error_of_bind full with checked | ⟨_, _, returned⟩
    · exact checkArea_notFull _ _ checked
    · cases returned

/-- A control block's value is malformed if it is refused. -/
theorem controlValue_notFull {α : Type} {fromBytes : Vector UInt8 3 → Except Type2Error α}
    (never : ∀ bytes, fromBytes bytes ≠ .error .bufferFull) (value : List UInt8) :
    controlValue fromBytes value ≠ .error .bufferFull := by
  unfold controlValue
  split
  · exact never _
  · simp

/-- Nor a length field. -/
theorem lengthField_notFull (data : List UInt8) : lengthField data ≠ .error .bufferFull := by
  unfold lengthField
  split
  · simp
  · split
    · simp
    · split <;> simp

/-- What growable buffers refuse is malformed. -/
theorem headBlock_notFull (tag : UInt8) (rest : List UInt8) :
    headBlock .alloc tag rest ≠ .error .bufferFull := by
  intro full
  unfold headBlock at full
  split at full
  · cases full
  split at full
  · cases full
  rcases error_of_bind full with length | ⟨⟨len, consumed⟩, -, full⟩
  · exact lengthField_notFull rest length
  rcases error_of_bind full with taken | ⟨value, -, full⟩
  · unfold takeExactly at taken
    split at taken <;> cases taken
  rcases error_of_bind full with block | ⟨_, _, full⟩
  · unfold blockOfValue at block
    split at block
    · rcases error_of_bind block with control | ⟨_, _, returned⟩
      · exact controlValue_notFull lockControl_notFull value control
      · cases returned
    split at block
    · rcases error_of_bind block with control | ⟨_, _, returned⟩
      · exact controlValue_notFull memoryControl_notFull value control
      · cases returned
    split at block
    · cases block
    split at block <;> cases block
  · cases full

/-- Data on which the default build's parser runs out of room has more blocks than it
can hold, all of them whole.

Induction on the bytes that remain. -/
theorem decodeInto_full {data : List UInt8} {out : List Tlv} (short : data.length ≤ 1024)
    (full : decodeInto .heapless data out = .error .bufferFull) :
    ∃ body front rest, data = body ++ rest ∧ TlvBlocks body front ∧
      (4 < out.length + front.length ∨
        rest.head? = some TLV_TERMINATOR ∧ 4 < out.length + front.length + 1) := by
  fun_induction decodeInto .heapless data out with
  | case1 out => cases full
  | case2 out tag rest skips collects =>
    rw [List.length_cons] at short
    rw [headBlock_heapless tag (by omega)] at full
    cases headed : headBlock .alloc tag rest with
    | error error =>
      rw [headed] at full
      obtain rfl := Except.error.inj full
      exact absurd headed (headBlock_notFull tag rest)
    | ok cut =>
      obtain ⟨found, size⟩ := cut
      rw [headed] at full
      obtain ⟨inside, ⟨rfl, rfl⟩ | ⟨continues, block⟩⟩ := headBlock_ok headed
      · change pushTlv .heapless out .terminator = _ at full
        rw [pushTlv_heapless] at full
        split at full
        · cases full
        · refine ⟨[], [], TLV_TERMINATOR :: rest, rfl, .nil, Or.inr ⟨rfl, ?_⟩⟩
          rw [List.length_nil]
          omega
      · have shape : tag :: rest = tag :: rest.take size ++ rest.drop size := by simp
        have onward : ∃ body front behind, rest.drop size = body ++ behind ∧ TlvBlocks body front ∧
            (4 < out.length + found.toList.length + front.length ∨
              behind.head? = some TLV_TERMINATOR ∧
                4 < out.length + found.toList.length + front.length + 1) := by
          cases found with
          | none => exact skips size (by rw [List.length_drop]; omega) full
          | some tlv =>
            have pushes : (pushTlv .heapless out tlv >>= fun out =>
                decodeInto .heapless (rest.drop size) out) = .error .bufferFull := by
              cases tlv with
              | terminator => exact absurd rfl continues
              | null | lockControl _ | memoryControl _ | ndefMessage _ | proprietary _ => exact full
            rw [pushTlv_heapless] at pushes
            split at pushes
            · next room =>
              have further := collects size (out ++ [tlv]) (by rw [List.length_drop]; omega) pushes
              simpa using further
            · refine ⟨[], [], rest.drop size, rfl, .nil, Or.inl ?_⟩
              simp only [Option.toList_some, List.length_singleton, List.length_nil]
              omega
        obtain ⟨body, front, behind, same, whole, more⟩ := onward
        refine ⟨tag :: rest.take size ++ body, found.toList ++ front, behind, ?_,
          .cons block whole, ?_⟩
        · rw [shape, same, List.append_assoc]
        · rw [List.length_append, ← Nat.add_assoc]
          exact more

/-- The default build's parser records a whole block, if there is room, and goes on behind it. -/
theorem TlvBlock.decoded_heapless {block : List UInt8} {found : Option Tlv}
    (whole : TlvBlock block found) {rest : List UInt8} (short : (block ++ rest).length ≤ 1024)
    (out : List Tlv) :
    decodeInto .heapless (block ++ rest) out =
      if out.length + found.toList.length ≤ 4 ∨ found = none then
        decodeInto .heapless rest (out ++ found.toList)
      else .error .bufferFull := by
  obtain ⟨tag, tail, rfl⟩ := whole.tagged
  have headed := whole.headed rest
  rw [List.cons_append, List.length_cons] at short
  rw [← headBlock_heapless tag (by omega)] at headed
  rw [List.cons_append, decodeInto_cons headed, List.drop_left]
  cases found with
  | none => simp [decodeBehind]
  | some tlv =>
    rw [decodeBehind_some (whole.continues tlv rfl), pushTlv_heapless]
    by_cases room : out.length + 1 ≤ 4
    · rw [if_pos room]
      exact (if_pos (Or.inl room)).symm
    · rw [if_neg room]
      exact (if_neg (by simpa using room)).symm

/-- The default build's parser records whole blocks as long as there is room.

Induction on the blocks. -/
theorem TlvBlocks.decoded_heapless {body : List UInt8} {front : List Tlv}
    (whole : TlvBlocks body front) {rest : List UInt8} (short : (body ++ rest).length ≤ 1024)
    {out : List Tlv} (room : out.length ≤ 4) :
    decodeInto .heapless (body ++ rest) out =
      if out.length + front.length ≤ 4 then decodeInto .heapless rest (out ++ front)
      else .error .bufferFull := by
  induction whole generalizing out with
  | nil => simp [room]
  | cons first onward inductionHypothesis =>
    rename_i block others found tlvs
    rw [List.append_assoc] at short ⊢
    have left : (others ++ rest).length ≤ 1024 := by
      rw [List.length_append] at short
      omega
    rw [first.decoded_heapless short]
    by_cases fit : out.length + found.toList.length ≤ 4
    · rw [if_pos (Or.inl fit), inductionHypothesis left (by simpa using fit), List.append_assoc,
        List.length_append, List.length_append, Nat.add_assoc]
    · have more : ¬ out.length + (found.toList ++ tlvs).length ≤ 4 := by
        rw [List.length_append]
        omega
      have recorded : found ≠ none := by
        rintro rfl
        exact fit room
      rw [if_neg (by simp [fit, recorded]), if_neg more]

/-- On data within a buffer, the default build's parser runs out of room exactly when
there are more blocks than it can hold. -/
theorem parse_full_iff {data : List UInt8} (short : data.length ≤ 1024) :
    parseTlvs .heapless data = .error .bufferFull ↔ ¬ FewBlocks data := by
  rw [parseTlvs, parseTlvsInto_eq, List.drop_zero]
  constructor
  · intro full few
    obtain ⟨body, front, rest, shape, whole, more⟩ := decodeInto_full short full
    obtain ⟨atMost, beforeTerminator⟩ := few body front rest shape whole
    rw [List.length_nil] at more
    rcases more with more | ⟨terminated, more⟩
    · omega
    · have := beforeTerminator terminated
      omega
  · intro many
    unfold FewBlocks at many
    push Not at many
    obtain ⟨body, front, rest, rfl, whole, more⟩ := many
    rw [whole.decoded_heapless short (by simp), List.length_nil, Nat.zero_add, List.nil_append]
    by_cases fit : front.length ≤ 4
    · obtain ⟨terminated, four⟩ := more fit
      rw [if_pos fit]
      obtain ⟨behind, rfl⟩ : ∃ behind, rest = TLV_TERMINATOR :: behind := by
        cases rest with
        | nil => cases terminated
        | cons tag behind =>
          obtain rfl := Option.some.inj terminated
          exact ⟨behind, rfl⟩
      rw [decodeInto]
      change pushTlv .heapless front .terminator = _
      rw [pushTlv_heapless, if_neg (by omega)]
    · rw [if_neg fit]

/-- Of a stream the blocks are counted. -/
theorem TlvStream.fewBlocks_iff {data : List UInt8} {tlvs : List Tlv}
    (stream : TlvStream data tlvs) :
    FewBlocks data ↔ tlvs.length ≤ 4 := by
  constructor
  · intro few
    obtain ⟨body, front, whole, ⟨rfl, rfl⟩ | ⟨rest, rfl, rfl⟩⟩ := stream
    · exact (few data tlvs [] (List.append_nil data).symm whole).1
    · have beforeTerminator := (few body front _ rfl whole).2 rfl
      rw [List.length_append, List.length_singleton]
      omega
  · rintro count body front rest rfl whole
    have parsed := stream.parse
    rw [parseTlvs, parseTlvsInto_eq, List.drop_zero, whole.decoded, List.nil_append] at parsed
    refine ⟨?_, fun terminated => ?_⟩
    · obtain ⟨others, back, -, ⟨-, rfl⟩ | ⟨_, -, rfl⟩⟩ := decodeInto_sound parsed
      · rw [List.length_append] at count
        omega
      · rw [List.length_append, List.length_append] at count
        omega
    · obtain ⟨behind, rfl⟩ : ∃ behind, rest = TLV_TERMINATOR :: behind := by
        cases rest with
        | nil => cases terminated
        | cons tag behind =>
          obtain rfl := Option.some.inj terminated
          exact ⟨behind, rfl⟩
      rw [decodeInto] at parsed
      change Except.ok (front ++ [.terminator]) = Except.ok tlvs at parsed
      obtain rfl := Except.ok.inj parsed
      rw [List.length_append, List.length_singleton] at count
      omega

/-! ## The two passes -/

/-- One pass over a data area with enough usable bytes. -/
theorem pass_full_iff {layout : MemoryLayout} (memory : Memory)
    (enough : layout.dataAreaSize ≤ layout.usable.length) :
    (dataAreaOf .heapless layout memory >>= parseTlvs .heapless) = .error .bufferFull ↔
      ¬ Roomy (dataBytes layout memory) := by
  rw [dataAreaOf_heapless memory enough]
  unfold Roomy
  by_cases fit : (upToStop .tag (dataBytes layout memory)).length ≤ 1024
  · rw [if_pos fit, and_iff_right fit]
    exact parse_full_iff fit
  · rw [if_neg fit]
    exact iff_of_true rfl fun roomy => fit roomy.1

/-- Neither pass over a memory runs out of room. The second one is made if the first
shows control blocks, and skips their areas. -/
structure RoomyPasses (cc : CapabilityContainer) (memory : Memory) : Prop where
  first : Roomy (dataBytes (MemoryLayout.fromCcAndTlvs .alloc cc []) memory)
  second : ∀ tlvs, TlvStream (dataBytes (MemoryLayout.fromCcAndTlvs .alloc cc []) memory) tlvs →
    (cc.isDynamic && tlvs.any Tlv.isControl) = true →
    Roomy (dataBytes (MemoryLayout.fromCcAndTlvs .alloc cc tlvs) memory)

/-- What the passes over a memory end with is a full buffer exactly when one of them
runs out of room. -/
theorem passes_full_iff (cc : CapabilityContainer) (memory : Memory) :
    (dataAreaWithLayoutOf .heapless cc memory >>= parseTlvs .heapless) = .error .bufferFull ↔
      ¬ RoomyPasses cc memory := by
  have basic := fromCcAndTlvs_heapless cc (by decide : ([] : List Tlv).length ≤ 8)
  have enough : (MemoryLayout.fromCcAndTlvs .alloc cc []).dataAreaSize ≤
      (MemoryLayout.fromCcAndTlvs .alloc cc []).usable.length := by
    rw [fromCcAndTlvs_size]
    exact emptyStream.enough_usable cc (by simp)
  have firstPass := pass_full_iff memory enough
  by_cases roomy : Roomy (dataBytes (MemoryLayout.fromCcAndTlvs .alloc cc []) memory)
  · have read := dataAreaOf_heapless memory enough
    rw [if_pos roomy.1] at read
    rw [read] at firstPass
    change parseTlvs .heapless (upToStop .tag _) = _ ↔ _ at firstPass
    have streams : ∀ {tlvs},
        TlvStream (dataBytes (MemoryLayout.fromCcAndTlvs .alloc cc []) memory) tlvs →
        parseTlvs .heapless (upToStop .tag
          (dataBytes (MemoryLayout.fromCcAndTlvs .alloc cc []) memory)) = .ok tlvs := by
      intro tlvs stream
      rcases parseTlvs_curtailed .heapless _ with same | full
      · rw [same]
        exact (upToStop_stream.mpr stream).parse
      · exact absurd roomy (firstPass.mp full)
    unfold dataAreaWithLayoutOf
    rw [basic, read]
    change ((parseTlvs .heapless (upToStop .tag _) >>= _) >>= _) = _ ↔ _
    cases shown : parseTlvs .heapless (upToStop .tag
        (dataBytes (MemoryLayout.fromCcAndTlvs .alloc cc []) memory)) with
    | error error =>
      have malformed : error ≠ .bufferFull := by
        rintro rfl
        exact firstPass.mp shown roomy
      refine iff_of_false (fun full => malformed (Except.error.inj full)) (not_not.mpr ⟨roomy, ?_⟩)
      intro tlvs stream
      rw [streams stream] at shown
      cases shown
    | ok tlvs =>
      have stream := upToStop_stream.mp (parseTlvs_sound shown)
      change (if _ then _ else _) >>= _ = _ ↔ _
      by_cases again : (cc.isDynamic && tlvs.any Tlv.isControl) = true
      · have enough : (MemoryLayout.fromCcAndTlvs .alloc cc tlvs).dataAreaSize ≤
            (MemoryLayout.fromCcAndTlvs .alloc cc tlvs).usable.length := by
          rw [fromCcAndTlvs_size]
          exact stream.enough_usable cc ((dataBytes_length_le cc [] memory))
        rw [if_pos again, parsed_layout cc shown, pass_full_iff memory enough]
        refine not_congr ⟨fun last => ⟨roomy, fun others other _ => ?_⟩, fun passes =>
          passes.second tlvs stream again⟩
        rwa [other.unique stream]
      · rw [if_neg again]
        refine iff_of_false (fun full => ?_) (not_not.mpr ⟨roomy, fun others other control => ?_⟩)
        · exact firstPass.mp full roomy
        · rw [other.unique stream] at control
          exact absurd control again
  · have full := firstPass.mpr roomy
    refine iff_of_true ?_ fun passes => roomy passes.first
    unfold dataAreaWithLayoutOf
    rw [basic]
    rcases error_of_bind full with read | ⟨dataArea, read, listed⟩
    · rw [read]
      rfl
    · rw [read]
      change ((parseTlvs .heapless dataArea >>= _) >>= _) = _
      rw [listed]
      rfl

/-! ## Reading and writing again -/

/-- The old memory with an NDEF TLV and a Terminator on the usable bytes from an offset on. -/
def withNdef (layout : MemoryLayout) (offset : Nat) (ndefData : List UInt8)
    (memory : Memory) : Memory :=
  Overlay.place memory ((layout.usable.drop offset).zip
    (encodedValue TLV_NDEF_MESSAGE ndefData ++ [TLV_TERMINATOR]))

/-- That is what all planned pages make of a memory. -/
theorem WriteJob.Planned.planned_withNdef {job : WriteJob} {build : Build}
    {cc : CapabilityContainer}
    {tlvs : List Tlv} {ndefData : List UInt8} (plan : job.Planned build cc tlvs ndefData)
    (memory : Memory) : planned memory job.pages job.pages.length =
      withNdef job.layout job.ndefOffset ndefData memory := by
  have count : (encodedValue TLV_NDEF_MESSAGE ndefData ++ [TLV_TERMINATOR]).length =
      job.payload.length := by
    rw [plan.payload_length, List.length_append, length_encodedValue, List.length_singleton]
  have shown := plan.usable_after memory
  rw [← count] at shown
  exact plan.planned_place memory _ (by rw [count, plan.payload_zeroed]) shown

section

variable {σ ε : Type} {tag : FaultFreeTag σ ε} {m : Machine σ}

/-- Neither `read_ndef` nor `write_ndef` of an empty message reports a full buffer. -/
def ReadsBack (tag : FaultFreeTag σ ε) (m : Machine σ) : Prop :=
  outcome (readNdef .heapless tag.toTransceiver) m ≠ .error (.protocol .bufferFull) ∧
    outcome (writeNdef .heapless tag.toTransceiver []) m ≠ .error (.protocol .bufferFull)

/-- A read of a valid tag reports a full buffer exactly when its passes do. -/
theorem ndefOf_full_iff {cc : CapabilityContainer} {memory : Memory} (parsed : ccOf memory = .ok cc)
    (valid : cc.isValid = true) : ndefOf .heapless memory = .error .bufferFull ↔
      (dataAreaWithLayoutOf .heapless cc memory >>= parseTlvs .heapless) = .error .bufferFull := by
  have allowed : refusal (cc.isValid = false) (.invalidMagic 0) = .ok () := if_neg (by simp [valid])
  unfold ndefOf
  rw [parsed]
  change (refusal _ _ >>= _) = _ ↔ _
  rw [allowed]
  change (dataAreaWithLayoutOf .heapless cc memory >>= fun dataArea =>
    parseTlvs .heapless dataArea >>= fun tlvs => pure ((firstNdef tlvs).getD [])) = _ ↔ _
  rw [← bind_assoc]
  exact bind_error_iff fun tlvs returned => by cases returned

/-- A write of an empty message never runs out of room for its payload. -/
theorem planWrite_notFull (cc : CapabilityContainer) (tlvs : List Tlv) :
    planWrite .heapless cc tlvs [] ≠ .error .bufferFull := by
  intro full
  unfold planWrite at full
  split at full
  · cases full
  split at full
  · cases full
  dsimp only at full
  split at full
  · cases full
  split at full
  · cases full
  split at full
  · cases full
  · rcases error_of_bind full with built | ⟨_, _, planned⟩
    · revert built
      decide
    · cases planned

/-- A write of an empty message to a valid tag that grants access reports a full buffer
exactly when its passes do. -/
theorem jobOf_full_iff {cc : CapabilityContainer} {memory : Memory} (parsed : ccOf memory = .ok cc)
    (valid : cc.isValid = true) (granted : cc.writeAccess = .granted) :
    jobOf .heapless [] memory = .error .bufferFull ↔
      (dataAreaWithLayoutOf .heapless cc memory >>= parseTlvs .heapless) = .error .bufferFull := by
  have allowed : refusal (cc.isValid = false) (.invalidMagic 0) = .ok () := if_neg (by simp [valid])
  have writable : refusal (cc.writeAccess ≠ .granted) .readOnly = .ok () :=
    if_neg (not_not.mpr granted)
  unfold jobOf
  rw [parsed]
  change (refusal _ _ >>= _) = _ ↔ _
  rw [allowed]
  change (refusal _ _ >>= _) = _ ↔ _
  rw [writable]
  change (dataAreaWithLayoutOf .heapless cc memory >>= fun dataArea =>
    parseTlvs .heapless dataArea >>= fun tlvs => planWrite .heapless cc tlvs []) = _ ↔ _
  rw [← bind_assoc]
  exact bind_error_iff fun tlvs => planWrite_notFull cc tlvs

/-- Reading and writing again works exactly when neither pass runs out of room. -/
theorem readsBack_iff_roomy (coherent : Coherent .heapless tag.toTag m) {cc : CapabilityContainer}
    (parsed : ccOf (tag.memoryOf m) = .ok cc) (valid : cc.isValid = true)
    (granted : cc.writeAccess = .granted) :
    ReadsBack tag m ↔ RoomyPasses cc (tag.memoryOf m) := by
  have passes := passes_full_iff cc (tag.memoryOf m)
  have reads : outcome (readNdef .heapless tag.toTransceiver) m = .error (.protocol .bufferFull) ↔
      ndefOf .heapless (tag.memoryOf m) = .error .bufferFull := by
    rw [(readNdef_answers coherent).outcome_eq]
    cases ndefOf .heapless (tag.memoryOf m) with
    | ok message => simp [Except.mapError]
    | error error => simp [Except.mapError]
  have writes : outcome (writeNdef .heapless tag.toTransceiver []) m =
      .error (.protocol .bufferFull) ↔
      jobOf .heapless [] (tag.memoryOf m) = .error .bufferFull := by
    cases plans : jobOf .heapless [] (tag.memoryOf m) with
    | ok job =>
      obtain ⟨next, run, -⟩ := writeNdef_accepted coherent plans
      simp [outcome, run]
    | error refusal =>
      obtain ⟨next, run, -⟩ := writeNdef_refused coherent plans
      simp [outcome, run]
  unfold ReadsBack
  rw [Ne, Ne, reads, writes, ndefOf_full_iff parsed valid,
    jobOf_full_iff parsed valid granted, passes,
    not_not, and_self]

/-- On a plain tag after a write the passes have room exactly when the bytes up to the new
Terminator fit a buffer and no more than two blocks are ahead of the NDEF TLV. -/
theorem Holds.roomy_iff {cc : CapabilityContainer} {ahead : List UInt8} {front : List Tlv}
    {memory : Memory} {message ndefData : List UInt8} {job : WriteJob}
    (holds : Holds cc ahead front memory message) (plans : jobOf .alloc ndefData memory = .ok job) :
    RoomyPasses cc (NfcForumTags.planned memory job.pages job.pages.length) ↔
      ahead.length + (1 + lFieldSize ndefData.length + ndefData.length + 1) ≤ 1024 ∧
        front.length ≤ 2 := by
  obtain ⟨tail, shape⟩ := holds.rawBytes_written plans
  obtain ⟨tlvs, plan, -, -⟩ := holds.planned plans
  obtain ⟨behind, written, clear⟩ := (holds.written plans).shows
  have whole := holds.blocks.append (TlvBlock.encodedNdef plan.encodable).single
  have stops : upToStop .tag
      (rawBytes cc (NfcForumTags.planned memory job.pages job.pages.length)) =
      ahead ++ encodedValue TLV_NDEF_MESSAGE ndefData ++ [TLV_TERMINATOR] := by
    rw [shape, whole.scanned]
    rfl
  have stream : TlvStream (ahead ++ encodedValue TLV_NDEF_MESSAGE ndefData ++ [TLV_TERMINATOR])
      (front ++ [.ndefMessage ndefData] ++ [.terminator]) :=
    ⟨_, _, whole, Or.inr ⟨[], rfl, rfl⟩⟩
  have roomy : Roomy (rawBytes cc (NfcForumTags.planned memory job.pages job.pages.length)) ↔
      ahead.length + (1 + lFieldSize ndefData.length + ndefData.length + 1) ≤ 1024 ∧
        front.length ≤ 2 := by
    unfold Roomy
    rw [stops, stream.fewBlocks_iff]
    simp only [List.length_append, length_encodedValue, List.length_singleton]
    omega
  rw [← roomy]
  constructor
  · intro passes
    have first := passes.first
    rwa [(basic_clear cc).dataBytes] at first
  · intro enough
    refine ⟨by rwa [(basic_clear cc).dataBytes], fun others shown _ => ?_⟩
    rw [(basic_clear cc).dataBytes] at shown
    rw [shown.unique written, clear.dataBytes]
    exact enough

/-- A reader is coherent with a tag in either build. -/
theorem Coherent.alloc (coherent : Coherent .heapless tag.toTag m) : Coherent .alloc tag.toTag m :=
  ⟨coherent.tracks, coherent.cached, fun never => by cases never⟩

/-- What the default build has written, the other one would have written. -/
theorem written_alloc (coherent : Coherent .heapless tag.toTag m) {ndefData : List UInt8}
    {next : Machine σ} (run : writeNdef .heapless tag.toTransceiver ndefData m = .ok () next) :
    ∃ job, jobOf .alloc ndefData (tag.memoryOf m) = .ok job ∧
      tag.memoryOf next = planned (tag.memoryOf m) job.pages job.pages.length := by
  have same : writeNdef .alloc tag.toTransceiver ndefData m = .ok () next := by
    rcases writeNdef_agrees tag.toTransceiver ndefData m with same | ⟨_, _, refused, -⟩
    · exact same.symm.trans run
    · cases run.symm.trans refused
  cases plans : jobOf .alloc ndefData (tag.memoryOf m) with
  | error refusal =>
    obtain ⟨_, refused, -⟩ := writeNdef_refused coherent.alloc plans
    rw [same] at refused
    cases refused
  | ok job =>
    obtain ⟨_, accepted, -, memory⟩ := writeNdef_accepted coherent.alloc plans
    rw [same] at accepted
    obtain ⟨-, rfl⟩ := EStateM.Result.ok.inj accepted
    exact ⟨job, rfl, memory⟩

/-- In the default build, on a tag that answers everything, wherever a reader was left by
a run of calls with any faults on the way, let `write_ndef` return. It has read these
blocks, among them an NDEF Message TLV at this offset, and `read_ndef` and `write_ndef` of
an empty message do not report a full buffer then exactly when the data area with the new
NDEF TLV at this offset has room in both passes. On a tag without areas in its data area
and with blocks of known tags in the length form of their lengths ahead of the NDEF TLV,
that is when the bytes up to the new Terminator are at most 1024 and at most two blocks
are ahead of the NDEF TLV.

Proof: an accepted write leaves the old memory with the new block and its Terminator placed
over the usable bytes from the offset on. On that memory both passes are functions of it,
and a buffer is full only by the bytes read up to the stop and by the blocks listed from
them. On a plain tag both counts are those of the blocks ahead of the NDEF TLV and of its
own bytes. -/
theorem readsBack_iff (past : Tag σ ε) (tag : FaultFreeTag σ ε) (same : SameTag past tag.toTag)
    (state : σ) (start : past.active state = 0) (calls : List Call) (ndefData : List UInt8) :
    let m := runCalls .heapless past.toTransceiver calls (.fresh state)
    let memory := tag.memoryOf m
    let next := stateAfter (writeNdef .heapless tag.toTransceiver ndefData) m
    outcome (writeNdef .heapless tag.toTransceiver ndefData) m = .ok () →
    ∃ cc tlvs offset, ccOf memory = .ok cc ∧
      (dataAreaWithLayoutOf .heapless cc memory >>= parseTlvs .heapless) = .ok tlvs ∧
      ndefTlvOffset tlvs 0 = some offset ∧
      (ReadsBack tag next ↔ RoomyPasses cc
        (withNdef (MemoryLayout.fromCcAndTlvs .heapless cc tlvs) offset ndefData memory)) ∧
      ∀ data, PlainTag cc data tlvs memory → (ReadsBack tag next ↔
        offset + (1 + lFieldSize ndefData.length + ndefData.length + 1) ≤ 1024 ∧
          (tlvs.takeWhile fun tlv => !tlv.isNdef).length ≤ 2) := by
  intro m memory next accepted
  have coherent : Coherent .heapless tag.toTag m :=
    same.coherent (coherent_run .heapless past calls state start)
  obtain ⟨job, plans⟩ := (writeNdef_outcome_iff coherent ndefData).mp accepted
  obtain ⟨written, run, after, left⟩ := writeNdef_accepted coherent plans
  have stays : next = written := by
    change stateAfter _ _ = _
    rw [stateAfter, run]
  obtain ⟨cc, dataArea, tlvs, parsed, valid, granted, read, listed, planning⟩ := jobOf_ok plans
  have plan := planWrite_ok planning
  have reparsed : ccOf (tag.memoryOf written) = .ok cc := by
    rw [left, ccOf_planned plan]
    exact parsed
  have back := readsBack_iff_roomy after reparsed valid granted
  refine ⟨cc, tlvs, job.ndefOffset, parsed, by rw [read]; exact listed, plan.offset, ?_, ?_⟩
  · rw [stays, back, left, plan.planned_withNdef, plan.layout]
  · intro data plain
    obtain ⟨ahead, front, message, holds⟩ := plain.holds
    obtain ⟨behind, stream, -⟩ := holds.shows
    have shape := plain.stream.2.unique stream
    obtain ⟨other, planned, memoryAfter⟩ := written_alloc coherent run
    have offset := plan.offset
    rw [shape, ndefTlvOffset_passed holds.passed, Nat.zero_add, holds.walked] at offset
    have count : (tlvs.takeWhile fun tlv => !tlv.isNdef).length = front.length := by
      rw [shape, List.takeWhile_append_of_pos
        fun tlv member => by simp [(holds.passed tlv member).2]]
      simp [Tlv.isNdef]
    rw [stays, back, memoryAfter, holds.roomy_iff planned, count, ← Option.some.inj offset]

/-- A static tag with three NULL TLVs ahead of an NDEF TLV that fills its data area. -/
def filledState : FlatState where
  memory := fun addr =>
    (0xE1 :: 0x10 :: 0x06 :: 0x00 :: 0x00 :: 0x00 :: 0x00 :: 0x03 :: 0x2B ::
      List.replicate 43 0xD0).getD (addr - 12) (0 : UInt8)
  active := 0

/-- The machine after a message of one byte was written to that tag. -/
def filledNext : Machine FlatState :=
  stateAfter (writeNdef .heapless flatTag.toTransceiver [0x44]) (.fresh filledState)

/-- A shorter message makes room for a Terminator, the fifth block, so the tag can neither
be read nor written any more. -/
theorem readsBack_terminated :
    outcome (writeNdef .heapless flatTag.toTransceiver [0x44]) (.fresh filledState) = .ok () ∧
    outcome (readNdef .heapless flatTag.toTransceiver) filledNext = .error (.protocol .bufferFull) ∧
    outcome (writeNdef .heapless flatTag.toTransceiver []) filledNext =
      .error (.protocol .bufferFull) := by
  decide +kernel

/-- With nothing ahead of the NDEF TLV a message of two bytes is read back. -/
theorem readsBack_oneByte :
    outcome (writeNdef .heapless flatTag.toTransceiver [0x11, 0x22]) (.fresh oneByteState) =
      .ok () ∧
    ReadsBack flatTag
      (stateAfter (writeNdef .heapless flatTag.toTransceiver [0x11, 0x22])
        (.fresh oneByteState)) := by
  have accepted : outcome (writeNdef .heapless flatTag.toTransceiver [0x11, 0x22])
      (.fresh oneByteState) =
      .ok () := by decide +kernel
  obtain ⟨cc, tlvs, offset, parsed, listed, found, -, plain⟩ :=
    readsBack_iff flatTag.toTag flatTag ⟨rfl, rfl, rfl⟩ oneByteState rfl [] [0x11, 0x22] accepted
  obtain rfl : staticCc = cc := Except.ok.inj (oneByteState_plain.parsed.symm.trans parsed)
  obtain rfl : [.ndefMessage [0xD0], .terminator] = tlvs :=
    Except.ok.inj (Eq.trans (by decide +kernel) listed)
  obtain rfl : 0 = offset := Option.some.inj found
  exact ⟨accepted, (plain _ oneByteState_plain).mpr (by decide)⟩

end

end NfcForumTags
