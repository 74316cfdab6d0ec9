import NfcForumTags.DataStream
import NfcForumTags.RejectedWrite
import NfcForumTags.Library.Curtailment

/-!
# The two builds

The default build does what the `alloc` build does until a buffer of its own is full,
and then returns `BufferFull`. Every bounded push surfaces that way but the one of a
layout's areas, and there are never as many areas as blocks that `parse_tlvs` may
collect. All buffers are filled before the first WRITE.
-/
namespace NfcForumTags

open Program

/-! ## Buffers -/

/-- A push ends as one without a bound, or reports a full buffer. -/
theorem tryPush_curtailed {α : Type} (capacity : Option Nat) (vec : List α) (val : α) :
    Curtailed .bufferFull (tryPush capacity vec val) (tryPush none vec val) := by
  unfold tryPush
  split
  · exact Or.inl rfl
  · exact Or.inr rfl

/-- An extension of a bounded buffer is that of an unbounded one, or finds it full. -/
theorem tryExtend_curtailed {α : Type} (capacity : Option Nat) (vec slice : List α) :
    Curtailed .bufferFull (tryExtend capacity vec slice) (tryExtend none vec slice) := by
  unfold tryExtend
  split
  · exact Or.inl rfl
  · exact Or.inr rfl

/-! ## Parsing -/

variable (build : Build)

/-- The block of a value is the same, unless its bytes do not fit. -/
theorem blockOfValue_curtailed (tag : UInt8) (value : List UInt8) :
    Curtailed .bufferFull (blockOfValue build tag value) (blockOfValue .alloc tag value) := by
  unfold blockOfValue
  split
  · exact Curtailed.refl _
  split
  · exact Curtailed.refl _
  split
  · exact (tryExtend_curtailed _ _ _).bind fun _ _ => Curtailed.refl _
  split
  · exact (tryExtend_curtailed _ _ _).bind fun _ _ => Curtailed.refl _
  · exact Curtailed.refl _

/-- So is the block at the head of the data. -/
theorem headBlock_curtailed (tag : UInt8) (rest : List UInt8) :
    Curtailed .bufferFull (headBlock build tag rest) (headBlock .alloc tag rest) := by
  unfold headBlock
  split
  · exact Curtailed.refl _
  split
  · exact Curtailed.refl _
  · refine (Curtailed.refl _).bind fun length _ => ?_
    refine (Curtailed.refl _).bind fun value _ => ?_
    exact (blockOfValue_curtailed build tag value).bind fun _ _ => Curtailed.refl _

/-- Both builds decode the same blocks, unless the list is full.

Induction on the bytes that remain. -/
theorem decodeInto_curtailed (data : List UInt8) (out : List Tlv) :
    Curtailed .bufferFull (decodeInto build data out) (decodeInto .alloc data out) := by
  fun_induction decodeInto .alloc data out with
  | case1 out =>
    unfold decodeInto
    exact Curtailed.refl _
  | case2 out tag rest skips collects =>
    rw [decodeInto]
    refine (headBlock_curtailed build tag rest).bind fun block _ => ?_
    obtain ⟨found, size⟩ := block
    cases found with
    | none => exact skips size
    | some tlv =>
      have onward : Curtailed .bufferFull
          (do let out ← pushTlv build out tlv; decodeInto build (rest.drop size) out)
          (do let out ← pushTlv .alloc out tlv; decodeInto .alloc (rest.drop size) out) :=
        (tryPush_curtailed _ _ _).bind fun out _ => collects size out
      cases tlv with
      | terminator => exact tryPush_curtailed _ _ _
      | null | lockControl _ | memoryControl _ | ndefMessage _ | proprietary _ => exact onward

/-- The parser ends as the unbounded one, or reports a full buffer. -/
theorem parseTlvs_curtailed (data : List UInt8) :
    Curtailed .bufferFull (parseTlvs build data) (parseTlvs .alloc data) := by
  rw [parseTlvs, parseTlvs, parseTlvsInto_eq, parseTlvsInto_eq]
  exact decodeInto_curtailed build _ _

/-- The blocks collected fit.

Induction on the bytes that remain. -/
theorem decodeInto_fits {data : List UInt8} {out tlvs : List Tlv}
    (enough : fits build.tlvCapacity out.length = true)
    (decoded : decodeInto build data out = .ok tlvs) :
    fits build.tlvCapacity tlvs.length = true := by
  fun_induction decodeInto build data out with
  | case1 out =>
    obtain rfl := Except.ok.inj decoded
    exact enough
  | case2 out tag rest skips collects =>
    obtain ⟨⟨found, size⟩, -, decoded⟩ := ok_of_bind decoded
    cases found with
    | none => exact skips size enough decoded
    | some tlv =>
      cases tlv with
      | terminator => exact tryPush_fits decoded
      | null | lockControl _ | memoryControl _ | ndefMessage _ | proprietary _ =>
        obtain ⟨more, pushed, decoded⟩ := ok_of_bind decoded
        exact collects size more (tryPush_fits pushed) decoded

/-- What a bounded build parses fits its list of blocks. -/
theorem parseTlvs_fits {data : List UInt8} {tlvs : List Tlv}
    (parsed : parseTlvs build data = .ok tlvs) :
    fits build.tlvCapacity tlvs.length = true := by
  rw [parseTlvs, parseTlvsInto_eq] at parsed
  refine decodeInto_fits build ?_ parsed
  cases build.tlvCapacity with
  | none => rfl
  | some limit => simp [fits]

/-! ## Layouts -/

/-- The layout of at most eight blocks has all of their areas. -/
theorem fromCcAndTlvs_heapless (cc : CapabilityContainer) {tlvs : List Tlv}
    (few : tlvs.length ≤ 8) :
    MemoryLayout.fromCcAndTlvs .heapless cc tlvs = MemoryLayout.fromCcAndTlvs .alloc cc tlvs := by
  have fit : ∀ {α : Type} (areas : List α), areas.length ≤ tlvs.length →
      held Build.heapless.areaCapacity areas = areas :=
    fun areas listed => held_of_fits (decide_eq_true (listed.trans few))
  have locks : held Build.heapless.areaCapacity (lockAreasOf tlvs) = _ :=
    fit _ (by rw [lockAreasOf, List.length_map]; exact List.length_filterMap_le _ _)
  have reserved : held Build.heapless.areaCapacity (reservedAreasOf tlvs) = _ :=
    fit _ (by rw [reservedAreasOf, List.length_map]; exact List.length_filterMap_le _ _)
  have room : fits Build.heapless.areaCapacity 1 = true := rfl
  rw [MemoryLayout.fromCcAndTlvs_held room, MemoryLayout.fromCcAndTlvs_alloc, locks, reserved]

/-- A layout made of what the default build has parsed has lost no area. -/
theorem parsed_layout (cc : CapabilityContainer) {data : List UInt8} {tlvs : List Tlv}
    (parsed : parseTlvs .heapless data = .ok tlvs) :
    MemoryLayout.fromCcAndTlvs .heapless cc tlvs = MemoryLayout.fromCcAndTlvs .alloc cc tlvs := by
  have few := parseTlvs_fits .heapless parsed
  simp only [fits, Build.heapless, decide_eq_true_eq] at few
  exact fromCcAndTlvs_heapless cc (by omega)

/-! ## The plan of a write -/

/-- A payload is the same in both builds, unless the buffer is too small for it. -/
theorem buildPayload_curtailed (ndefData : List UInt8) :
    Curtailed .bufferFull (buildPayload build ndefData) (buildPayload .alloc ndefData) := by
  unfold buildPayload
  refine (tryPush_curtailed _ _ _).bind fun payload _ => ?_
  refine Curtailed.bind ?_ fun payload _ => ?_
  · split
    · exact tryPush_curtailed _ _ _
    · refine (tryPush_curtailed _ _ _).bind fun payload _ => ?_
      exact (tryPush_curtailed _ _ _).bind fun payload _ => tryPush_curtailed _ _ _
  · exact (tryExtend_curtailed _ _ _).bind fun payload _ => tryPush_curtailed _ _ _

/-- With the same layout the plan is the same, or its payload does not fit. -/
theorem planWrite_curtailed (cc : CapabilityContainer) {tlvs : List Tlv} (ndefData : List UInt8)
    (layout : MemoryLayout.fromCcAndTlvs build cc tlvs =
      MemoryLayout.fromCcAndTlvs .alloc cc tlvs) :
    Curtailed .bufferFull (planWrite build cc tlvs ndefData)
      (planWrite .alloc cc tlvs ndefData) := by
  unfold planWrite
  rw [layout]
  split
  · exact Curtailed.refl _
  split
  · exact Curtailed.refl _
  dsimp only
  split
  · exact Curtailed.refl _
  split
  · exact Curtailed.refl _
  split
  · exact Curtailed.refl _
  · exact (buildPayload_curtailed build ndefData).bind fun payload _ => Curtailed.refl _

/-! ## Reading -/

section

variable {σ ε : Type} {t : Transceiver σ ε}

/-- A step on results, in a program. -/
theorem orProtocol_curtailed {α : Type} {short full : Except Type2Error α}
    (curtailed : Curtailed .bufferFull short full) (m : Machine σ) :
    CurtailedRun Machine.trace (.protocol .bufferFull) (orProtocol short : Operation σ ε α)
      (orProtocol full) m := by
  rcases curtailed with rfl | refused
  · exact CurtailedRun.refl _ _
  · refine Or.inr ⟨m, by rw [refused]; rfl, ?_⟩
    cases full with
    | ok value => exact List.prefix_refl _
    | error error => exact List.prefix_refl _

/-- A log that is kept on from a machine's own trace extends it. -/
theorem Logged.extended {m next : Machine σ} (logged : Logged m.trace (fun _ => True) next) :
    m.trace <+: next.trace := by
  obtain ⟨recent, trace, -⟩ := logged
  exact ⟨recent, trace.symm⟩

/-- The round of a block is the same in both builds up to a full buffer.

Proof: functional induction on the unbounded round; only its push of a byte can fail. -/
theorem processBlock_curtailed (layout : MemoryLayout) (byteAddr : Nat) (blockData : Vector UInt8 4)
    (i bytesRead : Nat) (scan : TlvScanState) (result : List UInt8) :
    Curtailed .bufferFull (processBlock build layout byteAddr blockData i bytesRead scan result)
      (processBlock .alloc layout byteAddr blockData i bytesRead scan result) := by
  fun_induction processBlock .alloc layout byteAddr blockData i bytesRead scan result with
  | case1 i bytesRead scan result inside skipped inductionHypothesis =>
    rw [processBlock, dif_pos inside, if_pos skipped]
    exact inductionHypothesis
  | case2 i bytesRead scan result inside usable enough =>
    rw [processBlock, dif_pos inside, if_neg usable, if_pos enough]
    exact Curtailed.refl _
  | case3 i bytesRead scan result inside usable room inductionHypothesis =>
    rw [processBlock, dif_pos inside, if_neg usable, if_neg room]
    refine (tryPush_curtailed _ _ _).bind fun result pushed => ?_
    cases fed : scan.feed blockData[i] with
    | none => exact Curtailed.refl _
    | some next => exact inductionHypothesis result next
  | case4 i bytesRead scan result outside =>
    rw [processBlock, dif_neg outside]
    exact Curtailed.refl _

variable (t) in
/-- Both builds keep the READ results. -/
theorem readCc_heapless : readCc .heapless t = readCc .alloc t := rfl

/-- READ of a block takes back no exchange. -/
theorem readBlock_logged {past : List (Exchange σ)} (block : UInt8) (m : Machine σ)
    (logged : Logged past (fun _ => True) m) :
    Ensures (readBlock .alloc t block) (fun _ next => Logged past (fun _ => True) next)
      (fun _ next => Logged past (fun _ => True) next) m := by
  have keeps := KeepsCalls.logged .alloc t past
  have readFresh : Ensures (do let data ← read .alloc t block; return firstBlock data)
      (fun _ next => Logged past (fun _ => True) next)
          (fun _ next => Logged past (fun _ => True) next) m := by
    exact (keeps.read_rule block m logged).bind (fun _ _ kept => kept) (fun _ _ kept => kept)
  unfold readBlock
  rw [ensures_bind, ensures_get]
  dsimp only
  split
  · split
    · exact logged
    · exact readFresh
  · exact readFresh

/-- Reading the data area takes back no exchange.

Induction on the walk over the blocks. -/
theorem readDataAreaFrom_logged {past : List (Exchange σ)} (layout : MemoryLayout)
    (byteAddr bytesRead : Nat) (scan : TlvScanState) (result : List UInt8) (m : Machine σ)
    (logged : Logged past (fun _ => True) m) :
    Ensures (readDataAreaFrom .alloc t layout byteAddr bytesRead scan result)
      (fun _ next => Logged past (fun _ => True) next)
      (fun _ next => Logged past (fun _ => True) next) m := by
  have select := (KeepsCalls.logged .alloc t past).select
  fun_induction readDataAreaFrom .alloc t layout byteAddr bytesRead scan result generalizing m with
  | case1 byteAddr bytesRead scan result more outside => exact logged
  | case2 byteAddr bytesRead scan result more sector block offset located inductionHypothesis =>
    rw [ensures_bind, ensures_serve]
    have served : Logged past (fun _ => True) { m with serving := some byteAddr } :=
      logged.congr rfl
    refine (switchSector_rule select sector _ served fun _ => served).bind (fun _ _ kept => kept) ?_
    rintro - switched ⟨switched_logged, -, -⟩
    refine (readBlock_logged block switched switched_logged).bind (fun _ _ kept => kept) ?_
    intro blockData next kept
    rw [ensures_bind, ensures_orProtocol]
    refine ⟨fun outcome _ => ?_, fun _ _ => kept⟩
    cases outcome with
    | stop result => exact kept
    | next bytesRead' scan' result' => exact inductionHypothesis bytesRead' scan' result' next kept
  | case3 byteAddr bytesRead scan result full => exact logged

/-- Both builds read the same bytes with the same exchanges, up to a full buffer.

Induction on the walk over the blocks. -/
theorem readDataAreaFrom_curtailed (layout : MemoryLayout) (byteAddr bytesRead : Nat)
    (scan : TlvScanState) (result : List UInt8) (m : Machine σ) :
    CurtailedRun Machine.trace (.protocol .bufferFull)
      (readDataAreaFrom .heapless t layout byteAddr bytesRead scan result)
      (readDataAreaFrom .alloc t layout byteAddr bytesRead scan result) m := by
  fun_induction readDataAreaFrom .alloc t layout byteAddr bytesRead scan result generalizing m with
  | case1 byteAddr bytesRead scan result more outside =>
    rw [readDataAreaFrom, if_pos more]
    split
    · exact CurtailedRun.refl _ m
    · next located =>
      rw [outside] at located
      cases located
  | case2 byteAddr bytesRead scan result more sector block offset located inductionHypothesis =>
    rw [readDataAreaFrom, if_pos more]
    split
    · next outside =>
      rw [located] at outside
      cases outside
    · next found =>
      obtain ⟨rfl, rfl, rfl⟩ : _ ∧ _ ∧ _ := by
        have same := located.symm.trans found
        simpa using same
      refine CurtailedRun.after fun _ served _ => ?_
      refine CurtailedRun.after fun _ switched _ => ?_
      refine CurtailedRun.after fun blockData next _ => ?_
      refine (orProtocol_curtailed (processBlock_curtailed .heapless layout byteAddr blockData 0
        bytesRead scan result) next).bind (fun outcome left _ => ?_) fun outcome left _ => ?_
      · cases outcome with
        | stop result => exact List.prefix_refl _
        | next bytesRead' scan' result' =>
          exact (readDataAreaFrom_logged layout _ _ scan' result' left
            (logged_start left)).always.extended
      · cases outcome with
        | stop result => exact CurtailedRun.refl _ _
        | next bytesRead' scan' result' => exact inductionHypothesis bytesRead' scan' result' left
  | case3 byteAddr bytesRead scan result full =>
    rw [readDataAreaFrom, if_neg full]
    exact CurtailedRun.refl _ m

/-- `read_data_area` of the default build, on the same layout. -/
theorem readDataArea_curtailed (layout : MemoryLayout) (m : Machine σ) :
    CurtailedRun Machine.trace (.protocol .bufferFull) (readDataArea .heapless t layout)
      (readDataArea .alloc t layout) m :=
  readDataAreaFrom_curtailed layout _ 0 .tag [] m

/-- What follows a data area read by both builds, once its blocks are parsed. -/
theorem parsed_curtailed {α : Type} {short full : List Tlv → Operation σ ε α}
    (dataArea : List UInt8)
    (m : Machine σ) (grows : ∀ tlvs, m.trace <+: (stateAfter (full tlvs) m).trace)
    (onward : ∀ tlvs, parseTlvs .heapless dataArea = .ok tlvs →
      CurtailedRun Machine.trace (.protocol .bufferFull) (short tlvs) (full tlvs) m) :
    CurtailedRun Machine.trace (.protocol .bufferFull)
      (do let tlvs ← orProtocol (parseTlvs .heapless dataArea); short tlvs)
      (do let tlvs ← orProtocol (parseTlvs .alloc dataArea); full tlvs) m := by
  refine (orProtocol_curtailed (parseTlvs_curtailed .heapless dataArea) m).bind
    (fun tlvs left run => ?_) fun tlvs left run => ?_
  · obtain ⟨-, rfl⟩ := orProtocol_ok run
    exact grows tlvs
  · obtain ⟨parsed, rfl⟩ := orProtocol_ok run
    exact onward tlvs parsed

/-- The two passes. The second one's layout is made of blocks this build has parsed. -/
theorem readDataAreaWithLayout_curtailed (cc : CapabilityContainer) (m : Machine σ) :
    CurtailedRun Machine.trace (.protocol .bufferFull) (readDataAreaWithLayout .heapless t cc)
      (readDataAreaWithLayout .alloc t cc) m := by
  unfold readDataAreaWithLayout
  rw [fromCcAndTlvs_heapless cc (by decide : ([] : List Tlv).length ≤ 8)]
  refine (readDataArea_curtailed _ m).bind (fun dataArea next _ => ?_) fun dataArea next _ => ?_
  · refine Logged.extended (Ensures.always ?_)
    rw [ensures_bind, ensures_orProtocol]
    refine ⟨fun tlvs _ => ?_, fun _ _ => logged_start next⟩
    split
    · exact readDataAreaFrom_logged _ _ 0 .tag [] next (logged_start next)
    · exact logged_start next
  · refine parsed_curtailed dataArea next (fun tlvs => ?_) fun tlvs parsed => ?_
    · split
      · exact Logged.extended (readDataAreaFrom_logged _ _ 0 .tag []
          next (logged_start next)).always
      · exact List.prefix_refl _
    · rw [parsed_layout cc parsed]
      split
      · exact readDataArea_curtailed _ next
      · exact CurtailedRun.refl _ next

/-- `read_ndef` of the default build. -/
theorem readNdef_curtailed (m : Machine σ) :
    CurtailedRun Machine.trace (.protocol .bufferFull) (readNdef .heapless t)
      (readNdef .alloc t) m := by
  unfold readNdef
  rw [readCc_heapless]
  refine CurtailedRun.after fun cc first _ => ?_
  refine CurtailedRun.after fun _ checked _ => ?_
  refine (readDataAreaWithLayout_curtailed cc checked).bind (fun dataArea next _ => ?_)
    fun dataArea next _ => ?_
  · refine Logged.extended (Ensures.always ?_)
    rw [ensures_bind, ensures_orProtocol]
    exact ⟨fun _ _ => logged_start next, fun _ _ => logged_start next⟩
  · exact parsed_curtailed dataArea next (fun _ => List.prefix_refl _) fun _ _ =>
      CurtailedRun.refl _ next

/-- `write_ndef` of the default build, up to the first WRITE. -/
theorem prepareWrite_curtailed (ndefData : List UInt8) (m : Machine σ) :
    CurtailedRun Machine.trace (.protocol .bufferFull) (prepareWrite .heapless t ndefData)
      (prepareWrite .alloc t ndefData) m := by
  unfold prepareWrite
  rw [readCc_heapless]
  refine CurtailedRun.after fun cc first _ => ?_
  refine CurtailedRun.after fun _ valid _ => ?_
  refine CurtailedRun.after fun _ granted _ => ?_
  refine (readDataAreaWithLayout_curtailed cc granted).bind (fun dataArea next _ => ?_)
    fun dataArea next _ => ?_
  · refine Logged.extended (Ensures.always ?_)
    rw [ensures_bind, ensures_orProtocol]
    refine ⟨fun tlvs _ => ?_, fun _ _ => logged_start next⟩
    rw [ensures_orProtocol]
    exact ⟨fun _ _ => logged_start next, fun _ _ => logged_start next⟩
  · refine parsed_curtailed dataArea next (fun tlvs => ?_) fun tlvs parsed => ?_
    · refine Logged.extended (Ensures.always ?_)
      rw [ensures_orProtocol]
      exact ⟨fun _ _ => logged_start next, fun _ _ => logged_start next⟩
    · exact orProtocol_curtailed (planWrite_curtailed .heapless cc ndefData
        (parsed_layout cc parsed)) next

/-! ## Writing -/

variable (t) in
/-- Writing a page does not depend on the buffers. -/
theorem writePage_heapless (layout : MemoryLayout) (data : List UInt8) (limitAddr pageBase : Nat)
    (block offset : UInt8) (di : Nat) :
    writePage .heapless t layout data limitAddr pageBase block offset di =
      writePage .alloc t layout data limitAddr pageBase block offset di := rfl

variable (t) in
/-- The page loop is the same in both builds: it has no buffer to fill.

Induction on the walk over the pages. -/
theorem writeUsableBytesFrom_heapless (layout : MemoryLayout) (data : List UInt8)
    (limitAddr addr di : Nat) :
    writeUsableBytesFrom .heapless t layout data limitAddr addr di =
      writeUsableBytesFrom .alloc t layout data limitAddr addr di := by
  fun_induction writeUsableBytesFrom .alloc t layout data limitAddr addr di with
  | case1 addr di more limit =>
    rw [writeUsableBytesFrom, if_pos more, if_pos limit]
  | case2 addr di more limit outside =>
    rw [writeUsableBytesFrom, if_pos more, if_neg limit]
    split
    · rfl
    · next located =>
      rw [outside] at located
      cases located
  | case3 addr di more limit sector block offset located inductionHypothesis =>
    rw [writeUsableBytesFrom, if_pos more, if_neg limit]
    split
    · next outside =>
      rw [located] at outside
      cases outside
    · next found =>
      obtain ⟨rfl, rfl, rfl⟩ : _ ∧ _ ∧ _ := by
        have same := located.symm.trans found
        simpa using same
      simp only [writePage_heapless, inductionHypothesis]
  | case4 addr di done =>
    rw [writeUsableBytesFrom, if_neg done]

variable (t) in
/-- Both builds write a job the same way. -/
theorem commitWrite_heapless (job : WriteJob) : commitWrite .heapless t job =
    commitWrite .alloc t job := by
  unfold commitWrite writeUsableBytes
  simp only [writeUsableBytesFrom_heapless]

/-! ## Agreement -/

/-- The default build does what the `alloc` build does, result, reader and exchanges
alike, or reports a full buffer after some of the exchanges of the `alloc` build, none
of them a WRITE. -/
def BuildsAgree {α : Type} (program : Build → Operation σ ε α) (m : Machine σ) : Prop :=
  program .heapless m = program .alloc m ∨
    ∃ next recent, program .heapless m = .error (.protocol .bufferFull) next ∧
      next.trace = m.trace ++ recent ∧ writesOf recent = [] ∧
      next.trace <+: (stateAfter (program .alloc) m).trace

/-- A log without a WRITE. -/
theorem Logged.writesOf {m next : Machine σ} (logged : Logged m.trace Exchange.NoWrite next) :
    ∃ recent, next.trace = m.trace ++ recent ∧ NfcForumTags.writesOf recent = [] := by
  obtain ⟨recent, trace, each⟩ := logged
  refine ⟨recent, trace, List.filter_eq_nil_iff.mpr fun exchange member => ?_⟩
  rw [each exchange member]
  exact Bool.false_ne_true

/-- `read_ndef` runs alike in both builds, or ends with `BufferFull` and without a WRITE. -/
theorem readNdef_agrees (t : Transceiver σ ε) (m : Machine σ) : BuildsAgree (readNdef · t) m := by
  rcases readNdef_curtailed m with same | ⟨next, refused, before⟩
  · exact Or.inl same
  · have quiet := ((reads_noWrite .heapless t m.trace).readNdef_rule m (logged_start m)).kept
    obtain ⟨recent, trace, silent⟩ := (quiet.failed refused).writesOf
    exact Or.inr ⟨next, recent, refused, trace, silent, before⟩

/-- A plan made by the default build is the one of the `alloc` build, so the refusal, if
any, comes before the first WRITE. -/
theorem writeNdef_agrees (t : Transceiver σ ε) (ndefData : List UInt8) (m : Machine σ) :
    BuildsAgree (writeNdef · t ndefData) m := by
  have prepares : CurtailedRun Machine.trace (.protocol .bufferFull)
      (prepareWrite .heapless t ndefData)
      (prepareWrite .alloc t ndefData) m := prepareWrite_curtailed ndefData m
  have curtailed : CurtailedRun Machine.trace (.protocol .bufferFull)
      (writeNdef .heapless t ndefData)
      (writeNdef .alloc t ndefData) m := by
    refine prepares.bind (fun job next _ => ?_) fun job next _ => ?_
    · exact ((KeepsCalls.logged .alloc t next.trace).keeps.commitWrite_rule job next
        (logged_start next)).always.extended
    · rw [commitWrite_heapless]
      exact CurtailedRun.refl _ next
  rcases prepares with same | ⟨next, refused, -⟩
  · refine Or.inl ?_
    simp only [writeNdef, bind, EStateM.bind, same, commitWrite_heapless]
  · have ends : writeNdef .heapless t ndefData m = .error (.protocol .bufferFull) next :=
      run_bind_error refused
    have quiet := ((reads_noWrite .heapless t m.trace).prepareWrite_rule ndefData m
      (logged_start m)).kept
    obtain ⟨recent, trace, silent⟩ := (quiet.failed refused).writesOf
    rcases curtailed with same | ⟨left, refused', before⟩
    · exact Or.inl same
    · obtain ⟨-, rfl⟩ := EStateM.Result.error.inj (ends.symm.trans refused')
      exact Or.inr ⟨next, recent, ends, trace, silent, before⟩

/-- Over any transceiver, from any state of the reader and for any message, `read_ndef`
and `write_ndef` of the default build agree with those of the `alloc` build, and no area
is dropped from a layout made of no blocks or of the blocks the default build has parsed.

Proof: the bounded operations are curtailed runs of the unbounded ones: they agree up to a
full buffer, and a buffer can only be full ahead of the first WRITE. A list of parsed blocks
is too short for its areas to be dropped. -/
theorem builds_agree (t : Transceiver σ ε) (m : Machine σ) :
    BuildsAgree (readNdef · t) m ∧
    (∀ ndefData, BuildsAgree (writeNdef · t ndefData) m) ∧
    ∀ cc data, MemoryLayout.fromCcAndTlvs .heapless cc [] =
      MemoryLayout.fromCcAndTlvs .alloc cc [] ∧
      (parseTlvs .heapless data).map (MemoryLayout.fromCcAndTlvs .heapless cc) =
        (parseTlvs .heapless data).map (MemoryLayout.fromCcAndTlvs .alloc cc) := by
  refine ⟨readNdef_agrees t m, fun ndefData => writeNdef_agrees t ndefData m,
    fun cc data => ⟨?_, ?_⟩⟩
  · exact fromCcAndTlvs_heapless cc (by decide)
  · cases parsed : parseTlvs .heapless data with
    | error error => rfl
    | ok tlvs => exact congrArg Except.ok (parsed_layout cc parsed)

end

end NfcForumTags
