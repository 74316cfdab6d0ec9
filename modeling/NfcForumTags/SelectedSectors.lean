import NfcForumTags.BlockWalk

/-!
# The sectors that are selected

A tag answers nothing, or anything, to a selection of a sector it does not have. Reading a
data area and writing a planned message select the sectors of the blocks they visit, and
recovery after an error selects the sector it lost; so no error and no answer makes the
reader select a sector beyond those its layout counts.
-/
namespace NfcForumTags

open Program MemoryLayout

section

variable {σ ε : Type} {build : Build} {t : Transceiver σ ε} {S : UInt8 → Prop}
  {past : List (Exchange σ)} {m : Machine σ}

/-- A second packet of a selection names one of certain sectors. -/
def Exchange.SelectsIn (S : UInt8 → Prop) (exchange : Exchange σ) : Prop :=
  ∀ sector, exchange.frame = .packet (Command.sectorSelectPart2 sector).toBytes → S sector

/-- A command is not a second packet. -/
theorem Logged.sentCommand (logged : Logged past (Exchange.SelectsIn S) m) (t : Transceiver σ ε)
    (cmd : List UInt8) : Logged past (Exchange.SelectsIn S) (m.sent t cmd) :=
  logged.exchanged _ _ fun _ packet => nomatch packet

/-- A selection sends packets of its own sector only. -/
theorem forceSectorSelect_selects {sector : UInt8} (inside : S sector) (m : Machine σ)
    (logged : Logged past (Exchange.SelectsIn S) m) :
    Ensures (forceSectorSelect t sector)
      (fun _ next => Logged past (Exchange.SelectsIn S) next ∧ next.reader.sector = .known sector)
      (fun _ next => Logged past (Exchange.SelectsIn S) next) m := by
  have first : Logged past (Exchange.SelectsIn S)
      (m.forget.sent t Command.sectorSelectPart1.toBytes) :=
    logged.forget.sentCommand t _
  have second : Logged past (Exchange.SelectsIn S) ((m.forget.sent t
      Command.sectorSelectPart1.toBytes).sentPacket t
          (Command.sectorSelectPart2 sector).toBytes) := by
    refine first.exchanged _ _ fun named packet => ?_
    have bytes := Frame.packet.inj packet
    simp only [Command.toBytes, List.cons.injEq, and_true] at bytes
    rwa [← bytes]
  unfold forceSectorSelect
  rw [ensures_bind, ensures_refuseIf]
  refine ⟨fun _ => ?_, fun _ => logged⟩
  rw [ensures_invalidate_unknown]
  simp only [ensures_bind, ensures_sendCommand, ensures_orTransceiver]
  refine ⟨fun raw _ => ensures_expectAck (fun _ => ?_) fun _ _ => first, fun _ _ => first⟩
  simp only [ensures_sendPacket]
  refine ⟨fun nack _ => ?_, fun _ _ => second⟩
  cases nack with
  | none => exact ⟨second.congr rfl, rfl⟩
  | some code => exact second

/-- The attempts after the first select the sector that was tracked.

Induction on the number of attempts. -/
theorem retryTransceive_selects {intended : SectorState}
    (inside : ∀ sector, intended = .known sector → S sector)
    (cmd : List UInt8) (remaining : Nat) (lastErr : ε) (m : Machine σ)
    (logged : Logged past (Exchange.SelectsIn S) m) :
    Ensures (retryTransceive t intended cmd remaining lastErr)
      (fun _ next => Logged past (Exchange.SelectsIn S) next)
      (fun _ next => Logged past (Exchange.SelectsIn S) next) m := by
  induction remaining generalizing lastErr m with
  | zero => exact logged
  | succ remaining inductionHypothesis =>
    cases intended with
    | unknown => exact logged
    | known sector =>
      refine (forceSectorSelect_selects (inside sector rfl) m logged).bind (fun _ _ left => left) ?_
      rintro - selected ⟨kept, -⟩
      have attempt := kept.sentCommand t cmd
      rw [ensures_bind, ensures_sendCommand]
      split
      · exact attempt
      · next error lost =>
        rw [ensures_unknown_invalidate]
        exact inductionHypothesis error _ attempt.forget

/-- A command selects the sector that is tracked when it starts, if it has to be repeated,
and no other. -/
theorem transceiveWithRetry_selects (inside : ∀ sector, m.reader.sector = .known sector → S sector)
    (cmd : List UInt8) (logged : Logged past (Exchange.SelectsIn S) m) :
    Ensures (transceiveWithRetry t cmd) (fun _ next => Logged past (Exchange.SelectsIn S) next)
      (fun _ next => Logged past (Exchange.SelectsIn S) next) m := by
  have attempt := logged.sentCommand t cmd
  unfold transceiveWithRetry
  simp only [ensures_bind, ensures_get, ensures_sendCommand]
  split
  · exact attempt
  · next error lost =>
    rw [ensures_unknown_invalidate]
    exact retryTransceive_selects inside cmd _ error _ attempt.forget

variable (build t S past) in
/-- Selecting only certain sectors outlasts READ and WRITE in them. -/
theorem roams_selected : Roams build t S (Logged past (Exchange.SelectsIn S))
    (fun _ => Logged past (Exchange.SelectsIn S)) where
  serve _ _ logged := logged.congr rfl
  select sector m inside logged := by
    unfold sectorSelect
    simp only [ensures_bind, ensures_refuseIf, ensures_get]
    refine ⟨fun _ => ?_, fun _ => logged⟩
    split
    · next same => exact ⟨logged, same⟩
    · exact forceSectorSelect_selects inside m logged
  read sector block m inside known logged := by
    have tracked : ∀ other, m.reader.sector = .known other → S other := by
      intro other same
      obtain rfl := SectorState.known.inj (known.symm.trans same)
      exact inside
    unfold read
    simp only [ensures_bind, ensures_get]
    split
    · exact logged
    · rw [ensures_bind]
      refine (transceiveWithRetry_selects tracked _ logged).mono (fun raw next kept => ?_)
        fun _ _ left => left
      rw [ensures_bind, ensures_orProtocol]
      refine ⟨fun answer _ => ?_, fun _ _ => kept⟩
      cases answer with
      | data data =>
        rw [ensures_bind, ensures_storeCache]
        refine kept.congr ?_
        rw [Machine.store]
        split <;> rfl
      | ack | nack _ | passiveAck => exact kept
  write sector block page m inside known logged := by
    have tracked : ∀ other, m.reader.sector = .known other → S other := by
      intro other same
      obtain rfl := SectorState.known.inj (known.symm.trans same)
      exact inside
    unfold write
    refine (transceiveWithRetry_selects tracked _ logged).bind (fun _ _ left => left)
      fun raw next kept => ?_
    rw [ensures_bind, ensures_invalidateCache]
    exact ensures_expectAck (fun _ => kept.uncache) fun _ _ => kept.uncache

end

section

variable {layout : MemoryLayout}

/-- The sectors of the bytes counted are counted. -/
theorem sectorsBelow_totalBytes (room : layout.totalBytes ≤ U32_MAX) :
    SectorsBelow (· < layout.sectorCount) layout.totalBytes := by
  intro addr sector block offset inside located
  obtain ⟨addressable, value, -, -⟩ := addressToSectorBlock_some located
  simp only [ADDRESS_SPACE_END_eq] at addressable
  have count := sectorCount_toNat room
  exact UInt8.lt_iff_toNat_lt.mpr (by omega)

/-- A job is limited to the bytes its layout counts. -/
theorem WriteJob.Planned.writeLimitAddr_le {job : WriteJob} {build : Build}
    {cc : CapabilityContainer}
    {tlvs : List Tlv} {ndefData : List UInt8} (plan : job.Planned build cc tlvs ndefData) :
    job.writeLimitAddr ≤ job.layout.totalBytes := by
  obtain ⟨lastAddr, found, limit⟩ := plan.last
  have fits := plan.fits
  have near := usableOffsetToAddress_le ((usableOffsetToAddress_eq _ _).trans found)
  have size : job.layout.dataAreaSize = cc.dataAreaSize := by rw [plan.layout]; rfl
  have total : job.layout.totalBytes = job.layout.dataAreaSize + 16 +
      job.layout.areaAddresses.length := by
    rw [length_areaAddresses, ← Nat.add_assoc]
    rfl
  omega

end

/-- Under the layout of a Capability Container and the blocks parsed out of at most 2040
bytes, whatever the transceiver answers and whatever the reader knew before: reading the
data area, and writing any message planned, only select sectors below the number
`sector_count` gives, recovery after errors included.

Proof: the operations only visit blocks below the total of the layout, the sectors of which
are below the count, and a recovery selects the sector that its command was meant for. -/
theorem selected_counted (build : Build) (cc : CapabilityContainer) {data : List UInt8}
    {tlvs : List Tlv}
    (small : data.length ≤ 2040) (parsed : parseTlvs build data = .ok tlvs) {σ ε : Type}
    (t : Transceiver σ ε) (m : Machine σ) :
    let layout := MemoryLayout.fromCcAndTlvs build cc tlvs
    Logged m.trace (Exchange.SelectsIn (· < layout.sectorCount))
      (stateAfter (readDataArea build t layout) m) ∧
    ∀ ndefData job, planWrite build cc tlvs ndefData = .ok job →
      Logged m.trace (Exchange.SelectsIn (· < layout.sectorCount))
          (stateAfter (commitWrite build t job) m) := by
  intro layout
  have room : layout.totalBytes ≤ U32_MAX := totalBytes_le build cc (parseTlvs_sound parsed) small
  have below := sectorsBelow_totalBytes room
  have roams := roams_selected build t (· < layout.sectorCount) m.trace
  have refuses : Refuses (Type2Error.FromReading build layout.totalBytes)
      (Logged m.trace (Exchange.SelectsIn (· < layout.sectorCount)))
      fun (_ : ReaderError ε) => Logged m.trace (Exchange.SelectsIn (· < layout.sectorCount)) :=
    fun _ _ _ kept => kept
  refine ⟨(roams.readDataArea refuses (reaches_totalBytes layout)
    below m (logged_start m)).always, ?_⟩
  intro ndefData job plans
  have plan := planWrite_ok plans
  have limit := plan.writeLimitAddr_le
  rw [plan.layout] at limit
  have inside : SectorsBelow (· < layout.sectorCount) job.writeLimitAddr :=
    fun addr sector block offset near => below addr sector block offset (near.trans_le limit)
  exact (roams.commitPlanned plan inside m (logged_start m)).always

/-- The blocks of a tag of 2040 bytes with its first 256 reserved: of all sectors the
first three at most are selected. -/
theorem selected_counted_three :
    Logged [] (Exchange.SelectsIn (· < 3)) (stateAfter (readDataArea .heapless flatTag.toTransceiver
      (MemoryLayout.fromCcAndTlvs .heapless fullCc firstReserved)) (.fresh ⟨fun _ => 0, 0⟩)) := by
  have parsed : parseTlvs .heapless [0x02, 0x03, 0x10, 0x00, 0x04, 0xFE] = .ok firstReserved := by
    decide +kernel
  have three : (MemoryLayout.fromCcAndTlvs .heapless fullCc firstReserved).sectorCount =
    3 := by decide +kernel
  have selected := (selected_counted .heapless fullCc (by decide) parsed flatTag.toTransceiver
    (.fresh ⟨fun _ => 0, 0⟩)).1
  rw [three] at selected
  exact selected

end NfcForumTags
