import NfcForumTags.Session
import NfcForumTags.FaultFreeRuns

/-!
# Tags that lose commands now and then

After faults of any kind a tag may become steady. A READ or WRITE may still be lost, with
or without its effect and the active sector becoming anything, but only so often in a row;
selections are answered. A reader that retries as often returns from each READ and WRITE
in a sector it tracks. Then its operations end as on a tag that answers everything: with a
function of the memory, refusals included.
-/
namespace NfcForumTags

open Program MemoryLayout

section

variable {σ ε : Type}

/-- A tag that, once steady, loses at most `limit` commands in a row. Its patience is how
many more it may lose before it answers one; only an answer restores it. -/
structure PatientTag (σ ε : Type) extends Tag σ ε where
  limit : Nat
  patience : σ → Nat
  steady : σ → Prop
  stays : ∀ state, steady state → (∀ raw, steady (transceive raw state).2) ∧
    ∀ raw, steady (transceiveNoResponse raw state).2
  patience_le : ∀ state, steady state → patience state ≤ limit
  reads : ∀ state, steady state → ∀ block,
    (∃ raw, (transceive (Command.read block).toBytes state).1 = .ok raw ∧ 16 ≤ raw.length) ∨
      (∃ error, (transceive (Command.read block).toBytes state).1 = .error error) ∧
        patience (transceive (Command.read block).toBytes state).2 < patience state
  acks : ∀ state, steady state → ∀ block data,
    (∃ raw, (transceive (Command.write block data).toBytes state).1 = .ok raw ∧
      (Command.write block data).parseAnswer raw = .ok .ack) ∨
      (∃ error, (transceive (Command.write block data).toBytes state).1 = .error error) ∧
        patience (transceive (Command.write block data).toBytes state).2 < patience state
  selects1 : ∀ state, steady state →
    (∃ raw, (transceive Command.sectorSelectPart1.toBytes state).1 = .ok raw ∧
      Command.sectorSelectPart1.parseAnswer raw = .ok .ack) ∧
      patience (transceive Command.sectorSelectPart1.toBytes state).2 ≤ patience state
  selects2 : ∀ state, steady state → ∀ sector,
    (transceiveNoResponse (Command.sectorSelectPart2 sector).toBytes state).1 = .ok none ∧
      patience (transceiveNoResponse (Command.sectorSelectPart2 sector).toBytes state).2 ≤
        patience state

/-- A tag that answers everything is steady and loses nothing. -/
def FaultFreeTag.patient (tag : FaultFreeTag σ ε) : PatientTag σ ε where
  toTag := tag.toTag
  limit := 0
  patience := fun _ => 0
  steady := fun _ => True
  stays := fun _ _ => ⟨fun _ => trivial, fun _ => trivial⟩
  patience_le := fun _ _ => le_refl _
  reads := fun state _ block => Or.inl (tag.reads state block)
  acks := fun state _ block data => Or.inl (tag.acks state block data)
  selects1 := fun state _ => ⟨tag.selects1 state, le_refl _⟩
  selects2 := fun state _ sector => ⟨tag.selects2 state sector, le_refl _⟩

variable {build : Build} {tag : PatientTag σ ε} {m : Machine σ}

/-! ## The retry loop returns -/

/-- The tag is steady, and the reader retries as often as it loses commands. -/
structure Lenient (tag : PatientTag σ ε) (m : Machine σ) : Prop where
  steady : tag.steady m.reader.transceiver
  retries : tag.limit ≤ m.reader.maxRetries.toNat

/-- A lenient reader that tracks an addressable sector. -/
structure Ready (tag : PatientTag σ ε) (m : Machine σ) : Prop where
  known : ∃ sector ≤ MAX_SECTOR, m.reader.sector = .known sector
  lenient : Lenient tag m

/-- A command leaves the tag steady, answered or lost, and the retries are the reader's own. -/
theorem Lenient.sent (lenient : Lenient tag m) (cmd : List UInt8) :
    Lenient tag (m.sent tag.toTransceiver cmd) :=
  ⟨(tag.stays _ lenient.steady).1 cmd, lenient.retries⟩

/-- So does a packet that is not answered. -/
theorem Lenient.sentPacket (lenient : Lenient tag m) (packet : List UInt8) :
    Lenient tag (m.sentPacket tag.toTransceiver packet) :=
  ⟨(tag.stays _ lenient.steady).2 packet, lenient.retries⟩

/-- Giving up the sector leaves the tag and the retries. -/
theorem Lenient.forget (lenient : Lenient tag m) : Lenient tag m.forget :=
    ⟨lenient.steady, lenient.retries⟩

/-- So does keeping a READ result. -/
theorem Lenient.store (lenient : Lenient tag m) (build : Build) (block : UInt8)
    (data : Vector UInt8 16) :
    Lenient tag (m.store build block data) := by
  unfold Machine.store
  split
  · exact ⟨lenient.steady, lenient.retries⟩
  · exact lenient

/-- A steady tag accepts every selection, which costs it no patience. -/
theorem forceSectorSelect_patient {sector : UInt8} (allowed : sector ≤ MAX_SECTOR)
    (lenient : Lenient tag m) :
    Ensures (forceSectorSelect tag.toTransceiver sector)
      (fun _ next => next.reader.sector = .known sector ∧ Lenient tag next ∧
        tag.patience next.reader.transceiver ≤ tag.patience m.reader.transceiver)
      (fun _ _ => False) m := by
  have asked := lenient.sent Command.sectorSelectPart1.toBytes
  have selected := asked.sentPacket (Command.sectorSelectPart2 sector).toBytes
  obtain ⟨⟨raw, answered, acked⟩, first⟩ := tag.selects1 m.reader.transceiver lenient.steady
  obtain ⟨silent, second⟩ := tag.selects2 _ asked.steady sector
  unfold forceSectorSelect
  rw [ensures_bind, ensures_refuseIf]
  refine ⟨fun _ => ?_, fun beyond => absurd beyond (UInt8.not_lt.mpr allowed)⟩
  rw [ensures_invalidate_unknown]
  simp only [ensures_bind, ensures_sendCommand, ensures_orTransceiver]
  refine ⟨fun other same => ?_, fun error lost => by cases answered.symm.trans lost⟩
  obtain rfl := Except.ok.inj (answered.symm.trans same)
  refine ensures_expectAck (fun _ => ?_) fun refused => absurd acked refused
  simp only [ensures_sendPacket]
  refine ⟨fun nack same => ?_, fun error lost => by cases silent.symm.trans lost⟩
  obtain rfl := Except.ok.inj (silent.symm.trans same)
  exact ⟨rfl, ⟨selected.steady, selected.retries⟩, second.trans first⟩

section

variable {cmd : List UInt8} {good : List UInt8 → Prop}
  (answers : ∀ state, tag.steady state →
    (∃ raw, (tag.transceive cmd state).1 = .ok raw ∧ good raw) ∨
    (∃ error, (tag.transceive cmd state).1 = .error error) ∧
      tag.patience (tag.transceive cmd state).2 < tag.patience state)
include answers

/-- With more attempts left than the tag may still lose, one is answered.

Induction on the attempts left: each lost one costs the tag some patience. -/
theorem retryTransceive_patient {sector : UInt8} (allowed : sector ≤ MAX_SECTOR)
    (remaining : Nat) (lastErr : ε)
    (m : Machine σ) (lenient : Lenient tag m)
    (enough : tag.patience m.reader.transceiver < remaining) :
    Ensures (retryTransceive tag.toTransceiver (.known sector) cmd remaining lastErr)
      (fun raw next => good raw ∧ next.reader.sector = .known sector ∧ Lenient tag next)
      (fun _ _ => False) m := by
  induction remaining generalizing m lastErr with
  | zero => exact absurd enough (Nat.not_lt_zero _)
  | succ remaining inductionHypothesis =>
    refine (forceSectorSelect_patient allowed lenient).bind (fun _ _ never => never) ?_
    rintro - selected ⟨known, lenient, patience⟩
    rw [ensures_bind, ensures_sendCommand]
    rcases answers selected.reader.transceiver
      lenient.steady with ⟨raw, answered, fine⟩ | ⟨⟨error, lost⟩, spent⟩
    · rw [answered]
      exact ⟨fine, known, lenient.sent cmd⟩
    · rw [lost]
      dsimp only
      rw [ensures_unknown_invalidate]
      have left : tag.patience (selected.sent tag.toTransceiver cmd).forget.reader.transceiver <
          remaining := by
        change tag.patience (tag.transceive cmd selected.reader.transceiver).2 < remaining
        omega
      exact inductionHypothesis error _ (lenient.sent cmd).forget left

/-- A ready reader gets an answer to its command: with more retries than the tag loses
commands, one attempt is answered. -/
theorem transceiveWithRetry_patient (ready : Ready tag m) :
    Ensures (transceiveWithRetry tag.toTransceiver cmd) (fun raw next => good raw ∧ Ready tag next)
      (fun _ _ => False) m := by
  obtain ⟨⟨sector, allowed, known⟩, lenient⟩ := ready
  have patient := tag.patience_le m.reader.transceiver lenient.steady
  have retries := lenient.retries
  unfold transceiveWithRetry
  simp only [ensures_bind, ensures_get, ensures_sendCommand]
  rcases answers m.reader.transceiver
    lenient.steady with ⟨raw, answered, fine⟩ | ⟨⟨error, lost⟩, spent⟩
  · rw [answered]
    exact ⟨fine, ⟨sector, allowed, known⟩, lenient.sent cmd⟩
  · rw [lost]
    dsimp only
    rw [ensures_unknown_invalidate, known]
    have left : tag.patience (m.sent tag.toTransceiver cmd).forget.reader.transceiver <
        m.reader.maxRetries.toNat := by
      change tag.patience (tag.transceive cmd m.reader.transceiver).2 < _
      omega
    have retried := retryTransceive_patient answers allowed m.reader.maxRetries.toNat error _
      (lenient.sent cmd).forget left
    exact retried.mono (fun _ _ after => ⟨after.1, ⟨sector, allowed, after.2.1⟩, after.2.2⟩)
      fun _ _ never => never

end

/-- READ in a tracked sector returns: it is cached, or one of its attempts is answered with
sixteen bytes. -/
theorem read_patient (ready : Ready tag m) (block : UInt8) :
    Ensures (read build tag.toTransceiver block) (fun _ next => Ready tag next)
      (fun _ _ => False) m := by
  unfold read
  simp only [ensures_bind, ensures_get]
  split
  · exact ready
  · rw [ensures_bind]
    refine (transceiveWithRetry_patient (tag.reads · · block) ready).mono ?_ fun _ _ never => never
    rintro raw next ⟨long, ready⟩
    obtain ⟨data, parsed⟩ := Command.parseAnswer_read_of_long block long
    rw [parsed, ensures_bind, ensures_orProtocol]
    refine ⟨fun answer same => ?_, fun _ failed => by cases failed⟩
    obtain rfl := Except.ok.inj same
    have tracked : (next.store build block data).reader.sector = next.reader.sector := by
      unfold Machine.store
      split <;> rfl
    rw [ensures_bind, ensures_storeCache]
    exact ⟨by rw [tracked]; exact ready.known, ready.lenient.store build block data⟩

/-- So does WRITE, since what a steady tag answers to it is an acknowledgement. -/
theorem write_patient (ready : Ready tag m) (block : UInt8) (page : Vector UInt8 4) :
    Ensures (write tag.toTransceiver block page) (fun _ next => Ready tag next)
      (fun _ _ => False) m := by
  unfold write
  refine (transceiveWithRetry_patient (tag.acks · · block page) ready).bind
    (fun _ _ never => never) ?_
  rintro raw next ⟨acked, ready⟩
  rw [ensures_bind, ensures_invalidateCache]
  exact ensures_expectAck (fun _ => ⟨ready.known, ready.lenient.steady, ready.lenient.retries⟩)
    fun refused => absurd acked refused

/-- A selection always completes, needed or not, and then the reader is ready for commands. -/
theorem sectorSelect_patient {sector : UInt8} (allowed : sector ≤ MAX_SECTOR)
    (lenient : Lenient tag m) :
    Ensures (sectorSelect tag.toTransceiver sector)
      (fun _ next => Ready tag next ∧ next.reader.sector = .known sector) (fun _ _ => False) m := by
  unfold sectorSelect
  simp only [ensures_bind, ensures_refuseIf, ensures_get]
  refine ⟨fun _ => ?_, fun beyond => absurd beyond (UInt8.not_lt.mpr allowed)⟩
  split
  · next known => exact ⟨⟨⟨sector, allowed, known⟩, lenient⟩, known⟩
  · refine (forceSectorSelect_patient allowed lenient).mono ?_ fun _ _ never => never
    rintro - next ⟨known, lenient, -⟩
    exact ⟨⟨⟨sector, allowed, known⟩, lenient⟩, known⟩

/-! ## Operations end with the sector tracked -/

variable (build tag) in
/-- The blocks visited leave the reader ready, and no exchange of theirs fails for good. -/
theorem roams_ready (E : ReaderError ε → Machine σ → Prop) :
    Roams build tag.toTransceiver (· ≤ MAX_SECTOR) (Ready tag) E where
  serve _ _ ready := ⟨ready.known, ready.lenient.steady, ready.lenient.retries⟩
  select _ _ allowed ready := (sectorSelect_patient allowed ready.lenient).mono
    (fun _ _ selected => selected) fun _ _ never => never.elim
  read _ block _ _ _ ready := (read_patient ready block).mono (fun _ _ kept => kept)
    fun _ _ never => never.elim
  write _ block page _ _ _ ready :=
    (write_patient ready block page).mono (fun _ _ kept => kept) fun _ _ never => never.elim

/-- Reading the Capability Container settles a lenient reader, whatever it tracked. -/
theorem readCc_settles (lenient : Lenient tag m) :
    Ensures (readCc build tag.toTransceiver) (fun _ next => Ready tag next)
      (fun _ next => Ready tag next) m := by
  have served : Lenient tag { m with serving := some (CC_BLOCK.toNat * BLOCK_SIZE) } :=
    ⟨lenient.steady, lenient.retries⟩
  have first : (0 : UInt8) ≤ MAX_SECTOR := by decide
  unfold readCc
  rw [ensures_bind, ensures_serve]
  refine (sectorSelect_patient first served).bind (fun _ _ never => never.elim) ?_
  rintro - selected ⟨ready, -⟩
  refine (read_patient ready CC_BLOCK).bind (fun _ _ never => never.elim) fun data next ready => ?_
  rw [ensures_orProtocol]
  exact ⟨fun _ _ => ready, fun _ _ => ready⟩

/-- Both passes over the data area end ready, whatever they return: each visits blocks of
sectors that may be selected. -/
theorem readDataAreaWithLayout_settles (cc : CapabilityContainer) :
    Preserves (Ready tag) (readDataAreaWithLayout build tag.toTransceiver cc) :=
  (roams_ready build tag fun _ => Ready tag).readDataAreaWithLayout sectorsBelow_addressable cc
    fun _ _ _ ready => ready

/-- So does `read_ndef`, from any lenient reader: it selects sector 0 first, for the
container. -/
theorem readNdef_settles (lenient : Lenient tag m) :
    Ensures (readNdef build tag.toTransceiver) (fun _ next => Ready tag next)
      (fun _ next => Ready tag next) m := by
  unfold readNdef
  refine (readCc_settles lenient).bind (fun _ _ left => left) fun cc next ready => ?_
  exact (preserves_refuseIf _ _).bind (fun _ => (readDataAreaWithLayout_settles cc).bind fun _ =>
    (preserves_orProtocol _).bind fun _ => preserves_pure _) next ready

/-- And so do the checks of `write_ndef`, whether they refuse the message or plan a job. -/
theorem prepareWrite_settles (lenient : Lenient tag m) (ndefData : List UInt8) :
    Ensures (prepareWrite build tag.toTransceiver ndefData) (fun _ next => Ready tag next)
      (fun _ next => Ready tag next) m := by
  unfold prepareWrite
  refine (readCc_settles lenient).bind (fun _ _ left => left) fun cc next ready => ?_
  exact (preserves_refuseIf _ _).bind (fun _ => (preserves_refuseIf _ _).bind fun _ =>
    (readDataAreaWithLayout_settles cc).bind fun _ => (preserves_orProtocol _).bind fun _ =>
      preserves_orProtocol _) next ready

/-- Every exchange leaves the tag steady and the retries. -/
theorem lenient_exchanges (build : Build) (tag : PatientTag σ ε) :
    KeepsExchanges build tag.toTransceiver (Lenient tag) where
  serving := fun _ _ lenient => ⟨lenient.steady, lenient.retries⟩
  select := .ofSent (fun _ lenient => lenient.forget) (fun _ lenient => lenient.sent _)
    (fun _ _ lenient => lenient.sentPacket _) fun _ _ lenient _ _ =>
      ⟨lenient.steady, lenient.retries⟩
  uncache := fun _ lenient => ⟨lenient.steady, lenient.retries⟩
  lost := fun _ _ _ _ lenient _ => (lenient.sent _).forget
  read := fun _ block _ lenient _ =>
    ⟨lenient.sent _, fun data _ => (lenient.sent _).store build block data⟩
  written := fun _ _ _ _ lenient _ => ⟨(lenient.sent _).steady, lenient.retries⟩

/-- Only `set_max_retries` changes how lenient a reader is. -/
theorem Lenient.kept (lenient : Lenient tag m) {call : Call} (other : ∀ n, call ≠ .setMaxRetries n)
    (build : Build) : Lenient tag (call.after build tag.toTransceiver m) :=
  ((lenient_exchanges build tag).call_rule call m lenient fun n same =>
    absurd same (other n)).always

/-! ## What operations return -/

/-- A steady tag stays so, and a READ is lost only with the sector. -/
theorem patient_loses (build : Build) (tag : PatientTag σ ε) :
    Reads build tag.toTransceiver (fun m => tag.steady m.reader.transceiver)
      (fun m => m.reader.sector = .unknown) fun _ _ => True where
  serve := fun _ _ steady => steady
  select := {
    forget := fun _ steady => steady
    part1 := fun _ _ steady _ _ _ _ => (tag.stays _ steady).1 _
    part1_lost := fun m error _ unknown _ _ => unknown
    part1_refused := fun m raw _ unknown _ _ _ => unknown
    part2_refused := fun m sector _ unknown _ _ => unknown
    selected := fun _ _ steady _ _ _ => (tag.stays _ steady).2 _ }
  sends := by
    intro serving intended block aimed
    refine ⟨fun m error holds _ _ => ⟨⟨(tag.stays _ holds.1).1 _, holds.2⟩, rfl⟩,
      fun m raw holds _ answered => ?_⟩
    refine ⟨fun _ _ => ⟨?_, fun _ _ _ _ _ => trivial⟩, fun short => ?_⟩
    · unfold Machine.store
      split <;> exact (tag.stays _ holds.1).1 _
    · rcases tag.reads m.reader.transceiver holds.1
        block with ⟨good, same, long⟩ | ⟨⟨error, lost⟩, -⟩
      · obtain rfl := Except.ok.inj (same.symm.trans answered)
        obtain ⟨data, parsed⟩ := Command.parseAnswer_read_of_long block long
        exact absurd parsed (short data)
      · cases lost.symm.trans answered
  cached := fun _ _ _ _ _ _ _ _ _ => trivial

/-- A ready reader has lost nothing for good: the sector would be given up by the last
attempt. -/
theorem Ready.not_lost (ready : Ready tag m) : m.reader.sector ≠ .unknown := by
  obtain ⟨sector, -, known⟩ := ready.known
  rw [known]
  exact SectorState.noConfusion

section

variable (coherent : Coherent build tag.toTag m) (lenient : Lenient tag m)
include coherent lenient

/-- `read_cc` returns what the container's bytes stand for, error or not, and leaves the
reader ready. -/
theorem readCc_returns :
    Settles build tag.toTag (Ready tag) (readCc build tag.toTransceiver)
      (ccOf (tag.memoryOf m)) m :=
  readCc_settled (readsMemory_of (patient_loses build tag) m) (fun _ => Ready.not_lost) coherent
    lenient.steady (readCc_settles lenient)

/-- `read_ndef` returns the message that the memory reads as, or the refusal that the memory
calls for, and leaves the reader ready. -/
theorem readNdef_returns :
    Settles build tag.toTag (Ready tag) (readNdef build tag.toTransceiver)
      (ndefOf build (tag.memoryOf m)) m :=
  readNdef_settled (readsMemory_of (patient_loses build tag) m) (fun _ => Ready.not_lost) coherent
    lenient.steady (readNdef_settles lenient)

/-- `write_ndef` plans the job that the memory calls for, or refuses the message as the
memory has it, with the reader ready. -/
theorem prepareWrite_returns (ndefData : List UInt8) :
    Settles build tag.toTag (Ready tag) (prepareWrite build tag.toTransceiver ndefData)
      (jobOf build ndefData (tag.memoryOf m)) m :=
  prepareWrite_settled (readsMemory_of (patient_loses build tag) m)
    (fun _ => Ready.not_lost) coherent
    lenient.steady ndefData (prepareWrite_settles lenient ndefData)

/-- `write_ndef` returns when a job can be planned, with the memory of its last page. -/
theorem writeNdef_returns {ndefData : List UInt8} {job : WriteJob}
    (plans : jobOf build ndefData (tag.memoryOf m) = .ok job) :
    ∃ next, writeNdef build tag.toTransceiver ndefData m = .ok () next ∧
      Coherent build tag.toTag next ∧
      tag.memoryOf next = planned (tag.memoryOf m) job.pages job.pages.length ∧ Ready tag next :=
  (prepareWrite_returns coherent lenient ndefData).writes plans fun _ _ prepared plan ready =>
    (roams_ready build tag fun _ _ => False).commitPlanned plan
      (sectorsBelow_addressable _) prepared
      ready

end

end

/-! ## A tag that loses every other command -/

/-- A simulated tag, and whether it lost the last command. -/
structure HesitantState where
  tag : FlatState
  lost : Bool

namespace HesitantState

/-- Send a READ or WRITE to the tag. It is applied even when its answer is lost, and the
sector is then the first one again. -/
def send (state : HesitantState) (raw : List UInt8) : Except Unit (List UInt8) × HesitantState :=
  if raw = Command.sectorSelectPart1.toBytes then (.ok [ACK], state)
  else if state.lost then (.ok (state.tag.command raw).1, ⟨(state.tag.command raw).2, false⟩)
  else (.error (), ⟨{ (state.tag.command raw).2 with active := 0 }, true⟩)

/-- A command that is answered gets the answer of the simulated tag and has its effect, as
on a tag that loses nothing. -/
theorem send_ok {state : HesitantState} {raw answer : List UInt8}
    (other : raw ≠ Command.sectorSelectPart1.toBytes) (answered : (state.send raw).1 = .ok answer) :
    answer = (state.tag.command raw).1 ∧ (state.send raw).2.tag = (state.tag.command raw).2 := by
  unfold send at answered ⊢
  rw [if_neg other] at answered ⊢
  cases lost : state.lost
  · rw [lost] at answered
    cases answered
  · rw [lost] at answered
    cases answered
    exact ⟨rfl, rfl⟩

/-- A command has its effect on the memory whether it is answered or lost. -/
theorem send_memory {state : HesitantState} {raw : List UInt8}
    (other : raw ≠ Command.sectorSelectPart1.toBytes) :
    (state.send raw).2.tag.memory = (state.tag.command raw).2.memory := by
  unfold send
  rw [if_neg other]
  cases state.lost <;> rfl

/-- After a lost command the next one is answered; after an answered one it is lost. -/
theorem send_answers (state : HesitantState) {raw : List UInt8}
    (other : raw ≠ Command.sectorSelectPart1.toBytes) :
    (state.lost = true ∧ (state.send raw).1 = .ok (state.tag.command raw).1) ∨
      (state.lost = false ∧ (state.send raw).1 = .error () ∧ (state.send raw).2.lost = true) := by
  unfold send
  rw [if_neg other]
  cases state.lost
  · exact Or.inr ⟨rfl, rfl, rfl⟩
  · exact Or.inl ⟨rfl, rfl⟩

end HesitantState

/-- The transceiver of this tag. Selections are never lost. -/
def hesitantTransceiver : Transceiver HesitantState Unit where
  transceive raw state := state.send raw
  transceiveNoResponse raw state := (.ok none, { state with tag := state.tag.select raw })

/-- READ is not the first packet of a selection. -/
theorem read_ne_part1 (block : UInt8) :
    (Command.read block).toBytes ≠ Command.sectorSelectPart1.toBytes := by
  simp [Command.toBytes, CMD_READ, CMD_SECTOR_SELECT]

/-- Neither is WRITE. -/
theorem write_ne_part1 (block : UInt8) (data : Vector UInt8 4) :
    (Command.write block data).toBytes ≠ Command.sectorSelectPart1.toBytes := by
  simp [Command.toBytes]

/-- It is a patient tag that loses at most one command in a row: its patience is one again
once a command was answered. -/
def hesitantTag : PatientTag HesitantState Unit where
  toTransceiver := hesitantTransceiver
  active := fun state => state.tag.active
  memory := fun state => state.tag.memory
  answer := FlatState.answer
  answer_inside := FlatState.answer_inside
  read_active := fun state block raw answered => by
    refine (congrArg FlatState.active (HesitantState.send_ok (read_ne_part1 block)
      answered).2).trans ?_
    rw [FlatState.command_read]
  write_active := fun state block data raw answered => by
    refine (congrArg FlatState.active (HesitantState.send_ok (write_ne_part1 block data)
      answered).2).trans ?_
    rw [FlatState.command_write]
  select_active := fun _ _ _ => rfl
  read_memory := fun state block => by
    refine (HesitantState.send_memory (read_ne_part1 block)).trans ?_
    rw [FlatState.command_read]
  read_answer := by
    intro state block raw data answered parsed
    rw [(HesitantState.send_ok (read_ne_part1 block) answered).1, FlatState.command_read] at parsed
    exact FlatState.parse_answer parsed
  write_memory := fun state block data => by
    refine Or.inr ((HesitantState.send_memory (write_ne_part1 block data)).trans ?_)
    rw [FlatState.command_write]
  write_acked := fun state block data _ _ _ => by
    refine (HesitantState.send_memory (write_ne_part1 block data)).trans ?_
    rw [FlatState.command_write]
  part1_memory := fun _ => rfl
  part2_memory := fun _ _ => rfl
  limit := 1
  patience := fun state => if state.lost then 0 else 1
  steady := fun _ => True
  stays := fun _ _ => ⟨fun _ => trivial, fun _ => trivial⟩
  patience_le := fun state _ => by split <;> decide
  reads := by
    intro state steady block
    rcases HesitantState.send_answers state
      (read_ne_part1 block) with ⟨-, answered⟩ | ⟨fresh, lost, after⟩
    · exact Or.inl ⟨_, answered, by simp⟩
    · exact Or.inr ⟨⟨_, lost⟩, by simp [hesitantTransceiver, fresh, after]⟩
  acks := by
    intro state steady block data
    rcases HesitantState.send_answers state (write_ne_part1 block data) with
      ⟨-, answered⟩ | ⟨fresh, lost, after⟩
    · exact Or.inl ⟨_, answered, by rw [FlatState.command_write]; rfl⟩
    · exact Or.inr ⟨⟨_, lost⟩, by simp [hesitantTransceiver, fresh, after]⟩
  selects1 := fun _ _ => ⟨⟨[ACK], rfl, rfl⟩, le_refl _⟩
  selects2 := fun _ _ _ => ⟨rfl, le_refl _⟩

end NfcForumTags
