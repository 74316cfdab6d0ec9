import NfcForumTags.WriteRuns

/-!
# What write_ndef changes

Whatever fails on the way, every memory of a run of `write_ndef` is a stage of its
plan, so only the bytes of the NDEF TLV and its Terminator ever change. A run that
reports success has reached the last stage: those bytes are the serialized TLV and
a Terminator, even when commands were lost, repeated or redirected to be retried.
-/
namespace NfcForumTags

open Program

section

variable {σ ε : Type}

/-- Addresses a job must leave alone: below the data area, in a lock or reserved
area, or usable but outside the NDEF TLV and its Terminator. -/
def WriteJob.Protected (job : WriteJob) (len addr : Nat) : Prop :=
  addr < 16 ∨ job.layout.isSkipArea addr = true ∨
  ∃ i, job.layout.usableOffsetToAddress i = some addr ∧
    (i < job.ndefOffset ∨ job.ndefOffset + 1 + lFieldSize len + len + 1 ≤ i)

/-- No stage of a plan changes a protected byte. -/
theorem planned_protected {build : Build} {cc : CapabilityContainer} {tlvs : List Tlv}
    {ndefData : List UInt8} {job : WriteJob} (plan : job.Planned build cc tlvs ndefData)
    (base : Memory) (k : Nat) {addr : Nat} (safe : job.Protected ndefData.length addr) :
    planned base job.pages k addr = base addr := by
  apply plan.planned_outside
  intro i found
  obtain ⟨low, -, usable⟩ := Enumeration.kept_getElem found
  rcases safe with below | skipped | ⟨j, usableIndex, outside⟩
  · omega
  · simp [skipped] at usable
  · rw [MemoryLayout.usableOffsetToAddress_eq] at usableIndex
    have same : i = j := by
      rcases Nat.lt_trichotomy i j with less | same | more
      · exact absurd (Enumeration.kept_lt less found usableIndex) (Nat.lt_irrefl _)
      · exact same
      · exact absurd (Enumeration.kept_lt more usableIndex found) (Nat.lt_irrefl _)
    rw [same]
    exact outside

/-- No stage of a plan changes the Capability Container. -/
theorem ccOf_planned {build : Build} {cc : CapabilityContainer} {tlvs : List Tlv}
    {ndefData : List UInt8} {job : WriteJob} (plan : job.Planned build cc tlvs ndefData)
    (base : Memory) (k : Nat) : ccOf (planned base job.pages k) = ccOf base := by
  have block : ∀ addr < 16, planned base job.pages k addr = base addr :=
    fun addr below => planned_protected plan base k (Or.inl below)
  unfold ccOf
  rw [block 12 (by decide), block 13 (by decide), block 14 (by decide), block 15 (by decide)]

/-- A run of `write_ndef` from a coherent reader goes through the stages of its plan
if it prepares a job, and leaves the memory if it does not. -/
theorem writeNdef_staged {build : Build} {tag : Tag σ ε} {m : Machine σ}
    (coherent : Coherent build tag m) (ndefData : List UInt8) :
    let run := stateAfter (writeNdef build tag.toTransceiver ndefData) m
    match prepareWrite build tag.toTransceiver ndefData m with
    | .ok job _ => Logged m.trace (Staged tag (tag.memoryOf m) job.pages) run ∧
        ∃ k ≤ job.pages.length, tag.memoryOf run = planned (tag.memoryOf m) job.pages k
    | .error _ _ => Logged m.trace (Quiet tag (tag.memoryOf m)) run ∧
        tag.memoryOf run = tag.memoryOf m := by
  intro run
  have shape : run = _ := stateAfter_writeNdef tag.toTransceiver ndefData m
  have prepares := prepareWrite_quiet coherent ndefData
  cases preparing : prepareWrite build tag.toTransceiver ndefData m with
  | error error prepared =>
    rw [preparing] at shape
    have left := prepares.failed preparing
    rw [shape]
    exact ⟨left.logged, left.memory⟩
  | ok job prepared =>
    rw [preparing] at shape
    obtain ⟨left, plans⟩ := prepares.returned preparing
    obtain ⟨cc, -, tlvs, -, -, -, -, -, plans⟩ := jobOf_ok plans
    have commits := commitWrite_staged (planWrite_ok plans) left.coherent
    have held : Held build tag prepared.trace (Staged tag (tag.memoryOf prepared) job.pages)
        (fun memory => ∃ k ≤ job.pages.length,
          memory = planned (tag.memoryOf prepared) job.pages k)
        (stateAfter (commitWrite build tag.toTransceiver job) prepared) :=
      (commits.mono (fun _ next held => held.mono fun memory same => ⟨_, le_refl _, same⟩)
        (fun _ _ held => held)).always
    rw [show tag.memoryOf prepared = tag.memoryOf m from left.memory] at held
    rw [shape]
    refine ⟨?_, held.memory⟩
    obtain ⟨before, trace, quiet⟩ := left.logged
    obtain ⟨recent, later, staged⟩ := held.logged
    refine ⟨before ++ recent, by rw [later, trace, List.append_assoc], fun exchange member => ?_⟩
    rcases List.mem_append.mp member with early | late
    · exact (quiet exchange early).staged job.pages
    · exact staged exchange late

/-- On any tag in sector 0, with any retries and any errors of the transceiver: after
every exchange of a run of `write_ndef` on a new reader and at its end, each byte
below the data area, in a lock or reserved area of the job's layout, or usable but
outside the NDEF TLV and its Terminator has its original value; without a job every
byte has. And no WRITE reaches a block before the data area.

Proof: the preparation sends no WRITE, and behind it every memory is a stage of the page
plan, whatever errs. No page of the plan changes a protected byte, and each WRITE serves an
address from the data area on. -/
theorem writeNdef_confined (build : Build) (tag : Tag σ ε) (state : σ)
    (inSector0 : tag.active state = 0) (maxRetries : UInt8) (ndefData : List UInt8) :
    let m := Machine.start state maxRetries
    let run := stateAfter (writeNdef build tag.toTransceiver ndefData) m
    (∀ job prepared, prepareWrite build tag.toTransceiver ndefData m = .ok job prepared →
      ∀ addr, job.Protected ndefData.length addr →
        (∀ exchange ∈ run.trace, tag.memory exchange.after addr = tag.memory state addr) ∧
        tag.memoryOf run addr = tag.memory state addr) ∧
    (∀ error prepared, prepareWrite build tag.toTransceiver ndefData m = .error error prepared →
      (∀ exchange ∈ run.trace, tag.memory exchange.after = tag.memory state) ∧
      tag.memoryOf run = tag.memory state) ∧
    ∀ exchange ∈ run.trace, ∀ block, exchange.IsWrite block →
      tag.active exchange.before = 0 → 4 ≤ block := by
  intro m run
  have coherent := start_coherent build tag state maxRetries inSector0
  have staged := writeNdef_staged coherent ndefData
  have prepares := prepareWrite_quiet coherent ndefData
  have trace : ∀ {P : Exchange σ → Prop}, Logged m.trace P run →
      ∀ exchange ∈ run.trace, P exchange := by
    rintro P ⟨recent, same, each⟩
    rw [same]
    exact each
  refine ⟨fun job prepared preparing addr safe => ?_, fun error prepared preparing => ?_, ?_⟩
  · simp only [m, preparing] at staged
    obtain ⟨-, plans⟩ := prepares.returned preparing
    obtain ⟨cc, -, tlvs, -, -, -, -, -, plans⟩ := jobOf_ok plans
    have plan := planWrite_ok plans
    obtain ⟨logged, k, -, memory⟩ := staged
    refine ⟨fun exchange member => ?_, ?_⟩
    · obtain ⟨⟨j, -, stage⟩, -⟩ := trace logged exchange member
      rw [stage]
      exact planned_protected plan _ j safe
    · rw [memory]
      exact planned_protected plan _ k safe
  · simp only [m, preparing] at staged
    exact ⟨fun exchange member => (trace staged.1 exchange member).2, staged.2⟩
  · intro exchange member block wrote active
    cases preparing : prepareWrite build tag.toTransceiver ndefData m with
    | error error prepared =>
      simp only [m, preparing] at staged
      have quiet := (trace staged.1 exchange member).1
      rw [wrote.isWrite] at quiet
      cases quiet
    | ok job prepared =>
      simp only [m, preparing] at staged
      obtain ⟨addr, offset, low, located⟩ := (trace staged.1 exchange member).2 block wrote
      obtain ⟨-, sectorValue, blockValue, -⟩ := MemoryLayout.addressToSectorBlock_some located
      rw [active] at sectorValue
      rw [UInt8.le_iff_toNat_le]
      change 4 ≤ block.toNat
      change 0 = addr / 1024 at sectorValue
      omega

/-- A static tag with an empty message, whose first WRITE is applied but reported lost. -/
def lossyState : ScheduledState where
  tag := {
    memory := fun addr => [0xE1, 0x10, 0x06, 0x00, 0x03, 0x00, 0xFE].getD (addr - 12) 0
    active := 0 }
  schedule := [none, none, some ⟨true, 0⟩]

/-- Through the lost WRITE and its retry, the Capability Container and the byte
after the Terminator stay as they were. -/
theorem writeNdef_confined_lossy :
    let run := stateAfter (writeNdef .alloc scheduledTag.toTransceiver [0xD1, 0x01])
      (.start lossyState 1)
    (∀ exchange ∈ run.trace, exchange.after.tag.memory 14 = 0x06 ∧
      exchange.after.tag.memory 21 = 0) ∧
    ∀ exchange ∈ run.trace, ∀ block, exchange.IsWrite block →
      exchange.before.tag.active = 0 → 4 ≤ block := by
  have confined := writeNdef_confined .alloc scheduledTag lossyState rfl 1 [0xD1, 0x01]
  cases preparing : prepareWrite .alloc scheduledTag.toTransceiver [0xD1, 0x01]
      (.start lossyState 1) with
  | error error prepared =>
    have prepares : (outcome (prepareWrite .alloc scheduledTag.toTransceiver [0xD1, 0x01])
      (.start lossyState 1)).isOk = true := by decide +kernel
    rw [outcome, preparing] at prepares
    cases prepares
  | ok job prepared =>
    have planned : outcome (prepareWrite .alloc scheduledTag.toTransceiver [0xD1, 0x01])
      (.start lossyState 1) = .ok ⟨⟨48, [], []⟩, 0, 16, 64,
          [0x03, 0x00, 0xD1, 0x01, 0xFE], [0x02]⟩ := by
      decide +kernel
    rw [outcome, preparing] at planned
    obtain rfl := Except.ok.inj planned
    refine ⟨fun exchange member => ⟨?_, ?_⟩, confined.2.2⟩
    · exact (confined.1 _ prepared preparing 14 (Or.inl (by decide))).1 exchange member
    · exact (confined.1 _ prepared preparing 21
        (Or.inr (Or.inr ⟨5, by decide +kernel, Or.inr (by decide)⟩))).1 exchange member

/-- On any tag in sector 0, with any retries and any errors of the transceiver: when
`write_ndef` on a new reader returns, the usable bytes from the job's offset on hold
exactly the serialized NDEF Message TLV and a Terminator.

Proof: a commit that returns leaves the last stage of the page plan, and the usable bytes of
that stage from the offset on are the serialized block and the Terminator. -/
theorem writeNdef_complete (build : Build) (tag : Tag σ ε) (state : σ)
    (inSector0 : tag.active state = 0) (maxRetries : UInt8) (ndefData : List UInt8)
    (next : Machine σ)
    (run : writeNdef build tag.toTransceiver ndefData (.start state maxRetries) = .ok () next) :
    ∃ job prepared bytes,
      prepareWrite build tag.toTransceiver ndefData (.start state maxRetries) = .ok job prepared ∧
      (Tlv.ndefMessage ndefData).toBytes build = .ok bytes ∧
      ∀ i (inside : i < (bytes ++ [TLV_TERMINATOR]).length), ∃ addr,
        job.layout.usableOffsetToAddress (job.ndefOffset + i) = some addr ∧
        tag.memoryOf next addr = (bytes ++ [TLV_TERMINATOR])[i] := by
  obtain ⟨job, prepared, preparing, committing⟩ := writeNdef_ok run
  have coherent := start_coherent build tag state maxRetries inSector0
  obtain ⟨left, plans⟩ := (prepareWrite_quiet coherent ndefData).returned preparing
  obtain ⟨cc, -, tlvs, -, -, -, -, -, plans⟩ := jobOf_ok plans
  have plan := planWrite_ok plans
  have memory := ((commitWrite_staged plan left.coherent).returned committing).memory
  have size := plan.payload_length
  have written := plan.usable_after (tag.memoryOf prepared)
  refine ⟨job, prepared, encodedValue TLV_NDEF_MESSAGE ndefData, preparing,
    toBytes_ndefMessage plan.encodable (fits_mono (by omega) plan.capacity), fun i inside => ?_⟩
  have placed := congrArg (·[i]?) written
  rw [← memory] at placed
  rw [List.getElem?_append_left inside, List.getElem?_map, List.getElem?_drop,
    List.getElem?_eq_getElem inside] at placed
  obtain ⟨addr, found, value⟩ := Option.map_eq_some_iff.mp placed
  exact ⟨addr, (MemoryLayout.usableOffsetToAddress_eq _ _).trans found, value⟩

/-- The lost WRITE is retried, and the message is complete. -/
theorem writeNdef_complete_lossy : ∃ next job prepared bytes,
    writeNdef .alloc scheduledTag.toTransceiver [0xD1, 0x01] (.start lossyState 1) = .ok () next ∧
    prepareWrite .alloc scheduledTag.toTransceiver [0xD1, 0x01] (.start lossyState 1) =
      .ok job prepared ∧
    (Tlv.ndefMessage [0xD1, 0x01]).toBytes .alloc = .ok bytes ∧
    ∀ i (inside : i < (bytes ++ [TLV_TERMINATOR]).length), ∃ addr,
      job.layout.usableOffsetToAddress (job.ndefOffset + i) = some addr ∧
      scheduledTag.memoryOf next addr = (bytes ++ [TLV_TERMINATOR])[i] := by
  cases run : writeNdef .alloc scheduledTag.toTransceiver [0xD1, 0x01] (.start lossyState 1) with
  | error error next =>
    have returns : (outcome (writeNdef .alloc scheduledTag.toTransceiver [0xD1, 0x01])
      (.start lossyState 1)).isOk = true := by decide +kernel
    rw [outcome, run] at returns
    cases returns
  | ok value next =>
    obtain ⟨job, prepared, bytes, complete⟩ :=
      writeNdef_complete .alloc scheduledTag lossyState rfl 1 [0xD1, 0x01] next run
    exact ⟨next, job, prepared, bytes, rfl, complete⟩

end

section

variable {σ ε : Type} {build : Build} {tag : Tag σ ε} {base : Memory}
  {pages : List (List (Nat × UInt8))} {k : Nat}

/-! ## Every stage is visited -/

/-- The exchanges so far have left the memory of each of the first stages. -/
def Visited (tag : Tag σ ε) (base : Memory) (pages : List (List (Nat × UInt8))) (k : Nat)
    (m : Machine σ) : Prop :=
  ∀ j, 0 < j → j ≤ k → ∃ exchange ∈ m.trace, tag.memory exchange.after = planned base pages j

/-- What was visited stays visited. -/
theorem Visited.exchanged {m : Machine σ} (visited : Visited tag base pages k m) (frame : Frame)
    (after : σ) : Visited tag base pages k (m.exchanged frame after) := by
  intro j positive inside
  obtain ⟨exchange, member, reached⟩ := visited j positive inside
  exact ⟨exchange, List.mem_append_left _ member, reached⟩

/-- Selections visit no stage for the first time. -/
theorem Visited.select (tag : Tag σ ε) (base : Memory)
    (pages : List (List (Nat × UInt8))) (k : Nat) :
    SurvivesSelect tag.toTransceiver (Visited tag base pages k) fun _ => True where
  forget := fun _ visited => visited
  part1 := fun _ _ visited _ _ _ _ => visited.exchanged _ _
  part1_lost := fun _ _ _ _ _ _ => trivial
  part1_refused := fun _ _ _ _ _ _ _ => trivial
  part2_refused := fun _ _ _ _ _ _ => trivial
  selected := fun _ _ visited _ _ _ => visited.exchanged _ _

/-- Reading keeps the stages visited. -/
theorem Visited.reads (build : Build) (tag : Tag σ ε) (base : Memory)
    (pages : List (List (Nat × UInt8))) (k : Nat) :
    Reads build tag.toTransceiver (Visited tag base pages k) (fun _ => True) fun _ _ => True where
  serve := fun _ _ visited => visited
  select := Visited.select tag base pages k
  sends := fun serving intended block aimed => {
    lost := fun m error holds known lost => ⟨⟨holds.1.exchanged _ _, holds.2⟩, trivial⟩
    answered := fun m raw holds known answered => by
      have kept := holds.1.exchanged (.command (Command.read block).toBytes)
        (tag.transceive (Command.read block).toBytes m.reader.transceiver).2
      refine ⟨fun data parsed => ⟨?_, fun _ _ _ _ _ => trivial⟩, fun _ => trivial⟩
      unfold Machine.store
      split <;> exact kept }
  cached := fun _ _ _ _ _ _ _ _ _ => trivial

/-- A plan that is written in full goes through all of its stages. -/
theorem Visited.writes (build : Build) (tag : Tag σ ε) (past : List (Exchange σ)) (base : Memory)
    (pages : List (List (Nat × UInt8))) :
    Writes build tag.toTransceiver base pages
      (fun k m => Held build tag past (fun _ => True) (· = planned base pages k) m ∧
        Visited tag base pages k m)
      (fun k m => Held build tag past (fun _ => True)
          (fun memory => memory = planned base pages k ∨ memory = planned base pages (k + 1)) m ∧
        Visited tag base pages k m)
      fun _ => True := by
  have held : Writes build tag.toTransceiver base pages
      (fun k => Held build tag past (fun _ => True) (· = planned base pages k)) _ _ :=
    Held.writes (fun _ _ _ => trivial) fun _ _ _ _ _ _ _ _ _ _ _ _ _ => trivial
  refine ⟨fun k inside => ?_, fun k inside => ?_, fun k m inside holds => ?_, ?_⟩
  · exact ((held.reads k inside).and (Visited.reads build tag base pages k)).weaken
      fun _ _ => trivial
  · exact ((held.select k inside).and (Visited.select tag base pages k)).weaken fun _ _ => trivial
  · exact ⟨held.attempts k m inside holds.1, holds.2⟩
  · intro k addr sector block offset page inside start located stores
    have sends := held.sends k addr sector block offset page inside start located stores
    constructor
    · rintro m error ⟨⟨here, visited⟩, served⟩ known lost
      have kept := (sends.lost m error ⟨here, served⟩ known lost).1
      exact ⟨⟨⟨kept.1, visited.exchanged _ _⟩, kept.2⟩, trivial⟩
    · rintro m raw ⟨⟨here, visited⟩, served⟩ known answered
      have kept := sends.answered m raw ⟨here, served⟩ known answered
      refine ⟨fun acked => ⟨kept.1 acked, fun j positive most => ?_⟩, fun _ => trivial⟩
      rcases Nat.lt_or_eq_of_le most with earlier | rfl
      · exact visited.exchanged _ _ j positive (Nat.le_of_lt_succ earlier)
      · exact ⟨_, List.mem_append_right _ (List.mem_singleton_self _), (kept.1 acked).memory⟩

/-- A run of `write_ndef` that returns goes through all stages of its plan. -/
theorem writeNdef_visits {m : Machine σ} (coherent : Coherent build tag m) {ndefData : List UInt8}
    {job : WriteJob} (plans : jobOf build ndefData (tag.memoryOf m) = .ok job) :
    Ensures (writeNdef build tag.toTransceiver ndefData)
      (fun _ next => Visited tag (tag.memoryOf m) job.pages job.pages.length next)
      (fun _ _ => True) m := by
  unfold writeNdef
  refine (prepareWrite_quiet coherent ndefData).bind (fun _ _ _ => trivial) ?_
  rintro prepared next ⟨held, computed⟩
  obtain rfl : prepared = job := Except.ok.inj (computed.symm.trans plans)
  obtain ⟨cc, -, tlvs, -, -, -, -, -, planned⟩ := jobOf_ok plans
  have start : Held build tag next.trace (fun _ => True) (· = tag.memoryOf m) next :=
    ⟨held.coherent, held.memory, logged_start next⟩
  exact ((planWrite_ok planned).commitWrite_rule (Visited.writes build tag next.trace _ _) next
    ⟨start, fun j positive most => absurd most (by omega)⟩).mono (fun _ _ both => both.2)
    fun _ _ _ => trivial

/-- Every exchange of a run of `write_ndef` leaves the memory of a stage of its plan. -/
theorem writeNdef_stages {m : Machine σ} (coherent : Coherent build tag m) {ndefData : List UInt8}
    {job : WriteJob} (plans : jobOf build ndefData (tag.memoryOf m) = .ok job) :
    Logged m.trace (fun exchange => ∃ k ≤ job.pages.length,
        tag.memory exchange.after = planned (tag.memoryOf m) job.pages k)
      (stateAfter (writeNdef build tag.toTransceiver ndefData) m) := by
  have staged := writeNdef_staged coherent ndefData
  have prepares := prepareWrite_quiet coherent ndefData
  dsimp only at staged
  split at staged
  · next prepared next preparing =>
    have computed := (prepares.returned preparing).2
    obtain rfl : prepared = job := Except.ok.inj (computed.symm.trans plans)
    obtain ⟨⟨recent, trace, each⟩, -⟩ := staged
    exact ⟨recent, trace, fun exchange member => (each exchange member).1⟩
  · obtain ⟨⟨recent, trace, each⟩, -⟩ := staged
    exact ⟨recent, trace, fun exchange member => ⟨0, Nat.zero_le _, (each exchange member).2⟩⟩

/-- What holds of the memory found holds after every exchange of a run that returns exactly
when it holds at every stage of the plan: the run goes through all of them and through no
other memory. -/
theorem writeNdef_memories_iff {m last : Machine σ} (coherent : Coherent build tag m)
    (unlogged : m.trace = []) {ndefData : List UInt8} {job : WriteJob}
    (plans : jobOf build ndefData (tag.memoryOf m) = .ok job)
    (run : writeNdef build tag.toTransceiver ndefData m = .ok () last) {P : Memory → Prop}
    (start : P (tag.memoryOf m)) :
    (∀ exchange ∈ last.trace, P (tag.memory exchange.after)) ↔
      ∀ k ≤ job.pages.length, P (planned (tag.memoryOf m) job.pages k) := by
  constructor
  · intro each k inside
    rcases Nat.eq_zero_or_pos k with rfl | positive
    · exact start
    · obtain ⟨exchange, member, reached⟩ :=
        (writeNdef_visits coherent plans).returned run k positive inside
      exact reached ▸ each exchange member
  · intro each exchange member
    obtain ⟨recent, trace, staged⟩ := writeNdef_stages coherent plans
    rw [unlogged, List.nil_append, stateAfter, run] at trace
    obtain ⟨k, inside, stage⟩ := staged exchange (trace ▸ member)
    exact stage ▸ each k inside

end

end NfcForumTags
