import NfcForumTags.RejectedWrite

/-!
# The read cache

In every state of a run the cached READ result is what the tag would answer now,
so a read served from it returns the bytes of the sector and block asked for. On a
tag that answers everything a reader and one that never caches go through a run
side by side: they track the same sector, and their tags have the same memory and
the same active sector, so every call returns the same.
-/
namespace NfcForumTags

open Program

section

variable {σ ε : Type} {build : Build}

/-! ## Coherence along a run -/

/-- Every call keeps the reader coherent with the tag. -/
theorem held_keepsCalls (build : Build) (tag : Tag σ ε) :
    KeepsCalls build tag.toTransceiver (Held build tag [] (fun _ => True) fun _ => True) where
  serving := fun _ _ held => ⟨held.coherent.congr rfl rfl rfl rfl, trivial, held.logged.congr rfl⟩
  select := Held.select build tag [] (fun _ _ _ => trivial) fun _ held => held
  uncache := fun _ held => ⟨held.coherent.uncache, trivial, held.logged.congr rfl⟩
  lost := by
    rintro m - error (block | ⟨block, page⟩) held lost
    · exact ((Held.sendsRead build tag [] (fun _ _ _ => trivial) (fun _ held => held) m.serving
        m.reader.sector block).lost m error ⟨held, rfl⟩ rfl lost).2
    · exact ((Held.sendsWrite build tag [] (N := fun _ => True) m.serving m.reader.sector block page
        (fun _ _ _ _ => ⟨trivial, trivial, fun _ _ _ => trivial⟩) fun _ held => held).lost m error
        ⟨held, rfl⟩ rfl lost).2
  read := fun m block raw held answered =>
    have kept := (Held.sendsRead build tag [] (fun _ _ _ => trivial) (fun _ held => held) m.serving
      m.reader.sector block).answered m raw ⟨held, rfl⟩ rfl answered
    ⟨kept.1, fun data parsed => (kept.2.2 data parsed).1⟩
  written := fun m block page raw held answered =>
    ((Held.sendsWrite build tag [] (N := fun _ => True) m.serving m.reader.sector block page
      (fun _ _ _ _ => ⟨trivial, trivial, fun _ _ _ => trivial⟩) fun _ held => held).answered m raw
      ⟨held, rfl⟩ rfl answered).2
  retries := fun _ _ held => ⟨held.coherent.congr rfl rfl rfl rfl, trivial, held.logged.congr rfl⟩

/-- After every run from a new reader on a tag in sector 0 the reader is coherent. -/
theorem coherent_run (build : Build) (tag : Tag σ ε) (calls : List Call) (state : σ)
    (start : tag.active state = 0) :
    Coherent build tag (runCalls build tag.toTransceiver calls (.fresh state)) :=
  ((held_keepsCalls build tag).run_keeps calls _
    ⟨fresh_coherent build tag state start, trivial, logged_start _⟩).coherent

/-- READ returns, from the cache or from the tag, what the tag answers for the block
in its active sector, which is the known one; the memory stays. -/
theorem read_coherent {tag : Tag σ ε} {m : Machine σ} (coherent : Coherent build tag m)
    (block : UInt8) :
    Ensures (read build tag.toTransceiver block)
      (fun data next => data = tag.answer (tag.memoryOf m) (tag.activeOf next) block ∧
        Coherent build tag next ∧ tag.memoryOf next = tag.memoryOf m ∧
        next.reader.sector = m.reader.sector)
      (fun _ _ => True) m := by
  have held := held_start coherent (fun _ => True)
  have sends := Held.sendsRead build tag m.trace (P := fun _ => True)
    (M := (· = tag.memoryOf m)) (E := fun _ => True) (fun _ _ _ => trivial) (fun _ _ => trivial)
    m.serving m.reader.sector block
  have select : SurvivesSelect tag.toTransceiver (fun next => Held build tag m.trace (fun _ => True)
      (· = tag.memoryOf m) next ∧ next.serving = m.serving) fun _ => True :=
    (Held.select build tag m.trace (fun _ _ _ => trivial) fun _ _ => trivial).serving m.serving
  refine (read_rule (fun data next =>
    data = tag.answer (tag.memoryOf m) (tag.activeOf next) block ∧ Coherent build tag next ∧
      tag.memoryOf next = tag.memoryOf m) select block m ⟨held, rfl⟩ ?_ ⟨sends.lost, ?_⟩).mono ?_
    (fun _ _ _ => trivial)
  · exact fun hit => ⟨coherent.cached block hit, coherent, rfl⟩
  · intro next raw kept tracked answered
    obtain ⟨after, -, stored⟩ := sends.answered next raw kept tracked answered
    refine ⟨fun data parsed => ?_, fun _ => trivial⟩
    obtain ⟨stores, read⟩ := stored data parsed
    have stays : tag.activeOf
        ((next.sent tag.toTransceiver (Command.read block).toBytes).store build
        block data) = tag.activeOf (next.sent tag.toTransceiver (Command.read block).toBytes) := by
      unfold Machine.store
      split <;> rfl
    rw [after.memory] at read
    exact ⟨by rw [stays]; exact read, stores.coherent, stores.memory⟩
  · rintro data next ⟨⟨read, after, memory⟩, tracked, -⟩
    exact ⟨read, after, memory, tracked⟩

/-! ## Exchanges that are answered -/

/-- A command that is answered at once is sent once. -/
theorem transceiveWithRetry_answered {t : Transceiver σ ε} {cmd raw : List UInt8} {m : Machine σ}
    (answered : (t.transceive cmd m.reader.transceiver).1 = .ok raw) :
    transceiveWithRetry t cmd m = .ok raw (m.sent t cmd) := by
  apply Ensures.run_eq
  unfold transceiveWithRetry
  simp only [ensures_bind, ensures_get, ensures_sendCommand, answered]
  exact ⟨rfl, rfl⟩

variable {tag : FaultFreeTag σ ε} {m : Machine σ}

variable (build tag) in
/-- On a tag that answers everything a block that is not cached is read by one command. -/
theorem read_miss (block : UInt8) (miss : m.reader.cacheBlock ≠ some block) : ∃ data,
    read build tag.toTransceiver block m =
      .ok data ((m.sent tag.toTransceiver (Command.read block).toBytes).store build
        block data) := by
  obtain ⟨raw, answered, long⟩ := tag.reads m.reader.transceiver block
  obtain ⟨data, parsed⟩ := Command.parseAnswer_read_of_long block long
  refine ⟨data, Ensures.run_eq ?_⟩
  unfold read
  rw [ensures_bind, ensures_get, if_neg miss, ensures_bind]
  unfold Ensures
  rw [transceiveWithRetry_answered answered]
  change Ensures _ _ _ _
  rw [parsed, ensures_bind, ensures_orProtocol]
  refine ⟨fun value same => ?_, fun _ failed => by cases failed⟩
  obtain rfl := Except.ok.inj same
  rw [ensures_bind, ensures_storeCache]
  exact ⟨rfl, rfl⟩

/-- On a tag that answers everything READ returns what the tag answers, and changes
neither memory nor active sector. -/
theorem read_faultFree (coherent : Coherent build tag.toTag m) (block : UInt8) :
    ∃ next, read build tag.toTransceiver block m =
        .ok (tag.answer (tag.memoryOf m) (tag.activeOf m) block) next ∧
      Coherent build tag.toTag next ∧ tag.memoryOf next = tag.memoryOf m ∧
      tag.activeOf next = tag.activeOf m ∧ next.reader.sector = m.reader.sector := by
  by_cases hit : m.reader.cacheBlock = some block
  · have run : read build tag.toTransceiver block m = .ok m.reader.cacheData m := by
      apply Ensures.run_eq
      unfold read
      rw [ensures_bind, ensures_get, if_pos hit]
      exact ⟨rfl, rfl⟩
    rw [coherent.cached block hit] at run
    exact ⟨m, run, coherent, rfl, rfl, rfl⟩
  · obtain ⟨data, run⟩ := read_miss build tag block hit
    obtain ⟨value, after, memory, tracked⟩ := (read_coherent coherent block).returned run
    have active : tag.activeOf ((m.sent tag.toTransceiver (Command.read block).toBytes).store build
        block data) = tag.activeOf m := by
      obtain ⟨raw, answered, -⟩ := tag.reads m.reader.transceiver block
      have stays := tag.read_active m.reader.transceiver block raw answered
      unfold Machine.store
      split <;> exact stays
    rw [active] at value
    refine ⟨_, value ▸ run, ?_, ?_, ?_, ?_⟩
    · rw [← value]
      exact after
    · rw [← value]
      exact memory
    · rw [← value]
      exact active
    · rw [← value]
      exact tracked

/-- On a tag that answers everything WRITE stores the page in the active sector. -/
theorem write_faultFree (coherent : Coherent build tag.toTag m) (block : UInt8)
    (page : Vector UInt8 4) :
    ∃ next, write tag.toTransceiver block page m = .ok () next ∧
      Coherent build tag.toTag next ∧
      tag.memoryOf next = storeBlock (tag.memoryOf m) (tag.activeOf m) block page ∧
      tag.activeOf next = tag.activeOf m ∧ next.reader.sector = m.reader.sector := by
  obtain ⟨raw, answered, acked⟩ := tag.acks m.reader.transceiver block page
  have active := tag.write_active m.reader.transceiver block page raw answered
  have memory := tag.write_acked m.reader.transceiver block page raw answered acked
  refine ⟨(m.sent tag.toTransceiver (Command.write block page).toBytes).uncache, ?_, ?_, memory,
    active, rfl⟩
  · apply Ensures.run_eq
    unfold write
    rw [ensures_bind]
    unfold Ensures
    rw [transceiveWithRetry_answered answered]
    change Ensures _ _ _ _
    rw [ensures_bind, ensures_invalidateCache]
    exact ensures_expectAck (fun _ => ⟨rfl, rfl⟩) fun refused => absurd acked refused
  · refine ⟨fun sector tracked => active.trans (coherent.tracks sector tracked), ?_, fun _ => rfl⟩
    intro cached hit
    cases hit

/-- On a tag that answers everything a selection of an addressable sector completes. -/
theorem forceSectorSelect_faultFree (coherent : Coherent build tag.toTag m) {sector : UInt8}
    (allowed : ¬ MAX_SECTOR < sector) :
    ∃ next, forceSectorSelect tag.toTransceiver sector m = .ok () next ∧
      Coherent build tag.toTag next ∧ tag.memoryOf next = tag.memoryOf m ∧
      tag.activeOf next = sector ∧ next.reader.sector = .known sector ∧
      next.reader.cacheBlock = none ∧ next.serving = m.serving := by
  have survives := (Held.select build tag.toTag m.trace
    (P := fun _ => True) (M := (· = tag.memoryOf m)) (E := fun _ => True) (fun _ _ _ => trivial)
    fun _ _ => trivial).serving m.serving
  have kept := forceSectorSelect_rule survives sector m ⟨held_start coherent _, rfl⟩
    fun _ => trivial
  have never := forceSectorSelect_rule (faultFree_keeps build tag).reads.select sector m
    trivial fun beyond => absurd beyond allowed
  obtain ⟨value, next, run, ⟨⟨held, served⟩, known, empty⟩, -⟩ :=
    ((kept.and never).mono (fun _ _ both => both) fun _ _ both => both.2).exists_run
  exact ⟨next, run, held.coherent, held.memory, held.coherent.tracks sector known, known,
    empty, served⟩

end

end NfcForumTags
