import NfcForumTags.TagRules
import NfcForumTags.Simulation

/-!
# Runs of write_ndef

A run of `write_ndef` prepares a job, reading only, and then commits it page by
page. On any tag the memory is the original one while the job is prepared, and one
of the stages of the job's plan after every exchange from then on.
-/
namespace NfcForumTags

open Program

section

variable {σ ε : Type} {build : Build}

/-- A new reader with its number of retries set. -/
def Machine.start (transceiver : σ) (maxRetries : UInt8) : Machine σ :=
  { Machine.fresh transceiver with reader := { T2TReader.new transceiver with maxRetries } }

/-- A new reader on a tag in sector 0 is coherent with it, whatever its retries. -/
theorem start_coherent (build : Build) (tag : Tag σ ε) (state : σ) (maxRetries : UInt8)
    (inSector0 : tag.active state = 0) : Coherent build tag (.start state maxRetries) :=
  have fresh := fresh_coherent build tag state inSector0
  ⟨fresh.tracks, fresh.cached, fresh.uncached⟩

/-- A run of `write_ndef` that returns has prepared a job and committed it. -/
theorem writeNdef_ok {t : Transceiver σ ε} {ndefData : List UInt8} {m next : Machine σ}
    (run : writeNdef build t ndefData m = .ok () next) :
    ∃ job prepared, prepareWrite build t ndefData m = .ok job prepared ∧
      commitWrite build t job prepared = .ok () next := by
  simp only [writeNdef, bind, EStateM.bind] at run
  cases preparing : prepareWrite build t ndefData m with
  | ok job prepared =>
    rw [preparing] at run
    exact ⟨job, prepared, rfl, run⟩
  | error error prepared =>
    rw [preparing] at run
    cases run

/-- What a run of `write_ndef` leaves behind, by how far it came. -/
theorem stateAfter_writeNdef (t : Transceiver σ ε) (ndefData : List UInt8) (m : Machine σ) :
    stateAfter (writeNdef build t ndefData) m =
      match prepareWrite build t ndefData m with
      | .ok job prepared => stateAfter (commitWrite build t job) prepared
      | .error _ prepared => prepared := by
  simp only [stateAfter, writeNdef, bind, EStateM.bind]
  cases prepareWrite build t ndefData m <;> rfl

/-! ## On any tag -/

variable {tag : Tag σ ε} {ndefData : List UInt8} {m : Machine σ}

/-- An exchange of a run with the original memory: no WRITE, and the memory stays. -/
def Quiet (tag : Tag σ ε) (memory : Memory) (exchange : Exchange σ) : Prop :=
  exchange.frame.isWrite = false ∧ tag.memory exchange.after = memory

/-- Reading operations are quiet. -/
theorem quiet_reads (build : Build) (tag : Tag σ ε) (past : List (Exchange σ)) (memory : Memory) :
    Reads build tag.toTransceiver (Held build tag past (Quiet tag memory) (· = memory))
      (Held build tag past (Quiet tag memory) (· = memory)) fun addr byte => byte = memory addr :=
  Held.reads (fun _ other same => ⟨other, same⟩) fun _ held => held

/-- A coherent machine holds its tag's memory, with nothing exchanged yet. -/
theorem held_start (coherent : Coherent build tag m) (P : Exchange σ → Prop) :
    Held build tag m.trace P (· = tag.memoryOf m) m := ⟨coherent, rfl, logged_start m⟩

/-- A reading operation computes its function of the tag's memory, or an exchange
fails; it sends no WRITE and leaves the memory. -/
theorem computed_of_reads {α : Type} {program : Operation σ ε α}
    {function : Memory → Except Type2Error α} {E : Machine σ → Prop}
    (computes : Computes (Held build tag m.trace (Quiet tag (tag.memoryOf m))
      (· = tag.memoryOf m)) E
      (fun addr byte => byte = tag.memoryOf m addr) program function m) :
    Ensures program
      (fun value next => Held build tag m.trace (Quiet tag (tag.memoryOf m))
        (· = tag.memoryOf m) next ∧
        function (tag.memoryOf m) = .ok value)
      (fun error next => E next ∨
        Held build tag m.trace (Quiet tag (tag.memoryOf m)) (· = tag.memoryOf m) next ∧
          ∃ refusal, error = .protocol refusal ∧ function (tag.memoryOf m) = .error refusal) m := by
  have shows : Shows (fun addr byte => byte = tag.memoryOf m addr) (tag.memoryOf m) :=
    fun _ _ seen => seen
  refine computes.mono (fun value next result => ⟨result.1, result.2 _ shows⟩) ?_
  rintro error next (left | ⟨kept, refusal, same, failed⟩)
  · exact Or.inl left
  · exact Or.inr ⟨kept, refusal, same, failed _ shows⟩

/-- Preparing a write leaves the memory, and a prepared job is the memory's. -/
theorem prepareWrite_quiet (coherent : Coherent build tag m) (ndefData : List UInt8) :
    Ensures (prepareWrite build tag.toTransceiver ndefData)
      (fun job next => Held build tag m.trace (Quiet tag (tag.memoryOf m))
        (· = tag.memoryOf m) next ∧
        jobOf build ndefData (tag.memoryOf m) = .ok job)
      (fun _ next =>
        Held build tag m.trace (Quiet tag (tag.memoryOf m)) (· = tag.memoryOf m) next) m := by
  have computes := (quiet_reads build tag m.trace (tag.memoryOf m)).prepareWrite_rule ndefData m
    (held_start coherent _)
  refine (computed_of_reads computes).mono (fun _ _ result => result) ?_
  rintro error next (kept | ⟨kept, -⟩) <;> exact kept

/-- An exchange of a run that commits a job: the memory is a stage of the plan, and
a WRITE goes to a block that an address of the data area is in. -/
def Staged (tag : Tag σ ε) (base : Memory) (pages : List (List (Nat × UInt8)))
    (exchange : Exchange σ) : Prop :=
  (∃ k ≤ pages.length, tag.memory exchange.after = planned base pages k) ∧
  ∀ block, exchange.IsWrite block → ∃ addr offset, 16 ≤ addr ∧
    MemoryLayout.addressToSectorBlock addr = some (tag.active exchange.before, block, offset)

/-- A WRITE frame carries one block number. -/
theorem isWrite_block {serving : Option Nat} {before after : σ} {sector : SectorState}
    {block carried : UInt8} {page : Vector UInt8 4}
    (wrote : Exchange.IsWrite ⟨serving, .command (Command.write carried page).toBytes,
      before, after, sector⟩ block) : block = carried := by
  obtain ⟨data, same⟩ := wrote
  simp only [Command.toBytes, List.cons_append, List.nil_append, Frame.command.injEq,
    List.cons.injEq, true_and] at same
  exact same.1.symm

/-- A quiet exchange is one at the first stage of any plan. -/
theorem Quiet.staged {base : Memory} {exchange : Exchange σ} (quiet : Quiet tag base exchange)
    (pages : List (List (Nat × UInt8))) : Staged tag base pages exchange := by
  refine ⟨⟨0, Nat.zero_le _, quiet.2⟩, fun block wrote => ?_⟩
  have isWrite := wrote.isWrite
  rw [quiet.1] at isWrite
  cases isWrite

/-- Committing a job goes through the stages of its plan, and ends, when it
returns, with the last. -/
theorem commitWrite_staged {job : WriteJob} {cc : CapabilityContainer} {tlvs : List Tlv}
    (plan : job.Planned build cc tlvs ndefData) (coherent : Coherent build tag m) :
    Ensures (commitWrite build tag.toTransceiver job)
      (fun _ next => Held build tag m.trace (Staged tag (tag.memoryOf m) job.pages)
        (· = planned (tag.memoryOf m) job.pages job.pages.length) next)
      (fun _ next => Held build tag m.trace (Staged tag (tag.memoryOf m) job.pages)
        (fun memory => ∃ k ≤ job.pages.length, memory = planned (tag.memoryOf m) job.pages k) next)
      m := by
  refine plan.commitWrite_rule (Held.writes ?_ ?_) m (held_start coherent _)
  · intro exchange other stage
    refine ⟨stage, fun block wrote => ?_⟩
    have isWrite := wrote.isWrite
    rw [other] at isWrite
    cases isWrite
  · intro k addr sector block offset page before after inside start located active memory
    refine ⟨memory.elim (fun same => ⟨k, inside.le, same⟩) fun same => ⟨k + 1, inside, same⟩, ?_⟩
    intro carried wrote
    obtain rfl := isWrite_block wrote
    exact ⟨addr, offset, start, active ▸ located⟩

end

end NfcForumTags
