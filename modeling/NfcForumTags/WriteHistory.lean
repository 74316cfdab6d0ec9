import NfcForumTags.Confinement
import NfcForumTags.Cache
import Mathlib.Data.List.Chain

/-!
# The history of a write

Between two WRITEs that get through, commands may be lost, applied without an answer,
and sent again. None of this shows in the order of things: the memories of a run of
`write_ndef` are stages of its plan that never go back, and none is passed over.
-/
namespace NfcForumTags

open Program

section

variable {σ ε : Type} {build : Build} {tag : Tag σ ε} {base : Memory}
  {pages : List (List (Nat × UInt8))} {past : List (Exchange σ)} {k : Nat} {m : Machine σ}

/-- The stages from the first on stay or advance by one. -/
def Advancing (stages : List Nat) : Prop :=
  (0 :: stages).IsChain fun before after => before ≤ after ∧ after ≤ before + 1

/-- A stage after the last one. -/
theorem Advancing.concat {stages : List Nat} (advancing : Advancing stages) {next : Nat}
    (last : (0 :: stages).getLast? = some k) (step : k ≤ next ∧ next ≤ k + 1) :
    Advancing (stages ++ [next]) := by
  unfold Advancing
  rw [← List.cons_append, List.isChain_append]
  refine ⟨advancing, List.isChain_singleton _, fun before ends after starts => ?_⟩
  obtain rfl : k = before := Option.some.inj (last.symm.trans ends)
  obtain rfl : next = after := Option.some.inj starts
  exact step

/-- The tag holds stage `k`, and the exchanges since `past` have led there stage by stage. -/
structure History (tag : Tag σ ε) (base : Memory) (pages : List (List (Nat × UInt8)))
    (past : List (Exchange σ)) (k : Nat) (m : Machine σ) : Prop where
  memory : tag.memoryOf m = planned base pages k
  stages : ∃ recent stages, m.trace = past ++ recent ∧
    recent.map (fun exchange => tag.memory exchange.after) = stages.map (planned base pages) ∧
    Advancing stages ∧ (0 :: stages).getLast? = some k ∧ ∀ stage ∈ stages, stage ≤ k

/-- Nothing has been exchanged at the first stage. -/
theorem history_start (memory : tag.memoryOf m = base) : History tag base pages m.trace 0 m :=
  ⟨memory, [], [], by simp, rfl, List.isChain_singleton 0, rfl, by simp⟩

/-- An exchange that leaves this stage or the next. -/
theorem History.exchanged (history : History tag base pages past k m) (frame : Frame) (after : σ)
    {next : Nat} (step : k ≤ next ∧ next ≤ k + 1)
    (memory : tag.memory after = planned base pages next) :
    History tag base pages past next (m.exchanged frame after) := by
  obtain ⟨recent, stages, trace, same, advancing, last, below⟩ := history.stages
  refine ⟨memory, recent ++ [⟨m.serving, frame, m.reader.transceiver, after, m.reader.sector⟩],
    stages ++ [next], ?_, ?_, advancing.concat last step, ?_, ?_⟩
  · rw [Machine.exchanged, trace, List.append_assoc]
  · rw [List.map_append, List.map_append, same]
    exact congrArg (stages.map _ ++ [·]) memory
  · rw [← List.cons_append, List.getLast?_concat]
  · intro stage member
    rcases List.mem_append.mp member with earlier | now
    · exact (below stage earlier).trans step.1
    · rw [List.mem_singleton.mp now]

/-- An exchange that leaves the memory. -/
theorem History.stays (history : History tag base pages past k m) (frame : Frame) {after : σ}
    (same : tag.memory after = tag.memoryOf m) :
    History tag base pages past k (m.exchanged frame after) :=
  history.exchanged frame after ⟨le_refl k, Nat.le_succ k⟩ (same.trans history.memory)

/-- Only exchanges make history. -/
theorem History.congr {next : Machine σ} (history : History tag base pages past k m)
    (trace : next.trace = m.trace) (transceiver : next.reader.transceiver = m.reader.transceiver) :
    History tag base pages past k next := by
  obtain ⟨recent, stages, shape, rest⟩ := history.stages
  refine ⟨?_, recent, stages, trace.trans shape, rest⟩
  rw [Tag.memoryOf, transceiver]
  exact history.memory

/-- Selections stay at a stage. -/
theorem History.select (tag : Tag σ ε) (base : Memory) (pages : List (List (Nat × UInt8)))
    (past : List (Exchange σ)) (k : Nat) :
    SurvivesSelect tag.toTransceiver (History tag base pages past k)
      (History tag base pages past k) :=
  .ofSent (fun _ history => history.congr rfl rfl)
    (fun m history => history.stays _ (tag.part1_memory m.reader.transceiver))
    (fun m sector history => history.stays _ (tag.part2_memory m.reader.transceiver sector))
    fun _ _ history _ _ => history.congr rfl rfl

/-- So does reading. -/
theorem History.reads (build : Build) (tag : Tag σ ε) (base : Memory)
    (pages : List (List (Nat × UInt8))) (past : List (Exchange σ)) (k : Nat) :
    Reads build tag.toTransceiver (History tag base pages past k) (History tag base pages past k)
      fun _ _ => True where
  serve := fun _ _ history => history.congr rfl rfl
  select := History.select tag base pages past k
  sends := fun serving intended block aimed => {
    lost := fun m error holds known lost =>
      have kept := holds.1.stays (.command (Command.read block).toBytes)
        (tag.read_memory m.reader.transceiver block)
      ⟨⟨kept.congr rfl rfl, holds.2⟩, kept.congr rfl rfl⟩
    answered := fun m raw holds known answered => by
      have kept := holds.1.stays (.command (Command.read block).toBytes)
        (tag.read_memory m.reader.transceiver block)
      refine ⟨fun data parsed => ⟨?_, fun _ _ _ _ _ => trivial⟩, fun _ => kept⟩
      unfold Machine.store
      split <;> exact kept.congr rfl rfl }
  cached := fun _ _ _ _ _ _ _ _ _ => trivial

/-- At some stage of the plan. -/
def Historic (tag : Tag σ ε) (base : Memory) (pages : List (List (Nat × UInt8)))
    (past : List (Exchange σ)) (m : Machine σ) : Prop :=
  ∃ k ≤ pages.length, History tag base pages past k m

/-- At a stage or the next one. -/
def Underway (tag : Tag σ ε) (base : Memory) (pages : List (List (Nat × UInt8)))
    (past : List (Exchange σ)) (k : Nat) (m : Machine σ) : Prop :=
  History tag base pages past k m ∨ History tag base pages past (k + 1) m

/-- A write is as far underway as the trace and the transceiver say. -/
theorem Underway.congr {next : Machine σ} (underway : Underway tag base pages past k m)
    (trace : next.trace = m.trace) (transceiver : next.reader.transceiver = m.reader.transceiver) :
    Underway tag base pages past k next :=
  underway.imp (·.congr trace transceiver) (·.congr trace transceiver)

/-- A page that is underway leaves the plan at one of its stages. -/
theorem Underway.historic (underway : Underway tag base pages past k m)
    (inside : k < pages.length) :
    Historic tag base pages past m :=
  underway.elim (fun history => ⟨k, inside.le, history⟩) fun history => ⟨k + 1, inside, history⟩

/-- An exchange that leaves the next stage. -/
theorem Underway.advances (underway : Underway tag base pages past k m) (frame : Frame) {after : σ}
    (memory : tag.memory after = planned base pages (k + 1)) :
    History tag base pages past (k + 1) (m.exchanged frame after) :=
  underway.elim (·.exchanged frame after ⟨Nat.le_succ k, le_refl _⟩ memory)
    (·.exchanged frame after ⟨le_refl _, Nat.le_succ _⟩ memory)

/-- A WRITE of the next page leaves the stage it was sent at, or the next one; sent again,
it stays at the next one. -/
theorem Underway.wrote {sector block : UInt8} {page : Vector UInt8 4}
    (coherent : Coherent build tag m)
    (known : m.reader.sector = .known sector)
    (stores : storeBlock (planned base pages k) sector block page = planned base pages (k + 1))
    (underway : Underway tag base pages past k m) :
    Underway tag base pages past k (m.sent tag.toTransceiver
      (Command.write block page).toBytes) := by
  have active : tag.active m.reader.transceiver = sector := coherent.tracks sector known
  rcases tag.write_memory m.reader.transceiver block page with same | applied
  · exact underway.imp (·.stays _ same) (·.stays _ same)
  · refine Or.inr (underway.advances _ (applied.trans ?_))
    rw [active]
    rcases underway with history | history
    · rw [show tag.memory m.reader.transceiver = _ from history.memory, stores]
    · rw [show tag.memory m.reader.transceiver = _ from history.memory, ← stores, storeBlock_again]

/-- Either of two invariants outlasts a selection. -/
theorem SurvivesSelect.or {t : Transceiver σ ε} {I I' E : Machine σ → Prop}
    (left : SurvivesSelect t I E)
    (right : SurvivesSelect t I' E) : SurvivesSelect t (fun m => I m ∨ I' m) E where
  forget := fun m either => either.imp (left.forget m) (right.forget m)
  part1 := fun m raw either unknown empty answered acked =>
    either.imp (left.part1 m raw · unknown empty answered acked)
      (right.part1 m raw · unknown empty answered acked)
  part1_lost := fun m error either unknown empty lost =>
    either.elim (left.part1_lost m error · unknown empty lost)
      (right.part1_lost m error · unknown empty lost)
  part1_refused := fun m raw either unknown empty answered refused =>
    either.elim (left.part1_refused m raw · unknown empty answered refused)
      (right.part1_refused m raw · unknown empty answered refused)
  part2_refused := fun m sector either unknown empty refused =>
    either.elim (left.part2_refused m sector · unknown empty refused)
      (right.part2_refused m sector · unknown empty refused)
  selected := fun m sector either allowed empty answered =>
    either.imp (left.selected m sector · allowed empty answered)
      (right.selected m sector · allowed empty answered)

/-- A plan is written stage by stage. -/
theorem History.writes (build : Build) (tag : Tag σ ε) (base : Memory)
    (pages : List (List (Nat × UInt8))) (past : List (Exchange σ)) :
    Writes build tag.toTransceiver base pages
      (fun k m => Held build tag past (fun _ => True) (· = planned base pages k) m ∧
        History tag base pages past k m)
      (fun k m => Held build tag past (fun _ => True)
          (fun memory => memory = planned base pages k ∨ memory = planned base pages (k + 1)) m ∧
        Underway tag base pages past k m)
      (Historic tag base pages past) := by
  have held : Writes build tag.toTransceiver base pages
      (fun k => Held build tag past (fun _ => True) (· = planned base pages k)) _ _ :=
    Held.writes (fun _ _ _ => trivial) fun _ _ _ _ _ _ _ _ _ _ _ _ _ => trivial
  refine ⟨fun k inside => ?_, fun k inside => ?_, fun k m inside holds => ?_, ?_⟩
  · exact ((held.reads k inside).and (History.reads build tag base pages past k)).weaken
      fun _ both => ⟨k, inside, both.2⟩
  · have here := (History.select tag base pages past k).weaken fun _ history =>
      (⟨k, inside.le, history⟩ : Historic tag base pages past _)
    have ahead := (History.select tag base pages past (k + 1)).weaken fun _ history =>
      (⟨k + 1, inside, history⟩ : Historic tag base pages past _)
    exact ((held.select k inside).and (here.or ahead)).weaken fun _ both => both.2
  · exact ⟨held.attempts k m inside holds.1, Or.inl holds.2⟩
  · intro k addr sector block offset page inside start located stores
    have sends := held.sends k addr sector block offset page inside start located stores
    constructor
    · rintro m error ⟨⟨here, underway⟩, served⟩ known lost
      have kept := (sends.lost m error ⟨here, served⟩ known lost).1
      have wrote := underway.wrote here.coherent known stores
      exact ⟨⟨⟨kept.1, wrote.congr rfl rfl⟩, kept.2⟩,
        Underway.historic (wrote.congr rfl rfl) inside⟩
    · rintro m raw ⟨⟨here, underway⟩, served⟩ known answered
      have kept := sends.answered m raw ⟨here, served⟩ known answered
      have wrote := underway.wrote here.coherent known stores
      exact ⟨fun acked => ⟨kept.1 acked, (underway.advances _ (kept.1 acked).memory).congr rfl rfl⟩,
        fun _ => Underway.historic (wrote.congr rfl rfl) inside⟩

/-- A run of `write_ndef` that can prepare a job goes through its stages. -/
theorem writeNdef_historic (coherent : Coherent build tag m) {ndefData : List UInt8}
    {job : WriteJob} (plans : jobOf build ndefData (tag.memoryOf m) = .ok job) :
    Ensures (writeNdef build tag.toTransceiver ndefData)
      (fun _ next => History tag (tag.memoryOf m) job.pages m.trace job.pages.length next)
      (fun _ next => Historic tag (tag.memoryOf m) job.pages m.trace next) m := by
  have reads := (quiet_reads build tag m.trace (tag.memoryOf m)).and
    (History.reads build tag (tag.memoryOf m) job.pages m.trace 0)
  have first : ∀ next, History tag (tag.memoryOf m) job.pages m.trace 0 next →
      Historic tag (tag.memoryOf m) job.pages m.trace next :=
    fun _ history => ⟨0, Nat.zero_le _, history⟩
  unfold writeNdef
  refine Ensures.bind (reads.prepareWrite_rule ndefData m
    ⟨held_start coherent _, history_start rfl⟩) ?_ ?_
  · rintro error next (left | ⟨kept, -⟩)
    · exact first next left.2
    · exact first next kept.2
  · rintro prepared next ⟨⟨held, history⟩, computed⟩
    have computed := computed (tag.memoryOf m) fun _ _ seen => seen
    obtain rfl : prepared = job := Except.ok.inj (computed.symm.trans plans)
    obtain ⟨cc, -, tlvs, -, -, -, -, -, planned⟩ := jobOf_ok plans
    obtain ⟨recent, stages, trace, -⟩ := history.stages
    have start : Held build tag m.trace (fun _ => True) (· = tag.memoryOf m) next :=
      ⟨held.coherent, held.memory, recent, trace, fun _ _ => trivial⟩
    exact ((planWrite_ok planned).commitWrite_rule
      (History.writes build tag (tag.memoryOf m) prepared.pages m.trace) next ⟨start, history⟩).mono
        (fun _ _ both => both.2) fun _ _ left => left

/-- On any tag in sector 0, with any errors of the transceiver, after any run of calls on a
new reader: where a job can be planned on the tag's memory, the memories after the
exchanges of `write_ndef` are stages of its plan, each the same as the one before, which
is at first the memory found, or the next one; and a `write_ndef` that returns ends with
the last.

Proof: along the commit the history of stages is extended by the stage that an exchange
leaves. A WRITE in place of the next page of the plan leaves that stage or the one before,
and no other exchange changes the memory. -/
theorem writeNdef_history (build : Build) (tag : Tag σ ε) (state : σ)
    (inSector0 : tag.active state = 0)
    (calls : List Call) {ndefData : List UInt8} {job : WriteJob}
    (plans : jobOf build ndefData
      (tag.memoryOf (runCalls build tag.toTransceiver calls (.fresh state))) = .ok job) :
    let m := runCalls build tag.toTransceiver calls (.fresh state)
    let next := stateAfter (writeNdef build tag.toTransceiver ndefData) m
    ∃ recent stages, next.trace = m.trace ++ recent ∧
      recent.map (fun exchange => tag.memory exchange.after) =
        stages.map (planned (tag.memoryOf m) job.pages) ∧
      (0 :: stages).IsChain (fun before after => before ≤ after ∧ after ≤ before + 1) ∧
      (∀ stage ∈ stages, stage ≤ job.pages.length) ∧
      (outcome (writeNdef build tag.toTransceiver ndefData) m = .ok () →
        (0 :: stages).getLast? = some job.pages.length) := by
  intro m next
  obtain ⟨returns, fails⟩ := ensures_iff.mp
    (writeNdef_historic (coherent_run build tag calls state inSector0) plans)
  cases ended : outcome (writeNdef build tag.toTransceiver ndefData) m with
  | ok value =>
    obtain ⟨-, recent, stages, trace, same, advancing, last, below⟩ := returns value ended
    exact ⟨recent, stages, trace, same, advancing, below, fun _ => last⟩
  | error error =>
    obtain ⟨k, inside, -, recent, stages, trace, same, advancing, last, below⟩ := fails error ended
    exact ⟨recent, stages, trace, same, advancing, fun stage member =>
      (below stage member).trans inside,
      fun returned => nomatch returned⟩

/-- The job of a message of two bytes on a static tag with an empty message. -/
def shortJob : WriteJob :=
  ⟨⟨48, [], []⟩, 0, 16, 64, [0x03, 0x00, 0xD1, 0x01, 0xFE], [0x02]⟩

/-- The first WRITE is applied but its answer lost; it is sent again, and all three pages
are written in order. -/
theorem writeNdef_history_lossy :
    let next := stateAfter (writeNdef .alloc scheduledTag.toTransceiver [0xD1, 0x01])
      (.fresh lossyState)
    ∃ stages, next.trace.map (fun exchange => exchange.after.tag.memory) =
        stages.map (planned lossyState.tag.memory shortJob.pages) ∧
      (0 :: stages).IsChain (fun before after => before ≤ after ∧ after ≤ before + 1) ∧
      (0 :: stages).getLast? = some 3 := by
  have plans : jobOf .alloc [0xD1, 0x01] (scheduledTag.memoryOf
      (runCalls .alloc scheduledTag.toTransceiver [] (.fresh lossyState))) = .ok shortJob := by
    decide +kernel
  obtain ⟨recent, stages, trace, same, chain, -, last⟩ :=
    writeNdef_history .alloc scheduledTag lossyState rfl [] plans
  have pages : shortJob.pages.length = 3 := by decide +kernel
  refine ⟨stages, (congrArg _ trace).trans same, chain, ?_⟩
  rw [← pages]
  exact last (by decide +kernel)

end

end NfcForumTags
