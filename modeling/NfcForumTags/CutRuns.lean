import NfcForumTags.WriteRuns

/-!
# Cut runs

A write to a tag that leaves the field is not repeated past the first lost WRITE, so
the WRITEs applied are counted by the stage of the plan that the memory is in.
-/
namespace NfcForumTags

open Program

section

variable {σ ε : Type} {build : Build} {tag : CutTag σ ε}

/-- The number of WRITEs a machine's tag has applied. -/
def CutTag.appliedOf (tag : CutTag σ ε) (m : Machine σ) : Nat := tag.applied m.reader.transceiver

/-- The memory of a stage, with a WRITE applied for each of its pages. -/
def Progress (tag : CutTag σ ε) (base : Memory) (count : Nat) (pages : List (List (Nat × UInt8)))
    (k : Nat) (state : σ) : Prop :=
  tag.memory state = planned base pages k ∧ tag.applied state = count + k

/-- What attempts at the next page have come to: they have not changed anything, or one
was applied and the tag is gone. -/
def Attempted (tag : CutTag σ ε) (base : Memory) (count : Nat) (pages : List (List (Nat × UInt8)))
    (k : Nat) (state : σ) : Prop :=
  Progress tag base count pages k state ∨
    Progress tag base count pages (k + 1) state ∧ tag.gone state = true

variable {base : Memory} {count : Nat} {pages : List (List (Nat × UInt8))} {k : Nat}

/-- Attempts come to a stage. -/
theorem Attempted.stage {state : σ} (attempted : Attempted tag base count pages k state)
    (inside : k < pages.length) : ∃ k ≤ pages.length, Progress tag base count pages k state :=
  attempted.elim (fun progress => ⟨k, inside.le, progress⟩) fun progress =>
    ⟨k + 1, inside, progress.1⟩

/-- A command that changes neither memory nor count keeps the progress. -/
theorem Progress.congr {state next : σ} (progress : Progress tag base count pages k state)
    (memory : tag.memory next = tag.memory state) (applied : tag.applied next = tag.applied state) :
    Progress tag base count pages k next :=
  ⟨memory.trans progress.1, applied.trans progress.2⟩

/-- Selections change neither memory nor count. -/
theorem Progress.select (tag : CutTag σ ε) (base : Memory) (count : Nat)
    (pages : List (List (Nat × UInt8))) (k : Nat) :
    SurvivesSelect tag.toTransceiver (fun m => Progress tag base count pages k m.reader.transceiver)
      fun m => Progress tag base count pages k m.reader.transceiver :=
  .ofState (fun state progress => progress.congr (tag.part1_memory state) (tag.applied_part1 state))
    fun state sector progress =>
      progress.congr (tag.part2_memory state sector) (tag.applied_part2 state sector)

/-- Reading keeps the progress. -/
theorem Progress.reads (build : Build) (tag : CutTag σ ε) (base : Memory) (count : Nat)
    (pages : List (List (Nat × UInt8))) (k : Nat) :
    Reads build tag.toTransceiver (fun m => Progress tag base count pages k m.reader.transceiver)
      (fun m => Progress tag base count pages k m.reader.transceiver) fun _ _ => True :=
  .ofState (Progress.select tag base count pages k) fun state block progress =>
    progress.congr (tag.read_memory state block) (tag.applied_read state block)

/-- A tag that is gone stays gone. -/
theorem CutTag.gone_stays (tag : CutTag σ ε) {state : σ} (gone : tag.gone state = true)
    (cmd : List UInt8) : tag.gone (tag.transceive cmd state).2 = true := by
  obtain ⟨⟨error, lost⟩, -⟩ := tag.gone_command state cmd gone
  exact tag.lost state cmd error lost

/-- Selections between two attempts change nothing. -/
theorem Attempted.select (tag : CutTag σ ε) (base : Memory) (count : Nat)
    (pages : List (List (Nat × UInt8))) (k : Nat) :
    SurvivesSelect tag.toTransceiver (fun m =>
      Attempted tag base count pages k m.reader.transceiver)
      fun m => Attempted tag base count pages k m.reader.transceiver := by
  refine .ofState (fun state attempted => ?_) fun state sector attempted => ?_
  · refine attempted.imp (fun progress => ?_) fun ⟨progress, gone⟩ => ⟨?_, tag.gone_stays gone _⟩
    · exact progress.congr (tag.part1_memory state) (tag.applied_part1 state)
    · exact progress.congr (tag.part1_memory state) (tag.applied_part1 state)
  · refine attempted.imp (fun progress => ?_) fun ⟨progress, gone⟩ => ⟨?_, tag.gone_packet _ _ gone⟩
    · exact progress.congr (tag.part2_memory state sector) (tag.applied_part2 state sector)
    · exact progress.congr (tag.part2_memory state sector) (tag.applied_part2 state sector)

/-- One attempt at the next page: lost, the tag is gone, with the page applied or not. -/
theorem Attempted.sent {state : σ} (attempted : Attempted tag base count pages k state)
    {sector : UInt8} (block : UInt8) (page : Vector UInt8 4) (active : tag.active state = sector)
    (stores : storeBlock (planned base pages k) sector block page = planned base pages (k + 1)) :
    let sent := tag.transceive (Command.write block page).toBytes state
    (∀ error, sent.1 = .error error → Attempted tag base count pages k sent.2) ∧
    ∀ raw, sent.1 = .ok raw → (Progress tag base count pages k sent.2 ∨
      Progress tag base count pages (k + 1) sent.2) ∧
      ((Command.write block page).parseAnswer raw = .ok .ack →
        Progress tag base count pages (k + 1) sent.2) := by
  intro sent
  rcases attempted with ⟨memory, applied⟩ | ⟨progress, gone⟩
  · have stored : storeBlock (tag.memory state) (tag.active state) block page =
        planned base pages (k + 1) := by
      rw [memory, active, stores]
    have effect : Progress tag base count pages k sent.2 ∨
        Progress tag base count pages (k + 1) sent.2 :=
      (tag.applied_write state block page).imp
        (fun same => ⟨same.1.trans memory, same.2.trans applied⟩)
        fun change => ⟨change.1.trans stored, change.2.trans (by rw [applied, Nat.add_assoc])⟩
    refine ⟨fun error lost => effect.imp id fun progress => ⟨progress, tag.lost _ _ error lost⟩,
      fun raw answered => ⟨effect, fun acked => ⟨?_, ?_⟩⟩⟩
    · exact (tag.write_acked state block page raw answered acked).trans stored
    · exact (tag.applied_acked state block page raw answered acked).trans
        (by rw [applied, Nat.add_assoc])
  · obtain ⟨⟨error, lost⟩, memory, applied⟩ :=
      tag.gone_command state (Command.write block page).toBytes gone
    refine ⟨fun _ _ => Or.inr ⟨progress.congr memory applied, tag.gone_stays gone _⟩, ?_⟩
    intro raw answered
    have both := answered.symm.trans lost
    cases both

/-- A plan is written on a tag that may leave the field: at every point one WRITE has
been applied for each page written. -/
theorem Progress.writes (build : Build) (tag : CutTag σ ε) (past : List (Exchange σ))
    (base : Memory) (count : Nat) (pages : List (List (Nat × UInt8))) :
    Writes build tag.toTransceiver base pages
      (fun k m => Held build tag.toTag past (fun _ => True) (· = planned base pages k) m ∧
        Progress tag base count pages k m.reader.transceiver)
      (fun k m => Held build tag.toTag past (fun _ => True)
          (fun memory => memory = planned base pages k ∨ memory = planned base pages (k + 1)) m ∧
        Attempted tag base count pages k m.reader.transceiver)
      (fun m => ∃ k ≤ pages.length, Progress tag base count pages k m.reader.transceiver) := by
  have held : Writes build tag.toTransceiver base pages
      (fun k => Held build tag.toTag past (fun _ => True) (· = planned base pages k)) _ _ :=
    Held.writes (fun _ _ _ => trivial) fun _ _ _ _ _ _ _ _ _ _ _ _ _ => trivial
  refine ⟨fun k inside => ?_, fun k inside => ?_, fun k m inside holds => ?_, ?_⟩
  · exact ((held.reads k inside).and (Progress.reads build tag base count pages k)).weaken
      fun m both => ⟨k, inside, both.2⟩
  · exact ((held.select k inside).and (Attempted.select tag base count pages k)).weaken
      fun m both => both.2.stage inside
  · exact ⟨held.attempts k m inside holds.1, Or.inl holds.2⟩
  · intro k addr sector block offset page inside start located stores
    have sends := held.sends k addr sector block offset page inside start located stores
    constructor
    · rintro m error ⟨⟨here, attempted⟩, served⟩ known lost
      have after := (attempted.sent block page (here.coherent.tracks sector known)
        stores).1 error lost
      have kept := (sends.lost m error ⟨here, served⟩ known lost).1
      exact ⟨⟨⟨kept.1, after⟩, kept.2⟩, after.stage inside⟩
    · rintro m raw ⟨⟨here, attempted⟩, served⟩ known answered
      obtain ⟨effect, acked⟩ :=
        (attempted.sent block page (here.coherent.tracks sector known) stores).2 raw answered
      have kept := sends.answered m raw ⟨here, served⟩ known answered
      refine ⟨fun ack => ⟨kept.1 ack, acked ack⟩, fun _ => ?_⟩
      exact effect.elim (fun progress => ⟨k, inside.le, progress⟩)
        fun progress => ⟨k + 1, inside, progress⟩

end

/-- The run of a write to the tag that is cut after some WRITEs. -/
def cutRun (state : FlatState) (writes : Nat) (ndefData : List UInt8) : Machine CutState :=
  stateAfter (writeNdef .alloc cutTag.toTransceiver ndefData) (.fresh ⟨state, writes, 0⟩)

end NfcForumTags
