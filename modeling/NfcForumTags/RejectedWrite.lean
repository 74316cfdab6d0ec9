import NfcForumTags.WriteRuns

/-!
# A rejected write

`write_ndef` sends its first WRITE only when it has planned a job, and the job's
capacity check, made on usable bytes, implies every address bound of the page
loop. So on a tag that answers everything nothing can stop it from then on: if it
returns an error, it has not written at all.
-/
namespace NfcForumTags

open Program

section

variable {σ ε : Type} {build : Build}

/-- The exchange carried no WRITE. -/
def Exchange.NoWrite (exchange : Exchange σ) : Prop := exchange.frame.isWrite = false

/-- Reading sends no WRITE, whatever the transceiver does. -/
theorem reads_noWrite (build : Build) (t : Transceiver σ ε) (past : List (Exchange σ)) :
    Reads build t (Logged past Exchange.NoWrite) (Logged past Exchange.NoWrite) fun _ _ => True :=
  Reads.logged fun _ quiet => quiet

/-- On a tag that answers everything no exchange fails. -/
theorem faultFree_keeps (build : Build) (tag : FaultFreeTag σ ε) :
    Keeps build tag.toTransceiver (fun _ => True) fun _ => False where
  reads := {
    serve := fun _ _ _ => trivial
    select := {
      forget := fun _ _ => trivial
      part1 := fun _ _ _ _ _ _ _ => trivial
      part1_lost := by
        intro m error _ _ _ lost
        obtain ⟨raw, answered, -⟩ := tag.selects1 m.reader.transceiver
        rw [answered] at lost
        cases lost
      part1_refused := by
        intro m raw _ _ _ answered refused
        obtain ⟨good, same, acked⟩ := tag.selects1 m.reader.transceiver
        rw [same] at answered
        obtain rfl := Except.ok.inj answered
        exact refused acked
      part2_refused := fun m sector _ _ _ refused =>
        refused (tag.selects2 m.reader.transceiver sector)
      selected := fun _ _ _ _ _ _ => trivial }
    sends := by
      intro serving intended block aimed
      obtain answers := fun m : Machine σ => tag.reads m.reader.transceiver block
      constructor
      · intro m error _ _ lost
        obtain ⟨raw, answered, -⟩ := answers m
        rw [answered] at lost
        cases lost
      · intro m raw _ _ answered
        refine ⟨fun _ _ => ⟨trivial, fun _ _ _ _ _ => trivial⟩, fun short => ?_⟩
        obtain ⟨good, same, long⟩ := answers m
        rw [same] at answered
        obtain rfl := Except.ok.inj answered
        obtain ⟨data, parsed⟩ := Command.parseAnswer_read_of_long block long
        exact short data parsed
    cached := fun _ _ _ _ _ _ _ _ _ => trivial }
  writes := by
    intro serving intended block page aimed
    constructor
    · intro m error _ _ lost
      obtain ⟨raw, answered, -⟩ := tag.acks m.reader.transceiver block page
      rw [answered] at lost
      cases lost
    · intro m raw _ _ answered
      refine ⟨fun _ => trivial, fun nacked => ?_⟩
      obtain ⟨good, same, acked⟩ := tag.acks m.reader.transceiver block page
      rw [same] at answered
      obtain rfl := Except.ok.inj answered
      exact nacked acked

/-- A prepared job has passed the checks of `planWrite`, whatever was read. -/
theorem prepareWrite_planned {t : Transceiver σ ε} {ndefData : List UInt8} {m next : Machine σ}
    {job : WriteJob} (prepares : prepareWrite build t ndefData m = .ok job next) :
    ∃ cc tlvs, planWrite build cc tlvs ndefData = .ok job := by
  have ensured : Ensures (prepareWrite build t ndefData)
      (fun job _ => ∃ cc tlvs, planWrite build cc tlvs ndefData = .ok job) (fun _ _ => True) m := by
    unfold prepareWrite
    simp only [ensures_bind]
    refine ensures_always (fun cc _ => ?_) fun _ _ => trivial
    refine ensures_always (fun _ _ => ?_) fun _ _ => trivial
    refine ensures_always (fun _ _ => ?_) fun _ _ => trivial
    refine ensures_always (fun _ _ => ?_) fun _ _ => trivial
    refine ensures_always (fun tlvs _ => ?_) fun _ _ => trivial
    rw [ensures_orProtocol]
    exact ⟨fun job plans => ⟨cc, tlvs, plans⟩, fun _ _ => trivial⟩
  exact ensured.returned prepares

/-- On a tag that answers everything, from any state of the reader and in any build:
when `write_ndef` returns an error it has sent no WRITE, because once a job is
planned neither of its page loops is refused.

Proof: a planned job fits below its limit, and a tag that answers everything never fails a
selection or WRITE, so the commit returns; an error is then one of the preparation, whose
log has no WRITE. -/
theorem writeNdef_error_silent (build : Build) (tag : FaultFreeTag σ ε) (ndefData : List UInt8)
    (m : Machine σ) :
    (∀ error next, writeNdef build tag.toTransceiver ndefData m = .error error next →
      ∃ recent, next.trace = m.trace ++ recent ∧ writesOf recent = []) ∧
    ∀ job prepared, prepareWrite build tag.toTransceiver ndefData m = .ok job prepared →
      ∃ next, commitWrite build tag.toTransceiver job prepared = .ok () next := by
  have commits : ∀ job prepared,
      prepareWrite build tag.toTransceiver ndefData m = .ok job prepared →
      ∃ next, commitWrite build tag.toTransceiver job prepared = .ok () next := by
    intro job prepared prepares
    obtain ⟨cc, tlvs, plans⟩ := prepareWrite_planned prepares
    have never := (planWrite_ok plans).commitWrite_keeps (faultFree_keeps build tag)
      prepared trivial
    cases run : commitWrite build tag.toTransceiver job prepared with
    | ok value next => exact ⟨next, rfl⟩
    | error error next => exact (never.failed run).elim
  refine ⟨fun error next run => ?_, commits⟩
  simp only [writeNdef, bind, EStateM.bind] at run
  cases prepares : prepareWrite build tag.toTransceiver ndefData m with
  | ok job prepared =>
    rw [prepares] at run
    obtain ⟨last, returns⟩ := commits job prepared prepares
    simp only [returns] at run
    cases run
  | error refusal prepared =>
    rw [prepares] at run
    obtain ⟨rfl, rfl⟩ := EStateM.Result.error.inj run
    have quiet := ((reads_noWrite build tag.toTransceiver m.trace).prepareWrite_rule ndefData m
      (logged_start m)).kept
    obtain ⟨recent, trace, each⟩ := quiet.failed prepares
    refine ⟨recent, trace, List.filter_eq_nil_iff.mpr fun exchange member => ?_⟩
    rw [each exchange member]
    exact Bool.false_ne_true

end

end NfcForumTags
