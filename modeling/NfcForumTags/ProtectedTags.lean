import NfcForumTags.FaultyRuns

/-!
# Tags that deny writing

Only `write_ndef` may write for its caller, and it asks the Capability Container first. So
however often it is called, and whatever fails, a tag whose container is not valid or does
not grant access receives no WRITE, and any tag keeps the bytes before its data area.
-/
namespace NfcForumTags

open Program

/-- No job is planned without a valid container that grants access. -/
theorem jobOf_denied {memory : Memory}
    (denied : ∀ cc, ccOf memory = .ok cc → cc.isValid = false ∨ cc.writeAccess ≠ .granted)
    (message : List UInt8) (job : WriteJob) : jobOf build message memory ≠ .ok job := by
  intro plans
  obtain ⟨cc, -, -, parsed, valid, granted, -⟩ := jobOf_ok plans
  rcases denied cc parsed with invalid | refused
  · rw [valid] at invalid
    cases invalid
  · exact refused granted

section

variable {σ ε : Type} {build : Build} {tag : Tag σ ε} {base : Memory} {past : List (Exchange σ)}
  {m : Machine σ}

/-- Where no job can be planned, no call but a WRITE of the caller's own sends a WRITE. -/
theorem Held.quiet_call (held : Held build tag past (Quiet tag base) (· = base) m)
    (denied : ∀ message job, jobOf build message base ≠ .ok job) (call : Call)
    (indirect : call.writesBlock = false) :
    Held build tag past (Quiet tag base) (· = base) (call.after build tag.toTransceiver m) := by
  have reads := quiet_reads build tag past base
  apply Ensures.always
  cases call with
  | setMaxRetries n =>
    exact ⟨held.coherent.congr rfl rfl rfl rfl, held.memory, held.logged.congr rfl⟩
  | invalidateCache => exact ⟨held.coherent.uncache, held.memory, held.logged.uncache⟩
  | markTagStateUnknown => exact reads.select.forget m held
  | read block =>
    have logs : ∀ exchange : Exchange σ, exchange.frame.isWrite = false →
        tag.memory exchange.after = base →
        Quiet tag base exchange := fun _ other same => ⟨other, same⟩
    have idle : Held build tag past (Quiet tag base) (· = base) { m with serving := none } :=
      ⟨held.coherent.congr rfl rfl rfl rfl, held.memory, held.logged.congr rfl⟩
    have sends := Held.sendsRead build tag past (M := (· = base)) logs (fun _ held => held) none
      m.reader.sector block
    unfold Call.run NfcForumTags.idle
    rw [ensures_bind, ensures_modify]
    refine (read_rule (fun _ next => Held build tag past (Quiet tag base) (· = base) next)
      (reads.select.serving none) block _ ⟨idle, rfl⟩ (fun _ => idle)
      ⟨sends.lost, fun next raw kept tracked answered => ?_⟩).bind (fun _ _ left => left)
        fun _ _ kept => kept.1
    obtain ⟨kept, -, stored⟩ := sends.answered next raw kept tracked answered
    exact ⟨fun data parsed => (stored data parsed).1, fun _ => kept⟩
  | write block data => cases indirect
  | sectorSelect sector =>
    exact (sectorSelect_rule reads.select sector m held fun _ => held).bind
      (fun _ _ left => left) fun _ _ kept => kept.1
  | readCc => exact (reads.readCc_rule m held).kept.bind (fun _ _ left => left) fun _ _ kept => kept
  | readDataArea layout =>
    exact (reads.readDataArea_rule layout m held).kept.bind (fun _ _ left => left)
      fun _ _ kept => kept
  | readNdef =>
    exact (reads.readNdef_rule m held).kept.bind (fun _ _ left => left) fun _ _ kept => kept
  | writeNdef ndefData =>
    change Ensures (writeNdef build tag.toTransceiver ndefData >>= _) _ _ m
    unfold NfcForumTags.writeNdef
    rw [bind_assoc]
    refine Ensures.bind (reads.prepareWrite_rule ndefData m held) ?_ ?_
    · rintro error next (left | ⟨kept, -⟩)
      · exact left
      · exact kept
    · rintro job next ⟨-, plans⟩
      exact absurd (plans base fun _ _ seen => seen) (denied ndefData job)

/-- Nor does a run of such calls.

Induction on the calls. -/
theorem Held.quiet_run (held : Held build tag past (Quiet tag base) (· = base) m)
    (denied : ∀ message job, jobOf build message base ≠ .ok job) (calls : List Call)
    (indirect : ∀ call ∈ calls, call.writesBlock = false) :
    Held build tag past (Quiet tag base) (· = base) (runCalls build tag.toTransceiver calls m) := by
  induction calls generalizing m with
  | nil => exact held
  | cons call calls inductionHypothesis =>
    obtain ⟨first, rest⟩ := List.forall_mem_cons.mp indirect
    exact inductionHypothesis (held.quiet_call denied call first) rest

/-- On any tag in sector 0, with any errors of the transceiver, after any run of calls on a
new reader without a WRITE of the caller's own: the bytes before the data area are the
original ones; and if the Capability Container cannot be parsed, is not valid or does not
grant access, then no WRITE was sent, all of the memory is the original one, and every
`write_ndef` has failed.

Proof: the run is one of views, and of these steps only a WRITE of the caller's own changes
a byte ahead of the data area. Where the container refuses, no job can be planned on a
memory that is still the original one, so no call sends a WRITE. -/
theorem protected_run (build : Build) (tag : Tag σ ε) (state : σ) (inSector0 : tag.active state = 0)
    (calls : List Call) (indirect : ∀ call ∈ calls, call.writesBlock = false) :
    let m := runCalls build tag.toTransceiver calls (.fresh state)
    let returned := calls.zip (replies build tag.toTransceiver calls (.fresh state))
    (∀ addr < 16, tag.memoryOf m addr = tag.memory state addr) ∧
    ((∀ cc, ccOf (tag.memory state) = .ok cc → cc.isValid = false ∨ cc.writeAccess ≠ .granted) →
      (∀ exchange ∈ m.trace, exchange.frame.isWrite = false) ∧
      tag.memoryOf m = tag.memory state ∧
      ∀ entry ∈ returned, ∀ message, entry.1 = .writeNdef message →
          ∃ error, entry.2 = .error error) := by
  intro m returned
  have coherent := fresh_coherent build tag state inSector0
  have evolution := coherent.evolution calls
  have calm : ∀ entry ∈ returned, entry.1.writesBlock = false :=
    fun entry member => indirect entry.1 (List.of_mem_zip member).1
  refine ⟨fun addr below => evolution.header calm below, fun refuses => ?_⟩
  have denied : ∀ message job, jobOf build message (tag.memory state) ≠ .ok job :=
    jobOf_denied refuses
  have held := (held_start coherent (Quiet tag (tag.memory state))).quiet_run denied calls indirect
  obtain ⟨recent, trace, each⟩ := held.logged
  refine ⟨fun exchange member => ?_, evolution.denied calm denied⟩
  rw [show m.trace = recent from trace] at member
  exact (each exchange member).1

/-- A static tag whose container denies writing, and the second exchange is lost. -/
def deniedState : ScheduledState :=
  ⟨⟨fun addr => [0xE1, 0x10, 0x06, 0x0F, 0x03, 0x00, 0xFE].getD (addr - 12) 0, 0⟩,
    [none, some ⟨false, 0⟩]⟩

/-- Written twice, once through the loss, it stays what it is. -/
theorem protected_run_denied :
    let calls : List Call := [.writeNdef [0xD1, 0x01], .readNdef, .writeNdef []]
    let m := runCalls .alloc scheduledTag.toTransceiver calls (.fresh deniedState)
    (∀ exchange ∈ m.trace, exchange.frame.isWrite = false) ∧
        scheduledTag.memoryOf m = deniedState.tag.memory := by
  intro calls m
  have indirect : ∀ call ∈ calls, call.writesBlock = false := by simp [calls, Call.writesBlock]
  have container : ccOf deniedState.tag.memory =
    .ok ⟨1, 0, 6, .granted, .denied⟩ := by decide +kernel
  obtain ⟨quiet, memory, -⟩ :=
      (protected_run .alloc scheduledTag deniedState rfl calls indirect).2 (by
    intro cc parsed
    obtain rfl := Except.ok.inj (container.symm.trans parsed)
    exact Or.inr (by decide))
  exact ⟨quiet, memory⟩

end

end NfcForumTags
