import NfcForumTags.RejectedWrite

/-!
# Operations that return what the memory says

A reading operation computes a function of the tag's memory until an exchange of its is
lost for good. If the machine it ends in shows that none was, it has returned that
function, refusals included, and left the memory; and `write_ndef` returns exactly when a
job can be planned on the memory, and then leaves the memory of its last page. On a tag
that answers everything no exchange is ever lost.
-/
namespace NfcForumTags

open Program

/-! ## Programs that settle -/

section

variable {σ ε α : Type} {build : Build} {tag : Tag σ ε} {R S E : Machine σ → Prop}
  {program : Operation σ ε α} {result : Except Type2Error α} {m : Machine σ}

/-- A program that leaves the memory and returns or refuses by this result, in a machine
with the property. -/
def Settles (build : Build) (tag : Tag σ ε) (R : Machine σ → Prop) (program : Operation σ ε α)
    (result : Except Type2Error α) (m : Machine σ) : Prop :=
  ∃ next, Coherent build tag next ∧ tag.memoryOf next = tag.memoryOf m ∧ R next ∧
    program m = match result with
      | .ok value => .ok value next
      | .error refusal => .error (.protocol refusal) next

namespace Settles

/-- A program that settles ends with its result. -/
theorem outcome_eq (settles : Settles build tag R program result m) :
    outcome program m = result.mapError .protocol := by
  obtain ⟨next, -, -, -, run⟩ := settles
  unfold outcome
  rw [run]
  cases result <;> rfl

/-- It returns the values of its result. -/
theorem outcome_iff (settles : Settles build tag R program result m) (value : α) :
    outcome program m = .ok value ↔ result = .ok value := by
  rw [settles.outcome_eq]
  cases result with
  | ok returned => simp [Except.mapError]
  | error refusal => simp [Except.mapError]

/-- A value made of what it returns is made of its result. -/
theorem outcome_map {β : Type} (settles : Settles build tag R program result m) (value : α → β) :
    outcome (program >>= fun returned => pure (value returned)) m =
      (result.map value).mapError .protocol := by
  obtain ⟨next, -, -, -, run⟩ := settles
  cases result with
  | ok returned =>
    unfold outcome
    rw [run_bind_ok run]
    rfl
  | error refusal =>
    unfold outcome
    rw [run_bind_error run]
    rfl

/-- When it returns, it leaves the reader coherent and the memory as it was. -/
theorem ensures (settles : Settles build tag R program result m) :
    Ensures program
      (fun value next => result = .ok value ∧ Coherent build tag next ∧
        tag.memoryOf next = tag.memoryOf m)
      (fun _ _ => True) m := by
  obtain ⟨next, coherent, memory, -, run⟩ := settles
  rw [Ensures, run]
  cases result with
  | ok value => exact ⟨rfl, coherent, memory⟩
  | error refusal => trivial

end Settles

/-- Reading from this machine on sees its memory; besides, it keeps `S`, and an exchange
lost for good leaves `E`. -/
def ReadsMemory (build : Build) (tag : Tag σ ε) (m : Machine σ) (S E : Machine σ → Prop) : Prop :=
  Reads build tag.toTransceiver
    (fun next => Held build tag m.trace (Quiet tag (tag.memoryOf m)) (· = tag.memoryOf m) next ∧
      S next)
    E fun addr byte => byte = tag.memoryOf m addr

/-- What reading loses says what `E` is. -/
theorem readsMemory_of (losing : Reads build tag.toTransceiver S E fun _ _ => True)
    (m : Machine σ) : ReadsMemory build tag m S E :=
  ((quiet_reads build tag m.trace (tag.memoryOf m)).and losing).weaken fun _ both => both.2

/-- An operation that computes a function of the memory settles with it, if its endings
have a property that a lost exchange would not have left. -/
theorem settles_of_computes {function : Memory → Except Type2Error α}
    (computes : Computes (fun next =>
        Held build tag m.trace (Quiet tag (tag.memoryOf m)) (· = tag.memoryOf m) next ∧ S next)
      E (fun addr byte => byte = tag.memoryOf m addr) program function m)
    (ends : Ensures program (fun _ next => R next) (fun _ next => R next) m)
    (never : ∀ next, R next → ¬ E next) :
    Settles build tag R program (function (tag.memoryOf m)) m := by
  have shows : Shows (fun addr byte => byte = tag.memoryOf m addr) (tag.memoryOf m) :=
    fun _ _ seen => seen
  cases run : program m with
  | ok value next =>
    obtain ⟨⟨held, -⟩, returned⟩ := Ensures.returned computes run
    rw [returned _ shows]
    exact ⟨next, held.coherent, held.memory, ends.returned run, run⟩
  | error error next =>
    have ending := ends.failed run
    rcases Ensures.failed computes run with lost | ⟨⟨held, -⟩, refusal, rfl, refused⟩
    · exact absurd lost (never next ending)
    · rw [refused _ shows]
      exact ⟨next, held.coherent, held.memory, ending, run⟩

section

variable (reads : ReadsMemory build tag m S E) (never : ∀ next, R next → ¬ E next)
  (coherent : Coherent build tag m) (start : S m)
include reads never coherent start

/-- `read_cc` returns what the container's bytes stand for. -/
theorem readCc_settled (ends : Ensures (readCc build tag.toTransceiver) (fun _ next => R next)
    (fun _ next => R next) m) :
    Settles build tag R (readCc build tag.toTransceiver) (ccOf (tag.memoryOf m)) m :=
  settles_of_computes (Reads.readCc_rule reads m ⟨held_start coherent _, start⟩) ends never

/-- `read_ndef` returns the message of the memory. -/
theorem readNdef_settled (ends : Ensures (readNdef build tag.toTransceiver) (fun _ next => R next)
    (fun _ next => R next) m) :
    Settles build tag R (readNdef build tag.toTransceiver) (ndefOf build (tag.memoryOf m)) m :=
  settles_of_computes (Reads.readNdef_rule reads m ⟨held_start coherent _, start⟩) ends never

/-- `write_ndef` plans the job of the memory. -/
theorem prepareWrite_settled (ndefData : List UInt8)
    (ends : Ensures (prepareWrite build tag.toTransceiver ndefData) (fun _ next => R next)
      (fun _ next => R next) m) :
    Settles build tag R (prepareWrite build tag.toTransceiver ndefData)
      (jobOf build ndefData (tag.memoryOf m)) m :=
  settles_of_computes (Reads.prepareWrite_rule reads ndefData m ⟨held_start coherent _, start⟩) ends
    never

end

/-- A job that is planned is written, with the memory of its last page, if no exchange of
its pages is lost for good. -/
theorem Settles.writes {ndefData : List UInt8} {job : WriteJob}
    (settles : Settles build tag R (prepareWrite build tag.toTransceiver ndefData)
      (jobOf build ndefData (tag.memoryOf m)) m)
    (plans : jobOf build ndefData (tag.memoryOf m) = .ok job)
    (commits : ∀ cc tlvs prepared, job.Planned build cc tlvs ndefData → R prepared →
      Ensures (commitWrite build tag.toTransceiver job) (fun _ next => R next) (fun _ _ => False)
        prepared) :
    ∃ next, writeNdef build tag.toTransceiver ndefData m = .ok () next ∧ Coherent build tag next ∧
      tag.memoryOf next = planned (tag.memoryOf m) job.pages job.pages.length ∧ R next := by
  obtain ⟨prepared, stays, memory, ready, preparing⟩ := settles
  rw [plans] at preparing
  obtain ⟨cc, -, tlvs, -, -, -, -, -, listed⟩ := jobOf_ok plans
  have plan := planWrite_ok listed
  have staged := commitWrite_staged plan stays
  obtain ⟨value, next, committing, held, ready⟩ :=
    ((staged.and (commits cc tlvs prepared plan ready)).mono (fun _ _ both => both)
      fun _ _ both => both.2).exists_run
  refine ⟨next, ?_, held.coherent, memory ▸ held.memory, ready⟩
  rw [writeNdef, run_bind_ok preparing, committing]

/-- A refusal to plan is the refusal of `write_ndef`, and leaves the memory. -/
theorem Settles.refuses {ndefData : List UInt8} {refusal : Type2Error}
    (settles : Settles build tag R (prepareWrite build tag.toTransceiver ndefData)
      (jobOf build ndefData (tag.memoryOf m)) m)
    (refuses : jobOf build ndefData (tag.memoryOf m) = .error refusal) :
    ∃ next, writeNdef build tag.toTransceiver ndefData m = .error (.protocol refusal) next ∧
      Coherent build tag next ∧ tag.memoryOf next = tag.memoryOf m ∧ R next := by
  obtain ⟨prepared, stays, memory, ready, preparing⟩ := settles
  rw [refuses] at preparing
  refine ⟨prepared, ?_, stays, memory, ready⟩
  rw [writeNdef, run_bind_error preparing]

end

/-! ## On a tag that answers everything -/

section

variable {σ ε : Type} {build : Build} {tag : FaultFreeTag σ ε} {m : Machine σ}

/-- A program that settles on a tag on which nothing is lost. -/
abbrev Answers {α : Type} (build : Build) (tag : FaultFreeTag σ ε) (program : Operation σ ε α)
    (result : Except Type2Error α) (m : Machine σ) : Prop :=
  Settles build tag.toTag (fun _ => True) program result m

/-- Reading sees the memory, and no exchange fails. -/
theorem faultFree_reads (build : Build) (tag : FaultFreeTag σ ε) (m : Machine σ) :
    ReadsMemory build tag.toTag m (fun _ => True) fun _ => False :=
  readsMemory_of (faultFree_keeps build tag).reads m

/-- Every program ends. -/
theorem ensures_true {α : Type} (program : Operation σ ε α) (m : Machine σ) :
    Ensures program (fun _ _ => True) (fun _ _ => True) m :=
  ensures_always (fun _ _ => trivial) fun _ _ => trivial

/-- A reading operation that computes a function of the memory answers with it. -/
theorem answers_of_computes {α : Type} {program : Operation σ ε α}
    {function : Memory → Except Type2Error α}
    (computes : Computes (fun next => Held build tag.toTag m.trace
        (Quiet tag.toTag (tag.memoryOf m)) (· = tag.memoryOf m) next ∧ True) (fun _ => False)
      (fun addr byte => byte = tag.memoryOf m addr) program function m) :
    Answers build tag program (function (tag.memoryOf m)) m :=
  settles_of_computes computes (ensures_true program m) fun _ _ never => never

/-- `read_ndef` answers with the message of the memory. -/
theorem readNdef_answers (coherent : Coherent build tag.toTag m) :
    Answers build tag (readNdef build tag.toTransceiver) (ndefOf build (tag.memoryOf m)) m :=
  readNdef_settled (faultFree_reads build tag m) (fun _ _ never => never) coherent trivial
    (ensures_true _ m)

/-- The checks of `write_ndef` answer with the job of the memory. -/
theorem prepareWrite_answers (coherent : Coherent build tag.toTag m) (ndefData : List UInt8) :
    Answers build tag (prepareWrite build tag.toTransceiver ndefData)
      (jobOf build ndefData (tag.memoryOf m)) m :=
  prepareWrite_settled (faultFree_reads build tag m) (fun _ _ never => never) coherent trivial
    ndefData (ensures_true _ m)

/-- `write_ndef` returns when a job can be planned, with the memory of its last page. -/
theorem writeNdef_accepted (coherent : Coherent build tag.toTag m) {ndefData : List UInt8}
    {job : WriteJob} (plans : jobOf build ndefData (tag.memoryOf m) = .ok job) :
    ∃ next, writeNdef build tag.toTransceiver ndefData m = .ok () next ∧
      Coherent build tag.toTag next ∧
      tag.memoryOf next = planned (tag.memoryOf m) job.pages job.pages.length := by
  obtain ⟨next, run, after, memory, -⟩ :=
    (prepareWrite_answers coherent ndefData).writes plans fun _ _ prepared plan _ =>
      plan.commitWrite_keeps (faultFree_keeps build tag) prepared trivial
  exact ⟨next, run, after, memory⟩

/-- `write_ndef` refuses when no job can be planned, and leaves the memory. -/
theorem writeNdef_refused (coherent : Coherent build tag.toTag m) {ndefData : List UInt8}
    {refusal : Type2Error} (refuses : jobOf build ndefData (tag.memoryOf m) = .error refusal) :
    ∃ next, writeNdef build tag.toTransceiver ndefData m = .error (.protocol refusal) next ∧
      Coherent build tag.toTag next ∧ tag.memoryOf next = tag.memoryOf m := by
  obtain ⟨next, run, after, memory, -⟩ := (prepareWrite_answers coherent ndefData).refuses refuses
  exact ⟨next, run, after, memory⟩

/-- `write_ndef` returns when a job can be planned. -/
theorem writeNdef_outcome_iff (coherent : Coherent build tag.toTag m) (ndefData : List UInt8) :
    outcome (writeNdef build tag.toTransceiver ndefData) m = .ok () ↔
      ∃ job, jobOf build ndefData (tag.memoryOf m) = .ok job := by
  cases plans : jobOf build ndefData (tag.memoryOf m) with
  | ok job =>
    obtain ⟨next, run, -⟩ := writeNdef_accepted coherent plans
    simp [outcome, run]
  | error refusal =>
    obtain ⟨next, run, -⟩ := writeNdef_refused coherent plans
    simp [outcome, run]

end

end NfcForumTags
