import NfcForumTags.BlockWalk
import NfcForumTags.RejectedWrite
import NfcForumTags.TransientErrors

/-!
# What a failed call says

A call that fails with an error of the transceiver had that error in its last exchange, and
has given up the sector and the cache. A protocol error is one the call may report, and
unless the tag's answer caused it, the call has written nothing: also with a tag that
answers anything, a refusal is no half-done write.
-/
namespace NfcForumTags

open Program MemoryLayout

/-! ## Reasons -/

/-- The protocol errors a call may report. -/
def Call.Reports (build : Build) (error : Type2Error) : Call → Prop
  | .setMaxRetries _ | .invalidateCache | .markTagStateUnknown => False
  | .read _ | .write _ _ => error.FromAnswer
  | .sectorSelect sector => error.FromAnswer ∨ error = .outOfRange ∧ MAX_SECTOR < sector
  | .readCc => error.FromAnswer ∨ error.FromContainer
  | .readDataArea layout => error.FromAnswer ∨ error.FromReading build layout.totalBytes
  | .readNdef => error.FromAnswer ∨ error.FromContainer ∨ error.FromBlocks build
  | .writeNdef _ => error.FromAnswer ∨ error.FromContainer ∨ error.FromBlocks build ∨
      error = .readOnly ∨ error = .outOfRange

section

variable {σ ε : Type}

/-- The transceiver answered this exchange with the error. -/
def Exchange.FailedWith (t : Transceiver σ ε) (exchange : Exchange σ) (error : ε) : Prop :=
  match exchange.frame with
  | .command bytes => (t.transceive bytes exchange.before).1 = .error error
  | .packet bytes => (t.transceiveNoResponse bytes exchange.before).1 = .error error

/-- The last exchange since `past` failed with the error; sector and cache are given up. -/
structure LostTo (t : Transceiver σ ε) (past : List (Exchange σ)) (error : ε)
    (m : Machine σ) : Prop where
  unknown : m.reader.sector = .unknown
  uncached : m.reader.cacheBlock = none
  last : ∃ front exchange, past <+: front ∧ m.trace = front ++ [exchange] ∧
    exchange.FailedWith t error

/-- A failure for a reason: an exchange that was lost, or one of these protocol errors. -/
def Explained (t : Transceiver σ ε) (past : List (Exchange σ)) (P : Type2Error → Prop)
    (error : ReaderError ε) (m : Machine σ) : Prop :=
  match error with
  | .transceiver error => LostTo t past error m
  | .protocol error => P error

variable {t : Transceiver σ ε} {build : Build} {past : List (Exchange σ)} {P Q : Type2Error → Prop}
  {m : Machine σ}

/-- A failure explained by some protocol errors is explained by more of them. -/
theorem Explained.mono {error : ReaderError ε} (explained : Explained t past P error m)
    (weaken : ∀ error, P error → Q error) : Explained t past Q error m := by
  cases error with
  | transceiver error => exact explained
  | protocol error => exact weaken error explained

/-- An acknowledgement that is missing is a matter of the answer. -/
theorem expectAck_explained {answer : Except Type2Error Answer}
    (fails : FailsOnly Type2Error.FromAnswer answer)
    {returns : Unit → Machine σ → Prop} (acked : returns () m) :
    Ensures (expectAck answer) returns (Explained t past Type2Error.FromAnswer) m := by
  unfold expectAck
  rw [ensures_bind, ensures_orProtocol]
  refine ⟨fun value _ => ?_, fails⟩
  cases value with
  | ack => exact acked
  | data _ | nack _ | passiveAck => trivial

/-- One more exchange is after `past`. -/
theorem prefix_sent (since : past <+: m.trace) (cmd : List UInt8) : past <+: (m.sent t cmd).trace :=
  since.trans (List.prefix_append _ _)

/-- A command that failed is the last exchange, and the reader gives up its sector and cache
on it. -/
theorem lostTo_sent (since : past <+: m.trace) {cmd : List UInt8} {error : ε}
    (lost : (t.transceive cmd m.reader.transceiver).1 = .error error) :
    LostTo t past error (m.sent t cmd).forget :=
  ⟨rfl, rfl, m.trace, _, since, rfl, lost⟩

/-! ## Selections and retries -/

/-- A selection fails for an exchange or for the answer to one. -/
theorem forceSectorSelect_explained {sector : UInt8} (allowed : sector ≤ MAX_SECTOR)
    (since : past <+: m.trace) :
    Ensures (forceSectorSelect t sector)
      (fun _ next => past <+: next.trace ∧ next.reader.sector = .known sector)
      (Explained t past Type2Error.FromAnswer) m := by
  have sent : past <+: (m.forget.sent t Command.sectorSelectPart1.toBytes).trace :=
    prefix_sent (m := m.forget) since _
  unfold forceSectorSelect
  rw [ensures_bind, ensures_refuseIf]
  refine ⟨fun _ => ?_, fun beyond => absurd beyond (UInt8.not_lt.mpr allowed)⟩
  rw [ensures_invalidate_unknown]
  simp only [ensures_bind, ensures_sendCommand, ensures_orTransceiver]
  refine ⟨fun raw _ => expectAck_explained (Command.parseAnswer_fails _ raw) ?_,
    fun error lost => ?_⟩
  · simp only [ensures_sendPacket]
    refine ⟨fun nack _ => ?_, fun error lost => ?_⟩
    · cases nack with
      | none => exact ⟨sent.trans (List.prefix_append _ _), rfl⟩
      | some code => trivial
    · exact ⟨rfl, rfl, _, _, sent, rfl, lost⟩
  · exact ⟨rfl, rfl, m.trace, _, since, rfl, lost⟩

/-- The attempts after a lost one.

Induction on the attempts left: each lost one is the last exchange so far. -/
theorem retryTransceive_explained {intended : SectorState}
    (allowed : ∀ sector, intended = .known sector → sector ≤ MAX_SECTOR) (cmd : List UInt8)
    (remaining : Nat)
    (lastErr : ε) (m : Machine σ) (since : past <+: m.trace) (lost : LostTo t past lastErr m) :
    Ensures (retryTransceive t intended cmd remaining lastErr) (fun _ next => past <+: next.trace)
      (Explained t past Type2Error.FromAnswer) m := by
  induction remaining generalizing lastErr m with
  | zero => exact lost
  | succ remaining inductionHypothesis =>
    cases intended with
    | unknown => exact lost
    | known sector =>
      refine (forceSectorSelect_explained (allowed sector rfl) since).bind (fun _ _ left => left) ?_
      rintro - selected ⟨since, -⟩
      rw [ensures_bind, ensures_sendCommand]
      split
      · exact prefix_sent since cmd
      · next error lost =>
        rw [ensures_unknown_invalidate]
        exact inductionHypothesis error _ (prefix_sent since cmd) (lostTo_sent since lost)

/-- A command with its retries fails for the last exchange, or for the answer of a recovery
selection. -/
theorem transceiveWithRetry_explained (selectable : Selectable m) (since : past <+: m.trace)
    (cmd : List UInt8) :
    Ensures (transceiveWithRetry t cmd) (fun _ next => past <+: next.trace)
      (Explained t past Type2Error.FromAnswer) m := by
  unfold transceiveWithRetry
  simp only [ensures_bind, ensures_get, ensures_sendCommand]
  split
  · exact prefix_sent since cmd
  · next error lost =>
    rw [ensures_unknown_invalidate]
    exact retryTransceive_explained selectable cmd _ error _ (prefix_sent since cmd)
      (lostTo_sent since lost)

/-- So does READ, or for its own answer. -/
theorem read_explained (selectable : Selectable m) (since : past <+: m.trace) (block : UInt8) :
    Ensures (read build t block) (fun _ next => past <+: next.trace)
      (Explained t past Type2Error.FromAnswer) m := by
  unfold read
  simp only [ensures_bind, ensures_get]
  split
  · exact since
  · rw [ensures_bind]
    refine (transceiveWithRetry_explained selectable since _).mono (fun raw next since => ?_)
      fun _ _ left => left
    rw [ensures_bind, ensures_orProtocol]
    refine ⟨fun answer _ => ?_, Command.parseAnswer_fails _ raw⟩
    cases answer with
    | data data =>
      rw [ensures_bind, ensures_storeCache]
      change past <+: (next.store build block data).trace
      rwa [Machine.store_trace]
    | ack | nack _ | passiveAck => trivial

/-- So does WRITE. -/
theorem write_explained (selectable : Selectable m) (since : past <+: m.trace) (block : UInt8)
    (page : Vector UInt8 4) :
    Ensures (write t block page) (fun _ next => past <+: next.trace)
      (Explained t past Type2Error.FromAnswer) m := by
  unfold write
  refine (transceiveWithRetry_explained selectable since _).bind (fun _ _ left => left)
    fun raw next since => ?_
  rw [ensures_bind, ensures_invalidateCache]
  exact expectAck_explained (Command.parseAnswer_fails _ raw) since

/-- A selection that may not be needed fails as one that is. -/
theorem sectorSelect_explained {sector : UInt8} (allowed : sector ≤ MAX_SECTOR)
    (since : past <+: m.trace) :
    Ensures (sectorSelect t sector)
      (fun _ next => past <+: next.trace ∧ next.reader.sector = .known sector)
      (Explained t past Type2Error.FromAnswer) m := by
  unfold sectorSelect
  simp only [ensures_bind, ensures_refuseIf, ensures_get]
  refine ⟨fun _ => ?_, fun beyond => absurd beyond (UInt8.not_lt.mpr allowed)⟩
  split
  · next same => exact ⟨since, same⟩
  · exact forceSectorSelect_explained allowed since

/-! ## Operations -/

variable (build t past) in
/-- The blocks visited fail for the same reasons. -/
theorem roams_explained (answers : ∀ error : Type2Error, error.FromAnswer → P error) :
    Roams build t (· ≤ MAX_SECTOR) (fun m => past <+: m.trace) (Explained t past P) where
  serve _ _ since := since
  select _ _ allowed since := (sectorSelect_explained allowed since).mono (fun _ _ kept => kept)
    fun _ _ explained => explained.mono answers
  read sector block m allowed known since := by
    have selectable : Selectable m := fun other same =>
      SectorState.known.inj (known.symm.trans same) ▸ allowed
    exact (read_explained selectable since block).mono (fun _ _ kept => kept)
      fun _ _ explained => explained.mono answers
  write sector block page m allowed known since := by
    have selectable : Selectable m := fun other same =>
      SectorState.known.inj (known.symm.trans same) ▸ allowed
    exact (write_explained selectable since block page).mono (fun _ _ kept => kept)
      fun _ _ explained => explained.mono answers

/-- A call from a reader that tracks no sector beyond the address space fails for a reason
it may report. -/
theorem call_fails (selectable : Selectable m) (call : Call) :
    Ensures (call.run build t) (fun _ _ => True) (Explained t m.trace (call.Reports build)) m := by
  have since : m.trace <+: m.trace := List.prefix_refl _
  have first : (0 : UInt8) ≤ MAX_SECTOR := by decide
  have replied : ∀ {α : Type} {program : Operation σ ε α} {reply : α → Reply} {start : Machine σ}
      {I : α → Machine σ → Prop} {P : Type2Error → Prop},
        Ensures program I (Explained t m.trace P) start →
      (∀ error, P error → call.Reports build error) →
      Ensures (do let value ← program; return reply value) (fun _ _ => True)
        (Explained t m.trace (call.Reports build)) start :=
    fun ensured weaken => ensured.bind (fun _ _ left => left.mono weaken) fun _ _ _ => trivial
  have refuses : ∀ {P Q : Type2Error → Prop}, (∀ error, Q error → P error) →
      Refuses Q (fun next => m.trace <+: next.trace) (Explained t m.trace P) :=
    fun weaken error _ holds _ => weaken error holds
  cases call with
  | setMaxRetries n | invalidateCache | markTagStateUnknown => trivial
  | read block =>
    exact replied (read_explained (m := { m with serving := none })
      selectable since block) fun _ => id
  | write block page =>
    exact replied (write_explained (m := { m with serving := none })
      selectable since block page) fun _ => id
  | sectorSelect sector =>
    by_cases beyond : MAX_SECTOR < sector
    · unfold Call.run sectorSelect
      simp only [ensures_bind, ensures_refuseIf]
      exact ⟨fun allowed => absurd beyond allowed, fun _ => Or.inr ⟨rfl, beyond⟩⟩
    · exact replied (sectorSelect_explained (UInt8.not_lt.mp beyond) since) fun _ => Or.inl
  | readCc =>
    have roams := roams_explained t build m.trace (P := (Call.Reports build · .readCc))
      fun _ => Or.inl
    exact replied (roams.readCc (refuses fun _ => Or.inr) first m since) fun _ => id
  | readDataArea layout =>
    have roams := roams_explained t build m.trace
      (P := (Call.Reports build · (.readDataArea layout))) fun _ => Or.inl
    exact replied (roams.readDataArea (refuses fun _ => Or.inr) (reaches_totalBytes layout)
      (sectorsBelow_addressable _) m since) fun _ => id
  | readNdef =>
    have roams := roams_explained t build m.trace (P := (Call.Reports build · .readNdef))
      fun _ => Or.inl
    exact replied (roams.readNdef sectorsBelow_addressable first (refuses fun _ => Or.inr)
      m since) fun _ => id
  | writeNdef ndefData =>
    have roams := roams_explained t build m.trace
      (P := (Call.Reports build · (.writeNdef ndefData))) fun _ => Or.inl
    exact replied (roams.writeNdef sectorsBelow_addressable first (refuses fun _ => Or.inr)
      ndefData m since)
      fun _ => id

/-! ## Refusals write nothing -/

/-- A protocol error that no answer has caused comes before the first WRITE. -/
def RefusedUnwritten (past : List (Exchange σ)) (error : ReaderError ε) (m : Machine σ) : Prop :=
  ∀ refusal, error = .protocol refusal → refusal.FromAnswer ∨ Logged past Exchange.NoWrite m

/-- A lost exchange is no refusal. -/
theorem Explained.unwritten {error : ReaderError ε}
    (explained : Explained t past Type2Error.FromAnswer error m)
    (other : List (Exchange σ)) : RefusedUnwritten other error m := by
  rintro refusal rfl
  exact Or.inl explained

/-- Both writes of a planned job are only ended by the tag. -/
theorem commitWrite_unwritten {job : WriteJob} {cc : CapabilityContainer} {tlvs : List Tlv}
    {ndefData : List UInt8} (plan : job.Planned build cc tlvs ndefData) (m : Machine σ) :
    Ensures (commitWrite build t job) (fun _ _ => True) (RefusedUnwritten past) m := by
  have roams := roams_explained t build m.trace (P := Type2Error.FromAnswer) fun _ => id
  exact (roams.commitPlanned plan (sectorsBelow_addressable _) m (List.prefix_refl _)).mono
    (fun _ _ _ => trivial) fun _ _ explained => explained.unwritten past

/-- A refusal by `write_ndef` sent no WRITE.

Proof: what it does ahead of the plan has no WRITE, and behind the plan only the tag ends
it. -/
theorem writeNdef_unwritten (ndefData : List UInt8) (m : Machine σ) :
    Ensures (writeNdef build t ndefData) (fun _ _ => True) (RefusedUnwritten m.trace) m := by
  have prepares := ((reads_noWrite build t m.trace).prepareWrite_rule ndefData m
    (logged_start m)).kept
  unfold writeNdef Ensures
  cases run : prepareWrite build t ndefData m with
  | error error next =>
    rw [run_bind_error run]
    exact fun _ _ => Or.inr (prepares.failed run)
  | ok job next =>
    rw [run_bind_ok run]
    obtain ⟨cc, tlvs, plans⟩ := prepareWrite_planned run
    exact commitWrite_unwritten (planWrite_ok plans) next

/-- A refusal by any call sent no WRITE, unless it is the answer of the tag to one. -/
theorem call_unwritten (selectable : Selectable m) (call : Call) :
    Ensures (call.run build t) (fun _ _ => True) (RefusedUnwritten m.trace) m := by
  have quiet : ∀ {α : Type} {program : Operation σ ε α} {reply : α → Reply},
      Ensures program (fun _ next => Logged m.trace Exchange.NoWrite next)
        (fun _ next => Logged m.trace Exchange.NoWrite next) m →
      Ensures (do let value ← program; return reply value) (fun _ _ => True)
          (RefusedUnwritten m.trace) m :=
    fun ensured => ensured.bind (fun _ _ left _ _ => Or.inr left) fun _ _ _ => trivial
  have reads := reads_noWrite build t m.trace
  have start : Logged m.trace Exchange.NoWrite m := logged_start m
  cases call with
  | setMaxRetries n | invalidateCache | markTagStateUnknown => trivial
  | read block | write block page =>
    exact (call_fails selectable _).mono (fun _ _ _ => trivial) fun _ _ explained =>
      explained.unwritten _
  | sectorSelect sector =>
    exact quiet ((sectorSelect_rule reads.select sector m start fun _ => start).mono
      (fun _ _ kept => kept.1)
      fun _ _ left => left)
  | readCc => exact quiet (reads.readCc_rule m start).kept
  | readDataArea layout => exact quiet (reads.readDataArea_rule layout m start).kept
  | readNdef => exact quiet (reads.readNdef_rule m start).kept
  | writeNdef ndefData =>
    exact (writeNdef_unwritten ndefData m).bind (fun _ _ left => left) fun _ _ _ => trivial

/-- Whatever the transceiver answers, a call after any run of calls on a new reader: when it
fails with an error of the transceiver, that error ended the last of its exchanges, and
the sector and the cache are given up; when it fails with a protocol error, the error is
one that the call may report, and an answer of the tag caused it or no WRITE was sent.

Proof: every operation fails at the end of an exchange, with its error or with the answer to
it, or at a check of its own; the checks of `write_ndef` all come ahead of its first WRITE. -/
theorem failed_call (build : Build) (t : Transceiver σ ε) (state : σ) (calls : List Call)
    (call : Call) :
    let m := runCalls build t calls (.fresh state)
    let next := call.after build t m
    (∀ error, outcome (call.run build t) m = .error (.transceiver error) →
      LostTo t m.trace error next) ∧
    ∀ error, outcome (call.run build t) m = .error (.protocol error) →
      call.Reports build error ∧ (error.FromAnswer ∨ Logged m.trace Exchange.NoWrite next) := by
  intro m next
  have selectable : Selectable m :=
    (selectable_keepsCalls build t).run_keeps calls _ fun sector known => by cases known; decide
  have fails : Ensures (call.run build t) _ _ m := call_fails selectable call
  have refuses : Ensures (call.run build t) _ _ m := call_unwritten selectable call
  have explained := (ensures_iff.mp fails).2
  have unwritten := (ensures_iff.mp refuses).2
  exact ⟨fun error failed => explained _ failed,
    fun error failed => ⟨explained _ failed, unwritten _ failed error rfl⟩⟩

/-- Without a retry the first WRITE of a message is lost: it was the last exchange. -/
theorem failed_call_lossy :
    let m := runCalls .alloc scheduledTag.toTransceiver [.setMaxRetries 0] (.fresh lossyState)
    LostTo scheduledTag.toTransceiver m.trace ()
      ((Call.writeNdef [0xD1, 0x01]).after .alloc scheduledTag.toTransceiver m) :=
  (failed_call .alloc scheduledTag.toTransceiver lossyState [.setMaxRetries 0]
    (.writeNdef [0xD1, 0x01])).1 ()
    (by decide +kernel)

end

end NfcForumTags
