import NfcForumTags.InterruptedWrite
import NfcForumTags.PatientTags
import NfcForumTags.FaultyRuns

/-!
# A tag as a store of one message

To its user a tag is a place for one NDEF message: a read returns it, and a write
replaces it when access is granted and the message fits the bytes from the NDEF TLV
on. The store says only that. Whatever failed before, a reader on a plain tag refines it
along every run of calls that leaves writing to `write_ndef`, commands lost now and then
included, as long as it retries as often as the tag loses them in a row.
-/
namespace NfcForumTags

open Program

/-! ## The store -/

/-- The Capability Container of a tag, the bytes its data area has from the NDEF TLV
on, and a message that fits them. -/
structure NdefStore where
  cc : CapabilityContainer
  room : Nat
  message : List UInt8
  fits : 1 + lFieldSize message.length + message.length ≤ room

namespace NdefStore

/-- Replace the message: its TLV and a Terminator must fit. -/
def write (store : NdefStore) (message : List UInt8) : Except Type2Error NdefStore :=
  if store.cc.writeAccess ≠ .granted then .error .readOnly
  else if enough : 1 + lFieldSize message.length + message.length + 1 ≤ store.room then
    .ok { store with message, fits := Nat.le_of_succ_le enough }
  else .error .outOfRange

/-- The store after a call: only an accepted write changes it. -/
def after (store : NdefStore) (call : Call) : NdefStore :=
  match call with
  | .writeNdef message =>
    match store.write message with
    | .ok written => written
    | .error _ => store
  | _ => store

/-- What a call returns, when the store alone tells. -/
def reply (store : NdefStore) : Call → Option (Except Type2Error Reply)
  | .readNdef => some (.ok (.bytes store.message))
  | .writeNdef message => some ((store.write message).map fun _ => .done)
  | .readCc => some (.ok (.cc store.cc))
  | .sectorSelect sector => some (if MAX_SECTOR < sector then .error .outOfRange else .ok .done)
  | .setMaxRetries _ | .invalidateCache | .markTagStateUnknown => some (.ok .done)
  | .read _ | .write _ _ | .readDataArea _ => none

/-- The store after a run of calls. -/
def run (store : NdefStore) (calls : List Call) : NdefStore := calls.foldl after store

/-- What the calls of a run return, in order. -/
def replies : NdefStore → List Call → List (Option (Except Type2Error Reply))
  | _, [] => []
  | store, call :: calls => store.reply call :: (store.after call).replies calls

/-- The lifecycle state. -/
def state (store : NdefStore) : Option TagState := store.cc.tagState store.message.length

variable {store written : NdefStore} {message : List UInt8}

/-- An accepted write leaves the container and the room. -/
theorem write_ok (accepted : store.write message = .ok written) :
    store.cc.writeAccess = .granted ∧ written.cc = store.cc ∧ written.room = store.room ∧
      written.message = message := by
  unfold write at accepted
  split at accepted
  · cases accepted
  next granted =>
  split at accepted
  · obtain rfl := Except.ok.inj accepted
    exact ⟨not_not.mp granted, rfl, rfl, rfl⟩
  · cases accepted

/-- A store stays readable and writable, or stays neither. -/
@[simp] theorem after_cc (store : NdefStore) (call : Call) : (store.after call).cc = store.cc := by
  cases call with
  | writeNdef message =>
    unfold after
    dsimp only
    split
    · next written accepted => exact (write_ok accepted).2.1
    · rfl
  | setMaxRetries _ | read _ | write _ _ | sectorSelect _ | readCc | readDataArea _ | readNdef
  | invalidateCache | markTagStateUnknown => rfl

/-- What is denied stays as it is. -/
theorem after_denied (denied : store.cc.writeAccess ≠ .granted) (call : Call) :
    store.after call = store := by
  cases call with
  | writeNdef message =>
    unfold after write
    dsimp only
    rw [if_pos denied]
  | setMaxRetries _ | read _ | write _ _ | sectorSelect _ | readCc | readDataArea _ | readNdef
  | invalidateCache | markTagStateUnknown => rfl

/-- No run changes the container. -/
@[simp] theorem run_cc (store : NdefStore) (calls : List Call) :
    (store.run calls).cc = store.cc := by
  induction calls generalizing store with
  | nil => rfl
  | cons call calls inductionHypothesis => exact (inductionHypothesis _).trans (after_cc store call)

/-- A store without write access stays as it is through any run. -/
theorem run_denied (denied : store.cc.writeAccess ≠ .granted) (calls : List Call) :
    store.run calls = store := by
  induction calls with
  | nil => rfl
  | cons call calls inductionHypothesis =>
    rw [run, List.foldl_cons, after_denied denied]
    exact inductionHypothesis

/-- A tag that grants access is initialized while its message is empty, and otherwise
readable and writable; any other tag stays what it is. -/
theorem run_state (valid : store.cc.isValid = true) (calls : List Call) :
    (store.run calls).state =
      if store.cc.writeAccess ≠ .granted then store.state
      else some (if (store.run calls).message = [] then .initialized else .readWrite) := by
  split
  · next denied => rw [run_denied denied]
  · next granted =>
    rw [state, CapabilityContainer.tagState, run_cc, valid, not_not.mp granted]
    cases (store.run calls).message with
    | nil => rfl
    | cons byte rest => simp

end NdefStore

/-! ## A plain tag shows its store -/

section

variable {cc : CapabilityContainer} {ahead : List UInt8} {front : List Tlv} {memory : Memory}
  {message : List UInt8}

/-- The NDEF TLV a tag holds lies in the data area, behind the blocks ahead of it.

The walk adds no more for these blocks than they have bytes, so that they take at least
as many bytes as it adds. -/
theorem Holds.fits (holds : Holds cc ahead front memory message) :
    ahead.length + 1 + lFieldSize message.length + message.length ≤ cc.dataAreaSize := by
  obtain ⟨behind, stream, -⟩ := holds.shows
  have found : firstNdef (front ++ .ndefMessage message :: behind) = some message :=
    firstNdef_passed holds.passed
  obtain ⟨ahead', front', field, rest, behind', blocks, passed, length, shape, listed⟩ :=
    stream.split found
  have sizes := blocks.walkSize_le
  have walks : ndefTlvOffset (front ++ .ndefMessage message :: behind) 0 = _ :=
    ndefTlvOffset_passed holds.passed 0
  rw [listed, ndefTlvOffset_passed passed 0] at walks
  have same := Option.some.inj walks
  have walked := holds.walked
  have canonical := length.canonical_le
  have total := congrArg List.length shape
  rw [length_rawBytes, List.length_append, List.length_cons, List.length_append, List.length_append]
    at total
  omega

/-- The blocks a held tag reads as, their message, and where the walk finds its TLV. -/
theorem Holds.reads (holds : Holds cc ahead front memory message) :
    ∃ dataArea tlvs, dataAreaWithLayoutOf .alloc cc memory = .ok dataArea ∧
      parseTlvs .alloc dataArea = .ok tlvs ∧ ReadsAs cc memory tlvs ∧
      firstNdef tlvs = some message ∧ ndefTlvOffset tlvs 0 = some ahead.length := by
  obtain ⟨behind, stream, clear⟩ := holds.shows
  have reads := readsAs_clear stream clear
  obtain ⟨dataArea, read, listed⟩ := ok_of_bind ((readsAs_iff cc memory _).mpr reads)
  refine ⟨dataArea, _, read, listed, reads, firstNdef_passed holds.passed, ?_⟩
  rw [ndefTlvOffset_passed holds.passed, Nat.zero_add, holds.walked]

/-- What `write_ndef` makes of a message on a tag that holds one: a job if access is
granted and the message has room, and otherwise the refusal of the store. -/
theorem Holds.jobOf (holds : Holds cc ahead front memory message) (ndefData : List UInt8) :
    if cc.writeAccess ≠ .granted then jobOf .alloc ndefData memory = .error .readOnly
    else if ahead.length + 1 + lFieldSize ndefData.length + ndefData.length + 1 ≤
      cc.dataAreaSize then
      ∃ job, jobOf .alloc ndefData memory = .ok job
    else jobOf .alloc ndefData memory = .error .outOfRange := by
  obtain ⟨dataArea, tlvs, read, listed, reads, -, offset⟩ := holds.reads
  have small := cc.dataAreaSize_le
  have valid : refusal (cc.isValid = false) (.invalidMagic 0) = .ok () :=
    if_neg (by simp [holds.valid])
  split
  · next denied =>
    have refused : refusal (cc.writeAccess ≠ .granted) .readOnly = .error .readOnly := if_pos denied
    unfold NfcForumTags.jobOf
    simp only [holds.parsed, valid, refused, bind, Except.bind]
  next granted =>
  have allowed : refusal (cc.writeAccess ≠ .granted) .readOnly = .ok () := if_neg granted
  split
  · next room =>
    obtain ⟨first, stream, last⟩ := reads
    rw [(basic_clear cc).dataBytes] at stream
    exact (jobOf_alloc_iff holds.parsed holds.valid (not_not.mp granted)
      (show ndefData.length ≤ 65534 by omega)).mpr
      ⟨first, stream, tlvs, ahead.length, last, offset, by rw [length_zeroedTlv]; omega⟩
  · next full =>
    have refused : planWrite .alloc cc tlvs ndefData = .error .outOfRange := by
      unfold planWrite
      split
      · rfl
      · simp only [offset]
        rw [if_pos (Nat.lt_of_not_le full)]
    unfold NfcForumTags.jobOf
    simp only [holds.parsed, valid, allowed, read, listed, refused, bind, Except.bind]

end

section

variable {σ ε : Type} {tag : PatientTag σ ε} {ahead : List UInt8} {front : List Tlv}
  {store : NdefStore} {m : Machine σ}

/-- A reader on a tag that holds the message of a store, where the store says. -/
structure Represents (tag : PatientTag σ ε) (ahead : List UInt8) (front : List Tlv)
    (store : NdefStore) (m : Machine σ) : Prop where
  coherent : Coherent .alloc tag.toTag m
  lenient : Lenient tag m
  holds : Holds store.cc ahead front (tag.memoryOf m) store.message
  room : ahead.length + store.room = store.cc.dataAreaSize

/-- A call that does not turn down the retries below what the tag needs. -/
def Call.RetriesFor (limit : Nat) (call : Call) : Prop :=
    ∀ n, call = .setMaxRetries n → limit ≤ n.toNat

/-- Such a call leaves a lenient reader. -/
theorem Lenient.call (lenient : Lenient tag m) {call : Call} (retries : call.RetriesFor tag.limit)
    (build : Build) :
    Lenient tag (call.after build tag.toTransceiver m) := by
  by_cases set : ∃ n, call = .setMaxRetries n
  · obtain ⟨n, rfl⟩ := set
    exact ⟨lenient.steady, retries n rfl⟩
  · exact lenient.kept (fun n same => set ⟨n, same⟩) build

/-- What a call does to a reader that represents a store: it goes on to represent the
store after the call, and returns what the store tells. -/
def Represents.Onward (tag : PatientTag σ ε) (ahead : List UInt8) (front : List Tlv)
    (store : NdefStore) (call : Call) (m : Machine σ) : Prop :=
  Represents tag ahead front (store.after call) (call.after .alloc tag.toTransceiver m) ∧
    ∀ expected, store.reply call = some expected →
      outcome (call.run .alloc tag.toTransceiver) m = expected.mapError .protocol

/-- A call that writes nothing, however it ends, leaves a reader on the same store. -/
theorem Represents.reading (represents : Represents tag ahead front store m) {call : Call}
    (retries : call.RetriesFor tag.limit) (indirect : call.writesBlock = false)
    (reads : ∀ message, call ≠ .writeNdef message) :
    Represents tag ahead front (store.after call) (call.after .alloc tag.toTransceiver m) := by
  have memory : tag.memoryOf (call.after .alloc tag.toTransceiver m) = tag.memoryOf m :=
    (represents.coherent.steps call).reads indirect reads
  have same : store.after call = store := by
    unfold NdefStore.after
    split
    · exact absurd rfl (reads _)
    · rfl
  have coherent := represents.coherent.call call
  have lenient := represents.lenient.call retries .alloc
  rw [same]
  exact ⟨coherent, lenient, memory ▸ represents.holds, represents.room⟩

/-- `write_ndef` answers as the store does, and leaves a reader on what the store then is. -/
theorem Represents.writes (represents : Represents tag ahead front store m)
    (ndefData : List UInt8) :
    Represents.Onward tag ahead front store (.writeNdef ndefData) m := by
  have decides := represents.holds.jobOf ndefData
  have room := represents.room
  have coherent := represents.coherent.call (.writeNdef ndefData)
  have retries : (Call.writeNdef ndefData).RetriesFor tag.limit := fun _ same => nomatch same
  have lenient := represents.lenient.call retries .alloc
  have same : ahead.length + 1 + lFieldSize ndefData.length + ndefData.length + 1 ≤
      store.cc.dataAreaSize ↔ 1 + lFieldSize ndefData.length + ndefData.length + 1 ≤
          store.room := by
    omega
  have refuses : ∀ refusal, jobOf .alloc ndefData (tag.memoryOf m) = .error refusal →
      store.write ndefData = .error refusal →
      Represents.Onward tag ahead front store (.writeNdef ndefData) m := by
    intro refusal plans refused
    obtain ⟨next, run, -, memory, -⟩ := (prepareWrite_returns
      represents.coherent represents.lenient ndefData).refuses plans
    have call : (Call.writeNdef ndefData).run .alloc tag.toTransceiver m =
        .error (.protocol refusal) next :=
      run_bind_error run
    have stays : store.after (.writeNdef ndefData) = store := by simp [NdefStore.after, refused]
    have after : (Call.writeNdef ndefData).after .alloc tag.toTransceiver m = next := by
      rw [Call.after, stateAfter, call]
    refine ⟨?_, fun expected told => ?_⟩
    · rw [stays]
      exact ⟨coherent, lenient, by rw [after, memory]; exact represents.holds, room⟩
    · rw [← Option.some.inj told, refused, outcome, call]
      rfl
  by_cases granted : store.cc.writeAccess = .granted
  · rw [if_neg (not_not.mpr granted)] at decides
    by_cases enough : 1 + lFieldSize ndefData.length + ndefData.length + 1 ≤ store.room
    · rw [if_pos (same.mpr enough)] at decides
      obtain ⟨job, plans⟩ := decides
      obtain ⟨next, run, -, memory, -⟩ :=
        writeNdef_returns represents.coherent represents.lenient plans
      have accepted : store.write ndefData =
          .ok { store with message := ndefData, fits := Nat.le_of_succ_le enough } := by
        unfold NdefStore.write
        rw [if_neg (not_not.mpr granted), dif_pos enough]
      have call : (Call.writeNdef ndefData).run .alloc tag.toTransceiver m = .ok .done next :=
        run_bind_ok run
      have after : (Call.writeNdef ndefData).after .alloc tag.toTransceiver m = next := by
        rw [Call.after, stateAfter, call]
      refine ⟨⟨coherent, lenient, ?_, ?_⟩, fun expected told => ?_⟩
      · rw [after, memory, NdefStore.after, accepted]
        exact represents.holds.written plans
      · rw [NdefStore.after, accepted]
        exact room
      · rw [← Option.some.inj told, accepted, outcome, call]
        rfl
    · rw [if_neg (mt same.mp enough)] at decides
      refine refuses _ decides ?_
      unfold NdefStore.write
      rw [if_neg (not_not.mpr granted), dif_neg enough]
  · rw [if_pos granted] at decides
    refine refuses _ decides ?_
    unfold NdefStore.write
    rw [if_pos granted]

/-- Selecting an addressable sector returns, and any other is refused. -/
theorem Represents.selects (represents : Represents tag ahead front store m) (sector : UInt8) :
    outcome ((Call.sectorSelect sector).run .alloc tag.toTransceiver) m =
      (if MAX_SECTOR < sector then .error (.protocol .outOfRange) else .ok .done) := by
  split
  · next beyond =>
    have refused : refuseIf (MAX_SECTOR < sector) .outOfRange m =
        (.error (.protocol .outOfRange) m : EStateM.Result (ReaderError ε) (Machine σ) Unit) := by
      unfold refuseIf
      rw [if_pos beyond]
      rfl
    have run : sectorSelect tag.toTransceiver sector m = .error (.protocol .outOfRange) m :=
      run_bind_error refused
    have call : (Call.sectorSelect sector).run .alloc tag.toTransceiver m =
        .error (.protocol .outOfRange) m :=
      run_bind_error run
    rw [outcome, call]
  · next allowed =>
    obtain ⟨value, next, run, -⟩ :=
      (sectorSelect_patient (UInt8.not_lt.mp allowed) represents.lenient).exists_run
    have call : (Call.sectorSelect sector).run .alloc tag.toTransceiver m = .ok .done next :=
      run_bind_ok run
    rw [outcome, call]

/-- Every call but a WRITE of the caller's own follows the store. -/
theorem Represents.call (represents : Represents tag ahead front store m) (call : Call)
    (indirect : call.writesBlock = false) (retries : call.RetriesFor tag.limit) :
    Represents.Onward tag ahead front store call m := by
  have coherent := represents.coherent
  have lenient := represents.lenient
  have reading := represents.reading retries indirect
  have unit : ∀ expected : Except Type2Error Reply, some (.ok .done) = some expected →
      (.ok .done : Except (ReaderError ε) Reply) = expected.mapError .protocol := by
    intro expected same
    rw [← Option.some.inj same]
    rfl
  cases call with
  | setMaxRetries _ | invalidateCache | markTagStateUnknown => exact ⟨reading nofun, unit⟩
  | read _ | readDataArea _ => exact ⟨reading nofun, fun _ told => nomatch told⟩
  | write block data => cases indirect
  | sectorSelect sector =>
    refine ⟨reading nofun, fun expected told => ?_⟩
    rw [represents.selects, ← Option.some.inj told]
    split <;> rfl
  | readCc =>
    refine ⟨reading nofun, fun expected told => ?_⟩
    refine ((readCc_returns coherent lenient).outcome_map Reply.cc).trans ?_
    rw [represents.holds.parsed, ← Option.some.inj told]
    rfl
  | readNdef =>
    refine ⟨reading nofun, fun expected told => ?_⟩
    refine ((readNdef_returns coherent lenient).outcome_map Reply.bytes).trans ?_
    rw [represents.holds.ndefOf, ← Option.some.inj told]
    rfl
  | writeNdef ndefData => exact represents.writes ndefData

/-- A reply as the store tells it, where it does. -/
def Told (expected : Option (Except Type2Error Reply))
    (actual : Except (ReaderError ε) Reply) : Prop :=
  ∀ reply, expected = some reply → actual = reply.mapError .protocol

/-- Every run follows the store.

Induction on the calls: each one leaves a reader that represents the store after it. -/
theorem Represents.run (represents : Represents tag ahead front store m) (calls : List Call)
    (indirect : ∀ call ∈ calls, call.writesBlock = false)
    (retries : ∀ call ∈ calls, call.RetriesFor tag.limit) :
    Represents tag ahead front (store.run calls) (runCalls .alloc tag.toTransceiver calls m) ∧
    List.Forall₂ Told (store.replies calls) (replies .alloc tag.toTransceiver calls m) := by
  induction calls generalizing store m with
  | nil => exact ⟨represents, .nil⟩
  | cons call calls inductionHypothesis =>
    obtain ⟨first, rest⟩ := List.forall_mem_cons.mp indirect
    obtain ⟨enough, onwards⟩ := List.forall_mem_cons.mp retries
    obtain ⟨onward, told⟩ := represents.call call first enough
    obtain ⟨last, others⟩ := inductionHypothesis onward rest onwards
    exact ⟨last, .cons told others⟩

/-- A plain tag shows the store of its container, of its first message and of the bytes
from its NDEF TLV on. -/
theorem PlainTag.represents {cc : CapabilityContainer} {data : List UInt8} {tlvs : List Tlv}
    (plain : PlainTag cc data tlvs (tag.memoryOf m)) (coherent : Coherent .alloc tag.toTag m)
    (lenient : Lenient tag m) :
    ∃ ahead front store, Represents tag ahead front store m ∧ store.cc = cc ∧
      firstNdef tlvs = some store.message ∧ ndefTlvOffset tlvs 0 = some ahead.length := by
  obtain ⟨ahead, front, message, holds⟩ := plain.holds
  obtain ⟨dataArea, others, -, -, reads, found, offset⟩ := holds.reads
  have listed := (readsAs_iff cc _ _).mpr (readsAs_clear plain.stream.2 plain.clear)
  obtain rfl : others = tlvs :=
    Except.ok.inj (((readsAs_iff cc _ _).mpr reads).symm.trans listed)
  have inside := holds.fits
  exact ⟨ahead, front, ⟨cc, cc.dataAreaSize - ahead.length, message, by omega⟩,
    ⟨coherent, lenient, holds, by dsimp only; omega⟩, rfl, found, offset⟩

/-- Whatever happened before: a reader on a plain tag that answers selections from then on,
and loses no more READs and WRITEs in a row than the reader retries, has a store of the
Capability Container, the first message and the bytes from its NDEF TLV on, that every run
of calls without a WRITE of the caller's own follows: each reply is the one the store
tells, after the run the message is that of the store, and so is the lifecycle state.

Proof: the plain tag represents the store, and so it does after each call: a read leaves the
memory, a write that the store accepts changes the message as the store does, and one that
it refuses is refused by the reader. A patient tag answers within the retries, so that no
reply is an error of the transceiver. -/
theorem store_refined (tag : PatientTag σ ε) (state : σ) (inSector0 : tag.active state = 0)
    (earlier : List Call)
    (lenient : Lenient tag (runCalls .alloc tag.toTransceiver earlier (.fresh state)))
    {cc : CapabilityContainer} {data : List UInt8} {tlvs : List Tlv}
    (plain : PlainTag cc data tlvs
      (tag.memoryOf (runCalls .alloc tag.toTransceiver earlier (.fresh state)))) :
    ∃ (store : NdefStore) (offset : Nat), store.cc = cc ∧ firstNdef tlvs = some store.message ∧
      ndefTlvOffset tlvs 0 = some offset ∧ offset + store.room = cc.dataAreaSize ∧
      ∀ calls : List Call, (∀ call ∈ calls, call.writesBlock = false) →
        (∀ n, .setMaxRetries n ∈ calls → tag.limit ≤ n.toNat) →
        let start := runCalls .alloc tag.toTransceiver earlier (.fresh state)
        let m := runCalls .alloc tag.toTransceiver calls start
        List.Forall₂ Told (store.replies calls) (replies .alloc tag.toTransceiver calls start) ∧
        outcome (readCc .alloc tag.toTransceiver) m = .ok cc ∧
        outcome (readNdef .alloc tag.toTransceiver) m = .ok (store.run calls).message ∧
        cc.tagState (store.run calls).message.length =
          if cc.writeAccess ≠ .granted then cc.tagState store.message.length
          else some (if (store.run calls).message = [] then .initialized else .readWrite) := by
  have coherent := coherent_run .alloc tag.toTag earlier state inSector0
  obtain ⟨ahead, front, store, represents, rfl, found, offset⟩ :=
    PlainTag.represents plain coherent lenient
  refine ⟨store, ahead.length, rfl, found, offset, represents.room,
    fun calls indirect retries => ?_⟩
  obtain ⟨after, told⟩ := represents.run calls indirect fun call member n same =>
    retries n (same ▸ member)
  refine ⟨told, ?_, ?_, ?_⟩
  · obtain ⟨next, -, -, -, run⟩ := readCc_returns after.coherent after.lenient
    have parsed := after.holds.parsed
    rw [NdefStore.run_cc] at parsed
    rw [outcome, run, parsed]
  · obtain ⟨next, -, -, -, run⟩ := readNdef_returns after.coherent after.lenient
    rw [outcome, run, after.holds.ndefOf]
  · have states := store.run_state plain.valid calls
    rw [NdefStore.state, NdefStore.run_cc] at states
    exact states

/-- A tag loses every other command. Without retries a message is not written; with them
again, a message that fits, another sector, and a message that does not fit: the first one
stays, and the tag is readable and writable. -/
theorem store_refined_hesitant :
    let earlier : List Call := [.setMaxRetries 0, .writeNdef [0x99], .setMaxRetries 1]
    let calls : List Call := [.writeNdef [0x11, 0x22], .sectorSelect 1,
      .writeNdef (List.replicate 60 0x33)]
    let start := runCalls .alloc hesitantTag.toTransceiver earlier (.fresh ⟨oneByteState, false⟩)
    let m := runCalls .alloc hesitantTag.toTransceiver calls start
    replies .alloc hesitantTag.toTransceiver earlier (.fresh ⟨oneByteState, false⟩) =
      [.ok .done, .error (.transceiver ()), .ok .done] ∧
    replies .alloc hesitantTag.toTransceiver calls start =
      [.ok .done, .ok .done, .error (.protocol .outOfRange)] ∧
    outcome (readNdef .alloc hesitantTag.toTransceiver) m = .ok [0x11, 0x22] ∧
    staticCc.tagState 2 = some .readWrite := by
  intro earlier calls start m
  have plain : PlainTag staticCc [0x03, 0x01, 0xD0, 0xFE] [.ndefMessage [0xD0], .terminator]
      (hesitantTag.memoryOf start) := oneByteState_plain
  obtain ⟨⟨cc, room, message, fits⟩, offset, rfl, found, walked, length, follows⟩ :=
    store_refined hesitantTag ⟨oneByteState, false⟩ rfl earlier ⟨trivial, by decide⟩ plain
  obtain rfl : [0xD0] = message := Option.some.inj found
  obtain rfl : 0 = offset := Option.some.inj walked
  obtain rfl : room = 48 := (Nat.zero_add room).symm.trans length
  obtain ⟨told, -, read, state⟩ :=
    follows calls (by simp [calls, Call.writesBlock]) fun n member => by simp [calls] at member
  refine ⟨rfl, ?_, read, state⟩
  obtain ⟨first, told⟩ := List.forall₂_cons.mp told
  obtain ⟨second, told⟩ := List.forall₂_cons.mp told
  obtain ⟨third, -⟩ := List.forall₂_cons.mp told
  exact congrArg₂ List.cons (first _ rfl)
    (congrArg₂ List.cons (second _ rfl) (congrArg₂ List.cons (third _ rfl) rfl))

end

end NfcForumTags
