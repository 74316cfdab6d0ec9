import NfcForumTags.UncachedReader
import NfcForumTags.BlindCommands

/-!
# Commands of the caller's own

A reader lets its owner send commands it does not know: through its transceiver, which
waits for a response or expects silence, or through its retry loop. It asks to drop the
cache after one that may have written, and to forget the tag's state after one with an
ambiguous outcome. Who does so, and forgets the state after a command that leaves the
sector as well, finds the reader as good as if all commands were the reader's own.
-/
namespace NfcForumTags

open Program

section

variable {σ ε : Type}

/-- What the owner of a reader does next: a call, or a command of its own followed by what
the reader asks for, which depends on whether the command `writes`. -/
inductive Step where
  | call (call : Call)
  /-- `transceive_with_retry`; when it returns, `invalidate_cache` after one that writes. -/
  | retried (cmd : List UInt8) (writes : Bool)
  /-- A call of the transceiver itself, and `mark_tag_state_unknown` on an error; when it
  returns, `invalidate_cache` after one that writes. -/
  | direct (frame : Frame) (writes : Bool)
  /-- A call of the transceiver itself, and `mark_tag_state_unknown` whatever it answers. -/
  | ambiguous (frame : Frame)

section

variable (build : Build) (t : Transceiver σ ε)

/-- A call of the transceiver's `transceive` or `transceive_no_response`, and whether it
returned without an error. -/
def Frame.send : Frame → Operation σ ε Bool
  | .command cmd => do
    match ← sendCommand t cmd with
    | .ok _ => return true
    | .error _ => return false
  | .packet cmd => do
    match ← sendPacket t cmd with
    | .ok _ => return true
    | .error _ => return false

/-- The operation of a step. -/
def Step.run : Step → Operation σ ε Unit
  | .call operation => do let _ ← operation.run build t
  | .retried cmd writes => do
    let _ ← transceiveWithRetry t cmd
    if writes then invalidateCache
  | .direct frame writes => do
    if ← frame.send t then
      if writes then invalidateCache
    else markTagStateUnknown
  | .ambiguous frame => do
    let _ ← frame.send t
    markTagStateUnknown

/-- The transceiver's state after a frame that is sent in this state. -/
def Frame.after : Frame → σ → σ
  | .command cmd, state => (t.transceive cmd state).2
  | .packet cmd, state => (t.transceiveNoResponse cmd state).2

/-- The frame, sent in this state, does not err. -/
def Frame.Answered : Frame → σ → Prop
  | .command cmd, state => ∃ raw, (t.transceive cmd state).1 = .ok raw
  | .packet cmd, state => ∃ nack, (t.transceiveNoResponse cmd state).1 = .ok nack

end

variable {build : Build} {tag : Tag σ ε} {m : Machine σ}

/-- Sending a frame logs it, and tells whether it was answered. -/
theorem ensures_send {t : Transceiver σ ε} {frame : Frame} {returns : Bool → Machine σ → Prop}
    {fails : ReaderError ε → Machine σ → Prop}
    (answered : frame.Answered t m.reader.transceiver →
      returns true (m.exchanged frame (frame.after t m.reader.transceiver)))
    (lost : returns false (m.exchanged frame (frame.after t m.reader.transceiver))) :
    Ensures (frame.send t) returns fails m := by
  cases frame with
  | command cmd =>
    unfold Frame.send
    rw [ensures_bind, ensures_sendCommand]
    split
    · next raw same => exact answered ⟨raw, same⟩
    · exact lost
  | packet cmd =>
    unfold Frame.send
    rw [ensures_bind, ensures_sendPacket]
    split
    · next nack same => exact answered ⟨nack, same⟩
    · exact lost

/-- An answer to the frame says that the tag is still in its sector, and has the memory it
had unless the command `writes`. -/
def Keeping (tag : Tag σ ε) (frame : Frame) (writes : Bool) : Prop :=
  ∀ state, frame.Answered tag.toTransceiver state →
    tag.active (frame.after tag.toTransceiver state) = tag.active state ∧
    (writes = false → tag.memory (frame.after tag.toTransceiver state) = tag.memory state)

/-- A command after which the sector stays known leaves it, and one after which the cache
stays leaves the memory. -/
def Step.Fair (tag : Tag σ ε) : Step → Prop
  | .retried cmd writes => Keeping tag (.command cmd) writes
  | .direct frame writes => Keeping tag frame writes
  | .call _ | .ambiguous _ => True

variable (build tag) in
/-- Coherence outlasts every selection. -/
theorem coherent_select :
    SurvivesSelect tag.toTransceiver (Coherent build tag) (Coherent build tag) := by
  have select := Held.select build tag [] (P := fun _ => True) (M := fun _ => True)
    (E := Coherent build tag) (fun _ _ _ => trivial) fun _ held => held.coherent
  have held : ∀ m, Coherent build tag m → Held build tag [] (fun _ => True) (fun _ => True) m :=
    fun m coherent => ⟨coherent, trivial, m.trace, rfl, fun _ _ => trivial⟩
  exact {
    forget := fun m coherent => (select.forget m (held m coherent)).coherent
    part1 := fun m raw coherent unknown empty answered acked =>
      (select.part1 m raw (held m coherent) unknown empty answered acked).coherent
    part1_lost := fun m error coherent => select.part1_lost m error (held m coherent)
    part1_refused := fun m raw coherent => select.part1_refused m raw (held m coherent)
    part2_refused := fun m sector coherent => select.part2_refused m sector (held m coherent)
    selected := fun m sector coherent allowed empty answered =>
      (select.selected m sector (held m coherent) allowed empty answered).coherent }

/-- An answered command leaves the reader coherent: with its cache, if it does not write,
and once that is dropped in any case. -/
theorem Coherent.answered {frame : Frame} {writes : Bool} (coherent : Coherent build tag m)
    (keeping : Keeping tag frame writes)
    (answered : frame.Answered tag.toTransceiver m.reader.transceiver) :
    let next := m.exchanged frame (frame.after tag.toTransceiver m.reader.transceiver)
    Coherent build tag next.uncache ∧ (writes = false → Coherent build tag next) := by
  obtain ⟨sector, memory⟩ := keeping m.reader.transceiver answered
  have tracks : ∀ selected, m.reader.sector = .known selected →
      tag.active (frame.after tag.toTransceiver m.reader.transceiver) = selected :=
    fun selected known => sector.trans (coherent.tracks selected known)
  constructor
  · exact {
      tracks
      cached := by
        intro block hit
        cases hit
      uncached := fun _ => rfl }
  · intro reads
    refine ⟨tracks, fun block hit => ?_, coherent.uncached⟩
    have same := coherent.cached block hit
    unfold Tag.memoryOf SectorTag.activeOf at same
    rw [← memory reads, ← sector] at same
    exact same

/-- A log that a selection does not concern. -/
theorem Logged.select (t : Transceiver σ ε) (past : List (Exchange σ)) {P : Exchange σ → Prop}
    (other : ∀ exchange, exchange.frame = .command Command.sectorSelectPart1.toBytes ∨
      (∃ bytes, exchange.frame = .packet bytes) → P exchange) :
    SurvivesSelect t (Logged past P) (Logged past P) :=
  .ofSent (fun _ logged => logged.forget)
    (fun _ logged => logged.exchanged _ _ (other _ (Or.inl rfl)))
    (fun _ _ logged => logged.exchanged _ _ (other _ (Or.inr ⟨_, rfl⟩)))
    fun _ _ logged _ _ => logged.congr rfl

/-- The retry loop leaves the reader coherent when it fails, and when it is answered as a
single command does. -/
theorem transceiveWithRetry_coherent {cmd : List UInt8} {writes : Bool}
    (keeping : Keeping tag (.command cmd) writes) (coherent : Coherent build tag m) :
    Ensures (transceiveWithRetry tag.toTransceiver cmd)
      (fun _ next => Coherent build tag next.uncache ∧ (writes = false → Coherent build tag next))
      (fun _ next => Coherent build tag next) m := by
  have sends : SurvivesSend tag.toTransceiver (Coherent build tag) (Coherent build tag) cmd
      m.reader.sector fun _ next =>
        Coherent build tag next.uncache ∧ (writes = false → Coherent build tag next) :=
    ⟨fun _ _ _ _ _ => ⟨blank_coherent rfl rfl, blank_coherent rfl rfl⟩,
      fun _ raw coherent _ answered => coherent.answered keeping ⟨raw, answered⟩⟩
  exact (transceiveWithRetry_rule (coherent_select build tag) m sends coherent).mono
    (fun _ _ answered => answered.1) fun _ _ left => left

/-- Every step of an owner who heeds what the reader asks for leaves the reader coherent. -/
theorem Step.coherent (step : Step) (fair : step.Fair tag) (coherent : Coherent build tag m) :
    Coherent build tag (stateAfter (step.run build tag.toTransceiver) m) := by
  apply Ensures.always
  cases step with
  | call operation =>
    have kept := (held_keepsCalls build tag).call_rule operation m
      ⟨coherent, trivial, m.trace, rfl, fun _ _ => trivial⟩
    exact kept.bind (fun _ _ held => held.coherent) fun _ _ held => held.coherent
  | retried cmd writes =>
    refine (transceiveWithRetry_coherent fair coherent).bind (fun _ _ left => left) ?_
    rintro - next ⟨dropped, kept⟩
    cases writes with
    | true => exact dropped
    | false => exact kept rfl
  | direct frame writes =>
    refine Ensures.bind (ensures_send (fun answered => ?_) ?_) (fun _ _ left => left)
      (fun _ _ after => after)
    · obtain ⟨dropped, kept⟩ := coherent.answered fair answered
      cases writes with
      | true => exact dropped
      | false => exact kept rfl
    · exact blank_coherent rfl rfl
  | ambiguous frame =>
    refine Ensures.bind (ensures_send (fun _ => ?_) ?_) (fun _ _ left => left)
      (fun _ _ after => after)
    · exact blank_coherent rfl rfl
    · exact blank_coherent rfl rfl

end

end NfcForumTags
