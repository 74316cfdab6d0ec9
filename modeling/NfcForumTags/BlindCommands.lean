import NfcForumTags.SectorTracking

/-!
# Commands sent blind

A READ or WRITE is sent blind when the reader does not know the sector. Every operation
that serves addresses selects the sector again before it sends one, but `read` and
`write` called directly send their first attempt in any case. So a run sends nothing
blind exactly when these two are called in a known sector only. Nothing is assumed of
the transceiver.
-/
namespace NfcForumTags

open Program

section

variable {σ ε : Type} {build : Build} {t : Transceiver σ ε} {past : List (Exchange σ)}
  {m : Machine σ}

/-- The exchange carried no READ or WRITE, or the sector was known. -/
def Exchange.Sighted (exchange : Exchange σ) : Prop :=
  exchange.frame.isTransfer = true → exchange.sector ≠ .unknown

/-- No exchange since `past` was blind, and in an unknown sector nothing is cached. -/
structure Sighted (past : List (Exchange σ)) (m : Machine σ) : Prop where
  logged : Logged past Exchange.Sighted m
  empty : m.reader.sector = .unknown → m.reader.cacheBlock = none

/-! ## What keeps a run sighted -/

/-- Giving up the sector blinds no command that was sent. -/
theorem Sighted.forget (sighted : Sighted past m) : Sighted past m.forget :=
  ⟨sighted.logged.forget, fun _ => rfl⟩

/-- Nor does dropping the cache. -/
theorem Sighted.uncache (sighted : Sighted past m) : Sighted past m.uncache :=
  ⟨sighted.logged.uncache, fun _ => rfl⟩

/-- Whatever is sent but a READ or WRITE leaves a run sighted. -/
theorem Sighted.exchanged (sighted : Sighted past m) (frame : Frame) (after : σ)
    (allowed : frame.isTransfer = true → m.reader.sector ≠ .unknown) :
    Sighted past (m.exchanged frame after) :=
  ⟨sighted.logged.exchanged frame after allowed, sighted.empty⟩

variable (t past) in
/-- A selection sends no READ or WRITE. -/
theorem Sighted.select : SurvivesSelect t (Sighted past) (Sighted past) :=
  .ofSent (fun _ sighted => sighted.forget)
    (fun _ sighted => sighted.exchanged _ _ fun transfer => by cases transfer)
    (fun _ _ sighted => sighted.exchanged _ _ fun transfer => by cases transfer)
    fun _ _ sighted _ empty => ⟨sighted.logged.congr rfl, fun _ => empty⟩

variable (build t past) in
/-- A READ in a known sector is not blind, and its result is kept in that sector. -/
theorem Sighted.sendsRead (serving : Option Nat) (sector block : UInt8) :
    SurvivesSend t (fun m => Sighted past m ∧ m.serving = serving) (Sighted past)
      (Command.read block).toBytes (.known sector) fun _ next =>
        Sighted past next ∧ ∀ data, Sighted past (next.store build block data) := by
  have sent : ∀ m : Machine σ, Sighted past m → m.reader.sector = .known sector →
      Sighted past (m.sent t (Command.read block).toBytes) := by
    intro m sighted known
    exact sighted.exchanged _ _ fun _ => by rw [known]; simp
  constructor
  · intro m error holds known lost
    have left := (sent m holds.1 known).forget
    exact ⟨⟨left, holds.2⟩, left⟩
  · intro m raw holds known answered
    have kept := sent m holds.1 known
    refine ⟨kept, fun data => ?_⟩
    unfold Machine.store
    split
    · refine ⟨kept.logged.congr rfl, fun unknown => ?_⟩
      have tracked : m.reader.sector = .unknown := unknown
      rw [known] at tracked
      cases tracked
    · exact kept

variable (t past) in
/-- A WRITE in a known sector is not blind. -/
theorem Sighted.sendsWrite (serving : Option Nat) (sector block : UInt8) (page : Vector UInt8 4) :
    SurvivesSend t (fun m => Sighted past m ∧ m.serving = serving) (Sighted past)
      (Command.write block page).toBytes (.known sector) fun _ next =>
        Sighted past next.uncache := by
  have sent : ∀ m : Machine σ, Sighted past m → m.reader.sector = .known sector →
      Sighted past (m.sent t (Command.write block page).toBytes) := by
    intro m sighted known
    exact sighted.exchanged _ _ fun _ => by rw [known]; simp
  constructor
  · intro m error holds known lost
    have left := (sent m holds.1 known).forget
    exact ⟨⟨left, holds.2⟩, left⟩
  · intro m raw holds known answered
    exact (sent m holds.1 known).uncache

/-- A command for the address being served is sent in a known sector. -/
theorem Aimed.known {serving : Option Nat} {intended : SectorState} {block : UInt8}
    (aimed : Aimed serving intended block) : ∃ sector, intended = .known sector := by
  obtain ⟨-, target, -, -, -, known⟩ := aimed
  exact ⟨target, known⟩

variable (build t past) in
/-- The operations that serve addresses send nothing blind. -/
theorem sighted_keeps : Keeps build t (Sighted past) (Sighted past) where
  reads := {
    serve := fun _ _ sighted => ⟨sighted.logged.congr rfl, sighted.empty⟩
    select := Sighted.select t past
    sends := by
      intro serving intended block aimed
      obtain ⟨sector, rfl⟩ := aimed.known
      have sends := Sighted.sendsRead build t past serving sector block
      exact ⟨sends.lost, fun m raw holds known answered =>
        have kept := sends.answered m raw holds known answered
        ⟨fun data _ => ⟨kept.2 data, fun _ _ _ _ _ => trivial⟩, fun _ => kept.1⟩⟩
    cached := fun _ _ _ _ _ _ _ _ _ => trivial }
  writes := by
    intro serving intended block page aimed
    obtain ⟨sector, rfl⟩ := aimed.known
    have sends := Sighted.sendsWrite t past serving sector block page
    exact ⟨sends.lost, fun m raw holds known answered =>
      have kept := sends.answered m raw holds known answered
      ⟨fun _ => kept, fun _ => kept⟩⟩

/-- A READ or WRITE called in a known sector sends nothing blind. -/
theorem direct_sighted {call : Call} (direct : call.isDirect = true) (sighted : Sighted past m)
    {sector : UInt8} (known : m.reader.sector = .known sector) :
    Ensures (call.run build t) (fun _ next => Sighted past next)
      (fun _ next => Sighted past next) m := by
  have select := (Sighted.select t past).serving none
  have idle : Sighted past { m with serving := none } := ⟨sighted.logged.congr rfl, sighted.empty⟩
  cases call with
  | read blockNo =>
    have sends := Sighted.sendsRead build t past none sector blockNo
    rw [← known] at sends
    unfold Call.run NfcForumTags.idle
    rw [ensures_bind, ensures_modify]
    refine (read_rule (fun _ next => Sighted past next) select blockNo _ ⟨idle, rfl⟩ (fun _ => idle)
      ⟨sends.lost, ?_⟩).bind (fun _ _ kept => kept) (fun _ _ kept => kept.1)
    intro next raw kept tracked answered
    have after := sends.answered next raw kept tracked answered
    exact ⟨fun data _ => after.2 data, fun _ => after.1⟩
  | write blockNo data =>
    have sends := Sighted.sendsWrite t past none sector blockNo data
    rw [← known] at sends
    unfold Call.run NfcForumTags.idle
    rw [ensures_bind, ensures_modify]
    refine (write_rule (Sighted past) select blockNo data _ ⟨idle, rfl⟩ ⟨sends.lost, ?_⟩).bind
      (fun _ _ kept => kept) (fun _ _ kept => kept.1)
    intro next raw kept tracked answered
    have after := sends.answered next raw kept tracked answered
    exact ⟨fun _ => after, fun _ => after⟩
  | setMaxRetries _ | sectorSelect _ | readCc | readDataArea _ | readNdef | writeNdef _
  | invalidateCache | markTagStateUnknown => cases direct

/-- A call that is not a READ or WRITE in an unknown sector sends nothing blind. -/
theorem call_sighted (call : Call) (sighted : Sighted past m)
    (allowed : call.isDirect = true → m.reader.sector ≠ .unknown) :
    Ensures (call.run build t) (fun _ next => Sighted past next)
      (fun _ next => Sighted past next) m := by
  cases call with
  | read _ | write _ _ =>
    obtain ⟨sector, known⟩ : ∃ sector, m.reader.sector = .known sector := by
      cases tracked : m.reader.sector with
      | known sector => exact ⟨sector, rfl⟩
      | unknown => exact absurd tracked (allowed rfl)
    exact direct_sighted rfl sighted known
  | setMaxRetries n => exact ⟨sighted.logged.congr rfl, sighted.empty⟩
  | sectorSelect sector =>
    exact (sectorSelect_rule (Sighted.select t past) sector m sighted fun _ => sighted).bind
      (fun _ _ kept => kept) (fun _ _ kept => kept.1)
  | readCc | readDataArea _ | readNdef | writeNdef _ =>
    exact (sighted_keeps build t past).served_rule _ rfl m sighted
  | invalidateCache => exact sighted.uncache
  | markTagStateUnknown => exact sighted.forget

/-! ## What sends a command blind -/

/-- In an unknown sector the first attempt at a command is the only one. -/
theorem transceiveWithRetry_unknown {cmd : List UInt8} (unknown : m.reader.sector = .unknown) :
    Ensures (transceiveWithRetry t cmd) (fun _ next => next.trace = (m.sent t cmd).trace)
      (fun _ next => next.trace = (m.sent t cmd).trace) m := by
  unfold transceiveWithRetry
  simp only [ensures_bind, ensures_get, ensures_sendCommand]
  split
  · rfl
  · next error lost =>
    rw [ensures_unknown_invalidate, unknown]
    cases m.reader.maxRetries.toNat with
    | zero => rfl
    | succ remaining => rfl

variable (build t) in
/-- A READ or WRITE called in an unknown sector, with nothing cached, is sent blind. -/
theorem direct_blind {call : Call} (direct : call.isDirect = true)
    (unknown : m.reader.sector = .unknown) (empty : m.reader.cacheBlock = none) :
    ∃ exchange ∈ (call.after build t m).trace, ¬ exchange.Sighted := by
  obtain ⟨cmd, transfer, ensured⟩ : ∃ cmd, (Frame.command cmd).isTransfer = true ∧
      Ensures (call.run build t)
        (fun _ next => next.trace = (Machine.sent { m with serving := none } t cmd).trace)
        (fun _ next => next.trace = (Machine.sent { m with serving := none } t cmd).trace) m := by
    cases call with
    | read blockNo =>
      refine ⟨(Command.read blockNo).toBytes, rfl, ?_⟩
      unfold Call.run NfcForumTags.idle NfcForumTags.read
      simp only [ensures_bind, ensures_modify, ensures_get]
      rw [if_neg (by rw [empty]; simp), ensures_bind]
      refine Ensures.mono (transceiveWithRetry_unknown (m := { m with serving := none }) unknown) ?_
        (fun _ _ same => same)
      intro raw next same
      rw [ensures_bind, ensures_orProtocol]
      refine ⟨fun answer parsed => ?_, fun _ _ => same⟩
      cases answer with
      | data data =>
        rw [ensures_bind, ensures_storeCache]
        unfold Machine.store
        split <;> exact same
      | ack | nack _ | passiveAck => exact same
    | write blockNo data =>
      refine ⟨(Command.write blockNo data).toBytes, rfl, ?_⟩
      unfold Call.run NfcForumTags.idle NfcForumTags.write
      simp only [ensures_bind, ensures_modify]
      refine Ensures.mono (transceiveWithRetry_unknown (m := { m with serving := none }) unknown) ?_
        (fun _ _ same => same)
      intro raw next same
      rw [ensures_invalidateCache]
      exact ensures_expectAck (fun _ => same) fun _ _ => same
    | setMaxRetries _ | sectorSelect _ | readCc | readDataArea _ | readNdef | writeNdef _
    | invalidateCache | markTagStateUnknown => cases direct
  refine ⟨⟨none, .command cmd, m.reader.transceiver, (t.transceive cmd m.reader.transceiver).2,
    m.reader.sector⟩, ?_, fun sighted => sighted transfer unknown⟩
  rw [Call.after, ensured.always]
  exact List.mem_append_right _ (List.mem_singleton.mpr rfl)

/-! ## Runs -/

variable (build t) in
/-- Later calls keep what was exchanged. -/
theorem trace_run_append (before after : List Call) (m : Machine σ) :
    ∀ exchange ∈ (runCalls build t before m).trace,
      exchange ∈ (runCalls build t (before ++ after) m).trace := by
  intro exchange member
  obtain ⟨recent, trace, -⟩ := (KeepsCalls.logged build t
    (runCalls build t before m).trace).run_keeps after _ (logged_start _)
  unfold runCalls at trace member ⊢
  rw [List.foldl_append, trace]
  exact List.mem_append_left _ member

/-- One more call. -/
theorem runCalls_concat (calls : List Call) (call : Call) (m : Machine σ) :
    runCalls build t (calls ++ [call]) m = call.after build t (runCalls build t calls m) := by
  unfold runCalls
  rw [List.foldl_concat]

/-- A run that sent nothing blind is sighted, because a direct call in an unknown
sector would have been blind.

Induction on the calls from the last one. -/
theorem run_sighted {calls : List Call} {state : σ}
    (each : ∀ exchange ∈ (runCalls build t calls (.fresh state)).trace, exchange.Sighted) :
    Sighted [] (runCalls build t calls (.fresh state)) := by
  induction calls using List.reverseRecOn with
  | nil => exact ⟨logged_start _, fun _ => rfl⟩
  | append_singleton calls call inductionHypothesis =>
    have sighted := inductionHypothesis fun exchange member =>
      each exchange (trace_run_append build t calls [call] _ exchange member)
    rw [runCalls_concat] at each ⊢
    refine (call_sighted call sighted fun direct unknown => ?_).always
    obtain ⟨exchange, member, blind⟩ :=
      direct_blind build t direct unknown (sighted.empty unknown)
    exact blind (each exchange member)

/-- In every run of a new reader, in either build and over any transceiver, with errors
and NACKs wherever it likes: each READ and WRITE is sent while the sector is known,
exactly when each call of `read` and `write` is made while the sector is known. The
other operations establish the sector themselves.

Proof: a direct call in an unknown sector sends its first attempt blind. The other way
round, induction on the run from its end: no call sends a blind command unless it is direct
and starts without a known sector, since a repeated attempt comes behind its selection. -/
theorem noBlindCommand_iff (build : Build) (t : Transceiver σ ε) (state : σ) (calls : List Call) :
    (∀ exchange ∈ (runCalls build t calls (.fresh state)).trace,
      exchange.frame.isTransfer = true → exchange.sector ≠ .unknown) ↔
    ∀ before call after, calls = before ++ call :: after → call.isDirect = true →
      (runCalls build t before (.fresh state)).reader.sector ≠ .unknown := by
  constructor
  · rintro each before call after rfl direct unknown
    have sighted := run_sighted fun exchange member =>
      each exchange (trace_run_append build t before (call :: after) _ exchange member)
    obtain ⟨exchange, member, blind⟩ :=
      direct_blind build t direct unknown (sighted.empty unknown)
    refine blind (each exchange ?_)
    rw [List.append_cons]
    refine trace_run_append build t (before ++ [call]) after _ exchange ?_
    rw [runCalls_concat]
    exact member
  · intro known
    have sighted : Sighted [] (runCalls build t calls (.fresh state)) := by
      induction calls using List.reverseRecOn with
      | nil => exact ⟨logged_start _, fun _ => rfl⟩
      | append_singleton calls call inductionHypothesis =>
        have earlier := inductionHypothesis fun before direct after same =>
          known before direct (after ++ [call]) (by rw [same, List.append_assoc, List.cons_append])
        rw [runCalls_concat]
        exact (call_sighted call earlier fun direct => known calls call [] rfl direct).always
    obtain ⟨recent, trace, each⟩ := sighted.logged
    rw [trace]
    exact each

/-- A tag of one sector that answers everything. -/
def calmState : FlatState := ⟨fun _ => 0, 0⟩

/-- A WRITE called right after the tag's state was marked unknown is sent in an unknown
sector, as the first frame. -/
theorem write_blind :
    ¬ ∀ exchange ∈ (runCalls .alloc flatTag.toTransceiver [.markTagStateUnknown,
        .write 3 #v[0xE1, 0x10, 0x06, 0x0F]] (.fresh calmState)).trace,
      exchange.frame.isTransfer = true → exchange.sector ≠ .unknown := by
  decide +kernel

end

end NfcForumTags
