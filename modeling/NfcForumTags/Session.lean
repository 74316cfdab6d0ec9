import NfcForumTags.BlockWalk

/-!
# The session between reader and tag

A session is made of exchanges and of the caller's own marks: a READ or WRITE, whose
error loses the sector, a whole SECTOR SELECT sequence, which gives the sector up and
tracks the selected one on silence, or the mark that the tag's state is unknown. Whatever
the transceiver answers, every run of calls is a session, its marks standing where the
caller asks for them: the tracked sector is the one its events lead to, and the second
packet of a selection is sent right after an acknowledged first one, and only then.
-/
namespace NfcForumTags

open Program

/-! ## Operations made of whole exchanges -/

section

variable {σ ε : Type} {build : Build} {t : Transceiver σ ε} {I : Machine σ → Prop}

variable (t I) in
/-- An invariant of the trace, the transceiver and the tracked sector that outlasts a READ
or WRITE with what the reader makes of its answer, and a whole selection. -/
structure Outlasts : Prop where
  congr : ∀ m next : Machine σ, next.trace = m.trace →
    next.reader.transceiver = m.reader.transceiver → next.reader.sector = m.reader.sector →
    I m → I next
  answered : ∀ m cmd raw, BlockCommand cmd →
    (t.transceive cmd m.reader.transceiver).1 = .ok raw → I m → I (m.sent t cmd)
  lost : ∀ m cmd error, BlockCommand cmd →
    (t.transceive cmd m.reader.transceiver).1 = .error error → I m → I (m.sent t cmd).forget
  selects : ∀ sector, Preserves I (forceSectorSelect t sector)

namespace Outlasts

variable (outlasts : Outlasts t I)
include outlasts

/-- Dropping the cache keeps the invariant, which does not look at it. -/
theorem invalidateCache : Preserves I (invalidateCache : Operation σ ε Unit) :=
  preserves_modify fun m => outlasts.congr m _ rfl rfl rfl

/-- A selection keeps it, needed or not. -/
theorem sectorSelect (sector : UInt8) : Preserves I (sectorSelect t sector) := by
  refine (preserves_refuseIf _ _).bind fun _ => preserves_get.bind fun m => ?_
  split
  · exact preserves_pure _
  · exact outlasts.selects sector

/-- The attempts after a failed one.

Induction on their number: each is a selection and a command. -/
theorem retryTransceive {cmd : List UInt8} (known : BlockCommand cmd) (intended : SectorState)
    (remaining : Nat) (lastErr : ε) :
      Preserves I (retryTransceive t intended cmd remaining lastErr) := by
  induction remaining generalizing lastErr with
  | zero => exact preserves_throw _
  | succ remaining inductionHypothesis =>
    cases intended with
    | unknown => exact preserves_throw _
    | known sector =>
      refine (outlasts.selects sector).bind fun _ m holds => ?_
      rw [ensures_bind, ensures_sendCommand]
      split
      · next raw answered => exact outlasts.answered m cmd raw known answered holds
      · next error lost =>
        rw [ensures_unknown_invalidate]
        exact inductionHypothesis error _ (outlasts.lost m cmd error known lost holds)

/-- A command with its retries keeps it: the first attempt is answered or loses the sector,
and so does each later one behind its selection. -/
theorem transceiveWithRetry {cmd : List UInt8} (known : BlockCommand cmd) :
    Preserves I (transceiveWithRetry t cmd) := by
  refine preserves_get.bind fun m => preserves_get.bind fun m' => fun m holds => ?_
  rw [ensures_bind, ensures_sendCommand]
  split
  · next raw answered => exact outlasts.answered m cmd raw known answered holds
  · next error lost =>
    rw [ensures_unknown_invalidate]
    exact outlasts.retryTransceive known _ _ error _ (outlasts.lost m cmd error known lost holds)

/-- Keeping a READ result keeps it. -/
theorem storeCache (block : UInt8) (data : Vector UInt8 16) :
    Preserves I (storeCache build block data : Operation σ ε Unit) := by
  unfold NfcForumTags.storeCache
  split
  · exact preserves_modify fun m => outlasts.congr m _ rfl rfl rfl
  · exact preserves_pure _

/-- READ keeps the invariant, cached or exchanged. -/
theorem read (block : UInt8) : Preserves I (read build t block) := by
  refine preserves_get.bind fun m => ?_
  dsimp only
  split
  · exact preserves_pure _
  refine (outlasts.transceiveWithRetry (.read block)).bind fun raw => ?_
  refine (preserves_orProtocol _).bind fun answer => ?_
  cases answer with
  | data data => exact (outlasts.storeCache block data).bind fun _ => preserves_pure _
  | ack | nack _ | passiveAck => exact preserves_throw _

/-- WRITE keeps the invariant. -/
theorem write (block : UInt8) (page : Vector UInt8 4) : Preserves I (write t block page) :=
  (outlasts.transceiveWithRetry (.write block page)).bind fun _ =>
    outlasts.invalidateCache.bind fun _ => preserves_expectAck _

/-- An operation that goes from block to block keeps the invariant, whatever the blocks. -/
theorem roams : Roams build t (fun _ => True) I (fun _ => I) where
  serve := fun m _ => outlasts.congr m _ rfl rfl rfl
  select := fun sector m _ holds =>
    ((outlasts.sectorSelect sector m holds).and
      (sectorSelect_rule (survives_always t) sector m trivial
      fun _ => trivial)).mono (fun _ _ both => ⟨both.1, both.2.2.1⟩) fun _ _ left => left.1
  read := fun _ block m _ _ holds => outlasts.read block m holds
  write := fun _ block page m _ _ holds => outlasts.write block page m holds

/-- So does reading the container. -/
theorem readCc : Preserves I (readCc build t) :=
  fun m holds => outlasts.roams.readCc (fun _ _ _ kept => kept) trivial m holds

/-- So does reading the data area through any layout. -/
theorem readDataArea (layout : MemoryLayout) : Preserves I (readDataArea build t layout) :=
  fun m holds => outlasts.roams.readDataArea (fun _ _ _ kept => kept) (reaches_totalBytes layout)
    (fun _ _ _ _ _ _ => trivial) m holds

/-- So does `read_ndef`. -/
theorem readNdef : Preserves I (readNdef build t) :=
  fun m holds => outlasts.roams.readNdef (fun _ _ _ _ _ _ _ => trivial)
    trivial (fun _ _ _ kept => kept) m holds

/-- So does `write_ndef`, at whichever step it ends. -/
theorem writeNdef (ndefData : List UInt8) : Preserves I (writeNdef build t ndefData) :=
  fun m holds => outlasts.roams.writeNdef (fun _ _ _ _ _ _ _ => trivial)
    trivial (fun _ _ _ kept => kept)
    ndefData m holds

/-- Every call keeps the invariant but the one that gives up the sector at the caller's
wish. -/
theorem call {call : Call} (unmarked : call ≠ .markTagStateUnknown) :
    Preserves I (call.run build t) := by
  have idle : Preserves I (idle : Operation σ ε Unit) :=
    preserves_modify fun m => outlasts.congr m _ rfl rfl rfl
  cases call with
  | setMaxRetries n =>
    have retries : Preserves I (setMaxRetries n : Operation σ ε Unit) :=
      preserves_modify fun m => outlasts.congr m _ rfl rfl rfl
    exact retries.bind fun _ => preserves_pure _
  | read block =>
    exact idle.bind fun _ => (outlasts.read block).bind fun _ => preserves_pure _
  | write block page =>
    exact idle.bind fun _ => (outlasts.write block page).bind fun _ => preserves_pure _
  | sectorSelect sector => exact (outlasts.sectorSelect sector).bind fun _ => preserves_pure _
  | readCc => exact outlasts.readCc.bind fun _ => preserves_pure _
  | readDataArea layout => exact (outlasts.readDataArea layout).bind fun _ => preserves_pure _
  | readNdef => exact outlasts.readNdef.bind fun _ => preserves_pure _
  | writeNdef ndefData => exact (outlasts.writeNdef ndefData).bind fun _ => preserves_pure _
  | invalidateCache => exact outlasts.invalidateCache.bind fun _ => preserves_pure _
  | markTagStateUnknown => exact absurd rfl unmarked

end Outlasts

/-! ## The protocol -/

variable (t) in
/-- The first packet of a selection, sent with the sector given up. -/
def Exchange.part1 (serving : Option Nat) (state : σ) : Exchange σ :=
  ⟨serving, .command Command.sectorSelectPart1.toBytes, state,
    (t.transceive Command.sectorSelectPart1.toBytes state).2, .unknown⟩

variable (t) in
/-- Its second packet. -/
def Exchange.part2 (serving : Option Nat) (state : σ) (sector : UInt8) : Exchange σ :=
  ⟨serving, .packet (Command.sectorSelectPart2 sector).toBytes, state,
    (t.transceiveNoResponse (Command.sectorSelectPart2 sector).toBytes state).2, .unknown⟩

variable (t) in
/-- The first packet is acknowledged when sent in this state. -/
def Acknowledges (state : σ) : Prop :=
  ∃ raw, (t.transceive Command.sectorSelectPart1.toBytes state).1 = .ok raw ∧
    Command.sectorSelectPart1.parseAnswer raw = .ok .ack

/-- The sector tracked after an answer to the second packet: silence selects it. -/
def selectedSector (answer : Except ε (Option UInt8)) (sector : UInt8) : SectorState :=
  match answer with
  | .ok none => .known sector
  | _ => .unknown

/-- What happens in a session: an exchange, or the caller's mark that the tag's state is
unknown. -/
inductive Event (σ : Type) where
  | exchanged (exchange : Exchange σ)
  | marked

/-- The exchanges among some events. -/
def exchangesAmong (events : List (Event σ)) : List (Exchange σ) :=
  events.filterMap fun
    | .exchanged exchange => some exchange
    | .marked => none

/-- The exchanges of two histories are those of the first and those of the second. -/
@[simp] theorem exchangesAmong_append (events more : List (Event σ)) :
    exchangesAmong (events ++ more) = exchangesAmong events ++ exchangesAmong more :=
  List.filterMap_append

/-- An exchange is one of the exchanges. -/
@[simp] theorem exchangesAmong_exchanged (exchange : Exchange σ) :
    exchangesAmong [Event.exchanged exchange] = [exchange] := rfl

/-- A mark is none. -/
@[simp] theorem exchangesAmong_marked : exchangesAmong [(Event.marked : Event σ)] = [] := rfl

/-- Events that are all exchanges. -/
@[simp] theorem exchangesAmong_map (log : List (Exchange σ)) :
    exchangesAmong (log.map Event.exchanged) = log := by
  unfold exchangesAmong
  rw [List.filterMap_map]
  exact List.filterMap_some

variable (t) in
/-- Some events from a transceiver state on, the state they end in and the sector tracked
then. A command is sent with whatever sector is tracked, and its error loses the sector. A
selection gives the sector up first; its second packet is sent when the first one is
acknowledged, and the sector is tracked when that is answered by silence. Nothing else
changes the sector but a mark. -/
inductive Session (start : σ) : List (Event σ) → σ → SectorState → Prop where
  | started : Session start [] start (.known 0)
  | marked {events : List (Event σ)} {state : σ} {tracked : SectorState} :
    Session start events state tracked → Session start (events ++ [.marked]) state .unknown
  | answered {events : List (Event σ)} {state : σ} {tracked : SectorState} {cmd raw : List UInt8}
    {serving : Option Nat} : Session start events state tracked → BlockCommand cmd →
    (t.transceive cmd state).1 = .ok raw →
    Session start
      (events ++ [.exchanged ⟨serving, .command cmd, state, (t.transceive cmd state).2, tracked⟩])
      (t.transceive cmd state).2 tracked
  | lost {events : List (Event σ)} {state : σ} {tracked : SectorState}
      {cmd : List UInt8} {error : ε}
    {serving : Option Nat} : Session start events state tracked → BlockCommand cmd →
    (t.transceive cmd state).1 = .error error →
    Session start
      (events ++ [.exchanged ⟨serving, .command cmd, state, (t.transceive cmd state).2, tracked⟩])
      (t.transceive cmd state).2 .unknown
  | refused {events : List (Event σ)} {state : σ} {tracked : SectorState} (serving : Option Nat) :
    Session start events state tracked → ¬ Acknowledges t state →
    Session start (events ++ [.exchanged (Exchange.part1 t serving state)])
      (Exchange.part1 t serving state).after .unknown
  | selected {events : List (Event σ)} {state : σ} {tracked : SectorState} {sector : UInt8}
    (serving : Option Nat) :
    Session start events state tracked → Acknowledges t state → sector ≤ MAX_SECTOR →
    Session start
      (events ++ [.exchanged (Exchange.part1 t serving state)] ++
        [.exchanged (Exchange.part2 t serving (Exchange.part1 t serving state).after sector)])
      (Exchange.part2 t serving (Exchange.part1 t serving state).after sector).after
      (selectedSector (t.transceiveNoResponse (Command.sectorSelectPart2 sector).toBytes
        (Exchange.part1 t serving state).after).1 sector)

/-! ## The sector the events lead to -/

variable (t) in
/-- The sector tracked after an event. A mark and a first packet give it up, an error of
another command loses it, and a second packet selects the one that it names. -/
def Event.track (tracked : SectorState) : Event σ → SectorState
  | .marked => .unknown
  | .exchanged exchange =>
    match exchange.frame with
    | .command cmd =>
      if cmd = Command.sectorSelectPart1.toBytes then .unknown
      else
        match (t.transceive cmd exchange.before).1 with
        | .ok _ => tracked
        | .error _ => .unknown
    | .packet bytes =>
      selectedSector (t.transceiveNoResponse bytes exchange.before).1 (bytes.headD 0)

variable (t) in
/-- The sector tracked after some events by a reader that was new ahead of them. -/
def trackedAfter (events : List (Event σ)) : SectorState :=
  events.foldl (Event.track t) (.known 0)

/-- READ and WRITE are not the first packet of a selection. -/
theorem BlockCommand.distinct {cmd : List UInt8} (known : BlockCommand cmd) :
    cmd ≠ Command.sectorSelectPart1.toBytes := by
  cases known <;> simp [Command.toBytes, CMD_READ, CMD_WRITE, CMD_SECTOR_SELECT]

/-- The events of a session determine the tracked sector.

Induction on the session. -/
theorem Session.determined {start state : σ} {tracked : SectorState} {events : List (Event σ)}
    (session : Session t start events state tracked) : tracked = trackedAfter t events := by
  unfold trackedAfter
  induction session with
  | started => rfl
  | marked _ _ => simp only [List.foldl_append, List.foldl_cons, List.foldl_nil, Event.track]
  | answered _ known answered inductionHypothesis =>
    simp only [List.foldl_append, List.foldl_cons, List.foldl_nil, Event.track,
      if_neg known.distinct, answered]
    exact inductionHypothesis
  | lost _ known lost _ =>
    simp only [List.foldl_append, List.foldl_cons, List.foldl_nil, Event.track,
      if_neg known.distinct, lost]
  | refused _ _ _ _ =>
    simp only [List.foldl_append, List.foldl_cons, List.foldl_nil, Event.track, Exchange.part1,
      if_pos]
  | selected _ _ _ _ _ =>
    simp only [List.foldl_append, List.foldl_cons, List.foldl_nil, Event.track, Exchange.part2]
    rfl

/-! ## Runs are sessions -/

section

variable (build t)

/-- The events of a call on a machine: its mark, or else the exchanges it adds. -/
def Call.events (call : Call) (m : Machine σ) : List (Event σ) :=
  match call with
  | .markTagStateUnknown => [.marked]
  | call => (exchangesOf build t call m).map .exchanged

/-- The events of a run of calls: those of each call in turn. -/
def runEvents : List Call → Machine σ → List (Event σ)
  | [], _ => []
  | call :: calls, m => call.events build t m ++ runEvents calls (call.after build t m)

end

variable (t) in
/-- A machine that has added only exchanges to a trace, which go on with a session. -/
def GoesOn (start : σ) (events : List (Event σ)) (past : List (Exchange σ))
    (m : Machine σ) : Prop :=
  ∃ recent, m.trace = past ++ recent ∧
    Session t start (events ++ recent.map .exchanged) m.reader.transceiver m.reader.sector

/-- Further exchanges go on with it. -/
theorem GoesOn.add {start : σ} {events : List (Event σ)} {past recent new : List (Exchange σ)}
    {m next : Machine σ} (added : m.trace = past ++ recent) (more : next.trace = m.trace ++ new)
    (session : Session t start (events ++ recent.map .exchanged ++ new.map .exchanged)
      next.reader.transceiver next.reader.sector) : GoesOn t start events past next := by
  refine ⟨recent ++ new, by rw [more, added, List.append_assoc], ?_⟩
  rw [List.map_append, ← List.append_assoc]
  exact session

/-- Every call but a mark goes on with the session by its exchanges alone. -/
theorem goesOn_outlasts (start : σ) (events : List (Event σ)) (past : List (Exchange σ)) :
    Outlasts t (GoesOn t start events past) where
  congr := by
    rintro m next trace transceiver sector ⟨recent, added, session⟩
    exact ⟨recent, trace.trans added, by rw [transceiver, sector]; exact session⟩
  answered := by
    rintro m cmd raw known answered ⟨recent, added, session⟩
    exact GoesOn.add added rfl (session.answered known answered)
  lost := by
    rintro m cmd error known lost ⟨recent, added, session⟩
    exact GoesOn.add added rfl (session.lost known lost)
  selects := by
    rintro sector m ⟨recent, added, session⟩
    unfold forceSectorSelect
    rw [ensures_bind, ensures_refuseIf]
    refine ⟨fun allowed => ?_, fun _ => ⟨recent, added, session⟩⟩
    rw [ensures_invalidate_unknown]
    simp only [ensures_bind, ensures_sendCommand, ensures_orTransceiver]
    by_cases acknowledged : Acknowledges t m.reader.transceiver
    · obtain ⟨raw, answered, parsed⟩ := acknowledged
      have selected := session.selected m.serving ⟨raw, answered, parsed⟩ (UInt8.not_lt.mp allowed)
      refine ⟨fun value same => ?_, fun error lost => ?_⟩
      · obtain rfl := Except.ok.inj (answered.symm.trans same)
        refine ensures_expectAck (fun _ => ?_) fun nacked => absurd parsed nacked
        simp only [ensures_sendPacket]
        -- Both packets are in the log, whatever the second one is answered.
        rw [List.append_assoc] at selected
        have tracked : ∀ answer,
            (t.transceiveNoResponse (Command.sectorSelectPart2 sector).toBytes
              (Exchange.part1 t m.serving m.reader.transceiver).after).1 = answer →
            ∀ next : Machine σ,
            next.trace = m.trace ++ [Exchange.part1 t m.serving m.reader.transceiver] ++
              [Exchange.part2 t m.serving
                (Exchange.part1 t m.serving m.reader.transceiver).after sector] →
            next.reader.transceiver = (Exchange.part2 t m.serving
              (Exchange.part1 t m.serving m.reader.transceiver).after sector).after →
            next.reader.sector = selectedSector answer sector →
                GoesOn t start events past next := by
          rintro answer rfl next trace transceiver tracked
          refine GoesOn.add added (trace.trans (List.append_assoc _ _ _)) ?_
          rw [transceiver, tracked]
          exact selected
        refine ⟨fun nack answered => ?_, fun error lost => tracked _ lost _ rfl rfl rfl⟩
        cases nack with
        | none => exact tracked _ answered _ rfl rfl rfl
        | some code => exact tracked _ answered _ rfl rfl rfl
      · cases answered.symm.trans lost
    · have refused : GoesOn t start events past
          (m.forget.sent t Command.sectorSelectPart1.toBytes) :=
        GoesOn.add added rfl (session.refused m.serving acknowledged)
      refine ⟨fun raw answered => ?_, fun error lost => refused⟩
      exact ensures_expectAck (fun acked => absurd ⟨raw, answered, acked⟩ acknowledged)
        fun _ _ => refused

variable (build) in
/-- A call goes on with a session by its events, and logs the exchanges among them. -/
theorem Call.session {start : σ} {events : List (Event σ)} {m : Machine σ} (call : Call)
    (session : Session t start events m.reader.transceiver m.reader.sector) :
    let next := call.after build t m
    Session t start (events ++ call.events build t m) next.reader.transceiver next.reader.sector ∧
    next.trace = m.trace ++ exchangesAmong (call.events build t m) := by
  intro next
  by_cases marks : call = .markTagStateUnknown
  · subst marks
    exact ⟨session.marked, by rw [Call.events, exchangesAmong_marked, List.append_nil]; rfl⟩
  · have going : GoesOn t start events m.trace m :=
      ⟨[], (List.append_nil _).symm, by rw [List.map_nil, List.append_nil]; exact session⟩
    have goes : Preserves (GoesOn t start events m.trace) (call.run build t) :=
      (goesOn_outlasts start events m.trace).call marks
    obtain ⟨recent, added, onward⟩ := (goes m going).always
    have own : call.events build t m = recent.map .exchanged := by
      have same : call.events build t m = (exchangesOf build t call m).map .exchanged := by
        cases call <;> first | rfl | exact absurd rfl marks
      rw [same, exchangesOf, show next.trace = _ from added, List.drop_left]
    rw [own, exchangesAmong_map]
    exact ⟨onward, added⟩

variable (build) in
/-- So does a run.

Induction on the calls. -/
theorem runEvents_session (calls : List Call) {start : σ} {events : List (Event σ)} {m : Machine σ}
    (session : Session t start events m.reader.transceiver m.reader.sector) :
    let next := runCalls build t calls m
    Session t start (events ++ runEvents build t calls m) next.reader.transceiver
      next.reader.sector ∧
    next.trace = m.trace ++ exchangesAmong (runEvents build t calls m) := by
  induction calls generalizing m events with
  | nil =>
    rw [runEvents, List.append_nil]
    exact ⟨session, (List.append_nil _).symm⟩
  | cons call calls inductionHypothesis =>
    obtain ⟨first, added⟩ := call.session build session
    obtain ⟨rest, more⟩ := inductionHypothesis first
    rw [runEvents, exchangesAmong_append, ← List.append_assoc, ← List.append_assoc]
    refine ⟨rest, more.trans ?_⟩
    rw [added]

/-! ## Packets in pairs -/

variable (t) in
/-- What an exchange of a log is, by what is ahead of it and behind it: a READ or WRITE; a
first packet, which if acknowledged is followed by a second one; or a second packet with
an addressable sector, right after an acknowledged first one. -/
inductive Placed (past : List (Exchange σ)) (exchange : Exchange σ)
    (behind : List (Exchange σ)) : Prop where
  | block {cmd : List UInt8} : exchange.frame = .command cmd → BlockCommand cmd →
    Placed past exchange behind
  | first : exchange.frame = .command Command.sectorSelectPart1.toBytes →
      exchange.sector = .unknown →
    (Acknowledges t exchange.before → ∃ second others sector, behind = second :: others ∧
      second.frame = .packet (Command.sectorSelectPart2 sector).toBytes) →
    Placed past exchange behind
  | second {sector : UInt8} {earlier : List (Exchange σ)} {first : Exchange σ} :
    exchange.frame = .packet (Command.sectorSelectPart2 sector).toBytes → sector ≤ MAX_SECTOR →
    exchange.sector = .unknown → past = earlier ++ [first] →
    first.frame = .command Command.sectorSelectPart1.toBytes → Acknowledges t first.before →
    exchange.before = first.after → Placed past exchange behind

/-- What is added behind changes nothing. -/
theorem Placed.extend {past behind : List (Exchange σ)} {exchange : Exchange σ}
    (placed : Placed t past exchange behind) (later : List (Exchange σ)) :
    Placed t past exchange (behind ++ later) := by
  cases placed with
  | block frame known => exact .block frame known
  | first frame unknown followed =>
    refine .first frame unknown fun acknowledged => ?_
    obtain ⟨second, others, sector, rfl, packet⟩ := followed acknowledged
    exact ⟨second, others ++ later, sector, rfl, packet⟩
  | second frame allowed unknown shape packet acknowledged next =>
    exact .second frame allowed unknown shape packet acknowledged next

/-- The last entry of a log, or an earlier one. -/
theorem eq_concat {α : Type} {log past behind : List α} {last entry : α}
    (split : log ++ [last] = past ++ entry :: behind) :
    (log = past ∧ last = entry ∧ behind = []) ∨
      ∃ others, behind = others ++ [last] ∧ log = past ++ entry :: others := by
  rcases List.eq_nil_or_concat behind with rfl | ⟨others, final, rfl⟩
  · obtain ⟨rfl, same⟩ := List.append_inj' split rfl
    exact Or.inl ⟨rfl, List.head_eq_of_cons_eq same, rfl⟩
  · rw [List.concat_eq_append, ← List.cons_append, ← List.append_assoc] at split
    obtain ⟨rfl, same⟩ := List.append_inj' split rfl
    exact Or.inr ⟨others, by rw [List.head_eq_of_cons_eq same, List.concat_eq_append], rfl⟩

/-- Every exchange of a session is in its place.

Induction on the session: what is added is in its place, and leaves the others there. -/
theorem Session.placed {start state : σ} {tracked : SectorState} {events : List (Event σ)}
    (session : Session t start events state tracked) {past behind : List (Exchange σ)}
    {exchange : Exchange σ} (split : exchangesAmong events = past ++ exchange :: behind) :
    Placed t past exchange behind := by
  induction session generalizing behind with
  | started => simp [exchangesAmong] at split
  | marked _ inductionHypothesis =>
    rw [exchangesAmong_append, exchangesAmong_marked, List.append_nil] at split
    exact inductionHypothesis split
  | answered _ known _ inductionHypothesis =>
    rw [exchangesAmong_append, exchangesAmong_exchanged] at split
    obtain ⟨rfl, rfl, rfl⟩ | ⟨others, rfl, earlier⟩ := eq_concat split
    · exact .block rfl known
    · exact (inductionHypothesis earlier).extend _
  | lost _ known _ inductionHypothesis =>
    rw [exchangesAmong_append, exchangesAmong_exchanged] at split
    obtain ⟨rfl, rfl, rfl⟩ | ⟨others, rfl, earlier⟩ := eq_concat split
    · exact .block rfl known
    · exact (inductionHypothesis earlier).extend _
  | refused _ _ refused inductionHypothesis =>
    rw [exchangesAmong_append, exchangesAmong_exchanged] at split
    obtain ⟨rfl, rfl, rfl⟩ | ⟨others, rfl, earlier⟩ := eq_concat split
    · exact .first rfl rfl fun acknowledged => absurd acknowledged refused
    · exact (inductionHypothesis earlier).extend _
  | selected _ _ acknowledged allowed inductionHypothesis =>
    rw [exchangesAmong_append, exchangesAmong_append, exchangesAmong_exchanged,
      exchangesAmong_exchanged] at split
    obtain ⟨rfl, rfl, rfl⟩ | ⟨others, rfl, earlier⟩ := eq_concat split
    · exact .second rfl allowed rfl rfl rfl acknowledged rfl
    obtain ⟨rfl, rfl, rfl⟩ | ⟨others, rfl, past⟩ := eq_concat earlier
    · exact .first rfl rfl fun _ => ⟨_, [], _, rfl, rfl⟩
    · exact ((inductionHypothesis past).extend _).extend _

/-- Whatever a transceiver answers, every run of calls on a new reader is a session of the
protocol, which ends in the state that the transceiver is left in. Its events are the
exchanges of the run and a mark for each call of `mark_tag_state_unknown`, in the order of
the calls, and they lead to the sector that the reader tracks; and every exchange of the
run is in its place.

Proof: each call goes on with the session by its own events, and what the last event of a
session adds is in its place and leaves the earlier exchanges in theirs. -/
theorem runs_session (build : Build) (t : Transceiver σ ε) (state : σ) (calls : List Call) :
    let m := runCalls build t calls (.fresh state)
    let events := runEvents build t calls (.fresh state)
    exchangesAmong events = m.trace ∧
    Session t state events m.reader.transceiver m.reader.sector ∧
    m.reader.sector = trackedAfter t events ∧
    ∀ past exchange behind, m.trace = past ++ exchange :: behind →
        Placed t past exchange behind := by
  intro m events
  have start : Session t state [] (Machine.fresh state).reader.transceiver
      (Machine.fresh state).reader.sector := .started
  obtain ⟨session, added⟩ := runEvents_session build calls start
  have logged : m.trace = exchangesAmong events := added
  refine ⟨logged.symm, session, session.determined, fun past exchange behind split => ?_⟩
  exact session.placed (logged.symm.trans split)

end

end NfcForumTags
