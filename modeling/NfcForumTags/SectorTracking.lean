import NfcForumTags.TagRules
import NfcForumTags.Simulation

/-!
# Sector tracking

In every state of a run the sector the reader believes to be selected is the
tag's active one, whatever fails on the way. A command sent by an operation that
serves byte addresses is therefore received in the sector of its address, and a
READ or WRITE called in a known sector is received there, first attempt and
retries alike.
-/
namespace NfcForumTags

open Program

/-- The operations that send a READ or WRITE for a block of the current sector. -/
def Call.isDirect : Call → Bool
  | .read _ | .write _ _ => true
  | _ => false

section

variable {σ ε : Type} {build : Build} {tag : SectorTag σ ε}

/-- Every call keeps the sector tracked. -/
theorem tracked_keepsCalls (build : Build) (tag : SectorTag σ ε) :
    KeepsCalls build tag.toTransceiver (Tracked tag [] fun _ => True) where
  serving := fun _ _ tracked => ⟨tracked.tracks, tracked.logged.congr rfl⟩
  select := Tracked.select tag [] fun _ _ => trivial
  uncache := fun _ tracked => tracked.uncache
  lost := fun _ _ _ _ tracked _ => tracked.lost _ trivial
  read := fun m block raw tracked answered =>
    have kept := tracked.answered _ trivial
      (tag.read_active m.reader.transceiver block raw answered)
    ⟨kept, fun data _ => kept.store build block data⟩
  written := fun m block page raw tracked answered =>
    (tracked.answered _ trivial
      (tag.write_active m.reader.transceiver block page raw answered)).uncache
  retries := fun _ _ tracked => ⟨tracked.tracks, tracked.logged.congr rfl⟩

/-- After every run from a new reader on a tag in sector 0 the sector is tracked. -/
theorem tracks_run (build : Build) (tag : SectorTag σ ε) (calls : List Call) (state : σ)
    (start : tag.active state = 0) :
    Tracks tag (runCalls build tag.toTransceiver calls (.fresh state)) := by
  refine ((tracked_keepsCalls build tag).run_keeps calls _ ⟨?_, logged_start _⟩).tracks
  intro sector known
  cases known
  exact start

/-- A call that serves addresses sends every READ and WRITE in place. -/
theorem served_inPlace (build : Build) (tag : SectorTag σ ε) (call : Call)
    (serves : call.servesAddresses = true) (m : Machine σ) (tracks : Tracks tag m) :
    Logged m.trace (fun exchange => exchange.frame.isTransfer = true → InPlace tag exchange)
      (call.after build tag.toTransceiver m) := by
  have keeps := Tracked.keeps build tag m.trace
  have holds : Tracked tag m.trace
      (fun exchange => exchange.frame.isTransfer = true → InPlace tag exchange) m :=
    ⟨tracks, logged_start m⟩
  exact (keeps.served_rule call serves m holds).always.logged

/-- A READ or WRITE is received in the sector. -/
def ReceivedIn (tag : SectorTag σ ε) (sector : UInt8) (exchange : Exchange σ) : Prop :=
  exchange.frame.isTransfer = true → tag.active exchange.before = sector

/-- A READ or WRITE called in a known sector is received in that sector. -/
theorem direct_received (build : Build) (tag : SectorTag σ ε) (call : Call)
    (direct : call.isDirect = true) (m : Machine σ) (tracks : Tracks tag m) (sector : UInt8)
    (known : m.reader.sector = .known sector) :
    Logged m.trace (ReceivedIn tag sector) (call.after build tag.toTransceiver m) := by
  have select := Tracked.select tag m.trace (P := ReceivedIn tag sector)
    fun exchange packet transfer => by rw [packet] at transfer; cases transfer
  have holds : Tracked tag m.trace (ReceivedIn tag sector) { m with serving := none } :=
    ⟨tracks, (logged_start m).congr rfl⟩
  have ensured : Ensures (call.run build tag.toTransceiver)
      (fun _ next => Tracked tag m.trace (ReceivedIn tag sector) next)
      (fun _ next => Tracked tag m.trace (ReceivedIn tag sector) next) m := by
    cases call with
    | read blockNo =>
      have sends := Tracked.sendsRead tag m.trace (P := ReceivedIn tag sector)
        build none m.reader.sector blockNo fun next tracksNext _ tracked _ =>
          tracksNext sector (tracked.trans known)
      unfold Call.run NfcForumTags.idle
      rw [ensures_bind, ensures_modify]
      refine (read_rule (fun _ next => Tracked tag m.trace (ReceivedIn tag sector) next)
        (select.serving none) blockNo _ ⟨holds, rfl⟩ (fun _ => holds) ⟨sends.lost, ?_⟩).bind
        (fun _ _ kept => kept) (fun _ _ kept => kept.1)
      intro next raw kept tracked answered
      have after := sends.answered next raw kept tracked answered
      exact ⟨fun data _ => after.2 data, fun _ => after.1⟩
    | write blockNo data =>
      have sends := Tracked.sendsWrite tag m.trace (P := ReceivedIn tag sector)
        none m.reader.sector blockNo data fun next tracksNext _ tracked _ =>
          tracksNext sector (tracked.trans known)
      unfold Call.run NfcForumTags.idle
      rw [ensures_bind, ensures_modify]
      refine (write_rule (Tracked tag m.trace (ReceivedIn tag sector))
        (select.serving none) blockNo data _ ⟨holds, rfl⟩ ⟨sends.lost, ?_⟩).bind
        (fun _ _ kept => kept) (fun _ _ kept => kept.1)
      intro next raw kept tracked answered
      have after := sends.answered next raw kept tracked answered
      exact ⟨fun _ => after, fun _ => after⟩
    | setMaxRetries _ | sectorSelect _ | readCc | readDataArea _ | readNdef | writeNdef _
    | invalidateCache | markTagStateUnknown => cases direct
  exact ensured.always.logged

/-- What is logged since a machine's trace holds of the exchanges a call adds. -/
theorem Logged.exchangesOf {t : Transceiver σ ε} {call : Call} {m : Machine σ}
    {P : Exchange σ → Prop} (logged : Logged m.trace P (call.after build t m)) :
    ∀ exchange ∈ NfcForumTags.exchangesOf build t call m, P exchange := by
  obtain ⟨recent, trace, each⟩ := logged
  unfold NfcForumTags.exchangesOf
  rw [trace, List.drop_left]
  exact each

/-- On a tag that starts in sector 0 and whose active sector may become anything
when a call errs or a selection is refused: after every run of a new reader, a
known sector is the active one; and whatever is called next, each READ and WRITE
sent for a byte address is for the block and in the sector of that address, and
each READ and WRITE of a direct call in a known sector is received in that sector.

Proof: a known sector is the active one after every call, errors included, since each gives
the sector up before it can differ. A served address is located by the same arithmetic that
selects its sector. -/
theorem commands_land_in_sector (build : Build) (tag : SectorTag σ ε) (state : σ)
    (start : tag.active state = 0) (calls : List Call) (call : Call) :
    let m := runCalls build tag.toTransceiver calls (.fresh state)
    (∀ sector, m.reader.sector = .known sector → tag.active m.reader.transceiver = sector) ∧
    (call.servesAddresses = true →
      ∀ exchange ∈ exchangesOf build tag.toTransceiver call m, exchange.frame.isTransfer = true →
        ∃ addr sector block offset, exchange.serving = some addr ∧
          MemoryLayout.addressToSectorBlock addr = some (sector, block, offset) ∧
          tag.active exchange.before = sector ∧ (exchange.IsRead block ∨ exchange.IsWrite block)) ∧
    (∀ sector, call.isDirect = true → m.reader.sector = .known sector →
      ∀ exchange ∈ exchangesOf build tag.toTransceiver call m, exchange.frame.isTransfer = true →
        tag.active exchange.before = sector) := by
  intro m
  have tracks : Tracks tag m := tracks_run build tag calls state start
  refine ⟨tracks, fun serves => ?_, fun sector direct known => ?_⟩
  · exact (served_inPlace build tag call serves m tracks).exchangesOf
  · exact (direct_received build tag call direct m tracks sector known).exchangesOf

/-- A tag of two sectors whose first READ is lost in a reset to sector 0. -/
def resettingState : ScheduledState :=
  ⟨⟨fun addr => if addr = 12 then 0xE1 else 0, 0⟩, [none, none, some ⟨false, 0⟩]⟩

/-- The lost READ in sector 1 is retried in sector 1. -/
theorem commands_land_in_sector_resetting :
    let m := runCalls .alloc scheduledTag.toTransceiver [.sectorSelect 1] (.fresh resettingState)
    m.reader.sector = .known 1 ∧
    ((exchangesOf .alloc scheduledTag.toTransceiver (.read 4) m).filter
      fun exchange => exchange.frame.isTransfer).length = 2 ∧
    ∀ exchange ∈ exchangesOf .alloc scheduledTag.toTransceiver (.read 4) m,
      exchange.frame.isTransfer = true → exchange.before.tag.active = 1 :=
  ⟨by decide +kernel, by decide +kernel,
    (commands_land_in_sector .alloc scheduledTag.toSectorTag resettingState rfl [.sectorSelect 1]
      (.read 4)).2.2 1 rfl (by decide +kernel)⟩

end

end NfcForumTags
