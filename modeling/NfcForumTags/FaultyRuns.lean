import NfcForumTags.Confinement
import NfcForumTags.UncachedReader

/-!
# Runs of which any exchange may fail

What a reader on a tag with any errors can do to it, said without exchanges, retries and
cache: a view is the tag's memory and the sector the reader tracks, and each call takes a
view to one of a few others, depending on what the call returns. Every run of a reader is
a run of views. So what no run of views does, no reader does: without WRITEs of the
caller's own the header of the tag stays, and a tag that denies writing stays as it is.
-/
namespace NfcForumTags

open Program

/-! ## Views -/

/-- A tag as the owner of a reader sees it: its memory, and the sector the reader tracks. -/
structure TagView where
  memory : Memory
  sector : SectorState

namespace TagView

/-- A sector a command may reach: the tracked one, or any if none is tracked. -/
def Targets (view : TagView) (sector : UInt8) : Prop :=
  ∀ known, view.sector = .known known → known = sector

end TagView

/-- Whether a call asks the tag for anything, so that it may fail. -/
def Call.asksTag : Call → Bool
  | .setMaxRetries _ | .invalidateCache | .markTagStateUnknown => false
  | .read _ | .write _ _ | .sectorSelect _ | .readCc | .readDataArea _ | .readNdef | .writeNdef _ =>
    true

section

variable {ε : Type} (build : Build) (answer : Memory → UInt8 → UInt8 → Vector UInt8 16)

/-- What a call makes of a view, and returns, when any exchange may fail. -/
inductive Evolves (view : TagView) : Call → Except (ReaderError ε) Reply → TagView → Prop where
  /-- A failed call leaves the memory, unless it writes. -/
  | failed {call error sector} : call.asksTag = true →
      Evolves view call (.error error) ⟨view.memory, sector⟩
  | setMaxRetries {n} : Evolves view (.setMaxRetries n) (.ok .done) view
  | invalidateCache : Evolves view .invalidateCache (.ok .done) view
  | markTagStateUnknown : Evolves view .markTagStateUnknown (.ok .done) ⟨view.memory, .unknown⟩
  | sectorSelect {sector} : sector ≤ MAX_SECTOR →
    Evolves view (.sectorSelect sector) (.ok .done) ⟨view.memory, .known sector⟩
  | read {block sector} : view.Targets sector →
    Evolves view (.read block) (.ok (.block (answer view.memory sector block))) view
  | readCc {cc sector} : ccOf view.memory = .ok cc →
    Evolves view .readCc (.ok (.cc cc)) ⟨view.memory, sector⟩
  | readDataArea {layout data sector} : dataAreaOf build layout view.memory = .ok data →
    Evolves view (.readDataArea layout) (.ok (.bytes data)) ⟨view.memory, sector⟩
  | readNdef {message sector} : ndefOf build view.memory = .ok message →
    Evolves view .readNdef (.ok (.bytes message)) ⟨view.memory, sector⟩
  | write {block data sector} : view.Targets sector →
    Evolves view (.write block data) (.ok .done)
      ⟨storeBlock view.memory sector block data, view.sector⟩
  /-- A failed WRITE may have been applied. -/
  | writeLost {block data error sector tracked} : view.Targets sector →
    Evolves view (.write block data) (.error error)
      ⟨storeBlock view.memory sector block data, tracked⟩
  | writeNdef {message job sector} : jobOf build message view.memory = .ok job →
    Evolves view (.writeNdef message) (.ok .done)
      ⟨planned view.memory job.pages job.pages.length, sector⟩
  /-- A failed `write_ndef` has written the first pages of its plan. -/
  | writeNdefLost {message job error sector} (k : Nat) : jobOf build message view.memory = .ok job →
    k ≤ job.pages.length →
    Evolves view (.writeNdef message) (.error error) ⟨planned view.memory job.pages k, sector⟩

/-- A run of views, with the calls and what they return. -/
inductive Evolution : TagView → List (Call × Except (ReaderError ε) Reply) → TagView → Prop where
  | nil (view : TagView) : Evolution view [] view
  | cons {view next last call reply rest} : Evolves build answer view call reply next →
    Evolution next rest last → Evolution view ((call, reply) :: rest) last

end

/-! ## What views never do -/

section

variable {ε : Type} {build : Build} {answer : Memory → UInt8 → UInt8 → Vector UInt8 16}
  {view next last : TagView} {call : Call} {reply : Except (ReaderError ε) Reply}

/-- A call that neither writes a block nor a message leaves the memory. -/
theorem Evolves.reads (evolves : Evolves build answer view call reply next)
    (indirect : call.writesBlock = false)
    (reading : ∀ message, call ≠ .writeNdef message) : next.memory = view.memory := by
  cases evolves with
  | failed | setMaxRetries | invalidateCache | markTagStateUnknown | sectorSelect | read | readCc
  | readDataArea | readNdef => rfl
  | write | writeLost => cases indirect
  | writeNdef | writeNdefLost => exact absurd rfl (reading _)

/-- A call other than WRITE leaves the bytes before the data area. -/
theorem Evolves.header (evolves : Evolves build answer view call reply next)
    (indirect : call.writesBlock = false)
    {addr : Nat} (below : addr < 16) : next.memory addr = view.memory addr := by
  have staged : ∀ {message job} (k : Nat), jobOf build message view.memory = .ok job →
      planned view.memory job.pages k addr = view.memory addr := by
    intro message job k plans
    obtain ⟨cc, -, tlvs, -, -, -, -, -, listed⟩ := jobOf_ok plans
    exact planned_protected (planWrite_ok listed) _ k (Or.inl below)
  cases evolves with
  | failed | setMaxRetries | invalidateCache | markTagStateUnknown | sectorSelect | read | readCc
  | readDataArea | readNdef => rfl
  | write | writeLost => cases indirect
  | writeNdef plans => exact staged _ plans
  | writeNdefLost k plans => exact staged k plans

/-- Nor does a run of them change these bytes.

Induction on the run. -/
theorem Evolution.header {run : List (Call × Except (ReaderError ε) Reply)}
    (evolution : Evolution build answer view run last)
    (indirect : ∀ entry ∈ run, entry.1.writesBlock = false)
    {addr : Nat} (below : addr < 16) : last.memory addr = view.memory addr := by
  induction evolution with
  | nil view => rfl
  | cons evolves _ inductionHypothesis =>
    obtain ⟨first, rest⟩ := List.forall_mem_cons.mp indirect
    exact (inductionHypothesis rest).trans (evolves.header first below)

/-- Where no job can be planned, `write_ndef` fails, and the memory stays. -/
theorem Evolves.denied (evolves : Evolves build answer view call reply next)
    (indirect : call.writesBlock = false)
    (denied : ∀ message job, jobOf build message view.memory ≠ .ok job) :
    next.memory = view.memory ∧ ∀ message, call = .writeNdef message →
      ∃ error, reply = .error error := by
  cases evolves with
  | failed => exact ⟨rfl, fun _ _ => ⟨_, rfl⟩⟩
  | setMaxRetries | invalidateCache | markTagStateUnknown | sectorSelect | read | readCc
  | readDataArea | readNdef => exact ⟨rfl, nofun⟩
  | write | writeLost => cases indirect
  | writeNdef plans => exact absurd plans (denied _ _)
  | writeNdefLost k plans => exact absurd plans (denied _ _)

/-- So it is along a run.

Induction on the run. -/
theorem Evolution.denied {run : List (Call × Except (ReaderError ε) Reply)}
    (evolution : Evolution build answer view run last)
    (indirect : ∀ entry ∈ run, entry.1.writesBlock = false)
    (denied : ∀ message job, jobOf build message view.memory ≠ .ok job) :
    last.memory = view.memory ∧
      ∀ entry ∈ run, ∀ message, entry.1 = .writeNdef message → ∃ error, entry.2 = .error error := by
  induction evolution with
  | nil view => exact ⟨rfl, nofun⟩
  | cons evolves _ inductionHypothesis =>
    obtain ⟨first, rest⟩ := List.forall_mem_cons.mp indirect
    obtain ⟨memory, refused⟩ := evolves.denied first denied
    obtain ⟨stays, others⟩ := inductionHypothesis rest (by rwa [memory])
    exact ⟨stays.trans memory, List.forall_mem_cons.mpr ⟨refused, others⟩⟩

end

/-! ## Readers are runs of views -/

section

variable {σ ε : Type} {build : Build} {tag : Tag σ ε} {m : Machine σ}

/-- The view of a machine. -/
def Tag.viewOf (tag : Tag σ ε) (m : Machine σ) : TagView := ⟨tag.memoryOf m, m.reader.sector⟩

/-- A view with this memory. -/
theorem viewOf_eq {next : Machine σ} (memory : tag.memoryOf next = tag.memoryOf m) :
    tag.viewOf next = ⟨(tag.viewOf m).memory, next.reader.sector⟩ :=
  congrArg (TagView.mk · next.reader.sector) memory

variable (build tag) in
/-- A run of one call evolves its view. -/
def Steps (call : Call) (m : Machine σ) : Prop :=
  Evolves build tag.answer (tag.viewOf m) call (outcome (call.run build tag.toTransceiver) m)
    (tag.viewOf (call.after build tag.toTransceiver m))

/-- Each ending is a step of views. -/
theorem steps_of_ensures {call : Call}
    (ensured : Ensures (call.run build tag.toTransceiver)
      (fun reply next => Evolves build tag.answer (tag.viewOf m) call
        (.ok reply : Except (ReaderError ε) Reply) (tag.viewOf next))
      (fun error next => Evolves build tag.answer (tag.viewOf m) call (.error error)
        (tag.viewOf next)) m) :
    Steps build tag call m := by
  obtain ⟨returns, fails⟩ := ensures_iff.mp ensured
  unfold Steps
  cases ended : outcome (call.run build tag.toTransceiver) m with
  | ok reply => exact returns reply ended
  | error error => exact fails error ended

/-- A call that asks the tag and fails with its memory. -/
theorem evolves_failed {call : Call} (asks : call.asksTag = true) {next : Machine σ}
    (memory : tag.memoryOf next = tag.memoryOf m) (error : ReaderError ε) :
    Evolves build tag.answer (tag.viewOf m) call (.error error) (tag.viewOf next) := by
  rw [viewOf_eq memory]
  exact .failed asks

/-- A reading call that returns what its function makes of the memory. -/
theorem steps_computed {α : Type} {program : Operation σ ε α}
    {function : Memory → Except Type2Error α}
    {call : Call} (asks : call.asksTag = true) (reply : α → Reply)
    (runs : call.run build tag.toTransceiver = program >>= fun value => pure (reply value))
    (computes : Computes (Held build tag m.trace (Quiet tag (tag.memoryOf m)) (· = tag.memoryOf m))
      (Held build tag m.trace (Quiet tag (tag.memoryOf m)) (· = tag.memoryOf m))
      (fun addr byte => byte = tag.memoryOf m addr) program function m)
    (evolves : ∀ value sector, function (tag.viewOf m).memory = .ok value →
      Evolves build tag.answer (tag.viewOf m) call
        (.ok (reply value) : Except (ReaderError ε) Reply)
        ⟨(tag.viewOf m).memory, sector⟩) :
    Steps build tag call m := by
  apply steps_of_ensures
  rw [runs]
  refine (computed_of_reads computes).bind ?_ ?_
  · rintro error next (held | ⟨held, -⟩)
    · exact evolves_failed asks held.memory error
    · exact evolves_failed asks held.memory error
  · rintro value next ⟨held, same⟩
    change Evolves _ _ _ _ _ _
    rw [viewOf_eq held.memory]
    exact evolves value _ same

/-- A READ that fails leaves the memory too. -/
theorem read_quiet (coherent : Coherent build tag m) (block : UInt8) :
    Ensures (read build tag.toTransceiver block) (fun _ _ => True)
      (fun _ next => tag.memoryOf next = tag.memoryOf m) m := by
  have held := held_start coherent (fun _ => True)
  have ends : ∀ next, Held build tag m.trace (fun _ => True) (· = tag.memoryOf m) next →
      tag.memoryOf next = tag.memoryOf m := fun _ held => held.memory
  have sends := Held.sendsRead build tag m.trace (P := fun _ => True) (fun _ _ _ => trivial) ends
    m.serving m.reader.sector block
  have select := (Held.select build tag m.trace (P := fun _ => True)
    (fun _ _ _ => trivial) ends).serving m.serving
  refine (read_rule (fun _ _ => True) select block m ⟨held, rfl⟩ (fun _ => trivial)
    ⟨sends.lost, fun next raw kept tracked answered => ?_⟩).mono (fun _ _ _ => trivial)
      fun _ _ left => left
  exact ⟨fun _ _ => trivial, fun _ => (sends.answered next raw kept tracked answered).1.memory⟩

/-- A WRITE is applied in a sector it may reach when it returns, and otherwise there or
not at all. -/
theorem write_effect (coherent : Coherent build tag m) (block : UInt8) (page : Vector UInt8 4) :
    Ensures (write tag.toTransceiver block page)
      (fun _ next => next.reader.sector = m.reader.sector ∧ ∃ sector,
        (tag.viewOf m).Targets sector ∧
        tag.memoryOf next = storeBlock (tag.memoryOf m) sector block page)
      (fun _ next => tag.memoryOf next = tag.memoryOf m ∨ ∃ sector, (tag.viewOf m).Targets sector ∧
        tag.memoryOf next = storeBlock (tag.memoryOf m) sector block page) m := by
  cases tracked : m.reader.sector with
  | known sector =>
    have target : (tag.viewOf m).Targets sector := fun known same =>
      SectorState.known.inj (same.symm.trans tracked)
    have start : Held build tag m.trace (fun _ => True) (fun memory => memory = tag.memoryOf m ∨
        memory = storeBlock (tag.memoryOf m) sector block page) m :=
          ⟨coherent, Or.inl rfl, logged_start m⟩
    have ends : ∀ next, Held build tag m.trace (fun _ => True)
        (fun memory => memory = tag.memoryOf m ∨
        memory = storeBlock (tag.memoryOf m) sector block page) next →
        tag.memoryOf next = tag.memoryOf m ∨ ∃ sector, (tag.viewOf m).Targets sector ∧
          tag.memoryOf next = storeBlock (tag.memoryOf m) sector block page :=
      fun next held => held.memory.imp_right fun same => ⟨sector, target, same⟩
    have sends := Held.sendsWrite build tag m.trace (P := fun _ => True)
      (M := fun memory => memory = tag.memoryOf m ∨
        memory = storeBlock (tag.memoryOf m) sector block page)
      (N := fun memory => memory = storeBlock (tag.memoryOf m) sector block page)
      m.serving m.reader.sector block page ?_ ends
    · have select := (Held.select build tag m.trace (P := fun _ => True)
        (fun _ _ _ => trivial) ends).serving
        m.serving
      refine (write_rule (fun next => tag.memoryOf next = storeBlock (tag.memoryOf m)
        sector block page)
        select block page m ⟨start, rfl⟩ ⟨sends.lost, fun next raw kept known answered => ?_⟩).mono
          (fun _ next left => ⟨left.2.1.trans tracked, sector, target, left.1⟩) fun _ _ left => left
      obtain ⟨applied, kept⟩ := sends.answered next raw kept known answered
      exact ⟨fun acked => (applied acked).memory, fun _ => ends _ kept⟩
    · intro next held known served after
      have active : tag.active next.reader.transceiver = sector :=
        held.coherent.tracks sector (known.trans tracked)
      -- A WRITE sent again stores the same bytes in the same block.
      have stored : storeBlock (tag.memory next.reader.transceiver)
          (tag.active next.reader.transceiver)
          block page = storeBlock (tag.memoryOf m) sector block page := by
        rcases held.memory with same | same
        · rw [active, show tag.memory next.reader.transceiver = _ from same]
        · rw [active, show tag.memory next.reader.transceiver = _ from same, storeBlock_again]
      refine ⟨?_, trivial, fun raw answered acked =>
        (tag.write_acked next.reader.transceiver block page raw answered acked).trans stored⟩
      rcases tag.write_memory next.reader.transceiver block page with same | applied
      · rw [show tag.memory after = _ from same]
        exact held.memory
      · exact Or.inr (applied.trans stored)
  | unknown =>
    have target : ∀ sector, (tag.viewOf m).Targets sector := by
      intro sector known same
      cases tracked.symm.trans same
    -- Without a tracked sector there is one attempt.
    have sent : ∀ next : Machine σ, next.reader.transceiver =
        (tag.transceive (Command.write block page).toBytes m.reader.transceiver).2 →
        tag.memoryOf next = tag.memoryOf m ∨ ∃ sector, (tag.viewOf m).Targets sector ∧
          tag.memoryOf next = storeBlock (tag.memoryOf m) sector block page := by
      intro next same
      unfold Tag.memoryOf
      rw [same]
      exact (tag.write_memory m.reader.transceiver block page).imp_right
        fun applied => ⟨tag.active m.reader.transceiver, target _, applied⟩
    unfold write transceiveWithRetry
    simp only [ensures_bind, ensures_get, ensures_sendCommand]
    split
    · next raw answered =>
      rw [ensures_pure, ensures_invalidateCache]
      refine ensures_expectAck (fun acked => ⟨tracked, tag.active m.reader.transceiver,
        target _, ?_⟩)
        fun _ _ => sent _ rfl
      exact tag.write_acked m.reader.transceiver block page raw answered acked
    · next error lost =>
      rw [ensures_unknown_invalidate, tracked]
      cases m.reader.maxRetries.toNat with
      | zero => exact sent _ rfl
      | succ remaining => exact sent _ rfl

/-- A selection that returns has its sector selected. -/
theorem sectorSelect_effect (coherent : Coherent build tag m) (sector : UInt8) :
    Ensures (sectorSelect tag.toTransceiver sector)
      (fun _ next => sector ≤ MAX_SECTOR ∧ next.reader.sector = .known sector ∧
        tag.memoryOf next = tag.memoryOf m)
      (fun _ next => tag.memoryOf next = tag.memoryOf m) m := by
  by_cases beyond : MAX_SECTOR < sector
  · unfold sectorSelect
    rw [ensures_bind, ensures_refuseIf]
    exact ⟨fun allowed => absurd beyond allowed, fun _ => rfl⟩
  · have select := Held.select build tag m.trace (P := fun _ => True) (M := (· = tag.memoryOf m))
      (E := fun next => tag.memoryOf next = tag.memoryOf m) (fun _ _ _ => trivial)
        fun _ held => held.memory
    exact (sectorSelect_rule select sector m (held_start coherent _) fun above =>
      absurd above beyond).mono
      (fun _ _ left => ⟨UInt8.not_lt.mp beyond, left.2.1, left.1.memory⟩) fun _ _ left => left

/-- Every call of a coherent reader is a step of views. -/
theorem Coherent.steps (coherent : Coherent build tag m) (call : Call) :
    Steps build tag call m := by
  have reads := quiet_reads build tag m.trace (tag.memoryOf m)
  have held := held_start coherent (Quiet tag (tag.memoryOf m))
  cases call with
  | setMaxRetries n => exact .setMaxRetries
  | invalidateCache => exact .invalidateCache
  | markTagStateUnknown => exact .markTagStateUnknown
  | read block =>
    apply steps_of_ensures
    have idle : Coherent build tag { m with serving := none } := coherent.congr rfl rfl rfl rfl
    refine ((read_coherent idle block).and (read_quiet idle block)).bind
      (fun error _ left => evolves_failed rfl left.2 error) ?_
    rintro data next ⟨⟨rfl, after, memory, sector⟩, -⟩
    change Evolves _ _ _ _ _ _
    rw [viewOf_eq memory, show next.reader.sector = (tag.viewOf m).sector from sector]
    exact .read fun known tracked => (after.tracks known (sector.trans tracked)).symm
  | write block page =>
    apply steps_of_ensures
    have idle : Coherent build tag { m with serving := none } := coherent.congr rfl rfl rfl rfl
    refine (write_effect idle block page).bind ?_ ?_
    · rintro error next (memory | ⟨sector, target, memory⟩)
      · exact evolves_failed rfl memory error
      · unfold Tag.viewOf
        rw [memory]
        exact .writeLost target
    · rintro - next ⟨sector, target, tracked, memory⟩
      change Evolves _ _ _ _ _ _
      unfold Tag.viewOf
      rw [memory, sector]
      exact .write tracked
  | sectorSelect sector =>
    apply steps_of_ensures
    refine (sectorSelect_effect coherent sector).bind (fun error _ memory =>
      evolves_failed rfl memory error) ?_
    rintro - next ⟨allowed, known, memory⟩
    change Evolves _ _ _ _ _ _
    rw [viewOf_eq memory, known]
    exact .sectorSelect allowed
  | readCc => exact steps_computed rfl .cc rfl (reads.readCc_rule m held) fun _ _ => .readCc
  | readDataArea layout =>
    exact steps_computed rfl .bytes rfl (reads.readDataArea_rule layout m held)
      fun _ _ => .readDataArea
  | readNdef =>
    exact steps_computed rfl .bytes rfl (reads.readNdef_rule m held) fun _ _ => .readNdef
  | writeNdef ndefData =>
    apply steps_of_ensures
    change Ensures (writeNdef build tag.toTransceiver ndefData >>= _) _ _ m
    unfold NfcForumTags.writeNdef
    rw [bind_assoc]
    refine (prepareWrite_quiet coherent ndefData).bind
      (fun error _ held => evolves_failed rfl held.memory error) ?_
    rintro job prepared ⟨held, plans⟩
    obtain ⟨cc, -, tlvs, -, -, -, -, -, listed⟩ := jobOf_ok plans
    have staged := commitWrite_staged (planWrite_ok listed) held.coherent
    rw [show tag.memoryOf prepared = tag.memoryOf m from held.memory] at staged
    refine staged.bind ?_ ?_
    · rintro error next ⟨-, ⟨k, few, memory⟩, -⟩
      unfold Tag.viewOf
      rw [memory]
      exact .writeNdefLost k plans few
    · rintro - next ⟨-, memory, -⟩
      change Evolves _ _ _ _ _ _
      unfold Tag.viewOf
      rw [memory]
      exact .writeNdef plans

/-- Every call leaves a coherent reader. -/
theorem Coherent.call (coherent : Coherent build tag m) (call : Call) :
    Coherent build tag (call.after build tag.toTransceiver m) :=
  ((held_keepsCalls build tag).call_rule call m ⟨coherent, trivial, m.trace, rfl, fun _ _ =>
    trivial⟩).always.coherent

/-- Every run of a coherent reader is a run of views.

Induction on the calls. -/
theorem Coherent.evolution (coherent : Coherent build tag m) (calls : List Call) :
    Evolution build tag.answer (tag.viewOf m) (calls.zip (replies build tag.toTransceiver calls m))
      (tag.viewOf (runCalls build tag.toTransceiver calls m)) := by
  induction calls generalizing m with
  | nil => exact .nil _
  | cons call calls inductionHypothesis =>
    exact .cons (coherent.steps call) (inductionHypothesis (coherent.call call))

/-- On any tag in sector 0, with any errors of the transceiver: a run of calls on a new
reader, with all that it returns, is a run of views from the tag's memory and sector 0 to
the memory the tag then has and the sector the reader then tracks.

Proof: each call takes the view of memory and tracked sector along by one of its own steps,
and coherence goes on to the next call; induction on the calls. -/
theorem runs_evolve (build : Build) (tag : Tag σ ε) (state : σ) (inSector0 : tag.active state = 0)
    (calls : List Call) :
    let m := runCalls build tag.toTransceiver calls (.fresh state)
    Evolution build tag.answer ⟨tag.memory state, .known 0⟩
      (calls.zip (replies build tag.toTransceiver calls (.fresh state)))
          ⟨tag.memoryOf m, m.reader.sector⟩ :=
  (fresh_coherent build tag state inSector0).evolution calls

/-- The first WRITE is applied but its answer lost: for the views that is a write like any other. -/
theorem runs_evolve_lossy :
    let m := runCalls .alloc scheduledTag.toTransceiver [.writeNdef [0xD1, 0x01]]
      (.fresh lossyState)
    Evolution .alloc scheduledTag.answer ⟨lossyState.tag.memory, .known 0⟩
      [(.writeNdef [0xD1, 0x01], (.ok .done : Except (ReaderError Unit) Reply))]
          ⟨scheduledTag.memoryOf m, .known 0⟩ := by
  intro m
  have evolves := runs_evolve .alloc scheduledTag lossyState rfl [.writeNdef [0xD1, 0x01]]
  have told : replies .alloc scheduledTag.toTransceiver [.writeNdef [0xD1, 0x01]]
      (.fresh lossyState) =
      [.ok .done] := by decide +kernel
  have tracked : (runCalls .alloc scheduledTag.toTransceiver [.writeNdef [0xD1, 0x01]]
      (.fresh lossyState)).reader.sector = .known 0 := by decide +kernel
  simp only [told, tracked] at evolves
  exact evolves

end

end NfcForumTags
