import NfcForumTags.DataAreaBytes

/-!
# Transient errors

The first attempt at a command is followed by as many more as retries are allowed,
but each of them begins with the selection of the sector, whose first packet is sent
once. So of the commands that err at the start of an operation a READ or WRITE
absorbs one, whatever the number of retries, and a selection none.
-/
namespace NfcForumTags

open Program

section

variable {σ ε : Type} {build : Build}

/-! ## Sectors that can be selected -/

/-- A known sector is not the reserved one. -/
def Selectable (m : Machine σ) : Prop :=
  ∀ sector, m.reader.sector = .known sector → sector ≤ MAX_SECTOR

/-- A reader that gave up its sector has none that may not be selected. -/
theorem selectable_forget (m : Machine σ) : Selectable m.forget := fun _ known => by cases known

/-- Keeping a READ result leaves the sector. -/
theorem Selectable.store {m : Machine σ} (selectable : Selectable m) (block : UInt8)
    (data : Vector UInt8 16) : Selectable (m.store build block data) := by
  unfold Machine.store
  split
  · exact selectable
  · exact selectable

/-- Sectors get known by selection only, which refuses the reserved one. -/
theorem selectable_keepsCalls (build : Build) (t : Transceiver σ ε) :
    KeepsCalls build t (Selectable : Machine σ → Prop) where
  serving := fun _ _ selectable => selectable
  select := .ofSent (fun _ _ => selectable_forget _) (fun _ selectable => selectable)
    (fun _ _ selectable => selectable) fun _ _ _ allowed _ _ known => by cases known; exact allowed
  uncache := fun _ selectable => selectable
  lost := fun _ _ _ _ _ _ => selectable_forget _
  read := fun m block _ selectable _ =>
    have sent : Selectable (m.sent t (Command.read block).toBytes) := selectable
    ⟨sent, fun data _ => sent.store block data⟩
  written := fun _ _ _ _ selectable _ => selectable
  retries := fun _ _ selectable => selectable

/-! ## Once no error remains -/

/-- Errors left on the tag a machine is connected to. -/
def TransientTag.errorsOf (tag : TransientTag σ ε) (m : Machine σ) : Nat :=
  tag.errors m.reader.transceiver

variable {tag : TransientTag σ ε} {m : Machine σ}

variable (tag) in
/-- No error is left, the sector is tracked, and the memory is one of those meant. -/
structure Settled (Meant : Memory → Prop) (m : Machine σ) : Prop where
  errors : tag.errorsOf m = 0
  tracks : Tracks tag.toSectorTag m
  memory : Meant (tag.memoryOf m)

/-- Giving up the sector claims nothing. -/
theorem Settled.forget {Meant : Memory → Prop} (errors : tag.errorsOf m = 0)
    (memory : Meant (tag.memoryOf m)) : Settled tag Meant m.forget :=
  ⟨errors, fun _ known => (by cases known), memory⟩

/-- A command after which the sector is unknown. -/
theorem TransientTag.errorsOf_sent (tag : TransientTag σ ε) (m : Machine σ) (cmd : List UInt8) :
    tag.errorsOf (m.sent tag.toTransceiver cmd) = tag.errorsOf m - 1 :=
  tag.errors_command m.reader.transceiver cmd

variable (tag) in
/-- Once no error remains a selection is completed. -/
theorem Settled.select (Meant : Memory → Prop) :
    SurvivesSelect tag.toTransceiver (Settled tag Meant) fun _ => False where
  forget := fun m settled => Settled.forget settled.errors settled.memory
  part1 := by
    intro m raw settled unknown _ _ _
    refine ⟨?_, fun _ known => absurd (unknown.symm.trans known) (by simp), ?_⟩
    · rw [tag.errorsOf_sent, settled.errors]
    · have memory : tag.memoryOf (m.sent tag.toTransceiver Command.sectorSelectPart1.toBytes) =
          tag.memoryOf m := tag.part1_memory _
      exact memory ▸ settled.memory
  part1_lost := by
    intro m error settled _ _ lost
    obtain ⟨raw, answered, -⟩ := tag.selects1 _ settled.errors
    rw [answered] at lost
    cases lost
  part1_refused := by
    intro m raw settled _ _ answered refused
    obtain ⟨good, same, acked⟩ := tag.selects1 _ settled.errors
    rw [same] at answered
    obtain rfl := Except.ok.inj answered
    exact refused acked
  part2_refused := fun m sector settled _ _ refused =>
    refused (tag.selects2 _ sector settled.errors)
  selected := by
    intro m sector settled _ _ answered
    refine ⟨(tag.errors_packet _ _).trans settled.errors, ?_, ?_⟩
    · intro target known
      cases known
      exact tag.select_active _ _ answered
    · have memory : tag.memoryOf (m.sentPacket tag.toTransceiver
          (Command.sectorSelectPart2 sector).toBytes) = tag.memoryOf m := tag.part2_memory _ _
      exact memory ▸ settled.memory

/-! ## Attempts -/

/-- While an error remains the first packet of a selection is lost, and with it the selection. -/
theorem forceSectorSelect_errs (errors : tag.errorsOf m ≠ 0) (sector : UInt8) :
    Ensures (forceSectorSelect tag.toTransceiver sector) (fun _ _ => False)
      (fun _ _ => True) m := by
  unfold forceSectorSelect
  rw [ensures_bind, ensures_refuseIf]
  refine ⟨fun _ => ?_, fun _ => trivial⟩
  rw [ensures_invalidate_unknown]
  simp only [ensures_bind, ensures_sendCommand, ensures_orTransceiver]
  refine ⟨fun raw answered => ?_, fun _ _ => trivial⟩
  obtain ⟨error, lost⟩ := tag.errs m.reader.transceiver Command.sectorSelectPart1.toBytes errors
  have never := lost.symm.trans answered
  cases never

/-- Two errors in a row end a command, however many retries are left. -/
theorem transceiveWithRetry_errs (errors : 2 ≤ tag.errorsOf m) (cmd : List UInt8) :
    Ensures (transceiveWithRetry tag.toTransceiver cmd) (fun _ _ => False) (fun _ _ => True) m := by
  obtain ⟨error, lost⟩ := tag.errs m.reader.transceiver cmd
    (Nat.ne_of_gt (by omega : 0 < tag.errorsOf m))
  unfold transceiveWithRetry
  simp only [ensures_bind, ensures_get, ensures_sendCommand]
  rw [lost]
  dsimp only
  rw [ensures_unknown_invalidate]
  cases m.reader.maxRetries.toNat with
  | zero => trivial
  | succ remaining =>
    cases m.reader.sector with
    | unknown => trivial
    | known sector =>
      have left : tag.errorsOf (m.sent tag.toTransceiver cmd).forget ≠ 0 := by
        have sent := tag.errorsOf_sent m cmd
        change tag.errorsOf (m.sent tag.toTransceiver cmd) ≠ 0
        omega
      unfold retryTransceive
      exact (forceSectorSelect_errs left sector).bind (fun _ _ _ => trivial)
        fun _ _ never => never.elim

/-- At most one error, within the retries, is absorbed: the command is answered when no
error remains, in the sector it was meant for, on one of the memories meant. -/
theorem transceiveWithRetry_absorbs (Meant : Memory → Prop) {sector : UInt8} {cmd : List UInt8}
    (answers : ∀ state, tag.errors state = 0 → ∃ raw, (tag.transceive cmd state).1 = .ok raw)
    (lost : Meant (tag.memoryOf m) → Meant (tag.memoryOf (m.sent tag.toTransceiver cmd)))
    (errors : tag.errorsOf m ≤ 1) (retries : tag.errorsOf m ≤ m.reader.maxRetries.toNat)
    (known : m.reader.sector = .known sector) (allowed : sector ≤ MAX_SECTOR)
    (tracks : Tracks tag.toSectorTag m) (meant : Meant (tag.memoryOf m)) :
    Ensures (transceiveWithRetry tag.toTransceiver cmd)
      (fun raw next => ∃ last, Settled tag Meant last ∧ last.reader.sector = .known sector ∧
        (tag.transceive cmd last.reader.transceiver).1 = .ok raw ∧
        next = last.sent tag.toTransceiver cmd)
      (fun _ _ => False) m := by
  unfold transceiveWithRetry
  simp only [ensures_bind, ensures_get, ensures_sendCommand]
  split
  · next raw answered =>
    have none : tag.errorsOf m = 0 := by
      by_contra some
      obtain ⟨error, lost⟩ := tag.errs m.reader.transceiver cmd some
      rw [lost] at answered
      cases answered
    exact ⟨m, ⟨none, tracks, meant⟩, known, answered, rfl⟩
  · next error missed =>
    have one : tag.errorsOf m = 1 := by
      by_contra other
      obtain ⟨raw, answered⟩ := answers m.reader.transceiver (by change tag.errorsOf m = 0; omega)
      rw [answered] at missed
      cases missed
    have settled : Settled tag Meant (m.sent tag.toTransceiver cmd).forget :=
      Settled.forget ((tag.errorsOf_sent m cmd).trans (by rw [one])) (lost meant)
    rw [ensures_unknown_invalidate, known]
    cases count : m.reader.maxRetries.toNat with
    | zero => omega
    | succ remaining =>
      unfold retryTransceive
      refine (forceSectorSelect_rule (Settled.select tag Meant) sector _ settled
        fun beyond => absurd allowed (UInt8.not_le.mpr beyond)).bind (fun _ _ never => never) ?_
      rintro - next ⟨kept, reselected, -⟩
      obtain ⟨raw, answered⟩ := answers next.reader.transceiver kept.errors
      rw [ensures_bind, ensures_sendCommand, answered]
      exact ⟨next, kept, reselected, answered, rfl⟩

/-! ## Operations -/

/-- READ of a block that is not cached absorbs one error. -/
theorem read_absorbs (coherent : Coherent build tag.toTag m) {sector : UInt8}
    (known : m.reader.sector = .known sector) (allowed : sector ≤ MAX_SECTOR) {block : UInt8}
    (missed : m.reader.cacheBlock ≠ some block) (errors : tag.errorsOf m ≤ 1)
    (retries : tag.errorsOf m ≤ m.reader.maxRetries.toNat) :
    Ensures (read build tag.toTransceiver block)
      (fun data _ => data = tag.answer (tag.memoryOf m) sector block) (fun _ _ => False) m := by
  unfold read
  simp only [ensures_bind, ensures_get]
  rw [if_neg missed, ensures_bind]
  have answers : ∀ state, tag.errors state = 0 →
      ∃ raw, (tag.transceive (Command.read block).toBytes state).1 = .ok raw := by
    intro state none
    obtain ⟨raw, answered, -⟩ := tag.reads state block none
    exact ⟨raw, answered⟩
  refine Ensures.mono (transceiveWithRetry_absorbs (· = tag.memoryOf m) answers
    (fun _ => tag.read_memory _ block) errors retries known allowed coherent.tracks rfl) ?_
    (fun _ _ never => never)
  rintro raw next ⟨last, settled, tracked, answered, rfl⟩
  obtain ⟨good, same, long⟩ := tag.reads last.reader.transceiver block settled.errors
  rw [same] at answered
  obtain rfl := Except.ok.inj answered
  obtain ⟨data, parsed⟩ := Command.parseAnswer_read_of_long block long
  rw [parsed, ensures_bind]
  simp only [ensures_orProtocol, Except.ok.injEq, forall_eq', reduceCtorEq, false_imp_iff,
    implies_true, and_true, ensures_bind, ensures_storeCache]
  have shown := tag.read_answer _ block good data same parsed
  have active : tag.active last.reader.transceiver = sector := settled.tracks sector tracked
  have memory : tag.memory last.reader.transceiver = tag.memoryOf m := settled.memory
  rw [active, memory] at shown
  exact shown

/-- WRITE absorbs one error; a WRITE that errs and is applied stores the same bytes. -/
theorem write_absorbs (tracks : Tracks tag.toSectorTag m) {sector : UInt8}
    (known : m.reader.sector = .known sector) (allowed : sector ≤ MAX_SECTOR) (block : UInt8)
    (data : Vector UInt8 4) (errors : tag.errorsOf m ≤ 1)
    (retries : tag.errorsOf m ≤ m.reader.maxRetries.toNat) :
    Ensures (write tag.toTransceiver block data)
      (fun _ next => tag.memoryOf next = storeBlock (tag.memoryOf m) sector block data)
      (fun _ _ => False) m := by
  unfold write
  rw [ensures_bind]
  have answers : ∀ state, tag.errors state = 0 →
      ∃ raw, (tag.transceive (Command.write block data).toBytes state).1 = .ok raw := by
    intro state none
    obtain ⟨raw, answered, -⟩ := tag.acks state block data none
    exact ⟨raw, answered⟩
  have stored : storeBlock (tag.memoryOf (m.sent tag.toTransceiver
      (Command.write block data).toBytes))
      sector block data = storeBlock (tag.memoryOf m) sector block data := by
    have active : tag.active m.reader.transceiver = sector := tracks sector known
    have applied := tag.write_memory m.reader.transceiver block data
    rw [active] at applied
    change storeBlock (tag.memory (tag.transceive _ m.reader.transceiver).2) sector block data = _
    rcases applied with kept | stored
    · rw [kept]
      rfl
    · rw [stored]
      exact storeBlock_again _ _ _ _
  refine Ensures.mono (transceiveWithRetry_absorbs
    (fun memory => storeBlock memory sector block data =
      storeBlock (tag.memoryOf m) sector block data) answers
    (fun _ => stored) errors retries known allowed tracks rfl) ?_ (fun _ _ never => never)
  rintro raw next ⟨last, settled, tracked, answered, rfl⟩
  obtain ⟨good, same, acked⟩ := tag.acks last.reader.transceiver block data settled.errors
  rw [same] at answered
  obtain rfl := Except.ok.inj answered
  rw [ensures_bind, ensures_invalidateCache]
  refine ensures_expectAck (fun _ => ?_) fun refused => absurd acked refused
  have active : tag.active last.reader.transceiver = sector := settled.tracks sector tracked
  have written := tag.write_acked last.reader.transceiver block data good same acked
  rw [active] at written
  exact written.trans settled.memory

/-- Two errors in a row end READ, unless the block is cached. -/
theorem read_errs {block : UInt8} (missed : m.reader.cacheBlock ≠ some block)
    (errors : 2 ≤ tag.errorsOf m) :
    Ensures (read build tag.toTransceiver block) (fun _ _ => False) (fun _ _ => True) m := by
  unfold read
  simp only [ensures_bind, ensures_get]
  rw [if_neg missed, ensures_bind]
  exact Ensures.mono (transceiveWithRetry_errs errors _) (fun _ _ never => never.elim)
    fun _ _ _ => trivial

/-- Two errors in a row end WRITE. -/
theorem write_errs (errors : 2 ≤ tag.errorsOf m) (block : UInt8) (data : Vector UInt8 4) :
    Ensures (write tag.toTransceiver block data) (fun _ _ => False) (fun _ _ => True) m := by
  unfold write
  rw [ensures_bind]
  exact Ensures.mono (transceiveWithRetry_errs errors _) (fun _ _ never => never.elim)
    fun _ _ _ => trivial

/-- READ in a known sector returns its block exactly when the block is cached or at most
one command errs. -/
theorem read_absorbed_iff (coherent : Coherent build tag.toTag m) {sector : UInt8}
    (known : m.reader.sector = .known sector) (allowed : sector ≤ MAX_SECTOR)
    (retries : tag.errorsOf m ≤ m.reader.maxRetries.toNat) (block : UInt8) :
    outcome (read build tag.toTransceiver block) m =
        .ok (tag.answer (tag.memoryOf m) sector block) ↔
      m.reader.cacheBlock = some block ∨ tag.errorsOf m ≤ 1 := by
  by_cases hit : m.reader.cacheBlock = some block
  · have cached : read build tag.toTransceiver block m = .ok m.reader.cacheData m := by
      rw [read, run_get_bind]
      exact congrFun (if_pos hit) m
    have active : tag.activeOf m = sector := coherent.tracks sector known
    rw [outcome, cached, coherent.cached block hit, active]
    exact iff_of_true rfl (Or.inl hit)
  · rw [or_iff_right hit]
    constructor
    · intro returned
      by_contra more
      exact (ensures_iff.mp (read_errs hit (Nat.not_le.mp more))).1 _ returned
    · intro few
      obtain ⟨value, next, run, rfl⟩ :=
        (read_absorbs coherent known allowed hit few retries).exists_run
      rw [outcome, run]

/-- WRITE in a known sector returns with the data stored exactly when at most one command errs. -/
theorem write_absorbed_iff (tracks : Tracks tag.toSectorTag m) {sector : UInt8}
    (known : m.reader.sector = .known sector) (allowed : sector ≤ MAX_SECTOR)
    (retries : tag.errorsOf m ≤ m.reader.maxRetries.toNat) (block : UInt8) (data : Vector UInt8 4) :
    (∃ next, write tag.toTransceiver block data m = .ok () next ∧
        tag.memoryOf next = storeBlock (tag.memoryOf m) sector block data) ↔
      tag.errorsOf m ≤ 1 := by
  constructor
  · rintro ⟨next, run, -⟩
    by_contra more
    exact (write_errs (Nat.not_le.mp more) block data).returned run
  · intro few
    obtain ⟨value, next, run, stored⟩ :=
      (write_absorbs tracks known allowed block data few retries).exists_run
    exact ⟨next, run, stored⟩

/-- A selection from a known sector completes exactly when the sector is the known one
or no command errs. -/
theorem sectorSelect_absorbed_iff (tracks : Tracks tag.toSectorTag m) {sector : UInt8}
    (known : m.reader.sector = .known sector) (target : UInt8) (selectable : target ≤ MAX_SECTOR) :
    (∃ next, sectorSelect tag.toTransceiver target m = .ok () next ∧ tag.activeOf next = target) ↔
      target = sector ∨ tag.errorsOf m = 0 := by
  have inside : ¬ MAX_SECTOR < target := UInt8.not_lt.mpr selectable
  by_cases selected : target = sector
  · subst selected
    have idle : sectorSelect tag.toTransceiver target m = .ok () m :=
      sectorSelect_settled inside known
    exact iff_of_true ⟨m, idle, tracks target known⟩ (Or.inl rfl)
  · rw [or_iff_right selected]
    have other : m.reader.sector ≠ .known target := by
      rw [known]
      simpa using Ne.symm selected
    rw [sectorSelect_forced inside other]
    constructor
    · rintro ⟨next, run, -⟩
      by_contra some
      exact (forceSectorSelect_errs some target).returned run
    · intro none
      have settled : Settled tag (fun _ => True) m := ⟨none, tracks, trivial⟩
      obtain ⟨value, next, run, kept, tracked, -⟩ := (forceSectorSelect_rule
        (Settled.select tag fun _ => True) target m settled
        fun beyond => absurd beyond inside).exists_run
      exact ⟨next, run, kept.tracks target tracked⟩

/-- On a tag on which the next `errors` commands err and which answers everything from
then on, wherever a reader was left in a known sector by a run of calls, with any faults
on the way, and with at least as many retries as errors: READ returns the block of that
sector exactly when the block is cached or at most one command errs; WRITE returns with
the data stored in that sector exactly when at most one errs; and a selection completes
exactly when the sector is selected already or none errs.

Proof: the first attempt takes one error. A second error meets the selection ahead of the
repeated attempt, which is made once, so the command fails with it; with one error at most,
selection and repetition are answered. -/
theorem errorsAbsorbed_iff (build : Build) (past : Tag σ ε) (tag : TransientTag σ ε)
    (same : SameTag past tag.toTag) (state : σ) (start : past.active state = 0) (calls : List Call)
    (sector : UInt8) :
    let m := runCalls build past.toTransceiver calls (.fresh state)
    let errors := tag.errors m.reader.transceiver
    m.reader.sector = .known sector → errors ≤ m.reader.maxRetries.toNat →
    (∀ block, outcome (read build tag.toTransceiver block) m =
        .ok (tag.answer (tag.memoryOf m) sector block) ↔
      m.reader.cacheBlock = some block ∨ errors ≤ 1) ∧
    (∀ block data, (∃ next, write tag.toTransceiver block data m = .ok () next ∧
        tag.memoryOf next = storeBlock (tag.memoryOf m) sector block data) ↔ errors ≤ 1) ∧
    ∀ target ≤ MAX_SECTOR, (∃ next, sectorSelect tag.toTransceiver target m = .ok () next ∧
        tag.activeOf next = target) ↔ target = sector ∨ errors = 0 := by
  intro m errors known retries
  have coherent : Coherent build tag.toTag m :=
    same.coherent (coherent_run build past calls state start)
  have allowed : sector ≤ MAX_SECTOR :=
    (selectable_keepsCalls build past.toTransceiver).run_keeps calls (.fresh state)
      (fun _ zero => by cases zero; decide) sector known
  exact ⟨read_absorbed_iff coherent known allowed retries,
    write_absorbed_iff coherent.tracks known allowed retries,
    sectorSelect_absorbed_iff coherent.tracks known⟩

/-- A tag of zeros on which the next commands fail. -/
def failingState (failures : Nat) : FailingState := ⟨⟨fun _ => 0, 0⟩, failures⟩

/-- One failure is absorbed by a READ and a WRITE. -/
theorem errorsAbsorbed_once :
    let m := runCalls .alloc failingTag.toTransceiver [.setMaxRetries 3] (.fresh (failingState 1))
    m.reader.sector = .known 0 ∧
    outcome (read .alloc failingTag.toTransceiver 4) m =
      .ok (failingTag.answer (failingTag.memoryOf m) 0 4) ∧
    ∃ next, write failingTag.toTransceiver 4 #v[1, 2, 3, 4] m = .ok () next ∧
      failingTag.memoryOf next = storeBlock (failingTag.memoryOf m) 0 4 #v[1, 2, 3, 4] := by
  have absorbed := errorsAbsorbed_iff .alloc failingTag.toTag failingTag ⟨rfl, rfl, rfl⟩
    (failingState 1)
    rfl [.setMaxRetries 3] 0 (by decide +kernel) (by decide +kernel)
  exact ⟨by decide +kernel, (absorbed.1 4).mpr (Or.inr (by decide +kernel)),
    (absorbed.2.1 4 #v[1, 2, 3, 4]).mpr (by decide +kernel)⟩

/-- A reader that allows two retries, on a tag with two failures left. -/
def twiceFailed : Machine FailingState :=
  runCalls .alloc failingTag.toTransceiver [.setMaxRetries 2] (.fresh (failingState 2))

/-- A reader that allows one retry, on a tag with one failure left. -/
def onceFailed : Machine FailingState := .fresh (failingState 1)

/-- The second of two failures hits the first packet of the recovery and ends a READ though
two retries are allowed; one failure ends a selection though one retry is allowed. -/
theorem recovery_notRetried :
    (twiceFailed.reader.sector = .known 0 ∧ twiceFailed.reader.maxRetries = 2 ∧
      outcome (read .alloc failingTag.toTransceiver 4) twiceFailed = .error (.transceiver ())) ∧
    onceFailed.reader.sector = .known 0 ∧ onceFailed.reader.maxRetries = 1 ∧
      outcome (sectorSelect failingTag.toTransceiver 1) onceFailed = .error (.transceiver ()) := by
  decide +kernel

end

end NfcForumTags
