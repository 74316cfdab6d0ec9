import NfcForumTags.Operations
import NfcForumTags.WritePlan

/-!
# Tags under the rules

The contracts of a tag give the instances of the rules. What each exchange does to
the reader's knowledge of the tag is stated once: a lost attempt gives up sector
and cache, so that nothing is claimed; an answered READ or WRITE leaves the active
sector; a completed selection makes the selected sector active.
-/
namespace NfcForumTags

open Program

section

variable {σ ε : Type}

/-- Whether a frame carries a READ or a WRITE. -/
def Frame.isTransfer : Frame → Bool
  | .command (code :: _) => decide (code = CMD_READ) || decide (code = CMD_WRITE)
  | _ => false

/-! ## Sector tags -/

section SectorTags

variable (tag : SectorTag σ ε) {past : List (Exchange σ)} {P : Exchange σ → Prop} {m : Machine σ}

/-- A machine that knows no sector tracks any tag. -/
theorem tracks_unknown {tag : SectorTag σ ε}
    (unknown : m.reader.sector = .unknown) : Tracks tag m := by
  intro sector known
  rw [unknown] at known
  cases known

/-- The reader tracks the sector, and the exchanges since `past` have the property. -/
structure Tracked (past : List (Exchange σ)) (P : Exchange σ → Prop) (m : Machine σ) : Prop where
  tracks : Tracks tag m
  logged : Logged past P m

variable {tag}

/-- Giving up the sector leaves nothing tracked that could be wrong. -/
theorem Tracked.forget (tracked : Tracked tag past P m) : Tracked tag past P m.forget :=
  ⟨tracks_unknown rfl, tracked.logged.congr rfl⟩

/-- A lost command gives up the sector. -/
theorem Tracked.lost (tracked : Tracked tag past P m) (cmd : List UInt8)
    (logs : P ⟨m.serving, .command cmd, m.reader.transceiver,
      (tag.transceive cmd m.reader.transceiver).2, m.reader.sector⟩) :
    Tracked tag past P (m.sent tag.toTransceiver cmd).forget :=
  ⟨tracks_unknown rfl, (tracked.logged.exchanged _ _ logs).congr rfl⟩

/-- An answered command that leaves the active sector keeps it tracked. -/
theorem Tracked.answered (tracked : Tracked tag past P m) (cmd : List UInt8)
    (logs : P ⟨m.serving, .command cmd, m.reader.transceiver,
      (tag.transceive cmd m.reader.transceiver).2, m.reader.sector⟩)
    (stays : tag.active (tag.transceive cmd m.reader.transceiver).2 =
      tag.active m.reader.transceiver) :
    Tracked tag past P (m.sent tag.toTransceiver cmd) :=
  ⟨fun sector known => stays.trans (tracked.tracks sector known), tracked.logged.exchanged _ _ logs⟩

/-- Dropping the cache keeps what is tracked. -/
theorem Tracked.uncache (tracked : Tracked tag past P m) : Tracked tag past P m.uncache :=
  ⟨tracked.tracks, tracked.logged.congr rfl⟩

/-- So does keeping a READ result. -/
theorem Tracked.store (tracked : Tracked tag past P m) (build : Build) (blockNo : UInt8)
    (data : Vector UInt8 16) : Tracked tag past P (m.store build blockNo data) := by
  unfold Machine.store
  split
  · exact ⟨tracked.tracks, tracked.logged.congr rfl⟩
  · exact tracked

variable (tag past) in
/-- Tracking outlasts every selection. -/
theorem Tracked.select (logs : ∀ exchange, exchange.frame.isTransfer = false → P exchange) :
    SurvivesSelect tag.toTransceiver (Tracked tag past P) (Tracked tag past P) where
  forget := fun _ tracked => tracked.forget
  part1 := fun m _ tracked unknown _ _ _ =>
    ⟨tracks_unknown unknown, tracked.logged.exchanged _ _ (logs _ rfl)⟩
  part1_lost := fun m _ tracked unknown _ _ =>
    ⟨tracks_unknown unknown, tracked.logged.exchanged _ _ (logs _ rfl)⟩
  part1_refused := fun m _ tracked unknown _ _ _ =>
    ⟨tracks_unknown unknown, tracked.logged.exchanged _ _ (logs _ rfl)⟩
  part2_refused := fun m _ tracked unknown _ _ =>
    ⟨tracks_unknown unknown, tracked.logged.exchanged _ _ (logs _ rfl)⟩
  selected := by
    intro m sector tracked allowed empty answered
    refine ⟨?_, (tracked.logged.exchanged _ _ (logs _ rfl)).congr rfl⟩
    intro known same
    cases same
    exact tag.select_active m.reader.transceiver sector answered

variable (tag past) in
/-- An answered READ keeps the sector tracked, and so does keeping its result. -/
theorem Tracked.sendsRead (build : Build) (serving : Option Nat) (intended : SectorState)
    (block : UInt8) (logs : ∀ m : Machine σ, Tracks tag m → m.serving = serving →
      m.reader.sector = intended → P ⟨m.serving, .command (Command.read block).toBytes,
        m.reader.transceiver, (tag.transceive (Command.read block).toBytes m.reader.transceiver).2,
        m.reader.sector⟩) :
    SurvivesSend tag.toTransceiver (fun m => Tracked tag past P m ∧ m.serving = serving)
      (Tracked tag past P) (Command.read block).toBytes intended fun _ next =>
        Tracked tag past P next ∧ ∀ data, Tracked tag past P (next.store build block data) where
  lost := fun m _ holds known _ =>
    have lost := holds.1.lost _ (logs m holds.1.tracks holds.2 known)
    ⟨⟨lost, holds.2⟩, lost⟩
  answered := fun m raw holds known answered =>
    have kept := holds.1.answered _ (logs m holds.1.tracks holds.2 known)
      (tag.read_active m.reader.transceiver block raw answered)
    ⟨kept, fun data => kept.store build block data⟩

variable (tag past) in
/-- An answered WRITE keeps the sector tracked. -/
theorem Tracked.sendsWrite (serving : Option Nat) (intended : SectorState) (block : UInt8)
    (page : Vector UInt8 4) (logs : ∀ m : Machine σ, Tracks tag m → m.serving = serving →
      m.reader.sector = intended → P ⟨m.serving, .command (Command.write block page).toBytes,
        m.reader.transceiver,
        (tag.transceive (Command.write block page).toBytes m.reader.transceiver).2,
        m.reader.sector⟩) :
    SurvivesSend tag.toTransceiver (fun m => Tracked tag past P m ∧ m.serving = serving)
      (Tracked tag past P) (Command.write block page).toBytes intended fun _ next =>
        Tracked tag past P next.uncache where
  lost := fun m _ holds known _ =>
    have lost := holds.1.lost _ (logs m holds.1.tracks holds.2 known)
    ⟨⟨lost, holds.2⟩, lost⟩
  answered := fun m raw holds known answered =>
    (holds.1.answered _ (logs m holds.1.tracks holds.2 known)
      (tag.write_active m.reader.transceiver block page raw answered)).uncache

/-- The exchange was received in the sector, and carried a command for the block,
that the served address is in. -/
def InPlace (tag : SectorTag σ ε) (exchange : Exchange σ) : Prop :=
  ∃ addr sector block offset, exchange.serving = some addr ∧
    MemoryLayout.addressToSectorBlock addr = some (sector, block, offset) ∧
    tag.active exchange.before = sector ∧ (exchange.IsRead block ∨ exchange.IsWrite block)

/-- Aimed commands are received in place. -/
theorem inPlace_of_aimed {block : UInt8} {frame : Frame} {after : σ} {tracked : SectorState}
    (tracks : Tracks tag m) (aimed : Aimed m.serving m.reader.sector block)
    (carries : frame = .command (Command.read block).toBytes ∨
      ∃ page, frame = .command (Command.write block page).toBytes) :
    InPlace tag ⟨m.serving, frame, m.reader.transceiver, after, tracked⟩ := by
  obtain ⟨addr, sector, offset, served, located, known⟩ := aimed
  exact ⟨addr, sector, block, offset, served, located, tracks sector known, carries⟩

/-- The operations that serve addresses keep the sector tracked, with every READ
and WRITE received in place. -/
theorem Tracked.keeps (build : Build) (tag : SectorTag σ ε) (past : List (Exchange σ)) :
    Keeps build tag.toTransceiver
      (Tracked tag past fun exchange => exchange.frame.isTransfer = true → InPlace tag exchange)
      (Tracked tag past fun exchange => exchange.frame.isTransfer = true →
        InPlace tag exchange) where
  reads := {
    serve := fun _ _ tracked => ⟨tracked.tracks, tracked.logged.congr rfl⟩
    select := Tracked.select tag past
      fun exchange packet transfer => by rw [packet] at transfer; cases transfer
    sends := by
      intro serving intended block aimed
      have sends := Tracked.sendsRead tag past
        (P := fun exchange => exchange.frame.isTransfer = true → InPlace tag exchange)
        build serving intended block fun m tracks served known _ =>
          inPlace_of_aimed tracks (served ▸ known ▸ aimed) (Or.inl rfl)
      exact ⟨sends.lost, fun m raw holds known answered =>
        have kept := sends.answered m raw holds known answered
        ⟨fun data _ => ⟨kept.2 data, fun _ _ _ _ _ => trivial⟩, fun _ => kept.1⟩⟩
    cached := fun _ _ _ _ _ _ _ _ _ => trivial }
  writes := by
    intro serving intended block page aimed
    have sends := Tracked.sendsWrite tag past
      (P := fun exchange => exchange.frame.isTransfer = true → InPlace tag exchange)
      serving intended block page fun m tracks served known _ =>
        inPlace_of_aimed tracks (served ▸ known ▸ aimed) (Or.inr ⟨page, rfl⟩)
    exact ⟨sends.lost, fun m raw holds known answered =>
      have kept := sends.answered m raw holds known answered
      ⟨fun _ => kept, fun _ => kept⟩⟩

end SectorTags

/-! ## Tags with a memory -/

section Tags

variable {build : Build} {tag : Tag σ ε} {past : List (Exchange σ)} {P : Exchange σ → Prop}
  {M : Memory → Prop} {E : Machine σ → Prop} {m : Machine σ}

/-- The reader is coherent with the tag, the memory has a property, and so has each
exchange since `past`. -/
structure Held (build : Build) (tag : Tag σ ε) (past : List (Exchange σ)) (P : Exchange σ → Prop)
    (M : Memory → Prop) (m : Machine σ) : Prop where
  coherent : Coherent build tag m
  memory : M (tag.memoryOf m)
  logged : Logged past P m

/-- Nothing is claimed of a sector that is not known and a cache that is dropped. -/
theorem Held.blank (unknown : m.reader.sector = .unknown) (empty : m.reader.cacheBlock = none)
    (memory : M (tag.memoryOf m)) (logged : Logged past P m) : Held build tag past P M m :=
  ⟨blank_coherent unknown empty, memory, logged⟩

/-- A weaker property of the memory is held as well. -/
theorem Held.mono {N : Memory → Prop} (held : Held build tag past P M m)
    (weaken : ∀ memory, M memory → N memory) : Held build tag past P N m :=
  ⟨held.coherent, weaken _ held.memory, held.logged⟩

variable (build tag past) in
/-- A selection keeps coherence and memory. -/
theorem Held.select (logs : ∀ exchange, exchange.frame.isWrite = false →
      M (tag.memory exchange.after) → P exchange)
    (ends : ∀ m, Held build tag past P M m → E m) :
    SurvivesSelect tag.toTransceiver (Held build tag past P M) E := by
  have afterPart1 : ∀ m, Held build tag past P M m → m.reader.sector = .unknown →
      m.reader.cacheBlock = none →
      Held build tag past P M (m.sent tag.toTransceiver Command.sectorSelectPart1.toBytes) := by
    intro m held unknown empty
    have memory : M (tag.memory
        (tag.transceive Command.sectorSelectPart1.toBytes m.reader.transceiver).2) := by
      rw [tag.part1_memory]
      exact held.memory
    exact Held.blank unknown empty memory (held.logged.exchanged _ _ (logs _ rfl memory))
  have afterPart2 : ∀ m (sector : UInt8), Held build tag past P M m →
      M (tag.memory (tag.transceiveNoResponse (Command.sectorSelectPart2 sector).toBytes
        m.reader.transceiver).2) ∧
      Logged past P (m.sentPacket tag.toTransceiver
          (Command.sectorSelectPart2 sector).toBytes) := by
    intro m sector held
    have memory : M (tag.memory (tag.transceiveNoResponse
        (Command.sectorSelectPart2 sector).toBytes m.reader.transceiver).2) := by
      rw [tag.part2_memory]
      exact held.memory
    exact ⟨memory, held.logged.exchanged _ _ (logs _ rfl memory)⟩
  exact {
    forget := fun m held => Held.blank rfl rfl held.memory (held.logged.congr rfl)
    part1 := fun m _ held unknown empty _ _ => afterPart1 m held unknown empty
    part1_lost := fun m _ held unknown empty _ => ends _ (afterPart1 m held unknown empty)
    part1_refused := fun m _ held unknown empty _ _ => ends _ (afterPart1 m held unknown empty)
    part2_refused := fun m sector held unknown empty _ =>
      have after := afterPart2 m sector held
      ends _ (Held.blank unknown empty after.1 after.2)
    selected := by
      intro m sector held allowed empty answered
      have after := afterPart2 m sector held
      refine ⟨⟨?_, ?_, fun _ => empty⟩, after.1, after.2.congr rfl⟩
      · intro known same
        cases same
        exact tag.select_active m.reader.transceiver sector answered
      · intro block cached
        have none : m.reader.cacheBlock = some block := cached
        rw [empty] at none
        cases none }

variable (build tag past) in
/-- A lost READ claims nothing; an answered one keeps coherence, and so does
keeping its result. -/
theorem Held.sendsRead (logs : ∀ exchange, exchange.frame.isWrite = false →
      M (tag.memory exchange.after) → P exchange)
    (ends : ∀ m, Held build tag past P M m → E m) (serving : Option Nat) (intended : SectorState)
    (block : UInt8) :
    SurvivesSend tag.toTransceiver (fun m => Held build tag past P M m ∧ m.serving = serving) E
      (Command.read block).toBytes intended fun raw next =>
        Held build tag past P M next ∧ next.reader.sector = intended ∧
        ∀ data, (Command.read block).parseAnswer raw = .ok (.data data) →
          Held build tag past P M (next.store build block data) ∧
          data = tag.answer (tag.memoryOf next) (tag.activeOf next) block := by
  have after : ∀ m, Held build tag past P M m →
      M (tag.memory (tag.transceive (Command.read block).toBytes m.reader.transceiver).2) ∧
      Logged past P (m.sent tag.toTransceiver (Command.read block).toBytes) := by
    intro m held
    have memory : M (tag.memory
        (tag.transceive (Command.read block).toBytes m.reader.transceiver).2) := by
      rw [tag.read_memory]
      exact held.memory
    exact ⟨memory, held.logged.exchanged _ _ (logs _ rfl memory)⟩
  constructor
  · intro m error holds known lost
    have left : Held build tag past P M
        (m.sent tag.toTransceiver (Command.read block).toBytes).forget :=
      Held.blank rfl rfl (after m holds.1).1 ((after m holds.1).2.congr rfl)
    exact ⟨⟨left, holds.2⟩, ends _ left⟩
  · intro m raw holds known answered
    have active := tag.read_active m.reader.transceiver block raw answered
    have memory := tag.read_memory m.reader.transceiver block
    have coherent := holds.1.coherent
    have kept : Held build tag past P M (m.sent tag.toTransceiver
        (Command.read block).toBytes) := by
      refine ⟨⟨?_, ?_, coherent.uncached⟩, (after m holds.1).1, (after m holds.1).2⟩
      · exact fun sector tracked => active.trans (coherent.tracks sector tracked)
      · intro cached hit
        have same := coherent.cached cached hit
        change m.reader.cacheData = tag.answer
          (tag.memory (tag.transceive (Command.read block).toBytes m.reader.transceiver).2)
          (tag.active (tag.transceive (Command.read block).toBytes m.reader.transceiver).2) cached
        rw [memory, active]
        exact same
    refine ⟨kept, known, fun data parsed => ?_⟩
    have read : data = tag.answer
        (tag.memoryOf (m.sent tag.toTransceiver (Command.read block).toBytes))
        (tag.activeOf (m.sent tag.toTransceiver (Command.read block).toBytes)) block := by
      change data = tag.answer
          (tag.memory (tag.transceive (Command.read block).toBytes m.reader.transceiver).2)
          (tag.active (tag.transceive (Command.read block).toBytes m.reader.transceiver).2) block
      rw [memory, active]
      exact tag.read_answer m.reader.transceiver block raw data answered parsed
    refine ⟨?_, read⟩
    unfold Machine.store
    split
    · next caching =>
      refine ⟨⟨kept.coherent.tracks, ?_, ?_⟩, kept.memory, kept.logged.congr rfl⟩
      · intro cached hit
        obtain rfl := Option.some.inj hit
        exact read
      · intro never
        rw [caching] at never
        cases never
    · exact kept

variable (build tag past) in
/-- A WRITE with any effect the tag may give it keeps coherence. -/
theorem Held.sendsWrite {N : Memory → Prop} (serving : Option Nat) (intended : SectorState)
    (block : UInt8) (page : Vector UInt8 4)
    (effect : ∀ m : Machine σ, Held build tag past P M m → m.reader.sector = intended →
      m.serving = serving →
      let after := (tag.transceive (Command.write block page).toBytes m.reader.transceiver).2
      M (tag.memory after) ∧
        P ⟨serving, .command (Command.write block page).toBytes, m.reader.transceiver, after,
          m.reader.sector⟩ ∧
        (∀ raw, (tag.transceive (Command.write block page).toBytes m.reader.transceiver).1 =
          .ok raw →
          (Command.write block page).parseAnswer raw = .ok .ack → N (tag.memory after)))
    (ends : ∀ m, Held build tag past P M m → E m) :
    SurvivesSend tag.toTransceiver (fun m => Held build tag past P M m ∧ m.serving = serving) E
      (Command.write block page).toBytes intended fun raw next =>
        ((Command.write block page).parseAnswer raw = .ok .ack →
          Held build tag past P N next.uncache) ∧
        Held build tag past P M next.uncache := by
  constructor
  · intro m error holds known lost
    obtain ⟨memory, logs, -⟩ := effect m holds.1 known holds.2
    have left : Held build tag past P M
        (m.sent tag.toTransceiver (Command.write block page).toBytes).forget :=
      Held.blank rfl rfl memory ((holds.1.logged.exchanged _ _ (holds.2 ▸ logs)).congr rfl)
    exact ⟨⟨left, holds.2⟩, ends _ left⟩
  · intro m raw holds known answered
    obtain ⟨memory, logs, acked⟩ := effect m holds.1 known holds.2
    have active := tag.write_active m.reader.transceiver block page raw answered
    have logged : Logged past P
        (m.sent tag.toTransceiver (Command.write block page).toBytes).uncache :=
      (holds.1.logged.exchanged _ _ (holds.2 ▸ logs)).congr rfl
    have coherent : Coherent build tag
        (m.sent tag.toTransceiver (Command.write block page).toBytes).uncache := by
      refine ⟨fun sector tracked => active.trans (holds.1.coherent.tracks sector tracked), ?_,
        fun _ => rfl⟩
      intro cached hit
      cases hit
    exact ⟨fun ack => ⟨coherent, acked raw answered ack, logged⟩, coherent, memory, logged⟩

/-- Reading sees the memory. -/
theorem Held.reads {mem : Memory} (logs : ∀ exchange, exchange.frame.isWrite = false →
      tag.memory exchange.after = mem → P exchange)
    (ends : ∀ m, Held build tag past P (· = mem) m → E m) :
    Reads build tag.toTransceiver (Held build tag past P (· = mem)) E
      fun addr byte => byte = mem addr where
  serve := fun _ _ held => ⟨held.coherent.congr rfl rfl rfl rfl, held.memory, held.logged.congr rfl⟩
  select := Held.select build tag past logs ends
  sends := by
    intro serving intended block aimed
    have sends := Held.sendsRead build tag past logs ends serving intended block
    refine ⟨sends.lost, fun m raw holds known answered => ?_⟩
    obtain ⟨kept, tracked, stored⟩ := sends.answered m raw holds known answered
    refine ⟨fun data parsed => ?_, fun _ => ends _ kept⟩
    obtain ⟨stores, read⟩ := stored data parsed
    refine ⟨stores, fun sector same i short inside => ?_⟩
    rw [read, kept.memory, kept.coherent.tracks sector (tracked.trans same)]
    exact tag.answer_inside mem sector block i short inside
  cached := by
    intro m sector block held known hit i short inside
    rw [held.coherent.cached block hit, held.memory, held.coherent.tracks sector known]
    exact tag.answer_inside mem sector block i short inside

/-- A plan is written on any tag: its pages in order, with the memory of one of its
stages after every exchange. -/
theorem Held.writes {base : Memory} {pages : List (List (Nat × UInt8))}
    (logsOther : ∀ exchange, exchange.frame.isWrite = false →
      (∃ k ≤ pages.length, tag.memory exchange.after = planned base pages k) → P exchange)
    (logsWrite : ∀ k addr sector block offset page before after, k < pages.length → 16 ≤ addr →
      MemoryLayout.addressToSectorBlock addr = some (sector, block, offset) →
      tag.active before = sector →
      tag.memory after = planned base pages k ∨ tag.memory after = planned base pages (k + 1) →
      P ⟨some addr, .command (Command.write block page).toBytes, before, after, .known sector⟩) :
    Writes build tag.toTransceiver base pages
      (fun k => Held build tag past P (· = planned base pages k))
      (fun k => Held build tag past P fun memory =>
        memory = planned base pages k ∨ memory = planned base pages (k + 1))
      (Held build tag past P fun memory => ∃ k ≤ pages.length, memory = planned base pages k) where
  reads := fun k inside => Held.reads
    (fun exchange other same => logsOther exchange other ⟨k, inside, same⟩)
    fun m held => held.mono fun memory same => ⟨k, inside, same⟩
  select := fun k inside => Held.select build tag past
    (fun exchange other same => logsOther exchange other (same.elim
      (fun same => ⟨k, inside.le, same⟩) fun same => ⟨k + 1, inside, same⟩))
    fun m held => held.mono fun memory same => same.elim
      (fun same => ⟨k, inside.le, same⟩) fun same => ⟨k + 1, inside, same⟩
  attempts := fun k m _ held => held.mono fun memory same => Or.inl same
  sends := by
    intro k addr sector block offset page inside start located stores
    have ends : ∀ m, Held build tag past P (fun memory =>
        memory = planned base pages k ∨ memory = planned base pages (k + 1)) m →
        Held build tag past P (fun memory => ∃ k ≤ pages.length, memory = planned base pages k) m :=
      fun m held => held.mono fun memory same => same.elim
        (fun same => ⟨k, inside.le, same⟩) fun same => ⟨k + 1, inside, same⟩
    have sends := Held.sendsWrite build tag past (P := P)
      (M := fun memory => memory = planned base pages k ∨ memory = planned base pages (k + 1))
      (N := fun memory => memory = planned base pages (k + 1)) (some addr)
        (.known sector) block page
      ?_ ends
    · exact ⟨sends.lost, fun m raw holds known answered =>
        have after := sends.answered m raw holds known answered
        ⟨after.1, fun _ => ends _ after.2⟩⟩
    · intro m held known served after
      have active : tag.active m.reader.transceiver = sector := held.coherent.tracks sector known
      -- Storing the page again on the memory it is already stored in changes nothing.
      have stored : storeBlock (tag.memory m.reader.transceiver) (tag.active m.reader.transceiver)
          block page = planned base pages (k + 1) := by
        rcases held.memory with same | same
        · rw [active, show tag.memory m.reader.transceiver = _ from same, stores]
        · rw [active, show tag.memory m.reader.transceiver = _ from same, ← stores,
            storeBlock_again]
      have memory : tag.memory after = planned base pages k ∨
          tag.memory after = planned base pages (k + 1) := by
        rcases tag.write_memory m.reader.transceiver block page with same | applied
        · rw [show tag.memory after = _ from same]
          exact held.memory
        · exact Or.inr (applied.trans stored)
      refine ⟨memory, known ▸ logsWrite k addr sector block offset page _ _ inside start
        located active memory, fun raw answered acked => ?_⟩
      exact (tag.write_acked m.reader.transceiver block page raw answered acked).trans stored

end Tags

end

end NfcForumTags
