import NfcForumTags.ExchangeCosts

/-!
# What a reading costs

A READ brings four blocks, and the three behind the one asked for are served from the
cache. So `read_data_area` transmits a command for every fourth block of a sector only,
each with its retries, and selects each sector once, however the transceiver answers.
-/
namespace NfcForumTags

open Program MemoryLayout

section

variable {σ ε : Type} {t : Transceiver σ ε} {build : Build} {m : Machine σ}

/-! ## Frames sent -/

/-- What is spent when every exchange costs one, are frames. -/
theorem Machine.Spends.frames {cost : Nat} {next : Machine σ}
    (spends : m.Spends (fun _ => 1) cost next) :
    next.trace.length ≤ m.trace.length + cost := by
  rw [← weight_one, ← weight_one]
  exact spends.weight

/-- A command with its retries. -/
def commandCost (m : Machine σ) : Nat := 3 * m.reader.maxRetries.toNat + 1

/-- READ costs no more than a command with its retries. -/
theorem read_cost (build : Build) (t : Transceiver σ ε) (block : UInt8) (m : Machine σ) :
    Ensures (read build t block) (fun _ next => m.Spends (fun _ => 1) (commandCost m) next)
      (fun _ next => m.Spends (fun _ => 1) (commandCost m) next) m := by
  have cost : m.reader.maxRetries.toNat * (2 * 1 + 1) + 1 = commandCost m := by
    unfold commandCost
    omega
  have spends := read_spends (t := t) (fun _ _ => Nat.le_refl 1)
    block m (fun _ _ => Nat.le_refl 1) build
  rwa [cost] at spends

/-- Switching the sector is at most one selection. -/
theorem switchSector_cost (t : Transceiver σ ε) {sector : UInt8} (allowed : ¬ MAX_SECTOR < sector)
    (m : Machine σ) : Ensures (switchSector t sector) (fun _ next => m.Spends (fun _ => 1) 2 next)
      (fun _ next => m.Spends (fun _ => 1) 2 next) m := by
  unfold Ensures
  rw [switchSector_eq allowed]
  exact (sectorSelect_spends (fun _ _ => Nat.le_refl 1) t sector m).mono (fun _ _ kept => kept.1)
    fun _ _ left => left

/-! ## The budget of a reading -/

/-- The sectors that the first `n` blocks of the data area are in. -/
def sectorsEntered (n : Nat) : Nat := if n = 0 then 0 else (12 + 4 * n) / 1024 + 1

/-- The blocks from the `n`-th of the data area on that the cache would serve. -/
def Machine.servedAhead (m : Machine σ) (n : Nat) : Nat :=
  match m.reader.cacheBlock with
  | none => 0
  | some cached => 4 - ((4 + n).toUInt8 - cached).toNat

/-- So many frames since a trace of length `past`: two for each sector, and a command with
its retries for each READ, of which every fourth block of a sector needs one. Blocks that
the cache serves ahead have been paid for. -/
def Spent (past command sectors blocks : Nat) (m : Machine σ) : Prop :=
  ∃ misses, m.trace.length ≤ past + 2 * sectors + command * misses ∧
    4 * misses ≤ blocks + 3 * (sectors - 1)

/-- Before the `n`-th block. Of the blocks that the cache would serve from there on, the
first block of all has none to its credit. -/
structure Economical (past command n : Nat) (m : Machine σ) : Prop where
  cost : commandCost m = command
  tracked : 0 < n → m.reader.sector = .known ((12 + 4 * n) / 1024).toUInt8
  spent : ∃ ahead, ahead ≤ m.servedAhead n ∧ ahead ≤ 3 ∧ (n = 0 → ahead = 0) ∧
    Spent past command (sectorsEntered n) (n + ahead) m

/-- Before the `n`-th block, with its sector selected. -/
structure Aligned (past command n : Nat) (sector : UInt8) (m : Machine σ) : Prop where
  cost : commandCost m = command
  known : m.reader.sector = .known sector
  spent : ∃ ahead, ahead ≤ m.servedAhead n ∧
    Spent past command (sectorsEntered (n + 1)) (n + ahead) m

/-- A sector is entered by at most one more block. -/
theorem sectorsEntered_succ (n : Nat) :
    sectorsEntered (n + 1) = sectorsEntered n ∧ 0 < n ∧ (12 + 4 * n) / 1024 = (16 + 4 * n) / 1024 ∨
      sectorsEntered (n + 1) = sectorsEntered n + 1 := by
  unfold sectorsEntered
  rw [if_neg (Nat.succ_ne_zero n)]
  split
  · next zero =>
    subst zero
    exact Or.inr rfl
  · omega

/-- The block of an address of the walk. -/
theorem block_of_located {n : Nat} {sector block : UInt8}
    (located : addressToSectorBlock (16 + 4 * n) = some (sector, block, 0)) :
    block = (4 + n).toUInt8 ∧ sector = ((16 + 4 * n) / 1024).toUInt8 := by
  obtain ⟨inside, sectorValue, blockValue, -⟩ := addressToSectorBlock_some located
  simp only [ADDRESS_SPACE_END_eq] at inside
  constructor <;> apply UInt8.toNat_inj.mp
  · rw [blockValue, Nat.toUInt8, UInt8.toNat_ofNat']
    omega
  · rw [sectorValue, Nat.toUInt8, UInt8.toNat_ofNat']
    omega

/-- What the cache serves ahead, if it holds anything. -/
theorem servedAhead_cached {cached : UInt8} (hit : m.reader.cacheBlock = some cached) (n : Nat) :
    m.servedAhead n = 4 - ((4 + n).toUInt8 - cached).toNat := by
  rw [Machine.servedAhead, hit]

/-- Blocks are numbered one by one, and from the start again in the next sector. -/
theorem toUInt8_next (n : Nat) : (4 + (n + 1)).toUInt8 = (4 + n).toUInt8 + 1 := by
  apply UInt8.toNat_inj.mp
  simp only [Nat.toUInt8, UInt8.toNat_add, UInt8.toNat_ofNat', UInt8.toNat_one]
  omega

/-- More blocks, or sectors, allow for as many frames. -/
theorem Spent.mono {past command sectors blocks sectors' blocks' : Nat}
    (spent : Spent past command sectors blocks m) (moreSectors : sectors ≤ sectors')
    (more : blocks + 3 * (sectors - 1) ≤ blocks' + 3 * (sectors' - 1)) :
    Spent past command sectors' blocks' m := by
  obtain ⟨misses, sent, few⟩ := spent
  exact ⟨misses, by omega, few.trans more⟩

/-- The budget in one number. -/
theorem Spent.total {past command sectors blocks : Nat}
    (spent : Spent past command sectors blocks m) :
    m.trace.length ≤ past + 2 * sectors + command * ((blocks + 3 * (sectors - 1)) / 4) := by
  obtain ⟨misses, sent, few⟩ := spent
  refine sent.trans (Nat.add_le_add_left (Nat.mul_le_mul_left command ?_) _)
  rw [Nat.le_div_iff_mul_le (by decide)]
  omega

/-- Selecting the sector of the next block. -/
theorem Economical.aligns {past command n : Nat} {sector block : UInt8}
    (economical : Economical past command n m)
    (located : addressToSectorBlock (16 + 4 * n) = some (sector, block, 0)) :
    Ensures (switchSector t sector) (fun _ next => Aligned past command n sector next)
      (fun _ next => Spent past command (sectorsEntered (n + 1)) (n + 4) next) m := by
  obtain ⟨cost, tracked, ahead, served, few, first, misses, sent, paid⟩ := economical
  have allowed := located_allowed located
  have sectorValue := (block_of_located located).2
  rcases sectorsEntered_succ n with ⟨same, started, inSector⟩ | enters
  · have known : m.reader.sector = .known sector := by
      rw [sectorValue, ← inSector]
      exact tracked started
    unfold Ensures
    rw [switchSector_eq allowed, sectorSelect_settled allowed known]
    exact ⟨cost, known, ahead, served, misses, same ▸ sent, same ▸ paid⟩
  · have selected := switchSector_rule (survives_always t) sector m trivial fun _ => trivial
    -- What the cache would have served in the last sector is written off.
    have writtenOff : 4 * misses ≤ n + 3 * (sectorsEntered (n + 1) - 1) := by
      rcases Nat.eq_zero_or_pos n with rfl | started
      · have := first rfl
        unfold sectorsEntered at paid
        rw [if_pos rfl] at paid
        omega
      · have : 0 < sectorsEntered n := by
          unfold sectorsEntered
          rw [if_neg (Nat.ne_of_gt started)]
          omega
        omega
    refine (selected.and (switchSector_cost t allowed m)).mono ?_ ?_
    · rintro - next ⟨⟨-, known, -⟩, most⟩
      have := most.frames
      refine ⟨?_, known, 0, Nat.zero_le _, misses, by omega, writtenOff⟩
      rw [← cost, commandCost, commandCost, most.retries]
    · rintro - next ⟨-, most⟩
      have := most.frames
      exact ⟨misses, by omega, by omega⟩

/-- Reading the next block. -/
theorem Aligned.reads (caching : build.caching = true) {past command n : Nat} {sector block : UInt8}
    (located : addressToSectorBlock (16 + 4 * n) = some (sector, block, 0))
    (aligned : Aligned past command n sector m) :
    Ensures (readBlock build t block) (fun _ next => Economical past command (n + 1) next)
      (fun _ next => Spent past command (sectorsEntered (n + 1)) (n + 4) next) m := by
  obtain ⟨cost, known, ahead, served, misses, sent, paid⟩ := aligned
  obtain ⟨blockValue, sectorValue⟩ := block_of_located located
  have tracks : ∀ next : Machine σ, next.reader.sector = m.reader.sector →
      0 < n + 1 → next.reader.sector = .known ((12 + 4 * (n + 1)) / 1024).toUInt8 := by
    intro next same _
    rw [same, known, sectorValue, show 12 + 4 * (n + 1) = 16 + 4 * n by omega]
  have missed : m.servedAhead n = 0 →
      Ensures (do let data ← read build t block; return firstBlock data)
      (fun _ next => Economical past command (n + 1) next)
      (fun _ next => Spent past command (sectorsEntered (n + 1)) (n + 4) next) m := by
    intro none
    refine ((read_cost build t block m).and (read_tracked t block m)).bind ?_ ?_
    · rintro - next ⟨most, -⟩
      have := most.frames
      exact ⟨misses + 1, by rw [Nat.mul_add]; omega, by omega⟩
    · rintro data next ⟨most, same, caches⟩
      have cached := caches caching
      have := most.frames
      have three : next.servedAhead (n + 1) = 3 := by
        rw [servedAhead_cached cached, toUInt8_next, blockValue, UInt8.add_comm,
          UInt8.add_sub_cancel]
        rfl
      refine ⟨?_, tracks next same, 3, three.ge, le_refl 3, by simp, misses + 1, ?_, by omega⟩
      · rw [← cost, commandCost, commandCost, most.retries]
      · rw [Nat.mul_add]
        omega
  unfold readBlock
  rw [ensures_bind, ensures_get]
  dsimp only
  cases cached : m.reader.cacheBlock with
  | none => exact missed (by rw [Machine.servedAhead, cached])
  | some cachedBlock =>
    dsimp only
    split
    · next near =>
      have behind := servedAhead_cached cached (n + 1)
      rw [servedAhead_cached cached, ← blockValue] at served
      rw [toUInt8_next, ← blockValue] at behind
      have step : (block + 1 - cachedBlock).toNat = (block - cachedBlock).toNat + 1 := by
        rw [UInt8.toNat_sub] at near
        rw [UInt8.toNat_sub, UInt8.toNat_sub, UInt8.toNat_add, UInt8.toNat_one]
        omega
      exact ⟨cost, tracks m rfl, ahead - 1, by omega, by omega, by simp, misses, sent, by omega⟩
    · next far =>
      refine missed ?_
      rw [servedAhead_cached cached, ← blockValue]
      exact Nat.sub_eq_zero_of_le (Nat.le_of_not_lt far)

/-- One turn of the block loop. -/
theorem Economical.step (caching : build.caching = true) (t : Transceiver σ ε)
    {past command n : Nat}
    {sector block : UInt8} (located : addressToSectorBlock (16 + 4 * n) = some (sector, block, 0))
    (economical : Economical past command n m) :
    Ensures (do switchSector t sector; readBlock build t block)
      (fun _ next => Economical past command (n + 1) next)
      (fun _ next => Spent past command (sectorsEntered (n + 1)) (n + 4) next) m :=
  (economical.aligns located).bind (fun _ _ left => left) fun _ _ aligned =>
    aligned.reads caching located

/-- Whatever the transceiver answers, and wherever the reader was left: in a build that
caches, `read_data_area` sends no more than two packets for each of the sectors counted,
and a READ with its retries for every fourth of their blocks in the bytes counted.

Proof: along the walk, a READ covers four blocks, of which at most three are lost where a
sector ends and the cache is dropped. The addresses go up, so that each sector is selected
once. -/
theorem readDataArea_economy (caching : build.caching = true) (t : Transceiver σ ε)
    (layout : MemoryLayout) (m : Machine σ) :
    let sectors := (layout.totalBytes + (SECTOR_SIZE - 1)) / SECTOR_SIZE
    let blocks := (layout.totalBytes - 16 + (BLOCK_SIZE - 1)) / BLOCK_SIZE
    let attempts := 3 * m.reader.maxRetries.toNat + 1
    (stateAfter (readDataArea build t layout) m).trace.length ≤
      m.trace.length + 2 * sectors + attempts * ((blocks + 3 * sectors) / 4) := by
  intro sectors blocks attempts
  have positive : 16 ≤ layout.totalBytes := by
    change 16 ≤ layout.dataAreaSize + 16 + _ + _
    omega
  have sectorsValue : sectors = (layout.totalBytes + 1023) / 1024 := rfl
  have blocksValue : blocks = (layout.totalBytes - 16 + 3) / 4 := rfl
  have start : Economical m.trace.length attempts 0 m :=
    ⟨rfl, fun none => absurd none (by decide), 0, Nat.zero_le _, by decide, fun _ =>
      rfl, 0, le_refl _, by simp⟩
  have spent : Spent m.trace.length attempts sectors (blocks + 3)
      (stateAfter (readDataArea build t layout) m) := by
    apply Ensures.always
    refine readDataArea_walk (reaches_totalBytes layout) ?_ ?_ m start
    · intro n sector block next inside located economical
      have turn := Economical.step caching t located
        (⟨economical.cost, economical.tracked, economical.spent⟩ :
          Economical _ _ n { next with serving := some (16 + 4 * n) })
      have entered : sectorsEntered (n + 1) = (12 + 4 * (n + 1)) / 1024 + 1 :=
        if_neg (Nat.succ_ne_zero n)
      exact turn.mono (fun _ _ kept => kept) fun _ _ left => left.mono (by omega) (by omega)
    · rintro n next near ⟨-, -, ahead, -, few, first, spent⟩
      suffices within : Spent m.trace.length attempts sectors (blocks + 3)
        next from ⟨within, fun _ _ => within⟩
      rcases Nat.eq_zero_or_pos n with rfl | started
      · exact spent.mono (Nat.zero_le _) (by have := first rfl; unfold sectorsEntered; simp; omega)
      · have entered : sectorsEntered n = (12 + 4 * n) / 1024 + 1 := if_neg (Nat.ne_of_gt started)
        exact spent.mono (by omega) (by omega)
  have total := spent.total
  have same : blocks + 3 + 3 * (sectors - 1) = blocks + 3 * sectors := by omega
  rwa [same] at total

/-- The 48 bytes of a static tag without a Terminator take three READs, and no more than
two packets besides. -/
theorem readDataArea_economy_static :
    (stateAfter (readDataArea .alloc flatTag.toTransceiver ⟨48, [], []⟩)
      (.start ⟨fun _ => 0, 0⟩ 0)).trace.length ≤ 5 :=
  readDataArea_economy rfl flatTag.toTransceiver ⟨48, [], []⟩ (.start ⟨fun _ => 0, 0⟩ 0)

end

end NfcForumTags
