import NfcForumTags.Link

/-!
# What a tag is relied on for

The transceiver is code outside this crate, so a tag is described by laws on its
answers. A `SectorTag` has an active sector that changes only when a selection
may change it. A `Tag` also has a memory that READ answers from and WRITE changes,
whether or not the answer gets through. A `FaultFreeTag` answers everything, a
`CutTag` nothing after its first error, and a `TransientTag` everything after its last.

The memory is linear: byte `i` of block `b` in sector `s` is at `1024 * s + 4 * b + i`.
What a READ returns for the blocks past the end of a sector is left open: it is
some function of the memory, the sector and the block.
-/
namespace NfcForumTags

/-- The bytes of a tag, by their linear address over all sectors. -/
abbrev Memory := Nat → UInt8

/-- Linear address of the first byte of a block. -/
def blockAddress (sector block : UInt8) : Nat :=
    sector.toNat * SECTOR_SIZE + block.toNat * BLOCK_SIZE

/-- The address of a block: 1024 bytes to the sector, 4 to the block. -/
theorem blockAddress_eq (sector block : UInt8) :
    blockAddress sector block = sector.toNat * 1024 + block.toNat * 4 := rfl

/-- The memory after a WRITE of one block. -/
def storeBlock (memory : Memory) (sector block : UInt8) (data : Vector UInt8 4) : Memory :=
  fun addr =>
    if inside : blockAddress sector block ≤ addr ∧ addr < blockAddress sector block + 4 then
      data[addr - blockAddress sector block]
    else memory addr

/-- A repeated WRITE of the same data changes nothing more. -/
@[simp] theorem storeBlock_again (memory : Memory) (sector block : UInt8) (data : Vector UInt8 4) :
    storeBlock (storeBlock memory sector block data) sector block data =
      storeBlock memory sector block data := by
  funext addr
  unfold storeBlock
  split <;> rfl

/-- A converted address is its block's address plus its offset. -/
theorem located_address {addr : Nat} {sector block offset : UInt8}
    (located : MemoryLayout.addressToSectorBlock addr = some (sector, block, offset)) :
    addr = blockAddress sector block + offset.toNat := by
  obtain ⟨-, sectorValue, blockValue, offsetValue⟩ := MemoryLayout.addressToSectorBlock_some located
  rw [blockAddress_eq]
  omega

/-! ## Exchanges -/

/-- The exchange carried a READ of this block. -/
def Exchange.IsRead {σ : Type} (exchange : Exchange σ) (block : UInt8) : Prop :=
  exchange.frame = .command (Command.read block).toBytes

/-- The exchange carried a WRITE to this block. -/
def Exchange.IsWrite {σ : Type} (exchange : Exchange σ) (block : UInt8) : Prop :=
  ∃ data, exchange.frame = .command (Command.write block data).toBytes

/-- Whether a frame carries a WRITE. -/
def Frame.isWrite : Frame → Bool
  | .command (code :: _) => decide (code = CMD_WRITE)
  | _ => false

/-- A WRITE frame is recognised by its first byte. -/
theorem Exchange.IsWrite.isWrite {σ : Type} {exchange : Exchange σ} {block : UInt8}
    (wrote : exchange.IsWrite block) : exchange.frame.isWrite = true := by
  obtain ⟨data, frame⟩ := wrote
  rw [frame]
  rfl

/-- The exchanges of a trace that carried a WRITE, in order. -/
def writesOf {σ : Type} (trace : List (Exchange σ)) : List (Exchange σ) :=
  trace.filter fun exchange => exchange.frame.isWrite

/-! ## Tags -/

/-- A tag whose active sector outlasts every answered READ and WRITE and becomes
the selected one when a selection is passively acknowledged. Whenever a call
errs, or a packet is refused, the active sector may become anything. -/
structure SectorTag (σ ε : Type) extends Transceiver σ ε where
  active : σ → UInt8
  read_active : ∀ state block raw,
    (transceive (Command.read block).toBytes state).1 = .ok raw →
      active (transceive (Command.read block).toBytes state).2 = active state
  write_active : ∀ state block data raw,
    (transceive (Command.write block data).toBytes state).1 = .ok raw →
      active (transceive (Command.write block data).toBytes state).2 = active state
  select_active : ∀ state sector,
    (transceiveNoResponse (Command.sectorSelectPart2 sector).toBytes state).1 = .ok none →
      active (transceiveNoResponse (Command.sectorSelectPart2 sector).toBytes state).2 = sector

/-- A sector tag with a memory. A READ answer of full length is the memory of
the active sector; a WRITE is acknowledged only if it was applied, and without an
acknowledgement may or may not have been. -/
structure Tag (σ ε : Type) extends SectorTag σ ε where
  memory : σ → Memory
  /-- The sixteen bytes READ returns for a memory, a sector and a block. -/
  answer : Memory → UInt8 → UInt8 → Vector UInt8 16
  answer_inside : ∀ contents sector block (i : Nat) (short : i < 16), block.toNat * 4 + i < 1024 →
    (answer contents sector block)[i] = contents (blockAddress sector block + i)
  read_memory : ∀ state block,
    memory (transceive (Command.read block).toBytes state).2 = memory state
  read_answer : ∀ state block raw data,
    (transceive (Command.read block).toBytes state).1 = .ok raw →
      (Command.read block).parseAnswer raw = .ok (.data data) →
      data = answer (memory state) (active state) block
  write_memory : ∀ state block data,
    memory (transceive (Command.write block data).toBytes state).2 = memory state ∨
      memory (transceive (Command.write block data).toBytes state).2 =
        storeBlock (memory state) (active state) block data
  write_acked : ∀ state block data raw,
    (transceive (Command.write block data).toBytes state).1 = .ok raw →
      (Command.write block data).parseAnswer raw = .ok .ack →
      memory (transceive (Command.write block data).toBytes state).2 =
        storeBlock (memory state) (active state) block data
  part1_memory : ∀ state,
    memory (transceive Command.sectorSelectPart1.toBytes state).2 = memory state
  part2_memory : ∀ state sector,
    memory (transceiveNoResponse (Command.sectorSelectPart2 sector).toBytes state).2 = memory state

/-- A tag that answers every READ, acknowledges every WRITE and accepts every
selection. -/
structure FaultFreeTag (σ ε : Type) extends Tag σ ε where
  reads : ∀ state block, ∃ raw,
    (transceive (Command.read block).toBytes state).1 = .ok raw ∧ 16 ≤ raw.length
  acks : ∀ state block data, ∃ raw,
    (transceive (Command.write block data).toBytes state).1 = .ok raw ∧
      (Command.write block data).parseAnswer raw = .ok .ack
  selects1 : ∀ state, ∃ raw,
    (transceive Command.sectorSelectPart1.toBytes state).1 = .ok raw ∧
      Command.sectorSelectPart1.parseAnswer raw = .ok .ack
  selects2 : ∀ state sector,
    (transceiveNoResponse (Command.sectorSelectPart2 sector).toBytes state).1 = .ok none

/-- A tag that may leave the field: the first command to err is the last one received,
and from then on no call succeeds or changes anything. The WRITEs applied are counted. -/
structure CutTag (σ ε : Type) extends Tag σ ε where
  gone : σ → Bool
  applied : σ → Nat
  lost : ∀ state cmd error, (transceive cmd state).1 = .error error →
    gone (transceive cmd state).2 = true
  gone_command : ∀ state cmd, gone state = true →
    (∃ error, (transceive cmd state).1 = .error error) ∧
      memory (transceive cmd state).2 = memory state ∧
      applied (transceive cmd state).2 = applied state
  gone_packet : ∀ state packet, gone state = true →
    gone (transceiveNoResponse packet state).2 = true
  applied_read : ∀ state block,
    applied (transceive (Command.read block).toBytes state).2 = applied state
  applied_part1 : ∀ state,
    applied (transceive Command.sectorSelectPart1.toBytes state).2 = applied state
  applied_part2 : ∀ state sector,
    applied (transceiveNoResponse (Command.sectorSelectPart2 sector).toBytes state).2 =
      applied state
  applied_write : ∀ state block data,
    let after := (transceive (Command.write block data).toBytes state).2
    memory after = memory state ∧ applied after = applied state ∨
      memory after = storeBlock (memory state) (active state) block data ∧
        applied after = applied state + 1
  applied_acked : ∀ state block data raw,
    (transceive (Command.write block data).toBytes state).1 = .ok raw →
      (Command.write block data).parseAnswer raw = .ok .ack →
      applied (transceive (Command.write block data).toBytes state).2 = applied state + 1

/-- A tag on which the next commands err, as many as are counted; from then on it
answers every READ, acknowledges every WRITE and accepts every selection. -/
structure TransientTag (σ ε : Type) extends Tag σ ε where
  errors : σ → Nat
  errs : ∀ state cmd, errors state ≠ 0 → ∃ error, (transceive cmd state).1 = .error error
  errors_command : ∀ state cmd, errors (transceive cmd state).2 = errors state - 1
  errors_packet : ∀ state packet, errors (transceiveNoResponse packet state).2 = errors state
  reads : ∀ state block, errors state = 0 → ∃ raw,
    (transceive (Command.read block).toBytes state).1 = .ok raw ∧ 16 ≤ raw.length
  acks : ∀ state block data, errors state = 0 → ∃ raw,
    (transceive (Command.write block data).toBytes state).1 = .ok raw ∧
      (Command.write block data).parseAnswer raw = .ok .ack
  selects1 : ∀ state, errors state = 0 → ∃ raw,
    (transceive Command.sectorSelectPart1.toBytes state).1 = .ok raw ∧
      Command.sectorSelectPart1.parseAnswer raw = .ok .ack
  selects2 : ∀ state sector, errors state = 0 →
    (transceiveNoResponse (Command.sectorSelectPart2 sector).toBytes state).1 = .ok none

section

variable {σ ε : Type}

/-- Memory of the tag a machine is connected to. -/
def Tag.memoryOf (tag : Tag σ ε) (m : Machine σ) : Memory := tag.memory m.reader.transceiver

/-- Active sector of the tag a machine is connected to. -/
def SectorTag.activeOf (tag : SectorTag σ ε) (m : Machine σ) : UInt8 :=
  tag.active m.reader.transceiver

/-! ## Invariants of machine and tag -/

/-- A known sector is the tag's active sector. -/
def Tracks (tag : SectorTag σ ε) (m : Machine σ) : Prop :=
  ∀ sector, m.reader.sector = .known sector → tag.activeOf m = sector

/-- The reader tracks the sector, and a cached READ result is what the tag would
answer now. A reader that never caches has nothing cached. -/
structure Coherent (build : Build) (tag : Tag σ ε) (m : Machine σ) : Prop where
  tracks : Tracks tag.toSectorTag m
  cached : ∀ block, m.reader.cacheBlock = some block →
    m.reader.cacheData = tag.answer (tag.memoryOf m) (tag.activeOf m) block
  uncached : build.caching = false → m.reader.cacheBlock = none

/-- A new reader on a tag in sector 0 is coherent with it. -/
theorem fresh_coherent (build : Build) (tag : Tag σ ε) (state : σ) (start : tag.active state = 0) :
    Coherent build tag (.fresh state) where
  tracks := by
    intro sector known
    cases known
    exact start
  cached := by
    intro block cached
    cases cached
  uncached := fun _ => rfl

/-- A machine that knows no sector and caches nothing is coherent with any tag. -/
theorem blank_coherent {build : Build} {tag : Tag σ ε} {m : Machine σ}
    (unknown : m.reader.sector = .unknown) (empty : m.reader.cacheBlock = none) :
    Coherent build tag m where
  tracks := by
    intro sector known
    rw [unknown] at known
    cases known
  cached := by
    intro block cached
    rw [empty] at cached
    cases cached
  uncached := fun _ => empty

/-- Dropping the cache keeps coherence. -/
theorem Coherent.uncache {build : Build} {tag : Tag σ ε} {m : Machine σ}
    (coherent : Coherent build tag m) : Coherent build tag m.uncache where
  tracks := coherent.tracks
  cached := by
    intro block cached
    cases cached
  uncached := fun _ => rfl

/-- Coherence is about the tag, the tracked sector and the cache only. -/
theorem Coherent.congr {build : Build} {tag : Tag σ ε} {m next : Machine σ}
    (coherent : Coherent build tag m) (transceiver : next.reader.transceiver = m.reader.transceiver)
    (sector : next.reader.sector = m.reader.sector)
    (cacheBlock : next.reader.cacheBlock = m.reader.cacheBlock)
    (cacheData : next.reader.cacheData = m.reader.cacheData) : Coherent build tag next where
  tracks := by
    intro known tracked
    unfold SectorTag.activeOf
    rw [transceiver]
    exact coherent.tracks known (sector ▸ tracked)
  cached := by
    intro block hit
    unfold Tag.memoryOf SectorTag.activeOf
    rw [transceiver, cacheData]
    exact coherent.cached block (cacheBlock ▸ hit)
  uncached := fun never => cacheBlock.trans (coherent.uncached never)

/-- The exchanges since a trace `past`, each with the property. -/
def Logged (past : List (Exchange σ)) (P : Exchange σ → Prop) (m : Machine σ) : Prop :=
  ∃ recent, m.trace = past ++ recent ∧ ∀ exchange ∈ recent, P exchange

variable {past : List (Exchange σ)} {P : Exchange σ → Prop}

/-- Nothing has been exchanged since the machine's own trace. -/
theorem logged_start (m : Machine σ) : Logged m.trace P m := ⟨[], by simp, by simp⟩

/-- One more exchange with the property extends the log. -/
theorem Logged.exchanged {m : Machine σ} (logged : Logged past P m) (frame : Frame) (after : σ)
    (holds : P ⟨m.serving, frame, m.reader.transceiver, after, m.reader.sector⟩) :
    Logged past P (m.exchanged frame after) := by
  obtain ⟨recent, trace, each⟩ := logged
  refine ⟨recent ++ [⟨m.serving, frame, m.reader.transceiver, after, m.reader.sector⟩], ?_, ?_⟩
  · simp [Machine.exchanged, trace]
  · intro exchange member
    rcases List.mem_append.mp member with old | new
    · exact each exchange old
    · obtain rfl := List.mem_singleton.mp new
      exact holds

/-- Only the trace matters to a log. -/
theorem Logged.congr {m next : Machine σ} (logged : Logged past P m) (same : next.trace = m.trace) :
    Logged past P next := by
  obtain ⟨recent, trace, each⟩ := logged
  exact ⟨recent, same.trans trace, each⟩

/-- Giving up the sector leaves the log. -/
theorem Logged.forget {m : Machine σ} (logged : Logged past P m) : Logged past P m.forget :=
  logged.congr rfl

/-- So does dropping the cache. -/
theorem Logged.uncache {m : Machine σ} (logged : Logged past P m) : Logged past P m.uncache :=
  logged.congr rfl

end

end NfcForumTags
