import NfcForumTags.Cache
import NfcForumTags.TlvStream

/-!
# A reader that never caches

On a tag that answers everything a reader and one that never caches go through a
run side by side: they track the same sector, and their tags have the same memory
and the same active sector, so every call returns the same. The pure parts of the
crate do not depend on caching at all.
-/
namespace NfcForumTags

open Program

section

variable {σ ε : Type} {build : Build}

/-! ## The pure parts -/

/-- The round of a block does not look at the cache. -/
@[simp] theorem processBlock_uncached (layout : MemoryLayout) (byteAddr : Nat)
    (blockData : Vector UInt8 4) (i bytesRead : Nat) (scan : TlvScanState) (result : List UInt8) :
    processBlock build.uncached layout byteAddr blockData i bytesRead scan result =
      processBlock build layout byteAddr blockData i bytesRead scan result := by
  fun_induction processBlock build layout byteAddr blockData i bytesRead scan result with
  | case1 i bytesRead scan result inside skipped inductionHypothesis =>
    rw [processBlock, dif_pos inside, if_pos skipped, inductionHypothesis]
  | case2 i bytesRead scan result inside usable full =>
    rw [processBlock, dif_pos inside, if_neg usable, if_pos full]
  | case3 i bytesRead scan result inside usable more inductionHypothesis =>
    rw [processBlock, dif_pos inside, if_neg usable, if_neg more]
    simp only [inductionHypothesis]
    rfl
  | case4 i bytesRead scan result ended => rw [processBlock, dif_neg ended]

/-- Decoding does not look at the cache.

Induction on the blocks of the stream. -/
theorem decodeInto_uncached (data : List UInt8) (out : List Tlv) :
    decodeInto build.uncached data out = decodeInto build data out := by
  fun_induction decodeInto build data out with
  | case1 out => rw [decodeInto]
  | case2 out tag rest skipped pushed =>
    rw [decodeInto]
    simp only [skipped, pushed]
    rfl

/-- Neither does the parser. -/
@[simp] theorem parseTlvs_uncached (data : List UInt8) :
    parseTlvs build.uncached data = parseTlvs build data := by
  unfold parseTlvs
  rw [parseTlvsInto_eq, parseTlvsInto_eq, decodeInto_uncached]

/-- Nor the loop that collects the areas. -/
theorem collectAreas_uncached (tlvs : List Tlv) (areas : List LockArea × List ReservedArea) :
    MemoryLayout.collectAreas build.uncached tlvs areas =
      MemoryLayout.collectAreas build tlvs areas := by
  fun_induction MemoryLayout.collectAreas build tlvs areas with
  | case1 areas => rfl
  | case2 value rest locks reserved inductionHypothesis => exact inductionHypothesis
  | case3 value rest locks reserved inductionHypothesis => exact inductionHypothesis
  | case4 tlv rest areas notLock notMemory inductionHypothesis =>
    rw [MemoryLayout.collectAreas, inductionHypothesis]
    · exact notLock
    · exact notMemory

/-- Nor the layout. -/
@[simp] theorem fromCcAndTlvs_uncached (cc : CapabilityContainer) (tlvs : List Tlv) :
    MemoryLayout.fromCcAndTlvs build.uncached cc tlvs =
      MemoryLayout.fromCcAndTlvs build cc tlvs := by
  unfold MemoryLayout.fromCcAndTlvs
  rw [collectAreas_uncached]
  rfl

/-- Nor the plan of `write_ndef`. -/
@[simp] theorem planWrite_uncached (cc : CapabilityContainer) (tlvs : List Tlv)
    (ndefData : List UInt8) :
    planWrite build.uncached cc tlvs ndefData = planWrite build cc tlvs ndefData := by
  unfold planWrite
  rw [fromCcAndTlvs_uncached]
  rfl

/-! ## Side by side -/

variable {tag : FaultFreeTag σ ε}

/-- A reader and one that never caches, in the same situation. -/
structure Twins (build : Build) (tag : FaultFreeTag σ ε) (m m' : Machine σ) : Prop where
  cached : Coherent build tag.toTag m
  never : Coherent build.uncached tag.toTag m'
  sector : m'.reader.sector = m.reader.sector
  memory : tag.memoryOf m' = tag.memoryOf m
  active : tag.activeOf m' = tag.activeOf m

/-- Twins after a selection: the sector is known, and either nothing is cached or the
reader is as before. -/
structure Selected (build : Build) (tag : FaultFreeTag σ ε) (sector : UInt8)
    (m m' next next' : Machine σ) : Prop where
  twins : Twins build tag next next'
  known : next.reader.sector = .known sector
  cache : next.reader.cacheBlock = none ∨ m.reader.sector = .known sector ∧ next = m
  serving : next.serving = m.serving
  serving' : next'.serving = m'.serving

/-- Twins whose cached reader knows its sector and is not ahead of an address. -/
structure TwinsAt (build : Build) (tag : FaultFreeTag σ ε) (sector : UInt8) (addr : Nat)
    (m m' : Machine σ) : Prop where
  twins : Twins build tag m m'
  known : m.reader.sector = .known sector
  behind : CacheBehind m addr
  served : m.serving = some addr
  served' : m'.serving = some addr

variable {m m' : Machine σ}

/-- The address being served does not matter to twins. -/
theorem Twins.serving (twins : Twins build tag m m') (left right : Option Nat) :
    Twins build tag { m with serving := left } { m' with serving := right } :=
  ⟨twins.cached.congr rfl rfl rfl rfl, twins.never.congr rfl rfl rfl rfl,
    twins.sector, twins.memory,
    twins.active⟩

/-- Twins that serve an address go on as twins that serve it. -/
theorem together_serve {α : Type} {byteAddr : Nat} {rest rest' : Operation σ ε α}
    {related : Machine σ → Machine σ → Prop}
    (onward : Together rest rest' related { m with serving := some byteAddr }
      { m' with serving := some byteAddr }) :
    Together (serve byteAddr >>= fun _ => rest) (serve byteAddr >>= fun _ => rest') related m m' :=
  onward

/-- A protocol-level result is the same on both sides. -/
theorem Twins.orProtocol {α : Type} (twins : Twins build tag m m') (result : Except Type2Error α) :
    Together (NfcForumTags.orProtocol result : Operation σ ε α) (NfcForumTags.orProtocol result)
      (Twins build tag) m m' := by
  cases result with
  | ok value => exact together_pure value twins
  | error error => exact together_throw _ twins

/-- A check ends alike on both sides. -/
theorem Twins.refuseIf (twins : Twins build tag m m') (condition : Prop) [Decidable condition]
    (error : Type2Error) :
    Together (NfcForumTags.refuseIf condition error : Operation σ ε Unit)
      (NfcForumTags.refuseIf condition error) (Twins build tag) m m' := by
  unfold NfcForumTags.refuseIf
  split
  · exact together_throw _ twins
  · exact together_pure _ twins

/-- Both readers get what the tag answers. -/
theorem Twins.read (twins : Twins build tag m m') (block : UInt8) :
    Together (NfcForumTags.read build tag.toTransceiver block)
      (NfcForumTags.read build.uncached tag.toTransceiver block) (Twins build tag) m m' := by
  obtain ⟨next, run, coherent, memory, active, sector⟩ := read_faultFree twins.cached block
  obtain ⟨next', run', coherent', memory', active', sector'⟩ := read_faultFree twins.never block
  rw [twins.memory, twins.active] at run'
  exact together_of_ok run run' ⟨coherent, coherent',
    (sector'.trans twins.sector).trans sector.symm,
    (memory'.trans twins.memory).trans memory.symm, (active'.trans twins.active).trans active.symm⟩

/-- WRITE ends alike on both sides: it is exchanged on both, and drops what one of them has
cached. -/
theorem Twins.write (twins : Twins build tag m m') (block : UInt8) (page : Vector UInt8 4) :
    Together (NfcForumTags.write tag.toTransceiver block page)
      (NfcForumTags.write tag.toTransceiver block page) (Twins build tag) m m' := by
  obtain ⟨next, run, coherent, memory, active, sector⟩ := write_faultFree twins.cached block page
  obtain ⟨next', run', coherent', memory', active', sector'⟩ :=
    write_faultFree twins.never block page
  rw [twins.memory, twins.active] at memory'
  exact together_of_ok run run' ⟨coherent, coherent',
    (sector'.trans twins.sector).trans sector.symm,
    memory'.trans memory.symm, (active'.trans twins.active).trans active.symm⟩

/-- Both readers select, or neither needs to. -/
theorem Twins.sectorSelect (twins : Twins build tag m m') {sector : UInt8}
    (allowed : ¬ MAX_SECTOR < sector) :
    Together (NfcForumTags.sectorSelect tag.toTransceiver sector)
      (NfcForumTags.sectorSelect tag.toTransceiver sector)
      (Selected build tag sector m m') m m' := by
  by_cases already : m.reader.sector = .known sector
  · exact together_of_ok (sectorSelect_settled allowed already)
      (sectorSelect_settled allowed (twins.sector.trans already))
      ⟨twins, already, Or.inr ⟨already, rfl⟩, rfl, rfl⟩
  · obtain ⟨next, run, coherent, memory, active, known, empty, served⟩ :=
      forceSectorSelect_faultFree twins.cached allowed
    obtain ⟨next', run', coherent', memory', active', known', -, served'⟩ :=
      forceSectorSelect_faultFree twins.never allowed
    rw [← sectorSelect_forced allowed already] at run
    rw [← sectorSelect_forced allowed (twins.sector ▸ already)] at run'
    exact together_of_ok run run' ⟨⟨coherent, coherent', known'.trans known.symm,
      (memory'.trans twins.memory).trans memory.symm, active'.trans active.symm⟩,
        known, Or.inl empty,
      served, served'⟩

/-- Switching as the block and page loops do. -/
theorem Twins.switchSector (twins : Twins build tag m m') {sector : UInt8}
    (allowed : ¬ MAX_SECTOR < sector) :
    Together (NfcForumTags.switchSector tag.toTransceiver sector)
      (NfcForumTags.switchSector tag.toTransceiver sector)
      (Selected build tag sector m m') m m' := by
  have selected := twins.sectorSelect allowed
  unfold Together outcome stateAfter at selected ⊢
  rw [switchSector_eq allowed, switchSector_eq allowed]
  exact selected

/-- A cached reader that was not ahead of the address is not after the selection. -/
theorem Selected.at {sector : UInt8} {addr : Nat} {next next' : Machine σ}
    (selected : Selected build tag sector m m' next next') (served : m.serving = some addr)
    (served' : m'.serving = some addr) (behind : m.reader.sector = .known sector →
      CacheBehind m addr) :
    TwinsAt build tag sector addr next next' := by
  refine ⟨selected.twins, selected.known, ?_, selected.serving.trans served,
    selected.serving'.trans served'⟩
  rcases selected.cache with empty | ⟨already, rfl⟩
  · intro cached hit
    rw [empty] at hit
    cases hit
  · exact behind already

/-- The block served is the memory's, whether it comes from the cache or the tag. -/
theorem readBlock_faultFree (coherent : Coherent build tag.toTag m) {addr : Nat}
    {sector block offset : UInt8} (dataArea : 16 ≤ addr)
    (located : MemoryLayout.addressToSectorBlock addr = some (sector, block, offset))
    (served : m.serving = some addr) (known : m.reader.sector = .known sector)
    (behind : CacheBehind m addr) :
    ∃ next, readBlock build tag.toTransceiver block m =
        .ok (Vector.ofFn fun i : Fin 4 => tag.memoryOf m (blockAddress sector block + i)) next ∧
      Coherent build tag.toTag next ∧ tag.memoryOf next = tag.memoryOf m ∧
      next.reader.sector = .known sector ∧ CacheBehind next addr := by
  have kept := (quiet_reads build tag.toTag m.trace (tag.memoryOf m)).readBlock_rule m dataArea
    located (held_start coherent _) served known behind
  have never := (faultFree_keeps build tag).reads.readBlock_rule m dataArea located trivial served
    known behind
  obtain ⟨data, next, run, ⟨held, tracked, behind, seen⟩, -⟩ :=
    ((kept.and never).mono (fun _ _ both => both) fun _ _ both => both.2).exists_run
  have value : data = Vector.ofFn fun i : Fin 4 =>
      tag.memoryOf m (blockAddress sector block + i) := by
    ext i short
    rw [seen i short, Vector.getElem_ofFn]
  exact ⟨next, value ▸ run, held.coherent, held.memory, tracked, behind⟩

/-- Twins get the same bytes of a block. -/
theorem TwinsAt.readBlock {addr : Nat} {sector block offset : UInt8}
    (twinsAt : TwinsAt build tag sector addr m m') (dataArea : 16 ≤ addr)
    (located : MemoryLayout.addressToSectorBlock addr = some (sector, block, offset)) :
    Together (NfcForumTags.readBlock build tag.toTransceiver block)
      (NfcForumTags.readBlock build.uncached tag.toTransceiver block)
      (fun next next' => Twins build tag next next' ∧ next.reader.sector = .known sector ∧
        CacheBehind next addr) m m' := by
  obtain ⟨twins, known, behind, served, served'⟩ := twinsAt
  have known' := twins.sector.trans known
  have behind' : CacheBehind m' addr := by
    intro cached hit
    rw [twins.never.uncached rfl] at hit
    cases hit
  obtain ⟨next, run, coherent, memory, tracked, stays⟩ :=
    readBlock_faultFree twins.cached dataArea located served known behind
  obtain ⟨next', run', coherent', memory', tracked', -⟩ :=
    readBlock_faultFree twins.never dataArea located served' known' behind'
  rw [twins.memory] at run'
  refine together_of_ok run run' ⟨⟨coherent, coherent', tracked'.trans tracked.symm,
    (memory'.trans twins.memory).trans memory.symm, ?_⟩, tracked, stays⟩
  exact (coherent'.tracks sector tracked').trans (coherent.tracks sector tracked).symm

/-! ## The operations side by side -/

/-- Twins that read the data area return the same bytes and stay twins, as long as what is
cached lies behind the walk.

Induction on the walk over the blocks. -/
theorem Twins.readDataAreaFrom (layout : MemoryLayout) (byteAddr bytesRead : Nat)
    (scan : TlvScanState) (result : List UInt8) (aligned : byteAddr % 4 = 0)
    (dataArea : 16 ≤ byteAddr) (twins : Twins build tag m m')
    (behind : m.reader.sector = .known (byteAddr / 1024).toUInt8 → CacheBehind m byteAddr) :
    Together
      (NfcForumTags.readDataAreaFrom build tag.toTransceiver layout byteAddr bytesRead scan result)
      (NfcForumTags.readDataAreaFrom build.uncached tag.toTransceiver layout byteAddr bytesRead scan
        result) (Twins build tag) m m' := by
  fun_induction NfcForumTags.readDataAreaFrom build tag.toTransceiver layout byteAddr bytesRead scan
    result generalizing m m' with
  | case1 byteAddr bytesRead scan result more outside =>
    rw [NfcForumTags.readDataAreaFrom, if_pos more]
    split
    · exact together_throw _ twins
    · next located => rw [outside] at located; cases located
  | case2 byteAddr bytesRead scan result more sector block offset located inductionHypothesis =>
    obtain ⟨inside, sectorValue, blockValue, -⟩ := MemoryLayout.addressToSectorBlock_some located
    simp only [ADDRESS_SPACE_END_eq] at inside
    rw [NfcForumTags.readDataAreaFrom.eq_def build.uncached, if_pos more]
    split
    · next outside => rw [outside] at located; cases located
    next sector' block' offset' located' =>
    rw [located] at located'
    obtain ⟨rfl, rfl, rfl⟩ : sector = sector' ∧ block = block' ∧ offset = offset' := by
      simpa using located'
    have sectorByte : (byteAddr / 1024).toUInt8 = sector := by
      rw [← sectorValue]
      simp
    refine together_serve (((twins.serving _ _).switchSector (located_allowed located)).bind
      (fun _ _ failed => failed.twins) ?_)
    intro _ switched switched' selected
    have twinsAt : TwinsAt build tag sector byteAddr switched switched' :=
      selected.at rfl rfl fun known => behind (sectorByte.symm ▸ known)
    refine (twinsAt.readBlock dataArea located).bind (fun _ _ failed => failed.1) ?_
    rintro blockData next next' ⟨twins, known, behind⟩
    rw [processBlock_uncached]
    cases processed : processBlock build layout byteAddr blockData 0 bytesRead scan result with
    | error error => exact together_throw _ twins
    | ok outcome =>
      cases outcome with
      | stop result => exact together_pure result twins
      | next bytesRead' scan' result' =>
        refine inductionHypothesis bytesRead' scan' result' (by simp only [BLOCK_SIZE_eq]; omega)
          (by simp only [BLOCK_SIZE_eq]; omega) twins ?_
        intro same cached hit later
        rw [known] at same
        have sameSector := congrArg UInt8.toNat (SectorState.known.inj same)
        simp only [BLOCK_SIZE_eq, Nat.toUInt8, UInt8.toNat_ofNat'] at sameSector later ⊢
        have bound := behind cached hit (by omega)
        omega
  | case3 byteAddr bytesRead scan result full =>
    rw [NfcForumTags.readDataAreaFrom, if_neg full]
    exact together_pure _ twins

/-- Reading the data area returns the same bytes on both sides, through any layout. -/
theorem Twins.readDataArea (twins : Twins build tag m m') (layout : MemoryLayout) :
    Together (NfcForumTags.readDataArea build tag.toTransceiver layout)
      (NfcForumTags.readDataArea build.uncached tag.toTransceiver layout) (Twins build tag) m m' :=
  twins.readDataAreaFrom layout 16 0 .tag [] (by decide) (by decide)
    fun _ _ _ later => absurd later (by decide)

/-- Both sides read the same container. -/
theorem Twins.readCc (twins : Twins build tag m m') :
    Together (NfcForumTags.readCc build tag.toTransceiver)
      (NfcForumTags.readCc build.uncached tag.toTransceiver) (Twins build tag) m m' := by
  refine together_serve (((twins.serving _ _).sectorSelect (by decide)).bind
    (fun _ _ failed => failed.twins) ?_)
  intro _ selected selected' after
  exact (after.twins.read CC_BLOCK).bind (fun _ _ failed => failed)
    fun data next next' twins => twins.orProtocol _

/-- Both passes return the same on both sides.

Proof: the first pass returns the same bytes, so that both parse the same blocks and take
the second pass, if any, through the same layout. -/
theorem Twins.readDataAreaWithLayout (twins : Twins build tag m m') (cc : CapabilityContainer) :
    Together (NfcForumTags.readDataAreaWithLayout build tag.toTransceiver cc)
      (NfcForumTags.readDataAreaWithLayout build.uncached tag.toTransceiver cc) (Twins build tag)
      m m' := by
  unfold NfcForumTags.readDataAreaWithLayout
  simp only [fromCcAndTlvs_uncached, parseTlvs_uncached]
  refine (twins.readDataArea _).bind (fun _ _ failed => failed) fun dataArea next next' twins => ?_
  refine (twins.orProtocol _).bind (fun _ _ failed => failed) fun tlvs next next' twins => ?_
  split
  · exact twins.readDataArea _
  · exact together_pure _ twins

/-- Both sides read the same message, or fail with the same error. -/
theorem Twins.readNdef (twins : Twins build tag m m') :
    Together (NfcForumTags.readNdef build tag.toTransceiver)
      (NfcForumTags.readNdef build.uncached tag.toTransceiver) (Twins build tag) m m' := by
  unfold NfcForumTags.readNdef
  simp only [parseTlvs_uncached]
  refine twins.readCc.bind (fun _ _ failed => failed) fun cc next next' twins => ?_
  refine (twins.refuseIf _ _).bind (fun _ _ failed => failed) fun _ next next' twins => ?_
  refine (twins.readDataAreaWithLayout cc).bind (fun _ _ failed => failed)
    fun dataArea next next' twins => ?_
  refine (twins.orProtocol _).bind (fun _ _ failed => failed) fun tlvs next next' twins => ?_
  exact together_pure _ twins

/-- Both sides plan the same write, or refuse it alike. -/
theorem Twins.prepareWrite (twins : Twins build tag m m') (ndefData : List UInt8) :
    Together (NfcForumTags.prepareWrite build tag.toTransceiver ndefData)
      (NfcForumTags.prepareWrite build.uncached tag.toTransceiver ndefData) (Twins build tag)
      m m' := by
  unfold NfcForumTags.prepareWrite
  simp only [parseTlvs_uncached, planWrite_uncached]
  refine twins.readCc.bind (fun _ _ failed => failed) fun cc next next' twins => ?_
  refine (twins.refuseIf _ _).bind (fun _ _ failed => failed) fun _ next next' twins => ?_
  refine (twins.refuseIf _ _).bind (fun _ _ failed => failed) fun _ next next' twins => ?_
  refine (twins.readDataAreaWithLayout cc).bind (fun _ _ failed => failed)
    fun dataArea next next' twins => ?_
  refine (twins.orProtocol _).bind (fun _ _ failed => failed) fun tlvs next next' twins => ?_
  exact twins.orProtocol _

/-- The slow path reads the page to change from the cache or from the tag. -/
theorem Twins.writePage (twins : Twins build tag m m') (layout : MemoryLayout) (data : List UInt8)
    (limitAddr pageBase : Nat) (block offset : UInt8) (di : Nat) :
    Together
      (NfcForumTags.writePage build tag.toTransceiver layout data limitAddr pageBase
        block offset di)
      (NfcForumTags.writePage build.uncached tag.toTransceiver layout data limitAddr pageBase block
        offset di) (Twins build tag) m m' := by
  unfold NfcForumTags.writePage
  split
  · refine (twins.refuseIf _ _).bind (fun _ _ failed => failed) fun _ next next' twins => ?_
    refine (twins.write block _).bind (fun _ _ failed => failed) fun _ next next' twins => ?_
    exact together_pure _ twins
  · refine (twins.read block).bind (fun _ _ failed => failed) fun cur next next' twins => ?_
    split
    · exact together_throw _ twins
    · next fill filled =>
      have written : Together
          (if fill.touched then NfcForumTags.write tag.toTransceiver block fill.page else pure ())
          (if fill.touched then NfcForumTags.write tag.toTransceiver block fill.page else pure ())
          (Twins build tag) next next' := by
        split
        · exact twins.write block fill.page
        · exact together_pure _ twins
      exact written.bind (fun _ _ failed => failed) fun _ last last' twins => together_pure _ twins

/-- Twins that write page after page stay twins.

Induction on the walk over the pages. -/
theorem Twins.writeUsableBytesFrom (layout : MemoryLayout) (data : List UInt8)
    (limitAddr addr di : Nat) (twins : Twins build tag m m') :
    Together
      (NfcForumTags.writeUsableBytesFrom build tag.toTransceiver layout data limitAddr addr di)
      (NfcForumTags.writeUsableBytesFrom build.uncached tag.toTransceiver layout data limitAddr addr
        di) (Twins build tag) m m' := by
  fun_induction NfcForumTags.writeUsableBytesFrom build tag.toTransceiver layout data limitAddr addr
    di generalizing m m' with
  | case1 addr di more beyond =>
    rw [NfcForumTags.writeUsableBytesFrom, if_pos more, if_pos beyond]
    exact together_throw _ twins
  | case2 addr di more below outside =>
    rw [NfcForumTags.writeUsableBytesFrom, if_pos more, if_neg below]
    split
    · exact together_throw _ twins
    · next located => rw [outside] at located; cases located
  | case3 addr di more below sector block offset located inductionHypothesis =>
    rw [NfcForumTags.writeUsableBytesFrom.eq_def build.uncached, if_pos more, if_neg below]
    split
    · next outside => rw [outside] at located; cases located
    next sector' block' offset' located' =>
    rw [located] at located'
    obtain ⟨rfl, rfl, rfl⟩ : sector = sector' ∧ block = block' ∧ offset = offset' := by
      simpa using located'
    refine together_serve (((twins.serving _ _).switchSector (located_allowed located)).bind
      (fun _ _ failed => failed.twins) ?_)
    intro _ switched switched' selected
    refine (selected.twins.writePage layout data limitAddr (addr - offset.toNat)
      block offset di).bind
      (fun _ _ failed => failed) ?_
    intro di next next' twins
    exact inductionHypothesis di twins
  | case4 addr di done =>
    rw [NfcForumTags.writeUsableBytesFrom, if_neg done]
    exact together_pure _ twins

/-- A planned write does the same WRITEs on both sides. -/
theorem Twins.commitWrite (twins : Twins build tag m m') (job : WriteJob) :
    Together (NfcForumTags.commitWrite build tag.toTransceiver job)
      (NfcForumTags.commitWrite build.uncached tag.toTransceiver job) (Twins build tag) m m' := by
  unfold NfcForumTags.commitWrite
  refine (twins.writeUsableBytesFrom _ _ _ _ _).bind (fun _ _ failed => failed)
    fun _ next next' twins => ?_
  split
  · exact twins.writeUsableBytesFrom _ _ _ _ _
  · exact together_throw _ twins

/-- `write_ndef` ends alike on both sides, with the same memory. -/
theorem Twins.writeNdef (twins : Twins build tag m m') (ndefData : List UInt8) :
    Together (NfcForumTags.writeNdef build tag.toTransceiver ndefData)
      (NfcForumTags.writeNdef build.uncached tag.toTransceiver ndefData) (Twins build tag) m m' :=
  (twins.prepareWrite ndefData).bind (fun _ _ failed => failed)
    fun job _ _ twins => twins.commitWrite job

/-- A value is only wrapped once nothing is sent any more. -/
theorem together_returning {α : Type} {left right : Operation σ ε α}
    (same : Together left right (Twins build tag) m m') (reply : α → Reply) :
    Together (left >>= fun value => pure (reply value)) (right >>= fun value => pure (reply value))
      (Twins build tag) m m' :=
  same.bind (fun _ _ failed => failed) fun _ _ _ twins => together_pure _ twins

/-- Every call returns the same on both sides. -/
theorem Twins.call (twins : Twins build tag m m') (call : Call) :
    Together (call.run build tag.toTransceiver) (call.run build.uncached tag.toTransceiver)
      (Twins build tag) m m' := by
  cases call with
  | setMaxRetries n =>
    exact ⟨rfl, ⟨twins.cached.congr rfl rfl rfl rfl,
      twins.never.congr rfl rfl rfl rfl, twins.sector,
      twins.memory, twins.active⟩⟩
  | read blockNo => exact together_returning ((twins.serving none none).read blockNo) .block
  | write blockNo data =>
    exact together_returning ((twins.serving none none).write blockNo data) fun _ => .done
  | sectorSelect sector =>
    by_cases beyond : MAX_SECTOR < sector
    · have refused : ∀ n : Machine σ, (Call.sectorSelect sector).run build tag.toTransceiver n =
          .error (.protocol .outOfRange) n := by
        intro n
        simp only [Call.run, NfcForumTags.sectorSelect, NfcForumTags.refuseIf, if_pos beyond]
        rfl
      have refused' : ∀ n : Machine σ, (Call.sectorSelect sector).run build.uncached
          tag.toTransceiver n = .error (.protocol .outOfRange) n := refused
      unfold Together outcome stateAfter
      rw [refused, refused']
      exact ⟨rfl, twins⟩
    · exact (twins.sectorSelect beyond).bind (fun _ _ failed => failed.twins)
        fun _ _ _ selected => together_pure _ selected.twins
  | readCc => exact together_returning twins.readCc .cc
  | readDataArea layout => exact together_returning (twins.readDataArea layout) .bytes
  | readNdef => exact together_returning twins.readNdef .bytes
  | writeNdef ndefData => exact together_returning (twins.writeNdef ndefData) fun _ => .done
  | invalidateCache =>
    exact ⟨rfl, ⟨twins.cached.uncache, twins.never.uncache, twins.sector, twins.memory,
      twins.active⟩⟩
  | markTagStateUnknown =>
    exact ⟨rfl, ⟨blank_coherent rfl rfl, blank_coherent rfl rfl, rfl, twins.memory, twins.active⟩⟩

/-- Every run returns the same on both sides, call by call.

Induction on the calls. -/
theorem Twins.replies (twins : Twins build tag m m') (calls : List Call) :
    NfcForumTags.replies build tag.toTransceiver calls m =
        NfcForumTags.replies build.uncached tag.toTransceiver calls m' ∧
      Twins build tag (runCalls build tag.toTransceiver calls m)
        (runCalls build.uncached tag.toTransceiver calls m') := by
  induction calls generalizing m m' with
  | nil => exact ⟨rfl, twins⟩
  | cons call calls inductionHypothesis =>
    obtain ⟨same, after⟩ := twins.call call
    obtain ⟨rest, last⟩ := inductionHypothesis after
    refine ⟨?_, last⟩
    rw [NfcForumTags.replies, NfcForumTags.replies, same]
    exact congrArg _ rest

end

/-! ## The cache is invisible -/

section

variable {σ ε : Type} {build : Build} {tag : Tag σ ε} {m : Machine σ}

/-- What the reading operations return, started in this state, is what the tag's
memory holds: the cache does not show. -/
structure ServesMemory (build : Build) (tag : Tag σ ε) (m : Machine σ) : Prop where
  read : ∀ block data next, read build tag.toTransceiver block m = .ok data next →
    data = tag.answer (tag.memoryOf m) (tag.activeOf next) block
  readCc : ∀ cc next, readCc build tag.toTransceiver m = .ok cc next →
    ccOf (tag.memoryOf m) = .ok cc
  readDataArea : ∀ layout dataArea next,
    readDataArea build tag.toTransceiver layout m = .ok dataArea next →
      dataAreaOf build layout (tag.memoryOf m) = .ok dataArea
  readNdef : ∀ message next, readNdef build tag.toTransceiver m = .ok message next →
    ndefOf build (tag.memoryOf m) = .ok message
  prepareWrite : ∀ ndefData job next,
    prepareWrite build tag.toTransceiver ndefData m = .ok job next →
      jobOf build ndefData (tag.memoryOf m) = .ok job

/-- A reader coherent with its tag serves the tag's memory. -/
theorem Coherent.servesMemory (coherent : Coherent build tag m) : ServesMemory build tag m := by
  have reads := quiet_reads build tag m.trace (tag.memoryOf m)
  have held := held_start coherent (Quiet tag (tag.memoryOf m))
  exact {
    read := fun block data next run => ((read_coherent coherent block).returned run).1
    readCc := fun cc next run => ((computed_of_reads (reads.readCc_rule m held)).returned run).2
    readDataArea := fun layout dataArea next run =>
      ((computed_of_reads (reads.readDataArea_rule layout m held)).returned run).2
    readNdef := fun message next run =>
      ((computed_of_reads (reads.readNdef_rule m held)).returned run).2
    prepareWrite := fun ndefData job next run =>
      ((computed_of_reads (reads.prepareWrite_rule ndefData m held)).returned run).2 }

/-- In every state of a run of a new reader on a tag in sector 0, a cached block is
what the tag would answer for it now, and every reading operation returns what the
tag's memory holds. On a tag that answers everything the run returns, call by call,
what it returns to a reader that never caches.

Proof: coherence is kept by every call: an error or a selection drops the cache, and so does
a WRITE. A coherent reader and one that never caches are twins, which each step of a call
keeps. -/
theorem cache_invisible (build : Build) (tag : Tag σ ε) (state : σ)
    (inSector0 : tag.active state = 0)
    (calls : List Call) :
    (∀ block,
      (runCalls build tag.toTransceiver calls (.fresh state)).reader.cacheBlock = some block →
      (runCalls build tag.toTransceiver calls (.fresh state)).reader.cacheData =
        tag.answer (tag.memoryOf (runCalls build tag.toTransceiver calls (.fresh state)))
          (tag.activeOf (runCalls build tag.toTransceiver calls (.fresh state))) block) ∧
    ServesMemory build tag (runCalls build tag.toTransceiver calls (.fresh state)) ∧
    ∀ faultFree : FaultFreeTag σ ε, faultFree.toTag = tag →
      replies build tag.toTransceiver calls (.fresh state) =
        replies build.uncached tag.toTransceiver calls (.fresh state) := by
  have coherent := coherent_run build tag calls state inSector0
  refine ⟨coherent.cached, coherent.servesMemory, ?_⟩
  rintro faultFree rfl
  have twins : Twins build faultFree (.fresh state) (.fresh state) :=
    ⟨fresh_coherent build _ state inSector0,
      fresh_coherent build.uncached _ state inSector0, rfl, rfl,
      rfl⟩
  exact (twins.replies calls).1

/-- A READ, a WRITE inside the blocks read, and the READ again. -/
def rewrittenCalls : List Call := [.read 4, .write 5 #v[1, 2, 3, 4], .read 4]

/-- The second READ of the rewritten block shows the new bytes, as it does to a
reader that never caches. -/
theorem cache_invisible_rewritten :
    let m := runCalls .alloc flatTag.toTransceiver rewrittenCalls (.fresh ⟨fun _ => 0, 0⟩)
    m.reader.cacheData[4] = 1 ∧
    m.reader.cacheData = flatTag.answer (flatTag.memoryOf m) (flatTag.activeOf m) 4 ∧
    replies .alloc flatTag.toTransceiver rewrittenCalls (.fresh ⟨fun _ => 0, 0⟩) =
      replies Build.alloc.uncached flatTag.toTransceiver rewrittenCalls (.fresh ⟨fun _ => 0, 0⟩) :=
  have invisible := cache_invisible .alloc flatTag.toTag ⟨fun _ => 0, 0⟩ rfl rewrittenCalls
  ⟨by decide +kernel, invisible.1 4 (by decide +kernel), invisible.2.2 flatTag rfl⟩

end

end NfcForumTags
