import NfcForumTags.TagContract
import NfcForumTags.UsableBytes

/-!
# Rules for reading

A reading operation is specified once, for an arbitrary invariant `I`, a
condition `E` left by a failing exchange, and a relation `Sees` between addresses
and the bytes read there. `Reads` states what an instance has to show: each
exchange of a READ, and that a cached block shows what `Sees` allows.

The block loop serves a block from an earlier READ result by wrapping block
arithmetic. In sector 0 the loop begins at block 4, so the difference never
wraps; a later sector is entered by a selection, which drops the cache, and from
then on the cached block is never ahead of the loop.
-/
namespace NfcForumTags

open Program

section

variable {σ ε : Type}

/-- A command for `block`, sent while the reader tracks `sector`, goes to the
address being served. -/
def Aimed (serving : Option Nat) (sector : SectorState) (block : UInt8) : Prop :=
  ∃ addr target offset, serving = some addr ∧
    MemoryLayout.addressToSectorBlock addr = some (target, block, offset) ∧ sector = .known target

/-- The bytes of a READ result, as far as they lie in the sector, are what is
seen at their addresses. -/
def SeenBlock (Sees : Nat → UInt8 → Prop) (sector block : UInt8) (data : Vector UInt8 16) : Prop :=
  ∀ (i : Nat) (short : i < 16), block.toNat * 4 + i < 1024 →
    Sees (blockAddress sector block + i) data[i]

/-- A memory that holds every byte seen. -/
def Shows (Sees : Nat → UInt8 → Prop) (memory : Memory) : Prop :=
  ∀ addr byte, Sees addr byte → byte = memory addr

/-- The invariant `I` outlasts reading, and what is read is seen. -/
structure Reads (build : Build) (t : Transceiver σ ε) (I E : Machine σ → Prop)
    (Sees : Nat → UInt8 → Prop) : Prop where
  serve : ∀ m addr, I m → I { m with serving := some addr }
  select : SurvivesSelect t I E
  sends : ∀ serving intended block, Aimed serving intended block →
    SurvivesSend t (fun m => I m ∧ m.serving = serving) E (Command.read block).toBytes intended
      fun raw next =>
        (∀ data, (Command.read block).parseAnswer raw = .ok (.data data) →
          I (next.store build block data) ∧
            ∀ sector, intended = .known sector → SeenBlock Sees sector block data) ∧
        ((∀ data, (Command.read block).parseAnswer raw ≠ .ok (.data data)) → E next)
  cached : ∀ m sector block, I m → m.reader.sector = .known sector →
    m.reader.cacheBlock = some block → SeenBlock Sees sector block m.reader.cacheData

variable {t : Transceiver σ ε} {build : Build} {I E : Machine σ → Prop}
  {Sees : Nat → UInt8 → Prop}

/-- What is shown by an invariant is shown together with another one that shows
nothing. -/
theorem Reads.and {I' E' : Machine σ → Prop} (reads : Reads build t I E Sees)
    (others : Reads build t I' E' fun _ _ => True) :
    Reads build t (fun m => I m ∧ I' m) (fun m => E m ∧ E' m) Sees where
  serve := fun m addr both => ⟨reads.serve m addr both.1, others.serve m addr both.2⟩
  select := reads.select.and others.select
  sends := by
    intro serving intended block aimed
    have left := reads.sends serving intended block aimed
    have right := others.sends serving intended block aimed
    constructor
    · intro m error both known lost
      obtain ⟨kept, failed⟩ := left.lost m error ⟨both.1.1, both.2⟩ known lost
      obtain ⟨kept', failed'⟩ := right.lost m error ⟨both.1.2, both.2⟩ known lost
      exact ⟨⟨⟨kept.1, kept'.1⟩, kept.2⟩, failed, failed'⟩
    · intro m raw both known answered
      obtain ⟨stored, refused⟩ := left.answered m raw ⟨both.1.1, both.2⟩ known answered
      obtain ⟨stored', refused'⟩ := right.answered m raw ⟨both.1.2, both.2⟩ known answered
      exact ⟨fun data parsed => ⟨⟨(stored data parsed).1, (stored' data parsed).1⟩,
        (stored data parsed).2⟩, fun short => ⟨refused short, refused' short⟩⟩
  cached := fun m sector block both => reads.cached m sector block both.1

/-- What failing to read leaves may be weakened. -/
theorem Reads.weaken {E' : Machine σ → Prop} (reads : Reads build t I E Sees)
    (weaken : ∀ m, E m → E' m) : Reads build t I E' Sees where
  serve := reads.serve
  select := reads.select.weaken weaken
  sends := fun serving intended block aimed =>
    have sends := reads.sends serving intended block aimed
    { lost := fun m error holds known lost =>
        have left := sends.lost m error holds known lost
        ⟨left.1, weaken _ left.2⟩
      answered := fun m raw holds known answered =>
        have after := sends.answered m raw holds known answered
        ⟨after.1, fun short => weaken _ (after.2 short)⟩ }
  cached := reads.cached

/-- A property of the transceiver's state that no packet of a selection changes. -/
theorem SurvivesSelect.ofState {S : σ → Prop}
    (part1 : ∀ state, S state → S (t.transceive Command.sectorSelectPart1.toBytes state).2)
    (part2 : ∀ state sector, S state →
      S (t.transceiveNoResponse (Command.sectorSelectPart2 sector).toBytes state).2) :
    SurvivesSelect t (fun m => S m.reader.transceiver) fun m => S m.reader.transceiver :=
  .ofSent (fun _ holds => holds) (fun _ holds => part1 _ holds)
    (fun _ sector holds => part2 _ sector holds) fun _ _ holds _ _ => holds

/-- Keeping a READ result leaves the transceiver. -/
@[simp] theorem Machine.store_transceiver (m : Machine σ) (blockNo : UInt8)
    (data : Vector UInt8 16) :
    (m.store build blockNo data).reader.transceiver = m.reader.transceiver := by
  unfold Machine.store
  split <;> rfl

/-- A property of the transceiver's state that no READ changes either. -/
theorem Reads.ofState {S : σ → Prop}
    (select : SurvivesSelect t (fun m => S m.reader.transceiver) fun m => S m.reader.transceiver)
    (read : ∀ state block, S state → S (t.transceive (Command.read block).toBytes state).2) :
    Reads build t (fun m => S m.reader.transceiver) (fun m => S m.reader.transceiver)
      fun _ _ => True where
  serve := fun _ _ holds => holds
  select := select
  sends := fun serving intended block aimed => {
    lost := fun m error holds known lost =>
      have kept : S (m.sent t (Command.read block).toBytes).forget.reader.transceiver :=
        read m.reader.transceiver block holds.1
      ⟨⟨kept, holds.2⟩, kept⟩
    answered := fun m raw holds known answered =>
      have kept : S (m.sent t (Command.read block).toBytes).reader.transceiver :=
        read m.reader.transceiver block holds.1
      ⟨fun data parsed => ⟨by rwa [Machine.store_transceiver], fun _ _ _ _ _ => trivial⟩,
        fun short => kept⟩ }
  cached := fun _ _ _ _ _ _ _ _ _ => trivial

/-- It leaves the log. -/
@[simp] theorem Machine.store_trace (m : Machine σ) (blockNo : UInt8) (data : Vector UInt8 16) :
    (m.store build blockNo data).trace = m.trace := by
  unfold Machine.store
  split <;> rfl

/-- A log of exchanges with a property that only a WRITE may lack outlasts reading. -/
theorem Reads.logged {past : List (Exchange σ)} {P : Exchange σ → Prop}
    (quiet : ∀ exchange, exchange.frame.isWrite = false → P exchange) :
    Reads build t (Logged past P) (Logged past P) fun _ _ => True where
  serve := fun _ _ logged => logged.congr rfl
  select := .ofSent (fun _ logged => logged.congr rfl)
    (fun _ logged => logged.exchanged _ _ (quiet _ rfl))
    (fun _ _ logged => logged.exchanged _ _ (quiet _ rfl)) fun _ _ logged _ _ => logged.congr rfl
  sends := by
    intro serving intended block aimed
    have sent : ∀ m : Machine σ, Logged past P m →
        Logged past P (m.sent t (Command.read block).toBytes) :=
      fun m logged => logged.exchanged _ _ (quiet _ rfl)
    constructor
    · intro m error holds known lost
      have left := (sent m holds.1).forget
      exact ⟨⟨left, holds.2⟩, left⟩
    · intro m raw holds known answered
      have kept := sent m holds.1
      exact ⟨fun data _ => ⟨kept.congr (Machine.store_trace _ _ _), fun _ _ _ _ _ => trivial⟩,
        fun _ => kept⟩
  cached := fun _ _ _ _ _ _ _ _ _ => trivial

/-- No packet of a selection changes the address being served. -/
theorem SurvivesSelect.serving (survives : SurvivesSelect t I E) (serving : Option Nat) :
    SurvivesSelect t (fun m => I m ∧ m.serving = serving) E where
  forget := fun m holds => ⟨survives.forget m holds.1, holds.2⟩
  part1 := fun m raw holds unknown empty answered acked =>
    ⟨survives.part1 m raw holds.1 unknown empty answered acked, holds.2⟩
  part1_lost := fun m error holds => survives.part1_lost m error holds.1
  part1_refused := fun m raw holds => survives.part1_refused m raw holds.1
  part2_refused := fun m sector holds => survives.part2_refused m sector holds.1
  selected := fun m sector holds allowed empty answered =>
    ⟨survives.selected m sector holds.1 allowed empty answered, holds.2⟩

/-- It leaves the address being served. -/
@[simp] theorem Machine.store_serving (m : Machine σ) (blockNo : UInt8) (data : Vector UInt8 16) :
    (m.store build blockNo data).serving = m.serving := by
  unfold Machine.store
  split <;> rfl

/-- READ of the block being served: the invariant, the tracked sector and the
address served are kept, and in a known sector the result is seen. -/
theorem Reads.read_rule (reads : Reads build t I E Sees) (block : UInt8) (m : Machine σ)
    (holds : I m) (aimed : Aimed m.serving m.reader.sector block) :
    Ensures (read build t block)
      (fun data next => (I next ∧ next.serving = m.serving ∧
          ∀ sector, m.reader.sector = .known sector → SeenBlock Sees sector block data) ∧
        next.reader.sector = m.reader.sector ∧
        (next.reader.cacheBlock = some block ∨ next.reader.cacheBlock = none ∨
          next.reader.cacheBlock = m.reader.cacheBlock))
      (fun _ next => E next) m := by
  refine NfcForumTags.read_rule (I := fun next => I next ∧ next.serving = m.serving)
    (fun data next => I next ∧ next.serving = m.serving ∧
      ∀ sector, m.reader.sector = .known sector → SeenBlock Sees sector block data)
    (reads.select.serving m.serving) block m ⟨holds, rfl⟩ ?_ ?_
  · intro hit
    exact ⟨holds, rfl, fun sector known => reads.cached m sector block holds known hit⟩
  · have sends := reads.sends m.serving m.reader.sector block aimed
    refine ⟨sends.lost, fun next raw kept tracked answered => ?_⟩
    obtain ⟨stored, refused⟩ := sends.answered next raw kept tracked answered
    refine ⟨fun data parsed => ?_, refused⟩
    obtain ⟨stores, seen⟩ := stored data parsed
    exact ⟨stores, (Machine.store_serving _ _ _).trans kept.2, seen⟩

/-! ## Blocks -/

/-- The first block of a READ result is its first four bytes. -/
theorem firstBlock_getElem (data : Vector UInt8 16) {i : Nat} (short : i < 4) :
    (firstBlock data)[i] = data[i] := by
  unfold firstBlock
  match i, short with
  | 0, _ => rfl
  | 1, _ => rfl
  | 2, _ => rfl
  | 3, _ => rfl

/-- The sector of an address is one that may be selected. -/
theorem located_allowed {addr : Nat} {sector block offset : UInt8}
    (located : MemoryLayout.addressToSectorBlock addr = some (sector, block, offset)) :
    ¬ MAX_SECTOR < sector := by
  obtain ⟨inside, sectorValue, -, -⟩ := MemoryLayout.addressToSectorBlock_some located
  simp only [ADDRESS_SPACE_END_eq] at inside
  rw [UInt8.lt_iff_toNat_lt, MAX_SECTOR_toNat]
  omega

/-- In a sector after the first, the cached block is not ahead of the block of `addr`. -/
def CacheBehind (m : Machine σ) (addr : Nat) : Prop :=
  ∀ cached, m.reader.cacheBlock = some cached → 1024 ≤ addr → cached.toNat ≤ addr % 1024 / 4

/-- The bytes of the block being served, from the cache or by a READ. -/
theorem Reads.readBlock_rule (reads : Reads build t I E Sees) {addr : Nat}
    {sector block offset : UInt8} (m : Machine σ) (dataArea : 16 ≤ addr)
    (located : MemoryLayout.addressToSectorBlock addr = some (sector, block, offset))
    (holds : I m) (served : m.serving = some addr) (known : m.reader.sector = .known sector)
    (behind : CacheBehind m addr) : Ensures (readBlock build t block)
      (fun blockData next => I next ∧ next.reader.sector = .known sector ∧ CacheBehind next addr ∧
        ∀ (i : Nat) (short : i < 4), Sees (blockAddress sector block + i) blockData[i])
      (fun _ next => E next) m := by
  obtain ⟨inside, sectorValue, blockValue, -⟩ := MemoryLayout.addressToSectorBlock_some located
  have readFresh : Ensures (do let data ← read build t block; return firstBlock data)
      (fun blockData next => I next ∧ next.reader.sector = .known sector ∧ CacheBehind next addr ∧
        ∀ (i : Nat) (short : i < 4), Sees (blockAddress sector block + i) blockData[i])
      (fun _ next => E next) m := by
    have aimed : Aimed m.serving m.reader.sector block :=
      ⟨addr, sector, offset, served, located, known⟩
    refine (reads.read_rule block m holds aimed).bind
      (fun _ _ left => left) ?_
    rintro data next ⟨⟨kept, -, seen⟩, tracked, cache⟩
    refine ⟨kept, tracked.trans known, ?_, ?_⟩
    · intro cached hit later
      rcases cache with fresh | empty | same
      · rw [hit] at fresh
        obtain rfl := Option.some.inj fresh
        omega
      · rw [hit] at empty
        cases empty
      · exact behind cached (same ▸ hit) later
    · intro i short
      rw [firstBlock_getElem]
      exact seen sector known i (by omega) (by omega)
  unfold readBlock
  simp only [ensures_bind, ensures_get]
  cases hit : m.reader.cacheBlock with
  | none => exact readFresh
  | some cachedBlock =>
    dsimp only
    split
    · next near =>
      have notAhead : cachedBlock.toNat ≤ block.toNat := by
        by_cases later : 1024 ≤ addr
        · rw [blockValue]
          exact behind cachedBlock hit later
        · by_contra beyond
          have wrapped := UInt8.toNat_sub block cachedBlock
          have bound := cachedBlock.toNat_lt
          omega
      have ahead : (block - cachedBlock).toNat = block.toNat - cachedBlock.toNat :=
        UInt8.toNat_sub_of_le block cachedBlock (UInt8.le_iff_toNat_le.mpr notAhead)
      refine ⟨holds, known, behind, fun i short => ?_⟩
      have seen := reads.cached m sector cachedBlock holds known hit
        ((block - cachedBlock).toNat * 4 + i) (by omega) (by omega)
      have address : blockAddress sector cachedBlock + ((block - cachedBlock).toNat * 4 + i) =
          blockAddress sector block + i := by
        rw [blockAddress_eq, blockAddress_eq, ahead]
        omega
      rw [address] at seen
      simpa [blockOf] using seen
    · exact readFresh

/-! ## Computing from what is seen -/

/-- A program computes a function of the memory: what it returns, or the protocol
error it fails with, is the function's on every memory that shows what was seen. -/
def Computes {α : Type} (I E : Machine σ → Prop) (Sees : Nat → UInt8 → Prop)
    (program : Operation σ ε α) (function : Memory → Except Type2Error α) (m : Machine σ) : Prop :=
  Ensures program
    (fun value next => I next ∧ ∀ memory, Shows Sees memory → function memory = .ok value)
    (fun error next => E next ∨ I next ∧ ∃ refusal, error = .protocol refusal ∧
      ∀ memory, Shows Sees memory → function memory = .error refusal) m

section

variable {α β : Type} {m : Machine σ}

/-- What a program computes aside, it keeps an invariant that failing leaves. -/
theorem Computes.kept {program : Operation σ ε α} {function : Memory → Except Type2Error α}
    (computes : Computes I I Sees program function m) :
    Ensures program (fun _ next => I next) (fun _ next => I next) m := by
  refine Ensures.mono computes (fun _ _ kept => kept.1) ?_
  rintro error next (kept | ⟨kept, -⟩) <;> exact kept

/-- Programs in sequence compute the functions in sequence. -/
theorem Computes.bind {first : Operation σ ε α} {rest : α → Operation σ ε β}
    {firstFunction : Memory → Except Type2Error α}
    {restFunction : Memory → α → Except Type2Error β}
    (computes : Computes I E Sees first firstFunction m)
    (onward : ∀ value next, I next →
      Computes I E Sees (rest value) (fun memory => restFunction memory value) next) :
    Computes I E Sees (first >>= rest)
      (fun memory => firstFunction memory >>= restFunction memory) m := by
  refine Ensures.bind computes ?_ ?_
  · rintro error next (left | ⟨kept, refusal, same, failed⟩)
    · exact Or.inl left
    · refine Or.inr ⟨kept, refusal, same, fun memory shows => ?_⟩
      beta_reduce
      rw [failed memory shows]
      rfl
  · rintro value next ⟨kept, returned⟩
    refine (onward value next kept).mono ?_ ?_
    · rintro final last ⟨kept, whole⟩
      refine ⟨kept, fun memory shows => ?_⟩
      beta_reduce
      rw [returned memory shows]
      exact whole memory shows
    · rintro error last (left | ⟨kept, refusal, same, failed⟩)
      · exact Or.inl left
      · refine Or.inr ⟨kept, refusal, same, fun memory shows => ?_⟩
        beta_reduce
        rw [returned memory shows]
        exact failed memory shows

/-- A value is computed without looking at the memory. -/
theorem computes_pure (holds : I m) (value : α) :
    Computes I E Sees (pure value : Operation σ ε α) (fun _ => .ok value) m :=
  ⟨holds, fun _ _ => rfl⟩

/-- So is a protocol-level result. -/
theorem computes_orProtocol (holds : I m) (result : Except Type2Error α) :
    Computes I E Sees (orProtocol result : Operation σ ε α) (fun _ => result) m := by
  unfold Computes
  rw [ensures_orProtocol]
  exact ⟨fun value same => ⟨holds, fun _ _ => same⟩,
    fun refusal same => Or.inr ⟨holds, refusal, rfl, fun _ _ => same⟩⟩

/-- The pure side of `refuseIf`. -/
def refusal (condition : Prop) [Decidable condition] (error : Type2Error) :
    Except Type2Error Unit :=
  if condition then .error error else .ok ()

/-- A check that passed did not hold. -/
theorem allowed_of_refusal {condition : Prop} [Decidable condition] {error : Type2Error}
    {value : Unit} (allowed : refusal condition error = .ok value) : ¬ condition := by
  intro refused
  rw [refusal, if_pos refused] at allowed
  cases allowed

/-- A check is computed without looking at the memory. -/
theorem computes_refuseIf (holds : I m) (condition : Prop) [Decidable condition]
    (error : Type2Error) :
    Computes I E Sees (refuseIf condition error : Operation σ ε Unit)
      (fun _ => refusal condition error) m := by
  unfold Computes
  rw [ensures_refuseIf]
  refine ⟨fun allowed => ⟨holds, fun _ _ => ?_⟩, fun refused =>
    Or.inr ⟨holds, error, rfl, fun _ _ => ?_⟩⟩
  · exact if_neg allowed
  · exact if_pos refused

end

/-! ## The data area -/

variable {layout : MemoryLayout}

/-- Reading the data area from a block on collects the usable bytes seen from
there on, and an exhausted buffer or address space is an error of the collection.

Induction on the walk over the blocks. -/
theorem Reads.readDataAreaFrom_rule (reads : Reads build t I E Sees) (byteAddr bytesRead : Nat)
    (scan : TlvScanState) (result : List UInt8) (m : Machine σ) (aligned : byteAddr % 4 = 0)
    (dataArea : 16 ≤ byteAddr) (holds : I m)
    (behind : m.reader.sector = .known (byteAddr / 1024).toUInt8 → CacheBehind m byteAddr) :
    Computes I E Sees (readDataAreaFrom build t layout byteAddr bytesRead scan result)
      (fun memory => collect build (layout.dataAreaSize - bytesRead) scan result
        ((layout.usableFrom byteAddr).map memory)) m := by
  fun_induction readDataAreaFrom build t layout byteAddr bytesRead scan result generalizing m with
  | case1 byteAddr bytesRead scan result more outside =>
    refine Or.inr ⟨holds, .outOfRange, rfl, fun memory shows => ?_⟩
    obtain ⟨left, room⟩ : ∃ left, layout.dataAreaSize - bytesRead = left + 1 :=
      Nat.exists_eq_succ_of_ne_zero (by omega)
    have ended : ADDRESS_SPACE_END ≤ byteAddr := by
      by_contra inside
      rw [MemoryLayout.addressToSectorBlock_eq (Nat.lt_of_not_le inside)] at outside
      cases outside
    rw [MemoryLayout.usableFrom_end ended, room]
    rfl
  | case2 byteAddr bytesRead scan result more sector block offset located inductionHypothesis =>
    obtain ⟨inside, sectorValue, blockValue, -⟩ := MemoryLayout.addressToSectorBlock_some located
    simp only [ADDRESS_SPACE_END_eq] at inside
    unfold Computes
    rw [ensures_bind, ensures_serve]
    refine (switchSector_rule (reads.select.serving (some byteAddr)) sector
      { m with serving := some byteAddr } ⟨reads.serve m byteAddr holds, rfl⟩
      (fun beyond => absurd beyond (located_allowed located))).bind (fun _ _ left => Or.inl left) ?_
    rintro - switched ⟨⟨kept, served⟩, known, cache⟩
    have stillBehind : CacheBehind switched byteAddr := by
      rcases cache with empty | ⟨already, rfl⟩
      · intro cached hit
        rw [empty] at hit
        cases hit
      · refine behind (already.trans ?_)
        rw [← sectorValue]
        simp
    refine (reads.readBlock_rule switched dataArea located kept served known stillBehind).bind
      (fun _ _ left => Or.inl left) ?_
    rintro blockData next ⟨kept, known, behind, seen⟩
    have agrees : ∀ memory, Shows Sees memory → ∀ (i : Nat) (short : i < 4),
        blockData[i] = memory (byteAddr + i) := by
      intro memory shows i short
      have base : blockAddress sector block = byteAddr := by
        rw [blockAddress_eq]
        omega
      exact shows _ _ (base ▸ seen i short)
    have collected := fun memory shows => processBlock_collect build layout memory
      (show byteAddr + 4 ≤ ADDRESS_SPACE_END by simp only [ADDRESS_SPACE_END_eq]; omega)
        (agrees memory shows) 0
      bytesRead scan result (by omega)
    simp only [Nat.add_zero] at collected
    rw [ensures_bind, ensures_orProtocol]
    constructor
    · intro outcome processed
      rw [processed] at collected
      cases outcome with
      | stop result => exact ⟨kept, collected⟩
      | next bytesRead' scan' result' =>
        have stepBehind : next.reader.sector = .known ((byteAddr + BLOCK_SIZE) / 1024).toUInt8 →
            CacheBehind next (byteAddr + BLOCK_SIZE) := by
          intro same cached hit later
          rw [known] at same
          have sameSector := congrArg UInt8.toNat (SectorState.known.inj same)
          simp only [BLOCK_SIZE_eq, Nat.toUInt8, UInt8.toNat_ofNat'] at sameSector later ⊢
          have bound := behind cached hit (by omega)
          omega
        refine (inductionHypothesis bytesRead' scan' result' next
          (by simp only [BLOCK_SIZE_eq]; omega) (by simp only [BLOCK_SIZE_eq]; omega) kept
          stepBehind).mono ?_ ?_
        · rintro dataArea final ⟨kept, whole⟩
          exact ⟨kept, fun memory shows => (collected memory shows).trans (whole memory shows)⟩
        · rintro error final (left | ⟨kept, refusal, same, whole⟩)
          · exact Or.inl left
          · exact Or.inr ⟨kept, refusal, same,
              fun memory shows => (collected memory shows).trans (whole memory shows)⟩
    · intro refusal processed
      rw [processed] at collected
      exact Or.inr ⟨kept, refusal, rfl, collected⟩
  | case3 byteAddr bytesRead scan result full =>
    rw [Nat.sub_eq_zero_of_le (by omega)]
    exact ⟨holds, fun _ _ => by cases (layout.usableFrom byteAddr) <;> rfl⟩

/-- `read_data_area` returns what the memory reads as under the layout. -/
theorem Reads.readDataArea_rule (reads : Reads build t I E Sees) (layout : MemoryLayout)
    (m : Machine σ) (holds : I m) :
    Computes I E Sees (readDataArea build t layout) (dataAreaOf build layout) m :=
  reads.readDataAreaFrom_rule 16 0 .tag [] m (by decide) (by decide) holds
    fun _ _ _ later => absurd later (by decide)

/-! ## The detection procedure -/

/-- The Capability Container of a memory. -/
def ccOf (memory : Memory) : Except Type2Error CapabilityContainer :=
  CapabilityContainer.tryFrom #v[memory 12, memory 13, memory 14, memory 15]

/-- The two passes of `read_data_area_with_layout` on a memory. -/
def dataAreaWithLayoutOf (build : Build) (cc : CapabilityContainer) (memory : Memory) :
    Except Type2Error (List UInt8) := do
  let dataArea ← dataAreaOf build (MemoryLayout.fromCcAndTlvs build cc []) memory
  let tlvs ← parseTlvs build dataArea
  if cc.isDynamic && tlvs.any Tlv.isControl then
    dataAreaOf build (MemoryLayout.fromCcAndTlvs build cc tlvs) memory
  else .ok dataArea

/-- The layout of the last pass over a data area whose first pass shows these blocks: on a
dynamic tag with control TLVs among them it is theirs, otherwise that of the first pass. -/
def lastLayout (build : Build) (cc : CapabilityContainer) (first : List Tlv) : MemoryLayout :=
  if cc.isDynamic && first.any Tlv.isControl then MemoryLayout.fromCcAndTlvs build cc first
  else MemoryLayout.fromCcAndTlvs build cc []

/-- What `read_ndef` reads from a memory. -/
def ndefOf (build : Build) (memory : Memory) : Except Type2Error (List UInt8) := do
  let cc ← ccOf memory
  refusal (cc.isValid = false) (.invalidMagic 0)
  let dataArea ← dataAreaWithLayoutOf build cc memory
  let tlvs ← parseTlvs build dataArea
  return (firstNdef tlvs).getD []

/-- The job `write_ndef` plans on a memory. -/
def jobOf (build : Build) (ndefData : List UInt8) (memory : Memory) :
    Except Type2Error WriteJob := do
  let cc ← ccOf memory
  refusal (cc.isValid = false) (.invalidMagic 0)
  refusal (cc.writeAccess ≠ .granted) .readOnly
  let dataArea ← dataAreaWithLayoutOf build cc memory
  let tlvs ← parseTlvs build dataArea
  planWrite build cc tlvs ndefData

/-- `read_cc` reads block 3 of sector 0. -/
theorem Reads.readCc_rule (reads : Reads build t I E Sees) (m : Machine σ) (holds : I m) :
    Computes I E Sees (readCc build t) ccOf m := by
  have located : MemoryLayout.addressToSectorBlock 12 = some (0, CC_BLOCK, 0) := by decide
  unfold Computes readCc
  rw [ensures_bind, ensures_serve]
  refine (sectorSelect_rule (reads.select.serving (some 12)) 0 { m with serving := some 12 }
    ⟨reads.serve m 12 holds, rfl⟩ (fun beyond => absurd beyond (by decide))).bind
    (fun _ _ left => Or.inl left) ?_
  rintro - selected ⟨⟨kept, served⟩, known, -⟩
  have aimed : Aimed selected.serving selected.reader.sector CC_BLOCK :=
    ⟨12, 0, 0, served, located, known⟩
  refine (reads.read_rule CC_BLOCK selected kept aimed).bind (fun _ _ left => Or.inl left) ?_
  rintro data next ⟨⟨kept, -, seen⟩, -, -⟩
  have bytes : ∀ memory, Shows Sees memory →
      firstBlock data = #v[memory 12, memory 13, memory 14, memory 15] := by
    intro memory shows
    have byte := fun (i : Nat) (short : i < 16) =>
      shows _ _ (seen 0 known i short (by simp only [CC_BLOCK_toNat]; omega))
    have base : blockAddress 0 CC_BLOCK = 12 := rfl
    simp only [base] at byte
    simp only [firstBlock, byte 0 (by decide), byte 1 (by decide), byte 2 (by decide),
      byte 3 (by decide)]
  rw [ensures_orProtocol]
  constructor
  · intro cc parsed
    exact ⟨kept, fun memory shows => by rw [ccOf, ← bytes memory shows, parsed]⟩
  · intro refusal failed
    exact Or.inr ⟨kept, refusal, rfl,
      fun memory shows => by rw [ccOf, ← bytes memory shows, failed]⟩

/-- `read_data_area_with_layout` makes the two passes on the memory seen. -/
theorem Reads.readDataAreaWithLayout_rule (reads : Reads build t I E Sees)
    (cc : CapabilityContainer) (m : Machine σ) (holds : I m) :
    Computes I E Sees (readDataAreaWithLayout build t cc) (dataAreaWithLayoutOf build cc) m := by
  refine (reads.readDataArea_rule _ m holds).bind fun dataArea first kept => ?_
  refine (computes_orProtocol kept _).bind fun tlvs second kept => ?_
  split
  · exact reads.readDataArea_rule _ second kept
  · exact computes_pure kept dataArea

/-- `read_ndef` reads the message of the memory seen. -/
theorem Reads.readNdef_rule (reads : Reads build t I E Sees) (m : Machine σ) (holds : I m) :
    Computes I E Sees (readNdef build t) (ndefOf build) m := by
  refine (reads.readCc_rule m holds).bind fun cc _ kept => ?_
  refine (computes_refuseIf kept _ _).bind fun _ _ kept => ?_
  refine (reads.readDataAreaWithLayout_rule cc _ kept).bind fun dataArea _ kept => ?_
  refine (computes_orProtocol kept _).bind fun tlvs _ kept => ?_
  exact computes_pure kept _

/-- `write_ndef` plans its job on the memory seen. -/
theorem Reads.prepareWrite_rule (reads : Reads build t I E Sees) (ndefData : List UInt8)
    (m : Machine σ) (holds : I m) :
    Computes I E Sees (prepareWrite build t ndefData) (jobOf build ndefData) m := by
  refine (reads.readCc_rule m holds).bind fun cc _ kept => ?_
  refine (computes_refuseIf kept _ _).bind fun _ _ kept => ?_
  refine (computes_refuseIf kept _ _).bind fun _ _ kept => ?_
  refine (reads.readDataAreaWithLayout_rule cc _ kept).bind fun dataArea _ kept => ?_
  refine (computes_orProtocol kept _).bind fun tlvs _ kept => ?_
  exact computes_orProtocol kept _

end

/-! ## The length of the data area -/

section

variable {σ ε : Type} {build : Build} {t : Transceiver σ ε} {layout : MemoryLayout}

/-- As many bytes are collected as are counted, and never more than the layout has. -/
def Counted (size : Nat) : BlockOutcome → Prop
  | .stop result => result.length ≤ size
  | .next bytesRead _ result => result.length = bytesRead ∧ bytesRead ≤ size

/-- A round counts the bytes it collects.

Proof: functional induction on the round; a byte is pushed and counted in one branch only,
behind the test that there is room. -/
theorem processBlock_counted {byteAddr i bytesRead : Nat} {blockData : Vector UInt8 4}
    {scan : TlvScanState} {result : List UInt8} (counted : result.length = bytesRead)
    (few : bytesRead ≤ layout.dataAreaSize) {outcome : BlockOutcome}
    (processed : processBlock build layout byteAddr blockData i bytesRead scan result =
      .ok outcome) : Counted layout.dataAreaSize outcome := by
  fun_induction processBlock build layout byteAddr blockData i bytesRead scan result with
  | case1 i bytesRead scan result inside skipped inductionHypothesis =>
    exact inductionHypothesis counted few processed
  | case2 i bytesRead scan result inside usable full =>
    obtain rfl := Except.ok.inj processed
    exact counted.trans_le few
  | case3 i bytesRead scan result inside usable more inductionHypothesis =>
    obtain ⟨pushed, push, processed⟩ := ok_of_bind processed
    have length : pushed.length = bytesRead + 1 := by
      rw [tryPush_ok push, List.length_append, counted]
      rfl
    cases fed : scan.feed blockData[i] with
    | none =>
      rw [fed] at processed
      obtain rfl := Except.ok.inj processed
      exact length.trans_le (by omega)
    | some next =>
      rw [fed] at processed
      exact inductionHypothesis pushed next length (by omega) processed
  | case4 i bytesRead scan result outside =>
    obtain rfl := Except.ok.inj processed
    exact ⟨counted, few⟩

/-- No more bytes are read than the layout has.

Induction on the walk over the blocks. -/
theorem readDataAreaFrom_counted {byteAddr bytesRead : Nat} {scan : TlvScanState}
    {result : List UInt8}
    (counted : result.length = bytesRead) (few : bytesRead ≤ layout.dataAreaSize) (m : Machine σ) :
    Ensures (readDataAreaFrom build t layout byteAddr bytesRead scan result)
      (fun data _ => data.length ≤ layout.dataAreaSize) (fun _ _ => True) m := by
  fun_induction readDataAreaFrom build t layout byteAddr bytesRead scan result
    generalizing m with
  | case1 byteAddr bytesRead scan result unfinished outside => trivial
  | case2 byteAddr bytesRead scan result unfinished sector block offset located
      inductionHypothesis =>
    simp only [ensures_bind]
    refine ensures_always (fun _ _ => ?_) fun _ _ => trivial
    refine ensures_always (fun _ _ => ?_) fun _ _ => trivial
    refine ensures_always (fun blockData next => ?_) fun _ _ => trivial
    rw [ensures_orProtocol]
    refine ⟨fun outcome processed => ?_, fun _ _ => trivial⟩
    have bound := processBlock_counted counted few processed
    cases outcome with
    | stop result => exact bound
    | next bytesRead scan result =>
      exact inductionHypothesis bytesRead scan result bound.1 bound.2 next
  | case3 byteAddr bytesRead scan result full => exact counted.trans_le few

/-- The data area has at most the bytes of the layout, whatever is read. -/
theorem readDataArea_counted (layout : MemoryLayout) (m : Machine σ) :
    Ensures (readDataArea build t layout)
      (fun data _ => data.length ≤ layout.dataAreaSize) (fun _ _ => True) m :=
  have counted : ([] : List UInt8).length = 0 := rfl
  readDataAreaFrom_counted counted (Nat.zero_le _) m

end

end NfcForumTags
