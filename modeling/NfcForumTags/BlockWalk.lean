import NfcForumTags.DataStream
import NfcForumTags.SectorCount
import NfcForumTags.Refusals

/-!
# The blocks an operation visits

`read_data_area` goes on to a block only while data bytes are missing, so that it comes
no further than the last of them, and `write_usable_bytes` stops at its limit. Whatever
the transceiver answers, the blocks they visit lie within the bytes the layout counts.
Both do nothing but select the sector of a block, read it and write it: what these keep
in the sectors of the blocks, they keep.
-/
namespace NfcForumTags

open Program Enumeration MemoryLayout

section

variable {layout : MemoryLayout} {build : Build}

/-- The loop over one block counts its usable bytes.

Induction on the bytes left in the block. -/
theorem processBlock_next {byteAddr i bytesRead bytesAfter : Nat} {blockData : Vector UInt8 4}
    {scan scanAfter : TlvScanState} {result resultAfter : List UInt8} (position : i ≤ 4)
    (processed : processBlock build layout byteAddr blockData i bytesRead scan result =
      .ok (.next bytesAfter scanAfter resultAfter)) :
    bytesAfter = bytesRead + (layout.usableBetween (byteAddr + i) (byteAddr + 4)).length := by
  fun_induction processBlock build layout byteAddr blockData i bytesRead scan result with
  | case1 i bytesRead scan result inside skipped inductionHypothesis =>
    rw [usableBetween_skip skipped]
    exact inductionHypothesis (by omega) processed
  | case2 i bytesRead scan result inside usable full => cases processed
  | case3 i bytesRead scan result inside usable more inductionHypothesis =>
    obtain ⟨pushed, push, processed⟩ := ok_of_bind processed
    rw [usableBetween_cons (by omega) (Bool.eq_false_iff.mpr usable), List.length_cons]
    cases fed : scan.feed blockData[i] with
    | none =>
      rw [fed] at processed
      cases processed
    | some next =>
      rw [fed] at processed
      have rest := inductionHypothesis pushed next (by omega) processed
      rw [rest, Nat.add_assoc, Nat.add_assoc, Nat.add_comm 1]
  | case4 i bytesRead scan result outside =>
    obtain rfl : i = 4 := by omega
    cases processed
    rw [usableBetween_empty (le_refl _)]
    rfl

/-- A bound on the addresses that fewer usable bytes precede than the data area has. -/
def MemoryLayout.Reaches (layout : MemoryLayout) (limit : Nat) : Prop :=
  ∀ byteAddr, (layout.usableBetween 16 byteAddr).length < layout.dataAreaSize → byteAddr < limit

/-- Wherever the areas lie, the bytes counted are a bound. -/
theorem reaches_totalBytes (layout : MemoryLayout) : layout.Reaches layout.totalBytes := by
  intro byteAddr few
  have covered : byteAddr - 16 ≤ (layout.usableBetween 16 byteAddr).length +
      layout.areaAddresses.length :=
    length_kept_covered fun addr _ _ rejected => mem_areaAddresses (by simpa using rejected)
  rw [length_areaAddresses] at covered
  change byteAddr < layout.dataAreaSize + 16 + _ + _
  omega

section

variable {σ ε : Type} {t : Transceiver σ ε} {J : Nat → Machine σ → Prop} {R : Machine σ → Prop}
  {E : ReaderError ε → Machine σ → Prop} {limit : Nat}

/-- The block loop by its blocks: what holds before one of them, holds before the next.

Induction on the walk. The bytes read are the usable ones before the block, and the block
before it was not beyond the limit. -/
theorem readDataAreaFrom_walk (reaches : layout.Reaches limit)
    (step : ∀ n sector block m, 16 + 4 * n < limit →
      addressToSectorBlock (16 + 4 * n) = some (sector, block, 0) → J n m →
      Ensures (do switchSector t sector; readBlock build t block) (fun _ next => J (n + 1) next) E
        { m with serving := some (16 + 4 * n) })
    (ends : ∀ n m, 12 + 4 * n < limit ∨ n = 0 → J n m →
      R m ∧ ∀ error : Type2Error, error.FromReading build limit → E (.protocol error) m)
    (byteAddr bytesRead : Nat) (scan : TlvScanState) (result : List UInt8) (n : Nat)
    (position : byteAddr = 16 + 4 * n)
    (counted : (layout.usableBetween 16 byteAddr).length = bytesRead)
    (near : 12 + 4 * n < limit ∨ n = 0) (m : Machine σ) (holds : J n m) :
    Ensures (readDataAreaFrom build t layout byteAddr bytesRead scan result)
        (fun _ next => R next) E m := by
  fun_induction readDataAreaFrom build t layout byteAddr bytesRead scan result generalizing n m with
  | case1 byteAddr bytesRead scan result more outside =>
    have inside : byteAddr < limit := reaches _ (counted ▸ more)
    refine (ends n m near holds).2 .outOfRange (Or.inl ⟨rfl, lt_of_le_of_lt ?_ inside⟩)
    by_contra addressable
    rw [addressToSectorBlock_eq (Nat.lt_of_not_le addressable)] at outside
    cases outside
  | case2 byteAddr bytesRead scan result more sector block offset located inductionHypothesis =>
    subst position
    have inside : 16 + 4 * n < limit := reaches _ (counted ▸ more)
    obtain ⟨addressable, -, -, offsetValue⟩ := addressToSectorBlock_some located
    obtain rfl : offset = 0 := UInt8.toNat_inj.mp (by rw [offsetValue]; simp)
    have visited := step n sector block m inside located holds
    rw [ensures_bind] at visited
    rw [ensures_bind, ensures_serve, ensures_bind]
    refine visited.mono (fun _ switched visited => ?_) fun _ _ left => left
    refine visited.bind (fun _ _ left => left) fun blockData next kept => ?_
    rw [ensures_bind, ensures_orProtocol]
    have nearNext : 12 + 4 * (n + 1) < limit ∨ n + 1 = 0 := Or.inl (by omega)
    refine ⟨fun outcome processed => ?_, fun error full => ?_⟩
    · cases outcome with
      | stop result => exact (ends (n + 1) next nearNext kept).1
      | next bytesAfter scan result =>
        refine inductionHypothesis bytesAfter scan result (n + 1)
          (by rw [BLOCK_SIZE_eq]; omega) ?_ nearNext
          next kept
        have cut : layout.usableBetween 16 (16 + 4 * n + 4) =
            layout.usableBetween 16 (16 + 4 * n) ++ layout.usableBetween (16 + 4 * n)
                (16 + 4 * n + 4) :=
          kept_append (by omega) (by omega)
        rw [processBlock_next (Nat.zero_le 4) processed, ← counted]
        change (layout.usableBetween 16 (16 + 4 * n + 4)).length = _
        rw [cut, List.length_append]
        rfl
    · exact (ends (n + 1) next nearNext kept).2 error
        (Or.inr (processBlock_fails _ _ _ _ _ _ _ _ error full))
  | case3 byteAddr bytesRead scan result full => exact (ends n m near holds).1

/-- The whole reading by its blocks. -/
theorem readDataArea_walk (reaches : layout.Reaches limit)
    (step : ∀ n sector block m, 16 + 4 * n < limit →
      addressToSectorBlock (16 + 4 * n) = some (sector, block, 0) → J n m →
      Ensures (do switchSector t sector; readBlock build t block) (fun _ next => J (n + 1) next) E
        { m with serving := some (16 + 4 * n) })
    (ends : ∀ n m, 12 + 4 * n < limit ∨ n = 0 → J n m →
      R m ∧ ∀ error : Type2Error, error.FromReading build limit → E (.protocol error) m)
    (m : Machine σ) (holds : J 0 m) :
    Ensures (readDataArea build t layout) (fun _ next => R next) E m :=
  readDataAreaFrom_walk reaches step ends 16 0 .tag [] 0 rfl
    (by rw [usableBetween_empty (le_refl _)]; rfl) (Or.inr rfl) m holds

/-- The page loop by its pages: what holds before one of them, holds before the next.

Induction on the walk. -/
theorem writeUsableBytesFrom_walk {J : Nat → Nat → Machine σ → Prop} {data : List UInt8}
    {limitAddr : Nat} (step : ∀ addr di sector block offset m, addr < limitAddr →
      addressToSectorBlock addr = some (sector, block, offset) → J addr di m →
      Ensures (do switchSector t sector
                  writePage build t layout data limitAddr (addr - offset.toNat) block offset di)
        (fun written next => J (addr - offset.toNat + 4) written next)
          E { m with serving := some addr })
    (stuck : ∀ addr di m, di < data.length → limitAddr ≤ addr ∨ addressToSectorBlock addr = none →
      J addr di m → E (.protocol .outOfRange) m)
    (addr di : Nat) (m : Machine σ) (holds : J addr di m) :
    Ensures (writeUsableBytesFrom build t layout data limitAddr addr di)
      (fun _ next => ∃ addr di, J addr di next) E m := by
  fun_induction writeUsableBytesFrom build t layout data limitAddr addr di generalizing m with
  | case1 addr di more beyond => exact stuck addr di m more (Or.inl beyond) holds
  | case2 addr di more inside outside => exact stuck addr di m more (Or.inr outside) holds
  | case3 addr di more inside sector block offset located inductionHypothesis =>
    have visited := step addr di sector block offset m (Nat.lt_of_not_le inside) located holds
    rw [ensures_bind] at visited
    rw [ensures_bind, ensures_serve, ensures_bind]
    refine visited.mono (fun _ switched visited => ?_) fun _ _ left => left
    exact visited.bind (fun _ _ left => left) fun written next kept =>
      inductionHypothesis written next kept
  | case4 addr di done => exact ⟨addr, di, holds⟩

end

/-! ## Operations that stay in some sectors -/

section

variable {σ ε : Type} {t : Transceiver σ ε} {S : UInt8 → Prop} {I : Machine σ → Prop}
  {E : ReaderError ε → Machine σ → Prop} {limit : Nat}

variable (build t S I E) in
/-- An invariant that outlasts the selection of certain sectors, and READ in one of them
that is known, and the condition `E` that a failure of one leaves. -/
structure Visits : Prop where
  serve : ∀ m addr, I m → I { m with serving := some addr }
  select : ∀ sector m, S sector → I m → Ensures (sectorSelect t sector)
    (fun _ next => I next ∧ next.reader.sector = .known sector) E m
  read : ∀ sector block m, S sector → m.reader.sector = .known sector → I m →
    Ensures (read build t block) (fun _ next => I next) E m

variable (build t S I E) in
/-- One that outlasts WRITE as well. -/
structure Roams : Prop extends Visits build t S I E where
  write : ∀ sector block page m, S sector → m.reader.sector = .known sector → I m →
    Ensures (write t block page) (fun _ next => I next) E m

/-- Refusing with one of these errors, without an exchange, leaves the condition. -/
def Refuses (P : Type2Error → Prop) (I : Machine σ → Prop)
    (E : ReaderError ε → Machine σ → Prop) : Prop :=
  ∀ error m, P error → I m → E (.protocol error) m

/-- Refusing keeps any invariant. -/
theorem preserves_refuseIf (condition : Prop) [Decidable condition] (error : Type2Error) :
    Preserves I (refuseIf condition error : Operation σ ε Unit) := by
  unfold refuseIf
  split
  · exact preserves_throw _
  · exact preserves_pure _

/-- So does passing on a result. -/
theorem preserves_orProtocol {α : Type} (result : Except Type2Error α) :
    Preserves I (orProtocol result : Operation σ ε α) := by
  cases result with
  | ok value => exact preserves_pure value
  | error error => exact preserves_throw _

/-- So does looking at an acknowledgement. -/
theorem preserves_expectAck (answer : Except Type2Error Answer) :
    Preserves I (expectAck answer : Operation σ ε Unit) := by
  refine (preserves_orProtocol answer).bind fun answer => ?_
  cases answer with
  | ack => exact preserves_pure _
  | data _ | nack _ | passiveAck => exact preserves_throw _

/-- What holds of every machine outlasts a selection. -/
theorem survives_always (t : Transceiver σ ε) : SurvivesSelect t (fun _ => True) fun _ => True :=
  ⟨fun _ _ => trivial, fun _ _ _ _ _ _ _ => trivial, fun _ _ _ _ _ _ => trivial,
    fun _ _ _ _ _ _ _ => trivial, fun _ _ _ _ _ _ => trivial, fun _ _ _ _ _ _ => trivial⟩

/-- A READ that returns leaves the sector tracked, and the block cached where it is kept. -/
theorem read_tracked (t : Transceiver σ ε) (block : UInt8) (m : Machine σ) :
    Ensures (read build t block)
      (fun _ next => next.reader.sector = m.reader.sector ∧
        (build.caching = true → next.reader.cacheBlock = some block))
      (fun _ _ => True) m := by
  refine (read_rule (fun _ next => build.caching = true → next.reader.cacheBlock = some block)
    (survives_always t) block m trivial (fun hit _ => hit)
    ⟨fun _ _ _ _ _ => ⟨trivial, trivial⟩, fun next raw _ _ _ => ?_⟩).mono
    (fun _ _ after => ⟨after.2.1, after.1⟩) fun _ _ left => left
  refine ⟨fun data _ caching => ?_, fun _ => trivial⟩
  rw [Machine.store, if_pos caching]

/-- The sectors of the addresses below a limit. -/
def SectorsBelow (S : UInt8 → Prop) (limit : Nat) : Prop :=
  ∀ addr sector block offset, addr < limit →
    addressToSectorBlock addr = some (sector, block, offset) → S sector

/-- Every address is in an addressable sector. -/
theorem sectorsBelow_addressable (limit : Nat) : SectorsBelow (· ≤ MAX_SECTOR) limit :=
  fun _ _ _ _ _ located => UInt8.not_lt.mp (located_allowed located)

namespace Visits

variable (visits : Visits build t S I E)
include visits

/-- Ahead of a block the reader tracks the sector of the block, having selected it if it had
to. -/
theorem switchSector {sector : UInt8} (allowed : ¬ MAX_SECTOR < sector) (inside : S sector)
    (m : Machine σ) (holds : I m) : Ensures (switchSector t sector)
      (fun _ next => I next ∧ next.reader.sector = .known sector) E m := by
  have selected := visits.select sector m inside holds
  unfold Ensures at selected ⊢
  rw [switchSector_eq allowed]
  exact selected

/-- Reading the container keeps the invariant, if sector 0 may be selected and a refused
container keeps it. -/
theorem readCc (refuses : Refuses Type2Error.FromContainer I E) (inside : S 0) (m : Machine σ)
    (holds : I m) :
    Ensures (readCc build t) (fun _ next => I next) E m := by
  unfold NfcForumTags.readCc
  rw [ensures_bind, ensures_serve]
  refine (visits.select 0 _ inside (visits.serve m _ holds)).bind (fun _ _ left => left) ?_
  rintro - selected ⟨kept, known⟩
  refine (visits.read 0 CC_BLOCK selected inside known kept).bind (fun _ _ left => left) ?_
  intro data next kept
  rw [ensures_orProtocol]
  exact ⟨fun _ _ => kept,
    fun error failed => refuses error next (CapabilityContainer.tryFrom_fails _ error failed) kept⟩

/-- A block keeps it, cached or read. -/
theorem readBlock {sector block : UInt8} (inside : S sector) (m : Machine σ)
    (known : m.reader.sector = .known sector) (holds : I m) :
    Ensures (readBlock build t block) (fun _ next => I next) E m := by
  have reads : Ensures (do let data ← NfcForumTags.read build t block; return firstBlock data)
      (fun _ next => I next) E m :=
    (visits.read sector block m inside known holds).bind (fun _ _ left => left) fun _ _ kept => kept
  unfold NfcForumTags.readBlock
  rw [ensures_bind, ensures_get]
  dsimp only
  split
  · split
    · exact holds
    · exact reads
  · exact reads

/-- Reading the data area keeps the invariant, if the sectors up to the limit may be
selected and a refusal keeps it. -/
theorem readDataArea (refuses : Refuses (Type2Error.FromReading build limit) I E)
    (reaches : layout.Reaches limit) (below : SectorsBelow S limit) (m : Machine σ) (holds : I m) :
    Ensures (readDataArea build t layout) (fun _ next => I next) E m := by
  refine readDataArea_walk (J := fun _ => I) reaches ?_
    (fun _ next _ kept => ⟨kept, fun error reading => refuses error next reading kept⟩) m holds
  intro n sector block next inside located kept
  have sectorInside := below _ sector block 0 inside located
  refine (visits.switchSector (located_allowed located) sectorInside _
    (visits.serve next _ kept)).bind
    (fun _ _ left => left) ?_
  rintro - switched ⟨kept, known⟩
  exact visits.readBlock sectorInside switched known kept

/-- One page, where a WRITE of it, or leaving it, goes on to another invariant. With room
for the data below the limit it is not refused, and consumes the bytes of the page. -/
theorem writePage {J : Machine σ → Prop} {limitAddr addr pageBase di : Nat}
    {sector block offset : UInt8}
    {data : List UInt8} (writes : ∀ page next, next.reader.sector = .known sector → I next →
      Ensures (write t block page) (fun _ last => J last) E next)
    (leaves : ∀ next, I next → J next)
    (refuses : Room layout data limitAddr addr di ∨ Refuses (· = .outOfRange) I E)
    (inside : S sector) (located : addressToSectorBlock addr = some (sector, block, offset))
    (base : pageBase = addr - offset.toNat) (m : Machine σ)
    (known : m.reader.sector = .known sector)
    (holds : I m) :
    Ensures (writePage build t layout data limitAddr pageBase block offset di)
      (fun written next => J next ∧ (Room layout data limitAddr addr di →
        written = di + ((layout.usableBetween addr (pageBase + 4)).zip (data.drop di)).length))
          E m := by
  have offsetValue := (addressToSectorBlock_some located).2.2.2
  have atOffset : pageBase + offset.toNat = addr := by omega
  unfold NfcForumTags.writePage
  split
  · next covered =>
    obtain ⟨⟨start, covers⟩, allUsable⟩ := covered
    obtain rfl : addr = pageBase := by
      rw [← atOffset, start]
      rfl
    rw [ensures_bind, ensures_refuseIf]
    refine ⟨fun _ => ?_, fun beyond => ?_⟩
    · refine (writes _ m known holds).bind (fun _ _ left => left) fun _ _ kept => ?_
      refine ⟨kept, fun _ => ?_⟩
      rw [(pageFrom_place (fun _ => 0) allUsable covers).2]
      rfl
    · rcases refuses with room | refuses
      · exact absurd beyond (Nat.not_lt.mpr (covered_below covers room))
      · exact refuses _ m rfl holds
  · refine ((visits.read sector block m inside known holds).and (read_tracked t block m)).bind
      (fun _ _ left => left.1) ?_
    rintro current next ⟨kept, same, -⟩
    have consumes : Room layout data limitAddr addr di → ∃ fill,
        fillPage layout data limitAddr pageBase offset.toNat ⟨firstBlock current, di, false⟩ =
          some fill ∧
        fill.di = di + ((layout.usableBetween addr (pageBase + 4)).zip (data.drop di)).length := by
      intro room
      rw [← atOffset] at room ⊢
      exact fillPage_consumes (firstBlock current) (by omega) room
    split
    · next none =>
      rcases refuses with room | refuses
      · obtain ⟨fill, some, -⟩ := consumes room
        cases none.symm.trans some
      · exact refuses _ next rfl kept
    · next fill filled =>
      have consumed : Room layout data limitAddr addr di → fill.di =
          di + ((layout.usableBetween addr (pageBase + 4)).zip (data.drop di)).length := by
        intro room
        obtain ⟨other, same, consumed⟩ := consumes room
        obtain rfl := Option.some.inj (filled.symm.trans same)
        exact consumed
      refine Ensures.bind ?_ (fun _ _ left => left) fun _ last (left : J last) => ⟨left, consumed⟩
      split
      · exact writes _ next (same.trans known) kept
      · exact leaves next kept

/-! ### Whole operations, where every addressable sector is allowed -/

section

variable (everywhere : ∀ limit, SectorsBelow S limit) (cc : CapabilityContainer)
include everywhere

/-- Both passes. Neither layout leaves the address space. -/
theorem readDataAreaWithLayout (refuses : Refuses (Type2Error.FromBlocks build) I E) (m : Machine σ)
    (holds : I m) : Ensures (readDataAreaWithLayout build t cc) (fun _ next => I next) E m := by
  have pass : ∀ {data tlvs}, TlvStream data tlvs → data.length ≤ 2040 → ∀ next, I next →
      Ensures (NfcForumTags.readDataArea build t (MemoryLayout.fromCcAndTlvs build cc tlvs))
        (fun _ next => I next) E next := by
    intro data tlvs stream small next kept
    refine visits.readDataArea (fun error left reading => refuses error left ?_)
      (reaches_totalBytes _)
      (everywhere _) next kept
    rcases reading with ⟨-, beyond⟩ | full
    · exact absurd beyond (Nat.not_lt.mpr (totalBytes_inside build cc stream small))
    · exact Or.inr full
  unfold NfcForumTags.readDataAreaWithLayout
  refine ((pass emptyStream (Nat.zero_le _) m holds).and (readDataArea_counted _ m)).bind
    (fun _ _ left => left.1) ?_
  rintro dataArea next ⟨kept, counted⟩
  rw [ensures_bind, ensures_orProtocol]
  refine ⟨fun tlvs parsed => ?_, fun error failed =>
    refuses error next (parseTlvs_fails _ _ error failed) kept⟩
  split
  · exact pass (parseTlvs_sound parsed) (counted.trans cc.dataAreaSize_le) next kept
  · exact kept

omit cc in
/-- `read_ndef` keeps the invariant, if its refusals do. -/
theorem readNdef (inside : S 0)
    (refuses : Refuses (fun error => error.FromContainer ∨ error.FromBlocks build) I E)
    (m : Machine σ) (holds : I m) : Ensures (readNdef build t) (fun _ next => I next) E m := by
  have blocks : Refuses (Type2Error.FromBlocks build) I E :=
    fun error next failed kept => refuses error next (Or.inr failed) kept
  have magic : Type2Error.FromContainer (.invalidMagic 0) := show (0 : UInt8) ≠ CC_MAGIC by decide
  unfold NfcForumTags.readNdef
  refine (visits.readCc (fun error next failed kept => refuses error next (Or.inl failed) kept)
    inside m holds).bind
    (fun _ _ left => left) fun cc next kept => ?_
  rw [ensures_bind, ensures_refuseIf]
  refine ⟨fun _ => ?_, fun _ => refuses _ next (Or.inl magic) kept⟩
  refine (visits.readDataAreaWithLayout everywhere cc blocks next kept).bind
    (fun _ _ left => left) ?_
  intro dataArea next kept
  rw [ensures_bind, ensures_orProtocol]
  exact ⟨fun _ _ => kept, fun error failed =>
    blocks error next (parseTlvs_fails _ _ error failed) kept⟩

omit cc in
/-- Preparing a write, and the plan it ends with. -/
theorem prepareWrite (inside : S 0)
    (refuses : Refuses (fun error => error.FromContainer ∨ error.FromBlocks build ∨
      error = .readOnly ∨
      error = .outOfRange) I E) (ndefData : List UInt8) (m : Machine σ) (holds : I m) :
    Ensures (prepareWrite build t ndefData)
      (fun job next => I next ∧ ∃ cc tlvs, planWrite build cc tlvs ndefData = .ok job) E m := by
  have magic : Type2Error.FromContainer (.invalidMagic 0) := show (0 : UInt8) ≠ CC_MAGIC by decide
  have blocks : Refuses (Type2Error.FromBlocks build) I E :=
    fun error next failed kept => refuses error next (Or.inr (Or.inl failed)) kept
  unfold NfcForumTags.prepareWrite
  refine (visits.readCc (fun error next failed kept => refuses error next (Or.inl failed) kept)
    inside m holds).bind
    (fun _ _ left => left) fun cc next kept => ?_
  rw [ensures_bind, ensures_refuseIf]
  refine ⟨fun _ => ?_, fun _ => refuses _ next (Or.inl magic) kept⟩
  rw [ensures_bind, ensures_refuseIf]
  refine ⟨fun _ => ?_, fun _ => refuses _ next (Or.inr (Or.inr (Or.inl rfl))) kept⟩
  refine (visits.readDataAreaWithLayout everywhere cc blocks next kept).bind
    (fun _ _ left => left) ?_
  intro dataArea next kept
  rw [ensures_bind, ensures_orProtocol]
  refine ⟨fun tlvs _ => ?_, fun error failed =>
    blocks error next (parseTlvs_fails _ _ error failed) kept⟩
  rw [ensures_orProtocol]
  refine ⟨fun job plans => ⟨kept, cc, tlvs, plans⟩, fun error failed => refuses error next ?_ kept⟩
  rcases planWrite_fails build cc tlvs ndefData error failed with beyond | malformed
  · exact Or.inr (Or.inr (Or.inr beyond))
  · exact Or.inr (Or.inl malformed)
end

end Visits

namespace Roams

variable (roams : Roams build t S I E)
include roams

/-- The page loop, below its limit. -/
theorem writeUsableBytesFrom {limitAddr : Nat} (below : SectorsBelow S limitAddr)
    {data : List UInt8} (addr di : Nat) (m : Machine σ)
    (fit : limitAddr ≤ ADDRESS_SPACE_END ∧ Room layout data limitAddr addr di ∨
      Refuses (· = .outOfRange) I E)
    (holds : I m) :
    Ensures (writeUsableBytesFrom build t layout data limitAddr addr di)
      (fun _ next => I next) E m := by
  refine (writeUsableBytesFrom_walk (J := fun addr di next => I next ∧
    (limitAddr ≤ ADDRESS_SPACE_END ∧ Room layout data limitAddr addr di ∨
      Refuses (· = .outOfRange) I E))
    ?_ ?_ addr di m ⟨holds, fit⟩).mono (fun _ _ ⟨_, _, kept, _⟩ => kept) fun _ _ left => left
  · rintro addr di sector block offset next inside located ⟨kept, fit⟩
    have sectorInside := below addr sector block offset inside located
    have offsetValue := (addressToSectorBlock_some located).2.2.2
    refine (roams.switchSector (located_allowed located) sectorInside _
      (roams.serve next _ kept)).bind
      (fun _ _ left => left) ?_
    rintro - switched ⟨kept, known⟩
    refine (roams.writePage (fun page next => roams.write sector block page next sectorInside)
      (fun _ kept => kept) (fit.imp_left And.right)
        sectorInside located rfl switched known kept).mono ?_
      fun _ _ left => left
    rintro written last ⟨kept, consumed⟩
    refine ⟨kept, fit.imp_left fun fit => ⟨fit.1, ?_⟩⟩
    rw [consumed fit.2]
    exact fit.2.step (by omega)
  · rintro addr di next more stuck ⟨kept, ⟨limited, room⟩ | refuses⟩
    · rcases stuck with beyond | outside
      · unfold Room at room
        rw [usableBetween_empty beyond, List.length_nil] at room
        omega
      · by_cases beyond : limitAddr ≤ addr
        · unfold Room at room
          rw [usableBetween_empty beyond, List.length_nil] at room
          omega
        · rw [addressToSectorBlock_eq (by omega)] at outside
          cases outside
    · exact refuses _ next rfl kept

/-- Both writes of a job, below its limit. -/
theorem commitWrite (refuses : Refuses (· = .outOfRange) I E) (job : WriteJob)
    (below : SectorsBelow S job.writeLimitAddr) (m : Machine σ) (holds : I m) :
    Ensures (commitWrite build t job) (fun _ next => I next) E m := by
  unfold NfcForumTags.commitWrite writeUsableBytes
  refine (roams.writeUsableBytesFrom below _ 0 m (Or.inr refuses) holds).bind
    (fun _ _ left => left) ?_
  intro _ next kept
  split
  · exact roams.writeUsableBytesFrom below _ 0 next (Or.inr refuses) kept
  · exact refuses _ next rfl kept

/-- Both writes of a planned job are not refused. -/
theorem commitPlanned {job : WriteJob} {cc : CapabilityContainer} {tlvs : List Tlv}
    {ndefData : List UInt8}
    (plan : job.Planned build cc tlvs ndefData) (below : SectorsBelow S job.writeLimitAddr)
    (m : Machine σ)
    (holds : I m) : Ensures (NfcForumTags.commitWrite build t job) (fun _ next => I next) E m := by
  obtain ⟨lAddr, found, -, room⟩ := plan.length_room
  unfold NfcForumTags.commitWrite writeUsableBytes
  refine (roams.writeUsableBytesFrom below _ 0 m
    (Or.inl ⟨plan.limit_inside, plan.payload_room⟩) holds).bind
    (fun _ _ left => left) ?_
  intro _ next kept
  rw [found]
  exact roams.writeUsableBytesFrom below _ 0 next (Or.inl ⟨plan.limit_inside, room⟩) kept

/-- The whole of `write_ndef`. Once it has planned, it is not refused. -/
theorem writeNdef (everywhere : ∀ limit, SectorsBelow S limit) (inside : S 0)
    (refuses : Refuses (fun error => error.FromContainer ∨ error.FromBlocks build ∨
      error = .readOnly ∨
      error = .outOfRange) I E) (ndefData : List UInt8) (m : Machine σ) (holds : I m) :
    Ensures (writeNdef build t ndefData) (fun _ next => I next) E m := by
  unfold NfcForumTags.writeNdef
  refine (roams.prepareWrite everywhere inside refuses ndefData m holds).bind
    (fun _ _ left => left) ?_
  rintro job next ⟨kept, cc, tlvs, plans⟩
  exact roams.commitPlanned (planWrite_ok plans) (everywhere _) next kept

end Roams

end

end

end NfcForumTags
