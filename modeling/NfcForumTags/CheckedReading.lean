import NfcForumTags.CheckedReader
import NfcForumTags.ReadRules

/-!
# Reading with checked operations

`read_data_area` and `read_ndef` with every counter, address and index of the source as an
operation that may panic, and the block loop with a bound on its rounds. Whatever the
transceiver answers they run as the plain operations do, from any state of the reader:
addresses stay in the address space, and the data area has at most 2040 bytes.
-/
namespace NfcForumTags

open Panic Program

namespace Checked

/-! ## Reading -/

/-- `TlvScanState::feed`, with the count of value bytes checked as it goes down. -/
def TlvScanState.feed (state : TlvScanState) (byte : UInt8) :
    Except (Stop Type2Error) (Option TlvScanState) :=
  match state with
  | .tag =>
    if byte = TLV_TERMINATOR then .ok none
    else if byte = TLV_NULL then .ok (some .tag)
    else .ok (some .length)
  | .length =>
    if byte = 0xFF then .ok (some .lengthExtMsb)
    else if byte = 0 then .ok (some .tag)
    else .ok (some (.value byte.toNat))
  | .lengthExtMsb => .ok (some (.lengthExtLsb byte))
  | .lengthExtLsb msb => do
    let high ← shiftLeft 16 msb.toNat 8
    let len := high ||| byte.toNat
    if len = 0 then return some .tag else return some (.value len)
  | .value remaining =>
    if remaining ≤ 1 then .ok (some .tag)
    else do
      let remaining ← sub remaining 1
      return some (.value remaining)

/-- The loop over the bytes of one block, at the positions left. -/
def processBlock (build : Build) (layout : MemoryLayout) (byteAddr : Nat)
    (blockData : Vector UInt8 4) :
    List (Fin 4) → Nat → TlvScanState → List UInt8 → Except (Stop Type2Error) BlockOutcome
  | [], bytesRead, scan, result => .ok (.next bytesRead scan result)
  | i :: rest, bytesRead, scan, result => do
    let addr ← add U32_MAX byteAddr i.val
    if layout.isSkipArea addr then
      processBlock build layout byteAddr blockData rest bytesRead scan result
    else if layout.dataAreaSize ≤ bytesRead then return .stop result
    else
      let result ← ofResult (tryPush build.dataCapacity result (blockData.get i))
      let bytesRead ← add U16_MAX bytesRead 1
      match ← TlvScanState.feed scan (blockData.get i) with
      | none => return .stop result
      | some scan => processBlock build layout byteAddr blockData rest bytesRead scan result

section

variable {σ ε : Type} (target : Target) (build : Build) (t : Transceiver σ ε)

/-- The block `ahead` blocks behind the first of a READ result. -/
def cachedBlock (cacheData : Vector UInt8 16) (ahead : Nat) :
    Except (Stop Type2Error) (Vector UInt8 4) := do
  let offset ← mul target.usizeMax ahead BLOCK_SIZE
  let stop ← add target.usizeMax offset BLOCK_SIZE
  copyFromSlice 4 cacheData.toList offset stop

/-- The first block of a READ, copied out of its sixteen bytes. -/
def freshBlock (block : UInt8) : Operation σ ε (Vector UInt8 4) := do
  let data ← read build t block
  orProtocol (copyFromSlice 4 data.toList 0 BLOCK_SIZE)

/-- `read_block`: out of the cached READ result where it covers the block, and with a READ
otherwise. -/
def readBlock (block : UInt8) : Operation σ ε (Vector UInt8 4) := do
  let reader := (← get).reader
  match reader.cacheBlock with
  | some cached =>
    -- `wrapping_sub`
    let ahead := block - cached
    if ahead.toNat < 4 then orProtocol (cachedBlock target reader.cacheData ahead.toNat)
    else freshBlock build t block
  | none => freshBlock build t block

/-- The block loop of `read_data_area`, of at most `rounds` rounds. -/
def readDataAreaFrom (layout : MemoryLayout) (rounds byteAddr bytesRead : Nat) (scan : TlvScanState)
    (result : List UInt8) : Operation σ ε (List UInt8) :=
  match rounds with
  | 0 => throw .hang
  | rounds + 1 =>
    if bytesRead < layout.dataAreaSize then
      match MemoryLayout.addressToSectorBlock byteAddr with
      | none => throw (.error (.protocol .outOfRange))
      | some (sector, block, _) => do
        ofProgram (serve byteAddr)
        switchSector t sector
        let blockData ← readBlock target build t block
        match ← orProtocol (processBlock build layout byteAddr blockData (List.finRange 4)
          bytesRead scan result) with
        | .stop result => pure result
        | .next bytesRead scan result =>
          let byteAddr ← orProtocol (add U32_MAX byteAddr BLOCK_SIZE)
          readDataAreaFrom layout rounds byteAddr bytesRead scan result
    else pure result

/-- A round for each address and one to notice the end. -/
def readDataArea (layout : MemoryLayout) : Operation σ ε (List UInt8) :=
  readDataAreaFrom target build t layout (ADDRESS_SPACE_END + 1)
    (DATA_START_BLOCK.toNat * BLOCK_SIZE) 0
    .tag []

/-- Both passes over the data area, with checks. -/
def readDataAreaWithLayout (cc : CapabilityContainer) : Operation σ ε (List UInt8) := do
  let basicLayout ← orProtocol (fromCcAndTlvs build cc [])
  let dataArea ← readDataArea target build t basicLayout
  let tlvs ← orProtocol (parseTlvs target build dataArea)
  if cc.isDynamic && tlvs.any Tlv.isControl then
    let fullLayout ← orProtocol (fromCcAndTlvs build cc tlvs)
    readDataArea target build t fullLayout
  else return dataArea

/-- `read_ndef`, with every index, range, sum and loop of its callees checked. -/
def readNdef : Operation σ ε (List UInt8) := do
  let cc ← readCc build t
  ofProgram (refuseIf (cc.isValid = false) (.invalidMagic 0))
  let dataArea ← readDataAreaWithLayout target build t cc
  let tlvs ← orProtocol (parseTlvs target build dataArea)
  return (firstNdef tlvs).getD []

end

/-! ## Agreement -/

/-- A scanner that has value bytes to go never counts below zero. -/
theorem feed_ok (state : TlvScanState) (byte : UInt8) :
    TlvScanState.feed state byte = .ok (state.feed byte) := by
  cases state with
  | tag | length =>
    unfold TlvScanState.feed NfcForumTags.TlvScanState.feed
    dsimp only
    split
    · rfl
    · split <;> rfl
  | lengthExtMsb => rfl
  | lengthExtLsb msb =>
    have high := msb.toNat_lt
    have low := byte.toNat_lt
    have joined : msb.toNat * 2 ^ 8 ||| byte.toNat = msb.toNat * 256 + byte.toNat := by
      rw [Nat.mul_comm, ← Nat.two_pow_add_eq_or_of_lt (by omega), Nat.mul_comm]
    unfold TlvScanState.feed NfcForumTags.TlvScanState.feed
    dsimp only
    rw [shiftLeft_ok (by omega) (by omega)]
    simp only [bind, Except.bind, joined]
    split <;> rfl
  | value remaining =>
    unfold TlvScanState.feed NfcForumTags.TlvScanState.feed
    dsimp only
    split
    · rfl
    · rw [sub_ok (by omega)]
      rfl

/-- The positions of a page from one on. -/
theorem positions_cons {i : Nat} (inside : i < 4) :
    (List.finRange 4).drop i = ⟨i, inside⟩ :: (List.finRange 4).drop (i + 1) := by
  rw [List.drop_eq_getElem_cons (by simpa using inside)]
  simp

/-- Behind the last position of a page nothing is left. -/
theorem positions_nil {i : Nat} (outside : ¬ i < 4) : (List.finRange 4).drop i = [] :=
  List.drop_eq_nil_of_le (by simpa using outside)

/-- A round of the block loop never stops below the end of the 32-bit space.

Induction on the positions left. -/
theorem processBlock_agrees (build : Build) {layout : MemoryLayout} {byteAddr : Nat}
    (blockData : Vector UInt8 4) (i bytesRead : Nat) (scan : TlvScanState) (result : List UInt8)
    (size : layout.dataAreaSize ≤ U16_MAX) (room : byteAddr + 4 ≤ U32_MAX) :
    Agrees (processBlock build layout byteAddr blockData ((List.finRange 4).drop i)
      bytesRead scan result)
      (NfcForumTags.processBlock build layout byteAddr blockData i bytesRead scan result) := by
  fun_induction NfcForumTags.processBlock build layout byteAddr blockData i bytesRead
    scan result with
  | case1 i bytesRead scan result inside skipped inductionHypothesis =>
    rw [positions_cons inside, processBlock]
    refine Agrees.value (add_ok (by dsimp only; omega)) ?_
    rw [if_pos skipped]
    exact inductionHypothesis
  | case2 i bytesRead scan result inside usable full =>
    rw [positions_cons inside, processBlock]
    refine Agrees.value (add_ok (by dsimp only; omega)) ?_
    rw [if_neg usable, if_pos full]
    exact agrees_ok _
  | case3 i bytesRead scan result inside usable more inductionHypothesis =>
    rw [positions_cons inside, processBlock]
    refine Agrees.value (add_ok (by dsimp only; omega)) ?_
    rw [if_neg usable, if_neg more]
    refine (agrees_ofResult _).bind fun result pushed => ?_
    refine Agrees.value (add_ok (by omega)) (Agrees.value (feed_ok _ _) ?_)
    cases fed : scan.feed blockData[i] with
    | none => exact agrees_ok _
    | some next => exact inductionHypothesis result next
  | case4 i bytesRead scan result outside =>
    rw [positions_nil outside]
    exact agrees_ok _

section

variable {σ ε : Type} {target : Target} {build : Build} {t : Transceiver σ ε}
  {layout : MemoryLayout}

/-- A block of the cached READ result lies inside it. -/
theorem cachedBlock_ok (cacheData : Vector UInt8 16) {ahead : Nat} (near : ahead < 4) :
    cachedBlock target cacheData ahead = .ok (blockOf cacheData ahead near) := by
  have inside : ahead * 4 + 4 ≤ cacheData.toList.length := by
    rw [Vector.length_toList]
    omega
  have wide := target.wide
  unfold U32_MAX at wide
  refine Agrees.ok (Agrees.value (mul_ok (by simp only [BLOCK_SIZE_eq]; omega)) ?_)
  refine Agrees.value (add_ok (by simp only [BLOCK_SIZE_eq]; omega)) ?_
  refine (copyFromSlice_ok inside).trans (congrArg Except.ok ?_)
  ext i short
  simp [blockOf]

/-- The copy out of a fresh READ is in range. -/
theorem freshBlock_runs (block : UInt8) (m : Machine σ) :
    RunsAs (freshBlock build t block)
      (do let data ← NfcForumTags.read build t block; return firstBlock data) m := by
  refine (read_runs build t block m).bind fun data next _ => ?_
  have inside : 0 + 4 ≤ data.toList.length := by
    rw [Vector.length_toList]
    omega
  have first : (copyFromSlice 4 data.toList 0 BLOCK_SIZE : Except (Stop Type2Error)
      (Vector UInt8 4)) =
      .ok (firstBlock data) := by
    refine (copyFromSlice_ok inside).trans (congrArg Except.ok ?_)
    ext i short
    match i, short with
    | 0, _ | 1, _ | 2, _ | 3, _ => simp [firstBlock]
  rw [first]
  exact runsAs_pure _ next

/-- A block is read without a panic, cached or not.

Proof: a block served from the cache is at most three behind the first, so that its range
lies in the sixteen bytes kept. -/
theorem readBlock_runs (target : Target) (build : Build) (t : Transceiver σ ε) (block : UInt8)
    (m : Machine σ) : RunsAs (readBlock target build t block)
    (NfcForumTags.readBlock build t block) m := by
  refine RunsAs.get ?_
  dsimp only
  cases m.reader.cacheBlock with
  | none => exact freshBlock_runs block m
  | some cached =>
    dsimp only
    by_cases near : (block - cached).toNat < 4
    · rw [if_pos near, dif_pos near, cachedBlock_ok _ near]
      exact runsAs_pure _ m
    · rw [if_neg near, dif_neg near]
      exact freshBlock_runs block m

/-- The block loop runs as the plain one, given a round for each address that remains and
one more.

Induction on the walk over the blocks. -/
theorem readDataAreaFrom_runs (target : Target) (size : layout.dataAreaSize ≤ U16_MAX)
    (rounds byteAddr
    bytesRead : Nat) (scan : TlvScanState) (result : List UInt8) (m : Machine σ)
    (reached : byteAddr < ADDRESS_SPACE_END + 4)
    (enough : ADDRESS_SPACE_END + 4 ≤ byteAddr + rounds) :
    RunsAs (readDataAreaFrom target build t layout rounds byteAddr bytesRead scan result)
      (NfcForumTags.readDataAreaFrom build t layout byteAddr bytesRead scan result) m := by
  obtain ⟨more, rfl⟩ : ∃ more, rounds = more + 1 := Nat.exists_eq_succ_of_ne_zero (by omega)
  fun_induction NfcForumTags.readDataAreaFrom build t layout byteAddr bytesRead scan result
    generalizing more m with
  | case1 byteAddr bytesRead scan result unfinished outside =>
    rw [readDataAreaFrom, if_pos unfinished, outside]
    exact runsAs_throw _ m
  | case2 byteAddr bytesRead scan result unfinished sector block offset located
      inductionHypothesis =>
    obtain ⟨inside, -, -, -⟩ := MemoryLayout.addressToSectorBlock_some located
    simp only [ADDRESS_SPACE_END_eq, BLOCK_SIZE_eq] at inside reached enough inductionHypothesis
    rw [readDataAreaFrom, if_pos unfinished, located]
    refine RunsAs.after fun _ next _ => (switchSector_runs t sector next).bind fun _ next _ => ?_
    refine (readBlock_runs target build t block next).bind fun blockData next _ => ?_
    have processed := processBlock_agrees build blockData 0 bytesRead scan result size
      (show byteAddr + 4 ≤ U32_MAX by unfold U32_MAX; omega)
    refine (orProtocol_runs processed next).bind fun outcome next _ => ?_
    cases outcome with
    | stop result => exact runsAs_pure result next
    | next bytesRead scan result =>
      have step : byteAddr + BLOCK_SIZE ≤ U32_MAX := by
        simp only [U32_MAX, BLOCK_SIZE_eq]
        omega
      refine RunsAs.value (congrArg orProtocol (add_ok step)) ?_
      obtain ⟨left, rfl⟩ : ∃ left, more = left + 1 := Nat.exists_eq_succ_of_ne_zero (by omega)
      exact inductionHypothesis bytesRead scan result next (by omega) left (by omega)
  | case3 byteAddr bytesRead scan result full =>
    rw [readDataAreaFrom, if_neg full]
    exact runsAs_pure result m

/-- `read_data_area` neither panics nor hangs: each round raises the address, and the rounds
are as many as there are addresses. -/
theorem readDataArea_runs (target : Target) (size : layout.dataAreaSize ≤ U16_MAX) (m : Machine σ) :
    RunsAs (readDataArea target build t layout) (NfcForumTags.readDataArea build t layout) m :=
  readDataAreaFrom_runs target size _ _ 0 .tag [] m (by decide) (by decide)

/-- The size of a layout is that of its container. -/
theorem fromCcAndTlvs_dataAreaSize (build : Build) (cc : CapabilityContainer) (tlvs : List Tlv) :
    (MemoryLayout.fromCcAndTlvs build cc tlvs).dataAreaSize = cc.dataAreaSize := rfl

/-- The data area of a layout fits a 16-bit number, as it has one size byte. -/
theorem layout_size (build : Build) (cc : CapabilityContainer) (tlvs : List Tlv) :
    (MemoryLayout.fromCcAndTlvs build cc tlvs).dataAreaSize ≤ U16_MAX :=
  (fromCcAndTlvs_dataAreaSize build cc tlvs).trans_le (cc.dataAreaSize_le.trans (by decide))

/-- Neither do both passes.

Proof: what the first pass returns fits a `u16`, as the size of its layout does, so the
parser runs over it without a sum that wraps. -/
theorem readDataAreaWithLayout_runs (target : Target) (cc : CapabilityContainer) (m : Machine σ) :
    RunsAs (readDataAreaWithLayout target build t cc)
      (NfcForumTags.readDataAreaWithLayout build t cc) m := by
  refine RunsAs.value (congrArg orProtocol (fromCcAndTlvs_ok build cc (by simp))) ?_
  refine (readDataArea_runs target (layout_size build cc []) m).bind fun dataArea next run => ?_
  have addressable := ((readDataArea_counted _ m).returned run).trans (layout_size build cc [])
  refine (orProtocol_runs (parseTlvs_agrees build addressable) next).bind
    fun tlvs next' listing => ?_
  obtain ⟨parsed, rfl⟩ := orProtocol_ok listing
  refine RunsAs.ite (fun _ => ?_) fun _ => runsAs_pure dataArea next
  have read : ∀ tlv ∈ tlvs, tlv.FromBytes := fun tlv => (parseTlvs_sound parsed).fromBytes
  refine RunsAs.value (congrArg orProtocol (fromCcAndTlvs_ok build cc read)) ?_
  exact readDataArea_runs target (layout_size build cc tlvs) next

/-- Both passes return at most the data area. -/
theorem readDataAreaWithLayout_length {cc : CapabilityContainer} {data : List UInt8}
    {m next : Machine σ} (run : NfcForumTags.readDataAreaWithLayout build t cc m = .ok data next) :
      data.length ≤ U16_MAX := by
  have ensured : Ensures (NfcForumTags.readDataAreaWithLayout build t cc)
      (fun data _ => data.length ≤ U16_MAX) (fun _ _ => True) m := by
    refine (readDataArea_counted _ m).bind (fun _ _ _ => trivial) fun dataArea next few => ?_
    rw [ensures_bind, ensures_orProtocol]
    refine ⟨fun tlvs _ => ?_, fun _ _ => trivial⟩
    split
    · exact (readDataArea_counted _ next).mono (fun _ _ few =>
        few.trans (layout_size build cc tlvs))
        fun _ _ _ => trivial
    · exact few.trans (layout_size build cc [])
  exact ensured.returned run

/-- `read_ndef` neither panics nor hangs, over any transceiver and from any state. -/
theorem readNdef_runs (target : Target) (build : Build) (t : Transceiver σ ε) (m : Machine σ) :
    RunsAs (readNdef target build t) (NfcForumTags.readNdef build t) m := by
  refine (readCc_runs build t m).bind fun cc next _ => RunsAs.after fun _ next _ => ?_
  refine (readDataAreaWithLayout_runs target cc next).bind fun dataArea next run => ?_
  refine (orProtocol_runs (parseTlvs_agrees build (readDataAreaWithLayout_length run)) next).bind
    fun tlvs next _ => runsAs_pure _ next

end

end Checked

end NfcForumTags
