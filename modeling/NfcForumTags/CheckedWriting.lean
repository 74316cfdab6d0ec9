import NfcForumTags.CheckedReading
import NfcForumTags.NdefOffset
import NfcForumTags.RejectedWrite

/-!
# Writing with checked operations

`write_ndef` with every counter, address and index of the source as an operation that may
panic, and the page loop with a bound on its rounds. It runs as the plain operation does,
whatever the transceiver answers: the data area was read before, so that a plan that passed
its checks ends inside it. With this, none of the operations that a tag takes part in
panics or goes on for ever.
-/
namespace NfcForumTags

open Panic Program

namespace Checked

section

variable {σ ε : Type} (target : Target) (build : Build) (t : Transceiver σ ε)

/-- Whether no byte of the page is skipped, at the positions left. -/
def pageAllUsable (layout : MemoryLayout) (pageBase : Nat) : List Nat →
    Except (Stop Type2Error) Bool
  | [] => .ok true
  | i :: rest => do
    let addr ← add U32_MAX pageBase i
    if layout.isSkipArea addr then return false else pageAllUsable layout pageBase rest

/-- The condition of the fast path. -/
def pageCovered (data : List UInt8) (offset : UInt8) (di : Nat) (allUsable : Bool) :
    Except (Stop Type2Error) Bool :=
  if offset = 0 then do
    let left ← sub data.length di
    return decide (BLOCK_SIZE ≤ left) && allUsable
  else .ok false

/-- The four data bytes from `di` on. -/
def pageFrom (data : List UInt8) (di : Nat) : Except (Stop Type2Error) (Vector UInt8 4) :=
  indexEach target.usizeMax 4 data di

/-- The slow-path loop over the bytes of a page, at the positions left. -/
def fillPage (layout : MemoryLayout) (data : List UInt8) (limitAddr pageBase : Nat) :
    List (Fin 4) → PageFill → Except (Stop Type2Error) PageFill
  | [], fill => .ok fill
  | i :: rest, fill =>
    if data.length ≤ fill.di then .ok fill
    else do
      let a ← add U32_MAX pageBase i.val
      if limitAddr ≤ a then .error (.error .outOfRange)
      else if layout.isSkipArea a then fillPage layout data limitAddr pageBase rest fill
      else
        let byte ← index data fill.di
        let di ← add target.usizeMax fill.di 1
        fillPage layout data limitAddr pageBase rest ⟨fill.page.set i.val byte i.isLt, di, true⟩

/-- One round of `write_usable_bytes`, with the end of its page, its slices and its position
in the data checked. -/
def writePage (layout : MemoryLayout) (data : List UInt8) (limitAddr pageBase : Nat)
    (block offset : UInt8) (di : Nat) : Operation σ ε Nat := do
  let allUsable ← orProtocol (pageAllUsable layout pageBase (List.range BLOCK_SIZE))
  if ← orProtocol (pageCovered data offset di allUsable) then
    let pageEnd ← orProtocol (add U32_MAX pageBase BLOCK_SIZE)
    ofProgram (refuseIf (limitAddr < pageEnd) .outOfRange)
    let page ← orProtocol (pageFrom target data di)
    write t block page
    orProtocol (add target.usizeMax di BLOCK_SIZE)
  else
    let cur ← read build t block
    let fill ← orProtocol (fillPage target layout data limitAddr pageBase
      ((List.finRange 4).drop offset.toNat) ⟨firstBlock cur, di, false⟩)
    (if fill.touched then write t block fill.page else pure ())
    return fill.di

/-- The page loop of `write_usable_bytes`, of at most `rounds` rounds. -/
def writeUsableBytesFrom (layout : MemoryLayout) (data : List UInt8)
    (limitAddr rounds addr di : Nat) :
    Operation σ ε Unit :=
  match rounds with
  | 0 => throw .hang
  | rounds + 1 =>
    if di < data.length then
      if limitAddr ≤ addr then throw (.error (.protocol .outOfRange))
      else
        match MemoryLayout.addressToSectorBlock addr with
        | none => throw (.error (.protocol .outOfRange))
        | some (sector, block, offset) => do
          ofProgram (serve addr)
          switchSector t sector
          let pageBase ← orProtocol (sub addr offset.toNat)
          let di ← writePage target build t layout data limitAddr pageBase block offset di
          let addr ← orProtocol (add U32_MAX pageBase BLOCK_SIZE)
          writeUsableBytesFrom layout data limitAddr rounds addr di
    else pure ()

/-- A round for each address and one to notice the end. -/
def writeUsableBytes (layout : MemoryLayout) (startAddr : Nat) (data : List UInt8)
    (limitAddr : Nat) :
    Operation σ ε Unit :=
  writeUsableBytesFrom target build t layout data limitAddr (ADDRESS_SPACE_END + 1) startAddr 0

/-- The walk of `write_ndef` over the parsed blocks, with each sum of sizes checked against
`usize`. -/
def ndefTlvOffset : List Tlv → Nat → Except (Stop Type2Error) (Option Nat)
  | [], _ => .ok none
  | .ndefMessage _ :: _, offset => .ok (some offset)
  | .null :: rest, offset => do ndefTlvOffset rest (← add target.usizeMax offset 1)
  | .terminator :: _, _ => .ok none
  | .lockControl _ :: rest, offset => do ndefTlvOffset rest (← add target.usizeMax offset 5)
  | .memoryControl _ :: rest, offset => do ndefTlvOffset rest (← add target.usizeMax offset 5)
  | .proprietary data :: rest, offset => do
    let size ← add target.usizeMax (← add target.usizeMax 1 (lFieldSize data.length)) data.length
    ndefTlvOffset rest (← add target.usizeMax offset size)

/-- The chain of `checked_add` behind `required_end`. -/
def requiredEnd (ndefOffset len : Nat) : Option Nat := do
  let x ← checkedAdd target.usizeMax ndefOffset 1
  let x ← checkedAdd target.usizeMax x (lFieldSize len)
  let x ← checkedAdd target.usizeMax x len
  checkedAdd target.usizeMax x 1

/-- `ok_or(OutOfRange)`. -/
def orOutOfRange {α : Type} : Option α → Except (Stop Type2Error) α
  | some value => .ok value
  | none => .error (.error .outOfRange)

/-- The plan of `write_ndef`, over the checked walk and the checked sum of what it needs. -/
def planWrite (cc : CapabilityContainer) (tlvs : List Tlv) (ndefData : List UInt8) :
    Except (Stop Type2Error) WriteJob :=
  if 0xFFFE < ndefData.length then .error (.error .outOfRange)
  else do
    match ← ndefTlvOffset target tlvs 0 with
    | none => .error (.error .invalidTlv)
    | some ndefOffset =>
      let requiredEnd ← orOutOfRange (requiredEnd target ndefOffset ndefData.length)
      let dataAreaSize ← dataAreaSize cc
      if dataAreaSize < requiredEnd then .error (.error .outOfRange)
      else
        let layout ← fromCcAndTlvs build cc tlvs
        let ndefByteAddr ← orOutOfRange (← usableOffsetToAddress layout (asU16 ndefOffset))
        let lastAddr ← usableOffsetToAddress layout (← sub dataAreaSize 1)
        let writeLimitAddr ← orOutOfRange (lastAddr.bind fun a => checkedAdd U32_MAX a 1)
        let payload ← ofResult (buildPayload build ndefData)
        return {
          layout
          ndefOffset
          ndefByteAddr
          writeLimitAddr
          payload
          lengthField := realLengthField ndefData.length }

/-- What `write_ndef` does ahead of its first WRITE, with checks. -/
def prepareWrite (ndefData : List UInt8) : Operation σ ε WriteJob := do
  let cc ← readCc build t
  ofProgram (refuseIf (cc.isValid = false) (.invalidMagic 0))
  ofProgram (refuseIf (cc.writeAccess ≠ .granted) .readOnly)
  let dataArea ← readDataAreaWithLayout target build t cc
  let tlvs ← orProtocol (parseTlvs target build dataArea)
  orProtocol (planWrite target build cc tlvs ndefData)

/-- The two page loops of `write_ndef`, with checks. -/
def commitWrite (job : WriteJob) : Operation σ ε Unit := do
  writeUsableBytes target build t job.layout job.ndefByteAddr job.payload job.writeLimitAddr
  let lOffset ← orProtocol (add U16_MAX (asU16 job.ndefOffset) 1)
  let lAddr ← orProtocol (do orOutOfRange (← usableOffsetToAddress job.layout lOffset))
  writeUsableBytes target build t job.layout lAddr job.lengthField job.writeLimitAddr

/-- `write_ndef` with every index, range, sum and loop checked. -/
def writeNdef (ndefData : List UInt8) : Operation σ ε Unit := do
  let job ← prepareWrite target build t ndefData
  commitWrite target build t job

end

/-! ## Agreement -/

section

variable {σ ε : Type} {target : Target} {build : Build} {t : Transceiver σ ε}
  {layout : MemoryLayout}

/-- The test for a page without skipped bytes never stops below the end of the 32-bit space.

Induction on the positions left. -/
theorem pageAllUsable_ok {pageBase : Nat} (room : pageBase + BLOCK_SIZE ≤ U32_MAX)
    (positions : List Nat)
    (inside : ∀ i ∈ positions, i < BLOCK_SIZE) : pageAllUsable layout pageBase positions =
      .ok (positions.all fun i => !layout.isSkipArea (pageBase + i)) := by
  induction positions with
  | nil => rfl
  | cons i rest inductionHypothesis =>
    have first := inside i List.mem_cons_self
    have onward := inductionHypothesis fun j member => inside j (List.mem_cons_of_mem _ member)
    refine Agrees.ok (Agrees.value (add_ok (by omega)) ?_)
    cases skipped : layout.isSkipArea (pageBase + i) with
    | true =>
      rw [if_pos rfl, List.all_cons, skipped]
      exact agrees_ok _
    | false =>
      rw [if_neg Bool.false_ne_true, onward, List.all_cons, skipped]
      exact agrees_ok _

/-- What is left of the data is a difference that does not wrap. -/
theorem pageCovered_ok {data : List UInt8} {di : Nat} (offset : UInt8) (reached : di ≤ data.length)
    (allUsable : Bool) : pageCovered data offset di allUsable =
      .ok (decide ((offset = 0 ∧ BLOCK_SIZE ≤ data.length - di) ∧ allUsable)) := by
  unfold pageCovered
  by_cases first : offset = 0
  · rw [if_pos first, sub_ok reached]
    refine congrArg Except.ok (Bool.eq_iff_iff.mpr ?_)
    simp only [first, true_and, Bool.and_eq_true, decide_eq_true_iff]
  · rw [if_neg first]
    simp [first]

/-- Four bytes of the data from a position with four bytes left are a slice in range. -/
theorem pageFrom_ok {data : List UInt8} {di : Nat} (addressable : data.length ≤ U32_MAX)
    (room : BLOCK_SIZE ≤ data.length - di) :
    pageFrom target data di = .ok (NfcForumTags.pageFrom data di room) := by
  have enough := room
  rw [BLOCK_SIZE_eq] at enough
  have inside : di + 4 ≤ data.length := by omega
  refine (indexEach_ok (addressable.trans target.wide) inside).trans (congrArg Except.ok ?_)
  unfold NfcForumTags.pageFrom
  ext i short
  obtain rfl | rfl | rfl | rfl : i = 0 ∨ i = 1 ∨ i = 2 ∨ i = 3 := by omega
  all_goals rw [Vector.getElem_ofFn]; rfl

/-- Neither does filling a page byte by byte.

Induction on the positions left. -/
theorem fillPage_ok {data : List UInt8} {limitAddr pageBase i : Nat} {fill : PageFill}
    (addressable : data.length ≤ U32_MAX) (room : pageBase + BLOCK_SIZE ≤ U32_MAX) :
    fillPage target layout data limitAddr pageBase ((List.finRange 4).drop i) fill =
      orOutOfRange (NfcForumTags.fillPage layout data limitAddr pageBase i fill) := by
  rw [BLOCK_SIZE_eq] at room
  fun_induction NfcForumTags.fillPage layout data limitAddr pageBase i fill with
  | case1 i fill inside more beyond =>
    rw [positions_cons inside, fillPage, if_neg (by omega), add_ok (by dsimp only; omega)]
    exact if_pos beyond
  | case2 i fill inside more below skipped inductionHypothesis =>
    rw [positions_cons inside, fillPage, if_neg (by omega), add_ok (by dsimp only; omega)]
    exact (if_neg below).trans ((if_pos skipped).trans inductionHypothesis)
  | case3 i fill inside more below usable inductionHypothesis =>
    rw [positions_cons inside, fillPage, if_neg (by omega), add_ok (by dsimp only; omega)]
    refine (if_neg below).trans ((if_neg usable).trans ?_)
    rw [index_ok more]
    change (add target.usizeMax fill.di 1 >>= _) = _
    rw [add_usize (by omega)]
    exact inductionHypothesis
  | case4 i fill inside done =>
    rw [positions_cons inside, fillPage, if_pos (by omega)]
    rfl
  | case5 i fill outside =>
    rw [positions_nil outside]
    rfl

/-- A round of the page loop never stops below the end of the address space.

Proof: the page ends inside the 32-bit space, and the position in the data never passes its
length. -/
theorem writePage_runs (target : Target) {data : List UInt8} {limitAddr pageBase di : Nat}
    (block offset : UInt8) (addressable : data.length ≤ U32_MAX)
    (room : pageBase + BLOCK_SIZE ≤ U32_MAX) (reached : di ≤ data.length) (m : Machine σ) :
    RunsAs (writePage target build t layout data limitAddr pageBase block offset di)
      (NfcForumTags.writePage build t layout data limitAddr pageBase block offset di) m := by
  have usable : pageAllUsable layout pageBase (List.range BLOCK_SIZE) =
      .ok (NfcForumTags.pageAllUsable layout pageBase) := pageAllUsable_ok room _ (by simp)
  refine RunsAs.value (congrArg orProtocol usable) ?_
  refine RunsAs.value (congrArg orProtocol (pageCovered_ok offset reached _)) ?_
  unfold NfcForumTags.writePage
  by_cases covered : (offset = 0 ∧ BLOCK_SIZE ≤ data.length - di) ∧
      NfcForumTags.pageAllUsable layout pageBase
  · rw [if_pos (decide_eq_true covered), dif_pos covered]
    refine RunsAs.value (congrArg orProtocol (add_ok room)) (RunsAs.after fun _ next _ => ?_)
    refine RunsAs.value (congrArg orProtocol (pageFrom_ok addressable covered.1.2)) ?_
    refine (write_runs t block _ next).bind fun _ next _ => ?_
    have rest := covered.1.2
    rw [BLOCK_SIZE_eq] at rest
    rw [BLOCK_SIZE_eq, add_usize (by omega)]
    exact runsAs_pure _ next
  · rw [if_neg fun taken => covered (of_decide_eq_true taken), dif_neg covered]
    refine (read_runs build t block m).bind fun cur next _ => ?_
    rw [fillPage_ok addressable room]
    cases NfcForumTags.fillPage layout data limitAddr pageBase offset.toNat
      ⟨firstBlock cur, di, false⟩ with
    | none => exact runsAs_throw _ next
    | some fill =>
      change RunsAs ((if fill.touched then write t block fill.page else pure ()) >>= _) _ next
      refine RunsAs.bind (RunsAs.ite (fun _ => write_runs t block _ next) fun _ =>
        runsAs_pure () next) ?_
      exact fun _ next _ => runsAs_pure _ next

/-- The page loop runs as the plain one, given a round for each address that remains and
one more.

Induction on the walk over the pages. -/
theorem writeUsableBytesFrom_runs (target : Target) {data : List UInt8}
    (limitAddr rounds addr di : Nat)
    (addressable : data.length ≤ U32_MAX) (m : Machine σ) (reached : addr < ADDRESS_SPACE_END + 4)
    (enough : ADDRESS_SPACE_END + 4 ≤ addr + rounds) :
    RunsAs (writeUsableBytesFrom target build t layout data limitAddr rounds addr di)
      (NfcForumTags.writeUsableBytesFrom build t layout data limitAddr addr di) m := by
  obtain ⟨more, rfl⟩ : ∃ more, rounds = more + 1 := Nat.exists_eq_succ_of_ne_zero (by omega)
  fun_induction NfcForumTags.writeUsableBytesFrom build t layout data limitAddr addr di
    generalizing more m with
  | case1 addr di unfinished beyond =>
    rw [writeUsableBytesFrom, if_pos unfinished, if_pos beyond]
    exact runsAs_throw _ m
  | case2 addr di unfinished below outside =>
    rw [writeUsableBytesFrom, if_pos unfinished, if_neg below, outside]
    exact runsAs_throw _ m
  | case3 addr di unfinished below sector block offset located inductionHypothesis =>
    obtain ⟨inside, -, -, position⟩ := MemoryLayout.addressToSectorBlock_some located
    simp only [ADDRESS_SPACE_END_eq] at inside reached enough
    have room : addr - offset.toNat + BLOCK_SIZE ≤ U32_MAX := by
      simp only [U32_MAX, BLOCK_SIZE_eq]
      omega
    rw [writeUsableBytesFrom, if_pos unfinished, if_neg below, located]
    refine RunsAs.after fun _ next _ => (switchSector_runs t sector next).bind fun _ next _ => ?_
    refine RunsAs.value (congrArg orProtocol (sub_ok (by omega))) ?_
    refine (writePage_runs target block offset addressable room (Nat.le_of_lt unfinished) next).bind
      fun di next _ => ?_
    refine RunsAs.value (congrArg orProtocol (add_ok room)) ?_
    obtain ⟨left, rfl⟩ : ∃ left, more = left + 1 := Nat.exists_eq_succ_of_ne_zero (by omega)
    simp only [ADDRESS_SPACE_END_eq, BLOCK_SIZE_eq] at inductionHypothesis ⊢
    exact inductionHypothesis di next (by omega) left (by omega)
  | case4 addr di done =>
    rw [writeUsableBytesFrom, if_neg done]
    exact runsAs_pure () m

/-- `write_usable_bytes` never stops: its rounds are bounded by the address space. -/
theorem writeUsableBytes_runs (target : Target) {data : List UInt8} {startAddr : Nat}
    (limitAddr : Nat) (addressable : data.length ≤ U32_MAX) (positive : 4 ≤ startAddr)
    (inside : startAddr < ADDRESS_SPACE_END) (m : Machine σ) :
    RunsAs (writeUsableBytes target build t layout startAddr data limitAddr)
      (NfcForumTags.writeUsableBytes build t layout startAddr data limitAddr) m :=
  writeUsableBytesFrom_runs target limitAddr _ startAddr 0 addressable m (by omega) (by omega)

/-- The walk over the blocks adds up to an offset that fits.

Induction on the blocks. -/
theorem ndefTlvOffset_ok {tlvs : List Tlv} {offset : Nat}
    (room : offset + (tlvs.map Tlv.walkSize).sum ≤ U32_MAX) :
    ndefTlvOffset target tlvs offset = .ok (NfcForumTags.ndefTlvOffset tlvs offset) := by
  induction tlvs generalizing offset with
  | nil => rfl
  | cons tlv rest inductionHypothesis =>
    rw [List.map_cons, List.sum_cons] at room
    cases tlv with
    | ndefMessage data | terminator => rfl
    | null | lockControl _ | memoryControl _ =>
      simp only [Tlv.walkSize] at room
      refine Agrees.ok (Agrees.value (add_usize (by omega)) ?_)
      exact inductionHypothesis (by omega)
    | proprietary data =>
      simp only [Tlv.walkSize] at room
      refine Agrees.ok (Agrees.value (add_usize (by omega))
        (Agrees.value (add_usize (by omega)) ?_))
      exact Agrees.value (add_usize (by omega)) (inductionHypothesis (by omega))

/-- The end of what a message needs fits a `usize` of any target. -/
theorem requiredEnd_some {ndefOffset len : Nat} (offset : ndefOffset ≤ U16_MAX)
    (encodable : len ≤ U16_MAX) :
    requiredEnd target ndefOffset len = some (ndefOffset + 1 + lFieldSize len + len + 1) := by
  have wide := target.wide
  have field := lFieldSize_le len
  unfold U32_MAX at wide
  unfold U16_MAX at offset encodable
  have tag : ndefOffset + 1 ≤ target.usizeMax := by omega
  have length : ndefOffset + 1 + lFieldSize len ≤ target.usizeMax := by omega
  have value : ndefOffset + 1 + lFieldSize len + len ≤ target.usizeMax := by omega
  have terminator : ndefOffset + 1 + lFieldSize len + len + 1 ≤ target.usizeMax := by omega
  simp only [requiredEnd, checkedAdd_some tag, checkedAdd_some length, checkedAdd_some value,
    checkedAdd_some terminator, Option.bind_eq_bind, Option.bind_some]

/-- The plan never stops on blocks that were parsed from a data area. -/
theorem planWrite_agrees (target : Target) (build : Build) (cc : CapabilityContainer)
    {tlvs : List Tlv} (ndefData : List UInt8) (read : ∀ tlv ∈ tlvs, tlv.FromBytes)
    (room : (tlvs.map Tlv.walkSize).sum ≤ U16_MAX) :
    Agrees (planWrite target build cc tlvs ndefData)
      (NfcForumTags.planWrite build cc tlvs ndefData) := by
  unfold planWrite NfcForumTags.planWrite
  refine Agrees.ite (fun _ => agrees_error _) fun short => ?_
  refine Agrees.value (ndefTlvOffset_ok (by unfold U32_MAX; unfold U16_MAX at room; omega)) ?_
  cases walked : NfcForumTags.ndefTlvOffset tlvs 0 with
  | none => exact agrees_error _
  | some ndefOffset =>
    have offset : ndefOffset ≤ U16_MAX := (ndefTlvOffset_le walked).trans (by omega)
    have encodable : ndefData.length ≤ U16_MAX := by
      unfold U16_MAX
      omega
    dsimp only
    rw [requiredEnd_some offset encodable]
    refine Agrees.value rfl (Agrees.value (dataAreaSize_ok cc) ?_)
    refine Agrees.ite (fun _ => agrees_error _) fun fits => ?_
    refine Agrees.value (fromCcAndTlvs_ok build cc read) ?_
    refine Agrees.value (usableOffsetToAddress_ok _ _) ?_
    cases (MemoryLayout.fromCcAndTlvs build cc tlvs).usableOffsetToAddress (asU16 ndefOffset) with
    | none => exact agrees_error _
    | some ndefByteAddr =>
      refine Agrees.value rfl (Agrees.value (sub_ok (by omega)) ?_)
      refine Agrees.value (usableOffsetToAddress_ok _ _) ?_
      cases last : (MemoryLayout.fromCcAndTlvs build cc tlvs).usableOffsetToAddress
        (cc.dataAreaSize - 1) with
      | none => exact agrees_error _
      | some lastAddr =>
        obtain ⟨-, inside, -⟩ := MemoryLayout.usableOffsetToAddress_some last
        simp only [ADDRESS_SPACE_END_eq] at inside
        rw [Option.bind_some, checkedAdd_some (by unfold U32_MAX; omega)]
        exact Agrees.value rfl ((agrees_ofResult _).bind fun payload _ => agrees_ok _)

/-- Nothing ahead of the first WRITE stops.

Proof: what was read fits a `u16`, so it is parsed and walked over without a sum that wraps. -/
theorem prepareWrite_runs (target : Target) (build : Build) (t : Transceiver σ ε)
    (ndefData : List UInt8) (m : Machine σ) :
    RunsAs (prepareWrite target build t ndefData)
      (NfcForumTags.prepareWrite build t ndefData) m := by
  refine (readCc_runs build t m).bind fun cc _ _ => RunsAs.after fun _ _ _ =>
    RunsAs.after fun _ next _ => ?_
  refine (readDataAreaWithLayout_runs target cc next).bind fun dataArea next run => ?_
  have addressable := readDataAreaWithLayout_length run
  refine (orProtocol_runs (parseTlvs_agrees build addressable) next).bind
    fun tlvs next' listing => ?_
  obtain ⟨parsed, rfl⟩ := orProtocol_ok listing
  have stream := parseTlvs_sound parsed
  exact orProtocol_runs (planWrite_agrees target build cc ndefData (fun tlv => stream.fromBytes)
    (stream.walkSize_le.trans addressable)) next

/-- A planned job writes at addresses of the address space. -/
theorem commitWrite_runs (target : Target) (t : Transceiver σ ε) {job : WriteJob}
    {cc : CapabilityContainer}
    {tlvs : List Tlv} {ndefData : List UInt8} (plan : job.Planned build cc tlvs ndefData)
    (m : Machine σ) :
    RunsAs (commitWrite target build t job) (NfcForumTags.commitWrite build t job) m := by
  have size := cc.dataAreaSize_le
  have fits := plan.fits
  have payload := plan.payload_length
  have lengthSize : job.lengthField.length = lFieldSize ndefData.length := by
    rw [plan.lengthField, length_realLengthField]
  have offset : asU16 job.ndefOffset + 1 ≤ U16_MAX := by
    rw [asU16, Nat.mod_eq_of_lt (by omega)]
    unfold U16_MAX
    omega
  obtain ⟨first, inside, -⟩ := MemoryLayout.mem_usableFrom.mp (List.mem_of_getElem? plan.address)
  obtain ⟨lAddr, found, -, -⟩ := plan.length_room
  obtain ⟨later, inside', -⟩ := MemoryLayout.usableOffsetToAddress_some found
  refine (writeUsableBytes_runs target job.writeLimitAddr (by unfold U32_MAX; omega)
    (by omega) inside
    m).bind fun _ next _ => ?_
  refine RunsAs.value (congrArg orProtocol (add_ok offset)) ?_
  rw [usableOffsetToAddress_ok, found]
  have short := lFieldSize_le ndefData.length
  exact writeUsableBytes_runs target job.writeLimitAddr (by unfold U32_MAX; omega)
    (by omega) inside' next

/-- `write_ndef` never stops: not while it reads, not in its plan and not in its page loops. -/
theorem writeNdef_runs (target : Target) (build : Build) (t : Transceiver σ ε)
    (ndefData : List UInt8) (m : Machine σ) :
    RunsAs (writeNdef target build t ndefData) (NfcForumTags.writeNdef build t ndefData) m := by
  refine (prepareWrite_runs target build t ndefData m).bind fun job next prepares => ?_
  obtain ⟨cc, tlvs, plans⟩ := prepareWrite_planned prepares
  exact commitWrite_runs target t (planWrite_ok plans) next

end

end Checked

/-! ## No operation panics -/

variable {σ ε : Type}

/-- Whatever the transceiver answers, from any state of the reader, with any number of
retries and for any message, every operation that exchanges data with the tag returns a
value or an error: none panics, and no loop goes on for ever.

Proof: each checked operation runs as the plain one, from any state; the plain ones are
total functions. -/
theorem neverPanics (target : Target) (build : Build) (t : Transceiver σ ε) (m : Machine σ) :
    Returns (Checked.readCc build t) m ∧ Returns (Checked.readNdef target build t) m ∧
    (∀ ndefData, Returns (Checked.writeNdef target build t ndefData) m) ∧
    ∀ cc data tlvs, parseTlvs build data = .ok tlvs →
      Returns (do
        let layout ← Checked.orProtocol (Checked.fromCcAndTlvs build cc tlvs)
        Checked.readDataArea target build t layout) m := by
  refine ⟨(Checked.readCc_runs build t m).returns, (Checked.readNdef_runs target build t m).returns,
    fun ndefData => (Checked.writeNdef_runs target build t ndefData m).returns,
    fun cc data tlvs parsed => ?_⟩
  have built := Checked.fromCcAndTlvs_ok build cc fun tlv => (parseTlvs_sound parsed).fromBytes
  have reads : RunsAs (Checked.readDataArea target build t (.fromCcAndTlvs build cc tlvs))
      (readDataArea build t (.fromCcAndTlvs build cc tlvs)) m :=
    Checked.readDataArea_runs target (Checked.layout_size build cc tlvs) m
  exact (RunsAs.value (congrArg Checked.orProtocol built) reads).returns

/-- A transceiver that gives out the frames of a script, whatever is sent. -/
def scripted : Transceiver (List (List UInt8)) Unit where
  transceive _ script :=
    match script with
    | [] => (.error (), [])
    | raw :: rest => (.ok raw, rest)
  transceiveNoResponse _ script := (.ok none, script)

/-- A target with 64-bit addresses. -/
def target64 : Target := ⟨2 ^ 64 - 1, by decide⟩

/-- A reserved area far up in the address space, and a tag that answers with a frame of
zero bytes and one of 99. -/
theorem neverPanics_scripted :
    parseTlvs .heapless [0x02, 0x03, 0x7F, 0x00, 0x0F] = .ok [.memoryControl ⟨7, 15, 256, 15⟩] ∧
      Returns (do
        let layout ← Checked.orProtocol
          (Checked.fromCcAndTlvs .heapless staticCc [.memoryControl ⟨7, 15, 256, 15⟩])
        Checked.readDataArea target64 .heapless scripted layout)
        (.fresh [List.replicate 16 0xFD, [], List.replicate 99 0xFF]) := by
  have parsed : parseTlvs .heapless [0x02, 0x03, 0x7F, 0x00, 0x0F] =
      .ok [.memoryControl ⟨7, 15, 256, 15⟩] := by decide +kernel
  exact ⟨parsed, (neverPanics target64 .heapless scripted _).2.2.2 staticCc _ _ parsed⟩

end NfcForumTags
