import Mathlib.Tactic.IntervalCases
import NfcForumTags.DataAreaBytes

/-!
# Reading and writing through one map

The reading loop with the address of each byte kept beside it: leaving the addresses
out gives `read_data_area_with_layout`, and they are the first usable addresses of the
layout of its last pass. The writer maps offsets through a layout of the blocks it
found in these bytes. The two layouts need not be the same: the reader skips no area on
a static tag, and on a dynamic tag the areas of the control TLVs that its first pass saw.
-/
namespace NfcForumTags

open Program Enumeration

/-! ## Reading with addresses -/

/-- Where the bytes of a block leave the reading loop, each byte with its address. -/
inductive SourcedOutcome where
  | stop (result : List (Nat × UInt8))
  | next (bytesRead : Nat) (scan : TlvScanState) (result : List (Nat × UInt8))

/-- Without the addresses. -/
def SourcedOutcome.bytes : SourcedOutcome → BlockOutcome
  | .stop result => .stop (result.map Prod.snd)
  | .next bytesRead scan result => .next bytesRead scan (result.map Prod.snd)

/-- `processBlock` with addresses. -/
def processBlockSourced (build : Build) (layout : MemoryLayout) (byteAddr : Nat)
    (blockData : Vector UInt8 4) (i bytesRead : Nat) (scan : TlvScanState)
    (result : List (Nat × UInt8)) : Except Type2Error SourcedOutcome :=
  if inside : i < 4 then
    if layout.isSkipArea (byteAddr + i) then
      processBlockSourced build layout byteAddr blockData (i + 1) bytesRead scan result
    else if layout.dataAreaSize ≤ bytesRead then .ok (.stop result)
    else do
      let result ← tryPush build.dataCapacity result (byteAddr + i, blockData[i])
      match scan.feed blockData[i] with
      | none => .ok (.stop result)
      | some scan =>
        processBlockSourced build layout byteAddr blockData (i + 1) (bytesRead + 1) scan result
  else .ok (.next bytesRead scan result)
termination_by 4 - i

section

variable {σ ε : Type} (build : Build) (t : Transceiver σ ε)

/-- `readDataAreaFrom` with addresses. -/
def readDataAreaSourcedFrom (layout : MemoryLayout) (byteAddr bytesRead : Nat) (scan : TlvScanState)
    (result : List (Nat × UInt8)) : Operation σ ε (List (Nat × UInt8)) :=
  if bytesRead < layout.dataAreaSize then
    match _located : MemoryLayout.addressToSectorBlock byteAddr with
    | none => throw (.protocol .outOfRange)
    | some (sector, block, _) => do
      serve byteAddr
      switchSector t sector
      let blockData ← readBlock build t block
      match ← orProtocol (processBlockSourced build layout byteAddr blockData 0 bytesRead
        scan result) with
      | .stop result => pure result
      | .next bytesRead scan result =>
        readDataAreaSourcedFrom layout (byteAddr + BLOCK_SIZE) bytesRead scan result
  else pure result
termination_by ADDRESS_SPACE_END - byteAddr
decreasing_by exact MemoryLayout.nextBlock_closer _located

/-- `readDataArea` with addresses. -/
def readDataAreaSourced (layout : MemoryLayout) : Operation σ ε (List (Nat × UInt8)) :=
  readDataAreaSourcedFrom build t layout (DATA_START_BLOCK.toNat * BLOCK_SIZE) 0 .tag []

/-- `readDataAreaWithLayout` with addresses. -/
def readDataAreaWithLayoutSourced (cc : CapabilityContainer) :
    Operation σ ε (List (Nat × UInt8)) := do
  let dataArea ← readDataAreaSourced build t (MemoryLayout.fromCcAndTlvs build cc [])
  let tlvs ← orProtocol (parseTlvs build (dataArea.map Prod.snd))
  if cc.isDynamic && tlvs.any Tlv.isControl then
    readDataAreaSourced build t (MemoryLayout.fromCcAndTlvs build cc tlvs)
  else return dataArea

end

/-! ## Leaving the addresses out -/

/-- Pushing is by count alone. -/
theorem tryPush_map {α β : Type} (capacity : Option Nat) (f : α → β) (vec : List α) (val : α) :
    (tryPush capacity vec val).map (List.map f) = tryPush capacity (vec.map f) (f val) := by
  unfold tryPush
  rw [List.length_map]
  split
  · change Except.ok ((vec ++ [val]).map f) = _
    rw [List.map_append]
    rfl
  · rfl

/-- The bytes of a sourced round are those of the round of the source.

Induction on the bytes left in the block. -/
theorem processBlockSourced_bytes (build : Build) (layout : MemoryLayout) (byteAddr : Nat)
    (blockData : Vector UInt8 4) (i bytesRead : Nat) (scan : TlvScanState)
    (result : List (Nat × UInt8)) :
    (processBlockSourced build layout byteAddr blockData i bytesRead scan result).map
        SourcedOutcome.bytes =
      processBlock build layout byteAddr blockData i bytesRead scan (result.map Prod.snd) := by
  fun_induction processBlockSourced build layout byteAddr blockData i bytesRead scan result with
  | case1 i bytesRead scan result short skipped inductionHypothesis =>
    rw [processBlock, dif_pos short, if_pos skipped]
    exact inductionHypothesis
  | case2 i bytesRead scan result short usable full =>
    rw [processBlock, dif_pos short, if_neg usable, if_pos full]
    rfl
  | case3 i bytesRead scan result short usable more inductionHypothesis =>
    rw [processBlock, dif_pos short, if_neg usable, if_neg more,
      ← tryPush_map build.dataCapacity Prod.snd result (byteAddr + i, blockData[i])]
    cases tryPush build.dataCapacity result (byteAddr + i, blockData[i]) with
    | error error => rfl
    | ok extended =>
      simp only [bind, Except.bind, Except.map]
      cases scan.feed blockData[i] with
      | none => rfl
      | some scan => exact inductionHypothesis extended scan
  | case4 i bytesRead scan result done =>
    rw [processBlock, dif_neg done]
    rfl

section

variable {σ ε : Type}

/-- Computing on a result before or after it is checked. -/
theorem orProtocol_map {α β : Type} (f : α → β) (result : Except Type2Error α) :
    (orProtocol (result.map f) : Operation σ ε β) = f <$> orProtocol result := by
  cases result with
  | ok value =>
    rw [show (Except.ok value).map f = .ok (f value) from rfl, orProtocol, orProtocol, map_pure]
  | error error => rfl

variable (build : Build) (t : Transceiver σ ε)

/-- The bytes of the sourced walk are those of `read_data_area`, from the same state and
with the same exchanges.

Induction on the walk over the blocks. -/
theorem readDataAreaSourcedFrom_bytes (layout : MemoryLayout) (byteAddr bytesRead : Nat)
    (scan : TlvScanState) (result : List (Nat × UInt8)) :
    List.map Prod.snd <$> readDataAreaSourcedFrom build t layout byteAddr bytesRead scan result =
      readDataAreaFrom build t layout byteAddr bytesRead scan (result.map Prod.snd) := by
  fun_induction readDataAreaSourcedFrom build t layout byteAddr bytesRead scan result with
  | case1 byteAddr bytesRead scan result more outside =>
    rw [readDataAreaFrom, if_pos more]
    split
    · rfl
    · next located =>
      rw [outside] at located
      cases located
  | case2 byteAddr bytesRead scan result more sector block offset located inductionHypothesis =>
    rw [readDataAreaFrom, if_pos more]
    split
    · next outside =>
      rw [located] at outside
      cases outside
    · next sector' block' offset' located' =>
      rw [located] at located'
      obtain ⟨rfl, rfl, rfl⟩ : sector = sector' ∧ block = block' ∧ offset = offset' := by
        simpa using located'
      simp only [map_bind, ← processBlockSourced_bytes, orProtocol_map, bind_map_left]
      refine bind_congr fun _ => bind_congr fun _ => bind_congr fun blockData =>
        bind_congr fun outcome => ?_
      cases outcome with
      | stop result => rfl
      | next bytesRead scan result => exact inductionHypothesis bytesRead scan result
  | case3 byteAddr bytesRead scan result full =>
    rw [readDataAreaFrom, if_neg full, map_pure]

/-- Without the addresses, one pass with addresses is `readDataArea`. -/
theorem map_readDataAreaSourced (layout : MemoryLayout) :
    List.map Prod.snd <$> readDataAreaSourced build t layout = readDataArea build t layout :=
  readDataAreaSourcedFrom_bytes build t layout _ 0 .tag []

/-- Without the addresses, reading with addresses is reading. -/
theorem readDataAreaWithLayoutSourced_bytes (cc : CapabilityContainer) :
    List.map Prod.snd <$> readDataAreaWithLayoutSourced build t cc =
      readDataAreaWithLayout build t cc := by
  unfold readDataAreaWithLayoutSourced readDataAreaWithLayout
  simp only [map_bind, ← map_readDataAreaSourced, bind_map_left]
  refine bind_congr fun dataArea => bind_congr fun tlvs => ?_
  split
  · rfl
  · rw [map_pure]

/-- Bytes that are read with their addresses are what is read without, from the same state
and with the same exchanges. -/
theorem readDataAreaWithLayoutSourced_erased {cc : CapabilityContainer}
    {sourced : List (Nat × UInt8)} {m next : Machine σ}
    (read : readDataAreaWithLayoutSourced build t cc m = .ok sourced next) :
    readDataAreaWithLayout build t cc m = .ok (sourced.map Prod.snd) next := by
  rw [← readDataAreaWithLayoutSourced_bytes]
  exact run_map_ok _ read

end

/-! ## The addresses -/

/-- What a block adds to these addresses is the beginning of these usable ones, and all
of them up to the next block when the loop goes on there. -/
def SourcedOutcome.Extends (addresses usable onward : List Nat) : SourcedOutcome → Prop
  | .stop result => ∃ read, result.map Prod.fst = addresses ++ read ∧ read <+: usable
  | .next _ _ result => ∃ read, result.map Prod.fst = addresses ++ read ∧ usable = read ++ onward

/-- A sourced round lists usable addresses of its block, in order and without a gap.

Induction on the bytes left in the block. -/
theorem processBlockSourced_addresses (build : Build) (layout : MemoryLayout) {byteAddr : Nat}
    (inside : byteAddr + 4 ≤ ADDRESS_SPACE_END) (blockData : Vector UInt8 4) (i bytesRead : Nat)
    (scan : TlvScanState) (result : List (Nat × UInt8)) (position : i ≤ 4) {left : SourcedOutcome}
    (processed : processBlockSourced build layout byteAddr blockData i bytesRead scan result =
      .ok left) :
    left.Extends (result.map Prod.fst) (layout.usableFrom (byteAddr + i))
      (layout.usableFrom (byteAddr + 4)) := by
  fun_induction processBlockSourced build layout byteAddr blockData i bytesRead scan result with
  | case1 i bytesRead scan result short skipped inductionHypothesis =>
    rw [MemoryLayout.usableFrom_skip skipped]
    exact inductionHypothesis (by omega) processed
  | case2 i bytesRead scan result short usable full =>
    obtain rfl := Except.ok.inj processed
    exact ⟨[], by simp, List.nil_prefix⟩
  | case3 i bytesRead scan result short usable more inductionHypothesis =>
    have cons : layout.usableFrom (byteAddr + i) =
        (byteAddr + i) :: layout.usableFrom (byteAddr + i + 1) :=
      MemoryLayout.usableFrom_cons (by omega) (Bool.eq_false_iff.mpr usable)
    obtain ⟨extended, pushed, processed⟩ := ok_of_bind processed
    have addresses : extended.map Prod.fst = result.map Prod.fst ++ [byteAddr + i] := by
      rw [tryPush_ok pushed, List.map_append]
      rfl
    rw [cons]
    split at processed
    · obtain rfl := Except.ok.inj processed
      exact ⟨[byteAddr + i], addresses, _, rfl⟩
    · next scan fed =>
      have onward := inductionHypothesis extended scan (by omega) processed
      rw [addresses] at onward
      cases left with
      | stop result =>
        obtain ⟨read, shape, rest, usable⟩ := onward
        exact ⟨(byteAddr + i) :: read, by rw [shape, List.append_assoc]; rfl, rest,
          congrArg _ usable⟩
      | next bytesRead scan result =>
        obtain ⟨read, shape, usable⟩ := onward
        exact ⟨(byteAddr + i) :: read, by rw [shape, List.append_assoc]; rfl, congrArg _ usable⟩
  | case4 i bytesRead scan result done =>
    obtain rfl := Except.ok.inj processed
    obtain rfl : i = 4 := by omega
    exact ⟨[], by simp, rfl⟩

section

variable {σ ε : Type} (build : Build) (t : Transceiver σ ε)

/-- The bytes read come from the first usable addresses, whatever the transceiver does.

Induction on the walk over the blocks. -/
theorem readDataAreaSourcedFrom_addresses (layout : MemoryLayout) (byteAddr bytesRead : Nat)
    (scan : TlvScanState) (result : List (Nat × UInt8)) (aligned : byteAddr % 4 = 0)
    (m : Machine σ) :
    Ensures (readDataAreaSourcedFrom build t layout byteAddr bytesRead scan result)
      (fun sourced _ => ∃ read, sourced.map Prod.fst = result.map Prod.fst ++ read ∧
        read <+: layout.usableFrom byteAddr) (fun _ _ => True) m := by
  fun_induction readDataAreaSourcedFrom build t layout byteAddr bytesRead scan
    result generalizing m with
  | case1 byteAddr bytesRead scan result more outside => trivial
  | case2 byteAddr bytesRead scan result more sector block offset located inductionHypothesis =>
    obtain ⟨inside, -, -, -⟩ := MemoryLayout.addressToSectorBlock_some located
    simp only [ensures_bind]
    refine ensures_always (fun _ _ => ?_) fun _ _ => trivial
    refine ensures_always (fun _ _ => ?_) fun _ _ => trivial
    refine ensures_always (fun blockData _ => ?_) fun _ _ => trivial
    rw [ensures_orProtocol]
    refine ⟨fun left processed => ?_, fun _ _ => trivial⟩
    simp only [ADDRESS_SPACE_END_eq] at inside
    have added := processBlockSourced_addresses build layout
      (show byteAddr + 4 ≤ ADDRESS_SPACE_END by simp only [ADDRESS_SPACE_END_eq]; omega)
      blockData 0 bytesRead scan result (by omega) processed
    rw [Nat.add_zero] at added
    cases left with
    | stop result => exact added
    | next bytesRead scan result =>
      obtain ⟨read, shape, usable⟩ := added
      refine (inductionHypothesis bytesRead scan result
        (by simp only [BLOCK_SIZE_eq]; omega) _).mono
        ?_ (fun _ _ left => left)
      rintro sourced - ⟨later, whole, rest, tail⟩
      refine ⟨read ++ later, by rw [whole, shape, List.append_assoc], rest, ?_⟩
      rw [usable, List.append_assoc]
      exact congrArg _ tail
  | case3 byteAddr bytesRead scan result full => exact ⟨[], by simp, List.nil_prefix⟩

end

/-! ## One map or two -/

/-- Up to each of these addresses two layouts skip the same bytes. -/
def AgreeUpTo (addresses : List Nat) (read write : MemoryLayout) : Prop :=
  ∀ last ∈ addresses, ∀ addr, 16 ≤ addr → addr ≤ last → read.isSkipArea addr = write.isSkipArea addr

/-- Bytes from the first usable addresses of a layout are mapped to these addresses by
another layout exactly when the two skip the same bytes up to the last of them. -/
theorem mapped_iff_agree {read write : MemoryLayout} {sourced : List (Nat × UInt8)}
    (from_usable : sourced.map Prod.fst <+: read.usable) :
    (∀ i addr byte, sourced[i]? = some (addr, byte) → write.usableOffsetToAddress i = some addr) ↔
      AgreeUpTo (sourced.map Prod.fst) read write := by
  have index : ∀ i, i < sourced.length → read.usable[i]? = (sourced.map Prod.fst)[i]? := by
    intro i inside
    obtain ⟨rest, shape⟩ := from_usable
    rw [← shape, List.getElem?_append_left (by rwa [List.length_map])]
  rcases Nat.eq_zero_or_pos sourced.length with empty | positive
  · rw [List.length_eq_zero_iff] at empty
    subst empty
    simp [AgreeUpTo]
  obtain ⟨n, count⟩ := Nat.exists_eq_add_of_lt positive
  rw [Nat.zero_add] at count
  have short : n < (sourced.map Prod.fst).length := by rw [List.length_map]; omega
  obtain ⟨greatest, here⟩ : ∃ greatest, (sourced.map Prod.fst)[n]? = some greatest :=
    ⟨_, List.getElem?_eq_getElem short⟩
  have found : read.usable[n]? = some greatest := (index n (by omega)).trans here
  have lists := kept_prefix_iff (fun addr => !write.isSkipArea addr) found
  have mapped : (∀ i addr byte, sourced[i]? = some (addr, byte) →
      write.usableOffsetToAddress i = some addr) ↔ ∀ i ≤ n, write.usable[i]? = read.usable[i]? := by
    simp only [MemoryLayout.usableOffsetToAddress_eq]
    constructor
    · intro maps i inside
      have short : i < sourced.length := by omega
      rw [maps i _ _ (List.getElem?_eq_getElem short), index i short, List.getElem?_map,
        List.getElem?_eq_getElem short]
      rfl
    · intro same i addr byte here
      have short : i < sourced.length := (List.getElem?_eq_some_iff.mp here).1
      rw [same i (by omega), index i short, List.getElem?_map, here]
      rfl
  refine (mapped.trans lists).trans ?_
  have bound : ∀ last ∈ sourced.map Prod.fst, last ≤ greatest := by
    intro last member
    obtain ⟨i, inside, listed⟩ := List.getElem_of_mem member
    have earlier : read.usable[i]? = some last := by
      rw [index i (by rwa [List.length_map] at inside), List.getElem?_eq_getElem inside, listed]
    rw [List.length_map] at inside
    rcases Nat.lt_or_ge i n with before | same
    · exact (kept_lt before earlier found).le
    · obtain rfl : i = n := by omega
      exact (Option.some.inj (earlier.symm.trans found)).le
  constructor
  · intro agree last member addr low high
    have same := agree addr low (high.trans (bound last member))
    simpa using same
  · intro agree addr low high
    rw [agree greatest (List.mem_of_getElem? here) addr low high]

section

variable {σ ε : Type} {build : Build} {tag : FaultFreeTag σ ε} {m : Machine σ}

/-- The bytes read with addresses are what the memory reads as. -/
theorem readDataAreaSourced_bytes (coherent : Coherent build tag.toTag m) (layout : MemoryLayout) :
    Ensures (readDataAreaSourced build tag.toTransceiver layout)
      (fun sourced _ => dataAreaOf build layout (tag.memoryOf m) = .ok (sourced.map Prod.snd))
      (fun _ _ => True) m := by
  have erased :=
    congrFun (readDataAreaSourcedFrom_bytes build tag.toTransceiver layout 16 0 .tag []) m
  have answers := (readDataArea_answers coherent layout).outcome_eq
  unfold Ensures
  cases run : readDataAreaSourced build tag.toTransceiver layout m with
  | error error next => trivial
  | ok sourced next =>
    change (List.map Prod.snd <$> readDataAreaSourced build tag.toTransceiver layout) m =
      readDataArea build tag.toTransceiver layout m at erased
    have plain : readDataArea build tag.toTransceiver layout m =
        .ok (sourced.map Prod.snd) next := by
      rw [← erased]
      change EStateM.map _ _ m = _
      rw [EStateM.map, run]
    unfold outcome at answers
    rw [plain] at answers
    cases result : dataAreaOf build layout (tag.memoryOf m) with
    | ok bytes =>
      rw [result] at answers
      exact congrArg _ (Except.ok.inj answers).symm
    | error refusal =>
      rw [result] at answers
      cases answers

/-- Where the bytes of both passes come from, by the blocks of the first. -/
theorem readDataAreaWithLayoutSourced_rule (coherent : Coherent build tag.toTag m)
    (cc : CapabilityContainer) :
    Ensures (readDataAreaWithLayoutSourced build tag.toTransceiver cc)
      (fun sourced _ => ∃ first,
        (dataAreaOf build (MemoryLayout.fromCcAndTlvs build cc []) (tag.memoryOf m) >>=
          parseTlvs build) = .ok first ∧
        sourced.map Prod.fst <+: (lastLayout build cc first).usable ∧
        ((cc.isDynamic && first.any Tlv.isControl) = false →
          parseTlvs build (sourced.map Prod.snd) = .ok first))
      (fun _ _ => True) m := by
  have addresses : ∀ layout m, Ensures (readDataAreaSourced build tag.toTransceiver layout)
      (fun sourced _ => sourced.map Prod.fst <+: layout.usable) (fun _ _ => True) m := by
    intro layout m
    refine (readDataAreaSourcedFrom_addresses build tag.toTransceiver layout 16 0 .tag [] rfl
      m).mono ?_ (fun _ _ _ => trivial)
    rintro sourced - ⟨read, shape, usable⟩
    rw [shape]
    exact usable
  unfold readDataAreaWithLayoutSourced
  refine ((readDataAreaSourced_bytes coherent _).and (addresses _ m)).bind (fun _ _ _ => trivial) ?_
  rintro sourced next ⟨bytes, usable⟩
  rw [ensures_bind, ensures_orProtocol]
  refine ⟨fun first listed => ?_, fun _ _ => trivial⟩
  have found : (dataAreaOf build (MemoryLayout.fromCcAndTlvs build cc []) (tag.memoryOf m) >>=
      parseTlvs build) = .ok first := by
    rw [bytes]
    exact listed
  split
  · next twice =>
    refine (addresses _ next).mono (fun again _ usable => ⟨first, found, ?_, fun once => ?_⟩)
      (fun _ _ _ => trivial)
    · rw [lastLayout, if_pos twice]
      exact usable
    · rw [twice] at once
      cases once
  · next once =>
    refine ⟨first, found, ?_, fun _ => listed⟩
    rw [lastLayout, if_neg once]
    exact usable

/-- Blocks without a control TLV describe no areas. -/
theorem fromCcAndTlvs_uncontrolled (cc : CapabilityContainer) {tlvs : List Tlv}
    (none : tlvs.any Tlv.isControl = false) :
    MemoryLayout.fromCcAndTlvs build cc tlvs = MemoryLayout.fromCcAndTlvs build cc [] := by
  have areas : ∀ collected, MemoryLayout.collectAreas build tlvs collected = collected := by
    induction tlvs with
    | nil => exact fun _ => rfl
    | cons tlv tlvs inductionHypothesis =>
      rw [List.any_cons, Bool.or_eq_false_iff] at none
      intro collected
      cases tlv with
      | lockControl _ | memoryControl _ => cases none.1
      | null | ndefMessage _ | proprietary _ | terminator =>
        exact inductionHypothesis none.2 collected
  rw [MemoryLayout.fromCcAndTlvs, MemoryLayout.fromCcAndTlvs, areas]
  rfl

/-- On a static tag no byte is skipped before its control TLVs are known. -/
theorem static_skips_nothing {cc : CapabilityContainer} (static : cc.isDynamic = false)
    (addr : Nat) :
    (MemoryLayout.fromCcAndTlvs build cc []).isSkipArea addr = false := by
  unfold MemoryLayout.fromCcAndTlvs MemoryLayout.collectAreas
  rw [static]
  rfl

/-- In either build, on a tag that answers everything and wherever a run of calls left
the reader: let `sourced` be the bytes that `read_data_area_with_layout` returns, each
with the address it was read from, and let them parse. Then the layout of the blocks
found maps every index to the address its byte was read from, exactly when: on a static
tag, the areas of the control TLVs found contain no address up to the last byte read;
on a dynamic tag whose first pass shows control TLVs, these and the ones found describe
the same areas up to the last byte read.

Proof: both passes list the usable addresses of their layout in order. Two layouts give the
same address to each index of a list of usable addresses exactly when they skip the same
addresses up to its last one, since the n-th usable address is found by counting. -/
theorem readerWriterMap_iff (build : Build) (tag : FaultFreeTag σ ε) (state : σ)
    (start : tag.active state = 0) (calls : List Call) (cc : CapabilityContainer)
    {sourced : List (Nat × UInt8)} {next : Machine σ} {tlvs : List Tlv}
    (read : readDataAreaWithLayoutSourced build tag.toTransceiver cc
      (runCalls build tag.toTransceiver calls (.fresh state)) = .ok sourced next)
    (listed : parseTlvs build (sourced.map Prod.snd) = .ok tlvs) :
    let m := runCalls build tag.toTransceiver calls (.fresh state)
    let layout := MemoryLayout.fromCcAndTlvs build cc tlvs
    outcome (readDataAreaWithLayout build tag.toTransceiver cc) m = .ok (sourced.map Prod.snd) ∧
    ∃ first, (dataAreaOf build (MemoryLayout.fromCcAndTlvs build cc []) (tag.memoryOf m) >>=
        parseTlvs build) = .ok first ∧
      ((∀ i addr byte, sourced[i]? = some (addr, byte) →
          layout.usableOffsetToAddress i = some addr) ↔
        if cc.isDynamic then
          first.any Tlv.isControl = true →
            AgreeUpTo (sourced.map Prod.fst) (MemoryLayout.fromCcAndTlvs build cc first) layout
        else
          ∀ last ∈ sourced.map Prod.fst, ∀ addr, 16 ≤ addr → addr ≤ last →
            layout.isSkipArea addr = false) := by
  intro m layout
  have coherent : Coherent build tag.toTag m := coherent_run build tag.toTag calls state start
  obtain ⟨first, found, usable, once⟩ :=
    (readDataAreaWithLayoutSourced_rule coherent cc).returned read
  refine ⟨?_, first, found, ?_⟩
  · rw [outcome, readDataAreaWithLayoutSourced_erased build tag.toTransceiver read]
  rw [mapped_iff_agree usable]
  cases dynamic : cc.isDynamic with
  | false =>
    have single : lastLayout build cc first = MemoryLayout.fromCcAndTlvs build cc [] := by
      rw [lastLayout, dynamic]
      rfl
    rw [single, if_neg Bool.false_ne_true]
    unfold AgreeUpTo
    simp only [static_skips_nothing dynamic]
    exact forall₂_congr fun _ _ => forall₃_congr fun _ _ _ => eq_comm
  | true =>
    rw [if_pos rfl]
    cases control : first.any Tlv.isControl with
    | true =>
      rw [lastLayout, dynamic, control]
      simp
    | false =>
      have same : tlvs = first := by
        rw [dynamic, control] at once
        exact Except.ok.inj (listed.symm.trans (once rfl))
      have layouts : layout = lastLayout build cc first := by
        rw [lastLayout, dynamic, control]
        exact (congrArg _ same).trans (fromCcAndTlvs_uncontrolled cc control)
      rw [layouts]
      constructor
      · intro _ never
        cases never
      · intro _ _ _ _ _ _
        rfl

/-- A Capability Container of 48 bytes. -/
def smallCc : CapabilityContainer := ⟨1, 0, 0x06, .granted, .granted⟩

/-- A static tag with a Memory Control TLV for four bytes at `start`, an empty message
and a Terminator. -/
def reservedState (start : UInt8) : FlatState where
  memory := fun addr => [0xE1, 0x10, 0x06, 0x00, 0x02, 0x03, start, 0x04, 0x04, 0x03, 0x00,
    0xFE].getD (addr - 12) 0
  active := 0

/-- The bytes of such a tag, with their addresses. -/
def reservedBytes (start : UInt8) : List (Nat × UInt8) :=
  [(16, 0x02), (17, 0x03), (18, start), (19, 0x04), (20, 0x04), (21, 0x03), (22, 0x00), (23, 0xFE)]

/-- What is found in them. -/
def reservedTlvs (offset : UInt8) : List Tlv :=
  [.memoryControl ⟨1, offset, 4, 4⟩, .ndefMessage [], .terminator]

/-- An area behind the last byte read changes nothing. -/
theorem readerWriterMap_behind :
    outcome (readDataAreaWithLayoutSourced .alloc flatTag.toTransceiver smallCc)
      (.fresh (reservedState 0x18)) = .ok (reservedBytes 0x18) ∧
    parseTlvs .alloc ((reservedBytes 0x18).map Prod.snd) = .ok (reservedTlvs 8) ∧
    ∀ i addr byte, (reservedBytes 0x18)[i]? = some (addr, byte) →
      (MemoryLayout.fromCcAndTlvs .alloc smallCc (reservedTlvs 8)).usableOffsetToAddress i =
        some addr := by
  have read : outcome (readDataAreaWithLayoutSourced .alloc flatTag.toTransceiver smallCc)
      (.fresh (reservedState 0x18)) = .ok (reservedBytes 0x18) := by decide +kernel
  have listed : parseTlvs .alloc ((reservedBytes 0x18).map Prod.snd) = .ok (reservedTlvs 8) := by
    decide +kernel
  refine ⟨read, listed, ?_⟩
  obtain ⟨next, run⟩ : ∃ next, readDataAreaWithLayoutSourced .alloc flatTag.toTransceiver smallCc
      (.fresh (reservedState 0x18)) = .ok (reservedBytes 0x18) next := by
    unfold outcome at read
    split at read
    · next value next run => exact ⟨next, Except.ok.inj read ▸ run⟩
    · cases read
  obtain ⟨-, first, -, maps⟩ :=
    readerWriterMap_iff .alloc flatTag (reservedState 0x18) rfl [] smallCc run listed
  refine maps.mpr ?_
  rw [if_neg (by decide)]
  have bound : ∀ last ∈ (reservedBytes 0x18).map Prod.fst, last ≤ 23 := by decide
  intro last member addr low high
  have before : addr ≤ 23 := high.trans (bound last member)
  interval_cases addr <;> decide

/-- An area among the bytes read is skipped by the writer's map only: the byte read from
address 20 is mapped to address 24. -/
theorem readerWriterMap_shifted :
    outcome (readDataAreaWithLayout .alloc flatTag.toTransceiver smallCc)
      (.fresh (reservedState 0x14)) =
      .ok ((reservedBytes 0x14).map Prod.snd) ∧
    outcome (readDataAreaWithLayoutSourced .alloc flatTag.toTransceiver smallCc)
      (.fresh (reservedState 0x14)) = .ok (reservedBytes 0x14) ∧
    parseTlvs .alloc ((reservedBytes 0x14).map Prod.snd) = .ok (reservedTlvs 4) ∧
    (reservedBytes 0x14)[4]? = some (20, 0x04) ∧
    (MemoryLayout.fromCcAndTlvs .alloc smallCc (reservedTlvs 4)).usableOffsetToAddress 4 =
      some 24 := by
  decide +kernel

end

end NfcForumTags
