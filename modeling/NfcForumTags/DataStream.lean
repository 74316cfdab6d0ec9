import NfcForumTags.ReadRules
import NfcForumTags.LayoutAreas
import NfcForumTags.Scanner

/-!
# The data area as a stream

With growable buffers, what reading makes of a memory is stated without blocks,
scanner or parser: the usable bytes of the data area are a stream, and on a dynamic
tag whose stream shows control TLVs the usable bytes outside the areas they describe
are one again. The areas are few and small enough that the address space never runs
out of usable bytes.
-/
namespace NfcForumTags

open Program

open Enumeration

/-! ## Enough usable bytes -/

/-- The bytes of the areas are all that is missing among the usable ones. -/
theorem MemoryLayout.length_usable (layout : MemoryLayout) :
    ADDRESS_SPACE_END - 16 ≤ layout.usable.length + layout.areaAddresses.length := by
  unfold usable usableFrom
  apply length_kept_covered
  intro addr _ _ rejected
  exact mem_areaAddresses (by simpa using rejected)

/-- A layout of the blocks of a data area has usable bytes for the whole data area. -/
theorem TlvStream.enough_usable (cc : CapabilityContainer) {data : List UInt8} {tlvs : List Tlv}
    (stream : TlvStream data tlvs) (small : data.length ≤ 2040) :
    cc.dataAreaSize ≤ (MemoryLayout.fromCcAndTlvs .alloc cc tlvs).usable.length := by
  have all := (MemoryLayout.fromCcAndTlvs .alloc cc tlvs).length_usable
  have few := stream.areaBytes_le
  have size := cc.dataAreaSize_le
  have areas := MemoryLayout.length_areaAddresses_le .alloc cc tlvs
  simp only [ADDRESS_SPACE_END_eq] at all
  omega

/-! ## Collecting up to the stop -/

/-- The bytes of the data area, without a stop at a Terminator. -/
def dataBytes (layout : MemoryLayout) (memory : Memory) : List UInt8 :=
  (layout.usable.take layout.dataAreaSize).map memory

/-- Two layouts map the data area alike: they have the same usable bytes there, so
through either of them the same bytes of any memory are seen. -/
def MemoryLayout.SameMap (read write : MemoryLayout) : Prop :=
  read.usable.take read.dataAreaSize = write.usable.take write.dataAreaSize

/-- Layouts that map the data area alike see the same bytes of every memory. -/
theorem MemoryLayout.SameMap.dataBytes {read write : MemoryLayout} (same : read.SameMap write)
    (memory : Memory) : dataBytes read memory = dataBytes write memory :=
  congrArg (List.map memory) same

/-- What is collected is a beginning of the bytes at hand, in either build and wherever
the scanner stops. The bytes collected so far stay in front of it.

Induction on the bytes that may still be taken. -/
theorem collect_prefix {build : Build} {size : Nat} {scan : TlvScanState}
    {result bytes collected : List UInt8}
    (collects : collect build size scan result bytes = .ok collected) :
    ∃ taken, collected = result ++ taken ∧ taken <+: bytes.take size := by
  induction size generalizing scan result bytes with
  | zero =>
    obtain rfl := Except.ok.inj collects
    exact ⟨[], by simp, List.nil_prefix⟩
  | succ size inductionHypothesis =>
    cases bytes with
    | nil => cases collects
    | cons byte bytes =>
      obtain ⟨extended, pushed, onward⟩ := ok_of_bind collects
      obtain rfl := tryPush_ok pushed
      rw [List.take_succ_cons]
      cases fed : scan.feed byte with
      | none =>
        rw [fed] at onward
        obtain rfl := Except.ok.inj onward
        exact ⟨[byte], rfl, List.prefix_cons_iff.mpr (Or.inr ⟨[], rfl, List.nil_prefix⟩)⟩
      | some next =>
        rw [fed] at onward
        obtain ⟨taken, shape, begins⟩ := inductionHypothesis onward
        refine ⟨byte :: taken, by rw [shape, List.append_assoc]; rfl, ?_⟩
        exact List.prefix_cons_iff.mpr (Or.inr ⟨taken, rfl, begins⟩)

/-- A data area that is read is a beginning of the usable bytes of its layout. -/
theorem dataAreaOf_prefix {build : Build} {layout : MemoryLayout} {memory : Memory}
    {data : List UInt8} (read : dataAreaOf build layout memory = .ok data) :
    data <+: dataBytes layout memory := by
  obtain ⟨taken, shape, begins⟩ := collect_prefix read
  rw [List.nil_append] at shape
  rwa [shape, dataBytes, List.map_take]

/-- Reading in two passes is reading through the layout of the last one: the first pass
shows some blocks, and the data area returned is a beginning of the usable bytes of the
layout that these blocks call for. -/
theorem dataAreaWithLayoutOf_prefix {build : Build} {cc : CapabilityContainer} {memory : Memory}
    {data : List UInt8} (read : dataAreaWithLayoutOf build cc memory = .ok data) :
    ∃ first, (dataAreaOf build (MemoryLayout.fromCcAndTlvs build cc []) memory >>=
        parseTlvs build) = .ok first ∧
      data <+: dataBytes (lastLayout build cc first) memory := by
  obtain ⟨seen, pass, onward⟩ := ok_of_bind read
  obtain ⟨first, shown, onward⟩ := ok_of_bind onward
  refine ⟨first, by rw [pass]; exact shown, ?_⟩
  unfold lastLayout
  split at onward
  · next again =>
    rw [if_pos again]
    exact dataAreaOf_prefix onward
  · next once =>
    obtain rfl := Except.ok.inj onward
    rw [if_neg once]
    exact dataAreaOf_prefix pass

/-- With enough bytes, collecting takes them up to the scanner's Terminator, if the
buffer holds as many.

Induction on the bytes still to be taken. -/
theorem collect_upToStop (build : Build) (size : Nat) (scan : TlvScanState)
    (result bytes : List UInt8)
    (enough : size ≤ bytes.length) (room : fits build.dataCapacity result.length = true) :
    collect build size scan result bytes =
      if fits build.dataCapacity (result ++ upToStop scan (bytes.take size)).length then
        .ok (result ++ upToStop scan (bytes.take size))
      else .error .bufferFull := by
  induction size generalizing scan result bytes with
  | zero => simp [collect, upToStop, room]
  | succ size inductionHypothesis =>
    cases bytes with
    | nil => simp at enough
    | cons byte bytes =>
      rw [List.take_succ_cons]
      cases last : fits build.dataCapacity (result.length + 1) with
      | true =>
        have pushed : tryPush build.dataCapacity result byte = .ok (result ++ [byte]) :=
          tryPush_of_fits last
        have filled : fits build.dataCapacity (result ++ [byte]).length = true := by
          rwa [List.length_append]
        cases fed : scan.feed byte with
        | none => rw [collect_stop pushed fed, upToStop_stop fed, if_pos filled]
        | some next =>
          rw [collect_next pushed fed, upToStop_next fed,
            inductionHypothesis next _ bytes (by simpa using enough) filled, List.append_assoc]
          rfl
      | false =>
        have refused : tryPush build.dataCapacity result byte = .error .bufferFull := by
          rw [tryPush, last]
          rfl
        have full : ∀ rest, ¬ fits build.dataCapacity (result ++ byte :: rest).length = true := by
          intro rest enough
          rw [List.length_append, List.length_cons] at enough
          rw [fits_mono (by omega) enough] at last
          cases last
        rw [collect_full refused]
        cases fed : scan.feed byte with
        | none => rw [upToStop_stop fed, if_neg (full [])]
        | some next => rw [upToStop_next fed, if_neg (full _)]

/-- Reading the data area of a layout with enough usable bytes. -/
theorem dataAreaOf_upToStop (build : Build) {layout : MemoryLayout} (memory : Memory)
    (enough : layout.dataAreaSize ≤ layout.usable.length) :
    dataAreaOf build layout memory =
      if fits build.dataCapacity (upToStop .tag (dataBytes layout memory)).length then
        .ok (upToStop .tag (dataBytes layout memory))
      else .error .bufferFull := by
  have empty : fits build.dataCapacity ([] : List UInt8).length = true := by
    cases build.dataCapacity with
    | none => rfl
    | some limit => exact decide_eq_true (Nat.zero_le limit)
  unfold dataAreaOf dataBytes
  rw [collect_upToStop build _ _ _ _ (by rw [List.length_map]; exact enough) empty, List.nil_append,
    List.map_take]

/-- Where the layout has enough usable addresses, the unbounded build reads the data bytes
up to the byte that stops the scanner. -/
theorem dataAreaOf_alloc {layout : MemoryLayout} (memory : Memory)
    (enough : layout.dataAreaSize ≤ layout.usable.length) :
    dataAreaOf .alloc layout memory = .ok (upToStop .tag (dataBytes layout memory)) :=
  dataAreaOf_upToStop .alloc memory enough

/-- Both passes over a memory find streams; the last one shows these blocks. -/
def ReadsAs (cc : CapabilityContainer) (memory : Memory) (tlvs : List Tlv) : Prop :=
  ∃ first, TlvStream (dataBytes (MemoryLayout.fromCcAndTlvs .alloc cc []) memory) first ∧
    TlvStream (dataBytes (lastLayout .alloc cc first) memory) tlvs

/-- A data area has at most 2040 bytes: the size field is a byte, in units of eight. -/
theorem dataBytes_length_le (cc : CapabilityContainer) (tlvs : List Tlv) (memory : Memory) :
    (dataBytes (MemoryLayout.fromCcAndTlvs .alloc cc tlvs) memory).length ≤ 2040 := by
  have size := cc.dataAreaSize_le
  rw [dataBytes, List.length_map, List.length_take, MemoryLayout.fromCcAndTlvs_alloc]
  dsimp only
  omega

/-- The size of a layout is that of its container. -/
@[simp] theorem fromCcAndTlvs_size (cc : CapabilityContainer) (tlvs : List Tlv) :
    (MemoryLayout.fromCcAndTlvs .alloc cc tlvs).dataAreaSize = cc.dataAreaSize := by
  rw [MemoryLayout.fromCcAndTlvs_alloc]

/-- A data area without any block is a stream. -/
theorem emptyStream : TlvStream [] [] := ⟨[], [], .nil, Or.inl ⟨rfl, rfl⟩⟩

/-- Reading under the layout of some blocks of the data area. -/
theorem TlvStream.dataAreaOf (cc : CapabilityContainer) {data : List UInt8} {tlvs : List Tlv}
    (stream : TlvStream data tlvs) (small : data.length ≤ 2040) (memory : Memory) :
    dataAreaOf .alloc (MemoryLayout.fromCcAndTlvs .alloc cc tlvs) memory =
      .ok (upToStop .tag (dataBytes (MemoryLayout.fromCcAndTlvs .alloc cc tlvs) memory)) :=
  dataAreaOf_alloc memory (by
    rw [fromCcAndTlvs_size]
    exact stream.enough_usable cc small)

/-- The blocks that reading a memory ends with. -/
theorem readsAs_iff (cc : CapabilityContainer) (memory : Memory) (tlvs : List Tlv) :
    (dataAreaWithLayoutOf .alloc cc memory >>= parseTlvs .alloc) = .ok tlvs ↔
      ReadsAs cc memory tlvs := by
  have basic := emptyStream.dataAreaOf cc (by simp) memory
  have small := dataBytes_length_le cc [] memory
  constructor
  · intro read
    obtain ⟨dataArea, read, listed⟩ := ok_of_bind read
    obtain ⟨seen, pass, read⟩ := ok_of_bind read
    obtain ⟨first, shown, read⟩ := ok_of_bind read
    obtain rfl := Except.ok.inj (basic.symm.trans pass)
    have stream := upToStop_stream.mp (parseTlvs_sound shown)
    refine ⟨first, stream, ?_⟩
    unfold lastLayout
    split at read
    · next dynamic =>
      rw [stream.dataAreaOf cc small] at read
      obtain rfl := Except.ok.inj read
      rw [if_pos dynamic]
      exact upToStop_stream.mp (parseTlvs_sound listed)
    · next once =>
      obtain rfl := Except.ok.inj read
      rw [if_neg once]
      exact upToStop_stream.mp (parseTlvs_sound listed)
  · rintro ⟨first, stream, last⟩
    have shown := (upToStop_stream.mpr stream).parse
    unfold dataAreaWithLayoutOf
    rw [basic]
    change (parseTlvs .alloc _ >>= _) >>= _ = _
    rw [shown]
    unfold lastLayout at last
    change (if _ then _ else _) >>= _ = _
    split at last
    · next dynamic =>
      rw [if_pos dynamic, stream.dataAreaOf cc small]
      exact (upToStop_stream.mpr last).parse
    · next once =>
      rw [if_neg once]
      exact (upToStop_stream.mpr last).parse

/-- What `read_ndef` reads, with growable buffers. -/
theorem ndefOf_alloc_iff (memory : Memory) (message : List UInt8) :
    ndefOf .alloc memory = .ok message ↔ ∃ cc tlvs, ccOf memory = .ok cc ∧ cc.isValid = true ∧
      ReadsAs cc memory tlvs ∧ (firstNdef tlvs).getD [] = message := by
  constructor
  · intro read
    obtain ⟨cc, parsed, read⟩ := ok_of_bind read
    obtain ⟨_, valid, read⟩ := ok_of_bind read
    obtain ⟨dataArea, pass, read⟩ := ok_of_bind read
    obtain ⟨tlvs, listed, same⟩ := ok_of_bind read
    refine ⟨cc, tlvs, parsed, by simpa using allowed_of_refusal valid, ?_, Except.ok.inj same⟩
    rw [← readsAs_iff, pass]
    exact listed
  · rintro ⟨cc, tlvs, parsed, valid, reads, rfl⟩
    obtain ⟨dataArea, pass, listed⟩ := ok_of_bind ((readsAs_iff cc memory tlvs).mpr reads)
    have allowed : refusal (cc.isValid = false) (.invalidMagic 0) = .ok () :=
      if_neg (by simp [valid])
    unfold ndefOf
    simp only [parsed, allowed, pass, listed, bind, Except.bind]
    rfl

end NfcForumTags
