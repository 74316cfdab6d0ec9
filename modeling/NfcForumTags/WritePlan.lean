import NfcForumTags.WriteRules
import NfcForumTags.TlvEncoding

/-!
# The plan of a write

What `write_ndef` has established when its first WRITE is due: the message fits
the usable bytes of the data area from the NDEF TLV's offset on, so both calls of
`write_usable_bytes` have room, and the pages they write are known. The plan's
overlay then gives the memory after every page, and the memory after the last one.
-/
namespace NfcForumTags

open Program Enumeration Overlay MemoryLayout

/-- The payload of a message that is not refused for lack of space. -/
theorem buildPayload_ok {build : Build} {ndefData payload : List UInt8}
    (built : buildPayload build ndefData = .ok payload) :
    payload = TLV_NDEF_MESSAGE :: (zeroLengthField ndefData.length ++ ndefData ++
      [TLV_TERMINATOR]) := by
  unfold buildPayload at built
  obtain ⟨tagged, pushedTag, built⟩ := ok_of_bind built
  obtain rfl := tryPush_ok pushedTag
  obtain ⟨sized, pushedLength, built⟩ := ok_of_bind built
  obtain ⟨filled, extended, terminated⟩ := ok_of_bind built
  obtain rfl := tryExtend_ok extended
  obtain rfl := tryPush_ok terminated
  have lengthField : sized = TLV_NDEF_MESSAGE :: zeroLengthField ndefData.length := by
    unfold zeroLengthField
    split at pushedLength
    · next short =>
      rw [if_pos short]
      exact tryPush_ok pushedLength
    · next long =>
      rw [if_neg long]
      obtain ⟨first, pushedFirst, pushedLength⟩ := ok_of_bind pushedLength
      obtain rfl := tryPush_ok pushedFirst
      obtain ⟨second, pushedSecond, pushedThird⟩ := ok_of_bind pushedLength
      obtain rfl := tryPush_ok pushedSecond
      exact tryPush_ok pushedThird
  simp [lengthField]

/-- A payload that is built is within the capacity. -/
theorem buildPayload_fits {build : Build} {ndefData payload : List UInt8}
    (built : buildPayload build ndefData = .ok payload) :
    fits build.dataCapacity payload.length = true := by
  unfold buildPayload at built
  obtain ⟨_, -, built⟩ := ok_of_bind built
  obtain ⟨_, -, built⟩ := ok_of_bind built
  obtain ⟨_, -, terminated⟩ := ok_of_bind built
  exact tryPush_fits terminated

/-- What a planned job satisfies: the bytes it writes, where the NDEF TLV is, and
that T, L, V and the Terminator fit the usable bytes of the data area. -/
structure WriteJob.Planned (job : WriteJob) (build : Build) (cc : CapabilityContainer)
    (tlvs : List Tlv) (ndefData : List UInt8) : Prop where
  encodable : ndefData.length ≤ MAX_TLV_LENGTH
  layout : job.layout = MemoryLayout.fromCcAndTlvs build cc tlvs
  offset : ndefTlvOffset tlvs 0 = some job.ndefOffset
  fits : job.ndefOffset + 1 + lFieldSize ndefData.length + ndefData.length + 1 ≤ cc.dataAreaSize
  address : job.layout.usable[job.ndefOffset]? = some job.ndefByteAddr
  last : ∃ lastAddr, job.layout.usable[cc.dataAreaSize - 1]? = some lastAddr ∧
    job.writeLimitAddr = lastAddr + 1
  payload : job.payload =
    TLV_NDEF_MESSAGE :: (zeroLengthField ndefData.length ++ ndefData ++ [TLV_TERMINATOR])
  capacity : NfcForumTags.fits build.dataCapacity job.payload.length = true
  lengthField : job.lengthField = realLengthField ndefData.length

/-- A job of `planWrite` has passed every check. -/
theorem planWrite_ok {build : Build} {cc : CapabilityContainer} {tlvs : List Tlv}
    {ndefData : List UInt8} {job : WriteJob} (plans : planWrite build cc tlvs ndefData = .ok job) :
    job.Planned build cc tlvs ndefData := by
  unfold planWrite at plans
  split at plans
  · cases plans
  next encodable =>
  split at plans
  · cases plans
  next ndefOffset offset =>
  dsimp only at plans
  split at plans
  · cases plans
  next fits =>
  split at plans
  · cases plans
  next ndefByteAddr address =>
  split at plans
  · cases plans
  next lastAddr last =>
  obtain ⟨payload, built, same⟩ := ok_of_bind plans
  cases same
  have small := cc.dataAreaSize_le
  have exact : asU16 ndefOffset = ndefOffset := Nat.mod_eq_of_lt (by omega)
  rw [exact, usableOffsetToAddress_eq] at address
  rw [usableOffsetToAddress_eq] at last
  exact {
    encodable := Nat.le_of_not_lt encodable
    layout := rfl
    offset
    fits := Nat.le_of_not_lt fits
    address
    last := ⟨lastAddr, last, rfl⟩
    payload := buildPayload_ok built
    capacity := buildPayload_fits built
    lengthField := rfl }

namespace WriteJob

/-- The payload's bytes with their addresses. -/
def payloadPairs (job : WriteJob) : List (Nat × UInt8) :=
  (job.layout.usable.drop job.ndefOffset).zip job.payload

/-- The real length field's bytes with their addresses. -/
def lengthPairs (job : WriteJob) : List (Nat × UInt8) :=
  (job.layout.usable.drop (job.ndefOffset + 1)).zip job.lengthField

/-- All pages a job writes, in order. -/
def pages (job : WriteJob) : List (List (Nat × UInt8)) :=
  pagesOf job.payloadPairs ++ pagesOf job.lengthPairs

namespace Planned

variable {job : WriteJob} {build : Build} {cc : CapabilityContainer} {tlvs : List Tlv}
  {ndefData : List UInt8}

/-- The payload is the tag, the zeroed length field, the message and the Terminator. -/
theorem payload_length (plan : job.Planned build cc tlvs ndefData) :
    job.payload.length = 1 + lFieldSize ndefData.length + ndefData.length + 1 := by
  rw [plan.payload]
  simp
  omega

/-- The layout of a planned write has enough usable addresses for its data area. -/
theorem enough (plan : job.Planned build cc tlvs ndefData) :
    cc.dataAreaSize ≤ job.layout.usable.length := by
  obtain ⟨lastAddr, last, -⟩ := plan.last
  have := (List.getElem?_eq_some_iff.mp last).1
  omega

/-- Data written at the usable byte of an index of the data area has room if its
indices stay in the data area. -/
theorem room (plan : job.Planned build cc tlvs ndefData) {i addr : Nat} {data : List UInt8}
    (found : job.layout.usable[i]? = some addr) (nonempty : 0 < data.length)
    (fit : i + data.length ≤ cc.dataAreaSize) :
    Room job.layout data job.writeLimitAddr addr 0 := by
  obtain ⟨lastAddr, last, limit⟩ := plan.last
  have enough := plan.enough
  have between := kept_between (by omega : i ≤ cc.dataAreaSize - 1) found last
  unfold Room usableBetween
  change data.length - 0 ≤ (kept _ addr job.writeLimitAddr).length
  rw [limit, between, List.length_drop, List.length_take]
  change _ ≤ min _ job.layout.usable.length - i
  omega

/-- The limit of a planned write lies in the address space. -/
theorem limit_inside (plan : job.Planned build cc tlvs ndefData) :
    job.writeLimitAddr ≤ ADDRESS_SPACE_END := by
  obtain ⟨lastAddr, last, limit⟩ := plan.last
  have inside := (kept_getElem last).2.1
  rw [limit]
  exact inside

/-- The payload has room from the NDEF TLV's address on. -/
theorem payload_room (plan : job.Planned build cc tlvs ndefData) :
    Room job.layout job.payload job.writeLimitAddr job.ndefByteAddr 0 := by
  have fits := plan.fits
  have size := plan.payload_length
  exact plan.room plan.address (by omega) (by omega)

/-- The length field's address is found, and the length field has room from it on. -/
theorem length_room (plan : job.Planned build cc tlvs ndefData) : ∃ lAddr,
    job.layout.usableOffsetToAddress (asU16 job.ndefOffset + 1) = some lAddr ∧
    job.layout.usable[job.ndefOffset + 1]? = some lAddr ∧
    Room job.layout job.lengthField job.writeLimitAddr lAddr 0 := by
  have fits := plan.fits
  have enough := plan.enough
  have small := cc.dataAreaSize_le
  have positive := lFieldSize_pos ndefData.length
  have size : job.lengthField.length = lFieldSize ndefData.length := by
    rw [plan.lengthField, length_realLengthField]
  have exact : asU16 job.ndefOffset = job.ndefOffset := Nat.mod_eq_of_lt (by omega)
  have inside : job.ndefOffset + 1 < job.layout.usable.length := by omega
  obtain ⟨lAddr, found⟩ : ∃ lAddr, job.layout.usable[job.ndefOffset + 1]? = some lAddr :=
    ⟨_, List.getElem?_eq_getElem inside⟩
  refine ⟨lAddr, ?_, found, plan.room found (by omega) (by omega)⟩
  rw [exact, usableOffsetToAddress_eq, found]

section Commit

variable {σ ε : Type} {t : Transceiver σ ε} {E : Machine σ → Prop}

/-- `write_ndef` from its first WRITE on keeps an invariant and is never refused. -/
theorem commitWrite_keeps {I : Machine σ → Prop} (plan : job.Planned build cc tlvs ndefData)
    (keeps : Keeps build t I E) (m : Machine σ) (holds : I m) :
    Ensures (commitWrite build t job) (fun _ next => I next) (fun _ next => E next) m := by
  obtain ⟨lAddr, found, -, room⟩ := plan.length_room
  unfold commitWrite writeUsableBytes
  refine (keeps.writeUsableBytesFrom_rule job.ndefByteAddr 0 m
    (Or.inl ⟨plan.limit_inside, plan.payload_room⟩) holds).bind (fun _ _ left => left) ?_
  rintro - written kept
  rw [found]
  exact keeps.writeUsableBytesFrom_rule lAddr 0 written (Or.inl ⟨plan.limit_inside, room⟩) kept

/-- `write_ndef` from its first WRITE on writes the planned pages, in order, and
fails only if an exchange fails. -/
theorem commitWrite_rule {base : Memory} {J Attempt : Nat → Machine σ → Prop}
    (plan : job.Planned build cc tlvs ndefData)
    (writes : Writes build t base job.pages J Attempt E) (m : Machine σ) (holds : J 0 m) :
    Ensures (commitWrite build t job) (fun _ next => J job.pages.length next)
      (fun _ next => E next) m := by
  obtain ⟨lAddr, address, found, room⟩ := plan.length_room
  unfold commitWrite writeUsableBytes
  refine (writes.writeUsableBytesFrom_rule plan.limit_inside job.ndefByteAddr 0 0 m
    (pagesOf job.lengthPairs) (kept_getElem plan.address).1 plan.payload_room ?_
    (Nat.zero_le _) holds).bind (fun _ _ left => left) ?_
  · have suffix : job.layout.usableFrom job.ndefByteAddr = job.layout.usable.drop job.ndefOffset :=
      kept_from plan.address
    rw [List.drop_zero, List.drop_zero, suffix]
    rfl
  · rintro - next written
    rw [address]
    refine writes.writeUsableBytesFrom_rule plan.limit_inside lAddr 0
      (job.pages.length - (pagesOf job.lengthPairs).length) next [] (kept_getElem found).1 room ?_
      (Nat.sub_le _ _) written
    · have suffix : job.layout.usableFrom lAddr = job.layout.usable.drop (job.ndefOffset + 1) :=
        kept_from found
      have position : job.pages.length - (pagesOf job.lengthPairs).length =
          (pagesOf job.payloadPairs).length := by
        unfold pages
        rw [List.length_append]
        omega
      rw [position, suffix, List.drop_zero, List.append_nil]
      change (pagesOf job.payloadPairs ++ pagesOf job.lengthPairs).drop _ = pagesOf job.lengthPairs
      exact List.drop_left

end Commit

/-! ## The memory after the pages -/

/-- Every byte placed by a planned page is at the usable byte of an index of the
NDEF TLV or its Terminator. -/
theorem placed_inside (plan : job.Planned build cc tlvs ndefData) {k : Nat} {pair : Nat × UInt8}
    (placed : pair ∈ (job.pages.take k).flatten) :
    ∃ i, job.layout.usable[i]? = some pair.1 ∧ job.ndefOffset ≤ i ∧
      i < job.ndefOffset + 1 + lFieldSize ndefData.length + ndefData.length + 1 := by
  have member : pair ∈ job.pages.flatten := by
    obtain ⟨page, pageMember, inPage⟩ := List.mem_flatten.mp placed
    exact List.mem_flatten.mpr ⟨page, List.mem_of_mem_take pageMember, inPage⟩
  have size := plan.payload_length
  have lengthSize : job.lengthField.length = lFieldSize ndefData.length := by
    rw [plan.lengthField, length_realLengthField]
  unfold pages pagesOf at member
  rw [List.flatten_append, flatten_groups, flatten_groups] at member
  rcases List.mem_append.mp member with inPayload | inLength
  · obtain ⟨i, short, same⟩ := List.mem_iff_getElem.mp inPayload
    unfold payloadPairs at short same
    rw [List.length_zip, List.length_drop] at short
    refine ⟨job.ndefOffset + i, ?_, by omega, by omega⟩
    rw [← same, List.getElem_zip, List.getElem_drop]
    exact List.getElem?_eq_getElem _
  · obtain ⟨i, short, same⟩ := List.mem_iff_getElem.mp inLength
    unfold lengthPairs at short same
    rw [List.length_zip, List.length_drop] at short
    refine ⟨job.ndefOffset + 1 + i, ?_, by omega, by omega⟩
    rw [← same, List.getElem_zip, List.getElem_drop]
    exact List.getElem?_eq_getElem _

/-- After any number of planned pages, an address that is not the usable byte of an
index of the NDEF TLV or its Terminator has its original value. -/
theorem planned_outside (plan : job.Planned build cc tlvs ndefData) (base : Memory) (k addr : Nat)
    (outside : ∀ i, job.layout.usable[i]? = some addr → i < job.ndefOffset ∨
      job.ndefOffset + 1 + lFieldSize ndefData.length + ndefData.length + 1 ≤ i) :
    planned base job.pages k addr = base addr := by
  apply place_of_notMem
  intro member
  obtain ⟨pair, placed, rfl⟩ := List.mem_map.mp member
  obtain ⟨i, found, low, high⟩ := plan.placed_inside placed
  rcases outside i found with below | above <;> omega

/-- The memory after all planned pages. -/
theorem planned_all (job : WriteJob) (base : Memory) :
    planned base job.pages job.pages.length =
      place (place base job.payloadPairs) job.lengthPairs := by
  unfold planned
  rw [List.take_length]
  unfold pages pagesOf
  rw [List.flatten_append, flatten_groups, flatten_groups, place_append]

/-- The usable bytes from the NDEF TLV on are distinct addresses. -/
theorem target_nodup (job : WriteJob) : (job.layout.usable.drop job.ndefOffset).Nodup :=
  (usableFrom_nodup job.layout 16).sublist (List.drop_sublist _ _)

/-- The usable bytes from the NDEF TLV on: the address of T, and those of the rest. -/
theorem target_eq (plan : job.Planned build cc tlvs ndefData) :
    job.layout.usable.drop job.ndefOffset =
      job.ndefByteAddr :: job.layout.usable.drop (job.ndefOffset + 1) := by
  have fits := plan.fits
  have enough := plan.enough
  have inside : job.ndefOffset < job.layout.usable.length := by omega
  rw [List.drop_eq_getElem_cons inside]
  congr 1
  exact (List.getElem?_eq_some_iff.mp plan.address).2

/-- The usable bytes from the NDEF TLV on, with the first bytes of the payload placed. -/
theorem payload_placed (plan : job.Planned build cc tlvs ndefData) (base : Memory) {n : Nat}
    (inside : n ≤ job.payload.length) :
    (job.layout.usable.drop job.ndefOffset).map (place base (job.payloadPairs.take n)) =
      job.payload.take n ++ (job.layout.usable.drop (job.ndefOffset + n)).map base := by
  have fits := plan.fits
  have size := plan.payload_length
  have enough := plan.enough
  have count : (job.payload.take n).length = n := by
    rw [List.length_take]
    omega
  have placed := map_place_zip base (job.payload.take n) (target_nodup job)
    (by rw [List.length_drop, count]; omega)
  rw [List.drop_drop, count] at placed
  rw [payloadPairs, take_zip]
  exact placed

/-- The usable bytes from the NDEF TLV on, with the payload and the first bytes of the
real length field placed.

The length field is placed over the zero length of the payload, one byte after T. -/
theorem length_placed (plan : job.Planned build cc tlvs ndefData) (base : Memory) {n : Nat}
    (inside : n ≤ job.lengthField.length) :
    (job.layout.usable.drop job.ndefOffset).map
        (place (place base job.payloadPairs) (job.lengthPairs.take n)) =
      TLV_NDEF_MESSAGE :: (job.lengthField.take n ++ ((zeroLengthField ndefData.length).drop n ++
        (ndefData ++ TLV_TERMINATOR ::
          (job.layout.usable.drop (job.ndefOffset + job.payload.length)).map base))) := by
  have fits := plan.fits
  have enough := plan.enough
  have payload := plan.payload_placed base (Nat.le_refl job.payload.length)
  have whole : job.payloadPairs.take job.payload.length = job.payloadPairs := by
    rw [payloadPairs, take_zip, List.take_length]
  have lengthSize : job.lengthField.length = lFieldSize ndefData.length := by
    rw [plan.lengthField, length_realLengthField]
  rw [whole, List.take_length, plan.target_eq, List.map_cons] at payload
  have distinct := target_nodup job
  rw [plan.target_eq, List.nodup_cons] at distinct
  have count : (job.lengthField.take n).length = n := by
    rw [List.length_take]
    omega
  have placed := map_place_zip (place base job.payloadPairs) (job.lengthField.take n) distinct.2
    (by rw [List.length_drop, count]; omega)
  have keepsT : place (place base job.payloadPairs) (job.lengthPairs.take n) job.ndefByteAddr =
      place base job.payloadPairs job.ndefByteAddr := by
    apply place_of_notMem
    unfold lengthPairs
    rw [take_zip, map_fst_zip]
    exact fun member => distinct.1 (List.mem_of_mem_take member)
  rw [plan.payload, List.cons_append] at payload
  obtain ⟨head, tail⟩ := List.cons.inj payload
  rw [plan.target_eq, List.map_cons, keepsT, head, lengthPairs, take_zip, placed, count,
    List.map_drop, tail, ← plan.payload]
  have short : n ≤ (zeroLengthField ndefData.length).length := by
    rw [length_zeroLengthField]
    omega
  simp [List.drop_append_of_le_length short]

/-- The usable bytes from the NDEF TLV on, after all planned pages: T, the real
length, the message and the Terminator, then what was there. -/
theorem usable_after (plan : job.Planned build cc tlvs ndefData) (base : Memory) :
    (job.layout.usable.drop job.ndefOffset).map (planned base job.pages job.pages.length) =
      encodedValue TLV_NDEF_MESSAGE ndefData ++ [TLV_TERMINATOR] ++
        (job.layout.usable.drop (job.ndefOffset + job.payload.length)).map base := by
  have placed := plan.length_placed base (Nat.le_refl job.lengthField.length)
  have whole : job.lengthPairs.take job.lengthField.length = job.lengthPairs := by
    rw [lengthPairs, take_zip, List.take_length]
  have lengthSize : job.lengthField.length = (zeroLengthField ndefData.length).length := by
    rw [plan.lengthField, length_realLengthField, length_zeroLengthField]
  rw [whole, List.take_length, lengthSize, List.drop_length, plan.lengthField] at placed
  rw [planned_all, placed]
  simp [encodedValue]

/-! ## The stages -/

/-- Every stage of the plan is a part of the payload, or the payload and a part of the
length field, that ends between two pages. -/
theorem planned_cut (job : WriteJob) (base : Memory) (k : Nat) :
    (∃ n ≤ job.payloadPairs.length, planned base job.pages k =
      place base (job.payloadPairs.take n) ∧
      Separated (· / 4) (job.payloadPairs.take n) (job.payloadPairs.drop n)) ∨
    ∃ n ≤ job.lengthPairs.length,
      planned base job.pages k = place (place base job.payloadPairs) (job.lengthPairs.take n) ∧
      Separated (· / 4) (job.lengthPairs.take n) (job.lengthPairs.drop n) := by
  unfold planned pages
  rw [List.take_append, List.flatten_append]
  by_cases inPayload : k ≤ (pagesOf job.payloadPairs).length
  · obtain ⟨n, inside, whole, separated⟩ := groups_cut (· / 4) job.payloadPairs k
    refine Or.inl ⟨n, inside, ?_, separated⟩
    rw [Nat.sub_eq_zero_of_le inPayload, List.take_zero, List.flatten_nil, List.append_nil]
    exact congrArg (place base) whole
  · obtain ⟨n, inside, whole, separated⟩ :=
      groups_cut (· / 4) job.lengthPairs (k - (pagesOf job.payloadPairs).length)
    refine Or.inr ⟨n, inside, ?_, separated⟩
    rw [List.take_of_length_le (by omega), place_append]
    exact congrArg₂ (fun first second => place (place base first) second)
      (flatten_groups (· / 4) job.payloadPairs) whole

/-- A part of the payload that ends between two pages is a stage. -/
theorem payload_stage (job : WriteJob) (base : Memory) {n : Nat}
    (separated : Separated (· / 4) (job.payloadPairs.take n) (job.payloadPairs.drop n)) :
    ∃ k ≤ job.pages.length, planned base job.pages k = place base (job.payloadPairs.take n) := by
  obtain ⟨k, inside, whole⟩ := cut_groups separated
  refine ⟨k, ?_, ?_⟩
  · unfold pages
    rw [List.length_append]
    exact Nat.le_add_right_of_le inside
  · unfold planned pages pagesOf
    rw [List.take_append_of_le_length inside]
    exact congrArg (place base) whole

/-- The payload and a part of the length field that ends between two pages is a stage. -/
theorem length_stage (job : WriteJob) (base : Memory) {n : Nat}
    (separated : Separated (· / 4) (job.lengthPairs.take n) (job.lengthPairs.drop n)) :
    ∃ k ≤ job.pages.length, planned base job.pages k =
      place (place base job.payloadPairs) (job.lengthPairs.take n) := by
  obtain ⟨k, inside, whole⟩ := cut_groups separated
  refine ⟨(pagesOf job.payloadPairs).length + k, ?_, ?_⟩
  · unfold pages
    rw [List.length_append]
    exact Nat.add_le_add_left inside _
  · unfold planned pages
    rw [List.take_length_add_append, List.flatten_append, place_append]
    exact congrArg₂ (fun first second => place (place base first) second)
      (flatten_groups (· / 4) job.payloadPairs) whole

end Planned

end WriteJob

/-- A job planned on a memory: its checks, and what they were made on. -/
theorem jobOf_ok {build : Build} {ndefData : List UInt8} {memory : Memory} {job : WriteJob}
    (plans : jobOf build ndefData memory = .ok job) :
    ∃ cc dataArea tlvs, ccOf memory = .ok cc ∧ cc.isValid = true ∧ cc.writeAccess = .granted ∧
      dataAreaWithLayoutOf build cc memory = .ok dataArea ∧ parseTlvs build dataArea = .ok tlvs ∧
      planWrite build cc tlvs ndefData = .ok job := by
  unfold jobOf at plans
  obtain ⟨cc, parsed, plans⟩ := ok_of_bind plans
  obtain ⟨_, valid, plans⟩ := ok_of_bind plans
  obtain ⟨_, granted, plans⟩ := ok_of_bind plans
  obtain ⟨dataArea, read, plans⟩ := ok_of_bind plans
  obtain ⟨tlvs, listed, plans⟩ := ok_of_bind plans
  exact ⟨cc, dataArea, tlvs, parsed, by simpa using allowed_of_refusal valid,
    by simpa using allowed_of_refusal granted, read, listed, plans⟩

end NfcForumTags
