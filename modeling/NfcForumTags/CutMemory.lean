import NfcForumTags.WritePlan

/-!
# The memory after the first WRITEs

What a write that is cut has placed is determined by the addresses it writes to, the
message and the number of WRITEs applied: the pages of T, a zero length, the message and
a Terminator come first, then those of the real length. The memory left is the old one
with these bytes on the first of the addresses, and for the addresses of a planned job it
is the stage of the plan that the run reaches.
-/
namespace NfcForumTags

open Overlay

/-- T, a length of zero in as many bytes as the length of the message takes, the message
and a Terminator: what `write_ndef` places before the real length. -/
def zeroedTlv (ndefData : List UInt8) : List UInt8 :=
  TLV_NDEF_MESSAGE :: (zeroLengthField ndefData.length ++ ndefData ++ [TLV_TERMINATOR])

/-- The first of some bytes: those that go to the first `k` pages when the bytes are laid
out on these addresses. -/
def firstPages (addresses : List Nat) (bytes : List UInt8) (k : Nat) : List UInt8 :=
  ((pagesOf (addresses.zip bytes)).take k).flatten.map Prod.snd

/-- The number of pages that bytes take on these addresses. -/
def pageCount (addresses : List Nat) (bytes : List UInt8) : Nat :=
  (pagesOf (addresses.zip bytes)).length

/-- The bytes from T on after `k` WRITEs of a message: the first pages of T, a zero
length, the message and the Terminator, and once these are complete the same with the
first pages of the real length. -/
def cutBytes (addresses : List Nat) (ndefData : List UInt8) (k : Nat) : List UInt8 :=
  if k ≤ pageCount addresses (zeroedTlv ndefData) then
    firstPages addresses (zeroedTlv ndefData) k
  else
    let set := firstPages (addresses.drop 1) (realLengthField ndefData.length)
      (k - pageCount addresses (zeroedTlv ndefData))
    TLV_NDEF_MESSAGE :: (set ++ (zeroedTlv ndefData).drop (1 + set.length))

-- From address 18 on, the first WRITE reaches T and the zero length, the second completes the
-- payload, and the third sets the real length.
example : cutBytes (List.range' 18 46) [0xD1, 0xD2] 1 = [0x03, 0x00] ∧
    cutBytes (List.range' 18 46) [0xD1, 0xD2] 2 = [0x03, 0x00, 0xD1, 0xD2, 0xFE] ∧
    cutBytes (List.range' 18 46) [0xD1, 0xD2] 3 = [0x03, 0x02, 0xD1, 0xD2, 0xFE] := by
  decide +kernel

/-- The number of WRITEs of a message to these addresses. -/
def writeCount (addresses : List Nat) (ndefData : List UInt8) : Nat :=
  pageCount addresses (zeroedTlv ndefData) +
    pageCount (addresses.drop 1) (realLengthField ndefData.length)

/-- The old memory with the bytes of `k` WRITEs of a message on the first addresses. -/
def cutMemory (addresses : List Nat) (ndefData : List UInt8) (k : Nat) (memory : Memory) : Memory :=
  place memory (addresses.zip (cutBytes addresses ndefData k))

/-- The zeroed block and its Terminator have the size of the payload. -/
@[simp] theorem length_zeroedTlv (ndefData : List UInt8) :
    (zeroedTlv ndefData).length = 1 + lFieldSize ndefData.length + ndefData.length + 1 := by
  simp [zeroedTlv]
  omega

section

variable {addresses : List Nat} {bytes : List UInt8}

/-- The first pages are some of the first bytes, up to a cut between two pages. -/
theorem firstPages_cut (enough : bytes.length ≤ addresses.length) (k : Nat) :
    ∃ n ≤ bytes.length, firstPages addresses bytes k = bytes.take n ∧
      ((pagesOf (addresses.zip bytes)).take k).flatten = addresses.zip (bytes.take n) := by
  obtain ⟨n, inside, whole, -⟩ := groups_cut (· / 4) (addresses.zip bytes) k
  have pairs : ((pagesOf (addresses.zip bytes)).take k).flatten = addresses.zip (bytes.take n) := by
    rw [← take_zip]
    exact whole
  refine ⟨n, ?_, ?_, pairs⟩
  · rw [List.length_zip] at inside
    omega
  · rw [firstPages, pairs, List.map_snd_zip]
    rw [List.length_take]
    omega

end

namespace WriteJob.Planned

variable {job : WriteJob} {build : Build} {cc : CapabilityContainer} {tlvs : List Tlv}
  {ndefData : List UInt8}

/-- The usable addresses from the NDEF TLV on are enough for all that is written. -/
theorem target_enough (plan : job.Planned build cc tlvs ndefData) :
    (zeroedTlv ndefData).length ≤ (job.layout.usable.drop job.ndefOffset).length := by
  have fits := plan.fits
  have enough := plan.enough
  rw [length_zeroedTlv, List.length_drop]
  omega

/-- Those behind T are enough for the real length. -/
theorem length_enough (plan : job.Planned build cc tlvs ndefData) :
    (realLengthField ndefData.length).length ≤
      ((job.layout.usable.drop job.ndefOffset).drop 1).length := by
  have enough := plan.target_enough
  rw [length_zeroedTlv] at enough
  rw [List.length_drop, length_realLengthField]
  omega

/-- The bytes after `k` WRITEs are no more than T, L, V and the Terminator. -/
theorem length_cutBytes_le (plan : job.Planned build cc tlvs ndefData) (k : Nat) :
    (cutBytes (job.layout.usable.drop job.ndefOffset) ndefData k).length ≤
      (zeroedTlv ndefData).length := by
  have enough := plan.target_enough
  have real := length_realLengthField ndefData.length
  have zeroed := length_zeroedTlv ndefData
  unfold cutBytes
  split
  · obtain ⟨n, inside, first, -⟩ := firstPages_cut enough k
    rw [first, List.length_take]
    omega
  · obtain ⟨n, inside, first, -⟩ := firstPages_cut plan.length_enough
      (k - pageCount (job.layout.usable.drop job.ndefOffset) (zeroedTlv ndefData))
    simp only [first, List.length_cons, List.length_append, List.length_take, List.length_drop]
    omega

/-- A stage of the plan that shows some bytes on the usable addresses from the NDEF TLV
on, and the old ones behind them, is the old memory with these bytes placed there.

No stage changes any other address. -/
theorem planned_place (plan : job.Planned build cc tlvs ndefData) (memory : Memory) (k : Nat)
    {bytes : List UInt8} (few : bytes.length ≤ (zeroedTlv ndefData).length)
    (shown : (job.layout.usable.drop job.ndefOffset).map (planned memory job.pages k) =
      bytes ++ (job.layout.usable.drop (job.ndefOffset + bytes.length)).map memory) :
    planned memory job.pages k =
      place memory ((job.layout.usable.drop job.ndefOffset).zip bytes) := by
  have placed := map_place_zip memory bytes (target_nodup job) (few.trans plan.target_enough)
  rw [List.drop_drop] at placed
  have agree := List.map_inj_left.mp (shown.trans placed.symm)
  funext addr
  by_cases target : addr ∈ job.layout.usable.drop job.ndefOffset
  · exact agree addr target
  · rw [plan.planned_outside memory _ addr ?_, place_of_notMem]
    · intro member
      exact target (List.mem_of_mem_take (map_fst_zip _ _ ▸ member))
    · intro i found
      refine Or.inl (Nat.lt_of_not_le fun after => target ?_)
      exact List.mem_of_getElem? (by
        rw [List.getElem?_drop, Nat.add_sub_cancel' after]
        exact found)

/-- The payload of a job is T, a zero length, the message and the Terminator. -/
theorem payload_zeroed (plan : job.Planned build cc tlvs ndefData) :
    job.payload = zeroedTlv ndefData := plan.payload

/-- The pages of the payload. -/
theorem payload_pages (plan : job.Planned build cc tlvs ndefData) :
    pagesOf job.payloadPairs =
      pagesOf ((job.layout.usable.drop job.ndefOffset).zip (zeroedTlv ndefData)) := by
  rw [payloadPairs, plan.payload_zeroed]

/-- The pages of the real length field. -/
theorem length_pages (plan : job.Planned build cc tlvs ndefData) :
    pagesOf job.lengthPairs =
      pagesOf (((job.layout.usable.drop job.ndefOffset).drop 1).zip
        (realLengthField ndefData.length)) := by
  rw [lengthPairs, plan.lengthField, List.drop_drop]

/-- A job writes as many pages as its addresses and message call for. -/
theorem length_pages_eq (plan : job.Planned build cc tlvs ndefData) :
    job.pages.length = writeCount (job.layout.usable.drop job.ndefOffset) ndefData := by
  rw [pages, List.length_append, plan.payload_pages, plan.length_pages]
  rfl

/-- The stage `k` of a plan is the old memory with the bytes of `k` WRITEs placed.

Up to the last page of the payload the stage is made of its first pages. From then on the
payload is complete and the first pages of the real length lie over its zero length. -/
theorem planned_cutMemory (plan : job.Planned build cc tlvs ndefData) (memory : Memory) (k : Nat) :
    planned memory job.pages k =
      cutMemory (job.layout.usable.drop job.ndefOffset) ndefData k memory := by
  have enough := plan.target_enough
  have real := length_realLengthField ndefData.length
  have zeroed := length_zeroedTlv ndefData
  unfold cutMemory
  by_cases early : k ≤ pageCount (job.layout.usable.drop job.ndefOffset) (zeroedTlv ndefData)
  · obtain ⟨n, -, first, pairs⟩ := firstPages_cut enough k
    rw [cutBytes, if_pos early, first, planned, pages, plan.payload_pages,
      List.take_append_of_le_length early, pairs]
  · have late : cutBytes (job.layout.usable.drop job.ndefOffset) ndefData k = _ := if_neg early
    have fewer := plan.length_cutBytes_le k
    obtain ⟨n, inside, first, pairs⟩ := firstPages_cut plan.length_enough
      (k - pageCount (job.layout.usable.drop job.ndefOffset) (zeroedTlv ndefData))
    simp only [first, List.length_take, min_eq_left inside] at late
    refine plan.planned_place memory k fewer ?_
    -- The payload is complete, and `n` bytes of the real length are placed.
    have stage : planned memory job.pages k =
        place (place memory job.payloadPairs) (job.lengthPairs.take n) := by
      rw [planned, pages, List.take_append, List.flatten_append, place_append,
        List.take_of_length_le (by rw [plan.payload_pages]; exact (Nat.lt_of_not_le early).le),
        plan.length_pages, plan.payload_pages]
      rw [show (pagesOf ((job.layout.usable.drop job.ndefOffset).zip (zeroedTlv ndefData))).length =
        pageCount (job.layout.usable.drop job.ndefOffset) (zeroedTlv ndefData) from rfl, pairs]
      rw [lengthPairs, take_zip, plan.lengthField, List.drop_drop, ← plan.payload_pages]
      exact congrArg (fun pairs => place (place memory pairs) _)
        (flatten_groups (· / 4) job.payloadPairs)
    have shown := plan.length_placed memory (n := n) (by rw [plan.lengthField]; exact inside)
    rw [← stage] at shown
    have size : 1 + (n + ((zeroedTlv ndefData).length - (1 + n))) = job.payload.length := by
      rw [plan.payload_zeroed]
      omega
    have dropped : (zeroedTlv ndefData).drop (1 + n) =
        (zeroLengthField ndefData.length).drop n ++ (ndefData ++ [TLV_TERMINATOR]) := by
      rw [zeroedTlv, Nat.add_comm, List.drop_succ_cons, List.append_assoc,
        List.drop_append_of_le_length (by rw [length_zeroLengthField]; omega)]
    rw [shown, late, dropped, plan.lengthField]
    have count : (TLV_NDEF_MESSAGE :: ((realLengthField ndefData.length).take n ++
        ((zeroLengthField ndefData.length).drop n ++ (ndefData ++ [TLV_TERMINATOR])))).length =
        job.payload.length := by
      rw [← dropped, ← size]
      simp only [List.length_cons, List.length_append, List.length_take, List.length_drop]
      omega
    rw [count]
    simp

/-- The bytes after all pages of the payload: the payload. -/
theorem cutBytes_payload (plan : job.Planned build cc tlvs ndefData) :
    cutBytes (job.layout.usable.drop job.ndefOffset) ndefData
      (pageCount (job.layout.usable.drop job.ndefOffset) (zeroedTlv ndefData)) =
      zeroedTlv ndefData := by
  rw [cutBytes, if_pos (Nat.le_refl _), firstPages, pageCount, List.take_length, pagesOf,
    flatten_groups, List.map_snd_zip plan.target_enough]

/-- The bytes after all pages: the serialized TLV and a Terminator. -/
theorem cutBytes_complete (plan : job.Planned build cc tlvs ndefData) :
    cutBytes (job.layout.usable.drop job.ndefOffset) ndefData
      (writeCount (job.layout.usable.drop job.ndefOffset) ndefData) =
      encodedValue TLV_NDEF_MESSAGE ndefData ++ [TLV_TERMINATOR] := by
  have enough := plan.target_enough
  have zeroed := length_zeroedTlv ndefData
  have real := length_realLengthField ndefData.length
  have positive := lFieldSize_pos ndefData.length
  have room : (realLengthField ndefData.length).length ≤
      ((job.layout.usable.drop job.ndefOffset).drop 1).length := by
    rw [List.length_drop]
    omega
  have some : 0 < pageCount ((job.layout.usable.drop job.ndefOffset).drop 1)
      (realLengthField ndefData.length) := by
    unfold pageCount
    rw [List.length_pos_iff]
    intro none
    have flat := flatten_groups (· / 4) (((job.layout.usable.drop job.ndefOffset).drop 1).zip
      (realLengthField ndefData.length))
    rw [show groups (· / 4) _ = [] from none] at flat
    have size := congrArg List.length flat
    rw [List.length_zip] at size
    simp only [List.flatten_nil, List.length_nil] at size
    omega
  have set : firstPages ((job.layout.usable.drop job.ndefOffset).drop 1)
      (realLengthField ndefData.length)
      (writeCount (job.layout.usable.drop job.ndefOffset) ndefData -
        pageCount (job.layout.usable.drop job.ndefOffset) (zeroedTlv ndefData)) =
      realLengthField ndefData.length := by
    rw [writeCount, Nat.add_sub_cancel_left, firstPages, pageCount, List.take_length, pagesOf,
      flatten_groups, List.map_snd_zip room]
  rw [cutBytes, if_neg (by unfold writeCount; omega)]
  simp only [set, real]
  rw [zeroedTlv, Nat.add_comm 1, List.drop_succ_cons, List.append_assoc,
    List.drop_left' (length_zeroLengthField _)]
  simp [encodedValue]

/-- Every byte placed by some WRITEs is that of the payload or that of the complete TLV. -/
theorem cutBytes_getElem (plan : job.Planned build cc tlvs ndefData) {k i : Nat} {byte : UInt8}
    (placed : (cutBytes (job.layout.usable.drop job.ndefOffset) ndefData k)[i]? = some byte) :
    (zeroedTlv ndefData)[i]? = some byte ∨
      (encodedValue TLV_NDEF_MESSAGE ndefData ++ [TLV_TERMINATOR])[i]? = some byte := by
  have enough := plan.target_enough
  have zeroed := length_zeroedTlv ndefData
  have real := length_realLengthField ndefData.length
  unfold cutBytes at placed
  split at placed
  · obtain ⟨n, -, first, -⟩ := firstPages_cut enough k
    rw [first, List.getElem?_take] at placed
    split at placed
    · exact Or.inl placed
    · cases placed
  · obtain ⟨n, inside, first, -⟩ := firstPages_cut plan.length_enough
      (k - pageCount (job.layout.usable.drop job.ndefOffset) (zeroedTlv ndefData))
    simp only [first, List.length_take, min_eq_left inside] at placed
    cases i with
    | zero => exact Or.inl placed
    | succ i =>
      rw [List.getElem?_cons_succ] at placed
      by_cases set : i < n
      · -- A byte of the real length field.
        rw [List.getElem?_append_left (by rw [List.length_take]; omega),
          List.getElem?_take_of_lt set] at placed
        refine Or.inr ?_
        rw [encodedValue, List.cons_append, List.getElem?_cons_succ, List.append_assoc,
          List.getElem?_append_left (by omega)]
        exact placed
      · rw [List.getElem?_append_right (by rw [List.length_take]; omega), List.length_take,
          min_eq_left inside, List.getElem?_drop] at placed
        rw [show 1 + n + (i - n) = i + 1 by omega] at placed
        exact Or.inl placed

/-- After some WRITEs an address holds its old byte, or the byte that the payload or the
complete TLV has for it. -/
theorem planned_byte (plan : job.Planned build cc tlvs ndefData) (memory : Memory) (k addr : Nat) :
    planned memory job.pages k addr = memory addr ∨
      ∃ i, job.layout.usable[job.ndefOffset + i]? = some addr ∧
        ((zeroedTlv ndefData)[i]? = some (planned memory job.pages k addr) ∨
          (encodedValue TLV_NDEF_MESSAGE ndefData ++ [TLV_TERMINATOR])[i]? =
            some (planned memory job.pages k addr)) := by
  rw [plan.planned_cutMemory, cutMemory]
  generalize shape : cutBytes (job.layout.usable.drop job.ndefOffset) ndefData k = bytes
  by_cases placed : addr ∈ ((job.layout.usable.drop job.ndefOffset).zip bytes).map Prod.fst
  · rw [map_fst_zip, List.mem_take_iff_getElem] at placed
    obtain ⟨i, inside, rfl⟩ := placed
    have few := plan.length_cutBytes_le k
    rw [shape] at few
    refine Or.inr ⟨i, ?_, ?_⟩
    · rw [← List.getElem?_drop]
      exact List.getElem?_eq_getElem (by omega)
    · rw [place_zip_getElem memory bytes (target_nodup job) i (by omega) (by omega)]
      refine plan.cutBytes_getElem (k := k) ?_
      rw [shape]
      exact List.getElem?_eq_getElem _
  · exact Or.inl (place_of_notMem placed)

/-- What is placed by some WRITEs is read back on the first of the addresses. -/
theorem planned_shown (plan : job.Planned build cc tlvs ndefData) (memory : Memory) (k : Nat) :
    (job.layout.usable.drop job.ndefOffset).map (planned memory job.pages k) =
      cutBytes (job.layout.usable.drop job.ndefOffset) ndefData k ++
        ((job.layout.usable.drop job.ndefOffset).drop
          (cutBytes (job.layout.usable.drop job.ndefOffset) ndefData k).length).map memory := by
  rw [plan.planned_cutMemory, cutMemory]
  exact map_place_zip memory _ (target_nodup job)
    ((plan.length_cutBytes_le k).trans plan.target_enough)

end WriteJob.Planned

end NfcForumTags
