import NfcForumTags.CutRuns
import NfcForumTags.LastWrite
import NfcForumTags.NdefTarget

/-!
# The length field while a message is written

`write_ndef` first writes a zero length with the message, and the real length last.
A length field of three bytes may lie in two pages, and then one page of it is
written before the other: in between it mixes zeros with old or new bytes.
-/
namespace NfcForumTags

open Program Overlay

/-! ## What the length field may show -/

/-- What may be decoded behind T while `new` replaces `old`: no value, the old value, or
the new one with its Terminator. -/
def Harmless (old new : List UInt8) (len : Nat) (behind : List UInt8) : Prop :=
  len = 0 ∨ len = old.length ∧ old <+: behind ∨
    len = new.length ∧ new ++ [TLV_TERMINATOR] <+: behind

/-- At an index of the data there is an NDEF Message TLV, with a harmless length. -/
def CrashSafe (old new data : List UInt8) (index : Nat) : Prop :=
  data[index]? = some TLV_NDEF_MESSAGE ∧ ∃ len consumed,
    parseTlvLength data (index + 1) = .ok (len, consumed) ∧
      Harmless old new len (data.drop (index + 1 + consumed))

/-- What is decoded depends on the data from the index on. -/
theorem crashSafe_iff {old new data rest : List UInt8} {index len consumed : Nat}
    (shape : data.drop index = TLV_NDEF_MESSAGE :: rest)
    (length : lengthField rest = .ok (len, consumed)) :
    CrashSafe old new data index ↔ Harmless old new len (rest.drop consumed) := by
  have tag : data[index]? = some TLV_NDEF_MESSAGE := by
    rw [← List.head?_drop, shape]
    rfl
  have behind : data.drop (index + 1) = rest := by
    rw [← List.drop_drop, shape]
    rfl
  unfold CrashSafe
  rw [parseTlvLength_eq, behind, length]
  constructor
  · rintro ⟨-, len', consumed', same, harmless⟩
    cases same
    rwa [← List.drop_drop, behind] at harmless
  · intro harmless
    exact ⟨tag, len, consumed, rfl, by rwa [← List.drop_drop, behind]⟩

/-- A zero length is harmless. -/
theorem crashSafe_zero {old new data rest : List UInt8} {index consumed : Nat}
    (shape : data.drop index = TLV_NDEF_MESSAGE :: rest)
    (length : lengthField rest = .ok (0, consumed)) :
    CrashSafe old new data index := (crashSafe_iff shape length).mpr (Or.inl rfl)

/-- Behind the new value and its Terminator nothing matters to a length up to the new one. -/
theorem harmless_behind (old : List UInt8) {new : List UInt8} (rest : List UInt8) {len : Nat}
    (few : len ≤ new.length) :
    Harmless old new len (new ++ TLV_TERMINATOR :: rest) ↔
      Harmless old new len (new ++ [TLV_TERMINATOR]) := by
  have whole : new ++ [TLV_TERMINATOR] <+: new ++ TLV_TERMINATOR :: rest := ⟨rest, by simp⟩
  unfold Harmless
  refine or_congr_right (or_congr ?_ ?_)
  · refine and_congr_right fun same => ⟨fun intact => ?_, fun intact => intact.trans whole⟩
    exact List.prefix_of_prefix_length_le intact whole (by simp; omega)
  · exact and_congr_right fun _ => ⟨fun _ => List.prefix_rfl, fun _ => whole⟩

/-- What is decoded at an index is decoded at the head of the data from the index on. -/
theorem crashSafe_drop {old new data : List UInt8} {index : Nat} :
    CrashSafe old new data index ↔ CrashSafe old new (data.drop index) 0 := by
  unfold CrashSafe
  rw [parseTlvLength_eq, parseTlvLength_eq, List.getElem?_drop, List.drop_drop]
  simp only [List.drop_drop, Nat.add_zero, Nat.zero_add, Nat.add_assoc]

/-- An intact TLV is harmless. -/
theorem NdefAt.crashSafe {old data : List UInt8} {index : Nat} (here : NdefAt data index old)
    (new : List UInt8) : CrashSafe old new data index := by
  obtain ⟨field, rest, length, shape⟩ := here
  refine (crashSafe_iff shape (length.read _)).mpr (Or.inr (Or.inl ⟨rfl, ?_⟩))
  rw [List.drop_left]
  exact List.prefix_append _ _

/-- The usable bytes `i` and `i + 1` of the data area are in different pages. -/
def MemoryLayout.CutAfter (layout : MemoryLayout) (i : Nat) : Prop :=
  (layout.usableOffsetToAddress i).map (· / 4) ≠
    (layout.usableOffsetToAddress (i + 1)).map (· / 4)

/-- Where a length field of three bytes lies in two pages, the lengths it shows with one of
them written are harmless: with the first byte set, with two bytes set, and at the end
with the low byte of the length still zero. -/
structure Unmixed (layout : MemoryLayout) (index : Nat) (old new data : List UInt8) : Prop where
  first : layout.CutAfter (index + 1) →
    Harmless old new ((data.getD (index + 2) 0).toNat * 256 + (data.getD (index + 3) 0).toNat)
      (data.drop (index + 4))
  second : layout.CutAfter (index + 2) →
    Harmless old new (data.getD (index + 3) 0).toNat (data.drop (index + 4))
  last : layout.CutAfter (index + 2) →
    Harmless old new (new.length / 256 * 256) (new ++ [TLV_TERMINATOR])

/-- Bytes that are written from the index of the old TLV on show a harmless TLV there
whenever a page ends among them, with the old bytes behind the page, and once all of them
are written. -/
def LandsHarmlessly (layout : MemoryLayout) (index : Nat)
    (landing old new data : List UInt8) : Prop :=
  ∀ i, 0 < i → i ≤ landing.length → i = landing.length ∨ layout.CutAfter (index + i - 1) →
    CrashSafe old new (landing.take i ++ data.drop (index + i)) 0

/-- When a message written from an offset on leaves a harmless TLV at the index of the old
one throughout. Either the offset is the index, and the new length field has one byte or is
unmixed; or the index is behind the new length field, and what the message and its
Terminator have there, if anything, lands harmlessly. -/
def KeepsLength (layout : MemoryLayout) (offset index : Nat) (old new data : List UInt8) : Prop :=
  offset = index ∧ (new.length < 0xFF ∨ Unmixed layout index old new data) ∨
  offset + 1 + lFieldSize new.length ≤ index ∧
    LandsHarmlessly layout index
      ((new ++ [TLV_TERMINATOR]).drop (index - (offset + 1 + lFieldSize new.length))) old new data

-- Three bytes ahead of the index there is room for an empty message and its Terminator, which
-- leave the old TLV as it is.
example (layout : MemoryLayout) (old data : List UInt8) : KeepsLength layout 0 3 old [] data := by
  refine Or.inr ⟨by decide, fun i positive inside _ => ?_⟩
  have none_left : i ≤ 0 := inside
  omega

namespace WriteJob.Planned

variable {build : Build} {cc : CapabilityContainer} {tlvs : List Tlv} {job : WriteJob}
  {new : List UInt8}

/-- The data area from T on, with the first bytes of the payload placed. -/
theorem payload_shown (plan : job.Planned build cc tlvs new) (base : Memory) {n : Nat}
    (inside : n ≤ job.payload.length) :
    (dataBytes job.layout (place base (job.payloadPairs.take n))).drop job.ndefOffset =
      job.payload.take n ++ (dataBytes job.layout base).drop (job.ndefOffset + n) := by
  have fits := plan.fits
  have size := plan.payload_length
  have count : (job.payload.take n).length = n := by
    rw [List.length_take]
    omega
  rw [plan.drop_dataBytes, plan.payload_placed base inside, plan.drop_dataBytes, List.take_append,
    count, List.take_of_length_le (by omega), Nat.sub_sub]

/-- The data area from T on, with the payload and the first bytes of the length field placed. -/
theorem length_shown (plan : job.Planned build cc tlvs new) (base : Memory) {n : Nat}
    (inside : n ≤ job.lengthField.length) : ∃ rest,
    (dataBytes job.layout (place (place base job.payloadPairs) (job.lengthPairs.take n))).drop
        job.ndefOffset =
      TLV_NDEF_MESSAGE :: (job.lengthField.take n ++ ((zeroLengthField new.length).drop n ++
        (new ++ TLV_TERMINATOR :: rest))) := by
  have fits := plan.fits
  have lengthSize : job.lengthField.length = lFieldSize new.length := by
    rw [plan.lengthField, length_realLengthField]
  have zeroSize : (zeroLengthField new.length).length = lFieldSize new.length :=
    length_zeroLengthField _
  generalize rest : (job.layout.usable.drop (job.ndefOffset + job.payload.length)).map base = after
  have shape := plan.length_placed base inside
  rw [rest] at shape
  have whole : TLV_NDEF_MESSAGE :: (job.lengthField.take n ++
      ((zeroLengthField new.length).drop n ++
      (new ++ TLV_TERMINATOR :: after))) =
      (TLV_NDEF_MESSAGE :: (job.lengthField.take n ++ ((zeroLengthField new.length).drop n ++
        (new ++ [TLV_TERMINATOR])))) ++ after := by simp
  have count : (TLV_NDEF_MESSAGE :: (job.lengthField.take n ++
      ((zeroLengthField new.length).drop n ++
      (new ++ [TLV_TERMINATOR])))).length ≤ cc.dataAreaSize - job.ndefOffset := by
    simp only [List.length_cons, List.length_append, List.length_take, List.length_drop,
      List.length_nil]
    omega
  rw [plan.drop_dataBytes, shape, whole, List.take_append, List.take_of_length_le count]
  generalize after.take _ = tail
  exact ⟨tail, by simp⟩

/-- Every byte of the payload has an address. -/
theorem length_payloadPairs (plan : job.Planned build cc tlvs new) :
    job.payloadPairs.length = job.payload.length := by
  have size := plan.payload_length
  have fits := plan.fits
  have enough := plan.enough
  rw [payloadPairs, List.length_zip, List.length_drop]
  omega

/-- The addresses of the payload's bytes. -/
theorem payloadPairs_cut (plan : job.Planned build cc tlvs new) {n : Nat}
    (inside : n + 1 < job.payload.length) :
    Separated (· / 4) (job.payloadPairs.take (n + 1)) (job.payloadPairs.drop (n + 1)) ↔
      job.layout.CutAfter (job.ndefOffset + n) := by
  have fits := plan.fits
  have enough := plan.enough
  have size := plan.payload_length
  have count : n + 1 < job.payloadPairs.length := by rwa [plan.length_payloadPairs]
  rw [separated_cut count, MemoryLayout.CutAfter, MemoryLayout.usableOffsetToAddress_eq,
    MemoryLayout.usableOffsetToAddress_eq, List.getElem?_eq_getElem (by omega),
    List.getElem?_eq_getElem (by omega)]
  simp [payloadPairs, List.getElem_zip, List.getElem_drop, Nat.add_assoc]

/-- The addresses of the length field's bytes. -/
theorem lengthPairs_cut (plan : job.Planned build cc tlvs new) {n : Nat}
    (inside : n + 1 < job.lengthField.length) :
    Separated (· / 4) (job.lengthPairs.take (n + 1)) (job.lengthPairs.drop (n + 1)) ↔
      job.layout.CutAfter (job.ndefOffset + 1 + n) := by
  have fits := plan.fits
  have enough := plan.enough
  have lengthSize : job.lengthField.length = lFieldSize new.length := by
    rw [plan.lengthField, length_realLengthField]
  have count : n + 1 < job.lengthPairs.length := by
    rw [lengthPairs, List.length_zip, List.length_drop]
    omega
  rw [separated_cut count, MemoryLayout.CutAfter, MemoryLayout.usableOffsetToAddress_eq,
    MemoryLayout.usableOffsetToAddress_eq, List.getElem?_eq_getElem (by omega),
    List.getElem?_eq_getElem (by omega)]
  simp [lengthPairs, List.getElem_zip, List.getElem_drop, Nat.add_assoc]

/-! ### The stages -/

section

variable {base : Memory} {old : List UInt8}

/-- The old TLV is intact until its length field is written. -/
theorem old_safe (plan : job.Planned build cc tlvs new)
    (here : NdefAt (dataBytes job.layout base) job.ndefOffset old) {n : Nat} (few : n ≤ 1) :
    CrashSafe old new (dataBytes job.layout (place base (job.payloadPairs.take n)))
      job.ndefOffset := by
  obtain ⟨field, rest, length, shape⟩ := here
  have size := plan.payload_length
  have shown := plan.payload_shown base (by omega : n ≤ job.payload.length)
  have same : job.payload.take n ++ (dataBytes job.layout base).drop (job.ndefOffset + n) =
      TLV_NDEF_MESSAGE :: (field ++ (old ++ rest)) := by
    rw [← List.drop_drop, shape]
    obtain rfl | rfl : n = 0 ∨ n = 1 := by omega
    · rfl
    · rw [plan.payload]
      rfl
  exact NdefAt.crashSafe ⟨field, rest, length, shown.trans same⟩ new

/-- With a length below 255 one byte is written, and it is zero at first. -/
theorem short_payload_safe (plan : job.Planned build cc tlvs new)
    (here : NdefAt (dataBytes job.layout base) job.ndefOffset old)
    (short : new.length < 0xFF) {n : Nat}
    (inside : n ≤ job.payload.length) :
    CrashSafe old new (dataBytes job.layout (place base (job.payloadPairs.take n)))
      job.ndefOffset := by
  have shown := plan.payload_shown base inside
  rw [plan.payload, zeroLengthField, if_pos short] at shown
  by_cases few : n ≤ 1
  · exact plan.old_safe here few
  · obtain ⟨more, rfl⟩ := Nat.exists_eq_add_of_le' (Nat.lt_of_not_le few)
    exact crashSafe_zero shown rfl

/-- With a length from 255 on, three zero bytes of length are harmless. -/
theorem long_payload_safe (plan : job.Planned build cc tlvs new)
    (long : ¬ new.length < 0xFF) {n : Nat}
    (inside : n + 4 ≤ job.payload.length) :
    CrashSafe old new (dataBytes job.layout (place base (job.payloadPairs.take (n + 4))))
      job.ndefOffset := by
  have shown := plan.payload_shown base inside
  rw [plan.payload, zeroLengthField, if_neg long] at shown
  exact crashSafe_zero shown rfl

/-- The bytes of T and a length field of three bytes, and what is behind them. -/
theorem long_shape (plan : job.Planned build cc tlvs new) (base : Memory)
    (long : ¬ new.length < 0xFF) :
    ∃ b0 b1 b2 b3 behind, (dataBytes job.layout base).drop job.ndefOffset =
      b0 :: b1 :: b2 :: b3 :: behind ∧
      (dataBytes job.layout base).getD (job.ndefOffset + 2) 0 = b2 ∧
      (dataBytes job.layout base).getD (job.ndefOffset + 3) 0 = b3 ∧
      (dataBytes job.layout base).drop (job.ndefOffset + 4) = behind := by
  have fits := plan.fits
  have enough := plan.enough
  have count : 4 ≤ ((dataBytes job.layout base).drop job.ndefOffset).length := by
    rw [List.length_drop, dataBytes, List.length_map, List.length_take, plan.layout_size]
    omega
  have get : ∀ i, (dataBytes job.layout base).getD (job.ndefOffset + i) 0 =
      ((dataBytes job.layout base).drop job.ndefOffset).getD i 0 := by
    intro i
    rw [List.getD_eq_getElem?_getD, List.getD_eq_getElem?_getD, List.getElem?_drop]
  rw [get, get, ← List.drop_drop]
  generalize (dataBytes job.layout base).drop job.ndefOffset = bytes at count
  rcases bytes with _ | ⟨b0, _ | ⟨b1, _ | ⟨b2, _ | ⟨b3, behind⟩⟩⟩⟩
  -- Fewer than four bytes are not enough.
  case cons.cons.cons.cons => exact ⟨b0, b1, b2, b3, behind, rfl, rfl, rfl, rfl⟩
  all_goals simp at count

/-- With the first byte of a three-byte length field written, the old bytes give the length. -/
theorem first_mixed_iff (plan : job.Planned build cc tlvs new) (long : ¬ new.length < 0xFF) :
    CrashSafe old new (dataBytes job.layout (place base (job.payloadPairs.take 2))) job.ndefOffset ↔
      Harmless old new (((dataBytes job.layout base).getD (job.ndefOffset + 2) 0).toNat * 256 +
        ((dataBytes job.layout base).getD (job.ndefOffset + 3) 0).toNat)
        ((dataBytes job.layout base).drop (job.ndefOffset + 4)) := by
  obtain ⟨b0, b1, b2, b3, behind, shape, second, third, rest⟩ := plan.long_shape base long
  have size := plan.payload_length
  have shown := plan.payload_shown base (by omega : 2 ≤ job.payload.length)
  rw [plan.payload, zeroLengthField, if_neg long, ← List.drop_drop, shape] at shown
  rw [second, third, rest]
  exact crashSafe_iff shown rfl

/-- With two bytes of a three-byte length field written, the old third byte gives the length. -/
theorem second_mixed_iff (plan : job.Planned build cc tlvs new) (long : ¬ new.length < 0xFF) :
    CrashSafe old new (dataBytes job.layout (place base (job.payloadPairs.take 3))) job.ndefOffset ↔
      Harmless old new ((dataBytes job.layout base).getD (job.ndefOffset + 3) 0).toNat
        ((dataBytes job.layout base).drop (job.ndefOffset + 4)) := by
  obtain ⟨b0, b1, b2, b3, behind, shape, second, third, rest⟩ := plan.long_shape base long
  have size := plan.payload_length
  have shown := plan.payload_shown base (by omega : 3 ≤ job.payload.length)
  rw [plan.payload, zeroLengthField, if_neg long, ← List.drop_drop, shape] at shown
  rw [third, rest]
  have length : NfcForumTags.lengthField (0xFF :: 0x00 :: b3 :: behind) = .ok (b3.toNat, 3) :=
    congrArg (fun len => Except.ok (len, 3)) (Nat.zero_add _)
  exact crashSafe_iff shown length

/-- The high byte of an encodable length. -/
theorem highByte_toNat (encodable : new.length ≤ MAX_TLV_LENGTH) :
    (new.length >>> 8).toUInt8.toNat = new.length / 256 := by
  unfold MAX_TLV_LENGTH at encodable
  simp only [Nat.toUInt8, UInt8.toNat_ofNat', Nat.shiftRight_eq_div_pow]
  omega

/-- With two bytes of the real length written, its low byte is still zero. -/
theorem last_mixed_iff (plan : job.Planned build cc tlvs new) (long : ¬ new.length < 0xFF) :
    CrashSafe old new (dataBytes job.layout (place (place base job.payloadPairs)
      (job.lengthPairs.take 2)))
        job.ndefOffset ↔ Harmless old new (new.length / 256 * 256) (new ++ [TLV_TERMINATOR]) := by
  have size : 2 ≤ job.lengthField.length := by
    rw [plan.lengthField, length_realLengthField, lFieldSize, if_neg long]
    omega
  obtain ⟨rest, shown⟩ := plan.length_shown base size
  rw [plan.lengthField, realLengthField, if_neg long, zeroLengthField, if_neg long] at shown
  have length : NfcForumTags.lengthField (0xFF :: (new.length >>> 8).toUInt8 :: 0x00 ::
      (new ++ TLV_TERMINATOR :: rest)) =
      .ok (new.length / 256 * 256, 3) := by
    have field := LengthField.long (new.length >>> 8).toUInt8 0x00
    rw [highByte_toNat plan.encodable, show (0x00 : UInt8).toNat = 0 from rfl,
      Nat.add_zero] at field
    exact field.read (new ++ TLV_TERMINATOR :: rest)
  rw [crashSafe_iff shown length]
  exact harmless_behind old rest (Nat.div_mul_le_self _ _)

/-- The other parts of the length field show no value, or the new one. -/
theorem length_safe (plan : job.Planned build cc tlvs new) {n : Nat}
    (inside : n ≤ job.lengthField.length) (other : new.length < 0xFF ∨ n ≠ 2) :
    CrashSafe old new (dataBytes job.layout (place (place base job.payloadPairs)
      (job.lengthPairs.take n)))
      job.ndefOffset := by
  obtain ⟨rest, shown⟩ := plan.length_shown base inside
  have size : job.lengthField.length = lFieldSize new.length := by
    rw [plan.lengthField, length_realLengthField]
  by_cases whole : n = job.lengthField.length
  · have bytes : job.lengthField.take n ++ ((zeroLengthField new.length).drop n ++
        (new ++ TLV_TERMINATOR :: rest)) =
        realLengthField new.length ++ (new ++ TLV_TERMINATOR :: rest) := by
      rw [List.drop_eq_nil_of_le (by rw [length_zeroLengthField]; omega), List.nil_append, whole,
        List.take_length, plan.lengthField]
    rw [bytes] at shown
    refine (crashSafe_iff shown ((LengthField.encoded plan.encodable).read _)).mpr
      (Or.inr (Or.inr ⟨rfl, ?_⟩))
    rw [List.drop_left]
    exact ⟨rest, by simp⟩
  · rw [plan.lengthField, realLengthField, zeroLengthField] at shown
    unfold lFieldSize at size
    split at size
    · next short =>
      obtain rfl : n = 0 := by omega
      rw [if_pos short, if_pos short] at shown
      exact crashSafe_zero shown rfl
    · next long =>
      rw [if_neg long, if_neg long] at shown
      obtain rfl | rfl : n = 0 ∨ n = 1 := by omega
      · exact crashSafe_zero shown rfl
      · exact crashSafe_zero shown rfl

/-- Every stage of the plan is harmless exactly when a length field of one byte is written,
or a mixed one of three bytes is harmless. -/
theorem stages_safe_iff (plan : job.Planned build cc tlvs new)
    (here : NdefAt (dataBytes job.layout base) job.ndefOffset old) :
    (∀ k ≤ job.pages.length,
      CrashSafe old new (dataBytes job.layout (planned base job.pages k)) job.ndefOffset) ↔
    (new.length < 0xFF ∨ Unmixed job.layout job.ndefOffset old new
      (dataBytes job.layout base)) := by
  have payloadSize := plan.payload_length
  have lengthSize : job.lengthField.length = lFieldSize new.length := by
    rw [plan.lengthField, length_realLengthField]
  have pairs : job.payloadPairs.length ≤ job.payload.length ∧
      job.lengthPairs.length ≤ job.lengthField.length := by
    rw [payloadPairs, lengthPairs, List.length_zip, List.length_zip]
    omega
  constructor
  · intro safe
    by_cases short : new.length < 0xFF
    · exact Or.inl short
    rw [lFieldSize, if_neg short] at payloadSize lengthSize
    refine Or.inr ⟨fun cut => ?_, fun cut => ?_, fun cut => ?_⟩
    · obtain ⟨k, inside, stage⟩ :=
        payload_stage job base ((plan.payloadPairs_cut (by omega : 1 + 1 < _)).mpr cut)
      exact (plan.first_mixed_iff short).mp (stage ▸ safe k inside)
    · obtain ⟨k, inside, stage⟩ :=
        payload_stage job base ((plan.payloadPairs_cut (by omega : 2 + 1 < _)).mpr cut)
      exact (plan.second_mixed_iff short).mp (stage ▸ safe k inside)
    · obtain ⟨k, inside, stage⟩ :=
        length_stage job base ((plan.lengthPairs_cut (by omega : 1 + 1 < _)).mpr cut)
      exact (plan.last_mixed_iff short).mp (stage ▸ safe k inside)
  · intro condition k inside
    rcases planned_cut job base k with ⟨n, most, stage, separated⟩ | ⟨n, most, stage, separated⟩
    · rw [stage]
      by_cases short : new.length < 0xFF
      · exact plan.short_payload_safe here short (by omega)
      have unmixed := condition.resolve_left short
      rw [lFieldSize, if_neg short] at payloadSize
      obtain few | rfl | rfl | many : n ≤ 1 ∨ n = 2 ∨ n = 3 ∨ 4 ≤ n := by omega
      · exact plan.old_safe here few
      · exact (plan.first_mixed_iff short).mpr
          (unmixed.first ((plan.payloadPairs_cut (by omega)).mp separated))
      · exact (plan.second_mixed_iff short).mpr
          (unmixed.second ((plan.payloadPairs_cut (by omega)).mp separated))
      · obtain ⟨more, rfl⟩ := Nat.exists_eq_add_of_le' many
        exact plan.long_payload_safe short (by omega)
    · rw [stage]
      by_cases mixed : n = 2 ∧ ¬ new.length < 0xFF
      · obtain ⟨rfl, long⟩ := mixed
        rw [lFieldSize, if_neg long] at lengthSize
        exact (plan.last_mixed_iff long).mpr ((condition.resolve_left long).last
          ((plan.lengthPairs_cut (by omega)).mp separated))
      · exact plan.length_safe (by omega) (by omega)

/-! ### An offset ahead of the index -/

/-- The bytes from an index on with the first bytes of the payload placed, for an index at
which the payload has begun or not. -/
theorem landing_shown (plan : job.Planned build cc tlvs new) (base : Memory) {index n : Nat}
    (behind : job.ndefOffset ≤ index) (inside : n ≤ job.payload.length) :
    (dataBytes job.layout (place base (job.payloadPairs.take n))).drop index =
      (job.payload.take n).drop (index - job.ndefOffset) ++
        (dataBytes job.layout base).drop (max index (job.ndefOffset + n)) := by
  have shown := congrArg (List.drop (index - job.ndefOffset)) (plan.payload_shown base inside)
  rw [List.drop_drop, Nat.add_sub_cancel' behind, List.drop_append, List.length_take,
    min_eq_left inside, List.drop_drop] at shown
  rw [shown]
  congr 2
  omega

/-- Placing the real length changes nothing behind the length field. -/
theorem length_behind (plan : job.Planned build cc tlvs new) (content : Memory) {index : Nat}
    (behind : job.ndefOffset + 1 + lFieldSize new.length ≤ index) (n : Nat) :
    (dataBytes job.layout (place content (job.lengthPairs.take n))).drop index =
      (dataBytes job.layout content).drop index := by
  have size : job.lengthField.length = lFieldSize new.length := by
    rw [plan.lengthField, length_realLengthField]
  rw [plan.drop_dataBytes, plan.drop_dataBytes]
  refine congrArg (List.take _) (List.map_congr_left fun addr member => place_of_notMem ?_)
  intro placed
  unfold lengthPairs at placed
  rw [take_zip, map_fst_zip, List.length_take, size] at placed
  obtain ⟨i, inside, same⟩ := List.mem_take_iff_getElem.mp placed
  have here : (job.layout.usable.drop (job.ndefOffset + 1))[i]? = some addr := by
    rw [← same]
    exact List.getElem?_eq_getElem _
  obtain ⟨j, there⟩ := List.mem_iff_getElem?.mp member
  rw [List.getElem?_drop] at here there
  exact absurd (Enumeration.kept_lt (show job.ndefOffset + 1 + i < index + j by omega) here there)
    (Nat.lt_irrefl _)

/-- An index in the new length field shows no NDEF TLV once the payload is written. -/
theorem inside_field_unsafe (plan : job.Planned build cc tlvs new) (base : Memory) {index : Nat}
    (after : job.ndefOffset < index) (inside : index < job.ndefOffset + 1 + lFieldSize new.length) :
    ¬ CrashSafe old new (dataBytes job.layout
      (place base (job.payloadPairs.take job.payload.length)))
      index := by
  rw [crashSafe_drop, plan.landing_shown base after.le (Nat.le_refl _), List.take_length,
    plan.payload]
  obtain ⟨δ, rfl⟩ := Nat.exists_eq_add_of_lt after
  rintro ⟨tag, -⟩
  rw [show job.ndefOffset + δ + 1 - job.ndefOffset = δ + 1 by omega, List.drop_succ_cons] at tag
  unfold lFieldSize at inside
  unfold zeroLengthField at tag
  split at inside
  · next short =>
    obtain rfl : δ = 0 := by omega
    rw [if_pos short] at tag
    cases tag
  · next long =>
    rw [if_neg long] at tag
    obtain rfl | rfl | rfl : δ = 0 ∨ δ = 1 ∨ δ = 2 := by omega
    all_goals cases tag

/-- The part of the payload that lands on an index behind the new length field. -/
theorem landing_eq (plan : job.Planned build cc tlvs new) {index : Nat}
    (behind : job.ndefOffset + 1 + lFieldSize new.length ≤ index) :
    job.payload.drop (index - job.ndefOffset) =
      (new ++ [TLV_TERMINATOR]).drop (index - (job.ndefOffset + 1 + lFieldSize new.length)) := by
  rw [plan.payload, List.append_assoc, ← List.cons_append,
    show index - job.ndefOffset = (TLV_NDEF_MESSAGE :: zeroLengthField new.length).length +
      (index - (job.ndefOffset + 1 + lFieldSize new.length)) by
        rw [List.length_cons, length_zeroLengthField]; omega,
    ← List.drop_drop, List.drop_left]

/-- As long as no byte of the payload has reached the index, the old TLV is intact there. -/
theorem untouched_safe (plan : job.Planned build cc tlvs new) {index n : Nat}
    (here : NdefAt (dataBytes job.layout base) index old) (behind : job.ndefOffset ≤ index)
    (few : n ≤ index - job.ndefOffset) (inside : n ≤ job.payload.length) :
    CrashSafe old new (dataBytes job.layout (place base (job.payloadPairs.take n))) index := by
  rw [crashSafe_drop, plan.landing_shown base behind inside,
    List.drop_eq_nil_of_le (by rw [List.length_take]; omega), List.nil_append,
    max_eq_left (by omega), ← crashSafe_drop]
  exact here.crashSafe new

/-- Once the payload is past the index, what has landed there is decoded, with the old bytes
behind it. -/
theorem landing_safe_iff (plan : job.Planned build cc tlvs new) {index i : Nat}
    (behind : job.ndefOffset + 1 + lFieldSize new.length ≤ index)
    (inside : index - job.ndefOffset + i ≤ job.payload.length) :
    CrashSafe old new (dataBytes job.layout
        (place base (job.payloadPairs.take (index - job.ndefOffset + i)))) index ↔
      CrashSafe old new (((new ++ [TLV_TERMINATOR]).drop
        (index - (job.ndefOffset + 1 + lFieldSize new.length))).take i ++
          (dataBytes job.layout base).drop (index + i)) 0 := by
  rw [crashSafe_drop, plan.landing_shown base (by omega) inside, List.drop_take,
    ← plan.landing_eq behind, Nat.add_sub_cancel_left, max_eq_right (by omega),
    show job.ndefOffset + (index - job.ndefOffset + i) = index + i by omega]

/-- A stage of the plan ends behind a byte that has landed where a page ends there. -/
theorem landing_cut (plan : job.Planned build cc tlvs new) {index i : Nat}
    (behind : job.ndefOffset ≤ index) (positive : 0 < i)
    (inside : index - job.ndefOffset + i < job.payload.length) :
    Separated (· / 4) (job.payloadPairs.take (index - job.ndefOffset + i))
        (job.payloadPairs.drop (index - job.ndefOffset + i)) ↔
      job.layout.CutAfter (index + i - 1) := by
  have cut := plan.payloadPairs_cut (n := index - job.ndefOffset + i - 1) (by omega)
  rwa [Nat.sub_add_cancel (by omega),
    show job.ndefOffset + (index - job.ndefOffset + i - 1) = index + i - 1 by omega] at cut

/-- A stage of the plan ends behind a byte that has landed if a page ends there or it is the
last one of the payload. -/
theorem landing_stage (plan : job.Planned build cc tlvs new) (base : Memory) {index i : Nat}
    (behind : job.ndefOffset ≤ index) (positive : 0 < i)
    (ends : index - job.ndefOffset + i = job.payload.length ∨
      index - job.ndefOffset + i < job.payload.length ∧ job.layout.CutAfter (index + i - 1)) :
    ∃ k ≤ job.pages.length, planned base job.pages k =
      place base (job.payloadPairs.take (index - job.ndefOffset + i)) := by
  refine payload_stage job base ?_
  rcases ends with last | ⟨inside, cut⟩
  · rw [List.drop_eq_nil_of_le (by rw [plan.length_payloadPairs]; omega)]
    intro _ _ _ none
    cases none
  · exact (plan.landing_cut behind positive inside).mpr cut

/-- Behind the new length field every stage is harmless exactly when what lands at the
index does so harmlessly.

Proof: as long as no byte has reached the index the old TLV is intact. From then on the
bytes shown are those that have landed, up to the end of a page, with the old ones behind
them; and the real length changes none of them. -/
theorem landed_iff (plan : job.Planned build cc tlvs new) {index : Nat}
    (here : NdefAt (dataBytes job.layout base) index old)
    (behind : job.ndefOffset + 1 + lFieldSize new.length ≤ index) :
    (∀ k ≤ job.pages.length, CrashSafe old new
      (dataBytes job.layout (planned base job.pages k)) index) ↔
      LandsHarmlessly job.layout index
        ((new ++ [TLV_TERMINATOR]).drop (index - (job.ndefOffset + 1 + lFieldSize new.length)))
        old new (dataBytes job.layout base) := by
  have before : job.ndefOffset ≤ index := by omega
  have pairs := plan.length_payloadPairs
  have count : ((new ++ [TLV_TERMINATOR]).drop
      (index - (job.ndefOffset + 1 + lFieldSize new.length))).length =
      job.payload.length - (index - job.ndefOffset) := by
    rw [← plan.landing_eq behind, List.length_drop]
  unfold LandsHarmlessly
  rw [count]
  constructor
  · intro safe i positive inside ends
    obtain ⟨k, most, stage⟩ := plan.landing_stage base before positive (by
      by_cases last : index - job.ndefOffset + i = job.payload.length
      · exact Or.inl last
      · exact Or.inr ⟨by omega, ends.resolve_left (by omega)⟩)
    exact (plan.landing_safe_iff behind (by omega)).mp (stage ▸ safe k most)
  intro condition
  -- A part of the payload that is whole or ends between two pages is harmless.
  have placed : ∀ n ≤ job.payload.length, n = job.payload.length ∨
      Separated (· / 4) (job.payloadPairs.take n) (job.payloadPairs.drop n) →
      CrashSafe old new (dataBytes job.layout (place base (job.payloadPairs.take n))) index := by
    intro n most ends
    rcases Nat.le_total n (index - job.ndefOffset) with few | many
    · exact plan.untouched_safe here before few most
    obtain ⟨i, rfl⟩ := Nat.exists_eq_add_of_le many
    rcases Nat.eq_zero_or_pos i with rfl | positive
    · exact plan.untouched_safe here before (by omega) most
    refine (plan.landing_safe_iff behind most).mpr (condition i positive (by omega) ?_)
    by_cases last : index - job.ndefOffset + i = job.payload.length
    · exact Or.inl (by omega)
    · exact Or.inr ((plan.landing_cut before positive (by omega)).mp (ends.resolve_left last))
  intro k inside
  rcases planned_cut job base k with ⟨n, most, stage, separated⟩ | ⟨n, -, stage, -⟩
  · rw [stage]
    exact placed n (by omega) (Or.inr separated)
  · -- The payload is complete, and the length field is ahead of the index.
    rw [stage, crashSafe_drop, plan.length_behind _ behind, ← crashSafe_drop,
      ← List.take_of_length_le pairs.le]
    exact placed _ (Nat.le_refl _) (Or.inl rfl)

/-- Every stage of the plan is harmless at the index of the old TLV exactly when the message
keeps its length there, for an index at the job's offset or behind it. -/
theorem keepsLength_iff (plan : job.Planned build cc tlvs new) {index : Nat}
    (here : NdefAt (dataBytes job.layout base) index old) (behind : job.ndefOffset ≤ index) :
    (∀ k ≤ job.pages.length, CrashSafe old new
      (dataBytes job.layout (planned base job.pages k)) index) ↔
      KeepsLength job.layout job.ndefOffset index old new (dataBytes job.layout base) := by
  unfold KeepsLength
  rcases Nat.eq_or_lt_of_le behind with same | after
  · subst same
    rw [plan.stages_safe_iff here]
    constructor
    · exact fun condition => Or.inl ⟨rfl, condition⟩
    · rintro (⟨-, condition⟩ | ⟨far, -⟩)
      · exact condition
      · omega
  by_cases far : job.ndefOffset + 1 + lFieldSize new.length ≤ index
  · rw [plan.landed_iff here far]
    constructor
    · exact fun condition => Or.inr ⟨far, condition⟩
    · rintro (⟨same, -⟩ | ⟨-, condition⟩)
      · omega
      · exact condition
  · -- The index lies in the new length field.
    have size := plan.payload_length
    constructor
    · intro safe
      obtain ⟨k, inside, stage⟩ := payload_stage job base (n := job.payload.length) (by
        rw [List.drop_eq_nil_of_le (by rw [payloadPairs, List.length_zip]; omega)]
        intro _ _ _ none
        cases none)
      exact absurd (stage ▸ safe k inside)
        (plan.inside_field_unsafe base after (Nat.lt_of_not_le far))
    · rintro (⟨same, -⟩ | ⟨behind, -⟩)
      · omega
      · exact absurd behind far

end

end WriteJob.Planned

/-- A run of `write_ndef` that returns, on any tag and with any faults on the way: let `old`
be the first message of the tag's memory and `index` the true position of its TLV, in the
data area as it was read. After every exchange the TLV decoded at this index, through the
usable bytes of the layout it was read through, shows the old message, a length of zero, or
the new message with its Terminator, exactly when the old memory shows so with the bytes
of every number of WRITEs placed from the address of the walk's offset on.

Where the writer's layout maps the data area as the reader's does, that is when the walk's
offset is the index, and the new length field has one byte or every length that a field
of three bytes in two pages shows half written is harmless; or when the offset is so far
ahead that the index lies behind the new length field, and what the new message has there,
if it reaches as far, lands harmlessly at the end of every page.

Proof: a run that returns goes through all stages of its plan and through no other memory,
and a stage is the old memory with some WRITEs placed. A stage ends between two pages, so
the bytes it shows at the index are a beginning of what is written there and the old ones
behind; the cases are by where the offset lies to the index and where the page ends. -/
theorem writeNdef_crashSafe_iff {σ ε : Type} {build : Build} (tag : Tag σ ε) (state : σ)
    (inSector0 : tag.active state = 0) (maxRetries : UInt8) (new : List UInt8)
    (returned : outcome (writeNdef build tag.toTransceiver new) (.start state maxRetries) =
      .ok ()) :
    ∃ (discovery : NdefDiscovery build (tag.memory state)) (offset : Nat),
      ndefTlvOffset discovery.tlvs 0 = some offset ∧
      let run := stateAfter (writeNdef build tag.toTransceiver new) (.start state maxRetries)
      let addresses := discovery.writeLayout.usable.drop offset
      let safe := ∀ exchange ∈ run.trace, CrashSafe discovery.message new
        (dataBytes discovery.readLayout (tag.memory exchange.after)) discovery.index
      (safe ↔ ∀ k ≤ writeCount addresses new, CrashSafe discovery.message new
        (dataBytes discovery.readLayout (cutMemory addresses new k (tag.memory state)))
        discovery.index) ∧
      (discovery.readLayout.SameMap discovery.writeLayout →
        (safe ↔ KeepsLength discovery.writeLayout offset discovery.index discovery.message new
          (dataBytes discovery.readLayout (tag.memory state)))) := by
  have coherent := start_coherent build tag state maxRetries inSector0
  obtain ⟨last, run⟩ : ∃ last, writeNdef build tag.toTransceiver new (.start state maxRetries) =
      .ok () last := by
    unfold outcome at returned
    split at returned
    · next value last run => exact ⟨last, run⟩
    · cases returned
  obtain ⟨job, prepared, preparing, -⟩ := writeNdef_ok run
  have plans : jobOf build new (tag.memory state) = .ok job :=
    ((prepareWrite_quiet coherent new).returned preparing).2
  obtain ⟨discovery, -, -, plan⟩ := jobOf_discovery plans
  have layout : job.layout = discovery.writeLayout := plan.layout
  have here := discovery.here.extended discovery.begins
  have behind : job.ndefOffset ≤ discovery.index := by
    obtain ⟨⟨offset, before, walked⟩, -⟩ := discovery.walk
    obtain rfl : offset = job.ndefOffset := Option.some.inj (walked.symm.trans plan.offset)
    exact before
  have after : stateAfter (writeNdef build tag.toTransceiver new) (.start state maxRetries) =
      last := by rw [stateAfter, run]
  have stages : ∀ P : Memory → Prop, P (tag.memory state) →
      ((∀ exchange ∈ last.trace, P (tag.memory exchange.after)) ↔
        ∀ k ≤ job.pages.length, P (planned (tag.memory state) job.pages k)) :=
    fun _ => writeNdef_memories_iff coherent rfl plans run
  refine ⟨discovery, job.ndefOffset, plan.offset, ?_, ?_⟩
  · rw [after, stages (fun memory => CrashSafe discovery.message new
      (dataBytes discovery.readLayout memory) discovery.index) (here.crashSafe new),
      plan.length_pages_eq, ← layout]
    exact forall₂_congr fun k _ => by rw [plan.planned_cutMemory]
  · intro same
    rw [same.dataBytes, ← layout] at here
    rw [after, same.dataBytes, ← layout, ← plan.keepsLength_iff here behind]
    simp only [same.dataBytes, ← layout]
    exact stages (fun memory => CrashSafe discovery.message new (dataBytes job.layout memory)
      discovery.index) (here.crashSafe new)

/-- On a tag with a message of one byte at the start of its data area the length is harmless
throughout a write of two bytes: its field has one byte. -/
theorem writeNdef_crashSafe_short :
    ∃ discovery : NdefDiscovery .alloc oneByteState.memory,
      discovery.message = [0xD0] ∧ discovery.index = 0 ∧
      ∀ exchange ∈ (stateAfter (writeNdef .alloc flatTag.toTransceiver [0xD1, 0xD2])
          (.start oneByteState 0)).trace,
        CrashSafe [0xD0] [0xD1, 0xD2]
          (dataBytes discovery.readLayout (flatTag.memory exchange.after)) 0 := by
  obtain ⟨discovery, offset, walked, -, exact⟩ := writeNdef_crashSafe_iff flatTag.toTag
    oneByteState rfl 0 [0xD1, 0xD2]
    (by decide +kernel : outcome (writeNdef .alloc flatTag.toTransceiver [0xD1, 0xD2])
      (.start oneByteState 0) = .ok ())
  have cc : discovery.cc = staticCc :=
    Except.ok.inj (discovery.parsed.symm.trans oneByteState_plain.parsed)
  have data : discovery.data = [0x03, 0x01, 0xD0, 0xFE] := by
    have read := discovery.read
    rw [cc] at read
    exact Except.ok.inj (read.symm.trans (by decide +kernel))
  have tlvs : discovery.tlvs = [.ndefMessage [0xD0], .terminator] := by
    have listed := discovery.listed
    rw [data] at listed
    exact Except.ok.inj (listed.symm.trans oneByteState_plain.listed)
  have message : discovery.message = [0xD0] := by
    have found := discovery.found
    rw [tlvs] at found
    exact (Option.some.inj found).symm
  have index : discovery.index = 0 := by
    have position := discovery.position
    rw [data] at position
    exact Option.some.inj (position.symm.trans (by decide +kernel))
  obtain rfl : 0 = offset := by
    rw [tlvs] at walked
    exact Option.some.inj walked
  -- Without control TLVs on a static tag there is one layout.
  have same : discovery.readLayout.SameMap discovery.writeLayout := by
    have layouts : discovery.readLayout = discovery.writeLayout := by
      rw [NdefDiscovery.readLayout, NdefDiscovery.writeLayout, cc, tlvs,
        fromCcAndTlvs_uncontrolled staticCc (by decide)]
      rfl
    rw [layouts]
    rfl
  refine ⟨discovery, message, index, ?_⟩
  have safe := (exact same).mpr (Or.inl ⟨index.symm, Or.inl (by decide)⟩)
  rwa [message, index] at safe

/-- A dynamic tag with a NULL block ahead of a message of one byte, so that a length field
of three bytes would end in the next page. -/
def shiftedState : FlatState where
  memory := fun addr => [0xE1, 0x10, 0x21, 0x00, 0x00, 0x03, 0x01, 0xD0, 0xFE].getD (addr - 12) 0
  active := 0

/-- After the first WRITE of 255 bytes the length field ends with the old Terminator: it
decodes to 254, which is neither zero nor the old length nor the new one. -/
theorem writeNdef_mixed_length :
    let new := List.replicate 255 0x44
    let run := cutRun shiftedState 1 new
    (jobOf .alloc new shiftedState.memory).isOk = true ∧
    cutTag.appliedOf run = 1 ∧
    (List.range' 16 5).map shiftedState.memory = [0x00, 0x03, 0x01, 0xD0, 0xFE] ∧
    (List.range' 16 5).map (cutTag.memoryOf run) = [0x00, 0x03, 0xFF, 0x00, 0xFE] ∧
    parseTlvLength ((List.range' 16 264).map (cutTag.memoryOf run)) 2 = .ok (254, 3) := by
  decide +kernel

end NfcForumTags
