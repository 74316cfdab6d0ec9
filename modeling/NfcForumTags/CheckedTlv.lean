import NfcForumTags.TlvGrammar
import NfcForumTags.Library.Panic

/-!
# Parsing with checked operations

The TLV parser once more, with every addition, multiplication, shift, index and range of
the source as one that may panic, and its loop with a bound on its rounds. On any data
that fits a `usize` it agrees with the plain parser: the lengths and descriptors of the
data cannot make it panic, and it ends after at most one round for each byte.

Constant indices of arrays and shifts by a constant are settled at compile time and stay
as they are.
-/
namespace NfcForumTags

open Panic

/-- What the crate is compiled for: the largest `usize`, of at least 32 bits. -/
structure Target where
  usizeMax : Nat
  wide : U32_MAX ≤ usizeMax

/-- Largest value of a 16-bit number. -/
def U16_MAX : Nat := 65535

namespace Checked

variable (target : Target)

/-! ## The length field -/

/-- The shared `parse_tlv_length`, with its three indices and the sums of offsets checked. -/
def sharedParseTlvLength (data : List UInt8) (offset : Nat) : Except (Stop TlvError) (Nat × Nat) :=
  if data.length ≤ offset then .error (.error .invalidTlv)
  else do
    let first ← index data offset
    if first < 0xFF then .ok (first.toNat, 1)
    else
      let stop ← add target.usizeMax offset 3
      if data.length < stop then .error (.error .invalidTlv)
      else
        let high ← index data (← add target.usizeMax offset 1)
        let low ← index data (← add target.usizeMax offset 2)
        .ok (high.toNat * 256 + low.toNat, 3)

/-- `parse_tlv_length` of the Type 2 module, over the checked shared one. -/
def parseTlvLength (data : List UInt8) (offset : Nat) : Except (Stop Type2Error) (Nat × Nat) :=
  (sharedParseTlvLength target data offset).mapError (Stop.map fun _ => .invalidTlv)

/-! ## Control values -/

/-- The `byte_address` of both control values. -/
def controlAddress (pageAddr byteOffset bytesPerPage : UInt8) : Except (Stop Type2Error) Nat := do
  let pageSize ← shiftLeft 32 1 bytesPerPage.toNat
  let page ← mul U32_MAX pageAddr.toNat pageSize
  add U32_MAX page byteOffset.toNat

/-- `byte_address` of a lock area, with its sum and product checked. -/
def LockControlValue.byteAddress (value : LockControlValue) : Except (Stop Type2Error) Nat :=
  controlAddress value.pageAddr value.byteOffset value.bytesPerPage

/-- `bytes_per_lock_bit`, with its shift checked against the width of the type. -/
def LockControlValue.bytesPerLockBit (value : LockControlValue) : Except (Stop Type2Error) Nat :=
  shiftLeft 16 1 value.bytesLockedPerBit.toNat

/-- `byte_address` of a reserved area, with its sum and product checked. -/
def MemoryControlValue.byteAddress (value : MemoryControlValue) : Except (Stop Type2Error) Nat :=
  controlAddress value.pageAddr value.byteOffset value.bytesPerPage

/-- `check_area_in_address_space`; its sum is a `checked_add` in the source already. -/
def checkAreaInAddressSpace (start size : Nat) : Except (Stop Type2Error) Unit :=
  match checkedAdd U32_MAX start size with
  | none => .error (.error .invalidTlv)
  | some stop =>
    if ADDRESS_SPACE_END ≤ start ∨ ADDRESS_SPACE_END < stop then .error (.error .invalidTlv)
    else .ok ()

/-- `LockControlValue::from_bytes`, with its address checked. -/
def LockControlValue.fromBytes (bytes : Vector UInt8 3) :
    Except (Stop Type2Error) LockControlValue := do
  let bytesPerPage := bytes.get 2 &&& 0x0F
  let bytesLockedPerBit := bytes.get 2 >>> 4
  if bytesPerPage = 0 ∨ bytesLockedPerBit = 0 then .error (.error .invalidTlv)
  else
    let value : LockControlValue := {
      pageAddr := bytes.get 0 >>> 4
      byteOffset := bytes.get 0 &&& 0x0F
      sizeInBits := if bytes.get 1 = 0 then 256 else (bytes.get 1).toNat
      bytesPerPage
      bytesLockedPerBit }
    checkAreaInAddressSpace (← LockControlValue.byteAddress value) value.lockByteCount
    return value

/-- `MemoryControlValue::from_bytes`, with its address checked. -/
def MemoryControlValue.fromBytes (bytes : Vector UInt8 3) :
    Except (Stop Type2Error) MemoryControlValue := do
  let bytesPerPage := bytes.get 2 &&& 0x0F
  if bytesPerPage = 0 then .error (.error .invalidTlv)
  else
    let value : MemoryControlValue := {
      pageAddr := bytes.get 0 >>> 4
      byteOffset := bytes.get 0 &&& 0x0F
      sizeInBytes := if bytes.get 1 = 0 then 256 else (bytes.get 1).toNat
      bytesPerPage }
    checkAreaInAddressSpace (← MemoryControlValue.byteAddress value) value.sizeInBytes
    return value

/-! ## The loop -/

/-- The check of a control block's length, and its three value bytes. -/
def controlBytes (data : List UInt8) (len offset : Nat) :
    Except (Stop Type2Error) (Vector UInt8 3) :=
  if len ≠ 3 then .error (.error .invalidTlv)
  else do
    let stop ← add target.usizeMax offset 3
    if data.length < stop then .error (.error .invalidTlv)
    else
      indexEach target.usizeMax 3 data offset

/-- The check of a value's length, and the buffer its bytes are copied to. -/
def valueBytes (build : Build) (data : List UInt8) (len offset : Nat) :
    Except (Stop Type2Error) (List UInt8) := do
  let stop ← add target.usizeMax offset len
  if data.length < stop then .error (.error .invalidTlv)
  else
    let value ← slice data offset (← add target.usizeMax offset len)
    ofResult (tryExtend build.dataCapacity [] value)

/-- The parser's loop, of at most `rounds` rounds. -/
def parseTlvsInto (build : Build) (data : List UInt8) (rounds start : Nat) (out : List Tlv) :
    Except (Stop Type2Error) (List Tlv) :=
  match rounds with
  | 0 => .error .hang
  | rounds + 1 =>
    if start < data.length then do
      let tag ← index data start
      let offset ← add target.usizeMax start 1
      if tag = TLV_NULL then
        let out ← ofResult (pushTlv build out .null)
        parseTlvsInto build data rounds offset out
      else if tag = TLV_TERMINATOR then ofResult (pushTlv build out .terminator)
      else if tag = TLV_LOCK_CONTROL then
        let (len, consumed) ← parseTlvLength target data offset
        let offset ← add target.usizeMax offset consumed
        let value ← LockControlValue.fromBytes (← controlBytes target data len offset)
        let offset ← add target.usizeMax offset 3
        let out ← ofResult (pushTlv build out (.lockControl value))
        parseTlvsInto build data rounds offset out
      else if tag = TLV_MEMORY_CONTROL then
        let (len, consumed) ← parseTlvLength target data offset
        let offset ← add target.usizeMax offset consumed
        let value ← MemoryControlValue.fromBytes (← controlBytes target data len offset)
        let offset ← add target.usizeMax offset 3
        let out ← ofResult (pushTlv build out (.memoryControl value))
        parseTlvsInto build data rounds offset out
      else if tag = TLV_NDEF_MESSAGE then
        let (len, consumed) ← parseTlvLength target data offset
        let offset ← add target.usizeMax offset consumed
        let value ← valueBytes target build data len offset
        let offset ← add target.usizeMax offset len
        let out ← ofResult (pushTlv build out (.ndefMessage value))
        parseTlvsInto build data rounds offset out
      else if tag = TLV_PROPRIETARY then
        let (len, consumed) ← parseTlvLength target data offset
        let offset ← add target.usizeMax offset consumed
        let value ← valueBytes target build data len offset
        let offset ← add target.usizeMax offset len
        let out ← ofResult (pushTlv build out (.proprietary value))
        parseTlvsInto build data rounds offset out
      else
        let (len, consumed) ← parseTlvLength target data offset
        let offset ← add target.usizeMax offset consumed
        let offset ← add target.usizeMax offset len
        if data.length < offset then .error (.error .invalidTlv)
        else parseTlvsInto build data rounds offset out
    else .ok out

/-- A round for each byte and one to notice the end. -/
def parseTlvs (build : Build) (data : List UInt8) : Except (Stop Type2Error) (List Tlv) :=
  parseTlvsInto target build data (data.length + 1) 0 []

/-! ## Agreement -/

variable {target}

/-- Addition to an offset never leaves a `usize` that holds 32 bits. -/
theorem add_usize {a b : Nat} (room : a + b ≤ U32_MAX) {ε : Type} :
    (add target.usizeMax a b : Except (Stop ε) Nat) = .ok (a + b) :=
  add_ok (room.trans target.wide)

/-- The length field of data that fits a `u16` is parsed without an index out of range or a
sum that wraps, on every target. -/
theorem sharedParseTlvLength_agrees {data : List UInt8} (offset : Nat)
    (addressable : data.length ≤ U16_MAX) :
    Agrees (sharedParseTlvLength target data offset)
      (NfcForumTags.sharedParseTlvLength data offset) := by
  unfold U16_MAX at addressable
  unfold sharedParseTlvLength NfcForumTags.sharedParseTlvLength
  by_cases outside : data.length ≤ offset
  · rw [if_pos outside, dif_pos outside]
    exact agrees_error _
  rw [if_neg outside, dif_neg outside]
  refine Agrees.value (index_ok (Nat.lt_of_not_le outside))
    (Agrees.ite (fun _ => agrees_ok _) fun _ => ?_)
  refine Agrees.value (add_usize (by unfold U32_MAX; omega)) ?_
  by_cases short : data.length < offset + 3
  · rw [if_pos short, dif_pos short]
    exact agrees_error _
  rw [if_neg short, dif_neg short]
  refine Agrees.value (add_usize (by unfold U32_MAX; omega)) ?_
  refine Agrees.value (index_ok (by omega)) ?_
  refine Agrees.value (add_usize (by unfold U32_MAX; omega)) ?_
  exact Agrees.value (index_ok (by omega)) (agrees_ok _)

/-- So is it behind the mapping of the error. -/
theorem parseTlvLength_agrees {data : List UInt8} (offset : Nat)
    (addressable : data.length ≤ U16_MAX) :
    Agrees (parseTlvLength target data offset) (NfcForumTags.parseTlvLength data offset) :=
  (sharedParseTlvLength_agrees offset addressable).mapError _

/-- The address of a control value with an exponent of four bits. -/
theorem controlAddress_ok (pageAddr byteOffset : UInt8) {bytesPerPage : UInt8}
    (nibble : bytesPerPage.toNat < 16) : controlAddress pageAddr byteOffset bytesPerPage =
      .ok (pageAddr.toNat * 2 ^ bytesPerPage.toNat + byteOffset.toNat) := by
  have page := pageAddr.toNat_lt
  have offset := byteOffset.toNat_lt
  have small : 2 ^ bytesPerPage.toNat ≤ 2 ^ 15 := Nat.pow_le_pow_right (by decide) (by omega)
  have product : pageAddr.toNat * 2 ^ bytesPerPage.toNat ≤ 255 * 2 ^ 15 :=
    Nat.mul_le_mul (by omega) small
  unfold controlAddress
  rw [shiftLeft_ok (by omega) (by omega), Nat.one_mul]
  change (mul U32_MAX _ _ >>= _) = _
  rw [mul_ok (by unfold U32_MAX; omega)]
  exact add_ok (by unfold U32_MAX; omega)

/-- A control value that was not read from bytes can panic. -/
example : controlAddress 1 0 32 = .error .panic := rfl

/-- The check of an area never stops. -/
theorem checkAreaInAddressSpace_agrees (start size : Nat) :
    Agrees (checkAreaInAddressSpace start size)
      (NfcForumTags.checkAreaInAddressSpace start size) := by
  unfold checkAreaInAddressSpace NfcForumTags.checkAreaInAddressSpace checkedAdd
  by_cases beyond : U32_MAX < start + size
  · rw [if_neg (by omega), if_pos beyond]
    exact agrees_error _
  · rw [if_pos (by omega), if_neg beyond]
    exact Agrees.ite (fun _ => agrees_error _) fun _ => agrees_ok _

/-- The lower nibble of a byte. -/
theorem lowNibble_lt (byte : UInt8) : (byte &&& 0x0F).toNat < 16 := by
  rw [UInt8.toNat_and]
  exact Nat.and_lt_two_pow _ (by decide : (0x0F : UInt8).toNat < 2 ^ 4)

/-- The upper nibble of a byte. -/
theorem highNibble_lt (byte : UInt8) : (byte >>> 4).toNat < 16 := by
  have bound := byte.toNat_lt
  rw [UInt8.toNat_shiftRight]
  change byte.toNat >>> 4 < 16
  rw [Nat.shiftRight_eq_div_pow]
  omega

/-- Reading a Lock Control value never stops: its page address is a nibble. -/
theorem LockControlValue.fromBytes_agrees (bytes : Vector UInt8 3) :
    Agrees (LockControlValue.fromBytes bytes) (NfcForumTags.LockControlValue.fromBytes bytes) := by
  unfold LockControlValue.fromBytes NfcForumTags.LockControlValue.fromBytes
  refine Agrees.ite (fun _ => agrees_error _) fun _ => ?_
  refine Agrees.value (controlAddress_ok _ _ (lowNibble_lt _)) ?_
  exact (checkAreaInAddressSpace_agrees _ _).bind fun _ _ => agrees_ok _

/-- Reading a Memory Control value never stops: its page address is a nibble. -/
theorem MemoryControlValue.fromBytes_agrees (bytes : Vector UInt8 3) :
    Agrees (MemoryControlValue.fromBytes bytes)
      (NfcForumTags.MemoryControlValue.fromBytes bytes) := by
  unfold MemoryControlValue.fromBytes NfcForumTags.MemoryControlValue.fromBytes
  refine Agrees.ite (fun _ => agrees_error _) fun _ => ?_
  refine Agrees.value (controlAddress_ok _ _ (lowNibble_lt _)) ?_
  exact (checkAreaInAddressSpace_agrees _ _).bind fun _ _ => agrees_ok _

/-- A length field read at an offset: its length is a 16-bit number, and it ends inside
the data. -/
theorem parseTlvLength_bounds {data : List UInt8} {offset len consumed : Nat}
    (read : NfcForumTags.parseTlvLength data offset = .ok (len, consumed)) :
    len ≤ U16_MAX ∧ 0 < consumed ∧ consumed ≤ 3 ∧ offset + consumed ≤ data.length := by
  unfold NfcForumTags.parseTlvLength NfcForumTags.sharedParseTlvLength at read
  unfold U16_MAX
  split at read
  · cases read
  next inside =>
  dsimp only at read
  split at read
  · cases read
    have first : offset < data.length := Nat.lt_of_not_le inside
    have byte := data[offset].toNat_lt
    omega
  split at read
  · cases read
  next room =>
    cases read
    have second : offset + 1 < data.length := by omega
    have third : offset + 2 < data.length := by omega
    have high := data[offset + 1].toNat_lt
    have low := data[offset + 2].toNat_lt
    omega

/-- A block with a value: its length field, then what starts behind the field. -/
theorem valued_agrees {α : Type} {data : List UInt8} {start : Nat}
    (addressable : data.length ≤ U16_MAX)
    {rest : Nat × Nat → Except (Stop Type2Error) α} {rest' : Nat × Nat → Except Type2Error α}
    (onward : ∀ len consumed, len ≤ U16_MAX → start < start + consumed →
      start + consumed ≤ data.length →
      (add target.usizeMax start consumed : Except (Stop Type2Error) Nat) = .ok (start + consumed) →
      Agrees (rest (len, consumed)) (rest' (len, consumed))) :
    Agrees (parseTlvLength target data start >>= rest)
      (NfcForumTags.parseTlvLength data start >>= rest') := by
  refine (parseTlvLength_agrees start addressable).bind ?_
  rintro ⟨len, consumed⟩ read
  obtain ⟨short, some, few, inside⟩ := parseTlvLength_bounds read
  unfold U16_MAX at addressable
  exact onward len consumed short (by omega) inside (add_usize (by unfold U32_MAX; omega))

/-- The three bytes of a control value are read where the plain parser reads them. -/
theorem controlBytes_agrees {data : List UInt8} {len offset : Nat}
    (addressable : data.length ≤ U16_MAX)
    (reached : offset ≤ data.length) :
    Agrees (controlBytes target data len offset)
      (if bad : len ≠ 3 ∨ data.length < offset + 3 then .error .invalidTlv
        else .ok #v[data[offset], data[offset + 1], data[offset + 2]]) := by
  unfold U16_MAX at addressable
  unfold controlBytes
  by_cases three : len = 3
  · rw [if_neg (not_not_intro three)]
    refine Agrees.value (add_usize (by unfold U32_MAX; omega)) ?_
    by_cases short : data.length < offset + 3
    · rw [if_pos short, dif_pos (Or.inr short)]
      exact agrees_error _
    rw [if_neg short, dif_neg (by omega)]
    have fits : data.length ≤ U32_MAX := addressable.trans (by decide)
    have whole : offset + 3 ≤ data.length := by omega
    refine (indexEach_ok (fits.trans target.wide) whole).trans (congrArg Except.ok ?_)
    ext i inside
    obtain rfl | rfl | rfl : i = 0 ∨ i = 1 ∨ i = 2 := by omega
    all_goals rw [Vector.getElem_ofFn]; rfl
  · rw [if_pos three, dif_pos (Or.inl three)]
    exact agrees_error _

/-- A control value, then what is behind it. -/
theorem control_agrees {α β : Type} {data : List UInt8} {len offset : Nat}
    (addressable : data.length ≤ U16_MAX) (reached : offset ≤ data.length)
    {fromBytes : Vector UInt8 3 → Except (Stop Type2Error) α}
    {fromBytes' : Vector UInt8 3 → Except Type2Error α}
    (reads : ∀ bytes, Agrees (fromBytes bytes) (fromBytes' bytes))
    {rest : α → Nat → Except (Stop Type2Error) β}
    {rest' : ¬ (len ≠ 3 ∨ data.length < offset + 3) → α → Except Type2Error β}
    (onward : ∀ good value, Agrees (rest value (offset + 3)) (rest' good value)) :
    Agrees (do
        let value ← fromBytes (← controlBytes target data len offset)
        let offset ← add target.usizeMax offset 3
        rest value offset)
      (if bad : len ≠ 3 ∨ data.length < offset + 3 then throw .invalidTlv
        else fromBytes' #v[data[offset], data[offset + 1], data[offset + 2]] >>= rest' bad) := by
  have taken : Agrees (controlBytes target data len offset) _ :=
    controlBytes_agrees addressable reached
  unfold U16_MAX at addressable
  by_cases bad : len ≠ 3 ∨ data.length < offset + 3
  · rw [dif_pos bad] at taken ⊢
    rw [taken]
    exact agrees_error _
  · rw [dif_neg bad] at taken ⊢
    refine Agrees.value taken ((reads _).bind fun value _ => ?_)
    exact Agrees.value (add_usize (by unfold U32_MAX; omega)) (onward bad value)

/-- The bytes of a value are copied where the plain parser copies them. -/
theorem valueBytes_agrees {build : Build} {data : List UInt8} {len offset : Nat}
    (addressable : data.length ≤ U16_MAX) (reached : offset ≤ data.length) (short : len ≤ U16_MAX) :
    Agrees (valueBytes target build data len offset)
      (if data.length < offset + len then .error .invalidTlv
        else tryExtend build.dataCapacity [] ((data.drop offset).take len)) := by
  unfold U16_MAX at addressable short
  have stop : ∀ {ε : Type}, (add target.usizeMax offset len : Except (Stop ε) Nat) =
      .ok (offset + len) :=
    add_usize (by unfold U32_MAX; omega)
  refine Agrees.value stop (Agrees.ite (fun _ => agrees_error _) fun inside => ?_)
  refine Agrees.value stop (Agrees.value (slice_ok (by omega) (by omega)) ?_)
  rw [Nat.add_sub_cancel_left]
  exact agrees_ofResult _

/-- The bytes of a value, then what is behind it. -/
theorem value_agrees {β : Type} {build : Build} {data : List UInt8} {len offset : Nat}
    (addressable : data.length ≤ U16_MAX) (reached : offset ≤ data.length) (short : len ≤ U16_MAX)
    {rest : List UInt8 → Nat → Except (Stop Type2Error) β}
    {rest' : List UInt8 → Except Type2Error β}
    (onward : offset + len ≤ data.length → ∀ value, Agrees (rest value (offset + len))
      (rest' value)) :
    Agrees (do
        let value ← valueBytes target build data len offset
        let offset ← add target.usizeMax offset len
        rest value offset)
      (if data.length < offset + len then throw .invalidTlv
        else tryExtend build.dataCapacity [] ((data.drop offset).take len) >>= rest') := by
  have copied : Agrees (valueBytes target build data len offset) _ :=
    valueBytes_agrees addressable reached short
  unfold U16_MAX at addressable short
  by_cases beyond : data.length < offset + len
  · rw [if_pos beyond] at copied ⊢
    rw [copied]
    exact agrees_error _
  · rw [if_neg beyond] at copied ⊢
    refine copied.bind fun value _ => ?_
    exact Agrees.value (add_usize (by unfold U32_MAX; omega)) (onward (by omega) value)

/-- The parser's loop agrees with the plain one, given a round for each byte that remains
and one more.

Induction on the rounds. -/
theorem parseTlvsInto_agrees (build : Build) {data : List UInt8}
    (addressable : data.length ≤ U16_MAX)
    (rounds start : Nat) (out : List Tlv) (reached : start ≤ data.length)
    (enough : data.length < start + rounds) :
    Agrees (parseTlvsInto target build data rounds start out)
      (NfcForumTags.parseTlvsInto build data start out) := by
  induction rounds generalizing start out with
  | zero => omega
  | succ rounds inductionHypothesis =>
    rw [parseTlvsInto, NfcForumTags.parseTlvsInto]
    by_cases inside : start < data.length
    · rw [if_pos inside, dif_pos inside]
      refine Agrees.value (index_ok inside) ?_
      refine Agrees.value (add_usize (by unfold U32_MAX; unfold U16_MAX at addressable; omega)) ?_
      refine Agrees.ite (fun _ => ?_) fun _ => ?_
      · exact (agrees_ofResult _).bind fun out _ => inductionHypothesis _ out (by omega) (by omega)
      refine Agrees.ite (fun _ => agrees_ofResult _) fun _ => ?_
      refine Agrees.ite (fun _ => ?_) fun _ => ?_
      · refine valued_agrees addressable fun len consumed short later reached placed => ?_
        refine Agrees.value placed ?_
        refine control_agrees addressable reached LockControlValue.fromBytes_agrees
          fun _ value => ?_
        exact (agrees_ofResult _).bind fun out _ => inductionHypothesis _ out (by omega) (by omega)
      refine Agrees.ite (fun _ => ?_) fun _ => ?_
      · refine valued_agrees addressable fun len consumed short later reached placed => ?_
        refine Agrees.value placed ?_
        refine control_agrees addressable reached MemoryControlValue.fromBytes_agrees
          fun _ value => ?_
        exact (agrees_ofResult _).bind fun out _ => inductionHypothesis _ out (by omega) (by omega)
      refine Agrees.ite (fun _ => ?_) fun _ => ?_
      · refine valued_agrees addressable fun len consumed short later reached placed => ?_
        refine Agrees.value placed ?_
        refine value_agrees addressable reached short fun _ value => ?_
        exact (agrees_ofResult _).bind fun out _ => inductionHypothesis _ out (by omega) (by omega)
      refine Agrees.ite (fun _ => ?_) fun _ => ?_
      · refine valued_agrees addressable fun len consumed short later reached placed => ?_
        refine Agrees.value placed ?_
        refine value_agrees addressable reached short fun _ value => ?_
        exact (agrees_ofResult _).bind fun out _ => inductionHypothesis _ out (by omega) (by omega)
      · refine valued_agrees addressable fun len consumed short later reached placed => ?_
        refine Agrees.value placed ?_
        unfold U16_MAX at addressable short
        refine Agrees.value (add_usize (by unfold U32_MAX; omega)) ?_
        refine Agrees.ite (fun _ => agrees_error _) fun inside => ?_
        exact inductionHypothesis _ out (by omega) (by omega)
    · rw [if_neg inside, dif_neg inside]
      exact agrees_ok _

/-- `parse_tlvs` never stops on data that fits a `u16`, accepted or not. -/
theorem parseTlvs_agrees (build : Build) {data : List UInt8} (addressable : data.length ≤ U16_MAX) :
    Agrees (parseTlvs target build data) (NfcForumTags.parseTlvs build data) :=
  parseTlvsInto_agrees build addressable _ 0 [] (Nat.zero_le _) (by omega)

end Checked

end NfcForumTags
