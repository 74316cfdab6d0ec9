import NfcForumTags.TlvEncoding
import NfcForumTags.UsableBytes

/-!
# The TLV stream

The parser walks an offset through its data; here the same walk is made on the
bytes that remain. A block is framed by its tag and its length field alone, so
`headBlock` first cuts the value off and then looks at it. The scanner of the
reading loop sees the same frames, so it stops exactly at a Terminator the parser
would stop at, and what lies behind it does not matter to the parser.
-/
namespace NfcForumTags

/-! ## One block -/

/-- The value of a control block. -/
def controlValue {α : Type} (fromBytes : Vector UInt8 3 → Except Type2Error α) :
    List UInt8 → Except Type2Error α
  | [b0, b1, b2] => fromBytes #v[b0, b1, b2]
  | _ => .error .invalidTlv

/-- The block with this tag and value; `none` is a tag the parser skips. -/
def blockOfValue (build : Build) (tag : UInt8) (value : List UInt8) :
    Except Type2Error (Option Tlv) :=
  if tag = TLV_LOCK_CONTROL then do
    let found ← controlValue LockControlValue.fromBytes value
    .ok (some (.lockControl found))
  else if tag = TLV_MEMORY_CONTROL then do
    let found ← controlValue MemoryControlValue.fromBytes value
    .ok (some (.memoryControl found))
  else if tag = TLV_NDEF_MESSAGE then do
    let data ← tryExtend build.dataCapacity [] value
    .ok (some (.ndefMessage data))
  else if tag = TLV_PROPRIETARY then do
    let data ← tryExtend build.dataCapacity [] value
    .ok (some (.proprietary data))
  else .ok none

/-- The value of the length field at the head of the data, and its size. -/
def lengthField : List UInt8 → Except Type2Error (Nat × Nat)
  | [] => .error .invalidTlv
  | first :: rest =>
    if first < 0xFF then .ok (first.toNat, 1)
    else
      match rest with
      | msb :: lsb :: _ => .ok (msb.toNat * 256 + lsb.toNat, 3)
      | _ => .error .invalidTlv

/-- The first bytes of the data, if there are as many. -/
def takeExactly (len : Nat) (data : List UInt8) : Except Type2Error (List UInt8) :=
  if data.length < len then .error .invalidTlv else .ok (data.take len)

/-- The block with this tag before the data, and the number of bytes after its tag. -/
def headBlock (build : Build) (tag : UInt8) (rest : List UInt8) :
    Except Type2Error (Option Tlv × Nat) :=
  if tag = TLV_NULL then .ok (some .null, 0)
  else if tag = TLV_TERMINATOR then .ok (some .terminator, 0)
  else do
    let (len, consumed) ← lengthField rest
    let value ← takeExactly len (rest.drop consumed)
    let found ← blockOfValue build tag value
    .ok (found, consumed + len)

/-- The blocks of the data, after those already collected. -/
def decodeInto (build : Build) (data : List UInt8) (out : List Tlv) :
    Except Type2Error (List Tlv) :=
  match data with
  | [] => .ok out
  | tag :: rest => do
    let (found, size) ← headBlock build tag rest
    match found with
    | none => decodeInto build (rest.drop size) out
    | some .terminator => pushTlv build out .terminator
    | some tlv => do
      let out ← pushTlv build out tlv
      decodeInto build (rest.drop size) out
termination_by data.length

/-! ## The parser decodes the stream -/

/-- The length field at an offset is the one at the head of what remains. -/
theorem parseTlvLength_eq (data : List UInt8) (offset : Nat) :
    parseTlvLength data offset = lengthField (data.drop offset) := by
  unfold parseTlvLength sharedParseTlvLength
  by_cases outside : data.length ≤ offset
  · rw [dif_pos outside, List.drop_eq_nil_of_le outside]
    rfl
  · rw [dif_neg outside, List.drop_eq_getElem_cons (Nat.lt_of_not_le outside)]
    simp only [lengthField]
    split
    · rfl
    · by_cases short : data.length < offset + 3
      · rw [dif_pos short]
        have few : (data.drop (offset + 1)).length < 2 := by
          rw [List.length_drop]
          omega
        match data.drop (offset + 1), few with
        | [], _ => rfl
        | [_], _ => rfl
      · rw [dif_neg short, List.drop_eq_getElem_cons (by omega : offset + 1 < data.length),
          List.drop_eq_getElem_cons (by omega : offset + 1 + 1 < data.length)]
        rfl

/-- A control block is read from three bytes at an offset, or refused. -/
theorem controlValue_eq {α β : Type} (fromBytes : Vector UInt8 3 → Except Type2Error α)
    (data : List UInt8) (offset len : Nat) (rest : α → Except Type2Error β) :
    (if bad : len ≠ 3 ∨ data.length < offset + 3 then .error .invalidTlv
      else fromBytes #v[data[offset], data[offset + 1], data[offset + 2]] >>= rest) =
      takeExactly len (data.drop offset) >>= fun value =>
        controlValue fromBytes value >>= rest := by
  unfold takeExactly
  rw [List.length_drop]
  by_cases short : data.length - offset < len
  · rw [if_pos short]
    by_cases three : len = 3
    · rw [dif_pos (Or.inr (by omega))]
      rfl
    · rw [dif_pos (Or.inl three)]
      rfl
  · rw [if_neg short]
    by_cases three : len = 3
    · subst three
      rw [dif_neg (by omega), List.drop_eq_getElem_cons (by omega : offset < data.length),
        List.drop_eq_getElem_cons (by omega : offset + 1 < data.length),
        List.drop_eq_getElem_cons (by omega : offset + 1 + 1 < data.length)]
      rfl
    · rw [dif_pos (Or.inl three)]
      have count : ((data.drop offset).take len).length ≠ 3 := by
        rw [List.length_take, List.length_drop]
        omega
      match (data.drop offset).take len, count with
      | [], _ => rfl
      | [_], _ => rfl
      | [_, _], _ => rfl
      | _ :: _ :: _ :: _ :: _, _ => rfl

/-- A value of data bytes is read from an offset, or refused. -/
theorem takeExactly_eq {β : Type} (data : List UInt8) {offset len : Nat}
    (inside : offset ≤ data.length) (rest : List UInt8 → Except Type2Error β) :
    (if data.length < offset + len then .error .invalidTlv
      else rest ((data.drop offset).take len)) = takeExactly len (data.drop offset) >>= rest := by
  unfold takeExactly
  rw [List.length_drop]
  by_cases short : data.length < offset + len
  · rw [if_pos short, if_pos (by omega)]
    rfl
  · rw [if_neg short, if_neg (by omega)]
    rfl

/-- A length field takes one or three of the bytes there are. -/
theorem lengthField_ok {data : List UInt8} {len consumed : Nat}
    (found : lengthField data = .ok (len, consumed)) :
    consumed ≤ data.length ∧ 0 < consumed := by
  unfold lengthField at found
  split at found
  · cases found
  · split at found
    · cases found
      simp
    · split at found
      · cases found
        simp
      · cases found

/-- What is decoded from a block on: it is recorded, and the bytes behind it follow unless it
is a Terminator. -/
def decodeBehind (build : Build) (behind : List UInt8) (out : List Tlv) :
    Option Tlv → Except Type2Error (List Tlv)
  | none => decodeInto build behind out
  | some .terminator => pushTlv build out .terminator
  | some tlv => do
    let out ← pushTlv build out tlv
    decodeInto build behind out

/-- Behind a block that is listed, the block is pushed and decoding goes on. -/
theorem decodeBehind_some {build : Build} {behind : List UInt8} {tlv : Tlv}
    (continues : tlv ≠ .terminator) (out : List Tlv) :
    decodeBehind build behind out (some tlv) =
      pushTlv build out tlv >>= fun out => decodeInto build behind out := by
  cases tlv with
  | terminator => exact absurd rfl continues
  | null | lockControl _ | memoryControl _ | ndefMessage _ | proprietary _ => rfl

/-- What is decoded behind a block depends on how the rest is decoded only. -/
theorem decodeBehind_congr {build : Build} {behind behind' : List UInt8}
    (same : ∀ out, decodeInto build behind out = decodeInto build behind' out) (out : List Tlv)
    (found : Option Tlv) : decodeBehind build behind out found =
      decodeBehind build behind' out found := by
  cases found with
  | none => exact same out
  | some tlv =>
    by_cases continues : tlv = .terminator
    · rw [continues]
      rfl
    · rw [decodeBehind_some continues, decodeBehind_some continues]
      exact bind_congr same

/-- A block at the head of the data, and what is decoded behind it. -/
theorem decodeInto_cons {build : Build} {tag : UInt8} {rest : List UInt8} {found : Option Tlv}
    {size : Nat} (headed : headBlock build tag rest = .ok (found, size)) (out : List Tlv) :
    decodeInto build (tag :: rest) out = decodeBehind build (rest.drop size) out found := by
  rw [decodeInto, headed]
  rfl

/-- A block with a length field, and what is decoded behind it. -/
theorem decodeInto_block (build : Build) {tag : UInt8} {rest : List UInt8} {len consumed : Nat}
    (out : List Tlv) (notNull : tag ≠ TLV_NULL) (notTerminator : tag ≠ TLV_TERMINATOR)
    (length : lengthField rest = .ok (len, consumed)) :
    decodeInto build (tag :: rest) out = (do
      let value ← takeExactly len (rest.drop consumed)
      let found ← blockOfValue build tag value
      decodeBehind build (rest.drop (consumed + len)) out found) := by
  rw [decodeInto, headBlock, if_neg notNull, if_neg notTerminator, length]
  cases taken : takeExactly len (rest.drop consumed) with
  | error error => simp only [bind, Except.bind, taken]
  | ok value =>
    cases block : blockOfValue build tag value with
    | error error => simp only [bind, Except.bind, taken, block]
    | ok found =>
      simp only [bind, Except.bind, taken, block]
      rfl

/-- The parser's branch for a control block decodes its value and what is behind it. -/
theorem parse_controlBlock {α : Type} (build : Build) (data : List UInt8) (out : List Tlv)
    (fromBytes : Vector UInt8 3 → Except Type2Error α) (block : α → Tlv) {value len : Nat}
    (continued : ¬(len ≠ 3 ∨ data.length < value + 3) → ∀ (_ : α) (out : List Tlv),
      parseTlvsInto build data (value + 3) out = decodeInto build (data.drop (value + 3)) out) :
    (if bad : len ≠ 3 ∨ data.length < value + 3 then .error .invalidTlv
      else do
        let found ← fromBytes #v[data[value], data[value + 1], data[value + 2]]
        let out ← pushTlv build out (block found)
        parseTlvsInto build data (value + 3) out) = (do
      let bytes ← takeExactly len (data.drop value)
      let found ← controlValue fromBytes bytes
      let out ← pushTlv build out (block found)
      decodeInto build (data.drop (value + len)) out) := by
  refine Eq.trans ?_ (controlValue_eq fromBytes data value len fun found => do
    let out ← pushTlv build out (block found)
    decodeInto build (data.drop (value + len)) out)
  split
  · rfl
  · next good =>
    obtain rfl : len = 3 := by omega
    exact bind_congr fun found => bind_congr fun out => continued good found out

/-- The value of a block starts inside the data or at its end. -/
theorem value_inside {data : List UInt8} {start len consumed : Nat} (inside : start < data.length)
    (length : lengthField (data.drop (start + 1)) = .ok (len, consumed)) :
    start + 1 + consumed ≤ data.length := by
  have few := (lengthField_ok length).1
  rw [List.length_drop] at few
  omega

/-- A branch of the parser for a block with a value decodes the block if it does behind the
length field. -/
theorem parse_valued (build : Build) {data : List UInt8} {start : Nat} (out : List Tlv)
    (inside : start < data.length) (notNull : data[start] ≠ TLV_NULL)
    (notTerminator : data[start] ≠ TLV_TERMINATOR)
    {rest : Nat × Nat → Except Type2Error (List Tlv)}
    (onward : ∀ len consumed, start + 1 + consumed ≤ data.length →
      rest (len, consumed) = takeExactly len (data.drop (start + 1 + consumed)) >>= fun value =>
        blockOfValue build data[start] value >>=
          decodeBehind build (data.drop (start + 1 + consumed + len)) out) :
    parseTlvLength data (start + 1) >>= rest = decodeInto build (data.drop start) out := by
  rw [List.drop_eq_getElem_cons inside, parseTlvLength_eq]
  cases length : lengthField (data.drop (start + 1)) with
  | error error =>
    rw [decodeInto, headBlock, if_neg notNull, if_neg notTerminator, length]
    rfl
  | ok field =>
    obtain ⟨len, consumed⟩ := field
    rw [decodeInto_block build out notNull notTerminator length, List.drop_drop, List.drop_drop,
      ← Nat.add_assoc]
    exact onward len consumed (value_inside inside length)

/-- The parser at an offset decodes the bytes from there on.

Induction on the parser's loop; each branch frames its block as the stream does. -/
theorem parseTlvsInto_eq (build : Build) (data : List UInt8) (start : Nat) (out : List Tlv) :
    parseTlvsInto build data start out = decodeInto build (data.drop start) out := by
  fun_induction parseTlvsInto build data start out with
  | case1 start out inside tag offset isNull inductionHypothesis =>
    rw [List.drop_eq_getElem_cons inside, decodeInto, headBlock, if_pos isNull]
    simp only [inductionHypothesis]
    rfl
  | case2 start out inside tag notNull isTerminator =>
    rw [List.drop_eq_getElem_cons inside, decodeInto, headBlock, if_neg notNull,
      if_pos isTerminator]
    rfl
  | case3 start out inside tag offset notNull notTerminator isLock inductionHypothesis =>
    refine parse_valued build out inside notNull notTerminator fun len consumed _ => ?_
    refine (parse_controlBlock build data out LockControlValue.fromBytes .lockControl
      (inductionHypothesis len consumed)).trans (bind_congr fun bytes => ?_)
    rw [blockOfValue, if_pos isLock]
    cases controlValue LockControlValue.fromBytes bytes with
    | error error => rfl
    | ok found => rfl
  | case4 start out inside tag offset notNull notTerminator notLock isMemory inductionHypothesis =>
    refine parse_valued build out inside notNull notTerminator fun len consumed _ => ?_
    refine (parse_controlBlock build data out MemoryControlValue.fromBytes .memoryControl
      (inductionHypothesis len consumed)).trans (bind_congr fun bytes => ?_)
    rw [blockOfValue, if_neg notLock, if_pos isMemory]
    cases controlValue MemoryControlValue.fromBytes bytes with
    | error error => rfl
    | ok found => rfl
  | case5 start out inside tag offset notNull notTerminator notLock notMemory isNdef
      inductionHypothesis =>
    refine parse_valued build out inside notNull notTerminator fun len consumed reached => ?_
    simp only [inductionHypothesis]
    refine (takeExactly_eq data reached fun bytes => do
      let found ← tryExtend build.dataCapacity [] bytes
      let out ← pushTlv build out (.ndefMessage found)
      decodeInto build (data.drop (offset + consumed + len)) out).trans (bind_congr fun bytes => ?_)
    rw [blockOfValue, if_neg notLock, if_neg notMemory, if_pos isNdef]
    cases tryExtend build.dataCapacity [] bytes with
    | error error => rfl
    | ok found => rfl
  | case6 start out inside tag offset notNull notTerminator notLock notMemory notNdef isProprietary
      inductionHypothesis =>
    refine parse_valued build out inside notNull notTerminator fun len consumed reached => ?_
    simp only [inductionHypothesis]
    refine (takeExactly_eq data reached fun bytes => do
      let found ← tryExtend build.dataCapacity [] bytes
      let out ← pushTlv build out (.proprietary found)
      decodeInto build (data.drop (offset + consumed + len)) out).trans (bind_congr fun bytes => ?_)
    rw [blockOfValue, if_neg notLock, if_neg notMemory, if_neg notNdef, if_pos isProprietary]
    cases tryExtend build.dataCapacity [] bytes with
    | error error => rfl
    | ok found => rfl
  | case7 start out inside tag offset notNull notTerminator notLock notMemory notNdef notProprietary
      inductionHypothesis =>
    refine parse_valued build out inside notNull notTerminator fun len consumed reached => ?_
    simp only [inductionHypothesis]
    refine (takeExactly_eq data reached fun _ =>
      decodeInto build (data.drop (offset + consumed + len)) out).trans (bind_congr fun bytes => ?_)
    rw [blockOfValue, if_neg notLock, if_neg notMemory, if_neg notNdef, if_neg notProprietary]
    rfl
  | case8 start out outside =>
    rw [List.drop_eq_nil_of_le (Nat.le_of_not_lt outside), decodeInto]

end NfcForumTags
