import NfcForumTags.TlvStream

/-!
# The grammar of TLV data

What TLV data is, apart from any parser: whole blocks up to the end of the data,
or up to a Terminator with anything behind it. The parser accepts exactly this,
whatever was recorded before.
-/
namespace NfcForumTags

open Program

/-- A length field, in either form, and the length it gives. -/
inductive LengthField : List UInt8 → Nat → Prop where
  | short (len : UInt8) (small : len < 0xFF) : LengthField [len] len.toNat
  | long (msb lsb : UInt8) : LengthField [0xFF, msb, lsb] (msb.toNat * 256 + lsb.toNat)

/-- What is recorded of a value, by its tag. -/
inductive Recorded : UInt8 → List UInt8 → Option Tlv → Prop where
  | lock {b0 b1 b2 : UInt8} {value : LockControlValue}
      (read : LockControlValue.fromBytes #v[b0, b1, b2] = .ok value) :
      Recorded TLV_LOCK_CONTROL [b0, b1, b2] (some (.lockControl value))
  | memory {b0 b1 b2 : UInt8} {value : MemoryControlValue}
      (read : MemoryControlValue.fromBytes #v[b0, b1, b2] = .ok value) :
      Recorded TLV_MEMORY_CONTROL [b0, b1, b2] (some (.memoryControl value))
  | ndef (data : List UInt8) : Recorded TLV_NDEF_MESSAGE data (some (.ndefMessage data))
  | proprietary (data : List UInt8) : Recorded TLV_PROPRIETARY data (some (.proprietary data))
  | unknown {tag : UInt8} (data : List UInt8) (notLock : tag ≠ TLV_LOCK_CONTROL)
      (notMemory : tag ≠ TLV_MEMORY_CONTROL) (notNdef : tag ≠ TLV_NDEF_MESSAGE)
      (notProprietary : tag ≠ TLV_PROPRIETARY) : Recorded tag data none

/-- A whole block other than a Terminator, and what the parser records of it. -/
inductive TlvBlock : List UInt8 → Option Tlv → Prop where
  | null : TlvBlock [TLV_NULL] (some .null)
  | valued {tag : UInt8} {field value : List UInt8} {found : Option Tlv}
      (notNull : tag ≠ TLV_NULL) (notTerminator : tag ≠ TLV_TERMINATOR)
      (length : LengthField field value.length)
      (recorded : Recorded tag value found) : TlvBlock (tag :: (field ++ value)) found

/-- Whole blocks in sequence. -/
inductive TlvBlocks : List UInt8 → List Tlv → Prop where
  | nil : TlvBlocks [] []
  | cons {block rest : List UInt8} {found : Option Tlv} {tlvs : List Tlv}
      (first : TlvBlock block found) (onward : TlvBlocks rest tlvs) :
      TlvBlocks (block ++ rest) (found.toList ++ tlvs)

/-- Whole blocks up to the end, or up to a Terminator. -/
def TlvStream (data : List UInt8) (tlvs : List Tlv) : Prop :=
  ∃ body front, TlvBlocks body front ∧
    (data = body ∧ tlvs = front ∨
      ∃ rest, data = body ++ TLV_TERMINATOR :: rest ∧ tlvs = front ++ [.terminator])

/-- Sequences of whole blocks are joined. -/
theorem TlvBlocks.append {body others : List UInt8} {front back : List Tlv}
    (first : TlvBlocks body front) (second : TlvBlocks others back) :
    TlvBlocks (body ++ others) (front ++ back) := by
  induction first with
  | nil => exact second
  | cons block _ inductionHypothesis =>
    rw [List.append_assoc, List.append_assoc]
    exact .cons block inductionHypothesis

/-- One whole block. -/
theorem TlvBlock.single {block : List UInt8} {found : Option Tlv} (whole : TlvBlock block found) :
    TlvBlocks block found.toList := by
  have blocks := TlvBlocks.cons whole .nil
  rwa [List.append_nil, List.append_nil] at blocks

/-- Whole blocks ahead of a stream make a stream. -/
theorem TlvBlocks.stream {ahead rest : List UInt8} {front onward : List Tlv}
    (blocks : TlvBlocks ahead front) (stream : TlvStream rest onward) :
    TlvStream (ahead ++ rest) (front ++ onward) := by
  obtain ⟨body, further, whole, ⟨rfl, rfl⟩ | ⟨after, rfl, rfl⟩⟩ := stream
  · exact ⟨_, _, blocks.append whole, Or.inl ⟨rfl, rfl⟩⟩
  · exact ⟨_, _, blocks.append whole, Or.inr ⟨after, by rw [List.append_assoc], by
      rw [List.append_assoc]⟩⟩

/-! ## Length fields -/

/-- A length field is read whatever follows it. -/
theorem LengthField.read {field : List UInt8} {len : Nat} (length : LengthField field len)
    (rest : List UInt8) : lengthField (field ++ rest) = .ok (len, field.length) := by
  cases length with
  | short len small => simp [lengthField, small]
  | long msb lsb => simp [lengthField]

/-- What is read as a length field is one. -/
theorem LengthField.of_read {data : List UInt8} {len consumed : Nat}
    (found : lengthField data = .ok (len, consumed)) :
    LengthField (data.take consumed) len ∧ consumed ≤ data.length := by
  unfold lengthField at found
  split at found
  · cases found
  · next first rest =>
    split at found
    · next small =>
      cases found
      exact ⟨.short first small, by simp⟩
    · next large =>
      split at found
      · next msb lsb rest =>
        cases found
        have full : first = 0xFF := by
          rw [UInt8.lt_iff_toNat_lt] at large
          apply UInt8.toNat_inj.mp
          have bound := first.toNat_lt
          simp at large ⊢
          omega
        subst full
        exact ⟨.long msb lsb, by simp⟩
      · cases found

/-- The serializer's length field is never longer than another one. -/
theorem LengthField.canonical_le {field : List UInt8} {len : Nat} (length : LengthField field len) :
    lFieldSize len ≤ field.length := by
  unfold lFieldSize
  cases length with
  | short len small =>
    have below : len.toNat < 0xFF := UInt8.lt_iff_toNat_lt.mp small
    rw [if_pos below]
    rfl
  | long msb lsb => split <;> simp

/-- The length field the serializer writes is one. -/
theorem LengthField.encoded {len : Nat} (encodable : len ≤ MAX_TLV_LENGTH) :
    LengthField (realLengthField len) len := by
  unfold MAX_TLV_LENGTH at encodable
  unfold realLengthField
  split
  · next short =>
    have byte : len.toUInt8.toNat = len := by
      simp only [Nat.toUInt8, UInt8.toNat_ofNat']
      omega
    have field := LengthField.short len.toUInt8 (by
      rw [UInt8.lt_iff_toNat_lt, byte]
      exact short)
    rwa [byte] at field
  · next long =>
    have bytes : (len >>> 8).toUInt8.toNat * 256 + len.toUInt8.toNat = len := by
      simp only [Nat.toUInt8, UInt8.toNat_ofNat', Nat.shiftRight_eq_div_pow]
      omega
    have field := LengthField.long (len >>> 8).toUInt8 len.toUInt8
    rwa [bytes] at field

/-! ## Values -/

/-- A control block has a value of three bytes that its fields are read from. -/
theorem controlValue_ok {α : Type} {fromBytes : Vector UInt8 3 → Except Type2Error α}
    {value : List UInt8} {found : α} (read : controlValue fromBytes value = .ok found) :
    ∃ b0 b1 b2, value = [b0, b1, b2] ∧ fromBytes #v[b0, b1, b2] = .ok found := by
  unfold controlValue at read
  split at read
  · next b0 b1 b2 => exact ⟨b0, b1, b2, rfl, read⟩
  · cases read

/-- What a build records of a value, whatever its capacities, and the growable build
records all of it. -/
theorem recorded_of_ok {build : Build} {tag : UInt8} {value : List UInt8} {found : Option Tlv}
    (recorded : blockOfValue build tag value = .ok found) : Recorded tag value found := by
  unfold blockOfValue at recorded
  split at recorded
  · next isLock =>
    obtain ⟨control, read, same⟩ := ok_of_bind recorded
    obtain ⟨b0, b1, b2, rfl, read⟩ := controlValue_ok read
    cases same
    exact isLock ▸ .lock read
  next notLock =>
  split at recorded
  · next isMemory =>
    obtain ⟨control, read, same⟩ := ok_of_bind recorded
    obtain ⟨b0, b1, b2, rfl, read⟩ := controlValue_ok read
    cases same
    exact isMemory ▸ .memory read
  next notMemory =>
  split at recorded
  · next isNdef =>
    obtain ⟨data, extended, same⟩ := ok_of_bind recorded
    cases same
    rw [tryExtend_ok extended]
    exact isNdef ▸ .ndef value
  next notNdef =>
  split at recorded
  · next isProprietary =>
    obtain ⟨data, extended, same⟩ := ok_of_bind recorded
    cases same
    rw [tryExtend_ok extended]
    exact isProprietary ▸ .proprietary value
  next notProprietary =>
  cases recorded
  exact .unknown value notLock notMemory notNdef notProprietary

/-- The growable build records every value that can be recorded. -/
theorem Recorded.ok {tag : UInt8} {value : List UInt8} {found : Option Tlv}
    (recorded : Recorded tag value found) : blockOfValue .alloc tag value = .ok found := by
  cases recorded with
  | lock read => exact congrArg (Except.map fun found => some (Tlv.lockControl found)) read
  | memory read => exact congrArg (Except.map fun found => some (Tlv.memoryControl found)) read
  | ndef data => rfl
  | proprietary data => rfl
  | unknown data notLock notMemory notNdef notProprietary =>
    unfold blockOfValue
    rw [if_neg notLock, if_neg notMemory, if_neg notNdef, if_neg notProprietary]

/-- A value is never recorded as a Terminator. -/
theorem Recorded.ne_terminator {tag : UInt8} {value : List UInt8} {found : Option Tlv}
    (recorded : Recorded tag value found) : found ≠ some .terminator := by
  cases recorded <;> simp

/-- A serialized value is a whole block. -/
theorem TlvBlock.serialized {tag : UInt8} {data : List UInt8} {found : Option Tlv}
    (notNull : tag ≠ TLV_NULL) (notTerminator : tag ≠ TLV_TERMINATOR)
    (recorded : Recorded tag data found) (encodable : data.length ≤ MAX_TLV_LENGTH) :
    TlvBlock (encodedValue tag data) found :=
  .valued notNull notTerminator (LengthField.encoded encodable) recorded

/-- A serialized NDEF Message TLV is a whole block. -/
theorem TlvBlock.encodedNdef {data : List UInt8} (encodable : data.length ≤ MAX_TLV_LENGTH) :
    TlvBlock (encodedValue TLV_NDEF_MESSAGE data) (some (.ndefMessage data)) :=
  .serialized (by decide) (by decide) (.ndef data) encodable

/-! ## The parser -/

/-- A block starts with its tag. -/
theorem TlvBlock.tagged {block : List UInt8} {found : Option Tlv} (whole : TlvBlock block found) :
    ∃ tag tail, block = tag :: tail := by
  cases whole with
  | null => exact ⟨_, _, rfl⟩
  | valued _ _ _ _ => exact ⟨_, _, rfl⟩

/-- A whole block is not a Terminator. -/
theorem TlvBlock.continues {block : List UInt8} {found : Option Tlv} (whole : TlvBlock block found)
    (tlv : Tlv) (recorded : found = some tlv) : tlv ≠ .terminator := by
  cases whole with
  | null =>
    cases recorded
    exact Tlv.noConfusion
  | valued _ _ _ value => exact fun same => value.ne_terminator (same ▸ recorded)

/-- A whole block is cut off behind its tag. -/
theorem TlvBlock.headed {tag : UInt8} {tail : List UInt8} {found : Option Tlv}
    (whole : TlvBlock (tag :: tail) found) (rest : List UInt8) :
    headBlock .alloc tag (tail ++ rest) = .ok (found, tail.length) := by
  cases whole with
  | null => rfl
  | valued notNull notTerminator length recorded =>
    rename_i field value
    have enough : ¬ (value ++ rest).length < value.length := by simp
    unfold headBlock
    rw [if_neg notNull, if_neg notTerminator, List.append_assoc, length.read (value ++ rest)]
    change (takeExactly _ ((field ++ (value ++ rest)).drop field.length) >>= _) = _
    rw [List.drop_left, takeExactly, if_neg enough, List.take_left]
    change (blockOfValue .alloc tag value >>= _) = _
    rw [recorded.ok, List.length_append]
    rfl

/-- The parser records a whole block and goes on behind it. -/
theorem TlvBlock.decoded {block : List UInt8} {found : Option Tlv} (whole : TlvBlock block found)
    (rest : List UInt8) (out : List Tlv) :
    decodeInto .alloc (block ++ rest) out =
      decodeInto .alloc rest (out ++ found.toList) := by
  obtain ⟨tag, tail, rfl⟩ := whole.tagged
  rw [List.cons_append, decodeInto_cons (whole.headed rest), List.drop_left]
  cases found with
  | none => simp [decodeBehind]
  | some tlv =>
    rw [decodeBehind_some (whole.continues tlv rfl)]
    rfl

/-- The parser records whole blocks and goes on behind them. -/
theorem TlvBlocks.decoded {body : List UInt8} {front : List Tlv} (whole : TlvBlocks body front)
    (rest : List UInt8) (out : List Tlv) :
    decodeInto .alloc (body ++ rest) out =
      decodeInto .alloc rest (out ++ front) := by
  induction whole generalizing out with
  | nil => simp
  | cons first onward inductionHypothesis =>
    rw [List.append_assoc, first.decoded, inductionHypothesis, List.append_assoc]

/-- The parser with growable buffers accepts every stream. -/
theorem TlvStream.parse {data : List UInt8} {tlvs : List Tlv} (stream : TlvStream data tlvs) :
    parseTlvs .alloc data = .ok tlvs := by
  obtain ⟨body, front, whole, ends⟩ := stream
  rw [parseTlvs, parseTlvsInto_eq, List.drop_zero]
  rcases ends with ⟨rfl, rfl⟩ | ⟨rest, rfl, rfl⟩
  · have decoded := whole.decoded [] []
    rw [List.append_nil] at decoded
    rw [decoded, decodeInto, List.nil_append]
  · rw [whole.decoded, decodeInto]
    rfl

/-- What the parser cuts off at the head of the data is a whole block. -/
theorem headBlock_ok {build : Build} {tag : UInt8} {rest : List UInt8} {found : Option Tlv}
    {size : Nat} (headed : headBlock build tag rest = .ok (found, size)) :
    size ≤ rest.length ∧ (tag = TLV_TERMINATOR ∧ found = some .terminator ∨
      found ≠ some .terminator ∧ TlvBlock (tag :: rest.take size) found) := by
  unfold headBlock at headed
  split at headed
  · next isNull =>
    cases headed
    exact ⟨Nat.zero_le _, Or.inr ⟨by simp, isNull ▸ .null⟩⟩
  next notNull =>
  split at headed
  · next isTerminator =>
    cases headed
    exact ⟨Nat.zero_le _, Or.inl ⟨isTerminator, rfl⟩⟩
  next notTerminator =>
  obtain ⟨⟨len, consumed⟩, length, headed⟩ := ok_of_bind headed
  obtain ⟨value, taken, headed⟩ := ok_of_bind headed
  obtain ⟨recorded, block, same⟩ := ok_of_bind headed
  cases same
  obtain ⟨field, inside⟩ := LengthField.of_read length
  unfold takeExactly at taken
  split at taken
  · cases taken
  next enough =>
  obtain rfl := Except.ok.inj taken
  rw [List.length_drop] at enough
  have count : ((rest.drop consumed).take len).length = len := by
    rw [List.length_take, List.length_drop]
    omega
  have recorded := recorded_of_ok block
  refine ⟨by omega, Or.inr ⟨recorded.ne_terminator, ?_⟩⟩
  rw [List.take_add]
  exact .valued notNull notTerminator (count.symm ▸ field) recorded

/-- What the parser accepts, within any capacity, is whole blocks up to the end or
a Terminator, after what was already recorded.

Induction on the blocks of the data. -/
theorem decodeInto_sound {build : Build} {data : List UInt8} {out tlvs : List Tlv}
    (decoded : decodeInto build data out = .ok tlvs) :
    ∃ body front, TlvBlocks body front ∧ (data = body ∧ tlvs = out ++ front ∨
      ∃ rest, data = body ++ TLV_TERMINATOR :: rest ∧ tlvs = out ++ front ++ [.terminator]) := by
  fun_induction decodeInto build data out with
  | case1 out =>
    obtain rfl := Except.ok.inj decoded
    exact ⟨[], [], .nil, Or.inl ⟨rfl, by simp⟩⟩
  | case2 out tag rest skipped pushed =>
    obtain ⟨⟨found, size⟩, headed, decoded⟩ := ok_of_bind decoded
    obtain ⟨inside, ended | ⟨continues, block⟩⟩ := headBlock_ok headed
    · obtain ⟨rfl, rfl⟩ := ended
      rw [tryPush_ok decoded]
      exact ⟨[], [], .nil, Or.inr ⟨rest, rfl, by simp⟩⟩
    · have onward : ∃ body front, TlvBlocks body front ∧
          (rest.drop size = body ∧ tlvs = out ++ found.toList ++ front ∨
            ∃ behind, rest.drop size = body ++ TLV_TERMINATOR :: behind ∧
              tlvs = out ++ found.toList ++ front ++ [.terminator]) := by
        cases found with
        | none =>
          rw [Option.toList_none, List.append_nil]
          exact skipped size decoded
        | some tlv =>
          have pushes : (pushTlv build out tlv >>= fun out =>
              decodeInto build (rest.drop size) out) = .ok tlvs := by
            cases tlv with
            | terminator => exact absurd rfl continues
            | null | lockControl _ | memoryControl _ | ndefMessage _ | proprietary _ =>
              exact decoded
          obtain ⟨extended, push, decoded⟩ := ok_of_bind pushes
          rw [Option.toList_some, ← tryPush_ok push]
          exact pushed size extended decoded
      obtain ⟨body, front, whole, ends⟩ := onward
      have shape : tag :: rest = tag :: rest.take size ++ rest.drop size := by simp
      refine ⟨tag :: rest.take size ++ body, found.toList ++ front, .cons block whole, ?_⟩
      rcases ends with ⟨same, listed⟩ | ⟨behind, same, listed⟩
      · exact Or.inl ⟨by rw [shape, same], by rw [listed, List.append_assoc]⟩
      · exact Or.inr ⟨behind, by rw [shape, same, List.append_assoc], by
          rw [listed, List.append_assoc out]⟩

/-- The parser accepts streams only, whatever its capacities. -/
theorem parseTlvs_sound {build : Build} {data : List UInt8} {tlvs : List Tlv}
    (accepted : parseTlvs build data = .ok tlvs) : TlvStream data tlvs := by
  rw [parseTlvs, parseTlvsInto_eq, List.drop_zero] at accepted
  obtain ⟨body, front, whole, ends⟩ := decodeInto_sound accepted
  exact ⟨body, front, whole, by simpa using ends⟩

/-- A control value is one that `from_bytes` has read. -/
def Tlv.FromBytes : Tlv → Prop
  | .lockControl value => ∃ bytes, LockControlValue.fromBytes bytes = .ok value
  | .memoryControl value => ∃ bytes, MemoryControlValue.fromBytes bytes = .ok value
  | .null | .ndefMessage _ | .proprietary _ | .terminator => True

/-- What a block records was decoded from bytes. -/
theorem TlvBlock.fromBytes {block : List UInt8} {found : Option Tlv} (whole : TlvBlock block found)
    {tlv : Tlv} (listed : tlv ∈ found) : tlv.FromBytes := by
  cases whole with
  | null =>
    cases listed
    trivial
  | valued _ _ _ recorded =>
    cases recorded with
    | lock read =>
      cases listed
      exact ⟨_, read⟩
    | memory read =>
      cases listed
      exact ⟨_, read⟩
    | ndef _ | proprietary _ =>
      cases listed
      trivial
    | unknown _ _ _ _ _ => cases listed

/-- What is recorded from blocks was decoded from bytes.

Induction on the blocks. -/
theorem TlvBlocks.fromBytes {body : List UInt8} {front : List Tlv} (whole : TlvBlocks body front)
    {tlv : Tlv} (listed : tlv ∈ front) : tlv.FromBytes := by
  induction whole with
  | nil => cases listed
  | cons first onward inductionHypothesis =>
    rcases List.mem_append.mp listed with head | behind
    · exact first.fromBytes (Option.mem_toList.mp head)
    · exact inductionHypothesis behind

/-- The control values of a stream are read from their bytes. -/
theorem TlvStream.fromBytes {data : List UInt8} {tlvs : List Tlv} (stream : TlvStream data tlvs)
    {tlv : Tlv} (listed : tlv ∈ tlvs) : tlv.FromBytes := by
  obtain ⟨body, front, whole, ⟨-, rfl⟩ | ⟨rest, -, rfl⟩⟩ := stream
  · exact whole.fromBytes listed
  · rcases List.mem_append.mp listed with inFront | last
    · exact whole.fromBytes inFront
    · cases List.mem_singleton.mp last
      trivial

/-- With growable buffers the parser accepts exactly the streams. -/
theorem parseTlvs_iff {data : List UInt8} {tlvs : List Tlv} :
    parseTlvs .alloc data = .ok tlvs ↔ TlvStream data tlvs :=
  ⟨parseTlvs_sound, TlvStream.parse⟩

/-- A stream has one reading. -/
theorem TlvStream.unique {data : List UInt8} {tlvs others : List Tlv}
    (stream : TlvStream data tlvs) (other : TlvStream data others) : tlvs = others := by
  have same := stream.parse
  rw [other.parse] at same
  exact (Except.ok.inj same).symm

/-- A stream that begins with whole blocks goes on behind them as a stream. -/
theorem TlvBlocks.behind {ahead rest : List UInt8} {front tlvs : List Tlv}
    (whole : TlvBlocks ahead front) (stream : TlvStream (ahead ++ rest) tlvs) :
    ∃ onward, TlvStream rest onward ∧ tlvs = front ++ onward := by
  have decoded := stream.parse
  rw [parseTlvs, parseTlvsInto_eq, List.drop_zero, whole.decoded, List.nil_append] at decoded
  obtain ⟨body, blocks, remaining, ⟨rfl, listed⟩ | ⟨after, rfl, listed⟩⟩ :=
    decodeInto_sound decoded
  · exact ⟨blocks, ⟨_, _, remaining, Or.inl ⟨rfl, rfl⟩⟩, listed⟩
  · exact ⟨blocks ++ [.terminator], ⟨_, _, remaining, Or.inr ⟨after, rfl, rfl⟩⟩, by
      rw [listed, List.append_assoc]⟩

end NfcForumTags
