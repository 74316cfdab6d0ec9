import NfcForumTags.Framing
import NfcForumTags.TlvRoundTrip

/-!
# The documented grammar

The documentation gives a length field three bytes only for a length from 0x00FF to
0xFFFE, which are the fields that the serializer emits. The parser has no such check,
so it also accepts streams with a three-byte field for a shorter length, or for the
reserved one. On all other data it accepts exactly the documented streams.
-/
namespace NfcForumTags

/-! ## Documented streams -/

/-- A documented length field, and the length it gives. -/
inductive DocumentedLength : List UInt8 → Nat → Prop where
  | short (len : UInt8) (small : len < 0xFF) : DocumentedLength [len] len.toNat
  | long (msb lsb : UInt8) (least : 0x00FF ≤ msb.toNat * 256 + lsb.toNat)
      (most : msb.toNat * 256 + lsb.toNat ≤ 0xFFFE) :
      DocumentedLength [0xFF, msb, lsb] (msb.toNat * 256 + lsb.toNat)

/-- A block other than a Terminator with a documented length field, if it has one, and
what is recorded of it. -/
inductive DocumentedBlock : List UInt8 → Option Tlv → Prop where
  | null : DocumentedBlock [TLV_NULL] (some .null)
  | valued {tag : UInt8} {field value : List UInt8} {found : Option Tlv}
      (notNull : tag ≠ TLV_NULL) (notTerminator : tag ≠ TLV_TERMINATOR)
      (length : DocumentedLength field value.length) (recorded : Recorded tag value found) :
      DocumentedBlock (tag :: (field ++ value)) found

/-- Documented blocks in sequence. -/
inductive DocumentedBlocks : List UInt8 → List Tlv → Prop where
  | nil : DocumentedBlocks [] []
  | cons {block rest : List UInt8} {found : Option Tlv} {tlvs : List Tlv}
      (first : DocumentedBlock block found) (onward : DocumentedBlocks rest tlvs) :
      DocumentedBlocks (block ++ rest) (found.toList ++ tlvs)

/-- Documented blocks up to the end, or up to a Terminator. -/
def DocumentedStream (data : List UInt8) (tlvs : List Tlv) : Prop :=
  ∃ body front, DocumentedBlocks body front ∧
    (data = body ∧ tlvs = front ∨
      ∃ rest, data = body ++ TLV_TERMINATOR :: rest ∧ tlvs = front ++ [.terminator])

/-- A block whose length field of three bytes is not documented for its length. -/
inductive OddBlock : List UInt8 → Option Tlv → Prop where
  | intro {tag msb lsb : UInt8} {value : List UInt8} {found : Option Tlv}
      (notNull : tag ≠ TLV_NULL) (notTerminator : tag ≠ TLV_TERMINATOR)
      (length : msb.toNat * 256 + lsb.toNat = value.length)
      (odd : value.length < 0x00FF ∨ value.length = 0xFFFF) (recorded : Recorded tag value found) :
      OddBlock (tag :: 0xFF :: msb :: lsb :: value) found

/-- Data that is a stream but for the length field of some block. -/
def OddStream (data : List UInt8) : Prop :=
  ∃ ahead front block found behind onward, TlvBlocks ahead front ∧ OddBlock block found ∧
    TlvStream behind onward ∧ data = ahead ++ (block ++ behind)

/-! ## Documented length fields -/

/-- A documented length field is a length field. -/
theorem DocumentedLength.field {field : List UInt8} {len : Nat}
    (length : DocumentedLength field len) :
    LengthField field len := by
  cases length with
  | short len small => exact .short len small
  | long msb lsb _ _ => exact .long msb lsb

/-- A documented length can be encoded. -/
theorem DocumentedLength.le {field : List UInt8} {len : Nat} (length : DocumentedLength field len) :
    len ≤ MAX_TLV_LENGTH := by
  cases length with
  | short len small =>
    have below : len.toNat < 0xFF := UInt8.lt_iff_toNat_lt.mp small
    exact Nat.le_trans below.le (by decide)
  | long msb lsb least most => exact most

/-- The documented length field of a length is the one the serializer emits for it. -/
theorem DocumentedLength.emitted {field : List UInt8} {len : Nat}
    (length : DocumentedLength field len) :
    encodeTlvLength none len [] = .ok field := by
  rw [encodeTlvLength_eq length.le rfl, List.nil_append]
  cases length with
  | short len small =>
    have below : len.toNat < 0xFF := UInt8.lt_iff_toNat_lt.mp small
    rw [realLengthField, if_pos below, Nat.toUInt8, UInt8.ofNat_toNat]
  | long msb lsb least most =>
    have low := lsb.toNat_lt
    have msbByte : ((msb.toNat * 256 + lsb.toNat) >>> 8).toUInt8 = msb := by
      rw [Nat.shiftRight_eq_div_pow, show (msb.toNat * 256 + lsb.toNat) / 2 ^ 8 =
        msb.toNat by omega,
        Nat.toUInt8, UInt8.ofNat_toNat]
    have lsbByte : (msb.toNat * 256 + lsb.toNat).toUInt8 = lsb := by
      apply UInt8.toNat_inj.mp
      rw [Nat.toUInt8, UInt8.toNat_ofNat']
      omega
    rw [realLengthField, if_neg (Nat.not_lt.mpr least), msbByte, lsbByte]

/-- A length field is documented, or has three bytes for a length that is not. -/
theorem LengthField.documented_or {field : List UInt8} {len : Nat}
    (length : LengthField field len) :
    DocumentedLength field len ∨ (∃ msb lsb : UInt8, field = [0xFF, msb, lsb] ∧
      msb.toNat * 256 + lsb.toNat = len) ∧ (len < 0x00FF ∨ len = 0xFFFF) := by
  cases length with
  | short len small => exact Or.inl (.short len small)
  | long msb lsb =>
    have high := msb.toNat_lt
    have low := lsb.toNat_lt
    by_cases documented : 0x00FF ≤ msb.toNat * 256 + lsb.toNat ∧
      msb.toNat * 256 + lsb.toNat ≤ 0xFFFE
    · exact Or.inl (.long msb lsb documented.1 documented.2)
    · exact Or.inr ⟨⟨msb, lsb, rfl, rfl⟩, by omega⟩

/-! ## Blocks -/

/-- A documented block is a block. -/
theorem DocumentedBlock.whole {block : List UInt8} {found : Option Tlv}
    (documented : DocumentedBlock block found) : TlvBlock block found := by
  cases documented with
  | null => exact .null
  | valued notNull notTerminator length recorded =>
    exact .valued notNull notTerminator length.field recorded

/-- Documented blocks are blocks. -/
theorem DocumentedBlocks.whole {body : List UInt8} {front : List Tlv}
    (documented : DocumentedBlocks body front) : TlvBlocks body front := by
  induction documented with
  | nil => exact .nil
  | cons first _ inductionHypothesis => exact .cons first.whole inductionHypothesis

/-- A documented stream is a stream: it is only its length fields that ask for more. -/
theorem DocumentedStream.stream {data : List UInt8} {tlvs : List Tlv}
    (documented : DocumentedStream data tlvs) : TlvStream data tlvs := by
  obtain ⟨body, front, blocks, ends⟩ := documented
  exact ⟨body, front, blocks.whole, ends⟩

/-- An odd block is a block as well: the parser reads its length field. -/
theorem OddBlock.whole {block : List UInt8} {found : Option Tlv} (odd : OddBlock block found) :
    TlvBlock block found := by
  cases odd with
  | @intro tag msb lsb value found notNull notTerminator length _ recorded =>
    have field : LengthField [0xFF, msb, lsb] value.length := length ▸ .long msb lsb
    exact .valued notNull notTerminator field recorded

/-- A whole block is documented or odd. -/
theorem TlvBlock.documented_or {block : List UInt8} {found : Option Tlv}
    (whole : TlvBlock block found) : DocumentedBlock block found ∨ OddBlock block found := by
  cases whole with
  | null => exact Or.inl .null
  | valued notNull notTerminator length recorded =>
    rcases length.documented_or with documented | ⟨⟨msb, lsb, rfl, gives⟩, odd⟩
    · exact Or.inl (.valued notNull notTerminator documented recorded)
    · exact Or.inr (.intro notNull notTerminator gives odd recorded)

/-- What a frame is, is determined by the bytes it begins with. -/
theorem BlockFrame.unique {frame other rest behind : List UInt8} (left : BlockFrame frame)
    (right : BlockFrame other) (same : frame ++ rest = other ++ behind) :
    frame = other ∧ rest = behind := by
  cases left with
  | null =>
    cases right with
    | null => exact ⟨rfl, List.append_cancel_left same⟩
    | valued notNull _ _ => exact absurd (List.cons.inj same).1.symm notNull
  | @valued tag field value notNull notTerminator length =>
    cases right with
    | null => exact absurd (List.cons.inj same).1 notNull
    | @valued otherTag otherField otherValue _ _ otherLength =>
      obtain ⟨rfl, after⟩ : tag = otherTag ∧ field ++ value ++ rest =
          otherField ++ otherValue ++ behind :=
        List.cons.inj same
      have reads := length.read (value ++ rest)
      rw [← List.append_assoc, after, List.append_assoc, otherLength.read] at reads
      obtain ⟨lengths, sizes⟩ := Prod.mk.inj (Except.ok.inj reads)
      obtain ⟨whole, onward⟩ := List.append_inj after (by
        rw [List.length_append, List.length_append, lengths, sizes])
      exact ⟨congrArg _ whole, onward⟩

/-- Behind a frame a documented stream goes on, and the frame is a documented block. -/
theorem DocumentedStream.behind {frame rest : List UInt8} {tlvs : List Tlv}
    (frames : BlockFrame frame) (documented : DocumentedStream (frame ++ rest) tlvs) :
    (∃ found, DocumentedBlock frame found) ∧ ∃ onward, DocumentedStream rest onward := by
  obtain ⟨body, front, blocks, ends⟩ := documented
  cases blocks with
  | nil =>
    exfalso
    cases frames with
    | null => rcases ends with ⟨same, -⟩ | ⟨after, same, -⟩ <;> cases same
    | valued _ notTerminator _ =>
      rcases ends with ⟨same, -⟩ | ⟨after, same, -⟩
      · cases same
      · exact notTerminator (List.cons.inj same).1
  | cons first onward =>
    rename_i block further found tlvs
    rcases ends with ⟨same, -⟩ | ⟨after, same, -⟩
    · obtain ⟨rfl, rfl⟩ := frames.unique first.whole.frame same
      exact ⟨⟨found, first⟩, tlvs, _, _, onward, Or.inl ⟨rfl, rfl⟩⟩
    · rw [List.append_assoc] at same
      obtain ⟨rfl, rfl⟩ := frames.unique first.whole.frame same
      exact ⟨⟨found, first⟩, _, _, _, onward, Or.inr ⟨after, rfl, rfl⟩⟩

/-- A documented length field of three bytes gives no short and no reserved length. -/
theorem DocumentedLength.of_three {field rest value : List UInt8} {len : Nat} {msb lsb : UInt8}
    (length : DocumentedLength field len) (shape : 0xFF :: msb :: lsb :: value = field ++ rest) :
    0x00FF ≤ msb.toNat * 256 + lsb.toNat ∧ msb.toNat * 256 + lsb.toNat ≤ 0xFFFE := by
  cases length with
  | short len small =>
    obtain ⟨rfl, -⟩ := List.cons.inj shape
    exact absurd small (by decide)
  | long msb' lsb' least most =>
    obtain ⟨high, shape⟩ := List.cons.inj (List.cons.inj shape).2
    rw [high, (List.cons.inj shape).1]
    exact ⟨least, most⟩

/-- No block is documented and odd. -/
theorem DocumentedBlock.not_odd {block : List UInt8} {found other : Option Tlv}
    (documented : DocumentedBlock block found) : ¬ OddBlock block other := by
  intro odd
  cases odd with
  | @intro tag msb lsb value other notNull notTerminator length odd _ =>
    generalize shape : tag :: 0xFF :: msb :: lsb :: value = block at documented
    cases documented with
    | null => exact notNull (List.cons.inj shape).1
    | valued _ _ field _ =>
      have bounds := field.of_three (List.cons.inj shape).2
      omega

/-- A documented stream has no odd block.

Induction on the blocks ahead of it. -/
theorem DocumentedStream.not_odd {data : List UInt8} {tlvs : List Tlv}
    (documented : DocumentedStream data tlvs) : ¬ OddStream data := by
  rintro ⟨ahead, front, block, found, behind, onward, blocks, odd, -, rfl⟩
  induction blocks generalizing tlvs with
  | nil =>
    obtain ⟨⟨_, first⟩, -⟩ := DocumentedStream.behind odd.whole.frame documented
    exact first.not_odd odd
  | cons first _ inductionHypothesis =>
    rw [List.append_assoc] at documented
    obtain ⟨-, _, rest⟩ := DocumentedStream.behind first.frame documented
    exact inductionHypothesis rest

/-- A stream without odd blocks is documented.

Induction on its blocks, each with the rest of the stream behind it. -/
theorem TlvStream.documented {data : List UInt8} {tlvs : List Tlv} (stream : TlvStream data tlvs)
    (even : ¬ OddStream data) : DocumentedStream data tlvs := by
  obtain ⟨body, front, whole, ends⟩ := stream
  obtain ⟨tail, shape, tailStream⟩ : ∃ tail, data = body ++ tail ∧
      ∃ onward, TlvStream tail onward := by
    rcases ends with ⟨same, -⟩ | ⟨rest, same, -⟩
    · exact ⟨[], by rw [same, List.append_nil], [], [], [], .nil, Or.inl ⟨rfl, rfl⟩⟩
    · exact ⟨_, same, [.terminator], [], [], .nil, Or.inr ⟨rest, rfl, rfl⟩⟩
  refine ⟨body, front, ?_, ends⟩
  clear ends
  subst shape
  obtain ⟨onward, tailStream⟩ := tailStream
  induction whole with
  | nil => exact .nil
  | cons first rest inductionHypothesis =>
    rename_i block further found listed
    refine .cons (first.documented_or.resolve_right fun odd => even ?_) (inductionHypothesis ?_)
    · exact ⟨[], [], block, found, further ++ tail, _, .nil, odd, rest.stream tailStream, by simp⟩
    · rintro ⟨ahead, front, oddBlock, oddFound, behind, after, blocks, odd, stream, same⟩
      exact even ⟨block ++ ahead, _, oddBlock, oddFound, behind, after,
        .cons first blocks, odd, stream,
        by rw [List.append_assoc, same, List.append_assoc]⟩

/-- An odd stream is a stream. -/
theorem OddStream.stream {data : List UInt8} (odd : OddStream data) :
    ∃ tlvs, TlvStream data tlvs := by
  obtain ⟨ahead, front, block, found, behind, onward, blocks, odd, stream, rfl⟩ := odd
  exact ⟨_, blocks.stream (odd.whole.single.stream stream)⟩

/-! ## What the parser accepts -/

/-- Every documented block is serialized again. -/
theorem DocumentedStream.encodable {data : List UInt8} {tlvs : List Tlv}
    (documented : DocumentedStream data tlvs) :
    ∀ tlv ∈ tlvs, ∃ block, tlv.toBytes .alloc = .ok block := by
  obtain ⟨body, front, blocks, ends⟩ := documented
  have all : ∀ tlv ∈ front, ∃ block, tlv.toBytes .alloc = .ok block := by
    clear ends
    induction blocks with
    | nil => simp
    | cons first _ inductionHypothesis =>
      intro tlv member
      rcases List.mem_append.mp member with here | later
      · obtain rfl := Option.mem_toList.mp here
        cases first with
        | null => exact ⟨_, rfl⟩
        | valued _ _ length recorded =>
          cases recorded with
          | lock _ | memory _ => exact ⟨_, rfl⟩
          | ndef data | proprietary data => exact ⟨_, encodeValue_eq length.le rfl⟩
      · exact inductionHypothesis tlv later
  rcases ends with ⟨-, rfl⟩ | ⟨_, -, rfl⟩
  · exact all
  · intro tlv member
    rcases List.mem_append.mp member with here | last
    · exact all tlv here
    · rw [List.mem_singleton.mp last]
      exact ⟨_, rfl⟩

/-- With growable buffers, the parser accepts of some data exactly what the documented
grammar makes of it, and all of that can be serialized again, if and only if the data
is not a stream with an odd block.

Proof: the parser accepts exactly the streams of its own grammar. That differs from the
documented one in the length fields only: an odd block gives a stream that is not
documented, and without one every length field is. -/
theorem parseTlvs_documented_iff (data : List UInt8) :
    ((∀ tlvs, parseTlvs .alloc data = .ok tlvs ↔ DocumentedStream data tlvs) ∧
      ∀ tlvs, parseTlvs .alloc data = .ok tlvs →
        ∀ tlv ∈ tlvs, ∃ block, tlv.toBytes .alloc = .ok block) ↔ ¬ OddStream data := by
  simp only [parseTlvs_iff]
  constructor
  · rintro ⟨same, -⟩ odd
    obtain ⟨tlvs, stream⟩ := odd.stream
    exact ((same tlvs).mp stream).not_odd odd
  · intro even
    exact ⟨fun tlvs => ⟨fun stream => stream.documented even, DocumentedStream.stream⟩,
      fun tlvs stream => (stream.documented even).encodable⟩

/-- A message of one byte with a length field of three bytes is accepted. -/
theorem parseTlvs_odd : parseTlvs .alloc [0x03, 0xFF, 0x00, 0x01, 0xD0, 0xFE] =
      .ok [.ndefMessage [0xD0], .terminator] ∧
    (∀ tlvs, ¬ DocumentedStream [0x03, 0xFF, 0x00, 0x01, 0xD0, 0xFE] tlvs) ∧
    encodeTlvLength none 1 [] = .ok [0x01] := by
  refine ⟨by decide +kernel, fun tlvs documented => documented.not_odd ?_, by decide +kernel⟩
  exact ⟨[], [], [0x03, 0xFF, 0x00, 0x01, 0xD0], some (.ndefMessage [0xD0]), [0xFE],
    [.terminator], .nil,
    .intro (by decide) (by decide) rfl (Or.inl (by decide)) (.ndef [0xD0]),
    ⟨[], [], .nil, Or.inr ⟨[], rfl, rfl⟩⟩, rfl⟩

end NfcForumTags
