import NfcForumTags.TlvGrammar

/-!
# The offset of the NDEF TLV

`write_ndef` walks the parsed TLVs to find where the NDEF TLV is. The walk adds up
what the encodings of the recorded blocks would take, while the parser advances by
what the blocks did take, recorded or not. A block never takes less than the walk
adds for it, so the walk is right exactly when every block ahead of the NDEF TLV is
recorded and has the length form of its length.
-/
namespace NfcForumTags

/-! ## Where the NDEF TLV is -/

/-- Index of the tag byte of the first NDEF Message TLV. -/
def ndefPosition (data : List UInt8) : Option Nat :=
  match data with
  | [] => none
  | tag :: rest =>
    if tag = TLV_NULL then (ndefPosition rest).map (1 + ·)
    else if tag = TLV_TERMINATOR then none
    else if tag = TLV_NDEF_MESSAGE then some 0
    else
      match lengthField rest with
      | .error _ => none
      | .ok (len, consumed) =>
        (ndefPosition (rest.drop (consumed + len))).map (1 + (consumed + len) + ·)
termination_by data.length

/-- Whether every block ahead of the first NDEF Message TLV has a tag the parser
records, and the length field the serializer writes for its length. -/
def canonicalFront (data : List UInt8) : Bool :=
  match data with
  | [] => true
  | tag :: rest =>
    if tag = TLV_NULL then canonicalFront rest
    else if tag = TLV_TERMINATOR ∨ tag = TLV_NDEF_MESSAGE then true
    else if tag = TLV_LOCK_CONTROL ∨ tag = TLV_MEMORY_CONTROL ∨ tag = TLV_PROPRIETARY then
      match lengthField rest with
      | .error _ => false
      | .ok (len, consumed) =>
        decide (consumed = lFieldSize len) && canonicalFront (rest.drop (consumed + len))
    else false
termination_by data.length

/-- An NDEF Message TLV with this value starts at this index. -/
def NdefAt (data : List UInt8) (index : Nat) (message : List UInt8) : Prop :=
  ∃ field rest, LengthField field message.length ∧
    data.drop index = TLV_NDEF_MESSAGE :: (field ++ (message ++ rest))

/-! ## The walk -/

/-- What the walk adds for a recorded block. -/
def Tlv.walkSize : Tlv → Nat
  | .null | .terminator => 1
  | .lockControl _ | .memoryControl _ => 5
  | .ndefMessage data | .proprietary data => 1 + lFieldSize data.length + data.length

/-- Whether a block is recorded as an NDEF Message TLV. -/
def Tlv.isNdef : Tlv → Bool
  | .ndefMessage _ => true
  | _ => false

/-- Blocks that neither end the walk nor are its aim. -/
def Passed (front : List Tlv) : Prop := ∀ tlv ∈ front, tlv ≠ .terminator ∧ tlv.isNdef = false

/-- The walk over passed blocks adds up their sizes.

Induction on the blocks. -/
theorem ndefTlvOffset_passed {front rest : List Tlv} {message : List UInt8} (passed : Passed front)
    (offset : Nat) : ndefTlvOffset (front ++ .ndefMessage message :: rest) offset =
      some (offset + (front.map Tlv.walkSize).sum) := by
  induction front generalizing offset with
  | nil => rfl
  | cons tlv front inductionHypothesis =>
    have later : Passed front := fun tlv member => passed tlv (List.mem_cons_of_mem _ member)
    have head := passed tlv (List.mem_cons_self)
    have step : ndefTlvOffset (tlv :: (front ++ .ndefMessage message :: rest)) offset =
        ndefTlvOffset (front ++ .ndefMessage message :: rest) (offset + tlv.walkSize) := by
      cases tlv with
      | terminator => exact absurd rfl head.1
      | ndefMessage data => cases head.2
      | null | lockControl _ | memoryControl _ | proprietary _ => rfl
    rw [List.cons_append, step, inductionHypothesis later, List.map_cons, List.sum_cons,
      Nat.add_assoc]

/-- The message found is behind the passed blocks. -/
theorem firstNdef_passed {front rest : List Tlv} {message : List UInt8} (passed : Passed front) :
    firstNdef (front ++ .ndefMessage message :: rest) = some message := by
  induction front with
  | nil => rfl
  | cons tlv front inductionHypothesis =>
    have head := passed tlv (List.mem_cons_self)
    have onward := inductionHypothesis fun tlv member => passed tlv (List.mem_cons_of_mem _ member)
    cases tlv with
    | ndefMessage data => cases head.2
    | null | terminator | lockControl _ | memoryControl _ | proprietary _ => exact onward

/-- The walk ends before the sizes of all blocks are added up.

Induction on the blocks. -/
theorem ndefTlvOffset_le {tlvs : List Tlv} {offset found : Nat}
    (walked : ndefTlvOffset tlvs offset = some found) :
    found ≤ offset + (tlvs.map Tlv.walkSize).sum := by
  induction tlvs generalizing offset with
  | nil => cases walked
  | cons tlv rest inductionHypothesis =>
    rw [List.map_cons, List.sum_cons]
    cases tlv with
    | terminator => cases walked
    | ndefMessage data =>
      obtain rfl := Option.some.inj walked
      omega
    | null | lockControl _ | memoryControl _ | proprietary _ =>
      have bound := inductionHypothesis walked
      simp only [Tlv.walkSize]
      omega

/-! ## The blocks ahead -/

/-- The walk adds no more for a block than it has bytes. -/
theorem TlvBlock.walkSize_le {block : List UInt8} {found : Option Tlv}
    (whole : TlvBlock block found) :
    (found.toList.map Tlv.walkSize).sum ≤ block.length := by
  cases whole with
  | null => simp [Tlv.walkSize]
  | valued _ _ length recorded =>
    have canonical := length.canonical_le
    rw [List.length_cons, List.length_append]
    cases recorded with
    | lock _ | memory _ =>
      have three : lFieldSize 3 = 1 := rfl
      simp [Tlv.walkSize, three] at canonical ⊢
      omega
    | ndef _ | proprietary _ =>
      simp [Tlv.walkSize]
      omega
    | unknown _ _ _ _ _ => simp

/-- The walk counts a recorded block in its canonical form, which is never longer than the
block, and no other block.

Induction on the blocks. -/
theorem TlvBlocks.walkSize_le {body : List UInt8} {front : List Tlv}
    (whole : TlvBlocks body front) :
    (front.map Tlv.walkSize).sum ≤ body.length := by
  induction whole with
  | nil => simp
  | cons first onward inductionHypothesis =>
    have head := first.walkSize_le
    rw [List.map_append, List.sum_append, List.length_append]
    omega

/-- The sizes that the walk adds up never exceed the data: a recorded block is as long as
its canonical form at least. -/
theorem TlvStream.walkSize_le {data : List UInt8} {tlvs : List Tlv} (stream : TlvStream data tlvs) :
    (tlvs.map Tlv.walkSize).sum ≤ data.length := by
  obtain ⟨body, front, whole, ⟨rfl, rfl⟩ | ⟨rest, rfl, rfl⟩⟩ := stream
  · exact whole.walkSize_le
  · have front := whole.walkSize_le
    simp [Tlv.walkSize]
    omega

/-- A block ahead of the NDEF TLV moves its position by the block's length. The walk
adds as much for it exactly when it is recorded with the length form of its length. -/
theorem TlvBlock.ahead {block : List UInt8} {found : Option Tlv} (whole : TlvBlock block found)
    (passed : ∀ tlv ∈ found, tlv.isNdef = false) (rest : List UInt8) :
    ndefPosition (block ++ rest) = (ndefPosition rest).map (block.length + ·) ∧
    (canonicalFront (block ++ rest) = true ↔
      (found.toList.map Tlv.walkSize).sum = block.length ∧ canonicalFront rest = true) := by
  cases whole with
  | null =>
    constructor
    · rw [List.singleton_append, ndefPosition, if_pos rfl]
      rfl
    · rw [List.singleton_append, canonicalFront, if_pos rfl]
      simp [Tlv.walkSize]
  | valued notNull notTerminator length recorded =>
    rename_i tag field value
    have size : (tag :: (field ++ value)).length = 1 + (field.length + value.length) := by
      rw [List.length_cons, List.length_append]
      omega
    have behind : (field ++ (value ++ rest)).drop (field.length + value.length) = rest := by
      rw [← List.append_assoc, ← List.length_append, List.drop_left]
    have canonical := length.canonical_le
    have notNdef : tag ≠ TLV_NDEF_MESSAGE := by
      rintro rfl
      cases recorded with
      | ndef data => cases passed _ rfl
      | unknown _ _ _ notNdef _ => exact notNdef rfl
    have position : ndefPosition (tag :: (field ++ value) ++ rest) =
        (ndefPosition rest).map ((tag :: (field ++ value)).length + ·) := by
      rw [List.cons_append, List.append_assoc, ndefPosition, if_neg notNull, if_neg notTerminator,
        if_neg notNdef, length.read (value ++ rest)]
      dsimp only
      rw [behind, size]
    have front : canonicalFront (tag :: (field ++ value) ++ rest) =
        if tag = TLV_LOCK_CONTROL ∨ tag = TLV_MEMORY_CONTROL ∨ tag = TLV_PROPRIETARY then
          decide (field.length = lFieldSize value.length) && canonicalFront rest
        else false := by
      rw [List.cons_append, List.append_assoc, canonicalFront, if_neg notNull,
        if_neg (not_or.mpr ⟨notTerminator, notNdef⟩), length.read (value ++ rest)]
      dsimp only
      rw [behind]
    refine ⟨position, ?_⟩
    rw [front, size]
    cases recorded with
    | lock read | memory read =>
      have three : lFieldSize 3 = 1 := rfl
      simp only [List.length_cons, List.length_nil, Nat.reduceAdd, three] at canonical
      simp only [Option.toList_some, List.map_cons, List.map_nil, List.sum_cons, List.sum_nil,
        Tlv.walkSize, List.length_cons, List.length_nil, Nat.reduceAdd, three, Nat.add_zero]
      simp only [true_or, or_true, if_true, Bool.and_eq_true, decide_eq_true_eq]
      constructor <;> rintro ⟨exact, rest⟩ <;> exact ⟨by omega, rest⟩
    | ndef data => exact absurd rfl notNdef
    | proprietary data =>
      simp only [Option.toList_some, List.map_cons, List.map_nil, List.sum_cons, List.sum_nil,
        Tlv.walkSize, Nat.add_zero]
      simp only [or_true, if_true, Bool.and_eq_true, decide_eq_true_eq]
      constructor <;> rintro ⟨exact, rest⟩ <;> exact ⟨by omega, rest⟩
    | unknown data notLock notMemory _ notProprietary =>
      rw [if_neg (by simp [notLock, notMemory, notProprietary])]
      simp
      omega

/-- Blocks ahead of the NDEF TLV, together.

Induction on the blocks. -/
theorem TlvBlocks.ahead {body : List UInt8} {front : List Tlv} (whole : TlvBlocks body front)
    (passed : ∀ tlv ∈ front, tlv.isNdef = false) (rest : List UInt8) :
    ndefPosition (body ++ rest) = (ndefPosition rest).map (body.length + ·) ∧
    (canonicalFront (body ++ rest) = true ↔
      (front.map Tlv.walkSize).sum = body.length ∧ canonicalFront rest = true) := by
  induction whole with
  | nil => simp
  | @cons block behind found tlvs first onward inductionHypothesis =>
    obtain ⟨position, canonical⟩ := first.ahead
      (fun tlv member => passed tlv (by simp [Option.mem_def.mp member])) (behind ++ rest)
    obtain ⟨positions, canonicals⟩ := inductionHypothesis
      fun tlv member => passed tlv (List.mem_append_right _ member)
    have size := first.walkSize_le
    have sizes := onward.walkSize_le
    rw [List.append_assoc, List.map_append, List.sum_append, List.length_append]
    constructor
    · rw [position, positions, Option.map_map]
      congr 1
      funext index
      simp [Nat.add_assoc]
    · rw [canonical, canonicals]
      constructor
      · rintro ⟨same, rest, later⟩
        exact ⟨by omega, later⟩
      · rintro ⟨sum, later⟩
        exact ⟨by omega, by omega, later⟩

/-- A whole block is not recorded as a Terminator. -/
theorem TlvBlock.ne_terminator {block : List UInt8} {found : Option Tlv}
    (whole : TlvBlock block found) : found ≠ some .terminator := by
  cases whole with
  | null => simp
  | valued _ _ _ recorded => exact recorded.ne_terminator

/-- Blocks that show a message are passed blocks up to the NDEF TLV of the message.

Induction on the blocks. -/
theorem TlvBlocks.split {body message : List UInt8} {listed : List Tlv}
    (whole : TlvBlocks body listed) (found : firstNdef listed = some message) :
    ∃ ahead front field rest behind, TlvBlocks ahead front ∧ Passed front ∧
      LengthField field message.length ∧ TlvBlocks rest behind ∧
      body = ahead ++ TLV_NDEF_MESSAGE :: (field ++ (message ++ rest)) ∧
      listed = front ++ .ndefMessage message :: behind := by
  induction whole with
  | nil => cases found
  | @cons block behind recorded tlvs first onward inductionHypothesis =>
    by_cases isNdef : ∃ data, recorded = some (.ndefMessage data)
    · obtain ⟨data, rfl⟩ := isNdef
      obtain rfl : data = message := Option.some.inj found
      cases first with
      | @valued tag field value _ notNull notTerminator length recorded =>
        cases recorded with
        | ndef =>
          exact ⟨[], [], field, behind, tlvs, .nil, by simp [Passed], length, onward,
            by simp, rfl⟩
    · have later : firstNdef tlvs = some message := by
        cases recorded with
        | none => exact found
        | some tlv =>
          cases tlv with
          | ndefMessage data => exact absurd ⟨data, rfl⟩ isNdef
          | null | terminator | lockControl _ | memoryControl _ | proprietary _ => exact found
      obtain ⟨ahead, front, field, rest, after, blocks, passed, length, remaining, shape, list⟩ :=
        inductionHypothesis later
      refine ⟨block ++ ahead, recorded.toList ++ front, field, rest, after, .cons first blocks, ?_,
        length, remaining, by rw [shape, List.append_assoc], by rw [list, List.append_assoc]⟩
      intro tlv member
      rcases List.mem_append.mp member with head | tail
      · have same : recorded = some tlv := by simpa using head
        refine ⟨fun terminator => first.ne_terminator (terminator ▸ same), ?_⟩
        cases tlv with
        | ndefMessage data => exact absurd ⟨data, same⟩ isNdef
        | null | terminator | lockControl _ | memoryControl _ | proprietary _ => rfl
      · exact passed tlv tail

/-- A stream that shows a message. -/
theorem TlvStream.split {data message : List UInt8} {listed : List Tlv}
    (stream : TlvStream data listed) (found : firstNdef listed = some message) :
    ∃ ahead front field rest behind, TlvBlocks ahead front ∧ Passed front ∧
      LengthField field message.length ∧
      data = ahead ++ TLV_NDEF_MESSAGE :: (field ++ (message ++ rest)) ∧
      listed = front ++ .ndefMessage message :: behind := by
  obtain ⟨body, tlvs, whole, ends⟩ := stream
  have shown : firstNdef tlvs = some message := by
    rcases ends with ⟨-, rfl⟩ | ⟨-, -, rfl⟩
    · exact found
    · clear whole
      induction tlvs with
      | nil => cases found
      | cons tlv tlvs inductionHypothesis =>
        cases tlv with
        | ndefMessage data => exact found
        | null | terminator | lockControl _ | memoryControl _ | proprietary _ =>
          exact inductionHypothesis found
  obtain ⟨ahead, front, field, rest, behind, blocks, passed, length, -, shape, list⟩ :=
    whole.split shown
  rcases ends with ⟨rfl, rfl⟩ | ⟨after, rfl, rfl⟩
  · exact ⟨ahead, front, field, rest, behind, blocks, passed, length, shape, list⟩
  · exact ⟨ahead, front, field, rest ++ TLV_TERMINATOR :: after, behind ++ [.terminator], blocks,
      passed, length, by rw [shape]; simp, by rw [list]; simp⟩

/-- A stream that shows a message behind recorded blocks in canonical form: their sizes,
as the walk adds them up, are those of the bytes ahead. -/
theorem TlvStream.canonicalSplit {data message : List UInt8} {listed : List Tlv}
    (stream : TlvStream data listed) (found : firstNdef listed = some message)
    (canonical : canonicalFront data = true) :
    ∃ ahead front field rest behind, TlvBlocks ahead front ∧ Passed front ∧
      (front.map Tlv.walkSize).sum = ahead.length ∧ LengthField field message.length ∧
      data = ahead ++ TLV_NDEF_MESSAGE :: (field ++ (message ++ rest)) ∧
      listed = front ++ .ndefMessage message :: behind := by
  obtain ⟨ahead, front, field, rest, behind, blocks, passed, length, shape, list⟩ :=
    stream.split found
  obtain ⟨-, sums⟩ := blocks.ahead (fun tlv member => (passed tlv member).2)
    (TLV_NDEF_MESSAGE :: (field ++ (message ++ rest)))
  rw [← shape] at sums
  exact ⟨ahead, front, field, rest, behind, blocks, passed, (sums.mp canonical).1, length, shape,
    list⟩

/-! ## The walk against the position -/

/-- The parser finds the message in an NDEF TLV at one index of the data, and the walk
ends there or before. It ends there exactly when every block ahead of the NDEF TLV has a
known tag and the length form of its length.

Proof: the stream is split at the NDEF TLV. The walk adds up the sizes that the recorded
blocks ahead have in canonical form, and these sum up to the bytes ahead exactly when no
block is unrecorded or longer than its canonical form. -/
theorem ndefTlvOffset_iff {build : Build} {data message : List UInt8} {tlvs : List Tlv}
    (accepted : parseTlvs build data = .ok tlvs) (found : firstNdef tlvs = some message) :
    ∃ index, ndefPosition data = some index ∧ NdefAt data index message ∧
      (∃ offset ≤ index, ndefTlvOffset tlvs 0 = some offset) ∧
      (ndefTlvOffset tlvs 0 = some index ↔ canonicalFront data = true) := by
  obtain ⟨ahead, front, field, rest, behind, blocks, passed, length, shape, listed⟩ :=
    (parseTlvs_sound accepted).split found
  obtain ⟨position, canonical⟩ := blocks.ahead (fun tlv member => (passed tlv member).2)
    (TLV_NDEF_MESSAGE :: (field ++ (message ++ rest)))
  have walk : ndefTlvOffset tlvs 0 = some ((front.map Tlv.walkSize).sum) := by
    rw [listed, ndefTlvOffset_passed passed, Nat.zero_add]
  have atHead : ndefPosition (TLV_NDEF_MESSAGE :: (field ++ (message ++ rest))) = some 0 := by
    rw [ndefPosition]
    rfl
  have ends : canonicalFront (TLV_NDEF_MESSAGE :: (field ++ (message ++ rest))) = true := by
    rw [canonicalFront]
    rfl
  rw [← shape, atHead] at position
  rw [← shape, ends] at canonical
  refine ⟨ahead.length, position, ⟨field, rest, length, ?_⟩, ⟨_, blocks.walkSize_le, walk⟩, ?_⟩
  · rw [shape, List.drop_left]
  · rw [canonical, walk]
    constructor
    · intro same
      exact ⟨Option.some.inj same, rfl⟩
    · rintro ⟨sum, -⟩
      exact congrArg some sum

/-- Where the walk ends, the parser has recorded a message.

Induction on the blocks. -/
theorem firstNdef_of_walk {tlvs : List Tlv} {start offset : Nat}
    (walked : ndefTlvOffset tlvs start = some offset) : ∃ message,
      firstNdef tlvs = some message := by
  induction tlvs generalizing start with
  | nil => cases walked
  | cons tlv tlvs inductionHypothesis =>
    cases tlv with
    | terminator => cases walked
    | ndefMessage data => exact ⟨data, rfl⟩
    | null | lockControl _ | memoryControl _ | proprietary _ => exact inductionHypothesis walked

/-- A static tag with write access. -/
def staticCc : CapabilityContainer := ⟨1, 0, 6, .granted, .granted⟩

end NfcForumTags
