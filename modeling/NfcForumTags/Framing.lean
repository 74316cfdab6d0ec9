import NfcForumTags.Scanner

/-!
# Block frames

A block is framed by its tag and its length field, whatever its value means. The
scanner passes over whole frames and fires exactly at a Terminator behind them. The
parser ends there too: with the data cut off behind the byte at which the scanner
fires it finds the same, whatever its capacities and whether it accepts the data.
-/
namespace NfcForumTags

/-- The parser finds the same behind a frame if it finds the same in what is behind it. -/
theorem BlockFrame.decode_congr {frame : List UInt8} (whole : BlockFrame frame) {build : Build}
    {rest rest' : List UInt8}
    (same : ∀ out, decodeInto build rest out = decodeInto build rest' out) (out : List Tlv) :
    decodeInto build (frame ++ rest) out = decodeInto build (frame ++ rest') out := by
  cases whole with
  | null =>
    have headed : ∀ behind, headBlock build TLV_NULL behind = .ok (some .null, 0) := fun _ => rfl
    rw [List.singleton_append, List.singleton_append, decodeInto_cons (headed rest),
      decodeInto_cons (headed rest'), List.drop_zero, List.drop_zero]
    exact decodeBehind_congr same out _
  | valued notNull notTerminator length =>
    rename_i tag field value
    have onward : ∀ behind, decodeInto build (tag :: (field ++ value) ++ behind) out =
        blockOfValue build tag value >>= fun found => decodeBehind build behind out found := by
      intro behind
      have enough : takeExactly value.length (value ++ behind) = .ok value := by
        rw [takeExactly, if_neg (by simp), List.take_left]
      have after : (field ++ (value ++ behind)).drop (field.length + value.length) = behind := by
        rw [← List.append_assoc, ← List.length_append, List.drop_left]
      rw [List.cons_append, List.append_assoc, decodeInto_block build out notNull notTerminator
        (length.read (value ++ behind)), List.drop_left, enough, after]
      rfl
    rw [onward, onward]
    exact bind_congr fun found => decodeBehind_congr same out found

/-- Data begins with a Terminator, or with a whole frame, or ends inside of its first
block: then the scanner does not fire, and the parser refuses it. -/
theorem frame_cases (data : List UInt8) : data = [] ∨ (∃ rest, data = TLV_TERMINATOR :: rest) ∨
    (∃ frame rest, BlockFrame frame ∧ data = frame ++ rest) ∨
    (∃ scan, scanAll .tag data = some scan) ∧
      ∀ build out, decodeInto build data out = .error .invalidTlv := by
  cases data with
  | nil => exact Or.inl rfl
  | cons tag rest =>
    by_cases isTerminator : tag = TLV_TERMINATOR
    · exact Or.inr (Or.inl ⟨rest, isTerminator ▸ rfl⟩)
    by_cases isNull : tag = TLV_NULL
    · exact Or.inr (Or.inr (Or.inl ⟨[TLV_NULL], rest, .null, isNull ▸ rfl⟩))
    refine Or.inr (Or.inr ?_)
    cases length : lengthField rest with
    | error error =>
      refine Or.inr ⟨?_, fun build out => ?_⟩
      · rw [scanAll_cons, feed_tag isNull isTerminator]
        unfold lengthField at length
        split at length
        · exact ⟨.length, rfl⟩
        next first behind =>
        split at length
        · cases length
        next large =>
        have full : first = 0xFF := by
          rw [UInt8.lt_iff_toNat_lt] at large
          apply UInt8.toNat_inj.mp
          have bound := first.toNat_lt
          simp at large ⊢
          omega
        subst full
        cases behind with
        | nil => exact ⟨.lengthExtMsb, rfl⟩
        | cons msb behind =>
          cases behind with
          | nil => exact ⟨.lengthExtLsb msb, rfl⟩
          | cons lsb behind => cases length
      · have malformed : error = .invalidTlv := by
          unfold lengthField at length
          split at length
          · exact (Except.error.inj length).symm
          split at length
          · cases length
          split at length
          · cases length
          · exact (Except.error.inj length).symm
        rw [decodeInto, headBlock, if_neg isNull, if_neg isTerminator, length, malformed]
        rfl
    | ok field =>
      obtain ⟨len, consumed⟩ := field
      obtain ⟨shape, inside⟩ := LengthField.of_read length
      by_cases short : (rest.drop consumed).length < len
      · have passed := scanAll_block isNull isTerminator shape short.le
        rw [List.take_append_drop] at passed
        refine Or.inr ⟨⟨_, passed⟩, fun build out => ?_⟩
        rw [decodeInto_block build out isNull isTerminator length, takeExactly, if_pos short]
        rfl
      · have count : ((rest.drop consumed).take len).length = len := by
          rw [List.length_take]
          omega
        refine Or.inl ⟨tag :: (rest.take consumed ++ (rest.drop consumed).take len),
          (rest.drop consumed).drop len, .valued isNull isTerminator (count.symm ▸ shape), ?_⟩
        rw [List.cons_append, List.append_assoc, List.take_append_drop, List.take_append_drop]

/-- Where the scanner fires there is a Terminator behind whole frames, and the parser
finds the same with the data cut off behind it.

Induction on the frames of the data. -/
theorem decodeInto_stop {data : List UInt8} {i : Nat} (fires : stopIndex .tag data = some i) :
    BlockFrames (data.take i) ∧ data[i]? = some TLV_TERMINATOR ∧
      ∀ build out, decodeInto build (data.take (i + 1)) out = decodeInto build data out := by
  induction size : data.length using Nat.strong_induction_on generalizing data i with
  | _ count inductionHypothesis =>
    rcases frame_cases data with rfl | ⟨rest, rfl⟩ | ⟨frame, rest, whole, rfl⟩ | ⟨⟨scan, passed⟩, -⟩
    · cases fires
    · obtain rfl : 0 = i := Option.some.inj fires
      refine ⟨.nil, rfl, fun build out => ?_⟩
      change decodeInto build [TLV_TERMINATOR] out = _
      rw [decodeInto, decodeInto]
      rfl
    · rw [stopIndex_append whole.scanAll] at fires
      obtain ⟨j, onward, rfl⟩ := Option.map_eq_some_iff.mp fires
      have shorter : rest.length < count := by
        rw [← size, List.length_append]
        have positive : 0 < frame.length := by cases whole <;> simp
        omega
      obtain ⟨frames, found, same⟩ := inductionHypothesis _ shorter onward rfl
      have cut : ∀ n, (frame ++ rest).take (n + frame.length) = frame ++ rest.take n := by
        intro n
        rw [Nat.add_comm, List.take_length_add_append]
      refine ⟨?_, ?_, fun build out => ?_⟩
      · rw [cut]
        exact .cons whole frames
      · rw [List.getElem?_append_right (Nat.le_add_left _ _), Nat.add_sub_cancel]
        exact found
      · rw [show j + frame.length + 1 = j + 1 + frame.length by omega, cut]
        exact whole.decode_congr (same build) out
    · rw [stopIndex_of_scanAll passed] at fires
      cases fires

/-- Whole blocks other than a Terminator record no Terminator. -/
theorem TlvBlocks.ne_terminator {body : List UInt8} {front : List Tlv}
    (whole : TlvBlocks body front) :
    Tlv.terminator ∉ front := by
  induction whole with
  | nil => simp
  | cons first _ inductionHypothesis =>
    rw [List.mem_append, not_or]
    refine ⟨?_, inductionHypothesis⟩
    cases first with
    | null => simp
    | valued _ _ _ recorded =>
      intro member
      exact recorded.ne_terminator (Option.mem_toList.mp member)

/-- What is parsed ends with a Terminator exactly when the scanner fires. -/
theorem TlvStream.stop {data : List UInt8} {tlvs : List Tlv} (stream : TlvStream data tlvs) :
    (∀ i, stopIndex .tag data = some i → tlvs.getLast? = some .terminator) ∧
      (stopIndex .tag data = none → .terminator ∉ tlvs) := by
  obtain ⟨body, front, whole, ⟨rfl, rfl⟩ | ⟨rest, rfl, rfl⟩⟩ := stream
  · refine ⟨fun i fires => ?_, fun _ => whole.ne_terminator⟩
    rw [stopIndex_of_scanAll whole.frames.scanAll] at fires
    cases fires
  · refine ⟨fun _ _ => by simp, fun never => ?_⟩
    rw [whole.frames.stopIndex] at never
    cases never

/-- In either build, and whether the parser accepts the data or not: where the scanner
first fires there is a Terminator behind whole frames, the parser finds the same with
the data cut off behind it, and what it finds ends with the Terminator; where it never
fires the parser finds no Terminator.

Proof: induction on the frames of the data: a whole frame takes the scanner back to
its start, so that it fires at a Terminator between frames only, which is where the parser
stops. -/
theorem scanner_agrees (build : Build) (data : List UInt8) :
    (∀ i, stopIndex .tag data = some i →
      parseTlvs build (data.take (i + 1)) = parseTlvs build data ∧
      (∀ tlvs, parseTlvs build data = .ok tlvs → tlvs.getLast? = some .terminator) ∧
      BlockFrames (data.take i) ∧ data[i]? = some TLV_TERMINATOR) ∧
    (stopIndex .tag data = none →
      ∀ tlvs, parseTlvs build data = .ok tlvs → .terminator ∉ tlvs) := by
  constructor
  · intro i fires
    obtain ⟨frames, found, same⟩ := decodeInto_stop fires
    refine ⟨?_, fun tlvs accepted => (parseTlvs_sound accepted).stop.1 i fires, frames, found⟩
    rw [parseTlvs, parseTlvs, parseTlvsInto_eq, parseTlvsInto_eq]
    exact same build []
  · exact fun never tlvs accepted => (parseTlvs_sound accepted).stop.2 never

/-- The 0xFE inside the message does not stop the scanner, nor does the one in the length
field of the unknown block. -/
example : stopIndex .tag [0x03, 0x01, 0xFE, 0x07, 0xFE] = none ∧
    stopIndex .tag [0x00, 0x03, 0x01, 0xFE, 0xFE, 0x03] = some 4 := by decide

end NfcForumTags
