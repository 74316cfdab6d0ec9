import NfcForumTags.TlvGrammar

/-!
# The scanner

The scanner of the reading loop passes over whole frames, whatever their values mean, and
fires exactly at a Terminator behind them. So the bytes up to its stop are a stream
exactly when the whole data is one.
-/
namespace NfcForumTags

/-! ## Frames -/

/-- The bytes of a block other than a Terminator, whatever its value. -/
inductive BlockFrame : List UInt8 → Prop where
  | null : BlockFrame [TLV_NULL]
  | valued {tag : UInt8} {field value : List UInt8} (notNull : tag ≠ TLV_NULL)
      (notTerminator : tag ≠ TLV_TERMINATOR) (length : LengthField field value.length) :
      BlockFrame (tag :: (field ++ value))

/-- Frames in sequence. -/
inductive BlockFrames : List UInt8 → Prop where
  | nil : BlockFrames []
  | cons {frame rest : List UInt8} (first : BlockFrame frame)
      (onward : BlockFrames rest) : BlockFrames (frame ++ rest)

/-- A block of the grammar has a tag, a length field and as many bytes as that says. -/
theorem TlvBlock.frame {block : List UInt8} {found : Option Tlv} (whole : TlvBlock block found) :
    BlockFrame block := by
  cases whole with
  | null => exact .null
  | valued notNull notTerminator length _ => exact .valued notNull notTerminator length

/-- So do whole blocks, one after the other. -/
theorem TlvBlocks.frames {body : List UInt8} {front : List Tlv} (whole : TlvBlocks body front) :
    BlockFrames body := by
  induction whole with
  | nil => exact .nil
  | cons first _ inductionHypothesis => exact .cons first.frame inductionHypothesis

/-! ## The scanner over whole frames -/

/-- The index of the first byte at which the scanner reports a Terminator. -/
def stopIndex : TlvScanState → List UInt8 → Option Nat
  | _, [] => none
  | scan, byte :: rest =>
    match scan.feed byte with
    | none => some 0
    | some scan => (stopIndex scan rest).map (· + 1)

/-- The scanner's state behind bytes at none of which it fires. -/
def scanAll (scan : TlvScanState) (data : List UInt8) : Option TlvScanState :=
  data.foldlM TlvScanState.feed scan

/-- The scanner looks at a byte and goes on, unless it stops there. -/
@[simp] theorem scanAll_cons (scan : TlvScanState) (byte : UInt8) (rest : List UInt8) :
    scanAll scan (byte :: rest) = scan.feed byte >>= fun scan => scanAll scan rest :=
  List.foldlM_cons

/-- It looks at the first bytes and then at the rest. -/
theorem scanAll_append (scan : TlvScanState) (front back : List UInt8) :
    scanAll scan (front ++ back) = scanAll scan front >>= fun scan => scanAll scan back :=
  List.foldlM_append

/-- Behind bytes at which it has not fired the scanner goes on from its state.

Induction on these bytes. -/
theorem stopIndex_append {scan behind : TlvScanState} {front : List UInt8}
    (passed : scanAll scan front = some behind) (back : List UInt8) :
    stopIndex scan (front ++ back) = (stopIndex behind back).map (· + front.length) := by
  induction front generalizing scan with
  | nil =>
    obtain rfl := Option.some.inj passed
    simp
  | cons byte front inductionHypothesis =>
    rw [scanAll_cons] at passed
    obtain ⟨next, fed, passed⟩ := Option.bind_eq_some_iff.mp passed
    rw [List.cons_append, stopIndex, fed]
    dsimp only
    rw [inductionHypothesis passed, Option.map_map]
    rfl

/-- Over bytes that it passes the scanner never fires. -/
theorem stopIndex_of_scanAll {scan behind : TlvScanState} {data : List UInt8}
    (passed : scanAll scan data = some behind) : stopIndex scan data = none := by
  have whole := stopIndex_append passed []
  rwa [List.append_nil] at whole

/-- The state behind a length field, with this many bytes of the value still to come. -/
def TlvScanState.within (remaining : Nat) : TlvScanState :=
  if remaining = 0 then .tag else .value remaining

/-- The scanner counts the bytes of a value down.

Induction on these bytes. -/
theorem scanAll_value {value : List UInt8} {remaining : Nat} (inside : value.length ≤ remaining) :
    scanAll (.within remaining) value = some (.within (remaining - value.length)) := by
  induction value generalizing remaining with
  | nil => rfl
  | cons byte value inductionHypothesis =>
    rw [List.length_cons] at inside
    have fed : (TlvScanState.within remaining).feed byte = some (.within (remaining - 1)) := by
      unfold TlvScanState.within
      rw [if_neg (by omega : ¬ remaining = 0), TlvScanState.feed]
      split
      · next last => rw [if_pos (by omega)]
      · next more => rw [if_neg (by omega)]
    rw [scanAll_cons, fed]
    change scanAll (.within (remaining - 1)) value = _
    rw [inductionHypothesis (by omega), List.length_cons, Nat.sub_sub, Nat.add_comm 1]

/-- The scanner reads a length field as the parser does. -/
theorem LengthField.scanAll {field : List UInt8} {len : Nat} (length : LengthField field len) :
    scanAll .length field = some (.within len) := by
  unfold TlvScanState.within
  cases length with
  | short len small =>
    rw [scanAll_cons, TlvScanState.feed, if_neg (UInt8.ne_of_lt small)]
    by_cases empty : len = 0
    · subst empty
      rfl
    · have nonzero : ¬ len.toNat = 0 := fun zero => empty (UInt8.toNat_inj.mp zero)
      rw [if_neg empty, if_neg nonzero]
      rfl
  | long msb lsb =>
    change TlvScanState.feed (.lengthExtLsb msb) lsb >>= _ = _
    rw [TlvScanState.feed]
    split <;> rfl

/-- Behind the tag of a block with a value a length field is due. -/
theorem feed_tag {tag : UInt8} (notNull : tag ≠ TLV_NULL) (notTerminator : tag ≠ TLV_TERMINATOR) :
    TlvScanState.feed .tag tag = some .length := by
  rw [TlvScanState.feed, if_neg notTerminator, if_neg notNull]

/-- The scanner passes over the beginning of a block with a value. -/
theorem scanAll_block {tag : UInt8} {field value : List UInt8} {len : Nat}
    (notNull : tag ≠ TLV_NULL)
    (notTerminator : tag ≠ TLV_TERMINATOR) (length : LengthField field len)
    (inside : value.length ≤ len) :
    scanAll .tag (tag :: (field ++ value)) = some (.within (len - value.length)) := by
  rw [scanAll_cons, feed_tag notNull notTerminator]
  change scanAll .length (field ++ value) = _
  rw [scanAll_append, length.scanAll]
  exact scanAll_value inside

/-- The scanner passes over a whole frame. -/
theorem BlockFrame.scanAll {frame : List UInt8} (whole : BlockFrame frame) :
    scanAll .tag frame = some .tag := by
  cases whole with
  | null => rfl
  | valued notNull notTerminator length =>
    rw [scanAll_block notNull notTerminator length (Nat.le_refl _), Nat.sub_self]
    rfl

/-- The scanner passes over whole frames. -/
theorem BlockFrames.scanAll {body : List UInt8} (whole : BlockFrames body) :
    scanAll .tag body = some .tag := by
  induction whole with
  | nil => rfl
  | cons first _ inductionHypothesis =>
    rw [scanAll_append, first.scanAll]
    exact inductionHypothesis

/-- The scanner fires at a Terminator behind whole frames. -/
theorem BlockFrames.stopIndex {body : List UInt8} (whole : BlockFrames body) (rest : List UInt8) :
    stopIndex .tag (body ++ TLV_TERMINATOR :: rest) = some body.length := by
  rw [stopIndex_append whole.scanAll]
  exact congrArg some (Nat.zero_add _)

/-! ## The bytes up to the stop -/

/-- The bytes up to the scanner's first Terminator. -/
def upToStop : TlvScanState → List UInt8 → List UInt8
  | _, [] => []
  | scan, byte :: rest =>
    match scan.feed byte with
    | none => [byte]
    | some scan => byte :: upToStop scan rest

/-- A byte that stops the scanner is the last one. -/
theorem upToStop_stop {scan : TlvScanState} {byte : UInt8} (fires : scan.feed byte = none)
    (rest : List UInt8) : upToStop scan (byte :: rest) = [byte] := by
  rw [upToStop, fires]

/-- One that does not is followed by what comes up to the stop. -/
theorem upToStop_next {scan next : TlvScanState} {byte : UInt8} (fed : scan.feed byte = some next)
    (rest : List UInt8) : upToStop scan (byte :: rest) = byte :: upToStop next rest := by
  rw [upToStop, fed]

/-- Bytes at which the scanner does not fire are all kept.

Induction on these bytes. -/
theorem upToStop_append {scan behind : TlvScanState} {front : List UInt8}
    (passed : scanAll scan front = some behind) (back : List UInt8) :
    upToStop scan (front ++ back) = front ++ upToStop behind back := by
  induction front generalizing scan with
  | nil =>
    obtain rfl := Option.some.inj passed
    rfl
  | cons byte front inductionHypothesis =>
    rw [scanAll_cons] at passed
    obtain ⟨next, fed, passed⟩ := Option.bind_eq_some_iff.mp passed
    rw [List.cons_append, upToStop_next fed, inductionHypothesis passed]
    rfl

/-- The scanner passes over whole blocks. -/
theorem TlvBlocks.scanned {body : List UInt8} {front : List Tlv} (whole : TlvBlocks body front)
    (rest : List UInt8) : upToStop .tag (body ++ rest) = body ++ upToStop .tag rest :=
  upToStop_append whole.frames.scanAll rest

/-- The bytes up to the stop are the first of the data. -/
theorem upToStop_prefix (scan : TlvScanState) (data : List UInt8) :
    ∃ rest, data = upToStop scan data ++ rest := by
  induction data generalizing scan with
  | nil => exact ⟨[], rfl⟩
  | cons byte data inductionHypothesis =>
    rw [upToStop]
    cases scan.feed byte with
    | none => exact ⟨data, rfl⟩
    | some scan =>
      obtain ⟨rest, same⟩ := inductionHypothesis scan
      exact ⟨rest, congrArg _ same⟩

/-- What lies behind the scanner's stop does not matter to the parser.

Whole blocks end at a block boundary, where the scanner has not stopped. -/
theorem upToStop_stream {data : List UInt8} {tlvs : List Tlv} :
    TlvStream (upToStop .tag data) tlvs ↔ TlvStream data tlvs := by
  constructor
  · rintro ⟨body, front, whole, ends⟩
    obtain ⟨rest, shape⟩ := upToStop_prefix .tag data
    rcases ends with ⟨same, listed⟩ | ⟨behind, same, listed⟩
    · rw [same] at shape
      rw [shape, whole.scanned] at same
      have stopped : upToStop .tag rest = [] := List.append_cancel_left (same.trans (by simp))
      have ended : rest = [] := by
        cases rest with
        | nil => rfl
        | cons byte rest =>
          rw [upToStop] at stopped
          split at stopped <;> cases stopped
      rw [ended, List.append_nil] at shape
      exact ⟨body, front, whole, Or.inl ⟨shape, listed⟩⟩
    · rw [same, List.append_assoc, List.cons_append] at shape
      exact ⟨body, front, whole, Or.inr ⟨behind ++ rest, shape, listed⟩⟩
  · rintro ⟨body, front, whole, ⟨rfl, listed⟩ | ⟨behind, rfl, listed⟩⟩
    · have scanned := whole.scanned []
      rw [List.append_nil] at scanned
      exact ⟨data, front, whole, Or.inl ⟨scanned.trans (by simp [upToStop]), listed⟩⟩
    · exact ⟨_, front, whole, Or.inr ⟨[], whole.scanned _, listed⟩⟩

end NfcForumTags
