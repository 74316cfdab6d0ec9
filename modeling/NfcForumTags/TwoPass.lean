import Mathlib.Tactic.IntervalCases
import NfcForumTags.LastWrite

/-!
# The two passes over a dynamic tag

The first pass reads every byte of the data area, those of lock and reserved areas
included, and has to parse all of them before the control TLVs at its beginning are
used. So a tag whose areas lie inside its message is read exactly when the bytes
behind the control TLVs, areas and all, happen to parse without showing another
control TLV.
-/
namespace NfcForumTags

open Program

/-! ## Control TLVs on a tag -/

/-- What the parser makes of the bytes a control TLV is serialized to. -/
def Tlv.reread : Tlv → Except Type2Error Tlv
  | .lockControl value => return .lockControl (← LockControlValue.fromBytes value.toBytes)
  | .memoryControl value => return .memoryControl (← MemoryControlValue.fromBytes value.toBytes)
  | tlv => return tlv

/-- A control TLV that a tag can present: its bytes stand for it. -/
def Tlv.Representable (tlv : Tlv) : Prop := tlv.reread = .ok tlv

instance (tlv : Tlv) : Decidable tlv.Representable := inferInstanceAs (Decidable (_ = _))

/-- A block with a value of three bytes. -/
theorem decodeInto_three {tag : UInt8} (notNull : tag ≠ TLV_NULL)
    (notTerminator : tag ≠ TLV_TERMINATOR)
    (b0 b1 b2 : UInt8) (rest : List UInt8) (out : List Tlv) :
    decodeInto .alloc (tag :: 0x03 :: b0 :: b1 :: b2 :: rest) out = (do
      let found ← blockOfValue .alloc tag [b0, b1, b2]
      match found with
      | none => decodeInto .alloc rest out
      | some .terminator => pushTlv .alloc out .terminator
      | some tlv => do
        let out ← pushTlv .alloc out tlv
        decodeInto .alloc rest out) := by
  have length : lengthField (0x03 :: b0 :: b1 :: b2 :: rest) = .ok (3, 1) := rfl
  have taken : takeExactly 3 (b0 :: b1 :: b2 :: rest) = .ok [b0, b1, b2] :=
    if_neg (by simp)
  rw [decodeInto_block .alloc out notNull notTerminator length]
  change takeExactly 3 (b0 :: b1 :: b2 :: rest) >>= _ = _
  rw [taken]
  rfl

/-- The parser reads a serialized control block, and goes on behind it. -/
theorem decodeInto_control {tlv : Tlv} (control : tlv.isControl = true) {block : List UInt8}
    (encoded : tlv.toBytes .alloc = .ok block) (rest : List UInt8) (out : List Tlv) :
    decodeInto .alloc (block ++ rest) out =
      tlv.reread >>= fun found => decodeInto .alloc rest (out ++ [found]) := by
  cases tlv with
  | lockControl value =>
    obtain rfl := Except.ok.inj encoded
    refine (decodeInto_three (by decide : TLV_LOCK_CONTROL ≠ TLV_NULL)
      (by decide) _ _ _ rest out).trans ?_
    change ((LockControlValue.fromBytes value.toBytes).map _ >>= _) =
      ((LockControlValue.fromBytes value.toBytes >>= fun found =>
        pure (Tlv.lockControl found)) >>= _)
    cases LockControlValue.fromBytes value.toBytes <;> rfl
  | memoryControl value =>
    obtain rfl := Except.ok.inj encoded
    refine (decodeInto_three (by decide : TLV_MEMORY_CONTROL ≠ TLV_NULL)
      (by decide) _ _ _ rest out).trans ?_
    change ((MemoryControlValue.fromBytes value.toBytes).map _ >>= _) =
      ((MemoryControlValue.fromBytes value.toBytes >>= fun found =>
        pure (Tlv.memoryControl found)) >>= _)
    cases MemoryControlValue.fromBytes value.toBytes <;> rfl
  | null | ndefMessage _ | proprietary _ | terminator => cases control

/-- A control block is read back as a control block. -/
theorem reread_isControl {tlv found : Tlv} (control : tlv.isControl = true)
    (reread : tlv.reread = .ok found) : found.isControl = true := by
  cases tlv with
  | lockControl value | memoryControl value =>
    obtain ⟨read, -, same⟩ := ok_of_bind reread
    obtain rfl := Except.ok.inj same
    rfl
  | null | ndefMessage _ | proprietary _ | terminator => cases control

/-- Behind a control block a stream goes on, and the block is what its bytes stand for. -/
theorem TlvStream.behindControl {tlv : Tlv} (control : tlv.isControl = true)
    {block rest : List UInt8} (encoded : tlv.toBytes .alloc = .ok block) {tlvs : List Tlv}
    (stream : TlvStream (block ++ rest) tlvs) :
    ∃ found onward, tlv.reread = .ok found ∧ tlvs = found :: onward ∧ TlvStream rest onward := by
  have parsed := stream.parse
  rw [parseTlvs, parseTlvsInto_eq, List.drop_zero, decodeInto_control control encoded] at parsed
  obtain ⟨found, reread, parsed⟩ := ok_of_bind parsed
  obtain ⟨body, front, whole, ends⟩ := decodeInto_sound parsed
  rcases ends with ⟨shape, listed⟩ | ⟨after, shape, listed⟩
  · exact ⟨found, front, reread, listed, body, front, whole, Or.inl ⟨shape, rfl⟩⟩
  · exact ⟨found, front ++ [.terminator], reread, by simpa using listed, body, front, whole,
      Or.inr ⟨after, shape, rfl⟩⟩

/-- Only control blocks describe areas. -/
theorem areas_of_controls {tlvs controls : List Tlv} (same : tlvs.filter Tlv.isControl = controls) :
    lockAreasOf tlvs = lockAreasOf controls ∧ reservedAreasOf tlvs = reservedAreasOf controls := by
  subst same
  induction tlvs with
  | nil => exact ⟨rfl, rfl⟩
  | cons tlv tlvs inductionHypothesis =>
    obtain ⟨locks, reserved⟩ := inductionHypothesis
    cases tlv with
    | lockControl value => exact ⟨congrArg (List.cons _) locks, reserved⟩
    | memoryControl value => exact ⟨locks, congrArg (List.cons _) reserved⟩
    | null | ndefMessage _ | proprietary _ | terminator => exact ⟨locks, reserved⟩

/-- A layout depends on the control blocks only. -/
theorem fromCcAndTlvs_controls (cc : CapabilityContainer) {tlvs controls : List Tlv}
    (same : tlvs.filter Tlv.isControl = controls) :
    MemoryLayout.fromCcAndTlvs .alloc cc tlvs = MemoryLayout.fromCcAndTlvs .alloc cc controls := by
  obtain ⟨locks, reserved⟩ := areas_of_controls same
  rw [MemoryLayout.fromCcAndTlvs_alloc, MemoryLayout.fromCcAndTlvs_alloc, locks, reserved]

/-- A serialized control block that can be read back is a whole block. -/
theorem TlvBlock.encodedControl {tlv : Tlv} (control : tlv.isControl = true)
    (representable : tlv.Representable) {block : List UInt8}
    (encoded : tlv.toBytes .alloc = .ok block) :
    TlvBlock block (some tlv) := by
  have three : LengthField [0x03] 3 := .short 0x03 (by decide)
  cases tlv with
  | lockControl value =>
    obtain rfl := Except.ok.inj encoded
    obtain ⟨found, read, same⟩ := ok_of_bind representable
    obtain rfl := Tlv.lockControl.inj (Except.ok.inj same)
    exact .valued (by decide) (by decide) three (.lock read)
  | memoryControl value =>
    obtain rfl := Except.ok.inj encoded
    obtain ⟨found, read, same⟩ := ok_of_bind representable
    obtain rfl := Tlv.memoryControl.inj (Except.ok.inj same)
    exact .valued (by decide) (by decide) three (.memory read)
  | null | ndefMessage _ | proprietary _ | terminator => cases control

/-- Serialized control blocks that can be read back are whole blocks.

Induction on the blocks. -/
theorem TlvBlocks.encodedControls {controls : List Tlv}
    (control : ∀ tlv ∈ controls, tlv.isControl = true)
    (representable : ∀ tlv ∈ controls, tlv.Representable) {bytes : List UInt8}
    (encoded : encodeTlvs .alloc controls = .ok bytes) : TlvBlocks bytes controls := by
  induction controls generalizing bytes with
  | nil =>
    obtain rfl := Except.ok.inj encoded
    exact .nil
  | cons tlv controls inductionHypothesis =>
    obtain ⟨block, first, encoded⟩ := ok_of_bind encoded
    obtain ⟨onward, rest, same⟩ := ok_of_bind encoded
    obtain rfl := Except.ok.inj same
    rw [List.forall_mem_cons] at control representable
    exact .cons (TlvBlock.encodedControl control.1 representable.1 first)
      (inductionHypothesis control.2 representable.2 rest)

/-- A stream that begins with serialized control blocks, and shows these and no other
control blocks, goes on behind them as a stream without control blocks.

Induction on the blocks. -/
theorem TlvStream.behindControls {controls : List Tlv}
    (control : ∀ tlv ∈ controls, tlv.isControl = true) {bytes rest : List UInt8}
    (encoded : encodeTlvs .alloc controls = .ok bytes) {tlvs : List Tlv}
    (stream : TlvStream (bytes ++ rest) tlvs) (shown : tlvs.filter Tlv.isControl = controls) :
    (∀ tlv ∈ controls, tlv.Representable) ∧
      ∃ onward, TlvStream rest onward ∧ ∀ tlv ∈ onward, tlv.isControl = false := by
  induction controls generalizing bytes tlvs with
  | nil =>
    obtain rfl := Except.ok.inj encoded
    rw [List.filter_eq_nil_iff] at shown
    exact ⟨by simp, tlvs, stream, fun tlv member => by simpa using shown tlv member⟩
  | cons tlv controls inductionHypothesis =>
    obtain ⟨block, first, encoded⟩ := ok_of_bind encoded
    obtain ⟨further, others, same⟩ := ok_of_bind encoded
    obtain rfl := Except.ok.inj same
    rw [List.forall_mem_cons] at control
    rw [List.append_assoc] at stream
    obtain ⟨found, onward, reread, rfl, behind⟩ := TlvStream.behindControl control.1 first stream
    rw [List.filter_cons_of_pos (reread_isControl control.1 reread)] at shown
    obtain ⟨rfl, remaining⟩ := List.cons.inj shown
    obtain ⟨representable, ends⟩ := inductionHypothesis control.2 others behind remaining
    exact ⟨List.forall_mem_cons.mpr ⟨reread, representable⟩, ends⟩

/-! ## Tags with areas in their data area -/

/-- The first pass of `read_ndef`: the blocks of the unfiltered data area. -/
def firstPass {σ ε : Type} (build : Build) (t : Transceiver σ ε) : Operation σ ε (List Tlv) := do
  let cc ← readCc build t
  let dataArea ← readDataArea build t (MemoryLayout.fromCcAndTlvs build cc [])
  orProtocol (parseTlvs build dataArea)

/-- What the first pass finds on a memory. -/
def firstPassOf (build : Build) (memory : Memory) : Except Type2Error (List Tlv) := do
  let cc ← ccOf memory
  let dataArea ← dataAreaOf build (MemoryLayout.fromCcAndTlvs build cc []) memory
  parseTlvs build dataArea

/-- A dynamic tag with these control TLVs at the start of its data area, outside the
areas they describe, and behind them, skipping these areas, a message and a
Terminator. What the areas contain is left open. -/
structure ControlTag (cc : CapabilityContainer) (controls : List Tlv) (message : List UInt8)
    (controlBytes messageBytes : List UInt8) (memory : Memory) : Prop where
  parsed : ccOf memory = .ok cc
  valid : cc.isValid = true
  dynamic : cc.isDynamic = true
  nonempty : controls ≠ []
  control : ∀ tlv ∈ controls, tlv.isControl = true
  encodedControls : encodeTlvs .alloc controls = .ok controlBytes
  encodedMessage : (Tlv.ndefMessage message).toBytes .alloc = .ok messageBytes
  fits : controlBytes.length + messageBytes.length + 1 ≤ cc.dataAreaSize
  apart : ∀ i < controlBytes.length,
    (MemoryLayout.fromCcAndTlvs .alloc cc controls).isSkipArea (16 + i) = false
  filtered : ∀ i < controlBytes.length + messageBytes.length + 1,
    ((MemoryLayout.fromCcAndTlvs .alloc cc controls).usableOffsetToAddress i).map memory =
      (controlBytes ++ messageBytes ++ [TLV_TERMINATOR])[i]?

section

variable {cc : CapabilityContainer} {controls : List Tlv} {message : List UInt8}
  {controlBytes messageBytes : List UInt8} {memory : Memory}

/-- Under the layout of its control TLVs the data area begins with what it was made of. -/
theorem ControlTag.dataBytes
    (controlTag : ControlTag cc controls message controlBytes messageBytes memory) :
    ∃ tail, dataBytes (MemoryLayout.fromCcAndTlvs .alloc cc controls) memory =
      controlBytes ++ (messageBytes ++ TLV_TERMINATOR :: tail) := by
  have whole : controlBytes ++ messageBytes ++ [TLV_TERMINATOR] <+:
      NfcForumTags.dataBytes (MemoryLayout.fromCcAndTlvs .alloc cc controls) memory := by
    rw [List.prefix_iff_getElem?]
    intro i inside
    have filtered := controlTag.filtered i (by simpa [Nat.add_assoc] using inside)
    have fits := controlTag.fits
    have short : i < cc.dataAreaSize := by
      simp at inside
      omega
    rw [← List.getElem?_eq_getElem inside, ← filtered, MemoryLayout.usableOffsetToAddress_eq,
      NfcForumTags.dataBytes, List.getElem?_map, fromCcAndTlvs_size, List.getElem?_take_of_lt short]
  obtain ⟨tail, shape⟩ := whole
  exact ⟨tail, by rw [← shape]; simp⟩

/-- The control TLVs are at the start of the unfiltered data area. -/
theorem ControlTag.begins
    (controlTag : ControlTag cc controls message controlBytes messageBytes memory) :
    rawBytes cc memory = controlBytes ++ (rawBytes cc memory).drop controlBytes.length := by
  have fits := controlTag.fits
  have size := cc.dataAreaSize_le
  have usable : (MemoryLayout.fromCcAndTlvs .alloc cc controls).usable.take controlBytes.length =
      List.range' 16 controlBytes.length := by
    refine MemoryLayout.usable_take (by simp only [ADDRESS_SPACE_END_eq]; omega)
      fun addr low high => ?_
    have apart := controlTag.apart (addr - 16) (by omega)
    rwa [show 16 + (addr - 16) = addr by omega] at apart
  have shown : (rawBytes cc memory).take controlBytes.length = controlBytes := by
    obtain ⟨tail, shape⟩ := controlTag.dataBytes
    have first := congrArg (List.take controlBytes.length) shape
    rw [List.take_left, NfcForumTags.dataBytes, fromCcAndTlvs_size, ← List.map_take, List.take_take,
      min_eq_left (by omega), usable] at first
    rw [rawBytes, ← List.map_take, List.take_range'_of_length_ge (by omega)]
    exact first
  exact (List.take_append_drop controlBytes.length (rawBytes cc memory)).symm.trans (by rw [shown])

/-- With growable buffers every message of an encodable length is serialized, and no other. -/
theorem ndefMessage_toBytes {data bytes : List UInt8}
    (encoded : (Tlv.ndefMessage data).toBytes .alloc = .ok bytes) :
    data.length ≤ MAX_TLV_LENGTH ∧ bytes = encodedValue TLV_NDEF_MESSAGE data := by
  have encodable : data.length ≤ MAX_TLV_LENGTH := by
    obtain ⟨len, checked, -⟩ := ok_of_bind encoded
    unfold checkedValueLength at checked
    split at checked
    · next small => exact small.2
    · cases checked
  rw [toBytes_ndefMessage encodable rfl] at encoded
  exact ⟨encodable, (Except.ok.inj encoded).symm⟩

/-- Control blocks are passed by the walk to the message. -/
theorem passed_of_control {controls : List Tlv} (control : ∀ tlv ∈ controls, tlv.isControl = true) :
    Passed controls := by
  intro tlv member
  have isControl := control tlv member
  cases tlv with
  | lockControl value | memoryControl value => exact ⟨Tlv.noConfusion, rfl⟩
  | null | ndefMessage _ | proprietary _ | terminator => cases isControl

/-- Behind the control TLVs, areas included, there are whole blocks up to the end of the
data area or a Terminator, and none of them is a control block. -/
def HarmlessBehind (cc : CapabilityContainer) (controlBytes : List UInt8)
    (memory : Memory) : Prop :=
  ∃ blocks, TlvStream ((rawBytes cc memory).drop controlBytes.length) blocks ∧
    ∀ tlv ∈ blocks, tlv.isControl = false

/-- The message is read when the first pass shows the control TLVs of the tag. -/
theorem ControlTag.ndefOf
    (controlTag : ControlTag cc controls message controlBytes messageBytes memory)
    (representable : ∀ tlv ∈ controls, tlv.Representable) {first : List Tlv}
    (stream : TlvStream (rawBytes cc memory) first)
    (shown : first.filter Tlv.isControl = controls) :
    ndefOf .alloc memory = .ok message := by
  obtain ⟨tail, shape⟩ := controlTag.dataBytes
  have blocks := TlvBlocks.encodedControls controlTag.control representable
    controlTag.encodedControls
  obtain ⟨encodable, encoded⟩ := ndefMessage_toBytes controlTag.encodedMessage
  have onward : TlvStream (messageBytes ++ TLV_TERMINATOR :: tail)
      ([.ndefMessage message] ++ [.terminator]) := by
    rw [encoded]
    exact (TlvBlock.encodedNdef encodable).single.stream ⟨[], [], .nil, Or.inr ⟨tail, rfl, rfl⟩⟩
  have layout : lastLayout .alloc cc first = MemoryLayout.fromCcAndTlvs .alloc cc controls := by
    have some : first.any Tlv.isControl = true := by
      obtain ⟨tlv, member⟩ := List.exists_mem_of_ne_nil controls controlTag.nonempty
      rw [← shown, List.mem_filter] at member
      exact List.any_eq_true.mpr ⟨tlv, member⟩
    rw [lastLayout, controlTag.dynamic, some, Bool.and_self, if_pos rfl]
    exact fromCcAndTlvs_controls cc shown
  rw [ndefOf_alloc_iff]
  refine ⟨cc, controls ++ ([.ndefMessage message] ++ [.terminator]), controlTag.parsed,
    controlTag.valid, ⟨first, ?_, ?_⟩, ?_⟩
  · rw [(basic_clear cc).dataBytes]
    exact stream
  · rw [layout, shape]
    exact blocks.stream onward
  · exact congrArg (Option.getD · []) (firstNdef_passed (passed_of_control controlTag.control))

/-- The first pass finds the blocks of the unfiltered data area. -/
theorem firstPassOf_iff (parsed : ccOf memory = .ok cc) (first : List Tlv) :
    firstPassOf .alloc memory = .ok first ↔ TlvStream (rawBytes cc memory) first := by
  have basic := emptyStream.dataAreaOf cc (by simp) memory
  rw [(basic_clear cc).dataBytes] at basic
  have pass : firstPassOf .alloc memory = parseTlvs .alloc
      (upToStop .tag (rawBytes cc memory)) := by
    unfold firstPassOf
    rw [parsed]
    change dataAreaOf _ _ _ >>= _ = _
    rw [basic]
    rfl
  rw [pass, parseTlvs_iff, upToStop_stream]

/-- On a tag without faults, the first pass returns what the memory says. -/
theorem firstPass_answers {σ ε : Type} {tag : FaultFreeTag σ ε} {m : Machine σ}
    (coherent : Coherent .alloc tag.toTag m) :
    Answers .alloc tag (firstPass .alloc tag.toTransceiver)
      (firstPassOf .alloc (tag.memoryOf m)) m := by
  have reads := faultFree_reads .alloc tag m
  refine answers_of_computes ?_
  refine (reads.readCc_rule m ⟨held_start coherent _, trivial⟩).bind fun cc _ kept => ?_
  refine (reads.readDataArea_rule _ _ kept).bind fun dataArea _ kept => ?_
  exact computes_orProtocol kept _

/-- On a tag with areas in its data area, `read_ndef` returns the message, with a first
pass that shows the control TLVs of the tag and no others, exactly when the control
TLVs are what their bytes stand for, and the bytes behind them happen to be whole
blocks without a control block.

Proof: both outcomes are functions of the memory. The first pass parses the raw bytes, which
start with the control TLVs as the grammar has them; a parse of the whole splits into the
controls and a parse of the bytes behind them. The second pass then skips the areas and
finds the message. -/
theorem readNdef_control_iff {σ ε : Type} (tag : FaultFreeTag σ ε) (state : σ)
    (inSector0 : tag.active state = 0)
    (controlTag : ControlTag cc controls message controlBytes messageBytes (tag.memory state)) :
    (outcome (readNdef .alloc tag.toTransceiver) (.fresh state) = .ok message ∧
      ∃ first, outcome (firstPass .alloc tag.toTransceiver) (.fresh state) = .ok first ∧
        first.filter Tlv.isControl = controls) ↔
    (∀ tlv ∈ controls, tlv.Representable) ∧ HarmlessBehind cc controlBytes (tag.memory state) := by
  have coherent := fresh_coherent .alloc tag.toTag state inSector0
  have control := controlTag.control
  have encoded := controlTag.encodedControls
  rw [(readNdef_answers coherent).outcome_iff]
  simp only [(firstPass_answers coherent).outcome_iff]
  constructor
  · rintro ⟨-, first, found, shown⟩
    have stream := (firstPassOf_iff controlTag.parsed first).mp found
    rw [controlTag.begins] at stream
    exact stream.behindControls control encoded shown
  · rintro ⟨representable, blocks, behind, harmless⟩
    have stream := (TlvBlocks.encodedControls control representable encoded).stream behind
    rw [← controlTag.begins] at stream
    have shown : (controls ++ blocks).filter Tlv.isControl = controls := by
      rw [List.filter_append, List.filter_eq_self.mpr control, List.filter_eq_nil_iff.mpr,
        List.append_nil]
      intro tlv member
      rw [harmless tlv member]
      exact Bool.false_ne_true
    exact ⟨controlTag.ndefOf representable stream shown, _,
      (firstPassOf_iff controlTag.parsed _).mpr stream, shown⟩

/-- The lock byte at address 28. -/
def lockAt28 : Tlv := .lockControl ⟨7, 0, 8, 2, 3⟩

/-- Five bytes `0x44`, and three more. -/
def messageAround28 (b5 b6 b7 : UInt8) : List UInt8 := [0x44, 0x44, 0x44, 0x44, 0x44, b5, b6, b7]

/-- A tag whose lock byte at address 28 is between the fifth and the sixth byte of
its message. -/
def lockedState (lockByte b5 b6 b7 : UInt8) : FlatState where
  memory := fun addr => [0xE1, 0x10, 0x0C, 0x00, 0x01, 0x03, 0x70, 0x08, 0x32, 0x03, 0x08,
    0x44, 0x44, 0x44, 0x44, 0x44, lockByte, b5, b6, b7, 0xFE].getD (addr - 12) 0
  active := 0

/-- The tag with a lock byte in its message is a control tag, whatever the lock byte and the
bytes around it. -/
theorem lockedState_controlTag (lockByte b5 b6 b7 : UInt8) :
    ControlTag dynamicCc [lockAt28] (messageAround28 b5 b6 b7) [0x01, 0x03, 0x70, 0x08, 0x32]
      (0x03 :: 0x08 :: messageAround28 b5 b6 b7) (lockedState lockByte b5 b6 b7).memory where
  parsed := by
    change CapabilityContainer.tryFrom #v[0xE1, 0x10, 0x0C, 0x00] = _
    decide +kernel
  valid := by decide +kernel
  dynamic := by decide +kernel
  nonempty := List.cons_ne_nil _ _
  control := by decide
  encodedControls := by decide +kernel
  encodedMessage := by rfl
  fits := by
    change 16 ≤ dynamicCc.dataAreaSize
    decide +kernel
  apart := by decide +kernel
  filtered := by
    have addresses : ∀ i < 16,
        (MemoryLayout.fromCcAndTlvs .alloc dynamicCc [lockAt28]).usableOffsetToAddress i =
        some (if i < 12 then 16 + i else 17 + i) := by decide +kernel
    intro i inside
    rw [addresses i inside]
    change i < 16 at inside
    interval_cases i <;> rfl

/-- Where the last byte of the message parses as a NULL block the message is read, whatever
the lock byte. -/
theorem readNdef_control_null :
    outcome (readNdef .alloc flatTag.toTransceiver) (.fresh (lockedState 0x55 0x44 0x44 0x00)) =
      .ok (messageAround28 0x44 0x44 0x00) := by
  refine ((readNdef_control_iff flatTag (lockedState 0x55 0x44 0x44 0x00) rfl
    (lockedState_controlTag 0x55 0x44 0x44 0x00)).mpr ⟨by decide +kernel, ?_⟩).1
  exact ⟨[.ndefMessage [0x44, 0x44, 0x44, 0x44, 0x44, 0x55, 0x44, 0x44], .null, .terminator],
    parseTlvs_iff.mp (by decide +kernel), by decide⟩

/-- The first pass reads the lock byte as part of the message, and the last byte of the
message as a tag with the Terminator as its length, which no data is behind. -/
theorem readNdef_control_refused :
    ControlTag dynamicCc [lockAt28] (messageAround28 0x44 0x44 0x44) [0x01, 0x03, 0x70, 0x08, 0x32]
      (0x03 :: 0x08 :: messageAround28 0x44 0x44 0x44) (lockedState 0x00 0x44 0x44 0x44).memory ∧
    outcome (readNdef .alloc flatTag.toTransceiver) (.fresh (lockedState 0x00 0x44 0x44 0x44)) =
      .error (.protocol .invalidTlv) :=
  ⟨lockedState_controlTag 0x00 0x44 0x44 0x44, by decide +kernel⟩

end

end NfcForumTags
