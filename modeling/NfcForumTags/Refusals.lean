import NfcForumTags.TlvStream

/-!
# What a refusal says

The protocol errors by where they come from: an answer of the tag, a Capability Container,
a TLV block, a full buffer, the end of the address space. Each decoder fails with errors
of its own class only.
-/
namespace NfcForumTags

open Program

/-! ## Classes of errors -/

namespace Type2Error

/-- An answer that is a NACK or cannot be parsed. -/
def FromAnswer : Type2Error → Prop
  | .invalidLength | .nack _ => True
  | _ => False

/-- A Capability Container of another kind of tag, or of a version not supported. -/
def FromContainer : Type2Error → Prop
  | .invalidMagic magic => magic ≠ CC_MAGIC
  | .unsupportedVersion major _ => SUPPORTED_MAJOR_VERSION < major
  | _ => False

/-- A full buffer, in a build whose buffers are bounded. -/
def FromBuffers (build : Build) (error : Type2Error) : Prop :=
  error = .bufferFull ∧ (build.dataCapacity ≠ none ∨ build.tlvCapacity ≠ none)

/-- A malformed block, or too much of them. -/
def FromBlocks (build : Build) (error : Type2Error) : Prop :=
    error = .invalidTlv ∨ error.FromBuffers build

/-- A data area that exceeds the address space, below a limit, or the buffer. -/
def FromReading (build : Build) (limit : Nat) (error : Type2Error) : Prop :=
  error = .outOfRange ∧ ADDRESS_SPACE_END < limit ∨ error.FromBuffers build

end Type2Error

section

variable {build : Build} {α : Type}

/-- A push fails on a full buffer only, and then the build bounds its buffers. -/
theorem tryPush_fails {capacity : Option Nat} (vec : List α) (val : α)
    (bounded : capacity = build.dataCapacity ∨ capacity = build.tlvCapacity) :
    FailsOnly (Type2Error.FromBuffers build) (tryPush capacity vec val) := by
  unfold tryPush
  split
  · exact fails_ok _
  · next full =>
    have limited : capacity ≠ none := by
      rintro rfl
      exact full rfl
    rcases bounded with rfl | rfl
    · exact fails_error ⟨rfl, Or.inl limited⟩
    · exact fails_error ⟨rfl, Or.inr limited⟩

/-- So does an extension. -/
theorem tryExtend_fails (vec slice : List α) :
    FailsOnly (Type2Error.FromBuffers build) (tryExtend build.dataCapacity vec slice) := by
  unfold tryExtend
  split
  · exact fails_ok _
  · next full =>
    refine fails_error ⟨rfl, Or.inl fun unbounded => full ?_⟩
    rw [unbounded]
    rfl

end

/-! ## The decoders -/

/-- What should be an acknowledgement is one, a NACK or no answer at all; only the last is
an error here, and it is about the answer. -/
theorem Command.parseAck_fails (raw : List UInt8) :
    FailsOnly Type2Error.FromAnswer (parseAck raw) := by
  unfold parseAck
  split
  · exact fails_error trivial
  · dsimp only
    split <;> exact fails_ok _

/-- Parsing an answer fails with an error about the answer, whatever the command: too short
a block for READ, or no byte where an acknowledgement is due. -/
theorem Command.parseAnswer_fails (command : Command) (raw : List UInt8) :
    FailsOnly Type2Error.FromAnswer (command.parseAnswer raw) := by
  cases command with
  | read block =>
    rw [Command.parseAnswer]
    split
    · exact fails_error trivial
    · exact fails_ok _
  | write _ _ | sectorSelectPart1 => exact parseAck_fails raw
  | sectorSelectPart2 _ => cases raw <;> exact fails_ok _

/-- A container is refused for its magic or its version, and the error carries what was
found. -/
theorem CapabilityContainer.tryFrom_fails (bytes : Vector UInt8 4) :
    FailsOnly Type2Error.FromContainer (tryFrom bytes) := by
  unfold tryFrom
  split
  · next other => exact fails_error other
  · dsimp only
    split
    · next newer => exact fails_error newer
    · exact fails_ok _

/-- An area out of the address space is a malformed block: it is refused where the TLV is
decoded, not where its bytes would be skipped. -/
theorem checkAreaInAddressSpace_fails (start size : Nat) :
    FailsOnly (· = .invalidTlv) (checkAreaInAddressSpace start size) := by
  unfold checkAreaInAddressSpace
  split
  · exact fails_error rfl
  split
  · exact fails_error rfl
  · exact fails_ok _

/-- A Lock Control value is refused as a malformed block, for its fields or for its area. -/
theorem LockControlValue.fromBytes_fails (bytes : Vector UInt8 3) :
    FailsOnly (· = .invalidTlv) (fromBytes bytes) := by
  unfold fromBytes
  dsimp only
  split
  · exact fails_error rfl
  · exact (checkAreaInAddressSpace_fails _ _).bind fun _ => fails_ok _

/-- So is a Memory Control value. -/
theorem MemoryControlValue.fromBytes_fails (bytes : Vector UInt8 3) :
    FailsOnly (· = .invalidTlv) (fromBytes bytes) := by
  unfold fromBytes
  dsimp only
  split
  · exact fails_error rfl
  · exact (checkAreaInAddressSpace_fails _ _).bind fun _ => fails_ok _

/-- So is a length field that is cut off. -/
theorem lengthField_fails (data : List UInt8) : FailsOnly (· = .invalidTlv) (lengthField data) := by
  unfold lengthField
  split
  · exact fails_error rfl
  split
  · exact fails_ok _
  split
  · exact fails_ok _
  · exact fails_error rfl

/-- So is a value that is cut off. -/
theorem takeExactly_fails (len : Nat) (data : List UInt8) :
    FailsOnly (· = .invalidTlv) (takeExactly len data) := by
  unfold takeExactly
  split
  · exact fails_error rfl
  · exact fails_ok _

/-- So is a control value of another length than three, or one that its decoder refuses. -/
theorem controlValue_fails {α : Type} {fromBytes : Vector UInt8 3 → Except Type2Error α}
    (fails : ∀ bytes, FailsOnly (· = .invalidTlv) (fromBytes bytes)) (value : List UInt8) :
    FailsOnly (· = .invalidTlv) (controlValue fromBytes value) := by
  unfold controlValue
  split
  · exact fails _
  · exact fails_error rfl

variable (build : Build)

/-- A value is refused as malformed or for a full buffer, whatever its tag byte; the buffer
is that of a message or a proprietary value. -/
theorem blockOfValue_fails (tag : UInt8) (value : List UInt8) :
    FailsOnly (Type2Error.FromBlocks build) (blockOfValue build tag value) := by
  unfold blockOfValue
  split
  · exact ((controlValue_fails LockControlValue.fromBytes_fails value).mono fun _ => Or.inl).bind
      fun _ => fails_ok _
  split
  · exact ((controlValue_fails MemoryControlValue.fromBytes_fails value).mono fun _ => Or.inl).bind
      fun _ => fails_ok _
  split
  · exact ((tryExtend_fails [] value).mono fun _ => Or.inr).bind fun _ => fails_ok _
  split
  · exact ((tryExtend_fails [] value).mono fun _ => Or.inr).bind fun _ => fails_ok _
  · exact fails_ok _

/-- And so is the block at the head of the data, with its length field and its value. -/
theorem headBlock_fails (tag : UInt8) (rest : List UInt8) :
    FailsOnly (Type2Error.FromBlocks build) (headBlock build tag rest) := by
  unfold headBlock
  split
  · exact fails_ok _
  split
  · exact fails_ok _
  · refine ((lengthField_fails rest).mono fun _ => Or.inl).bind fun length => ?_
    refine ((takeExactly_fails length.1 _).mono fun _ => Or.inl).bind fun value => ?_
    exact (blockOfValue_fails build tag value).bind fun _ => fails_ok _

/-- Decoding fails for a malformed block or a full buffer.

Induction on the bytes that remain. -/
theorem decodeInto_fails (data : List UInt8) (out : List Tlv) :
    FailsOnly (Type2Error.FromBlocks build) (decodeInto build data out) := by
  have push : ∀ out tlv, FailsOnly (Type2Error.FromBlocks build) (pushTlv build out tlv) :=
    fun out tlv => (tryPush_fails out tlv (Or.inr rfl)).mono fun _ => Or.inr
  fun_induction decodeInto build data out with
  | case1 out => exact fails_ok _
  | case2 out tag rest skips collects =>
    refine (headBlock_fails build tag rest).bind fun block => ?_
    obtain ⟨found, size⟩ := block
    cases found with
    | none => exact skips size
    | some tlv =>
      cases tlv with
      | terminator => exact push out .terminator
      | null | lockControl _ | memoryControl _ | ndefMessage _ | proprietary _ =>
        exact (push out _).bind fun out => collects size out

/-- The parser finds a malformed block, or has no room for one. -/
theorem parseTlvs_fails (data : List UInt8) :
    FailsOnly (Type2Error.FromBlocks build) (parseTlvs build data) := by
  rw [parseTlvs, parseTlvsInto_eq]
  exact decodeInto_fails build _ _

/-- The loop over the bytes of a block only fails for want of room. -/
theorem processBlock_fails (layout : MemoryLayout) (byteAddr : Nat) (blockData : Vector UInt8 4)
    (i bytesRead : Nat) (scan : TlvScanState) (result : List UInt8) :
    FailsOnly (Type2Error.FromBuffers build)
      (processBlock build layout byteAddr blockData i bytesRead scan result) := by
  fun_induction processBlock build layout byteAddr blockData i bytesRead scan result with
  | case1 i bytesRead scan result inside skipped inductionHypothesis => exact inductionHypothesis
  | case2 => exact fails_ok _
  | case3 i bytesRead scan result inside usable room inductionHypothesis =>
    refine (tryPush_fails result blockData[i] (Or.inl rfl)).bind fun result => ?_
    cases fed : scan.feed blockData[i] with
    | none => exact fails_ok _
    | some next => exact inductionHypothesis result next
  | case4 => exact fails_ok _

/-- A payload that cannot be built fails for a full buffer. -/
theorem buildPayload_fails (ndefData : List UInt8) :
    FailsOnly (Type2Error.FromBuffers build) (buildPayload build ndefData) := by
  have push : ∀ (vec : List UInt8) val, FailsOnly (Type2Error.FromBuffers build)
      (tryPush build.dataCapacity vec val) :=
    fun vec val => tryPush_fails vec val (Or.inl rfl)
  unfold buildPayload
  refine (push [] _).bind fun payload => FailsOnly.bind ?_ fun payload =>
    (tryExtend_fails payload ndefData).bind fun payload => push payload _
  split
  · exact push payload _
  · exact (push payload _).bind fun payload => (push payload _).bind fun payload => push payload _

/-- A message that does not fit, blocks without an NDEF Message TLV, or no room for the
payload. -/
theorem planWrite_fails (cc : CapabilityContainer) (tlvs : List Tlv) (ndefData : List UInt8) :
    FailsOnly (fun error => error = .outOfRange ∨ error.FromBlocks build)
      (planWrite build cc tlvs ndefData) := by
  unfold planWrite
  split
  · exact fails_error (Or.inl rfl)
  split
  · exact fails_error (Or.inr (Or.inl rfl))
  dsimp only
  split
  · exact fails_error (Or.inl rfl)
  split
  · exact fails_error (Or.inl rfl)
  split
  · exact fails_error (Or.inl rfl)
  · exact ((buildPayload_fails build ndefData).mono fun _ full => Or.inr (Or.inr full)).bind
      fun _ => fails_ok _

end NfcForumTags
