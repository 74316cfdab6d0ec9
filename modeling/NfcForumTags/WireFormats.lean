import NfcForumTags.TlvRoundTrip
import NfcForumTags.MemoryLayout
import NfcForumTags.Command

/-!
# The formats on the wire

The Capability Container, the two control values and the commands are decoded exactly from
what they are encoded to. The decoders leave out of account: of a Memory Control value, the
upper half of its last byte; of a container or a command in a longer slice, what follows. An
address is split into exactly the sector, block and offset that it is put together from.
-/
namespace NfcForumTags

open Program

/-! ## Nibbles -/

/-- The two nibbles of a byte made of them. -/
theorem nibbles_joined {high low : UInt8} (highSmall : high ≤ 0x0F) (lowSmall : low ≤ 0x0F) :
    ((high <<< 4) ||| low) >>> 4 = high ∧ ((high <<< 4) ||| low) &&& 0x0F = low ∧
      low &&& 0x0F = low := by
  have all : ∀ high low : Fin 16, (((UInt8.ofNat high <<< 4) ||| UInt8.ofNat low) >>> 4 =
      UInt8.ofNat high) ∧
      (((UInt8.ofNat high <<< 4) ||| UInt8.ofNat low) &&& 0x0F = UInt8.ofNat low) ∧
      UInt8.ofNat low &&& 0x0F = UInt8.ofNat low := by decide +kernel
  have pair := all ⟨high.toNat, Nat.lt_succ_of_le (UInt8.le_iff_toNat_le.mp highSmall)⟩
    ⟨low.toNat, Nat.lt_succ_of_le (UInt8.le_iff_toNat_le.mp lowSmall)⟩
  simpa only [UInt8.ofNat_toNat] using pair

/-- The nibbles of a byte. -/
theorem nibbles_small (byte : UInt8) : byte >>> 4 ≤ 0x0F ∧ byte &&& 0x0F ≤ 0x0F := by
  have all : ∀ byte : Fin 256, UInt8.ofNat byte >>> 4 ≤ 0x0F ∧
      UInt8.ofNat byte &&& 0x0F ≤ 0x0F := by
    decide +kernel
  simpa only [UInt8.ofNat_toNat] using all ⟨byte.toNat, byte.toNat_lt⟩

/-! ## The Capability Container -/

/-- A condition that a nibble stands for. -/
def AccessCondition.WellFormed : AccessCondition → Prop
  | .granted | .denied => True
  | .proprietary nibble => 0x08 ≤ nibble ∧ nibble ≤ 0x0E
  | .rfu nibble => 0x01 ≤ nibble ∧ nibble ≤ 0x07

/-- The conditions and the nibbles stand for each other. -/
theorem AccessCondition.fromNibble_iff {nibble : UInt8} (small : nibble ≤ 0x0F)
    (condition : AccessCondition) :
    fromNibble nibble = condition ↔ condition.WellFormed ∧ condition.toNibble = nibble := by
  constructor
  · rintro rfl
    unfold fromNibble
    split_ifs with zero full upper
    · exact ⟨trivial, zero.symm⟩
    · exact ⟨trivial, full.symm⟩
    · exact ⟨upper, rfl⟩
    · refine ⟨?_, rfl⟩
      simp only [WellFormed]
      grind
  · rintro ⟨wellFormed, rfl⟩
    cases condition with
    | granted => rfl
    | denied => rfl
    | proprietary nibble =>
      obtain ⟨least, most⟩ := wellFormed
      simp only [fromNibble, toNibble]
      grind
    | rfu nibble =>
      obtain ⟨least, most⟩ := wellFormed
      simp only [fromNibble, toNibble]
      grind

/-- A condition is encoded in half a byte. -/
theorem AccessCondition.WellFormed.small {condition : AccessCondition}
    (wellFormed : condition.WellFormed) :
    condition.toNibble ≤ 0x0F := by
  cases condition with
  | granted => decide
  | denied => decide
  | proprietary nibble => exact UInt8.le_trans wellFormed.2 (by decide)
  | rfu nibble => exact UInt8.le_trans wellFormed.2 (by decide)

/-- A container of a version that is understood, with both conditions well formed. -/
structure CapabilityContainer.WellFormed (cc : CapabilityContainer) : Prop where
  major : cc.versionMajor ≤ SUPPORTED_MAJOR_VERSION
  minor : cc.versionMinor ≤ 0x0F
  read : cc.readAccess.WellFormed
  write : cc.writeAccess.WellFormed

/-- Four bytes are decoded to a container exactly when it is encoded to them. -/
theorem CapabilityContainer.exact : Exact Eq WellFormed toBytes tryFrom := by
  refine Exact.of (fun bytes cc decoded => ?_) (fun _ _ same => same ▸ rfl) fun cc wellFormed => ?_
  · unfold tryFrom at decoded
    dsimp only at decoded
    split_ifs at decoded with magic version
    obtain rfl := Except.ok.inj decoded
    obtain ⟨high, low⟩ := nibbles_small bytes[3]
    obtain ⟨read, readNibble⟩ := (AccessCondition.fromNibble_iff high _).mp rfl
    obtain ⟨write, writeNibble⟩ := (AccessCondition.fromNibble_iff low _).mp rfl
    refine ⟨⟨UInt8.not_lt.mp version, (nibbles_small bytes[1]).2, read, write⟩, ?_⟩
    rw [not_not] at magic
    simp only [toBytes, readNibble, writeNibble, low_nibble, joined_nibbles, ← magic, vector_four]
  · obtain ⟨major, minor, read, write⟩ := wellFormed
    have majorSmall : cc.versionMajor ≤ 0x0F := UInt8.le_trans major (by decide)
    obtain ⟨readBack, writeBack, -⟩ := nibbles_joined read.small write.small
    obtain ⟨majorBack, minorBack, minorLow⟩ := nibbles_joined majorSmall minor
    have readSame := (AccessCondition.fromNibble_iff read.small _).mpr ⟨read, rfl⟩
    have writeSame := (AccessCondition.fromNibble_iff write.small _).mpr ⟨write, rfl⟩
    simp only [tryFrom, toBytes, Vector.getElem_mk, List.getElem_toArray, List.getElem_cons_zero,
      List.getElem_cons_succ, ne_eq, not_true_eq_false, if_false, minorLow, majorBack,
        minorBack, readBack,
      writeBack, readSame, writeSame, UInt8.not_lt.mpr major]

/-- A slice is decoded to a container exactly when it begins with what the container is
encoded to. -/
theorem CapabilityContainer.exact_slice :
    Exact (· <+: ·) WellFormed (fun cc => cc.toBytes.toList) tryFromSlice := by
  intro slice cc
  constructor
  · intro decoded
    unfold tryFromSlice at decoded
    split_ifs at decoded with short
    obtain ⟨wellFormed, same⟩ := (CapabilityContainer.exact _ _).mp decoded
    have whole : slice.take 4 = cc.toBytes.toList := by
      rw [same]
      rcases slice with _ | ⟨b0, _ | ⟨b1, _ | ⟨b2, _ | ⟨b3, rest⟩⟩⟩⟩
      all_goals first | rfl | exact absurd (by simp) short
    refine ⟨wellFormed, ?_⟩
    dsimp only
    rw [← whole]
    exact List.take_prefix 4 slice
  · rintro ⟨wellFormed, rest, rfl⟩
    exact (CapabilityContainer.exact _ _).mpr ⟨wellFormed, rfl⟩

/-! ## Control values -/

/-- Sizes up to 256 and their size byte stand for each other. -/
theorem size_of_byte {size : Nat} (least : 1 ≤ size) (most : size ≤ 256) :
    (if (if size = 256 then (0 : UInt8) else size.toUInt8) = 0 then 256
      else (if size = 256 then (0 : UInt8) else size.toUInt8).toNat) = size := by
  by_cases full : size = 256
  · rw [if_pos full, if_pos rfl, full]
  · have same : size.toUInt8.toNat = size := by
      rw [Nat.toUInt8, UInt8.toNat_ofNat']
      omega
    have other : size.toUInt8 ≠ 0 := fun zero => by
      rw [zero] at same
      change 0 = size at same
      omega
    rw [if_neg full, if_neg other, same]

/-- The size that a size byte stands for. -/
theorem byte_size_bounds {byte : UInt8} {size : Nat}
    (read : size = if byte = 0 then 256 else byte.toNat) :
    1 ≤ size ∧ size ≤ 256 := by
  have bound := byte.toNat_lt
  by_cases zero : byte = 0
  · rw [if_pos zero] at read
    omega
  · have positive : byte.toNat ≠ 0 := fun none => zero (UInt8.toNat_inj.mp none)
    rw [if_neg zero] at read
    omega

/-- A range in the address space passes the check. -/
theorem checkAreaInAddressSpace_ok {start size : Nat} (positive : 0 < size)
    (inside : start + size ≤ ADDRESS_SPACE_END) : checkAreaInAddressSpace start size = .ok () := by
  simp only [ADDRESS_SPACE_END_eq] at inside
  unfold checkAreaInAddressSpace
  rw [if_neg (by simp only [U32_MAX]; omega), if_neg (by simp only [ADDRESS_SPACE_END_eq]; omega)]

/-- A lock area that three bytes can describe, inside the address space. -/
structure LockControlValue.WellFormed (value : LockControlValue) : Prop where
  page : value.pageAddr ≤ 0x0F
  offset : value.byteOffset ≤ 0x0F
  least : 1 ≤ value.sizeInBits
  most : value.sizeInBits ≤ 256
  perPage : value.bytesPerPage ≤ 0x0F ∧ value.bytesPerPage ≠ 0
  perBit : value.bytesLockedPerBit ≤ 0x0F ∧ value.bytesLockedPerBit ≠ 0
  inside : value.byteAddress + value.lockByteCount ≤ ADDRESS_SPACE_END

/-- Three bytes are decoded to a lock area exactly when it is encoded to them. -/
theorem LockControlValue.exact : Exact Eq WellFormed (fun value => value.toBytes) fromBytes := by
  refine Exact.of (fun bytes value decoded => ?_) (fun _ _ same => same ▸ rfl)
    fun value wellFormed => ?_
  · refine ⟨?_, toBytes_of_read decoded⟩
    have inside := inside_of_read decoded
    obtain ⟨page, offset, size, perPage, perBit⟩ := fields_of_read decoded
    obtain ⟨least, most⟩ := byte_size_bounds size
    have nonzero : ¬ (bytes[2] &&& 0x0F = 0 ∨ bytes[2] >>> 4 = 0) := fun zero => by
      unfold fromBytes at decoded
      dsimp only at decoded
      rw [if_pos zero] at decoded
      cases decoded
    rw [not_or] at nonzero
    exact ⟨page ▸ (nibbles_small _).1, offset ▸ (nibbles_small _).2, least, most,
      perPage ▸ ⟨(nibbles_small _).2, nonzero.1⟩, perBit ▸ ⟨(nibbles_small _).1, nonzero.2⟩, inside⟩
  · obtain ⟨page, offset, least, most, perPage, perBit, inside⟩ := wellFormed
    obtain ⟨pageBack, offsetBack, offsetLow⟩ := nibbles_joined page offset
    obtain ⟨perBitBack, perPageBack, perPageLow⟩ := nibbles_joined perBit.1 perPage.1
    have checked : checkAreaInAddressSpace value.byteAddress value.lockByteCount = .ok () :=
      checkAreaInAddressSpace_ok (by unfold lockByteCount; omega) inside
    simp only [fromBytes, toBytes, Vector.getElem_mk, List.getElem_toArray, List.getElem_cons_zero,
      List.getElem_cons_succ, pageBack, offsetBack, offsetLow, perBitBack, perPageBack, perPageLow,
      size_of_byte least most, perPage.2, perBit.2, or_self, if_false]
    change checkAreaInAddressSpace value.byteAddress value.lockByteCount >>= _ = _
    rw [checked]
    rfl

/-- A reserved area that three bytes can describe, inside the address space. -/
structure MemoryControlValue.WellFormed (value : MemoryControlValue) : Prop where
  page : value.pageAddr ≤ 0x0F
  offset : value.byteOffset ≤ 0x0F
  least : 1 ≤ value.sizeInBytes
  most : value.sizeInBytes ≤ 256
  perPage : value.bytesPerPage ≤ 0x0F ∧ value.bytesPerPage ≠ 0
  inside : value.byteAddress + value.sizeInBytes ≤ ADDRESS_SPACE_END

/-- Three bytes are decoded to a reserved area exactly when it is encoded to them, but for
the upper nibble of the last. -/
theorem MemoryControlValue.exact :
    Exact Agree WellFormed (fun value => value.toBytes) fromBytes := by
  refine Exact.of (fun bytes value decoded => ?_)
    (fun bytes others agree => (fromBytes_congr agree.first agree.second agree.third).symm)
    fun value wellFormed => ?_
  · have inside := inside_of_read decoded
    obtain ⟨page, offset, size, perPage⟩ := fields_of_read decoded
    obtain ⟨least, most⟩ := byte_size_bounds size
    have nonzero : ¬ bytes[2] &&& 0x0F = 0 := fun zero => by
      unfold fromBytes at decoded
      dsimp only at decoded
      rw [if_pos zero] at decoded
      cases decoded
    refine ⟨⟨page ▸ (nibbles_small _).1, offset ▸ (nibbles_small _).2, least, most,
      perPage ▸ ⟨(nibbles_small _).2, nonzero⟩, inside⟩, ?_, ?_, ?_⟩
    · simp only [toBytes, page, offset, low_nibble]
      exact joined_nibbles bytes[0]
    · simp only [toBytes]
      exact size_byte size
    · simp only [toBytes, perPage, low_nibble]
      exact low_nibble bytes[2]
  · obtain ⟨page, offset, least, most, perPage, inside⟩ := wellFormed
    obtain ⟨pageBack, offsetBack, offsetLow⟩ := nibbles_joined page offset
    obtain ⟨-, -, perPageLow⟩ := nibbles_joined page perPage.1
    have checked : checkAreaInAddressSpace value.byteAddress value.sizeInBytes = .ok () :=
      checkAreaInAddressSpace_ok least inside
    simp only [fromBytes, toBytes, Vector.getElem_mk, List.getElem_toArray, List.getElem_cons_zero,
      List.getElem_cons_succ, pageBack, offsetBack, offsetLow, perPageLow, size_of_byte least most,
      perPage.2, if_false]
    change checkAreaInAddressSpace value.byteAddress value.sizeInBytes >>= _ = _
    rw [checked]
    rfl

/-! ## Commands -/

/-- A command whose first byte is its code. -/
def Command.HasCode : Command → Prop
  | .read _ | .write _ _ | .sectorSelectPart1 => True
  | .sectorSelectPart2 _ => False

/-- A slice is decoded to a command exactly when it begins with what the command is encoded to. -/
theorem Command.exact : Exact (· <+: ·) HasCode Command.toBytes Command.tryFrom := by
  intro raw command
  constructor
  · intro decoded
    unfold tryFrom at decoded
    split at decoded
    · cases decoded
    split_ifs at decoded with isRead isWrite isSelect
    · split at decoded
      · obtain rfl := Except.ok.inj decoded
        exact ⟨trivial, _, by rw [isRead]; rfl⟩
      · cases decoded
    · split at decoded
      · obtain rfl := Except.ok.inj decoded
        exact ⟨trivial, _, by rw [isWrite]; rfl⟩
      · cases decoded
    · split at decoded
      · split_ifs at decoded with whole
        obtain rfl := Except.ok.inj decoded
        exact ⟨trivial, _, by rw [isSelect, whole]; rfl⟩
      · cases decoded
  · rintro ⟨code, rest, rfl⟩
    cases command with
    | read blockNo => rfl
    | write blockNo data =>
      rw [← vector_four data]
      rfl
    | sectorSelectPart1 => rfl
    | sectorSelectPart2 sectorNo => exact code.elim

/-! ## Addresses -/

/-- An address is split into the sector, block and offset that it is put together from. -/
theorem MemoryLayout.addressToSectorBlock_iff (byteAddr : Nat) (sector block offset : UInt8) :
    addressToSectorBlock byteAddr = some (sector, block, offset) ↔
      offset < 4 ∧ sectorBlockToAddress sector block offset = some byteAddr := by
  have blockByte := block.toNat_lt
  constructor
  · intro located
    obtain ⟨inside, inSector, inBlock, inOffset⟩ := addressToSectorBlock_some located
    simp only [ADDRESS_SPACE_END_eq] at inside
    have addressable : ¬ MAX_SECTOR < sector := by
      rw [UInt8.lt_iff_toNat_lt, MAX_SECTOR_toNat]
      omega
    refine ⟨UInt8.lt_iff_toNat_lt.mpr (by change offset.toNat < 4; omega), ?_⟩
    rw [sectorBlockToAddress, if_neg addressable, SECTOR_SIZE_eq, BLOCK_SIZE_eq, Option.some_inj]
    omega
  · rintro ⟨small, joined⟩
    have offsetSmall : offset.toNat < 4 := UInt8.lt_iff_toNat_lt.mp small
    unfold sectorBlockToAddress at joined
    split_ifs at joined with reserved
    rw [UInt8.lt_iff_toNat_lt, MAX_SECTOR_toNat] at reserved
    rw [SECTOR_SIZE_eq, BLOCK_SIZE_eq, Option.some_inj] at joined
    have quotients : byteAddr / 1024 = sector.toNat ∧ byteAddr % 1024 / 4 = block.toNat ∧
        byteAddr % 1024 % 4 = offset.toNat := by omega
    rw [addressToSectorBlock_eq (by simp only [ADDRESS_SPACE_END_eq]; omega), quotients.1,
      quotients.2.1, quotients.2.2]
    simp only [Nat.toUInt8, UInt8.ofNat_toNat]

/-! ## All formats -/

/-- Every decoder of fixed-size data accepts exactly what a well-formed value is encoded to,
up to what it does not look at; and an address has exactly one sector, block and offset.

Proof: for each format, the decoder accepts what the encoder emits, and what it accepts is
the encoding of what it returns; both by computing with the nibbles and bytes of its fields. -/
theorem formats_exact :
    Exact Eq CapabilityContainer.WellFormed CapabilityContainer.toBytes
      CapabilityContainer.tryFrom ∧
    Exact (· <+: ·) CapabilityContainer.WellFormed (fun cc => cc.toBytes.toList)
      CapabilityContainer.tryFromSlice ∧
    Exact Eq LockControlValue.WellFormed (fun value => value.toBytes) LockControlValue.fromBytes ∧
    Exact MemoryControlValue.Agree MemoryControlValue.WellFormed (fun value => value.toBytes)
      MemoryControlValue.fromBytes ∧
    Exact (· <+: ·) Command.HasCode Command.toBytes Command.tryFrom ∧
    ∀ byteAddr sector block offset,
      MemoryLayout.addressToSectorBlock byteAddr = some (sector, block, offset) ↔
        offset < 4 ∧ MemoryLayout.sectorBlockToAddress sector block offset = some byteAddr :=
  ⟨CapabilityContainer.exact, CapabilityContainer.exact_slice, LockControlValue.exact,
    MemoryControlValue.exact, Command.exact, MemoryLayout.addressToSectorBlock_iff⟩

end NfcForumTags
