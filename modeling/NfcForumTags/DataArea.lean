import NfcForumTags.Reader

/-!
# Reading and writing the data area

The data area is read block by block through the cache, keeping the bytes outside
lock and reserved areas, until the layout's size is reached or the scanner sees a
Terminator at a block boundary. Writing places data on the usable bytes from an
address on: a page that is fully usable and fully covered is written directly,
any other page is read, changed and written back.
-/
namespace NfcForumTags

/-! ## The Terminator scanner -/

/-- `TlvScanState`: where in a block the scanner of the data area stands. -/
inductive TlvScanState where
  | tag
  | length
  | lengthExtMsb
  | lengthExtLsb (msb : UInt8)
  | value (remaining : Nat)
deriving DecidableEq, Repr

/-- Feed the next data byte; `none` when it is a Terminator tag. -/
def TlvScanState.feed (state : TlvScanState) (byte : UInt8) : Option TlvScanState :=
  match state with
  | .tag =>
    if byte = TLV_TERMINATOR then none
    else if byte = TLV_NULL then some .tag
    else some .length
  | .length =>
    if byte = 0xFF then some .lengthExtMsb
    else if byte = 0 then some .tag
    else some (.value byte.toNat)
  | .lengthExtMsb => some (.lengthExtLsb byte)
  | .lengthExtLsb msb =>
    let len := msb.toNat * 256 + byte.toNat
    if len = 0 then some .tag else some (.value len)
  | .value remaining => if remaining ≤ 1 then some .tag else some (.value (remaining - 1))

/-! ## Reading -/

/-- Four bytes of a 16-byte READ result, `ahead` blocks after its first. -/
def blockOf (data : Vector UInt8 16) (ahead : Nat) (near : ahead < 4) : Vector UInt8 4 :=
  Vector.ofFn fun i : Fin 4 => data[ahead * 4 + i.val]

/-- Where a block's bytes leave the reading loop. -/
inductive BlockOutcome where
  /-- The size is reached or the Terminator was seen. -/
  | stop (result : List UInt8)
  | next (bytesRead : Nat) (scan : TlvScanState) (result : List UInt8)
deriving DecidableEq

/-- The loop over the bytes of one block, from byte `i` on. -/
def processBlock (build : Build) (layout : MemoryLayout) (byteAddr : Nat)
    (blockData : Vector UInt8 4) (i bytesRead : Nat) (scan : TlvScanState)
    (result : List UInt8) : Except Type2Error BlockOutcome :=
  if inside : i < 4 then
    if layout.isSkipArea (byteAddr + i) then
      processBlock build layout byteAddr blockData (i + 1) bytesRead scan result
    else if layout.dataAreaSize ≤ bytesRead then .ok (.stop result)
    else do
      let result ← tryPush build.dataCapacity result blockData[i]
      match scan.feed blockData[i] with
      | none => .ok (.stop result)
      | some scan =>
        processBlock build layout byteAddr blockData (i + 1) (bytesRead + 1) scan result
  else .ok (.next bytesRead scan result)
termination_by 4 - i

section

variable {σ ε : Type} (build : Build) (t : Transceiver σ ε)

/-- The bytes of one block: from the cached READ result when the block is at most
three blocks ahead of it, in wrapping block arithmetic, else by a READ. -/
def readBlock (block : UInt8) : Operation σ ε (Vector UInt8 4) := do
  let reader := (← get).reader
  match reader.cacheBlock with
  | some cachedBlock =>
    let ahead := block - cachedBlock
    if near : ahead.toNat < 4 then return blockOf reader.cacheData ahead.toNat near
    else
      let data ← read build t block
      return firstBlock data
  | none =>
    let data ← read build t block
    return firstBlock data

/-- The block loop of `read_data_area`, at `byteAddr`. -/
def readDataAreaFrom (layout : MemoryLayout) (byteAddr bytesRead : Nat) (scan : TlvScanState)
    (result : List UInt8) : Operation σ ε (List UInt8) :=
  if bytesRead < layout.dataAreaSize then
    match _located : MemoryLayout.addressToSectorBlock byteAddr with
    | none => throw (.protocol .outOfRange)
    | some (sector, block, _) => do
      serve byteAddr
      switchSector t sector
      let blockData ← readBlock build t block
      match ← orProtocol (processBlock build layout byteAddr blockData 0 bytesRead scan result) with
      | .stop result => pure result
      | .next bytesRead scan result =>
        readDataAreaFrom layout (byteAddr + BLOCK_SIZE) bytesRead scan result
  else pure result
termination_by ADDRESS_SPACE_END - byteAddr
decreasing_by exact MemoryLayout.nextBlock_closer _located

/-- Read the data area bytes outside lock and reserved areas, up to a Terminator. -/
def readDataArea (layout : MemoryLayout) : Operation σ ε (List UInt8) :=
  readDataAreaFrom build t layout (DATA_START_BLOCK.toNat * BLOCK_SIZE) 0 .tag []

/-- Read the data area; on a dynamic tag whose first pass shows control TLVs,
read it again skipping the areas they describe. -/
def readDataAreaWithLayout (cc : CapabilityContainer) : Operation σ ε (List UInt8) := do
  let basicLayout := MemoryLayout.fromCcAndTlvs build cc []
  let dataArea ← readDataArea build t basicLayout
  let tlvs ← orProtocol (parseTlvs build dataArea)
  if cc.isDynamic && tlvs.any Tlv.isControl then
    let fullLayout := MemoryLayout.fromCcAndTlvs build cc tlvs
    readDataArea build t fullLayout
  else return dataArea

/-- The value of the first NDEF Message TLV. -/
def firstNdef : List Tlv → Option (List UInt8)
  | [] => none
  | .ndefMessage data :: _ => some data
  | _ :: rest => firstNdef rest

/-- Detect and read the NDEF message; no NDEF Message TLV reads as empty. -/
def readNdef : Operation σ ε (List UInt8) := do
  let cc ← readCc build t
  refuseIf (cc.isValid = false) (.invalidMagic 0)
  let dataArea ← readDataAreaWithLayout build t cc
  let tlvs ← orProtocol (parseTlvs build dataArea)
  return (firstNdef tlvs).getD []

/-! ## Writing -/

/-- The bytes of the current page with data placed on its usable bytes, the
number of data bytes consumed, and whether any was placed. -/
structure PageFill where
  page : Vector UInt8 4
  di : Nat
  touched : Bool
deriving DecidableEq

/-- The slow-path loop over the bytes of a page, from byte `i` on; `none` when
the limit is reached before the data is consumed. -/
def fillPage (layout : MemoryLayout) (data : List UInt8) (limitAddr pageBase : Nat) (i : Nat)
    (fill : PageFill) : Option PageFill :=
  if inside : i < 4 then
    if more : fill.di < data.length then
      if limitAddr ≤ pageBase + i then none
      else if layout.isSkipArea (pageBase + i) then
        fillPage layout data limitAddr pageBase (i + 1) fill
      else
        fillPage layout data limitAddr pageBase (i + 1)
          ⟨fill.page.set i data[fill.di], fill.di + 1, true⟩
    else some fill
  else some fill
termination_by 4 - i

/-- Whether no byte of the page is in a lock or reserved area. -/
def pageAllUsable (layout : MemoryLayout) (pageBase : Nat) : Bool :=
  (List.range BLOCK_SIZE).all fun i => !layout.isSkipArea (pageBase + i)

/-- The four data bytes from `di` on. -/
def pageFrom (data : List UInt8) (di : Nat) (room : BLOCK_SIZE ≤ data.length - di) :
    Vector UInt8 4 :=
  have enough : 4 ≤ data.length - di := room
  #v[data[di], data[di + 1], data[di + 2], data[di + 3]]

/-- The page of `write_usable_bytes` that `addr` is in, with its sector selected:
the number of data bytes written afterwards. -/
def writePage (layout : MemoryLayout) (data : List UInt8) (limitAddr pageBase : Nat)
    (block offset : UInt8) (di : Nat) : Operation σ ε Nat :=
  -- Fast path: a fully usable page that the remaining data fully covers.
  if covered : (offset = 0 ∧ BLOCK_SIZE ≤ data.length - di) ∧ pageAllUsable layout pageBase then do
    refuseIf (limitAddr < pageBase + BLOCK_SIZE) .outOfRange
    write t block (pageFrom data di covered.1.2)
    return di + BLOCK_SIZE
  else do
    -- Slow path: read-modify-write, keeping lock and reserved bytes.
    let cur ← read build t block
    match fillPage layout data limitAddr pageBase offset.toNat ⟨firstBlock cur, di, false⟩ with
    | none => throw (.protocol .outOfRange)
    | some fill =>
      (if fill.touched then write t block fill.page else pure ())
      return fill.di

/-- The page loop of `write_usable_bytes`, at `addr` with `di` bytes written. -/
def writeUsableBytesFrom (layout : MemoryLayout) (data : List UInt8) (limitAddr addr di : Nat) :
    Operation σ ε Unit :=
  if di < data.length then
    if limitAddr ≤ addr then throw (.protocol .outOfRange)
    else
      match _located : MemoryLayout.addressToSectorBlock addr with
      | none => throw (.protocol .outOfRange)
      | some (sector, block, offset) => do
        serve addr
        switchSector t sector
        let pageBase := addr - offset.toNat
        let di ← writePage build t layout data limitAddr pageBase block offset di
        writeUsableBytesFrom layout data limitAddr (pageBase + BLOCK_SIZE) di
  else pure ()
termination_by ADDRESS_SPACE_END - addr
decreasing_by exact MemoryLayout.nextPage_closer _located

/-- Write `data` across the usable bytes from `startAddr` on, below `limitAddr`. -/
def writeUsableBytes (layout : MemoryLayout) (startAddr : Nat) (data : List UInt8)
    (limitAddr : Nat) : Operation σ ε Unit :=
  writeUsableBytesFrom build t layout data limitAddr startAddr 0

/-- Size of the length field of a value. -/
def lFieldSize (len : Nat) : Nat := if len < 0xFF then 1 else 3

/-- The walk over the parsed TLVs to the first NDEF Message TLV. -/
def ndefTlvOffset : List Tlv → Nat → Option Nat
  | [], _ => none
  | .ndefMessage _ :: _, offset => some offset
  | .null :: rest, offset => ndefTlvOffset rest (offset + 1)
  | .terminator :: _, _ => none
  | .lockControl _ :: rest, offset => ndefTlvOffset rest (offset + 5)
  | .memoryControl _ :: rest, offset => ndefTlvOffset rest (offset + 5)
  | .proprietary data :: rest, offset =>
    ndefTlvOffset rest (offset + (1 + lFieldSize data.length + data.length))

/-- The `as u16` of an offset. -/
def asU16 (n : Nat) : Nat := n % 65536

/-- What `write_ndef` has computed when its first WRITE is due. -/
structure WriteJob where
  layout : MemoryLayout
  ndefOffset : Nat
  ndefByteAddr : Nat
  writeLimitAddr : Nat
  /-- T, a zero length, the message and the Terminator. -/
  payload : List UInt8
  /-- The real length field. -/
  lengthField : List UInt8
deriving DecidableEq

/-- The length field written first, with length zero. -/
def zeroLengthField (len : Nat) : List UInt8 := if len < 0xFF then [0x00] else [0xFF, 0x00, 0x00]

/-- The real length field, written last. -/
def realLengthField (len : Nat) : List UInt8 :=
  if len < 0xFF then [len.toUInt8] else [0xFF, (len >>> 8).toUInt8, len.toUInt8]

/-- The bytes written first: T, a zero length, the message and the Terminator. -/
def buildPayload (build : Build) (ndefData : List UInt8) : Except Type2Error (List UInt8) := do
  let payload ← tryPush build.dataCapacity [] TLV_NDEF_MESSAGE
  let payload ←
    (if ndefData.length < 0xFF then tryPush build.dataCapacity payload 0x00
    else do
      let payload ← tryPush build.dataCapacity payload 0xFF
      let payload ← tryPush build.dataCapacity payload 0x00
      tryPush build.dataCapacity payload 0x00)
  let payload ← tryExtend build.dataCapacity payload ndefData
  tryPush build.dataCapacity payload TLV_TERMINATOR

/-- The checks and address computations of `write_ndef` between parsing the data
area and the first WRITE. -/
def planWrite (build : Build) (cc : CapabilityContainer) (tlvs : List Tlv)
    (ndefData : List UInt8) : Except Type2Error WriteJob :=
  if 0xFFFE < ndefData.length then .error .outOfRange
  else
    match ndefTlvOffset tlvs 0 with
    | none => .error .invalidTlv
    | some ndefOffset =>
      let requiredEnd := ndefOffset + 1 + lFieldSize ndefData.length + ndefData.length + 1
      if cc.dataAreaSize < requiredEnd then .error .outOfRange
      else
        let layout := MemoryLayout.fromCcAndTlvs build cc tlvs
        match layout.usableOffsetToAddress (asU16 ndefOffset) with
        | none => .error .outOfRange
        | some ndefByteAddr =>
          match layout.usableOffsetToAddress (cc.dataAreaSize - 1) with
          | none => .error .outOfRange
          | some lastAddr => do
            let payload ← buildPayload build ndefData
            return {
              layout
              ndefOffset
              ndefByteAddr
              writeLimitAddr := lastAddr + 1
              payload
              lengthField := realLengthField ndefData.length }

/-- `write_ndef` up to its first WRITE. -/
def prepareWrite (ndefData : List UInt8) : Operation σ ε WriteJob := do
  let cc ← readCc build t
  refuseIf (cc.isValid = false) (.invalidMagic 0)
  refuseIf (cc.writeAccess ≠ .granted) .readOnly
  let dataArea ← readDataAreaWithLayout build t cc
  let tlvs ← orProtocol (parseTlvs build dataArea)
  orProtocol (planWrite build cc tlvs ndefData)

/-- `write_ndef` from its first WRITE on: the payload with a zero length, then the
real length field. -/
def commitWrite (job : WriteJob) : Operation σ ε Unit := do
  writeUsableBytes build t job.layout job.ndefByteAddr job.payload job.writeLimitAddr
  let some lAddr := job.layout.usableOffsetToAddress (asU16 job.ndefOffset + 1)
    | throw (.protocol .outOfRange)
  writeUsableBytes build t job.layout lAddr job.lengthField job.writeLimitAddr

/-- Write an NDEF message to the tag. -/
def writeNdef (ndefData : List UInt8) : Operation σ ε Unit := do
  let job ← prepareWrite build t ndefData
  commitWrite build t job

end

end NfcForumTags
