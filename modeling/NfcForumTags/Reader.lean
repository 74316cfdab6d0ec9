import NfcForumTags.Command
import NfcForumTags.MemoryLayout

/-!
# The reader and its exchanges

A reader drives a transceiver, which is a parameter: its state is arbitrary and
each of its two methods maps a frame to an answer and a next state. Reader
operations are programs over a `Machine`, the reader together with two things
the source does not have and no operation reads: the byte address an operation
is serving, and the trace of all exchanges so far. Errors leave every state
change made before them in place.
-/
namespace NfcForumTags

/-- `T2TTransceiver`: transmit a frame and receive a response, or transmit a
frame that is answered by silence. -/
structure Transceiver (σ ε : Type) where
  transceive : List UInt8 → σ → Except ε (List UInt8) × σ
  /-- `none` is the passive ACK, `some` a NACK code. -/
  transceiveNoResponse : List UInt8 → σ → Except ε (Option UInt8) × σ

/-- Errors from the reader. -/
inductive ReaderError (ε : Type) where
  | transceiver (error : ε)
  | protocol (error : Type2Error)
deriving DecidableEq

/-- Tracked sector-selection state. -/
inductive SectorState where
  | known (sector : UInt8)
  | unknown
deriving DecidableEq, Repr

/-- The reader: its transceiver, the tracked sector, the last READ result and
the number of retries. -/
structure T2TReader (σ : Type) where
  transceiver : σ
  sector : SectorState
  cacheBlock : Option UInt8
  cacheData : Vector UInt8 16
  maxRetries : UInt8

/-- Default number of retries on transient transceiver errors. -/
def DEFAULT_MAX_RETRIES : UInt8 := 1

/-- `T2TReader::new`: the default sector is 0 and nothing is cached. -/
def T2TReader.new {σ : Type} (transceiver : σ) : T2TReader σ :=
  ⟨transceiver, .known 0, none, Vector.replicate 16 0, DEFAULT_MAX_RETRIES⟩

/-- The selected sector, if it is known. -/
def T2TReader.currentSector {σ : Type} (reader : T2TReader σ) : Option UInt8 :=
  match reader.sector with
  | .known sector => some sector
  | .unknown => none

/-- A frame, by the transceiver method that carries it. -/
inductive Frame where
  | command (bytes : List UInt8)
  | packet (bytes : List UInt8)
deriving DecidableEq

/-- One call of the transceiver: the address being served, the frame, the
transceiver's state before and after, and what `sector_state()` is at the call. -/
structure Exchange (σ : Type) where
  serving : Option Nat
  frame : Frame
  before : σ
  after : σ
  sector : SectorState

/-- The reader in its environment: its own state, the log of the frames it exchanged and the
byte address it is serving. The last two are not the source's; they are what the properties
talk about. -/
structure Machine (σ : Type) where
  reader : T2TReader σ
  /-- Byte address the running operation works on; never read by an operation. -/
  serving : Option Nat
  /-- All exchanges in order; never read by an operation. -/
  trace : List (Exchange σ)

/-- A machine with a new reader and an empty trace. -/
def Machine.fresh {σ : Type} (transceiver : σ) : Machine σ := ⟨.new transceiver, none, []⟩

/-- A reader operation. -/
abbrev Operation (σ ε α : Type) := EStateM (ReaderError ε) (Machine σ) α

section

variable {σ ε : Type}

/-- The `?` on a protocol-level result. -/
def orProtocol {α : Type} (result : Except Type2Error α) : Operation σ ε α :=
  match result with
  | .ok value => pure value
  | .error error => throw (.protocol error)

/-- The `?` on a transceiver's result. -/
def orTransceiver {α : Type} (result : Except ε α) : Operation σ ε α :=
  match result with
  | .ok value => pure value
  | .error error => throw (.transceiver error)

/-- Return the error early when the condition holds. -/
def refuseIf (condition : Prop) [Decidable condition] (error : Type2Error) : Operation σ ε Unit :=
  if condition then throw (.protocol error) else pure ()

/-- Go on after an ACK; a NACK or a malformed answer is an error. -/
def expectAck (answer : Except Type2Error Answer) : Operation σ ε Unit := do
  match ← orProtocol answer with
  | .ack => pure ()
  | .nack code => throw (.protocol (.nack code))
  | _ => throw (.protocol .invalidLength)

/-- Record the address that the following exchanges are for. -/
def serve (byteAddr : Nat) : Operation σ ε Unit :=
  modify fun m => { m with serving := some byteAddr }

/-- Assignment to `sector`. -/
def setSector (sector : SectorState) : Operation σ ε Unit :=
  modify fun m => { m with reader := { m.reader with sector } }

/-- Drop the read cache. -/
def invalidateCache : Operation σ ε Unit :=
  modify fun m => { m with reader := { m.reader with cacheBlock := none } }

/-- Drop the cache and forget the sector. -/
def markTagStateUnknown : Operation σ ε Unit := do
  setSector .unknown
  invalidateCache

/-- `set_max_retries`. -/
def setMaxRetries (n : UInt8) : Operation σ ε Unit :=
  modify fun m => { m with reader := { m.reader with maxRetries := n } }

/-- Keep a READ result, unless the build never caches. -/
def storeCache (build : Build) (blockNo : UInt8) (data : Vector UInt8 16) : Operation σ ε Unit :=
  if build.caching then
    modify fun m =>
      { m with reader := { m.reader with cacheBlock := some blockNo, cacheData := data } }
  else pure ()

/-- The machine after an exchange that left the transceiver in state `after`. -/
def Machine.exchanged (m : Machine σ) (frame : Frame) (after : σ) : Machine σ :=
  { m with
    reader := { m.reader with transceiver := after }
    trace := m.trace ++ [⟨m.serving, frame, m.reader.transceiver, after, m.reader.sector⟩] }

/-- Call the transceiver's `transceive`. -/
def sendCommand (t : Transceiver σ ε) (cmd : List UInt8) : Operation σ ε (Except ε (List UInt8)) :=
  fun m =>
    let (answer, after) := t.transceive cmd m.reader.transceiver
    .ok answer (m.exchanged (.command cmd) after)

/-- Call the transceiver's `transceive_no_response`. -/
def sendPacket (t : Transceiver σ ε) (cmd : List UInt8) : Operation σ ε (Except ε (Option UInt8)) :=
  fun m =>
    let (answer, after) := t.transceiveNoResponse cmd m.reader.transceiver
    .ok answer (m.exchanged (.packet cmd) after)

/-! ## Sector selection and retries -/

/-- The SECTOR SELECT sequence, without the known-state fast path. Any failure
leaves the sector unknown and the cache dropped. -/
def forceSectorSelect (t : Transceiver σ ε) (sector : UInt8) : Operation σ ε Unit := do
  refuseIf (MAX_SECTOR < sector) .outOfRange
  invalidateCache
  setSector .unknown
  let raw ← orTransceiver (← sendCommand t Command.sectorSelectPart1.toBytes)
  expectAck (Command.sectorSelectPart1.parseAnswer raw)
  match ← orTransceiver (← sendPacket t (Command.sectorSelectPart2 sector).toBytes) with
  | some code => throw (.protocol (.nack code))
  | none => setSector (.known sector)

/-- Select a sector unless it is known to be selected. -/
def sectorSelect (t : Transceiver σ ε) (sector : UInt8) : Operation σ ε Unit := do
  refuseIf (MAX_SECTOR < sector) .outOfRange
  if (← get).reader.sector = .known sector then pure ()
  else forceSectorSelect t sector

/-- Switch the sector if needed, as the block and page loops do. -/
def switchSector (t : Transceiver σ ε) (sector : UInt8) : Operation σ ε Unit := do
  if (← get).reader.sector ≠ .known sector then sectorSelect t sector
  else pure ()

/-- The attempts after a failed one: `lastErr` is the error of that attempt,
`remaining` the number of attempts left. -/
def retryTransceive (t : Transceiver σ ε) (intended : SectorState) (cmd : List UInt8) :
    Nat → ε → Operation σ ε (List UInt8)
  | 0, lastErr => throw (.transceiver lastErr)
  | remaining + 1, lastErr => do
    match intended with
    | .known sector =>
      forceSectorSelect t sector
      match ← sendCommand t cmd with
      | .ok raw => pure raw
      | .error error =>
        setSector .unknown
        invalidateCache
        retryTransceive t intended cmd remaining error
    -- The sector was unknown before the command: a retry could hit any sector.
    | .unknown => throw (.transceiver lastErr)

/-- Transceive, retrying on transceiver errors. The first attempt of the source's
loop is made unconditionally, so an error to report is always at hand. -/
def transceiveWithRetry (t : Transceiver σ ε) (cmd : List UInt8) : Operation σ ε (List UInt8) := do
  let intended := (← get).reader.sector
  let maxRetries := (← get).reader.maxRetries
  match ← sendCommand t cmd with
  | .ok raw => pure raw
  | .error error =>
    setSector .unknown
    invalidateCache
    retryTransceive t intended cmd maxRetries.toNat error

/-! ## READ and WRITE -/

/-- Read 4 blocks starting at `blockNo` in the current sector. -/
def read (build : Build) (t : Transceiver σ ε) (blockNo : UInt8) :
    Operation σ ε (Vector UInt8 16) := do
  let reader := (← get).reader
  if reader.cacheBlock = some blockNo then return reader.cacheData
  let raw ← transceiveWithRetry t (Command.read blockNo).toBytes
  match ← orProtocol ((Command.read blockNo).parseAnswer raw) with
  | .data data =>
    storeCache build blockNo data
    return data
  | .nack code => throw (.protocol (.nack code))
  | _ => throw (.protocol .invalidLength)

/-- Write 4 bytes to `blockNo` in the current sector. -/
def write (t : Transceiver σ ε) (blockNo : UInt8) (data : Vector UInt8 4) : Operation σ ε Unit := do
  let raw ← transceiveWithRetry t (Command.write blockNo data).toBytes
  invalidateCache
  expectAck ((Command.write blockNo data).parseAnswer raw)

/-- The first four bytes of a READ result. -/
def firstBlock (data : Vector UInt8 16) : Vector UInt8 4 := #v[data[0], data[1], data[2], data[3]]

/-- Read and parse the Capability Container, in sector 0. -/
def readCc (build : Build) (t : Transceiver σ ε) : Operation σ ε CapabilityContainer := do
  serve (CC_BLOCK.toNat * BLOCK_SIZE)
  sectorSelect t 0
  let data ← read build t CC_BLOCK
  orProtocol (CapabilityContainer.tryFrom (firstBlock data))

end

end NfcForumTags
