import NfcForumTags.Buffer

/-!
# Commands and answers

The three commands of a Type 2 Tag and their wire form. SECTOR SELECT takes two
packets; the second is sent through the transceiver method that expects silence,
so it is never confused with a READ whose code equals its sector number.
-/
namespace NfcForumTags

/-- First byte of READ. -/
def CMD_READ : UInt8 := 0x30

/-- First byte of WRITE. -/
def CMD_WRITE : UInt8 := 0xA2

/-- First byte of the first packet of SECTOR SELECT. -/
def CMD_SECTOR_SELECT : UInt8 := 0xC2

/-- ACK response value (4 bits). -/
def ACK : UInt8 := 0x0A

/-- The commands of the protocol; SECTOR SELECT is made of two packets. -/
inductive Command where
  /-- Read 4 blocks starting at `blockNo`. -/
  | read (blockNo : UInt8)
  /-- Write 4 bytes to `blockNo`. -/
  | write (blockNo : UInt8) (data : Vector UInt8 4)
  | sectorSelectPart1
  | sectorSelectPart2 (sectorNo : UInt8)
deriving DecidableEq

/-- Parsed response from a Type 2 Tag. -/
inductive Answer where
  | data (bytes : Vector UInt8 16)
  | ack
  | nack (code : UInt8)
  | passiveAck
deriving DecidableEq

namespace Command

/-- Wire bytes, without CRC. -/
def toBytes : Command → List UInt8
  | .read blockNo => [CMD_READ, blockNo]
  | .write blockNo data => [CMD_WRITE, blockNo] ++ data.toList
  | .sectorSelectPart1 => [CMD_SECTOR_SELECT, 0xFF]
  | .sectorSelectPart2 sectorNo => [sectorNo, 0x00, 0x00, 0x00]

/-- The four-bit answer to a command the tag acknowledges. -/
def parseAck (raw : List UInt8) : Except Type2Error Answer :=
  match raw with
  | [] => .error .invalidLength
  | first :: _ =>
    let val := first &&& 0x0F
    if val = ACK then .ok .ack else .ok (.nack val)

/-- Parse a response for this command. -/
def parseAnswer (command : Command) (raw : List UInt8) : Except Type2Error Answer :=
  match command with
  | .read _ =>
    if enough : raw.length < 16 then .error .invalidLength
    else .ok (.data (Vector.ofFn fun i : Fin 16 =>
      have inside : i.val < raw.length := by omega
      raw[i.val]))
  | .write _ _ => parseAck raw
  | .sectorSelectPart1 => parseAck raw
  | .sectorSelectPart2 _ =>
    match raw with
    | [] => .ok .passiveAck
    | first :: _ => .ok (.nack (first &&& 0x0F))

/-- An answer of full length to READ carries data. -/
theorem parseAnswer_read_of_long (blockNo : UInt8) {raw : List UInt8} (long : 16 ≤ raw.length) :
    ∃ bytes, (read blockNo).parseAnswer raw = .ok (.data bytes) := by
  unfold parseAnswer
  rw [dif_neg (by omega)]
  exact ⟨_, rfl⟩

/-- `TryFrom<&[u8]>`: the command a tag sees in the wire bytes of an exchange.
The second packet of SECTOR SELECT has no code of its own and is not parsed. -/
def tryFrom (raw : List UInt8) : Except Type2Error Command :=
  match raw with
  | [] => .error .invalidLength
  | code :: operands =>
    if code = CMD_READ then
      match operands with
      | blockNo :: _ => .ok (.read blockNo)
      | [] => .error .invalidLength
    else if code = CMD_WRITE then
      match operands with
      | blockNo :: d0 :: d1 :: d2 :: d3 :: _ => .ok (.write blockNo #v[d0, d1, d2, d3])
      | _ => .error .invalidLength
    else if code = CMD_SECTOR_SELECT then
      match operands with
      | packet :: _ => if packet = 0xFF then .ok .sectorSelectPart1 else .error .invalidLength
      | [] => .error .invalidLength
    else .error (.unknownCommand code)

/-- A tag recovers READ and its block from the wire bytes. -/
@[simp] theorem tryFrom_read (blockNo : UInt8) :
    tryFrom (read blockNo).toBytes = .ok (.read blockNo) := rfl

/-- A tag recovers WRITE, its block and its four bytes from the wire bytes. -/
@[simp] theorem tryFrom_write (blockNo : UInt8) (data : Vector UInt8 4) :
    tryFrom (write blockNo data).toBytes = .ok (.write blockNo data) := by
  obtain ⟨⟨bytes⟩, size⟩ := data
  match bytes, size with
  | [_, _, _, _], _ => rfl

/-- The first packet of a selection is parsed back. -/
@[simp] theorem tryFrom_sectorSelectPart1 :
    tryFrom sectorSelectPart1.toBytes = .ok .sectorSelectPart1 := rfl

end Command

end NfcForumTags
