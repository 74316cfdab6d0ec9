import NfcForumTags.CheckedLayout
import NfcForumTags.Reader

/-!
# The reader with checked operations

The exchanges of the reader with the indexing of answers and the `unwrap` of the last
error as operations that may panic. They run as the plain ones over any transceiver and
from any state: answers of any length are looked at only where they have bytes, and the
first attempt of a command is always made, so that there is an error to report.
-/
namespace NfcForumTags

open Panic

namespace Checked

/-- A reader operation that may panic. -/
abbrev Operation (σ ε α : Type) := EStateM (Stop (ReaderError ε)) (Machine σ) α

/-! ## Answers -/

/-- `parse_ack` with its index into the answer checked: the source reads `raw[0]` behind a
test that the slice is not empty. -/
def parseAck (raw : List UInt8) : Except (Stop Type2Error) Answer :=
  if raw.isEmpty then .error (.error .invalidLength)
  else do
    let val := (← index raw 0) &&& 0x0F
    if val = ACK then return .ack else return .nack val

/-- `parse_answer` with its copy of the first sixteen bytes checked. -/
def parseAnswer (command : Command) (raw : List UInt8) : Except (Stop Type2Error) Answer :=
  match command with
  | .read _ =>
    if raw.length < 16 then .error (.error .invalidLength)
    else do
      let data ← copyFromSlice 16 raw 0 16
      return .data data
  | .write _ _ => parseAck raw
  | .sectorSelectPart1 => parseAck raw
  | .sectorSelectPart2 _ =>
    if raw.isEmpty then return .passiveAck
    else do
      let val := (← index raw 0) &&& 0x0F
      return .nack val

section

variable {σ ε : Type}

/-- The `?` on a protocol-level result that may be a panic. -/
def orProtocol {α : Type} (result : Except (Stop Type2Error) α) : Operation σ ε α :=
  match result with
  | .ok value => pure value
  | .error stop => throw (stop.map .protocol)

/-- The end of a command that is acknowledged, over an answer that was parsed with checks: a
NACK is an error, and so is any other answer. -/
def expectAck (answer : Except (Stop Type2Error) Answer) : Operation σ ε Unit := do
  match ← orProtocol answer with
  | .ack => pure ()
  | .nack code => throw (.error (.protocol (.nack code)))
  | _ => throw (.error (.protocol .invalidLength))

/-! ## Sector selection and retries -/

variable (build : Build) (t : Transceiver σ ε)

/-- `force_sector_select`, with both answers parsed with checks. What it does to sector and
cache is as in the plain one. -/
def forceSectorSelect (sector : UInt8) : Operation σ ε Unit := do
  ofProgram (refuseIf (MAX_SECTOR < sector) .outOfRange)
  ofProgram invalidateCache
  ofProgram (setSector .unknown)
  let answer ← ofProgram (sendCommand t Command.sectorSelectPart1.toBytes)
  let raw ← ofProgram (orTransceiver answer)
  expectAck (parseAnswer .sectorSelectPart1 raw)
  let answer ← ofProgram (sendPacket t (Command.sectorSelectPart2 sector).toBytes)
  match ← ofProgram (orTransceiver answer) with
  | some code => throw (.error (.protocol (.nack code)))
  | none => ofProgram (setSector (.known sector))

/-- `sector_select` over the checked selection. -/
def sectorSelect (sector : UInt8) : Operation σ ε Unit := do
  ofProgram (refuseIf (MAX_SECTOR < sector) .outOfRange)
  if (← get).reader.sector = .known sector then pure ()
  else forceSectorSelect t sector

/-- The selection ahead of a block, if the sector is not the tracked one. -/
def switchSector (sector : UInt8) : Operation σ ε Unit := do
  if (← get).reader.sector ≠ .known sector then sectorSelect t sector
  else pure ()

/-- What follows the loop of attempts: the last error is unwrapped and returned. -/
def lastAttemptFailed (lastErr : Option ε) : Operation σ ε (List UInt8) := do
  let error ← orProtocol (unwrap lastErr)
  throw (.error (.transceiver error))

/-- One attempt, and how the loop goes on after its error. -/
def attemptCommand (cmd : List UInt8) (onError : ε → Operation σ ε (List UInt8)) :
    Operation σ ε (List UInt8) := do
  match ← ofProgram (sendCommand t cmd) with
  | .ok raw => pure raw
  | .error error =>
    ofProgram (setSector .unknown)
    ofProgram invalidateCache
    onError error

/-- The loop of attempts, over the numbers of those left. -/
def transceiveAttempts (intended : SectorState) (cmd : List UInt8) :
    List Nat → Option ε → Operation σ ε (List UInt8)
  | [], lastErr => lastAttemptFailed lastErr
  | attempt :: attempts, lastErr =>
    if 0 < attempt then
      match intended with
      | .known sector => do
        forceSectorSelect t sector
        attemptCommand t cmd fun error => transceiveAttempts intended cmd attempts (some error)
      | .unknown => lastAttemptFailed lastErr
    else attemptCommand t cmd fun error => transceiveAttempts intended cmd attempts (some error)

/-- The attempts are numbered `0..=max_retries`. -/
def transceiveWithRetry (cmd : List UInt8) : Operation σ ε (List UInt8) := do
  let intended := (← get).reader.sector
  let maxRetries := (← get).reader.maxRetries
  transceiveAttempts t intended cmd (List.range (maxRetries.toNat + 1)) none

/-! ## READ and WRITE -/

/-- `read`, with the answer parsed with checks. A cached block is returned as it is. -/
def read (blockNo : UInt8) : Operation σ ε (Vector UInt8 16) := do
  let reader := (← get).reader
  if reader.cacheBlock = some blockNo then return reader.cacheData
  else
    let raw ← transceiveWithRetry t (Command.read blockNo).toBytes
    match ← orProtocol (parseAnswer (.read blockNo) raw) with
    | .data data =>
      ofProgram (storeCache build blockNo data)
      return data
    | .nack code => throw (.error (.protocol (.nack code)))
    | _ => throw (.error (.protocol .invalidLength))

/-- `write`, with the answer parsed with checks behind the cache having been dropped. -/
def write (blockNo : UInt8) (data : Vector UInt8 4) : Operation σ ε Unit := do
  let raw ← transceiveWithRetry t (Command.write blockNo data).toBytes
  ofProgram invalidateCache
  expectAck (parseAnswer (.write blockNo data) raw)

/-- `read_cc` over the checked READ: block 3 of sector 0, whose first four bytes are the
container. -/
def readCc : Operation σ ε CapabilityContainer := do
  ofProgram (serve (CC_BLOCK.toNat * BLOCK_SIZE))
  sectorSelect t 0
  let data ← read build t CC_BLOCK
  ofProgram (NfcForumTags.orProtocol (CapabilityContainer.tryFrom (firstBlock data)))

end

/-! ## Agreement -/

/-- The index into an acknowledgement is in range: an empty answer is refused ahead of it. -/
theorem parseAck_agrees (raw : List UInt8) : Agrees (parseAck raw) (Command.parseAck raw) := by
  cases raw with
  | nil => exact agrees_error _
  | cons first rest =>
    refine Agrees.value (index_ok (Nat.zero_lt_succ _)) ?_
    exact Agrees.ite (fun _ => agrees_ok _) fun _ => agrees_ok _

/-- An answer of any bytes and any length is parsed without a panic. -/
theorem parseAnswer_agrees (command : Command) (raw : List UInt8) :
    Agrees (parseAnswer command raw) (command.parseAnswer raw) := by
  cases command with
  | read blockNo =>
    unfold parseAnswer Command.parseAnswer
    by_cases short : raw.length < 16
    · rw [if_pos short, dif_pos short]
      exact agrees_error _
    · rw [if_neg short, dif_neg short]
      refine Agrees.value (copyFromSlice_ok (by omega)) ?_
      simp only [Nat.zero_add]
      exact agrees_ok _
  | write _ _ | sectorSelectPart1 => exact parseAck_agrees raw
  | sectorSelectPart2 _ =>
    cases raw with
    | nil => exact agrees_ok _
    | cons first rest => exact Agrees.value (index_ok (Nat.zero_lt_succ _)) (agrees_ok _)

section

variable {σ ε α : Type} {t : Transceiver σ ε} {m : Machine σ}

/-- A checked result that agrees with a plain one ends a program as the plain result does. -/
theorem orProtocol_runs {checked : Except (Stop Type2Error) α} {plain : Except Type2Error α}
    (agrees : Agrees checked plain) (m : Machine σ) :
    RunsAs (orProtocol checked : Operation σ ε α) (NfcForumTags.orProtocol plain) m := by
  unfold Agrees at agrees
  rw [agrees]
  cases plain with
  | ok value => exact runsAs_pure value m
  | error error => exact runsAs_throw _ m

/-- So does a parsed answer that has to be an acknowledgement. -/
theorem expectAck_runs {checked : Except (Stop Type2Error) Answer}
    {plain : Except Type2Error Answer}
    (agrees : Agrees checked plain) (m : Machine σ) :
    RunsAs (expectAck checked : Operation σ ε Unit) (NfcForumTags.expectAck plain) m := by
  refine (orProtocol_runs agrees m).bind fun answer next _ => ?_
  cases answer with
  | ack => exact runsAs_pure () next
  | nack code => exact runsAs_throw _ next
  | data _ | passiveAck => exact runsAs_throw _ next

/-- A forced selection never stops.

Proof: its only checked steps are the two parsers of its answers. -/
theorem forceSectorSelect_runs (t : Transceiver σ ε) (sector : UInt8) (m : Machine σ) :
    RunsAs (forceSectorSelect t sector) (NfcForumTags.forceSectorSelect t sector) m := by
  refine RunsAs.after fun _ _ _ => RunsAs.after fun _ _ _ => RunsAs.after fun _ _ _ => ?_
  refine RunsAs.after fun answer _ _ => RunsAs.after fun raw next _ => ?_
  refine (expectAck_runs (parseAnswer_agrees _ raw) next).bind fun _ _ _ => ?_
  refine RunsAs.after fun answer _ _ => RunsAs.after fun nack next _ => ?_
  cases nack with
  | some code => exact runsAs_throw _ next
  | none => exact runsAs_ofProgram _ next

/-- Neither does a selection that may not be needed, whatever sector is tracked. -/
theorem sectorSelect_runs (t : Transceiver σ ε) (sector : UInt8) (m : Machine σ) :
    RunsAs (sectorSelect t sector) (NfcForumTags.sectorSelect t sector) m := by
  refine RunsAs.after fun _ next _ => RunsAs.get ?_
  exact RunsAs.ite (fun _ => runsAs_pure () next) fun _ => forceSectorSelect_runs t sector next

/-- Nor one ahead of a block. -/
theorem switchSector_runs (t : Transceiver σ ε) (sector : UInt8) (m : Machine σ) :
    RunsAs (switchSector t sector) (NfcForumTags.switchSector t sector) m :=
  RunsAs.get (RunsAs.ite (fun _ => sectorSelect_runs t sector m) fun _ => runsAs_pure () m)

/-- The attempts after a failed one have its error at hand.

Induction on the attempts left. -/
theorem transceiveAttempts_runs (t : Transceiver σ ε) (intended : SectorState) (cmd : List UInt8)
    (remaining attempt : Nat) (later : 0 < attempt) (lastErr : ε) (m : Machine σ) :
    RunsAs (transceiveAttempts t intended cmd (List.range' attempt remaining) (some lastErr))
      (retryTransceive t intended cmd remaining lastErr) m := by
  induction remaining generalizing attempt lastErr m with
  | zero => exact runsAs_throw _ m
  | succ remaining inductionHypothesis =>
    rw [List.range'_succ]
    unfold transceiveAttempts
    rw [if_pos later]
    cases intended with
    | unknown => exact runsAs_throw _ m
    | known sector =>
      refine (forceSectorSelect_runs t sector m).bind fun _ _ _ =>
        RunsAs.after fun answer next _ => ?_
      cases answer with
      | ok raw => exact runsAs_pure raw next
      | error error =>
        refine RunsAs.after fun _ _ _ => RunsAs.after fun _ next _ => ?_
        exact inductionHypothesis (attempt + 1) (Nat.zero_lt_succ _) error next

/-- The `unwrap` of the last error never sees `None`. -/
theorem transceiveWithRetry_runs (t : Transceiver σ ε) (cmd : List UInt8) (m : Machine σ) :
    RunsAs (transceiveWithRetry t cmd) (NfcForumTags.transceiveWithRetry t cmd) m := by
  refine RunsAs.get (RunsAs.get ?_)
  dsimp only
  rw [List.range_eq_range', List.range'_succ]
  unfold transceiveAttempts
  rw [if_neg (Nat.lt_irrefl 0)]
  refine RunsAs.after fun answer next _ => ?_
  cases answer with
  | ok raw => exact runsAs_pure raw next
  | error error =>
    refine RunsAs.after fun _ _ _ => RunsAs.after fun _ next _ => ?_
    exact transceiveAttempts_runs t _ cmd _ 1 Nat.one_pos error next

/-- READ never stops, retries and recovery selections included: an answer is looked at only
as far as it has bytes. -/
theorem read_runs (build : Build) (t : Transceiver σ ε) (blockNo : UInt8) (m : Machine σ) :
    RunsAs (read build t blockNo) (NfcForumTags.read build t blockNo) m := by
  refine RunsAs.get (RunsAs.ite (fun _ => runsAs_pure _ m) fun _ => ?_)
  refine (transceiveWithRetry_runs t _ m).bind fun raw next _ => ?_
  refine (orProtocol_runs (parseAnswer_agrees _ raw) next).bind fun answer next _ => ?_
  cases answer with
  | data data => exact RunsAs.after fun _ next _ => runsAs_pure data next
  | nack code => exact runsAs_throw _ next
  | ack | passiveAck => exact runsAs_throw _ next

/-- WRITE never stops, retries and recovery selections included, whatever comes back. -/
theorem write_runs (t : Transceiver σ ε) (blockNo : UInt8) (data : Vector UInt8 4) (m : Machine σ) :
    RunsAs (write t blockNo data) (NfcForumTags.write t blockNo data) m := by
  refine (transceiveWithRetry_runs t _ m).bind fun raw _ _ => RunsAs.after fun _ next _ => ?_
  exact expectAck_runs (parseAnswer_agrees _ raw) next

/-- `read_cc` never stops: neither the selection of sector 0 nor the READ does. -/
theorem readCc_runs (build : Build) (t : Transceiver σ ε) (m : Machine σ) :
    RunsAs (readCc build t) (NfcForumTags.readCc build t) m := by
  refine RunsAs.after fun _ next _ => (sectorSelect_runs t 0 next).bind fun _ next _ => ?_
  exact (read_runs build t CC_BLOCK next).bind fun data next _ => runsAs_ofProgram _ next

end

end Checked

end NfcForumTags
