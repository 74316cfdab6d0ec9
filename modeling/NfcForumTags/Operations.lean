import NfcForumTags.WriteRules

/-!
# Runs of reader operations

The public operations of a reader as a datatype, and a run as the machine after a
sequence of them. An operation that fails leaves its changes in place and the run
goes on. An invariant that outlasts every exchange outlasts every run.
-/
namespace NfcForumTags

open Program

/-- A public operation of the reader. -/
inductive Call where
  | setMaxRetries (n : UInt8)
  | read (blockNo : UInt8)
  | write (blockNo : UInt8) (data : Vector UInt8 4)
  | sectorSelect (sector : UInt8)
  | readCc
  | readDataArea (layout : MemoryLayout)
  | readNdef
  | writeNdef (ndefData : List UInt8)
  | invalidateCache
  | markTagStateUnknown

/-- The operations that work on byte addresses of the tag. -/
def Call.servesAddresses : Call → Bool
  | .readCc | .readDataArea _ | .readNdef | .writeNdef _ => true
  | _ => false

/-- The operation that writes a block of the caller's own. -/
def Call.writesBlock : Call → Bool
  | .write _ _ => true
  | _ => false

/-- What an operation returns. -/
inductive Reply where
  | done
  | block (data : Vector UInt8 16)
  | cc (cc : CapabilityContainer)
  | bytes (data : List UInt8)
deriving DecidableEq

section

variable {σ ε : Type} (build : Build) (t : Transceiver σ ε)

/-- No address is being served. -/
def idle : Operation σ ε Unit := modify fun m => { m with serving := none }

/-- The operation of a call; READ and WRITE called directly serve no address. -/
def Call.run : Call → Operation σ ε Reply
  | .setMaxRetries n => do NfcForumTags.setMaxRetries n; return .done
  | .read blockNo => do idle; let data ← NfcForumTags.read build t blockNo; return .block data
  | .write blockNo data => do idle; NfcForumTags.write t blockNo data; return .done
  | .sectorSelect sector => do NfcForumTags.sectorSelect t sector; return .done
  | .readCc => do let cc ← NfcForumTags.readCc build t; return .cc cc
  | .readDataArea layout => do
    let data ← NfcForumTags.readDataArea build t layout
    return .bytes data
  | .readNdef => do let data ← NfcForumTags.readNdef build t; return .bytes data
  | .writeNdef ndefData => do NfcForumTags.writeNdef build t ndefData; return .done
  | .invalidateCache => do NfcForumTags.invalidateCache; return .done
  | .markTagStateUnknown => do NfcForumTags.markTagStateUnknown; return .done

/-- The machine after a call, whichever way it ends. -/
def Call.after (call : Call) (m : Machine σ) : Machine σ := stateAfter (call.run build t) m

/-- The exchanges a call adds to the trace. -/
def exchangesOf (call : Call) (m : Machine σ) : List (Exchange σ) :=
  (call.after build t m).trace.drop m.trace.length

/-- The machine after a run of calls. -/
def runCalls (calls : List Call) (m : Machine σ) : Machine σ :=
  calls.foldl (fun m call => call.after build t m) m

/-- What the calls of a run return, in order. -/
def replies : List Call → Machine σ → List (Except (ReaderError ε) Reply)
  | [], _ => []
  | call :: calls, m => outcome (call.run build t) m :: replies calls (call.after build t m)

end

section

variable {σ ε : Type} {build : Build} {t : Transceiver σ ε} {I : Machine σ → Prop}

/-- The operations that serve addresses keep the invariant. -/
theorem Keeps.served_rule (keeps : Keeps build t I I) (call : Call)
    (serves : call.servesAddresses = true) (m : Machine σ) (holds : I m) :
    Ensures (call.run build t) (fun _ next => I next) (fun _ next => I next) m := by
  have reads := keeps.reads
  cases call with
  | readCc =>
    exact (reads.readCc_rule m holds).kept.bind (fun _ _ kept => kept) (fun _ _ kept => kept)
  | readDataArea layout =>
    exact (reads.readDataArea_rule layout m holds).kept.bind (fun _ _ kept => kept)
      (fun _ _ kept => kept)
  | readNdef =>
    exact (reads.readNdef_rule m holds).kept.bind (fun _ _ kept => kept) (fun _ _ kept => kept)
  | writeNdef ndefData =>
    exact (keeps.writeNdef_rule ndefData m holds).bind (fun _ _ kept => kept) (fun _ _ kept => kept)
  | setMaxRetries _ | read _ | write _ _ | sectorSelect _ | invalidateCache
  | markTagStateUnknown => cases serves

/-- The wire bytes of a READ or WRITE. -/
inductive BlockCommand : List UInt8 → Prop where
  | read (block : UInt8) : BlockCommand (Command.read block).toBytes
  | write (block : UInt8) (page : Vector UInt8 4) : BlockCommand (Command.write block page).toBytes

/-- An invariant that outlasts each exchange of a call, whichever address it serves: a
selection, and a READ or WRITE with what the reader makes of its answer or its error. -/
structure KeepsExchanges (build : Build) (t : Transceiver σ ε) (I : Machine σ → Prop) : Prop where
  serving : ∀ m (serving : Option Nat), I m → I { m with serving }
  select : SurvivesSelect t I I
  uncache : ∀ m, I m → I m.uncache
  lost : ∀ m cmd error, BlockCommand cmd → I m →
    (t.transceive cmd m.reader.transceiver).1 = .error error → I (m.sent t cmd).forget
  read : ∀ m block raw, I m →
    (t.transceive (Command.read block).toBytes m.reader.transceiver).1 = .ok raw →
    I (m.sent t (Command.read block).toBytes) ∧
      ∀ data, (Command.read block).parseAnswer raw = .ok (.data data) →
        I ((m.sent t (Command.read block).toBytes).store build block data)
  written : ∀ m block page raw, I m →
    (t.transceive (Command.write block page).toBytes m.reader.transceiver).1 = .ok raw →
    I (m.sent t (Command.write block page).toBytes).uncache

namespace KeepsExchanges

/-- Such an invariant outlasts the operations that serve addresses. -/
theorem keeps (exchanges : KeepsExchanges build t I) : Keeps build t I I where
  reads := {
    serve := fun m addr => exchanges.serving m (some addr)
    select := exchanges.select
    sends := fun _ _ block _ => {
      lost := fun m error holds _ lost =>
        have left := exchanges.lost m _ error (.read block) holds.1 lost
        ⟨⟨left, holds.2⟩, left⟩
      answered := fun m raw holds _ answered =>
        have kept := exchanges.read m block raw holds.1 answered
        ⟨fun data parsed => ⟨kept.2 data parsed, fun _ _ _ _ _ => trivial⟩, fun _ => kept.1⟩ }
    cached := fun _ _ _ _ _ _ _ _ _ => trivial }
  writes := fun _ _ block page _ => {
    lost := fun m error holds _ lost =>
      have left := exchanges.lost m _ error (.write block page) holds.1 lost
      ⟨⟨left, holds.2⟩, left⟩
    answered := fun m raw holds _ answered =>
      have kept := exchanges.written m block page raw holds.1 answered
      ⟨fun _ => kept, fun _ => kept⟩ }

/-- READ keeps it. -/
theorem read_rule (exchanges : KeepsExchanges build t I) (blockNo : UInt8) (m : Machine σ)
    (holds : I m) :
    Ensures (NfcForumTags.read build t blockNo) (fun _ next => I next)
      (fun _ next => I next) m := by
  refine (NfcForumTags.read_rule (fun _ next => I next) exchanges.select blockNo m holds
    (fun _ => holds)
    ⟨fun next error kept _ lost => ?_, fun next raw kept _ answered => ?_⟩).mono
    (fun _ _ kept => kept.1) (fun _ _ kept => kept)
  · have left := exchanges.lost next _ error (.read blockNo) kept lost
    exact ⟨left, left⟩
  · have after := exchanges.read next blockNo raw kept answered
    exact ⟨after.2, fun _ => after.1⟩

/-- So does WRITE. -/
theorem write_rule (exchanges : KeepsExchanges build t I) (blockNo : UInt8) (data : Vector UInt8 4)
    (m : Machine σ) (holds : I m) :
    Ensures (NfcForumTags.write t blockNo data) (fun _ next => I next)
      (fun _ next => I next) m := by
  refine (NfcForumTags.write_rule I exchanges.select blockNo data m holds
    ⟨fun next error kept _ lost => ?_, fun next raw kept _ answered => ?_⟩).mono
    (fun _ _ kept => kept.1) (fun _ _ kept => kept)
  · have left := exchanges.lost next _ error (.write blockNo data) kept lost
    exact ⟨left, left⟩
  · have after := exchanges.written next blockNo data raw kept answered
    exact ⟨fun _ => after, fun _ => after⟩

/-- Every call keeps the invariant, whichever way it ends, if changing the retries does. -/
theorem call_rule (exchanges : KeepsExchanges build t I) (call : Call) (m : Machine σ) (holds : I m)
    (retries : ∀ n, call = .setMaxRetries n →
      I { m with reader := { m.reader with maxRetries := n } }) :
    Ensures (call.run build t) (fun _ next => I next) (fun _ next => I next) m := by
  cases call with
  | setMaxRetries n => exact retries n rfl
  | read blockNo =>
    unfold Call.run NfcForumTags.idle
    rw [ensures_bind, ensures_modify]
    exact (exchanges.read_rule blockNo _ (exchanges.serving m none holds)).bind
      (fun _ _ kept => kept) (fun _ _ kept => kept)
  | write blockNo data =>
    unfold Call.run NfcForumTags.idle
    rw [ensures_bind, ensures_modify]
    exact (exchanges.write_rule blockNo data _ (exchanges.serving m none holds)).bind
      (fun _ _ kept => kept) (fun _ _ kept => kept)
  | sectorSelect sector =>
    exact (sectorSelect_rule exchanges.select sector m holds fun _ => holds).bind
      (fun _ _ kept => kept) (fun _ _ kept => kept.1)
  | readCc | readDataArea _ | readNdef | writeNdef _ =>
    exact exchanges.keeps.served_rule _ rfl m holds
  | invalidateCache => exact exchanges.uncache m holds
  | markTagStateUnknown => exact exchanges.select.forget m holds

end KeepsExchanges

/-- An invariant that outlasts a change of the retries as well. -/
structure KeepsCalls (build : Build) (t : Transceiver σ ε) (I : Machine σ → Prop) : Prop
    extends KeepsExchanges build t I where
  retries : ∀ m n, I m → I { m with reader := { m.reader with maxRetries := n } }

/-- Every call keeps the invariant, whichever way it ends. -/
theorem KeepsCalls.call_rule (keeps : KeepsCalls build t I) (call : Call) (m : Machine σ)
    (holds : I m) : Ensures (call.run build t) (fun _ next => I next) (fun _ next => I next) m :=
  keeps.toKeepsExchanges.call_rule call m holds fun n _ => keeps.retries m n holds

/-- Every run keeps the invariant.

Induction on the calls. -/
theorem KeepsCalls.run_keeps (keeps : KeepsCalls build t I) (calls : List Call) (m : Machine σ)
    (holds : I m) : I (runCalls build t calls m) := by
  induction calls generalizing m with
  | nil => exact holds
  | cons call calls inductionHypothesis =>
    exact inductionHypothesis _ (keeps.call_rule call m holds).always

variable (build t) in
/-- No call takes back an exchange. -/
theorem KeepsCalls.logged (past : List (Exchange σ)) :
    KeepsCalls build t (Logged past fun _ => True) where
  serving := fun _ _ logged => logged.congr rfl
  select := .ofSent (fun _ logged => logged.forget) (fun _ logged => logged.exchanged _ _ trivial)
    (fun _ _ logged => logged.exchanged _ _ trivial) fun _ _ logged _ _ => logged.congr rfl
  uncache := fun _ logged => logged.congr rfl
  lost := fun _ _ _ _ logged _ => (logged.exchanged _ _ trivial).forget
  read := fun _ _ _ logged _ =>
    have kept := logged.exchanged _ _ trivial
    ⟨kept, fun _ _ => kept.congr (Machine.store_trace _ _ _)⟩
  written := fun _ _ _ _ logged _ => (logged.exchanged _ _ trivial).uncache
  retries := fun _ _ logged => logged.congr rfl

end

end NfcForumTags
