import NfcForumTags.TagContract

/-!
# Simulated tags

Tags that satisfy the contracts, as programs: a faultless one, one that errs by a
schedule, one that leaves the field after a number of WRITE commands, and one that
fails a number of times first. They show that the contracts can be met, and give the
concrete runs of the development.

A READ near the end of a sector rolls over to the beginning of the sector.
-/
namespace NfcForumTags

/-- Memory and active sector of a simulated tag. -/
structure FlatState where
  memory : Memory
  active : UInt8

namespace FlatState

/-- The sixteen bytes from a block on, rolling over within the sector. -/
def answer (contents : Memory) (sector block : UInt8) : Vector UInt8 16 :=
  Vector.ofFn fun i : Fin 16 =>
    contents (sector.toNat * SECTOR_SIZE + (block.toNat * BLOCK_SIZE + i.val) % SECTOR_SIZE)

/-- The answer to a command, and the state after it. -/
def command (state : FlatState) (raw : List UInt8) : List UInt8 × FlatState :=
  match Command.tryFrom raw with
  | .ok (.read block) => ((answer state.memory state.active block).toList, state)
  | .ok (.write block data) =>
    ([ACK], { state with memory := storeBlock state.memory state.active block data })
  | _ => ([ACK], state)

/-- The state after the second packet of a selection. -/
def select (state : FlatState) (raw : List UInt8) : FlatState :=
  match raw with
  | sector :: _ => { state with active := sector }
  | [] => state

/-- READ is answered with sixteen bytes of the active sector. -/
@[simp] theorem command_read (state : FlatState) (block : UInt8) :
    state.command (Command.read block).toBytes =
      ((answer state.memory state.active block).toList, state) := rfl

/-- WRITE stores its page in the active sector and is acknowledged. -/
@[simp] theorem command_write (state : FlatState) (block : UInt8) (data : Vector UInt8 4) :
    state.command (Command.write block data).toBytes =
      ([ACK], { state with memory := storeBlock state.memory state.active block data }) := by
  simp [command]

/-- The first packet of a selection is acknowledged. -/
@[simp] theorem command_part1 (state : FlatState) :
    state.command Command.sectorSelectPart1.toBytes = ([ACK], state) := rfl

/-- The second packet selects its sector. -/
@[simp] theorem select_part2 (state : FlatState) (sector : UInt8) :
    state.select (Command.sectorSelectPart2 sector).toBytes = { state with active := sector } := rfl

/-- As far as they lie in the sector, the bytes answered are those of the memory. -/
theorem answer_inside (contents : Memory) (sector block : UInt8) (i : Nat) (short : i < 16)
    (inside : block.toNat * 4 + i < 1024) :
    (answer contents sector block)[i] = contents (blockAddress sector block + i) := by
  simp only [answer, Vector.getElem_ofFn, BLOCK_SIZE_eq, SECTOR_SIZE_eq, Nat.mod_eq_of_lt inside]
  rw [blockAddress_eq, Nat.add_assoc]

/-- A full answer is parsed to the bytes it was made of. -/
theorem parse_answer {contents : Memory} {sector block : UInt8} {data : Vector UInt8 16}
    (parsed : (Command.read block).parseAnswer (answer contents sector block).toList =
      .ok (.data data)) : data = answer contents sector block := by
  simp only [Command.parseAnswer, Vector.length_toList, Nat.lt_irrefl, ↓reduceDIte,
    Except.ok.injEq, Answer.data.injEq] at parsed
  rw [← parsed]
  ext i inside
  simp

end FlatState

/-! ## A faultless tag -/

/-- The tag that answers every READ, acknowledges every WRITE and accepts every selection. -/
def flatTransceiver : Transceiver FlatState Unit where
  transceive raw state := (.ok (state.command raw).1, (state.command raw).2)
  transceiveNoResponse raw state := (.ok none, state.select raw)

/-- READ through the transceiver of the flat tag. -/
theorem flat_read (state : FlatState) (block : UInt8) :
    flatTransceiver.transceive (Command.read block).toBytes state =
      (.ok (FlatState.answer state.memory state.active block).toList, state) := by
  simp only [flatTransceiver, FlatState.command_read]

/-- WRITE through the transceiver of the flat tag. -/
theorem flat_write (state : FlatState) (block : UInt8) (data : Vector UInt8 4) :
    flatTransceiver.transceive (Command.write block data).toBytes state =
      (.ok [ACK], { state with memory := storeBlock state.memory state.active block data }) := by
  simp only [flatTransceiver, FlatState.command_write]

/-- The flat tag answers everything. -/
def flatTag : FaultFreeTag FlatState Unit where
  toTransceiver := flatTransceiver
  active := FlatState.active
  memory := FlatState.memory
  answer := FlatState.answer
  answer_inside := FlatState.answer_inside
  read_active := fun state block _ _ => by rw [flat_read]
  write_active := fun state block data _ _ => by rw [flat_write]
  select_active := fun _ _ _ => rfl
  read_memory := fun state block => by rw [flat_read]
  read_answer := by
    intro state block raw data answered parsed
    rw [flat_read] at answered
    obtain rfl := Except.ok.inj answered
    exact FlatState.parse_answer parsed
  write_memory := fun state block data => Or.inr (by rw [flat_write])
  write_acked := fun state block data _ _ _ => by rw [flat_write]
  part1_memory := fun _ => rfl
  part2_memory := fun _ _ => rfl
  reads := fun state block => ⟨_, by rw [flat_read], by simp⟩
  acks := fun state block data => ⟨[ACK], by rw [flat_write], rfl⟩
  selects1 := fun _ => ⟨[ACK], rfl, rfl⟩
  selects2 := fun _ _ => rfl

/-! ## A tag that errs by a schedule -/

/-- An error: whether the command was applied, and the sector active afterwards. -/
structure Fault where
  applied : Bool
  active : UInt8

/-- A simulated tag with the faults of its coming exchanges; past the end of the
schedule it is faultless. -/
structure ScheduledState where
  tag : FlatState
  schedule : List (Option Fault)

/-- The state after an exchange that would leave the tag in state `after`. -/
def ScheduledState.exchange {α : Type} (state : ScheduledState) (answer : α) (after : FlatState) :
    Except Unit α × ScheduledState :=
  match state.schedule with
  | some fault :: rest =>
    (.error (), ⟨{ (if fault.applied then after else state.tag) with active := fault.active },
      rest⟩)
  | _ :: rest => (.ok answer, ⟨after, rest⟩)
  | [] => (.ok answer, ⟨after, []⟩)

/-- The transceiver of a tag with scheduled faults. -/
def scheduledTransceiver : Transceiver ScheduledState Unit where
  transceive raw state := state.exchange (state.tag.command raw).1 (state.tag.command raw).2
  transceiveNoResponse raw state := state.exchange none (state.tag.select raw)

/-- An answered exchange has had its effect. -/
theorem ScheduledState.exchange_ok {α : Type} {state : ScheduledState} {answer value : α}
    {after : FlatState} (answered : (state.exchange answer after).1 = .ok value) :
    value = answer ∧ (state.exchange answer after).2.tag = after := by
  unfold ScheduledState.exchange at answered ⊢
  split at answered
  · cases answered
  · cases answered
    exact ⟨rfl, rfl⟩
  · cases answered
    exact ⟨rfl, rfl⟩

/-- The memory after an exchange is the one before or the one of its effect. -/
theorem ScheduledState.exchange_memory {α : Type} (state : ScheduledState) (answer : α)
    (after : FlatState) : (state.exchange answer after).2.tag.memory = state.tag.memory ∨
      (state.exchange answer after).2.tag.memory = after.memory := by
  unfold ScheduledState.exchange
  split
  · next fault rest shape =>
    cases fault.applied
    · exact Or.inl rfl
    · exact Or.inr rfl
  · exact Or.inr rfl
  · exact Or.inr rfl

/-- READ is answered unless a fault is next. -/
theorem scheduled_read (state : ScheduledState) (block : UInt8) :
    scheduledTransceiver.transceive (Command.read block).toBytes state =
      state.exchange (FlatState.answer state.tag.memory state.tag.active block).toList
        state.tag := by
  simp only [scheduledTransceiver, FlatState.command_read]

/-- WRITE is acknowledged unless a fault is next. -/
theorem scheduled_write (state : ScheduledState) (block : UInt8) (data : Vector UInt8 4) :
    scheduledTransceiver.transceive (Command.write block data).toBytes state =
      state.exchange [ACK]
        { state.tag with memory := storeBlock state.tag.memory state.tag.active block data } := by
  simp only [scheduledTransceiver, FlatState.command_write]

/-- It is a tag: a fault may or may not have applied the command that was lost. -/
def scheduledTag : Tag ScheduledState Unit where
  toTransceiver := scheduledTransceiver
  active := fun state => state.tag.active
  memory := fun state => state.tag.memory
  answer := FlatState.answer
  answer_inside := FlatState.answer_inside
  read_active := by
    intro state block raw answered
    rw [scheduled_read] at answered ⊢
    rw [(ScheduledState.exchange_ok answered).2]
  write_active := by
    intro state block data raw answered
    rw [scheduled_write] at answered ⊢
    rw [(ScheduledState.exchange_ok answered).2]
  select_active := fun _ _ answered =>
    congrArg FlatState.active (ScheduledState.exchange_ok answered).2
  read_memory := by
    intro state block
    rw [scheduled_read]
    exact (ScheduledState.exchange_memory state _ state.tag).elim id id
  read_answer := by
    intro state block raw data answered parsed
    rw [scheduled_read] at answered
    rw [(ScheduledState.exchange_ok answered).1] at parsed
    exact FlatState.parse_answer parsed
  write_memory := by
    intro state block data
    rw [scheduled_write]
    exact ScheduledState.exchange_memory state _ _
  write_acked := by
    intro state block data raw answered _
    rw [scheduled_write] at answered ⊢
    rw [(ScheduledState.exchange_ok answered).2]
  part1_memory := fun state => (ScheduledState.exchange_memory state _ state.tag).elim id id
  part2_memory := fun state sector =>
    (ScheduledState.exchange_memory state _ { state.tag with active := sector }).elim id id

/-! ## A tag that leaves the field -/

/-- A simulated tag that is gone when `left` more WRITEs are applied, the last of them
without an answer. -/
structure CutState where
  tag : FlatState
  left : Nat
  written : Nat

namespace CutState

/-- Send a command to the tag. -/
def send (state : CutState) (raw : List UInt8) : Except Unit (List UInt8) × CutState :=
  match state.left with
  | 0 => (.error (), state)
  | left + 1 =>
    let after := (state.tag.command raw).2
    if (Frame.command raw).isWrite then
      (if left = 0 then .error () else .ok (state.tag.command raw).1,
        ⟨after, left, state.written + 1⟩)
    else (.ok (state.tag.command raw).1, ⟨after, left + 1, state.written⟩)

/-- Send the second packet of a selection. -/
def sendPacket (state : CutState) (raw : List UInt8) : Except Unit (Option UInt8) × CutState :=
  if state.left = 0 then (.error (), state)
    else (.ok none, { state with tag := state.tag.select raw })

/-- Nothing is answered by a tag that is gone. -/
theorem send_gone {state : CutState} (gone : state.left = 0) (raw : List UInt8) :
    state.send raw = (.error (), state) := by
  unfold send
  rw [gone]

/-- A command that carries no WRITE, sent to a tag in the field. -/
theorem send_other {state : CutState} {left : Nat} (here : state.left = left + 1) {raw : List UInt8}
    (other : (Frame.command raw).isWrite = false) :
    state.send raw = (.ok (state.tag.command raw).1,
      { state with tag := (state.tag.command raw).2 }) := by
  unfold send
  rw [here]
  simp only [other, Bool.false_eq_true, if_false]

/-- A command whose effect is on the tag as a whole leaves what the tag keeps. -/
theorem send_keeps {α : Type} (state : CutState) {raw : List UInt8} (keeps : FlatState → α)
    (other : (Frame.command raw).isWrite = false)
    (same : keeps (state.tag.command raw).2 = keeps state.tag) :
    keeps (state.send raw).2.tag = keeps state.tag ∧ (state.send raw).2.written =
      state.written := by
  cases here : state.left with
  | zero =>
    rw [send_gone here]
    exact ⟨rfl, rfl⟩
  | succ left =>
    rw [send_other here other]
    exact ⟨same, rfl⟩

/-- A WRITE is applied, unless the tag is gone. -/
theorem send_write (state : CutState) (block : UInt8) (data : Vector UInt8 4) :
    state.left = 0 ∧ state.send (Command.write block data).toBytes = (.error (), state) ∨
    ∃ left, state.left = left + 1 ∧ state.send (Command.write block data).toBytes =
      (if left = 0 then .error () else .ok [ACK], ⟨{ state.tag with
        memory := storeBlock state.tag.memory state.tag.active block data }, left,
        state.written + 1⟩) := by
  cases here : state.left with
  | zero => exact Or.inl ⟨rfl, send_gone here _⟩
  | succ left =>
    refine Or.inr ⟨left, rfl, ?_⟩
    have isWrite : (Frame.command (Command.write block data).toBytes).isWrite = true := rfl
    unfold send
    rw [here]
    simp only [isWrite, if_true, FlatState.command_write]

/-- A tag that is gone once a command errs. -/
theorem send_error {state : CutState} {raw : List UInt8} {error : Unit}
    (lost : (state.send raw).1 = .error error) : (state.send raw).2.left = 0 := by
  unfold send at lost ⊢
  cases here : state.left with
  | zero =>
    rw [here] at lost
    exact here
  | succ left =>
    rw [here] at lost
    dsimp only at lost ⊢
    split at lost
    · next wrote =>
      rw [if_pos wrote]
      split at lost
      · next last => exact last
      · cases lost
    · cases lost

/-- The second packet of a selection leaves memory and counts. -/
theorem sendPacket_keeps (state : CutState) (sector : UInt8) :
    (state.sendPacket (Command.sectorSelectPart2 sector).toBytes).2.tag.memory = state.tag.memory ∧
      (state.sendPacket (Command.sectorSelectPart2 sector).toBytes).2.written = state.written := by
  unfold sendPacket
  split <;> exact ⟨rfl, rfl⟩

end CutState

/-- The transceiver of a tag that leaves the field after some WRITEs. -/
def cutTransceiver : Transceiver CutState Unit where
  transceive raw state := state.send raw
  transceiveNoResponse raw state := state.sendPacket raw

/-- It is a tag that may leave the field. -/
def cutTag : CutTag CutState Unit where
  toTransceiver := cutTransceiver
  active := fun state => state.tag.active
  memory := fun state => state.tag.memory
  answer := FlatState.answer
  answer_inside := FlatState.answer_inside
  read_active := fun state block _ _ => (state.send_keeps FlatState.active rfl rfl).1
  write_active := by
    intro state block data raw answered
    change (state.send _).2.tag.active = _
    rcases state.send_write block data with ⟨-, sent⟩ | ⟨left, -, sent⟩ <;> rw [sent]
  select_active := by
    intro state sector answered
    change (state.sendPacket _).1 = _ at answered
    change (state.sendPacket _).2.tag.active = sector
    unfold CutState.sendPacket at answered ⊢
    split at answered
    · cases answered
    · next here =>
      rw [if_neg here]
      rfl
  read_memory := fun state block => (state.send_keeps FlatState.memory rfl rfl).1
  read_answer := by
    intro state block raw data answered parsed
    change (state.send _).1 = _ at answered
    cases here : state.left with
    | zero =>
      rw [CutState.send_gone here] at answered
      cases answered
    | succ left =>
      rw [CutState.send_other here rfl, FlatState.command_read] at answered
      dsimp only at answered
      obtain rfl := Except.ok.inj answered
      exact FlatState.parse_answer parsed
  write_memory := by
    intro state block data
    change (state.send _).2.tag.memory = _ ∨ (state.send _).2.tag.memory = _
    rcases state.send_write block data with ⟨-, sent⟩ | ⟨left, -, sent⟩ <;> rw [sent]
    · exact Or.inl rfl
    · exact Or.inr rfl
  write_acked := by
    intro state block data raw answered _
    change (state.send _).1 = _ at answered
    change (state.send _).2.tag.memory = _
    rcases state.send_write block data with ⟨-, sent⟩ | ⟨left, -, sent⟩
    · rw [sent] at answered
      cases answered
    · rw [sent]
  part1_memory := fun state => (state.send_keeps FlatState.memory rfl rfl).1
  part2_memory := fun state sector => (state.sendPacket_keeps sector).1
  gone := fun state => state.left = 0
  applied := CutState.written
  lost := fun _ _ _ lost => decide_eq_true (CutState.send_error lost)
  gone_command := by
    intro state cmd gone
    have sent := CutState.send_gone (of_decide_eq_true gone) cmd
    change (∃ error, (state.send cmd).1 = _) ∧ (state.send cmd).2.tag.memory = _ ∧
      (state.send cmd).2.written = _
    rw [sent]
    exact ⟨⟨_, rfl⟩, rfl, rfl⟩
  gone_packet := by
    intro state packet gone
    change decide ((state.sendPacket packet).2.left = 0) = true
    unfold CutState.sendPacket
    rw [if_pos (of_decide_eq_true gone)]
    exact gone
  applied_read := fun state block => (state.send_keeps FlatState.memory rfl rfl).2
  applied_part1 := fun state => (state.send_keeps FlatState.memory rfl rfl).2
  applied_part2 := fun state sector => (state.sendPacket_keeps sector).2
  applied_write := by
    intro state block data
    change (state.send _).2.tag.memory = _ ∧ (state.send _).2.written = _ ∨
      (state.send _).2.tag.memory = _ ∧ (state.send _).2.written = _
    rcases state.send_write block data with ⟨-, sent⟩ | ⟨left, -, sent⟩ <;> rw [sent]
    · exact Or.inl ⟨rfl, rfl⟩
    · exact Or.inr ⟨rfl, rfl⟩
  applied_acked := by
    intro state block data raw answered _
    change (state.send _).1 = _ at answered
    change (state.send _).2.written = _
    rcases state.send_write block data with ⟨-, sent⟩ | ⟨left, -, sent⟩
    · rw [sent] at answered
      cases answered
    · rw [sent]

/-! ## A tag that fails first -/

/-- A simulated tag on which the next commands fail and are not applied. -/
structure FailingState where
  inner : FlatState
  failuresRemaining : Nat

namespace FailingState

/-- Send a command to the tag. -/
def transceive (state : FailingState) (raw : List UInt8) :
    Except Unit (List UInt8) × FailingState :=
  match state.failuresRemaining with
  | 0 => (.ok (state.inner.command raw).1, { state with inner := (state.inner.command raw).2 })
  | remaining + 1 => (.error (), { state with failuresRemaining := remaining })

/-- Once no failure remains a command is applied and answered. -/
theorem transceive_ready {state : FailingState} (ready : state.failuresRemaining = 0)
    (raw : List UInt8) :
    state.transceive raw =
      (.ok (state.inner.command raw).1, { state with inner := (state.inner.command raw).2 }) := by
  unfold transceive
  rw [ready]

/-- A command that fails is not applied. -/
theorem transceive_failing {state : FailingState} (failing : state.failuresRemaining ≠ 0)
    (raw : List UInt8) : state.transceive raw =
      (.error (), { state with failuresRemaining := state.failuresRemaining - 1 }) := by
  unfold transceive
  cases left : state.failuresRemaining with
  | zero => exact absurd left failing
  | succ remaining => rfl

/-- An answered command is applied. -/
theorem transceive_ok {state : FailingState} {raw answer : List UInt8}
    (answered : (state.transceive raw).1 = .ok answer) :
    answer = (state.inner.command raw).1 ∧ (state.transceive raw).2.inner =
      (state.inner.command raw).2 := by
  by_cases ready : state.failuresRemaining = 0
  · rw [transceive_ready ready] at answered ⊢
    exact ⟨(Except.ok.inj answered).symm, rfl⟩
  · rw [transceive_failing ready] at answered
    cases answered

/-- A command is applied or leaves the tag. -/
theorem transceive_inner (state : FailingState) (raw : List UInt8) :
    (state.transceive raw).2.inner = state.inner ∨
      (state.transceive raw).2.inner = (state.inner.command raw).2 := by
  by_cases ready : state.failuresRemaining = 0
  · rw [transceive_ready ready]
    exact Or.inr rfl
  · rw [transceive_failing ready]
    exact Or.inl rfl

end FailingState

/-- The transceiver of a tag that errs a number of times first. -/
def failingTransceiver : Transceiver FailingState Unit where
  transceive raw state := state.transceive raw
  transceiveNoResponse raw state := (.ok none, { state with inner := state.inner.select raw })

/-- Its errors are transient. -/
def failingTag : TransientTag FailingState Unit where
  toTransceiver := failingTransceiver
  active := fun state => state.inner.active
  memory := fun state => state.inner.memory
  answer := FlatState.answer
  answer_inside := FlatState.answer_inside
  read_active := fun state block raw answered =>
    congrArg FlatState.active (FailingState.transceive_ok answered).2
  write_active := by
    intro state block data raw answered
    change (state.transceive _).2.inner.active = _
    rw [(FailingState.transceive_ok answered).2, FlatState.command_write]
  select_active := fun _ _ _ => rfl
  read_memory := fun state block =>
    (state.transceive_inner _).elim (congrArg FlatState.memory) (congrArg FlatState.memory)
  read_answer := by
    intro state block raw data answered parsed
    rw [(FailingState.transceive_ok answered).1, FlatState.command_read] at parsed
    dsimp only at parsed
    exact FlatState.parse_answer parsed
  write_memory := by
    intro state block data
    change (state.transceive _).2.inner.memory = _ ∨ (state.transceive _).2.inner.memory = _
    rcases state.transceive_inner (Command.write block data).toBytes with kept | applied
    · exact Or.inl (by rw [kept])
    · exact Or.inr (by rw [applied, FlatState.command_write])
  write_acked := by
    intro state block data raw answered _
    change (state.transceive _).2.inner.memory = _
    rw [(FailingState.transceive_ok answered).2, FlatState.command_write]
  part1_memory := fun state =>
    (state.transceive_inner _).elim (congrArg FlatState.memory) (congrArg FlatState.memory)
  part2_memory := fun _ _ => rfl
  errors := FailingState.failuresRemaining
  errs := fun state cmd failing =>
    ⟨(), congrArg Prod.fst (FailingState.transceive_failing failing cmd)⟩
  errors_command := by
    intro state cmd
    change (state.transceive cmd).2.failuresRemaining = _
    by_cases ready : state.failuresRemaining = 0
    · rw [FailingState.transceive_ready ready, ready]
    · rw [FailingState.transceive_failing ready]
  errors_packet := fun _ _ => rfl
  reads := fun state block ready =>
    ⟨_, congrArg Prod.fst (FailingState.transceive_ready ready _), by simp⟩
  acks := fun state block data ready =>
    ⟨_,
      congrArg Prod.fst
      (FailingState.transceive_ready ready _), by rw [FlatState.command_write]; rfl⟩
  selects1 := fun state ready =>
    ⟨_, congrArg Prod.fst (FailingState.transceive_ready ready _), rfl⟩
  selects2 := fun _ _ _ => rfl

end NfcForumTags
