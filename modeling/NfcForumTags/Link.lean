import NfcForumTags.Reader
import NfcForumTags.Library.Program

/-!
# Rules for the link operations

Sector selection, the retry loop, READ and WRITE are each specified once, for an
arbitrary invariant. An invariant is `SurvivesSelect` when it outlasts losing the
sector and each packet of a selection, and `SurvivesSend` for a command when it
outlasts a lost attempt at it; the rules then give what the whole operation,
retries and recovery selections included, leaves behind. No property of the
transceiver is assumed here.
-/
namespace NfcForumTags

open Program

section

variable {σ ε : Type}

/-- The machine after the sector and the cache are given up. -/
def Machine.forget (m : Machine σ) : Machine σ :=
  { m with reader := { m.reader with sector := .unknown, cacheBlock := none } }

/-- The machine after the sector is known. -/
def Machine.select (m : Machine σ) (sector : UInt8) : Machine σ :=
  { m with reader := { m.reader with sector := .known sector } }

/-- The machine after the cache is dropped. -/
def Machine.uncache (m : Machine σ) : Machine σ :=
  { m with reader := { m.reader with cacheBlock := none } }

/-- The machine after a READ result is kept, or not, as the build does. -/
def Machine.store (m : Machine σ) (build : Build) (blockNo : UInt8) (data : Vector UInt8 16) :
    Machine σ :=
  if build.caching then
    { m with reader := { m.reader with cacheBlock := some blockNo, cacheData := data } }
  else m

/-- The machine after a command was sent, whatever the answer. -/
def Machine.sent (m : Machine σ) (t : Transceiver σ ε) (cmd : List UInt8) : Machine σ :=
  m.exchanged (.command cmd) (t.transceive cmd m.reader.transceiver).2

/-- The machine after a packet that expects silence was sent. -/
def Machine.sentPacket (m : Machine σ) (t : Transceiver σ ε) (cmd : List UInt8) : Machine σ :=
  m.exchanged (.packet cmd) (t.transceiveNoResponse cmd m.reader.transceiver).2

variable (t : Transceiver σ ε) {build : Build}

/-! ## What the primitive operations do -/

section

variable {m : Machine σ} {α : Type} {fails : ReaderError ε → Machine σ → Prop}

/-- A command is exchanged once, and its answer or error is the program's value. -/
@[simp] theorem ensures_sendCommand {returns : Except ε (List UInt8) → Machine σ → Prop}
    (cmd : List UInt8) : Ensures (sendCommand t cmd) returns fails m ↔
      returns (t.transceive cmd m.reader.transceiver).1 (m.sent t cmd) := Iff.rfl

/-- So is the packet of a selection that is answered by silence. -/
@[simp] theorem ensures_sendPacket {returns : Except ε (Option UInt8) → Machine σ → Prop}
    (cmd : List UInt8) : Ensures (sendPacket t cmd) returns fails m ↔
      returns (t.transceiveNoResponse cmd m.reader.transceiver).1 (m.sentPacket t cmd) := Iff.rfl

/-- Serving an address is noted and nothing else. -/
@[simp] theorem ensures_serve {returns : Unit → Machine σ → Prop} (byteAddr : Nat) :
    Ensures (serve byteAddr) returns fails m ↔ returns () { m with serving := some byteAddr } :=
  Iff.rfl

/-- Dropping the cache does nothing else. -/
@[simp] theorem ensures_invalidateCache {returns : Unit → Machine σ → Prop} :
    Ensures invalidateCache returns fails m ↔ returns () m.uncache := Iff.rfl

/-- Keeping a READ result does nothing else. -/
@[simp] theorem ensures_storeCache {returns : Unit → Machine σ → Prop} (blockNo : UInt8)
    (data : Vector UInt8 16) : Ensures (storeCache build blockNo data) returns fails m ↔
      returns () (m.store build blockNo data) := by
  unfold storeCache Machine.store
  split <;> rfl

/-- Dropping the cache and then the sector gives up both. -/
theorem ensures_invalidate_unknown {returns : α → Machine σ → Prop} (rest : Operation σ ε α) :
    Ensures (do invalidateCache; setSector .unknown; rest) returns fails m ↔
      Ensures rest returns fails m.forget := Iff.rfl

/-- Dropping the sector and then the cache gives up both. -/
theorem ensures_unknown_invalidate {returns : α → Machine σ → Prop} (rest : Operation σ ε α) :
    Ensures (do setSector .unknown; invalidateCache; rest) returns fails m ↔
      Ensures rest returns fails m.forget := Iff.rfl

/-- A protocol-level result ends the operation if it is an error. -/
@[simp] theorem ensures_orProtocol {returns : α → Machine σ → Prop}
    (result : Except Type2Error α) : Ensures (orProtocol result) returns fails m ↔
      (∀ value, result = .ok value → returns value m) ∧
      (∀ error, result = .error error → fails (.protocol error) m) := by
  cases result <;> simp [orProtocol]

/-- A result that is passed on leaves the machine. -/
theorem orProtocol_ok {result : Except Type2Error α} {value : α} {m next : Machine σ}
    (run : (orProtocol result : Operation σ ε α) m = .ok value next) :
    result = .ok value ∧ m = next := by
  cases result with
  | ok returned =>
    obtain ⟨rfl, rfl⟩ := EStateM.Result.ok.inj run
    exact ⟨rfl, rfl⟩
  | error error => cases run

/-- So does the result of an exchange. -/
@[simp] theorem ensures_orTransceiver {returns : α → Machine σ → Prop} (result : Except ε α) :
    Ensures (orTransceiver result : Operation σ ε α) returns fails m ↔
      (∀ value, result = .ok value → returns value m) ∧
      (∀ error, result = .error error → fails (.transceiver error) m) := by
  cases result <;> simp [orTransceiver]

/-- A check ends the operation if its condition holds. -/
@[simp] theorem ensures_refuseIf {returns : Unit → Machine σ → Prop} (condition : Prop)
    [Decidable condition] (error : Type2Error) :
    Ensures (refuseIf condition error) returns fails m ↔
      (¬ condition → returns () m) ∧ (condition → fails (.protocol error) m) := by
  unfold refuseIf
  by_cases refused : condition <;> simp [refused]

/-- After an ACK the operation goes on; any other answer ends it. -/
theorem ensures_expectAck {returns : Unit → Machine σ → Prop} {answer : Except Type2Error Answer}
    (acked : answer = .ok .ack → returns () m) (refused : answer ≠ .ok .ack →
      ∀ error, fails error m) :
    Ensures (expectAck answer) returns fails m := by
  unfold expectAck
  rw [ensures_bind, ensures_orProtocol]
  constructor
  · rintro value rfl
    cases value with
    | ack => exact acked rfl
    | data bytes => exact refused (by simp) _
    | nack code => exact refused (by simp) _
    | passiveAck => exact refused (by simp) _
  · rintro error rfl
    exact refused (by simp) _

end

/-! ## Sector selection -/

/-- An invariant `I` that outlasts giving up the sector and each packet of a
selection, and the condition `E` that a packet which is lost or refused leaves. -/
structure SurvivesSelect (I E : Machine σ → Prop) : Prop where
  forget : ∀ m, I m → I m.forget
  part1 : ∀ m raw, I m → m.reader.sector = .unknown → m.reader.cacheBlock = none →
    (t.transceive Command.sectorSelectPart1.toBytes m.reader.transceiver).1 = .ok raw →
    Command.sectorSelectPart1.parseAnswer raw = .ok .ack →
    I (m.sent t Command.sectorSelectPart1.toBytes)
  part1_lost : ∀ m error, I m → m.reader.sector = .unknown → m.reader.cacheBlock = none →
    (t.transceive Command.sectorSelectPart1.toBytes m.reader.transceiver).1 = .error error →
    E (m.sent t Command.sectorSelectPart1.toBytes)
  part1_refused : ∀ m raw, I m → m.reader.sector = .unknown → m.reader.cacheBlock = none →
    (t.transceive Command.sectorSelectPart1.toBytes m.reader.transceiver).1 = .ok raw →
    Command.sectorSelectPart1.parseAnswer raw ≠ .ok .ack →
    E (m.sent t Command.sectorSelectPart1.toBytes)
  part2_refused : ∀ m sector, I m → m.reader.sector = .unknown → m.reader.cacheBlock = none →
    (t.transceiveNoResponse (Command.sectorSelectPart2 sector).toBytes m.reader.transceiver).1 ≠
      .ok none →
    E (m.sentPacket t (Command.sectorSelectPart2 sector).toBytes)
  selected : ∀ m sector, I m → sector ≤ MAX_SECTOR → m.reader.cacheBlock = none →
    (t.transceiveNoResponse (Command.sectorSelectPart2 sector).toBytes m.reader.transceiver).1 =
      .ok none →
    I ((m.sentPacket t (Command.sectorSelectPart2 sector).toBytes).select sector)

variable {t} {I E : Machine σ → Prop}

/-- An invariant that outlasts giving up the sector, both packets of a selection whatever
they are answered, and tracking a sector that may be selected. -/
theorem SurvivesSelect.ofSent (forget : ∀ m, I m → I m.forget)
    (part1 : ∀ m, I m → I (m.sent t Command.sectorSelectPart1.toBytes))
    (part2 : ∀ m sector, I m → I (m.sentPacket t (Command.sectorSelectPart2 sector).toBytes))
    (select : ∀ m sector, I m → sector ≤ MAX_SECTOR → m.reader.cacheBlock = none →
      I (m.select sector)) : SurvivesSelect t I I where
  forget := forget
  part1 := fun m _ holds _ _ _ _ => part1 m holds
  part1_lost := fun m _ holds _ _ _ => part1 m holds
  part1_refused := fun m _ holds _ _ _ _ => part1 m holds
  part2_refused := fun m sector holds _ _ _ => part2 m sector holds
  selected := fun m sector holds allowed empty _ =>
    select (m.sentPacket t _) sector (part2 m sector holds) allowed empty

/-- A forced selection keeps the invariant when it completes, and leaves the
sector known and nothing cached. -/
theorem forceSectorSelect_rule (survives : SurvivesSelect t I E) (sector : UInt8) (m : Machine σ)
    (holds : I m) (beyond : MAX_SECTOR < sector → E m) : Ensures (forceSectorSelect t sector)
      (fun _ next => I next ∧ next.reader.sector = .known sector ∧ next.reader.cacheBlock = none)
      (fun _ next => E next) m := by
  unfold forceSectorSelect
  rw [ensures_bind, ensures_refuseIf]
  refine ⟨fun allowed => ?_, beyond⟩
  rw [ensures_invalidate_unknown]
  have forgotten : I m.forget := survives.forget m holds
  simp only [ensures_bind, ensures_sendCommand, ensures_orTransceiver]
  refine ⟨fun raw answered => ?_, fun error lost =>
    survives.part1_lost _ error forgotten rfl rfl lost⟩
  refine ensures_expectAck (fun acked => ?_)
    (fun nacked _ => survives.part1_refused _ raw forgotten rfl rfl answered nacked)
  have afterPart1 := survives.part1 _ raw forgotten rfl rfl answered acked
  simp only [ensures_sendPacket]
  refine ⟨fun nack answered => ?_, fun error lost => ?_⟩
  · cases nack with
    | some code => exact survives.part2_refused _ sector afterPart1 rfl rfl (by rw [answered]; simp)
    | none =>
      exact ⟨survives.selected _ sector afterPart1 (UInt8.not_lt.mp allowed) rfl answered, rfl, rfl⟩
  · exact survives.part2_refused _ sector afterPart1 rfl rfl (by rw [lost]; simp)

/-- A sector known to be selected is not selected again. -/
theorem sectorSelect_settled {sector : UInt8} (allowed : ¬ MAX_SECTOR < sector)
    (known : m.reader.sector = .known sector) : sectorSelect t sector m = .ok () m := by
  apply Ensures.run_eq
  unfold sectorSelect
  simp only [ensures_bind, ensures_refuseIf, ensures_get, if_pos known]
  exact ⟨fun _ => ⟨trivial, rfl⟩, fun beyond => absurd beyond allowed⟩

/-- Any other sector is. -/
theorem sectorSelect_forced {sector : UInt8} (allowed : ¬ MAX_SECTOR < sector)
    (unknown : m.reader.sector ≠ .known sector) :
    sectorSelect t sector m = forceSectorSelect t sector m := by
  have settled : (refuseIf (MAX_SECTOR < sector) .outOfRange : Operation σ ε Unit) m =
      .ok () m := by
    unfold refuseIf
    rw [if_neg allowed]
    rfl
  rw [sectorSelect, run_bind_ok settled, run_get_bind, if_neg unknown]

/-- Switching the sector if needed is selecting it. -/
theorem switchSector_eq {sector : UInt8} (allowed : ¬ MAX_SECTOR < sector) :
    switchSector t sector m = sectorSelect t sector m := by
  by_cases already : m.reader.sector = .known sector
  · rw [sectorSelect_settled allowed already, switchSector, run_get_bind,
      if_neg (not_not_intro already)]
    rfl
  · rw [switchSector, run_get_bind, if_pos already]

/-- A selection either was not needed, or is a completed forced one. -/
theorem sectorSelect_rule (survives : SurvivesSelect t I E) (sector : UInt8) (m : Machine σ)
    (holds : I m) (beyond : MAX_SECTOR < sector → E m) : Ensures (sectorSelect t sector)
      (fun _ next => I next ∧ next.reader.sector = .known sector ∧
        (next.reader.cacheBlock = none ∨ m.reader.sector = .known sector ∧ next = m))
      (fun _ next => E next) m := by
  unfold sectorSelect
  simp only [ensures_bind, ensures_refuseIf, ensures_get]
  refine ⟨fun _ => ?_, beyond⟩
  split
  · next same => exact ⟨holds, same, Or.inr ⟨same, rfl⟩⟩
  · exact (forceSectorSelect_rule survives sector m holds beyond).mono
      (fun _ next kept => ⟨kept.1, kept.2.1, Or.inl kept.2.2⟩) (fun _ _ kept => kept)

/-- Switching the sector if needed ends as a selection does. -/
theorem switchSector_rule (survives : SurvivesSelect t I E) (sector : UInt8) (m : Machine σ)
    (holds : I m) (beyond : MAX_SECTOR < sector → E m) : Ensures (switchSector t sector)
      (fun _ next => I next ∧ next.reader.sector = .known sector ∧
        (next.reader.cacheBlock = none ∨ m.reader.sector = .known sector ∧ next = m))
      (fun _ next => E next) m := by
  unfold switchSector
  simp only [ensures_bind, ensures_get]
  split
  · exact sectorSelect_rule survives sector m holds beyond
  · next same =>
    have known : m.reader.sector = .known sector := not_not.mp same
    exact ⟨holds, known, Or.inr ⟨known, rfl⟩⟩

/-- Two invariants outlast a selection together. -/
theorem SurvivesSelect.and {I' E' : Machine σ → Prop} (left : SurvivesSelect t I E)
    (right : SurvivesSelect t I' E') :
    SurvivesSelect t (fun m => I m ∧ I' m) fun m => E m ∧ E' m where
  forget := fun m both => ⟨left.forget m both.1, right.forget m both.2⟩
  part1 := fun m raw both unknown empty answered acked =>
    ⟨left.part1 m raw both.1 unknown empty answered acked,
      right.part1 m raw both.2 unknown empty answered acked⟩
  part1_lost := fun m error both unknown empty lost =>
    ⟨left.part1_lost m error both.1 unknown empty lost,
      right.part1_lost m error both.2 unknown empty lost⟩
  part1_refused := fun m raw both unknown empty answered refused =>
    ⟨left.part1_refused m raw both.1 unknown empty answered refused,
      right.part1_refused m raw both.2 unknown empty answered refused⟩
  part2_refused := fun m sector both unknown empty refused =>
    ⟨left.part2_refused m sector both.1 unknown empty refused,
      right.part2_refused m sector both.2 unknown empty refused⟩
  selected := fun m sector both allowed empty answered =>
    ⟨left.selected m sector both.1 allowed empty answered,
      right.selected m sector both.2 allowed empty answered⟩

/-- What a failed selection leaves may be weakened. -/
theorem SurvivesSelect.weaken {E' : Machine σ → Prop} (survives : SurvivesSelect t I E)
    (weaken : ∀ m, E m → E' m) : SurvivesSelect t I E' where
  forget := survives.forget
  part1 := survives.part1
  part1_lost := fun m error holds unknown empty lost =>
    weaken _ (survives.part1_lost m error holds unknown empty lost)
  part1_refused := fun m raw holds unknown empty answered refused =>
    weaken _ (survives.part1_refused m raw holds unknown empty answered refused)
  part2_refused := fun m sector holds unknown empty refused =>
    weaken _ (survives.part2_refused m sector holds unknown empty refused)
  selected := survives.selected

/-! ## The retry loop -/

variable (t I E) in
/-- An invariant that outlasts every lost attempt at a command, made while the
reader tracks the sector as `intended`; an answered attempt gives `answers`. -/
structure SurvivesSend (cmd : List UInt8) (intended : SectorState)
    (answers : List UInt8 → Machine σ → Prop) : Prop where
  lost : ∀ m error, I m → m.reader.sector = intended →
    (t.transceive cmd m.reader.transceiver).1 = .error error →
    I (m.sent t cmd).forget ∧ E (m.sent t cmd).forget
  answered : ∀ m raw, I m → m.reader.sector = intended →
    (t.transceive cmd m.reader.transceiver).1 = .ok raw → answers raw (m.sent t cmd)

variable {cmd : List UInt8} {intended : SectorState} {answers : List UInt8 → Machine σ → Prop}

/-- The attempts after the first keep the invariant until one is answered. Each
begins with a completed selection of the intended sector, so the command is
always sent with the reader tracking that sector.

Induction on the number of attempts left. -/
theorem retryTransceive_rule (survives : SurvivesSelect t I E)
    (sends : SurvivesSend t I E cmd intended answers) (remaining : Nat) (lastErr : ε)
    (m : Machine σ) (holds : I m) (failed : E m) :
    Ensures (retryTransceive t intended cmd remaining lastErr)
      (fun raw next => answers raw next ∧ next.reader.sector = intended ∧
        next.reader.cacheBlock = none)
      (fun _ next => E next) m := by
  induction remaining generalizing m lastErr with
  | zero => exact failed
  | succ remaining inductionHypothesis =>
    cases intended with
    | unknown => exact failed
    | known sector =>
      unfold retryTransceive
      refine (forceSectorSelect_rule survives sector m holds fun _ => failed).bind
        (fun _ _ left => left) ?_
      rintro - next ⟨kept, known, empty⟩
      rw [ensures_bind, ensures_sendCommand]
      split
      · next raw answered => exact ⟨sends.answered next raw kept known answered, known, empty⟩
      · next error lost =>
        rw [ensures_unknown_invalidate]
        obtain ⟨kept, failed⟩ := sends.lost next error kept known lost
        exact inductionHypothesis error _ kept failed

/-- The whole transmission, first attempt included. An answered one leaves the
sector as the reader tracked it, and the cache as it was or dropped. -/
theorem transceiveWithRetry_rule (survives : SurvivesSelect t I E) (m : Machine σ)
    (sends : SurvivesSend t I E cmd m.reader.sector answers) (holds : I m) :
    Ensures (transceiveWithRetry t cmd)
      (fun raw next => answers raw next ∧ next.reader.sector = m.reader.sector ∧
        (next.reader.cacheBlock = none ∨ next.reader.cacheBlock = m.reader.cacheBlock))
      (fun _ next => E next) m := by
  unfold transceiveWithRetry
  simp only [ensures_bind, ensures_get, ensures_sendCommand]
  split
  · next raw answered => exact ⟨sends.answered m raw holds rfl answered, rfl, Or.inr rfl⟩
  · next error lost =>
    rw [ensures_unknown_invalidate]
    obtain ⟨kept, failed⟩ := sends.lost m error holds rfl lost
    exact (retryTransceive_rule survives sends _ error _ kept failed).mono
      (fun _ _ answered => ⟨answered.1, answered.2.1, Or.inl answered.2.2⟩) (fun _ _ left => left)

/-! ## READ and WRITE -/

/-- READ: a cached block is returned as it is; otherwise the answer's sixteen
bytes are returned and kept. -/
theorem read_rule (returns : Vector UInt8 16 → Machine σ → Prop) (survives : SurvivesSelect t I E)
    (blockNo : UInt8) (m : Machine σ) (holds : I m)
    (cached : m.reader.cacheBlock = some blockNo → returns m.reader.cacheData m)
    (sends : SurvivesSend t I E (Command.read blockNo).toBytes m.reader.sector fun raw next =>
      (∀ data, (Command.read blockNo).parseAnswer raw = .ok (.data data) →
        returns data (next.store build blockNo data)) ∧
      ((∀ data, (Command.read blockNo).parseAnswer raw ≠ .ok (.data data)) → E next)) :
    Ensures (read build t blockNo)
      (fun data next => returns data next ∧ next.reader.sector = m.reader.sector ∧
        (next.reader.cacheBlock = some blockNo ∨ next.reader.cacheBlock = none ∨
          next.reader.cacheBlock = m.reader.cacheBlock))
      (fun _ next => E next) m := by
  unfold read
  simp only [ensures_bind, ensures_get]
  split
  · next hit => exact ⟨cached hit, rfl, Or.inl hit⟩
  · rw [ensures_bind]
    refine (transceiveWithRetry_rule survives m sends holds).mono ?_ (fun _ _ left => left)
    rintro raw next ⟨⟨stored, refused⟩, tracked, cache⟩
    rw [ensures_bind, ensures_orProtocol]
    refine ⟨fun answer parsed => ?_, fun error parsed => refused (by rw [parsed]; simp)⟩
    cases answer with
    | data data =>
      rw [ensures_bind, ensures_storeCache]
      refine ⟨stored data parsed, ?_, ?_⟩
      · unfold Machine.store
        split <;> exact tracked
      · unfold Machine.store
        split
        · exact Or.inl rfl
        · exact Or.inr cache
    | ack => exact refused (by rw [parsed]; simp)
    | nack code => exact refused (by rw [parsed]; simp)
    | passiveAck => exact refused (by rw [parsed]; simp)

/-- WRITE: the cache is dropped, and only an ACK is a success. -/
theorem write_rule (returns : Machine σ → Prop) (survives : SurvivesSelect t I E)
    (blockNo : UInt8) (data : Vector UInt8 4) (m : Machine σ) (holds : I m)
    (sends : SurvivesSend t I E (Command.write blockNo data).toBytes m.reader.sector fun raw next =>
      ((Command.write blockNo data).parseAnswer raw = .ok .ack → returns next.uncache) ∧
      ((Command.write blockNo data).parseAnswer raw ≠ .ok .ack → E next.uncache)) :
    Ensures (write t blockNo data)
      (fun _ next => returns next ∧ next.reader.sector = m.reader.sector ∧
        next.reader.cacheBlock = none)
      (fun _ next => E next) m := by
  unfold write
  rw [ensures_bind]
  refine (transceiveWithRetry_rule survives m sends holds).mono ?_ (fun _ _ left => left)
  rintro raw next ⟨⟨acked, refused⟩, tracked, -⟩
  rw [ensures_bind, ensures_invalidateCache]
  exact ensures_expectAck (fun ack => ⟨acked ack, tracked, rfl⟩) (fun nack _ => refused nack)

end

end NfcForumTags
