import NfcForumTags.BlockWalk

/-!
# What exchanges cost

When every exchange has a weight, a run costs the weights of its exchanges. Whatever the
transceiver answers, a command with its retries costs no more than an attempt that is
answered and, for each retry, one that is lost and the two packets of a selection.
-/
namespace NfcForumTags

open Program

section

variable {σ ε : Type} {weigh : Exchange σ → Nat} {build : Build} {m : Machine σ}

/-- The weight of all exchanges. -/
def Machine.weight (weigh : Exchange σ → Nat) (m : Machine σ) : Nat := (m.trace.map weigh).sum

/-- When all weigh the same, the exchanges are counted. -/
theorem weight_one (m : Machine σ) : m.weight (fun _ => 1) = m.trace.length := by
  simp [Machine.weight]

/-- At most so much weight later, with the number of retries as it was. -/
structure Machine.Spends (weigh : Exchange σ → Nat) (m : Machine σ) (cost : Nat)
    (next : Machine σ) : Prop where
  weight : next.weight weigh ≤ m.weight weigh + cost
  retries : next.reader.maxRetries = m.reader.maxRetries

/-- What two operations spend adds up. -/
theorem Machine.Spends.trans {cost more : Nat} {next last : Machine σ}
    (before : m.Spends weigh cost next)
    (after : next.Spends weigh more last) : m.Spends weigh (cost + more) last :=
  ⟨by have := before.weight; have := after.weight; omega, after.retries.trans before.retries⟩

/-- What spends few exchanges spends no more than many. -/
theorem Machine.Spends.mono {cost most : Nat} {next : Machine σ} (spends : m.Spends weigh cost next)
    (few : cost ≤ most) : m.Spends weigh most next :=
  ⟨spends.weight.trans (Nat.add_le_add_left few _), spends.retries⟩

/-- One exchange costs its weight. -/
theorem spends_exchanged {cost : Nat} (m : Machine σ) (frame : Frame) (after : σ)
    (weight : weigh ⟨m.serving, frame, m.reader.transceiver, after, m.reader.sector⟩ ≤ cost) :
    m.Spends weigh cost (m.exchanged frame after) := by
  refine ⟨?_, rfl⟩
  unfold Machine.weight Machine.exchanged
  rw [List.map_append, List.sum_append]
  exact Nat.add_le_add_left (by simpa using weight) _

/-- What is not an exchange costs nothing. -/
theorem spends_stored (build : Build) (block : UInt8) (data : Vector UInt8 16) :
    m.Spends weigh 0 (m.store build block data) := by
  unfold Machine.store
  split <;> exact ⟨Nat.le_refl _, rfl⟩

/-! ## Selections -/

section

variable {packet : Nat} (packets : ∀ exchange : Exchange σ, exchange.frame.isTransfer = false →
  weigh exchange ≤ packet)
include packets

/-- A selection sends two packets at most. -/
theorem forceSectorSelect_spends (t : Transceiver σ ε) (sector : UInt8) (m : Machine σ) :
    Ensures (forceSectorSelect t sector)
      (fun _ next => m.Spends weigh (2 * packet) next ∧ next.reader.sector = .known sector)
      (fun _ next => m.Spends weigh (2 * packet) next) m := by
  have stays : m.Spends weigh (2 * packet) m := ⟨Nat.le_add_right _ _, rfl⟩
  have given : m.Spends weigh 0 m.forget := ⟨Nat.le_refl _, rfl⟩
  have first : m.Spends weigh packet (m.forget.sent t Command.sectorSelectPart1.toBytes) :=
    (given.trans (spends_exchanged m.forget _ _ (packets _ rfl))).mono (by omega)
  have second : m.Spends weigh (2 * packet)
      ((m.forget.sent t Command.sectorSelectPart1.toBytes).sentPacket t
      (Command.sectorSelectPart2 sector).toBytes) :=
    (first.trans (spends_exchanged _ _ _ (packets _ rfl))).mono (by omega)
  unfold forceSectorSelect
  rw [ensures_bind, ensures_refuseIf]
  refine ⟨fun _ => ?_, fun _ => stays⟩
  rw [ensures_invalidate_unknown]
  simp only [ensures_bind, ensures_sendCommand, ensures_orTransceiver]
  have one := first.mono (by omega : packet ≤ 2 * packet)
  refine ⟨fun raw _ => ensures_expectAck (fun _ => ?_) fun _ _ => one, fun _ _ => one⟩
  simp only [ensures_sendPacket]
  refine ⟨fun nack _ => ?_, fun _ _ => second⟩
  cases nack with
  | none => exact ⟨⟨second.weight, second.retries⟩, rfl⟩
  | some code => exact second

/-- A selection spends two packets at most, and ends with its sector tracked. -/
theorem sectorSelect_spends (t : Transceiver σ ε) (sector : UInt8) (m : Machine σ) :
    Ensures (sectorSelect t sector)
      (fun _ next => m.Spends weigh (2 * packet) next ∧ next.reader.sector = .known sector)
      (fun _ next => m.Spends weigh (2 * packet) next) m := by
  have stays : m.Spends weigh (2 * packet) m := ⟨Nat.le_add_right _ _, rfl⟩
  unfold sectorSelect
  simp only [ensures_bind, ensures_refuseIf, ensures_get]
  refine ⟨fun _ => ?_, fun _ => stays⟩
  split
  · next known => exact ⟨stays, known⟩
  · exact forceSectorSelect_spends packets t sector m

/-! ## Commands -/

variable {t : Transceiver σ ε} {cmd : List UInt8} {lost answered : Nat} {intended : SectorState}
  (losing : ∀ (exchange : Exchange σ) (error : ε), exchange.frame = .command cmd →
    exchange.sector = intended →
    (t.transceive cmd exchange.before).1 = .error error → weigh exchange ≤ lost)
  (answering : ∀ (exchange : Exchange σ) (raw : List UInt8), exchange.frame = .command cmd →
    exchange.sector = intended → (t.transceive cmd exchange.before).1 = .ok raw →
      weigh exchange ≤ answered)
  (cheaper : lost ≤ answered)
include losing answering cheaper

/-- Every attempt after the first is a selection and a command.

Induction on the number of attempts. -/
theorem retryTransceive_spends (remaining : Nat) (lastErr : ε) (m : Machine σ) :
    Ensures (retryTransceive t intended cmd remaining lastErr)
      (fun _ next => m.Spends weigh (remaining * (2 * packet + lost) + (answered - lost)) next)
      (fun _ next => m.Spends weigh (remaining * (2 * packet + lost) + (answered - lost)) next)
        m := by
  induction remaining generalizing lastErr m with
  | zero => exact ⟨Nat.le_add_right _ _, rfl⟩
  | succ remaining inductionHypothesis =>
    rw [Nat.succ_mul]
    cases intended with
    | unknown => exact ⟨Nat.le_add_right _ _, rfl⟩
    | known sector =>
      refine (forceSectorSelect_spends packets t sector m).bind
        (fun _ _ left => left.mono (by omega)) ?_
      rintro - selected ⟨left, known⟩
      rw [ensures_bind, ensures_sendCommand]
      cases attempted : (t.transceive cmd selected.reader.transceiver).1 with
      | ok raw =>
        have attempt := left.trans (spends_exchanged selected (.command cmd)
          (t.transceive cmd selected.reader.transceiver).2 (answering _ raw rfl known attempted))
        exact attempt.mono (by omega)
      | error error =>
        dsimp only
        rw [ensures_unknown_invalidate]
        have attempt := left.trans (spends_exchanged selected (.command cmd)
          (t.transceive cmd selected.reader.transceiver).2 (losing _ error rfl known attempted))
        exact (inductionHypothesis error _).mono
          (fun _ _ after => (attempt.trans ⟨after.weight, after.retries⟩).mono (by omega))
          (fun _ _ after => (attempt.trans ⟨after.weight, after.retries⟩).mono (by omega))

/-- A command with its retries. -/
theorem transceiveWithRetry_spends (m : Machine σ) (tracked : m.reader.sector = intended) :
    let cost := m.reader.maxRetries.toNat * (2 * packet + lost) + answered
    Ensures (transceiveWithRetry t cmd) (fun _ next => m.Spends weigh cost next)
      (fun _ next => m.Spends weigh cost next) m := by
  intro cost
  unfold transceiveWithRetry
  simp only [ensures_bind, ensures_get, ensures_sendCommand]
  cases attempted : (t.transceive cmd m.reader.transceiver).1 with
  | ok raw =>
    exact (spends_exchanged m (.command cmd) _ (answering _ raw rfl tracked attempted)).mono
      (Nat.le_add_left _ _)
  | error error =>
    dsimp only
    rw [ensures_unknown_invalidate, tracked]
    have attempt := spends_exchanged m (.command cmd) (t.transceive cmd m.reader.transceiver).2
      (losing _ error rfl tracked attempted)
    have retried := retryTransceive_spends packets losing answering cheaper
      m.reader.maxRetries.toNat error
      (m.sent t cmd).forget
    exact retried.mono
      (fun _ _ after => (attempt.trans ⟨after.weight, after.retries⟩).mono (by omega))
      (fun _ _ after => (attempt.trans ⟨after.weight, after.retries⟩).mono (by omega))

end

section

variable {packet lost answered : Nat} {t : Transceiver σ ε}

/-- READ costs a command, or nothing. -/
theorem read_spends (packets : ∀ exchange : Exchange σ, exchange.frame.isTransfer = false →
      weigh exchange ≤ packet)
    (block : UInt8) (m : Machine σ)
    (losing : ∀ exchange : Exchange σ, exchange.frame = .command (Command.read block).toBytes →
      weigh exchange ≤ lost)
    (build : Build) :
    let cost := m.reader.maxRetries.toNat * (2 * packet + lost) + lost
    Ensures (read build t block) (fun _ next => m.Spends weigh cost next)
      (fun _ next => m.Spends weigh cost next) m := by
  intro cost
  unfold read
  rw [ensures_bind, ensures_get]
  dsimp only
  split
  · exact ⟨Nat.le_add_right _ _, rfl⟩
  rw [ensures_bind]
  refine (transceiveWithRetry_spends packets (fun exchange _ frame _ _ => losing exchange frame)
    (fun exchange _ frame _ _ => losing exchange frame) (Nat.le_refl lost) m rfl).mono ?_
      fun _ _ left => left
  intro raw next spends
  rw [ensures_bind, ensures_orProtocol]
  refine ⟨fun answer _ => ?_, fun _ _ => spends⟩
  cases answer with
  | data data =>
    rw [ensures_bind, ensures_storeCache]
    exact spends.trans (spends_stored build block data)
  | ack | nack _ | passiveAck => exact spends

end

end

end NfcForumTags
