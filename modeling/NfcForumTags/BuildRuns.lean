import NfcForumTags.BuildAgreement
import NfcForumTags.FailedCalls

/-!
# Runs of the two builds

Only a full buffer tells the default build from the `alloc` build. Call for call, whatever
the transceiver answers, their runs have the same replies and leave the same reader and
exchanges, up to a call in which a buffer of the default build is full. That call has
written nothing, and the `alloc` build never makes such a reply.
-/
namespace NfcForumTags

open Program

section

variable {σ ε : Type} {t : Transceiver σ ε}

/-- What two builds do alike, they do alike inside a call. -/
theorem BuildsAgree.replied {α : Type} {program : Build → Operation σ ε α} {m : Machine σ}
    (agree : BuildsAgree program m) (reply : α → Reply) :
    BuildsAgree (fun build => do let value ← program build; return reply value) m := by
  rcases agree with same | ⟨next, recent, refused, trace, silent, before⟩
  · refine Or.inl ?_
    simp only [bind, EStateM.bind, same]
  · refine Or.inr ⟨next, recent, run_bind_error refused, trace, silent, ?_⟩
    exact (stateAfter_return (program .alloc) reply m).symm ▸ before

/-- Reading the data area runs alike in both builds, or ends with `BufferFull` and without a
WRITE. -/
theorem readDataArea_agrees (t : Transceiver σ ε) (layout : MemoryLayout) (m : Machine σ) :
    BuildsAgree (readDataArea · t layout) m := by
  rcases readDataArea_curtailed layout m with same | ⟨next, refused, before⟩
  · exact Or.inl same
  · have quiet := ((reads_noWrite .heapless t m.trace).readDataArea_rule layout m
      (logged_start m)).kept
    obtain ⟨recent, trace, silent⟩ := (quiet.failed refused).writesOf
    exact Or.inr ⟨next, recent, refused, trace, silent, before⟩

/-- Each public call. -/
theorem call_agrees (t : Transceiver σ ε) (call : Call) (m : Machine σ) :
    BuildsAgree (fun build => call.run build t) m := by
  cases call with
  | setMaxRetries _ | read _ | write _ _ | sectorSelect _ | readCc | invalidateCache
  | markTagStateUnknown =>
    exact Or.inl rfl
  | readDataArea layout => exact (readDataArea_agrees t layout m).replied .bytes
  | readNdef => exact (readNdef_agrees t m).replied .bytes
  | writeNdef ndefData => exact (writeNdef_agrees t ndefData m).replied fun _ => .done

/-- What agreement says of the ending and of the state left. -/
theorem BuildsAgree.ends {α : Type} {program : Build → Operation σ ε α} {m : Machine σ}
    (agree : BuildsAgree program m) :
    (outcome (program .heapless) m = outcome (program .alloc) m ∧
      stateAfter (program .heapless) m = stateAfter (program .alloc) m) ∨
    outcome (program .heapless) m = .error (.protocol .bufferFull) ∧
      Logged m.trace Exchange.NoWrite (stateAfter (program .heapless) m) ∧
      (stateAfter (program .heapless) m).trace <+: (stateAfter (program .alloc) m).trace := by
  rcases agree with same | ⟨next, recent, refused, trace, silent, before⟩
  · unfold outcome stateAfter
    rw [same]
    exact Or.inl ⟨rfl, rfl⟩
  · have left : stateAfter (program .heapless) m = next := by rw [stateAfter, refused]
    refine Or.inr ⟨by rw [outcome, refused], left ▸ ⟨recent, trace, fun exchange member => ?_⟩,
      left ▸ before⟩
    exact Bool.eq_false_iff.mpr (List.filter_eq_nil_iff.mp silent exchange member)

/-- The unbounded buffers are never full. -/
theorem call_neverFull {m : Machine σ} (selectable : Selectable m) (call : Call) :
    outcome (call.run .alloc t) m ≠ .error (.protocol .bufferFull) := by
  intro full
  have unbounded : ¬ Type2Error.FromBuffers .alloc .bufferFull :=
    fun bounded => bounded.2.elim (· rfl) (· rfl)
  have fails : Ensures (call.run .alloc t) _ _ m := call_fails selectable call
  have reports := (ensures_iff.mp fails).2 _ full
  cases call with
  | setMaxRetries _ | invalidateCache | markTagStateUnknown => exact reports
  | read _ | write _ _ => exact reports
  | sectorSelect _ => exact reports.elim id fun beyond => nomatch beyond.1
  | readCc => exact reports.elim id id
  | readDataArea _ =>
    exact reports.elim id fun reading => reading.elim (fun beyond => nomatch beyond.1) unbounded
  | readNdef =>
    exact reports.elim id fun other => other.elim id fun blocks => blocks.elim nofun unbounded
  | writeNdef _ =>
    rcases reports with answer | container | blocks | readOnly | beyond
    · exact answer
    · exact container
    · exact blocks.elim nofun unbounded
    · cases readOnly
    · cases beyond

/-- The runs of the builds up to a call in which a buffer of the default build is full. -/
structure FullAt (t : Transceiver σ ε) (m : Machine σ) (front : List Call)
    (call : Call) : Prop where
  replies : replies .heapless t front m = replies .alloc t front m
  machine : runCalls .heapless t front m = runCalls .alloc t front m
  full : outcome (call.run .heapless t) (runCalls .alloc t front m) = .error (.protocol .bufferFull)
  unwritten : Logged (runCalls .alloc t front m).trace Exchange.NoWrite
    (call.after .heapless t (runCalls .alloc t front m))
  exchanges : (call.after .heapless t (runCalls .alloc t front m)).trace <+:
    (call.after .alloc t (runCalls .alloc t front m)).trace

/-- Without a call the builds agree. -/
theorem runs_start (t : Transceiver σ ε) (m : Machine σ) :
    replies .heapless t [] m = replies .alloc t [] m ∧ runCalls .heapless t [] m =
      runCalls .alloc t [] m := by
  have ran : ∀ build, runCalls build t [] m = m := fun _ => rfl
  have told : ∀ build, replies build t [] m = [] := fun _ => rfl
  rw [ran, ran, told, told]
  exact ⟨rfl, rfl⟩

/-- A run is its first call and the rest behind it. -/
theorem runCalls_cons (build : Build) (t : Transceiver σ ε) (call : Call) (calls : List Call)
    (m : Machine σ) :
    runCalls build t (call :: calls) m = runCalls build t calls (call.after build t m) := rfl

/-- Two runs are the same in both builds, or the same up to a call that finds a buffer full.

Induction on the calls: as long as the builds agree they are in the same state. -/
theorem runs_same_or_full (t : Transceiver σ ε) (calls : List Call) (m : Machine σ) :
    (replies .heapless t calls m = replies .alloc t calls m ∧
      runCalls .heapless t calls m = runCalls .alloc t calls m) ∨
    ∃ front call back, calls = front ++ call :: back ∧ FullAt t m front call := by
  induction calls generalizing m with
  | nil => exact Or.inl (runs_start t m)
  | cons call calls inductionHypothesis =>
    rcases (call_agrees t call m).ends with ⟨reply, after⟩ | ⟨full, unwritten, exchanges⟩
    · have told : ∀ {rest}, replies .heapless t rest (call.after .alloc t m) =
          replies .alloc t rest (call.after .alloc t m) →
          replies .heapless t (call :: rest) m = replies .alloc t (call :: rest) m :=
        fun alike => congrArg₂ List.cons reply
          ((congrArg (replies .heapless t _) after).trans alike)
      have ran : ∀ rest, runCalls .heapless t (call :: rest) m =
          runCalls .heapless t rest (call.after .alloc t m) :=
        fun rest => (runCalls_cons _ _ _ _ _).trans (congrArg (runCalls .heapless t rest) after)
      rcases inductionHypothesis
        (call.after .alloc t m) with ⟨alike, machine⟩ | ⟨front, last, back, rfl, full⟩
      · exact Or.inl ⟨told alike, by rw [ran, runCalls_cons, machine]⟩
      · refine Or.inr ⟨call :: front, last, back, rfl, told full.replies, ?_, ?_, ?_, ?_⟩
        all_goals rw [runCalls_cons .alloc]
        · rw [ran, full.machine]
        · exact full.full
        · exact full.unwritten
        · exact full.exchanges
    · exact Or.inr ⟨[], call, calls, rfl, (runs_start t m).1, (runs_start t m).2, full,
        unwritten, exchanges⟩

/-- Over any transceiver, for any run of calls on a new reader: the builds reply alike and
leave the same reader and exchanges; or they do up to a call in which a buffer of the
default build is full, which has then sent nothing that the `alloc` build does not send,
and no WRITE. The `alloc` build never reports a full buffer.

Proof: induction on the calls, as long as both builds are in the same state; without a
capacity no push can fail. -/
theorem runs_agree (t : Transceiver σ ε) (state : σ) (calls : List Call) :
    ((replies .heapless t calls (.fresh state) = replies .alloc t calls (.fresh state) ∧
        runCalls .heapless t calls (.fresh state) = runCalls .alloc t calls (.fresh state)) ∨
      ∃ front call back, calls = front ++ call :: back ∧ FullAt t (.fresh state) front call) ∧
    ∀ reply ∈ replies .alloc t calls (.fresh state), reply ≠ .error (.protocol .bufferFull) := by
  refine ⟨runs_same_or_full t calls _, ?_⟩
  have selectable : Selectable (.fresh state) := fun sector known => by cases known; decide
  generalize Machine.fresh state = m at selectable
  induction calls generalizing m with
  | nil => exact fun _ member => nomatch member
  | cons call calls inductionHypothesis =>
    rw [replies, List.forall_mem_cons]
    exact ⟨call_neverFull selectable call, inductionHypothesis _
      ((selectable_keepsCalls .alloc t).call_rule call m selectable).always⟩

end

end NfcForumTags
