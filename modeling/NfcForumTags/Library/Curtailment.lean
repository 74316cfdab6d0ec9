import NfcForumTags.Library.Program
import Mathlib.Data.List.Basic

/-!
# Computations that may give up

A computation with less room than another one ends as that one does, or gives up with
one particular error. For a program that keeps a log, giving up means that its log is a
prefix of the other program's. Both relations follow the syntax of sequences, so that
it is enough to compare the single steps.
-/
namespace Program

variable {ε σ τ α β : Type}

/-! ## Results -/

/-- The result is the full one, or the error of giving up. -/
def Curtailed (gaveUp : ε) (short full : Except ε α) : Prop := short = full ∨ short = .error gaveUp

variable {gaveUp : ε}

/-- A result is curtailed by nothing to itself. -/
theorem Curtailed.refl (result : Except ε α) : Curtailed gaveUp result result := Or.inl rfl

/-- Steps that may give up make a sequence that may give up. -/
theorem Curtailed.bind {short full : Except ε α} {rest rest' : α → Except ε β}
    (first : Curtailed gaveUp short full)
    (onward : ∀ value, short = .ok value → Curtailed gaveUp (rest value) (rest' value)) :
    Curtailed gaveUp (short >>= rest) (full >>= rest') := by
  rcases first with rfl | refused
  · cases short with
    | ok value => exact onward value rfl
    | error error => exact Or.inl rfl
  · rw [refused]
    exact Or.inr rfl

/-! ## Runs -/

/-- The run is the full one, or gives up at a state whose log the full run extends. -/
def CurtailedRun (log : σ → List τ) (gaveUp : ε) (short full : EStateM ε σ α) (state : σ) : Prop :=
  short state = full state ∨
    ∃ next, short state = .error gaveUp next ∧ log next <+: log (stateAfter full state)

variable {log : σ → List τ} {short full : EStateM ε σ α}
  {rest rest' : α → EStateM ε σ β} {state : σ}

/-- Neither is a run. -/
theorem CurtailedRun.refl (program : EStateM ε σ α) (state : σ) :
    CurtailedRun log gaveUp program program state := Or.inl rfl

/-- Runs that begin with one step that both make. -/
theorem CurtailedRun.after {first : EStateM ε σ α}
    (onward : ∀ value next, first state = .ok value next →
      CurtailedRun log gaveUp (rest value) (rest' value) next) :
    CurtailedRun log gaveUp (first >>= rest) (first >>= rest') state := by
  cases run : first state with
  | error error next => exact Or.inl ((run_bind_error run).trans (run_bind_error run).symm)
  | ok value next =>
    unfold CurtailedRun stateAfter
    rw [run_bind_ok run, run_bind_ok run]
    exact onward value next run

/-- Steps that may give up make a sequence that may give up, if the log of the full
rest only grows. -/
theorem CurtailedRun.bind (first : CurtailedRun log gaveUp short full state)
    (grows : ∀ value next, full state = .ok value next →
      log next <+: log (stateAfter (rest' value) next))
    (onward : ∀ value next, short state = .ok value next →
      CurtailedRun log gaveUp (rest value) (rest' value) next) :
    CurtailedRun log gaveUp (short >>= rest) (full >>= rest') state := by
  rcases first with same | ⟨left, refused, before⟩
  · cases run : full state with
    | error error next =>
      exact Or.inl ((run_bind_error (same.trans run)).trans (run_bind_error run).symm)
    | ok value next =>
      unfold CurtailedRun stateAfter
      rw [run_bind_ok (same.trans run), run_bind_ok run]
      exact onward value next (same.trans run)
  · refine Or.inr ⟨left, run_bind_error refused, ?_⟩
    unfold stateAfter at before ⊢
    cases run : full state with
    | error error next =>
      rw [run] at before
      rwa [run_bind_error run]
    | ok value next =>
      rw [run] at before
      rw [run_bind_ok run]
      exact before.trans (grows value next run)

end Program
