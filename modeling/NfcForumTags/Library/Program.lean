import Mathlib.Logic.Basic

/-!
# Programs that change a state and may fail

Rules of pre- and postconditions for `EStateM`. A program started in a state
either returns a value or fails with an error, and in both cases leaves a state
behind; `Ensures` states one condition for each ending. The rules follow the
program's syntax, so that a specification of each called program is used by name
and the program itself is never unfolded by its callers.
-/
namespace Program

variable {ε σ α β : Type}

/-- Started in `state`, the program returns with `returns` or fails with `fails`. -/
def Ensures (program : EStateM ε σ α) (returns : α → σ → Prop) (fails : ε → σ → Prop)
    (state : σ) : Prop :=
  match program state with
  | .ok value next => returns value next
  | .error error next => fails error next

variable {returns : α → σ → Prop} {fails : ε → σ → Prop} {state : σ}

/-- A value is returned in the state it finds. -/
@[simp] theorem ensures_pure (value : α) :
    Ensures (pure value : EStateM ε σ α) returns fails state ↔ returns value state := Iff.rfl

/-- An error is thrown in the state it finds. -/
@[simp] theorem ensures_throw (error : ε) :
    Ensures (throw error : EStateM ε σ α) returns fails state ↔ fails error state := Iff.rfl

/-- `get` returns the state. -/
@[simp] theorem ensures_get {returns : σ → σ → Prop} :
    Ensures (get : EStateM ε σ σ) returns fails state ↔ returns state state := Iff.rfl

/-- `modify` changes it. -/
@[simp] theorem ensures_modify {returns : PUnit → σ → Prop} (change : σ → σ) :
    Ensures (modify change : EStateM ε σ PUnit) returns fails state ↔
      returns ⟨⟩ (change state) := Iff.rfl

/-- Sequencing: the second program is started in the state the first leaves. -/
@[simp] theorem ensures_bind {returns : β → σ → Prop} (first : EStateM ε σ α)
    (rest : α → EStateM ε σ β) :
    Ensures (first >>= rest) returns fails state ↔
      Ensures first (fun value next => Ensures (rest value) returns fails next) fails state := by
  simp only [Ensures, bind, EStateM.bind]
  cases first state <;> rfl

/-- A specification may be weakened at both endings. -/
theorem Ensures.mono {program : EStateM ε σ α} {returns' : α → σ → Prop} {fails' : ε → σ → Prop}
    (ensured : Ensures program returns fails state)
    (onReturn : ∀ value next, returns value next → returns' value next)
    (onFail : ∀ error next, fails error next → fails' error next) :
    Ensures program returns' fails' state := by
  unfold Ensures at ensured ⊢
  cases result : program state with
  | ok value next =>
    rw [result] at ensured
    exact onReturn value next ensured
  | error error next =>
    rw [result] at ensured
    exact onFail error next ensured

/-- Sequencing with a specification of the first program at hand. -/
theorem Ensures.bind {returns' : β → σ → Prop} {first : EStateM ε σ α}
    {rest : α → EStateM ε σ β} {fails' : ε → σ → Prop} (ensured : Ensures first returns fails state)
    (onFail : ∀ error next, fails error next → fails' error next)
    (onReturn : ∀ value next, returns value next → Ensures (rest value) returns' fails' next) :
    Ensures (first >>= rest) returns' fails' state :=
  (ensures_bind first rest).mpr (ensured.mono onReturn onFail)

/-- What holds of everything is ensured of every program. -/
theorem ensures_always {program : EStateM ε σ α} (onReturn : ∀ value next, returns value next)
    (onFail : ∀ error next, fails error next) : Ensures program returns fails state := by
  unfold Ensures
  cases program state with
  | ok value next => exact onReturn value next
  | error error next => exact onFail error next

/-- Two specifications of one program hold together. -/
theorem Ensures.and {program : EStateM ε σ α} {returns' : α → σ → Prop} {fails' : ε → σ → Prop}
    (left : Ensures program returns fails state) (right : Ensures program returns' fails' state) :
    Ensures program (fun value next => returns value next ∧ returns' value next)
      (fun error next => fails error next ∧ fails' error next) state := by
  unfold Ensures at left right ⊢
  cases result : program state with
  | ok value next =>
    rw [result] at left right
    exact ⟨left, right⟩
  | error error next =>
    rw [result] at left right
    exact ⟨left, right⟩

/-- What is ensured of a program holds of the run that returned. -/
theorem Ensures.returned {program : EStateM ε σ α} {value : α} {next : σ}
    (ensured : Ensures program returns fails state) (run : program state = .ok value next) :
    returns value next := by
  unfold Ensures at ensured
  rwa [run] at ensured

/-- What is ensured of a program holds of the run that failed. -/
theorem Ensures.failed {program : EStateM ε σ α} {error : ε} {next : σ}
    (ensured : Ensures program returns fails state) (run : program state = .error error next) :
    fails error next := by
  unfold Ensures at ensured
  rwa [run] at ensured

/-- A program that cannot fail returns. -/
theorem Ensures.exists_run {program : EStateM ε σ α}
    (ensured : Ensures program returns (fun _ _ => False) state) :
    ∃ value next, program state = .ok value next ∧ returns value next := by
  cases run : program state with
  | ok value next => exact ⟨value, next, rfl, ensured.returned run⟩
  | error error next => exact (ensured.failed run).elim

/-- A program whose every ending is one value and one state has that run. -/
theorem Ensures.run_eq {program : EStateM ε σ α} {value : α} {next : σ}
    (ensured : Ensures program (fun returned left => returned = value ∧ left = next)
      (fun _ _ => False) state) : program state = .ok value next := by
  obtain ⟨returned, left, run, rfl, rfl⟩ := ensured.exists_run
  exact run

/-- The state a run leaves behind, whichever way it ends. -/
def stateAfter (program : EStateM ε σ α) (state : σ) : σ :=
  match program state with
  | .ok _ next => next
  | .error _ next => next

/-- The value or the error a run ends with. -/
def outcome (program : EStateM ε σ α) (state : σ) : Except ε α :=
  match program state with
  | .ok value _ => .ok value
  | .error error _ => .error error

/-- A condition ensured at both endings holds of the state left behind. -/
theorem Ensures.always {program : EStateM ε σ α} {always : σ → Prop}
    (ensured : Ensures program (fun _ => always) (fun _ => always) state) :
    always (stateAfter program state) := by
  unfold Ensures at ensured
  unfold stateAfter
  cases result : program state with
  | ok value next => rwa [result] at ensured
  | error error next => rwa [result] at ensured

/-- Each ending determines the outcome and the state left behind together. -/
theorem ensures_iff {program : EStateM ε σ α} :
    Ensures program returns fails state ↔
      (∀ value, outcome program state = .ok value → returns value (stateAfter program state)) ∧
      (∀ error, outcome program state = .error error → fails error (stateAfter program state)) := by
  unfold Ensures outcome stateAfter
  cases program state with
  | ok value next => simp
  | error error next => simp

/-- A sequence that reads the state goes on with it. -/
theorem run_get_bind (rest : σ → EStateM ε σ α) (state : σ) :
    (get >>= rest) state = rest state state := rfl

/-- A sequence goes on with the value its first program returns. -/
theorem run_bind_ok {first : EStateM ε σ α} {rest : α → EStateM ε σ β} {value : α} {next : σ}
    (run : first state = .ok value next) : (first >>= rest) state = rest value next := by
  simp only [bind, EStateM.bind, run]

/-- A sequence ends with the error its first program fails with. -/
theorem run_bind_error {first : EStateM ε σ α} {rest : α → EStateM ε σ β} {error : ε} {next : σ}
    (run : first state = .error error next) : (first >>= rest) state = .error error next := by
  simp only [bind, EStateM.bind, run]

/-- Returning something else leaves the same state. -/
theorem stateAfter_return (program : EStateM ε σ α) (f : α → β) (state : σ) :
    stateAfter (do let value ← program; return f value) state = stateAfter program state := by
  unfold stateAfter
  cases run : program state with
  | ok value next => rw [run_bind_ok run]; rfl
  | error error next => rw [run_bind_error run]

/-- A function is applied to the value returned. -/
theorem run_map_ok {program : EStateM ε σ α} {value : α} {next : σ} (f : α → β)
    (run : program state = .ok value next) : (f <$> program) state = .ok (f value) next := by
  rw [map_eq_pure_bind, run_bind_ok run]
  rfl

/-! ## Programs that keep an invariant -/

section Preserves

variable {I : σ → Prop} {program : EStateM ε σ α}

/-- The program leaves the invariant, whichever way it ends. -/
def Preserves (I : σ → Prop) (program : EStateM ε σ α) : Prop :=
  ∀ state, I state → Ensures program (fun _ => I) (fun _ => I) state

/-- Returning a value keeps any invariant. -/
theorem preserves_pure (value : α) : Preserves I (pure value : EStateM ε σ α) :=
    fun _ holds => holds

/-- So does throwing an error. -/
theorem preserves_throw (error : ε) : Preserves I (throw error : EStateM ε σ α) :=
    fun _ holds => holds

/-- So does looking at the state. -/
theorem preserves_get : Preserves I (get : EStateM ε σ σ) := fun _ holds => holds

/-- A change keeps the invariants that it keeps as a function. -/
theorem preserves_modify {change : σ → σ} (keeps : ∀ state, I state → I (change state)) :
    Preserves I (modify change : EStateM ε σ PUnit) := keeps

/-- A sequence keeps the invariant when its parts do. -/
theorem Preserves.bind {first : EStateM ε σ α} {rest : α → EStateM ε σ β} (head : Preserves I first)
    (tail : ∀ value, Preserves I (rest value)) : Preserves I (first >>= rest) :=
  fun state holds => (head state holds).bind (fun _ _ kept => kept)
    fun value next kept => tail value next kept

end Preserves

/-! ## Two programs side by side -/

section Together

variable {related related' : σ → σ → Prop} {left right : EStateM ε σ α} {state' : σ}

/-- Two programs, each from its own state, end with the same value or the same error
and leave related states. -/
def Together (left right : EStateM ε σ α) (related : σ → σ → Prop) (state state' : σ) : Prop :=
  outcome left state = outcome right state' ∧
    related (stateAfter left state) (stateAfter right state')

/-- The same value is returned on both sides. -/
theorem together_pure (value : α) (holds : related state state') :
    Together (pure value : EStateM ε σ α) (pure value) related state state' := ⟨rfl, holds⟩

/-- The same error is thrown on both sides. -/
theorem together_throw (error : ε) (holds : related state state') :
    Together (throw error : EStateM ε σ α) (throw error) related state state' := ⟨rfl, holds⟩

/-- Two programs that return one value. -/
theorem together_of_ok {value : α} {next next' : σ} (leftRun : left state = .ok value next)
    (rightRun : right state' = .ok value next') (holds : related next next') :
    Together left right related state state' := by
  unfold Together outcome stateAfter
  rw [leftRun, rightRun]
  exact ⟨rfl, holds⟩

/-- Programs in sequence stay together while their parts do. -/
theorem Together.bind {rest rest' : α → EStateM ε σ β}
    (first : Together left right related state state')
    (failed : ∀ next next', related next next' → related' next next')
    (onward : ∀ value next next', related next next' →
      Together (rest value) (rest' value) related' next next') :
    Together (left >>= rest) (right >>= rest') related' state state' := by
  obtain ⟨same, holds⟩ := first
  unfold outcome at same
  unfold stateAfter at holds
  cases leftRun : left state with
  | ok value next =>
    cases rightRun : right state' with
    | ok value' next' =>
      rw [leftRun, rightRun] at same holds
      obtain rfl := Except.ok.inj same
      unfold Together outcome stateAfter
      rw [run_bind_ok leftRun, run_bind_ok rightRun]
      exact onward value next next' holds
    | error error' next' =>
      rw [leftRun, rightRun] at same
      cases same
  | error error next =>
    cases rightRun : right state' with
    | ok value' next' =>
      rw [leftRun, rightRun] at same
      cases same
    | error error' next' =>
      rw [leftRun, rightRun] at same holds
      obtain rfl := Except.error.inj same
      unfold Together outcome stateAfter
      rw [run_bind_error leftRun, run_bind_error rightRun]
      exact ⟨rfl, failed next next' holds⟩

end Together

end Program
