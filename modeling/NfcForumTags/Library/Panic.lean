import NfcForumTags.Library.Program
import Mathlib.Data.List.Basic
import Mathlib.Algebra.Group.Nat.Defs
import Mathlib.Algebra.GroupWithZero.Nat

/-!
# Computations that may panic

Machine arithmetic, indexing and slicing as they are in a checked build: a result that
leaves its width, an index or a range outside its sequence and a missing value stop the
computation with a panic. A loop whose end is not certain is given a bound on its rounds
and stops when the bound is used up. Such a computation agrees with a plain one if it has
the plain one's values and errors, and so never stops in either of these ways.
-/
namespace Panic

open Program

/-- Why a computation has no value: a panic, a loop that did not end within its bound, or
an error it returns. -/
inductive Stop (ε : Type) where
  | panic
  | hang
  | error (error : ε)
deriving DecidableEq

variable {ε ε' σ α β : Type}

/-- `map_err`. -/
def Stop.map (f : ε → ε') : Stop ε → Stop ε'
  | .panic => .panic
  | .hang => .hang
  | .error own => .error (f own)

/-! ## Checked operations -/

/-- Addition of a type with this largest value. -/
def add (max a b : Nat) : Except (Stop ε) Nat := if a + b ≤ max then .ok (a + b) else .error .panic

/-- `checked_add`. -/
def checkedAdd (max a b : Nat) : Option Nat := if a + b ≤ max then some (a + b) else none

/-- Subtraction of an unsigned type. -/
def sub (a b : Nat) : Except (Stop ε) Nat := if b ≤ a then .ok (a - b) else .error .panic

/-- A product that panics above the largest value of its type. -/
def mul (max a b : Nat) : Except (Stop ε) Nat := if a * b ≤ max then .ok (a * b) else .error .panic

/-- A shift by fewer places than the type has bits; bits shifted out are lost. -/
def shiftLeft (bits a amount : Nat) : Except (Stop ε) Nat :=
  if amount < bits then .ok (a * 2 ^ amount % 2 ^ bits) else .error .panic

/-- `data[i]`. -/
def index (data : List α) (i : Nat) : Except (Stop ε) α :=
  match data[i]? with
  | some value => .ok value
  | none => .error .panic

/-- `[data[start], data[start + 1], …]`, an array of `n` elements. -/
def indexEach (max n : Nat) (data : List α) (start : Nat) : Except (Stop ε) (Vector α n) :=
  Vector.ofFnM fun i : Fin n => do index data (← add max start i.val)

/-- `&data[start..stop]`. -/
def slice (data : List α) (start stop : Nat) : Except (Stop ε) (List α) :=
  if start ≤ stop ∧ stop ≤ data.length then .ok ((data.drop start).take (stop - start))
  else .error .panic

/-- `copy_from_slice(&data[start..stop])` into an array of `n` elements. -/
def copyFromSlice (n : Nat) (data : List α) (start stop : Nat) : Except (Stop ε) (Vector α n) := do
  let part ← slice data start stop
  if exact : part.length = n then .ok ⟨part.toArray, by simpa using exact⟩ else .error .panic

/-- `unwrap`. -/
def unwrap : Option α → Except (Stop ε) α
  | some value => .ok value
  | none => .error .panic

/-- A sum that fits its type is computed. -/
theorem add_ok {max a b : Nat} (room : a + b ≤ max) :
    (add max a b : Except (Stop ε) Nat) = .ok (a + b) := if_pos room

/-- So is a `checked_add`. -/
theorem checkedAdd_some {max a b : Nat} (room : a + b ≤ max) :
    checkedAdd max a b = some (a + b) := if_pos room

/-- A difference that is not negative is computed. -/
theorem sub_ok {a b : Nat} (enough : b ≤ a) :
    (sub a b : Except (Stop ε) Nat) = .ok (a - b) := if_pos enough

/-- A product that fits its type is computed. -/
theorem mul_ok {max a b : Nat} (room : a * b ≤ max) :
    (mul max a b : Except (Stop ε) Nat) = .ok (a * b) := if_pos room

/-- A shift that loses no bits is a multiplication. -/
theorem shiftLeft_ok {bits a amount : Nat} (few : amount < bits)
    (room : a * 2 ^ amount < 2 ^ bits) :
    (shiftLeft bits a amount : Except (Stop ε) Nat) = .ok (a * 2 ^ amount) := by
  rw [shiftLeft, if_pos few, Nat.mod_eq_of_lt room]

/-- An index in range finds its element. -/
theorem index_ok {data : List α} {i : Nat} (inside : i < data.length) :
    (index data i : Except (Stop ε) α) = .ok data[i] := by
  rw [index, List.getElem?_eq_getElem inside]

/-- The elements from `start` on, where the data has `n` of them. -/
theorem indexEach_ok {max n : Nat} {data : List α} {start : Nat} (addressable : data.length ≤ max)
    (inside : start + n ≤ data.length) :
    (indexEach max n data start : Except (Stop ε) (Vector α n)) =
      .ok (Vector.ofFn fun i : Fin n =>
        have short : start + i.val < data.length := by omega
        data[start + i.val]) := by
  have each : (fun i : Fin n => (do index data (← add max start i.val) : Except (Stop ε) α)) =
      pure ∘ fun i : Fin n =>
        have short : start + i.val < data.length := by omega
        data[start + i.val] := by
    funext i
    have short : start + i.val < data.length := by omega
    rw [add_ok (by omega)]
    exact index_ok short
  unfold indexEach
  rw [each]
  exact Vector.ofFnM_pure_comp

/-- A range in order and inside the data is a slice. -/
theorem slice_ok {data : List α} {start stop : Nat} (order : start ≤ stop)
    (inside : stop ≤ data.length) :
    (slice data start stop : Except (Stop ε) (List α)) =
      .ok ((data.drop start).take (stop - start)) :=
  if_pos ⟨order, inside⟩

/-- A range of `n` elements is copied to the array of them. -/
theorem copyFromSlice_ok {n : Nat} {data : List α} {start : Nat}
    (inside : start + n ≤ data.length) :
    (copyFromSlice n data start (start + n) : Except (Stop ε) (Vector α n)) =
      .ok (Vector.ofFn fun i : Fin n =>
        have short : start + i.val < data.length := by omega
        data[start + i.val]) := by
  have exact : ((data.drop start).take (start + n - start)).length = n := by
    rw [List.length_take, List.length_drop]
    omega
  unfold copyFromSlice
  rw [slice_ok (Nat.le_add_right _ _) inside]
  refine (dif_pos exact).trans (congrArg Except.ok ?_)
  ext i short
  simp [List.getElem_take, List.getElem_drop]

/-! ## Agreement of results -/

/-- A result that does not panic. -/
def ofResult : Except ε α → Except (Stop ε) α
  | .ok value => .ok value
  | .error error => .error (.error error)

/-- The checked result is the plain one. -/
def Agrees (checked : Except (Stop ε) α) (plain : Except ε α) : Prop := checked = ofResult plain

variable {checked : Except (Stop ε) α} {plain : Except ε α}

/-- A plain result agrees with itself. -/
theorem agrees_ofResult (plain : Except ε α) : Agrees (ofResult plain) plain := rfl

/-- So does a value. -/
theorem agrees_ok (value : α) : Agrees (.ok value : Except (Stop ε) α) (.ok value) := rfl

/-- So does an error, which is no panic. -/
theorem agrees_error (error : ε) : Agrees (.error (.error error) : Except (Stop ε) α)
    (.error error) := rfl

/-- Agreement of the steps of a sequence. -/
theorem Agrees.bind {rest : α → Except (Stop ε) β} {rest' : α → Except ε β}
    (first : Agrees checked plain)
    (onward : ∀ value, plain = .ok value → Agrees (rest value) (rest' value)) :
    Agrees (checked >>= rest) (plain >>= rest') := by
  unfold Agrees at first
  cases plain with
  | ok value =>
    rw [first]
    exact onward value rfl
  | error error =>
    rw [first]
    rfl

/-- A checked step that has a value. -/
theorem Agrees.value {rest : α → Except (Stop ε) β} {plain : Except ε β} {value : α}
    (done : checked = .ok value) (onward : Agrees (rest value) plain) :
    Agrees (checked >>= rest) plain := by
  rw [done]
  exact onward

/-- Agreement of both branches of a condition. -/
theorem Agrees.ite {condition : Prop} [Decidable condition] {checked' : Except (Stop ε) α}
    {plain' : Except ε α} (taken : condition → Agrees checked plain)
    (left : ¬ condition → Agrees checked' plain') :
    Agrees (if condition then checked else checked') (if condition then plain else plain') := by
  by_cases holds : condition
  · rw [if_pos holds, if_pos holds]
    exact taken holds
  · rw [if_neg holds, if_neg holds]
    exact left holds

/-- Agreement outlasts a change of the errors. -/
theorem Agrees.mapError (agrees : Agrees checked plain) (f : ε → ε') :
    Agrees (checked.mapError (Stop.map f)) (plain.mapError f) := by
  unfold Agrees at agrees ⊢
  rw [agrees]
  cases plain with
  | ok value => rfl
  | error error => rfl

/-- What agrees with a value is that value. -/
theorem Agrees.ok {value : α} (agrees : Agrees checked (.ok value)) : checked = .ok value := agrees

/-! ## Agreement of runs -/

/-- A program without a panicking operation. -/
def ofProgram (program : EStateM ε σ α) : EStateM (Stop ε) σ α := fun state =>
  match program state with
  | .ok value next => .ok value next
  | .error error next => .error (.error error) next

/-- Started in `state`, the checked program runs as the plain one. -/
def RunsAs (checked : EStateM (Stop ε) σ α) (plain : EStateM ε σ α) (state : σ) : Prop :=
  checked state = ofProgram plain state

/-- The program returns a value or an error of its own. -/
def Returns (checked : EStateM (Stop ε) σ α) (state : σ) : Prop :=
  (∃ value next, checked state = .ok value next) ∨
    ∃ error next, checked state = .error (.error error) next

section

variable {checked : EStateM (Stop ε) σ α} {plain : EStateM ε σ α} {state : σ}

/-- A plain program runs as itself. -/
theorem runsAs_ofProgram (plain : EStateM ε σ α) (state : σ) :
    RunsAs (ofProgram plain) plain state := rfl

/-- So does a value that is returned. -/
theorem runsAs_pure (value : α) (state : σ) :
    RunsAs (pure value : EStateM (Stop ε) σ α) (pure value) state := rfl

/-- So does an error that is thrown. -/
theorem runsAs_throw (error : ε) (state : σ) :
    RunsAs (throw (.error error) : EStateM (Stop ε) σ α) (throw error) state := rfl

/-- What runs as a plain program returns. -/
theorem RunsAs.returns (runs : RunsAs checked plain state) : Returns checked state := by
  unfold RunsAs ofProgram at runs
  cases run : plain state with
  | ok value next => exact Or.inl ⟨value, next, by rw [runs, run]⟩
  | error error next => exact Or.inr ⟨error, next, by rw [runs, run]⟩

/-- Agreement of the steps of a sequence. -/
theorem RunsAs.bind {rest : α → EStateM (Stop ε) σ β} {rest' : α → EStateM ε σ β}
    (first : RunsAs checked plain state)
    (onward : ∀ value next, plain state = .ok value next → RunsAs (rest value) (rest' value) next) :
    RunsAs (checked >>= rest) (plain >>= rest') state := by
  unfold RunsAs ofProgram at first
  cases run : plain state with
  | ok value next =>
    rw [run] at first
    have same := onward value next run
    unfold RunsAs ofProgram at same ⊢
    rw [run_bind_ok first, run_bind_ok run, same]
  | error error next =>
    rw [run] at first
    unfold RunsAs ofProgram
    rw [run_bind_error first, run_bind_error run]

/-- A step both make. -/
theorem RunsAs.after {rest : α → EStateM (Stop ε) σ β} {rest' : α → EStateM ε σ β}
    {first : EStateM ε σ α}
    (onward : ∀ value next, first state = .ok value next → RunsAs (rest value) (rest' value) next) :
    RunsAs (ofProgram first >>= rest) (first >>= rest') state :=
  (runsAs_ofProgram first state).bind onward

/-- The state is looked at. -/
theorem RunsAs.get {rest : σ → EStateM (Stop ε) σ β} {rest' : σ → EStateM ε σ β}
    (onward : RunsAs (rest state) (rest' state) state) :
    RunsAs (MonadState.get >>= rest) (MonadState.get >>= rest') state := onward

/-- Agreement of both branches of a condition. -/
theorem RunsAs.ite {condition : Prop} [Decidable condition] {checked' : EStateM (Stop ε) σ α}
    {plain' : EStateM ε σ α} (taken : condition → RunsAs checked plain state)
    (left : ¬ condition → RunsAs checked' plain' state) :
    RunsAs (if condition then checked else checked')
      (if condition then plain else plain') state := by
  by_cases holds : condition
  · rw [if_pos holds, if_pos holds]
    exact taken holds
  · rw [if_neg holds, if_neg holds]
    exact left holds

/-- A checked step that has a value and changes nothing. -/
theorem RunsAs.value {rest : α → EStateM (Stop ε) σ β} {plain : EStateM ε σ β} {value : α}
    (done : checked = pure value) (onward : RunsAs (rest value) plain state) :
    RunsAs (checked >>= rest) plain state := by
  rw [done]
  exact onward

end

end Panic
