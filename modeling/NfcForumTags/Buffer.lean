import Mathlib.Data.List.Basic
import Mathlib.Algebra.Group.Nat.Defs
import Mathlib.Algebra.GroupWithZero.Nat
import NfcForumTags.Library.Result

/-!
# Buffers and errors

The crate is compiled in two ways. Without the `alloc` feature every buffer is a
fixed-capacity vector whose push fails when it is full; with it the buffers are
growable and a push never fails. A build is therefore three optional capacities.
A frame is not bounded here: its bytes are supplied by the transceiver, which
owns the choice of the frame capacity.

`caching` is true in both builds of the source. The value `false` describes the
reference reader that never keeps a READ result, against which the read cache is
compared.
-/
namespace NfcForumTags

/-- Errors from Type 2 Tag protocol operations. -/
inductive Type2Error where
  | invalidLength
  | invalidMagic (magic : UInt8)
  | unsupportedVersion (major minor : UInt8)
  | nack (code : UInt8)
  | invalidTlv
  | readOnly
  | bufferFull
  | outOfRange
  | ambiguousOutcome
  | invalidConfiguration
  | unknownCommand (code : UInt8)
deriving DecidableEq, Repr

/-- Capacities of one build of the crate; `none` is a growable buffer. -/
structure Build where
  /-- Bytes a `DataVec` holds. -/
  dataCapacity : Option Nat
  /-- Blocks `parse_tlvs` may collect. -/
  tlvCapacity : Option Nat
  /-- Lock areas, and separately reserved areas, a layout holds. -/
  areaCapacity : Option Nat
  /-- READ results are kept for later reads. -/
  caching : Bool
deriving DecidableEq

/-- The build with the `alloc` feature. -/
def Build.alloc : Build := ⟨none, none, none, true⟩

/-- The default build on fixed-capacity vectors. -/
def Build.heapless : Build := ⟨some 1024, some 4, some 8, true⟩

/-- The same build with a reader that never caches. -/
def Build.uncached (build : Build) : Build := { build with caching := false }

/-- Whether `count` elements fit a buffer of this capacity. -/
def fits (capacity : Option Nat) (count : Nat) : Bool :=
  match capacity with
  | none => true
  | some limit => decide (count ≤ limit)

/-- Fewer elements fit where more do. -/
theorem fits_mono {capacity : Option Nat} {less more : Nat} (order : less ≤ more)
    (enough : fits capacity more = true) : fits capacity less = true := by
  cases capacity with
  | none => rfl
  | some limit =>
    simp only [fits, decide_eq_true_eq] at enough ⊢
    omega

section Vectors

variable {α : Type}

/-- `VecExt::try_push`: a full vector is left unchanged and reported. -/
def tryPush (capacity : Option Nat) (vec : List α) (val : α) : Except Type2Error (List α) :=
  if fits capacity (vec.length + 1) then .ok (vec ++ [val]) else .error .bufferFull

/-- `VecExt::try_extend`: all of the slice is appended, or nothing. -/
def tryExtend (capacity : Option Nat) (vec slice : List α) : Except Type2Error (List α) :=
  if fits capacity (vec.length + slice.length) then .ok (vec ++ slice) else .error .bufferFull

/-- A push that succeeds has appended its element, whatever the capacity. -/
theorem tryPush_ok {capacity : Option Nat} {vec result : List α} {val : α}
    (pushed : tryPush capacity vec val = .ok result) : result = vec ++ [val] := by
  unfold tryPush at pushed
  split at pushed
  · exact (Except.ok.inj pushed).symm
  · cases pushed

/-- A push that succeeds leaves a vector within its capacity. -/
theorem tryPush_fits {capacity : Option Nat} {vec result : List α} {val : α}
    (pushed : tryPush capacity vec val = .ok result) : fits capacity result.length = true := by
  have appended := tryPush_ok pushed
  unfold tryPush at pushed
  split at pushed
  · next enough => simpa [appended] using enough
  · cases pushed

/-- A push within the capacity succeeds. -/
theorem tryPush_of_fits {capacity : Option Nat} {vec : List α} {val : α}
    (enough : fits capacity (vec.length + 1) = true) : tryPush capacity vec val =
      .ok (vec ++ [val]) :=
  if_pos enough

/-- An extension within the capacity succeeds. -/
theorem tryExtend_of_fits {capacity : Option Nat} {vec slice : List α}
    (enough : fits capacity (vec.length + slice.length) = true) :
    tryExtend capacity vec slice = .ok (vec ++ slice) := if_pos enough

/-- An extension that succeeds has appended the slice, whatever the capacity. -/
theorem tryExtend_ok {capacity : Option Nat} {vec slice result : List α}
    (extended : tryExtend capacity vec slice = .ok result) : result = vec ++ slice := by
  unfold tryExtend at extended
  split at extended
  · exact (Except.ok.inj extended).symm
  · cases extended

end Vectors

end NfcForumTags
