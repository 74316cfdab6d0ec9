import Mathlib.Logic.Basic

/-!
# Results that may be errors

Rules for sequences of results: one that succeeds consists of steps that succeed, and one
that fails fails as one of its steps does. A decoder of such results is exact for an
encoder when it accepts what some valid value is encoded to, up to a relation of what the
decoder does not look at, and nothing else.
-/
namespace Program

variable {ε α β ω : Type}

/-! ## Sequences -/

/-- A sequence that succeeds consists of two steps that succeed. -/
theorem ok_of_bind {first : Except ε α} {rest : α → Except ε β} {result : β}
    (succeeded : first >>= rest = .ok result) :
    ∃ value, first = .ok value ∧ rest value = .ok result := by
  cases first with
  | error error => cases succeeded
  | ok value => exact ⟨value, rfl, succeeded⟩

/-- A sequence that fails has one step that fails. -/
theorem error_of_bind {first : Except ε α} {rest : α → Except ε β} {error : ε}
    (failed : first >>= rest = .error error) :
    first = .error error ∨ ∃ value, first = .ok value ∧ rest value = .error error := by
  cases first with
  | error other => exact Or.inl (congrArg Except.error (Except.error.inj failed))
  | ok value => exact Or.inr ⟨value, rfl, failed⟩

/-- A last step that never fails so does not count. -/
theorem bind_error_iff {result : Except ε α} {rest : α → Except ε β} {error : ε}
    (never : ∀ value, rest value ≠ .error error) :
    result >>= rest = .error error ↔ result = .error error := by
  constructor
  · intro failed
    rcases error_of_bind failed with first | ⟨value, -, last⟩
    · exact first
    · exact absurd last (never value)
  · rintro rfl
    rfl

/-! ## Known errors -/

section

variable {P Q : ε → Prop}

/-- Every error of the result has this property. -/
def FailsOnly (P : ε → Prop) (result : Except ε α) : Prop :=
  ∀ error, result = .error error → P error

/-- A value is no error. -/
theorem fails_ok (value : α) : FailsOnly P (.ok value) := by
  intro error failed
  cases failed

/-- An error is the only one of its result. -/
theorem fails_error {error : ε} (holds : P error) : FailsOnly P (.error error : Except ε α) := by
  intro other failed
  obtain rfl := Except.error.inj failed
  exact holds

/-- The property may be weakened. -/
theorem FailsOnly.mono {result : Except ε α} (fails : FailsOnly P result)
    (weaken : ∀ error, P error → Q error) : FailsOnly Q result :=
  fun error failed => weaken error (fails error failed)

/-- A sequence fails as one of its steps does. -/
theorem FailsOnly.bind {first : Except ε α} {rest : α → Except ε β} (head : FailsOnly P first)
    (tail : ∀ value, FailsOnly P (rest value)) : FailsOnly P (first >>= rest) := by
  intro error failed
  rcases error_of_bind failed with lost | ⟨value, -, lost⟩
  · exact head error lost
  · exact tail value error lost

end

/-! ## Exact decoders -/

section

variable {agrees : ω → ω → Prop} {valid : α → Prop} {encode : α → ω} {decode : ω → Except ε α}

/-- What is decoded is valid and encoded to data that agrees, and every such value is
decoded. -/
def Exact (agrees : ω → ω → Prop) (valid : α → Prop) (encode : α → ω)
    (decode : ω → Except ε α) : Prop :=
  ∀ wire value, decode wire = .ok value ↔ valid value ∧ agrees (encode value) wire

/-- It is enough that a decoder takes data that agrees for the same, and undoes the encoder. -/
theorem Exact.of
    (sound : ∀ wire value, decode wire = .ok value → valid value ∧ agrees (encode value) wire)
    (unread : ∀ wire others, agrees wire others → decode others = decode wire)
    (complete : ∀ value, valid value → decode (encode value) = .ok value) :
    Exact agrees valid encode decode := by
  refine fun wire value => ⟨sound wire value, ?_⟩
  rintro ⟨holds, agree⟩
  rw [unread _ _ agree]
  exact complete value holds

end

end Program
