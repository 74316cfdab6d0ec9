import Mathlib.Data.List.Sort
import Mathlib.Data.List.Range
import Mathlib.Data.List.Perm.Subperm

/-!
# Enumerating the numbers that satisfy a predicate

The numbers of an interval that a decidable predicate accepts, in increasing
order. An interval may be entered one number at a time, cut at any number, or
entered at the n-th accepted number; each lemma states one of these views.
-/
namespace Enumeration

variable (accepts : Nat → Bool) {start stop middle n addr : Nat}

/-- The accepted numbers from `start` on, below `stop`, in increasing order. -/
def kept (start stop : Nat) : List Nat := (List.range' start (stop - start)).filter accepts

variable {accepts}

/-- The numbers kept are those of the range that are accepted. -/
theorem mem_kept : addr ∈ kept accepts start stop ↔
    start ≤ addr ∧ addr < stop ∧ accepts addr = true := by
  simp only [kept, List.mem_filter, List.mem_range'_1]
  constructor
  · rintro ⟨⟨low, high⟩, accepted⟩
    exact ⟨low, by omega, accepted⟩
  · rintro ⟨low, high, accepted⟩
    exact ⟨⟨low, by omega⟩, accepted⟩

/-- No more numbers are listed than the interval has. -/
theorem length_kept_le (start stop : Nat) : (kept accepts start stop).length ≤ stop - start :=
  (List.length_filter_le _ _).trans_eq List.length_range'

/-- When all rejected numbers are in a cover, no more of them are missing than the
cover has. -/
theorem length_kept_covered {cover : List Nat}
    (covered : ∀ addr, start ≤ addr → addr < stop → accepts addr = false → addr ∈ cover) :
    stop - start ≤ (kept accepts start stop).length + cover.length := by
  have parts := List.length_eq_length_filter_add (l := List.range' start (stop - start)) accepts
  rw [List.length_range'] at parts
  have missing : ((List.range' start (stop - start)).filter (!accepts ·)).length ≤
      cover.length := by
    apply (List.Nodup.subperm ((List.nodup_range' 1).filter _) _).length_le
    intro addr member
    simp only [List.mem_filter, List.mem_range'_1, Bool.not_eq_true'] at member
    exact covered addr member.1.1 (by omega) member.2
  unfold kept
  omega

/-- An empty range keeps none. -/
theorem kept_empty (ended : stop ≤ start) : kept accepts start stop = [] := by
  simp [kept, Nat.sub_eq_zero_of_le ended]

/-- An accepted first number is listed first. -/
theorem kept_cons (inside : start < stop) (accepted : accepts start = true) :
    kept accepts start stop = start :: kept accepts (start + 1) stop := by
  obtain ⟨count, rfl⟩ := Nat.exists_eq_add_of_lt inside
  have whole : start + count + 1 - start = count + 1 := by omega
  have rest : start + count + 1 - (start + 1) = count := by omega
  simp [kept, whole, rest, List.range'_succ, accepted]

/-- A rejected first number is left out. -/
theorem kept_skip (rejected : accepts start = false) :
    kept accepts start stop = kept accepts (start + 1) stop := by
  by_cases inside : start < stop
  · obtain ⟨count, rfl⟩ := Nat.exists_eq_add_of_lt inside
    have whole : start + count + 1 - start = count + 1 := by omega
    have rest : start + count + 1 - (start + 1) = count := by omega
    simp [kept, whole, rest, List.range'_succ, rejected]
  · rw [kept_empty (by omega), kept_empty (by omega)]

/-- The interval may be cut anywhere. -/
theorem kept_append (low : start ≤ middle) (high : middle ≤ stop) :
    kept accepts start stop = kept accepts start middle ++ kept accepts middle stop := by
  obtain ⟨left, rfl⟩ := Nat.exists_eq_add_of_le low
  obtain ⟨right, rfl⟩ := Nat.exists_eq_add_of_le high
  have whole : start + left + right - start = left + right := by omega
  have first : start + left - start = left := by omega
  have second : start + left + right - (start + left) = right := by omega
  simp only [kept, whole, first, second, ← List.filter_append, List.range'_append_1]

/-- The numbers are listed in increasing order. -/
theorem kept_increasing (start stop : Nat) : (kept accepts start stop).Pairwise (· < ·) :=
  List.Pairwise.filter _ List.pairwise_lt_range'

/-- No number is kept twice. -/
theorem kept_nodup (start stop : Nat) : (kept accepts start stop).Nodup :=
  (kept_increasing start stop).imp fun less => Nat.ne_of_lt less

/-- From the n-th listed number on, the list is the whole one without its first
`n` entries.

Induction on the length of the interval; a rejected number costs no index. -/
theorem kept_from (found : (kept accepts start stop)[n]? = some addr) :
    kept accepts addr stop = (kept accepts start stop).drop n := by
  induction distance : stop - start generalizing start n with
  | zero =>
    rw [kept_empty (by omega)] at found
    simp at found
  | succ distance inductionHypothesis =>
    cases accepted : accepts start with
    | false =>
      rw [kept_skip accepted] at found ⊢
      exact inductionHypothesis found (by omega)
    | true =>
      rw [kept_cons (by omega) accepted] at found ⊢
      cases n with
      | zero =>
        obtain rfl : start = addr := by simpa using found
        rw [List.drop_zero, kept_cons (by omega) accepted]
      | succ n =>
        rw [List.drop_succ_cons]
        exact inductionHypothesis (by simpa using found) (by omega)

/-- A listed number is accepted and lies in the interval. -/
theorem kept_getElem (found : (kept accepts start stop)[n]? = some addr) :
    start ≤ addr ∧ addr < stop ∧ accepts addr = true :=
  mem_kept.mp (List.mem_of_getElem? found)

/-- Below the n-th listed number `n` are listed. -/
theorem length_kept_below (found : (kept accepts start stop)[n]? = some addr) :
    (kept accepts start addr).length = n := by
  obtain ⟨low, high, -⟩ := kept_getElem found
  have suffix := kept_from found
  have short : n < (kept accepts start stop).length := (List.getElem?_eq_some_iff.mp found).1
  have lengths := congrArg List.length (kept_append low high.le : kept accepts start stop = _)
  rw [List.length_append, suffix, List.length_drop] at lengths
  omega

/-- When all rejected numbers are in a cover, the n-th listed number is not further than
the cover is long from where it would be if none were rejected. -/
theorem kept_getElem_le {cover : List Nat} (found : (kept accepts start stop)[n]? = some addr)
    (covered : ∀ addr, start ≤ addr → addr < stop → accepts addr = false → addr ∈ cover) :
    addr ≤ start + n + cover.length := by
  obtain ⟨low, high, -⟩ := kept_getElem found
  have below := length_kept_below found
  have missing : addr - start ≤ (kept accepts start addr).length + cover.length :=
    length_kept_covered fun rejected above before => covered rejected above (by omega)
  omega

/-- The interval that ends with the n-th listed number lists the first `n + 1`. -/
theorem kept_until (found : (kept accepts start stop)[n]? = some addr) :
    kept accepts start (addr + 1) = (kept accepts start stop).take (n + 1) := by
  obtain ⟨low, high, accepted⟩ := kept_getElem found
  have cut : kept accepts start stop = kept accepts start addr ++ kept accepts addr stop :=
    kept_append low high.le
  have tail : kept accepts addr stop = addr :: kept accepts (addr + 1) stop :=
    kept_cons high accepted
  have before := length_kept_below found
  have last : kept accepts addr (addr + 1) = [addr] := by
    rw [kept_cons (by omega) accepted, kept_empty (le_refl _)]
  rw [kept_append low (Nat.le_succ addr), last, cut, tail, List.take_append, before,
    List.take_of_length_le (by omega)]
  simp

/-- The interval between two listed numbers lists those of the indices between. -/
theorem kept_between {i j : Nat} {first last : Nat} (order : i ≤ j)
    (firstFound : (kept accepts start stop)[i]? = some first)
    (lastFound : (kept accepts start stop)[j]? = some last) :
    kept accepts first (last + 1) = ((kept accepts start stop).take (j + 1)).drop i := by
  have whole := kept_until lastFound
  have inside : (kept accepts start (last + 1))[i]? = some first := by
    rw [whole, List.getElem?_take_of_lt (by omega)]
    exact firstFound
  rw [kept_from inside, whole]

/-- Listed numbers of smaller index are smaller. -/
theorem kept_lt {i j : Nat} {first second : Nat} (order : i < j)
    (firstFound : (kept accepts start stop)[i]? = some first)
    (secondFound : (kept accepts start stop)[j]? = some second) : first < second := by
  obtain ⟨firstShort, rfl⟩ := List.getElem?_eq_some_iff.mp firstFound
  obtain ⟨secondShort, rfl⟩ := List.getElem?_eq_some_iff.mp secondFound
  exact List.pairwise_iff_getElem.mp (kept_increasing start stop) i j firstShort secondShort order

/-- Predicates that agree on an interval list the same numbers of it. -/
theorem kept_congr {others : Nat → Bool}
    (agree : ∀ addr, start ≤ addr → addr < stop → accepts addr = others addr) :
    kept accepts start stop = kept others start stop := by
  unfold kept
  apply List.filter_congr
  intro addr member
  have bounds := List.mem_range'_1.mp member
  exact agree addr bounds.1 (by omega)

/-- Two predicates list the same numbers up to the n-th number of the first exactly
when they agree up to there. -/
theorem kept_prefix_iff (others : Nat → Bool) {last : Nat}
    (found : (kept accepts start stop)[n]? = some last) :
    (∀ i ≤ n, (kept others start stop)[i]? = (kept accepts start stop)[i]?) ↔
      ∀ addr, start ≤ addr → addr ≤ last → accepts addr = others addr := by
  obtain ⟨-, high, -⟩ := kept_getElem found
  have listed := kept_until found
  have short : n < (kept accepts start stop).length := (List.getElem?_eq_some_iff.mp found).1
  constructor
  · intro same addr low below
    have otherFound : (kept others start stop)[n]? = some last :=
      (same n (Nat.le_refl n)).trans found
    have takes : (kept others start stop).take (n + 1) =
        (kept accepts start stop).take (n + 1) := by
      apply List.ext_getElem?
      intro i
      by_cases inside : i < n + 1
      · rw [List.getElem?_take_of_lt inside, List.getElem?_take_of_lt inside]
        exact same i (by omega)
      · rw [List.getElem?_take_eq_none (by omega), List.getElem?_take_eq_none (by omega)]
    have lists : kept others start (last + 1) = kept accepts start (last + 1) := by
      rw [kept_until otherFound, takes, listed]
    have members : addr ∈ kept others start (last + 1) ↔ addr ∈ kept accepts start (last + 1) := by
      rw [lists]
    rw [mem_kept, mem_kept] at members
    have inside : addr < last + 1 := by omega
    rw [Bool.eq_iff_iff]
    exact ⟨fun accepted => (members.mpr ⟨low, inside, accepted⟩).2.2,
      fun accepted => (members.mp ⟨low, inside, accepted⟩).2.2⟩
  · intro agree i inside
    have lists : kept others start (last + 1) = kept accepts start (last + 1) :=
      (kept_congr fun addr low below => agree addr low (by omega)).symm
    have start_le : start ≤ last + 1 := Nat.le_succ_of_le (kept_getElem found).1
    rw [kept_append start_le high, kept_append start_le high, lists, listed]
    rw [List.getElem?_append_left (by rw [List.length_take]; omega),
      List.getElem?_append_left (by rw [List.length_take]; omega)]

end Enumeration
