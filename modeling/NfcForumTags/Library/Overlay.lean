import Mathlib.Data.List.SplitBy
import Mathlib.Logic.Function.Basic
import Mathlib.Data.List.Nodup

/-!
# Placing values on a function

`place base pairs` is `base` with each pair's value stored at its argument, in
order. Pairs are applied in groups, the longest runs of arguments with one key: a
prefix of the groups is a prefix of the pairs that ends between two keys, and
every such prefix is a prefix of the groups.
-/
namespace Overlay

section Place

variable {α β : Type} [DecidableEq α]

/-- `base` changed at the pairs' arguments, later pairs last. -/
def place (base : α → β) (pairs : List (α × β)) : α → β :=
  pairs.foldl (fun current pair => Function.update current pair.1 pair.2) base

/-- The first pair is placed first. -/
@[simp] theorem place_cons (base : α → β) (pair : α × β) (pairs : List (α × β)) :
    place base (pair :: pairs) = place (Function.update base pair.1 pair.2) pairs := rfl

/-- Two lists are placed one after the other. -/
theorem place_append (base : α → β) (first second : List (α × β)) :
    place base (first ++ second) = place (place base first) second := List.foldl_append

/-- An argument without a pair keeps its value. -/
theorem place_of_notMem {base : α → β} {pairs : List (α × β)} {argument : α}
    (absent : argument ∉ pairs.map Prod.fst) : place base pairs argument = base argument := by
  induction pairs generalizing base with
  | nil => rfl
  | cons pair pairs inductionHypothesis =>
    simp only [List.map_cons, List.mem_cons, not_or] at absent
    rw [place_cons, inductionHypothesis absent.2, Function.update_of_ne absent.1]

/-- An argument with one pair takes that pair's value. -/
theorem place_of_mem {base : α → β} {pairs : List (α × β)} (pair : α × β)
    (distinct : (pairs.map Prod.fst).Nodup) (member : pair ∈ pairs) :
    place base pairs pair.1 = pair.2 := by
  induction pairs generalizing base with
  | nil => cases member
  | cons head pairs inductionHypothesis =>
    simp only [List.map_cons, List.nodup_cons] at distinct
    rw [place_cons]
    cases List.mem_cons.mp member with
    | inl same =>
      subst same
      rw [place_of_notMem distinct.1, Function.update_self]
    | inr later => exact inductionHypothesis distinct.2 later

section Zip

variable {arguments : List α} {values : List β}

omit [DecidableEq α] in
/-- The arguments that receive a value. -/
theorem map_fst_zip (arguments : List α) (values : List β) :
    (arguments.zip values).map Prod.fst = arguments.take values.length := by
  induction arguments generalizing values with
  | nil => simp
  | cons argument arguments inductionHypothesis =>
    cases values with
    | nil => simp
    | cons value values => simp [inductionHypothesis]

omit [DecidableEq α] in
/-- The first pairs are those of the first values. -/
theorem take_zip (arguments : List α) (values : List β) (n : Nat) :
    (arguments.zip values).take n = arguments.zip (values.take n) := by
  induction n generalizing arguments values with
  | zero => simp
  | succ n inductionHypothesis =>
    cases arguments with
    | nil => simp
    | cons argument arguments =>
      cases values with
      | nil => simp
      | cons value values => simp [inductionHypothesis]

/-- The i-th of distinct arguments takes the i-th value. -/
theorem place_zip_getElem (base : α → β) (values : List β) (distinct : arguments.Nodup) (i : Nat)
    (argumentInside : i < arguments.length) (valueInside : i < values.length) :
    place base (arguments.zip values) arguments[i] = values[i] := by
  have member : (arguments[i], values[i]) ∈ arguments.zip values := by
    rw [List.mem_iff_getElem]
    exact ⟨i, by simp; omega, by simp⟩
  refine place_of_mem (arguments[i], values[i]) ?_ member
  rw [map_fst_zip]
  exact distinct.sublist (List.take_sublist _ _)

/-- Values placed on a list of distinct arguments are read back from it, followed
by what the remaining arguments held. -/
theorem map_place_zip (base : α → β) (values : List β) (distinct : arguments.Nodup)
    (fit : values.length ≤ arguments.length) :
    arguments.map (place base (arguments.zip values)) =
      values ++ (arguments.drop values.length).map base := by
  apply List.ext_getElem
  · simp
    omega
  · intro i left right
    rw [List.getElem_map]
    by_cases placed : i < values.length
    · rw [place_zip_getElem base values distinct i (by simpa using left) placed,
        List.getElem_append_left placed]
    · have inside : i < arguments.length := by simpa using left
      rw [List.getElem_append_right (by omega), List.getElem_map, List.getElem_drop,
        place_of_notMem]
      · congr 2
        omega
      · rw [map_fst_zip, List.mem_take_iff_getElem]
        rintro ⟨j, short, same⟩
        have := (List.Nodup.getElem_inj_iff distinct).mp same
        omega

end Zip

end Place

/-! ## Groups -/

section Groups

variable {α β κ : Type} [DecidableEq κ]

/-- The longest runs of pairs whose arguments have one key. -/
def groups (key : α → κ) (pairs : List (α × β)) : List (List (α × β)) :=
  pairs.splitBy fun first second => decide (key first.1 = key second.1)

variable {key : α → κ} {pairs first second : List (α × β)}

/-- The groups are the pairs again, in their order. -/
theorem flatten_groups (key : α → κ) (pairs : List (α × β)) : (groups key pairs).flatten = pairs :=
  List.flatten_splitBy _ pairs

/-- Nothing has no groups. -/
@[simp] theorem groups_nil (key : α → κ) : groups key ([] : List (α × β)) = [] := by
  simp [groups]

/-- A prefix of the pairs ends between two keys. -/
def Separated (key : α → κ) (first second : List (α × β)) : Prop :=
  ∀ x ∈ first.getLast?, ∀ y ∈ second.head?, key x.1 ≠ key y.1

/-- Pairs cut between two keys are grouped on each side of the cut. -/
theorem groups_append (separated : Separated key first second) :
    groups key (first ++ second) = groups key first ++ groups key second :=
  List.splitBy_append fun x last y head => decide_eq_false (separated x last y head)

/-- Pairs of one key are one group. -/
theorem groups_single {common : κ} (nonempty : pairs ≠ [])
    (same : ∀ pair ∈ pairs, key pair.1 = common) : groups key pairs = [pairs] := by
  apply List.splitBy_of_isChain nonempty
  apply List.Pairwise.isChain
  apply List.pairwise_of_forall_mem_list
  intro x xMember y yMember
  simp [same x xMember, same y yMember]

/-- Every prefix that ends between two keys is made of whole groups. -/
theorem take_groups (separated : Separated key first second) :
    ((groups key (first ++ second)).take (groups key first).length).flatten = first := by
  rw [groups_append separated, List.take_left, flatten_groups]

/-- Whole groups are a prefix of the pairs that ends between two keys.

The first and the remaining groups flatten to the two sides of a cut; at the cut
the last of one group meets the first of the next. -/
theorem separated_groups (key : α → κ) (pairs : List (α × β)) (k : Nat) :
    Separated key ((groups key pairs).take k).flatten ((groups key pairs).drop k).flatten := by
  intro x last y head
  have chain := List.isChain_getLast_head_splitBy
    (fun first second : α × β => decide (key first.1 = key second.1)) pairs
  have nonempty : [] ∉ groups key pairs := List.nil_notMem_splitBy _ pairs
  rw [← List.take_append_drop k (List.splitBy _ pairs), List.isChain_append] at chain
  change _ ∧ _ ∧ ∀ left ∈ ((groups key pairs).take k).getLast?,
    ∀ right ∈ ((groups key pairs).drop k).head?, _ at chain
  have lastGroup : ∃ left ∈ ((groups key pairs).take k).getLast?, x ∈ left.getLast? := by
    rcases List.eq_nil_or_concat ((groups key pairs).take k) with empty | ⟨front, group, shape⟩
    · simp [empty] at last
    · refine ⟨group, by simp [shape], ?_⟩
      have inhabited : group ≠ [] := by
        rintro rfl
        exact nonempty (List.mem_of_mem_take (by rw [shape]; simp))
      rw [shape] at last
      simpa [List.getLast?_append, List.getLast?_eq_some_getLast inhabited] using last
  have headGroup : ∃ right ∈ ((groups key pairs).drop k).head?, y ∈ right.head? := by
    cases shape : (groups key pairs).drop k with
    | nil => simp [shape] at head
    | cons group rest =>
      refine ⟨group, by simp, ?_⟩
      have inhabited : group ≠ [] := by
        rintro rfl
        exact nonempty (List.mem_of_mem_drop (by rw [shape]; simp))
      rw [shape] at head
      simpa [List.head?_append, List.head?_eq_some_head inhabited] using head
  obtain ⟨left, leftLast, xLast⟩ := lastGroup
  obtain ⟨right, rightHead, yHead⟩ := headGroup
  obtain ⟨leftNonempty, rightNonempty, differ⟩ := chain.2.2 left leftLast right rightHead
  rw [List.getLast?_eq_some_getLast leftNonempty] at xLast
  rw [List.head?_eq_some_head rightNonempty] at yHead
  obtain rfl := Option.mem_some_iff.mp xLast
  obtain rfl := Option.mem_some_iff.mp yHead
  simpa using differ

/-- Whole groups are the first pairs, up to a cut between two keys. -/
theorem groups_cut (key : α → κ) (pairs : List (α × β)) (k : Nat) :
    ∃ n ≤ pairs.length, ((groups key pairs).take k).flatten = pairs.take n ∧
      Separated key (pairs.take n) (pairs.drop n) := by
  have separated := separated_groups key pairs k
  have whole : ((groups key pairs).take k).flatten ++ ((groups key pairs).drop k).flatten =
      pairs := by
    rw [← List.flatten_append, List.take_append_drop, flatten_groups]
  generalize ((groups key pairs).take k).flatten = front at separated whole ⊢
  generalize ((groups key pairs).drop k).flatten = back at separated whole
  subst whole
  exact ⟨front.length, by simp, by simp, by simpa using separated⟩

/-- The first pairs up to a cut between two keys are whole groups. -/
theorem cut_groups {n : Nat} (separated : Separated key (pairs.take n) (pairs.drop n)) :
    ∃ k ≤ (groups key pairs).length, ((groups key pairs).take k).flatten = pairs.take n := by
  have whole := take_groups separated
  have joined := groups_append separated
  rw [List.take_append_drop] at whole joined
  exact ⟨_, by rw [joined, List.length_append]; omega, whole⟩

omit [DecidableEq κ] in
/-- A cut between two pairs. -/
theorem separated_cut {n : Nat} (inside : n + 1 < pairs.length) :
    Separated key (pairs.take (n + 1)) (pairs.drop (n + 1)) ↔
      key (pairs[n].1) ≠ key (pairs[n + 1].1) := by
  have last : (pairs.take (n + 1)).getLast? = some pairs[n] := by
    rw [List.getLast?_take, if_neg (Nat.succ_ne_zero n), Nat.add_sub_cancel,
      List.getElem?_eq_getElem (by omega)]
    rfl
  have head : (pairs.drop (n + 1)).head? = some pairs[n + 1] := by
    rw [List.head?_drop, List.getElem?_eq_getElem inside]
  unfold Separated
  rw [last, head]
  simp

end Groups

end Overlay
