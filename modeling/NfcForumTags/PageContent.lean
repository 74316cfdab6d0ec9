import NfcForumTags.TagContract
import NfcForumTags.UsableBytes
import NfcForumTags.Library.Overlay

/-!
# What is written to a page

One turn of the page loop of `write_usable_bytes` writes at most one page. On the
fast path its bytes are the next four data bytes; on the slow path they are the
page's own bytes with data placed on the usable ones. Either way the memory after
the WRITE is the memory before with the next data bytes placed on the usable
addresses of the page, and the number of data bytes consumed is the number placed.
-/
namespace NfcForumTags

open Enumeration Overlay MemoryLayout

/-- Usable addresses from `addr` on, below `limit`. -/
def MemoryLayout.usableBetween (layout : MemoryLayout) (addr limit : Nat) : List Nat :=
  kept (fun byteAddr => !layout.isSkipArea byteAddr) addr limit

section

variable {layout : MemoryLayout} {data : List UInt8} {limitAddr pageBase : Nat}

/-- The usable addresses from one on are those below a limit and those from the limit on. -/
theorem usableFrom_between {addr : Nat} (limit : Nat) (low : addr ≤ limit)
    (high : limit ≤ ADDRESS_SPACE_END) :
    layout.usableFrom addr = layout.usableBetween addr limit ++ layout.usableFrom limit :=
  kept_append low high

/-- An address to skip is not among them. -/
theorem usableBetween_skip {addr limit : Nat} (skipped : layout.isSkipArea addr = true) :
    layout.usableBetween addr limit = layout.usableBetween (addr + 1) limit :=
  kept_skip (by simp [skipped])

/-- A usable one is the first of them. -/
theorem usableBetween_cons {addr limit : Nat} (inside : addr < limit)
    (usable : layout.isSkipArea addr = false) :
    layout.usableBetween addr limit = addr :: layout.usableBetween (addr + 1) limit :=
  kept_cons inside (by simp [usable])

/-- Behind the limit there are none. -/
theorem usableBetween_empty {addr limit : Nat} (ended : limit ≤ addr) :
    layout.usableBetween addr limit = [] := kept_empty ended

/-- The data that still fits below the limit after the bytes of one address. -/
def Room (layout : MemoryLayout) (data : List UInt8) (limitAddr addr di : Nat) : Prop :=
  data.length - di ≤ (layout.usableBetween addr limitAddr).length

/-! ## The slow path -/

/-- The page filled from byte `i` on, on a page that shows `memory`.

Induction on the bytes left in the page: a skipped byte changes nothing, a usable
one places the next data byte. -/
theorem fillPage_place (memory : Memory) {i : Nat} (fill : PageFill) (position : i ≤ 4)
    (room : Room layout data limitAddr (pageBase + i) fill.di)
    (shows : ∀ (j : Nat) (short : j < 4), fill.page[j] = memory (pageBase + j)) :
    ∃ result, fillPage layout data limitAddr pageBase i fill = some result ∧
      (∀ (j : Nat) (short : j < 4), result.page[j] =
        place memory ((layout.usableBetween (pageBase + i) (pageBase + 4)).zip (data.drop fill.di))
          (pageBase + j)) ∧
      result.di = fill.di +
        ((layout.usableBetween (pageBase + i) (pageBase + 4)).zip (data.drop fill.di)).length ∧
      (result.touched = true ↔ fill.touched = true ∨
        (layout.usableBetween (pageBase + i) (pageBase + 4)).zip (data.drop fill.di) ≠ []) := by
  fun_induction fillPage layout data limitAddr pageBase i fill generalizing memory with
  | case1 i fill short more beyond =>
    have ended : layout.usableBetween (pageBase + i) limitAddr = [] := usableBetween_empty beyond
    unfold Room at room
    rw [ended, List.length_nil] at room
    omega
  | case2 i fill short more below skipped inductionHypothesis =>
    unfold Room at room inductionHypothesis
    rw [usableBetween_skip skipped] at room ⊢
    exact inductionHypothesis memory (by omega) room shows
  | case3 i fill short more below usable inductionHypothesis =>
    have free : layout.isSkipArea (pageBase + i) = false := Bool.eq_false_iff.mpr usable
    have first : data.drop fill.di = data[fill.di] :: data.drop (fill.di + 1) :=
      List.drop_eq_getElem_cons more
    unfold Room at room inductionHypothesis
    rw [usableBetween_cons (Nat.lt_of_not_le below) free, List.length_cons] at room
    rw [usableBetween_cons (by omega : pageBase + i < pageBase + 4) free, first, List.zip_cons_cons]
    obtain ⟨result, filled, bytes, consumed, touched⟩ := inductionHypothesis
      (Function.update memory (pageBase + i) data[fill.di]) (by omega) (by
        change data.length - (fill.di + 1) ≤ _
        rw [Nat.add_assoc] at room
        omega) (by
        intro j jShort
        by_cases same : j = i
        · subst same
          simp
        · rw [Function.update_of_ne (by omega), ← shows j jShort]
          simp [Vector.getElem_set_ne _ _ (Ne.symm same)])
    refine ⟨result, filled, bytes, ?_, ?_⟩
    · rw [consumed, List.length_cons]
      simp only [Nat.add_assoc, Nat.add_comm 1]
    · simp only [touched, true_or, ne_eq, reduceCtorEq, not_false_eq_true, or_true]
  | case4 i fill short done =>
    have consumed : data.drop fill.di = [] := List.drop_eq_nil_of_le (by omega)
    rw [consumed, List.zip_nil_right]
    exact ⟨fill, rfl, shows, rfl, by simp⟩
  | case5 i fill ended =>
    obtain rfl : i = 4 := by omega
    rw [usableBetween_empty (le_refl _), List.zip_nil_left]
    exact ⟨fill, rfl, shows, rfl, by simp⟩

/-! ## The fast path -/

/-- All four addresses of a page without skipped bytes are usable. -/
theorem usableBetween_page (allUsable : pageAllUsable layout pageBase = true) :
    layout.usableBetween pageBase (pageBase + 4) =
      [pageBase, pageBase + 1, pageBase + 2, pageBase + 3] := by
  have free : ∀ i < 4, layout.isSkipArea (pageBase + i) = false := by
    intro i short
    unfold pageAllUsable at allUsable
    simpa using List.all_eq_true.mp allUsable i (List.mem_range.mpr short)
  rw [usableBetween_cons (by omega) (by simpa using free 0 (by decide)),
    usableBetween_cons (by omega) (free 1 (by decide)),
    usableBetween_cons (by omega) (free 2 (by decide)),
    usableBetween_cons (by omega) (free 3 (by decide)), usableBetween_empty (by omega)]

/-- A page that the data covers lies below the limit. -/
theorem covered_below {di : Nat} (covers : BLOCK_SIZE ≤ data.length - di)
    (room : Room layout data limitAddr pageBase di) : pageBase + 4 ≤ limitAddr := by
  by_contra above
  have few : (layout.usableBetween pageBase limitAddr).length ≤ limitAddr - pageBase :=
    length_kept_le _ _
  have many : 4 ≤ (layout.usableBetween pageBase limitAddr).length := le_trans covers room
  omega

/-- The next four data bytes on a fully usable page. -/
theorem pageFrom_place (memory : Memory) (allUsable : pageAllUsable layout pageBase = true)
    {di : Nat} (covers : BLOCK_SIZE ≤ data.length - di) :
    (∀ (j : Nat) (short : j < 4), (pageFrom data di covers)[j] =
      place memory ((layout.usableBetween pageBase (pageBase + 4)).zip (data.drop di))
        (pageBase + j)) ∧
    ((layout.usableBetween pageBase (pageBase + 4)).zip (data.drop di)).length = 4 := by
  have enough : 4 ≤ data.length - di := covers
  have addresses := usableBetween_page allUsable
  constructor
  · intro j short
    have distinct : (layout.usableBetween pageBase (pageBase + 4)).Nodup := kept_nodup _ _
    have count : j < (layout.usableBetween pageBase (pageBase + 4)).length := by
      rw [addresses]
      exact short
    have placed := place_zip_getElem memory (data.drop di) distinct j count
      (by rw [List.length_drop]; omega)
    have listed : (layout.usableBetween pageBase (pageBase + 4))[j]? = some (pageBase + j) := by
      rw [addresses]
      clear placed count
      match j, short with
      | 0, _ => rfl
      | 1, _ => rfl
      | 2, _ => rfl
      | 3, _ => rfl
    have address := (List.getElem?_eq_some_iff.mp listed).2
    rw [address, List.getElem_drop] at placed
    rw [placed]
    clear placed address listed count
    unfold pageFrom
    match j, short with
    | 0, _ => rfl
    | 1, _ => rfl
    | 2, _ => rfl
    | 3, _ => rfl
  · rw [List.length_zip, addresses, List.length_drop]
    simp only [List.length_cons, List.length_nil]
    omega

/-! ## The memory after the WRITE -/

/-- A WRITE of a page that holds the bytes of an overlay on that page is the overlay. -/
theorem storeBlock_eq_place {memory : Memory} {sector block : UInt8} {page : Vector UInt8 4}
    {pairs : List (Nat × UInt8)} (base : blockAddress sector block = pageBase)
    (onPage : ∀ pair ∈ pairs, pageBase ≤ pair.1 ∧ pair.1 < pageBase + 4)
    (bytes : ∀ (j : Nat) (short : j < 4), page[j] = place memory pairs (pageBase + j)) :
    storeBlock memory sector block page = place memory pairs := by
  subst base
  funext addr
  unfold storeBlock
  split
  · next inside =>
    rw [bytes _ (by omega)]
    congr 1
    omega
  · next outside =>
    symm
    apply place_of_notMem
    intro member
    obtain ⟨pair, pairMember, rfl⟩ := List.mem_map.mp member
    exact outside (onPage pair pairMember)

end

end NfcForumTags
