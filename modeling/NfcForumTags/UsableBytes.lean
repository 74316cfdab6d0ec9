import NfcForumTags.DataArea
import NfcForumTags.Library.Enumeration

/-!
# The usable bytes of a layout

The bytes outside every lock and reserved area, as a list of addresses. The walk
of `usable_offset_to_address` indexes that list, and the reading loop collects
the memory at its addresses one by one: `collect` is the loop without blocks,
sectors and cache.
-/
namespace NfcForumTags

open Enumeration

namespace MemoryLayout

/-- Usable addresses from `addr` to the end of the address space. -/
def usableFrom (layout : MemoryLayout) (addr : Nat) : List Nat :=
  kept (fun byteAddr => !layout.isSkipArea byteAddr) addr ADDRESS_SPACE_END

/-- Usable addresses of the data area and beyond, in order. -/
def usable (layout : MemoryLayout) : List Nat := layout.usableFrom 16

variable {layout : MemoryLayout} {addr n : Nat}

/-- The usable addresses are those of the address space that are not in an area. -/
theorem mem_usableFrom {byteAddr : Nat} : byteAddr ∈ layout.usableFrom addr ↔
    addr ≤ byteAddr ∧ byteAddr < ADDRESS_SPACE_END ∧ layout.isSkipArea byteAddr = false := by
  simp [usableFrom, mem_kept]

/-- No usable address is listed twice. -/
theorem usableFrom_nodup (layout : MemoryLayout) (addr : Nat) : (layout.usableFrom addr).Nodup :=
  kept_nodup _ _

/-- A skipped address is not listed. -/
theorem usableFrom_skip (skipped : layout.isSkipArea addr = true) :
    layout.usableFrom addr = layout.usableFrom (addr + 1) := kept_skip (by simp [skipped])

/-- A usable address is listed first. -/
theorem usableFrom_cons (inside : addr < ADDRESS_SPACE_END)
    (usable : layout.isSkipArea addr = false) :
    layout.usableFrom addr = addr :: layout.usableFrom (addr + 1) :=
  kept_cons inside (by simp [usable])

/-- Behind the end of the address space there are none. -/
theorem usableFrom_end (ended : ADDRESS_SPACE_END ≤ addr) : layout.usableFrom addr = [] :=
  kept_empty ended

/-- The walk over the address space indexes the usable addresses.

Induction on the walk: a skipped byte leaves the index, a usable one uses it up. -/
theorem walkUsable_eq (layout : MemoryLayout) (addr n : Nat) :
    layout.walkUsable addr n = (layout.usableFrom addr)[n]? := by
  fun_induction walkUsable layout addr n with
  | case1 addr n ended => simp [usableFrom_end ended]
  | case2 addr n inside skipped inductionHypothesis =>
    rw [inductionHypothesis, usableFrom_skip skipped]
  | case3 addr inside usable =>
    simp only [usableFrom_cons (Nat.lt_of_not_le inside) (Bool.eq_false_iff.mpr usable),
      List.getElem?_cons_zero]
  | case4 addr n inside usable more inductionHypothesis =>
    obtain ⟨index, rfl⟩ := Nat.exists_eq_succ_of_ne_zero more
    rw [usableFrom_cons (Nat.lt_of_not_le inside) (Bool.eq_false_iff.mpr usable),
      List.getElem?_cons_succ, inductionHypothesis]
    rfl

/-- `usable_offset_to_address` indexes the usable addresses. -/
theorem usableOffsetToAddress_eq (layout : MemoryLayout) (n : Nat) :
    layout.usableOffsetToAddress n = layout.usable[n]? := walkUsable_eq layout _ n

/-- A usable byte lies in the data area or beyond, and outside every area. -/
theorem usableOffsetToAddress_some (found : layout.usableOffsetToAddress n = some addr) :
    16 ≤ addr ∧ addr < ADDRESS_SPACE_END ∧ layout.isSkipArea addr = false := by
  rw [usableOffsetToAddress_eq] at found
  exact mem_usableFrom.mp (List.mem_of_getElem? found)

end MemoryLayout

/-! ## Collecting -/

/-- The data area collected from its usable bytes: at most `size` of them, up to
the scanner's Terminator, within the capacity of the result. -/
def collect (build : Build) : Nat → TlvScanState → List UInt8 → List UInt8 →
    Except Type2Error (List UInt8)
  | 0, _, result, _ => .ok result
  | _ + 1, _, _, [] => .error .outOfRange
  | size + 1, scan, result, byte :: rest => do
    let result ← tryPush build.dataCapacity result byte
    match scan.feed byte with
    | none => .ok result
    | some scan => collect build size scan result rest

section

variable {build : Build} {scan next : TlvScanState} {result extended : List UInt8} {byte : UInt8}

/-- A byte without room for it ends the collecting. -/
theorem collect_full {error : Type2Error}
    (refused : tryPush build.dataCapacity result byte = .error error)
    (size : Nat) (rest : List UInt8) :
    collect build (size + 1) scan result (byte :: rest) = .error error := by
  rw [collect, refused]
  rfl

/-- The Terminator the scanner fires at is the last byte collected. -/
theorem collect_stop (pushed : tryPush build.dataCapacity result byte = .ok extended)
    (fires : scan.feed byte = none) (size : Nat) (rest : List UInt8) :
    collect build (size + 1) scan result (byte :: rest) = .ok extended := by
  rw [collect, pushed, fires]
  rfl

/-- Any other byte is collected and followed by the rest. -/
theorem collect_next (pushed : tryPush build.dataCapacity result byte = .ok extended)
    (fed : scan.feed byte = some next) (size : Nat) (rest : List UInt8) :
    collect build (size + 1) scan result (byte :: rest) =
      collect build size next extended rest := by
  rw [collect, pushed, fed]
  rfl

end

/-- What the data area of a memory reads as under a layout. -/
def dataAreaOf (build : Build) (layout : MemoryLayout) (memory : Nat → UInt8) :
    Except Type2Error (List UInt8) :=
  collect build layout.dataAreaSize .tag [] (layout.usable.map memory)

/-- Collecting goes on where the loop over one block leaves it. -/
def BlockOutcome.collectRest (build : Build) (size : Nat) (rest : List UInt8) :
    BlockOutcome → Except Type2Error (List UInt8)
  | .stop result => .ok result
  | .next bytesRead scan result => collect build (size - bytesRead) scan result rest

/-- The loop over one block collects the block's usable bytes.

Induction on the bytes left in the block. -/
theorem processBlock_collect (build : Build) (layout : MemoryLayout) (memory : Nat → UInt8)
    {byteAddr : Nat} (inside : byteAddr + 4 ≤ ADDRESS_SPACE_END) {blockData : Vector UInt8 4}
    (agrees : ∀ (i : Nat) (short : i < 4), blockData[i] = memory (byteAddr + i))
    (i bytesRead : Nat) (scan : TlvScanState) (result : List UInt8) (position : i ≤ 4) :
    collect build (layout.dataAreaSize - bytesRead) scan result
        ((layout.usableFrom (byteAddr + i)).map memory) =
      (processBlock build layout byteAddr blockData i bytesRead scan result).bind
        (BlockOutcome.collectRest build layout.dataAreaSize
          ((layout.usableFrom (byteAddr + 4)).map memory)) := by
  fun_induction processBlock build layout byteAddr blockData i bytesRead scan result with
  | case1 i bytesRead scan result short skipped inductionHypothesis =>
    rw [MemoryLayout.usableFrom_skip skipped]
    exact inductionHypothesis (by omega)
  | case2 i bytesRead scan result short usable full =>
    rw [Nat.sub_eq_zero_of_le full]
    rfl
  | case3 i bytesRead scan result short usable more inductionHypothesis =>
    have address : byteAddr + i < ADDRESS_SPACE_END := by omega
    obtain ⟨left, room⟩ : ∃ left, layout.dataAreaSize - bytesRead = left + 1 :=
      Nat.exists_eq_succ_of_ne_zero (by omega)
    have rest : layout.dataAreaSize - (bytesRead + 1) = left := by omega
    rw [MemoryLayout.usableFrom_cons address (Bool.eq_false_iff.mpr usable), List.map_cons, room,
      ← agrees i short]
    cases pushed : tryPush build.dataCapacity result blockData[i] with
    | error error => exact collect_full pushed left _
    | ok extended =>
      simp only [bind, Except.bind]
      cases fed : scan.feed blockData[i] with
      | none => exact collect_stop pushed fed left _
      | some scan =>
        have onward := inductionHypothesis extended scan (by omega)
        rw [rest] at onward
        exact (collect_next pushed fed left _).trans onward
  | case4 i bytesRead scan result done =>
    obtain rfl : i = 4 := by omega
    rfl

end NfcForumTags
