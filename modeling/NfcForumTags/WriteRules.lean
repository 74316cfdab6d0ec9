import NfcForumTags.PageContent
import NfcForumTags.ReadRules

/-!
# Rules for writing

One turn of the page loop is specified for any predicate that its filled page
satisfies; the loop is then specified twice. `Keeps` is for an invariant that
outlasts every exchange, whatever is written. `Writes` is for a plan: the data
placed on the usable addresses is cut into pages, and `J k` holds when exactly the
first `k` pages are written, so that a run goes through `J 0`, `J 1` and so on.
-/
namespace NfcForumTags

open Program Enumeration Overlay MemoryLayout

section

variable {σ ε : Type} {t : Transceiver σ ε} {build : Build} {I E : Machine σ → Prop}
  {Sees : Nat → UInt8 → Prop} {layout : MemoryLayout} {data : List UInt8}

/-! ## One turn of the page loop -/

/-- The page is read if it is not written directly, filled, and written if data
was placed on it. `Fills` is what is known of the filled page. -/
theorem Reads.writePage_rule (reads : Reads build t I E Sees) {addr pageBase limitAddr di : Nat}
    {sector block offset : UInt8} (m : Machine σ)
    (located : addressToSectorBlock addr = some (sector, block, offset))
    (base : pageBase = addr - offset.toNat) (holds : I m) (served : m.serving = some addr)
    (known : m.reader.sector = .known sector) (Fills : Option PageFill → Prop)
    (done : PageFill → Machine σ → Prop)
    (direct : offset = 0 → pageAllUsable layout pageBase = true →
      ∀ covers : BLOCK_SIZE ≤ data.length - di,
        Fills (if limitAddr < pageBase + BLOCK_SIZE then none
          else some ⟨pageFrom data di covers, di + BLOCK_SIZE, true⟩))
    (merged : ∀ current : Vector UInt8 4,
      (∀ (i : Nat) (short : i < 4), Sees (pageBase + i) current[i]) →
      Fills (fillPage layout data limitAddr pageBase offset.toNat ⟨current, di, false⟩))
    (refused : Fills none → ∀ next, I next → E next)
    (untouched : ∀ fill, Fills (some fill) → fill.touched = false → ∀ next, I next → done fill next)
    (sends : ∀ fill, Fills (some fill) → fill.touched = true → ∃ Attempt : Machine σ → Prop,
      SurvivesSelect t Attempt E ∧ (∀ next, I next → Attempt next) ∧
      SurvivesSend t (fun next => Attempt next ∧ next.serving = some addr) E
        (Command.write block fill.page).toBytes (.known sector) fun raw next =>
          ((Command.write block fill.page).parseAnswer raw = .ok .ack → done fill next.uncache) ∧
          ((Command.write block fill.page).parseAnswer raw ≠ .ok .ack → E next.uncache)) :
    Ensures (writePage build t layout data limitAddr pageBase block offset di)
      (fun written next => ∃ fill, Fills (some fill) ∧ written = fill.di ∧ done fill next)
      (fun _ next => E next) m := by
  have blockBase : blockAddress sector block = pageBase := by
    rw [base, located_address located]
    omega
  have writeFilled : ∀ fill next, Fills (some fill) → fill.touched = true → I next →
      next.serving = some addr → next.reader.sector = .known sector →
      Ensures (write t block fill.page) (fun _ last => done fill last)
          (fun _ last => E last) next := by
    intro fill next filled touched kept served tracked
    obtain ⟨Attempt, survives, start, sends⟩ := sends fill filled touched
    refine (write_rule (done fill) (survives.serving (some addr)) block fill.page next
      ⟨start next kept, served⟩ ?_).mono (fun _ _ written => written.1) (fun _ _ left => left)
    rw [tracked]
    exact sends
  unfold writePage
  split
  · next covered =>
    have filled := direct covered.1.1 covered.2 covered.1.2
    rw [ensures_bind, ensures_refuseIf]
    constructor
    · intro below
      rw [if_neg below] at filled
      rw [ensures_bind]
      exact (writeFilled _ m filled rfl holds served known).mono
        (fun _ next written => ⟨_, filled, rfl, written⟩) (fun _ _ left => left)
    · intro beyond
      rw [if_pos beyond] at filled
      exact refused filled m holds
  · have aimed : Aimed m.serving m.reader.sector block :=
      ⟨addr, sector, offset, served, located, known⟩
    refine (reads.read_rule block m holds aimed).bind (fun _ _ left => left) ?_
    rintro current next ⟨⟨kept, sameServing, seen⟩, tracked, -⟩
    have filled := merged (firstBlock current) (by
      intro i short
      have inBlock := addressToSectorBlock_some located
      rw [firstBlock_getElem, ← blockBase]
      exact seen sector known i (by omega) (by omega))
    split
    · next none => exact refused (none ▸ filled) next kept
    · next fill some =>
      rw [some] at filled
      rw [ensures_bind]
      cases touched : fill.touched with
      | false => exact ⟨fill, filled, rfl, untouched fill filled touched next kept⟩
      | true =>
        rw [if_pos rfl]
        exact (writeFilled fill next filled touched kept (sameServing.trans served)
          (tracked.trans known)).mono (fun _ last written => ⟨fill, filled, rfl, written⟩)
          (fun _ _ left => left)

/-- The data that fits from an address on fits, after one page, from the next. -/
theorem Room.step {limitAddr addr di pageBase : Nat} (room : Room layout data limitAddr addr di)
    (inPage : pageBase ≤ addr ∧ addr < pageBase + 4) :
    Room layout data limitAddr (pageBase + 4)
      (di + ((layout.usableBetween addr (pageBase + 4)).zip (data.drop di)).length) := by
  unfold Room at room ⊢
  rw [List.length_zip, List.length_drop]
  by_cases below : pageBase + 4 ≤ limitAddr
  · have cut : layout.usableBetween addr limitAddr =
        layout.usableBetween addr (pageBase + 4) ++ layout.usableBetween (pageBase + 4) limitAddr :=
      kept_append (by omega) below
    rw [cut, List.length_append] at room
    omega
  · by_cases inside : addr ≤ limitAddr
    · have cut : layout.usableBetween addr (pageBase + 4) =
          layout.usableBetween addr limitAddr ++ layout.usableBetween limitAddr (pageBase + 4) :=
        kept_append inside (by omega)
      rw [cut, List.length_append]
      omega
    · rw [usableBetween_empty (by omega : limitAddr ≤ addr), List.length_nil] at room
      omega

/-! ## Invariants of every exchange -/

/-- An invariant that outlasts every exchange of an operation, whatever is read or
written; a failing exchange leaves `E`. -/
structure Keeps (build : Build) (t : Transceiver σ ε) (I E : Machine σ → Prop) : Prop where
  reads : Reads build t I E fun _ _ => True
  writes : ∀ serving intended block page, Aimed serving intended block →
    SurvivesSend t (fun m => I m ∧ m.serving = serving) E (Command.write block page).toBytes
      intended fun raw next =>
        ((Command.write block page).parseAnswer raw = .ok .ack → I next.uncache) ∧
        ((Command.write block page).parseAnswer raw ≠ .ok .ack → E next.uncache)

/-- With room for the data, a page can be filled whatever it shows. -/
theorem fillPage_consumes {limitAddr pageBase i di : Nat} (current : Vector UInt8 4)
    (position : i ≤ 4) (room : Room layout data limitAddr (pageBase + i) di) :
    ∃ fill, fillPage layout data limitAddr pageBase i ⟨current, di, false⟩ = some fill ∧
      fill.di = di +
        ((layout.usableBetween (pageBase + i) (pageBase + 4)).zip (data.drop di)).length := by
  obtain ⟨fill, filled, -, consumed, -⟩ := fillPage_place
    (fun addr => if inside : addr - pageBase < 4 then current[addr - pageBase] else 0)
    ⟨current, di, false⟩ position room (by
      intro j short
      have offset : pageBase + j - pageBase = j := by omega
      simp [offset, short])
  exact ⟨fill, filled, consumed⟩

/-- The page loop keeps the invariant. It is refused for lack of room only if there
is none, or if `E` does not tell a refusal from the invariant.

Induction on the walk over the pages. -/
theorem Keeps.writeUsableBytesFrom_rule (keeps : Keeps build t I E) {limitAddr : Nat}
    (addr di : Nat)
    (m : Machine σ) (fit : limitAddr ≤ ADDRESS_SPACE_END ∧ Room layout data limitAddr addr di ∨
      ∀ m, I m → E m) (holds : I m) :
    Ensures (writeUsableBytesFrom build t layout data limitAddr addr di)
      (fun _ next => I next) (fun _ next => E next) m := by
  fun_induction writeUsableBytesFrom build t layout data limitAddr addr di generalizing m with
  | case1 addr di more beyond =>
    rcases fit with ⟨-, room⟩ | ends
    · unfold Room at room
      rw [usableBetween_empty beyond, List.length_nil] at room
      omega
    · exact ends m holds
  | case2 addr di more below outside =>
    rcases fit with ⟨inside, -⟩ | ends
    · rw [addressToSectorBlock_eq (by omega)] at outside
      cases outside
    · exact ends m holds
  | case3 addr di more below sector block offset located inductionHypothesis =>
    obtain ⟨inside, -, -, offsetValue⟩ := addressToSectorBlock_some located
    obtain ⟨pageBase, pageBaseValue⟩ : ∃ pageBase, pageBase = addr - offset.toNat := ⟨_, rfl⟩
    rw [← pageBaseValue] at inductionHypothesis ⊢
    simp only [BLOCK_SIZE_eq] at inductionHypothesis
    have atOffset : pageBase + offset.toNat = addr := by omega
    have inPage : pageBase ≤ addr ∧ addr < pageBase + 4 := by omega
    rw [ensures_bind, ensures_serve]
    refine (switchSector_rule (keeps.reads.select.serving (some addr)) sector
      { m with serving := some addr } ⟨keeps.reads.serve m addr holds, rfl⟩
      (fun beyond => absurd beyond (located_allowed located))).bind (fun _ _ left => left) ?_
    rintro - switched ⟨⟨kept, served⟩, known, -⟩
    have aimed : Aimed (some addr) (.known sector) block :=
      ⟨addr, sector, offset, rfl, located, rfl⟩
    refine (keeps.reads.writePage_rule switched located pageBaseValue kept served known
      (fun filled => Room layout data limitAddr addr di → ∃ fill, filled = some fill ∧
        fill.di = di +
          ((layout.usableBetween addr (pageBase + 4)).zip (data.drop di)).length)
      (fun _ => I) ?_ ?_ ?_ (fun _ _ _ _ kept => kept) (fun fill _ _ => ⟨I,
        keeps.reads.select, fun _ kept => kept,
        keeps.writes (some addr) (.known sector) block fill.page aimed⟩)).bind
      (fun _ _ left => left) ?_
    · intro offsetZero allUsable covers room
      have atBase : pageBase = addr := by
        rw [offsetZero] at atOffset
        exact atOffset
      rw [← atBase] at room ⊢
      have below : ¬ limitAddr < pageBase + BLOCK_SIZE := Nat.not_lt.mpr (covered_below covers room)
      rw [if_neg below]
      refine ⟨_, rfl, ?_⟩
      rw [(pageFrom_place (fun _ => 0) allUsable covers).2]
      rfl
    · intro current _ room
      rw [← atOffset] at room
      have consumed := fillPage_consumes current (by omega) room
      rw [atOffset] at consumed
      exact consumed
    · intro none next kept
      rcases fit with ⟨-, room⟩ | ends
      · obtain ⟨fill, some, -⟩ := none room
        cases some
      · exact ends next kept
    · rintro written next ⟨fill, filled, rfl, kept⟩
      refine inductionHypothesis fill.di next (fit.imp_left fun fit => ⟨fit.1, ?_⟩) kept
      obtain ⟨same, some, consumed⟩ := filled fit.2
      obtain rfl := Option.some.inj some
      rw [consumed]
      exact fit.2.step inPage
  | case4 addr di done => exact holds

/-- Writing a job keeps the invariant, however far it comes. -/
theorem Keeps.commitWrite_rule (keeps : Keeps build t I I) (job : WriteJob) (m : Machine σ)
    (holds : I m) :
    Ensures (commitWrite build t job) (fun _ next => I next) (fun _ next => I next) m := by
  unfold commitWrite writeUsableBytes
  refine (keeps.writeUsableBytesFrom_rule _ 0 m (Or.inr fun _ kept => kept) holds).bind
    (fun _ _ left => left) ?_
  rintro - written kept
  split
  · exact keeps.writeUsableBytesFrom_rule _ 0 written (Or.inr fun _ kept => kept) kept
  · exact kept

/-- `write_ndef` keeps the invariant, however far it comes. -/
theorem Keeps.writeNdef_rule (keeps : Keeps build t I I) (ndefData : List UInt8) (m : Machine σ)
    (holds : I m) :
    Ensures (writeNdef build t ndefData) (fun _ next => I next) (fun _ next => I next) m := by
  unfold writeNdef
  refine Ensures.bind (keeps.reads.prepareWrite_rule ndefData m holds).kept
    (fun _ _ kept => kept) ?_
  exact fun job next kept => keeps.commitWrite_rule job next kept

/-! ## Plans -/

/-- The pages that a sequence of placed bytes is written in. -/
def pagesOf (pairs : List (Nat × UInt8)) : List (List (Nat × UInt8)) := groups (· / 4) pairs

/-- The memory after the first `k` pages. -/
def planned (base : Memory) (pages : List (List (Nat × UInt8))) (k : Nat) : Memory :=
  place base (pages.take k).flatten

/-- One more page places that page's bytes. -/
theorem planned_succ {base : Memory} {pages : List (List (Nat × UInt8))} {k : Nat}
    {page : List (Nat × UInt8)} {rest : List (List (Nat × UInt8))}
    (shape : pages.drop k = page :: rest) :
    planned base pages (k + 1) = place (planned base pages k) page := by
  have found : pages[k]? = some page := by
    rw [← List.head?_drop, shape]
    rfl
  unfold planned
  rw [List.take_add_one, found, List.flatten_append, place_append]
  simp

/-- A run that writes the pages of a plan: `J k` holds with the first `k` pages
written, `Attempt k` while the next page is being attempted. -/
structure Writes (build : Build) (t : Transceiver σ ε) (base : Memory)
    (pages : List (List (Nat × UInt8))) (J Attempt : Nat → Machine σ → Prop)
    (E : Machine σ → Prop) : Prop where
  reads : ∀ k, k ≤ pages.length →
    Reads build t (J k) E fun addr byte => byte = planned base pages k addr
  select : ∀ k, k < pages.length → SurvivesSelect t (Attempt k) E
  attempts : ∀ k m, k < pages.length → J k m → Attempt k m
  sends : ∀ k addr sector block offset page, k < pages.length → 16 ≤ addr →
    addressToSectorBlock addr = some (sector, block, offset) →
    storeBlock (planned base pages k) sector block page = planned base pages (k + 1) →
    SurvivesSend t (fun m => Attempt k m ∧ m.serving = some addr) E
      (Command.write block page).toBytes (.known sector) fun raw next =>
        ((Command.write block page).parseAnswer raw = .ok .ack → J (k + 1) next.uncache) ∧
        ((Command.write block page).parseAnswer raw ≠ .ok .ack → E next.uncache)

/-- Pairing a list with data takes the data from where its first part ends. -/
theorem zip_append_drop {first second : List Nat} (values : List UInt8) :
    (first ++ second).zip values = first.zip values ++ second.zip (values.drop first.length) := by
  induction first generalizing values with
  | nil => simp
  | cons head first inductionHypothesis =>
    cases values with
    | nil => simp
    | cons value values => simp [inductionHypothesis]

variable (layout data) in
/-- The pages of the data from an address on: the page of the address, if any of
its bytes is usable, and the pages from the next one on. -/
theorem pagesOf_step {addr pageBase : Nat} (di : Nat) (aligned : pageBase % 4 = 0)
    (inPage : pageBase ≤ addr ∧ addr < pageBase + 4) (inside : pageBase + 4 ≤ ADDRESS_SPACE_END) :
    let page := (layout.usableBetween addr (pageBase + 4)).zip (data.drop di)
    pagesOf ((layout.usableFrom addr).zip (data.drop di)) =
      (if page = [] then [] else [page]) ++
        pagesOf ((layout.usableFrom (pageBase + 4)).zip (data.drop (di + page.length))) := by
  intro page
  have rest : (data.drop di).drop (layout.usableBetween addr (pageBase + 4)).length =
      data.drop (di + page.length) := by
    have count : page.length =
        min (layout.usableBetween addr (pageBase + 4)).length (data.length - di) := by
      simp [page, List.length_zip]
    rw [List.drop_drop, count]
    by_cases fit : (layout.usableBetween addr (pageBase + 4)).length ≤ data.length - di
    · rw [min_eq_left fit]
    · rw [min_eq_right (by omega), List.drop_eq_nil_of_le (by omega),
        List.drop_eq_nil_of_le (by omega)]
  have pageKey : ∀ pair ∈ page, pair.1 / 4 = pageBase / 4 := by
    intro pair member
    have bounds := mem_kept.mp (List.of_mem_zip member).1
    omega
  rw [usableFrom_between (pageBase + 4) (by omega) inside, zip_append_drop, rest]
  unfold pagesOf
  rw [groups_append]
  · split
    · next empty =>
      rw [show (layout.usableBetween addr (pageBase + 4)).zip (data.drop di) = [] from empty,
        groups_nil]
    · next nonempty => rw [groups_single nonempty pageKey]
  · intro x last y head
    have xKey := pageKey x (List.mem_of_getLast? last)
    have yMember := (List.of_mem_zip (List.mem_of_head? head)).1
    have yBound := (mem_usableFrom.mp yMember).1
    change x.1 / 4 ≠ y.1 / 4
    omega

/-- One turn of the page loop writes the page of the address, if any of its bytes is
usable, and consumes as many data bytes as are placed on it. -/
theorem Writes.writePage_rule {base : Memory} {pages : List (List (Nat × UInt8))}
    {J Attempt : Nat → Machine σ → Prop} (writes : Writes build t base pages J Attempt E)
    {addr pageBase limitAddr di k : Nat} {sector block offset : UInt8} (m : Machine σ)
    (located : addressToSectorBlock addr = some (sector, block, offset))
    (pageBaseValue : pageBase = addr - offset.toNat) (start : 16 ≤ addr)
    (room : Room layout data limitAddr addr di) {page : List (Nat × UInt8)}
    (pageShape : (layout.usableBetween addr (pageBase + 4)).zip (data.drop di) = page)
    (remaining : page ≠ [] → ∃ onward, pages.drop k = page :: onward) (count : k ≤ pages.length)
    (holds : J k m) (served : m.serving = some addr) (known : m.reader.sector = .known sector) :
    Ensures (writePage build t layout data limitAddr pageBase block offset di)
      (fun written next => written = di + page.length ∧ J (if page = [] then k else k + 1) next)
      (fun _ next => E next) m := by
  have position := (addressToSectorBlock_some located).2.2.2
  have atOffset : pageBase + offset.toNat = addr := by omega
  have blockBase : blockAddress sector block = pageBase := by
    have := located_address located
    omega
  have onPage : ∀ pair ∈ page, pageBase ≤ pair.1 ∧ pair.1 < pageBase + 4 := by
    intro pair member
    rw [← pageShape] at member
    have bounds := mem_kept.mp (List.of_mem_zip member).1
    omega
  have reads := writes.reads k count
  -- The filled page holds the page's bytes of the plan, and consumes as many data bytes.
  refine (reads.writePage_rule m located pageBaseValue holds served known
    (fun filled => ∃ fill, filled = some fill ∧
      (∀ (j : Nat) (short : j < 4),
        fill.page[j] = place (planned base pages k) page (pageBase + j)) ∧
      fill.di = di + page.length ∧ (fill.touched = true ↔ page ≠ []))
    (fun _ => J (if page = [] then k else k + 1)) ?_ ?_ ?_ ?_ ?_).mono ?_ (fun _ _ left => left)
  · intro offsetZero allUsable covers
    have atBase : pageBase = addr := by
      rw [offsetZero] at atOffset
      exact atOffset
    have direct := pageFrom_place (planned base pages k) allUsable covers
    rw [← atBase] at pageShape room
    rw [pageShape] at direct
    have below : ¬ limitAddr < pageBase + BLOCK_SIZE := Nat.not_lt.mpr (covered_below covers room)
    rw [if_neg below]
    refine ⟨_, rfl, direct.1, by rw [direct.2]; rfl, fun _ => ?_, fun _ => rfl⟩
    exact List.ne_nil_of_length_pos (by omega)
  · intro current seen
    rw [← atOffset] at room
    have merged := fillPage_place (planned base pages k) ⟨current, di, false⟩ (by omega) room seen
    rw [atOffset, pageShape] at merged
    simpa using merged
  · rintro ⟨fill, none, -⟩
    cases none
  · rintro fill ⟨same, some, -, -, touched⟩ untouched next kept
    obtain rfl := Option.some.inj some
    have empty : page = [] := by
      by_contra nonempty
      rw [touched.mpr nonempty] at untouched
      cases untouched
    rw [if_pos empty]
    exact kept
  · rintro fill ⟨same, some, bytes, -, touched⟩ filled
    obtain rfl := Option.some.inj some
    have nonempty : page ≠ [] := touched.mp filled
    rw [if_neg nonempty]
    obtain ⟨onward, remaining⟩ := remaining nonempty
    have unfinished : k < pages.length := by
      have lengths := congrArg List.length remaining
      rw [List.length_drop, List.length_cons] at lengths
      omega
    refine ⟨Attempt k, writes.select k unfinished, fun next kept =>
      writes.attempts k next unfinished kept,
      writes.sends k addr sector block offset fill.page unfinished start located ?_⟩
    rw [planned_succ remaining]
    exact storeBlock_eq_place blockBase onPage bytes
  · rintro written next ⟨fill, ⟨same, some, -, consumed, -⟩, rfl, kept⟩
    obtain rfl := Option.some.inj some
    exact ⟨consumed, kept⟩

/-- The page loop writes the pages of its data, in order: data that fits below the
limit is written in full unless an exchange fails.

Induction on the walk over the pages. The invariant is that the pages still to be
written are those of the data still to be written, and then the pages `after`. -/
theorem Writes.writeUsableBytesFrom_rule {base : Memory} {pages : List (List (Nat × UInt8))}
    {J Attempt : Nat → Machine σ → Prop} (writes : Writes build t base pages J Attempt E)
    {limitAddr : Nat} (limitInside : limitAddr ≤ ADDRESS_SPACE_END) (addr di k : Nat)
    (m : Machine σ) (after : List (List (Nat × UInt8))) (start : 16 ≤ addr)
    (room : Room layout data limitAddr addr di)
    (remaining : pages.drop k = pagesOf ((layout.usableFrom addr).zip (data.drop di)) ++ after)
    (count : k ≤ pages.length) (holds : J k m) :
    Ensures (writeUsableBytesFrom build t layout data limitAddr addr di)
      (fun _ next => J (pages.length - after.length) next) (fun _ next => E next) m := by
  fun_induction writeUsableBytesFrom build t layout data limitAddr addr di generalizing m k with
  | case1 addr di more beyond =>
    unfold Room at room
    rw [usableBetween_empty beyond, List.length_nil] at room
    omega
  | case2 addr di more below outside =>
    rw [addressToSectorBlock_eq (by omega)] at outside
    cases outside
  | case3 addr di more below sector block offset located inductionHypothesis =>
    obtain ⟨inside, -, -, offsetValue⟩ := addressToSectorBlock_some located
    simp only [ADDRESS_SPACE_END_eq] at inside
    obtain ⟨pageBase, pageBaseValue⟩ : ∃ pageBase, pageBase = addr - offset.toNat := ⟨_, rfl⟩
    rw [← pageBaseValue] at inductionHypothesis ⊢
    simp only [BLOCK_SIZE_eq] at inductionHypothesis
    have aligned : pageBase % 4 = 0 := by omega
    have inPage : pageBase ≤ addr ∧ addr < pageBase + 4 := by omega
    have pageInside : pageBase + 4 ≤ ADDRESS_SPACE_END := by
      simp only [ADDRESS_SPACE_END_eq]
      omega
    have step := pagesOf_step layout data di aligned inPage pageInside
    have roomNext := room.step inPage
    simp only at step
    generalize pageShape : (layout.usableBetween addr (pageBase + 4)).zip (data.drop di) = page
      at step roomNext
    rw [ensures_bind, ensures_serve]
    have reads := writes.reads k count
    refine (switchSector_rule (reads.select.serving (some addr)) sector
      { m with serving := some addr } ⟨reads.serve m addr holds, rfl⟩
      (fun beyond => absurd beyond (located_allowed located))).bind (fun _ _ left => left) ?_
    rintro - switched ⟨⟨kept, served⟩, known, -⟩
    rw [step] at remaining
    have onward : page ≠ [] → ∃ onward, pages.drop k = page :: onward := by
      intro nonempty
      rw [if_neg nonempty, List.append_assoc, List.singleton_append] at remaining
      exact ⟨_, remaining⟩
    refine (writes.writePage_rule switched located pageBaseValue start room pageShape
      onward count kept
      served known).bind (fun _ _ left => left) ?_
    rintro written next ⟨rfl, holds⟩
    rw [BLOCK_SIZE_eq]
    split at remaining
    · next empty =>
      rw [if_pos empty] at holds
      rw [List.nil_append] at remaining
      exact inductionHypothesis _ k next (by omega) roomNext remaining count holds
    · next nonempty =>
      rw [if_neg nonempty] at holds
      rw [List.append_assoc, List.singleton_append] at remaining
      have lengths := congrArg List.length remaining
      rw [List.length_drop, List.length_cons] at lengths
      have tail := congrArg List.tail remaining
      rw [List.tail_drop, List.tail_cons] at tail
      exact inductionHypothesis _ (k + 1) next (by omega) roomNext tail (by omega) holds
  | case4 addr di done =>
    rw [List.drop_eq_nil_of_le (by omega : data.length ≤ di), List.zip_nil_right] at remaining
    have lengths := congrArg List.length remaining
    simp only [pagesOf, groups_nil, List.nil_append, List.length_drop] at lengths
    have finished : pages.length - after.length = k := by omega
    rw [ensures_pure, finished]
    exact holds

end

end NfcForumTags
