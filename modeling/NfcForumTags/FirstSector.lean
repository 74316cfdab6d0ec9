import NfcForumTags.NdefStore
import NfcForumTags.BlockWalk

/-!
# Tags without a second sector

Tags of up to a kilobyte have one sector and need not know SECTOR SELECT. On a plain tag
whose data area ends within the first 1024 bytes, no run of calls that stays in sector 0
by itself sends one: both passes of reading, and writing, find sector 0 selected.
-/
namespace NfcForumTags

open Program MemoryLayout

section

variable {σ ε : Type} {tag : FaultFreeTag σ ε} {build : Build} {past : List (Exchange σ)}
  {m : Machine σ}

/-- Sector 0 is known to be selected, and the exchanges since `past` are READs and WRITEs. -/
structure AtHome (past : List (Exchange σ)) (m : Machine σ) : Prop where
  known : m.reader.sector = .known 0
  logged : Logged past (fun exchange => exchange.frame.isTransfer = true) m

/-- Only the tracked sector and the trace matter. -/
theorem AtHome.congr {next : Machine σ} (home : AtHome past m)
    (sector : next.reader.sector = m.reader.sector)
    (trace : next.trace = m.trace) : AtHome past next :=
  ⟨sector.trans home.known, home.logged.congr trace⟩

variable (build tag past) in
/-- A tag that answers everything is never asked for another sector. -/
theorem roams_home : Roams build tag.toTransceiver (· = 0) (AtHome past)
    (fun _ => AtHome past) where
  serve _ _ home := home.congr rfl rfl
  select sector m inside home := by
    subst inside
    rw [Ensures, sectorSelect_settled (by decide) home.known]
    exact ⟨home, home.known⟩
  read sector block m _ _ home := by
    by_cases hit : m.reader.cacheBlock = some block
    · unfold read
      rw [ensures_bind, ensures_get, if_pos hit]
      exact home
    · obtain ⟨data, run⟩ := read_miss build tag block hit
      rw [Ensures, run]
      refine AtHome.congr (m := m.sent tag.toTransceiver (Command.read block).toBytes)
        ⟨home.known, home.logged.exchanged _ _ rfl⟩ ?_ ?_
      all_goals
        rw [Machine.store]
        split <;> rfl
  write sector block page m _ _ home := by
    obtain ⟨raw, answered, acked⟩ := tag.acks m.reader.transceiver block page
    have sent : AtHome past (m.sent tag.toTransceiver (Command.write block page).toBytes) :=
      ⟨home.known, home.logged.exchanged _ _ rfl⟩
    unfold write
    rw [ensures_bind, Ensures, transceiveWithRetry_answered answered]
    change Ensures _ _ _ _
    rw [ensures_bind, ensures_invalidateCache]
    exact ensures_expectAck (fun _ => sent.congr rfl rfl) fun _ _ => sent.congr rfl rfl

/-- Refusing sends nothing. -/
theorem home_refuses {P : Type2Error → Prop} :
    Refuses P (AtHome past) fun (_ : ReaderError ε) (m : Machine σ) => AtHome past m :=
      fun _ _ _ home => home

/-- The first 1024 bytes are in sector 0. -/
theorem sectorsBelow_first {limit : Nat} (near : limit ≤ 1024) : SectorsBelow (· = 0) limit := by
  intro addr sector block offset inside located
  obtain ⟨-, value, -, -⟩ := addressToSectorBlock_some located
  exact UInt8.toNat_inj.mp (by rw [value, Nat.div_eq_of_lt (inside.trans_le near)]; rfl)

/-- A clear data area is read to its end only. -/
theorem MemoryLayout.Clear.reaches {layout : MemoryLayout} (clear : layout.Clear)
    (small : layout.dataAreaSize ≤ 2040) : layout.Reaches (16 + layout.dataAreaSize) := by
  intro byteAddr few
  by_contra beyond
  have prefixed : layout.usableBetween 16 (16 + layout.dataAreaSize) =
      List.range' 16 layout.dataAreaSize := by
    unfold usableBetween Enumeration.kept
    rw [Nat.add_sub_cancel_left, List.filter_eq_self]
    intro addr member
    have bounds := List.mem_range'_1.mp member
    rw [clear addr bounds.1 bounds.2]
    rfl
  have cut : layout.usableBetween 16 byteAddr =
      layout.usableBetween 16 (16 + layout.dataAreaSize) ++
      layout.usableBetween (16 + layout.dataAreaSize) byteAddr :=
    Enumeration.kept_append (by omega) (by omega)
  rw [cut, prefixed, List.length_append, List.length_range'] at few
  omega

/-- `read_cc` answers with what the container's bytes stand for. -/
theorem readCc_answers (coherent : Coherent build tag.toTag m) :
    Answers build tag (readCc build tag.toTransceiver) (ccOf (tag.memoryOf m)) m :=
  answers_of_computes ((faultFree_reads build tag m).readCc_rule m ⟨held_start coherent _, trivial⟩)

variable {cc : CapabilityContainer} {ahead : List UInt8} {front : List Tlv} {message : List UInt8}

/-- The blocks both passes show on a tag that holds a message, and their layout. -/
theorem Holds.shown {memory : Memory} (holds : Holds cc ahead front memory message)
    {dataArea : List UInt8} {tlvs : List Tlv}
    (pass : dataAreaOf .alloc (MemoryLayout.fromCcAndTlvs .alloc cc []) memory = .ok dataArea)
    (listed : parseTlvs .alloc dataArea = .ok tlvs) :
    (MemoryLayout.fromCcAndTlvs .alloc cc tlvs).Clear := by
  obtain ⟨behind, stream, clear⟩ := holds.shows
  have basic := emptyStream.dataAreaOf cc (by simp) memory
  rw [(basic_clear cc).dataBytes] at basic
  obtain rfl := Except.ok.inj (basic.symm.trans pass)
  have same := (upToStop_stream.mpr stream).parse
  obtain rfl := Except.ok.inj (same.symm.trans listed)
  exact clear

section

variable (coherent : Coherent .alloc tag.toTag m)
  (holds : Holds cc ahead front (tag.memoryOf m) message)
  (near : cc.dataAreaSize ≤ 1008) (home : AtHome past m)
include coherent holds near home

/-- Both passes stay in sector 0. -/
theorem readDataAreaWithLayout_home :
    Ensures (readDataAreaWithLayout .alloc tag.toTransceiver cc) (fun _ next => AtHome past next)
      (fun _ next => AtHome past next) m := by
  have roams := roams_home tag .alloc past
  have pass : ∀ {tlvs : List Tlv}, (MemoryLayout.fromCcAndTlvs .alloc cc tlvs).Clear →
      ∀ {next : Machine σ}, AtHome past next →
      Ensures (readDataArea .alloc tag.toTransceiver (MemoryLayout.fromCcAndTlvs .alloc cc tlvs))
        (fun _ next => AtHome past next) (fun _ next => AtHome past next) next := by
    intro tlvs clear next home
    have size := fromCcAndTlvs_size cc tlvs
    exact roams.readDataArea home_refuses (clear.reaches (by omega))
      (sectorsBelow_first (by omega)) next home
  unfold readDataAreaWithLayout
  refine ((pass (basic_clear cc) home).and (readDataArea_answers coherent _).ensures).bind
    (fun _ _ left => left.1) ?_
  rintro dataArea next ⟨home, read, -, -⟩
  rw [ensures_bind, ensures_orProtocol]
  refine ⟨fun tlvs listed => ?_, fun _ _ => home⟩
  split
  · exact pass (holds.shown read listed) home
  · exact home

/-- `read_ndef` stays at home on a tag whose data area and areas lie in the first sector. -/
theorem readNdef_home :
    Ensures (readNdef .alloc tag.toTransceiver) (fun _ next => AtHome past next)
      (fun _ next => AtHome past next) m := by
  unfold readNdef
  refine (((roams_home tag .alloc past).readCc home_refuses rfl m home).and
    (readCc_answers coherent).ensures).bind
    (fun _ _ left => left.1) ?_
  rintro cc' next ⟨home, parsed, coherent, memory⟩
  obtain rfl := Except.ok.inj (holds.parsed.symm.trans parsed)
  rw [← memory] at holds
  rw [ensures_bind, ensures_refuseIf]
  refine ⟨fun _ => ?_, fun _ => home⟩
  refine (readDataAreaWithLayout_home coherent holds near home).bind (fun _ _ left => left) ?_
  intro dataArea next home
  rw [ensures_bind, ensures_orProtocol]
  exact ⟨fun _ _ => home, fun _ _ => home⟩

/-- So do the checks of `write_ndef`. -/
theorem prepareWrite_home (ndefData : List UInt8) :
    Ensures (prepareWrite .alloc tag.toTransceiver ndefData) (fun _ next => AtHome past next)
      (fun _ next => AtHome past next) m := by
  unfold prepareWrite
  refine (((roams_home tag .alloc past).readCc home_refuses rfl m home).and
    (readCc_answers coherent).ensures).bind
    (fun _ _ left => left.1) ?_
  rintro cc' next ⟨home, parsed, coherent, memory⟩
  obtain rfl := Except.ok.inj (holds.parsed.symm.trans parsed)
  rw [← memory] at holds
  rw [ensures_bind, ensures_refuseIf]
  refine ⟨fun _ => ?_, fun _ => home⟩
  rw [ensures_bind, ensures_refuseIf]
  refine ⟨fun _ => ?_, fun _ => home⟩
  refine (readDataAreaWithLayout_home coherent holds near home).bind (fun _ _ left => left) ?_
  intro dataArea next home
  rw [ensures_bind, ensures_orProtocol]
  refine ⟨fun _ _ => ?_, fun _ _ => home⟩
  rw [ensures_orProtocol]
  exact ⟨fun _ _ => home, fun _ _ => home⟩

/-- Writing stops at the end of the data area. -/
theorem writeNdef_home (ndefData : List UInt8) :
    Ensures (writeNdef .alloc tag.toTransceiver ndefData) (fun _ next => AtHome past next)
      (fun _ next => AtHome past next) m := by
  unfold writeNdef
  refine ((prepareWrite_home coherent holds near home ndefData).and
    (prepareWrite_answers coherent ndefData).ensures).bind (fun _ _ left => left.1) ?_
  rintro job next ⟨home, plans, -, -⟩
  obtain ⟨tlvs, plan, -, clear⟩ := holds.planned plans
  refine (roams_home tag .alloc past).commitWrite home_refuses job (sectorsBelow_first ?_) next home
  have size : job.layout.dataAreaSize = cc.dataAreaSize := by rw [plan.layout, fromCcAndTlvs_size]
  have fits := plan.fits
  have taken := clear.usable_take (by omega)
  obtain ⟨lastAddr, last, limit⟩ := plan.last
  have listed := congrArg (·[cc.dataAreaSize - 1]?) taken
  simp only [size] at listed
  rw [List.getElem?_take_of_lt (by omega), last, List.getElem?_range' (by omega)] at listed
  have value := Option.some.inj listed
  omega

end

/-- The calls that leave sector 0 only if reading or writing does. -/
def Call.StaysHome : Call → Prop
  | .sectorSelect sector => sector = 0 ∨ MAX_SECTOR < sector
  | .readDataArea layout => layout.totalBytes ≤ 1024
  | .write _ _ | .markTagStateUnknown => False
  | .setMaxRetries _ | .read _ | .readCc | .readNdef | .writeNdef _ | .invalidateCache => True

/-- Every such call stays in sector 0. -/
theorem Represents.home {store : NdefStore}
    (represents : Represents tag.patient ahead front store m)
    (near : store.cc.dataAreaSize ≤ 1008) (home : AtHome past m) (call : Call)
    (stays : call.StaysHome) :
    AtHome past (call.after .alloc tag.toTransceiver m) := by
  have roams := roams_home tag .alloc past
  have replied : ∀ {α : Type} {program : Operation σ ε α} {reply : α → Reply},
      Ensures program (fun _ next => AtHome past next) (fun _ next => AtHome past next) m →
      Ensures (do let value ← program; return reply value) (fun _ next => AtHome past next)
        (fun _ next => AtHome past next) m :=
    fun ensured => ensured.bind (fun _ _ left => left) fun _ _ kept => kept
  unfold Call.after
  apply Ensures.always
  cases call with
  | setMaxRetries n | invalidateCache => exact home.congr rfl rfl
  | read block =>
    unfold Call.run
    rw [ensures_bind]
    have idle : AtHome past { m with serving := none } := home.congr rfl rfl
    exact (roams.read 0 block _ rfl idle.known idle).bind (fun _ _ left => left)
      fun _ _ kept => kept
  | write block data | markTagStateUnknown => exact stays.elim
  | sectorSelect sector =>
    refine (?_ : Ensures (NfcForumTags.sectorSelect tag.toTransceiver sector)
      (fun _ next => AtHome past next)
      (fun _ next => AtHome past next) m).bind (fun _ _ left => left) fun _ _ kept => kept
    rcases stays with rfl | beyond
    · exact (roams.select 0 m rfl home).mono (fun _ _ kept => kept.1) fun _ _ left => left
    · unfold NfcForumTags.sectorSelect
      rw [ensures_bind, ensures_refuseIf]
      exact ⟨fun allowed => absurd beyond allowed, fun _ => home⟩
  | readCc => exact replied (roams.readCc home_refuses rfl m home)
  | readDataArea layout =>
    exact replied (roams.readDataArea home_refuses (reaches_totalBytes layout)
      (sectorsBelow_first stays) m home)
  | readNdef => exact replied (readNdef_home represents.coherent represents.holds near home)
  | writeNdef ndefData =>
    exact (writeNdef_home represents.coherent represents.holds near home ndefData).bind
      (fun _ _ left => left) fun _ _ kept => kept

/-- A run of such calls leaves the reader in sector 0.

Induction on the calls: each leaves a reader that represents a store and knows sector 0. -/
theorem Represents.runHome {store : NdefStore}
    (represents : Represents tag.patient ahead front store m)
    (near : store.cc.dataAreaSize ≤ 1008) (home : AtHome past m) (calls : List Call)
    (stays : ∀ call ∈ calls, call.StaysHome) :
    Coherent .alloc tag.toTag (runCalls .alloc tag.toTransceiver calls m) ∧
      AtHome past (runCalls .alloc tag.toTransceiver calls m) := by
  induction calls generalizing store m with
  | nil => exact ⟨represents.coherent, home⟩
  | cons call calls inductionHypothesis =>
    obtain ⟨first, rest⟩ := List.forall_mem_cons.mp stays
    have indirect : call.writesBlock = false := by
      cases call with
      | write block data => exact first.elim
      | setMaxRetries _ | read _ | sectorSelect _ | readCc | readDataArea _ | readNdef | writeNdef _
      | invalidateCache | markTagStateUnknown => rfl
    exact inductionHypothesis (represents.call call indirect fun _ _ => Nat.zero_le _).1
      (by rwa [NdefStore.after_cc])
      (represents.home near home call first) rest

/-- On a plain tag that answers everything and whose data area ends within the first 1024
bytes: a new reader in sector 0 sends no packet of a SECTOR SELECT, however it is read
and written, as long as the caller neither selects another sector, nor reads a layout
of more than 1024 bytes, nor writes blocks itself, nor gives up the sector.

Proof: the tag represents a store on a data area in the first sector through the whole run,
so that the layouts read and written end there; a reader that knows sector 0 has then no
sector to select. -/
theorem run_atHome (tag : FaultFreeTag σ ε) (state : σ) (inSector0 : tag.active state = 0)
    {cc : CapabilityContainer} {data : List UInt8} {tlvs : List Tlv}
    (plain : PlainTag cc data tlvs (tag.memory state)) (near : 16 + cc.dataAreaSize ≤ SECTOR_SIZE)
    (calls : List Call) (stays : ∀ call ∈ calls, call.StaysHome) :
    let m := runCalls .alloc tag.toTransceiver calls (.fresh state)
    m.reader.currentSector = some 0 ∧ tag.activeOf m = 0 ∧
      ∀ exchange ∈ m.trace, exchange.frame.isTransfer = true := by
  intro m
  have coherent := fresh_coherent .alloc tag.toTag state inSector0
  have lenient : Lenient tag.patient (.fresh state) := ⟨trivial, Nat.zero_le _⟩
  obtain ⟨ahead, front, store, represents, rfl, -, -⟩ := PlainTag.represents plain coherent lenient
  have small : store.cc.dataAreaSize ≤ 1008 := by
    have sector : SECTOR_SIZE = 1024 := rfl
    omega
  have start : AtHome [] (Machine.fresh state) := ⟨rfl, logged_start _⟩
  obtain ⟨after, known, recent, trace, each⟩ := represents.runHome small start calls stays
  refine ⟨?_, after.tracks 0 known, fun exchange member => each exchange ?_⟩
  · rw [T2TReader.currentSector, known]
  · rwa [← List.nil_append recent, ← trace]

/-- A static tag, written, refused and read. -/
theorem run_atHome_static :
    let calls : List Call := [.writeNdef [0x11, 0x22], .sectorSelect 0xFF,
      .writeNdef (List.replicate 60 0x33),
      .readNdef]
    let m := runCalls .alloc flatTag.toTransceiver calls (.fresh oneByteState)
    m.reader.currentSector = some 0 ∧ ∀ exchange ∈ m.trace, exchange.frame.isTransfer = true := by
  intro calls m
  have stays : ∀ call ∈ calls, call.StaysHome := by
    simp [calls, Call.StaysHome, MAX_SECTOR]
  obtain ⟨current, -, transfers⟩ :=
    run_atHome flatTag oneByteState rfl oneByteState_plain (by decide) calls stays
  exact ⟨current, transfers⟩

end

end NfcForumTags
