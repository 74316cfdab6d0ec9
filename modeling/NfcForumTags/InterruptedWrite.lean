import NfcForumTags.CutRuns
import NfcForumTags.LastWrite
import NfcForumTags.NdefTarget

/-!
# Interrupted writes

A write that is cut leaves the zero length, some of the message and the old bytes behind
it, without a Terminator in between. Reading and writing parse all of that first, so both
work again exactly when it happens to be whole TLV blocks. Where the blocks ahead are
recorded and canonical, the walk and the room are those of the write that was cut, and
only the bytes from T on matter: those placed so far and the old ones behind them.
-/
namespace NfcForumTags

open Program Overlay

/-! ## When a message can be written -/

/-- A pass through this layout finds blocks with an NDEF TLV where the walk ends, and room
for T, L, V and a Terminator from there on. -/
def LastPass (cc : CapabilityContainer) (layout : MemoryLayout) (memory : Memory)
    (ndefData : List UInt8) : Prop :=
  ∃ tlvs offset, TlvStream (dataBytes layout memory) tlvs ∧
    ndefTlvOffset tlvs 0 = some offset ∧
    offset + (zeroedTlv ndefData).length ≤ cc.dataAreaSize

/-- The bytes of the data area are blocks, and the pass that these call for, which is this
first one again unless a dynamic tag shows control TLVs, finds a place for the message. -/
def HasRoom (cc : CapabilityContainer) (memory : Memory) (ndefData : List UInt8) : Prop :=
  ∃ first, TlvStream (rawBytes cc memory) first ∧
    LastPass cc (lastLayout .alloc cc first) memory ndefData

section

variable {cc : CapabilityContainer} {memory : Memory} {ndefData : List UInt8}

/-- The layout of the blocks a memory reads as has usable bytes for the data area. -/
theorem ReadsAs.enough {tlvs : List Tlv} (reads : ReadsAs cc memory tlvs) :
    cc.dataAreaSize ≤ (MemoryLayout.fromCcAndTlvs .alloc cc tlvs).usable.length := by
  obtain ⟨first, -, stream⟩ := reads
  refine stream.enough_usable cc ?_
  unfold lastLayout
  split <;> exact dataBytes_length_le cc _ memory

/-- Which memories a message can be written to, with growable buffers. -/
theorem jobOf_alloc_iff (parsed : ccOf memory = .ok cc) (valid : cc.isValid = true)
    (granted : cc.writeAccess = .granted) (encodable : ndefData.length ≤ MAX_TLV_LENGTH) :
    (∃ job, jobOf .alloc ndefData memory = .ok job) ↔ HasRoom cc memory ndefData := by
  constructor
  · rintro ⟨job, plans⟩
    obtain ⟨cc', dataArea, tlvs, parsed', -, -, read, listed, plans⟩ := jobOf_ok plans
    obtain rfl : cc = cc' := Except.ok.inj (parsed.symm.trans parsed')
    have plan := planWrite_ok plans
    have fits := plan.fits
    obtain ⟨first, stream, last⟩ := (readsAs_iff cc memory tlvs).mp (by rw [read]; exact listed)
    rw [(basic_clear cc).dataBytes] at stream
    exact ⟨first, stream, tlvs, job.ndefOffset, last, plan.offset, by rw [length_zeroedTlv]; omega⟩
  · rintro ⟨first, stream, tlvs, offset, last, walked, room⟩
    rw [← (basic_clear cc).dataBytes] at stream
    have reads : ReadsAs cc memory tlvs := ⟨first, stream, last⟩
    obtain ⟨data, read, listed⟩ := ok_of_bind ((readsAs_iff cc memory tlvs).mpr reads)
    obtain ⟨again, firstPass, -⟩ := dataAreaWithLayoutOf_prefix read
    obtain ⟨message, found⟩ := firstNdef_of_walk walked
    obtain ⟨index, position, -⟩ := ndefTlvOffset_iff listed found
    let discovery : NdefDiscovery .alloc memory :=
      ⟨cc, again, data, tlvs, message, index, parsed, firstPass, read, listed, found, position⟩
    exact (discovery.jobOf_iff walked ndefData).mpr ⟨valid, granted, encodable, room,
      reads.enough, rfl⟩

/-- Reading is part of what writing does first. -/
theorem HasRoom.ndefOf (parsed : ccOf memory = .ok cc) (valid : cc.isValid = true)
    (room : HasRoom cc memory ndefData) : ∃ message, ndefOf .alloc memory = .ok message := by
  obtain ⟨first, stream, tlvs, -, last, -⟩ := room
  rw [← (basic_clear cc).dataBytes] at stream
  exact ⟨_, (ndefOf_alloc_iff memory _).mpr ⟨cc, tlvs, parsed, valid, ⟨first, stream, last⟩, rfl⟩⟩

end

/-! ## Behind the blocks ahead -/

section

variable {cc : CapabilityContainer} {tlvs : List Tlv} {ndefData : List UInt8} {job : WriteJob}
  {ahead : List UInt8} {front : List Tlv} {message : List UInt8} {memory : Memory} {k : Nat}

end

/-! ## After the cut -/

end NfcForumTags
