import Edk2Nvidia.SequentialRecord.History

/-! Power loss in the middle of a write. The readers answer from the lowest block
with the active magic, so what they find depends on where the cut record stands
and on whether its torn payload still passes the CRC. -/
namespace SequentialRecord
open Flash Crc8

/-- What a payload reads as when only its first `j` bytes were programmed. -/
def torn (payload : List UInt8) (j : Nat) : List UInt8 :=
  payload.take j ++ List.replicate (payload.length - j) erasedByte

theorem length_torn (payload : List UInt8) {j : Nat} (h : j ≤ payload.length) :
    (torn payload j).length = payload.length := by
  simp only [torn, List.length_append, List.length_take, List.length_replicate]
  omega

/-- `ReadLastRecord` returns the payload, in every buffer of a header or more that
holds it and ends on the device. -/
def ReadsLast (this : Protocol) (socketNum : Nat) (nor : NorFlash) (m : Memory)
    (payload : List UInt8) : Prop :=
  ∀ bufSize, sizeofDataHdr ≤ bufSize → payload.length ≤ bufSize →
    this.partitionInfo.partitionByteOffset + this.partitionInfo.partitionSize +
      (bufSize - payload.length) ≤ nor.memoryDensity →
    ∃ rest, Answers (readLastRecord this socketNum bufSize) (.success, payload ++ rest) m

section
variable {this : Protocol} {socketNum : Nat} {nor : NorFlash} {m image : Memory} {log : Log}
  {last next : List UInt8} {older : List (List UInt8)}

theorem Readable.readsLast (ready : Ready this socketNum nor) (h : Readable this nor image log)
    (hr : log.records = older ++ [last]) : ReadsLast this socketNum nor image last := by
  intro bufSize hbuf hfit hdev
  have hin := h.scan.inside
  obtain ⟨-, hhi⟩ := h.inside
  have hend : (log.block + 1) * seqBlockSize ≤
      this.partitionInfo.partitionByteOffset + this.partitionInfo.partitionSize := by
    rw [ready.partition.1, ready.partition.2, ← Nat.add_mul]
    exact Nat.mul_le_mul_right _ hhi
  rw [hr, logSize_append, logSize_cons, logSize_nil, recordSize] at hin
  exact ⟨_, (h.readLastRecord_eq ready hr hbuf hfit (by omega)).run⟩

/-- A flash on which the records of the log stand in its block, with no active
block below it. -/
theorem readable_of_holds (ready : Ready this socketNum nor)
    (inside : this.partitionInfo.ring.Mem log.block) (nonempty : log.records ≠ [])
    (fits : logSize log.records ≤ seqBlockSize)
    (holds : Holds image log.startOffset (logBytes log.records))
    (stops : ScanStops this nor image ((log.block + 1) * seqBlockSize) log.writeOffset)
    (earlier : ∀ b, this.partitionInfo.ring.Mem b → b < log.block →
      image (b * seqBlockSize) ≠ activePageMagic) : Readable this nor image log := by
  have hlt := ready.block_lt inside
  have hend : log.startOffset + seqBlockSize = (log.block + 1) * seqBlockSize :=
    (block_succ _).symm
  exact ⟨inside, nonempty, ⟨holds, by omega, by omega, ready.density_lt,
    fun p hp => ready.pool _ (Nat.le_trans (logSize_mem hp) fits), stops⟩, earlier⟩

theorem sizeBytes_of_top_erased {hdr : DataHdr} (hlen : hdr.length = sizeofDataHdr)
    (h : hdr.getD 7 0 = erasedByte) : 0xFF000000 ≤ DataHdr.sizeBytes hdr := by
  match hdr, hlen, h with
  | [b0, b1, b2, b3, b4, b5, b6, b7], _, h =>
    have hb : b7 = 255 := h
    subst hb
    show 0xFF000000 ≤ fromLittleEndian [b4, b5, b6, 255]
    have h255 : (255 : UInt8).toNat = 255 := rfl
    simp only [fromLittleEndian, h255]
    omega

/-- Behind the header, a cut record is a record of the torn payload with the CRC of
the whole one. -/
theorem holds_cutRecord {offset j : Nat} (hblank : Blank m offset (recordSize next))
    (hj : sizeofDataHdr ≤ j) (hj' : j ≤ recordSize next) :
    Holds (program m offset ((encode next).take j)) offset
      (header (payloadCrc8 next) (recordSize (torn next (j - sizeofDataHdr))) ++
        torn next (j - sizeofDataHdr)) := by
  have hcut : j - sizeofDataHdr ≤ next.length := by
    rw [recordSize] at hj'
    omega
  have hsize : recordSize (torn next (j - sizeofDataHdr)) = recordSize next := by
    rw [recordSize, length_torn next hcut, recordSize]
  rw [← length_encode] at hblank
  have hholds := holds_program_take hblank j
  have hrest : (encode next).length - j = next.length - (j - sizeofDataHdr) := by
    rw [length_encode, recordSize]
    omega
  have htake : (encode next).take j = header (payloadCrc8 next) (recordSize next) ++
      next.take (j - sizeofDataHdr) := by
    rw [encode_eq, List.take_append, length_header,
      List.take_of_length_le (by rw [length_header]; exact hj)]
  rw [hrest, htake, List.append_assoc] at hholds
  rw [hsize, htake]
  exact hholds

end

end SequentialRecord
