import Edk2Nvidia.SequentialRecord.Log

/-! What the protocol functions do on a flash that holds a log. -/
namespace SequentialRecord
open Flash Crc8

section
variable {this : Protocol} {socketNum : Nat} {nor : NorFlash} {m : Memory} {log : Log}
  {payload : List UInt8}

theorem readRecord_eq {offset bufSize : Nat}
    (hh : Holds m offset (encode payload)) (hfit : payload.length ≤ bufSize) (hpos : 0 < bufSize)
    (hin : offset + sizeofDataHdr + bufSize ≤ nor.memoryDensity)
    (haddr : nor.memoryDensity < 2 ^ 32) :
    Returns (readRecord nor offset (recordSize payload) bufSize)
      (.success, payload ++ slice m (offset + recordSize payload) (bufSize - payload.length)) () m := by
  have hsub : ¬ bufSize < (recordSize payload + (2 ^ 64 - sizeofDataHdr)) % 2 ^ 64 := by
    simp only [recordSize, sizeofDataHdr] at *
    omega
  have hpayload : slice m (offset + sizeofDataHdr) payload.length = payload := by
    rw [encode_eq, holds_append, length_header] at hh
    exact hh.2
  have hslice : slice m (offset + sizeofDataHdr) bufSize =
      payload ++ slice m (offset + recordSize payload) (bufSize - payload.length) := by
    obtain ⟨rest, rfl⟩ := Nat.exists_eq_add_of_le hfit
    rw [slice_add, hpayload, Nat.add_sub_cancel_left, recordSize, Nat.add_comm payload.length,
      ← Nat.add_assoc]
  rw [readRecord, if_neg hsub, ← hslice]
  exact NorFlash.returns_read ⟨hpos, hin, haddr⟩

/-- A record of a log whose offset is behind the records `older`. -/
theorem Readable.record_holds (h : Readable this nor m log) {older newer : List (List UInt8)}
    (hr : log.records = older ++ payload :: newer) :
    Holds m (log.startOffset + logSize older) (encode payload) := by
  have hh := h.scan.holds
  rw [hr, logBytes_append, holds_append, length_logBytes, logBytes_cons, holds_append] at hh
  exact hh.2.1

theorem Readable.readLastRecord_eq (ready : Ready this socketNum nor) (h : Readable this nor m log)
    {older : List (List UInt8)} {last : List UInt8} (hr : log.records = older ++ [last])
    {bufSize : Nat} (hbuf : sizeofDataHdr ≤ bufSize) (hfit : last.length ≤ bufSize)
    (hin : log.startOffset + logSize older + sizeofDataHdr + bufSize ≤ nor.memoryDensity) :
    Returns (readLastRecord this socketNum bufSize)
      (.success, last ++ slice m (log.startOffset + logSize log.records) (bufSize - last.length))
      () m := by
  have hsocket := ready.socket
  have hpos : 0 < bufSize := Nat.lt_of_lt_of_le (by decide) hbuf
  have hholds := h.record_holds hr
  have hread := readRecord_eq hholds hfit hpos hin ready.density_lt
  have hend : log.startOffset + logSize log.records =
      log.startOffset + logSize older + recordSize last := by
    rw [hr, logSize_append, logSize_cons, logSize_nil, Nat.add_zero, Nat.add_assoc]
  rw [readLastRecord, if_neg (by omega), if_neg (by omega), ready.present, hend]
  refine (h.getActiveBlock_eq ready).bind ?_
  exact (h.getReadLastOffset_eq ready hr).bind hread

theorem block_disjoint {a b : Nat} (h : a ≠ b) :
    a * seqBlockSize + seqBlockSize ≤ b * seqBlockSize ∨
      b * seqBlockSize + seqBlockSize ≤ a * seqBlockSize := by
  rw [← block_succ, ← block_succ]
  rcases Nat.lt_or_gt_of_ne h with h | h
  · exact .inl (Nat.mul_le_mul_right _ h)
  · exact .inr (Nat.mul_le_mul_right _ h)

theorem Represents.appended {ring : Ring} (h : Represents ring m log) (hfit : log.Fits payload) :
    Represents ring (program m log.writeOffset (encode payload))
      ⟨log.block, log.records ++ [payload]⟩ := by
  have hroom : logSize log.records + recordSize payload ≤ seqBlockSize := hfit
  have hoff : log.writeOffset = log.startOffset + logSize log.records := rfl
  have hsize : logSize (log.records ++ [payload]) = logSize log.records + recordSize payload := by
    rw [logSize_append, logSize_cons, logSize_nil, Nat.add_zero]
  have hblank : Blank m log.writeOffset (encode payload).length :=
    h.blank.sub (Nat.le_refl _) (by rw [length_encode]; omega)
  refine ⟨h.inside, by rw [hsize]; exact hroom, ?_, ?_, ?_, ?_⟩
  · rw [logBytes_append, holds_append, length_logBytes]
    constructor
    · apply h.holds.congr
      intro a ha ha'
      rw [length_logBytes] at ha'
      exact program_outside _ _ _ _ (.inl ha')
    · rw [logBytes_cons, logBytes_nil, List.append_nil]
      exact holds_program hblank.permits
  · have hend : Log.writeOffset ⟨log.block, log.records ++ [payload]⟩ =
        log.startOffset + (logSize log.records + recordSize payload) := by
      rw [← hsize]
      rfl
    rw [hend, hsize]
    intro a ha ha'
    rw [program_outside _ _ _ _ (by rw [length_encode]; omega)]
    exact h.blank a (by omega) (by omega)
  · intro b hb hne
    have hdis : b * seqBlockSize + seqBlockSize ≤ log.startOffset ∨
        log.startOffset + seqBlockSize ≤ b * seqBlockSize := block_disjoint hne
    rw [program_outside _ _ _ _ (by rw [length_encode]; omega)]
    exact h.others b hb hne
  · intro hnil
    simp at hnil

theorem retired_flag (m : Memory) (offset : Nat) :
    program m offset ((slice m offset sizeofDataHdr).set 0 retiredPageMagic) offset ≠
      activePageMagic := by
  have hlen : 0 < ((slice m offset sizeofDataHdr).set 0 retiredPageMagic).length := by
    rw [List.length_set, length_slice]
    decide
  have hbyte := program_inside m offset _ 0 hlen
  rw [Nat.add_zero, List.getElem_set_self] at hbyte
  rw [hbyte]
  intro hactive
  have hbits : (m offset &&& retiredPageMagic) &&& 2 = activePageMagic &&& 2 := by rw [hactive]
  rw [UInt8.and_assoc] at hbits
  rw [show retiredPageMagic &&& 2 = 0 by decide, UInt8.and_zero] at hbits
  exact absurd hbits (by decide)

theorem Represents.switched {ring : Ring} (h : Represents ring m log) (hc : 2 ≤ ring.count)
    (payload : List UInt8) (hp : recordSize payload ≤ seqBlockSize) :
    Represents ring
      (program (program (erase m (ring.next log.block * seqBlockSize) seqBlockSize)
        (ring.next log.block * seqBlockSize) (encode payload)) log.startOffset
        ((slice m log.startOffset sizeofDataHdr).set 0 retiredPageMagic))
      ⟨ring.next log.block, [payload]⟩ := by
  have hdis := block_disjoint (Ring.next_ne (b := log.block) hc)
  have hstart : log.startOffset = log.block * seqBlockSize := rfl
  have hhdr : sizeofDataHdr ≤ recordSize payload := by
    simp only [recordSize]
    omega
  have hsize : logSize [payload] = recordSize payload := by
    rw [logSize_cons, logSize_nil, Nat.add_zero]
  have hlen : ((slice m log.startOffset sizeofDataHdr).set 0 retiredPageMagic).length =
      sizeofDataHdr := by
    rw [List.length_set, length_slice]
  have hkeep : ∀ a, ring.next log.block * seqBlockSize ≤ a →
      a < ring.next log.block * seqBlockSize + seqBlockSize →
      program (program (erase m (ring.next log.block * seqBlockSize) seqBlockSize)
        (ring.next log.block * seqBlockSize) (encode payload)) log.startOffset
        ((slice m log.startOffset sizeofDataHdr).set 0 retiredPageMagic) a =
      program (erase m (ring.next log.block * seqBlockSize) seqBlockSize)
        (ring.next log.block * seqBlockSize) (encode payload) a := by
    intro a ha ha'
    exact program_outside _ _ _ _ (by rw [hlen]; omega)
  have hblank : Blank (erase m (ring.next log.block * seqBlockSize) seqBlockSize)
      (ring.next log.block * seqBlockSize) (encode payload).length :=
    (blank_erase m _ _).sub (Nat.le_refl _) (by rw [length_encode]; omega)
  refine ⟨Ring.next_mem h.inside, by rw [hsize]; exact hp, ?_, ?_, ?_, ?_⟩
  · have hholds := holds_program hblank.permits
    simp only [Log.startOffset, logBytes_cons, logBytes_nil, List.append_nil]
    apply hholds.congr
    intro a ha ha'
    rw [length_encode] at ha'
    exact hkeep a ha (by omega)
  · have hend : Log.writeOffset ⟨ring.next log.block, [payload]⟩ =
        ring.next log.block * seqBlockSize + recordSize payload := by
      rw [← hsize]
      rfl
    rw [hend, hsize]
    intro a ha ha'
    rw [hkeep a (by omega) (by omega), program_outside _ _ _ _ (by rw [length_encode]; omega)]
    exact erase_inside _ _ _ _ (by omega) (by omega)
  · intro b hb hne
    have hd : b * seqBlockSize + seqBlockSize ≤ ring.next log.block * seqBlockSize ∨
        ring.next log.block * seqBlockSize + seqBlockSize ≤ b * seqBlockSize := block_disjoint hne
    by_cases hold : b = log.block
    · subst hold
      have hsame : slice m log.startOffset sizeofDataHdr =
          slice (program (erase m (ring.next log.block * seqBlockSize) seqBlockSize)
            (ring.next log.block * seqBlockSize) (encode payload)) log.startOffset
            sizeofDataHdr := by
        rw [slice_program_disjoint _ _ _ _ _ (by rw [length_encode]; omega),
          slice_erase_disjoint _ _ _ _ _ (by omega)]
      rw [hsame]
      exact retired_flag _ _
    · have hd' := block_disjoint hold
      rw [program_outside _ _ _ _ (by rw [hlen]; omega),
        program_outside _ _ _ _ (by rw [length_encode]; omega),
        erase_outside _ _ _ _ (by have := seqBlockSize_pos; omega)]
      exact h.others b hb hold
  · intro hnil
    cases hnil

end

end SequentialRecord
