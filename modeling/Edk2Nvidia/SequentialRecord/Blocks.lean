import Edk2Nvidia.SequentialRecord.CrashSafety

/-! The blocks of a partition one by one. Failing flash commands leave torn records and more than
one active block, so what is active holds records and then erased cells or one torn record. -/
namespace SequentialRecord
open Flash Crc8

/-- A record at `offset` that no scan takes for a valid one. -/
structure TornAt (this : Protocol) (m : Memory) (endOffset offset : Nat) : Prop where
  flags : m offset = activePageMagic
  room : offset + sizeofDataHdr ≤ endOffset
  refused : this.allocateZeroPool (DataHdr.sizeBytes (slice m offset sizeofDataHdr)) = false ∨
    ∃ crc8 payload, Holds m offset (header crc8 (recordSize payload) ++ payload) ∧
      offset + recordSize payload ≤ endOffset ∧
      this.allocateZeroPool (recordSize payload) = true ∧ crc8 ≠ payloadCrc8 payload

/-- The records of a block from its start, and what a scan finds behind them. -/
structure BlockLog (this : Protocol) (m : Memory) (b : Nat) (records : List (List UInt8)) :
    Prop where
  fits : logSize records ≤ seqBlockSize
  holds : Holds m (b * seqBlockSize) (logBytes records)
  behind : Blank m (b * seqBlockSize + logSize records) (seqBlockSize - logSize records) ∨
    TornAt this m ((b + 1) * seqBlockSize) (b * seqBlockSize + logSize records)

/-- A block that starts erased is erased, an active one has records. -/
structure GoodBlock (this : Protocol) (m : Memory) (b : Nat) : Prop where
  blank : m (b * seqBlockSize) = erasedByte → Blank m (b * seqBlockSize) seqBlockSize
  log : m (b * seqBlockSize) = activePageMagic → ∃ records, BlockLog this m b records

def Sound (this : Protocol) (m : Memory) : Prop :=
  ∀ b, this.partitionInfo.ring.Mem b → GoodBlock this m b

section
variable {this : Protocol} {socketNum : Nat} {nor : NorFlash} {m image : Memory} {b : Nat}
  {records : List (List UInt8)} {payload : List UInt8}

theorem TornAt.congr {endOffset offset : Nat} (h : TornAt this m endOffset offset)
    (same : ∀ a, offset ≤ a → a < endOffset → image a = m a) :
    TornAt this image endOffset offset := by
  have hheader := h.room
  have hpos : 0 < sizeofDataHdr := by decide
  have hslice : slice image offset sizeofDataHdr = slice m offset sizeofDataHdr :=
    slice_congr fun a hlo hhi => same a hlo (by omega)
  refine ⟨?_, h.room, ?_⟩
  · rw [same offset (Nat.le_refl _) (by omega)]
    exact h.flags
  · rw [hslice]
    apply h.refused.imp id
    rintro ⟨crc8, payload, hholds, hend, hpool, hcrc⟩
    refine ⟨crc8, payload, hholds.congr fun a hlo hhi => same a hlo ?_, hend, hpool, hcrc⟩
    have hlength : (header crc8 (recordSize payload) ++ payload).length =
        recordSize payload := by
      rw [List.length_append, length_header, recordSize, Nat.add_comm]
    omega

theorem BlockLog.congr (h : BlockLog this m b records)
    (same : ∀ a, b * seqBlockSize ≤ a → a < b * seqBlockSize + seqBlockSize → image a = m a) :
    BlockLog this image b records := by
  have hfits := h.fits
  refine ⟨h.fits, h.holds.congr fun a hlo hhi => same a hlo ?_, h.behind.imp ?_ ?_⟩
  · rw [length_logBytes] at hhi
    omega
  · intro hblank
    exact hblank.congr fun a hlo hhi => same a (by omega) (by omega)
  · intro htorn
    exact htorn.congr fun a hlo hhi => same a (by omega) (by rw [← block_succ]; exact hhi)

theorem GoodBlock.congr (h : GoodBlock this m b)
    (same : ∀ a, b * seqBlockSize ≤ a → a < b * seqBlockSize + seqBlockSize → image a = m a) :
    GoodBlock this image b := by
  have hstart := same (b * seqBlockSize) (Nat.le_refl _)
    (Nat.lt_add_of_pos_right seqBlockSize_pos)
  constructor
  · intro herased
    exact (h.blank (hstart ▸ herased)).congr same
  · intro hactive
    obtain ⟨records, hlog⟩ := h.log (hstart ▸ hactive)
    exact ⟨records, hlog.congr same⟩

theorem Sound.change (h : Sound this m) (hgood : GoodBlock this image b)
    (same : ∀ a, (a < b * seqBlockSize ∨ b * seqBlockSize + seqBlockSize ≤ a) →
      image a = m a) : Sound this image := by
  intro c hc
  by_cases heq : c = b
  · rwa [heq]
  · have hdis := block_disjoint heq
    exact (h c hc).congr fun a hlo hhi => same a (by omega)

theorem BlockLog.first (h : BlockLog this m b records) (hne : records ≠ []) :
    m (b * seqBlockSize) = activePageMagic := first_flag h.holds hne

theorem BlockLog.stops (ready : Ready this socketNum nor)
    (hb : this.partitionInfo.ring.Mem b) (h : BlockLog this m b records) :
    ScanStops this nor m ((b + 1) * seqBlockSize) (b * seqBlockSize + logSize records) := by
  have hfits := h.fits
  have hlt := ready.block_lt hb
  rw [block_succ] at hlt ⊢
  rcases h.behind with hblank | htorn
  · by_cases hfull : logSize records = seqBlockSize
    · left
      rw [hfull]
    · right
      intro recSize
      apply isValidRecord_notActive (ready.covers_header hb (by rw [block_succ]; omega))
      rw [hblank _ (Nat.le_refl _) (by omega)]
      decide
  · right
    intro recSize
    have hcovers := ready.covers_header hb (show b * seqBlockSize + logSize records ≤
      (b + 1) * seqBlockSize by rw [block_succ]; omega)
    rcases htorn.refused with hpool | ⟨crc8, payload, hholds, hend, hpool, hcrc⟩
    · exact isValidRecord_noPool hcovers htorn.flags hpool recSize
    · rw [block_succ] at hend
      exact isValidRecord_badCrc ⟨recordSize_pos payload, by omega, ready.density_lt⟩ hholds hpool
        hcrc recSize

/-- Behind the records of the lowest active block the last of them is read. -/
theorem BlockLog.readsLast (ready : Ready this socketNum nor)
    (hb : this.partitionInfo.ring.Mem b) (h : BlockLog this m b (records ++ [payload]))
    (hlowest : ∀ c, this.partitionInfo.ring.Mem c → c < b →
      m (c * seqBlockSize) ≠ activePageMagic) : ReadsLast this socketNum nor m payload :=
  (@readable_of_holds this socketNum nor m ⟨b, records ++ [payload]⟩ ready hb (by simp) h.fits
    h.holds (h.stops ready hb) hlowest).readsLast ready rfl

theorem blockLog_nil (hblank : Blank m (b * seqBlockSize) seqBlockSize) :
    BlockLog this m b [] where
  fits := Nat.zero_le _
  holds := holds_nil _ _
  behind := .inl hblank

/-- A write behind the records of a block, whole or cut after some bytes. -/
theorem BlockLog.write (ready : Ready this socketNum nor)
    (hpool : ∀ size, 0xFF000000 ≤ size → this.allocateZeroPool size = false)
    (h : BlockLog this m b records)
    (hblank : Blank m (b * seqBlockSize + logSize records) (seqBlockSize - logSize records))
    (hfit : logSize records + recordSize payload ≤ seqBlockSize) (j : Nat) :
    ∃ records', BlockLog this
      (program m (b * seqBlockSize + logSize records) ((encode payload).take j)) b records' := by
  have hheader : sizeofDataHdr ≤ recordSize payload := Nat.le_add_left _ _
  have hcut : ((encode payload).take j).length ≤ recordSize payload := by
    rw [List.length_take, length_encode]
    omega
  have hroom : Blank m (b * seqBlockSize + logSize records) (recordSize payload) :=
    hblank.sub (Nat.le_refl _) (by omega)
  have hholds : Holds (program m (b * seqBlockSize + logSize records) ((encode payload).take j))
      (b * seqBlockSize) (logBytes records) := by
    apply h.holds.congr
    intro a _ ha
    rw [length_logBytes] at ha
    exact program_outside _ _ _ _ (.inl ha)
  -- with one more record of that size the rest of the block is still erased
  have hmore : ∀ last : List UInt8, recordSize last = recordSize payload →
      Holds (program m (b * seqBlockSize + logSize records) ((encode payload).take j))
        (b * seqBlockSize + logSize records) (encode last) →
      BlockLog this (program m (b * seqBlockSize + logSize records) ((encode payload).take j)) b
        (records ++ [last]) := by
    intro last hsize hlast
    have htotal : logSize (records ++ [last]) = logSize records + recordSize payload := by
      rw [logSize_append, logSize_cons, logSize_nil, Nat.add_zero, hsize]
    refine ⟨by rw [htotal]; exact hfit, ?_, .inl ?_⟩
    · rw [logBytes_append, holds_append, length_logBytes, logBytes_cons, logBytes_nil,
        List.append_nil]
      exact ⟨hholds, hlast⟩
    · rw [htotal]
      intro a hlo hhi
      rw [program_outside _ _ _ _ (.inr (by omega))]
      exact hblank a (by omega) (by omega)
  rcases Nat.eq_zero_or_pos j with rfl | hpos
  · rw [List.take_zero, program_nil]
    exact ⟨records, h⟩
  · have hflag : program m (b * seqBlockSize + logSize records) ((encode payload).take j)
        (b * seqBlockSize + logSize records) = activePageMagic := by
      have hbyte := program_inside m (b * seqBlockSize + logSize records)
        ((encode payload).take j) 0 (by
          have hsize := recordSize_pos payload
          rw [List.length_take, length_encode]
          omega)
      rw [Nat.add_zero] at hbyte
      rw [hbyte, hroom _ (Nat.le_refl _) (Nat.lt_add_of_pos_right (recordSize_pos payload)),
        erasedByte_and, List.getElem_take]
      rfl
    by_cases hshort : j < sizeofDataHdr
    · refine ⟨records, h.fits, hholds, .inr ⟨hflag, by rw [block_succ]; omega, .inl ?_⟩⟩
      apply hpool
      apply sizeBytes_of_top_erased (length_slice _ _ _)
      simp only [sizeofDataHdr] at hshort hheader
      have hlength : ((encode payload).take j).length ≤ 7 := by
        rw [List.length_take]
        omega
      rw [getD_slice _ _ _ _ _ (by decide), program_outside _ _ _ _ (.inr (by omega))]
      exact hroom _ (by omega) (by omega)
    · rcases Nat.lt_or_ge j (recordSize payload) with hpart | hwhole
      · have hrecord := holds_cutRecord hroom (Nat.le_of_not_lt hshort) (Nat.le_of_lt hpart)
        have hsize : recordSize (torn payload (j - sizeofDataHdr)) = recordSize payload := by
          rw [recordSize, length_torn payload (by rw [recordSize] at hpart; omega), recordSize]
        by_cases hcrc : payloadCrc8 payload = payloadCrc8 (torn payload (j - sizeofDataHdr))
        · refine ⟨_, hmore (torn payload (j - sizeofDataHdr)) hsize ?_⟩
          rw [encode_eq (torn payload _), ← hcrc]
          exact hrecord
        · refine ⟨records, h.fits, hholds, .inr ⟨hflag, by rw [block_succ]; omega, .inr ?_⟩⟩
          exact ⟨_, _, hrecord, by rw [hsize, block_succ]; omega,
            by rw [hsize]; exact ready.pool _ (by omega), hcrc⟩
      · refine ⟨_, hmore payload rfl ?_⟩
        rw [List.take_of_length_le (by rw [length_encode]; exact hwhole)]
        rw [← length_encode] at hroom
        exact holds_program hroom.permits

theorem BlockLog.append (h : BlockLog this m b records)
    (hblank : Blank m (b * seqBlockSize + logSize records) (seqBlockSize - logSize records))
    (hfit : logSize records + recordSize payload ≤ seqBlockSize) :
    BlockLog this (program m (b * seqBlockSize + logSize records) (encode payload)) b
      (records ++ [payload]) := by
  have htotal : logSize (records ++ [payload]) = logSize records + recordSize payload := by
    rw [logSize_append, logSize_cons, logSize_nil, Nat.add_zero]
  have hroom : Blank m (b * seqBlockSize + logSize records) (encode payload).length :=
    hblank.sub (Nat.le_refl _) (by rw [length_encode]; omega)
  refine ⟨by rw [htotal]; exact hfit, ?_, .inl ?_⟩
  · rw [logBytes_append, holds_append, length_logBytes, logBytes_cons, logBytes_nil,
      List.append_nil]
    constructor
    · apply h.holds.congr
      intro a _ ha
      rw [length_logBytes] at ha
      exact program_outside _ _ _ _ (.inl ha)
    · exact holds_program hroom.permits
  · rw [htotal]
    intro a hlo hhi
    rw [program_outside _ _ _ _ (.inr (by rw [length_encode]; omega))]
    exact hblank a (by omega) (by omega)

theorem BlockLog.good_write (ready : Ready this socketNum nor)
    (hpool : ∀ size, 0xFF000000 ≤ size → this.allocateZeroPool size = false)
    (h : BlockLog this m b records)
    (hblank : Blank m (b * seqBlockSize + logSize records) (seqBlockSize - logSize records))
    (hfit : logSize records + recordSize payload ≤ seqBlockSize) (j : Nat) :
    GoodBlock this
      (program m (b * seqBlockSize + logSize records) ((encode payload).take j)) b := by
  constructor
  · intro herased
    rcases Nat.eq_zero_or_pos j with rfl | hpos
    · -- nothing was programmed, so there are no records in front either
      rw [List.take_zero, program_nil] at herased ⊢
      by_cases hnil : records = []
      · rw [hnil] at hblank
        exact hblank
      · rw [h.first hnil] at herased
        exact absurd herased (by decide)
    · exfalso
      by_cases hnil : records = []
      · rw [hnil, logSize_nil, Nat.add_zero] at herased hblank
        have hbyte := program_inside m (b * seqBlockSize) ((encode payload).take j) 0 (by
          have hsize := recordSize_pos payload
          rw [List.length_take, length_encode]
          omega)
        rw [Nat.add_zero, herased, List.getElem_take, hblank _ (Nat.le_refl _)
          (Nat.lt_add_of_pos_right seqBlockSize_pos), erasedByte_and] at hbyte
        have hflag : erasedByte = activePageMagic := hbyte
        exact absurd hflag (by decide)
      · have hsize : 0 < logSize records := by
          have hlength := length_le_logSize records
          have hne := List.length_pos_iff.mpr hnil
          omega
        rw [program_outside _ _ _ _ (.inl (by omega)), h.first hnil] at herased
        exact absurd herased (by decide)
  · intro _
    exact h.write ready hpool hblank hfit j

theorem BlockLog.sound_write (ready : Ready this socketNum nor) (hs : Sound this m)
    (hpool : ∀ size, 0xFF000000 ≤ size → this.allocateZeroPool size = false)
    (h : BlockLog this m b records)
    (hblank : Blank m (b * seqBlockSize + logSize records) (seqBlockSize - logSize records))
    (hfit : logSize records + recordSize payload ≤ seqBlockSize) (j : Nat) :
    Sound this (program m (b * seqBlockSize + logSize records) ((encode payload).take j)) := by
  apply hs.change (h.good_write ready hpool hblank hfit j)
  intro a ha
  apply program_outside
  rw [List.length_take, length_encode]
  omega

theorem Sound.blanked (h : Sound this m) (hblank : Blank image (b * seqBlockSize) seqBlockSize)
    (same : ∀ a, (a < b * seqBlockSize ∨ b * seqBlockSize + seqBlockSize ≤ a) →
      image a = m a) : Sound this image :=
  h.change ⟨fun _ => hblank, fun _ => ⟨[], blockLog_nil hblank⟩⟩ same

/-- A block whose first byte is neither erased nor active is good whatever it holds. -/
theorem Sound.retired (h : Sound this m) {data : List UInt8} {j : Nat} (hj : 0 < j)
    (hlength : (retiredPageMagic :: data).length ≤ seqBlockSize) :
    Sound this (program m (b * seqBlockSize) ((retiredPageMagic :: data).take j)) ∧
      program m (b * seqBlockSize) ((retiredPageMagic :: data).take j) (b * seqBlockSize) ≠
        activePageMagic := by
  have hbyte := program_inside m (b * seqBlockSize) ((retiredPageMagic :: data).take j) 0 (by
    rw [List.length_take, List.length_cons]
    omega)
  rw [Nat.add_zero, List.getElem_take, List.getElem_cons_zero] at hbyte
  have hbits : ∀ value : UInt8, value &&& 2 ≠ 0 →
      program m (b * seqBlockSize) ((retiredPageMagic :: data).take j) (b * seqBlockSize) ≠
        value := by
    intro value hvalue heq
    rw [← heq, hbyte, UInt8.and_assoc, show retiredPageMagic &&& 2 = 0 by decide, UInt8.and_zero]
      at hvalue
    exact hvalue rfl
  refine ⟨?_, hbits _ (by decide)⟩
  apply h.change
  · exact ⟨fun herased => absurd herased (hbits _ (by decide)),
      fun hactive => absurd hactive (hbits _ (by decide))⟩
  · intro a ha
    apply program_outside
    rw [List.length_take]
    omega

end

end SequentialRecord
