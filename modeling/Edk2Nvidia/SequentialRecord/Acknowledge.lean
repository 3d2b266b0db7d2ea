import Edk2Nvidia.Flash.Faults
import Edk2Nvidia.SequentialRecord.Blocks

/-! Acknowledged writes on a flash whose commands can fail. A write that returns success is read
back when no header behind a record failed to be read during the scan, an erase that failed was
not needed or took place, and the old block was retired or no longer answers the readers. -/
namespace SequentialRecord
open Flash Crc8

/-- The command before was the read of a record that ends at `offset`. -/
def BehindRecord (past : List Command) (offset : Nat) : Prop :=
  ∃ start size earlier, past = .read start size :: .read start sizeofDataHdr :: earlier ∧
    start + size = offset

def Wrote (past : List Command) : Prop := ∃ offset data, .write offset data ∈ past

/-- The block that starts at `offset` does not answer the readers. -/
def Superseded (this : Protocol) (m : Memory) (offset : Nat) : Prop :=
  m offset ≠ activePageMagic ∨
    ∃ b, this.partitionInfo.ring.Mem b ∧ b * seqBlockSize < offset ∧
      m (b * seqBlockSize) = activePageMagic

/-- The ways a command of a write may end. -/
def Tolerated (this : Protocol) (past : List Command) (command : Command)
    (ending : Ending EfiStatus) (m : Memory) : Prop :=
  match ending, command with
  | .ok, _ => True
  -- the header of the block to retire, or a command of the scan
  | .failed _ _, .read offset _ =>
      (Wrote past → Superseded this m offset) ∧ (¬ Wrote past → ¬ BehindRecord past offset)
  | .failed _ effect, .write offset _ => Wrote past → 0 < effect ∨ Superseded this m offset
  | .failed _ effect, .erase offset size => size ≤ effect ∨ Blank m offset size

/-- The lowest active block, from which the readers answer. -/
structure Lowest (this : Protocol) (m : Memory) (b : Nat) : Prop where
  inside : this.partitionInfo.ring.Mem b
  active : m (b * seqBlockSize) = activePageMagic
  earlier : ∀ c, this.partitionInfo.ring.Mem c → c < b → m (c * seqBlockSize) ≠ activePageMagic

section
variable {this : Protocol} {socketNum : Nat} {nor : NorFlash} {m : Memory} {C : Memory → Prop}
  {past : List Command}

theorem not_wrote_read {offset size : Nat} (h : ¬ Wrote past) :
    ¬ Wrote (.read offset size :: past) := by
  rintro ⟨offset', data, hmem⟩
  rcases List.mem_cons.mp hmem with heq | hmem
  · cases heq
  · exact h ⟨offset', data, hmem⟩

def OnlyRead (m : Memory) (past : List Command) (m' : Memory) : Prop := m' = m ∧ ¬ Wrote past

/-- What a lookup returns: something of which `P` holds, or an error. -/
def Served (P : Nat → Prop) : Except EfiStatus Nat → Prop
  | .ok a => P a
  | .error status => status ≠ .success

theorem wpFaults_norRead {offset size : Nat} (hc : nor.Covers offset size) (hC : C m)
    {Q : EfiStatus × List UInt8 → Unit → List Command → Memory → Prop}
    (served : Q (.success, slice m offset size) () (.read offset size :: past) m)
    (failed : ∀ status effect, status.val.isError = true →
      Tolerated this past (.read offset size) (.failed status effect) m →
      Q (status.val, []) () (.read offset size :: past) m) :
    wpFaults (Tolerated this) (nor.read offset size) Q C () past m := by
  rw [NorFlash.read_eq hc]
  refine wpFaults_read hC served ?_
  intro status effect htol
  refine failed status effect ?_ htol
  simpa [EfiStatus.isError] using status.property

theorem wpFaults_activeBlockScan {start count : Nat} (hC : C m) (hpast : ¬ Wrote past)
    (hcover : ∀ i < count, nor.Covers ((start + i) * seqBlockSize) sizeofDataHdr)
    {Q : Except EfiStatus Nat → Prop} (failed : ∀ status, status ≠ .success → Q (.error status))
    (found : ∀ k < count, (∀ i < k, m ((start + i) * seqBlockSize) ≠ activePageMagic) →
      m ((start + k) * seqBlockSize) = activePageMagic → Q (.ok (start + k))) :
    wpFaults (Tolerated this) (activeBlockScan nor count start)
      (fun r _ past' m' => OnlyRead m past' m' ∧ Q r) C () past m := by
  induction count generalizing start past with
  | zero =>
    rw [activeBlockScan, wpFaults_pure]
    exact ⟨hC, ⟨rfl, hpast⟩, failed _ (by decide)⟩
  | succ count ih =>
    have h0 := hcover 0 (Nat.succ_pos _)
    rw [Nat.add_zero] at h0
    have hin := h0.inside
    have haddr := h0.addressable
    have hstart : start * 1 ≤ start * seqBlockSize := Nat.mul_le_mul_left start seqBlockSize_pos
    have hpos := h0.nonempty
    have shift : ∀ i, start + 1 + i = start + (i + 1) := by
      intro i
      omega
    rw [activeBlockScan, u32_of_lt (by omega : start * seqBlockSize < 2 ^ 32),
      u32_of_lt (by omega : start < 2 ^ 32)]
    apply wpFaults_bind
    refine wpFaults_norRead h0 hC ?_ ?_
    · simp only [EfiStatus.isError_success, Bool.false_eq_true, if_false, slice_flags]
      split
      next hactive =>
        rw [wpFaults_pure]
        refine ⟨hC, ⟨rfl, not_wrote_read hpast⟩, ?_⟩
        exact found 0 (Nat.succ_pos _) (fun i hi => absurd hi (Nat.not_lt_zero i))
          (by rwa [Nat.add_zero])
      next hother =>
        refine ih (not_wrote_read hpast) ?_ ?_
        · intro i hi
          rw [shift]
          exact hcover (i + 1) (by omega)
        · intro k hk hnone hactive
          rw [shift] at hactive ⊢
          refine found (k + 1) (by omega) ?_ hactive
          intro i hi
          cases i with
          | zero => rwa [Nat.add_zero]
          | succ i =>
            rw [← shift]
            exact hnone i (by omega)
    · intro status effect herror _
      simp only [herror, if_true]
      rw [wpFaults_pure]
      exact ⟨hC, ⟨rfl, not_wrote_read hpast⟩, failed _ status.property⟩

theorem wpFaults_getActiveBlock (ready : Ready this socketNum nor) (hC : C m)
    (hpast : ¬ Wrote past) :
    wpFaults (Tolerated this) (getActiveBlock this nor)
      (fun r _ past' m' => OnlyRead m past' m' ∧ Served (Lowest this m) r) C () past m := by
  unfold getActiveBlock
  refine wpFaults_activeBlockScan hC hpast (fun i hi => ready.covers_block hi) ?_ ?_
  · intro status hstatus
    exact hstatus
  · intro k hk hnone hactive
    refine ⟨⟨Nat.le_add_right _ _, Nat.add_lt_add_left hk _⟩, hactive, ?_⟩
    rintro c ⟨hlo, -⟩ hlt
    obtain ⟨i, rfl⟩ := Nat.exists_eq_add_of_le hlo
    exact hnone i (Nat.lt_of_add_lt_add_left hlt)

theorem not_behind {offset size : Nat} {status : {status : EfiStatus // status ≠ Flash.Status.ok}}
    {effect : Nat} (hpast : ¬ Wrote past)
    (h : Tolerated this past (.read offset size) (.failed status effect) m) :
    ¬ BehindRecord past offset := h.2 hpast

/-- The verdict on a record whose header is complete: a body that cannot be read is refused, and
a header that cannot be read is taken for a valid one of the size before. -/
theorem wpFaults_isValidRecord {crc8 : UInt8} {payload : List UInt8} {offset recSize : Nat}
    (hC : C m) (hpast : ¬ Wrote past) (hc : nor.Covers offset (recordSize payload))
    (hh : Holds m offset (header crc8 (recordSize payload) ++ payload))
    (hp : this.allocateZeroPool (recordSize payload) = true)
    {Q : Bool × Nat → Unit → List Command → Memory → Prop}
    (accepted : crc8 = payloadCrc8 payload → ∀ past', ¬ Wrote past' →
      BehindRecord past' (offset + recordSize payload) → Q (true, recordSize payload) () past' m)
    (refused : ∀ past', ¬ Wrote past' → Q (false, recSize) () past' m)
    (unread : ¬ BehindRecord past offset →
      ∀ past', ¬ Wrote past' → Q (true, recSize) () past' m) :
    wpFaults (Tolerated this) (isValidRecord this nor offset recSize) Q C () past m := by
  have hlt : recordSize payload < 2 ^ 32 := by
    have := hc.inside
    have := hc.addressable
    omega
  have hsub : nor.Covers offset sizeofDataHdr :=
    hc.sub (by decide) (Nat.add_le_add_left (Nat.le_add_left _ _) _)
  have hslice : slice m offset sizeofDataHdr = header crc8 (recordSize payload) := by
    rw [holds_append] at hh
    rw [← length_header crc8 (recordSize payload)]
    exact hh.1
  have hall : slice m offset (recordSize payload) = header crc8 (recordSize payload) ++ payload := by
    have hlen : (header crc8 (recordSize payload) ++ payload).length = recordSize payload := by
      rw [List.length_append, length_header, recordSize, Nat.add_comm]
    rw [← hlen]
    exact hh
  have hcrc : calculateCrc8
      ((header crc8 (recordSize payload) ++ payload).drop offsetOfSizeBytes)
      (recordSize payload + (2 ^ 64 - offsetOfSizeBytes)) 0 typeCrc8Maxim =
        payloadCrc8 payload := rfl
  unfold isValidRecord
  apply wpFaults_bind
  refine wpFaults_norRead hsub hC ?_ ?_
  · simp only [hslice, EfiStatus.isError_success, Bool.false_eq_true, if_false, flags_header,
      if_true, sizeBytes_header _ _ hlt, hp]
    apply wpFaults_bind
    refine wpFaults_norRead hc hC ?_ ?_
    · simp only [hall, hcrc, EfiStatus.isError_success, Bool.false_eq_true, if_false, crc8_header]
      split
      next heq =>
        rw [wpFaults_pure]
        exact ⟨hC, accepted heq _ (not_wrote_read (not_wrote_read hpast))
          ⟨offset, recordSize payload, past, rfl, rfl⟩⟩
      next =>
        rw [wpFaults_pure]
        exact ⟨hC, refused _ (not_wrote_read (not_wrote_read hpast))⟩
    · intro status effect herror _
      simp only [herror, if_true]
      rw [wpFaults_pure]
      exact ⟨hC, refused _ (not_wrote_read (not_wrote_read hpast))⟩
  · intro status effect herror htol
    simp only [herror, if_true]
    rw [wpFaults_pure]
    exact ⟨hC, unread (not_behind hpast htol) _ (not_wrote_read hpast)⟩

/-- What a header alone decides: no record, or one the pool cannot hold. -/
theorem wpFaults_isValidRecord_refused {offset recSize : Nat} (hC : C m) (hpast : ¬ Wrote past)
    (hc : nor.Covers offset sizeofDataHdr)
    (hrefused : m offset = activePageMagic →
      this.allocateZeroPool (DataHdr.sizeBytes (slice m offset sizeofDataHdr)) = false)
    {Q : Bool × Nat → Unit → List Command → Memory → Prop}
    (refused : ∀ past', ¬ Wrote past' → Q (false, recSize) () past' m)
    (unread : ¬ BehindRecord past offset →
      ∀ past', ¬ Wrote past' → Q (true, recSize) () past' m) :
    wpFaults (Tolerated this) (isValidRecord this nor offset recSize) Q C () past m := by
  unfold isValidRecord
  apply wpFaults_bind
  refine wpFaults_norRead hc hC ?_ ?_
  · simp only [EfiStatus.isError_success, Bool.false_eq_true, if_false, slice_flags]
    split
    next hactive =>
      rw [hrefused hactive]
      simp only [Bool.false_eq_true, if_false]
      rw [wpFaults_pure]
      exact ⟨hC, refused _ (not_wrote_read hpast)⟩
    next =>
      rw [wpFaults_pure]
      exact ⟨hC, refused _ (not_wrote_read hpast)⟩
  · intro status effect herror htol
    simp only [herror, if_true]
    rw [wpFaults_pure]
    exact ⟨hC, unread (not_behind hpast htol) _ (not_wrote_read hpast)⟩

theorem BlockLog.wpFaults_stop {b recSize : Nat} {records : List (List UInt8)}
    (ready : Ready this socketNum nor) (hb : this.partitionInfo.ring.Mem b)
    (h : BlockLog this m b records)
    (hmore : b * seqBlockSize + logSize records < (b + 1) * seqBlockSize)
    (hC : C m) (hpast : ¬ Wrote past)
    {Q : Bool × Nat → Unit → List Command → Memory → Prop}
    (refused : ∀ past', ¬ Wrote past' → Q (false, recSize) () past' m)
    (unread : ¬ BehindRecord past (b * seqBlockSize + logSize records) →
      ∀ past', ¬ Wrote past' → Q (true, recSize) () past' m) :
    wpFaults (Tolerated this) (isValidRecord this nor (b * seqBlockSize + logSize records) recSize)
      Q C () past m := by
  have hcovers := ready.covers_header hb (Nat.le_of_lt hmore)
  have hlt := ready.block_lt hb
  rw [block_succ] at hmore hlt
  rcases h.behind with hblank | htorn
  · refine wpFaults_isValidRecord_refused hC hpast hcovers ?_ refused unread
    intro hactive
    rw [hblank _ (Nat.le_refl _) (by omega)] at hactive
    exact absurd hactive (by decide)
  · rcases htorn.refused with hpool | ⟨crc8, payload, hholds, hend, hpool, hcrc⟩
    · exact wpFaults_isValidRecord_refused hC hpast hcovers (fun _ => hpool) refused unread
    · rw [block_succ] at hend
      exact wpFaults_isValidRecord hC hpast ⟨recordSize_pos payload, by omega, ready.density_lt⟩
        hholds hpool (fun heq => absurd heq hcrc) refused unread

/-- Between the records of a block the scan finds the next one, unless it cannot be read. -/
theorem BlockLog.wpFaults_record {b recSize : Nat} {done rest : List (List UInt8)}
    {payload : List UInt8} (ready : Ready this socketNum nor)
    (hb : this.partitionInfo.ring.Mem b) (h : BlockLog this m b (done ++ payload :: rest))
    (hC : C m) (hpast : ¬ Wrote past)
    {Q : Bool × Nat → Unit → List Command → Memory → Prop}
    (accepted : ∀ past', ¬ Wrote past' →
      BehindRecord past' (b * seqBlockSize + logSize (done ++ [payload])) →
      Q (true, recordSize payload) () past' m)
    (refused : ∀ past', ¬ Wrote past' → Q (false, recSize) () past' m)
    (unread : ¬ BehindRecord past (b * seqBlockSize + logSize done) →
      ∀ past', ¬ Wrote past' → Q (true, recSize) () past' m) :
    wpFaults (Tolerated this) (isValidRecord this nor (b * seqBlockSize + logSize done) recSize)
      Q C () past m := by
  have hlt := ready.block_lt hb
  have hfits := h.fits
  have hholds := h.holds
  rw [logBytes_append, holds_append, length_logBytes, logBytes_cons, holds_append, encode_eq]
    at hholds
  rw [logSize_append, logSize_cons] at hfits
  rw [block_succ] at hlt
  refine wpFaults_isValidRecord hC hpast ⟨recordSize_pos payload, by omega, ready.density_lt⟩
    hholds.2.1 (ready.pool _ (by omega)) ?_ refused unread
  intro _ past' hpast' hbehind
  apply accepted past' hpast'
  rw [logSize_append, logSize_cons, logSize_nil, Nat.add_zero, ← Nat.add_assoc]
  exact hbehind

/-- The scan of a block ends behind some of its records. At the start of the block a header that
cannot be read is tried again, since the size before is zero. -/
theorem BlockLog.wpFaults_readLastScan {b : Nat} {records : List (List UInt8)}
    (ready : Ready this socketNum nor) (hb : this.partitionInfo.ring.Mem b)
    (h : BlockLog this m b records) (hC : C m) {fuel : Nat} {done rest : List (List UInt8)}
    {curSize prevOffset prevSize : Nat} (hpast : ¬ Wrote past) (hsplit : records = done ++ rest)
    (hfirst : done = [] → curSize = 0)
    (hprev : prevOffset + prevSize = b * seqBlockSize + logSize done)
    (hbehind : done ≠ [] → BehindRecord past (b * seqBlockSize + logSize done)) :
    wpFaults (Tolerated this)
      (readLastScan this nor ((b + 1) * seqBlockSize) fuel (b * seqBlockSize + logSize done)
        curSize prevOffset prevSize)
      (fun r _ past' m' => OnlyRead m past' m' ∧
        ∃ done rest, records = done ++ rest ∧ r.1 + r.2 = b * seqBlockSize + logSize done)
      C () past m := by
  induction fuel generalizing done rest curSize prevOffset prevSize past with
  | zero =>
    rw [readLastScan, wpFaults_outOfFuel]
    exact hC
  | succ fuel ih =>
    have hlt := ready.block_lt hb
    have hdensity := ready.density_lt
    have hfits := h.fits
    rw [hsplit, logSize_append] at hfits
    rw [block_succ] at hlt
    have hstop : ∀ past', ¬ Wrote past' → OnlyRead m past' m ∧
        ∃ done rest, records = done ++ rest ∧
          prevOffset + prevSize = b * seqBlockSize + logSize done :=
      fun past' hpast' => ⟨⟨rfl, hpast'⟩, done, rest, hsplit, hprev⟩
    -- a header that cannot be read: nothing stands in front of it
    have hretry : ¬ BehindRecord past (b * seqBlockSize + logSize done) →
        ∀ past', ¬ Wrote past' →
        wpFaults (Tolerated this)
          (readLastScan this nor ((b + 1) * seqBlockSize) fuel
            (u32 (b * seqBlockSize + logSize done + curSize)) curSize
            (b * seqBlockSize + logSize done) curSize)
          (fun r _ past' m' => OnlyRead m past' m' ∧
            ∃ done rest, records = done ++ rest ∧ r.1 + r.2 = b * seqBlockSize + logSize done)
          C () past' m := by
      intro hnot past' hpast'
      have hnil : done = [] := by
        by_contra hne
        exact hnot (hbehind hne)
      have hzero := hfirst hnil
      subst hnil hzero
      rw [logSize_nil, Nat.add_zero, Nat.add_zero, u32_of_lt (by omega)]
      refine @ih past' [] rest 0 (b * seqBlockSize) 0 hpast' hsplit (fun _ => rfl) rfl ?_
      intro hne
      exact absurd rfl hne
    rw [readLastScan]
    split
    next hmore =>
      apply wpFaults_bind
      cases rest with
      | nil =>
        rw [List.append_nil] at hsplit
        subst hsplit
        refine h.wpFaults_stop ready hb hmore hC hpast ?_ ?_
        · intro past' hpast'
          simp only [Bool.false_eq_true, if_false, wpFaults_pure]
          exact ⟨hC, hstop past' hpast'⟩
        · intro hnot past' hpast'
          simp only [if_true]
          exact hretry hnot past' hpast'
      | cons payload rest =>
        have hlog := h
        rw [hsplit] at hlog
        rw [logSize_cons] at hfits
        have hnext : u32 (b * seqBlockSize + logSize done + recordSize payload) =
            b * seqBlockSize + logSize (done ++ [payload]) := by
          rw [logSize_append, logSize_cons, logSize_nil, Nat.add_zero, ← Nat.add_assoc]
          exact u32_of_lt (by omega)
        refine hlog.wpFaults_record ready hb hC hpast ?_ ?_ ?_
        · intro past' hpast' hbehind'
          simp only [if_true, hnext]
          refine ih hpast' (by rw [hsplit, List.append_assoc]; rfl) ?_ ?_ ?_
          · intro hnil
            simp at hnil
          · rw [logSize_append, logSize_cons, logSize_nil, Nat.add_zero, Nat.add_assoc]
          · intro _
            exact hbehind'
        · intro past' hpast'
          simp only [Bool.false_eq_true, if_false, wpFaults_pure]
          exact ⟨hC, hstop past' hpast'⟩
        · intro hnot past' hpast'
          simp only [if_true]
          exact hretry hnot past' hpast'
    next =>
      rw [wpFaults_pure]
      exact ⟨hC, hstop past hpast⟩

/-- Where a write goes: the start of the partition, or behind records of the lowest active
block. -/
def WriteOffset (this : Protocol) (m : Memory) (offset : Nat) : Prop :=
  offset = this.partitionInfo.ring.first * seqBlockSize ∨
    ∃ b done rest, Lowest this m b ∧ BlockLog this m b (done ++ rest) ∧
      offset = b * seqBlockSize + logSize done

theorem Ready.first_mem (ready : Ready this socketNum nor) :
    this.partitionInfo.ring.Mem this.partitionInfo.ring.first := by
  obtain ⟨hcount, -, -⟩ := ready.geometry
  exact ⟨Nat.le_refl _, by omega⟩

theorem wpFaults_getWriteNextOffset (ready : Ready this socketNum nor) (h : Sound this m)
    (hC : C m) (hpast : ¬ Wrote past) :
    wpFaults (Tolerated this) (getWriteNextOffset this nor)
      (fun r _ past' m' => OnlyRead m past' m' ∧ Served (WriteOffset this m) r) C () past m := by
  unfold getWriteNextOffset
  apply wpFaults_bind
  refine wpFaults_mono (wpFaults_getActiveBlock ready hC hpast) ?_
  rintro r ⟨⟩ past' _ ⟨⟨rfl, hpast'⟩, hlowest⟩
  split
  next =>
    rw [wpFaults_pure]
    refine ⟨hC, ⟨rfl, hpast'⟩, ?_⟩
    left
    exact (ready.u32_block ready.first_mem).2.1
  next =>
    rw [wpFaults_pure]
    exact ⟨hC, ⟨rfl, hpast'⟩, hlowest⟩
  next b =>
    have hb : Lowest this _ b := hlowest
    obtain ⟨records, hlog⟩ := (h b hb.inside).log hb.active
    have hu := (ready.u32_block hb.inside).2
    have hend := (block_succ b).symm
    have hlt := ready.block_lt hb.inside
    have hdensity := ready.density_lt
    have hfits := hlog.fits
    unfold getReadLastOffset
    simp only [hu.1, hend, hu.2]
    apply wpFaults_bind
    have hscan := @BlockLog.wpFaults_readLastScan _ _ _ _ _ _ _ _ ready hb.inside hlog hC
      (seqBlockSize + 1) [] records 0 (b * seqBlockSize) 0 hpast' rfl (fun _ => rfl) rfl
      (fun hne => absurd rfl hne)
    rw [logSize_nil, Nat.add_zero] at hscan
    refine wpFaults_mono hscan ?_
    rintro ⟨prevOffset, prevSize⟩ ⟨⟩ past'' _ ⟨⟨rfl, hpast''⟩, done, rest, hsplit, hoffset⟩
    rw [hsplit, logSize_append] at hfits
    rw [← hend] at hlt
    rw [wpFaults_pure]
    refine ⟨hC, ⟨rfl, hpast''⟩, ?_⟩
    right
    rw [hsplit] at hlog
    refine ⟨b, done, rest, hb, hlog, ?_⟩
    show u32 (prevOffset + prevSize) = _
    rw [hoffset]
    exact u32_of_lt (by omega)

theorem wpFaults_isSpiNorRegionErased {offset recSize : Nat} (hC : C m) (hpast : ¬ Wrote past)
    (hc : nor.Covers offset recSize) :
    wpFaults (Tolerated this) (isSpiNorRegionErased this nor offset recSize)
      (fun r _ past' m' => OnlyRead m past' m' ∧ (r = true → Blank m offset recSize))
      C () past m := by
  unfold isSpiNorRegionErased
  split
  next =>
    apply wpFaults_bind
    refine wpFaults_norRead hc hC ?_ ?_
    · simp only [EfiStatus.isError_success, Bool.false_eq_true, if_false, wpFaults_pure]
      exact ⟨hC, ⟨rfl, not_wrote_read hpast⟩, (isErased_slice m offset recSize).mp⟩
    · intro status effect herror _
      simp only [herror, if_true, wpFaults_pure]
      exact ⟨hC, ⟨rfl, not_wrote_read hpast⟩, by intros; contradiction⟩
  next =>
    rw [wpFaults_pure]
    exact ⟨hC, ⟨rfl, hpast⟩, by intros; contradiction⟩

/-- The write stays in a block only where it fits, at its start or on erased cells. -/
theorem wpFaults_mustSwitchBlock (ready : Ready this socketNum nor) {activeBlock offset recSize : Nat}
    (hb : this.partitionInfo.ring.Mem activeBlock) (hsize : 0 < recSize)
    (hoffset : offset + recSize < 2 ^ 32) (hC : C m) (hpast : ¬ Wrote past) :
    wpFaults (Tolerated this) (mustSwitchBlock this nor activeBlock offset recSize)
      (fun r _ past' m' => OnlyRead m past' m' ∧
        (r = false → offset + recSize ≤ (activeBlock + 1) * seqBlockSize ∧
          (offset = activeBlock * seqBlockSize ∨ Blank m offset recSize))) C () past m := by
  obtain ⟨-, hu, hu'⟩ := ready.u32_block hb
  have hlt := ready.block_lt hb
  unfold mustSwitchBlock
  simp only [hu, hu', u32_of_lt hoffset]
  split
  next =>
    rw [wpFaults_pure]
    exact ⟨hC, ⟨rfl, hpast⟩, nofun⟩
  next hfit =>
    split
    next =>
      apply wpFaults_bind
      refine wpFaults_mono
        (wpFaults_isSpiNorRegionErased hC hpast ⟨hsize, by omega, ready.density_lt⟩) ?_
      rintro erased ⟨⟩ past' _ ⟨⟨rfl, hpast'⟩, hblank⟩
      rw [wpFaults_pure]
      refine ⟨hC, ⟨rfl, hpast'⟩, ?_⟩
      intro hkeep
      exact ⟨by omega, .inr (hblank (by simpa using hkeep))⟩
    next hstart =>
      rw [wpFaults_pure]
      refine ⟨hC, ⟨rfl, hpast⟩, ?_⟩
      intro _
      exact ⟨by omega, .inl (by omega)⟩

variable {b activeBlock : Nat} {records : List (List UInt8)} {payload : List UInt8}

/-- What a write leaves: a good flash, and the payload where it was acknowledged. -/
def Acknowledged (this : Protocol) (socketNum : Nat) (nor : NorFlash) (payload : List UInt8)
    (status : EfiStatus) (_ : Unit) (_ : List Command) (m : Memory) : Prop :=
  Sound this m ∧ (status = .success → ReadsLast this socketNum nor m payload)

/-- Where a record can be programmed: behind the records of a good block. -/
structure WriteRoom (this : Protocol) (m : Memory) (b : Nat) (records : List (List UInt8))
    (payload : List UInt8) : Prop where
  inside : this.partitionInfo.ring.Mem b
  sound : Sound this m
  log : BlockLog this m b records
  blank : Blank m (b * seqBlockSize + logSize records) (seqBlockSize - logSize records)
  fit : logSize records + recordSize payload ≤ seqBlockSize

theorem WriteRoom.erased (inside : this.partitionInfo.ring.Mem b) (sound : Sound this m)
    (blank : Blank m (b * seqBlockSize) seqBlockSize) (hp : recordSize payload ≤ seqBlockSize) :
    WriteRoom this m b [] payload where
  inside := inside
  sound := sound
  log := blockLog_nil blank
  blank := blank
  fit := by rwa [logSize_nil, Nat.zero_add]

theorem WriteRoom.wpFaults_write (ready : Ready this socketNum nor)
    (hpool : ∀ size, 0xFF000000 ≤ size → this.allocateZeroPool size = false)
    (h : WriteRoom this m b records payload)
    {Q : EfiStatus → Unit → List Command → Memory → Prop}
    (served : ∀ past' image, Wrote past' → Sound this image →
      image = program m (b * seqBlockSize + logSize records) (encode payload) →
      BlockLog this image b (records ++ [payload]) → Q .success () past' image)
    (failed : ∀ status past' image, status ≠ .success → Sound this image →
      Q status () past' image) :
    wpFaults (Tolerated this)
      (nor.write (b * seqBlockSize + logSize records) (encode payload)) Q (Sound this) () past m := by
  have hlt := ready.block_lt h.inside
  have hfit := h.fit
  rw [block_succ] at hlt
  have hcovers : nor.Covers (b * seqBlockSize + logSize records) (encode payload).length :=
    ⟨by rw [length_encode]; exact recordSize_pos payload, by rw [length_encode]; omega,
      ready.density_lt⟩
  have hcut := h.log.sound_write ready h.sound hpool h.blank h.fit
  have hwhole := hcut (encode payload).length
  rw [List.take_length] at hwhole
  rw [NorFlash.write_eq hcovers]
  apply Flash.wpFaults_write hcut
  · exact served _ _ ⟨_, _, List.mem_cons_self⟩ hwhole rfl (h.log.append h.blank h.fit)
  · intro status effect _
    exact failed status.val _ _ status.property (hcut effect)

theorem WriteRoom.wpFaults_inPlace (ready : Ready this socketNum nor)
    (hpool : ∀ size, 0xFF000000 ≤ size → this.allocateZeroPool size = false)
    (h : WriteRoom this m b records payload)
    (hlow : ∀ c, this.partitionInfo.ring.Mem c → c < b → m (c * seqBlockSize) ≠ activePageMagic) :
    wpFaults (Tolerated this)
      (nor.write (b * seqBlockSize + logSize records) (encode payload))
      (Acknowledged this socketNum nor payload) (Sound this) () past m := by
  apply h.wpFaults_write ready hpool
  · rintro past' image _ hsound rfl hlog
    refine ⟨hsound, ?_⟩
    intro _
    refine hlog.readsLast ready h.inside ?_
    intro c hc hlt
    have hdis := block_disjoint (Nat.ne_of_lt hlt)
    have hover : (c + 1) * seqBlockSize ≤ b * seqBlockSize := Nat.mul_le_mul_right _ hlt
    rw [block_succ] at hover
    have hpos := seqBlockSize_pos
    rw [program_outside _ _ _ _ (.inl (by omega))]
    exact hlow c hc hlt
  · intro status past' image hstatus hsound
    exact ⟨hsound, fun heq => absurd heq hstatus⟩

/-- The retirement of the old block behind a record in the new one. -/
theorem wpFaults_retireBlock (ready : Ready this socketNum nor)
    (hactive : this.partitionInfo.ring.Mem activeBlock) (hb : this.partitionInfo.ring.Mem b)
    (hne : b ≠ activeBlock) (h : Sound this m) (hlog : BlockLog this m b (records ++ [payload]))
    (hlow : ∀ c, this.partitionInfo.ring.Mem c → c < activeBlock → c ≠ b →
      m (c * seqBlockSize) ≠ activePageMagic)
    (hbelow : ∀ c, this.partitionInfo.ring.Mem c → c < b → c ≤ activeBlock)
    (hpast : Wrote past) :
    wpFaults (Tolerated this) (retireBlock nor activeBlock)
      (fun _ _ _ m' => Sound this m' ∧ ReadsLast this socketNum nor m' payload) (Sound this) ()
      past m := by
  have hu := (ready.u32_block hactive).2.1
  have hlt := ready.block_lt hactive
  have hdis := block_disjoint hne
  have hhdr : sizeofDataHdr ≤ seqBlockSize := by
    rw [seqBlockSize_eq]
    decide
  have hcovers : nor.Covers (activeBlock * seqBlockSize) sizeofDataHdr :=
    ready.covers_header hactive (Nat.mul_le_mul_right _ (Nat.le_succ _))
  -- a block that still answers is above the new one
  have hkept : Superseded this m (activeBlock * seqBlockSize) →
      Sound this m ∧ ReadsLast this socketNum nor m payload := by
    intro hsuper
    refine ⟨h, hlog.readsLast ready hb ?_⟩
    intro c hc hcb
    rcases Nat.lt_or_ge c activeBlock with hca | hge
    · exact hlow c hc hca (Nat.ne_of_lt hcb)
    · have heq : c = activeBlock := Nat.le_antisymm (hbelow c hc hcb) hge
      subst heq
      rcases hsuper with hnot | ⟨d, hd, hdlt, hdactive⟩
      · exact hnot
      · have hdc := Nat.lt_of_mul_lt_mul_right hdlt
        have hdb : d ≠ b := by omega
        exact absurd hdactive (hlow d hd hdc hdb)
  obtain ⟨data, hdata, hlength⟩ : ∃ data, (slice m (activeBlock * seqBlockSize)
      sizeofDataHdr).set 0 retiredPageMagic = retiredPageMagic :: data ∧
      (retiredPageMagic :: data).length = sizeofDataHdr := by
    have hlen := length_slice m (activeBlock * seqBlockSize) sizeofDataHdr
    generalize slice m (activeBlock * seqBlockSize) sizeofDataHdr = hdr at hlen
    cases hdr with
    | nil => cases hlen
    | cons flags data => exact ⟨data, rfl, hlen⟩
  have hretired : ∀ j, 0 < j →
      Sound this (program m (activeBlock * seqBlockSize) ((retiredPageMagic :: data).take j)) ∧
      ReadsLast this socketNum nor
        (program m (activeBlock * seqBlockSize) ((retiredPageMagic :: data).take j)) payload := by
    intro j hj
    obtain ⟨hsound, hflag⟩ := @Sound.retired _ _ activeBlock h data _ hj (by rw [hlength]; exact hhdr)
    have hcut : ((retiredPageMagic :: data).take j).length ≤ seqBlockSize := by
      rw [List.length_take]
      omega
    refine ⟨hsound, ?_⟩
    refine BlockLog.readsLast ready hb (hlog.congr fun a hlo hhi => ?_) ?_
    · exact program_outside _ _ _ _ (by omega)
    · intro c hc hcb
      by_cases heq : c = activeBlock
      · rw [heq]
        exact hflag
      · have hle := hbelow c hc hcb
        have hover : (c + 1) * seqBlockSize ≤ activeBlock * seqBlockSize :=
          Nat.mul_le_mul_right _ (by omega)
        rw [block_succ] at hover
        have hpos := seqBlockSize_pos
        rw [program_outside _ _ _ _ (.inl (by omega))]
        exact hlow c hc (by omega) (Nat.ne_of_lt hcb)
  unfold retireBlock
  simp only [hu]
  apply wpFaults_bind
  refine wpFaults_norRead hcovers h ?_ ?_
  · simp only [EfiStatus.isError_success, Bool.false_eq_true, if_false, hdata]
    rw [NorFlash.write_eq (by rw [hlength]; exact hcovers)]
    have hcut : ∀ j, Sound this
        (program m (activeBlock * seqBlockSize) ((retiredPageMagic :: data).take j)) := by
      intro j
      rcases Nat.eq_zero_or_pos j with rfl | hj
      · rw [List.take_zero, program_nil]
        exact h
      · exact (hretired j hj).1
    apply wpFaults_write hcut
    · have hwhole := hretired (retiredPageMagic :: data).length (Nat.succ_pos _)
      rwa [List.take_length] at hwhole
    · intro status effect htol
      rcases Nat.eq_zero_or_pos effect with rfl | heffect
      · rw [List.take_zero, program_nil]
        obtain ⟨offset, bytes, hmem⟩ := hpast
        rcases htol ⟨offset, bytes, List.mem_cons_of_mem _ hmem⟩ with hzero | hsuper
        · exact absurd hzero (Nat.lt_irrefl 0)
        · exact hkept hsuper
      · exact hretired effect heffect
  · intro status effect herror htol
    simp only [herror, if_true, wpFaults_pure]
    exact ⟨h, hkept (htol.1 hpast)⟩

theorem wpFaults_eraseNewBlock (ready : Ready this socketNum nor)
    (hb : this.partitionInfo.ring.Mem b) (h : Sound this m)
    {Q : EfiStatus → Unit → List Command → Memory → Prop}
    (done : ∀ status past' image, Sound this image →
      Blank image (b * seqBlockSize) seqBlockSize →
      (∀ a, (a < b * seqBlockSize ∨ b * seqBlockSize + seqBlockSize ≤ a) → image a = m a) →
      Q status () past' image) :
    wpFaults (Tolerated this) (eraseNewBlock this nor b) Q (Sound this) () past m := by
  have hblank := blank_erase m (b * seqBlockSize) seqBlockSize
  have hsame : ∀ a, (a < b * seqBlockSize ∨ b * seqBlockSize + seqBlockSize ≤ a) →
      erase m (b * seqBlockSize) seqBlockSize a = m a :=
    fun a ha => erase_outside _ _ _ _ ha
  have hsound := h.blanked hblank hsame
  rw [ready.eraseNewBlock_eq hb]
  apply wpFaults_erase h hsound
  · exact done _ _ _ hsound hblank hsame
  · intro status effect htol
    rcases htol with hwhole | hkept
    · rw [Nat.min_eq_right hwhole]
      exact ⟨hsound, done _ _ _ hsound hblank hsame⟩
    · rw [hkept.erase_eq (Nat.le_refl _) (Nat.add_le_add_left (Nat.min_le_right effect _) _)]
      exact ⟨h, done _ _ _ h hkept fun _ _ => rfl⟩

theorem Ring.lt_next {ring : Ring} {b c : Nat} (hc : ring.Mem c) (hlt : c < ring.next b) :
    c ≤ b := by
  obtain ⟨hlo, -⟩ := hc
  unfold Ring.next at hlt
  split at hlt <;> omega

/-- The move to the next block: a record behind its erase, and the old block retired. -/
theorem wpFaults_moved (ready : Ready this socketNum nor)
    (hpool : ∀ size, 0xFF000000 ≤ size → this.allocateZeroPool size = false)
    (hactive : this.partitionInfo.ring.Mem activeBlock)
    (h : WriteRoom this m (this.partitionInfo.ring.next activeBlock) [] payload)
    (hlow : ∀ c, this.partitionInfo.ring.Mem c → c < activeBlock →
      c ≠ this.partitionInfo.ring.next activeBlock → m (c * seqBlockSize) ≠ activePageMagic) :
    wpFaults (Tolerated this)
      (do
        let status ← nor.write (this.partitionInfo.ring.next activeBlock * seqBlockSize)
          (encode payload)
        if status.isError then
          pure status
        else do
          let _ ← retireBlock nor activeBlock
          pure status)
      (Acknowledged this socketNum nor payload) (Sound this) () past m := by
  obtain ⟨hcount, -, -⟩ := ready.geometry
  have hne : this.partitionInfo.ring.next activeBlock ≠ activeBlock := Ring.next_ne hcount
  have hwrite := @WriteRoom.wpFaults_write _ _ _ _ past _ _ _ ready hpool h
    (fun status _ past' m' => wpFaults (Tolerated this)
      (if status.isError = true then pure status
        else do
          let _ ← retireBlock nor activeBlock
          pure status)
      (Acknowledged this socketNum nor payload) (Sound this) () past' m')
  rw [logSize_nil, Nat.add_zero] at hwrite
  apply wpFaults_bind
  apply hwrite
  · rintro past' image hpast' hsound rfl hlog
    simp only [EfiStatus.isError_success, Bool.false_eq_true, if_false]
    apply wpFaults_bind
    refine wpFaults_mono (@wpFaults_retireBlock _ _ _ _ _ _ _ [] _ ready hactive h.inside hne hsound
      hlog ?_ (fun c hc hlt => Ring.lt_next hc hlt) hpast') ?_
    · intro c hc hlt hcb
      have hdis := block_disjoint hcb
      have hfit := h.fit
      have hpos := seqBlockSize_pos
      rw [logSize_nil] at hfit
      rw [program_outside _ _ _ _ (by rw [length_encode]; omega)]
      exact hlow c hc hlt hcb
    · rintro status ⟨⟩ past'' image' ⟨hsound', hreads⟩
      rw [wpFaults_pure]
      exact ⟨hsound', hsound', fun _ => hreads⟩
  · intro status past' image hstatus hsound
    have herror : status.isError = true := by simpa [EfiStatus.isError] using hstatus
    simp only [herror, if_true, wpFaults_pure]
    exact ⟨hsound, hsound, fun heq => absurd heq hstatus⟩

/-- The block a write takes for the active one: the first block where none was found. -/
def ActiveBlock (this : Protocol) (m : Memory) (b : Nat) : Prop :=
  b = this.partitionInfo.ring.first ∨ Lowest this m b

theorem ActiveBlock.inside (ready : Ready this socketNum nor) (h : ActiveBlock this m b) :
    this.partitionInfo.ring.Mem b := by
  rcases h with rfl | h
  · exact ready.first_mem
  · exact h.inside

theorem ActiveBlock.earlier (h : ActiveBlock this m b) {c : Nat}
    (hc : this.partitionInfo.ring.Mem c) (hlt : c < b) :
    m (c * seqBlockSize) ≠ activePageMagic := by
  rcases h with rfl | h
  · exact absurd hc.1 (Nat.not_le_of_lt hlt)
  · exact h.earlier c hc hlt

theorem Lowest.unique {c : Nat} (h : Lowest this m b) (h' : Lowest this m c) : b = c := by
  rcases Nat.lt_trichotomy b c with hlt | heq | hgt
  · exact absurd h.active (h'.earlier b h.inside hlt)
  · exact heq
  · exact absurd h'.active (h.earlier c h'.inside hgt)

/-- A write that stays in its block without an erase goes behind the records of the lowest one. -/
theorem WriteOffset.room (ready : Ready this socketNum nor) {offset : Nat} (hs : Sound this m)
    (h : WriteOffset this m offset) (hb : ActiveBlock this m activeBlock)
    (hfit : offset + recordSize payload ≤ (activeBlock + 1) * seqBlockSize)
    (hstart : offset ≠ activeBlock * seqBlockSize) (hblank : Blank m offset (recordSize payload))
    (hp : recordSize payload ≤ seqBlockSize) :
    ∃ b records, WriteRoom this m b records payload ∧
      offset = b * seqBlockSize + logSize records ∧
      ∀ c, this.partitionInfo.ring.Mem c → c < b → m (c * seqBlockSize) ≠ activePageMagic := by
  have hpos := recordSize_pos payload
  have hcell := hblank offset (Nat.le_refl _) (by omega)
  rw [block_succ] at hfit
  rcases h with rfl | ⟨b, done, rest, hlowest, hlog, rfl⟩
  · -- the start of the partition while another block is active
    refine ⟨this.partitionInfo.ring.first, [], ?_, rfl, ?_⟩
    · exact .erased ready.first_mem hs ((hs _ ready.first_mem).blank hcell) hp
    · intro c hc hlt
      exact absurd hc.1 (Nat.not_le_of_lt hlt)
  · have heq : activeBlock = b := by
      rcases hb with hfirst | hactive
      · rcases Nat.lt_or_ge activeBlock b with hlt | hge
        · have hover : (activeBlock + 1) * seqBlockSize ≤ b * seqBlockSize :=
            Nat.mul_le_mul_right _ hlt
          rw [block_succ] at hover
          omega
        · have hlo := hlowest.inside.1
          omega
      · exact hactive.unique hlowest
    subst heq
    -- a record in front of the scan's end would not be erased
    have hrest : rest = [] := by
      cases rest with
      | nil => rfl
      | cons next rest =>
        have hholds := hlog.holds
        rw [logBytes_append, holds_append, length_logBytes] at hholds
        rw [first_flag hholds.2 (by simp)] at hcell
        exact absurd hcell (by decide)
    rw [hrest, List.append_nil] at hlog
    refine ⟨activeBlock, done, ⟨hlowest.inside, hs, hlog, ?_, by omega⟩, rfl, hlowest.earlier⟩
    rcases hlog.behind with hbehind | htorn
    · exact hbehind
    · rw [htorn.flags] at hcell
      exact absurd hcell (by decide)

theorem wpFaults_writeRecord (ready : Ready this socketNum nor)
    (hpool : ∀ size, 0xFF000000 ≤ size → this.allocateZeroPool size = false)
    (hp : recordSize payload ≤ seqBlockSize) {offset : Nat} (hs : Sound this m)
    (hb : ActiveBlock this m activeBlock) (h : WriteOffset this m offset) (hpast : ¬ Wrote past) :
    wpFaults (Tolerated this) (writeRecord this nor activeBlock offset payload)
      (Acknowledged this socketNum nor payload) (Sound this) () past m := by
  obtain ⟨hcount, -, -⟩ := ready.geometry
  have hdensity := ready.density_lt
  have haddr := ready.addressable
  have hactive := hb.inside ready
  have hnext := Ring.next_mem hactive
  have hlt := ready.block_lt hactive
  have hpos := recordSize_pos payload
  have hrec : u32 (payload.length + sizeofDataHdr) = recordSize payload := by
    rw [block_succ] at hlt
    exact u32_of_lt (by rw [← recordSize]; omega)
  have halloc : this.allocateZeroPool (payload.length + sizeofDataHdr) = true := ready.pool _ hp
  have hmake : makeRecord (recordSize payload) payload = encode payload := rfl
  obtain ⟨-, hu, -⟩ := ready.u32_block hactive
  obtain ⟨-, hu', -⟩ := ready.u32_block hnext
  have hne : this.partitionInfo.ring.next activeBlock ≠ activeBlock := Ring.next_ne hcount
  have hoffset : offset + recordSize payload < 2 ^ 32 := by
    have hhdr : 0 < sizeofDataHdr := by decide
    rcases h with rfl | ⟨b, done, rest, hlowest, hlog, rfl⟩
    · have hlt' := ready.block_lt ready.first_mem
      rw [block_succ] at hlt'
      omega
    · have hlt' := ready.block_lt hlowest.inside
      have hfits := hlog.fits
      rw [logSize_append] at hfits
      rw [block_succ] at hlt'
      omega
  unfold writeRecord
  simp only [hrec, hmake]
  apply wpFaults_bind
  refine wpFaults_mono (wpFaults_mustSwitchBlock ready hactive hpos hoffset hs hpast) ?_
  rintro switch ⟨⟩ past' _ ⟨⟨rfl, hpast'⟩, hstay⟩
  cases switch with
  | true =>
    simp only [if_true, ready.getNextWriteBlock_eq hactive, ne_eq, hne, not_false_eq_true, true_or,
      halloc, hu']
    apply wpFaults_bind
    apply wpFaults_eraseNewBlock ready hnext hs
    intro status past'' image hsound hblank hsame
    refine wpFaults_moved ready hpool hactive (.erased hnext hsound hblank hp) ?_
    intro c hc hlt hcb
    have hdis := block_disjoint hcb
    have hsize := seqBlockSize_pos
    rw [hsame _ (by omega)]
    exact hb.earlier hc hlt
  | false =>
    obtain ⟨hfit, hplace⟩ := hstay rfl
    simp only [Bool.false_eq_true, if_false, ne_eq, not_true_eq_false, false_or, halloc, if_true,
      ite_self, bind_pure, hu]
    split
    next hstart =>
      -- the first record of a block, or one in place of what it held
      apply wpFaults_bind
      apply wpFaults_eraseNewBlock ready hactive hs
      intro status past'' image hsound hblank hsame
      have hroom : WriteRoom this image activeBlock [] payload :=
        .erased hactive hsound hblank hp
      rw [hstart]
      apply hroom.wpFaults_inPlace ready hpool
      intro c hc hlt
      have hover : (c + 1) * seqBlockSize ≤ activeBlock * seqBlockSize :=
        Nat.mul_le_mul_right _ hlt
      have hsize := seqBlockSize_pos
      rw [block_succ] at hover
      rw [hsame _ (.inl (by omega))]
      exact hb.earlier hc hlt
    next hstart =>
      have hblank := hplace.resolve_left hstart
      obtain ⟨b, records, hroom, rfl, hlow⟩ := h.room ready hs hb hfit hstart hblank hp
      exact hroom.wpFaults_inPlace ready hpool hlow

theorem wpFaults_writeNextRecord (ready : Ready this socketNum nor)
    (hpool : ∀ size, 0xFF000000 ≤ size → this.allocateZeroPool size = false)
    (hp : recordSize payload ≤ seqBlockSize) (h : Sound this m) :
    wpFaults (Tolerated this) (writeNextRecord this socketNum payload)
      (Acknowledged this socketNum nor payload) (Sound this) () [] m := by
  have hsocket := ready.socket
  have hpast : ¬ Wrote [] := by
    rintro ⟨offset, data, hmem⟩
    cases hmem
  have hfailed : ∀ status : EfiStatus, status ≠ .success → ∀ past',
      wpFaults (Tolerated this) (pure status : SeqM EfiStatus)
        (Acknowledged this socketNum nor payload) (Sound this) () past' m := by
    intro status hstatus past'
    rw [wpFaults_pure]
    exact ⟨h, h, fun heq => absurd heq hstatus⟩
  unfold writeNextRecord
  rw [if_neg (by omega), ready.present]
  apply wpFaults_bind
  refine wpFaults_mono (wpFaults_getWriteNextOffset ready h h hpast) ?_
  rintro r ⟨⟩ past' _ ⟨⟨rfl, hpast'⟩, hoffset⟩
  split
  next status => exact hfailed status hoffset past'
  next offset =>
    apply wpFaults_bind
    refine wpFaults_mono (wpFaults_getActiveBlock ready h hpast') ?_
    rintro r ⟨⟩ past'' _ ⟨⟨rfl, hpast''⟩, hactive⟩
    split
    next => exact wpFaults_writeRecord ready hpool hp h (.inl rfl) hoffset hpast''
    next status _ => exact hfailed status hactive past''
    next b => exact wpFaults_writeRecord ready hpool hp h (.inr hactive) hoffset hpast''

/-! Runs. -/

theorem sound_of_blank (ready : Ready this socketNum nor)
    (h : Blank m this.partitionInfo.partitionByteOffset this.partitionInfo.partitionSize) :
    Sound this m := by
  intro b ⟨hlo, hhi⟩
  rw [ready.partition.1, ready.partition.2] at h
  have hstart : this.partitionInfo.ring.first * seqBlockSize ≤ b * seqBlockSize :=
    Nat.mul_le_mul_right _ hlo
  have hend : (b + 1) * seqBlockSize ≤
      (this.partitionInfo.ring.first + this.partitionInfo.ring.count) * seqBlockSize :=
    Nat.mul_le_mul_right _ hhi
  rw [block_succ, Nat.add_mul] at hend
  have hblank : Blank m (b * seqBlockSize) seqBlockSize := h.sub hstart (by omega)
  exact ⟨fun _ => hblank, fun _ => ⟨[], blockLog_nil hblank⟩⟩

/-- An erase of the partition that fails has stopped between two blocks of the ring. -/
def StopsBetween (_ : List Command) (command : Command) (ending : Ending EfiStatus) (_ : Memory) :
    Prop :=
  match ending, command with
  | .failed _ effect, .erase _ size => seqBlockSize ∣ min effect size
  | _, _ => True

/-- The flash contents that writes and erases of the partition lead to, commands failing and
power being lost at any of them. -/
inductive Reaches (this : Protocol) (socketNum : Nat) (m : Memory) : Memory → Prop where
  | fresh : Reaches this socketNum m m
  | write {payload : List UInt8} {tape : Nat → Ending EfiStatus} {m' image : Memory}
      {status : EfiStatus} (before : Reaches this socketNum m m')
      (fits : payload.length + sizeofDataHdr ≤ seqBlockSize)
      (tolerated : (writeNextRecord this socketNum payload ()).Along (Tolerated this) [] tape m')
      (ran : (writeNextRecord this socketNum payload ()).runFaults tape m' =
        (some (status, ()), image)) : Reaches this socketNum m image
  | lost {payload : List UInt8} {tape : Nat → Ending EfiStatus} {m' image : Memory}
      (before : Reaches this socketNum m m')
      (fits : payload.length + sizeofDataHdr ≤ seqBlockSize)
      (tolerated : (writeNextRecord this socketNum payload ()).Along (Tolerated this) [] tape m')
      (cut : (writeNextRecord this socketNum payload ()).Cut tape m' image) :
      Reaches this socketNum m image
  | erase {tape : Nat → Ending EfiStatus} {m' image : Memory} {status : EfiStatus}
      (before : Reaches this socketNum m m')
      (between : (erasePartition this socketNum ()).Along StopsBetween [] tape m')
      (ran : (erasePartition this socketNum ()).runFaults tape m' = (some (status, ()), image)) :
      Reaches this socketNum m image

/-- The blocks from the first one on are erased, up to any other. -/
theorem Sound.erased_blocks (h : Sound this m) (count : Nat) :
    Sound this (erase m (this.partitionInfo.ring.first * seqBlockSize) (count * seqBlockSize)) := by
  induction count with
  | zero =>
    rw [Nat.zero_mul, erase_zero]
    exact h
  | succ count ih =>
    refine ih.blanked (b := this.partitionInfo.ring.first + count) ?_ ?_
    · apply (blank_erase m _ _).sub
      · exact Nat.mul_le_mul_right _ (Nat.le_add_right _ _)
      · rw [Nat.add_mul, Nat.succ_mul]
        omega
    · intro a ha
      unfold erase
      rw [Nat.add_mul] at ha
      rw [Nat.succ_mul]
      split_ifs <;> first | rfl | omega

theorem sound_erasePartition (ready : Ready this socketNum nor) (h : Sound this m)
    {tape : Nat → Ending EfiStatus} {image : Memory} {status : EfiStatus}
    (between : (erasePartition this socketNum ()).Along StopsBetween [] tape m)
    (ran : (erasePartition this socketNum ()).runFaults tape m = (some (status, ()), image)) :
    Sound this image := by
  have hsocket := ready.socket
  have hdensity := ready.density_lt
  have hdev := ready.onDevice
  have hhdr : 0 < sizeofDataHdr := by decide
  obtain ⟨hcount, -, -⟩ := ready.geometry
  obtain ⟨hoffset, hsize⟩ := ready.partition
  obtain ⟨k, hk⟩ := ready.eraseBlock
  have hblocks := ready.attributes
  have hbs : 0 < nor.blockSize := by
    rcases Nat.eq_zero_or_pos nor.blockSize with hzero | hpos
    · rw [hzero, Nat.zero_mul] at hk
      exact absurd hk (Nat.ne_of_gt seqBlockSize_pos)
    · exact hpos
  have hstart : this.partitionInfo.partitionByteOffset / nor.blockSize * nor.blockSize =
      this.partitionInfo.partitionByteOffset := by
    apply Nat.div_mul_cancel
    rw [hoffset]
    exact Nat.dvd_mul_left_of_dvd ready.eraseBlock _
  have hend : this.partitionInfo.partitionSize / nor.blockSize * nor.blockSize =
      this.partitionInfo.partitionSize := by
    apply Nat.div_mul_cancel
    rw [hsize]
    exact Nat.dvd_mul_left_of_dvd ready.eraseBlock _
  have hpos : 0 < this.partitionInfo.partitionSize := by
    rw [hsize]
    exact Nat.mul_pos (by omega) seqBlockSize_pos
  have hnum : 0 < this.partitionInfo.partitionSize / nor.blockSize := by
    apply Nat.pos_of_ne_zero
    intro hzero
    rw [hzero, Nat.zero_mul] at hend
    omega
  have hle := Nat.div_le_self this.partitionInfo.partitionByteOffset nor.blockSize
  have hle' := Nat.div_le_self this.partitionInfo.partitionSize nor.blockSize
  have herase : erasePartition this socketNum =
      eraseFlash (σ := Unit) this.partitionInfo.partitionByteOffset
        this.partitionInfo.partitionSize := by
    unfold erasePartition
    rw [if_neg (by omega), ready.present]
    simp only [hblocks]
    rw [u32_of_lt (by omega), u32_of_lt (by omega), NorFlash.erase_eq _ _ hnum hbs
      (by rw [hstart, hend]; exact ⟨hpos, by omega, hdensity⟩), hstart, hend]
  rw [herase] at ran between
  simp only [eraseFlash, Prog.runFaults, Prod.mk.injEq] at ran
  rw [← ran.2, hoffset]
  have hstops := between.1
  cases htape : tape 0 with
  | ok =>
    rw [Ending.erased, hsize]
    exact h.erased_blocks _
  | failed status effect =>
    rw [htape] at hstops
    obtain ⟨count, hcount'⟩ : seqBlockSize ∣ min effect this.partitionInfo.partitionSize := hstops
    rw [Ending.erased, hcount', Nat.mul_comm seqBlockSize count]
    exact h.erased_blocks _

theorem Reaches.sound (ready : Ready this socketNum nor)
    (hpool : ∀ size, 0xFF000000 ≤ size → this.allocateZeroPool size = false)
    (erased : Blank m this.partitionInfo.partitionByteOffset this.partitionInfo.partitionSize)
    {m' : Memory} (h : Reaches this socketNum m m') : Sound this m' := by
  induction h with
  | fresh => exact sound_of_blank ready erased
  | write before fits tolerated ran ih =>
    obtain ⟨_, hsound, _⟩ := wpFaults_run (wpFaults_writeNextRecord ready hpool fits ih) tolerated ran
    exact hsound
  | lost before fits tolerated cut ih =>
    exact wpFaults_cut (wpFaults_writeNextRecord ready hpool fits ih) tolerated cut
  | erase before between ran ih => exact sound_erasePartition ready ih between ran

end

/-! The partition of two blocks. -/

end SequentialRecord
