import Edk2Nvidia.SequentialRecord.Scan

/-! The log a partition stands for: an active block with its records, in a ring of
blocks. A write appends to the active block or moves on in the ring; `Represents`
ties a flash to a log and `CutImage` lists what an interrupted write can leave. -/
namespace SequentialRecord
open Flash Crc8

/-- The blocks of a partition, by absolute number. -/
structure Ring where
  first : Nat
  count : Nat
deriving DecidableEq, Repr

namespace Ring

def Mem (ring : Ring) (b : Nat) : Prop := ring.first ≤ b ∧ b < ring.first + ring.count

def next (ring : Ring) (b : Nat) : Nat := if b + 1 = ring.first + ring.count then ring.first else b + 1

theorem next_mem {ring : Ring} {b : Nat} (h : ring.Mem b) : ring.Mem (ring.next b) := by
  unfold Mem next at *
  split <;> omega

theorem next_ne {ring : Ring} {b : Nat} (hc : 2 ≤ ring.count) :
    ring.next b ≠ b := by
  unfold next
  split <;> omega

end Ring

structure Log where
  block : Nat
  records : List (List UInt8)
deriving DecidableEq, Repr

namespace Log

def Fits (log : Log) (payload : List UInt8) : Prop :=
  logSize log.records + recordSize payload ≤ seqBlockSize

instance (log : Log) (payload : List UInt8) : Decidable (log.Fits payload) :=
  inferInstanceAs (Decidable (_ ≤ _))

def append (ring : Ring) (log : Log) (payload : List UInt8) : Log :=
  if log.Fits payload then ⟨log.block, log.records ++ [payload]⟩
  else ⟨ring.next log.block, [payload]⟩

def startOffset (log : Log) : Nat := log.block * seqBlockSize

/-- Where the next record goes when it fits. -/
def writeOffset (log : Log) : Nat := log.startOffset + logSize log.records

end Log

def PartitionInfo.ring (partition : PartitionInfo) : Ring :=
  ⟨partition.startBlock, partition.numBlocks⟩

/-- The driver is installed on a socket: its partition passed the check of the
initialisation and lies on the device, in front of its last bytes (the backup
partition table); 32-bit offsets reach a block past the end of the device; 64 KB
is a whole number of erase blocks, and the pool can hold a block. -/
structure Ready (this : Protocol) (socketNum : Nat) (nor : NorFlash) : Prop where
  socket : socketNum < maxSockets
  present : this.norFlashProtocol socketNum = some nor
  accepted : validatePartitionInfo this.partitionInfo = .success
  onDevice : this.partitionInfo.partitionByteOffset + this.partitionInfo.partitionSize +
    sizeofDataHdr ≤ nor.memoryDensity
  addressable : nor.memoryDensity + seqBlockSize ≤ 2 ^ 32
  attributes : this.norFlashAttributes.blockSize = nor.blockSize
  eraseBlock : nor.blockSize ∣ seqBlockSize
  pool : ∀ size ≤ seqBlockSize, this.allocateZeroPool size = true

section
variable {this : Protocol} {socketNum : Nat} {nor : NorFlash} {m : Memory} {log : Log}
  {b : Nat} {payload : List UInt8}

theorem Ready.density_lt (h : Ready this socketNum nor) : nor.memoryDensity < 2 ^ 32 := by
  have := h.addressable
  have := seqBlockSize_pos
  omega

theorem Ready.partition (h : Ready this socketNum nor) :
    this.partitionInfo.partitionByteOffset = this.partitionInfo.ring.first * seqBlockSize ∧
      this.partitionInfo.partitionSize = this.partitionInfo.ring.count * seqBlockSize := by
  have haccepted := h.accepted
  have hdev := h.onDevice
  have haddr := h.density_lt
  unfold validatePartitionInfo at haccepted
  split at haccepted
  · cases haccepted
  · simp only [PartitionInfo.ring, PartitionInfo.startBlock, PartitionInfo.numBlocks, u32,
      seqBlockSize] at *
    omega

theorem Ready.geometry (h : Ready this socketNum nor) :
    2 ≤ this.partitionInfo.ring.count ∧
    (this.partitionInfo.ring.first + this.partitionInfo.ring.count) * seqBlockSize + sizeofDataHdr ≤
      nor.memoryDensity ∧
    this.partitionInfo.lastBlock + 1 =
      this.partitionInfo.ring.first + this.partitionInfo.ring.count := by
  have haccepted := h.accepted
  have hdev := h.onDevice
  have haddr := h.density_lt
  unfold validatePartitionInfo at haccepted
  split at haccepted
  · cases haccepted
  · split at haccepted
    · cases haccepted
    · simp only [PartitionInfo.ring, PartitionInfo.lastBlock, PartitionInfo.startBlock,
        PartitionInfo.numBlocks, u32, seqBlockSize, sizeofDataHdr, minPartitionBlocks] at *
      omega

theorem Ready.block_lt (h : Ready this socketNum nor) (hb : this.partitionInfo.ring.Mem b) :
    (b + 1) * seqBlockSize + sizeofDataHdr ≤ nor.memoryDensity := by
  obtain ⟨-, hdev, -⟩ := h.geometry
  have : (b + 1) * seqBlockSize ≤
      (this.partitionInfo.ring.first + this.partitionInfo.ring.count) * seqBlockSize :=
    Nat.mul_le_mul_right _ hb.2
  omega

theorem Ready.u32_block (h : Ready this socketNum nor) (hb : this.partitionInfo.ring.Mem b) :
    u32 b = b ∧ u32 (b * seqBlockSize) = b * seqBlockSize ∧
      u32 ((b + 1) * seqBlockSize) = (b + 1) * seqBlockSize := by
  have hlt := h.block_lt hb
  have haddr := h.density_lt
  have hb' : b * 1 ≤ b * seqBlockSize := Nat.mul_le_mul_left b seqBlockSize_pos
  rw [block_succ] at hlt ⊢
  exact ⟨u32_of_lt (by omega), u32_of_lt (by omega), u32_of_lt (by omega)⟩

theorem Ready.covers_header (h : Ready this socketNum nor) (hb : this.partitionInfo.ring.Mem b)
    {offset : Nat} (ho : offset ≤ (b + 1) * seqBlockSize) : nor.Covers offset sizeofDataHdr :=
  ⟨by decide, by have := h.block_lt hb; omega, h.density_lt⟩

theorem Ready.getNextWriteBlock_eq (h : Ready this socketNum nor)
    (hb : this.partitionInfo.ring.Mem b) :
    getNextWriteBlock this.partitionInfo b = this.partitionInfo.ring.next b := by
  obtain ⟨-, -, hlast⟩ := h.geometry
  have hu := h.u32_block (Ring.next_mem hb)
  unfold getNextWriteBlock
  by_cases heq : b = this.partitionInfo.lastBlock
  · rw [if_pos heq, Ring.next, if_pos (by omega)]
    rfl
  · have hne : b + 1 ≠ this.partitionInfo.ring.first + this.partitionInfo.ring.count := by omega
    rw [Ring.next, if_neg hne] at hu ⊢
    rw [if_neg heq, hu.1]

theorem Ready.eraseNewBlock_eq (h : Ready this socketNum nor) (hb : this.partitionInfo.ring.Mem b) :
    eraseNewBlock this nor b = eraseFlash (b * seqBlockSize) seqBlockSize := by
  obtain ⟨k, hk⟩ := h.eraseBlock
  have hlt := h.block_lt hb
  have hpos : 0 < nor.blockSize := by
    rcases Nat.eq_zero_or_pos nor.blockSize with h0 | h0
    · rw [h0, Nat.zero_mul] at hk
      exact absurd hk (Nat.ne_of_gt seqBlockSize_pos)
    · exact h0
  have hcount : seqBlockSize / nor.blockSize = k := by
    rw [hk, Nat.mul_div_cancel_left _ hpos]
  have hstart : b * seqBlockSize / nor.blockSize = b * k := by
    rw [hk, ← Nat.mul_assoc, Nat.mul_comm b, Nat.mul_assoc, Nat.mul_div_cancel_left _ hpos]
  have hsize : k * nor.blockSize = seqBlockSize := by rw [hk, Nat.mul_comm]
  have hoffset : b * k * nor.blockSize = b * seqBlockSize := by rw [Nat.mul_assoc, hsize]
  have hkpos : 0 < k := by
    rcases Nat.eq_zero_or_pos k with h0 | h0
    · rw [h0, Nat.mul_zero] at hk
      exact absurd hk (Nat.ne_of_gt seqBlockSize_pos)
    · exact h0
  unfold eraseNewBlock
  simp only [h.attributes, (h.u32_block hb).2.1, hcount, hstart]
  rw [NorFlash.erase_eq _ _ hkpos hpos, hoffset, hsize]
  rw [hoffset, hsize]
  rw [block_succ] at hlt
  exact ⟨seqBlockSize_pos, by omega, h.density_lt⟩

/-! Which log a flash holds. -/

structure Represents (ring : Ring) (m : Memory) (log : Log) : Prop where
  inside : ring.Mem log.block
  fits : logSize log.records ≤ seqBlockSize
  holds : Holds m log.startOffset (logBytes log.records)
  blank : Blank m log.writeOffset (seqBlockSize - logSize log.records)
  others : ∀ b, ring.Mem b → b ≠ log.block → m (b * seqBlockSize) ≠ activePageMagic
  start : log.records = [] → log.block = ring.first

/-- What the readers need of a flash: no earlier block is active, and the records
of the log are what a scan of its block finds. -/
structure Readable (this : Protocol) (nor : NorFlash) (m : Memory) (log : Log) : Prop where
  inside : this.partitionInfo.ring.Mem log.block
  nonempty : log.records ≠ []
  scan : Scannable this nor m ((log.block + 1) * seqBlockSize) log.startOffset log.records
  earlier : ∀ b, this.partitionInfo.ring.Mem b → b < log.block →
    m (b * seqBlockSize) ≠ activePageMagic

theorem logSize_mem {ps : List (List UInt8)} {p : List UInt8} (h : p ∈ ps) :
    recordSize p ≤ logSize ps := by
  induction ps with
  | nil => cases h
  | cons q ps ih =>
    rw [logSize_cons]
    rcases List.mem_cons.mp h with rfl | h
    · omega
    · have := ih h
      omega

theorem Represents.scan (ready : Ready this socketNum nor)
    (h : Represents this.partitionInfo.ring m log) :
    Scannable this nor m ((log.block + 1) * seqBlockSize) log.startOffset log.records := by
  have hlt := ready.block_lt h.inside
  have hfits := h.fits
  have hend : log.startOffset + seqBlockSize = (log.block + 1) * seqBlockSize :=
    (block_succ _).symm
  refine ⟨h.holds, by omega, by omega, ready.density_lt, ?_, ?_⟩
  · intro p hp
    exact ready.pool _ (Nat.le_trans (logSize_mem hp) h.fits)
  · by_cases hfull : log.startOffset + logSize log.records = (log.block + 1) * seqBlockSize
    · exact .inl hfull
    · right
      intro recSize
      apply isValidRecord_notActive (ready.covers_header h.inside (by omega))
      have hb := h.blank log.writeOffset (Nat.le_refl _) (by rw [Log.writeOffset]; omega)
      rw [Log.writeOffset] at hb
      rw [hb]
      decide

theorem first_flag {offset : Nat} {ps : List (List UInt8)} (h : Holds m offset (logBytes ps))
    (hne : ps ≠ []) : m offset = activePageMagic := by
  cases ps with
  | nil => exact absurd rfl hne
  | cons p ps =>
    rw [logBytes_cons, holds_append] at h
    have := (holds_iff _ _ _).mp h.1 0 (by rw [length_encode]; exact recordSize_pos p)
    rw [Nat.add_zero] at this
    exact this

theorem activeBlockScan_eq {start k count : Nat} (hk : k < count)
    (hcover : ∀ i ≤ k, nor.Covers ((start + i) * seqBlockSize) sizeofDataHdr)
    (hearlier : ∀ i < k, m ((start + i) * seqBlockSize) ≠ activePageMagic)
    (hactive : m ((start + k) * seqBlockSize) = activePageMagic) :
    Returns (activeBlockScan nor count start) (.ok (start + k)) () m := by
  have hu : ∀ i ≤ k, u32 ((start + i) * seqBlockSize) = (start + i) * seqBlockSize := by
    intro i hi
    have h1 := (hcover i hi).inside
    have h2 := (hcover i hi).addressable
    have h3 := (hcover i hi).nonempty
    exact u32_of_lt (by omega)
  induction k generalizing start count with
  | zero =>
    obtain ⟨count, rfl⟩ := Nat.exists_eq_add_of_lt hk
    have h0 := hcover 0 (Nat.le_refl 0)
    have hu0 := hu 0 (Nat.le_refl 0)
    have hstart : u32 start = start := by
      have h2 := h0.addressable
      have h3 := h0.inside
      have h4 : start * 1 ≤ start * seqBlockSize := Nat.mul_le_mul_left start seqBlockSize_pos
      rw [Nat.add_zero] at h3
      exact u32_of_lt (by omega)
    rw [Nat.add_zero] at h0 hu0 hactive ⊢
    rw [Nat.zero_add, activeBlockScan, hu0]
    refine (NorFlash.returns_read h0).bind ?_
    simp only [EfiStatus.isError_success, Bool.false_eq_true, if_false, slice_flags, hactive, if_true,
      hstart]
    exact returns_pure _
  | succ k ih =>
    obtain ⟨count, rfl⟩ := Nat.exists_eq_add_of_lt hk
    have h0 := hcover 0 (Nat.zero_le _)
    have hu0 := hu 0 (Nat.zero_le _)
    have hf0 := hearlier 0 (Nat.succ_pos _)
    rw [Nat.add_zero] at h0 hu0 hf0
    have shift : ∀ i, start + 1 + i = start + (i + 1) := by
      intro i
      omega
    rw [activeBlockScan, hu0]
    refine (NorFlash.returns_read h0).bind ?_
    simp only [EfiStatus.isError_success, Bool.false_eq_true, if_false, slice_flags, hf0]
    rw [← shift k]
    refine ih (by omega) ?_ ?_ ?_ ?_
    · intro i hi
      rw [shift]
      exact hcover (i + 1) (by omega)
    · intro i hi
      rw [shift]
      exact hearlier (i + 1) (by omega)
    · rw [shift]
      exact hactive
    · intro i hi
      rw [shift]
      exact hu (i + 1) (by omega)

theorem Ready.covers_block (ready : Ready this socketNum nor) {i : Nat}
    (hi : i < this.partitionInfo.ring.count) :
    nor.Covers ((this.partitionInfo.ring.first + i) * seqBlockSize) sizeofDataHdr := by
  apply ready.covers_header (b := this.partitionInfo.ring.first + i) ⟨by omega, by omega⟩
  exact Nat.mul_le_mul_right _ (Nat.le_succ _)

theorem Readable.getActiveBlock_eq (ready : Ready this socketNum nor)
    (h : Readable this nor m log) : Returns (getActiveBlock this nor) (.ok log.block) () m := by
  obtain ⟨hlo, hhi⟩ := h.inside
  obtain ⟨k, hk⟩ := Nat.exists_eq_add_of_le hlo
  have hactive := first_flag h.scan.holds h.nonempty
  rw [Log.startOffset] at hactive
  rw [hk] at hactive ⊢
  apply activeBlockScan_eq
  · show k < this.partitionInfo.ring.count
    omega
  · intro i hi
    exact ready.covers_block (by omega)
  · intro i hi
    refine h.earlier (this.partitionInfo.ring.first + i) ⟨by omega, by omega⟩ ?_
    rw [hk]
    exact Nat.add_lt_add_left hi _
  · exact hactive

theorem Readable.getReadLastOffset_eq (ready : Ready this socketNum nor)
    (h : Readable this nor m log) {older : List (List UInt8)} {last : List UInt8}
    (hr : log.records = older ++ [last]) :
    Returns (getReadLastOffset this nor log.block)
      (log.startOffset + logSize older, recordSize last) () m := by
  obtain ⟨-, hu, hu'⟩ := ready.u32_block h.inside
  have hsum := (block_succ log.block).symm
  have hlen : log.records.length < seqBlockSize + 1 := by
    have hin := h.scan.inside
    have := length_le_logSize log.records
    rw [Log.startOffset, ← hsum] at hin
    omega
  unfold getReadLastOffset
  simp only [hu, hsum, hu']
  rw [← lastRecord_concat _ log.startOffset 0 older last, ← hr]
  exact readLastScan_eq h.scan hlen _ _ _

end

end SequentialRecord
