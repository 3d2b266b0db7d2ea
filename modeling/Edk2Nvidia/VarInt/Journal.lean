import Edk2Nvidia.VarInt.Check

/-! What the accesses to the partition do on a flash that answers every command, and
what the two scans find there. -/
namespace VarInt
open Flash

section
variable {Store : Type} {this : Protocol Store}

def Protocol.slots (this : Protocol Store) : Slots :=
  ⟨this.partitionByteOffset / this.blockSize, this.partitionSize / this.blockSize,
    this.blockSize, this.measurementSize⟩

/-- What the entry point checks before it sets the protocol up, and a partition that lies
on the device. -/
structure Ready (this : Protocol Store) : Prop where
  offset_ne : this.partitionByteOffset ≠ 0
  size_ne : this.partitionSize ≠ 0
  offset_mod : this.partitionByteOffset % this.blockSize = 0
  size_mod : this.partitionSize % this.blockSize = 0
  inside : this.partitionByteOffset + this.partitionSize ≤ this.norFlashProtocol.memoryDensity
  density_lt : this.norFlashProtocol.memoryDensity < 2 ^ 32
  /-- A digest has 32, 48 or 64 bytes. -/
  size_ge : 9 ≤ this.measurementSize
  pool : ∀ size, this.allocatePool size = true

theorem Ready.blockSize_pos (ready : Ready this) : 0 < this.blockSize := by
  rcases Nat.eq_zero_or_pos this.blockSize with h | h
  · have hmod := ready.size_mod
    rw [h, Nat.mod_zero] at hmod
    exact absurd hmod ready.size_ne
  · exact h

theorem Ready.start_eq (ready : Ready this) : this.slots.start = this.partitionByteOffset :=
  Nat.div_mul_cancel (Nat.dvd_of_mod_eq_zero ready.offset_mod)

theorem Ready.length_eq (ready : Ready this) :
    this.slots.blockCount * this.slots.blockSize = this.partitionSize :=
  Nat.div_mul_cancel (Nat.dvd_of_mod_eq_zero ready.size_mod)

theorem Ready.wellFormed_of_mem (ready : Ready this) {w : Nat} (h : w ∈ this.slots.offsets) :
    this.slots.WellFormed := by
  have hsize := ready.size_ge
  have hpos : 0 < this.slots.slotSize := Nat.lt_of_lt_of_le (by decide) hsize
  refine ⟨hpos, ?_⟩
  simp only [Slots.offsets, List.mem_flatMap, List.mem_filter, decide_eq_true_eq] at h
  obtain ⟨block, -, -, hfit⟩ := h
  have := this.slots.blockStart_le w
  omega

/-- Blocks are whole, so the block of a slot ends inside the partition. -/
theorem Ready.block_inside (ready : Ready this) {w : Nat} (h : w ∈ this.slots.offsets) :
    this.partitionByteOffset ≤ this.slots.blockStart w ∧
      this.slots.blockStart w + this.blockSize ≤
        this.partitionByteOffset + this.partitionSize := by
  obtain ⟨lo, hi⟩ := Slots.block_bounds (ready.wellFormed_of_mem h) h
  rw [← ready.length_eq, ← ready.start_eq, Slots.start, ← Nat.add_mul]
  refine ⟨Nat.mul_le_mul_right _ lo, ?_⟩
  have hend : this.slots.blockStart w + this.blockSize =
      (w / this.slots.blockSize + 1) * this.slots.blockSize := (Nat.succ_mul _ _).symm
  rw [hend]
  exact Nat.mul_le_mul_right _ hi

theorem Ready.slot_inside (ready : Ready this) {w : Nat} (h : w ∈ this.slots.offsets) :
    this.partitionByteOffset ≤ w ∧
      w + this.measurementSize ≤ this.partitionByteOffset + this.partitionSize := by
  obtain ⟨-, -, -, hfit⟩ := (Slots.mem_offsets (ready.wellFormed_of_mem h)).mp h
  obtain ⟨lo, hi⟩ := ready.block_inside h
  exact ⟨Nat.le_trans lo (this.slots.blockStart_le w), Nat.le_trans hfit hi⟩

def Synced (this : Protocol Store) (s : Driver) (m : Memory) : Prop :=
  ∀ i, i < this.partitionSize → s.partitionData i = m (this.partitionByteOffset + i)

theorem Synced.slice_eq {s : Driver} {m : Memory} (h : Synced this s m) {k size : Nat}
    (hk : k + size ≤ this.partitionSize) :
    slice s.partitionData k size = slice m (this.partitionByteOffset + k) size := by
  apply List.ext_getElem (by simp)
  intro i hi hi'
  rw [length_slice] at hi
  rw [getElem_slice, getElem_slice, h _ (by omega), Nat.add_assoc]

variable {s : Driver} {m : Memory} {total : Bool} {C : Memory → Prop}

/-- The offset in the copy that belongs to an offset of the partition. -/
theorem Ready.bufferOffset_eq (ready : Ready this) {w size : Nat}
    (lo : this.partitionByteOffset ≤ w)
    (hi : w + size ≤ this.partitionByteOffset + this.partitionSize) :
    u32 w = w ∧ u32 this.partitionByteOffset = this.partitionByteOffset ∧
      u32 (this.partitionByteOffset + this.partitionSize) =
        this.partitionByteOffset + this.partitionSize ∧
      u32 (w + size) = w + size ∧
      u32 (w + (2 ^ 32 - this.partitionByteOffset)) = w - this.partitionByteOffset := by
  have hin := ready.inside
  have hlt := ready.density_lt
  refine ⟨u32_of_lt (by omega), u32_of_lt (by omega), u32_of_lt (by omega), u32_of_lt (by omega), ?_⟩
  unfold u32
  omega

theorem Ready.covers (ready : Ready this) {w size : Nat} (hpos : 0 < size)
    (hi : w + size ≤ this.partitionByteOffset + this.partitionSize) :
    this.norFlashProtocol.Covers w size :=
  ⟨hpos, Nat.le_trans hi ready.inside, ready.density_lt⟩

theorem partitionRead_eq (ready : Ready this) (sync : Synced this s m) {w size : Nat}
    (lo : this.partitionByteOffset ≤ w)
    (hi : w + size ≤ this.partitionByteOffset + this.partitionSize) :
    Returns (partitionRead this w size) (.success, slice m w size) s m := by
  obtain ⟨hw, hstart, hend, hsum, hbuf⟩ := ready.bufferOffset_eq lo hi
  have hslice : slice s.partitionData (w - this.partitionByteOffset) size =
      slice m (this.partitionByteOffset + (w - this.partitionByteOffset)) size :=
    sync.slice_eq (by omega)
  rw [Nat.add_sub_cancel' lo] at hslice
  unfold partitionRead
  simp only [hw, hstart, hend, hsum, hbuf]
  rw [if_neg (by omega), if_neg (by omega), ← hslice, returns_get_bind]
  exact returns_pure _

/-- A write to the partition: a power loss can cut it after any byte. -/
theorem wp_partitionWrite_any (ready : Ready this) {w : Nat} {data : List UInt8}
    (hpos : 0 < data.length) (lo : this.partitionByteOffset ≤ w)
    (hi : w + data.length ≤ this.partitionByteOffset + this.partitionSize)
    {Q : EfiStatus → Driver → Memory → Prop}
    (hC : ∀ j, C (program m w (data.take j)))
    (hQ : Q .success { s with
      partitionData := overwrite s.partitionData (w - this.partitionByteOffset) data }
      (program m w data)) :
    wp total (partitionWrite this w data) Q C s m := by
  obtain ⟨hw, hstart, hend, hsum, hbuf⟩ := ready.bufferOffset_eq lo hi
  have hfull : C (program m w data) := by
    have := hC data.length
    rwa [List.take_length] at this
  unfold partitionWrite
  simp only [hw, hstart, hend, hsum, hbuf]
  rw [if_neg (by omega), if_neg (by omega), NorFlash.write_eq (ready.covers hpos hi)]
  apply wp_bind
  simp only [wp_writeFlash, wp_modify_bind, wp_pure, EfiStatus.ok_eq, EfiStatus.isError_success,
    Bool.false_eq_true, if_false]
  exact ⟨hC, hfull, hfull, hQ⟩

theorem powerLoss_partitionWrite (ready : Ready this) {w : Nat} {data : List UInt8}
    (hpos : 0 < data.length) (lo : this.partitionByteOffset ≤ w)
    (hi : w + data.length ≤ this.partitionByteOffset + this.partitionSize) (j : Nat) :
    (partitionWrite this w data s).PowerLoss m (program m w (data.take j)) := by
  obtain ⟨hw, hstart, hend, hsum, hbuf⟩ := ready.bufferOffset_eq lo hi
  unfold partitionWrite
  simp only [hw, hstart, hend, hsum, hbuf]
  rw [if_neg (by omega), if_neg (by omega), NorFlash.write_eq (ready.covers hpos hi)]
  exact powerLoss_writeFlash_bind _ _ _ j

theorem Synced.written (sync : Synced this s m) {w : Nat} {data : List UInt8}
    (lo : this.partitionByteOffset ≤ w) (permits : Permits m w data) :
    Synced this { s with
      partitionData := overwrite s.partitionData (w - this.partitionByteOffset) data }
      (program m w data) := by
  intro i hlt
  rw [← permits.overwrite_eq]
  simp only [overwrite]
  by_cases hbefore : i < w - this.partitionByteOffset
  · rw [if_pos hbefore, if_pos (by omega)]
    exact sync i hlt
  · have hsub : i - (w - this.partitionByteOffset) = this.partitionByteOffset + i - w := by omega
    rw [if_neg hbefore, if_neg (by omega), hsub, sync i hlt]

/-- A write of bits the flash can take keeps the copy in step. -/
theorem wp_partitionWrite (ready : Ready this) (sync : Synced this s m) {w : Nat}
    {data : List UInt8} (hpos : 0 < data.length) (lo : this.partitionByteOffset ≤ w)
    (hi : w + data.length ≤ this.partitionByteOffset + this.partitionSize)
    (permits : Permits m w data) {Q : EfiStatus → Driver → Memory → Prop}
    (hC : ∀ j, C (program m w (data.take j)))
    (hQ : ∀ partitionData, Synced this { s with partitionData } (program m w data) →
      Q .success { s with partitionData } (program m w data)) :
    wp total (partitionWrite this w data) Q C s m :=
  wp_partitionWrite_any ready hpos lo hi hC (hQ _ (sync.written lo permits))

theorem wp_partitionErase (ready : Ready this) (sync : Synced this s m) {block : Nat}
    (hdvd : this.blockSize ∣ block) (lo : this.partitionByteOffset ≤ block)
    (hi : block + this.blockSize ≤ this.partitionByteOffset + this.partitionSize)
    {Q : EfiStatus → Driver → Memory → Prop}
    (hC : C m) (hC' : C (erase m block this.blockSize))
    (hQ : ∀ partitionData, Synced this { s with partitionData } (erase m block this.blockSize) →
      Q .success { s with partitionData } (erase m block this.blockSize)) :
    wp total (partitionErase this (block / this.blockSize) 1) Q C s m := by
  obtain ⟨hw, hstart, hend, hsum, hbuf⟩ := ready.bufferOffset_eq lo hi
  have hin := ready.inside
  have hlt := ready.density_lt
  have hpos := ready.blockSize_pos
  have hmul : block / this.blockSize * this.blockSize = block := Nat.div_mul_cancel hdvd
  have hlba : u32 (block / this.blockSize) = block / this.blockSize :=
    u32_of_lt (Nat.lt_of_le_of_lt (Nat.div_le_self _ _) (by omega))
  have hsize : u32 (1 * this.blockSize) = this.blockSize := by
    rw [Nat.one_mul]
    exact u32_of_lt (by omega)
  have hcov : this.norFlashProtocol.Covers (block / this.blockSize * this.norFlashProtocol.blockSize)
      (1 * this.norFlashProtocol.blockSize) := by
    rw [Nat.one_mul]
    exact ready.covers hpos (by rw [← hmul] at hi; exact hi)
  unfold partitionErase
  simp only [hlba, hmul, hsize, hw, hstart, hend, hsum, hbuf]
  rw [if_neg (by omega), if_neg (by omega), NorFlash.erase_eq _ _ (by decide) hpos hcov]
  apply wp_bind
  have hblock : block / this.blockSize * this.norFlashProtocol.blockSize = block := hmul
  simp only [wp_eraseFlash, wp_modify_bind, wp_pure, EfiStatus.ok_eq, EfiStatus.isError_success,
    Bool.false_eq_true, if_false, hblock, Nat.one_mul]
  refine ⟨hC, hC', hC', hQ _ ?_⟩
  intro i hilt
  simp only [erase]
  by_cases hblk : block ≤ this.partitionByteOffset + i ∧
      this.partitionByteOffset + i < block + this.blockSize
  · rw [if_pos (by omega), if_pos hblk]
  · rw [if_neg (by omega), if_neg hblk]
    exact sync i hilt

end

end VarInt
