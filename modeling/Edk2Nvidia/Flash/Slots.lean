import Edk2Nvidia.Flash.Memory
import Mathlib.Data.List.Pairwise

/-! Slots of one size in the blocks of a partition: the offsets two nested loops
visit, and what a flash that is written slot by slot keeps. -/
namespace Flash

/-- The values of `for (o = start; o < stop; o += step)`. -/
def steps (start stop step : Nat) : List Nat :=
  List.range' start ((stop - start + (step - 1)) / step) step

theorem mem_steps {start stop step a : Nat} (hs : 0 < step) :
    a ∈ steps start stop step ↔ start ≤ a ∧ a < stop ∧ (a - start) % step = 0 := by
  have hcount : ∀ i, i < (stop - start + (step - 1)) / step ↔ start + step * i < stop := by
    intro i
    rw [Nat.lt_iff_add_one_le, Nat.le_div_iff_mul_le hs, Nat.add_mul, Nat.mul_comm i]
    omega
  simp only [steps, List.mem_range']
  constructor
  · rintro ⟨i, hi, rfl⟩
    exact ⟨Nat.le_add_right _ _, (hcount i).mp hi, by simp⟩
  · rintro ⟨hlo, hhi, hmod⟩
    have hdiv := Nat.div_add_mod (a - start) step
    refine ⟨(a - start) / step, (hcount _).mpr ?_, ?_⟩ <;> omega

theorem steps_pairwise (start stop step : Nat) :
    (steps start stop step).Pairwise fun a b => a + step ≤ b := by
  generalize hn : (stop - start + (step - 1)) / step = n
  rw [steps, hn]
  clear hn
  induction n generalizing start with
  | zero => simp
  | succ n ih =>
    rw [List.range'_succ, List.pairwise_cons]
    constructor
    · intro b hb
      rw [List.mem_range'] at hb
      obtain ⟨i, -, rfl⟩ := hb
      omega
    · exact ih (start + step)

/-- A partition of whole blocks, and the size of a slot. -/
structure Slots where
  firstBlock : Nat
  blockCount : Nat
  blockSize : Nat
  slotSize : Nat

namespace Slots

def start (slots : Slots) : Nat := slots.firstBlock * slots.blockSize

def blockStart (slots : Slots) (offset : Nat) : Nat :=
  offset / slots.blockSize * slots.blockSize

/-- The offsets of the slots in scan order: block by block, leaving out what would cross
the end of its block. -/
def offsets (slots : Slots) : List Nat :=
  (steps slots.start (slots.start + slots.blockCount * slots.blockSize) slots.blockSize).flatMap
    fun block => (steps block (block + slots.blockSize) slots.slotSize).filter
      fun offset => offset + slots.slotSize ≤ slots.blockStart offset + slots.blockSize

structure WellFormed (slots : Slots) : Prop where
  slotSize_pos : 0 < slots.slotSize
  slotSize_le : slots.slotSize ≤ slots.blockSize

variable {slots : Slots}

theorem WellFormed.blockSize_pos (wf : slots.WellFormed) : 0 < slots.blockSize :=
  Nat.lt_of_lt_of_le wf.slotSize_pos wf.slotSize_le

theorem blockStart_le (slots : Slots) (offset : Nat) : slots.blockStart offset ≤ offset :=
  Nat.div_mul_le_self _ _

theorem blockStart_add_mod (slots : Slots) (offset : Nat) :
    slots.blockStart offset + offset % slots.blockSize = offset := by
  rw [blockStart, Nat.mul_comm]
  exact Nat.div_add_mod _ _

theorem lt_blockStart_add (wf : slots.WellFormed) (offset : Nat) :
    offset < slots.blockStart offset + slots.blockSize := by
  have := blockStart_add_mod slots offset
  have := Nat.mod_lt offset wf.blockSize_pos
  omega

/-- A multiple of the block size is the start of the block above it. -/
theorem blockStart_eq {block offset : Nat} (h : slots.blockSize ∣ block) (lo : block ≤ offset)
    (hi : offset < block + slots.blockSize) : slots.blockStart offset = block := by
  obtain ⟨k, rfl⟩ := h
  have hdiv : offset / slots.blockSize = k := by
    rw [Nat.mul_comm] at lo hi
    exact Nat.div_eq_of_lt_le lo (by rw [Nat.succ_mul]; exact hi)
  rw [blockStart, hdiv, Nat.mul_comm]

theorem blockSize_dvd_blockStart (slots : Slots) (offset : Nat) :
    slots.blockSize ∣ slots.blockStart offset := Nat.dvd_mul_left _ _

theorem blockSize_dvd_start (slots : Slots) : slots.blockSize ∣ slots.start :=
  Nat.dvd_mul_left _ _

theorem mem_blocks (wf : slots.WellFormed) {block : Nat} :
    block ∈ steps slots.start (slots.start + slots.blockCount * slots.blockSize) slots.blockSize ↔
      slots.blockSize ∣ block ∧ slots.start ≤ block ∧
        block < slots.start + slots.blockCount * slots.blockSize := by
  rw [mem_steps wf.blockSize_pos, ← Nat.dvd_iff_mod_eq_zero]
  constructor
  · rintro ⟨lo, hi, hdvd⟩
    refine ⟨?_, lo, hi⟩
    rw [← Nat.sub_add_cancel lo]
    exact Nat.dvd_add hdvd slots.blockSize_dvd_start
  · rintro ⟨hdvd, lo, hi⟩
    exact ⟨lo, hi, Nat.dvd_sub hdvd slots.blockSize_dvd_start⟩

theorem mem_offsets (wf : slots.WellFormed) {offset : Nat} :
    offset ∈ slots.offsets ↔
      slots.start ≤ slots.blockStart offset ∧
        slots.blockStart offset < slots.start + slots.blockCount * slots.blockSize ∧
        (offset - slots.blockStart offset) % slots.slotSize = 0 ∧
        offset + slots.slotSize ≤ slots.blockStart offset + slots.blockSize := by
  simp only [offsets, List.mem_flatMap, List.mem_filter, mem_blocks wf, decide_eq_true_eq,
    mem_steps wf.slotSize_pos]
  constructor
  · rintro ⟨block, ⟨hdvd, lo, hi⟩, ⟨hlo, hhi, hmod⟩, hfit⟩
    rw [blockStart_eq hdvd hlo hhi] at hfit ⊢
    exact ⟨lo, hi, hmod, hfit⟩
  · rintro ⟨lo, hi, hmod, hfit⟩
    exact ⟨slots.blockStart offset, ⟨slots.blockSize_dvd_blockStart offset, lo, hi⟩,
      ⟨slots.blockStart_le offset, slots.lt_blockStart_add wf offset, hmod⟩, hfit⟩

theorem block_bounds (wf : slots.WellFormed) {offset : Nat} (h : offset ∈ slots.offsets) :
    slots.firstBlock ≤ offset / slots.blockSize ∧
      offset / slots.blockSize < slots.firstBlock + slots.blockCount := by
  obtain ⟨lo, hi, -, -⟩ := (mem_offsets wf).mp h
  rw [start, ← Nat.add_mul, blockStart] at hi
  exact ⟨Nat.le_of_mul_le_mul_right lo wf.blockSize_pos, Nat.lt_of_mul_lt_mul_right hi⟩

theorem offsets_pairwise (wf : slots.WellFormed) :
    slots.offsets.Pairwise fun a b => a + slots.slotSize ≤ b := by
  rw [offsets, List.pairwise_flatMap]
  constructor
  · intro block _
    exact (steps_pairwise _ _ _).filter _
  · refine List.Pairwise.imp_of_mem ?_ (steps_pairwise _ _ _)
    intro block block' hblock _ hstep a ha b hb
    simp only [List.mem_filter, decide_eq_true_eq, mem_steps wf.slotSize_pos] at ha hb
    obtain ⟨⟨lo, hi, -⟩, hfit⟩ := ha
    rw [blockStart_eq ((mem_blocks wf).mp hblock).1 lo hi] at hfit
    omega

theorem offsets_nodup (wf : slots.WellFormed) : slots.offsets.Nodup := by
  refine (offsets_pairwise wf).imp ?_
  intro a b hab
  have := wf.slotSize_pos
  omega

theorem slot_disjoint (wf : slots.WellFormed) {a b : Nat} (ha : a ∈ slots.offsets)
    (hb : b ∈ slots.offsets) (h : a ≠ b) :
    a + slots.slotSize ≤ b ∨ b + slots.slotSize ≤ a := by
  have hp : slots.offsets.Pairwise fun a b => a + slots.slotSize ≤ b ∨ b + slots.slotSize ≤ a :=
    (offsets_pairwise wf).imp .inl
  have : Std.Symm fun a b => a + slots.slotSize ≤ b ∨ b + slots.slotSize ≤ a :=
    ⟨fun _ _ => Or.symm⟩
  exact hp.forall ha hb h

theorem blockStart_of_mem (wf : slots.WellFormed) {w a : Nat} (hw : w ∈ slots.offsets)
    (lo : w ≤ a) (hi : a < w + slots.slotSize) : slots.blockStart a = slots.blockStart w := by
  obtain ⟨-, -, -, hfit⟩ := (mem_offsets wf).mp hw
  have := slots.blockStart_le w
  exact blockStart_eq (slots.blockSize_dvd_blockStart w) (by omega) (by omega)

theorem erase_block {block : Nat} (wf : slots.WellFormed) (hdvd : slots.blockSize ∣ block)
    (m : Memory) (a : Nat) :
    erase m block slots.blockSize a =
      if slots.blockStart a = block then erasedByte else m a := by
  split
  next heq =>
    have := slots.blockStart_le a
    have := lt_blockStart_add wf a
    exact erase_inside _ _ _ _ (by omega) (by omega)
  next hne =>
    apply erase_outside
    by_contra hin
    exact hne (blockStart_eq hdvd (by omega) (by omega))

theorem block_mem_offsets (wf : slots.WellFormed) {block : Nat} (hdvd : slots.blockSize ∣ block)
    (lo : slots.start ≤ block) (hi : block < slots.start + slots.blockCount * slots.blockSize) :
    block ∈ slots.offsets := by
  have hself : slots.blockStart block = block :=
    blockStart_eq hdvd (Nat.le_refl _) (Nat.lt_add_of_pos_right wf.blockSize_pos)
  have := wf.slotSize_le
  rw [mem_offsets wf, hself]
  exact ⟨lo, hi, by simp, by omega⟩

end Slots

end Flash
