import Edk2Nvidia.VarInt.Migration

/-! The flash of a migration: where the new record goes, and which records are live while
it is programmed and once the old ones are dropped. -/
namespace VarInt
open Flash

section
variable {Store : Type} {this : Protocol Store} {s : Driver} {m image : Memory} {store : Store}
  {r w : Nat} {payload : List UInt8}

/-! Making room for a record. -/

theorem prepared_slot (ready : Ready this) (wf : this.slots.WellFormed) (m : Memory)
    (hw : w ∈ this.slots.offsets) :
    (∀ a, w ≤ a → a < w + this.measurementSize → prepared this m a = m a) ∨
      prepared this m w = erasedByte := by
  by_cases hblock : writeSlot this m % this.blockSize = 0
  · have hprep : prepared this m = erase m (writeSlot this m) this.blockSize := if_pos hblock
    have herase := erase_block wf (writeSlot_block ready wf hblock).1 m
    by_cases hin : this.slots.blockStart w = writeSlot this m
    · right
      rw [hprep, herase, if_pos hin]
    · left
      intro a ha ha'
      rw [hprep, herase, Slots.blockStart_of_mem wf hw ha ha', if_neg hin]
  · left
    intro a _ _
    rw [prepared, if_neg hblock]

/-- A record that is live behind it was live before, and is the same. -/
theorem prepared_live (ready : Ready this) (wf : this.slots.WellFormed)
    (h : w ∈ liveOffsets this (prepared this m)) :
    w ∈ liveOffsets this m ∧ ∀ a, w ≤ a → a < w + this.measurementSize → prepared this m a = m a := by
  obtain ⟨hw, hlive⟩ := mem_liveOffsets.mp h
  rcases prepared_slot ready wf m hw with hsame | herased
  · refine ⟨mem_liveOffsets.mpr ⟨hw, ?_⟩, hsame⟩
    rwa [← hsame w (Nat.le_refl _) (Nat.lt_add_of_pos_right wf.slotSize_pos)]
  · rw [herased] at hlive
    exact absurd hlive (by decide)

theorem writeSlot_not_live (ready : Ready this) (wf : this.slots.WellFormed) (m : Memory) :
    writeSlot this m ∉ liveOffsets this (prepared this m) := by
  intro h
  have hlive := (mem_liveOffsets.mp h).2
  rw [prepared_writeSlot ready wf m] at hlive
  exact absurd hlive (by decide)

theorem writeSlot_congr {m' : Memory} (h : ∀ w ∈ this.slots.offsets, m' w = m w) :
    writeSlot this m' = writeSlot this m := by
  have hfind : (this.slots.offsets.find? fun w => m' w == fvbErasedByte) =
      this.slots.offsets.find? fun w => m w == fvbErasedByte := by
    rw [← List.head?_filter, ← List.head?_filter]
    congr 1
    apply List.filter_congr
    intro w hw
    rw [h w hw]
  have hlast : lastValid this m' = lastValid this m := by
    unfold lastValid
    apply List.foldl_ext
    intro last w hw
    rw [h w hw]
  rw [writeSlot, writeSlot, hfind, hlast]

theorem writeSlot_prepared (ready : Ready this) (wf : this.slots.WellFormed) (m : Memory) :
    writeSlot this (prepared this m) = writeSlot this m := by
  by_cases hblock : writeSlot this m % this.blockSize = 0
  · have hprep : prepared this m = erase m (writeSlot this m) this.blockSize := if_pos hblock
    have hq := writeSlot_mem (m := m) ready wf
    have herased := prepared_writeSlot ready wf m
    rcases writeSlot_cases wf (prepared this m) with ⟨hmem, hfound, hfirst⟩ | ⟨-, hnone⟩
    · -- no slot below the erased block can be the first one
      rcases Nat.lt_trichotomy (writeSlot this (prepared this m)) (writeSlot this m) with
        hlt | heq | hgt
      · rw [hprep, erase_outside _ _ _ _ (.inl (by rw [← hprep]; exact hlt)), ← hprep] at hfound
        rcases writeSlot_cases wf m with ⟨-, -, hbefore⟩ | ⟨-, hnone⟩
        · exact absurd hfound (hbefore _ hmem hlt)
        · exact absurd hfound (hnone _ hmem)
      · exact heq
      · exact absurd herased (hfirst _ hq hgt)
    · exact absurd herased (hnone _ hq)
  · rw [prepared, if_neg hblock]

theorem prepared_prepared (ready : Ready this) (wf : this.slots.WellFormed) (m : Memory) :
    prepared this (prepared this m) = prepared this m := by
  have hslot := writeSlot_prepared ready wf m
  by_cases hblock : writeSlot this m % this.blockSize = 0
  · have hprep : prepared this m = erase m (writeSlot this m) this.blockSize := if_pos hblock
    rw [prepared, hslot, if_pos hblock, hprep]
    funext a
    by_cases hin : writeSlot this m ≤ a ∧ a < writeSlot this m + this.blockSize
    · rw [erase_inside _ _ _ _ hin.1 hin.2, erase_inside _ _ _ _ hin.1 hin.2]
    · rw [erase_outside _ _ _ _ (by omega)]
  · rw [prepared, hslot, if_neg hblock]

/-! The new record. -/

def cutImage (this : Protocol Store) (m : Memory) (payload : List UInt8) (j : Nat) : Memory :=
  program (prepared this m) (writeSlot this m) ((varIntV1Pending :: payload).take j)

theorem cutImage_zero (this : Protocol Store) (m : Memory) (payload : List UInt8) :
    cutImage this m payload 0 = prepared this m := by
  rw [cutImage, List.take_zero, program_nil]

theorem cutImage_full (ready : Ready this) (hlen : payload.length = getMeasurementPayloadSize this) :
    cutImage this m payload this.measurementSize = pendingImage this m payload := by
  have hfull := ready.record_length varIntV1Pending hlen
  rw [cutImage, pendingImage, List.take_of_length_le (Nat.le_of_eq hfull)]

theorem cutImage_other (ready : Ready this) (wf : this.slots.WellFormed)
    (hlen : payload.length = getMeasurementPayloadSize this) (j : Nat)
    (hw : w ∈ this.slots.offsets) (hne : w ≠ writeSlot this m) {a : Nat} (ha : w ≤ a)
    (ha' : a < w + this.measurementSize) :
    cutImage this m payload j a = prepared this m a := by
  have hfull := ready.record_length varIntV1Pending hlen
  refine program_other wf (writeSlot_mem ready wf) ?_ hw hne ha ha'
  rw [List.length_take, hfull]
  omega

theorem cutImage_header (ready : Ready this) (wf : this.slots.WellFormed) (m : Memory)
    (payload : List UInt8) {j : Nat} (hj : j ≠ 0) :
    cutImage this m payload j (writeSlot this m) = varIntV1Pending :=
  program_cut_header (prepared_writeSlot ready wf m) hj

theorem mem_live_cutImage (ready : Ready this) (wf : this.slots.WellFormed)
    (hlen : payload.length = getMeasurementPayloadSize this) {j : Nat} (hj : j ≠ 0) :
    w ∈ liveOffsets this (cutImage this m payload j) ↔
      w = writeSlot this m ∨ w ∈ liveOffsets this (prepared this m) := by
  have hq := writeSlot_mem (m := m) ready wf
  have hheader := cutImage_header ready wf m payload hj
  rw [mem_liveOffsets, mem_liveOffsets]
  by_cases hne : w = writeSlot this m
  · rw [hne, hheader]
    simp only [hq, true_and, true_or, iff_true]
    decide
  · simp only [hne, false_or]
    refine and_congr_right fun hw => ?_
    rw [cutImage_other ready wf hlen j hw hne (Nat.le_refl _)
      (Nat.lt_add_of_pos_right wf.slotSize_pos)]

/-- The record is valid, its payload and the other slots are as before. -/
theorem validImage_other (ready : Ready this) (wf : this.slots.WellFormed)
    (hlen : payload.length = getMeasurementPayloadSize this)
    (hw : w ∈ this.slots.offsets) (hne : w ≠ writeSlot this m) :
    validImage this m payload w = prepared this m w := by
  rw [validImage, program_byte, if_neg hne, ← cutImage_full ready hlen]
  exact cutImage_other ready wf hlen _ hw hne (Nat.le_refl _)
    (Nat.lt_add_of_pos_right wf.slotSize_pos)

theorem validImage_header (ready : Ready this) (wf : this.slots.WellFormed)
    (hlen : payload.length = getMeasurementPayloadSize this) :
    validImage this m payload (writeSlot this m) = varIntV1Valid := by
  have hsize := ready.size_ge
  rw [validImage, program_byte, if_pos rfl, ← cutImage_full ready hlen,
    cutImage_header ready wf _ _ (by omega)]
  decide

theorem payloadAt_validImage : payloadAt this (validImage this m payload) (writeSlot this m) =
    payloadAt this (pendingImage this m payload) (writeSlot this m) := by
  apply slice_congr
  intro a ha _
  simp only [headerSzBytes] at ha
  rw [validImage, program_byte, if_neg (by omega)]

theorem payloadAt_dropped (wf : this.slots.WellFormed) {ws : List Nat}
    (hws : ws ⊆ liveOffsets this m) (hw : w ∈ this.slots.offsets) :
    payloadAt this (dropped m image ws) w = payloadAt this image w :=
  payloadAt_withHeaders wf (fun _ hx => (mem_liveOffsets.mp (hws hx)).1) hw

theorem mem_live_dropped (ready : Ready this) (wf : this.slots.WellFormed)
    (hlen : payload.length = getMeasurementPayloadSize this) {ws : List Nat}
    (hws : ws ⊆ liveOffsets this m) :
    w ∈ liveOffsets this (dropped m (validImage this m payload) ws) ↔
      (w = writeSlot this m ∨ w ∈ liveOffsets this (prepared this m)) ∧ w ∉ ws := by
  rw [mem_liveOffsets, mem_liveOffsets, dropped]
  by_cases hmem : w ∈ ws
  · rw [withHeaders_mem hmem, and_invalid_not_live (mem_liveOffsets.mp (hws hmem)).2]
    simp [hmem]
  · rw [withHeaders_not_mem hmem]
    by_cases hne : w = writeSlot this m
    · have hq := writeSlot_mem (m := m) ready wf
      rw [hne] at hmem ⊢
      rw [validImage_header ready wf hlen]
      simp only [hq, hmem, true_and, true_or, not_false_eq_true, and_true, iff_true]
      decide
    · simp only [hne, hmem, false_or, not_false_eq_true, and_true]
      exact and_congr_right fun hw => by rw [validImage_other ready wf hlen hw hne]

/-- What a migration leaves is right exactly when its slot held no live record and took the
measurement. -/
theorem settled_dropped_iff (ready : Ready this) (wf : this.slots.WellFormed)
    (hlen : payload.length = getMeasurementPayloadSize this) (hr : r ∈ liveOffsets this m) :
    (∃ p, Settled this (dropped m (validImage this m payload) (r :: liveOffsets this m)) store p) ↔
      writeSlot this m ∉ liveOffsets this m ∧
        payloadAt this (pendingImage this m payload) (writeSlot this m) =
          signedMeasurement this .v1 store none := by
  have hsub := cons_subset_live hr
  have hq := writeSlot_mem (m := m) ready wf
  have hpayload : payloadAt this (dropped m (validImage this m payload)
      (r :: liveOffsets this m)) (writeSlot this m) =
        payloadAt this (pendingImage this m payload) (writeSlot this m) :=
    (payloadAt_dropped wf hsub hq).trans payloadAt_validImage
  have hmem : ∀ w, w ∈ r :: liveOffsets this m ↔ w ∈ liveOffsets this m := fun w =>
    ⟨fun hw => hsub hw, List.mem_cons_of_mem _⟩
  have hlive : ∀ w, w ∈ liveOffsets this (dropped m (validImage this m payload)
      (r :: liveOffsets this m)) ↔ w = writeSlot this m ∧ writeSlot this m ∉ liveOffsets this m := by
    intro w
    rw [mem_live_dropped ready wf hlen hsub, hmem]
    constructor
    · rintro ⟨rfl | hold, hnot⟩
      · exact ⟨rfl, hnot⟩
      · exact absurd (prepared_live ready wf hold).1 hnot
    · rintro ⟨rfl, hnot⟩
      exact ⟨.inl rfl, hnot⟩
  constructor
  · rintro ⟨p, hsettled⟩
    obtain ⟨rfl, hnot⟩ := (hlive p).mp (hsettled.live ▸ List.mem_singleton_self p)
    exact ⟨hnot, hpayload ▸ hsettled.payload_eq⟩
  · rintro ⟨hnot, hwritten⟩
    refine ⟨writeSlot this m, ?_, ?_, hpayload.trans hwritten⟩
    · apply (liveOffsets_eq_singleton wf).mpr
      refine ⟨fun w hw => (List.mem_singleton.mp hw) ▸ hq, fun w hw => ?_⟩
      have hiff := hlive w
      rw [mem_liveOffsets] at hiff
      rw [List.mem_singleton]
      simp only [hw, hnot, true_and, not_false_eq_true, and_true] at hiff
      exact hiff
    · rw [dropped, withHeaders_not_mem fun h => hnot ((hmem _).mp h)]
      exact validImage_header ready wf hlen

end

end VarInt
