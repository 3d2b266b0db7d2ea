import Edk2Nvidia.VarInt.Scan

/-! The partition as a set of live records, and what the accesses of the driver do
to it. -/
namespace VarInt
open Flash

section
variable {Store : Type} {this : Protocol Store} {m image : Memory} {p : Nat}

/-- The payload of the record in a slot. -/
def payloadAt (this : Protocol Store) (m : Memory) (w : Nat) : List UInt8 :=
  (recordAt this m w).measurement.payload

/-- The live records are those in the slots `ps`. -/
structure LiveAt (this : Protocol Store) (m : Memory) (ps : List Nat) : Prop where
  slots : ∀ p ∈ ps, p ∈ this.slots.offsets
  live : ∀ w ∈ this.slots.offsets, isRecordLive (m w) = true ↔ w ∈ ps

theorem nodup_liveOffsets (wf : this.slots.WellFormed) (m : Memory) :
    (liveOffsets this m).Nodup := (Slots.offsets_nodup wf).filter _

theorem LiveAt.perm (wf : this.slots.WellFormed) {ps : List Nat} (h : LiveAt this m ps)
    (nodup : ps.Nodup) : (liveOffsets this m).Perm ps := by
  rw [List.perm_ext_iff_of_nodup (nodup_liveOffsets wf m) nodup]
  intro w
  rw [mem_liveOffsets]
  exact ⟨fun hw => (h.live w hw.1).mp hw.2, fun hw => ⟨h.slots w hw, (h.live w (h.slots w hw)).mpr hw⟩⟩

theorem liveAt_liveOffsets (this : Protocol Store) (m : Memory) :
    LiveAt this m (liveOffsets this m) :=
  ⟨fun _ hp => (mem_liveOffsets.mp hp).1, fun _ hw =>
    ⟨fun hl => mem_liveOffsets.mpr ⟨hw, hl⟩, fun hp => (mem_liveOffsets.mp hp).2⟩⟩

theorem LiveAt.few (wf : this.slots.WellFormed) {ps : List Nat} (h : LiveAt this m ps)
    (hfew : ps.length ≤ maxValidRecords) : (liveOffsets this m).length ≤ maxValidRecords := by
  have hsub : liveOffsets this m ⊆ ps := fun w hw =>
    (h.live w (mem_liveOffsets.mp hw).1).mp (mem_liveOffsets.mp hw).2
  exact Nat.le_trans ((nodup_liveOffsets wf m).length_le_of_subset hsub) hfew

theorem LiveAt.header (h : LiveAt this m ps) {p : Nat} (hp : p ∈ ps) :
    isRecordLive (m p) = true := (h.live p (h.slots p hp)).mpr hp

theorem liveOffsets_eq_singleton (wf : this.slots.WellFormed) {p : Nat} :
    liveOffsets this m = [p] ↔ LiveAt this m [p] := by
  constructor
  · intro h
    have hmem : ∀ w, w ∈ [p] ↔ w ∈ this.slots.offsets ∧ isRecordLive (m w) = true := by
      intro w
      rw [← h, mem_liveOffsets]
    exact ⟨fun w hw => ((hmem w).mp hw).1, fun w hw => ⟨fun hl => (hmem w).mpr ⟨hw, hl⟩,
      fun hp => ((hmem w).mp hp).2⟩⟩
  · intro h
    exact List.perm_singleton.mp (h.perm wf (List.pairwise_singleton _ p))

/-! Headers are rewritten one by one. -/

/-- New headers in the slots `ws`. -/
def withHeaders (m : Memory) (f : Nat → UInt8) (ws : List Nat) : Memory := fun a =>
  if a ∈ ws then f a else m a

@[simp] theorem withHeaders_nil (m : Memory) (f : Nat → UInt8) : withHeaders m f [] = m := by
  funext a
  simp [withHeaders]

theorem withHeaders_mem {f : Nat → UInt8} {ws : List Nat} {w : Nat} (h : w ∈ ws) :
    withHeaders m f ws w = f w := if_pos h

theorem withHeaders_not_mem {f : Nat → UInt8} {ws : List Nat} {a : Nat} (h : a ∉ ws) :
    withHeaders m f ws a = m a := if_neg h

theorem payloadAt_withHeaders (wf : this.slots.WellFormed) {f : Nat → UInt8} {ws : List Nat}
    (hws : ∀ w ∈ ws, w ∈ this.slots.offsets) {p : Nat} (hp : p ∈ this.slots.offsets) :
    payloadAt this (withHeaders m f ws) p = payloadAt this m p := by
  apply slice_congr
  intro a ha ha'
  apply withHeaders_not_mem
  intro hmem
  simp only [headerSzBytes, getMeasurementPayloadSize] at ha ha'
  have hsize : this.slots.slotSize = this.measurementSize := rfl
  have hpos := wf.slotSize_pos
  rcases Slots.slot_disjoint wf hp (hws a hmem) (by omega) with h | h <;> omega

/-- Every slot that looks erased is blank, and a block whose first slot looks erased holds
no live record: what the driver's own writes leave, cut short or not. -/
structure Shaped (this : Protocol Store) (m : Memory) : Prop where
  erased : ∀ w ∈ this.slots.offsets, m w = fvbErasedByte → Blank m w this.measurementSize
  starts : ∀ w ∈ this.slots.offsets, isRecordLive (m w) = true →
    m (this.slots.blockStart w) ≠ fvbErasedByte

/-- The scans find at most two live records, and the driver can go on writing. -/
structure Sound (this : Protocol Store) (m : Memory) : Prop where
  few : (liveOffsets this m).length ≤ maxValidRecords
  shaped : Shaped this m

theorem blockStart_mem (ready : Ready this) {w : Nat} (hw : w ∈ this.slots.offsets) :
    this.slots.blockStart w ∈ this.slots.offsets := by
  obtain ⟨lo, hi⟩ := ready.block_inside hw
  have hpos := ready.blockSize_pos
  apply Slots.block_mem_offsets (ready.wellFormed_of_mem hw) (Slots.blockSize_dvd_blockStart _ _)
  · rw [ready.start_eq]
    exact lo
  · rw [ready.start_eq, ready.length_eq]
    omega

theorem Shaped.withHeaders (wf : this.slots.WellFormed) (h : Shaped this m)
    {f : Nat → UInt8} {ws : List Nat} (hws : ∀ w ∈ ws, w ∈ this.slots.offsets)
    (live : ∀ w ∈ ws, isRecordLive (m w) = true) (hf : ∀ w ∈ ws, f w ≠ fvbErasedByte) :
    Shaped this (withHeaders m f ws) := by
  constructor
  · intro w hw herased
    by_cases hmem : w ∈ ws
    · rw [withHeaders_mem hmem] at herased
      exact absurd herased (hf w hmem)
    · rw [withHeaders_not_mem hmem] at herased
      apply (h.erased w hw herased).congr
      intro a ha ha'
      apply withHeaders_not_mem
      intro hmem'
      have hsize : this.slots.slotSize = this.measurementSize := rfl
      have hpos := wf.slotSize_pos
      have hne : w ≠ a := fun heq => hmem (heq ▸ hmem')
      rcases Slots.slot_disjoint wf hw (hws a hmem') hne with hd | hd <;> omega
  · intro w hw hlive
    have hold : isRecordLive (m w) = true := by
      by_cases hmem : w ∈ ws
      · exact live w hmem
      · rwa [withHeaders_not_mem hmem] at hlive
    have hstart := h.starts w hw hold
    by_cases hmem : this.slots.blockStart w ∈ ws
    · rw [withHeaders_mem hmem]
      exact hf _ hmem
    · rwa [withHeaders_not_mem hmem]

/-! The slot for the next record. -/

/-- The only live record is a valid one: the next record gets a blank slot of its own, and
making room for it touches neither. -/
structure Room (this : Protocol Store) (m : Memory) (p : Nat) : Prop where
  mem : writeSlot this m ∈ this.slots.offsets
  ne : writeSlot this m ≠ p
  blank : Blank (prepared this m) (writeSlot this m) this.measurementSize
  same : ∀ a, p ≤ a → a < p + this.measurementSize → prepared this m a = m a
  live : LiveAt this (prepared this m) [p]
  shaped : Shaped this (prepared this m)
  start : this.slots.blockStart (writeSlot this m) = writeSlot this m ∨
    prepared this m (this.slots.blockStart (writeSlot this m)) ≠ fvbErasedByte

theorem erase_block (wf : this.slots.WellFormed) {block : Nat} (hdvd : this.blockSize ∣ block)
    (m : Memory) (a : Nat) :
    erase m block this.blockSize a =
      if this.slots.blockStart a = block then erasedByte else m a :=
  Slots.erase_block wf hdvd m a

theorem Shaped.erased_block (wf : this.slots.WellFormed)
    (h : Shaped this m) {block : Nat} (hdvd : this.blockSize ∣ block) :
    Shaped this (erase m block this.blockSize) := by
  have herase := erase_block wf hdvd m
  constructor
  · intro w hw herased a ha ha'
    have hblock := Slots.blockStart_of_mem wf hw ha ha'
    rw [herase] at herased ⊢
    rw [hblock]
    split at herased
    next hin => rw [if_pos hin]
    next hout =>
      rw [if_neg hout]
      exact h.erased w hw herased a ha ha'
  · intro w hw hlive
    have hself : this.slots.blockStart (this.slots.blockStart w) = this.slots.blockStart w :=
      Slots.blockStart_eq (Slots.blockSize_dvd_blockStart _ _) (Nat.le_refl _)
        (Nat.lt_add_of_pos_right wf.blockSize_pos)
    rw [herase] at hlive ⊢
    rw [hself]
    split at hlive
    next hin => exact absurd hlive (by decide)
    next hout =>
      rw [if_neg hout]
      exact h.starts w hw hlive

/-- The next record gets a blank slot, and behind the erase that makes room for it the
driver can go on writing. -/
structure FreeSlot (this : Protocol Store) (m : Memory) : Prop where
  mem : writeSlot this m ∈ this.slots.offsets
  blank : Blank (prepared this m) (writeSlot this m) this.measurementSize
  shaped : Shaped this (prepared this m)
  start : this.slots.blockStart (writeSlot this m) = writeSlot this m ∨
    prepared this m (this.slots.blockStart (writeSlot this m)) ≠ fvbErasedByte

theorem freeSlot (ready : Ready this) (wf : this.slots.WellFormed) (h : Shaped this m) :
    FreeSlot this m := by
  have hmem := writeSlot_mem (m := m) ready wf
  by_cases hblock : writeSlot this m % this.blockSize = 0
  · have hdvd := Nat.dvd_of_mod_eq_zero hblock
    have hprep : prepared this m = erase m (writeSlot this m) this.blockSize := if_pos hblock
    refine ⟨hmem, ?_, ?_, .inl ?_⟩
    · rw [hprep]
      exact (blank_erase m _ _).sub (Nat.le_refl _) (Nat.add_le_add_left wf.slotSize_le _)
    · rw [hprep]
      exact h.erased_block wf hdvd
    · exact Slots.blockStart_eq hdvd (Nat.le_refl _) (Nat.lt_add_of_pos_right wf.blockSize_pos)
  · have hprep : prepared this m = m := if_neg hblock
    rcases writeSlot_cases wf m with ⟨-, herased, hfirst⟩ | ⟨hnext, -⟩
    · refine ⟨hmem, ?_, ?_, .inr ?_⟩
      · rw [hprep]
        exact h.erased _ hmem herased
      · rw [hprep]
        exact h
      · rw [hprep]
        refine hfirst _ (blockStart_mem ready hmem)
          (Nat.lt_of_le_of_ne (Slots.blockStart_le _ _) ?_)
        intro heq
        exact hblock (Nat.mod_eq_zero_of_dvd (heq ▸ Slots.blockSize_dvd_blockStart _ _))
    · have hnextMem := nextBlockOffset_mem ready wf ((lastValid_mem this m).imp And.left And.left)
      rw [hnext] at hblock
      exact absurd (Nat.mod_eq_zero_of_dvd hnextMem.1) hblock

theorem prepared_writeSlot (ready : Ready this) (wf : this.slots.WellFormed) (m : Memory) :
    prepared this m (writeSlot this m) = erasedByte := by
  unfold prepared
  split
  next hblock =>
    exact erase_inside _ _ _ _ (Nat.le_refl _) (Nat.lt_add_of_pos_right ready.blockSize_pos)
  next hblock =>
    rcases writeSlot_cases wf m with ⟨-, herased, -⟩ | ⟨hnext, -⟩
    · exact herased
    · have hmem := nextBlockOffset_mem ready wf ((lastValid_mem this m).imp And.left And.left)
      rw [hnext] at hblock
      exact absurd (Nat.mod_eq_zero_of_dvd hmem.1) hblock

theorem lastValid_eq (hlive : LiveAt this m [p]) (valid : isRecordValid (m p) = true) :
    lastValid this m = p := by
  have hp := hlive.slots p List.mem_cons_self
  rcases lastValid_mem this m with ⟨-, hnone⟩ | ⟨hmem, hlast⟩
  · rw [hnone p hp] at valid
    exact absurd valid (by decide)
  · have hlive' : isRecordLive (m (lastValid this m)) = true := by
      rw [isRecordLive, hlast, Bool.or_true]
    exact List.mem_singleton.mp ((hlive.live _ hmem).mp hlive')

theorem room (ready : Ready this) (wf : this.slots.WellFormed) (h : Shaped this m)
    (hlive : LiveAt this m [p]) (valid : isRecordValid (m p) = true)
    (hblocks : 2 ≤ this.slots.blockCount) : Room this m p := by
  have hp := hlive.slots p List.mem_cons_self
  have hlivep := hlive.header List.mem_cons_self
  obtain ⟨hmem, hblank, hshaped, hstart⟩ := freeSlot ready wf h
  by_cases hblock : writeSlot this m % this.blockSize = 0
  · -- the block of the slot is erased; the live record is in another one
    have hdvd := Nat.dvd_of_mod_eq_zero hblock
    have hprep : prepared this m = erase m (writeSlot this m) this.blockSize := if_pos hblock
    have herase := erase_block wf hdvd m
    have hself : this.slots.blockStart (writeSlot this m) = writeSlot this m :=
      Slots.blockStart_eq hdvd (Nat.le_refl _) (Nat.lt_add_of_pos_right wf.blockSize_pos)
    have hother : this.slots.blockStart p ≠ writeSlot this m := by
      rcases writeSlot_cases wf m with ⟨-, herased, -⟩ | ⟨hnext, -⟩
      · intro heq
        exact h.starts p hp hlivep (heq ▸ herased)
      · rw [hnext, lastValid_eq hlive valid]
        exact (nextBlockOffset_ne ready wf hp hblocks).symm
    have hsame : ∀ a, p ≤ a → a < p + this.measurementSize →
        erase m (writeSlot this m) this.blockSize a = m a := by
      intro a ha ha'
      rw [herase, Slots.blockStart_of_mem wf hp ha ha', if_neg hother]
    rw [← hprep] at hsame
    refine ⟨hmem, fun heq => hother (heq ▸ hself), hblank, hsame, ⟨hlive.slots, ?_⟩, hshaped, hstart⟩
    intro w hw
    rw [hprep, herase, ← hlive.live w hw]
    split
    next hin =>
      -- a slot of the erased block was not the live one
      constructor
      · intro hdead
        exact absurd hdead (by decide)
      · intro hwlive
        have hwp := List.mem_singleton.mp ((hlive.live w hw).mp hwlive)
        exact absurd (hwp ▸ hin) hother
    next => rfl
  · have hprep : prepared this m = m := if_neg hblock
    have herased := prepared_writeSlot ready wf m
    rw [hprep] at herased
    refine ⟨hmem, fun heq => ?_, hblank, fun a _ _ => ?_, ?_, hshaped, hstart⟩
    · exact isRecordLive_ne_erased hlivep (heq ▸ herased)
    · rw [hprep]
    · rw [hprep]
      exact hlive

/-! A record is programmed into its slot. -/

theorem program_other (wf : this.slots.WellFormed) {q w : Nat} {data : List UInt8}
    (hq : q ∈ this.slots.offsets) (hdata : data.length ≤ this.measurementSize)
    (hw : w ∈ this.slots.offsets) (hne : w ≠ q) {a : Nat} (ha : w ≤ a)
    (ha' : a < w + this.measurementSize) : program m q data a = m a := by
  have hsize : this.slots.slotSize = this.measurementSize := rfl
  apply program_outside
  rcases Slots.slot_disjoint wf hw hq hne with h | h <;> omega

theorem program_other_header (wf : this.slots.WellFormed) {q w : Nat} {data : List UInt8}
    (hq : q ∈ this.slots.offsets) (hdata : data.length ≤ this.measurementSize)
    (hw : w ∈ this.slots.offsets) (hne : w ≠ q) : program m q data w = m w :=
  program_other wf hq hdata hw hne (Nat.le_refl _) (Nat.lt_add_of_pos_right wf.slotSize_pos)

theorem payloadAt_congr (ready : Ready this) {m m' : Memory} {w : Nat}
    (same : ∀ a, w ≤ a → a < w + this.measurementSize → m' a = m a) :
    payloadAt this m' w = payloadAt this m w := by
  apply slice_congr
  intro a ha ha'
  have hsize := ready.size_ge
  simp only [headerSzBytes, getMeasurementPayloadSize] at ha ha'
  exact same a (by omega) (by omega)

/-- The header of a cut record is there as soon as anything is. -/
theorem program_cut_header {q j : Nat} {header : UInt8} {payload : List UInt8}
    (hblank : m q = erasedByte) (hj : j ≠ 0) :
    program m q ((header :: payload).take j) q = header := by
  obtain ⟨n, rfl⟩ := Nat.exists_eq_succ_of_ne_zero hj
  have hbyte := program_inside m q (header :: payload.take n) 0 (by simp)
  rw [Nat.add_zero, hblank, erasedByte_and] at hbyte
  exact hbyte

theorem Ready.record_length (ready : Ready this) (header : UInt8) {payload : List UInt8}
    (hlen : payload.length = getMeasurementPayloadSize this) :
    (header :: payload).length = this.measurementSize := by
  have hsize := ready.size_ge
  rw [List.length_cons, hlen, getMeasurementPayloadSize, headerSzBytes]
  omega

theorem Ready.cut_length (ready : Ready this) (header : UInt8) {payload : List UInt8}
    (hlen : payload.length = getMeasurementPayloadSize this) (j : Nat) :
    ((header :: payload).take j).length ≤ this.measurementSize := by
  rw [List.length_take, ready.record_length header hlen]
  exact Nat.min_le_right _ _

/-- A cut record leaves its slot neither erased nor the others changed. -/
theorem FreeSlot.cut_shaped (ready : Ready this) (wf : this.slots.WellFormed) (h : FreeSlot this m)
    {payload : List UInt8} (hlen : payload.length = getMeasurementPayloadSize this) (j : Nat) :
    Shaped this
      (program (prepared this m) (writeSlot this m) ((varIntV1Pending :: payload).take j)) := by
  have hsize := ready.size_ge
  have hdata := ready.cut_length varIntV1Pending hlen j
  by_cases hj : j = 0
  · rw [hj, List.take_zero, program_nil]
    exact h.shaped
  · have hblank : prepared this m (writeSlot this m) = erasedByte :=
      h.blank _ (Nat.le_refl _) (by omega)
    have hheader : program (prepared this m) (writeSlot this m)
        ((varIntV1Pending :: payload).take j) (writeSlot this m) = varIntV1Pending :=
      program_cut_header hblank hj
    constructor
    · intro w hw herased
      have hne : w ≠ writeSlot this m := by
        rintro rfl
        rw [hheader] at herased
        exact absurd herased (by decide)
      rw [program_other_header wf h.mem hdata hw hne] at herased
      exact (h.shaped.erased w hw herased).congr fun a ha ha' =>
        program_other wf h.mem hdata hw hne ha ha'
    · intro w hw hwlive
      by_cases hstart : this.slots.blockStart w = writeSlot this m
      · rw [hstart, hheader]
        decide
      · rw [program_other_header wf h.mem hdata (blockStart_mem ready hw) hstart]
        by_cases hne : w = writeSlot this m
        · rw [hne] at hstart ⊢
          exact h.start.resolve_left hstart
        · rw [program_other_header wf h.mem hdata hw hne] at hwlive
          exact h.shaped.starts w hw hwlive

theorem Room.cut_live (ready : Ready this) (wf : this.slots.WellFormed) (h : Room this m p)
    {payload : List UInt8} (hlen : payload.length = getMeasurementPayloadSize this) (j : Nat) :
    LiveAt this
      (program (prepared this m) (writeSlot this m) ((varIntV1Pending :: payload).take j))
      (if j = 0 then [p] else [p, writeSlot this m]) := by
  have hsize := ready.size_ge
  have hdata := ready.cut_length varIntV1Pending hlen j
  by_cases hj : j = 0
  · rw [if_pos hj, hj, List.take_zero, program_nil]
    exact h.live
  · rw [if_neg hj]
    constructor
    · intro w hw
      rcases List.mem_pair.mp hw with rfl | rfl
      · exact h.live.slots w List.mem_cons_self
      · exact h.mem
    · intro w hw
      rw [List.mem_pair]
      by_cases hwq : w = writeSlot this m
      · subst hwq
        rw [program_cut_header (h.blank _ (Nat.le_refl _) (by omega)) hj]
        simp only [or_true, iff_true]
        decide
      · rw [program_other_header wf h.mem hdata hw hwq, h.live.live w hw, List.mem_singleton]
        simp only [hwq, or_false]

theorem Room.cut_same (ready : Ready this) (wf : this.slots.WellFormed) (h : Room this m p)
    {payload : List UInt8} (hlen : payload.length = getMeasurementPayloadSize this) (j : Nat)
    {a : Nat} (ha : p ≤ a) (ha' : a < p + this.measurementSize) :
    program (prepared this m) (writeSlot this m) ((varIntV1Pending :: payload).take j) a = m a := by
  have hsize := ready.size_ge
  have hdata := ready.cut_length varIntV1Pending hlen j
  rw [program_other wf h.mem hdata (h.live.slots p List.mem_cons_self) h.ne.symm ha ha',
    h.same a ha ha']

/-- A cut record leaves its slot neither erased nor the others changed. -/
theorem Room.cut_shaped (ready : Ready this) (wf : this.slots.WellFormed) (h : Room this m p)
    {payload : List UInt8} (hlen : payload.length = getMeasurementPayloadSize this) (j : Nat) :
    Shaped this
      (program (prepared this m) (writeSlot this m) ((varIntV1Pending :: payload).take j)) :=
  FreeSlot.cut_shaped ready wf ⟨h.mem, h.blank, h.shaped, h.start⟩ hlen j

structure Appended (this : Protocol Store) (m image : Memory) (p q : Nat) (payload : List UInt8) :
    Prop where
  ne : p ≠ q
  live : LiveAt this image [p, q]
  same : ∀ a, p ≤ a → a < p + this.measurementSize → image a = m a
  header : image q = varIntV1Pending
  payload_eq : payloadAt this image q = payload
  shaped : Shaped this image

theorem Room.appended (ready : Ready this) (wf : this.slots.WellFormed) (h : Room this m p)
    {payload : List UInt8} (hlen : payload.length = getMeasurementPayloadSize this) :
    Appended this m
      (program (prepared this m) (writeSlot this m) (varIntV1Pending :: payload))
      p (writeSlot this m) payload := by
  have hsize := ready.size_ge
  have hfull := ready.record_length varIntV1Pending hlen
  have htake : (varIntV1Pending :: payload).take this.measurementSize =
      varIntV1Pending :: payload := List.take_of_length_le (Nat.le_of_eq hfull)
  have hlive := h.cut_live ready wf hlen this.measurementSize
  have hsame := fun a ha ha' =>
    h.cut_same (a := a) ready wf hlen this.measurementSize ha ha'
  have hshaped := h.cut_shaped ready wf hlen this.measurementSize
  have hblank : prepared this m (writeSlot this m) = erasedByte :=
    h.blank _ (Nat.le_refl _) (by omega)
  have hheader : program (prepared this m) (writeSlot this m)
      ((varIntV1Pending :: payload).take this.measurementSize) (writeSlot this m) =
        varIntV1Pending := program_cut_header hblank (by omega)
  rw [htake] at hlive hsame hshaped hheader
  rw [if_neg (by omega)] at hlive
  refine ⟨h.ne.symm, hlive, hsame, hheader, ?_, hshaped⟩
  have hholds : Holds (program (prepared this m) (writeSlot this m) (varIntV1Pending :: payload))
      (writeSlot this m) (varIntV1Pending :: payload) := by
    apply holds_program
    apply Blank.permits
    rw [hfull]
    exact h.blank
  have hslice : slice (program (prepared this m) (writeSlot this m)
      (varIntV1Pending :: payload)) (writeSlot this m) this.measurementSize =
      varIntV1Pending :: payload := by
    rw [← hfull]
    exact hholds
  have hrecord := ofBytes_slice (m := program (prepared this m) (writeSlot this m)
    (varIntV1Pending :: payload)) ready (writeSlot this m)
  rw [hslice] at hrecord
  exact congrArg Measurement.payload hrecord.symm

end

end VarInt
