import Edk2Nvidia.VarInt.Journal

/-! The two scans as functions of what the partition holds: the live records, and the
slot the next record goes to. -/
namespace VarInt
open Flash

section
variable {Store : Type}

def recordAt (this : Protocol Store) (m : Memory) (w : Nat) : MeasureRec :=
  ⟨⟨m w, slice m (w + headerSzBytes) (getMeasurementPayloadSize this)⟩, w⟩

/-- The slots that hold a live record, in scan order. -/
def liveOffsets (this : Protocol Store) (m : Memory) : List Nat :=
  this.slots.offsets.filter fun w => isRecordLive (m w)

/-- The last slot that holds a valid record; zero when there is none. -/
def lastValid (this : Protocol Store) (m : Memory) : Nat :=
  this.slots.offsets.foldl (fun last w => if isRecordValid (m w) then w else last) 0

/-- Where the next record goes: the first slot that looks erased, or a block start. -/
def writeSlot (this : Protocol Store) (m : Memory) : Nat :=
  (this.slots.offsets.find? fun w => m w == fvbErasedByte).getD
    (nextBlockOffset this (lastValid this m))

/-- The flash behind `GetWriteOffset`: a slot that begins a block is erased with it. -/
def prepared (this : Protocol Store) (m : Memory) : Memory :=
  if writeSlot this m % this.blockSize = 0 then
    erase m (writeSlot this m) this.blockSize
  else
    m

variable {this : Protocol Store} {s : Driver} {m : Memory} {total : Bool} {C : Memory → Prop}

theorem mem_liveOffsets {w : Nat} :
    w ∈ liveOffsets this m ↔ w ∈ this.slots.offsets ∧ isRecordLive (m w) = true := by
  simp [liveOffsets]

theorem recordWindowFitsInBlock_eq (wf : this.slots.WellFormed)
    (hsize : this.blockSize < 2 ^ 32) (w : Nat) :
    recordWindowFitsInBlock this w 1 =
      decide (w + this.slots.slotSize ≤ this.slots.blockStart w + this.slots.blockSize) := by
  have hle : this.measurementSize ≤ this.blockSize := wf.slotSize_le
  unfold recordWindowFitsInBlock
  rw [Nat.mul_one, u32_of_lt (by omega)]
  rfl

theorem Ready.blockSize_lt (ready : Ready this) : this.blockSize < 2 ^ 32 := by
  have hle := Nat.le_of_dvd (Nat.pos_of_ne_zero ready.size_ne)
    (Nat.dvd_of_mod_eq_zero ready.size_mod)
  have := ready.inside
  have := ready.density_lt
  omega

theorem ofBytes_slice (ready : Ready this) (w : Nat) :
    Measurement.ofBytes (slice m w this.measurementSize) = (recordAt this m w).measurement := by
  have hsize := ready.size_ge
  obtain ⟨n, hn⟩ := Nat.exists_eq_add_of_lt (show 0 < this.measurementSize by omega)
  rw [Nat.zero_add, Nat.add_comm] at hn
  have hpayload : getMeasurementPayloadSize this = n := by
    rw [getMeasurementPayloadSize, hn, headerSzBytes, Nat.add_sub_cancel_left]
  rw [recordAt, hpayload, hn, slice_add]
  rfl

theorem headD_slice (ready : Ready this) (w : Nat) :
    (slice m w this.measurementSize).headD 0 = m w := by
  have h := congrArg Measurement.header (ofBytes_slice (m := m) ready w)
  exact h

theorem readSlot_eq (ready : Ready this) (sync : Synced this s m) {w : Nat}
    (hw : w ∈ this.slots.offsets) :
    Returns (partitionRead this w this.measurementSize)
      (.success, slice m w this.measurementSize) s m :=
  let ⟨lo, hi⟩ := ready.slot_inside hw
  partitionRead_eq ready sync lo hi

/-! The live records. -/

/-- The offsets of the visited windows that are slots. -/
def fitting (this : Protocol Store) (visited : List Nat) : List Nat :=
  visited.filter fun w => decide
    (w + this.slots.slotSize ≤ this.slots.blockStart w + this.slots.blockSize)

theorem visited_eq (ready : Ready this) :
    fitting this ((blockOffsets this).flatMap (recordOffsets this)) = this.slots.offsets := by
  rw [fitting, List.filter_flatMap, Slots.offsets, ready.start_eq, ready.length_eq]
  rfl

theorem collectMeasurements_eq (ready : Ready this) (wf : this.slots.WellFormed)
    (sync : Synced this s m) {visited : List Nat} {records : List MeasureRec}
    (hslots : ∀ w ∈ fitting this visited, w ∈ this.slots.offsets)
    (hfew : records.length + ((fitting this visited).filter fun w => isRecordLive (m w)).length ≤
      maxValidRecords) :
    Returns (collectMeasurements this visited records)
      (.success, records ++
        ((fitting this visited).filter fun w => isRecordLive (m w)).map (recordAt this m)) s m := by
  induction visited generalizing records with
  | nil =>
    simp only [collectMeasurements, fitting, List.filter_nil, List.map_nil, List.append_nil]
    exact returns_pure _
  | cons w rest ih =>
    rw [collectMeasurements, recordWindowFitsInBlock_eq wf ready.blockSize_lt]
    by_cases hfit : w + this.slots.slotSize ≤ this.slots.blockStart w + this.slots.blockSize
    · have hcons : fitting this (w :: rest) = w :: fitting this rest := by
        rw [fitting, List.filter_cons_of_pos (by simpa using hfit)]
        rfl
      rw [hcons] at hslots hfew ⊢
      rw [decide_eq_true hfit, if_pos rfl]
      refine (readSlot_eq ready sync (hslots w List.mem_cons_self)).bind ?_
      simp only [EfiStatus.isError_success, Bool.false_eq_true, if_false, headD_slice ready]
      by_cases hlive : isRecordLive (m w) = true
      · rw [List.filter_cons, if_pos hlive] at hfew ⊢
        rw [List.length_cons] at hfew
        rw [if_pos hlive, if_neg (by omega)]
        have hnext : (records ++ [recordAt this m w]).length = records.length + 1 := by
          rw [List.length_append, List.length_singleton]
        have hrest := ih (fun x hx => hslots x (List.mem_cons_of_mem _ hx))
          (show (records ++ [recordAt this m w]).length + _ ≤ maxValidRecords by omega)
        rw [List.append_assoc, List.singleton_append] at hrest
        rw [ofBytes_slice ready]
        exact hrest
      · rw [List.filter_cons, if_neg hlive] at hfew ⊢
        rw [if_neg hlive]
        exact ih (fun x hx => hslots x (List.mem_cons_of_mem _ hx)) hfew
    · have hcons : fitting this (w :: rest) = fitting this rest := by
        rw [fitting, List.filter_cons_of_neg (by simpa using hfit)]
        rfl
      rw [hcons] at hslots hfew ⊢
      rw [decide_eq_false hfit, if_neg (by simp)]
      exact ih hslots hfew

theorem collectMeasurements_tooMany (ready : Ready this) (wf : this.slots.WellFormed)
    (sync : Synced this s m) {visited : List Nat} {records : List MeasureRec}
    (hslots : ∀ w ∈ fitting this visited, w ∈ this.slots.offsets)
    (hmany : maxValidRecords <
      records.length + ((fitting this visited).filter fun w => isRecordLive (m w)).length)
    (hrec : records.length ≤ maxValidRecords) :
    ∃ found, Returns (collectMeasurements this visited records) (.deviceError, found) s m := by
  induction visited generalizing records with
  | nil =>
    simp only [fitting, List.filter_nil, List.length_nil] at hmany
    omega
  | cons w rest ih =>
    rw [collectMeasurements, recordWindowFitsInBlock_eq wf ready.blockSize_lt]
    by_cases hfit : w + this.slots.slotSize ≤ this.slots.blockStart w + this.slots.blockSize
    · have hcons : fitting this (w :: rest) = w :: fitting this rest := by
        rw [fitting, List.filter_cons_of_pos (by simpa using hfit)]
        rfl
      rw [hcons] at hslots hmany
      rw [decide_eq_true hfit, if_pos rfl]
      have hread := readSlot_eq ready sync (hslots w List.mem_cons_self)
      by_cases hlive : isRecordLive (m w) = true
      · rw [List.filter_cons, if_pos hlive, List.length_cons] at hmany
        by_cases hfull : records.length + 1 > maxValidRecords
        · refine ⟨records, hread.bind ?_⟩
          simp only [EfiStatus.isError_success, Bool.false_eq_true, if_false, headD_slice ready]
          rw [if_pos hlive, if_pos hfull]
          exact returns_pure _
        · have hnext : (records ++ [recordAt this m w]).length = records.length + 1 := by
            rw [List.length_append, List.length_singleton]
          obtain ⟨found, hfound⟩ := ih (fun x hx => hslots x (List.mem_cons_of_mem _ hx))
            (show maxValidRecords < (records ++ [recordAt this m w]).length + _ by omega)
            (by omega)
          refine ⟨found, hread.bind ?_⟩
          simp only [EfiStatus.isError_success, Bool.false_eq_true, if_false, headD_slice ready]
          rw [if_pos hlive, if_neg hfull, ofBytes_slice ready]
          exact hfound
      · rw [List.filter_cons, if_neg hlive] at hmany
        obtain ⟨found, hfound⟩ := ih (fun x hx => hslots x (List.mem_cons_of_mem _ hx)) hmany hrec
        refine ⟨found, hread.bind ?_⟩
        simp only [EfiStatus.isError_success, Bool.false_eq_true, if_false, headD_slice ready]
        rw [if_neg hlive]
        exact hfound
    · have hcons : fitting this (w :: rest) = fitting this rest := by
        rw [fitting, List.filter_cons_of_neg (by simpa using hfit)]
        rfl
      rw [hcons] at hslots hmany
      rw [decide_eq_false hfit, if_neg (by simp)]
      exact ih hslots hmany hrec

theorem getLastValidMeasurements_eq (ready : Ready this) (wf : this.slots.WellFormed)
    (sync : Synced this s m) (hfew : (liveOffsets this m).length ≤ maxValidRecords) :
    Returns (getLastValidMeasurements this)
      (.success, (liveOffsets this m).map (recordAt this m)) s m := by
  have hvisited := visited_eq ready
  rw [← List.nil_append ((liveOffsets this m).map (recordAt this m))]
  unfold liveOffsets at hfew ⊢
  rw [← hvisited] at hfew ⊢
  apply collectMeasurements_eq ready wf sync
  · rw [hvisited]
    exact fun w hw => hw
  · rw [List.length_nil, Nat.zero_add]
    exact hfew

theorem getLastValidMeasurements_tooMany (ready : Ready this) (wf : this.slots.WellFormed)
    (sync : Synced this s m) (hmany : maxValidRecords < (liveOffsets this m).length) :
    ∃ found, Returns (getLastValidMeasurements this) (.deviceError, found) s m :=
  collectMeasurements_tooMany ready wf sync
    (by rw [visited_eq ready]; exact fun w hw => hw)
    (by rw [visited_eq ready, List.length_nil, Nat.zero_add]; exact hmany) (by simp)

/-! The next slot. -/

/-- The scan of `GetWriteOffset` over slots, without the reads. -/
def scanned (m : Memory) : List Nat → WriteScan → WriteScan
  | [], scan => scan
  | w :: rest, scan =>
    if m w = fvbErasedByte then
      ⟨.success, scan.validRecord, some w⟩
    else
      scanned m rest ⟨.success, if isRecordValid (m w) then w else scan.validRecord, scan.offset⟩

theorem scanned_append (m : Memory) (front back : List Nat) {scan : WriteScan}
    (h : scan.offset = none) :
    scanned m (front ++ back) scan =
      if (scanned m front scan).offset.isSome then scanned m front scan
      else scanned m back (scanned m front scan) := by
  induction front generalizing scan with
  | nil => simp [scanned, h]
  | cons w rest ih =>
    simp only [List.cons_append, scanned]
    by_cases herased : m w = fvbErasedByte
    · simp only [if_pos herased, Option.isSome_some, if_true]
    · simp only [if_neg herased]
      exact ih h

theorem scanned_offset (m : Memory) (visited : List Nat) {scan : WriteScan}
    (h : scan.offset = none) :
    (scanned m visited scan).offset = visited.find? fun w => m w == fvbErasedByte := by
  induction visited generalizing scan with
  | nil => exact h
  | cons w rest ih =>
    simp only [scanned, List.find?_cons]
    by_cases herased : m w = fvbErasedByte
    · rw [if_pos herased, beq_iff_eq.mpr herased]
    · rw [if_neg herased, beq_eq_false_iff_ne.mpr herased]
      exact ih h

theorem scanned_found {m : Memory} {visited : List Nat} {scan : WriteScan} {w : Nat}
    (h : scan.offset = none) (hw : (scanned m visited scan).offset = some w) :
    (scanned m visited scan).status = .success := by
  induction visited generalizing scan with
  | nil =>
    rw [scanned, h] at hw
    exact absurd hw (by simp)
  | cons x rest ih =>
    rw [scanned] at hw ⊢
    by_cases herased : m x = fvbErasedByte
    · rw [if_pos herased]
    · rw [if_neg herased] at hw ⊢
      exact ih h hw

theorem scanned_validRecord {m : Memory} {visited : List Nat} {scan : WriteScan}
    (h : scan.offset = none) (hnone : (scanned m visited scan).offset = none) :
    (scanned m visited scan).validRecord =
      visited.foldl (fun last w => if isRecordValid (m w) then w else last) scan.validRecord := by
  induction visited generalizing scan with
  | nil => rfl
  | cons x rest ih =>
    rw [scanned] at hnone ⊢
    by_cases herased : m x = fvbErasedByte
    · rw [if_pos herased] at hnone
      exact absurd hnone (by simp)
    · rw [if_neg herased] at hnone ⊢
      exact ih h hnone

theorem scanBlock_eq (ready : Ready this) (wf : this.slots.WellFormed) (sync : Synced this s m)
    {visited : List Nat} {scan : WriteScan}
    (hslots : ∀ w ∈ fitting this visited, w ∈ this.slots.offsets) :
    Returns (scanBlock this visited scan) (scanned m (fitting this visited) scan) s m := by
  induction visited generalizing scan with
  | nil => exact returns_pure _
  | cons w rest ih =>
    rw [scanBlock, recordWindowFitsInBlock_eq wf ready.blockSize_lt]
    by_cases hfit : w + this.slots.slotSize ≤ this.slots.blockStart w + this.slots.blockSize
    · have hcons : fitting this (w :: rest) = w :: fitting this rest := by
        rw [fitting, List.filter_cons_of_pos (by simpa using hfit)]
        rfl
      rw [hcons] at hslots ⊢
      have hrest : ∀ x ∈ fitting this rest, x ∈ this.slots.offsets :=
        fun x hx => hslots x (List.mem_cons_of_mem _ hx)
      rw [decide_eq_true hfit, if_pos rfl, scanned]
      refine (readSlot_eq ready sync (hslots w List.mem_cons_self)).bind ?_
      simp only [EfiStatus.isError_success, Bool.false_eq_true, if_false, headD_slice ready]
      by_cases herased : m w = fvbErasedByte
      · rw [if_pos herased, if_pos herased]
        exact returns_pure _
      · rw [if_neg herased, if_neg herased]
        split
        next hvalid => exact ih hrest
        next hvalid => exact ih hrest
    · have hcons : fitting this (w :: rest) = fitting this rest := by
        rw [fitting, List.filter_cons_of_neg (by simpa using hfit)]
        rfl
      rw [hcons] at hslots ⊢
      rw [decide_eq_false hfit, if_neg (by simp)]
      exact ih hslots

theorem scanBlocks_eq (ready : Ready this) (wf : this.slots.WellFormed) (sync : Synced this s m)
    {blocks : List Nat} {scan : WriteScan} (hnone : scan.offset = none)
    (hslots : ∀ w ∈ fitting this (blocks.flatMap (recordOffsets this)), w ∈ this.slots.offsets) :
    Returns (scanBlocks this blocks scan)
      (scanned m (fitting this (blocks.flatMap (recordOffsets this))) scan) s m := by
  induction blocks generalizing scan with
  | nil => exact returns_pure _
  | cons block rest ih =>
    have hsplit : fitting this ((block :: rest).flatMap (recordOffsets this)) =
        fitting this (recordOffsets this block) ++
          fitting this (rest.flatMap (recordOffsets this)) := by
      rw [List.flatMap_cons, fitting, List.filter_append]
      rfl
    rw [hsplit] at hslots ⊢
    rw [scanBlocks, scanned_append m _ _ hnone]
    refine (scanBlock_eq ready wf sync fun w hw =>
      hslots w (List.mem_append_left _ hw)).bind ?_
    by_cases hfound : (scanned m (fitting this (recordOffsets this block)) scan).offset.isSome = true
    · rw [if_pos hfound, if_pos hfound]
      exact returns_pure _
    · rw [if_neg hfound, if_neg hfound]
      apply ih
      · simpa using hfound
      · exact fun w hw => hslots w (List.mem_append_right _ hw)

theorem Ready.size_eq (ready : Ready this) :
    this.partitionByteOffset + this.partitionSize =
      (this.slots.firstBlock + this.slots.blockCount) * this.blockSize := by
  rw [Nat.add_mul, ← ready.length_eq, ← ready.start_eq]
  rfl

theorem nextBlockOffset_eq (ready : Ready this) {validRecord : Nat}
    (hmem : validRecord ∈ this.slots.offsets) (hblocks : 2 ≤ this.slots.blockCount) :
    nextBlockOffset this validRecord =
      if validRecord / this.blockSize + 1 = this.slots.firstBlock + this.slots.blockCount then
        this.partitionByteOffset
      else
        (validRecord / this.blockSize + 1) * this.blockSize := by
  have hpos := ready.blockSize_pos
  have hsize := ready.size_eq
  have hle := Nat.le_mul_of_pos_right (this.slots.firstBlock + this.slots.blockCount) hpos
  have hin := ready.inside
  have hlt := ready.density_lt
  have hstart := ready.offset_ne
  have hlo := (ready.slot_inside hmem).1
  have hcount : this.partitionSize / this.blockSize = this.slots.blockCount := rfl
  have hfirst : this.partitionByteOffset / this.blockSize = this.slots.firstBlock := rfl
  have hend : u32 (this.slots.firstBlock + this.slots.blockCount + (2 ^ 32 - 1)) =
      this.slots.firstBlock + this.slots.blockCount - 1 := by
    unfold u32
    omega
  unfold nextBlockOffset
  simp only [hcount, hfirst, hend]
  rw [if_neg (by omega)]
  by_cases hlast : validRecord / this.blockSize + 1 =
      this.slots.firstBlock + this.slots.blockCount
  · rw [if_pos hlast, if_pos (by omega)]
  · rw [if_neg hlast, if_neg (by omega)]

/-- The block `GetWriteOffset` turns to when nothing is erased lies in the partition. -/
theorem nextBlockOffset_mem (ready : Ready this) (wf : this.slots.WellFormed) {validRecord : Nat}
    (hvalid : validRecord = 0 ∨ validRecord ∈ this.slots.offsets) :
    this.blockSize ∣ nextBlockOffset this validRecord ∧
      this.partitionByteOffset ≤ nextBlockOffset this validRecord ∧
      nextBlockOffset this validRecord + this.blockSize ≤
        this.partitionByteOffset + this.partitionSize := by
  have hdvd := Nat.dvd_of_mod_eq_zero ready.offset_mod
  have hblock := Nat.le_of_dvd (Nat.pos_of_ne_zero ready.size_ne)
    (Nat.dvd_of_mod_eq_zero ready.size_mod)
  have hfirst : this.blockSize ∣ this.partitionByteOffset ∧
      this.partitionByteOffset ≤ this.partitionByteOffset ∧
      this.partitionByteOffset + this.blockSize ≤
        this.partitionByteOffset + this.partitionSize :=
    ⟨hdvd, Nat.le_refl _, Nat.add_le_add_left hblock _⟩
  by_cases hsingle : validRecord = 0 ∨ this.partitionSize / this.blockSize = 1
  · rw [nextBlockOffset]
    simp only
    rw [if_pos hsingle]
    exact hfirst
  · have hmem := hvalid.resolve_left fun h => hsingle (.inl h)
    obtain ⟨hlo, hhi⟩ := Slots.block_bounds wf hmem
    have hcount : this.slots.blockCount ≠ 1 := fun h => hsingle (.inr h)
    change validRecord / this.blockSize < _ at hhi
    change _ ≤ validRecord / this.blockSize at hlo
    rw [nextBlockOffset_eq ready hmem (by omega)]
    split
    next => exact hfirst
    next hlast =>
      refine ⟨Nat.dvd_mul_left _ _, ?_, ?_⟩
      · rw [← ready.start_eq]
        exact Nat.mul_le_mul_right _ (by omega)
      · rw [ready.size_eq, ← Nat.succ_mul]
        exact Nat.mul_le_mul_right _ (by omega)

/-- With two blocks or more, it is not the block of the last valid record. -/
theorem nextBlockOffset_ne (ready : Ready this) (wf : this.slots.WellFormed) {validRecord : Nat}
    (hmem : validRecord ∈ this.slots.offsets) (hblocks : 2 ≤ this.slots.blockCount) :
    nextBlockOffset this validRecord ≠ this.slots.blockStart validRecord := by
  have hpos := ready.blockSize_pos
  have hlo := (Slots.block_bounds wf hmem).1
  change _ ≤ validRecord / this.blockSize at hlo
  have hstart : this.slots.blockStart validRecord =
    validRecord / this.blockSize * this.blockSize := rfl
  rw [nextBlockOffset_eq ready hmem hblocks, hstart]
  split
  next hlast =>
    rw [← ready.start_eq]
    intro heq
    have := Nat.mul_right_cancel hpos heq
    omega
  next =>
    intro heq
    have := Nat.mul_right_cancel hpos heq
    omega

theorem lastValid_mem (this : Protocol Store) (m : Memory) :
    (lastValid this m = 0 ∧ ∀ w ∈ this.slots.offsets, isRecordValid (m w) = false) ∨
      lastValid this m ∈ this.slots.offsets ∧ isRecordValid (m (lastValid this m)) = true := by
  have hfold : ∀ (visited : List Nat) (last : Nat),
      let valid := visited.foldl (fun last w => if isRecordValid (m w) then w else last) last
      (valid = last ∧ ∀ w ∈ visited, isRecordValid (m w) = false) ∨
        valid ∈ visited ∧ isRecordValid (m valid) = true := by
    intro visited
    induction visited with
    | nil => exact fun last => .inl ⟨rfl, fun w hw => absurd hw (by simp)⟩
    | cons w rest ih =>
      intro last
      simp only [List.foldl_cons, List.mem_cons, forall_eq_or_imp]
      by_cases hvalid : isRecordValid (m w) = true
      · rw [if_pos hvalid]
        rcases ih w with h | h
        · rw [h.1]
          exact .inr ⟨.inl rfl, hvalid⟩
        · exact .inr ⟨.inr h.1, h.2⟩
      · rw [if_neg hvalid]
        rcases ih last with h | h
        · exact .inl ⟨h.1, Bool.eq_false_iff.mpr hvalid, h.2⟩
        · exact .inr ⟨.inr h.1, h.2⟩
  exact hfold this.slots.offsets 0

theorem writeSlot_cases (wf : this.slots.WellFormed) (m : Memory) :
    (writeSlot this m ∈ this.slots.offsets ∧ m (writeSlot this m) = fvbErasedByte ∧
      ∀ w ∈ this.slots.offsets, w < writeSlot this m → m w ≠ fvbErasedByte) ∨
    (writeSlot this m = nextBlockOffset this (lastValid this m) ∧
      ∀ w ∈ this.slots.offsets, m w ≠ fvbErasedByte) := by
  unfold writeSlot
  cases hfind : this.slots.offsets.find? fun w => m w == fvbErasedByte with
  | some found =>
    left
    rw [Option.getD_some]
    obtain ⟨herased, before, after, hsplit, hbefore⟩ := List.find?_eq_some_iff_append.mp hfind
    refine ⟨List.mem_of_find?_eq_some hfind, beq_iff_eq.mp herased, ?_⟩
    intro w hw hlt
    rw [hsplit, List.mem_append, List.mem_cons] at hw
    rcases hw with hw | rfl | hw
    · simpa using hbefore w hw
    · exact absurd hlt (Nat.lt_irrefl _)
    · -- the slots behind the found one are above it
      have hsorted := Slots.offsets_pairwise wf
      rw [hsplit, List.pairwise_append, List.pairwise_cons] at hsorted
      have := hsorted.2.1.1 w hw
      omega
  | none =>
    right
    rw [Option.getD_none]
    refine ⟨rfl, fun w hw => ?_⟩
    simpa using List.find?_eq_none.mp hfind w hw

/-- A write slot that begins a block begins one of the partition. -/
theorem writeSlot_block (ready : Ready this) (wf : this.slots.WellFormed)
    (hblock : writeSlot this m % this.blockSize = 0) :
    this.blockSize ∣ writeSlot this m ∧ this.partitionByteOffset ≤ writeSlot this m ∧
      writeSlot this m + this.blockSize ≤ this.partitionByteOffset + this.partitionSize := by
  have hdvd := Nat.dvd_of_mod_eq_zero hblock
  rcases writeSlot_cases wf m with ⟨hmem, -, -⟩ | ⟨heq, -⟩
  · obtain ⟨lo, hi⟩ := ready.block_inside hmem
    have hstart : this.slots.blockStart (writeSlot this m) = writeSlot this m :=
      Slots.blockStart_eq hdvd (Nat.le_refl _) (Nat.lt_add_of_pos_right ready.blockSize_pos)
    rw [hstart] at lo hi
    exact ⟨hdvd, lo, hi⟩
  · rw [heq]
    exact nextBlockOffset_mem ready wf ((lastValid_mem this m).imp And.left And.left)

theorem writeSlot_mem (ready : Ready this) (wf : this.slots.WellFormed) :
    writeSlot this m ∈ this.slots.offsets := by
  rcases writeSlot_cases wf m with ⟨hmem, -, -⟩ | ⟨heq, -⟩
  · exact hmem
  · obtain ⟨hdvd, lo, hi⟩ := nextBlockOffset_mem ready wf ((lastValid_mem this m).imp And.left And.left)
    have hpos := ready.blockSize_pos
    rw [heq]
    apply Slots.block_mem_offsets wf hdvd
    · rw [ready.start_eq]
      exact lo
    · rw [ready.start_eq, ready.length_eq]
      omega

theorem wp_getWriteOffset (ready : Ready this) (wf : this.slots.WellFormed)
    (sync : Synced this s m) {Q : EfiStatus × Nat → Driver → Memory → Prop}
    (hC : C m) (hC' : C (prepared this m))
    (hQ : ∀ partitionData, Synced this { s with partitionData } (prepared this m) →
      Q (.success, writeSlot this m) { s with partitionData } (prepared this m)) :
    wp total (getWriteOffset this) Q C s m := by
  have hvisited := visited_eq ready
  have hscan : Returns (scanBlocks this (blockOffsets this) ⟨.notFound, 0, none⟩)
      (scanned m this.slots.offsets ⟨.notFound, 0, none⟩) s m := by
    rw [← hvisited]
    apply scanBlocks_eq ready wf sync rfl
    rw [hvisited]
    exact fun w hw => hw
  have hoffset : (scanned m this.slots.offsets ⟨.notFound, 0, none⟩).offset =
      this.slots.offsets.find? fun w => m w == fvbErasedByte := scanned_offset m _ rfl
  have hslot : (scanned m this.slots.offsets ⟨.notFound, 0, none⟩).offset.getD
      (nextBlockOffset this (scanned m this.slots.offsets ⟨.notFound, 0, none⟩).validRecord) =
      writeSlot this m := by
    unfold writeSlot
    cases hfind : this.slots.offsets.find? fun w => m w == fvbErasedByte with
    | some found => rw [hoffset, hfind, Option.getD_some, Option.getD_some]
    | none =>
      rw [hoffset, hfind, Option.getD_none, Option.getD_none,
        scanned_validRecord rfl (hoffset.trans hfind)]
      rfl
  unfold getWriteOffset
  refine hscan.wp_bind ?_
  simp only [hslot]
  unfold prepared at hC' hQ
  by_cases hblock : writeSlot this m % this.blockSize = 0
  · simp only [if_pos hblock] at hC' hQ ⊢
    obtain ⟨hdvd, lo, hi⟩ := writeSlot_block ready wf hblock
    apply wp_bind
    apply wp_partitionErase ready sync hdvd lo hi hC hC'
    intro partitionData hsync
    rw [wp_pure]
    exact ⟨hC', hQ partitionData hsync⟩
  · simp only [if_neg hblock] at hC' hQ ⊢
    have hfound : (scanned m this.slots.offsets ⟨.notFound, 0, none⟩).status = .success := by
      cases hfind : this.slots.offsets.find? fun w => m w == fvbErasedByte with
      | some found => exact scanned_found rfl (hoffset.trans hfind)
      | none =>
        -- without an erased slot the offset begins a block
        have hnext := nextBlockOffset_mem ready wf ((lastValid_mem this m).imp And.left And.left)
        rw [writeSlot, hfind, Option.getD_none] at hblock
        exact absurd (Nat.mod_eq_zero_of_dvd hnext.1) hblock
    rw [hfound, wp_pure]
    exact ⟨hC, hQ s.partitionData sync⟩

end

end VarInt
