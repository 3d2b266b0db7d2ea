import Edk2Nvidia.VarInt.WriteSlot

/-! The first record: while the partition is blank its measurement is deferred, and a flush
writes it in steps a power loss can part. -/
namespace VarInt
open Flash

/-- How far a flush got when power was lost. -/
inductive FlushCut where
  | before
  /-- The slot is ready, and the first bytes of the pending record are programmed. -/
  | record (count : Nat)
  | done
deriving DecidableEq, Repr

section
variable {Store : Type}

/-- Every read of the check finds bytes that are erased or zero. -/
def LooksBlank (this : Protocol Store) (m : Memory) : Prop :=
  ∀ o ∈ steps this.partitionByteOffset (this.partitionByteOffset + this.partitionSize) size1KB,
    this.norFlashProtocol.Covers o size1KB ∧
      ∀ a, o ≤ a → a < o + size1KB → m a = fvbErasedByte ∨ m a = 0

def firstRecord (this : Protocol Store) (store : Store) : List UInt8 :=
  varIntV1Pending :: signedMeasurement this .v1 store none

def FlushCut.image (this : Protocol Store) (m : Memory) (store : Store) : FlushCut → Memory
  | .before => m
  | .record count =>
    program (prepared this m) (writeSlot this m) ((firstRecord this store).take count)
  | .done =>
    program (program (prepared this m) (writeSlot this m) (firstRecord this store))
      (writeSlot this m) [varIntV1Valid]

/-- The first `count` bytes of the measurement can be programmed, and the others stand there
already. -/
def Fills (this : Protocol Store) (m : Memory) (store : Store) (count : Nat) : Prop :=
  ∀ i byte, (signedMeasurement this .v1 store none)[i]? = some byte →
    if i < count then
      prepared this m (writeSlot this m + 1 + i) &&& byte = byte
    else
      prepared this m (writeSlot this m + 1 + i) = byte

/-- Nothing of the record is programmed, or its payload is the whole measurement. -/
def FlushCut.Harmless (this : Protocol Store) (m : Memory) (store : Store) : FlushCut → Prop
  | .before => True
  | .record 0 => True
  | .record (count + 1) => Fills this m store count
  | .done => Fills this m store (getMeasurementPayloadSize this)

variable {this : Protocol Store} {s s' : Driver} {m m' image : Memory} {store : Store}
  {total : Bool}

/-! A blank partition. -/

theorem LooksBlank.byte (h : LooksBlank this m) {a : Nat} (lo : this.partitionByteOffset ≤ a)
    (hi : a < this.partitionByteOffset + this.partitionSize) : m a = fvbErasedByte ∨ m a = 0 := by
  have hpos : 0 < size1KB := by decide
  have hdiv := Nat.div_add_mod (a - this.partitionByteOffset) size1KB
  have hmod := Nat.mod_lt (a - this.partitionByteOffset) hpos
  apply (h (this.partitionByteOffset +
    size1KB * ((a - this.partitionByteOffset) / size1KB)) ?_).2 a (by omega) (by omega)
  rw [mem_steps hpos]
  refine ⟨Nat.le_add_right _ _, by omega, ?_⟩
  rw [Nat.add_sub_cancel_left, Nat.mul_mod_right]

/-- A partition of whole kilobytes looks blank when its own bytes do. -/
theorem looksBlank_of_bytes (ready : Ready this) (hwhole : size1KB ∣ this.partitionSize)
    (h : ∀ a, this.partitionByteOffset ≤ a →
      a < this.partitionByteOffset + this.partitionSize → m a = fvbErasedByte ∨ m a = 0) :
    LooksBlank this m := by
  intro o ho
  obtain ⟨lo, hi, hmod⟩ := (mem_steps (by decide : 0 < size1KB)).mp ho
  obtain ⟨count, hcount⟩ := hwhole
  obtain ⟨chunk, hchunk⟩ := Nat.dvd_of_mod_eq_zero hmod
  have hlt : chunk < count := by
    rw [← Nat.mul_lt_mul_left (by decide : 0 < size1KB)]
    omega
  have hle : size1KB * (chunk + 1) ≤ size1KB * count := Nat.mul_le_mul_left _ hlt
  rw [Nat.mul_add, Nat.mul_one] at hle
  have hend : o + size1KB ≤ this.partitionByteOffset + this.partitionSize := by omega
  exact ⟨ready.covers (by decide) hend, fun a ha ha' => h a (by omega) (by omega)⟩

theorem LooksBlank.returns (h : LooksBlank this m) (ready : Ready this) (s : Driver) :
    Returns (isMeasurementPartitionErasedOrZero this) true s m := by
  have hchunks : ∀ chunks : List Nat, (∀ o ∈ chunks, this.norFlashProtocol.Covers o size1KB ∧
      ∀ a, o ≤ a → a < o + size1KB → m a = fvbErasedByte ∨ m a = 0) →
      Returns (checkErasedOrZero this chunks) true s m := by
    intro chunks
    induction chunks with
    | nil => exact fun _ => returns_pure _
    | cons o rest ih =>
      intro hall
      obtain ⟨hcovers, hbytes⟩ := hall o List.mem_cons_self
      have hblank : isBufErasedOrZero (slice m o size1KB) = true := by
        rw [isBufErasedOrZero, slice, List.all_map, List.all_eq_true]
        intro a ha
        obtain ⟨lo, hi⟩ := List.mem_range'_1.mp ha
        simpa using hbytes a lo hi
      rw [checkErasedOrZero]
      refine (NorFlash.returns_read hcovers).bind ?_
      simp only [EfiStatus.isError_success, Bool.false_eq_true, if_false, hblank, if_true]
      exact ih fun x hx => hall x (List.mem_cons_of_mem _ hx)
  unfold isMeasurementPartitionErasedOrZero
  rw [if_pos (ready.pool _)]
  exact hchunks _ h

theorem LooksBlank.prepared (wf : this.slots.WellFormed) (h : LooksBlank this m) :
    LooksBlank this (prepared this m) := by
  intro o ho
  obtain ⟨hcovers, hbytes⟩ := h o ho
  refine ⟨hcovers, fun a lo hi => ?_⟩
  rcases prepared_header wf m a with heq | heq
  · rw [heq]
    exact hbytes a lo hi
  · exact .inl heq

theorem LooksBlank.dead (ready : Ready this) (h : LooksBlank this m) {w : Nat}
    (hw : w ∈ this.slots.offsets) : isRecordLive (m w) = false := by
  obtain ⟨lo, hi⟩ := slot_pos ready hw
  rcases h.byte lo (by omega) with heq | heq <;> rw [heq] <;> decide

/-! The flash behind a cut. -/

theorem length_firstRecord (ready : Ready this) (measures : Measures this) (store : Store) :
    (firstRecord this store).length = this.measurementSize :=
  ready.record_length varIntV1Pending (measures.length_signed _ _ _)

theorem cut_full (ready : Ready this) (measures : Measures this) (m : Memory) (store : Store) :
    (FlushCut.record this.measurementSize).image this m store =
      program (prepared this m) (writeSlot this m) (firstRecord this store) := by
  rw [FlushCut.image, List.take_of_length_le (Nat.le_of_eq (length_firstRecord ready measures store))]

/-- The header the slot has at a cut behind the first programmed byte. -/
theorem record_header (store : Store) (ready : Ready this) (wf : this.slots.WellFormed) (count : Nat) :
    (FlushCut.record (count + 1)).image this m store (writeSlot this m) = varIntV1Pending :=
  program_cut_header (prepared_writeSlot ready wf m) (Nat.succ_ne_zero count)

theorem record_payload (i count : Nat) {byte : UInt8}
    (hi : (signedMeasurement this .v1 store none)[i]? = some byte) :
    (FlushCut.record (count + 1)).image this m store (writeSlot this m + 1 + i) =
      if i < count then prepared this m (writeSlot this m + 1 + i) &&& byte
      else prepared this m (writeSlot this m + 1 + i) := by
  obtain ⟨hlt, hbyte⟩ := List.getElem?_eq_some_iff.mp hi
  have hoffset : writeSlot this m + 1 + i = writeSlot this m + (i + 1) := by omega
  rw [FlushCut.image, hoffset]
  split
  next hin =>
    have hlen : i + 1 < ((firstRecord this store).take (count + 1)).length := by
      rw [List.length_take, firstRecord, List.length_cons]
      omega
    rw [program_inside _ _ _ _ hlen, List.getElem_take]
    simp only [firstRecord, List.getElem_cons_succ, hbyte]
  next hout =>
    apply program_outside
    right
    rw [List.length_take]
    omega

theorem record_payload_eq (measures : Measures this) (count : Nat) :
    payloadAt this ((FlushCut.record (count + 1)).image this m store) (writeSlot this m) =
      signedMeasurement this .v1 store none ↔ Fills this m store count := by
  have hlen := measures.length_signed .v1 store none
  have hslice : payloadAt this ((FlushCut.record (count + 1)).image this m store)
      (writeSlot this m) = slice ((FlushCut.record (count + 1)).image this m store)
        (writeSlot this m + 1) (getMeasurementPayloadSize this) := rfl
  rw [hslice]
  constructor
  · intro heq i byte hi
    obtain ⟨hlt, hbyte⟩ := List.getElem?_eq_some_iff.mp hi
    have hflash := record_payload (m := m) i count hi
    have hsame : (FlushCut.record (count + 1)).image this m store (writeSlot this m + 1 + i) =
        byte := by
      rw [← hbyte, ← List.getElem_of_eq heq (by rw [length_slice]; omega), getElem_slice]
    rw [hsame] at hflash
    split
    next hin =>
      rw [if_pos hin] at hflash
      exact hflash.symm
    next hout =>
      rw [if_neg hout] at hflash
      exact hflash.symm
  · intro hfills
    apply List.ext_getElem
    · rw [length_slice, hlen]
    · intro i hi hi'
      have hbyte := List.getElem?_eq_getElem hi'
      have hfill := hfills i _ hbyte
      rw [getElem_slice, record_payload i count hbyte]
      split
      next hin => rwa [if_pos hin] at hfill
      next hout => rwa [if_neg hout] at hfill

theorem record_other (ready : Ready this) (wf : this.slots.WellFormed)
    (measures : Measures this) (h : LooksBlank this m) (count : Nat) {w : Nat}
    (hw : w ∈ this.slots.offsets) (hne : w ≠ writeSlot this m) :
    isRecordLive ((FlushCut.record count).image this m store w) = false := by
  rw [FlushCut.image, program_other_header wf (writeSlot_mem ready wf) ?_ hw hne]
  · exact (h.prepared wf).dead ready hw
  · rw [List.length_take, length_firstRecord ready measures]
    exact Nat.min_le_right _ _

theorem record_live (store : Store) (ready : Ready this) (wf : this.slots.WellFormed)
    (measures : Measures this) (h : LooksBlank this m) (count : Nat) :
    liveOffsets this ((FlushCut.record (count + 1)).image this m store) = [writeSlot this m] := by
  rw [liveOffsets_eq_singleton wf]
  constructor
  · intro w hw
    rw [List.mem_singleton.mp hw]
    exact writeSlot_mem ready wf
  · intro w hw
    rw [List.mem_singleton]
    by_cases hne : w = writeSlot this m
    · rw [hne, record_header store ready wf]
      exact iff_of_true (by decide) rfl
    · rw [record_other ready wf measures h (count + 1) hw hne]
      simp [hne]

theorem done_eq (store : Store) (ready : Ready this) (wf : this.slots.WellFormed) (measures : Measures this)
    (a : Nat) :
    FlushCut.done.image this m store a =
      if a = writeSlot this m then varIntV1Valid
      else (FlushCut.record this.measurementSize).image this m store a := by
  have hsize := ready.size_ge
  obtain ⟨count, hcount⟩ := Nat.exists_eq_add_of_lt (show 0 < this.measurementSize by omega)
  rw [Nat.zero_add] at hcount
  have hheader : (FlushCut.record this.measurementSize).image this m store (writeSlot this m) =
      varIntV1Pending := by
    rw [hcount]
    exact record_header store ready wf count
  have himage : FlushCut.done.image this m store =
      program ((FlushCut.record this.measurementSize).image this m store) (writeSlot this m)
        [varIntV1Valid] := by
    rw [cut_full ready measures]
    rfl
  rw [himage]
  apply program_singleton
  rw [hheader]
  decide

theorem done_live (store : Store) (ready : Ready this) (wf : this.slots.WellFormed)
    (measures : Measures this) (h : LooksBlank this m) :
    liveOffsets this (FlushCut.done.image this m store) = [writeSlot this m] := by
  rw [liveOffsets_eq_singleton wf]
  constructor
  · intro w hw
    rw [List.mem_singleton.mp hw]
    exact writeSlot_mem ready wf
  · intro w hw
    rw [List.mem_singleton, done_eq store ready wf measures]
    split
    next heq => exact iff_of_true (by decide) heq
    next hne =>
      rw [record_other ready wf measures h _ hw hne]
      simp [hne]

theorem done_payload (ready : Ready this) (wf : this.slots.WellFormed)
    (measures : Measures this) :
    payloadAt this (FlushCut.done.image this m store) (writeSlot this m) =
      payloadAt this
        ((FlushCut.record (getMeasurementPayloadSize this + 1)).image this m store)
        (writeSlot this m) := by
  have hsize := ready.size_ge
  have hfull : getMeasurementPayloadSize this + 1 = this.measurementSize := by
    rw [getMeasurementPayloadSize, headerSzBytes]
    omega
  rw [hfull]
  apply slice_congr
  intro a ha ha'
  change writeSlot this m + headerSzBytes ≤ a at ha
  rw [headerSzBytes] at ha
  rw [done_eq store ready wf measures, if_neg (by omega)]

/-! The next boot. -/

theorem wp_boot_blank (ready : Ready this) (h : LooksBlank this m) (store : Store) :
    wp true (boot this store)
      (fun status s' m' => status = .success ∧ s'.bootstrapDeferred = true ∧ m' = m ∧
        Synced this s' m) (fun _ => True) s m := by
  unfold boot
  apply wp_bind
  apply wp_varIntInit ready trivial
  intro s' hsync
  rw [EfiStatus.isError_success, if_neg (by decide)]
  unfold varIntValidate
  rw [wp_modify_bind]
  refine (h.returns ready _).wp_bind ?_
  simp only [if_true, wp_modify_bind, pure_bind, wp_pure]
  exact ⟨trivial, trivial, trivial, trivial, hsync⟩

/-- A journal of one record of the current version passes if it is the measurement. -/
theorem boot_single (ready : Ready this) (measures : Measures this) {q : Nat}
    (hlive : liveOffsets this m = [q]) (hheader : isRecordV1 (m q) = true) (store : Store)
    (s : Driver) :
    ∃ status s' m', (boot this store s).run m = (some (status, s'), m') ∧
      (status = .success ∧ payloadAt this m q = signedMeasurement this .v1 store none ∧
          s'.bootstrapDeferred = false ∨
        status = .deviceError ∧ payloadAt this m q ≠ signedMeasurement this .v1 store none) := by
  have wf := wellFormed_of_live ready hlive
  have hmem : q ∈ liveOffsets this m := hlive ▸ List.mem_cons_self
  by_cases hpayload : payloadAt this m q = signedMeasurement this .v1 store none
  · have hrecoverable : Recoverable this store m :=
      ⟨hlive ▸ Nat.le_succ 1, q, hmem, hheader, hpayload⟩
    obtain ⟨_, s', m', hrun, rfl, hdeferred, -⟩ :=
      wp_total (wp_boot (s := s) ready measures hrecoverable)
    exact ⟨_, s', m', hrun, .inl ⟨rfl, hpayload, hdeferred⟩⟩
  · have hslot := mem_liveOffsets.mp hmem
    obtain ⟨lo, hi⟩ := slot_pos ready hslot.1
    have hv0 : isRecordV0 (m q) = false := by
      cases hversion : isRecordV0 (m q) with
      | false => rfl
      | true =>
        rw [isRecordV0_not_v1 hversion] at hheader
        exact absurd hheader (by decide)
    have hboot : wp true (boot this store) (fun status _ m' => status = .deviceError ∧ m' = m)
        (fun _ => True) s m := by
      unfold boot
      apply wp_bind
      apply wp_varIntInit ready trivial
      intro s' hsync
      rw [EfiStatus.isError_success, if_neg (by decide)]
      have hcheck := fun s : Driver =>
        isMeasurementPartitionErasedOrZero_eq (s := s) ready lo hi (header_not_blank hslot.2)
      apply wp_varIntValidate_unmatched hcheck hsync
      intro s' hsync
      apply wp_validateRecords_noMatch ready wf measures hsync <;> rw [hlive]
      · exact Nat.le_succ 1
      · have hrecord : (recordAt this m q).measurement.payload = payloadAt this m q := rfl
        simp only [findMatch, List.map_cons, List.map_nil, List.find?_cons, List.find?_nil,
          hrecord, beq_eq_false_iff_ne.mpr (Ne.symm hpayload), Bool.and_false]
      · have hrecord : (recordAt this m q).measurement.header = m q := rfl
        simp only [findMatch, List.map_cons, List.map_nil, List.find?_cons, List.find?_nil,
          hrecord, hv0, Bool.false_and]
    obtain ⟨_, s', m', hrun, rfl, -⟩ := wp_total hboot
    exact ⟨_, s', m', hrun, .inr ⟨rfl, hpayload⟩⟩

/-- The boot behind a cut: a harmless one passes, any other is reported as tampering. -/
theorem boot_cut (ready : Ready this) (wf : this.slots.WellFormed) (measures : Measures this)
    (h : LooksBlank this m) (cut : FlushCut) (store : Store) (s : Driver) :
    ∃ status s' m', (boot this store s).run (cut.image this m store) = (some (status, s'), m') ∧
      (status = .success ∧ cut.Harmless this m store ∧
          (s'.bootstrapDeferred = true → LooksBlank this m' ∧ Synced this s' m') ∨
        status = .deviceError ∧ ¬cut.Harmless this m store) := by
  have hblank : ∀ image, LooksBlank this image → ∃ s', (boot this store s).run image =
      (some (.success, s'), image) ∧ Synced this s' image := by
    intro image himage
    obtain ⟨_, s', _, hrun, rfl, -, rfl, hsync⟩ :=
      wp_total (wp_boot_blank (s := s) ready himage store)
    exact ⟨s', hrun, hsync⟩
  cases cut with
  | before =>
    obtain ⟨s', hrun, hsync⟩ := hblank m h
    exact ⟨_, s', _, hrun, .inl ⟨rfl, trivial, fun _ => ⟨h, hsync⟩⟩⟩
  | record count =>
    cases count with
    | zero =>
      have himage : (FlushCut.record 0).image this m store = prepared this m := by
        rw [FlushCut.image, List.take_zero, program_nil]
      rw [himage]
      obtain ⟨s', hrun, hsync⟩ := hblank _ (h.prepared wf)
      exact ⟨_, s', _, hrun, .inl ⟨rfl, trivial, fun _ => ⟨h.prepared wf, hsync⟩⟩⟩
    | succ count =>
      have hheader := record_header (m := m) store ready wf count
      obtain ⟨status, s', m', hrun, hcase⟩ := boot_single ready measures
        (record_live store ready wf measures h count) (by rw [hheader]; decide) store s
      refine ⟨status, s', m', hrun, ?_⟩
      rw [Ne, record_payload_eq measures] at hcase
      refine hcase.imp (fun hpass => ⟨hpass.1, hpass.2.1, fun hdeferred => ?_⟩) id
      rw [hpass.2.2] at hdeferred
      exact absurd hdeferred (by decide)
  | done =>
    have hheader := done_eq (m := m) store ready wf measures (writeSlot this m)
    rw [if_pos rfl] at hheader
    obtain ⟨status, s', m', hrun, hcase⟩ := boot_single ready measures
      (done_live store ready wf measures h) (by rw [hheader]; decide) store s
    refine ⟨status, s', m', hrun, ?_⟩
    rw [Ne, done_payload ready wf measures, record_payload_eq measures] at hcase
    refine hcase.imp (fun hpass => ⟨hpass.1, hpass.2.1, fun hdeferred => ?_⟩) id
    rw [hpass.2.2] at hdeferred
    exact absurd hdeferred (by decide)

theorem boot_cut_iff (ready : Ready this) (wf : this.slots.WellFormed) (measures : Measures this)
    (h : LooksBlank this m) (cut : FlushCut) (s : Driver) :
    (∃ s' m', (boot this store s).run (cut.image this m store) = (some (.success, s'), m')) ↔
      cut.Harmless this m store := by
  obtain ⟨status, s', m', hrun, hcase⟩ := boot_cut ready wf measures h cut store s
  rw [hrun]
  constructor
  · intro ⟨s'', m'', heq⟩
    rcases hcase with hpass | hfail
    · exact hpass.2.1
    · rw [hfail.1] at heq
      simp at heq
  · intro hharmless
    rcases hcase with hpass | hfail
    · rw [hpass.1]
      exact ⟨s', m', rfl⟩
    · exact absurd hharmless hfail.2

/-! The flush. -/

theorem wp_flush_cuts (ready : Ready this) (wf : this.slots.WellFormed) (measures : Measures this)
    (sync : Synced this s m) (deferred : s.bootstrapDeferred = true) :
    wp true (varIntFlushDeferredMeasurement this store)
      (fun status _ m' => status = .success ∧ m' = FlushCut.done.image this m store)
      (fun image => ∃ cut : FlushCut, image = cut.image this m store) s m := by
  have hnow : ∃ cut : FlushCut, m = cut.image this m store := ⟨.before, rfl⟩
  have hready : ∃ cut : FlushCut, prepared this m = cut.image this m store :=
    ⟨.record 0, by rw [FlushCut.image, List.take_zero, program_nil]⟩
  have hfull := length_firstRecord ready measures store
  have hsize := ready.size_ge
  obtain ⟨lo, hi⟩ := ready.slot_inside (writeSlot_mem (m := m) ready wf)
  unfold varIntFlushDeferredMeasurement
  rw [wp_get_bind, deferred, if_neg (by decide)]
  apply wp_bind
  unfold varIntFlushDeferredMeasurement.flush
  apply wp_bind
  apply wp_computeCurrentMeasurement measures hnow
  simp only [EfiStatus.isError_success, Bool.false_eq_true, if_false]
  apply wp_bind
  apply wp_getWriteOffset ready wf _ hnow hready
  · intro partitionData hsync
    simp only [EfiStatus.isError_success, Bool.false_eq_true, if_false, wp_modify_bind,
      wp_get_bind]
    apply wp_bind
    have hrecord : Measurement.bytes ⟨varIntV1Pending, signedMeasurement this .v1 store none⟩ =
      firstRecord this store := rfl
    rw [hrecord]
    apply wp_partitionWrite_any ready (by rw [hfull]; omega) lo (by rw [hfull]; exact hi)
    · exact fun count => ⟨.record count, rfl⟩
    · simp only [EfiStatus.isError_success, Bool.false_eq_true, if_false, wp_modify_bind]
      apply wp_bind
      have hpos : 0 < [varIntV1Valid].length := Nat.zero_lt_one
      apply wp_partitionWrite_any ready hpos lo
        (by rw [List.length_singleton]; omega)
      · intro j
        cases j with
        | zero =>
          rw [List.take_zero, program_nil]
          exact ⟨.record this.measurementSize, (cut_full ready measures m store).symm⟩
        | succ j => exact ⟨.done, by rw [List.take_succ_cons, List.take_nil]; rfl⟩
      · simp only [EfiStatus.isError_success, Bool.false_eq_true, if_false, wp_modify_bind,
          wp_pure]
        exact ⟨⟨.done, rfl⟩, ⟨.done, rfl⟩, trivial, rfl⟩
  · exact sync

/-- While the measurement is deferred, updates of variables leave the partition alone. -/
theorem wp_setVariable_deferred (sync : Synced this s m) (deferred : s.bootstrapDeferred = true)
    (op : SetOp Store) :
    wp true (setVariable this store op)
      (fun r s' m' => r.2 = op.next store ∧ s'.bootstrapDeferred = true ∧ m' = m ∧
        Synced this s' m) (fun _ => True) s m := by
  have hwrite : fvbWrite s = s := by
    unfold fvbWrite
    rw [if_neg]
    rw [deferred]
    exact fun hand => absurd hand.2 (by decide)
  unfold setVariable varPreSetCallback
  apply wp_bind
  rw [wp_get_bind, deferred, if_pos rfl, wp_pure]
  refine ⟨trivial, ?_⟩
  rw [EfiStatus.isError_success, if_neg (by decide)]
  apply wp_bind
  unfold finishSetVariable varPostSetCallback
  rw [wp_modify_bind, hwrite, wp_get_bind, deferred, if_pos rfl]
  apply wp_bind
  unfold varIntMarkDirty
  rw [wp_get_bind, deferred]
  simp only [Bool.not_true, Bool.false_eq_true, if_false]
  split
  next =>
    simp only [wp_pure]
    exact ⟨trivial, trivial, trivial, trivial, deferred, trivial, sync⟩
  next =>
    simp only [wp_set_bind, wp_pure]
    exact ⟨trivial, trivial, trivial, trivial, trivial, trivial, sync⟩

/-! Any number of boots. -/

/-- Boots of a blank partition on which the measurement stays deferred: variables are set,
and flushes are cut short until one leaves a record. -/
inductive Deferring (this : Protocol Store) : Store → Driver → Memory → Prop
  | blank {store : Store} {s s' : Driver} {m m' : Memory} (blank : LooksBlank this m)
      (run : (boot this store s).run m = (some (.success, s'), m')) : Deferring this store s' m'
  | set {store store' : Store} {s s' : Driver} {m m' : Memory} (before : Deferring this store s m)
      (op : SetOp Store) (status : EfiStatus)
      (run : (setVariable this store op s).run m = (some ((status, store'), s'), m')) :
      Deferring this store' s' m'
  | again {store : Store} {s s₀ s' : Driver} {m image m' : Memory}
      (before : Deferring this store s m)
      (cut : (varIntFlushDeferredMeasurement this store s).PowerLoss m image)
      (run : (boot this store s₀).run image = (some (.success, s'), m'))
      (deferred : s'.bootstrapDeferred = true) : Deferring this store s' m'

theorem Deferring.blank_sync (ready : Ready this) (wf : this.slots.WellFormed)
    (measures : Measures this) (h : Deferring this store s m) :
    LooksBlank this m ∧ s.bootstrapDeferred = true ∧ Synced this s m := by
  induction h with
  | blank blank run =>
    obtain ⟨-, hdeferred, rfl, hsync⟩ := wp_run (wp_boot_blank ready blank _) run
    exact ⟨blank, hdeferred, hsync⟩
  | set before op status run ih =>
    obtain ⟨hblank, hdeferred, hsync⟩ := ih
    obtain ⟨-, hdeferred', rfl, hsync'⟩ := wp_run (wp_setVariable_deferred hsync hdeferred op) run
    exact ⟨hblank, hdeferred', hsync'⟩
  | again before cut run deferred ih =>
    obtain ⟨hblank, hdeferred, hsync⟩ := ih
    obtain ⟨point, rfl⟩ := wp_powerLoss (wp_flush_cuts ready wf measures hsync hdeferred) cut
    obtain ⟨status, s', m', hrun, hcase⟩ := boot_cut ready wf measures hblank point _ _
    rw [run] at hrun
    simp only [Prod.mk.injEq, Option.some.injEq] at hrun
    obtain ⟨⟨rfl, rfl⟩, rfl⟩ := hrun
    rcases hcase with hpass | hfail
    · exact ⟨(hpass.2.2 deferred).1, deferred, (hpass.2.2 deferred).2⟩
    · exact absurd hfail.1 (by decide)

/-- On every run of deferred boots: the flash a power loss leaves of the next flush is that of
some cut, and the boot behind it passes exactly when the cut is a harmless one. -/
theorem flush_validates_iff (ready : Ready this) (hsize : this.measurementSize ≤ this.blockSize)
    (measures : Measures this) (h : Deferring this store s m)
    (cut : (varIntFlushDeferredMeasurement this store s).PowerLoss m image) (s₀ : Driver) :
    (∃ s' m', (boot this store s₀).run image = (some (.success, s'), m')) ↔
      ∃ point : FlushCut, image = point.image this m store ∧ point.Harmless this m store := by
  have hge := ready.size_ge
  have wf : this.slots.WellFormed := ⟨Nat.lt_of_lt_of_le (by decide) hge, hsize⟩
  obtain ⟨hblank, hdeferred, hsync⟩ := h.blank_sync ready wf measures
  obtain ⟨point, rfl⟩ := wp_powerLoss (wp_flush_cuts ready wf measures hsync hdeferred) cut
  constructor
  · intro hpass
    exact ⟨point, rfl, (boot_cut_iff ready wf measures hblank point s₀).mp hpass⟩
  · intro ⟨other, himage, hharmless⟩
    rw [himage]
    exact (boot_cut_iff ready wf measures hblank other s₀).mpr hharmless

/-- Every cut of the record is a power loss of the flush. -/
theorem powerLoss_flush_record (ready : Ready this) (wf : this.slots.WellFormed)
    (measures : Measures this) (sync : Synced this s m) (deferred : s.bootstrapDeferred = true)
    (count : Nat) :
    (varIntFlushDeferredMeasurement this store s).PowerLoss m
      ((FlushCut.record count).image this m store) := by
  have hfull := length_firstRecord ready measures store
  have hsize := ready.size_ge
  obtain ⟨lo, hi⟩ := ready.slot_inside (writeSlot_mem (m := m) ready wf)
  have hcompute : wp true (computeCurrentMeasurement this store none .v1 .curMeasurement)
      (fun status s' m' => status = .success ∧ m' = m ∧ Synced this s' m ∧
        s'.curMeasurement = ⟨fvbErasedByte, signedMeasurement this .v1 store none⟩)
      (fun _ => True) s m :=
    wp_computeCurrentMeasurement measures trivial ⟨rfl, rfl, sync, rfl⟩
  obtain ⟨_, s₁, m₁, hrun₁, rfl, hm₁, hsync, hmeasurement⟩ := wp_total hcompute
  rw [hm₁] at hrun₁
  have hoffset : wp true (getWriteOffset this)
      (fun result s' m' => result = (.success, writeSlot this m) ∧
        s'.curMeasurement = s₁.curMeasurement ∧ m' = prepared this m) (fun _ => True) s₁ m :=
    wp_getWriteOffset ready wf hsync trivial trivial fun _ _ => ⟨rfl, rfl, rfl⟩
  obtain ⟨_, s₂, _, hrun₂, rfl, hsame, rfl⟩ := wp_total hoffset
  have hrecord : Measurement.bytes { s₂.curMeasurement with header := varIntV1Pending } =
      firstRecord this store := by
    rw [hsame, hmeasurement]
    rfl
  unfold varIntFlushDeferredMeasurement
  rw [powerLoss_get_bind, deferred]
  rw [Bool.not_true, if_neg (by decide)]
  apply powerLoss_bind_left
  unfold varIntFlushDeferredMeasurement.flush
  apply powerLoss_bind_right hrun₁
  rw [EfiStatus.isError_success, if_neg (by decide)]
  apply powerLoss_bind_right hrun₂
  dsimp only
  rw [EfiStatus.isError_success, if_neg (by decide), powerLoss_modify_bind, powerLoss_get_bind,
    hrecord]
  apply powerLoss_bind_left
  rw [← hfull] at hi
  exact powerLoss_partitionWrite ready (by rw [hfull]; omega) lo hi count

end

/-! An erased partition whose first boot deferred the measurement of the store 1. -/

def erasedFlash : Memory := fun _ => fvbErasedByte

theorem looksBlank_erased {blockCount : Nat} (hle : blockCount ≤ 8) :
    LooksBlank (sampleProtocol blockCount) erasedFlash := by
  intro o ho
  obtain ⟨lo, hi, -⟩ := (mem_steps (by decide : 0 < size1KB)).mp ho
  simp only [sampleProtocol] at lo hi
  refine ⟨⟨by decide, ?_, by simp [sampleProtocol]⟩, fun _ _ _ => .inl rfl⟩
  simp only [sampleProtocol, size1KB]
  omega

theorem deferring_sample :
    ∃ s, Deferring (sampleProtocol 2) 1 s erasedFlash ∧ s.bootstrapDeferred = true ∧
      Synced (sampleProtocol 2) s erasedFlash := by
  have hready := ready_sample (show 2 ≠ 0 by decide) (show 2 ≤ 31 by decide)
  have hblank := looksBlank_erased (show 2 ≤ 8 by decide)
  obtain ⟨_, s', _, hrun, rfl, hdeferred, rfl, hsync⟩ :=
    wp_total (wp_boot_blank (s := sampleDriver erasedFlash) hready hblank 1)
  exact ⟨s', .blank hblank hrun, hdeferred, hsync⟩

/-- Power is lost behind the header, and the boot is held to the condition. -/
theorem flush_validates_sample :
    ∃ s, Deferring (sampleProtocol 2) 1 s erasedFlash ∧
      ((∃ s' m', (boot (sampleProtocol 2) 1 (sampleDriver erasedFlash)).run
          ((FlushCut.record 1).image (sampleProtocol 2) erasedFlash 1) =
            (some (.success, s'), m')) ↔
        ∃ point : FlushCut, (FlushCut.record 1).image (sampleProtocol 2) erasedFlash 1 =
          point.image (sampleProtocol 2) erasedFlash 1 ∧
            point.Harmless (sampleProtocol 2) erasedFlash 1) := by
  have hready := ready_sample (show 2 ≠ 0 by decide) (show 2 ≤ 31 by decide)
  obtain ⟨s, hdeferring, hdeferred, hsync⟩ := deferring_sample
  refine ⟨s, hdeferring, flush_validates_iff hready (by decide) (measures_sample 2) hdeferring ?_ _⟩
  exact powerLoss_flush_record hready ⟨by decide, by decide⟩ (measures_sample 2) hsync hdeferred 1

/-- The half-written first record is reported as tampering. -/
theorem flush_cut_rejected :
    ∃ s image, Deferring (sampleProtocol 2) 1 s erasedFlash ∧
      (varIntFlushDeferredMeasurement (sampleProtocol 2) 1 s).PowerLoss erasedFlash image ∧
      ((boot (sampleProtocol 2) 1 (sampleDriver image)).run image).1.map (·.1) =
        some .deviceError := by
  have hready := ready_sample (show 2 ≠ 0 by decide) (show 2 ≤ 31 by decide)
  obtain ⟨s, hdeferring, hdeferred, hsync⟩ := deferring_sample
  refine ⟨s, _, hdeferring, powerLoss_flush_record hready ⟨by decide, by decide⟩
    (measures_sample 2) hsync hdeferred 1, ?_⟩
  decide +kernel

end VarInt
