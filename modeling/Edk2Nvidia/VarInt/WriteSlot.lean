import Edk2Nvidia.VarInt.History

/-! The slot `GetWriteOffset` hands out, on every partition the operations of the journal
lead to. -/
namespace VarInt
open Flash

section
variable {Store : Type} {this : Protocol Store} {s s' : Driver} {m m' : Memory}

/-! What the operations do to headers. -/

theorem commitHeader_pending {header : UInt8} (h : isRecordLive header = true)
    (previousResult : EfiStatus) :
    isRecordPending (commitHeader header previousResult) = false := by
  unfold commitHeader
  cases previousResult.isError <;>
    rcases isRecordLive_cases h with rfl | rfl | rfl | rfl <;> decide

theorem commitHeader_valid {header : UInt8} (h : isRecordLive header = true)
    (previousResult : EfiStatus) :
    isRecordValid (commitHeader header previousResult) =
      if previousResult.isError then isRecordValid header else isRecordPending header := by
  unfold commitHeader
  cases previousResult.isError <;>
    rcases isRecordLive_cases h with rfl | rfl | rfl | rfl <;> decide

theorem commitHeader_ne {header : UInt8} (h : isRecordLive header = true)
    (previousResult : EfiStatus) : commitHeader header previousResult ≠ fvbErasedByte := by
  unfold commitHeader
  cases previousResult.isError <;>
    rcases isRecordLive_cases h with rfl | rfl | rfl | rfl <;> decide

theorem finalHeader_pending {header : UInt8} (h : isRecordLive header = true) (keep : Bool) :
    isRecordPending (finalHeader header keep) = false := by
  cases keep <;> rcases isRecordLive_cases h with rfl | rfl | rfl | rfl <;> decide

theorem finalHeader_valid {header : UInt8} (h : isRecordLive header = true) (keep : Bool) :
    isRecordValid (finalHeader header keep) = keep := by
  cases keep <;> rcases isRecordLive_cases h with rfl | rfl | rfl | rfl <;> decide

/-! The journal between two operations. -/

/-- The driver can go on writing, at most one record is valid and at most one pending. -/
structure Journaled (this : Protocol Store) (m : Memory) : Prop where
  shaped : Shaped this m
  valid : ∃ v, ∀ w ∈ this.slots.offsets, isRecordValid (m w) = true → w = v
  pending : ∃ p, ∀ w ∈ this.slots.offsets, isRecordPending (m w) = true → w = p

/-- The callbacks commit or drop a pending record before the next one is written. -/
def NonePending (this : Protocol Store) (m : Memory) : Prop :=
  ∀ w ∈ this.slots.offsets, isRecordPending (m w) = false

theorem Journaled.few (wf : this.slots.WellFormed) (h : Journaled this m) :
    (liveOffsets this m).length ≤ maxValidRecords := by
  obtain ⟨v, hvalid⟩ := h.valid
  obtain ⟨p, hpending⟩ := h.pending
  have hsub : liveOffsets this m ⊆ [v, p] := by
    intro w hw
    obtain ⟨hslot, hlive⟩ := mem_liveOffsets.mp hw
    rw [List.mem_pair]
    rw [isRecordLive, Bool.or_eq_true] at hlive
    exact hlive.symm.imp (hvalid w hslot) (hpending w hslot)
  exact (nodup_liveOffsets wf m).length_le_of_subset hsub

theorem Journaled.rewritten (wf : this.slots.WellFormed) (h : Journaled this m)
    {f : Nat → UInt8} (hne : ∀ w ∈ liveOffsets this m, f w ≠ fvbErasedByte)
    (hpending : ∀ w ∈ liveOffsets this m, isRecordPending (f w) = false)
    (hvalid : ∃ v, ∀ w ∈ liveOffsets this m, isRecordValid (f w) = true → w = v) :
    Journaled this (withHeaders m f (liveOffsets this m)) := by
  have hdead : ∀ w ∈ this.slots.offsets, w ∉ liveOffsets this m →
      isRecordPending (m w) = false ∧ isRecordValid (m w) = false := by
    intro w hw hmem
    have hlive : isRecordLive (m w) = false :=
      Bool.eq_false_iff.mpr fun hlive => hmem (mem_liveOffsets.mpr ⟨hw, hlive⟩)
    rwa [isRecordLive, Bool.or_eq_false_iff] at hlive
  refine ⟨h.shaped.withHeaders wf (fun w hw => (mem_liveOffsets.mp hw).1)
    (fun w hw => (mem_liveOffsets.mp hw).2) hne, ?_, 0, ?_⟩
  · obtain ⟨v, hvalid⟩ := hvalid
    refine ⟨v, fun w hw hnow => ?_⟩
    by_cases hmem : w ∈ liveOffsets this m
    · rw [withHeaders_mem hmem] at hnow
      exact hvalid w hmem hnow
    · rw [withHeaders_not_mem hmem, (hdead w hw hmem).2] at hnow
      exact absurd hnow (by decide)
  · intro w hw hnow
    by_cases hmem : w ∈ liveOffsets this m
    · rw [withHeaders_mem hmem, hpending w hmem] at hnow
      exact absurd hnow (by decide)
    · rw [withHeaders_not_mem hmem, (hdead w hw hmem).1] at hnow
      exact absurd hnow (by decide)

theorem Journaled.commit (wf : this.slots.WellFormed) (h : Journaled this m)
    (previousResult : EfiStatus) :
    Journaled this (withHeaders m (committed m previousResult) (liveOffsets this m)) := by
  have hlive : ∀ w ∈ liveOffsets this m, isRecordLive (m w) = true := fun w hw =>
    (mem_liveOffsets.mp hw).2
  apply h.rewritten wf
  · exact fun w hw => commitHeader_ne (hlive w hw) previousResult
  · exact fun w hw => commitHeader_pending (hlive w hw) previousResult
  · obtain ⟨v, hvalid⟩ := h.valid
    obtain ⟨p, hpending⟩ := h.pending
    refine ⟨if previousResult.isError then v else p, fun w hw hnow => ?_⟩
    rw [committed, commitHeader_valid (hlive w hw)] at hnow
    have hslot := (mem_liveOffsets.mp hw).1
    split
    next herror =>
      rw [if_pos herror] at hnow
      exact hvalid w hslot hnow
    next hok =>
      rw [if_neg hok] at hnow
      exact hpending w hslot hnow

theorem Journaled.finalize (wf : this.slots.WellFormed) (h : Journaled this m)
    (keepRecord : Option Nat) :
    Journaled this (withHeaders m (finalized m keepRecord) (liveOffsets this m)) := by
  have hlive : ∀ w ∈ liveOffsets this m, isRecordLive (m w) = true := fun w hw =>
    (mem_liveOffsets.mp hw).2
  apply h.rewritten wf
  · exact fun w hw => finalHeader_ne_erased (hlive w hw) _
  · exact fun w hw => finalHeader_pending (hlive w hw) _
  · refine ⟨keepRecord.getD 0, fun w hw hnow => ?_⟩
    rw [finalized, finalHeader_valid (hlive w hw), beq_iff_eq] at hnow
    rw [hnow, Option.getD_some]

/-! A record is added. -/

/-- The erase in front of a write leaves a header or makes it an erased one. -/
theorem prepared_header (wf : this.slots.WellFormed) (m : Memory) (w : Nat) :
    prepared this m w = m w ∨ prepared this m w = erasedByte := by
  unfold prepared
  split
  next hblock =>
    rw [erase_block wf (Nat.dvd_of_mod_eq_zero hblock)]
    split
    next => exact .inr rfl
    next => exact .inl rfl
  next => exact .inl rfl

theorem Journaled.appended_headers (ready : Ready this) (wf : this.slots.WellFormed)
    (h : Journaled this m) {payload : List UInt8}
    (hlen : payload.length = getMeasurementPayloadSize this) :
    program (prepared this m) (writeSlot this m) (varIntV1Pending :: payload)
        (writeSlot this m) = varIntV1Pending ∧
      ∀ w ∈ this.slots.offsets, w ≠ writeSlot this m →
        program (prepared this m) (writeSlot this m) (varIntV1Pending :: payload) w = m w ∨
        program (prepared this m) (writeSlot this m) (varIntV1Pending :: payload) w =
          erasedByte := by
  have hfree := freeSlot ready wf h.shaped
  have hsize := ready.size_ge
  have hfull := ready.record_length varIntV1Pending hlen
  constructor
  · have hheader : program (prepared this m) (writeSlot this m)
        ((varIntV1Pending :: payload).take this.measurementSize) (writeSlot this m) =
          varIntV1Pending :=
      program_cut_header (hfree.blank _ (Nat.le_refl _) (by omega)) (by omega)
    rwa [List.take_of_length_le (Nat.le_of_eq hfull)] at hheader
  · intro w hw hne
    rw [program_other_header wf hfree.mem (Nat.le_of_eq hfull) hw hne]
    exact prepared_header wf m w

theorem Journaled.appended_header (ready : Ready this) (wf : this.slots.WellFormed)
    (h : Journaled this m) {payload : List UInt8}
    (hlen : payload.length = getMeasurementPayloadSize this) :
    program (prepared this m) (writeSlot this m) (varIntV1Pending :: payload)
      (writeSlot this m) = varIntV1Pending :=
  (h.appended_headers ready wf hlen).1

theorem Journaled.appended (ready : Ready this) (wf : this.slots.WellFormed)
    (h : Journaled this m) (none : NonePending this m) {payload : List UInt8}
    (hlen : payload.length = getMeasurementPayloadSize this) :
    Journaled this
      (program (prepared this m) (writeSlot this m) (varIntV1Pending :: payload)) := by
  have hsize := ready.size_ge
  obtain ⟨hheader, hother⟩ := h.appended_headers ready wf hlen
  have hshaped := (freeSlot ready wf h.shaped).cut_shaped ready wf hlen this.measurementSize
  rw [List.take_of_length_le (Nat.le_of_eq (ready.record_length varIntV1Pending hlen))] at hshaped
  refine ⟨hshaped, ?_, writeSlot this m, ?_⟩
  · obtain ⟨v, hvalid⟩ := h.valid
    refine ⟨v, fun w hw hnow => ?_⟩
    by_cases hne : w = writeSlot this m
    · rw [hne, hheader] at hnow
      exact absurd hnow (by decide)
    · rcases hother w hw hne with heq | heq
      · rw [heq] at hnow
        exact hvalid w hw hnow
      · rw [heq] at hnow
        exact absurd hnow (by decide)
  · intro w hw hnow
    by_contra hne
    rcases hother w hw hne with heq | heq
    · rw [heq, none w hw] at hnow
      exact absurd hnow (by decide)
    · rw [heq] at hnow
      exact absurd hnow (by decide)

/-- In a journal without live records the new one is the only one. -/
theorem Journaled.appended_live (ready : Ready this) (wf : this.slots.WellFormed)
    (h : Journaled this m) (none : ∀ w ∈ this.slots.offsets, isRecordLive (m w) = false)
    {payload : List UInt8} (hlen : payload.length = getMeasurementPayloadSize this) :
    liveOffsets this
      (program (prepared this m) (writeSlot this m) (varIntV1Pending :: payload)) =
        [writeSlot this m] := by
  obtain ⟨hheader, hother⟩ := h.appended_headers ready wf hlen
  rw [liveOffsets_eq_singleton wf]
  constructor
  · intro w hw
    rw [List.mem_singleton.mp hw]
    exact writeSlot_mem ready wf
  · intro w hw
    rw [List.mem_singleton]
    by_cases hne : w = writeSlot this m
    · rw [hne, hheader]
      exact iff_of_true (by decide) rfl
    · simp only [hne, iff_false]
      rcases hother w hw hne with heq | heq
      · rw [heq, none w hw]
        decide
      · rw [heq]
        decide

theorem wp_appendPending (ready : Ready this) (wf : this.slots.WellFormed)
    (shaped : Shaped this m) (sync : Synced this s (prepared this m)) {payload : List UInt8}
    (hlen : payload.length = getMeasurementPayloadSize this)
    {Q : EfiStatus → Driver → Memory → Prop}
    (hQ : ∀ partitionData,
      Synced this { s with partitionData }
        (program (prepared this m) (writeSlot this m) (varIntV1Pending :: payload)) →
      Q .success { s with partitionData }
        (program (prepared this m) (writeSlot this m) (varIntV1Pending :: payload))) :
    wp true (partitionWrite this (writeSlot this m) (varIntV1Pending :: payload)) Q
      (fun _ => True) s (prepared this m) := by
  have hfree := freeSlot ready wf shaped
  have hsize := ready.size_ge
  have hfull := ready.record_length varIntV1Pending hlen
  obtain ⟨lo, hi⟩ := ready.slot_inside hfree.mem
  apply wp_partitionWrite ready sync (by rw [hfull]; omega) lo (by rw [hfull]; exact hi)
  · apply Blank.permits
    rw [hfull]
    exact hfree.blank
  · exact fun _ => trivial
  · exact hQ

/-- What an operation ends with: whatever its status, the journal is in order. -/
def Ordered (this : Protocol Store) (_ : EfiStatus) (s : Driver) (m : Memory) : Prop :=
  Synced this s m ∧ Journaled this m

theorem wp_writePendingRecord_journaled (ready : Ready this) (wf : this.slots.WellFormed)
    (sync : Synced this s m) (h : Journaled this m) (none : NonePending this m)
    (hlen : s.curMeasurement.payload.length = getMeasurementPayloadSize this) (pre : Bool) :
    wp true (writePendingRecord this pre) (Ordered this) (fun _ => True) s m := by
  unfold writePendingRecord
  rw [wp_get_bind]
  apply wp_bind
  unfold computedMeasurementMatchesValidRecord
  refine (getLastValidMeasurements_eq ready wf sync (h.few wf)).wp_bind ?_
  simp only [EfiStatus.isError_success, Bool.false_eq_true, if_false, wp_pure, true_and]
  split
  next =>
    simp only [wp_modify_bind, wp_pure, clearSpeculativeMeasurement]
    exact ⟨trivial, sync, h⟩
  next =>
    apply wp_bind
    apply wp_getWriteOffset ready wf sync trivial trivial
    intro partitionData hsync
    simp only [EfiStatus.isError_success, Bool.false_eq_true, if_false, wp_modify_bind,
      wp_get_bind]
    apply wp_bind
    apply wp_appendPending ready wf h.shaped
    · exact hsync
    · exact hlen
    · intro partitionData hwritten
      simp only [EfiStatus.isError_success, Bool.false_eq_true, if_false, wp_modify_bind, wp_pure]
      exact ⟨trivial, hwritten, h.appended ready wf none hlen⟩

theorem wp_updateLiveMeasurementRecordStates_journaled (ready : Ready this)
    (wf : this.slots.WellFormed) (sync : Synced this s m) (h : Journaled this m)
    (previousResult : EfiStatus) :
    wp true (updateLiveMeasurementRecordStates this previousResult) (Ordered this)
      (fun _ => True) s m := by
  by_cases hnil : liveOffsets this m = []
  · unfold updateLiveMeasurementRecordStates
    refine (getLastValidMeasurements_eq ready wf sync (h.few wf)).wp_bind ?_
    simp only [EfiStatus.isError_success, Bool.false_eq_true, if_false, hnil, List.map_nil,
      List.isEmpty_nil, if_true, wp_pure]
    exact ⟨trivial, sync, h⟩
  · apply wp_updateLiveMeasurementRecordStates ready wf sync (liveAt_liveOffsets this m)
      (nodup_liveOffsets wf m) (h.few wf) hnil
    · exact fun _ _ => trivial
    · exact fun partitionData hsync => ⟨hsync, h.commit wf previousResult⟩

/-- The check at boot ends by keeping one of the records it found. -/
def finalizeLiveRecords (this : Protocol Store) (keepRecord : Option Nat) : VarIntM EfiStatus := do
  let (status, records) ← getLastValidMeasurements this
  if status.isError then
    pure status
  else
    finalizeValidatedRecords this keepRecord records .success

theorem wp_finalizeLiveRecords (ready : Ready this) (wf : this.slots.WellFormed)
    (sync : Synced this s m) (h : Journaled this m) (keepRecord : Option Nat) :
    wp true (finalizeLiveRecords this keepRecord) (Ordered this) (fun _ => True) s m := by
  have hlive : ∀ w ∈ liveOffsets this m, isRecordLive (m w) = true := fun w hw =>
    (mem_liveOffsets.mp hw).2
  have hstart := withHeaders_nil m (finalized m keepRecord)
  unfold finalizeLiveRecords
  refine (getLastValidMeasurements_eq ready wf sync (h.few wf)).wp_bind ?_
  simp only [EfiStatus.isError_success, Bool.false_eq_true, if_false]
  have hsync : Synced this s (withHeaders m (finalized m keepRecord) []) := by
    rw [hstart]
    exact sync
  rw [← hstart]
  apply wp_finalizeValidatedRecords (m := m) ready hsync
  · exact fun w hw => (mem_liveOffsets.mp hw).1
  · exact nodup_liveOffsets wf m
  · exact fun w hw => finalHeader_clears (hlive w hw) _
  · exact fun _ => trivial
  · intro partitionData hsync
    rw [List.nil_append] at hsync ⊢
    exact ⟨hsync, h.finalize wf keepRecord⟩

/-! The flush of a deferred measurement writes the first record. -/

/-- A signed measurement has the size of the payload. -/
def Sized (this : Protocol Store) : Prop :=
  ∀ version store update meas, this.computeVarMeasurement version store update = .ok meas →
    meas.length = getMeasurementPayloadSize this ∧
      (this.sign meas).length = getMeasurementPayloadSize this

theorem Measures.sized (measures : Measures this) : Sized this := by
  intro version store update meas hmeas
  obtain ⟨meas', hmeas', hlen⟩ := measures.computes version store update
  rw [hmeas, Except.ok.injEq] at hmeas'
  rw [measures.sign_length, hmeas']
  exact ⟨hlen, hlen⟩

theorem Sized.wp_compute (sized : Sized this) {version : RecordVersion} {store : Store}
    {update : Option VariableUpdate} {Q : EfiStatus → Driver → Memory → Prop}
    (hQ : ∀ status curMeasurement,
      curMeasurement.payload.length = getMeasurementPayloadSize this →
      Q status { s with curMeasurement } m) :
    wp true (computeCurrentMeasurement this store update version .curMeasurement) Q
      (fun _ => True) s m := by
  unfold computeCurrentMeasurement
  rw [wp_modify_bind]
  cases hmeas : this.computeVarMeasurement version store update with
  | error status =>
    simp only [wp_pure, Driver.setBuffer]
    refine ⟨trivial, hQ _ _ ?_⟩
    rw [Measurement.zeroMem, Measurement.ofBytes, List.length_drop, List.length_replicate]
    rfl
  | ok meas =>
    have hlen := (sized version store update meas hmeas).2
    simp only [wp_modify_bind]
    apply wp_bind
    unfold sendOpteeCmd
    by_cases hoptee : this.isOpteePresent = true
    · rw [if_pos hoptee]
      simp only [wp_modify_bind, wp_pure, EfiStatus.isError_success, Bool.false_eq_true, if_false]
      exact ⟨trivial, trivial, hQ _ _ hlen⟩
    · rw [if_neg hoptee]
      simp only [wp_modify_bind, wp_pure, EfiStatus.isError_success, Bool.false_eq_true, if_false]
      exact ⟨trivial, trivial, hQ _ _ hlen⟩

theorem wp_flush_journaled (ready : Ready this) (wf : this.slots.WellFormed) (sized : Sized this)
    (sync : Synced this s m) (h : Journaled this m)
    (none : ∀ w ∈ this.slots.offsets, isRecordLive (m w) = false) (store : Store) :
    wp true (varIntFlushDeferredMeasurement this store) (Ordered this) (fun _ => True) s m := by
  have hnone : NonePending this m := by
    intro w hw
    have hdead := none w hw
    rw [isRecordLive, Bool.or_eq_false_iff] at hdead
    exact hdead.1
  unfold varIntFlushDeferredMeasurement
  rw [wp_get_bind]
  split
  next =>
    rw [wp_pure]
    exact ⟨trivial, sync, h⟩
  next =>
    apply wp_bind
    unfold varIntFlushDeferredMeasurement.flush
    apply wp_bind
    apply sized.wp_compute
    intro status cur hlen
    split
    next =>
      simp only [wp_pure, wp_modify_bind]
      exact ⟨trivial, trivial, sync, h⟩
    next =>
      apply wp_bind
      apply wp_getWriteOffset ready wf (s := { s with curMeasurement := cur }) sync trivial trivial
      intro partitionData hsync
      simp only [EfiStatus.isError_success, Bool.false_eq_true, if_false, wp_modify_bind,
        wp_get_bind]
      apply wp_bind
      apply wp_appendPending ready wf h.shaped
      · exact hsync
      · exact hlen
      · intro partitionData hwritten
        have hfree := freeSlot ready wf h.shaped
        have happended := h.appended ready wf hnone hlen
        have hheader := h.appended_header ready wf hlen
        have honly := h.appended_live ready wf none hlen
        simp only [EfiStatus.isError_success, Bool.false_eq_true, if_false, wp_modify_bind]
        apply wp_bind
        apply wp_writeHeader ready
        · exact hwritten
        · exact hfree.mem
        · rw [hheader]
          decide
        · trivial
        · trivial
        · intro partitionData hvalid
          simp only [EfiStatus.isError_success, Bool.false_eq_true, if_false, wp_modify_bind,
            wp_pure]
          refine ⟨trivial, trivial, hvalid, ?_⟩
          have hrewritten := happended.rewritten wf (f := fun _ => varIntV1Valid)
            (fun _ _ => by decide) (fun _ _ => by decide)
            ⟨writeSlot this m, fun w hw _ => by rwa [honly, List.mem_singleton] at hw⟩
          have happend : program (withHeaders (program (prepared this m) (writeSlot this m)
              (varIntV1Pending :: cur.payload)) (fun _ => varIntV1Valid) []) (writeSlot this m)
                [varIntV1Valid] =
              withHeaders (program (prepared this m) (writeSlot this m)
                (varIntV1Pending :: cur.payload)) (fun _ => varIntV1Valid)
                ([] ++ [writeSlot this m]) := by
            apply withHeaders_append
            · simp
            · rw [hheader]
              decide
          rw [honly] at hrewritten
          rw [withHeaders_nil, List.nil_append] at happend
          rw [happend]
          exact hrewritten

/-! Every partition the journal leads to. -/

/-- A partition without a record: its bytes are erased or zero, and a slot that begins erased
is erased. -/
structure Unwritten (this : Protocol Store) (m : Memory) : Prop where
  bytes : ∀ a, this.partitionByteOffset ≤ a →
    a < this.partitionByteOffset + this.partitionSize → m a = fvbErasedByte ∨ m a = 0
  erased : ∀ w ∈ this.slots.offsets, m w = fvbErasedByte → Blank m w this.measurementSize

theorem Unwritten.journaled (ready : Ready this) (h : Unwritten this m) : Journaled this m := by
  have hbyte : ∀ w ∈ this.slots.offsets, m w = fvbErasedByte ∨ m w = 0 := by
    intro w hw
    obtain ⟨lo, hi⟩ := slot_pos ready hw
    exact h.bytes w lo (by omega)
  have hdead : ∀ w ∈ this.slots.offsets, isRecordLive (m w) = false := by
    intro w hw
    rcases hbyte w hw with heq | heq <;> rw [heq] <;> decide
  refine ⟨⟨h.erased, fun w hw hlive => ?_⟩, ⟨0, fun w hw hvalid => ?_⟩,
    ⟨0, fun w hw hpending => ?_⟩⟩
  · rw [hdead w hw] at hlive
    exact absurd hlive (by decide)
  · have := hdead w hw
    rw [isRecordLive, hvalid, Bool.or_true] at this
    exact absurd this (by decide)
  · have := hdead w hw
    rw [isRecordLive, hpending, Bool.true_or] at this
    exact absurd this (by decide)

/-- The driver and the partition behind any number of operations of the journal. -/
inductive Reached (this : Protocol Store) : Driver → Memory → Prop
  | unwritten {s : Driver} {m : Memory} (blank : Unwritten this m) (sync : Synced this s m) : Reached this s m
  /-- A measurement is computed, a flag changes, or a reboot copies the partition anew. -/
  | prepare {s s' : Driver} {m : Memory} (before : Reached this s m) (sync : Synced this s' m) : Reached this s' m
  | flush {s s' : Driver} {m m' : Memory} (before : Reached this s m)
      (none : ∀ w ∈ this.slots.offsets, isRecordLive (m w) = false) (store : Store)
      (status : EfiStatus)
      (run : (varIntFlushDeferredMeasurement this store s).run m = (some (status, s'), m')) :
      Reached this s' m'
  | write {s s' : Driver} {m m' : Memory} (before : Reached this s m) (none : NonePending this m)
      (sized : s.curMeasurement.payload.length = getMeasurementPayloadSize this) (pre : Bool)
      (status : EfiStatus)
      (run : (writePendingRecord this pre s).run m = (some (status, s'), m')) :
      Reached this s' m'
  | commit {s s' : Driver} {m m' : Memory} (before : Reached this s m) (previousResult status : EfiStatus)
      (run : (updateLiveMeasurementRecordStates this previousResult s).run m =
        (some (status, s'), m')) :
      Reached this s' m'
  | finalize {s s' : Driver} {m m' : Memory} (before : Reached this s m) (keepRecord : Option Nat)
      (status : EfiStatus)
      (run : (finalizeLiveRecords this keepRecord s).run m = (some (status, s'), m')) :
      Reached this s' m'

theorem Reached.ordered (ready : Ready this) (wf : this.slots.WellFormed) (sized : Sized this)
    (h : Reached this s m) : Synced this s m ∧ Journaled this m := by
  induction h with
  | unwritten blank sync => exact ⟨sync, blank.journaled ready⟩
  | prepare before sync ih => exact ⟨sync, ih.2⟩
  | flush before none store status run ih =>
    exact wp_run (wp_flush_journaled ready wf sized ih.1 ih.2 none store) run
  | write before none hlen pre status run ih =>
    exact wp_run (wp_writePendingRecord_journaled ready wf ih.1 ih.2 none hlen pre) run
  | commit before previousResult status run ih =>
    exact wp_run
      (wp_updateLiveMeasurementRecordStates_journaled ready wf ih.1 ih.2 previousResult) run
  | finalize before keepRecord status run ih =>
    exact wp_run (wp_finalizeLiveRecords ready wf ih.1 ih.2 keepRecord) run

/-- A slot a record can be written to. -/
structure Usable (this : Protocol Store) (m : Memory) (offset : Nat) : Prop where
  start : this.partitionByteOffset ≤ offset
  inside : offset + this.measurementSize ≤ this.partitionByteOffset + this.partitionSize
  block : offset % this.blockSize + this.measurementSize ≤ this.blockSize
  erased : ∀ a, offset ≤ a → a < offset + this.measurementSize → m a = fvbErasedByte

def KeepsValid (this : Protocol Store) (m m' : Memory) : Prop :=
  ∀ w ∈ this.slots.offsets, isRecordValid (m w) = true →
    ∀ a, w ≤ a → a < w + this.measurementSize → m' a = m a

theorem Journaled.keepsValid (wf : this.slots.WellFormed) (ready : Ready this)
    (h : Journaled this m) (hblocks : 2 ≤ this.slots.blockCount) :
    KeepsValid this m (prepared this m) := by
  intro w hw hvalid a ha ha'
  have hlive : isRecordLive (m w) = true := by rw [isRecordLive, hvalid, Bool.or_true]
  unfold prepared
  split
  next hblock =>
    rw [erase_block wf (Nat.dvd_of_mod_eq_zero hblock), Slots.blockStart_of_mem wf hw ha ha']
    rw [if_neg]
    rcases writeSlot_cases wf m with ⟨-, herased, -⟩ | ⟨hnext, -⟩
    · intro heq
      exact h.shaped.starts w hw hlive (heq ▸ herased)
    · -- the scan stopped at the one valid record
      obtain ⟨v, hv⟩ := h.valid
      have hlast : lastValid this m = w := by
        rcases lastValid_mem this m with ⟨-, hnone⟩ | ⟨hmem, hlast⟩
        · rw [hnone w hw] at hvalid
          exact absurd hvalid (by decide)
        · rw [hv _ hmem hlast, hv w hw hvalid]
      rw [hnext, hlast]
      exact (nextBlockOffset_ne ready wf hw hblocks).symm
  next => rfl

/-- `GetWriteOffset` returns a usable slot, and spares the valid record where there is a
second block. -/
theorem getWriteOffset_usable (ready : Ready this) (sized : Sized this)
    (hsize : this.measurementSize < this.blockSize) (h : Reached this s m) :
    ∃ offset s' m', (getWriteOffset this s).run m = (some ((.success, offset), s'), m') ∧
      Usable this m' offset ∧ (2 ≤ this.slots.blockCount → KeepsValid this m m') := by
  have hge := ready.size_ge
  have wf : this.slots.WellFormed :=
    ⟨Nat.lt_of_lt_of_le (by decide) hge, Nat.le_of_lt hsize⟩
  obtain ⟨sync, hjournal⟩ := h.ordered ready wf sized
  have hfree := freeSlot ready wf hjournal.shaped
  have hrun := wp_total (wp_getWriteOffset (C := fun _ => True) (Q := fun r _ m' =>
    r = (.success, writeSlot this m) ∧ m' = prepared this m) ready wf sync trivial trivial
    fun _ _ => ⟨rfl, rfl⟩)
  obtain ⟨r, s', m', hrun, rfl, rfl⟩ := hrun
  obtain ⟨lo, hi⟩ := ready.slot_inside hfree.mem
  obtain ⟨-, -, -, hfit⟩ := (Slots.mem_offsets wf).mp hfree.mem
  refine ⟨_, s', _, hrun, ⟨lo, hi, ?_, hfree.blank⟩, hjournal.keepsValid wf ready⟩
  have hdiv := Nat.div_add_mod (writeSlot this m) this.blockSize
  have hstart : this.slots.blockStart (writeSlot this m) =
    this.blockSize * (writeSlot this m / this.blockSize) := Nat.mul_comm _ _
  have hslot : this.slots.slotSize = this.measurementSize := rfl
  have hblock : this.slots.blockSize = this.blockSize := rfl
  omega

end

/-! A flush on the samples, from an erased partition and, with records of 100 bytes, one to a
block, on a partition of a single block. -/

def largeProtocol : Protocol UInt8 :=
  { sampleProtocol 1 with
    measurementSize := 100
    computeVarMeasurement := fun _ store _ => .ok (List.replicate 99 store) }

/-- The flash behind a flush of the store 1. -/
def flushed (this : Protocol UInt8) : Memory :=
  (varIntFlushDeferredMeasurement this 1
    { sampleDriver (fun _ => fvbErasedByte) with bootstrapDeferred := true }).run
      (fun _ => fvbErasedByte) |>.2

theorem reached_flushed {this : Protocol UInt8} (ready : Ready this)
    (wf : this.slots.WellFormed) (sized : Sized this) (hstart : this.partitionByteOffset = 128) :
    Reached this (sampleDriver (flushed this)) (flushed this) := by
  have hblank : Unwritten this (fun _ => fvbErasedByte) :=
    ⟨fun _ _ _ => .inl rfl, fun _ _ _ _ _ _ => rfl⟩
  have hsync : Synced this { sampleDriver (fun _ => fvbErasedByte) with bootstrapDeferred := true }
      (fun _ => fvbErasedByte) := fun _ _ => rfl
  have hdead : ∀ w ∈ this.slots.offsets, isRecordLive ((fun _ => fvbErasedByte : Memory) w) = false :=
    fun _ _ => rfl
  obtain ⟨status, s', m', hrun, -⟩ :=
    wp_total (wp_flush_journaled ready wf sized hsync (hblank.journaled ready) hdead 1)
  have hflushed : flushed this = m' := congrArg Prod.snd hrun
  rw [hflushed]
  apply Reached.prepare (.flush (.unwritten hblank hsync) hdead 1 status hrun)
  intro i _
  rw [hstart]
  rfl

theorem getWriteOffset_usable_sample :
    ∃ offset s' m', (getWriteOffset (sampleProtocol 2)
        (sampleDriver (flushed (sampleProtocol 2)))).run (flushed (sampleProtocol 2)) =
        (some ((.success, offset), s'), m') ∧
      Usable (sampleProtocol 2) m' offset ∧
      (2 ≤ (sampleProtocol 2).slots.blockCount →
        KeepsValid (sampleProtocol 2) (flushed (sampleProtocol 2)) m') :=
  getWriteOffset_usable (ready_sample (by decide) (by decide)) (measures_sample 2).sized
    (by decide)
    (reached_flushed (ready_sample (by decide) (by decide)) ⟨by decide, by decide⟩
      (measures_sample 2).sized rfl)

theorem ready_large : Ready largeProtocol where
  offset_ne := by simp [largeProtocol, sampleProtocol]
  size_ne := by simp [largeProtocol, sampleProtocol]
  offset_mod := by simp [largeProtocol, sampleProtocol, Protocol.blockSize]
  size_mod := by simp [largeProtocol, sampleProtocol, Protocol.blockSize]
  inside := by simp [largeProtocol, sampleProtocol]
  density_lt := by simp [largeProtocol, sampleProtocol]
  size_ge := by simp [largeProtocol]
  pool := fun _ => rfl

theorem measures_large : Measures largeProtocol where
  computes := fun _ _ _ => ⟨_, rfl, List.length_replicate⟩
  sign_length := fun _ => rfl

/-- The slots of a partition of erased and zero bytes whose first slot is zero and whose
second begins erased. -/
def mottledFlash : Memory := fun a => if a = 161 then fvbErasedByte else 0

/-- With a single block the block of the valid record is erased for the next one; and on a
partition that passes for blank a slot can begin erased and hold zeros. -/
theorem valid_record_erased :
    (∃ s m offset s' m', Reached largeProtocol s m ∧
      (getWriteOffset largeProtocol s).run m = (some ((.success, offset), s'), m') ∧
      ¬KeepsValid largeProtocol m m') ∧
    isBufErasedOrZero (slice mottledFlash 128 256) = true ∧
    ∃ offset s' m', (getWriteOffset (sampleProtocol 2) (sampleDriver mottledFlash)).run
        mottledFlash = (some ((.success, offset), s'), m') ∧
      ¬Usable (sampleProtocol 2) m' offset := by
  refine ⟨?_, by decide +kernel, 161, sampleDriver mottledFlash, mottledFlash, rfl, ?_⟩
  · have hreached := reached_flushed ready_large ⟨by decide, by decide⟩ measures_large.sized rfl
    refine ⟨_, _, 128, _, _, hreached, rfl, ?_⟩
    intro hkeeps
    have hbyte := hkeeps 128 (by decide +kernel) (by decide +kernel) 128 (Nat.le_refl _)
      (by decide)
    exact absurd hbyte (by decide +kernel)
  · intro husable
    exact absurd (husable.erased 162 (by decide) (by decide)) (by decide)

end VarInt
