import Edk2Nvidia.VarInt.Validation

/-! One `SetVariable`: the pre callback writes a pending record beside the valid one,
the post callback makes one of the two the only live record. -/
namespace VarInt
open Flash

/-- A pending record of the current version stands beside a valid one. -/
structure Pair {Store : Type} (this : Protocol Store) (m : Memory) (p q : Nat) : Prop where
  ne : p ≠ q
  live : LiveAt this m [p, q]
  old : m p = varIntV1Valid
  new : m q = varIntV1Pending
  shaped : Shaped this m

section
variable {Store : Type} {this : Protocol Store} {s : Driver} {m image : Memory} {store : Store}
  {u : VariableUpdate} {C : Memory → Prop} {p q : Nat}

theorem Appended.pair (ready : Ready this) {payload : List UInt8}
    (h : Appended this m image p q payload) (hp : m p = varIntV1Valid) :
    Pair this image p q := by
  have hsize := ready.size_ge
  refine ⟨h.ne, h.live, ?_, h.header, h.shaped⟩
  rw [h.same p (Nat.le_refl _) (by omega)]
  exact hp

theorem Appended.keeps (wf : this.slots.WellFormed) {payload : List UInt8}
    (h : Appended this m image p q payload) : Keeps this m p image :=
  ⟨⟨h.live.few wf (Nat.le_refl 2), h.shaped⟩, h.same⟩

theorem Appended.payload_old (ready : Ready this) {payload : List UInt8}
    (h : Appended this m image p q payload) : payloadAt this image p = payloadAt this m p :=
  payloadAt_congr ready h.same

/-! A commit of the pair, record by record. -/

theorem Pair.committed_old (h : Pair this m p q) (previousResult : EfiStatus) :
    committed m previousResult p =
      if previousResult.isError then varIntV1Valid else varIntV1Invalid := by
  rw [committed, h.old, commitHeader]
  cases previousResult.isError <;> rfl

theorem Pair.committed_new (h : Pair this m p q) (previousResult : EfiStatus) :
    committed m previousResult q =
      if previousResult.isError then varIntV1Invalid else varIntV1Valid := by
  rw [committed, h.new, commitHeader]
  cases previousResult.isError <;> rfl

theorem Pair.mem_left (h : Pair this m p q) : p ∈ this.slots.offsets :=
  h.live.slots p List.mem_cons_self

theorem Pair.mem_right (h : Pair this m p q) : q ∈ this.slots.offsets :=
  h.live.slots q (List.mem_cons_of_mem _ List.mem_cons_self)

theorem Pair.few (wf : this.slots.WellFormed) (h : Pair this m p q) {xs : List Nat}
    (hxs : xs ⊆ [p, q]) (f : Nat → UInt8) :
    (liveOffsets this (withHeaders m f xs)).length ≤ maxValidRecords := by
  have hsub : liveOffsets this (withHeaders m f xs) ⊆ [p, q] := by
    intro w hw
    obtain ⟨hslot, hlive⟩ := mem_liveOffsets.mp hw
    by_cases hmem : w ∈ xs
    · exact hxs hmem
    · rw [withHeaders_not_mem hmem] at hlive
      exact (h.live.live w hslot).mp hlive
  exact (nodup_liveOffsets wf _).length_le_of_subset hsub

/-- A dropped update leaves the old record valid, at every point of the commit. -/
theorem Pair.old_kept (h : Pair this m p q) {previousResult : EfiStatus}
    (herror : previousResult.isError = true) (xs : List Nat) :
    withHeaders m (committed m previousResult) xs p = varIntV1Valid := by
  by_cases hmem : p ∈ xs
  · rw [withHeaders_mem hmem, h.committed_old, if_pos herror]
  · rw [withHeaders_not_mem hmem, h.old]

/-- A committed update leaves the new record live, at every point of the commit. -/
theorem Pair.new_kept (h : Pair this m p q) {previousResult : EfiStatus}
    (hok : previousResult.isError = false) (xs : List Nat) :
    withHeaders m (committed m previousResult) xs q = varIntV1Pending ∨
      withHeaders m (committed m previousResult) xs q = varIntV1Valid := by
  by_cases hmem : q ∈ xs
  · right
    rw [withHeaders_mem hmem, h.committed_new, hok, if_neg (by decide)]
  · left
    rw [withHeaders_not_mem hmem, h.new]

theorem Pair.sound (wf : this.slots.WellFormed) (h : Pair this m p q) {xs : List Nat}
    (hxs : xs ⊆ [p, q]) (previousResult : EfiStatus) :
    Sound this (withHeaders m (committed m previousResult) xs) := by
  refine ⟨h.few wf hxs _, h.shaped.withHeaders wf (fun w hw => h.live.slots w (hxs hw))
    (fun w hw => h.live.header (hxs hw)) ?_⟩
  intro w hw
  rcases List.mem_pair.mp (hxs hw) with rfl | rfl
  · rw [h.committed_old]
    cases previousResult.isError <;> decide
  · rw [h.committed_new]
    cases previousResult.isError <;> decide

theorem Pair.committed_live (wf : this.slots.WellFormed) (h : Pair this m p q)
    (previousResult : EfiStatus) :
    liveOffsets this (withHeaders m (committed m previousResult) [p, q]) =
      [if previousResult.isError then p else q] := by
  rw [liveOffsets_eq_singleton wf]
  constructor
  · intro w hw
    rw [List.mem_singleton.mp hw]
    split
    next => exact h.mem_left
    next => exact h.mem_right
  · intro w hw
    rw [List.mem_singleton]
    by_cases hp : w = p
    · subst hp
      rw [withHeaders_mem List.mem_cons_self, h.committed_old]
      cases previousResult.isError with
      | true => simp [show isRecordLive varIntV1Valid = true by decide]
      | false => simp [show isRecordLive varIntV1Invalid = false by decide, h.ne]
    · by_cases hq : w = q
      · subst hq
        rw [withHeaders_mem (by simp), h.committed_new]
        cases previousResult.isError with
        | true => simp [show isRecordLive varIntV1Invalid = false by decide, h.ne.symm]
        | false => simp [show isRecordLive varIntV1Valid = true by decide]
      · rw [withHeaders_not_mem (by simp [hp, hq]), h.live.live w hw]
        split <;> simp [hp, hq]

theorem Pair.committed_header (h : Pair this m p q) (previousResult : EfiStatus) :
    withHeaders m (committed m previousResult) [p, q] (if previousResult.isError then p else q) =
      varIntV1Valid := by
  cases hr : previousResult.isError with
  | true => exact h.old_kept hr _
  | false =>
    rw [if_neg (by decide), withHeaders_mem (by simp), h.committed_new, hr, if_neg (by decide)]

/-! The callbacks. -/

structure Idle (this : Protocol Store) (s : Driver) (m : Memory) (store : Store) (p : Nat) :
    Prop where
  sync : Synced this s m
  deferred : s.bootstrapDeferred = false
  shaped : Shaped this m
  settled : Settled this m store p

/-- The pre callback wrote nothing: the update is not measured, or its measurement is the
one the journal holds. -/
structure Unchanged (this : Protocol Store) (u : VariableUpdate) (s : Driver) (m : Memory)
    (store : Store) (p : Nat) : Prop where
  idle : Idle this s m store p
  clean : s.measurementDirty = false
  unwritten : s.preWrittenMeasurementPending = false
  zeroed : s.curMeasurement.header = 0
  why : isSkipped this store u = true ∨
    signedMeasurement this .v1 store (some u) = signedMeasurement this .v1 store none

structure Written (this : Protocol Store) (u : VariableUpdate) (s : Driver) (m : Memory)
    (store : Store) (p q : Nat) : Prop where
  sync : Synced this s m
  deferred : s.bootstrapDeferred = false
  pair : Pair this m p q
  payload_old : payloadAt this m p = signedMeasurement this .v1 store none
  payload_new : payloadAt this m q = signedMeasurement this .v1 store (some u)
  measured : isSkipped this store u = false
  dirty : s.measurementDirty = true
  prewritten : s.preWrittenMeasurementPending = true
  speculativeValid : s.speculativeMeasurementValid = true
  speculative : s.speculativeMeasurement =
    ⟨fvbErasedByte, signedMeasurement this .v1 store (some u)⟩
  current : s.curMeasurement = ⟨varIntV1Pending, signedMeasurement this .v1 store (some u)⟩

theorem Idle.liveAt (ready : Ready this) (h : Idle this s m store p) : LiveAt this m [p] :=
  (liveOffsets_eq_singleton (wellFormed_of_live ready h.settled.live)).mp h.settled.live

theorem wp_varPreSetCallback (ready : Ready this) (measures : Measures this)
    (hblocks : 2 ≤ this.slots.blockCount) (h : Idle this s m store p)
    (hC : ∀ image, Keeps this m p image → C image) :
    wp true (varPreSetCallback this store u)
      (fun status s' m' => status = .success ∧
        (Unchanged this u s' m' store p ∨ ∃ q, Written this u s' m' store p q)) C s m := by
  have wf := wellFormed_of_live ready h.settled.live
  have hlive := h.liveAt ready
  have hnow := hC m (.refl wf h.shaped hlive)
  unfold varPreSetCallback
  rw [wp_get_bind, h.deferred, if_neg (by decide)]
  apply wp_bind
  unfold varIntComputeMeasurement
  simp only [wp_modify_bind]
  by_cases hskip : isSkipped this store u = true
  · rw [if_pos hskip]
    simp only [wp_modify_bind, wp_pure, EfiStatus.isError_success, Bool.false_eq_true, if_false,
      wp_get_bind, clearSpeculativeMeasurement]
    refine ⟨hnow, hnow, trivial, .inl ⟨⟨h.sync, h.deferred, h.shaped, h.settled⟩, rfl, rfl, ?_,
      .inl hskip⟩⟩
    exact Measurement.zeroMem_header _
  · rw [if_neg hskip]
    apply wp_bind
    apply wp_computeCurrentMeasurement measures hnow
    simp only [EfiStatus.isError_success, Bool.false_eq_true, if_false, wp_modify_bind, wp_pure,
      wp_get_bind, if_true, clearSpeculativeMeasurement]
    refine ⟨hnow, ?_⟩
    apply wp_bind
    unfold varIntWriteMeasurement
    rw [wp_get_bind]
    apply wp_bind
    unfold writeMeasurement
    simp only [wp_get_bind, Bool.false_eq_true, if_false]
    apply wp_writePendingRecord ready wf (p := p)
    · exact h.sync
    · exact h.shaped
    · exact hlive
    · exact h.settled.header
    · exact hblocks
    · exact measures.length_signed _ _ _
    · exact hC
    · intro hsame
      simp only [EfiStatus.isError_success, Bool.false_and, Bool.false_eq_true, if_false, wp_pure,
        clearSpeculativeMeasurement]
      refine ⟨hnow, hnow, trivial, .inl ⟨⟨h.sync, h.deferred, h.shaped, h.settled⟩, rfl, rfl, ?_,
        .inr ?_⟩⟩
      · exact Measurement.zeroMem_header _
      · exact hsame.trans h.settled.payload_eq
    · intro _ q image partitionData happended hsync
      have himage := hC image (happended.keeps wf)
      simp only [EfiStatus.isError_success, Bool.false_and, Bool.false_eq_true, if_false, wp_pure]
      refine ⟨himage, himage, trivial, .inr ⟨q, hsync, h.deferred,
        happended.pair ready h.settled.header, ?_, happended.payload_eq,
        Bool.eq_false_iff.mpr hskip, rfl, rfl, rfl, rfl, rfl⟩⟩
      exact (happended.payload_old ready).trans h.settled.payload_eq

theorem fvbWrite_eq (h : s.curMeasurement.header ≠ fvbErasedByte) : fvbWrite s = s :=
  if_neg fun hand => h hand.1

/-- The end of the post callback without a pending record: nothing is committed. -/
theorem wp_cleanup_unchanged (h : Idle this s m store p)
    (unwritten : s.preWrittenMeasurementPending = false) (zeroed : s.curMeasurement.header = 0)
    {cleanupStatus : EfiStatus} (hC : C m) :
    wp true (do
        let status ← varIntInvalidateLast this u cleanupStatus
        modify fun s => { s with measurementDirty := false }
        pure status)
      (fun status s' m' => status = .success ∧ ∃ p', Idle this s' m' store p') C s m := by
  have hpending : isRecordPending s.curMeasurement.header = false := by
    rw [zeroed]
    decide
  apply wp_bind
  unfold varIntInvalidateLast varIntInvalidateLast.invalidate
  apply wp_bind
  rw [wp_get_bind, hpending, unwritten]
  simp only [Bool.not_false, Bool.and_self, if_true, ite_self, wp_pure, wp_modify_bind,
    clearSpeculativeMeasurement]
  exact ⟨hC, hC, hC, trivial, p, h.sync, h.deferred, h.shaped, h.settled⟩

theorem wp_finish_unchanged {op : SetOp Store} (h : Unchanged this op.update s m store p)
    (hsame : signedMeasurement this .v1 (op.next store) none =
      signedMeasurement this .v1 store none) (hC : C m) :
    wp true (finishSetVariable this store op)
      (fun status s' m' => status = .success ∧ ∃ p', Idle this s' m' (op.next store) p') C s m := by
  have hheader : s.curMeasurement.header ≠ fvbErasedByte := by
    rw [h.zeroed]
    decide
  have hidle : Idle this s m (op.next store) p :=
    ⟨h.idle.sync, h.idle.deferred, h.idle.shaped, h.idle.settled.live, h.idle.settled.header,
      h.idle.settled.payload_eq.trans hsame.symm⟩
  unfold finishSetVariable
  rw [wp_modify_bind, fvbWrite_eq hheader]
  unfold varPostSetCallback commitMeasurement
  rw [wp_get_bind, h.idle.deferred, if_neg (by decide)]
  apply wp_bind
  rw [wp_get_bind, h.clean, Bool.false_and, if_neg (by decide), wp_pure]
  exact ⟨hC, wp_cleanup_unchanged hidle h.unwritten h.zeroed hC⟩

theorem wp_varIntInvalidateLast (ready : Ready this) (pair : Pair this m p q)
    (sync : Synced this s m)
    (hnot : isExcludedVar this u.variableName u.vendorGuid = false)
    (hpending : s.curMeasurement.header = varIntV1Pending) {prevResult : EfiStatus}
    {Q : EfiStatus → Driver → Memory → Prop}
    (hC : ∀ xs, xs ⊆ [p, q] → C (withHeaders m (committed m prevResult) xs))
    (hQ : ∀ s', Synced this s' (withHeaders m (committed m prevResult) [p, q]) →
      s'.bootstrapDeferred = s.bootstrapDeferred →
      Q .success s' (withHeaders m (committed m prevResult) [p, q])) :
    wp true (varIntInvalidateLast this u prevResult) Q C s m := by
  have wf := ready.wellFormed_of_mem pair.mem_left
  unfold varIntInvalidateLast varIntInvalidateLast.invalidate
  apply wp_bind
  rw [wp_get_bind, hnot, hpending]
  simp only [show isRecordPending varIntV1Pending = true by decide, Bool.not_true, Bool.false_and,
    Bool.false_eq_true, if_false, wp_modify_bind]
  have hsync : Synced this { s with
    curMeasurement := { s.curMeasurement with
      header := setRecordStatePreserveVersion s.curMeasurement.header varIntValid } } m := sync
  apply wp_updateLiveMeasurementRecordStates ready wf hsync pair.live (by simpa using pair.ne)
    (Nat.le_refl 2) (by simp) hC
  intro partitionData hsync
  have hlast := hC [p, q] (List.Subset.refl _)
  simp only [wp_pure, clearSpeculativeMeasurement]
  exact ⟨hlast, hQ _ hsync rfl⟩

/-- Before an update that is measured, its variable is not an excluded one. -/
theorem not_excluded_of_measured (h : isSkipped this store u = false) :
    isExcludedVar this u.variableName u.vendorGuid = false := by
  rw [isSkipped, Bool.or_eq_false_iff, Bool.not_eq_false'] at h
  have hcan := h.1
  rw [canUpdateMeasurement] at hcan
  cases hexcluded : isExcludedVar this u.variableName u.vendorGuid with
  | false => rfl
  | true =>
    rw [hexcluded, if_pos rfl] at hcan
    exact absurd hcan (by decide)

/-- What every point of the post callback has in common: no third live record, and when
the committed measurement is the one written before the update, the store update stands
in the journal. -/
structure PostImage (this : Protocol Store) (store : Store) (op : SetOp Store) (image : Memory) :
    Prop where
  sound : Sound this image
  recoverable : (op.status.isError = false →
      signedMeasurement this .v1 store (some op.update) =
        signedMeasurement this .v1 op.result none) →
    Recoverable this (op.next store) image

theorem Pair.recover_old (wf : this.slots.WellFormed) (h : Pair this m p q) {result : EfiStatus}
    (herror : result.isError = true)
    (hpayload : payloadAt this m p = signedMeasurement this .v1 store none) {xs : List Nat}
    (hxs : xs ⊆ [p, q]) : Recoverable this store (withHeaders m (committed m result) xs) := by
  have hheader := h.old_kept herror xs
  have hslots : ∀ w ∈ xs, w ∈ this.slots.offsets := fun w hw => h.live.slots w (hxs hw)
  refine ⟨h.few wf hxs _, p, mem_liveOffsets.mpr ⟨h.mem_left, ?_⟩, ?_, ?_⟩
  · rw [hheader]
    decide
  · rw [hheader]
    decide
  · rw [payloadAt_withHeaders wf hslots h.mem_left]
    exact hpayload

theorem Pair.recover_new (wf : this.slots.WellFormed) (h : Pair this m p q) {result : EfiStatus}
    (hok : result.isError = false)
    (hpayload : payloadAt this m q = signedMeasurement this .v1 store none) {xs : List Nat}
    (hxs : xs ⊆ [p, q]) : Recoverable this store (withHeaders m (committed m result) xs) := by
  have hslots : ∀ w ∈ xs, w ∈ this.slots.offsets := fun w hw => h.live.slots w (hxs hw)
  refine ⟨h.few wf hxs _, q, mem_liveOffsets.mpr ⟨h.mem_right, ?_⟩, ?_, ?_⟩
  · rcases h.new_kept hok xs with hheader | hheader <;> rw [hheader] <;> decide
  · rcases h.new_kept hok xs with hheader | hheader <;> rw [hheader] <;> decide
  · rw [payloadAt_withHeaders wf hslots h.mem_right]
    exact hpayload

theorem Pair.settled (wf : this.slots.WellFormed) (h : Pair this m p q) (result : EfiStatus)
    (hpayload : payloadAt this m (if result.isError then p else q) =
      signedMeasurement this .v1 store none) :
    Settled this (withHeaders m (committed m result) [p, q]) store
      (if result.isError then p else q) := by
  refine ⟨h.committed_live wf result, h.committed_header result, ?_⟩
  rw [payloadAt_withHeaders wf h.live.slots]
  · exact hpayload
  · split
    next => exact h.mem_left
    next => exact h.mem_right

theorem wp_cleanup (ready : Ready this) (pair : Pair this m p q) (sync : Synced this s m)
    (deferred : s.bootstrapDeferred = false)
    (hnot : isExcludedVar this u.variableName u.vendorGuid = false)
    (hpending : s.curMeasurement.header = varIntV1Pending) {cleanupStatus : EfiStatus}
    (hpayload : payloadAt this m (if cleanupStatus.isError then p else q) =
      signedMeasurement this .v1 store none)
    (hC : ∀ xs, xs ⊆ [p, q] → C (withHeaders m (committed m cleanupStatus) xs)) :
    wp true (do
        let status ← varIntInvalidateLast this u cleanupStatus
        modify fun s => { s with measurementDirty := false }
        pure status)
      (fun status s' m' => status = .success ∧ ∃ p', Idle this s' m' store p') C s m := by
  have wf := ready.wellFormed_of_mem pair.mem_left
  apply wp_bind
  apply wp_varIntInvalidateLast ready pair sync hnot hpending hC
  intro s' hsync hdeferred
  simp only [wp_modify_bind, wp_pure]
  exact ⟨hC _ (List.Subset.refl _), trivial, _, hsync, hdeferred.trans deferred,
    (pair.sound wf (List.Subset.refl _) cleanupStatus).shaped, pair.settled wf cleanupStatus hpayload⟩

theorem postImage_of_error {op : SetOp Store} (herror : op.status.isError = true)
    (sound : Sound this image) (h : Recoverable this store image) :
    PostImage this store op image := by
  refine ⟨sound, fun _ => ?_⟩
  rw [SetOp.next, if_pos herror]
  exact h

theorem postImage_of_success {op : SetOp Store} (hok : op.status.isError = false)
    (sound : Sound this image) (h : Recoverable this op.result image) :
    PostImage this store op image := by
  refine ⟨sound, fun _ => ?_⟩
  rw [SetOp.next, hok, if_neg (by decide)]
  exact h

/-- When the committed measurement is another one, nothing is asked of the images but that
they can be read. -/
theorem postImage_of_mismatch {op : SetOp Store} (hok : op.status.isError = false)
    (hdiff : signedMeasurement this .v1 store (some op.update) ≠
      signedMeasurement this .v1 op.result none)
    (sound : Sound this image) : PostImage this store op image :=
  ⟨sound, fun h => absurd (h hok) hdiff⟩

/-- The comparison of the committed measurement with the one written before the update. -/
theorem wp_computeCommitted (measures : Measures this) (hsize : 8 ≤ getMeasurementPayloadSize this)
    (hvalid : s.speculativeMeasurementValid = true)
    {Q : EfiStatus → Driver → Memory → Prop} (hC : C m)
    (hQ : Q .success { s with
      curMeasurement := ⟨fvbErasedByte, signedMeasurement this .v1 store none⟩
      speculativeMeasurementValid := false
      speculativeMeasurement := .zeroMem this.measurementSize
      prePostComparisonValid := true
      prePostComparisonMatched := s.speculativeMeasurement.payload ==
        signedMeasurement this .v1 store none } m) :
    wp true (varIntComputeMeasurement this store none) Q C s m := by
  unfold varIntComputeMeasurement
  apply wp_bind
  apply wp_computeCurrentMeasurement measures hC
  simp only [EfiStatus.isError_success, Bool.false_eq_true, if_false, wp_modify_bind, wp_pure,
    logPrePostMeasurementCompare, hvalid, Bool.not_true, Nat.not_lt.mpr hsize,
    clearSpeculativeMeasurement]
  exact ⟨hC, hQ⟩

theorem Ready.payload_ge (ready : Ready this) : 8 ≤ getMeasurementPayloadSize this := by
  have := ready.size_ge
  rw [getMeasurementPayloadSize, headerSzBytes]
  omega

theorem wp_finish_written (ready : Ready this) (measures : Measures this)
    (hblocks : 2 ≤ this.slots.blockCount) {op : SetOp Store}
    (h : Written this op.update s m store p q) :
    wp true (finishSetVariable this store op)
      (fun status s' m' => status = .success ∧ ∃ p', Idle this s' m' (op.next store) p')
      (PostImage this store op) s m := by
  have wf := ready.wellFormed_of_mem h.pair.mem_left
  have hnot := not_excluded_of_measured h.measured
  have hheader : s.curMeasurement.header ≠ fvbErasedByte := by
    rw [h.current]
    exact (by decide : varIntV1Pending ≠ fvbErasedByte)
  unfold finishSetVariable
  rw [wp_modify_bind, fvbWrite_eq hheader]
  unfold varPostSetCallback
  rw [wp_get_bind, h.deferred, if_neg (by decide)]
  apply wp_bind
  unfold commitMeasurement
  rw [wp_get_bind, h.dirty, Bool.true_and]
  cases hstatus : op.status.isError with
  | true =>
    -- the store update failed
    have hnext : op.next store = store := if_pos hstatus
    have himage : ∀ xs, xs ⊆ [p, q] →
        PostImage this store op (withHeaders m (committed m op.status) xs) := fun xs hxs =>
      postImage_of_error hstatus (h.pair.sound wf hxs op.status)
        (h.pair.recover_old wf hstatus h.payload_old hxs)
    have hnow := himage [] (List.nil_subset _)
    rw [withHeaders_nil] at hnow
    rw [Bool.not_true, if_neg (by decide), wp_pure, hnext]
    refine ⟨hnow, ?_⟩
    refine wp_cleanup ready h.pair h.sync h.deferred hnot ?_ ?_ himage
    · rw [h.current]
    · rw [hstatus, if_pos rfl]
      exact h.payload_old
  | false =>
    have hnext : op.next store = op.result := by
      rw [SetOp.next, hstatus, if_neg (by decide)]
    rw [Bool.not_false, if_pos rfl, hnext]
    by_cases hsame : signedMeasurement this .v1 store (some op.update) =
        signedMeasurement this .v1 op.result none
    · -- the pending record is the committed measurement
      have hpayload := h.payload_new.trans hsame
      have himage : ∀ xs, xs ⊆ [p, q] →
          PostImage this store op (withHeaders m (committed m op.status) xs) := fun xs hxs =>
        postImage_of_success hstatus (h.pair.sound wf hxs op.status)
          (h.pair.recover_new wf hstatus hpayload hxs)
      have hnow := himage [] (List.nil_subset _)
      rw [withHeaders_nil] at hnow
      apply wp_bind
      apply wp_computeCommitted measures ready.payload_ge h.speculativeValid hnow
      rw [EfiStatus.isError_success, if_neg (by decide)]
      apply wp_bind
      unfold varIntWriteMeasurement writeMeasurement
      rw [wp_get_bind]
      apply wp_bind
      simp only [wp_get_bind, h.prewritten, h.speculative, hsame, beq_self_eq_true, Bool.not_true,
        Bool.false_eq_true, if_true, if_false, wp_modify_bind, wp_pure, EfiStatus.isError_success,
        Bool.false_and]
      refine ⟨hnow, hnow, hnow, ?_⟩
      refine wp_cleanup ready h.pair ?_ ?_ hnot ?_ ?_ himage
      · exact h.sync
      · exact h.deferred
      · rfl
      · rw [hstatus, if_neg (by decide)]
        exact hpayload
    · -- the pending record is dropped and the committed measurement written instead
      have himage : ∀ image, Sound this image → PostImage this store op image :=
        fun image sound => postImage_of_mismatch hstatus hsame sound
      have habort := fun xs (hxs : xs ⊆ [p, q]) =>
        himage _ (h.pair.sound wf hxs .aborted)
      have hnow := habort [] (List.nil_subset _)
      rw [withHeaders_nil] at hnow
      apply wp_bind
      apply wp_computeCommitted measures ready.payload_ge h.speculativeValid hnow
      rw [EfiStatus.isError_success, if_neg (by decide)]
      apply wp_bind
      unfold varIntWriteMeasurement writeMeasurement
      rw [wp_get_bind]
      apply wp_bind
      simp only [wp_get_bind, h.prewritten, h.speculative, beq_eq_false_iff_ne.mpr hsame,
        Bool.not_true, Bool.false_eq_true, if_true, if_false, ready.pool]
      apply wp_bind
      apply wp_updateLiveMeasurementRecordStates ready wf _ h.pair.live
        (by simpa using h.pair.ne) (Nat.le_refl 2) (by simp) habort
      · intro partitionData hsync
        have hsettled := h.pair.settled wf .aborted h.payload_old
        have hshaped := (h.pair.sound wf (List.Subset.refl _) .aborted).shaped
        have hlive := (liveOffsets_eq_singleton wf).mp hsettled.live
        simp only [EfiStatus.isError_success, Bool.false_eq_true, if_false, wp_modify_bind]
        apply wp_writePendingRecord ready wf _ hshaped hlive hsettled.header hblocks
          (measures.length_signed _ _ _) fun image hkeeps => himage image hkeeps.sound
        · intro hequal
          have hfew := habort _ (List.Subset.refl [p, q])
          simp only [EfiStatus.isError_success, Bool.false_and, Bool.false_eq_true, if_false, wp_pure]
          refine ⟨hfew, hfew, ?_⟩
          refine wp_cleanup_unchanged (p := p) ⟨?_, ?_, hshaped, hsettled.live, hsettled.header,
            hequal.symm⟩ ?_ ?_ hfew
          · exact hsync
          · exact h.deferred
          · rfl
          · exact Measurement.zeroMem_header _
        · intro _ q' image partitionData happended hsync
          have hpair := happended.pair ready hsettled.header
          have hfew := himage image (happended.keeps wf).sound
          simp only [EfiStatus.isError_success, Bool.false_and, Bool.false_eq_true, if_false, wp_pure]
          refine ⟨hfew, hfew, ?_⟩
          refine wp_cleanup ready hpair ?_ ?_ hnot ?_ ?_ ?_
          · exact hsync
          · exact h.deferred
          · rfl
          · rw [hstatus, if_neg (by decide)]
            exact happended.payload_eq
          · exact fun xs hxs => himage _ (hpair.sound wf hxs _)
        · exact hsync
      · exact h.sync

end

end VarInt
