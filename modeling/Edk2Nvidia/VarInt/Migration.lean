import Edk2Nvidia.VarInt.Validation

/-! The migration of a V0 record, step by step: what `VarIntValidate` leaves, and what a
power loss leaves on the way. -/
namespace VarInt
open Flash

section
variable {Store : Type} {this : Protocol Store} {s : Driver} {m image : Memory} {store : Store}
  {total : Bool} {C : Memory → Prop} {r : Nat} {payload : List UInt8}

/-- What the migration writes as the payload of the new record: the shared page, which FF-A
has signed a second time. -/
def migratedPayload (this : Protocol Store) (store : Store) : List UInt8 :=
  if this.isOpteePresent then signedMeasurement this .v1 store none
  else this.sign (signedMeasurement this .v1 store none)

def pendingImage (this : Protocol Store) (m : Memory) (payload : List UInt8) : Memory :=
  program (prepared this m) (writeSlot this m) (varIntV1Pending :: payload)

def validImage (this : Protocol Store) (m : Memory) (payload : List UInt8) : Memory :=
  program (pendingImage this m payload) (writeSlot this m) [varIntV1Valid]

/-- The records that were live in the slots `ws` are invalidated, whatever stands there
by now. -/
def dropped (m image : Memory) (ws : List Nat) : Memory :=
  withHeaders image
    (fun w => image w &&& setRecordStatePreserveVersion (m w) varIntInvalid) ws

theorem dropped_append (m image : Memory) (ws : List Nat) (w : Nat) :
    program (dropped m image ws) w [setRecordStatePreserveVersion (m w) varIntInvalid] =
      dropped m image (ws ++ [w]) := by
  funext a
  rw [program_byte]
  simp only [dropped, withHeaders, List.mem_append, List.mem_singleton]
  by_cases hmem : a ∈ ws
  · simp only [hmem, true_or, if_true]
    by_cases heq : a = w
    · rw [if_pos heq, heq, UInt8.and_assoc, UInt8.and_self]
    · rw [if_neg heq]
  · simp only [hmem, false_or, if_false]
    by_cases heq : a = w
    · rw [if_pos heq, if_pos heq, heq]
    · rw [if_neg heq, if_neg heq]

theorem dropped_append_mem {ws : List Nat} {w : Nat} (h : w ∈ ws) :
    dropped m image (ws ++ [w]) = dropped m image ws := by
  funext a
  have hmem : a ∈ ws ++ [w] ↔ a ∈ ws := by
    rw [List.mem_append, List.mem_singleton]
    exact ⟨fun ha => ha.elim id fun heq => heq ▸ h, .inl⟩
  simp only [dropped, withHeaders, hmem]

theorem and_invalid_not_live {header : UInt8} (h : isRecordLive header = true) (b : UInt8) :
    isRecordLive (b &&& setRecordStatePreserveVersion header varIntInvalid) = false := by
  have hbit : setRecordStatePreserveVersion header varIntInvalid &&& 4 = 0 := by
    rcases isRecordLive_cases h with rfl | rfl | rfl | rfl <;> decide
  rw [Bool.eq_false_iff]
  intro hlive
  have hzero : (b &&& setRecordStatePreserveVersion header varIntInvalid) &&& 4 = 0 := by
    rw [UInt8.and_assoc, hbit, UInt8.and_zero]
  rcases isRecordLive_cases hlive with heq | heq | heq | heq <;> rw [heq] at hzero <;>
    exact absurd hzero (by decide)

/-! The programs. -/

theorem wp_dropRecord (ready : Ready this) {w : Nat} {header : UInt8}
    (hw : w ∈ this.slots.offsets) {Q : EfiStatus → Driver → Memory → Prop} (hC : C image)
    (hC' : C (program image w [header])) (hQ : ∀ s, Q .success s (program image w [header])) :
    wp total (partitionWrite this w [header]) Q C s image := by
  obtain ⟨lo, hi⟩ := slot_pos ready hw
  have hpos : 0 < [header].length := Nat.zero_lt_one
  apply wp_partitionWrite_any ready hpos lo hi
  · intro j
    cases j with
    | zero => simpa using hC
    | succ j => simpa using hC'
  · exact hQ _

/-- `FinalizeValidatedRecords` behind a migration: every record that was live is dropped but
the migrated one, which is dropped already. -/
theorem wp_finalizeValidatedRecords_dropped (ready : Ready this) {migrated : MeasureRec}
    (hheader : isRecordLive migrated.measurement.header = false) {before ws : List Nat}
    (hr : r ∈ before) (hws : ws ⊆ liveOffsets this m)
    {Q : EfiStatus → Driver → Memory → Prop}
    (hC : ∀ xs, xs ⊆ before ++ ws → C (dropped m image xs))
    (hQ : ∀ s, Q .success s (dropped m image (before ++ ws))) :
    wp total (finalizeValidatedRecords this none
      (ws.map fun w => if w = r then migrated else recordAt this m w) .success) Q C s
      (dropped m image before) := by
  induction ws generalizing before s with
  | nil =>
    rw [List.append_nil] at hC hQ
    rw [List.map_nil, finalizeValidatedRecords, wp_pure]
    exact ⟨hC before (List.Subset.refl _), hQ s⟩
  | cons w rest ih =>
    have hslot := mem_liveOffsets.mp (hws List.mem_cons_self)
    have hassoc : before ++ w :: rest = before ++ [w] ++ rest := List.append_cons _ _ _
    have hnow := hC before (List.subset_append_left _ _)
    have hone : C (dropped m image (before ++ [w])) := by
      apply hC
      rw [hassoc]
      exact List.subset_append_left _ _
    rw [hassoc] at hC hQ
    have hrest := fun s => ih (s := s) (List.mem_append_left _ hr)
      (fun x hx => hws (List.mem_cons_of_mem _ hx)) hC hQ
    rw [List.map_cons, finalizeValidatedRecords]
    by_cases hwr : w = r
    · have hsame : finalHeader migrated.measurement.header (none == some migrated.byteOffset) =
          migrated.measurement.header := by
        rw [finalHeader, hheader]
        rfl
      rw [dropped_append_mem (hwr ▸ hr)] at hrest
      rw [if_pos hwr, hsame]
      simp only [if_true]
      exact hrest s
    · have hlive : finalHeader (recordAt this m w).measurement.header
          (none == some (recordAt this m w).byteOffset) =
            setRecordStatePreserveVersion (m w) varIntInvalid := by
        have hold : (recordAt this m w).measurement.header = m w := rfl
        rw [finalHeader, hold, hslot.2]
        rfl
      have hchanges : setRecordStatePreserveVersion (m w) varIntInvalid ≠
          (recordAt this m w).measurement.header := by
        intro heq
        have hdead := invalid_not_live hslot.2
        rw [heq] at hdead
        exact absurd (hdead.symm.trans hslot.2) (by decide)
      rw [if_neg hwr, hlive]
      simp only [if_neg hchanges]
      apply wp_bind
      apply wp_dropRecord ready hslot.1 hnow
      · rw [dropped_append]
        exact hone
      · intro s
        rw [dropped_append, EfiStatus.isError_success, if_neg (by decide)]
        exact hrest s

/-- What a power loss can leave of a migration. -/
inductive MigrationImage (this : Protocol Store) (m : Memory) (payload : List UInt8) :
    Memory → Prop
  | start : MigrationImage this m payload m
  | erased : MigrationImage this m payload (prepared this m)
  | cut (j : Nat) : MigrationImage this m payload
      (program (prepared this m) (writeSlot this m) ((varIntV1Pending :: payload).take j))
  | dropped {ws : List Nat} (live : ws ⊆ liveOffsets this m) :
      MigrationImage this m payload (dropped m (validImage this m payload) ws)

theorem wp_migrateV0RecordToV1 (ready : Ready this) (wf : this.slots.WellFormed)
    (sync : Synced this s m) (hr : r ∈ liveOffsets this m) (hv0 : isRecordV0 (m r) = true)
    (hlen : s.curMeasurement.payload.length = getMeasurementPayloadSize this)
    {Q : EfiStatus × MeasureRec → Driver → Memory → Prop}
    (hC : ∀ image, MigrationImage this m s.curMeasurement.payload image → C image)
    (hQ : ∀ s', Q (.success, { recordAt this m r with
      measurement := { (recordAt this m r).measurement with
        header := setRecordStatePreserveVersion (m r) varIntInvalid } }) s'
      (dropped m (validImage this m s.curMeasurement.payload) [r])) :
    wp total (migrateV0RecordToV1 this (recordAt this m r)) Q C s m := by
  have hslot := (mem_liveOffsets.mp hr).1
  have hheader : (recordAt this m r).measurement.header = m r := rfl
  have hoffset : (recordAt this m r).byteOffset = r := rfl
  have hfull := ready.record_length varIntV1Pending hlen
  have hq := writeSlot_mem (m := m) ready wf
  obtain ⟨lo, hi⟩ := ready.slot_inside hq
  have hcut : ∀ j, C (program (prepared this m) (writeSlot this m)
      ((varIntV1Pending :: s.curMeasurement.payload).take j)) := fun j => hC _ (.cut j)
  have hsub : [r] ⊆ liveOffsets this m := by
    intro w hw
    rw [List.mem_singleton.mp hw]
    exact hr
  have hpending : C (pendingImage this m s.curMeasurement.payload) := by
    have := hcut this.measurementSize
    rwa [List.take_of_length_le (Nat.le_of_eq hfull)] at this
  have hvalid : C (validImage this m s.curMeasurement.payload) := by
    have := hC _ (.dropped (List.nil_subset _))
    rwa [dropped, withHeaders_nil] at this
  have hdropped : program (validImage this m s.curMeasurement.payload) r
      [setRecordStatePreserveVersion (m r) varIntInvalid] =
        dropped m (validImage this m s.curMeasurement.payload) [r] := by
    have := dropped_append m (validImage this m s.curMeasurement.payload) [] r
    rwa [List.nil_append, dropped, withHeaders_nil] at this
  unfold migrateV0RecordToV1
  rw [hheader, hv0, hoffset]
  simp only [Bool.not_true, Bool.false_eq_true, if_false]
  apply wp_bind
  apply wp_getWriteOffset ready wf sync (hC _ .start) (hC _ .erased)
  intro partitionData hsync
  simp only [EfiStatus.isError_success, Bool.false_eq_true, if_false, wp_modify_bind, wp_get_bind,
    Measurement.bytes]
  apply wp_bind
  apply wp_partitionWrite_any ready (by rw [hfull]; have := ready.size_ge; omega) lo
    (by rw [hfull]; exact hi) hcut
  simp only [EfiStatus.isError_success, Bool.false_eq_true, if_false, wp_modify_bind]
  apply wp_bind
  apply wp_dropRecord ready hq hpending hvalid
  intro s'
  simp only [EfiStatus.isError_success, Bool.false_eq_true, if_false]
  apply wp_bind
  apply wp_dropRecord ready hslot hvalid
  · rw [hdropped]
    exact hC _ (.dropped hsub)
  · intro s''
    rw [hdropped, wp_pure]
    exact ⟨hC _ (.dropped hsub), hQ s''⟩

theorem Measures.length_migrated (measures : Measures this) (store : Store) :
    (migratedPayload this store).length = getMeasurementPayloadSize this := by
  have hsigned := measures.length_signed .v1 store none
  unfold migratedPayload
  split
  next => exact hsigned
  next => rw [measures.sign_length, hsigned]

theorem cons_subset_live (hr : r ∈ liveOffsets this m) :
    r :: liveOffsets this m ⊆ liveOffsets this m := by
  intro w hw
  rcases List.mem_cons.mp hw with rfl | hmem
  · exact hr
  · exact hmem

/-- The check with a V0 record that matches, and none of the current version: what it
leaves. -/
theorem wp_validateRecords_migrates (ready : Ready this) (wf : this.slots.WellFormed)
    (measures : Measures this) (sync : Synced this s m)
    (hfew : (liveOffsets this m).length ≤ maxValidRecords)
    (hv1 : findMatch ((liveOffsets this m).map (recordAt this m)) isRecordV1
      (signedMeasurement this .v1 store none) = none)
    (hv0 : findMatch ((liveOffsets this m).map (recordAt this m)) isRecordV0
      (comparedV0 this store) = some (recordAt this m r))
    (hr : r ∈ liveOffsets this m)
    (hC : ∀ image, MigrationImage this m (migratedPayload this store) image → C image) :
    wp true (validateRecords this store)
      (fun result _ m' => result = (true, .success) ∧
        m' = dropped m (validImage this m (migratedPayload this store)) (r :: liveOffsets this m))
      C s m := by
  have hnow := hC _ .start
  have hnonempty : ((liveOffsets this m).map (recordAt this m)).isEmpty = false := by
    rw [List.isEmpty_map, List.isEmpty_eq_false_iff]
    exact List.ne_nil_of_mem hr
  have hversion : isRecordV0 (m r) = true := by
    have hfound := List.find?_some hv0
    rw [Bool.and_eq_true] at hfound
    exact hfound.1
  unfold validateRecords
  apply wp_bind
  apply wp_computeCurrentMeasurement measures hnow
  simp only [EfiStatus.isError_success, Bool.false_eq_true, if_false]
  have hsync : Synced this { s with
    curMeasurement := ⟨fvbErasedByte, signedMeasurement this .v1 store none⟩ } m := sync
  refine (getLastValidMeasurements_eq ready wf hsync hfew).wp_bind ?_
  simp only [EfiStatus.isError_success, hnonempty, Bool.false_eq_true, if_false, wp_get_bind, hv1]
  apply wp_bind
  apply wp_computeIntoCurMeas measures hnow
  have hcompared : (if this.isOpteePresent = true then signedMeasurement this .v0 store none
      else measurementOf this .v0 store none) = comparedV0 this store := rfl
  simp only [EfiStatus.isError_success, Bool.false_eq_true, if_false, wp_get_bind, hcompared, hv0]
  apply wp_bind
  have hpage : (if this.isOpteePresent = true then
      (⟨fvbErasedByte, signedMeasurement this .v1 store none⟩ : Measurement)
    else ⟨fvbErasedByte, this.sign (signedMeasurement this .v1 store none)⟩) =
      ⟨fvbErasedByte, migratedPayload this store⟩ := by
    unfold migratedPayload
    split <;> rfl
  rw [hpage]
  apply wp_migrateV0RecordToV1 ready wf _ hr hversion (measures.length_migrated store) hC
  · intro s'
    simp only [EfiStatus.isError_success, Bool.false_eq_true, if_false]
    apply wp_bind
    rw [List.map_map]
    apply wp_finalizeValidatedRecords_dropped ready (invalid_not_live (mem_liveOffsets.mp hr).2)
      List.mem_cons_self (List.Subset.refl _)
    · exact fun xs hxs => hC _ (.dropped (List.Subset.trans hxs (cons_subset_live hr)))
    · intro s''
      rw [wp_pure]
      exact ⟨hC _ (.dropped (cons_subset_live hr)), rfl, rfl⟩
  · exact sync

theorem wp_varIntValidate_migrates (ready : Ready this) (wf : this.slots.WellFormed)
    (measures : Measures this) (sync : Synced this s m)
    (hfew : (liveOffsets this m).length ≤ maxValidRecords)
    (hv1 : findMatch ((liveOffsets this m).map (recordAt this m)) isRecordV1
      (signedMeasurement this .v1 store none) = none)
    (hv0 : findMatch ((liveOffsets this m).map (recordAt this m)) isRecordV0
      (comparedV0 this store) = some (recordAt this m r))
    (hr : r ∈ liveOffsets this m)
    (hC : ∀ image, MigrationImage this m (migratedPayload this store) image → C image) :
    wp true (varIntValidate this store)
      (fun status _ m' => status = .success ∧
        m' = dropped m (validImage this m (migratedPayload this store)) (r :: liveOffsets this m))
      C s m := by
  obtain ⟨hslot, hlive⟩ := mem_liveOffsets.mp hr
  obtain ⟨lo, hi⟩ := slot_pos ready hslot
  unfold varIntValidate
  rw [wp_modify_bind]
  refine (isMeasurementPartitionErasedOrZero_eq ready lo hi (header_not_blank hlive)).wp_bind ?_
  simp only [Bool.false_eq_true, if_false]
  have hsync : Synced this { s with bootstrapDeferred := false, measurementDirty := false } m := sync
  apply wp_bind
  refine wp_post (wp_validateRecords_migrates ready wf measures hsync hfew hv1 hv0 hr hC) ?_
  rintro _ s' _ ⟨rfl, rfl⟩
  simp only [if_true, wp_pure_bind, wp_modify_bind, wp_pure]
  exact ⟨hC _ (.dropped (cons_subset_live hr)), trivial, trivial⟩

/-! Power is lost while the new record is programmed. -/

theorem powerLoss_migrate_cut (ready : Ready this) (wf : this.slots.WellFormed)
    (sync : Synced this s m) (hv0 : isRecordV0 (m r) = true)
    (hlen : s.curMeasurement.payload.length = getMeasurementPayloadSize this) (j : Nat) :
    (migrateV0RecordToV1 this (recordAt this m r) s).PowerLoss m
      (program (prepared this m) (writeSlot this m)
        ((varIntV1Pending :: s.curMeasurement.payload).take j)) := by
  have hheader : (recordAt this m r).measurement.header = m r := rfl
  have hfull := ready.record_length varIntV1Pending hlen
  obtain ⟨lo, hi⟩ := ready.slot_inside (writeSlot_mem (m := m) ready wf)
  have hoffset : wp true (getWriteOffset this)
      (fun result s' m' => result = (.success, writeSlot this m) ∧
        s'.curMeasurement = s.curMeasurement ∧ m' = prepared this m) (fun _ => True) s m :=
    wp_getWriteOffset ready wf sync trivial trivial fun _ _ => ⟨rfl, rfl, rfl⟩
  obtain ⟨_, s', _, hrun, rfl, hmeasurement, rfl⟩ := wp_total hoffset
  rw [← hmeasurement] at hfull ⊢
  unfold migrateV0RecordToV1
  rw [hheader, hv0]
  rw [Bool.not_true, if_neg (by decide)]
  apply powerLoss_bind_right hrun
  dsimp only
  rw [EfiStatus.isError_success, if_neg (by decide), powerLoss_modify_bind, powerLoss_get_bind]
  apply powerLoss_bind_left
  have hsize := ready.size_ge
  have hpos : 0 < (varIntV1Pending :: s'.curMeasurement.payload).length := by
    rw [hfull]
    omega
  rw [← hfull] at hi
  exact powerLoss_partitionWrite ready hpos lo hi j

theorem powerLoss_varIntValidate_cut (ready : Ready this) (wf : this.slots.WellFormed)
    (measures : Measures this) (sync : Synced this s m)
    (hfew : (liveOffsets this m).length ≤ maxValidRecords)
    (hv1 : findMatch ((liveOffsets this m).map (recordAt this m)) isRecordV1
      (signedMeasurement this .v1 store none) = none)
    (hv0 : findMatch ((liveOffsets this m).map (recordAt this m)) isRecordV0
      (comparedV0 this store) = some (recordAt this m r))
    (hr : r ∈ liveOffsets this m) (j : Nat) :
    (varIntValidate this store s).PowerLoss m
      (program (prepared this m) (writeSlot this m)
        ((varIntV1Pending :: migratedPayload this store).take j)) := by
  obtain ⟨hslot, hlive⟩ := mem_liveOffsets.mp hr
  obtain ⟨lo, hi⟩ := slot_pos ready hslot
  have hnonempty : ((liveOffsets this m).map (recordAt this m)).isEmpty = false := by
    rw [List.isEmpty_map, List.isEmpty_eq_false_iff]
    exact List.ne_nil_of_mem hr
  have hversion : isRecordV0 (m r) = true := by
    have hfound := List.find?_some hv0
    rw [Bool.and_eq_true] at hfound
    exact hfound.1
  unfold varIntValidate
  rw [powerLoss_modify_bind]
  have hsync : Synced this { s with bootstrapDeferred := false, measurementDirty := false } m := sync
  generalize ({ s with bootstrapDeferred := false, measurementDirty := false } : Driver) = s at hsync ⊢
  refine (isMeasurementPartitionErasedOrZero_eq ready lo hi
    (header_not_blank hlive)).powerLoss_bind ?_
  rw [if_neg (by decide)]
  apply powerLoss_bind_left
  -- the measurement of the current version is computed
  have hcompute : wp true (computeCurrentMeasurement this store none .v1 .curMeasurement)
      (fun status s' m' => status = .success ∧ m' = m ∧ Synced this s' m ∧
        s'.curMeasurement = ⟨fvbErasedByte, signedMeasurement this .v1 store none⟩)
      (fun _ => True) s m :=
    wp_computeCurrentMeasurement measures trivial ⟨rfl, rfl, hsync, rfl⟩
  obtain ⟨_, s₁, m₁, hrun, rfl, hm₁, hsync₁, hmeasurement⟩ := wp_total hcompute
  subst hm₁
  unfold validateRecords
  apply powerLoss_bind_right hrun
  rw [EfiStatus.isError_success, if_neg (by decide)]
  refine (getLastValidMeasurements_eq ready wf hsync₁ hfew).powerLoss_bind ?_
  dsimp only
  rw [EfiStatus.isError_success, if_neg (by decide), hnonempty, if_neg (by decide),
    powerLoss_get_bind, hmeasurement, hv1]
  -- and the old one, into the other buffer
  have hcompute : wp true (computeCurrentMeasurement this store none .v0 .curMeas)
      (fun status s' m' => status = .success ∧ m' = m₁ ∧ Synced this s' m₁ ∧
        s'.curMeas.payload = comparedV0 this store ∧
        s'.curMeasurement.payload = migratedPayload this store) (fun _ => True) s₁ m₁ := by
    apply wp_computeIntoCurMeas measures trivial
    refine ⟨rfl, rfl, hsync₁, rfl, ?_⟩
    rw [hmeasurement]
    unfold migratedPayload
    split <;> rfl
  obtain ⟨_, s₂, m₂, hrun, rfl, hm₂, hsync₂, hcompared, hpage⟩ := wp_total hcompute
  subst hm₂
  apply powerLoss_bind_right hrun
  rw [EfiStatus.isError_success, if_neg (by decide), powerLoss_get_bind, hcompared, hv0]
  apply powerLoss_bind_left
  rw [← hpage]
  apply powerLoss_migrate_cut ready wf hsync₂ hversion
  rw [hpage]
  exact measures.length_migrated store

end

end VarInt
