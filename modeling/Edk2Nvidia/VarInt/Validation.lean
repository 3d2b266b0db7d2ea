import Edk2Nvidia.VarInt.Operations
import Edk2Nvidia.VarInt.SetCallbacks

/-! The check at boot: which records it accepts, and what it leaves of the journal. -/
namespace VarInt
open Flash

section
variable {Store : Type} {this : Protocol Store} {s : Driver} {m : Memory} {store : Store}
  {total : Bool} {C : Memory → Prop}

/-- The journal holds one live record, a valid one of the current version, and it is the
signed measurement of the store. -/
structure Settled (this : Protocol Store) (m : Memory) (store : Store) (p : Nat) : Prop where
  live : liveOffsets this m = [p]
  header : m p = varIntV1Valid
  payload_eq : payloadAt this m p = signedMeasurement this .v1 store none

/-- A record the check accepts for the store. -/
def Accepted (this : Protocol Store) (m : Memory) (store : Store) (p : Nat) : Prop :=
  isRecordV1 (m p) = true ∧ payloadAt this m p = signedMeasurement this .v1 store none

/-- The check finds its record: there is an accepted one and the journal can be read. -/
structure Recoverable (this : Protocol Store) (store : Store) (m : Memory) : Prop where
  few : (liveOffsets this m).length ≤ maxValidRecords
  found : ∃ p ∈ liveOffsets this m, Accepted this m store p

theorem Settled.accepted {p : Nat} (h : Settled this m store p) :
    p ∈ liveOffsets this m ∧ Accepted this m store p := by
  refine ⟨h.live ▸ List.mem_singleton_self p, ?_, h.payload_eq⟩
  rw [h.header]
  decide

theorem Settled.recoverable {p : Nat} (h : Settled this m store p) : Recoverable this store m :=
  ⟨h.live ▸ Nat.le_succ 1, p, h.accepted⟩

theorem wellFormed_of_live (ready : Ready this) {p : Nat} (h : liveOffsets this m = [p]) :
    this.slots.WellFormed :=
  ready.wellFormed_of_mem (mem_liveOffsets.mp (h ▸ List.mem_cons_self)).1

/-- In `CurMeas` only OP-TEE signs what was computed; the other transport signs the shared
page once more instead. -/
theorem wp_computeIntoCurMeas (measures : Measures this) {version : RecordVersion}
    {update : Option VariableUpdate} {Q : EfiStatus → Driver → Memory → Prop} (hC : C m)
    (hQ : Q .success { s with
      curMeas := ⟨fvbErasedByte,
        if this.isOpteePresent then signedMeasurement this version store update
        else measurementOf this version store update⟩
      curMeasurement := if this.isOpteePresent then s.curMeasurement
        else { s.curMeasurement with payload := this.sign s.curMeasurement.payload } } m) :
    wp total (computeCurrentMeasurement this store update version .curMeas) Q C s m := by
  unfold computeCurrentMeasurement
  rw [wp_modify_bind, measures.compute_eq]
  simp only [wp_modify_bind]
  apply wp_bind
  unfold sendOpteeCmd
  by_cases hoptee : this.isOpteePresent = true
  · simp only [if_pos hoptee] at hQ ⊢
    simp only [wp_modify_bind, wp_pure, EfiStatus.isError_success, Bool.false_eq_true, if_false]
    exact ⟨hC, hC, hQ⟩
  · simp only [if_neg hoptee] at hQ ⊢
    simp only [wp_modify_bind, wp_pure, EfiStatus.isError_success, Bool.false_eq_true, if_false]
    exact ⟨hC, hC, hQ⟩

theorem findMatch_cases (this : Protocol Store) (m : Memory) (ws : List Nat)
    (isVersion : UInt8 → Bool) (payload : List UInt8) :
    (∃ w ∈ ws, findMatch (ws.map (recordAt this m)) isVersion payload = some (recordAt this m w) ∧
      isVersion (m w) = true ∧ payloadAt this m w = payload) ∨
    findMatch (ws.map (recordAt this m)) isVersion payload = none ∧
      ∀ w ∈ ws, isVersion (m w) = true → payloadAt this m w ≠ payload := by
  unfold findMatch
  rw [List.find?_map]
  cases hfind : ws.find? ((fun record => isVersion record.measurement.header &&
      payload == record.measurement.payload) ∘ recordAt this m) with
  | some w =>
    have hw := List.find?_some hfind
    simp only [Function.comp, Bool.and_eq_true, beq_iff_eq] at hw
    exact .inl ⟨w, List.mem_of_find?_eq_some hfind, rfl, hw.1, hw.2.symm⟩
  | none =>
    refine .inr ⟨rfl, fun w hw hversion hpayload => ?_⟩
    have hnone := List.find?_eq_none.mp hfind w hw
    simp only [Function.comp, Bool.and_eq_true, beq_iff_eq, not_and] at hnone
    exact hnone hversion hpayload.symm

theorem findMatch_accepted {ws : List Nat} {p : Nat} (hp : p ∈ ws)
    (haccept : Accepted this m store p) :
    ∃ q ∈ ws, Accepted this m store q ∧
      findMatch (ws.map (recordAt this m)) isRecordV1 (signedMeasurement this .v1 store none) =
        some (recordAt this m q) := by
  rcases findMatch_cases this m ws isRecordV1
    (signedMeasurement this .v1 store none) with ⟨q, hq, hfind, hversion, hpayload⟩ | ⟨-, hnone⟩
  · exact ⟨q, hq, ⟨hversion, hpayload⟩, hfind⟩
  · exact absurd haccept.2 (hnone p hp haccept.1)

theorem finalized_settled (wf : this.slots.WellFormed) {ps : List Nat} (hlive : LiveAt this m ps)
    {q : Nat} (hq : q ∈ ps) (haccept : Accepted this m store q) :
    Settled this (withHeaders m (finalized m (some q)) ps) store q := by
  have hqlive := hlive.header hq
  have hheader : finalized m (some q) q = varIntV1Valid := by
    rw [finalized, beq_self_eq_true]
    have hv1 := haccept.1
    rcases isRecordLive_cases hqlive with h | h | h | h <;> rw [h] at hv1 ⊢
    · exact absurd hv1 (by decide)
    · decide
    · exact absurd hv1 (by decide)
    · decide
  refine ⟨(liveOffsets_eq_singleton wf).mpr ⟨?_, ?_⟩, ?_, ?_⟩
  · intro w hw
    rw [List.mem_singleton.mp hw]
    exact hlive.slots q hq
  · intro w hw
    rw [List.mem_singleton]
    by_cases hmem : w ∈ ps
    · rw [withHeaders_mem hmem]
      by_cases hwq : w = q
      · rw [hwq, hheader]
        simp only [iff_true]
        decide
      · have hdead : finalized m (some q) w =
            setRecordStatePreserveVersion (m w) varIntInvalid := by
          rw [finalized, finalHeader, if_pos (hlive.header hmem), if_neg (by simpa using Ne.symm hwq)]
        rw [hdead, invalid_not_live (hlive.header hmem)]
        simp [hwq]
    · rw [withHeaders_not_mem hmem, hlive.live w hw]
      have hwq : w ≠ q := fun h => hmem (h ▸ hq)
      simp [hmem, hwq]
  · rw [withHeaders_mem hq, hheader]
  · rw [payloadAt_withHeaders wf hlive.slots (hlive.slots q hq)]
    exact haccept.2

theorem finalHeader_ne_erased {header : UInt8} (h : isRecordLive header = true) (keep : Bool) :
    finalHeader header keep ≠ fvbErasedByte := by
  rcases isRecordLive_cases h with rfl | rfl | rfl | rfl <;> cases keep <;> decide

theorem finalized_shaped (wf : this.slots.WellFormed) (shaped : Shaped this m)
    (keepRecord : Option Nat) :
    Shaped this (withHeaders m (finalized m keepRecord) (liveOffsets this m)) :=
  shaped.withHeaders wf (liveAt_liveOffsets this m).slots
    (fun _ hw => (mem_liveOffsets.mp hw).2)
    fun _ hw => finalHeader_ne_erased (mem_liveOffsets.mp hw).2 _

theorem header_not_blank {p : Nat} (h : isRecordLive (m p) = true) :
    m p ≠ fvbErasedByte ∧ m p ≠ 0 := by
  refine ⟨isRecordLive_ne_erased h, ?_⟩
  rcases isRecordLive_cases h with h | h | h | h <;> rw [h] <;> decide

theorem wp_validateRecords (ready : Ready this) (measures : Measures this)
    (sync : Synced this s m) (h : Recoverable this store m) :
    wp true (validateRecords this store)
      (fun r s' m' => r = (true, .success) ∧ s'.bootstrapDeferred = s.bootstrapDeferred ∧
        Synced this s' m' ∧ (Shaped this m → Shaped this m') ∧ ∃ p, Settled this m' store p)
      (fun _ => True) s m := by
  obtain ⟨p, hp, haccept⟩ := h.found
  have wf := ready.wellFormed_of_mem (mem_liveOffsets.mp hp).1
  have hnonempty : ((liveOffsets this m).map (recordAt this m)).isEmpty = false := by
    rw [List.isEmpty_map, List.isEmpty_eq_false_iff]
    exact List.ne_nil_of_mem hp
  obtain ⟨q, hq, hqaccept, hfind⟩ := findMatch_accepted hp haccept
  have hstart := withHeaders_nil m (finalized m (some q))
  unfold validateRecords
  apply wp_bind
  apply wp_computeCurrentMeasurement measures trivial
  simp only [EfiStatus.isError_success, Bool.false_eq_true, if_false]
  have hsync : Synced this { s with
    curMeasurement := ⟨fvbErasedByte, signedMeasurement this .v1 store none⟩ } m := sync
  refine (getLastValidMeasurements_eq ready wf hsync h.few).wp_bind ?_
  simp only [EfiStatus.isError_success, hnonempty, Bool.false_eq_true, if_false, wp_get_bind, hfind]
  apply wp_bind
  rw [← hstart]
  apply wp_finalizeValidatedRecords (m := m) ready (by rw [hstart]; exact hsync)
    (liveAt_liveOffsets this m).slots (nodup_liveOffsets wf m)
    (fun w hw => finalHeader_clears (mem_liveOffsets.mp hw).2 _) (fun _ => trivial)
  intro partitionData hsync
  rw [List.nil_append] at hsync ⊢
  rw [wp_pure]
  exact ⟨trivial, rfl, rfl, hsync, fun shaped => finalized_shaped wf shaped _, q,
    finalized_settled wf (liveAt_liveOffsets this m) hq hqaccept⟩

theorem wp_varIntValidate (ready : Ready this) (measures : Measures this)
    (sync : Synced this s m) (h : Recoverable this store m) :
    wp true (varIntValidate this store)
      (fun status s' m' => status = .success ∧ s'.bootstrapDeferred = false ∧ Synced this s' m' ∧
        (Shaped this m → Shaped this m') ∧ ∃ p, Settled this m' store p) (fun _ => True) s m := by
  obtain ⟨p, hp, -⟩ := h.found
  obtain ⟨hslot, hlive⟩ := mem_liveOffsets.mp hp
  obtain ⟨lo, hi⟩ := slot_pos ready hslot
  unfold varIntValidate
  rw [wp_modify_bind]
  refine (isMeasurementPartitionErasedOrZero_eq ready lo hi (header_not_blank hlive)).wp_bind ?_
  simp only [Bool.false_eq_true, if_false]
  have hsync : Synced this { s with bootstrapDeferred := false, measurementDirty := false } m := sync
  apply wp_bind
  refine wp_post (wp_validateRecords ready measures hsync h) ?_
  rintro _ s' m' ⟨rfl, hdeferred, hsync', hshaped, hsettled⟩
  simp only [if_true, wp_pure_bind, wp_modify_bind, wp_pure]
  exact ⟨trivial, trivial, hdeferred, hsync', hshaped, hsettled⟩

/-! Journals the check does not accept. -/

/-- What a V0 record is compared with: only OP-TEE signs it in `CurMeas`. -/
def comparedV0 (this : Protocol Store) (store : Store) : List UInt8 :=
  if this.isOpteePresent then signedMeasurement this .v0 store none
  else measurementOf this .v0 store none

/-- When no record matches, the status tells whether the partition looks empty, and nothing
is written. -/
theorem wp_varIntValidate_unmatched {isErasedOrZero : Bool}
    (hcheck : ∀ s : Driver, Returns (isMeasurementPartitionErasedOrZero this) isErasedOrZero s m)
    (sync : Synced this s m)
    (hrecords : ∀ s : Driver, Synced this s m →
      wp true (validateRecords this store) (fun r _ m' => r.1 = false ∧ m' = m) (fun _ => True) s m) :
    wp true (varIntValidate this store)
      (fun status _ m' => status = (if isErasedOrZero then .success else .deviceError) ∧ m' = m)
      (fun _ => True) s m := by
  unfold varIntValidate
  rw [wp_modify_bind]
  refine (hcheck _).wp_bind ?_
  cases isErasedOrZero with
  | true =>
    simp only [if_true, wp_modify_bind, pure_bind, wp_pure]
    exact ⟨trivial, trivial, trivial⟩
  | false =>
    simp only [Bool.false_eq_true, if_false]
    apply wp_bind
    refine wp_post (hrecords _ ?_) ?_
    · exact sync
    · rintro ⟨isMatched, status⟩ s' _ ⟨rfl, rfl⟩
      simp only [Bool.false_eq_true, if_false]
      refine (hcheck _).wp_bind ?_
      simp only [Bool.false_eq_true, if_false, pure_bind, wp_modify_bind, wp_pure]
      exact ⟨trivial, trivial, trivial⟩

theorem wp_validateRecords_noMatch (ready : Ready this) (wf : this.slots.WellFormed)
    (measures : Measures this) (sync : Synced this s m)
    (hfew : (liveOffsets this m).length ≤ maxValidRecords)
    (hv1 : findMatch ((liveOffsets this m).map (recordAt this m)) isRecordV1
      (signedMeasurement this .v1 store none) = none)
    (hv0 : findMatch ((liveOffsets this m).map (recordAt this m)) isRecordV0
      (comparedV0 this store) = none) :
    wp true (validateRecords this store) (fun r _ m' => r.1 = false ∧ m' = m)
      (fun _ => True) s m := by
  unfold validateRecords
  apply wp_bind
  apply wp_computeCurrentMeasurement measures trivial
  simp only [EfiStatus.isError_success, Bool.false_eq_true, if_false]
  have hsync : Synced this { s with
    curMeasurement := ⟨fvbErasedByte, signedMeasurement this .v1 store none⟩ } m := sync
  refine (getLastValidMeasurements_eq ready wf hsync hfew).wp_bind ?_
  simp only [EfiStatus.isError_success, Bool.false_eq_true, if_false]
  split
  next =>
    rw [wp_pure]
    exact ⟨trivial, rfl, rfl⟩
  next =>
    simp only [wp_get_bind, hv1]
    apply wp_bind
    apply wp_computeIntoCurMeas measures trivial
    have hcompared : (if this.isOpteePresent = true then signedMeasurement this .v0 store none
        else measurementOf this .v0 store none) = comparedV0 this store := rfl
    simp only [EfiStatus.isError_success, Bool.false_eq_true, if_false, wp_get_bind, hcompared, hv0,
      wp_pure]
    exact ⟨trivial, trivial, trivial⟩

theorem wp_validateRecords_tooMany (ready : Ready this) (wf : this.slots.WellFormed)
    (measures : Measures this) (sync : Synced this s m)
    (hmany : maxValidRecords < (liveOffsets this m).length) :
    wp true (validateRecords this store) (fun r _ m' => r.1 = false ∧ m' = m)
      (fun _ => True) s m := by
  unfold validateRecords
  apply wp_bind
  apply wp_computeCurrentMeasurement measures trivial
  simp only [EfiStatus.isError_success, Bool.false_eq_true, if_false]
  have hsync : Synced this { s with
    curMeasurement := ⟨fvbErasedByte, signedMeasurement this .v1 store none⟩ } m := sync
  obtain ⟨found, hfound⟩ := getLastValidMeasurements_tooMany ready wf hsync hmany
  refine hfound.wp_bind ?_
  simp only [show EfiStatus.deviceError.isError = true by decide, if_true, wp_pure]
  exact ⟨trivial, trivial, trivial⟩

/-- Without an accepted record, and with records of the current version only, the check
reports tampering. -/
theorem wp_varIntValidate_rejects (ready : Ready this) (measures : Measures this)
    (sync : Synced this s m) {p : Nat} (hlive : liveOffsets this m = [p])
    (hheader : m p = varIntV1Valid)
    (hdiffers : payloadAt this m p ≠ signedMeasurement this .v1 store none) :
    wp true (varIntValidate this store)
      (fun status _ m' => status = .deviceError ∧ m' = m) (fun _ => True) s m := by
  have wf := wellFormed_of_live ready hlive
  have hmem := (mem_liveOffsets (m := m) (w := p)).mp (hlive ▸ List.mem_cons_self)
  obtain ⟨lo, hi⟩ := slot_pos ready hmem.1
  have hcheck := fun s : Driver =>
    isMeasurementPartitionErasedOrZero_eq (s := s) ready lo hi (header_not_blank hmem.2)
  have hrecord : (recordAt this m p).measurement.header = varIntV1Valid := hheader
  have hpayload : (recordAt this m p).measurement.payload = payloadAt this m p := rfl
  apply wp_varIntValidate_unmatched hcheck sync
  intro s' hsync
  apply wp_validateRecords_noMatch ready wf measures hsync <;> rw [hlive]
  · exact Nat.le_succ 1
  · simp only [findMatch, List.map_cons, List.map_nil, List.find?_cons, List.find?_nil, hrecord,
      hpayload, beq_eq_false_iff_ne.mpr (Ne.symm hdiffers), Bool.and_false]
  · simp only [findMatch, List.map_cons, List.map_nil, List.find?_cons, List.find?_nil, hrecord,
      show isRecordV0 varIntV1Valid = false by decide, Bool.false_and]

/-! A boot. -/

theorem wp_varIntInit (ready : Ready this) {Q : EfiStatus → Driver → Memory → Prop} (hC : C m)
    (hQ : ∀ s', Synced this s' m → Q .success s' m) :
    wp total (varIntInit this) Q C s m := by
  have hpos := Nat.pos_of_ne_zero ready.size_ne
  unfold varIntInit
  refine (NorFlash.returns_read (ready.covers hpos (Nat.le_refl _))).wp_bind ?_
  rw [wp_set_bind, wp_pure]
  refine ⟨hC, hQ _ ?_⟩
  intro i hi
  exact getD_slice _ _ _ _ _ hi

/-- After a power loss that left a recoverable journal, the next boot succeeds. -/
theorem wp_boot (ready : Ready this) (measures : Measures this) (h : Recoverable this store m) :
    wp true (boot this store)
      (fun status s' m' => status = .success ∧ s'.bootstrapDeferred = false ∧ Synced this s' m' ∧
        (Shaped this m → Shaped this m') ∧ ∃ p, Settled this m' store p) (fun _ => True) s m := by
  unfold boot
  apply wp_bind
  apply wp_varIntInit ready trivial
  intro s' hsync
  rw [EfiStatus.isError_success, if_neg (by decide)]
  exact wp_varIntValidate ready measures hsync h

end

end VarInt
