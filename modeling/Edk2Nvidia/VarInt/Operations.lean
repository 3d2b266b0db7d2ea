import Edk2Nvidia.VarInt.Records

/-! The steps of the protocol functions: computing a measurement, rewriting the
headers of the live records, writing a new pending record. -/
namespace VarInt
open Flash

section
variable {Store : Type} {this : Protocol Store} {s : Driver} {m : Memory} {total : Bool}
  {C : Memory → Prop}

/-- The measurement of a store, or of what an update would make of it. -/
def measurementOf (this : Protocol Store) (version : RecordVersion) (store : Store)
    (update : Option VariableUpdate) : List UInt8 :=
  match this.computeVarMeasurement version store update with
  | .ok meas => meas
  | .error _ => []

def signedMeasurement (this : Protocol Store) (version : RecordVersion) (store : Store)
    (update : Option VariableUpdate) : List UInt8 :=
  this.sign (measurementOf this version store update)

/-- Every measurement can be computed, and hashes and signatures have the size of the
payload. -/
structure Measures (this : Protocol Store) : Prop where
  computes : ∀ version store update, ∃ meas,
    this.computeVarMeasurement version store update = .ok meas ∧
      meas.length = getMeasurementPayloadSize this
  sign_length : ∀ meas, (this.sign meas).length = meas.length

theorem Measures.compute_eq (measures : Measures this) (version : RecordVersion) (store : Store)
    (update : Option VariableUpdate) :
    this.computeVarMeasurement version store update =
      .ok (measurementOf this version store update) := by
  obtain ⟨meas, hmeas, -⟩ := measures.computes version store update
  rw [measurementOf, hmeas]

theorem Measures.length_signed (measures : Measures this) (version : RecordVersion) (store : Store)
    (update : Option VariableUpdate) :
    (signedMeasurement this version store update).length = getMeasurementPayloadSize this := by
  obtain ⟨meas, hmeas, hlen⟩ := measures.computes version store update
  rw [signedMeasurement, measures.sign_length, measurementOf, hmeas]
  exact hlen

theorem wp_computeCurrentMeasurement (measures : Measures this) {version : RecordVersion}
    {store : Store} {update : Option VariableUpdate} {Q : EfiStatus → Driver → Memory → Prop}
    (hC : C m)
    (hQ : Q .success { s with
      curMeasurement := ⟨fvbErasedByte, signedMeasurement this version store update⟩ } m) :
    wp total (computeCurrentMeasurement this store update version .curMeasurement) Q C s m := by
  unfold computeCurrentMeasurement
  rw [wp_modify_bind, measures.compute_eq]
  simp only [wp_modify_bind]
  apply wp_bind
  unfold sendOpteeCmd
  by_cases hoptee : this.isOpteePresent = true
  · rw [if_pos hoptee]
    simp only [wp_modify_bind, wp_pure, EfiStatus.isError_success, Bool.false_eq_true, if_false]
    exact ⟨hC, hC, hQ⟩
  · rw [if_neg hoptee]
    simp only [wp_modify_bind, wp_pure, EfiStatus.isError_success, Bool.false_eq_true, if_false]
    exact ⟨hC, hC, hQ⟩

/-! Headers. -/

theorem slot_pos (ready : Ready this) {w : Nat} (hw : w ∈ this.slots.offsets) :
    this.partitionByteOffset ≤ w ∧ w + 1 ≤ this.partitionByteOffset + this.partitionSize := by
  have hsize := ready.size_ge
  obtain ⟨lo, hi⟩ := ready.slot_inside hw
  exact ⟨lo, by omega⟩

theorem wp_writeHeader (ready : Ready this) (sync : Synced this s m) {w : Nat} {header : UInt8}
    (hw : w ∈ this.slots.offsets) (clears : m w &&& header = header)
    {Q : EfiStatus → Driver → Memory → Prop} (hC : C m) (hC' : C (program m w [header]))
    (hQ : ∀ partitionData, Synced this { s with partitionData } (program m w [header]) →
      Q .success { s with partitionData } (program m w [header])) :
    wp total (partitionWrite this w [header]) Q C s m := by
  obtain ⟨lo, hi⟩ := slot_pos ready hw
  have hpos : 0 < [header].length := Nat.zero_lt_one
  apply wp_partitionWrite ready sync hpos lo hi
  · intro i hlt
    rw [List.length_singleton] at hlt
    obtain rfl : i = 0 := by omega
    exact clears
  · intro j
    cases j with
    | zero => simpa using hC
    | succ j => simpa using hC'
  · exact hQ

theorem withHeaders_append {f : Nat → UInt8} {rewritten : List Nat} {w : Nat}
    (hw : w ∉ rewritten) (clears : m w &&& f w = f w) :
    program (withHeaders m f rewritten) w [f w] = withHeaders m f (rewritten ++ [w]) := by
  have hclears : withHeaders m f rewritten w &&& f w = f w := by
    rw [withHeaders_not_mem hw]
    exact clears
  funext x
  rw [program_singleton hclears]
  unfold withHeaders
  simp only [List.mem_append, List.mem_singleton]
  split
  next heq => rw [if_pos (.inr heq), heq]
  next hne => simp only [hne, or_false]

def committed (m : Memory) (previousResult : EfiStatus) (w : Nat) : UInt8 :=
  commitHeader (m w) previousResult

theorem wp_commitMeasurements (ready : Ready this) {previousResult : EfiStatus}
    {ws rewritten : List Nat}
    (sync : Synced this s (withHeaders m (committed m previousResult) rewritten))
    (hws : ∀ w ∈ ws, w ∈ this.slots.offsets) (nodup : (rewritten ++ ws).Nodup)
    (clears : ∀ w ∈ ws, m w &&& committed m previousResult w = committed m previousResult w) {Q : EfiStatus → Driver → Memory → Prop}
    (hC : ∀ k, C (withHeaders m (committed m previousResult) (rewritten ++ ws.take k)))
    (hQ : ∀ partitionData, Synced this { s with partitionData } (withHeaders m (committed m previousResult) (rewritten ++ ws)) →
      Q .success { s with partitionData } (withHeaders m (committed m previousResult) (rewritten ++ ws))) :
    wp total (commitMeasurements this previousResult (ws.map (recordAt this m)) .success) Q C s
      (withHeaders m (committed m previousResult) rewritten) := by
  induction ws generalizing rewritten s with
  | nil =>
    rw [List.map_nil, commitMeasurements, wp_pure]
    have hnow := hC 0
    simp only [List.take_nil, List.append_nil] at hnow hQ
    exact ⟨hnow, hQ s.partitionData sync⟩
  | cons w rest ih =>
    have hw : w ∉ rewritten := by
      rw [List.nodup_append] at nodup
      exact fun hmem => nodup.2.2 w hmem w List.mem_cons_self rfl
    have happend := withHeaders_append hw (clears w List.mem_cons_self)
    rw [List.map_cons, commitMeasurements]
    apply wp_bind
    have hbyte : (recordAt this m w).byteOffset = w := rfl
    have hold : (recordAt this m w).measurement.header = m w := rfl
    have hcommit : commitHeader (m w) previousResult = committed m previousResult w := rfl
    simp only [hbyte, hold, hcommit]
    have hone := hC 1
    rw [List.take_succ_cons, List.take_zero] at hone
    apply wp_writeHeader ready sync (hws w List.mem_cons_self)
    · rw [withHeaders_not_mem hw]
      exact clears w List.mem_cons_self
    · simpa using hC 0
    · rw [happend]
      exact hone
    · intro partitionData hsync
      rw [happend] at hsync ⊢
      simp only [EfiStatus.isError_success, Bool.false_and, Bool.false_eq_true, if_false]
      apply ih hsync
      · exact fun x hx => hws x (List.mem_cons_of_mem _ hx)
      · rw [List.append_assoc]
        exact nodup
      · exact fun x hx => clears x (List.mem_cons_of_mem _ hx)
      · intro k
        have := hC (k + 1)
        rwa [List.take_succ_cons, List.append_cons] at this
      · intro partitionData hsync
        rw [← List.append_cons] at hsync ⊢
        exact hQ partitionData hsync

/-- The headers at the end of a check. -/
def finalized (m : Memory) (keepRecord : Option Nat) (w : Nat) : UInt8 :=
  finalHeader (m w) (keepRecord == some w)

theorem wp_finalizeValidatedRecords (ready : Ready this) {keepRecord : Option Nat}
    {ws rewritten : List Nat}
    (sync : Synced this s (withHeaders m (finalized m keepRecord) rewritten))
    (hws : ∀ w ∈ ws, w ∈ this.slots.offsets) (nodup : (rewritten ++ ws).Nodup)
    (clears : ∀ w ∈ ws, m w &&& finalized m keepRecord w = finalized m keepRecord w) {Q : EfiStatus → Driver → Memory → Prop}
    (hC : ∀ k, C (withHeaders m (finalized m keepRecord) (rewritten ++ ws.take k)))
    (hQ : ∀ partitionData, Synced this { s with partitionData } (withHeaders m (finalized m keepRecord) (rewritten ++ ws)) →
      Q .success { s with partitionData } (withHeaders m (finalized m keepRecord) (rewritten ++ ws))) :
    wp total (finalizeValidatedRecords this keepRecord (ws.map (recordAt this m)) .success) Q C s
      (withHeaders m (finalized m keepRecord) rewritten) := by
  induction ws generalizing rewritten s with
  | nil =>
    rw [List.map_nil, finalizeValidatedRecords, wp_pure]
    have hnow := hC 0
    simp only [List.take_nil, List.append_nil] at hnow hQ
    exact ⟨hnow, hQ s.partitionData sync⟩
  | cons w rest ih =>
    have hw : w ∉ rewritten := by
      rw [List.nodup_append] at nodup
      exact fun hmem => nodup.2.2 w hmem w List.mem_cons_self rfl
    have happend := withHeaders_append hw (clears w List.mem_cons_self)
    have hbyte : (recordAt this m w).byteOffset = w := rfl
    have hold : (recordAt this m w).measurement.header = m w := rfl
    have hone := hC 1
    rw [List.take_succ_cons, List.take_zero] at hone
    have hrest : ∀ s : Driver, Synced this s (withHeaders m (finalized m keepRecord) (rewritten ++ [w])) →
        (∀ partitionData, Synced this { s with partitionData }
          (withHeaders m (finalized m keepRecord) (rewritten ++ w :: rest)) →
          Q .success { s with partitionData } (withHeaders m (finalized m keepRecord) (rewritten ++ w :: rest))) →
        wp total (finalizeValidatedRecords this keepRecord (rest.map (recordAt this m)) .success)
          Q C s (withHeaders m (finalized m keepRecord) (rewritten ++ [w])) := by
      intro s hsync hQ
      apply ih hsync
      · exact fun x hx => hws x (List.mem_cons_of_mem _ hx)
      · rw [List.append_assoc]
        exact nodup
      · exact fun x hx => clears x (List.mem_cons_of_mem _ hx)
      · intro k
        have := hC (k + 1)
        rwa [List.take_succ_cons, List.append_cons] at this
      · intro partitionData hsync
        rw [← List.append_cons] at hsync ⊢
        exact hQ partitionData hsync
    rw [List.map_cons, finalizeValidatedRecords]
    have hfinal : finalHeader (m w) (keepRecord == some w) = finalized m keepRecord w := rfl
    simp only [hbyte, hold, hfinal]
    by_cases hsame : finalized m keepRecord w = m w
    · -- the header stays as it is
      have hkeep : withHeaders m (finalized m keepRecord) rewritten = withHeaders m (finalized m keepRecord) (rewritten ++ [w]) := by
        rw [← happend]
        funext x
        have hclears : withHeaders m (finalized m keepRecord) rewritten w &&&
          finalized m keepRecord w = finalized m keepRecord w := by
          rw [withHeaders_not_mem hw]
          exact clears w List.mem_cons_self
        rw [program_singleton hclears]
        split
        next heq => rw [heq, withHeaders_not_mem hw, hsame]
        next => rfl
      rw [if_pos hsame, hkeep]
      exact hrest s (hkeep ▸ sync) hQ
    · rw [if_neg hsame]
      apply wp_bind
      apply wp_writeHeader ready sync (hws w List.mem_cons_self)
      · rw [withHeaders_not_mem hw]
        exact clears w List.mem_cons_self
      · simpa using hC 0
      · rw [happend]
        exact hone
      · intro partitionData hsync
        rw [happend] at hsync ⊢
        exact hrest _ hsync hQ

theorem withHeaders_perm {f : Nat → UInt8} {ws ws' : List Nat} (h : ws.Perm ws') :
    withHeaders m f ws = withHeaders m f ws' := by
  funext a
  simp only [withHeaders, h.mem_iff]

theorem commitHeader_clears {header : UInt8} (h : isRecordLive header = true)
    (previousResult : EfiStatus) :
    header &&& commitHeader header previousResult = commitHeader header previousResult := by
  unfold commitHeader
  split
  next =>
    split
    next => exact invalid_clears h
    next => exact valid_clears h
  next =>
    split
    next => exact valid_clears h
    next => exact invalid_clears h

theorem finalHeader_clears {header : UInt8} (h : isRecordLive header = true) (keep : Bool) :
    header &&& finalHeader header keep = finalHeader header keep := by
  unfold finalHeader
  rw [if_pos h]
  split
  next =>
    split
    next => exact valid_clears h
    next => exact UInt8.and_self
  next => exact invalid_clears h

theorem wp_updateLiveMeasurementRecordStates (ready : Ready this) (wf : this.slots.WellFormed)
    (sync : Synced this s m) {ps : List Nat} (hlive : LiveAt this m ps) (nodup : ps.Nodup)
    (hfew : ps.length ≤ maxValidRecords) (hne : ps ≠ []) {previousResult : EfiStatus}
    {Q : EfiStatus → Driver → Memory → Prop}
    (hC : ∀ xs, xs ⊆ ps → C (withHeaders m (committed m previousResult) xs))
    (hQ : ∀ partitionData,
      Synced this { s with partitionData } (withHeaders m (committed m previousResult) ps) →
      Q .success { s with partitionData } (withHeaders m (committed m previousResult) ps)) :
    wp total (updateLiveMeasurementRecordStates this previousResult) Q C s m := by
  have hperm := hlive.perm wf nodup
  have hnonempty : ((liveOffsets this m).map (recordAt this m)).isEmpty = false := by
    rw [List.isEmpty_map, List.isEmpty_eq_false_iff]
    exact fun hnil => hne (List.nil_perm.mp (hnil ▸ hperm))
  have hslots : ∀ w ∈ liveOffsets this m, w ∈ this.slots.offsets := fun w hw =>
    (mem_liveOffsets.mp hw).1
  unfold updateLiveMeasurementRecordStates
  refine (getLastValidMeasurements_eq ready wf sync (hperm.length_eq ▸ hfew)).wp_bind ?_
  simp only [EfiStatus.isError_success, hnonempty, Bool.false_eq_true, if_false]
  have hstart := withHeaders_nil m (committed m previousResult)
  have hsync : Synced this s (withHeaders m (committed m previousResult) []) := by
    rw [hstart]
    exact sync
  rw [← hstart]
  apply wp_commitMeasurements (m := m) ready hsync hslots (hperm.nodup_iff.mpr nodup)
  · exact fun w hw => commitHeader_clears (mem_liveOffsets.mp hw).2 previousResult
  · exact fun k => hC _ fun w hw => hperm.mem_iff.mp (List.mem_of_mem_take hw)
  · rw [List.nil_append, withHeaders_perm hperm]
    exact hQ

/-! A new pending record. -/

/-- An image on which the record in slot `p` is untouched and the journal can still be
read. -/
structure Keeps (this : Protocol Store) (m : Memory) (p : Nat) (image : Memory) : Prop where
  sound : Sound this image
  same : ∀ a, p ≤ a → a < p + this.measurementSize → image a = m a

theorem Keeps.refl (wf : this.slots.WellFormed) (shaped : Shaped this m) {p : Nat}
    (hlive : LiveAt this m [p]) : Keeps this m p m :=
  ⟨⟨hlive.few wf (Nat.le_succ 1), shaped⟩, fun _ _ _ => rfl⟩

theorem Room.keeps (wf : this.slots.WellFormed) {p : Nat} (h : Room this m p) :
    Keeps this m p (prepared this m) :=
  ⟨⟨h.live.few wf (Nat.le_succ 1), h.shaped⟩, h.same⟩

theorem Room.keeps_cut (ready : Ready this) (wf : this.slots.WellFormed) {p : Nat}
    (h : Room this m p) {payload : List UInt8}
    (hlen : payload.length = getMeasurementPayloadSize this) (j : Nat) :
    Keeps this m p
      (program (prepared this m) (writeSlot this m) ((varIntV1Pending :: payload).take j)) := by
  refine ⟨⟨(h.cut_live ready wf hlen j).few wf ?_, h.cut_shaped ready wf hlen j⟩, fun a ha ha' =>
    h.cut_same ready wf hlen j ha ha'⟩
  split
  next => exact Nat.le_succ 1
  next => exact Nat.le_refl 2

/-- Only the record in slot `p` is live, and it is a valid one of the current version:
a measurement equal to it is not written again. -/
theorem wp_writePendingRecord (ready : Ready this) (wf : this.slots.WellFormed)
    (sync : Synced this s m) (shaped : Shaped this m) {p : Nat} (hlive : LiveAt this m [p])
    (hvalid : m p = varIntV1Valid) (hblocks : 2 ≤ this.slots.blockCount)
    (hlen : s.curMeasurement.payload.length = getMeasurementPayloadSize this)
    {preMeasurementWrite : Bool} {Q : EfiStatus → Driver → Memory → Prop}
    (hC : ∀ image, Keeps this m p image → C image)
    (hsame : s.curMeasurement.payload = payloadAt this m p →
      Q .success (clearSpeculativeMeasurement this { s with
        prePostComparisonValid := false
        prePostComparisonMatched := false
        preWrittenMeasurementPending := false
        measurementDirty := false
        curMeasurement := .zeroMem this.measurementSize }) m)
    (hnew : s.curMeasurement.payload ≠ payloadAt this m p → ∀ q image partitionData,
      Appended this m image p q s.curMeasurement.payload →
      Synced this { s with partitionData } image →
      Q .success { s with
        partitionData
        curMeasurement := ⟨varIntV1Pending, s.curMeasurement.payload⟩
        preWrittenMeasurementPending := preMeasurementWrite || s.preWrittenMeasurementPending }
        image) :
    wp total (writePendingRecord this preMeasurementWrite) Q C s m := by
  have hnow := hC m (.refl wf shaped hlive)
  have hrecords := (liveOffsets_eq_singleton wf).mpr hlive
  have hget := getLastValidMeasurements_eq ready wf sync (by rw [hrecords]; exact Nat.le_succ 1)
  have hroom := room ready wf shaped hlive (by rw [hvalid]; decide) hblocks
  rw [hrecords] at hget
  have hmatch : Returns (computedMeasurementMatchesValidRecord this s.curMeasurement)
      (.success, s.curMeasurement.payload == payloadAt this m p) s m := by
    unfold computedMeasurementMatchesValidRecord
    refine hget.bind ?_
    have hheader : (recordAt this m p).measurement.header = varIntV1Valid := hvalid
    have hpayload : (recordAt this m p).measurement.payload = payloadAt this m p := rfl
    have hversion : (isRecordV1 varIntV1Valid && isRecordValid varIntV1Valid) = true := by decide
    simp only [EfiStatus.isError_success, Bool.false_eq_true, if_false, List.map_cons, List.map_nil,
      List.any_cons, List.any_nil, Bool.or_false, hheader, hpayload, hversion, Bool.true_and]
    exact returns_pure _
  unfold writePendingRecord
  rw [wp_get_bind]
  refine hmatch.wp_bind ?_
  simp only [EfiStatus.isError_success, Bool.false_eq_true, if_false]
  by_cases heq : s.curMeasurement.payload = payloadAt this m p
  · simp only [heq, beq_self_eq_true, if_true, wp_modify_bind, wp_pure]
    exact ⟨hnow, hsame heq⟩
  · simp only [beq_eq_false_iff_ne.mpr heq, Bool.false_eq_true, if_false]
    apply wp_bind
    apply wp_getWriteOffset ready wf sync hnow (hC _ (hroom.keeps wf))
    intro partitionData hsync
    have happended := hroom.appended ready wf hlen
    have hsize := ready.size_ge
    have hfull := ready.record_length varIntV1Pending hlen
    obtain ⟨lo, hi⟩ := ready.slot_inside hroom.mem
    simp only [EfiStatus.isError_success, Bool.false_eq_true, if_false, wp_modify_bind, wp_get_bind,
      Measurement.bytes]
    have hsync' : Synced this { s with
        partitionData, curMeasurement := ⟨varIntV1Pending, s.curMeasurement.payload⟩ }
        (prepared this m) := hsync
    apply wp_bind
    apply wp_partitionWrite ready hsync' (by rw [hfull]; omega) lo (by rw [hfull]; exact hi)
    · apply Blank.permits
      rw [hfull]
      exact hroom.blank
    · exact fun j => hC _ (hroom.keeps_cut ready wf hlen j)
    · intro partitionData hsync
      simp only [EfiStatus.isError_success, Bool.false_eq_true, if_false, wp_modify_bind, wp_pure]
      have hcut := hroom.keeps_cut ready wf hlen this.measurementSize
      rw [List.take_of_length_le (Nat.le_of_eq hfull)] at hcut
      exact ⟨hC _ hcut, hnew heq _ _ _ happended hsync⟩

/-! The check for an empty partition. -/

/-- A byte that is neither erased nor zero is found, or a read fails before it. -/
theorem checkErasedOrZero_eq {chunks : List Nat} {a : Nat}
    (hchunks : ∀ o ∈ chunks, o < 2 ^ 32) (hbyte : m a ≠ fvbErasedByte ∧ m a ≠ 0)
    (hcover : ∃ o ∈ chunks, o ≤ a ∧ a < o + size1KB) :
    Returns (checkErasedOrZero this chunks) false s m := by
  have hdirty : ∀ o size, o ≤ a → a < o + size →
      isBufErasedOrZero (slice m o size) = false := by
    intro o size hlo hhi
    rw [isBufErasedOrZero, slice, List.all_map, Bool.eq_false_iff]
    intro hall
    rw [List.all_eq_true] at hall
    have := hall a (List.mem_range'_1.mpr ⟨hlo, hhi⟩)
    simp only [Function.comp, Bool.or_eq_true, beq_iff_eq] at this
    tauto
  induction chunks with
  | nil =>
    obtain ⟨o, ho, -⟩ := hcover
    simp at ho
  | cons o rest ih =>
    have ho := hchunks o List.mem_cons_self
    rw [checkErasedOrZero]
    have hserved : Returns (this.norFlashProtocol.read o size1KB) (.success, slice m o size1KB) s m ∨
        Returns (this.norFlashProtocol.read o size1KB) (.invalidParameter, []) s m :=
      (NorFlash.returns_read_or_refuse ho (by decide)).imp (· s) (· s)
    rcases hserved with hread | hread
    · refine hread.bind ?_
      simp only [EfiStatus.isError_success, Bool.false_eq_true, if_false]
      by_cases hhere : o ≤ a ∧ a < o + size1KB
      · rw [hdirty o size1KB hhere.1 hhere.2, if_neg (by simp)]
        exact returns_pure _
      · split
        next =>
          apply ih fun x hx => hchunks x (List.mem_cons_of_mem _ hx)
          obtain ⟨x, hx, hxa⟩ := hcover
          rcases List.mem_cons.mp hx with rfl | hx
          · exact absurd hxa hhere
          · exact ⟨x, hx, hxa⟩
        next => exact returns_pure _
    · exact hread.bind (returns_pure _)

/-- Whatever the partition holds, the check gives an answer and changes nothing. -/
theorem checkErasedOrZero_returns {chunks : List Nat} (hchunks : ∀ o ∈ chunks, o < 2 ^ 32) :
    ∃ answer, ∀ s : Driver, Returns (checkErasedOrZero this chunks) answer s m := by
  induction chunks with
  | nil => exact ⟨true, fun s => returns_pure _⟩
  | cons o rest ih =>
    obtain ⟨answer, hrest⟩ := ih fun x hx => hchunks x (List.mem_cons_of_mem _ hx)
    have hserved : (∀ s : Driver, Returns (this.norFlashProtocol.read o size1KB)
          (.success, slice m o size1KB) s m) ∨
        ∀ s : Driver, Returns (this.norFlashProtocol.read o size1KB) (.invalidParameter, []) s m :=
      NorFlash.returns_read_or_refuse (hchunks o List.mem_cons_self) (by decide)
    rcases hserved with hread | hread
    · refine ⟨isBufErasedOrZero (slice m o size1KB) && answer, fun s => ?_⟩
      rw [checkErasedOrZero]
      refine (hread s).bind ?_
      simp only [EfiStatus.isError_success, Bool.false_eq_true, if_false]
      cases isBufErasedOrZero (slice m o size1KB) with
      | true => exact hrest s
      | false => exact returns_pure _
    · refine ⟨false, fun s => ?_⟩
      rw [checkErasedOrZero]
      exact (hread s).bind (returns_pure _)

theorem isMeasurementPartitionErasedOrZero_returns (ready : Ready this) (m : Memory) :
    ∃ answer, ∀ s : Driver, Returns (isMeasurementPartitionErasedOrZero this) answer s m := by
  have hin := ready.inside
  have hlt := ready.density_lt
  unfold isMeasurementPartitionErasedOrZero
  rw [if_pos (ready.pool _)]
  apply checkErasedOrZero_returns
  intro o ho
  have := (mem_steps (by decide : 0 < size1KB)).mp ho
  omega

theorem isMeasurementPartitionErasedOrZero_eq (ready : Ready this) {a : Nat}
    (lo : this.partitionByteOffset ≤ a)
    (hi : a < this.partitionByteOffset + this.partitionSize)
    (hbyte : m a ≠ fvbErasedByte ∧ m a ≠ 0) :
    Returns (isMeasurementPartitionErasedOrZero this) false s m := by
  have hpos : 0 < size1KB := by decide
  have hin := ready.inside
  have hlt := ready.density_lt
  unfold isMeasurementPartitionErasedOrZero
  rw [if_pos (ready.pool _)]
  apply checkErasedOrZero_eq _ hbyte
  · -- the chunk of the byte
    have hdiv := Nat.div_add_mod (a - this.partitionByteOffset) size1KB
    have hmod := Nat.mod_lt (a - this.partitionByteOffset) hpos
    refine ⟨this.partitionByteOffset +
      size1KB * ((a - this.partitionByteOffset) / size1KB), ?_, by omega, by omega⟩
    rw [mem_steps hpos]
    refine ⟨Nat.le_add_right _ _, by omega, ?_⟩
    rw [Nat.add_sub_cancel_left, Nat.mul_mod_right]
  · intro o ho
    have := (mem_steps hpos).mp ho
    omega

end

end VarInt
