import Edk2Nvidia.VarInt.History
import Edk2Nvidia.VarInt.MigrationImages

/-! Which journals the check accepts, and which V0 journals survive a power loss while they
are migrated. -/
namespace VarInt
open Flash

/-- The check at `s` succeeds and leaves the journal settled. -/
def Validates {Store : Type} (this : Protocol Store) (store : Store) (s : Driver) (m : Memory) :
    Prop :=
  ∃ s' m' p, (varIntValidate this store s).run m = (some (.success, s'), m') ∧
    Settled this m' store p

def Boots {Store : Type} (this : Protocol Store) (store : Store) (m : Memory) : Prop :=
  ∀ s, ∃ s' m' p, (boot this store s).run m = (some (.success, s'), m') ∧
    Settled this m' store p

/-- The check migrates a V0 record, and the new one is right. -/
structure Migrates {Store : Type} (this : Protocol Store) (store : Store) (m : Memory) : Prop where
  few : (liveOffsets this m).length ≤ maxValidRecords
  noV1 : ∀ w ∈ liveOffsets this m, ¬Accepted this m store w
  found : ∃ w ∈ liveOffsets this m, isRecordV0 (m w) = true ∧
    payloadAt this m w = comparedV0 this store
  free : writeSlot this m ∉ liveOffsets this m
  written : payloadAt this (pendingImage this m (migratedPayload this store)) (writeSlot this m) =
    signedMeasurement this .v1 store none

section
variable {Store : Type} {this : Protocol Store} {s : Driver} {m image : Memory} {store : Store}
  {r w : Nat}

theorem findMatch_noV1 (h : ∀ w ∈ liveOffsets this m, ¬Accepted this m store w) :
    findMatch ((liveOffsets this m).map (recordAt this m)) isRecordV1
      (signedMeasurement this .v1 store none) = none := by
  rcases findMatch_cases this m (liveOffsets this m) isRecordV1
    (signedMeasurement this .v1 store none) with ⟨w, hw, -, hversion, hpayload⟩ | ⟨hnone, -⟩
  · exact absurd ⟨hversion, hpayload⟩ (h w hw)
  · exact hnone

theorem Migrates.findMatch_v0 (h : Migrates this store m) :
    ∃ r ∈ liveOffsets this m, findMatch ((liveOffsets this m).map (recordAt this m)) isRecordV0
      (comparedV0 this store) = some (recordAt this m r) := by
  rcases findMatch_cases this m (liveOffsets this m) isRecordV0
    (comparedV0 this store) with ⟨r, hr, hfind, -, -⟩ | ⟨-, hnone⟩
  · exact ⟨r, hr, hfind⟩
  · obtain ⟨w, hw, hversion, hpayload⟩ := h.found
    exact absurd hpayload (hnone w hw hversion)

/-- When no record matches, the check leaves the journal alone, so it does not become
settled. -/
theorem not_validates_unmatched (ready : Ready this) (sync : Synced this s m)
    (hunaccepted : ∀ w ∈ liveOffsets this m, ¬Accepted this m store w)
    (hrecords : ∀ s : Driver, Synced this s m →
      wp true (validateRecords this store) (fun r _ m' => r.1 = false ∧ m' = m) (fun _ => True) s m) :
    ¬Validates this store s m := by
  rintro ⟨s', m', p, hrun, hsettled⟩
  obtain ⟨answer, hcheck⟩ := isMeasurementPartitionErasedOrZero_returns ready m
  obtain ⟨-, rfl⟩ := wp_run (wp_varIntValidate_unmatched hcheck sync hrecords) hrun
  obtain ⟨hlive, haccepted⟩ := hsettled.accepted
  exact hunaccepted p hlive haccepted

/-- The check accepts a journal exactly when it finds a record of the current version, or
migrates an old one. -/
theorem validates_iff (ready : Ready this) (measures : Measures this) (sync : Synced this s m) :
    Validates this store s m ↔ Recoverable this store m ∨ Migrates this store m := by
  constructor
  · intro h
    obtain ⟨s', m', p, hrun, hsettled⟩ := h
    have wf := wellFormed_of_live ready hsettled.live
    have hvalidates : Validates this store s m := ⟨s', m', p, hrun, hsettled⟩
    by_cases hfew : (liveOffsets this m).length ≤ maxValidRecords
    · by_cases hv1 : ∃ w ∈ liveOffsets this m, Accepted this m store w
      · exact .inl ⟨hfew, hv1⟩
      · have hunaccepted : ∀ w ∈ liveOffsets this m, ¬Accepted this m store w :=
          fun w hw haccepted => hv1 ⟨w, hw, haccepted⟩
        have hnone := findMatch_noV1 hunaccepted
        rcases findMatch_cases this m (liveOffsets this m) isRecordV0
          (comparedV0 this store) with ⟨r, hr, hfind, hversion, hpayload⟩ | ⟨hfind, -⟩
        · obtain ⟨-, rfl⟩ := wp_run (wp_varIntValidate_migrates ready wf measures sync hfew hnone
            hfind hr fun _ _ => trivial) hrun
          obtain ⟨hfree, hwritten⟩ := (settled_dropped_iff ready wf
            (measures.length_migrated store) hr).mp ⟨p, hsettled⟩
          exact .inr ⟨hfew, hunaccepted, ⟨r, hr, hversion, hpayload⟩, hfree, hwritten⟩
        · exact absurd hvalidates (not_validates_unmatched ready sync hunaccepted fun _ hsync =>
            wp_validateRecords_noMatch ready wf measures hsync hfew hnone hfind)
    · -- with too many live records nothing is written either
      obtain ⟨answer, hcheck⟩ := isMeasurementPartitionErasedOrZero_returns ready m
      obtain ⟨-, rfl⟩ := wp_run (wp_varIntValidate_unmatched hcheck sync fun _ hsync =>
        wp_validateRecords_tooMany ready wf measures hsync (Nat.lt_of_not_le hfew)) hrun
      exact absurd hsettled.recoverable.few hfew
  · rintro (h | h)
    · obtain ⟨_, s', m', hrun, rfl, -, -, -, p, hsettled⟩ :=
        wp_total (wp_varIntValidate ready measures sync h)
      exact ⟨s', m', p, hrun, hsettled⟩
    · obtain ⟨r, hr, hfind⟩ := h.findMatch_v0
      have wf := ready.wellFormed_of_mem (mem_liveOffsets.mp hr).1
      obtain ⟨_, s', m', hrun, rfl, rfl⟩ := wp_total (wp_varIntValidate_migrates ready wf measures
        sync h.few (findMatch_noV1 h.noV1) hfind hr fun _ _ => trivial)
      obtain ⟨p, hsettled⟩ := (settled_dropped_iff ready wf (measures.length_migrated store)
        hr).mpr ⟨h.free, h.written⟩
      exact ⟨s', _, p, hrun, hsettled⟩

theorem boots_iff (ready : Ready this) (measures : Measures this) :
    Boots this store m ↔ Recoverable this store m ∨ Migrates this store m := by
  have hinit : ∀ s : Driver, ∃ s', Synced this s' m ∧
      (boot this store s).run m = (varIntValidate this store s').run m := by
    intro s
    have hwp : wp true (varIntInit this)
        (fun status s' m' => status = .success ∧ Synced this s' m ∧ m' = m) (fun _ => True) s m :=
      wp_varIntInit ready trivial fun _ hsync => ⟨rfl, hsync, rfl⟩
    obtain ⟨_, s', m', hrun, rfl, hsync, rfl⟩ := wp_total hwp
    refine ⟨s', hsync, ?_⟩
    unfold boot
    rw [run_bind hrun, EfiStatus.isError_success, if_neg (by decide)]
  constructor
  · intro h
    obtain ⟨s', hsync, heq⟩ := hinit
      ⟨m, .zeroMem 0, .zeroMem 0, .zeroMem 0, false, false, false, false, false, false⟩
    obtain ⟨s'', m', p, hrun, hsettled⟩ := h _
    rw [heq] at hrun
    exact (validates_iff ready measures hsync).mp ⟨s'', m', p, hrun, hsettled⟩
  · intro h s
    obtain ⟨s', hsync, heq⟩ := hinit s
    obtain ⟨s'', m', p, hrun, hsettled⟩ := (validates_iff ready measures hsync).mpr h
    exact ⟨s'', m', p, heq ▸ hrun, hsettled⟩

/-! A migration that power losses do not harm. -/

/-- A journal of the previous version: one or two live records, one of them the signed V0
measurement of the store, none the V1 measurement. -/
structure Unmigrated (this : Protocol Store) (store : Store) (m : Memory) : Prop where
  few : (liveOffsets this m).length ≤ maxValidRecords
  matching : ∃ w ∈ liveOffsets this m, isRecordV0 (m w) = true ∧
    payloadAt this m w = signedMeasurement this .v0 store none
  noV1 : ∀ w ∈ liveOffsets this m, ¬Accepted this m store w

/-- The check migrates the journal, and so does the next one when power is lost on the
way. -/
structure MigrationSafe (this : Protocol Store) (store : Store) (s : Driver) (m : Memory) :
    Prop where
  done : Validates this store s m
  cut : ∀ image, (varIntValidate this store s).PowerLoss m image → Boots this store image

/-- The condition: the slot of the new record held no live record; once it is prepared one
live record is left, a V0 one that matches what it is compared with; the slot takes the
measurement; and with only the header of the new record programmed, its payload is the
measurement already, or one more migration would go right. -/
structure SafeToMigrate (this : Protocol Store) (store : Store) (m : Memory) : Prop where
  free : writeSlot this m ∉ liveOffsets this m
  single : ∃ r, liveOffsets this (prepared this m) = [r] ∧ isRecordV0 (m r) = true ∧
    payloadAt this m r = comparedV0 this store
  written : payloadAt this (pendingImage this m (migratedPayload this store)) (writeSlot this m) =
    signedMeasurement this .v1 store none
  torn : payloadAt this (prepared this m) (writeSlot this m) =
      signedMeasurement this .v1 store none ∨
    Migrates this store (program (prepared this m) (writeSlot this m) [varIntV1Pending])

theorem cutImage_one (this : Protocol Store) (m : Memory) (payload : List UInt8) :
    cutImage this m payload 1 = program (prepared this m) (writeSlot this m) [varIntV1Pending] :=
  rfl

theorem payloadAt_cutImage_one (this : Protocol Store) (m : Memory) (payload : List UInt8) :
    payloadAt this (cutImage this m payload 1) (writeSlot this m) =
      payloadAt this (prepared this m) (writeSlot this m) := by
  apply slice_congr
  intro a ha _
  simp only [headerSzBytes] at ha
  rw [cutImage_one, program_byte, if_neg (by omega)]

theorem SafeToMigrate.wellFormed (ready : Ready this) (h : SafeToMigrate this store m) :
    this.slots.WellFormed := by
  obtain ⟨r, hlive, -⟩ := h.single
  exact wellFormed_of_live ready hlive

theorem SafeToMigrate.single_live (ready : Ready this) (h : SafeToMigrate this store m) :
    ∃ r, liveOffsets this (prepared this m) = [r] ∧ r ∈ liveOffsets this m ∧
      r ≠ writeSlot this m ∧ isRecordV0 (m r) = true ∧ payloadAt this m r = comparedV0 this store ∧
      ∀ a, r ≤ a → a < r + this.measurementSize → prepared this m a = m a := by
  have wf := h.wellFormed ready
  obtain ⟨r, hlive, hversion, hpayload⟩ := h.single
  have hmem : r ∈ liveOffsets this (prepared this m) := hlive ▸ List.mem_singleton_self r
  obtain ⟨hold, hsame⟩ := prepared_live ready wf hmem
  refine ⟨r, hlive, hold, ?_, hversion, hpayload, hsame⟩
  rintro rfl
  exact h.free hold

theorem SafeToMigrate.migrates (ready : Ready this) (h : SafeToMigrate this store m)
    (hold : Unmigrated this store m) : Migrates this store m := by
  obtain ⟨r, -, hr, -, hversion, hpayload, -⟩ := h.single_live ready
  exact ⟨hold.few, hold.noV1, ⟨r, hr, hversion, hpayload⟩, h.free, h.written⟩

theorem SafeToMigrate.migrates_prepared (ready : Ready this) (h : SafeToMigrate this store m)
    (hold : Unmigrated this store m) : Migrates this store (prepared this m) := by
  have wf := h.wellFormed ready
  have hsize := ready.size_ge
  obtain ⟨r, hlive, hr, -, hversion, hpayload, hsame⟩ := h.single_live ready
  have hheader : prepared this m r = m r := hsame r (Nat.le_refl _) (by omega)
  have hslot := writeSlot_prepared ready wf m
  refine ⟨?_, ?_, ⟨r, ?_, ?_, ?_⟩, ?_, ?_⟩
  · rw [hlive]
    exact Nat.le_succ 1
  · rw [hlive]
    intro w hw haccepted
    rw [List.mem_singleton.mp hw] at haccepted
    refine hold.noV1 r hr ⟨?_, ?_⟩
    · rw [← hheader]
      exact haccepted.1
    · rw [← payloadAt_congr ready hsame]
      exact haccepted.2
  · rw [hlive]
    exact List.mem_singleton_self r
  · rw [hheader]
    exact hversion
  · rw [payloadAt_congr ready hsame]
    exact hpayload
  · rw [hslot]
    exact writeSlot_not_live ready wf m
  · rw [pendingImage, prepared_prepared ready wf, hslot]
    exact h.written

/-- Every cut of a record over its own payload leaves that payload. -/
theorem payloadAt_cutImage_same {payload : List UInt8} (ready : Ready this)
    (hlen : payload.length = getMeasurementPayloadSize this) {result : List UInt8}
    (hprepared : payloadAt this (prepared this m) (writeSlot this m) = result)
    (hpending : payloadAt this (pendingImage this m payload) (writeSlot this m) = result) (j : Nat) :
    payloadAt this (cutImage this m payload j) (writeSlot this m) = result := by
  rw [← hprepared]
  apply slice_congr
  intro a ha ha'
  have hbyte : pendingImage this m payload a = prepared this m a := by
    have hslices : slice (pendingImage this m payload) (writeSlot this m + headerSzBytes)
        (getMeasurementPayloadSize this) =
        slice (prepared this m) (writeSlot this m + headerSzBytes)
          (getMeasurementPayloadSize this) := hpending.trans hprepared.symm
    have hget := congrArg (fun bytes => bytes.getD (a - (writeSlot this m + headerSzBytes)) 0)
      hslices
    rw [getD_slice _ _ _ _ _ (by omega), getD_slice _ _ _ _ _ (by omega),
      Nat.add_sub_cancel' ha] at hget
    exact hget
  simp only [headerSzBytes] at ha ha'
  have hfull := ready.record_length varIntV1Pending hlen
  have hsize := ready.size_ge
  have hpayloadSize : getMeasurementPayloadSize this = this.measurementSize - 1 := rfl
  -- the byte is programmed as in the whole record, or not at all
  by_cases hin : a < writeSlot this m + j
  · rw [← hbyte]
    obtain ⟨i, rfl⟩ := Nat.exists_eq_add_of_le (show writeSlot this m ≤ a by omega)
    have hi : i < (varIntV1Pending :: payload).length := by omega
    have hicut : i < ((varIntV1Pending :: payload).take j).length := by
      rw [List.length_take]
      omega
    rw [cutImage, pendingImage, program_inside _ _ _ _ hicut, program_inside _ _ _ _ hi,
      List.getElem_take]
  · rw [cutImage, program_outside]
    right
    rw [List.length_take]
    omega

/-- A pending record lands the same way in two flashes that agree on the headers and on its
slot. -/
theorem payloadAt_pendingImage_congr (ready : Ready this) {m' : Memory} {payload : List UInt8}
    (hheaders : ∀ w ∈ this.slots.offsets, m' w = m w)
    (hslot : ∀ a, writeSlot this m ≤ a → a < writeSlot this m + this.measurementSize →
      m' a = m a) :
    payloadAt this (pendingImage this m' payload) (writeSlot this m) =
      payloadAt this (pendingImage this m payload) (writeSlot this m) := by
  apply payloadAt_congr ready
  intro a ha ha'
  have hsame := hslot a ha ha'
  have hprepared : prepared this m' a = prepared this m a := by
    unfold prepared
    rw [writeSlot_congr hheaders]
    split
    next =>
      unfold erase
      rw [hsame]
    next => exact hsame
  rw [pendingImage, pendingImage, writeSlot_congr hheaders]
  unfold program
  rw [hprepared]

theorem SafeToMigrate.live_cut (ready : Ready this) (measures : Measures this)
    (h : SafeToMigrate this store m) {j : Nat} (hj : j ≠ 0) :
    ∃ r, r ≠ writeSlot this m ∧ isRecordV0 (cutImage this m (migratedPayload this store) j r) = true ∧
      ∀ w, w ∈ liveOffsets this (cutImage this m (migratedPayload this store) j) ↔
        w = writeSlot this m ∨ w = r := by
  have wf := h.wellFormed ready
  have hsize := ready.size_ge
  have hlen := measures.length_migrated store
  obtain ⟨r, hlive, hr, hne, hversion, -, hsame⟩ := h.single_live ready
  refine ⟨r, hne, ?_, fun w => ?_⟩
  · rw [cutImage_other ready wf hlen j (mem_liveOffsets.mp hr).1 hne (Nat.le_refl _) (by omega),
      hsame r (Nat.le_refl _) (by omega)]
    exact hversion
  · rw [mem_live_cutImage ready wf hlen hj, hlive, List.mem_singleton]

theorem SafeToMigrate.boots_cut (ready : Ready this) (measures : Measures this)
    (h : SafeToMigrate this store m) (hold : Unmigrated this store m) (j : Nat) :
    Boots this store (cutImage this m (migratedPayload this store) j) := by
  have wf := h.wellFormed ready
  have hsize := ready.size_ge
  have hlen := measures.length_migrated store
  rw [boots_iff ready measures]
  by_cases hj : j = 0
  · rw [hj, cutImage_zero]
    exact .inr (h.migrates_prepared ready hold)
  · obtain ⟨r, hne, hversion, hlive⟩ := h.live_cut ready measures hj
    have hheader := cutImage_header ready wf m (migratedPayload this store) hj
    have hfew : (liveOffsets this (cutImage this m (migratedPayload this store) j)).length ≤
        maxValidRecords := by
      have hsub : liveOffsets this (cutImage this m (migratedPayload this store) j) ⊆
          [writeSlot this m, r] := fun w hw => List.mem_pair.mpr ((hlive w).mp hw)
      exact (nodup_liveOffsets wf _).length_le_of_subset hsub
    by_cases hpayload : payloadAt this (cutImage this m (migratedPayload this store) j)
        (writeSlot this m) = signedMeasurement this .v1 store none
    · -- the record is complete enough to be accepted
      refine .inl ⟨hfew, writeSlot this m, (hlive _).mpr (.inl rfl), ?_, hpayload⟩
      rw [hheader]
      decide
    · -- the old record is migrated once more
      have htorn : Migrates this store (cutImage this m (migratedPayload this store) 1) := by
        refine h.torn.resolve_left fun hprepared => hpayload ?_
        exact payloadAt_cutImage_same ready hlen hprepared h.written j
      have hheaders : ∀ w ∈ this.slots.offsets,
          cutImage this m (migratedPayload this store) j w =
            cutImage this m (migratedPayload this store) 1 w := by
        intro w hw
        by_cases hwq : w = writeSlot this m
        · rw [hwq, hheader, cutImage_header ready wf _ _ Nat.one_ne_zero]
        · rw [cutImage_other ready wf hlen j hw hwq (Nat.le_refl _) (by omega),
            cutImage_other ready wf hlen 1 hw hwq (Nat.le_refl _) (by omega)]
      have hother : ∀ w ∈ this.slots.offsets, w ≠ writeSlot this m →
          ∀ a, w ≤ a → a < w + this.measurementSize →
          cutImage this m (migratedPayload this store) j a =
            cutImage this m (migratedPayload this store) 1 a := by
        intro w hw hwq a ha ha'
        rw [cutImage_other ready wf hlen j hw hwq ha ha',
          cutImage_other ready wf hlen 1 hw hwq ha ha']
      have hequal : liveOffsets this (cutImage this m (migratedPayload this store) j) =
          liveOffsets this (cutImage this m (migratedPayload this store) 1) :=
        List.filter_congr fun w hw => by rw [hheaders w hw]
      have hnext := writeSlot_congr hheaders
      refine .inr ⟨hfew, ?_, ?_, ?_, ?_⟩
      · rintro w hw haccepted
        rcases (hlive w).mp hw with rfl | rfl
        · exact hpayload haccepted.2
        · exact absurd haccepted.1 (by rw [isRecordV0_not_v1 hversion]; decide)
      · obtain ⟨w, hw, hwversion, hwpayload⟩ := htorn.found
        have hslot := (mem_liveOffsets.mp hw).1
        have hwq : w ≠ writeSlot this m := by
          rintro rfl
          rw [cutImage_header ready wf _ _ Nat.one_ne_zero] at hwversion
          exact absurd hwversion (by decide)
        refine ⟨w, hequal ▸ hw, ?_, ?_⟩
        · rw [hheaders w hslot]
          exact hwversion
        · rw [payloadAt_congr ready (hother w hslot hwq)]
          exact hwpayload
      · rw [hnext, hequal]
        exact htorn.free
      · have hmem := writeSlot_mem (m := cutImage this m (migratedPayload this store) 1) ready wf
        have hwq : writeSlot this (cutImage this m (migratedPayload this store) 1) ≠
            writeSlot this m := by
          intro heq
          exact htorn.free (hequal ▸ (hlive _).mpr (.inl heq))
        rw [hnext, payloadAt_pendingImage_congr ready hheaders (hother _ hmem hwq)]
        exact htorn.written

theorem SafeToMigrate.recoverable_dropped (ready : Ready this) (measures : Measures this)
    (h : SafeToMigrate this store m) {ws : List Nat} (hws : ws ⊆ liveOffsets this m) :
    Recoverable this store (dropped m (validImage this m (migratedPayload this store)) ws) := by
  have wf := h.wellFormed ready
  have hlen := measures.length_migrated store
  have hq := writeSlot_mem (m := m) ready wf
  obtain ⟨r, hlive, -⟩ := h.single_live ready
  have hmem := fun w => mem_live_dropped (w := w) ready wf hlen hws
  have hnot : writeSlot this m ∉ ws := fun hin => h.free (hws hin)
  refine ⟨?_, writeSlot this m, (hmem _).mpr ⟨.inl rfl, hnot⟩, ?_, ?_⟩
  · have hsub : liveOffsets this (dropped m (validImage this m (migratedPayload this store)) ws) ⊆
        [writeSlot this m, r] := by
      intro w hw
      have hcase := ((hmem w).mp hw).1
      rw [hlive, List.mem_singleton] at hcase
      exact List.mem_pair.mpr hcase
    exact (nodup_liveOffsets wf _).length_le_of_subset hsub
  · rw [dropped, withHeaders_not_mem hnot, validImage_header ready wf hlen]
    decide
  · rw [payloadAt_dropped wf hws hq, payloadAt_validImage]
    exact h.written

theorem SafeToMigrate.safe (ready : Ready this) (measures : Measures this) (sync : Synced this s m)
    (h : SafeToMigrate this store m) (hold : Unmigrated this store m) :
    MigrationSafe this store s m := by
  have wf := h.wellFormed ready
  have hmigrates := h.migrates ready hold
  obtain ⟨r, hr, hfind⟩ := hmigrates.findMatch_v0
  have himages : ∀ image, MigrationImage this m (migratedPayload this store) image →
      Boots this store image := by
    rintro image (_ | _ | ⟨j⟩ | ⟨hws⟩)
    · exact (boots_iff ready measures).mpr (.inr hmigrates)
    · exact (boots_iff ready measures).mpr (.inr (h.migrates_prepared ready hold))
    · exact h.boots_cut ready measures hold j
    · exact (boots_iff ready measures).mpr (.inl (h.recoverable_dropped ready measures hws))
  refine ⟨(validates_iff ready measures sync).mpr (.inr hmigrates), fun image hcut => ?_⟩
  exact wp_powerLoss (wp_varIntValidate_migrates ready wf measures sync hold.few
    (findMatch_noV1 hold.noV1) hfind hr himages) hcut

/-- A V0 journal is migrated whatever happens exactly when the condition holds. -/
theorem migration_safe_iff (ready : Ready this) (measures : Measures this)
    (sync : Synced this s m) (hold : Unmigrated this store m) :
    MigrationSafe this store s m ↔ SafeToMigrate this store m := by
  refine ⟨fun h => ?_, fun h => h.safe ready measures sync hold⟩
  have hlen := measures.length_migrated store
  have hmigrates : Migrates this store m := by
    refine ((validates_iff ready measures sync).mp h.done).resolve_left ?_
    rintro ⟨-, w, hw, haccepted⟩
    exact hold.noV1 w hw haccepted
  obtain ⟨r₀, hr₀, hfind⟩ := hmigrates.findMatch_v0
  have wf := ready.wellFormed_of_mem (mem_liveOffsets.mp hr₀).1
  have hcut := fun j => (boots_iff ready measures).mp (h.cut _ (powerLoss_varIntValidate_cut ready wf
    measures sync hold.few (findMatch_noV1 hold.noV1) hfind hr₀ j))
  -- no record that is still live behind the erase is accepted
  have hunaccepted : ∀ w ∈ liveOffsets this (prepared this m),
      ¬Accepted this (prepared this m) store w := by
    rintro w hw ⟨hversion, hpayload⟩
    obtain ⟨hwold, hsame⟩ := prepared_live ready wf hw
    refine hold.noV1 w hwold ⟨?_, ?_⟩
    · rw [← hsame w (Nat.le_refl _) (Nat.lt_add_of_pos_right wf.slotSize_pos)]
      exact hversion
    · rw [← payloadAt_congr ready hsame]
      exact hpayload
  have herased : Migrates this store (prepared this m) := by
    have hzero : Recoverable this store (cutImage this m (migratedPayload this store) 0) ∨
        Migrates this store (cutImage this m (migratedPayload this store) 0) := hcut 0
    rw [cutImage_zero] at hzero
    refine hzero.resolve_left ?_
    rintro ⟨-, w, hw, haccepted⟩
    exact hunaccepted w hw haccepted
  have hone : Recoverable this store (cutImage this m (migratedPayload this store) 1) ∨
      Migrates this store (cutImage this m (migratedPayload this store) 1) := hcut 1
  have hlive := fun w => mem_live_cutImage (m := m) (w := w) ready wf hlen Nat.one_ne_zero
  refine ⟨hmigrates.free, ?_, hmigrates.written, ?_⟩
  · -- with the record begun there is room for one other live record
    have hfew : (liveOffsets this (cutImage this m (migratedPayload this store) 1)).length ≤
        maxValidRecords := hone.elim (·.few) (·.few)
    have hnodup : (writeSlot this m :: liveOffsets this (prepared this m)).Nodup :=
      List.nodup_cons.mpr ⟨writeSlot_not_live ready wf m, nodup_liveOffsets wf _⟩
    have hsub : writeSlot this m :: liveOffsets this (prepared this m) ⊆
        liveOffsets this (cutImage this m (migratedPayload this store) 1) :=
      fun w hw => (hlive w).mpr (List.mem_cons.mp hw)
    have hcount := Nat.le_trans (hnodup.length_le_of_subset hsub) hfew
    rw [List.length_cons] at hcount
    obtain ⟨r, hr, hversion, hpayload⟩ := herased.found
    obtain ⟨x, hx⟩ : ∃ x, liveOffsets this (prepared this m) = [x] := by
      apply List.length_eq_one_iff.mp
      have := List.length_pos_of_mem hr
      have : maxValidRecords = 2 := rfl
      omega
    obtain ⟨-, hsame⟩ := prepared_live ready wf hr
    rw [hx, List.mem_singleton] at hr
    refine ⟨r, by rw [hx, hr], ?_, ?_⟩
    · rw [← hsame r (Nat.le_refl _) (Nat.lt_add_of_pos_right wf.slotSize_pos)]
      exact hversion
    · rw [← payloadAt_congr ready hsame]
      exact hpayload
  · rcases hone with ⟨-, w, hw, haccepted⟩ | hagain
    · left
      rcases (hlive w).mp hw with rfl | hold
      · rw [← payloadAt_cutImage_one this m (migratedPayload this store)]
        exact haccepted.2
      · have hslot := (mem_liveOffsets.mp hold).1
        have hne : w ≠ writeSlot this m := fun heq =>
          writeSlot_not_live ready wf m (heq ▸ hold)
        have hsame : ∀ a, w ≤ a → a < w + this.measurementSize →
            cutImage this m (migratedPayload this store) 1 a = prepared this m a :=
          fun a ha ha' => cutImage_other ready wf hlen 1 hslot hne ha ha'
        refine absurd ⟨?_, ?_⟩ (hunaccepted w hold)
        · rw [← hsame w (Nat.le_refl _) (Nat.lt_add_of_pos_right wf.slotSize_pos)]
          exact haccepted.1
        · rw [← payloadAt_congr ready hsame]
          exact haccepted.2
    · exact .inr hagain

end

/-! The two transports on a partition of two blocks. -/

/-- A signature that changes every byte, and another measurement for V0. -/
def migrationProtocol (isOpteePresent : Bool) : Protocol UInt8 := { sampleProtocol 2 with
  isOpteePresent
  sign := fun meas => meas.map (· ^^^ 0x0F)
  computeVarMeasurement := fun version store _ =>
    .ok (List.replicate 32 (match version with | .v0 => ~~~store | .v1 => store)) }

theorem ready_migration (isOpteePresent : Bool) : Ready (migrationProtocol isOpteePresent) :=
  let ready := @ready_sample 2 (by decide) (by decide)
  ⟨ready.offset_ne, ready.size_ne, ready.offset_mod, ready.size_mod, ready.inside,
    ready.density_lt, ready.size_ge, ready.pool⟩

theorem measures_migration (isOpteePresent : Bool) :
    Measures (migrationProtocol isOpteePresent) where
  computes := fun _ _ _ => ⟨_, rfl, List.length_replicate⟩
  sign_length := fun _ => List.length_map _

def v0Flash : Memory := sampleFlash [(128, varIntValid, 0xF1)]

theorem unmigrated_sample (isOpteePresent : Bool) :
    Unmigrated (migrationProtocol isOpteePresent) 1 v0Flash := by
  cases isOpteePresent with
  | true => exact ⟨by decide +kernel, by decide +kernel, by unfold Accepted; decide +kernel⟩
  | false => exact ⟨by decide +kernel, by decide +kernel, by unfold Accepted; decide +kernel⟩

theorem migration_safe_sample :
    MigrationSafe (migrationProtocol true) 1 (sampleDriver v0Flash) v0Flash :=
  (migration_safe_iff (ready_migration true) (measures_migration true) (fun _ _ => rfl)
    (unmigrated_sample true)).mpr
    ⟨by decide +kernel, ⟨128, by decide +kernel⟩, by decide +kernel,
      .inr ⟨by decide +kernel, by unfold Accepted; decide +kernel, by decide +kernel,
        by decide +kernel, by decide +kernel⟩⟩

/-- FF-A does not sign the V0 measurement, so its record does not match. With OP-TEE a pending
record beside the valid one is enough: one byte of the new record makes three. -/
theorem migration_fails :
    (Unmigrated (migrationProtocol false) 1 v0Flash ∧
      ((varIntValidate (migrationProtocol false) 1 (sampleDriver v0Flash)).run v0Flash).1.map
        (·.1) = some .deviceError) ∧
    (Unmigrated (migrationProtocol true) 1
        (sampleFlash [(128, varIntValid, 0xF1), (161, varIntPending, 0)]) ∧
      ∃ image, (varIntValidate (migrationProtocol true) 1
          (sampleDriver (sampleFlash [(128, varIntValid, 0xF1), (161, varIntPending, 0)]))).PowerLoss
          (sampleFlash [(128, varIntValid, 0xF1), (161, varIntPending, 0)]) image ∧
        ((boot (migrationProtocol true) 1 (sampleDriver image)).run image).1.map (·.1) =
          some .deviceError) := by
  refine ⟨⟨unmigrated_sample false, by decide +kernel⟩, ⟨by decide +kernel, by decide +kernel, ?_⟩,
    _, powerLoss_varIntValidate_cut (r := 128) (ready_migration true) ⟨by decide, by decide⟩
      (measures_migration true) (fun _ _ => rfl) (by decide +kernel) (by decide +kernel)
      (by decide +kernel) (by decide +kernel) 1, by decide +kernel⟩
  unfold Accepted
  decide +kernel

end VarInt
