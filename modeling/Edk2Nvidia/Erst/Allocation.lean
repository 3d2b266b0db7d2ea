import Edk2Nvidia.Erst.Reclaiming
import Edk2Nvidia.Erst.Service

/-! The allocator of the ERST driver on any flash that tells of its failures: what it finds is free,
whatever fails in the moves it makes, and no record is lost on the way, wherever power is. -/
namespace Erst
open Flash

/-- A failure is an error, and a write that fails leaves its last byte. -/
def Behaves : Command → Ending EfiCode → Prop
  | _, .ok => True
  | .write _ data, .failed status effect => EfiCode.isError status.val ∧ effect < data.length
  | _, .failed status _ => EfiCode.isError status.val

def anyFlash (cut : Memory → Prop) : Setting EfiCode where
  ends := Behaves
  stops := True
  cut := cut

theorem Device.anyFlash (cut : Memory → Prop) : Device (anyFlash cut) where
  error command status effect h := by
    cases command with
    | write offset data => exact h.1
    | read offset size => exact h
    | erase offset size => exact h
  torn _ _ _ _ h := h.2

section Allocate
variable {config : Config} {driver driver' : Driver} {m m' : Memory} {logs : Logs}
  {fuel recordLength : Nat} {dummyOp : Bool} {tape : Nat → Ending EfiCode} {status : EfiCode}
  {offset : Nat}

theorem Room.apart {target : Nat} (hsync : InSync config driver m logs)
    (hroom : Room config driver logs recordLength target) :
    ∀ record ∈ driver.cperInfo, record.recordOffset + record.recordLength ≤ logs.gap config target ∨
      logs.gap config target + recordLength ≤ record.recordOffset := by
  intro record hrecord
  have hfits := hroom.fits
  rw [← Multiset.mem_coe, hsync.tables.infos] at hrecord
  obtain ⟨block, hblock, front, entry, back, hlog, hlive, rfl⟩ := Logs.mem_infos config hrecord
  obtain ⟨_, hfront, hinside⟩ := hsync.stored.inside hblock hlog
  show block * config.blockSize + front.size + entry.size ≤ target * config.blockSize +
    (logs target).size ∨ target * config.blockSize + (logs target).size + recordLength ≤
      block * config.blockSize + front.size
  rcases Nat.lt_trichotomy block target with hlt | rfl | hlt
  · have hmul := Nat.mul_le_mul_right config.blockSize (Nat.succ_le_of_lt hlt)
    rw [Nat.succ_mul] at hmul
    omega
  · omega
  · have hmul := Nat.mul_le_mul_right config.blockSize (Nat.succ_le_of_lt hlt)
    rw [Nat.succ_mul] at hmul
    omega

/-- What is allocated is blank, inside one block and apart from every record, even when the flash
fails in the reclaims of the search; the records are still those that were tracked. -/
theorem erstFindFreeSpace_free (hsound : config.Sound) (hsync : InSync config driver m logs)
    (hlength : recordLength ≤ config.blockSize)
    (hmeets : (erstFindFreeSpace config fuel recordLength dummyOp driver).Meets
      (anyFlash fun _ => True) tape m)
    (hrun : (erstFindFreeSpace config fuel recordLength dummyOp driver).runFaults tape m =
      (some ((status, offset), driver'), m')) (hstatus : EfiCode.isError status = false) :
    (∃ block < config.numBlocks, block * config.blockSize ≤ offset ∧
      offset + recordLength ≤ block * config.blockSize + config.blockSize) ∧
    Blank m' (config.norErstOffset + offset) recordLength ∧
    (∀ record ∈ driver'.cperInfo, record.recordOffset + record.recordLength ≤ offset ∨
      offset + recordLength ≤ record.recordOffset) ∧
    (driver'.cperInfo.map fun record => (record.recordId, record.recordLength)) =
      driver.cperInfo.map (fun record => (record.recordId, record.recordLength)) ∧
    ∃ logs', InSync config driver' m' logs' := by
  have hsearch : wpIn (anyFlash fun _ => True) (erstFindFreeSpace config fuel recordLength dummyOp)
      (Searched (anyFlash fun _ => True) config driver m logs recordLength) driver m :=
    erstFindFreeSpace_wp hsound (.anyFlash _) trivial fuel (fun _ _ => trivial) hsync hlength
  rcases wpIn_run hsearch hmeets hrun with ⟨herror, -, -⟩ | ⟨logs', target, -, hfound⟩
  · rw [hstatus] at herror
    cases herror
  · have hoffset : offset = logs'.gap config target := hfound.offset
    have hfits := hfound.room.fits
    have hblank := hfound.sync.stored.blank target hfound.room.bound
    have hgap : config.place target + (logs' target).size =
        config.norErstOffset + logs'.gap config target := Nat.add_assoc _ _ _
    subst hoffset
    refine ⟨⟨target, hfound.room.bound, Nat.le_add_right _ _, ?_⟩, ?_, hfound.room.apart hfound.sync,
      hfound.alike.records, logs', hfound.sync⟩
    · unfold Logs.gap
      omega
    · rw [hgap] at hblank
      exact hblank.sub (Nat.le_refl _) (by omega)

theorem Faithful.search {S : Setting EfiCode} (hhonest : Faithful S driver) (hsound : config.Sound)
    (hdevice : Device S) (hstops : S.stops)
    (hcut : S.cut = fun image => Preserved config image (logs.contents config))
    (hsync : InSync config driver m logs) (hlength : recordLength ≤ config.blockSize)
    (hmeets : (erstFindFreeSpace config fuel recordLength dummyOp driver).Meets S tape m) :
    (∀ image, (erstFindFreeSpace config fuel recordLength dummyOp driver).Cut tape m image →
      Preserved config image (logs.contents config)) ∧
    ∀ offset driver' m', (erstFindFreeSpace config fuel recordLength dummyOp driver).runFaults tape m =
      (some ((.success, offset), driver'), m') →
        ∃ logs', InSync config driver' m' logs' ∧
          logs'.contents config = logs.contents config := by
  have hsearch : wpIn S (erstFindFreeSpace config fuel recordLength dummyOp)
      (Searched S config driver m logs recordLength) driver m := by
    apply erstFindFreeSpace_wp hsound hdevice hstops fuel ?_ hsync hlength
    intro image hpreserved
    rw [hcut]
    exact hpreserved hhonest
  constructor
  · intro image hlost
    have himage := wpIn_cut hsearch hmeets hlost
    rw [hcut] at himage
    exact himage
  · intro offset driver' m' hrun
    rcases wpIn_run hsearch hmeets hrun with ⟨herror, -, -⟩ | ⟨logs', target, -, hfound⟩
    · have herror' : EfiCode.isError EfiCode.success = true := herror
      exact absurd herror' (by decide)
    · exact ⟨logs', hfound.sync, (hfound.same hhonest).contents⟩

/-- As long as the records are read as they stand, each of them stands on the flash at every moment of
the search, and it is tracked with its contents at the end. -/
theorem erstFindFreeSpace_preserved (hsound : config.Sound) (hsync : InSync config driver m logs)
    (hlength : recordLength ≤ config.blockSize)
    (hmeets : (erstFindFreeSpace config fuel recordLength dummyOp driver).Meets
      (anyFlash fun _ => True) tape m)
    (hhonest : driver.shadowFlash.isSome = true ∨ ∀ i, tape i = .ok) :
    (∀ image, (erstFindFreeSpace config fuel recordLength dummyOp driver).Cut tape m image →
      Preserved config image (logs.contents config)) ∧
    ∀ offset driver' m', (erstFindFreeSpace config fuel recordLength dummyOp driver).runFaults tape m =
      (some ((.success, offset), driver'), m') →
        ∃ logs', InSync config driver' m' logs' ∧
          logs'.contents config = logs.contents config := by
  rcases hhonest with hcached | hok
  · have hhonest : Faithful (anyFlash fun image => Preserved config image (logs.contents config))
        driver := .inr hcached
    exact hhonest.search hsound (.anyFlash _) trivial rfl hsync hlength hmeets
  · obtain rfl : tape = fun _ => .ok := funext hok
    have hreliable : ¬ (Setting.reliable fun image =>
        Preserved config image (logs.contents config) : Setting EfiCode).Faulty :=
      Setting.not_faulty_reliable _
    have hhonest : Faithful (.reliable fun image => Preserved config image (logs.contents config))
        driver := .inl hreliable
    exact hhonest.search hsound (.of_reliable hreliable) trivial rfl hsync hlength
      (Prog.along_ok (fun _ _ _ => rfl) _ [] m)

end Allocate

/-! On the small partition, with two records and an old copy of one of them in the first block. -/

theorem meets_ok (p : Prog EfiCode α) (cut : Memory → Prop) (m : Memory) :
    p.Meets (anyFlash cut) (fun _ => .ok) m := by
  apply Prog.along_ok
  intro past command m
  cases command <;> trivial

/-- A search for nearly a whole block, which takes a reclaim of the block with the records. -/
theorem search_writes : ∃ driver m logs offset driver' m', InSync twoBlocks driver m logs ∧
    logs.contents twoBlocks = twoRecords ∧ driver.cperInfo.length = 2 ∧
    (erstFindFreeSpace twoBlocks 4 (erstMinBlockSize - 300) false driver).runFaults (fun _ => .ok) m =
      (some ((.success, offset), driver'), m') ∧ erstMinBlockSize ≤ offset := by
  have hends : (serve twoBlocks 1 writes emptyDriver).endsWith blankFlash (fun r m =>
      decide (r.1.map Response.status = [acpiSuccess, acpiSuccess, acpiSuccess]) &&
        ((erstFindFreeSpace twoBlocks 4 (erstMinBlockSize - 300) false r.2).endsWith m fun found _ =>
          decide (r.2.cperInfo.length = 2 ∧ found.1.1 = .success ∧ erstMinBlockSize ≤ found.1.2))) =
            true := by
    decide +kernel
  obtain ⟨⟨responses, driver⟩, m, hwrites, hcheck⟩ := Prog.exists_of_endsWith hends
  obtain ⟨hstatus, hcheck⟩ := Bool.and_eq_true_iff.mp hcheck
  have hidle := idle_writes hwrites (of_decide_eq_true hstatus)
  obtain ⟨⟨⟨status, offset⟩, driver'⟩, m', hrun, hfound⟩ := Prog.exists_of_endsWith hcheck
  obtain ⟨htwo, rfl, hoffset⟩ := of_decide_eq_true hfound
  obtain ⟨logs, hsync, hcontents, -⟩ := hidle.sync
  rw [← Prog.runFaults_ok] at hrun
  exact ⟨driver, m, logs, offset, driver', m', hsync, hcontents, htwo, hrun, hoffset⟩

theorem erstFindFreeSpace_free_writes : ∃ (driver : Driver) (offset : Nat) (driver' : Driver)
    (m' : Memory), driver.cperInfo.length = 2 ∧ erstMinBlockSize ≤ offset ∧
    (∃ block < twoBlocks.numBlocks, block * twoBlocks.blockSize ≤ offset ∧
      offset + (erstMinBlockSize - 300) ≤ block * twoBlocks.blockSize + twoBlocks.blockSize) ∧
    Blank m' (twoBlocks.norErstOffset + offset) (erstMinBlockSize - 300) ∧
    (∀ record ∈ driver'.cperInfo, record.recordOffset + record.recordLength ≤ offset ∨
      offset + (erstMinBlockSize - 300) ≤ record.recordOffset) ∧
    (driver'.cperInfo.map fun record => (record.recordId, record.recordLength)) =
      driver.cperInfo.map (fun record => (record.recordId, record.recordLength)) ∧
    ∃ logs', InSync twoBlocks driver' m' logs' := by
  obtain ⟨driver, m, logs, offset, driver', m', hsync, -, htwo, hrun, hoffset⟩ := search_writes
  exact ⟨driver, offset, driver', m', htwo, hoffset, erstFindFreeSpace_free twoBlocks_sound hsync
    (by decide) (meets_ok _ _ _) hrun EfiCode.isError_success⟩

theorem erstFindFreeSpace_preserved_writes : ∃ (driver : Driver) (m : Memory) (logs : Logs)
    (offset : Nat) (driver' : Driver) (m' : Memory),
    logs.contents twoBlocks = twoRecords ∧ erstMinBlockSize ≤ offset ∧
    (erstFindFreeSpace twoBlocks 4 (erstMinBlockSize - 300) false driver).runFaults (fun _ => .ok) m =
      (some ((.success, offset), driver'), m') ∧
    (∀ image, (erstFindFreeSpace twoBlocks 4 (erstMinBlockSize - 300) false driver).Cut (fun _ => .ok)
      m image → Preserved twoBlocks image (logs.contents twoBlocks)) ∧
    ∀ offset driver' m', (erstFindFreeSpace twoBlocks 4 (erstMinBlockSize - 300) false driver).runFaults
      (fun _ => .ok) m = (some ((.success, offset), driver'), m') →
        ∃ logs', InSync twoBlocks driver' m' logs' ∧
          logs'.contents twoBlocks = logs.contents twoBlocks := by
  obtain ⟨driver, m, logs, offset, driver', m', hsync, hcontents, -, hrun, hoffset⟩ := search_writes
  exact ⟨driver, m, logs, offset, driver', m', hcontents, hoffset, hrun, erstFindFreeSpace_preserved
    twoBlocks_sound hsync (by decide) (meets_ok _ _ _) (.inr fun _ => rfl)⟩

end Erst
