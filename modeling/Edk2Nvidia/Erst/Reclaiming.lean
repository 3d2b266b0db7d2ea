import Edk2Nvidia.Erst.Relocation

/-! A search for room with all the reclaims it makes, from the moves they are made of. What it finds
is room and no record is lost, however deep the searches nest. -/
namespace Erst
open Flash

section Reclaim
variable {config : Config} {S : Setting EfiCode} {driver driver' driver'' : Driver}
  {m m' m'' : Memory} {logs logs' logs'' : Logs}

theorem Reclaiming.kept (h : Reclaiming S config driver m logs driver' m' logs')
    (hsync : InSync config driver' m' logs') : Kept S config driver m logs driver' m' :=
  ⟨h.frozen.untouched, fun hsound => ⟨logs', hsync, h.alike, h.same (.inl hsound)⟩⟩

theorem Reclaiming.honest (h : Reclaiming S config driver m logs driver' m' logs') :
    Faithful S driver' ↔ Faithful S driver := Faithful.of_alike h.alike

theorem Reclaiming.cut (h : Reclaiming S config driver m logs driver' m' logs')
    (hcut : ∀ image, (Faithful S driver → Preserved config image (logs.contents config)) →
      S.cut image) :
    ∀ image, (Faithful S driver' → Preserved config image (logs'.contents config)) → S.cut image := by
  intro image hpreserved
  apply hcut image
  intro hon
  rw [← (h.same hon).contents]
  exact hpreserved (h.honest.mpr hon)

theorem Kept.trans (h : Reclaiming S config driver m logs driver' m' logs')
    (hkept : Kept S config driver' m' logs' driver'' m'') :
    Kept S config driver m logs driver'' m'' := by
  refine ⟨hkept.1.trans_frozen h.frozen, fun hsound => ?_⟩
  obtain ⟨logs'', hsync, halike, hsame⟩ := hkept.2 hsound
  exact ⟨logs'', hsync, h.alike.trans halike, (h.same (.inl hsound)).trans hsame⟩

theorem Searched.trans (h : Reclaiming S config driver m logs driver' m' logs') {recordLength : Nat}
    {r : EfiCode × Nat} (hsearched : Searched S config driver' m' logs' recordLength r driver'' m'') :
    Searched S config driver m logs recordLength r driver'' m'' := by
  rcases hsearched with ⟨herror, hcut, hkept⟩ | ⟨logs'', target, hr, hfound⟩
  · exact .inl ⟨herror, hcut, hkept.trans h⟩
  · refine .inr ⟨logs'', target, hr, hfound.offset, hfound.sync, hfound.room,
      h.alike.trans hfound.alike, h.frozen.trans h.alike.recordCount hfound.frozen, ?_⟩
    intro hon
    exact (h.same hon).trans (hfound.same (h.honest.mpr hon))

theorem Frozen.mark {block : Nat} (hstart : 0 ≤ (driver.blockInfo block).validEntries)
    (f : BlockInfo → BlockInfo) :
    Frozen config driver m logs (driver.updateBlock block f) m logs where
  untouched _ _ _ _ _ _ := rfl
  valid b _ hneg := by
    have hne : b ≠ block := by
      rintro rfl
      omega
    exact congrArg BlockInfo.validEntries (Function.update_of_ne hne _ _)
  log _ _ _ := rfl
  info _ _ _ _ _ _ _ _ := rfl

/-- An erase that may stop anywhere in a block that was not being reclaimed at first. -/
theorem Frozen.untouched_erase {block size : Nat} (h : Frozen config driver m logs driver' m' logs')
    (hstart : 0 ≤ (driver.blockInfo block).validEntries) (hsize : size ≤ config.blockSize) :
    Untouched config driver m (Flash.erase m' (config.place block) size) := by
  intro b hb hneg a ha ha'
  have hne : b ≠ block := by
    rintro rfl
    omega
  have hapart : a < config.place block ∨ config.place block + config.blockSize ≤ a :=
    Config.place_disjoint hne a ⟨ha, ha'⟩
  rw [erase_outside _ _ _ _ (by omega), h.untouched b hb hneg a ha ha']

theorem Reclaiming.erase {block : Nat} (h : Reclaiming S config driver m logs driver' m' logs')
    (hstart : 0 ≤ (driver.blockInfo block).validEntries) (hblock : block < config.numBlocks)
    (hnone : (logs' block).liveCount = 0) (halike : driver'.Alike driver'')
    (hblocks : ∀ b, b ≠ block → driver''.blockInfo b = driver'.blockInfo b)
    (hinfos : driver''.cperInfo = driver'.cperInfo) :
    Reclaiming S config driver m logs driver'' (erase m' (config.place block) config.blockSize)
      (Function.update logs' block []) := by
  have hother : ∀ b, (driver.blockInfo b).validEntries < 0 → b ≠ block := by
    rintro b hneg rfl
    omega
  refine ⟨h.alike.trans halike, ⟨h.frozen.untouched_erase hstart (Nat.le_refl _), ?_, ?_, ?_⟩, ?_⟩
  · intro b hb hneg
    rw [hblocks b (hother b hneg), h.frozen.valid b hb hneg]
  · intro b hb hneg
    rw [Function.update_of_ne (hother b hneg), h.frozen.log b hb hneg]
  · intro b hb hneg k front entry back hs
    unfold Driver.info
    rw [hinfos]
    exact h.frozen.info b hb hneg k front entry back hs
  · intro hon
    exact (h.same hon).trans (.erase hblock hnone)

/-- A block is reclaimed with searches that end well or keep what there is. -/
theorem erstReclaimBlock_wp (hsound : config.Sound) (hdevice : Device S) (hstops : S.stops)
    {find : Find} {fuel block : Nat}
    (hcut : ∀ image, (Faithful S driver → Preserved config image (logs.contents config)) →
      S.cut image)
    (hfind : ∀ (length : Nat) (driver₁ : Driver) (m₁ : Memory) (logs₁ : Logs),
      (∀ image, (Faithful S driver₁ → Preserved config image (logs₁.contents config)) →
        S.cut image) → InSync config driver₁ m₁ logs₁ → length ≤ config.blockSize →
      wpIn S (find length false) (Searched S config driver₁ m₁ logs₁ length) driver₁ m₁)
    (hsync : InSync config driver m logs) (hblock : block < config.numBlocks)
    (hstart : 0 ≤ (driver.blockInfo block).validEntries) :
    wpIn S (erstReclaimBlock config find fuel block) (fun status driver' m' => S.cut m' ∧
      ((EfiCode.isError status ∧ Kept S config driver m logs driver' m') ∨
        status = .success ∧ ∃ logs', InSync config driver' m' logs' ∧
          Reclaiming S config driver m logs driver' m' logs')) driver m := by
  unfold erstReclaimBlock
  rw [wpIn_modify_bind]
  have hmarked := hsync.mark block
  have hstarted : Reclaiming S config driver m logs (driver.updateBlock block fun info =>
      if info.validEntries > 0 then { info with validEntries := -info.validEntries } else info)
      m logs :=
    ⟨⟨fun _ => rfl, fun _ => rfl, rfl, rfl, rfl, rfl⟩, .mark hstart _, fun _ => .refl config logs⟩
  have hnow : ∀ driver' m' logs', InSync config driver' m' logs' →
      Reclaiming S config driver m logs driver' m' logs' → S.cut m' := by
    intro driver' m' logs' hsync' h
    exact h.cut hcut m' fun _ => hsync'.stored.preserved
  apply reclaimRecords_wp (F := fun _ driver' m' => S.cut m' ∧ Kept S config driver m logs driver' m')
    (I := fun cperInfoIndex driver' m' logs' => Reclaiming S config driver m logs driver' m' logs' ∧
      ((driver'.blockInfo block).validEntries < 0 → cperInfoIndex < driver'.recordCount))
    (J := fun k driver' m' logs' => Reclaiming S config driver m logs driver' m' logs' ∧
      ∃ (front : Log) (entry : Entry) (back : Log),
        Source config driver' logs' k block front entry back) hblock
  · -- the next record
    rintro cperInfoIndex driver' m' logs' hsync' ⟨h, hindex⟩ hneg
    have hnow' := hnow driver' m' logs' hsync' h
    apply nextInBlock_wp (hindex hneg) hnow' hstops
    · intro k hk hlower hupper
      have hlt := hsound.partition_lt
      have hpart := Config.le_partitionSize hblock (Nat.le_refl config.blockSize)
      rw [u32_of_lt (by omega)] at hupper
      obtain ⟨front, entry, back, hs⟩ := hsync'.source hk ⟨hlower, hupper⟩
      exact ⟨hnow', rfl, rfl, .inr ⟨k, rfl, h, front, entry, back, hs⟩⟩
    · exact ⟨hnow', rfl, rfl, .inl ⟨rfl, hnow', h.kept hsync'⟩⟩
  · -- its move
    rintro k driver' m' logs' hsync' ⟨h, front, entry, back, hs⟩ hneg
    have hmove := erstRelocateRecord_reclaiming hsound hdevice hcut (by
      intro driver₁ hsync₁ hhonest hlength
      apply hfind entry.size driver₁ m' logs' ?_ hsync₁ hlength
      intro image hpreserved
      apply h.cut hcut image
      intro hon
      exact hpreserved (hhonest.mpr (h.honest.mp hon))) hsync' hs hneg hstart h
    apply wpIn_mono hmove
    rintro status driver'' m'' ⟨hcut', ⟨herror, hkept⟩ | ⟨hr, logs'', hsync'', ⟨h', hk⟩, hvalid⟩⟩
    · exact ⟨hcut', .inl ⟨herror, hcut', hkept⟩⟩
    · exact ⟨hcut', .inr ⟨hr, logs'', hsync'', ⟨h', fun _ => hk⟩, hvalid⟩⟩
  · -- the erase, once the block holds no record
    rintro cperInfoIndex driver' m' logs' hsync' ⟨h, -⟩ hzero
    have hnow' := hnow driver' m' logs' hsync' h
    have hnone : (logs' block).liveCount = 0 := by
      have hcount := hsync'.tables.valid block hblock
      rw [hzero] at hcount
      exact hcount.symm
    have herasing : ∀ size ≤ config.blockSize,
        S.cut (Flash.erase m' (config.place block) size) := by
      intro size hsize
      apply h.cut hcut
      intro _
      exact hsync'.stored.preserved_erasing hnone fun a ha => erase_outside _ _ _ _ (by omega)
    have herased := herasing config.blockSize (Nat.le_refl _)
    apply erstEraseBlock_wp hsound hdevice hsync' hblock hzero hnow' herased
    · intro driver'' hsync'' halike hblocks _ hinfos
      exact ⟨herased, .inr ⟨rfl, _, hsync'', h.erase hstart hblock hnone halike hblocks hinfos⟩⟩
    · intro hfaulty size hsize
      refine ⟨herasing size hsize, fun status driver'' herror => ⟨herasing size hsize, .inl ⟨herror,
        h.frozen.untouched_erase hstart hsize, fun hsound => absurd hfaulty hsound⟩⟩⟩
  · rintro status driver' m' herror ⟨hcut', hkept⟩
    exact ⟨hcut', .inl ⟨herror, hkept⟩⟩
  · exact hnow _ _ _ hmarked hstarted
  · exact .inl hstops
  · exact hmarked
  · refine ⟨hstarted, fun hneg => ?_⟩
    -- a block that is being reclaimed holds a record, and it is tracked
    have hcount := hmarked.tables.valid block hblock
    have hlive : (logs block).liveCount ≠ 0 := by omega
    obtain ⟨entry, hentry, hentryLive⟩ := List.countP_pos_iff.mp (Nat.pos_of_ne_zero hlive)
    obtain ⟨front, back, hlog⟩ := List.append_of_mem hentry
    obtain ⟨k, hs⟩ := hmarked.tracked hblock hlog hentryLive
    exact Nat.lt_of_le_of_lt (Nat.zero_le k) hs.index
  · show ((Function.update driver.blockInfo block _) block).validEntries ≤ 0
    rw [Function.update_self]
    split
    · show -(driver.blockInfo block).validEntries ≤ 0
      omega
    · omega

theorem erstFindFreeSpace_wp (hsound : config.Sound) (hdevice : Device S) (hstops : S.stops)
    (fuel : Nat) {recordLength : Nat} {dummyOp : Bool}
    (hcut : ∀ image, (Faithful S driver → Preserved config image (logs.contents config)) →
      S.cut image)
    (hsync : InSync config driver m logs) (hlength : recordLength ≤ config.blockSize) :
    wpIn S (erstFindFreeSpace config fuel recordLength dummyOp)
      (Searched S config driver m logs recordLength) driver m := by
  induction fuel generalizing recordLength dummyOp driver m logs with
  | zero =>
    rw [erstFindFreeSpace]
    exact wpIn_outOfFuel.mpr ⟨hcut m fun _ => hsync.stored.preserved, hstops⟩
  | succ fuel ih =>
    have hnow : S.cut m := hcut m fun _ => hsync.stored.preserved
    rw [erstFindFreeSpace, wpIn_get_bind]
    cases hchoice : driver.choose config recordLength dummyOp with
    | found freeOffset =>
      obtain ⟨target, hroom, hoffset⟩ := choose_found hsound hsync hlength hchoice
      exact wpIn_pure.mpr ⟨hnow, .inr ⟨logs, target, rfl, hoffset, hsync, hroom, .refl driver,
        .refl, fun _ => .refl config logs⟩⟩
    | none =>
      exact wpIn_pure.mpr ⟨hnow, .inl ⟨by decide, hnow, fun _ _ _ _ _ _ => rfl, fun _ =>
        ⟨logs, hsync, .refl driver, .refl config logs⟩⟩⟩
    | reclaim wastedBlock =>
      have hblocks := hsound.numBlocks
      obtain ⟨hbound, hstart, _⟩ := choose_reclaim (by omega) hchoice
      apply wpIn_bind
      apply wpIn_mono (erstReclaimBlock_wp hsound hdevice hstops hcut
        (fun length driver₁ m₁ logs₁ hcut₁ hsync₁ hlength₁ => ih hcut₁ hsync₁ hlength₁) hsync hbound
        hstart)
      rintro status driver' m' ⟨hcut', ⟨herror, hkept⟩ | ⟨rfl, logs', hsync', h⟩⟩
      · have herror' : EfiCode.isError status = true := herror
        rw [if_pos herror']
        exact wpIn_pure.mpr ⟨hcut', .inl ⟨herror, hcut', hkept⟩⟩
      · rw [if_neg (by decide)]
        apply wpIn_mono (ih (h.cut hcut) hsync' hlength)
        intro r driver'' m'' hsearched
        exact hsearched.trans h

end Reclaim

end Erst
