import Edk2Nvidia.Erst.Moving

/-! The search for room and the reclaim of a block. A search that ends well has found room behind
the log of a block in use or in a free block; a block is reclaimed record by record and erased. -/
namespace Erst
open Flash

/-! The loop of the search over the blocks. -/

def BlockInfo.Free (block : BlockInfo) : Prop :=
  block.validEntries = 0 ∧ block.usedSize = 0 ∧ block.wastedSize = 0

instance (block : BlockInfo) : Decidable block.Free := inferInstanceAs (Decidable (_ ∧ _))

section Survey
variable {config : Config} {blockInfo : Nat → BlockInfo} {recordLength : Nat}

theorem Survey.visit_freeBlock {survey : Survey} {index i : Nat}
    (h : (survey.visit config blockInfo recordLength index).freeBlock = some i) :
    survey.freeBlock = some i ∨ i = index ∧ (blockInfo index).Free := by
  unfold Survey.visit at h
  simp only at h
  split at h
  · next hvalid =>
    split at h
    · next hclean =>
      cases hfree : survey.freeBlock with
      | none =>
        rw [hfree] at h
        exact .inr ⟨(Option.some.inj h).symm, hvalid, hclean.1, hclean.2⟩
      | some j =>
        rw [hfree] at h
        exact .inl h
    · exact .inl h
  · split at h
    · split at h <;> exact .inl h
    · exact .inl h

theorem Survey.visit_wastedBlock {survey : Survey} {index i : Nat}
    (h : (survey.visit config blockInfo recordLength index).wastedBlock = some i) :
    survey.wastedBlock = some i ∨
      i = index ∧ 0 ≤ (blockInfo index).validEntries ∧ ¬ (blockInfo index).Free := by
  unfold Survey.visit at h
  simp only at h
  split at h
  · next hvalid =>
    split at h
    · exact .inl h
    · next hclean =>
      refine .inr ⟨(Option.some.inj h).symm, by omega, ?_⟩
      rintro ⟨_, hused, hwasted⟩
      exact hclean ⟨hused, hwasted⟩
  · next hvalid =>
    split at h
    · next hge =>
      split at h
      · exact .inr ⟨(Option.some.inj h).symm, hge, fun hfree => hvalid hfree.1⟩
      · exact .inl h
    · exact .inl h

theorem Survey.fold_freeBlock {survey : Survey} {order : List Nat} {i : Nat}
    (h : (order.foldl (visit config blockInfo recordLength) survey).freeBlock = some i) :
    survey.freeBlock = some i ∨ i ∈ order ∧ (blockInfo i).Free := by
  induction order generalizing survey with
  | nil => exact .inl h
  | cons index rest ih =>
    rcases ih h with h' | ⟨hmem, hfree⟩
    · rcases visit_freeBlock h' with hbefore | ⟨rfl, hfree⟩
      · exact .inl hbefore
      · exact .inr ⟨List.mem_cons_self, hfree⟩
    · exact .inr ⟨List.mem_cons_of_mem _ hmem, hfree⟩

theorem Survey.fold_wastedBlock {survey : Survey} {order : List Nat} {i : Nat}
    (h : (order.foldl (visit config blockInfo recordLength) survey).wastedBlock = some i) :
    survey.wastedBlock = some i ∨
      i ∈ order ∧ 0 ≤ (blockInfo i).validEntries ∧ ¬ (blockInfo i).Free := by
  induction order generalizing survey with
  | nil => exact .inl h
  | cons index rest ih =>
    rcases ih h with h' | ⟨hmem, hwasted⟩
    · rcases visit_wastedBlock h' with hbefore | ⟨rfl, hwasted⟩
      · exact .inl hbefore
      · exact .inr ⟨List.mem_cons_self, hwasted⟩
    · exact .inr ⟨List.mem_cons_of_mem _ hmem, hwasted⟩

theorem mem_searchOrder {mostRecentBlock i : Nat} (hblocks : 0 < config.numBlocks) :
    i ∈ searchOrder config mostRecentBlock ↔ i < config.numBlocks := by
  unfold searchOrder
  rw [List.mem_map]
  constructor
  · rintro ⟨j, hj, rfl⟩
    exact Nat.mod_lt _ hblocks
  · intro hi
    refine ⟨(i + (config.numBlocks - mostRecentBlock % config.numBlocks)) % config.numBlocks,
      List.mem_range.mpr (Nat.mod_lt _ hblocks), ?_⟩
    have hmod := Nat.mod_lt mostRecentBlock hblocks
    rw [Nat.mod_add_mod, ← Nat.add_mod_mod, Nat.add_assoc,
      Nat.sub_add_cancel (Nat.le_of_lt hmod), Nat.add_mod_right, Nat.mod_eq_of_lt hi]

end Survey

section Choose
variable {config : Config} {driver : Driver} {m : Memory} {logs : Logs} {recordLength : Nat}
  {dummyOp : Bool}

theorem choose_found (hsound : config.Sound) (hsync : InSync config driver m logs)
    (hlength : recordLength ≤ config.blockSize) {offset : Nat}
    (h : driver.choose config recordLength dummyOp = .found offset) :
    ∃ target, Room config driver logs recordLength target ∧ offset = logs.gap config target := by
  have hblocks : 0 < config.numBlocks := by
    have htwo := hsound.numBlocks
    omega
  have hlt := hsound.partition_lt
  have hreclaim : ∀ survey : Survey, Driver.choose.reclaim dummyOp driver survey ≠ .found offset := by
    intro survey heq
    unfold Driver.choose.reclaim at heq
    split at heq
    · split at heq <;> cases heq
    · cases heq
  unfold Driver.choose at h
  simp only at h
  split at h
  · next index hfind =>
    have hmem := (mem_searchOrder hblocks).mp (List.mem_of_find?_eq_some hfind)
    have hfits := List.find?_some hfind
    rw [decide_eq_true_iff] at hfits
    have hused := hsync.tables.used index hmem
    have hroom := hfits.2
    rw [hused] at hroom
    refine ⟨index, ⟨hmem, Int.le_of_lt hfits.1, hroom⟩, ?_⟩
    have hpart := Config.le_partitionSize hmem (show (logs index).size ≤ config.blockSize by omega)
    rw [hused, hsync.tables.base index hmem, u32_of_lt (by omega)] at h
    cases h
    exact Nat.add_comm _ _
  · split at h
    · next index hfree =>
      split at h
      · rcases Survey.fold_freeBlock hfree with hnone | ⟨hmem, hvalid, hused, hwasted⟩
        · cases hnone
        · have hindex := (mem_searchOrder hblocks).mp hmem
          have hsize := hsync.tables.used index hindex
          rw [hused] at hsize
          refine ⟨index, ⟨hindex, by omega, by omega⟩, ?_⟩
          cases h
          unfold Logs.gap
          rw [hsync.tables.base index hindex]
          omega
      · exact absurd h (hreclaim _)
    · exact absurd h (hreclaim _)

/-- A block that is to be reclaimed holds records and is not being reclaimed yet. -/
theorem choose_reclaim (hblocks : 0 < config.numBlocks) {victim : Nat}
    (h : driver.choose config recordLength dummyOp = .reclaim victim) :
    victim < config.numBlocks ∧ 0 ≤ (driver.blockInfo victim).validEntries ∧
      ¬ (driver.blockInfo victim).Free := by
  have hreclaim : ∀ order : List Nat, (∀ i ∈ order, i < config.numBlocks) →
      Driver.choose.reclaim dummyOp driver (order.foldl (Survey.visit config driver.blockInfo
        recordLength) ⟨none, none, 0, 0⟩) = .reclaim victim →
      victim < config.numBlocks ∧ 0 ≤ (driver.blockInfo victim).validEntries ∧
        ¬ (driver.blockInfo victim).Free := by
    intro order horder heq
    unfold Driver.choose.reclaim at heq
    split at heq
    · next index hwasted =>
      split at heq
      · cases heq
        rcases Survey.fold_wastedBlock hwasted with hnone | ⟨hmem, hvictim⟩
        · cases hnone
        · exact ⟨horder _ hmem, hvictim⟩
      · cases heq
    · cases heq
  have horder : ∀ i ∈ searchOrder config driver.mostRecentBlock, i < config.numBlocks :=
    fun i hi => (mem_searchOrder hblocks).mp hi
  unfold Driver.choose at h
  simp only at h
  split at h
  · cases h
  · split at h
    · split at h
      · cases h
      · exact hreclaim _ horder h
    · exact hreclaim _ horder h

end Choose

/-! The records of a block. -/

/-- A place in `block`. -/
def Config.InBlock (config : Config) (block offset : Nat) : Prop :=
  block * config.blockSize ≤ offset ∧ offset < block * config.blockSize + config.blockSize

section Records
variable {config : Config} {S : Setting EfiCode} {driver : Driver} {m : Memory} {logs : Logs}

/-- An entry of the table in a block is an entry of its log. -/
theorem InSync.source (hsync : InSync config driver m logs) {k block : Nat}
    (hk : k < driver.recordCount)
    (hin : config.InBlock block (driver.info k).recordOffset) :
    ∃ (front : Log) (entry : Entry) (back : Log),
      Source config driver logs k block front entry back := by
  obtain ⟨b, hb, front, entry, back, hlog, hlive, hinfo⟩ := hsync.tables.entry hk
  have hs : Source config driver logs k b front entry back := ⟨hk, hb, hlog, hlive, hinfo⟩
  obtain ⟨hlong, hfront, hfits⟩ := hs.inside hsync.stored
  have hpos : 0 < sizeofCperHeader := by decide
  unfold Config.InBlock at hin
  rw [hinfo] at hin
  have hlower : block * config.blockSize ≤ b * config.blockSize + front.size := hin.1
  have hupper : b * config.blockSize + front.size <
    block * config.blockSize + config.blockSize := hin.2
  have heq : b = block := by
    rcases Nat.lt_trichotomy b block with hlt | heq | hlt
    · have hmul := Nat.mul_le_mul_right config.blockSize (Nat.succ_le_of_lt hlt)
      rw [Nat.succ_mul] at hmul
      omega
    · exact heq
    · have hmul := Nat.mul_le_mul_right config.blockSize (Nat.succ_le_of_lt hlt)
      rw [Nat.succ_mul] at hmul
      omega
  subst heq
  exact ⟨front, entry, back, hs⟩

theorem Source.inBlock (hstored : Stored config m logs) {k block : Nat} {front back : Log}
    {entry : Entry} (hs : Source config driver logs k block front entry back) :
    config.InBlock block (driver.info k).recordOffset := by
  obtain ⟨hlong, hfront, hfits⟩ := hs.inside hstored
  have hpos : 0 < sizeofCperHeader := by decide
  rw [hs.info]
  constructor
  · exact Nat.le_add_right _ _
  · show block * config.blockSize + front.size < block * config.blockSize + config.blockSize
    omega

theorem InSync.tracked (hsync : InSync config driver m logs) {block : Nat}
    (hblock : block < config.numBlocks) {front back : Log} {entry : Entry}
    (hlog : logs block = front ++ entry :: back) (hlive : entry.live) :
    ∃ k, Source config driver logs k block front entry back := by
  have hmem : entry.info (block * config.blockSize + front.size) ∈ driver.cperInfo := by
    rw [← Multiset.mem_coe, hsync.tables.infos]
    unfold Logs.infos
    rw [Multiset.mem_sum]
    refine ⟨block, Finset.mem_range.mpr hblock, ?_⟩
    rw [Multiset.mem_coe, Log.mem_infos]
    exact ⟨front, entry, back, hlog, hlive, rfl⟩
  obtain ⟨k, hk, heq⟩ := List.getElem_of_mem hmem
  refine ⟨k, hk, hblock, hlog, hlive, ?_⟩
  unfold Driver.info
  rw [List.getD_eq_getElem _ _ hk, heq]

theorem nextInBlock_wp {base fuel cperInfoIndex : Nat}
    {Q : Option Nat → Driver → Memory → Prop} (hindex : cperInfoIndex < driver.recordCount)
    (hcut : S.cut m) (hstops : S.stops)
    (found : ∀ k < driver.recordCount, base ≤ (driver.info k).recordOffset →
      (driver.info k).recordOffset < u32 (base + config.blockSize) → Q (some k) driver m)
    (none : Q none driver m) :
    wpIn S (nextInBlock config base fuel cperInfoIndex) Q driver m := by
  induction fuel generalizing cperInfoIndex with
  | zero => exact wpIn_outOfFuel.mpr ⟨hcut, hstops⟩
  | succ fuel ih =>
    rw [nextInBlock, wpIn_get_bind]
    dsimp only
    split
    · next hin => exact wpIn_pure.mpr ⟨hcut, found _ hindex hin.1 hin.2⟩
    · split
      · exact wpIn_pure.mpr ⟨hcut, none⟩
      · next hbound => exact ih (Nat.lt_of_not_le hbound)

def Driver.erased (config : Config) (driver : Driver) (block : Nat) : Driver :=
  { driver with
    shadowFlash := driver.shadowFlash.map fun shadow =>
      erase shadow (block * config.blockSize) config.blockSize
    blockInfo := Function.update driver.blockInfo block
      { driver.blockInfo block with usedSize := 0, wastedSize := 0, validEntries := 0 } }

theorem erstEraseBlock_flash_wp (hsound : config.Sound) (hdevice : Device S) {block : Nat}
    {Q : EfiCode → Driver → Memory → Prop} (hmirrors : Mirrors config driver m)
    (hblock : block < config.numBlocks)
    (hbase : (driver.blockInfo block).base = block * config.blockSize)
    (hcut : S.cut m) (hcut_erased : S.cut (erase m (config.place block) config.blockSize))
    (served : Mirrors config (driver.erased config block)
        (erase m (config.place block) config.blockSize) →
      Q .success (driver.erased config block) (erase m (config.place block) config.blockSize))
    (failed : S.Faulty → ∀ size ≤ config.blockSize, S.cut (erase m (config.place block) size) ∧
      ∀ status driver', EfiCode.isError status →
        Q status driver' (erase m (config.place block) size)) :
    wpIn S (erstEraseBlock config block) Q driver m := by
  have hlt := hsound.partition_lt
  have hinside := hsound.inside
  have hpart := Config.le_partitionSize hblock (Nat.le_refl config.blockSize)
  have haligned : config.norBlockSize ∣ block * config.blockSize :=
    Nat.dvd_mul_left_of_dvd hsound.divides block
  have hplace : (block * config.blockSize + config.norErstOffset) / config.norBlockSize *
      config.norBlockSize = config.place block := by
    rw [Nat.div_mul_cancel (Nat.dvd_add haligned hsound.aligned)]
    exact Nat.add_comm _ _
  have herased : ∀ a < config.partitionSize, ∀ shadow ∈ driver.shadowFlash,
      erase shadow (block * config.blockSize) config.blockSize a =
        erase m (config.place block) config.blockSize (config.norErstOffset + a) := by
    intro a ha shadow hshadow
    unfold erase Config.place
    rw [hmirrors shadow hshadow a ha]
    split
    · rw [if_pos (by omega)]
    · rw [if_neg (by omega)]
  unfold erstEraseBlock
  rw [wpIn_get_bind]
  apply wpIn_bind
  unfold erstEraseSpiNor
  rw [hbase, u32_of_lt (by omega), u32_of_lt (by omega), Nat.mod_eq_zero_of_dvd haligned,
    Nat.mod_eq_zero_of_dvd hsound.divides, if_neg (by omega)]
  dsimp only
  rw [wpIn_modify_bind, hplace, Nat.div_mul_cancel hsound.divides]
  apply wpIn_erase hcut hcut_erased
  · rw [EfiCode.ok_eq, EfiCode.isError_success]
    simp only [Bool.false_eq_true, if_false, wpIn_modify_bind, wpIn_pure]
    refine ⟨hcut_erased, served ?_⟩
    intro shadow hshadow a ha
    obtain ⟨before, hbefore, rfl⟩ := Option.map_eq_some_iff.mp hshadow
    exact herased a ha before hbefore
  · intro status effect hending
    have herror : EfiCode.isError status.val = true := hdevice.error _ _ _ hending
    obtain ⟨htorn, hanswer⟩ := failed ⟨_, status, effect, hending⟩ _ (Nat.min_le_right effect _)
    simp only [herror, if_true, wpIn_pure]
    exact ⟨htorn, htorn, hanswer _ _ herror⟩

theorem erstEraseBlock_wp (hsound : config.Sound) (hdevice : Device S) {block : Nat}
    {Q : EfiCode → Driver → Memory → Prop} (hsync : InSync config driver m logs)
    (hblock : block < config.numBlocks) (hvalid : (driver.blockInfo block).validEntries = 0)
    (hcut : S.cut m) (hcut_erased : S.cut (erase m (config.place block) config.blockSize))
    (served : ∀ driver', InSync config driver' (erase m (config.place block) config.blockSize)
        (Function.update logs block []) → driver.Alike driver' →
      (∀ b, b ≠ block → driver'.blockInfo b = driver.blockInfo b) →
      (driver'.blockInfo block).Free → driver'.cperInfo = driver.cperInfo →
      Q .success driver' (erase m (config.place block) config.blockSize))
    (failed : S.Faulty → ∀ size ≤ config.blockSize, S.cut (erase m (config.place block) size) ∧
      ∀ status driver', EfiCode.isError status →
        Q status driver' (erase m (config.place block) size)) :
    wpIn S (erstEraseBlock config block) Q driver m := by
  apply erstEraseBlock_flash_wp hsound hdevice hsync.mirrors hblock (hsync.tables.base block hblock)
    hcut hcut_erased
  swap
  · exact failed
  intro hmirrors
  refine served _ ⟨hsync.stored.erase block, ?_, hmirrors⟩ ?_ ?_ ?_ rfl
  · apply hsync.tables.erase hblock hvalid
    · intro b hb
      exact Function.update_of_ne hb _ _
    · exact Function.update_self _ _ _
    · rfl
    · exact hsync.tables.incoming
    · exact hsync.tables.outgoing
  · exact ⟨fun _ => rfl, fun _ => rfl, rfl, Option.isSome_map, rfl, rfl⟩
  · intro b hb
    exact Function.update_of_ne hb _ _
  · show (Function.update driver.blockInfo block _ block).Free
    rw [Function.update_self]
    exact ⟨rfl, rfl, rfl⟩

/-- The loop of a reclaim, from what a step of it does: `I` holds before each search for the next
record, from an index on, and `J` of the record that is found. -/
theorem reclaimRecords_wp {find : Find} {block : Nat} (hblock : block < config.numBlocks)
    {I : Nat → Driver → Memory → Logs → Prop} {J : Nat → Driver → Memory → Logs → Prop}
    {F Q : EfiCode → Driver → Memory → Prop}
    (hnext : ∀ cperInfoIndex driver m logs, InSync config driver m logs →
      I cperInfoIndex driver m logs → (driver.blockInfo block).validEntries < 0 →
      wpIn S (nextInBlock config (block * config.blockSize) (2 ^ 16 + 1) cperInfoIndex)
        (fun r driver' m' => S.cut m' ∧ driver' = driver ∧ m' = m ∧
          ((r = none ∧ F .notFound driver m) ∨ ∃ k ∈ r, J k driver m logs)) driver m)
    (hstep : ∀ k driver m logs, InSync config driver m logs → J k driver m logs →
      (driver.blockInfo block).validEntries < 0 →
      wpIn S (erstRelocateRecord config find k) (fun status driver' m' => S.cut m' ∧
        ((EfiCode.isError status ∧ F status driver' m') ∨
          status = .success ∧ ∃ logs', InSync config driver' m' logs' ∧ I k driver' m' logs' ∧
            (driver'.blockInfo block).validEntries =
              (driver.blockInfo block).validEntries + 1)) driver m)
    (hlast : ∀ cperInfoIndex driver m logs, InSync config driver m logs →
      I cperInfoIndex driver m logs → (driver.blockInfo block).validEntries = 0 →
      wpIn S (erstEraseBlock config block) Q driver m)
    (hfailed : ∀ status driver m, EfiCode.isError status → F status driver m → Q status driver m)
    {fuel cperInfoIndex : Nat} {driver : Driver} {m : Memory} {logs : Logs}
    (hcut : S.cut m) (hfuel : S.stops ∨ (logs block).liveCount < fuel)
    (hsync : InSync config driver m logs)
    (hI : I cperInfoIndex driver m logs) (hle : (driver.blockInfo block).validEntries ≤ 0) :
    wpIn S (reclaimRecords config find block fuel cperInfoIndex) Q driver m := by
  induction fuel generalizing cperInfoIndex driver m logs with
  | zero => exact wpIn_outOfFuel.mpr ⟨hcut, hfuel.resolve_right (Nat.not_lt_zero _)⟩
  | succ fuel ih =>
    rw [reclaimRecords, wpIn_get_bind]
    dsimp only
    by_cases hneg : (driver.blockInfo block).validEntries < 0
    · rw [if_pos hneg, hsync.tables.base block hblock]
      apply wpIn_bind
      apply wpIn_mono (hnext cperInfoIndex driver m logs hsync hI hneg)
      rintro r driver' m' ⟨hcut', rfl, rfl, ⟨rfl, hF⟩ | ⟨k, hk, hJ⟩⟩
      · exact wpIn_pure.mpr ⟨hcut', hfailed _ _ _ (by decide) hF⟩
      · obtain rfl : r = some k := hk
        dsimp only
        apply wpIn_bind
        apply wpIn_mono (hstep k driver' m' logs hsync hJ hneg)
        rintro status driver'' m'' ⟨hcut'', ⟨herror, hF⟩ | ⟨rfl, logs', hsync', hI', hvalid⟩⟩
        · have herror' : EfiCode.isError status = true := herror
          rw [if_pos herror']
          exact wpIn_pure.mpr ⟨hcut'', hfailed _ _ _ herror hF⟩
        · rw [EfiCode.isError_success]
          simp only [Bool.false_eq_true, if_false]
          have hcount := hsync.tables.valid block hblock
          have hcount' := hsync'.tables.valid block hblock
          exact ih hcut'' (hfuel.imp id fun hlt => by omega) hsync' hI' (by omega)
    · rw [if_neg hneg]
      exact hlast cperInfoIndex driver m logs hsync hI (by omega)

theorem InSync.mark (hsync : InSync config driver m logs) (block : Nat) :
    InSync config (driver.updateBlock block fun info =>
      if info.validEntries > 0 then { info with validEntries := -info.validEntries } else info)
      m logs where
  stored := hsync.stored
  mirrors := hsync.mirrors
  tables := by
    have hsame : ∀ b, ((driver.updateBlock block fun info =>
        if info.validEntries > 0 then { info with validEntries := -info.validEntries }
        else info).blockInfo b).base = (driver.blockInfo b).base ∧
      ((driver.updateBlock block fun info =>
        if info.validEntries > 0 then { info with validEntries := -info.validEntries }
        else info).blockInfo b).usedSize = (driver.blockInfo b).usedSize ∧
      ((driver.updateBlock block fun info =>
        if info.validEntries > 0 then { info with validEntries := -info.validEntries }
        else info).blockInfo b).wastedSize = (driver.blockInfo b).wastedSize ∧
      ((driver.updateBlock block fun info =>
        if info.validEntries > 0 then { info with validEntries := -info.validEntries }
        else info).blockInfo b).validEntries.natAbs = (driver.blockInfo b).validEntries.natAbs := by
      intro b
      unfold Driver.updateBlock
      by_cases heq : b = block
      · subst heq
        simp only [Function.update_self]
        split
        · exact ⟨rfl, rfl, rfl, Int.natAbs_neg _⟩
        · exact ⟨rfl, rfl, rfl, rfl⟩
      · simp [Function.update_of_ne heq]
    constructor
    · intro b hb
      rw [(hsame b).1]
      exact hsync.tables.base b hb
    · intro b hb
      rw [(hsame b).2.1]
      exact hsync.tables.used b hb
    · intro b hb
      rw [(hsame b).2.2.2]
      exact hsync.tables.valid b hb
    · intro b hb hnil
      rw [(hsame b).2.2.1]
      exact hsync.tables.clean b hb hnil
    · exact hsync.tables.infos
    · exact hsync.tables.incoming
    · exact hsync.tables.outgoing

end Records

end Erst
