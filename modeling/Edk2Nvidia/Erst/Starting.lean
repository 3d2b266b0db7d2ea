import Mathlib.Algebra.Order.BigOperators.Group.Finset
import Edk2Nvidia.Erst.Collecting

/-! The start of the driver: it finds the store that the flash holds, which is the empty one where
the partition is blank. -/
namespace Erst
open Flash

/-- The logs once the driver has been through the blocks below `done`. -/
def Logs.swept (logs : Logs) (done : Nat) : Logs :=
  fun b => if b < done then (logs b).swept else logs b

theorem Logs.swept_zero (logs : Logs) : logs.swept 0 = logs := by
  funext b
  exact if_neg (Nat.not_lt_zero b)

theorem Logs.swept_succ (logs : Logs) (done : Nat) :
    logs.swept (done + 1) = Function.update (logs.swept done) done (logs done).swept := by
  funext b
  unfold Logs.swept
  by_cases heq : b = done
  · subst heq
    rw [if_pos (Nat.lt_succ_self b), Function.update_self]
  · rw [Function.update_of_ne heq]
    by_cases hlt : b < done
    · rw [if_pos (Nat.lt_succ_of_lt hlt), if_pos hlt]
    · rw [if_neg (by omega), if_neg hlt]

theorem Logs.swept_done (logs : Logs) (done : Nat) : logs.swept done done = logs done :=
  if_neg (Nat.lt_irrefl done)

theorem Logs.swept_of_lt (logs : Logs) {done b : Nat} (h : b < done) :
    logs.swept done b = (logs b).swept := if_pos h

theorem Log.card_contents (log : Log) : Multiset.card log.contents = log.liveCount := by
  unfold Log.contents Log.liveCount
  rw [Multiset.coe_card, List.length_map, List.countP_eq_length_filter]

theorem Logs.card_contents (config : Config) (logs : Logs) :
    Multiset.card (logs.contents config) =
      ∑ b ∈ Finset.range config.numBlocks, (logs b).liveCount := by
  unfold Logs.contents
  rw [Multiset.card_sum]
  exact Finset.sum_congr rfl fun b _ => Log.card_contents _

theorem Log.contents_swept (log : Log) : log.swept.contents = log.contents := by
  by_cases hdead : log.liveCount = 0
  · have hnone : log.contents = 0 := by
      rw [← Multiset.card_eq_zero, card_contents, hdead]
    rw [swept_dead hdead, hnone]
    rfl
  · rw [swept_live hdead]

theorem Logs.contents_swept (config : Config) (logs : Logs) (done : Nat) :
    (logs.swept done).contents config = logs.contents config := by
  unfold Logs.contents
  apply Finset.sum_congr rfl
  intro b _
  unfold Logs.swept
  split
  · exact Log.contents_swept _
  · rfl

theorem Logs.Headed.swept {config : Config} {logs : Logs} (h : logs.Headed config) (done : Nat) :
    (logs.swept done).Headed config := by
  intro b hb entry hentry
  unfold Logs.swept Log.swept at hentry
  split at hentry
  · split at hentry
    · exact absurd hentry List.not_mem_nil
    · exact h b hb entry hentry
  · exact h b hb entry hentry

/-- The driver has been through the blocks below `done`. -/
structure Surveyed (config : Config) (driver : Driver) (m : Memory) (logs : Logs) (done : Nat) :
    Prop where
  stored : Stored config m (logs.swept done)
  mirrors : Mirrors config driver m
  registered : ∀ b < done, Registered config (driver.blockInfo b) b (logs b).swept
  infos : (driver.cperInfo : Multiset CperInfo) =
    ∑ b ∈ Finset.range done, ((logs b).infos (b * config.blockSize) : Multiset CperInfo)
  incoming : driver.incomingCperInfo = none
  outgoing : driver.outgoingCperInfo = none

section Survey
variable {config : Config} {S : Setting EfiCode} {driver : Driver} {m : Memory} {logs : Logs}
  {done : Nat}

theorem Surveyed.recordCount (h : Surveyed config driver m logs done) :
    driver.recordCount = ∑ b ∈ Finset.range done, (logs b).liveCount := by
  have hcard := congrArg Multiset.card h.infos
  rw [Multiset.coe_card, Multiset.card_sum] at hcard
  unfold Driver.recordCount
  rw [hcard]
  apply Finset.sum_congr rfl
  intro b hb
  rw [Multiset.coe_card, Log.length_infos]

theorem Surveyed.room (h : Surveyed config driver m logs done) (hdone : done < config.numBlocks)
    (hcard : Multiset.card (logs.contents config) ≤ config.maxRecords) :
    driver.recordCount + (logs done).liveCount ≤ config.maxRecords := by
  rw [Logs.card_contents] at hcard
  rw [h.recordCount, ← Finset.sum_range_succ]
  have hsubset : Finset.range (done + 1) ⊆ Finset.range config.numBlocks :=
    Finset.range_subset_range.mpr hdone
  exact (Finset.sum_le_sum_of_subset hsubset).trans hcard

theorem Surveyed.step {driver' : Driver} {m' : Memory} (h : Surveyed config driver m logs done)
    (hstored : Stored config m' (Function.update (logs.swept done) done (logs done).swept))
    (hgathered : Gathered config driver m' done (logs done).swept driver') :
    Surveyed config driver' m' logs (done + 1) := by
  constructor
  · rw [Logs.swept_succ]
    exact hstored
  · exact hgathered.mirrors
  · intro b hb
    rcases Nat.lt_succ_iff_lt_or_eq.mp hb with hlt | rfl
    · rw [hgathered.other b (Nat.ne_of_lt hlt)]
      exact h.registered b hlt
    · exact hgathered.registered
  · rw [hgathered.cperInfo, ← Multiset.coe_add, h.infos, Finset.sum_range_succ, Log.infos_swept]
  · exact hgathered.incoming
  · exact hgathered.outgoing

theorem collectBlocks_wp (hsound : config.Sound) (hreliable : ¬ S.Faulty) {rest : Nat}
    {Q : EfiCode → Driver → Memory → Prop} (hrest : done + rest = config.numBlocks)
    (hheaded : logs.Headed config) (hsurveyed : Surveyed config driver m logs done)
    (hcard : Multiset.card (logs.contents config) ≤ config.maxRecords)
    (hcut : ∀ image, Preserved config image (logs.contents config) → S.cut image)
    (h : ∀ driver' m', Surveyed config driver' m' logs config.numBlocks → Q .success driver' m') :
    wpIn S (collectBlocks config (List.range' done rest)) Q driver m := by
  induction rest generalizing driver m done with
  | zero =>
    obtain rfl : done = config.numBlocks := hrest
    rw [List.range'_zero, collectBlocks, wpIn_pure]
    refine ⟨hcut _ ?_, h _ _ hsurveyed⟩
    have hpreserved := hsurveyed.stored.preserved
    rwa [Logs.contents_swept] at hpreserved
  | succ rest ih =>
    have hdone : done < config.numBlocks := by omega
    rw [List.range'_succ, collectBlocks]
    apply wpIn_bind
    apply erstCollectBlock_wp hsound hreliable hdone hsurveyed.stored (hheaded.swept done)
      hsurveyed.mirrors hsurveyed.incoming hsurveyed.outgoing
    · rw [Logs.swept_done]
      exact hsurveyed.room hdone hcard
    · rw [Logs.contents_swept]
      exact hcut
    intro driver' m' hstored hgathered
    rw [Logs.swept_done] at hstored hgathered
    rw [if_neg (by decide)]
    exact ih (by omega) (hsurveyed.step hstored hgathered)

theorem Surveyed.congr {driver' : Driver} (h : Surveyed config driver m logs done)
    (hblock : driver'.blockInfo = driver.blockInfo) (hinfo : driver'.cperInfo = driver.cperInfo)
    (hincoming : driver'.incomingCperInfo = driver.incomingCperInfo)
    (houtgoing : driver'.outgoingCperInfo = driver.outgoingCperInfo)
    (hshadow : driver'.shadowFlash = driver.shadowFlash) : Surveyed config driver' m logs done := by
  constructor
  · exact h.stored
  · unfold Mirrors
    rw [hshadow]
    exact h.mirrors
  · rw [hblock]
    exact h.registered
  · rw [hinfo]
    exact h.infos
  · exact hincoming.trans h.incoming
  · exact houtgoing.trans h.outgoing

theorem Surveyed.sync (h : Surveyed config driver m logs config.numBlocks) :
    InSync config driver m (logs.swept config.numBlocks) where
  stored := h.stored
  mirrors := h.mirrors
  tables := by
    constructor
    · exact fun b hb => (h.registered b hb).base
    · intro b hb
      rw [Logs.swept_of_lt logs hb]
      exact (h.registered b hb).used
    · intro b hb
      rw [Logs.swept_of_lt logs hb, (h.registered b hb).valid, Int.natAbs_natCast]
    · intro b hb hnil
      rw [Logs.swept_of_lt logs hb] at hnil
      exact (h.registered b hb).clean hnil
    · rw [h.infos]
      apply Finset.sum_congr rfl
      intro b hb
      rw [Logs.swept_of_lt logs (Finset.mem_range.mp hb), Log.infos_swept]
    · exact h.incoming
    · exact h.outgoing

theorem reclaimBlocks_none_wp {fuel : Nat} {blocks : List Nat}
    {Q : EfiCode → Driver → Memory → Prop}
    (hnone : ∀ block ∈ blocks, 0 ≤ (driver.blockInfo block).validEntries) (hcut : S.cut m)
    (h : Q .success driver m) : wpIn S (reclaimBlocks config fuel blocks) Q driver m := by
  induction blocks with
  | nil =>
    rw [reclaimBlocks, wpIn_pure]
    exact ⟨hcut, h⟩
  | cons block blocks ih =>
    rw [reclaimBlocks, wpIn_get_bind, if_neg (not_lt.mpr (hnone block (List.mem_cons_self ..)))]
    exact ih fun b hb => hnone b (List.mem_cons_of_mem _ hb)

theorem settle_none_wp {Q : Except EfiCode (UInt8 × UInt8) → Driver → Memory → Prop}
    (hincoming : driver.incomingCperInfo = none) (houtgoing : driver.outgoingCperInfo = none)
    (hcut : S.cut m) (h : Q (.ok (statusIncoming, statusOutgoing)) driver m) :
    wpIn S (settle config) Q driver m := by
  unfold settle
  rw [wpIn_get_bind, hincoming, houtgoing]
  exact wpIn_pure.mpr ⟨hcut, h⟩

theorem settleIncoming_none_wp {status : UInt8} {Q : EfiCode → Driver → Memory → Prop}
    (hincoming : driver.incomingCperInfo = none) (hcut : S.cut m) (h : Q .success driver m) :
    wpIn S (settleIncoming config status) Q driver m := by
  unfold settleIncoming
  rw [wpIn_get_bind, hincoming]
  exact wpIn_pure.mpr ⟨hcut, h⟩

theorem settleOutgoing_none_wp {status : UInt8} {Q : EfiCode → Driver → Memory → Prop}
    (houtgoing : driver.outgoingCperInfo = none) (hcut : S.cut m) (h : Q .success driver m) :
    wpIn S (settleOutgoing config status) Q driver m := by
  unfold settleOutgoing
  rw [wpIn_get_bind, houtgoing]
  exact wpIn_pure.mpr ⟨hcut, h⟩

theorem erstInitShadowFlash_wp (hreliable : ¬ S.Faulty) {allocates : Bool}
    {Q : Unit → Driver → Memory → Prop} (hcut : S.cut m)
    (h : ∀ shadowFlash, Mirrors config { driver with shadowFlash } m →
      Q () { driver with shadowFlash } m) :
    wpIn S (erstInitShadowFlash config allocates) Q driver m := by
  unfold erstInitShadowFlash
  split
  · apply wpIn_bind
    apply wpIn_read hcut
    · simp only [EfiCode.ok_eq, EfiCode.isError_success, Bool.false_eq_true, if_false, wpIn_modify]
      refine ⟨hcut, h _ ?_⟩
      rintro shadow hshadow a ha
      obtain rfl := (Option.some.inj hshadow).symm
      have hinside := overwrite_inside (fun _ => erasedByte) 0
        (slice m config.norErstOffset config.partitionSize) a (by rwa [length_slice]) 0
      rw [Nat.zero_add, getD_slice _ _ _ _ _ ha] at hinside
      exact hinside
    · intro status effect hending
      exact absurd ⟨_, status, effect, hending⟩ hreliable
  · rw [wpIn_modify]
    refine ⟨hcut, h none ?_⟩
    rintro shadow ⟨⟩

/-! The start. -/

/-- The flash holds the store, whatever the driver holds. -/
structure Resting (config : Config) (m : Memory) (store : Store) : Prop where
  stored : ∃ logs, Stored config m logs ∧ logs.contents config = store ∧ logs.Headed config
  distinct : store.Distinct
  room : store.card ≤ config.maxRecords

variable {store : Store} {fuel : Nat}

theorem Idle.resting (h : Idle config driver m store) : Resting config m store := by
  obtain ⟨logs, hsync, hlogs⟩ := h.sync
  exact ⟨⟨logs, hsync.stored, hlogs⟩, h.distinct, h.room⟩

theorem Resting.preserved (h : Resting config m store) : Preserved config m store := by
  obtain ⟨logs, hstored, rfl, _⟩ := h.stored
  exact hstored.preserved

/-- The driver behind its start. It refuses to work where no block is left to write to. -/
structure Started (config : Config) (store : Store) (status : EfiCode) (driver : Driver)
    (m : Memory) : Prop where
  resting : Resting config m store
  sync : ∃ logs, InSync config driver m logs ∧ logs.contents config = store
  reported : status = if freeBlocks config driver < 1 then .outOfResources else .success
  initStatus : driver.initStatus = status
  idle : status = .success → Idle config driver m store

/-- The tables of a start against those before it. -/
structure Rebuilt (config : Config) (driver driver' : Driver) : Prop where
  cperInfo : (driver'.cperInfo : Multiset CperInfo) = driver.cperInfo
  used : ∀ b < config.numBlocks, (driver.blockInfo b).validEntries ≠ 0 →
    (driver'.blockInfo b).validEntries = (driver.blockInfo b).validEntries.natAbs ∧
      (driver'.blockInfo b).usedSize = (driver.blockInfo b).usedSize
  free : ∀ b < config.numBlocks, (driver.blockInfo b).validEntries = 0 →
    driver'.blockInfo b = blankBlock config b

theorem Surveyed.rebuilt {driver₀ : Driver} {m₀ : Memory}
    (h : Surveyed config driver m logs config.numBlocks) (hsync : InSync config driver₀ m₀ logs) :
    Rebuilt config driver₀ driver where
  cperInfo := h.infos.trans hsync.tables.infos.symm
  used b hb hvalid := by
    have hcount := hsync.tables.valid b hb
    have hlive : (logs b).liveCount ≠ 0 := by
      rw [← hcount]
      exact Int.natAbs_ne_zero.mpr hvalid
    have hregistered := h.registered b hb
    rw [Log.swept_live hlive] at hregistered
    exact ⟨hregistered.valid.trans (by rw [hcount]),
      hregistered.used.trans (hsync.tables.used b hb).symm⟩
  free b hb hvalid := by
    have hdead : (logs b).liveCount = 0 := by
      rw [← hsync.tables.valid b hb, hvalid]
      rfl
    have hregistered := h.registered b hb
    rw [Log.swept_dead hdead] at hregistered
    generalize driver.blockInfo b = info at hregistered
    obtain ⟨validEntries, usedSize, wastedSize, base⟩ := info
    obtain ⟨rfl, rfl, rfl, hclean⟩ := hregistered
    obtain rfl := hclean rfl
    rfl

/-- A start finds the logs again, whatever is left in the driver's memory. -/
theorem errorSerializationInitialize_logs_wp (hsound : config.Sound) (hreliable : ¬ S.Faulty)
    {allocates : Bool} {Q : EfiCode → Driver → Memory → Prop} (hstored : Stored config m logs)
    (hheaded : logs.Headed config) (hdistinct : Store.Distinct (logs.contents config))
    (hcard : Multiset.card (logs.contents config) ≤ config.maxRecords)
    (hcut : ∀ image, Preserved config image (logs.contents config) → S.cut image)
    (h : ∀ status driver' m', Surveyed config driver' m' logs config.numBlocks →
      Started config (logs.contents config) status driver' m' → Q status driver' m') :
    wpIn S (errorSerializationInitialize config fuel allocates) Q driver m := by
  unfold errorSerializationInitialize
  rw [wpIn_modify_bind]
  apply wpIn_bind
  unfold errorSerializationGatherSpinorData
  rw [wpIn_modify_bind]
  apply wpIn_bind
  apply erstInitShadowFlash_wp hreliable (hcut _ hstored.preserved)
  intro shadowFlash hmirrors
  rw [wpIn_modify_bind]
  apply wpIn_bind
  unfold erstCollectBlockInfo
  apply wpIn_bind
  rw [List.range_eq_range']
  refine collectBlocks_wp hsound hreliable (Nat.zero_add _) hheaded ⟨?_, hmirrors,
    fun b hb => absurd hb (Nat.not_lt_zero b), rfl, rfl, rfl⟩ hcard hcut ?_
  · rw [Logs.swept_zero]
    exact hstored
  intro driver' m' hsurveyed
  have hsync := hsurveyed.sync
  have hcontents := Logs.contents_swept config logs config.numBlocks
  have hheaded' := hheaded.swept config.numBlocks
  have hresting : Resting config m' (logs.contents config) :=
    ⟨⟨_, hsync.stored, hcontents, hheaded'⟩, hdistinct, hcard⟩
  have hnow : S.cut m' := hcut _ hresting.preserved
  -- the logs hold nothing that was coming in or going out, and no block is to be reclaimed
  rw [if_neg (by decide)]
  apply wpIn_bind
  refine settle_none_wp hsurveyed.incoming hsurveyed.outgoing hnow ?_
  apply wpIn_bind
  refine settleIncoming_none_wp hsurveyed.incoming hnow ?_
  rw [if_neg (by decide)]
  apply wpIn_bind
  refine settleOutgoing_none_wp hsurveyed.outgoing hnow ?_
  rw [if_neg (by decide)]
  apply wpIn_bind
  refine reclaimBlocks_none_wp ?_ hnow ?_
  · intro b hb
    have hb' : b < config.numBlocks := by simpa using hb
    rw [(hsurveyed.registered b hb').valid]
    exact Int.natCast_nonneg _
  rw [if_neg (by decide)]
  unfold finishCollect
  rw [wpIn_modify_bind, wpIn_get_bind]
  split
  · next hfull =>
    rw [wpIn_pure]
    refine ⟨hnow, ?_⟩
    rw [if_pos (by decide), wpIn_modify_bind, wpIn_pure]
    refine ⟨hnow, ?_⟩
    rw [wpIn_modify_bind, wpIn_pure]
    refine ⟨hnow, h _ _ _ (hsurveyed.congr rfl rfl rfl rfl rfl) ⟨hresting,
      ⟨_, hsync.congr rfl rfl rfl rfl rfl, hcontents⟩, ?_, rfl, ?_⟩⟩
    · exact (if_pos hfull).symm
    · intro hsuccess
      exact absurd hsuccess (by decide)
  · next hfree =>
    rw [wpIn_pure]
    refine ⟨hnow, ?_⟩
    rw [if_neg (by decide), wpIn_modify_bind, wpIn_pure]
    refine ⟨hnow, ?_⟩
    rw [wpIn_modify_bind, wpIn_pure]
    refine ⟨hnow, h _ _ _ (hsurveyed.congr rfl rfl rfl rfl rfl) ⟨hresting,
      ⟨_, hsync.congr rfl rfl rfl rfl rfl, hcontents⟩, ?_, rfl, ?_⟩⟩
    · exact (if_neg hfree).symm
    · intro _
      exact ⟨⟨_, hsync.congr rfl rfl rfl rfl rfl, hcontents, hheaded'⟩, hdistinct, hcard, rfl,
        EfiCode.isError_success⟩

theorem errorSerializationInitialize_wp (hsound : config.Sound) (hreliable : ¬ S.Faulty)
    {allocates : Bool} (hresting : Resting config m store)
    (hcut : ∀ image, Preserved config image store → S.cut image) :
    wpIn S (errorSerializationInitialize config fuel allocates) (Started config store) driver m := by
  obtain ⟨logs, hstored, rfl, hheaded⟩ := hresting.stored
  exact errorSerializationInitialize_logs_wp hsound hreliable hstored hheaded hresting.distinct
    hresting.room hcut fun _ _ _ _ hstarted => hstarted

theorem errorSerializationInitialize_rebuilt_wp (hsound : config.Sound) (hreliable : ¬ S.Faulty)
    {allocates : Bool} {ram : Driver} (hidle : Idle config driver m store)
    (hcut : ∀ image, S.cut image) :
    wpIn S (errorSerializationInitialize config fuel allocates)
      (fun _ driver' _ => Rebuilt config driver driver') ram m := by
  obtain ⟨logs, hsync, rfl, hheaded⟩ := hidle.sync
  exact errorSerializationInitialize_logs_wp hsound hreliable hsync.stored hheaded hidle.distinct
    hidle.room (fun image _ => hcut image) fun _ _ _ hsurveyed _ => hsurveyed.rebuilt hsync

/-! On a blank partition. -/

theorem Blank.block (hblank : Blank m config.norErstOffset config.partitionSize) {block : Nat}
    (hblock : block < config.numBlocks) :
    Blank m (config.norErstOffset + block * config.blockSize) config.blockSize := by
  have hpart := Config.le_partitionSize hblock (Nat.le_refl config.blockSize)
  exact hblank.sub (by omega) (by omega)

theorem Stored.of_blank (hblank : Blank m config.norErstOffset config.partitionSize) :
    Stored config m fun _ => [] where
  fits _ _ := Nat.zero_le _
  long _ _ _ h := absurd h List.not_mem_nil
  valid _ _ _ h := absurd h List.not_mem_nil
  written _ _ := holds_nil _ _
  blank _ hb := Blank.block hblank hb

theorem Resting.of_blank (hblank : Blank m config.norErstOffset config.partitionSize) :
    Resting config m 0 where
  stored := ⟨fun _ => [], .of_blank hblank, Finset.sum_const_zero, .empty config⟩
  distinct := Multiset.nodup_zero
  room := Nat.zero_le _

/-- Without a record every block is free. The number of free blocks is kept in a byte. -/
theorem freeBlocks_empty (hsync : InSync config driver m logs) (hempty : logs.contents config = 0) :
    freeBlocks config driver = config.numBlocks % 2 ^ 8 := by
  have hnone := Logs.card_contents config logs
  rw [hempty, Multiset.card_zero] at hnone
  have hcount : (List.range config.numBlocks).countP (fun blockNum =>
      (driver.blockInfo blockNum).validEntries = 0) = config.numBlocks := by
    rw [List.countP_eq_length.mpr, List.length_range]
    intro b hb
    have hlive := Finset.sum_eq_zero_iff.mp hnone.symm b
      (Finset.mem_range.mpr (List.mem_range.mp hb))
    have hvalid := hsync.tables.valid b (List.mem_range.mp hb)
    rw [hlive] at hvalid
    exact decide_eq_true (Int.natAbs_eq_zero.mp hvalid)
  unfold freeBlocks
  rw [hcount]

theorem Started.of_empty {status : EfiCode} (h : Started config 0 status driver m)
    (hblocks : config.numBlocks % 2 ^ 8 ≠ 0) : status = .success ∧ Idle config driver m 0 := by
  obtain ⟨logs, hsync, hempty⟩ := h.sync
  have hsuccess : status = .success := by
    rw [h.reported, freeBlocks_empty hsync hempty, if_neg (by omega)]
  exact ⟨hsuccess, h.idle hsuccess⟩

end Survey

/-! A small partition. -/

def twoBlocks : Config where
  norErstOffset := 0
  memoryDensity := 2 * erstMinBlockSize
  norBlockSize := erstMinBlockSize
  blockSize := erstMinBlockSize
  numBlocks := 2
  maxRecords := 2048
  errorLogLength := sizeofCperHeader

theorem twoBlocks_sound : twoBlocks.Sound := by
  constructor <;> decide

def emptyDriver : Driver where
  blockInfo := blankBlock twoBlocks
  cperInfo := []
  incomingCperInfo := none
  outgoingCperInfo := none
  mostRecentBlock := 0
  unsyncedSpinorChanges := 0
  shadowFlash := none
  recordPools := fun _ => ⟨List.replicate sizeofCperHeader 0, false⟩
  initStatus := .success
  allocated := true

def blankFlash : Memory := fun _ => erasedByte

theorem blankFlash_blank (offset size : Nat) : Blank blankFlash offset size := fun _ _ _ => rfl

theorem emptyDriver_sync : InSync twoBlocks emptyDriver blankFlash fun _ => [] where
  stored := .of_blank (blankFlash_blank _ _)
  tables := ⟨fun _ _ => rfl, fun _ _ => rfl, fun _ _ => rfl, fun _ _ _ => rfl,
    Finset.sum_const_zero.symm, rfl, rfl⟩
  mirrors := by
    rintro shadow ⟨⟩

theorem emptyDriver_idle : Idle twoBlocks emptyDriver blankFlash 0 where
  sync := ⟨fun _ => [], emptyDriver_sync, Finset.sum_const_zero, .empty twoBlocks⟩
  distinct := Multiset.nodup_zero
  room := Nat.zero_le _
  unsynced := rfl
  initStatus := by decide

/-! The start on it, block by block: the reads of whole blocks are not evaluated. -/

theorem collectRecord_blankFlash {driver : Driver} {block : Nat} (hblock : block < 2)
    (hshadow : driver.shadowFlash = none)
    (hbase : (driver.blockInfo block).base = block * twoBlocks.blockSize) :
    (collectRecord twoBlocks block 0 driver).run blankFlash =
      (some (.ok (.last false), driver), blankFlash) := by
  have hmirrors : Mirrors twoBlocks driver blankFlash := by
    intro shadow hcached
    rw [hshadow] at hcached
    cases hcached
  have hblank : Stored twoBlocks blankFlash fun _ => [] := .of_blank (blankFlash_blank _ _)
  have hroom : Log.size [] + sizeofCperHeader ≤ twoBlocks.blockSize := by decide
  have hend := collectRecord_end_wp twoBlocks_sound (Setting.not_faulty_faultFree False)
    (Q := fun collected driver' m' => collected = .ok (.last false) ∧ driver' = driver ∧
      m' = blankFlash) hblock hblank hmirrors hbase hroom trivial ⟨rfl, rfl, rfl⟩
  obtain ⟨_, _, _, hrun, rfl, rfl, rfl⟩ := wpIn_total_faultFree hend
  exact hrun

theorem erstCollectBlock_blankFlash {driver : Driver} {block : Nat} (hblock : block < 2)
    (hshadow : driver.shadowFlash = none) :
    (erstCollectBlock twoBlocks block (block * twoBlocks.blockSize) driver).run blankFlash =
      (some (.success, driver.updateBlock block fun _ => blankBlock twoBlocks block),
        blankFlash) := by
  obtain ⟨fresh, hfresh⟩ : ∃ fresh, fresh = driver.updateBlock block fun _ =>
    blankBlock twoBlocks block := ⟨_, rfl⟩
  have hblockInfo : fresh.blockInfo block = blankBlock twoBlocks block := by
    rw [hfresh]
    exact Function.update_self ..
  have hrecord : (collectRecord twoBlocks block 0 fresh).run blankFlash =
      (some (.ok (.last false), fresh), blankFlash) :=
    collectRecord_blankFlash hblock (by rw [hfresh]; exact hshadow) (by rw [hblockInfo]; rfl)
  have hrecords : (collectRecords twoBlocks block (twoBlocks.blockSize + 1) 0 fresh).run
      blankFlash = (some (.ok (0, false), fresh), blankFlash) := by
    rw [collectRecords, run_bind hrecord]
    rfl
  unfold erstCollectBlock
  rw [modify_bind, ← blankBlock, ← hfresh, run_bind hrecords]
  dsimp only
  simp only [Bool.false_eq_true, if_false]
  rw [get_bind, hblockInfo, if_neg (by simp [blankBlock]), if_neg (by decide), hfresh]
  rfl

/-- The driver behind its start on the blank partition. -/
def freshDriver : Driver :=
  { emptyDriver with
    blockInfo := Function.update (Function.update (fun _ => default) 0 (blankBlock twoBlocks 0)) 1
      (blankBlock twoBlocks 1) }

theorem errorSerializationInitialize_blankFlash :
    (errorSerializationInitialize twoBlocks 1 false emptyDriver).run blankFlash =
      (some (.success, freshDriver), blankFlash) := by
  have hfirst (driver : Driver) (hshadow : driver.shadowFlash = none) :
      (erstCollectBlock twoBlocks 0 (u32 (0 * twoBlocks.blockSize)) driver).run blankFlash = _ :=
    erstCollectBlock_blankFlash (by decide) hshadow
  have hsecond (driver : Driver) (hshadow : driver.shadowFlash = none) :
      (erstCollectBlock twoBlocks 1 (u32 (1 * twoBlocks.blockSize)) driver).run blankFlash = _ :=
    erstCollectBlock_blankFlash (by decide) hshadow
  have hcollect (driver : Driver) (hshadow : driver.shadowFlash = none) :
      (collectBlocks twoBlocks (List.range twoBlocks.numBlocks) driver).run blankFlash =
        (some (.success, (driver.updateBlock 0 fun _ => blankBlock twoBlocks 0).updateBlock 1
          fun _ => blankBlock twoBlocks 1), blankFlash) := by
    rw [show List.range twoBlocks.numBlocks = [0, 1] from rfl, collectBlocks,
      run_bind (hfirst driver hshadow), if_neg (by decide), collectBlocks,
      run_bind (hsecond (driver.updateBlock 0 _) hshadow)]
    rfl
  have hinfo : (erstCollectBlockInfo twoBlocks 1 { freshDriver with
      blockInfo := fun _ => default, unsyncedSpinorChanges := 1 }).run blankFlash =
        (some (.success, { freshDriver with unsyncedSpinorChanges := 1 }), blankFlash) := by
    unfold erstCollectBlockInfo
    rw [run_bind (hcollect _ rfl), if_neg (by decide)]
    rfl
  have hgather : (errorSerializationGatherSpinorData twoBlocks 1 false emptyDriver).run blankFlash =
        (some (.success, freshDriver), blankFlash) := by
    unfold errorSerializationGatherSpinorData
    have huncached (driver : Driver) (hshadow : driver.shadowFlash = none) :
        (erstInitShadowFlash twoBlocks false driver).run blankFlash =
          (some ((), driver), blankFlash) := by
      cases driver
      cases hshadow
      rfl
    rw [modify_bind, run_bind (huncached _ rfl), modify_bind]
    exact (run_bind hinfo _).trans rfl
  unfold errorSerializationInitialize
  rw [modify_bind]
  exact (run_bind hgather _).trans rfl

end Erst
