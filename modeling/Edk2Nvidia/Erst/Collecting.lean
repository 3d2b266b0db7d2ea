import Edk2Nvidia.Erst.Store

/-! At its start the driver reads the logs of the blocks back into its tables, and erases the blocks
in which nothing is live any more. -/
namespace Erst
open Flash

def blankBlock (config : Config) (block : Nat) : BlockInfo := ⟨0, 0, 0, block * config.blockSize⟩

/-- A block is in the tables with its log. -/
structure Registered (config : Config) (info : BlockInfo) (block : Nat) (log : Log) : Prop where
  base : info.base = block * config.blockSize
  used : info.usedSize = log.size
  valid : info.validEntries = log.liveCount
  clean : log = [] → info.wastedSize = 0

/-- The tables while the log of `block` is read, of which `front` is behind. -/
structure Gathered (config : Config) (driver : Driver) (m : Memory) (block : Nat) (front : Log)
    (driver' : Driver) : Prop where
  registered : Registered config (driver'.blockInfo block) block front
  other : ∀ b, b ≠ block → driver'.blockInfo b = driver.blockInfo b
  cperInfo : driver'.cperInfo = driver.cperInfo ++ front.infos (block * config.blockSize)
  incoming : driver'.incomingCperInfo = none
  outgoing : driver'.outgoingCperInfo = none
  mirrors : Mirrors config driver' m

theorem Gathered.step {config : Config} {driver driver' driver'' : Driver} {m : Memory}
    {block : Nat} {front : Log} {entry : Entry} (h : Gathered config driver m block front driver')
    (hother : ∀ b, b ≠ block → driver''.blockInfo b = driver'.blockInfo b)
    (hbase : (driver''.blockInfo block).base = (driver'.blockInfo block).base)
    (hused : (driver''.blockInfo block).usedSize = front.size + entry.size)
    (hvalid : (driver''.blockInfo block).validEntries =
      (driver'.blockInfo block).validEntries + if entry.live then 1 else 0)
    (hinfo : driver''.cperInfo = driver'.cperInfo ++
      if entry.live then [entry.info (block * config.blockSize + front.size)] else [])
    (hincoming : driver''.incomingCperInfo = driver'.incomingCperInfo)
    (houtgoing : driver''.outgoingCperInfo = driver'.outgoingCperInfo)
    (hshadow : driver''.shadowFlash = driver'.shadowFlash) :
    Gathered config driver m block (front ++ [entry]) driver'' where
  registered := by
    constructor
    · exact hbase.trans h.registered.base
    · rw [hused, Log.size_append, Log.size_cons, Log.size_nil, Nat.add_zero]
    · rw [hvalid, h.registered.valid]
      cases hlive : entry.live <;> simp [Log.liveCount, hlive]
    · intro hnil
      exact absurd hnil (by simp)
  other b hb := (hother b hb).trans (h.other b hb)
  cperInfo := by
    rw [hinfo, h.cperInfo, Log.infos_append, Log.infos, Log.infos_nil, List.append_nil,
      List.append_assoc]
  incoming := hincoming.trans h.incoming
  outgoing := houtgoing.trans h.outgoing
  mirrors := by
    unfold Mirrors
    rw [hshadow]
    exact h.mirrors

theorem Driver.blockInfo_updateBlock (driver : Driver) (block : Nat) (f : BlockInfo → BlockInfo) :
    (driver.updateBlock block f).blockInfo block = f (driver.blockInfo block) :=
  Function.update_self _ _ _

theorem Entry.Headed.status {entry : Entry} (h : entry.Headed)
    (hlong : sizeofCperHeader ≤ entry.size) :
    cperStatus entry.bytes = if entry.live then statusValid else statusDeleted := by
  have hoffset : statusOffset < sizeofCperHeader := by decide
  have hsize : entry.size = entry.bytes.length := rfl
  have hpersist := getD_persist entry.bytes (if entry.live then statusValid else statusDeleted)
    entry.bytes.length (by omega) (Nat.le_refl _)
  rw [← h.persisted, List.take_length] at hpersist
  exact hpersist

/-- What the start leaves of a log: nothing where nothing is live. -/
def Log.swept (log : Log) : Log := if log.liveCount = 0 then [] else log

theorem Log.swept_dead {log : Log} (h : log.liveCount = 0) : log.swept = [] := if_pos h

theorem Log.swept_live {log : Log} (h : log.liveCount ≠ 0) : log.swept = log := if_neg h

theorem Log.of_swept_ne {log : Log} (h : log.swept ≠ log) : log.liveCount = 0 ∧ log ≠ [] := by
  by_cases hdead : log.liveCount = 0
  · rw [swept_dead hdead] at h
    exact ⟨hdead, h.symm⟩
  · exact absurd (swept_live hdead) h

theorem Log.infos_swept (log : Log) (offset : Nat) : log.swept.infos offset = log.infos offset := by
  by_cases hdead : log.liveCount = 0
  · have hnil : log.infos offset = [] := by
      rw [← List.length_eq_zero_iff, length_infos, hdead]
    rw [swept_dead hdead, hnil]
    rfl
  · rw [swept_live hdead]

section Collect
variable {config : Config} {S : Setting EfiCode} {driver driver' : Driver} {m : Memory}
  {logs : Logs} {block : Nat} {front back : Log} {entry : Entry}

theorem erstAddCperToList_valid_wp {cper : List UInt8} {offset : Nat}
    {Q : EfiCode → Driver → Memory → Prop} (hroom : driver.recordCount < config.maxRecords)
    (hstatus : cperStatus cper = statusValid) (hcut : S.cut m)
    (h : Q .success ({ driver with cperInfo :=
      driver.cperInfo ++ [⟨cperRecordID cper, cperRecordLength cper, offset⟩] } : Driver).unsync m) :
    wpIn S (erstAddCperToList config cper offset) Q driver m := by
  unfold erstAddCperToList erstAllocateNewRecord
  apply wpIn_bind
  rw [wpIn_get_bind]
  dsimp only
  rw [if_pos hroom, wpIn_set_bind, wpIn_pure]
  refine ⟨hcut, ?_⟩
  dsimp only
  rw [if_neg (by decide), wpIn_modify_bind, wpIn_pure, hstatus, if_neg (by decide),
    if_neg (by decide)]
  exact ⟨hcut, h⟩

theorem collectRecord_entry_wp (hsound : config.Sound) (hreliable : ¬ S.Faulty)
    {Q : Except EfiCode Collected → Driver → Memory → Prop} (hblock : block < config.numBlocks)
    (hstored : Stored config m logs) (hheaded : logs.Headed config)
    (hlog : logs block = front ++ entry :: back)
    (hgathered : Gathered config driver m block front driver')
    (hroom : entry.live → driver'.recordCount < config.maxRecords) (hcut : S.cut m)
    (h : ∀ driver'', Gathered config driver m block (front ++ [entry]) driver'' →
      Q (.ok (.next entry.size)) driver'' m) :
    wpIn S (collectRecord config block front.size) Q driver' m := by
  have hpart := Config.le_partitionSize hblock (Nat.le_refl config.blockSize)
  have hlt := hsound.partition_lt
  obtain ⟨hlong, hfront, hfits⟩ := hstored.inside hblock hlog
  have hmem : entry ∈ logs block := by simp [hlog]
  have hentry := hheaded block hblock entry hmem
  have hsize : sizeofCperHeader = 128 := rfl
  have hheader : slice m (config.norErstOffset + (block * config.blockSize + front.size))
      sizeofCperHeader = entry.bytes.take sizeofCperHeader := by
    have hholds := hstored.entry hblock hlog
    rw [show config.place block + front.size =
      config.norErstOffset + (block * config.blockSize + front.size) from Nat.add_assoc _ _ _] at hholds
    exact hholds.slice _ hlong
  have hstatus : cperStatus (entry.bytes.take sizeofCperHeader) =
      if entry.live then statusValid else statusDeleted := by
    rw [← hentry.status hlong]
    exact getD_take _ (by decide)
  have hid : cperRecordID (entry.bytes.take sizeofCperHeader) = entry.id := by
    rw [← hentry.id]
    exact field_take _ (by decide)
  have hlength : cperRecordLength (entry.bytes.take sizeofCperHeader) = entry.size := by
    rw [← hentry.length]
    exact field_take _ (by decide)
  have hvalid : EfiCode.isError (erstValidateCperHeader (entry.bytes.take sizeofCperHeader)
      (config.blockSize - front.size)) = false := by
    rw [erstValidateCperHeader_take _ (Nat.le_refl _)]
    exact erstValidateCperHeader_mono (by omega) hentry.valid
  unfold collectRecord
  rw [wpIn_get_bind, hgathered.registered.base]
  dsimp only
  rw [u32_of_lt (by omega)]
  apply wpIn_bind
  apply erstReadSpiNor_wp hsound (.of_reliable hreliable) (by omega) hgathered.mirrors hcut
  swap
  · intro _ status effect hending
    exact absurd ⟨_, status, effect, hending⟩ hreliable
  rw [hheader]
  dsimp only
  rw [if_neg (by decide)]
  cases hlive : entry.live with
  | false =>
    rw [hlive, if_neg (by decide)] at hstatus
    rw [hstatus, if_neg (by decide), if_pos (by decide), hvalid, if_neg (by decide),
      if_pos rfl, wpIn_modify_bind, wpIn_pure, hlength]
    refine ⟨hcut, h _ (hgathered.step ?_ ?_ ?_ ?_ ?_ rfl rfl rfl)⟩
    · intro b hb
      exact Function.update_of_ne hb _ _
    · rw [Driver.blockInfo_updateBlock]
    · rw [Driver.blockInfo_updateBlock]
      dsimp only
      rw [hgathered.registered.used, u32_of_lt (by omega)]
    · rw [Driver.blockInfo_updateBlock, hlive]
      simp
    · rw [hlive]
      exact (List.append_nil _).symm
  | true =>
    rw [hlive, if_pos rfl] at hstatus
    rw [hstatus, if_neg (by decide), if_pos (by decide), hvalid, if_neg (by decide),
      if_neg (by decide)]
    apply wpIn_bind
    refine erstAddCperToList_valid_wp (hroom hlive) hstatus hcut ?_
    rw [if_neg (by decide), if_neg (by decide), wpIn_modify_bind, wpIn_pure, hlength, hid]
    refine ⟨hcut, h _ (hgathered.step ?_ ?_ ?_ ?_ ?_ rfl rfl rfl)⟩
    · intro b hb
      exact Function.update_of_ne hb _ _
    · rw [Driver.blockInfo_updateBlock]
      rfl
    · rw [Driver.blockInfo_updateBlock]
      show u32 ((driver'.blockInfo block).usedSize + entry.size) = _
      rw [hgathered.registered.used, u32_of_lt (by omega)]
    · rw [Driver.blockInfo_updateBlock, hlive]
      rfl
    · rw [hlive]
      rfl

theorem collectRecord_end_wp (hsound : config.Sound) (hreliable : ¬ S.Faulty)
    {Q : Except EfiCode Collected → Driver → Memory → Prop} (hblock : block < config.numBlocks)
    (hstored : Stored config m logs) (hmirrors : Mirrors config driver m)
    (hbase : (driver.blockInfo block).base = block * config.blockSize)
    (hroom : (logs block).size + sizeofCperHeader ≤ config.blockSize) (hcut : S.cut m)
    (h : Q (.ok (.last false)) driver m) :
    wpIn S (collectRecord config block (logs block).size) Q driver m := by
  have hpart := Config.le_partitionSize hblock (Nat.le_refl config.blockSize)
  have hlt := hsound.partition_lt
  have hplace := hstored.blank block hblock
  rw [show config.place block + (logs block).size =
    config.norErstOffset + (block * config.blockSize + (logs block).size) from Nat.add_assoc _ _ _]
    at hplace
  unfold collectRecord
  rw [wpIn_get_bind, hbase]
  dsimp only
  rw [u32_of_lt (by omega)]
  apply wpIn_bind
  apply erstReadSpiNor_wp hsound (.of_reliable hreliable) (by omega) hmirrors hcut
  swap
  · intro _ status effect hending
    exact absurd ⟨_, status, effect, hending⟩ hreliable
  have hstatus : cperStatus (slice m (config.norErstOffset + (block * config.blockSize +
      (logs block).size)) sizeofCperHeader) = statusFree := by
    unfold cperStatus
    rw [getD_slice _ _ _ _ _ (by decide)]
    have hoffset : statusOffset < sizeofCperHeader := by decide
    exact hplace _ (by omega) (by omega)
  dsimp only
  rw [if_neg (by decide), if_pos hstatus]
  apply wpIn_bind
  apply erstReadSpiNor_wp hsound (.of_reliable hreliable) (by omega) hmirrors hcut
  swap
  · intro _ status effect hending
    exact absurd ⟨_, status, effect, hending⟩ hreliable
  dsimp only
  rw [if_neg (by decide), wpIn_pure, (isErased_slice _ _ _).mpr hplace]
  exact ⟨hcut, h⟩

theorem collectRecords_wp (hsound : config.Sound) (hreliable : ¬ S.Faulty)
    {Q : Except EfiCode (Nat × Bool) → Driver → Memory → Prop} (hblock : block < config.numBlocks)
    (hstored : Stored config m logs) (hheaded : logs.Headed config)
    {fuel : Nat} (hfuel : back.length < fuel)
    (hlog : logs block = front ++ back)
    (hinside : front.size + sizeofCperHeader ≤ config.blockSize)
    (hgathered : Gathered config driver m block front driver')
    (hroom : driver.recordCount + (logs block).liveCount ≤ config.maxRecords) (hcut : S.cut m)
    (h : ∀ driver'', Gathered config driver m block (logs block) driver'' →
      Q (.ok ((logs block).size, false)) driver'' m) :
    wpIn S (collectRecords config block fuel front.size) Q driver' m := by
  induction back generalizing front driver' fuel with
  | nil =>
    rw [List.append_nil] at hlog
    subst hlog
    cases fuel with
    | zero => exact absurd hfuel (Nat.not_lt_zero _)
    | succ fuel =>
      rw [collectRecords]
      apply wpIn_bind
      apply collectRecord_end_wp hsound hreliable hblock hstored hgathered.mirrors
        hgathered.registered.base hinside hcut
      dsimp only
      rw [wpIn_pure]
      exact ⟨hcut, h _ hgathered⟩
  | cons entry back ih =>
    obtain ⟨hlong, hfront, hfits⟩ := hstored.inside hblock hlog
    cases fuel with
    | zero => exact absurd hfuel (Nat.not_lt_zero _)
    | succ fuel =>
      rw [collectRecords]
      apply wpIn_bind
      apply collectRecord_entry_wp hsound hreliable hblock hstored hheaded hlog hgathered
      · intro hlive
        have hcount : driver'.recordCount = driver.recordCount + front.liveCount := by
          unfold Driver.recordCount
          rw [hgathered.cperInfo, List.length_append, Log.length_infos]
        have htotal : front.liveCount < (logs block).liveCount := by
          rw [hlog]
          unfold Log.liveCount
          rw [List.countP_append, List.countP_cons, if_pos hlive]
          omega
        omega
      · exact hcut
      intro driver'' hgathered'
      have hnext : front.size + entry.size = Log.size (front ++ [entry]) := by
        rw [Log.size_append, Log.size_cons, Log.size_nil, Nat.add_zero]
      have hlog' : logs block = (front ++ [entry]) ++ back := by
        rw [hlog, List.append_assoc, List.singleton_append]
      dsimp only
      split
      · next hmore =>
        rw [hnext] at hmore ⊢
        refine ih ?_ hlog' ?_ hgathered'
        · rw [List.length_cons] at hfuel
          omega
        · have hheader : sizeofCperHeader ≤ config.blockSize := by omega
          omega
      · next hdone =>
        -- no entry has room behind this one
        have hnil : back = [] := by
          cases back with
          | nil => rfl
          | cons entry' back =>
            obtain ⟨hlong', hfront', _⟩ := hstored.inside hblock hlog'
            omega
        subst hnil
        rw [List.append_nil] at hlog'
        rw [hnext, ← hlog', wpIn_pure]
        rw [← hlog'] at hgathered'
        exact ⟨hcut, h _ hgathered'⟩

/-- The log of a block is read back; without a live entry the block is erased. -/
theorem erstCollectBlock_wp (hsound : config.Sound) (hreliable : ¬ S.Faulty)
    {Q : EfiCode → Driver → Memory → Prop} (hblock : block < config.numBlocks)
    (hstored : Stored config m logs) (hheaded : logs.Headed config)
    (hmirrors : Mirrors config driver m) (hincoming : driver.incomingCperInfo = none)
    (houtgoing : driver.outgoingCperInfo = none)
    (hroom : driver.recordCount + (logs block).liveCount ≤ config.maxRecords)
    (hcut : ∀ image, Preserved config image (logs.contents config) → S.cut image)
    (h : ∀ driver' m', Stored config m' (Function.update logs block (logs block).swept) →
      Gathered config driver m' block (logs block).swept driver' → Q .success driver' m') :
    wpIn S (erstCollectBlock config block (u32 (block * config.blockSize))) Q driver m := by
  have hpart := Config.le_partitionSize hblock (Nat.le_refl config.blockSize)
  have hlt := hsound.partition_lt
  have hsize := hsound.blockSize
  have hheader : sizeofCperHeader < erstMinBlockSize := by decide
  have hfits := hstored.fits block hblock
  have hnow : S.cut m := hcut _ hstored.preserved
  have hfuel : (logs block).length < config.blockSize + 1 := by
    have hcount : (logs block).length ≤ (logs block).size := by
      unfold Log.size
      have hone := List.card_nsmul_le_sum ((logs block).map Entry.size) 1 (by
        intro size hmem
        obtain ⟨entry, hentry, rfl⟩ := List.mem_map.mp hmem
        have hlong := hstored.long block hblock entry hentry
        have hpos : 0 < sizeofCperHeader := by decide
        omega)
      simpa using hone
    omega
  unfold erstCollectBlock
  rw [wpIn_modify_bind, u32_of_lt (by omega)]
  apply wpIn_bind
  have hstart : Gathered config driver m block []
      (driver.updateBlock block fun _ => blankBlock config block) := by
    refine ⟨?_, fun b hb => Function.update_of_ne hb _ _, (List.append_nil _).symm, hincoming,
      houtgoing, hmirrors⟩
    rw [Driver.blockInfo_updateBlock]
    exact ⟨rfl, rfl, rfl, fun _ => rfl⟩
  change wpIn S (collectRecords config block (config.blockSize + 1) (Log.size [])) _
    (driver.updateBlock block fun _ => blankBlock config block) m
  refine collectRecords_wp hsound hreliable hblock hstored hheaded hfuel rfl ?_ hstart hroom hnow ?_
  · show 0 + sizeofCperHeader ≤ config.blockSize
    omega
  intro driver' hgathered
  simp only [Bool.false_eq_true, if_false, or_false, wpIn_get_bind, hgathered.registered.used,
    hgathered.registered.valid]
  split
  · next hdead =>
    have hnone : (logs block).liveCount = 0 := by exact_mod_cast hdead.1
    have hstored' := hstored.erase block
    have hpreserved := hstored'.preserved
    rw [(Same.erase hblock hnone).contents] at hpreserved
    rw [Log.swept_dead hnone] at h
    apply erstEraseBlock_flash_wp hsound (.of_reliable hreliable) hgathered.mirrors hblock
      hgathered.registered.base hnow (hcut _ hpreserved)
    · intro hmirrors'
      refine h _ _ hstored' ⟨?_, ?_, ?_, hgathered.incoming, hgathered.outgoing, hmirrors'⟩
      · have herased : (driver'.erased config block).blockInfo block =
            ⟨0, 0, 0, (driver'.blockInfo block).base⟩ := Function.update_self _ _ _
        rw [herased]
        exact ⟨hgathered.registered.base, rfl, rfl, fun _ => rfl⟩
      · intro b hb
        exact (Function.update_of_ne hb _ _).trans (hgathered.other b hb)
      · rw [← Log.swept_dead hnone, Log.infos_swept]
        exact hgathered.cperInfo
    · intro hfaulty
      exact absurd hfaulty hreliable
  · next hlive =>
    have hkept : (logs block).swept = logs block := by
      by_contra hne
      obtain ⟨hnone, hne⟩ := Log.of_swept_ne hne
      obtain ⟨entry, hentry⟩ := List.exists_mem_of_ne_nil _ hne
      obtain ⟨front, back, hlog⟩ := List.append_of_mem hentry
      obtain ⟨hlong, hinside, _⟩ := hstored.inside hblock hlog
      have hpos : 0 < sizeofCperHeader := by decide
      exact hlive ⟨by exact_mod_cast hnone, by omega⟩
    rw [hkept, Function.update_eq_self] at h
    split
    · next hfull =>
      rw [wpIn_modify_bind, wpIn_pure]
      refine ⟨hnow, h _ _ hstored ⟨?_, ?_, hgathered.cperInfo, hgathered.incoming,
        hgathered.outgoing, hgathered.mirrors⟩⟩
      · rw [Driver.blockInfo_updateBlock]
        refine ⟨hgathered.registered.base, hgathered.registered.used, hgathered.registered.valid,
          fun hnil => ?_⟩
        rw [hnil, Log.size_nil] at hfull
        omega
      · intro b hb
        exact (Function.update_of_ne hb _ _).trans (hgathered.other b hb)
    · rw [wpIn_pure]
      exact ⟨hnow, h _ _ hstored hgathered⟩

end Collect

end Erst
