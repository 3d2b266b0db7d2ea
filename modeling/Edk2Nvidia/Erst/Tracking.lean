import Edk2Nvidia.Erst.Init
import Edk2Nvidia.Erst.Layout

/-! The tables of the driver against the logs of the flash: each block is tracked with the bytes
and the live entries of its log, and every live entry has its place in `CperInfo`. What the driver
does to its tables is what `Layout` does to the logs. -/
namespace Erst
open Flash

/-- The geometry the driver accepts, of a partition inside its flash. -/
structure Config.Sound (config : Config) : Prop where
  norBlockSize : 0 < config.norBlockSize
  aligned : config.norBlockSize ∣ config.norErstOffset
  divides : config.norBlockSize ∣ config.blockSize
  blockSize : erstMinBlockSize ≤ config.blockSize
  numBlocks : 2 ≤ config.numBlocks
  inside : config.norErstOffset + config.partitionSize ≤ config.memoryDensity
  density : config.memoryDensity < 2 ^ 32

/-- `errorSerializationInitProtocol` lets nothing else through, as long as the partition does not
wrap around the addresses. -/
theorem errorSerializationInitProtocol_sound {platform : Platform} {config : Config}
    (h : errorSerializationInitProtocol platform = .ok config)
    (hblock : 0 < platform.norBlockSize) (hdensity : platform.memoryDensity < 2 ^ 32)
    (hwrap : platform.norErstOffset + platform.norErstSize < 2 ^ 32) : config.Sound := by
  unfold errorSerializationInitProtocol at h
  simp only at h
  split at h
  · cases h
  split at h
  · cases h
  split at h
  · cases h
  split at h
  · cases h
  split at h
  · cases h
  next hinside hdivides haligned hblocks =>
    rw [u32_of_lt hwrap] at hinside
    have hsize := Nat.div_mul_le_self platform.norErstSize
      (max erstMinBlockSize platform.norBlockSize)
    cases h
    constructor
    · exact hblock
    · exact Nat.dvd_of_mod_eq_zero (Decidable.not_not.mp haligned)
    · exact Nat.dvd_of_mod_eq_zero (Decidable.not_not.mp hdivides)
    · exact Nat.le_max_left _ _
    · exact Nat.le_of_not_lt hblocks
    · show platform.norErstOffset + platform.norErstSize / max erstMinBlockSize
        platform.norBlockSize * max erstMinBlockSize platform.norBlockSize ≤ platform.memoryDensity
      omega
    · exact hdensity

structure Tables (config : Config) (driver : Driver) (logs : Logs) : Prop where
  base : ∀ b < config.numBlocks, (driver.blockInfo b).base = b * config.blockSize
  used : ∀ b < config.numBlocks, (driver.blockInfo b).usedSize = (logs b).size
  /-- Negative while the block is being reclaimed. -/
  valid : ∀ b < config.numBlocks, (driver.blockInfo b).validEntries.natAbs = (logs b).liveCount
  clean : ∀ b < config.numBlocks, logs b = [] → (driver.blockInfo b).wastedSize = 0
  infos : (driver.cperInfo : Multiset CperInfo) = logs.infos config
  incoming : driver.incomingCperInfo = none
  outgoing : driver.outgoingCperInfo = none

/-- The cache, where there is one, is a copy of the flash. -/
def Mirrors (config : Config) (driver : Driver) (m : Memory) : Prop :=
  ∀ shadow ∈ driver.shadowFlash, ∀ a < config.partitionSize,
    shadow a = m (config.norErstOffset + a)

structure InSync (config : Config) (driver : Driver) (m : Memory) (logs : Logs) : Prop where
  stored : Stored config m logs
  tables : Tables config driver logs
  mirrors : Mirrors config driver m

theorem Config.le_partitionSize {config : Config} {b o : Nat} (hb : b < config.numBlocks)
    (ho : o ≤ config.blockSize) : b * config.blockSize + o ≤ config.partitionSize := by
  have hmul := Nat.mul_le_mul_right config.blockSize (Nat.succ_le_of_lt hb)
  rw [Nat.succ_mul] at hmul
  unfold Config.partitionSize
  omega

theorem Config.Sound.partition_lt {config : Config} (hsound : config.Sound) :
    config.norErstOffset + config.partitionSize < 2 ^ 32 :=
  Nat.lt_of_le_of_lt hsound.inside hsound.density

section Tables
variable {config : Config} {driver driver' : Driver} {logs : Logs}

theorem Tables.congr (h : Tables config driver logs)
    (hblock : driver'.blockInfo = driver.blockInfo) (hinfo : driver'.cperInfo = driver.cperInfo)
    (hincoming : driver'.incomingCperInfo = none) (houtgoing : driver'.outgoingCperInfo = none) :
    Tables config driver' logs := by
  constructor
  · rw [hblock]
    exact h.base
  · rw [hblock]
    exact h.used
  · rw [hblock]
    exact h.valid
  · rw [hblock]
    exact h.clean
  · rw [hinfo]
    exact h.infos
  · exact hincoming
  · exact houtgoing

theorem Tables.update (h : Tables config driver logs) {block : Nat} {log : Log}
    (hother : ∀ b, b ≠ block → driver'.blockInfo b = driver.blockInfo b)
    (base : (driver'.blockInfo block).base = block * config.blockSize)
    (used : (driver'.blockInfo block).usedSize = log.size)
    (valid : (driver'.blockInfo block).validEntries.natAbs = log.liveCount)
    (clean : log = [] → (driver'.blockInfo block).wastedSize = 0)
    (infos : (driver'.cperInfo : Multiset CperInfo) =
      Logs.infos config (Function.update logs block log))
    (hincoming : driver'.incomingCperInfo = none) (houtgoing : driver'.outgoingCperInfo = none) :
    Tables config driver' (Function.update logs block log) := by
  constructor
  · intro b hb
    by_cases heq : b = block
    · rwa [heq]
    · rw [hother b heq]
      exact h.base b hb
  · intro b hb
    by_cases heq : b = block
    · rwa [heq, Function.update_self]
    · rw [Function.update_of_ne heq, hother b heq]
      exact h.used b hb
  · intro b hb
    by_cases heq : b = block
    · rwa [heq, Function.update_self]
    · rw [Function.update_of_ne heq, hother b heq]
      exact h.valid b hb
  · intro b hb
    by_cases heq : b = block
    · rwa [heq, Function.update_self]
    · rw [Function.update_of_ne heq, hother b heq]
      exact h.clean b hb
  · exact infos
  · exact hincoming
  · exact houtgoing

/-- A record behind the log of a block that is not being reclaimed. -/
theorem Tables.append (h : Tables config driver logs) {block : Nat}
    (hblock : block < config.numBlocks) {entry : Entry} (hlive : entry.live)
    (hvalid : 0 ≤ (driver.blockInfo block).validEntries)
    (hother : ∀ b, b ≠ block → driver'.blockInfo b = driver.blockInfo b)
    (hinfo : driver'.blockInfo block = { driver.blockInfo block with
      usedSize := (driver.blockInfo block).usedSize + entry.size
      validEntries := (driver.blockInfo block).validEntries + 1 })
    (hinfos : (driver'.cperInfo : Multiset CperInfo) = driver.cperInfo +
      {entry.info (block * config.blockSize + (logs block).size)})
    (hincoming : driver'.incomingCperInfo = none) (houtgoing : driver'.outgoingCperInfo = none) :
    Tables config driver' (logs.append block entry) := by
  have hcount := h.valid block hblock
  apply h.update hother
  · rw [hinfo]
    exact h.base block hblock
  · rw [hinfo]
    simp [h.used block hblock]
  · rw [hinfo, Log.liveCount_concat _ _ hlive, ← hcount]
    show ((driver.blockInfo block).validEntries + 1).natAbs = _
    omega
  · intro hnil
    simp at hnil
  · rw [hinfos, h.infos]
    exact (Logs.infos_append config logs hblock hlive).symm
  · exact hincoming
  · exact houtgoing

theorem Tables.delete (h : Tables config driver logs) {block : Nat}
    (hblock : block < config.numBlocks) {front back : Log} {entry : Entry}
    (hlog : logs block = front ++ entry :: back) (hlive : entry.live)
    (hother : ∀ b, b ≠ block → driver'.blockInfo b = driver.blockInfo b)
    (hbase : (driver'.blockInfo block).base = (driver.blockInfo block).base)
    (hused : (driver'.blockInfo block).usedSize = (driver.blockInfo block).usedSize)
    (hvalid : (driver'.blockInfo block).validEntries.natAbs + 1 =
      (driver.blockInfo block).validEntries.natAbs)
    (hinfos : (driver'.cperInfo : Multiset CperInfo) +
      {entry.info (block * config.blockSize + front.size)} = driver.cperInfo)
    (hincoming : driver'.incomingCperInfo = none) (houtgoing : driver'.outgoingCperInfo = none) :
    Tables config driver' (Function.update logs block (front ++ entry.deleted :: back)) := by
  apply h.update hother
  · rw [hbase]
    exact h.base block hblock
  · rw [hused, h.used block hblock, hlog, Log.size_deleted]
  · have hcount := h.valid block hblock
    rw [hlog, Log.liveCount_deleted _ _ _ hlive] at hcount
    omega
  · intro hnil
    simp at hnil
  · have hdeleted := Logs.infos_deleted config logs hblock hlog hlive
    rw [← h.infos, ← hinfos] at hdeleted
    exact (add_right_cancel hdeleted).symm
  · exact hincoming
  · exact houtgoing

theorem Tables.erase (h : Tables config driver logs) {block : Nat}
    (hblock : block < config.numBlocks) (hvalid : (driver.blockInfo block).validEntries = 0)
    (hother : ∀ b, b ≠ block → driver'.blockInfo b = driver.blockInfo b)
    (hinfo : driver'.blockInfo block = { driver.blockInfo block with
      usedSize := 0, wastedSize := 0, validEntries := 0 })
    (hcper : driver'.cperInfo = driver.cperInfo)
    (hincoming : driver'.incomingCperInfo = none) (houtgoing : driver'.outgoingCperInfo = none) :
    Tables config driver' (Function.update logs block []) := by
  have hcount := h.valid block hblock
  rw [hvalid] at hcount
  apply h.update hother
  · rw [hinfo]
    exact h.base block hblock
  · rw [hinfo]
    rfl
  · rw [hinfo]
    rfl
  · intro
    rw [hinfo]
  · rw [hcper, h.infos]
    have hupdate := Logs.infos_update config logs hblock []
    have hnone : (logs block).infos (block * config.blockSize) = [] := by
      apply List.eq_nil_of_length_eq_zero
      rw [Log.length_infos]
      exact hcount.symm
    rw [hnone] at hupdate
    simpa using hupdate.symm
  · exact hincoming
  · exact houtgoing

theorem Tables.erstGetBlockOfRecord (h : Tables config driver logs) {block o : Nat}
    (hblock : block < config.numBlocks) (ho : o < config.blockSize) (record : CperInfo)
    (hrecord : record.recordOffset = block * config.blockSize + o) :
    driver.erstGetBlockOfRecord config record = some block := by
  unfold Driver.erstGetBlockOfRecord
  rw [List.find?_range_eq_some, hrecord, decide_eq_true_iff, h.base block hblock]
  refine ⟨⟨by omega, by omega⟩, List.mem_range.mpr hblock, ?_⟩
  intro b hb
  have hmul := Nat.mul_le_mul_right config.blockSize (Nat.succ_le_of_lt hb)
  rw [Nat.succ_mul] at hmul
  have hfar : ¬ block * config.blockSize + o < b * config.blockSize + config.blockSize := by omega
  simp [h.base b (by omega), hfar]

theorem Tables.entry (h : Tables config driver logs) {k : Nat} (hk : k < driver.recordCount) :
    ∃ block < config.numBlocks, ∃ (front : Log) (entry : Entry) (back : Log),
      logs block = front ++ entry :: back ∧ entry.live ∧
        driver.info k = entry.info (block * config.blockSize + front.size) := by
  apply Logs.mem_infos config
  rw [← h.infos, Multiset.mem_coe]
  unfold Driver.info
  rw [List.getD_eq_getElem _ _ hk]
  exact List.getElem_mem hk

end Tables

/-! One entry of a list. -/

theorem coe_set_add {α : Type*} (l : List α) (k : Nat) (hk : k < l.length) (x : α) :
    ((l.set k x : List α) : Multiset α) + {l[k]} = l + {x} := by
  have hset : (l.set k x : Multiset α) = x ::ₘ (l.eraseIdx k : Multiset α) :=
    Multiset.coe_eq_coe.mpr (List.set_perm_cons_eraseIdx hk x)
  have herase : (l : Multiset α) = l[k] ::ₘ (l.eraseIdx k : Multiset α) :=
    Multiset.coe_eq_coe.mpr (List.getElem_cons_eraseIdx_perm hk).symm
  rw [hset, herase, ← Multiset.singleton_add, ← Multiset.singleton_add]
  abel

theorem coe_eraseIdx_add {α : Type*} (l : List α) (k : Nat) (hk : k < l.length) :
    ((l.eraseIdx k : List α) : Multiset α) + {l[k]} = l := by
  rw [add_comm, Multiset.singleton_add]
  exact Multiset.coe_eq_coe.mpr (List.getElem_cons_eraseIdx_perm hk)

end Erst
