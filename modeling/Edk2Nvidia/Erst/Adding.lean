import Edk2Nvidia.Erst.Contents

/-! On flash on which nothing fails: a new record behind the log of a block, and a record that is
cleared. -/
namespace Erst
open Flash

section
variable {config : Config} {S : Setting EfiCode} {driver : Driver} {m : Memory} {logs : Logs}

theorem Device.of_reliable (hreliable : ¬ S.Faulty) : Device S where
  error command status effect hending := absurd ⟨command, status, effect, hending⟩ hreliable
  torn offset data status effect hending :=
    absurd ⟨.write offset data, status, effect, hending⟩ hreliable

structure Added (config : Config) (driver : Driver) (new : CperInfo) (driver' : Driver)
    (m' : Memory) : Prop where
  kept : driver.Kept driver'
  blockInfo : driver'.blockInfo = driver.blockInfo
  cperInfo : driver'.cperInfo = driver.cperInfo ++ [new]
  incoming : driver'.incomingCperInfo = none
  outgoing : driver'.outgoingCperInfo = none
  unsynced : driver'.unsyncedSpinorChanges = driver.unsyncedSpinorChanges
  mirrors : Mirrors config driver' m'

theorem erstWriteRecord_new_wp (hsound : config.Sound) (hreliable : ¬ S.Faulty)
    {cper : List UInt8} {new : CperInfo} {Q : EfiCode × List UInt8 → Driver → Memory → Prop}
    (hready : Ready config driver m new) (hlength : new.recordLength ≤ cper.length)
    (cut : ∀ image, Underway config m ((persist cper statusIncoming).take new.recordLength)
      new.recordOffset none image → S.cut image)
    (refused : ∀ status, EfiCode.isError status → Q (status, persist cper statusIncoming) driver m)
    (served : driver.recordCount < config.maxRecords → ∀ driver',
      Added config driver new driver' (validImage config m
        ((persist cper statusIncoming).take new.recordLength) new.recordOffset none) →
      Q (.success, (persist cper statusIncoming).set statusOffset statusValid) driver'
        (validImage config m ((persist cper statusIncoming).take new.recordLength)
          new.recordOffset none)) :
    wpIn S (erstWriteRecord config cper none (.stack new) false) Q driver m := by
  have hdevice := Device.of_reliable hreliable
  have hnow : S.cut m := cut _ .untouched
  unfold erstWriteRecord
  rw [wpIn_get_bind, if_neg (by simp [hready.outgoing])]
  dsimp only
  by_cases hvalid : EfiCode.isError (erstValidateCperHeader (persist cper statusIncoming)
      (driver.deref (.stack new)).recordLength) = true
  · rw [if_pos hvalid, wpIn_pure]
    exact ⟨hnow, refused _ hvalid⟩
  rw [if_neg hvalid]
  have hlong : sizeofCperHeader ≤ new.recordLength :=
    length_of_valid (Bool.eq_false_iff.mpr hvalid)
  have hdata : ((persist cper statusIncoming).take new.recordLength).length =
      new.recordLength := by simpa using hlength
  have hstatus : statusOffset < sizeofCperHeader := by decide
  have hfits := hready.fits
  have hblank := hready.blank
  have hnew := getD_persist cper statusIncoming new.recordLength (by omega) hlength
  apply wpIn_bind
  unfold erstAllocateNewRecord
  rw [wpIn_get_bind]
  dsimp only
  by_cases hcount : driver.recordCount < config.maxRecords
  swap
  · rw [if_neg hcount, wpIn_pure]
    have herror : EfiCode.isError EfiCode.outOfResources = true := by decide
    rw [if_pos herror, wpIn_pure]
    exact ⟨hnow, hnow, refused _ herror⟩
  rw [if_pos hcount, wpIn_set_bind, wpIn_pure]
  simp only [EfiCode.isError_success, Bool.false_eq_true, if_false]
  refine ⟨hnow, ?_⟩
  have hstart : Partway config { driver with cperInfo := driver.cperInfo ++ [new] } none none 1
      ({ driver with cperInfo := driver.cperInfo ++ [new] } : Driver).unsync m :=
    ⟨⟨rfl, rfl, rfl⟩, rfl, rfl, hready.incoming, hready.outgoing, rfl, hready.mirrors⟩
  -- the record is announced
  apply wpIn_bind
  apply erstWriteCperStatus_wp hsound hdevice new.recordOffset rfl
  · intro heq
    exact hready.incoming
  · intro heq
    exact absurd heq (by decide)
  · omega
  · exact hstart.mirrors
  · rw [hblank _ (by omega) (by omega)]
    rfl
  · exact hnow
  · exact cut _ .started
  swap
  · intro hfaulty
    exact absurd hfaulty hreliable
  have hpart := ((hstart.cache (new.recordOffset + statusOffset)
    [statusIncoming]).marked_incoming (.stack new)).unsync
  rw [EfiCode.isError_success]
  simp only [Bool.false_eq_true, if_false, wpIn_modify_bind]
  -- it is programmed
  have hpermits := permits_startedImage (by rwa [hdata]) hnew
  apply wpIn_bind
  unfold erstProgramRecord
  rw [wpIn_get_bind]
  simp only [Driver.deref_stack]
  apply wpIn_bind
  apply erstWriteSpiNor_wp hsound hdevice (by rw [hdata]; exact hfits) hpermits
  · intro j
    exact cut _ (.torn j)
  swap
  · intro hfaulty
    exact absurd hfaulty hreliable
  rw [EfiCode.isError_success]
  simp only [Bool.false_eq_true, if_false, wpIn_pure]
  refine ⟨cut _ .incoming, ?_⟩
  have hpart₁ := hpart.cache new.recordOffset ((persist cper statusIncoming).take new.recordLength)
  -- it is valid
  apply wpIn_bind
  apply erstWriteCperStatus_wp hsound hdevice new.recordOffset rfl
  · intro heq
    exact absurd heq (by decide)
  · intro heq
    exact absurd heq (by decide)
  · omega
  · exact hpart₁.mirrors
  · have hincoming : outgoingImage config m ((persist cper statusIncoming).take new.recordLength)
        new.recordOffset none (config.norErstOffset + (new.recordOffset + statusOffset)) =
          statusIncoming := outgoingImage_new (by omega) hnew (by rintro _ ⟨⟩)
    show outgoingImage config m ((persist cper statusIncoming).take new.recordLength)
      new.recordOffset none _ &&& statusValid = statusValid
    rw [hincoming]
    decide
  · exact cut _ .incoming
  · exact cut _ .valid
  swap
  · intro hfaulty
    exact absurd hfaulty hreliable
  have hpart₂ := (hpart₁.cache (new.recordOffset + statusOffset) [statusValid]).marked
    (.stack new) (by decide : statusValid ≠ statusIncoming) (by decide)
  simp only [Option.filter_some, Driver.deref_stack, ne_eq, not_true_eq_false, decide_false,
    Bool.false_eq_true, if_false, Option.filter_none] at hpart₂
  rw [EfiCode.isError_success]
  simp only [Bool.false_eq_true, if_false, wpIn_pure_bind, EfiCode.isError_success,
    wpIn_modify_bind, wpIn_pure]
  refine ⟨cut _ .valid, served hcount _ ?_⟩
  refine ⟨⟨hpart₂.kept.recordPools, hpart₂.kept.initStatus, hpart₂.kept.shadow⟩, hpart₂.blockInfo,
    hpart₂.cperInfo, hpart₂.incoming, hpart₂.outgoing, ?_, hpart₂.mirrors⟩
  generalize Driver.marked _ _ _ = driver' at hpart₂ ⊢
  show driver'.unsyncedSpinorChanges - 1 - 1 = _
  rw [hpart₂.unsynced, ← BitVec.add_assoc, BitVec.add_sub_cancel, BitVec.add_sub_cancel]

theorem InSync.append (hsync : InSync config driver m logs) {target length : Nat}
    (hsound : config.Sound) (hr : Room config driver logs length target) {new : Entry}
    (hsize : new.size = length) (hlength : sizeofCperHeader ≤ length) (hlive : new.live)
    (hvalid : cperStatus new.bytes = statusValid) {driver' : Driver}
    (h : Added config (driver.reserve target length) (new.info (logs.gap config target)) driver'
      (overwrite m (config.norErstOffset + logs.gap config target) new.bytes)) :
    InSync config driver' (overwrite m (config.norErstOffset + logs.gap config target) new.bytes)
      (logs.append target new) := by
  have hroom := hr.fits
  have hpart := Config.le_partitionSize hr.bound hroom
  have hlt := hsound.partition_lt
  have hgap : config.place target + (logs target).size =
      config.norErstOffset + logs.gap config target := Nat.add_assoc _ _ _
  have hreserved : (driver.blockInfo target).reserved length =
      { driver.blockInfo target with
        usedSize := (driver.blockInfo target).usedSize + length
        validEntries := (driver.blockInfo target).validEntries + 1 } := by
    unfold BlockInfo.reserved
    rw [hsync.tables.used target hr.bound, u32_of_lt (by omega)]
  constructor
  · rw [← hgap]
    exact hsync.stored.append hr.bound (by rw [hsize]; exact hroom) (by rw [hsize]; exact hlength)
      fun _ => hvalid
  · apply hsync.tables.append hr.bound hlive hr.valid
    · intro b hb
      rw [h.blockInfo]
      exact Function.update_of_ne hb _ _
    · rw [h.blockInfo, hsize, ← hreserved]
      exact Function.update_self _ _ _
    · rw [h.cperInfo]
      exact (Multiset.coe_add _ _).symm
    · exact h.incoming
    · exact h.outgoing
  · exact h.mirrors

/-- The driver once record `k` of `block` is cleared. -/
structure Cleared (config : Config) (driver : Driver) (k block : Nat) (driver' : Driver)
    (m' : Memory) : Prop where
  kept : driver.Kept driver'
  blockInfo : driver'.blockInfo = Function.update driver.blockInfo block
    ((driver.blockInfo block).freed (driver.info k).recordLength)
  cperInfo : driver'.cperInfo = driver.cperInfo.eraseIdx k
  incoming : driver'.incomingCperInfo = none
  outgoing : driver'.outgoingCperInfo = none
  unsynced : driver'.unsyncedSpinorChanges = driver.unsyncedSpinorChanges
  mirrors : Mirrors config driver' m'

theorem erstClearRecord_wp (hsound : config.Sound) (hreliable : ¬ S.Faulty) {k block : Nat}
    {front back : Log} {entry : Entry} {Q : EfiCode → Driver → Memory → Prop}
    (hsync : InSync config driver m logs)
    (hs : Source config driver logs k block front entry back) (now : S.cut m)
    (after : S.cut (overwrite m
      (config.norErstOffset + ((driver.info k).recordOffset + statusOffset)) [statusDeleted]))
    (served : ∀ driver', Cleared config driver k block driver' (overwrite m
        (config.norErstOffset + ((driver.info k).recordOffset + statusOffset)) [statusDeleted]) →
      Q .success driver' (overwrite m
        (config.norErstOffset + ((driver.info k).recordOffset + statusOffset)) [statusDeleted])) :
    wpIn S (erstClearRecord config k) Q driver m := by
  have hdevice := Device.of_reliable hreliable
  obtain ⟨hlong, hfront, hfits⟩ := hs.inside hsync.stored
  have hpos : 0 < sizeofCperHeader := by decide
  have hstatus : statusOffset < sizeofCperHeader := by decide
  have hinfo := hs.info
  have hoffset : (driver.info k).recordOffset = block * config.blockSize + front.size := by
    rw [hinfo]
    rfl
  have hpart := Config.le_partitionSize hs.bound
    (show front.size + sizeofCperHeader ≤ config.blockSize by omega)
  have hvalid := hs.status hsync.stored
  have hlookup := hsync.tables.erstGetBlockOfRecord hs.bound (show front.size < _ by omega)
    (driver.info k) hoffset
  have hstart : Partway config driver none none 0 driver m :=
    ⟨⟨rfl, rfl, rfl⟩, rfl, rfl, hsync.tables.incoming, hsync.tables.outgoing,
      (BitVec.add_zero _).symm, hsync.mirrors⟩
  unfold erstClearRecord
  rw [wpIn_get_bind, if_neg (Nat.not_le.mpr hs.index)]
  apply wpIn_bind
  apply erstWriteCperStatus_wp hsound hdevice (driver.info k).recordOffset rfl
  · intro heq
    exact absurd heq (by decide)
  · intro heq
    exact absurd heq (by decide)
  · omega
  · exact hsync.mirrors
  · rw [hoffset, hvalid]
    decide
  · exact now
  · exact after
  swap
  · intro hfaulty
    exact absurd hfaulty hreliable
  have hpart := ((hstart.cache ((driver.info k).recordOffset + statusOffset)
    [statusDeleted]).marked (.entry k) (by decide : statusDeleted ≠ statusIncoming)
      (by decide)).unsync
  rw [EfiCode.isError_success]
  simp only [Bool.false_eq_true, if_false, wpIn_modify_bind]
  generalize (((driver.cache ((driver.info k).recordOffset + statusOffset)
    [statusDeleted]).marked statusDeleted (.entry k)).unsync) = driver'' at hpart ⊢
  have hderef := hpart.deref (.entry k)
  have hlookup' : driver''.erstGetBlockOfRecord config (driver.deref (.entry k)) = some block := by
    unfold Driver.erstGetBlockOfRecord
    rw [hpart.blockInfo]
    exact hlookup
  apply wpIn_bind
  unfold erstFreeRecord
  rw [wpIn_get_bind]
  simp only [hderef, hlookup', wpIn_set_bind, wpIn_pure, EfiCode.isError_success,
    Bool.false_eq_true, if_false]
  refine ⟨after, ?_⟩
  unfold erstDeallocateRecord
  simp only [wpIn_modify_bind, wpIn_pure]
  refine ⟨after, served _ ?_⟩
  exact {
    kept := ⟨hpart.kept.recordPools, hpart.kept.initStatus, hpart.kept.shadow⟩
    blockInfo := by
      show Function.update driver''.blockInfo block _ = _
      rw [hpart.blockInfo]
      rfl
    cperInfo := by
      show driver''.cperInfo.eraseIdx k = _
      rw [hpart.cperInfo]
    incoming := by
      show driver''.incomingCperInfo.bind _ = none
      rw [hpart.incoming]
      rfl
    outgoing := by
      show driver''.outgoingCperInfo.bind _ = none
      rw [hpart.outgoing]
      rfl
    unsynced := by
      show driver''.unsyncedSpinorChanges - 1 = _
      rw [hpart.unsynced, ← BitVec.add_assoc, BitVec.add_sub_cancel]
      exact BitVec.add_zero _
    mirrors := hpart.mirrors }

theorem InSync.delete (hsync : InSync config driver m logs) {k block : Nat} {front back : Log}
    {entry : Entry} (hs : Source config driver logs k block front entry back) {driver' : Driver}
    (h : Cleared config driver k block driver' (overwrite m
      (config.norErstOffset + ((driver.info k).recordOffset + statusOffset)) [statusDeleted])) :
    InSync config driver' (overwrite m
        (config.norErstOffset + ((driver.info k).recordOffset + statusOffset)) [statusDeleted])
      (Function.update logs block (front ++ entry.deleted :: back)) := by
  have hoffset : (driver.info k).recordOffset = block * config.blockSize + front.size := by
    rw [hs.info]
    rfl
  have hplace : config.norErstOffset + ((driver.info k).recordOffset + statusOffset) =
      config.place block + front.size + statusOffset := by
    rw [hoffset]
    unfold Config.place
    omega
  have hcount := hsync.tables.valid block hs.bound
  rw [hs.log, Log.liveCount_deleted _ _ _ hs.live] at hcount
  constructor
  · rw [hplace]
    exact hsync.stored.delete hs.bound hs.log
  · apply hsync.tables.delete hs.bound hs.log hs.live
    · intro b hb
      rw [h.blockInfo]
      exact Function.update_of_ne hb _ _
    · rw [h.blockInfo, Function.update_self]
      rfl
    · rw [h.blockInfo, Function.update_self]
      rfl
    · rw [h.blockInfo, Function.update_self]
      unfold BlockInfo.freed
      split
      · show ((driver.blockInfo block).validEntries - 1).natAbs + 1 = _
        omega
      split
      · show ((driver.blockInfo block).validEntries + 1).natAbs + 1 = _
        omega
      · omega
    · rw [h.cperInfo]
      have hindex : k < driver.cperInfo.length := hs.index
      have herase := coe_eraseIdx_add driver.cperInfo k hindex
      have hentry : driver.cperInfo[k] = entry.info (block * config.blockSize + front.size) := by
        rw [← hs.info]
        unfold Driver.info
        rw [List.getD_eq_getElem _ _ hindex]
      rwa [hentry] at herase
    · exact h.incoming
    · exact h.outgoing
  · exact h.mirrors

end

end Erst
