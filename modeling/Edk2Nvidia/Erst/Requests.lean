import Edk2Nvidia.Erst.Store

/-! What each request does to the store, on flash on which nothing fails and with power lost
anywhere. -/
namespace Erst
open Flash

section
variable {config : Config} {S : Setting EfiCode} {driver driver' : Driver} {m m' : Memory}
  {logs : Logs} {store : Store}

/-! Room for a new record. -/

theorem erstUndoAllocateRecord_reserve (hsound : config.Sound) (hsync : InSync config driver m logs)
    {record : CperInfo} {block : Nat} (hlength : record.recordLength ≤ config.blockSize)
    (hblock : driver.erstGetBlockOfRecord config record = some block)
    {Q : EfiCode → Driver → Memory → Prop} (hcut : S.cut m) (h : Q .success driver m) :
    wpIn S (erstUndoAllocateRecord config record) Q
      (driver.reserve block record.recordLength) m := by
  have hbound : block < config.numBlocks := by
    unfold Driver.erstGetBlockOfRecord at hblock
    exact List.mem_range.mp (List.mem_of_find?_eq_some hblock)
  have hpart := Config.le_partitionSize hbound (Nat.le_refl config.blockSize)
  have hblocks := Nat.mul_le_mul_right config.blockSize hsound.numBlocks
  have hlt := hsound.partition_lt
  have hused := hsync.tables.used block hbound
  have hfits := hsync.stored.fits block hbound
  have hlookup : (driver.reserve block record.recordLength).erstGetBlockOfRecord config record =
      some block := by
    rw [← hblock]
    unfold Driver.erstGetBlockOfRecord
    congr 1
    funext b
    have hbase : ((driver.reserve block record.recordLength).blockInfo b).base =
        (driver.blockInfo b).base := by
      show (Function.update driver.blockInfo block _ b).base = _
      by_cases heq : b = block
      · rw [heq, Function.update_self]
        rfl
      · rw [Function.update_of_ne heq]
    rw [hbase]
  have hpartition : config.partitionSize = config.numBlocks * config.blockSize := rfl
  have hsame : u32 (u32 ((driver.blockInfo block).usedSize + record.recordLength) + 2 ^ 32 -
      record.recordLength) = (driver.blockInfo block).usedSize := by
    rw [u32_of_lt (show (driver.blockInfo block).usedSize + record.recordLength < 2 ^ 32 by omega)]
    unfold u32
    omega
  have hrestored : ((driver.reserve block record.recordLength).updateBlock block fun info =>
      { info with
        usedSize := u32 (info.usedSize + 2 ^ 32 - record.recordLength)
        validEntries := info.validEntries - 1 }).sync = driver := by
    have hinfo : Function.update (Function.update driver.blockInfo block
        ((driver.blockInfo block).reserved record.recordLength)) block
          { (driver.blockInfo block).reserved record.recordLength with
            usedSize := u32 (((driver.blockInfo block).reserved record.recordLength).usedSize +
              2 ^ 32 - record.recordLength)
            validEntries :=
              ((driver.blockInfo block).reserved record.recordLength).validEntries - 1 } =
        driver.blockInfo := by
      have hrestored : { (driver.blockInfo block).reserved record.recordLength with
          usedSize := u32 (((driver.blockInfo block).reserved record.recordLength).usedSize +
            2 ^ 32 - record.recordLength)
          validEntries :=
            ((driver.blockInfo block).reserved record.recordLength).validEntries - 1 } =
          driver.blockInfo block := by
        unfold BlockInfo.reserved
        rw [hsame, Int.add_sub_cancel]
      rw [hrestored, Function.update_idem, Function.update_eq_self]
    have hchanges : driver.unsyncedSpinorChanges + 1 - 1 = driver.unsyncedSpinorChanges :=
      BitVec.add_sub_cancel _ _
    unfold Driver.reserve Driver.updateBlock Driver.sync Driver.unsync
    simp only [Function.update_self, hinfo, hchanges]
  unfold erstUndoAllocateRecord
  rw [wpIn_get_bind, hlookup]
  simp only [wpIn_set_bind, wpIn_pure, hrestored]
  exact ⟨hcut, h⟩

theorem erstPrepareNewRecord_wp (hsound : config.Sound) (hreliable : ¬ S.Faulty)
    (hstops : S.stops) {fuel id length : Nat} {dummyOp : Bool}
    {Q : EfiCode × CperInfo → Driver → Memory → Prop}
    (hcut : ∀ image, Preserved config image (logs.contents config) → S.cut image)
    (hsync : InSync config driver m logs) (hlength : length ≤ config.blockSize)
    (failed : ∀ status record driver' m' logs', EfiCode.isError status →
      InSync config driver' m' logs' → driver.Alike driver' →
      Same config logs logs' → Q (status, record) driver' m')
    (served : ∀ driver' m' logs' target block, InSync config driver' m' logs' →
      driver.Alike driver' → Same config logs logs' →
      Room config driver' logs' length target →
      driver'.erstGetBlockOfRecord config ⟨id, length, logs'.gap config target⟩ = some block →
      Q (.success, ⟨id, length, logs'.gap config target⟩) (driver'.reserve block length) m') :
    wpIn S (erstPrepareNewRecord config (erstFindFreeSpace config fuel) id length dummyOp) Q
      driver m := by
  have hhonest : Faithful S driver := .inl hreliable
  have hlt : length < 2 ^ 32 := by
    have hblocks := Nat.mul_le_mul_right config.blockSize hsound.numBlocks
    have hpart := hsound.partition_lt
    have hpartition : config.partitionSize = config.numBlocks * config.blockSize := rfl
    omega
  unfold erstPrepareNewRecord
  apply wpIn_bind
  apply wpIn_mono (erstFindFreeSpace_wp hsound (.of_reliable hreliable) hstops fuel
    (fun image hpreserved => hcut image (hpreserved hhonest)) hsync hlength)
  rintro ⟨status, offset⟩ driver' m' (⟨herror, hcut', _, hkept⟩ | ⟨logs', target, hr, hfound⟩)
  · obtain ⟨logs', hsync', halike, hsame⟩ := hkept hreliable
    have herror' : EfiCode.isError status = true := herror
    simp only [herror', if_true, wpIn_pure]
    exact ⟨hcut', failed _ _ _ _ logs' herror hsync' halike hsame⟩
  · obtain rfl : status = .success := hr
    obtain rfl : offset = logs'.gap config target := hfound.offset
    have hsame := hfound.same hhonest
    have hcut' : S.cut m' := by
      apply hcut
      rw [← hsame.contents]
      exact hfound.sync.stored.preserved
    simp only [EfiCode.isError_success, Bool.false_eq_true, if_false, wpIn_get_bind,
      u32_of_lt hlt]
    split
    · next block hblock =>
      rw [wpIn_set_bind, wpIn_pure]
      exact ⟨hcut', served driver' m' logs' target block hfound.sync hfound.alike hsame
        hfound.room hblock⟩
    · rw [wpIn_pure]
      exact ⟨hcut', failed _ _ _ _ logs' (by decide) hfound.sync hfound.alike hsame⟩

/-! The write of a record. -/

theorem erstWriteRecord_refused_wp {cper : List UInt8} {current : Option Nat} {new : CperInfo}
    {dummyOp : Bool} {Q : EfiCode × List UInt8 → Driver → Memory → Prop}
    (houtgoing : driver.outgoingCperInfo = none)
    (hinvalid : EfiCode.isError (erstValidateCperHeader (persist cper statusIncoming)
      new.recordLength) = true) (hcut : S.cut m)
    (refused : ∀ status cper', EfiCode.isError status → Q (status, cper') driver m) :
    wpIn S (erstWriteRecord config cper current (.stack new) dummyOp) Q driver m := by
  unfold erstWriteRecord
  rw [wpIn_get_bind, if_neg (by simp [houtgoing])]
  dsimp only
  have hinvalid' : EfiCode.isError (erstValidateCperHeader (persist cper statusIncoming)
      (driver.deref (.stack new)).recordLength) = true := hinvalid
  rw [if_pos hinvalid', wpIn_pure]
  exact ⟨hcut, refused _ _ hinvalid⟩

theorem erstWriteRecord_dummy_wp {cper : List UInt8} {new : CperInfo}
    {Q : EfiCode × List UInt8 → Driver → Memory → Prop}
    (hincoming : driver.incomingCperInfo = none) (houtgoing : driver.outgoingCperInfo = none)
    (hcut : S.cut m) (h : ∀ status cper', Q (status, cper') driver m) :
    wpIn S (erstWriteRecord config cper none (.stack new) true) Q driver m := by
  unfold erstWriteRecord
  rw [wpIn_get_bind, if_neg (by simp [houtgoing])]
  dsimp only
  split
  · rw [wpIn_pure]
    exact ⟨hcut, h _ _⟩
  apply wpIn_bind
  unfold erstAllocateNewRecord
  rw [wpIn_get_bind]
  dsimp only
  split
  · -- the entry that is allocated is taken back
    have hrestored : ({ ({ driver with cperInfo := driver.cperInfo ++ [new] } : Driver).unsync with
        cperInfo := (driver.cperInfo ++ [new]).eraseIdx driver.recordCount
        incomingCperInfo := driver.incomingCperInfo.bind (Ref.shift driver.recordCount)
        outgoingCperInfo := driver.outgoingCperInfo.bind (Ref.shift driver.recordCount) }).sync =
        driver := by
      have herase : (driver.cperInfo ++ [new]).eraseIdx driver.recordCount = driver.cperInfo := by
        unfold Driver.recordCount
        rw [List.eraseIdx_append_of_length_le (Nat.le_refl _), Nat.sub_self]
        exact List.append_nil _
      have hchanges : driver.unsyncedSpinorChanges + 1 - 1 = driver.unsyncedSpinorChanges :=
        BitVec.add_sub_cancel _ _
      have hin : driver.incomingCperInfo.bind (Ref.shift driver.recordCount) =
          driver.incomingCperInfo := by rw [hincoming]; rfl
      have hout : driver.outgoingCperInfo.bind (Ref.shift driver.recordCount) =
          driver.outgoingCperInfo := by rw [houtgoing]; rfl
      unfold Driver.sync Driver.unsync
      simp only [herase, hchanges, hin, hout]
    rw [wpIn_set_bind, wpIn_pure]
    simp only [EfiCode.isError_success, Bool.false_eq_true, if_false, if_true]
    refine ⟨hcut, ?_⟩
    apply wpIn_bind
    unfold erstDeallocateRecord
    dsimp only
    rw [wpIn_modify_bind, wpIn_pure, wpIn_pure]
    refine ⟨hcut, hcut, ?_⟩
    have hsame := h .success (persist cper statusIncoming)
    rw [← hrestored] at hsame
    exact hsame
  · rw [wpIn_pure]
    have herror : EfiCode.isError EfiCode.outOfResources = true := by decide
    rw [if_pos herror, wpIn_pure]
    exact ⟨hcut, hcut, h _ _⟩

/-- What is written, as an entry of the log. -/
def written (id length : Nat) (cper : List UInt8) : Entry :=
  ⟨id, ((persist cper statusIncoming).take length).set statusOffset statusValid, true⟩

theorem contents_written (id length : Nat) (cper : List UInt8) :
    (written id length cper).contents = (id, normalize (cper.take length)) := by
  unfold Entry.contents written
  rw [normalize_set, take_persist, normalize_persist]

theorem headed_written {id length : Nat} {cper : List UInt8} (hlong : sizeofCperHeader ≤ length)
    (hlength : length ≤ cper.length)
    (hvalid : EfiCode.isError (erstValidateCperHeader (persist cper statusIncoming) length) = false)
    (hid : cperRecordID cper = id) (hsize : cperRecordLength cper = length) :
    (written id length cper).Headed := by
  have hbytes : ((persist cper statusIncoming).take length).length = length := by
    rw [List.length_take, length_persist]
    omega
  have hheader : sizeofCperHeader = 128 := rfl
  have hwritten : written id length cper =
      ⟨id, persist ((persist cper statusIncoming).take length) statusValid, true⟩ := by
    unfold written
    rw [take_persist, set_persist, persist_persist]
  rw [hwritten]
  apply Entry.headed_persist true
  · rw [hbytes]
    exact hlong
  · rw [hbytes, erstValidateCperHeader_take _ hlong]
    exact hvalid
  · unfold cperRecordID at hid ⊢
    rw [field_take _ (by omega), field_persist _ _ (by omega), hid]
  · unfold cperRecordLength at hsize ⊢
    rw [hbytes, field_take _ (by omega), field_persist _ _ (by omega), hsize]

/-- The record that a new one with this id replaces. -/
def Replaces (driver : Driver) (store : Store) (id : Nat) : Option Nat → Prop
  | some k => k < driver.recordCount ∧ (driver.info k).recordId = id
  | none => ∀ record ∈ store, record.1 ≠ id

theorem erstWriteRecord_put_wp (hsound : config.Sound) (hreliable : ¬ S.Faulty)
    {cper : List UInt8} {id length target : Nat} {current : Option Nat}
    {Q : EfiCode × List UInt8 → Driver → Memory → Prop}
    (hsync : InSync config driver m logs) (hroom : Room config driver logs length target)
    (hdistinct : Store.Distinct (logs.contents config))
    (hcard : (logs.contents config).card ≤ config.maxRecords)
    (hcurrent : Replaces driver (logs.contents config) id current)
    (hlength : length ≤ cper.length) (hrecordID : cperRecordID cper = id)
    (hrecordLength : cperRecordLength cper = length)
    (hvalid : EfiCode.isError (erstValidateCperHeader (persist cper statusIncoming) length) = false)
    (hcut : ∀ image, Preserved config image (logs.contents config) ∨
      Preserved config image (Store.put (logs.contents config) id (normalize (cper.take length))) →
        S.cut image)
    (refused : ∀ status cper', EfiCode.isError status →
      Q (status, cper') (driver.reserve target length) m)
    (served : ∀ cper' driver' m' logs', InSync config driver' m' logs' →
      logs'.contents config =
        Store.put (logs.contents config) id (normalize (cper.take length)) →
      (logs'.contents config).card ≤ config.maxRecords → driver'.ids = putId driver.ids id →
      (logs.Headed config → logs'.Headed config) →
      driver'.unsyncedSpinorChanges = (driver.reserve target length).unsyncedSpinorChanges →
      driver'.initStatus = driver.initStatus → Q (.success, cper') driver' m') :
    wpIn S (erstWriteRecord config cper current (.stack ⟨id, length, logs.gap config target⟩) false)
      Q (driver.reserve target length) m := by
  have hlong : sizeofCperHeader ≤ length := length_of_valid hvalid
  have hpos : 0 < sizeofCperHeader := by decide
  have hdata : ((persist cper statusIncoming).take length).length = length := by simpa using hlength
  have hlongData : sizeofCperHeader ≤ ((persist cper statusIncoming).take length).length := by
    rw [hdata]
    exact hlong
  have hsize : (written id length cper).size = length := by
    show (((persist cper statusIncoming).take length).set statusOffset statusValid).length = length
    rw [List.length_set, hdata]
  have hinfo : (written id length cper).info (logs.gap config target) =
      ⟨id, length, logs.gap config target⟩ := by
    unfold Entry.info
    rw [hsize]
    rfl
  have hstatus : cperStatus (written id length cper).bytes = statusValid := by
    have hoffset : statusOffset < sizeofCperHeader := by decide
    show (((persist cper statusIncoming).take length).set statusOffset statusValid).getD
      statusOffset 0 = statusValid
    rw [List.getD_eq_getElem _ _ (by rw [List.length_set, hdata]; omega), List.getElem_set_self]
  have hready := hroom.ready hsync id
  have hheaded := headed_written hlong hlength hvalid hrecordID hrecordLength
  cases current with
  | none =>
    have hcontents : (logs.append target (written id length cper)).contents config =
        Store.put (logs.contents config) id (normalize (cper.take length)) := by
      rw [Logs.contents_append logs hroom.bound rfl, contents_written]
      unfold Store.put
      rw [Store.drop_eq hcurrent]
    apply erstWriteRecord_new_wp hsound hreliable hready hlength
    · intro image hunderway
      apply hcut _ (.inl _)
      exact hsync.stored.preserved_underway hlongData (by rw [hdata]; exact hroom.fits)
        (by rintro _ ⟨⟩) hunderway
    · intro status herror
      exact refused status _ herror
    · intro hcount driver' hadded
      have hroomy : ((logs.append target (written id length cper)).contents config).card ≤
          config.maxRecords := by
        rw [Logs.contents_append logs hroom.bound rfl, Multiset.card_add, Multiset.card_singleton,
          ← hsync.recordCount]
        exact hcount
      change Added config (driver.reserve target length) ⟨id, length, logs.gap config target⟩ driver'
        (validImage config m ((persist cper statusIncoming).take length) (logs.gap config target)
          none) at hadded
      change Q _ driver' (validImage config m ((persist cper statusIncoming).take length)
        (logs.gap config target) none)
      have hids : driver'.ids = putId driver.ids id := by
        have hnew : id ∉ driver.ids := by
          intro hmem
          rw [← Multiset.mem_coe, hsync.ids] at hmem
          obtain ⟨record, hrecord, hid⟩ := Multiset.mem_map.mp hmem
          exact hcurrent record hrecord hid
        unfold putId
        rw [if_neg hnew]
        unfold Driver.ids
        rw [hadded.cperInfo, List.map_append]
        rfl
      rw [validImage_none (by omega)] at hadded ⊢
      rw [← hinfo] at hadded
      exact served _ _ _ _ (hsync.append hsound hroom hsize hlong rfl hstatus hadded) hcontents
        hroomy hids (fun hlogs => hlogs.append hroom.bound hheaded) hadded.unsynced hadded.kept.initStatus
  | some k =>
    obtain ⟨hk, hid⟩ := hcurrent
    obtain ⟨block, hblock, front, entry, back, hlog, hlive, hentry⟩ := hsync.tables.entry hk
    have hs : Source config driver logs k block front entry back :=
      ⟨hk, hblock, hlog, hlive, hentry⟩
    have hentryLong := (hs.inside hsync.stored).1
    have hentryId : entry.id = id := by
      rw [hentry] at hid
      exact hid
    have hmoved := @Logs.contents_moved _ _ _ _ _ _ _ _ _ (written id length cper) hs hroom.bound
      rfl
    have hroomy : ((logs.moved block target front entry back
        (written id length cper)).contents config).card ≤ config.maxRecords := by
      have hsame := congrArg Multiset.card hmoved
      rw [Multiset.card_add, Multiset.card_add, Multiset.card_singleton, Multiset.card_singleton]
        at hsame
      omega
    have hcontents : (logs.moved block target front entry back
        (written id length cper)).contents config =
          Store.put (logs.contents config) id (normalize (cper.take length)) := by
      rw [contents_written] at hmoved
      exact hdistinct.put_eq hs.mem_contents hentryId.symm hmoved
    have himage : writtenImage config m ((persist cper statusIncoming).take length)
        (logs.gap config target) (some (block * config.blockSize + front.size)) =
          movedImage config m logs target (block * config.blockSize + front.size)
            (written id length cper).bytes := by
      rw [writtenImage_some (by omega)]
      rfl
    have hreserved : (driver.reserve target length).info k =
        entry.info (block * config.blockSize + front.size) := hentry
    have hold := hs.replaceable hsync hroom (by omega) id
    apply erstWriteRecord_replace_wp hsound (.of_reliable hreliable) hready hold hlength
    · rw [hreserved]
      intro image hunderway
      apply hcut _ (.inl _)
      apply hsync.stored.preserved_underway hlongData (by rw [hdata]; exact hroom.fits) ?_
        hunderway
      intro o ho
      obtain rfl : o = block * config.blockSize + front.size := (Option.some.inj ho).symm
      exact ⟨block, hblock, front, entry, back, hlog, rfl⟩
    · rw [hreserved]
      apply hcut _ (.inr _)
      rw [← hcontents]
      change Preserved config (writtenImage config m ((persist cper statusIncoming).take length)
        (logs.gap config target) (some (block * config.blockSize + front.size))) _
      rw [himage]
      exact (hsync.stored.move hs hroom hsize hlong hstatus).preserved
    · intro _ status herror
      exact refused status _ herror
    · intro hfaulty
      exact absurd hfaulty hreliable
    · intro _ driver' hreplaced
      rw [hreserved] at hreplaced ⊢
      change Replaced config (driver.reserve target length) k block
        ⟨id, length, logs.gap config target⟩ 0 driver' (writtenImage config m
          ((persist cper statusIncoming).take length) (logs.gap config target)
          (some (block * config.blockSize + front.size))) at hreplaced
      change Q _ driver' (writtenImage config m ((persist cper statusIncoming).take length)
        (logs.gap config target) (some (block * config.blockSize + front.size)))
      rw [himage] at hreplaced ⊢
      have hids : driver'.ids = putId driver.ids id := by
        have hlt : k < driver.ids.length := driver.length_ids ▸ hk
        have hplace : driver.ids[k] = id := (Driver.getElem_ids hk).trans hid
        have hold : id ∈ driver.ids := hplace ▸ List.getElem_mem hlt
        unfold putId
        rw [if_pos hold]
        have hset : driver'.ids = driver.ids.set k id := by
          unfold Driver.ids
          rw [hreplaced.cperInfo, List.map_set]
          rfl
        rw [hset, ← hplace, List.set_getElem_self]
      rw [← hinfo] at hreplaced
      refine served _ _ _ _ (hsync.move hsound hs hroom hsize hlong rfl hstatus hreplaced) hcontents
        hroomy hids (fun hlogs => hlogs.moved hs hroom.bound hentryLong hheaded) ?_ hreplaced.kept.initStatus
      rw [hreplaced.unsynced]
      exact BitVec.add_zero _

end

end Erst
