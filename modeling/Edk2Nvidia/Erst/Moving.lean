import Edk2Nvidia.Erst.Writing

/-! Moving a record of a block elsewhere: it reads the record, finds room for it, writes it there
and deletes the old copy. Whatever the flash answers, the old copy stands until the new one is
valid. -/
namespace Erst
open Flash

/-- The driver has the same records and the same means as before. -/
structure Driver.Alike (driver driver' : Driver) : Prop where
  inUse : ∀ i, (driver'.recordPools i).inUse = (driver.recordPools i).inUse
  length : ∀ i, (driver'.recordPools i).memory.length = (driver.recordPools i).memory.length
  initStatus : driver'.initStatus = driver.initStatus
  shadow : driver'.shadowFlash.isSome = driver.shadowFlash.isSome
  unsynced : driver'.unsyncedSpinorChanges = driver.unsyncedSpinorChanges
  records : driver'.cperInfo.map (fun record => (record.recordId, record.recordLength)) =
    driver.cperInfo.map fun record => (record.recordId, record.recordLength)

theorem Driver.Alike.refl (driver : Driver) : driver.Alike driver :=
  ⟨fun _ => rfl, fun _ => rfl, rfl, rfl, rfl, rfl⟩

theorem Driver.Alike.trans {driver driver' driver'' : Driver} (h : driver.Alike driver')
    (h' : driver'.Alike driver'') : driver.Alike driver'' :=
  ⟨fun i => (h'.inUse i).trans (h.inUse i), fun i => (h'.length i).trans (h.length i),
    h'.initStatus.trans h.initStatus, h'.shadow.trans h.shadow, h'.unsynced.trans h.unsynced,
    h'.records.trans h.records⟩

theorem Driver.Alike.recordCount {driver driver' : Driver} (h : driver.Alike driver') :
    driver'.recordCount = driver.recordCount := by
  simpa [Driver.recordCount] using congrArg List.length h.records

/-- Record `k` is `entry`, behind `front` in the log of `block`. -/
structure Source (config : Config) (driver : Driver) (logs : Logs) (k block : Nat)
    (front : Log) (entry : Entry) (back : Log) : Prop where
  index : k < driver.recordCount
  bound : block < config.numBlocks
  log : logs block = front ++ entry :: back
  live : entry.live
  info : driver.info k = entry.info (block * config.blockSize + front.size)

/-- `target` has room for a record behind its log. -/
structure Room (config : Config) (driver : Driver) (logs : Logs) (length target : Nat) :
    Prop where
  bound : target < config.numBlocks
  valid : 0 ≤ (driver.blockInfo target).validEntries
  fits : (logs target).size + length ≤ config.blockSize

/-- The block once room has been taken from it. -/
def BlockInfo.reserved (block : BlockInfo) (recordLength : Nat) : BlockInfo :=
  { block with
    usedSize := u32 (block.usedSize + recordLength)
    validEntries := block.validEntries + 1 }

/-- The driver once `ErstPrepareNewRecord` has taken room in `target`. -/
def Driver.reserve (driver : Driver) (target recordLength : Nat) : Driver :=
  driver.unsync.updateBlock target fun block => block.reserved recordLength

/-- Where a record goes in `target`. -/
def Logs.gap (logs : Logs) (config : Config) (target : Nat) : Nat :=
  target * config.blockSize + (logs target).size

section Move
variable {config : Config} {driver : Driver} {m : Memory} {logs : Logs} {k block target : Nat}
  {front back : Log} {entry : Entry}

theorem Source.inside (hstored : Stored config m logs)
    (hs : Source config driver logs k block front entry back) :
    sizeofCperHeader ≤ entry.size ∧ front.size + entry.size ≤ (logs block).size ∧
      (logs block).size ≤ config.blockSize := by
  refine ⟨hstored.long block hs.bound entry (by simp [hs.log]), ?_, hstored.fits block hs.bound⟩
  rw [hs.log, Log.size_append, Log.size_cons]
  omega

theorem Source.apart (hstored : Stored config m logs)
    (hs : Source config driver logs k block front entry back) {length : Nat}
    (hr : Room config driver logs length target) :
    block * config.blockSize + front.size + entry.size ≤ logs.gap config target ∨
      logs.gap config target + length ≤ block * config.blockSize + front.size := by
  obtain ⟨hlong, hfront, hfits⟩ := hs.inside hstored
  have hroom := hr.fits
  unfold Logs.gap
  by_cases heq : target = block
  · subst heq
    omega
  · rcases Nat.lt_or_gt_of_ne heq with hlt | hlt
    · have hmul := Nat.mul_le_mul_right config.blockSize (Nat.succ_le_of_lt hlt)
      rw [Nat.succ_mul] at hmul
      omega
    · have hmul := Nat.mul_le_mul_right config.blockSize (Nat.succ_le_of_lt hlt)
      rw [Nat.succ_mul] at hmul
      omega

theorem Source.bytes (hstored : Stored config m logs)
    (hs : Source config driver logs k block front entry back) :
    Holds m (config.norErstOffset + (block * config.blockSize + front.size)) entry.bytes := by
  have h := hstored.entry hs.bound hs.log
  rwa [Config.place, Nat.add_assoc] at h

theorem Source.status (hstored : Stored config m logs)
    (hs : Source config driver logs k block front entry back) :
    m (config.norErstOffset + (block * config.blockSize + front.size + statusOffset)) =
      statusValid := by
  have hlong := (hs.inside hstored).1
  have hbyte := (holds_iff _ _ _).mp (hs.bytes hstored) statusOffset (by
    have hoffset : statusOffset < sizeofCperHeader := by decide
    unfold Entry.size at hlong
    omega)
  rw [Nat.add_assoc] at hbyte
  rw [hbyte, ← hstored.valid block hs.bound entry (by simp [hs.log]) hs.live]
  unfold cperStatus
  rw [List.getD_eq_getElem]

theorem Room.ready (hsync : InSync config driver m logs) {length : Nat}
    (hr : Room config driver logs length target) (id : Nat) :
    Ready config (driver.reserve target length) m ⟨id, length, logs.gap config target⟩ where
  incoming := hsync.tables.incoming
  outgoing := hsync.tables.outgoing
  mirrors := hsync.mirrors
  fits := by
    show target * config.blockSize + (logs target).size + length ≤ config.partitionSize
    rw [Nat.add_assoc]
    exact Config.le_partitionSize hr.bound hr.fits
  blank := by
    have hfits := hr.fits
    apply (hsync.stored.blank target hr.bound).sub
    · show _ ≤ config.norErstOffset + (target * config.blockSize + (logs target).size)
      unfold Config.place
      omega
    · show config.norErstOffset + (target * config.blockSize + (logs target).size) + length ≤ _
      unfold Config.place
      omega

theorem Source.replaceable (hsync : InSync config driver m logs)
    (hs : Source config driver logs k block front entry back)
    {length : Nat} (hr : Room config driver logs length target) (hlength : 0 < length) (id : Nat) :
    Replaceable config (driver.reserve target length) m
      ⟨id, length, logs.gap config target⟩ ((driver.reserve target length).info k)
      block := by
  obtain ⟨hlong, hfront, hfits⟩ := hs.inside hsync.stored
  have hpos : 0 < sizeofCperHeader := by decide
  have hoffset : statusOffset < sizeofCperHeader := by decide
  have hapart := hs.apart hsync.stored hr
  have hinfo : (driver.reserve target length).info k =
      entry.info (block * config.blockSize + front.size) := hs.info
  rw [hinfo]
  constructor
  · have hlookup := hsync.tables.erstGetBlockOfRecord hs.bound (show front.size < _ by omega)
      (entry.info (block * config.blockSize + front.size)) rfl
    rw [← hlookup]
    unfold Driver.erstGetBlockOfRecord
    congr 1
    funext b
    have hbase : ((driver.reserve target length).blockInfo b).base =
        (driver.blockInfo b).base := by
      show (Function.update driver.blockInfo target _ b).base = _
      by_cases heq : b = target
      · rw [heq, Function.update_self]
        rfl
      · rw [Function.update_of_ne heq]
    rw [hbase]
  · show block * config.blockSize + front.size + sizeofCperHeader ≤ config.partitionSize
    have hpart := Config.le_partitionSize hs.bound (show front.size + sizeofCperHeader ≤ _ by omega)
    omega
  · exact hs.status hsync.stored
  · show block * config.blockSize + front.size + statusOffset < logs.gap config target ∨
      logs.gap config target + length ≤ block * config.blockSize + front.size + statusOffset
    omega
  · show block * config.blockSize + front.size ≠ logs.gap config target
    omega

/-- The flash once a record has come to the gap of `target` and the old one is deleted. -/
def movedImage (config : Config) (m : Memory) (logs : Logs) (target old : Nat)
    (bytes : List UInt8) : Memory :=
  overwrite (overwrite m (config.norErstOffset + logs.gap config target) bytes)
    (config.norErstOffset + (old + statusOffset)) [statusDeleted]

/-- The old entry behind the new one, where both stand in one block. -/
def Logs.moved (logs : Logs) (block target : Nat) (front : Log) (entry : Entry) (back : Log)
    (new : Entry) : Logs :=
  Function.update (logs.append target new) block
    (front ++ entry.deleted :: if block = target then back ++ [new] else back)

theorem Source.log_append (hs : Source config driver logs k block front entry back)
    (target : Nat) (new : Entry) :
    logs.append target new block =
      front ++ entry :: if block = target then back ++ [new] else back := by
  unfold Logs.append
  split
  · next heq =>
    subst heq
    rw [Function.update_self, hs.log]
    simp
  · next hne => rw [Function.update_of_ne hne, hs.log]

/-- The flash holds the logs with the record in its new place. -/
theorem Stored.move (hstored : Stored config m logs)
    (hs : Source config driver logs k block front entry back)
    {length : Nat} (hr : Room config driver logs length target) {new : Entry}
    (hsize : new.size = length) (hlength : sizeofCperHeader ≤ length)
    (hvalid : cperStatus new.bytes = statusValid) :
    Stored config
      (movedImage config m logs target (block * config.blockSize + front.size) new.bytes)
      (logs.moved block target front entry back new) := by
  have happended := hstored.append hr.bound (by rw [hsize]; exact hr.fits)
    (by rw [hsize]; exact hlength) (fun _ => hvalid)
  have hdeleted := happended.delete hs.bound (hs.log_append target new)
  rw [Config.place, Config.place, Nat.add_assoc config.norErstOffset,
    Nat.add_assoc config.norErstOffset, Nat.add_assoc config.norErstOffset] at hdeleted
  exact hdeleted

/-- The tables and the flash agree again once a record has moved. -/
theorem InSync.move (hsound : config.Sound) (hsync : InSync config driver m logs)
    (hs : Source config driver logs k block front entry back)
    {length : Nat} (hr : Room config driver logs length target) {new : Entry}
    (hsize : new.size = length) (hlength : sizeofCperHeader ≤ length)
    (hlive : new.live) (hvalid : cperStatus new.bytes = statusValid) {driver' : Driver}
    (h : Replaced config (driver.reserve target length) k block
      (new.info (logs.gap config target)) 0 driver'
      (movedImage config m logs target (block * config.blockSize + front.size) new.bytes)) :
    InSync config driver'
      (movedImage config m logs target (block * config.blockSize + front.size) new.bytes)
      (logs.moved block target front entry back new) := by
  obtain ⟨hlong, hfront, hfits⟩ := hs.inside hsync.stored
  have hroom := hr.fits
  have hlt : config.blockSize < 2 ^ 32 := by
    have hpart := Config.le_partitionSize hs.bound (Nat.le_refl config.blockSize)
    have hdensity := hsound.partition_lt
    omega
  have hlog := hs.log_append target new
  constructor
  · exact hsync.stored.move hs hr hsize hlength hvalid
  · -- the table with both copies, and then without the old one
    have hreserved : (driver.blockInfo target).reserved length =
        { driver.blockInfo target with
          usedSize := (driver.blockInfo target).usedSize + length
          validEntries := (driver.blockInfo target).validEntries + 1 } := by
      unfold BlockInfo.reserved
      rw [hsync.tables.used target hr.bound, u32_of_lt (by omega)]
    have happend : Tables config
        { driver.reserve target length with
          cperInfo := driver.cperInfo ++ [new.info (logs.gap config target)] }
        (logs.append target new) := by
      apply hsync.tables.append hr.bound hlive hr.valid
      · intro b hb
        exact Function.update_of_ne hb _ _
      · rw [hsize, ← hreserved]
        exact Function.update_self _ _ _
      · exact (Multiset.coe_add _ _).symm
      · exact hsync.tables.incoming
      · exact hsync.tables.outgoing
    have hcount := happend.valid block hs.bound
    rw [hlog, Log.liveCount_deleted _ _ _ hs.live] at hcount
    apply happend.delete hs.bound hlog hs.live
    · intro b hb
      rw [h.blockInfo]
      exact Function.update_of_ne hb _ _
    · rw [h.blockInfo, Function.update_self]
      rfl
    · rw [h.blockInfo, Function.update_self]
      rfl
    · rw [h.blockInfo, Function.update_self]
      generalize hinfo : ({ driver.reserve target length with
        cperInfo := driver.cperInfo ++ [new.info (logs.gap config target)] } : Driver).blockInfo
          block = info at hcount
      unfold BlockInfo.freed
      split
      · show (info.validEntries - 1).natAbs + 1 = _
        omega
      split
      · show (info.validEntries + 1).natAbs + 1 = _
        omega
      · omega
    · rw [h.cperInfo]
      have hindex : k < driver.cperInfo.length := hs.index
      have hset := coe_set_add driver.cperInfo k hindex (new.info (logs.gap config target))
      have hentry : driver.cperInfo[k] = entry.info (block * config.blockSize + front.size) := by
        rw [← hs.info]
        unfold Driver.info
        rw [List.getD_eq_getElem _ _ hindex]
      rw [hentry] at hset
      exact hset.trans (Multiset.coe_add _ _).symm
    · exact h.incoming
    · exact h.outgoing
  · exact h.mirrors

end Move

theorem InSync.congr {config : Config} {driver driver' : Driver} {m : Memory} {logs : Logs}
    (h : InSync config driver m logs) (hblock : driver'.blockInfo = driver.blockInfo)
    (hinfo : driver'.cperInfo = driver.cperInfo)
    (hincoming : driver'.incomingCperInfo = driver.incomingCperInfo)
    (houtgoing : driver'.outgoingCperInfo = driver.outgoingCperInfo)
    (hshadow : driver'.shadowFlash = driver.shadowFlash) : InSync config driver' m logs where
  stored := h.stored
  tables := h.tables.congr hblock hinfo (hincoming.trans h.tables.incoming)
    (houtgoing.trans h.tables.outgoing)
  mirrors := by
    unfold Mirrors
    rw [hshadow]
    exact h.mirrors

/-- Room has been found for record `k`. -/
structure Plan (config : Config) (driver : Driver) (m : Memory) (k : Nat) where
  logs : Logs
  block : Nat
  front : Log
  entry : Entry
  back : Log
  target : Nat
  sync : InSync config driver m logs
  source : Source config driver logs k block front entry back
  room : Room config driver logs entry.size target

/-- The entry with what stands in `cper`. -/
def Entry.copy (entry : Entry) (cper : List UInt8) : Entry :=
  { entry with
    bytes := ((persist cper statusIncoming).take entry.size).set statusOffset statusValid }

theorem Entry.size_copy (entry : Entry) {cper : List UInt8} (h : entry.size ≤ cper.length) :
    (entry.copy cper).size = entry.size := by
  show ((((persist cper statusIncoming).take entry.size).set statusOffset statusValid)).length = _
  rw [List.length_set, List.length_take, length_persist]
  omega

theorem Entry.status_copy (entry : Entry) {cper : List UInt8} (h : entry.size ≤ cper.length)
    (hlong : sizeofCperHeader ≤ entry.size) :
    cperStatus (entry.copy cper).bytes = statusValid := by
  have hoffset : statusOffset < sizeofCperHeader := by decide
  show (((persist cper statusIncoming).take entry.size).set statusOffset statusValid).getD
    statusOffset 0 = statusValid
  rw [List.getD_eq_getElem _ _ (by
    rw [List.length_set, List.length_take, length_persist]
    omega), List.getElem_set_self]

namespace Plan
variable {config : Config} {driver : Driver} {m : Memory} {k : Nat}

/-- Where the record stands and where it goes. -/
def old (plan : Plan config driver m k) : Nat := plan.block * config.blockSize + plan.front.size

def new (plan : Plan config driver m k) : Nat := plan.logs.gap config plan.target

def Underway (plan : Plan config driver m k) (cper : List UInt8) (image : Memory) : Prop :=
  Erst.Underway config m ((persist cper statusIncoming).take plan.entry.size) plan.new
    (some plan.old) image

def image (plan : Plan config driver m k) (cper : List UInt8) : Memory :=
  movedImage config m plan.logs plan.target plan.old (plan.entry.copy cper).bytes

def after (plan : Plan config driver m k) (cper : List UInt8) : Logs :=
  plan.logs.moved plan.block plan.target plan.front plan.entry plan.back (plan.entry.copy cper)

/-- Power may be lost anywhere on the way. -/
structure Cuts (plan : Plan config driver m k) (S : Setting EfiCode) (cper : List UInt8) :
    Prop where
  underway : ∀ image, plan.Underway cper image → S.cut image
  moved : S.cut (plan.image cper)

/-- What a move comes to that began on the driver `start`. -/
inductive Outcome (plan : Plan config driver m k) (S : Setting EfiCode) (cper : List UInt8)
    (start : Driver) : EfiCode → Driver → Memory → Prop where
  | refused (status : EfiCode) (driver' : Driver) (herror : EfiCode.isError status)
      (hinvalid : EfiCode.isError
        (erstValidateCperHeader (persist cper statusIncoming) plan.entry.size)) :
      Outcome plan S cper start status driver' m
  | broken (status : EfiCode) (driver' : Driver) (image : Memory) (hfaulty : S.Faulty)
      (herror : EfiCode.isError status) (hunderway : plan.Underway cper image) :
      Outcome plan S cper start status driver' image
  | moved (driver' : Driver)
      (hvalid : EfiCode.isError
        (erstValidateCperHeader (persist cper statusIncoming) plan.entry.size) = false)
      (hsync : InSync config driver' (plan.image cper) (plan.after cper))
      (hblock : driver'.blockInfo = Function.update
        (driver.reserve plan.target plan.entry.size).blockInfo plan.block
          (((driver.reserve plan.target plan.entry.size).blockInfo plan.block).freed
            plan.entry.size))
      (hinfo : driver'.cperInfo = driver.cperInfo.set k (plan.entry.info plan.new))
      (halike : start.Alike driver') :
      Outcome plan S cper start .success driver' (plan.image cper)

end Plan

theorem map_set_getD {α β : Type*} (f : α → β) (l : List α) (k : Nat) (x d : α)
    (h : f x = f (l.getD k d)) : (l.set k x).map f = l.map f := by
  apply List.ext_getElem?
  intro i
  rw [List.getElem?_map, List.getElem?_map, List.getElem?_set]
  split
  · next heq =>
    subst heq
    split
    · next hk => simp [h, hk]
    · next hk => simp [Nat.not_lt.mp hk]
  · rfl

section Relocate
variable {config : Config} {S : Setting EfiCode} {driver : Driver} {m : Memory}

theorem erstUndoAllocateRecord_wp {record : CperInfo} {Q : EfiCode → Driver → Memory → Prop}
    (hcut : S.cut m) (h : ∀ status driver', Q status driver' m) :
    wpIn S (erstUndoAllocateRecord config record) Q driver m := by
  unfold erstUndoAllocateRecord
  rw [wpIn_get_bind]
  split
  · exact (wpIn_set_bind.mpr (wpIn_pure.mpr ⟨hcut, h _ _⟩))
  · exact wpIn_pure.mpr ⟨hcut, h _ _⟩

/-- A move whose search for room ends well, or with an error that leaves `F`. -/
theorem relocateTo_wp (hsound : config.Sound) (hdevice : Device S) {find : Find}
    {cper : List UInt8} {k : Nat} {info : CperInfo} {F : Driver → Memory → Prop}
    {G : ∀ driver m, Plan config driver m k → Prop} (hlength : info.recordLength ≤ cper.length)
    (hfind : wpIn S (find info.recordLength false) (fun r driver' m' =>
      (EfiCode.isError r.1 ∧ S.cut m' ∧ F driver' m') ∨
        ∃ plan : Plan config driver' m' k, r = (.success, plan.new) ∧ driver'.info k = info ∧
          plan.Cuts S cper ∧ driver.Alike driver' ∧ G driver' m' plan) driver m) :
    wpIn S (relocateTo config find cper k info) (fun r driver'' m'' => S.cut m'' ∧
      ((EfiCode.isError r.1 ∧ r.2 = cper ∧ F driver'' m'') ∨
        ∃ driver' m', ∃ plan : Plan config driver' m' k, driver'.info k = info ∧
          G driver' m' plan ∧ plan.Outcome S cper driver r.1 driver'' m'' ∧
          (r.1 = .success → r.2.length = cper.length))) driver m := by
  unfold relocateTo
  apply wpIn_bind
  unfold erstPrepareNewRecord
  apply wpIn_bind
  apply wpIn_mono hfind
  rintro ⟨status, offset⟩ driver' m' (⟨herror, hcut, hF⟩ | ⟨plan, hr, hinfo, hcuts, hstart, hG⟩)
  · have herror' : EfiCode.isError status = true := herror
    simp only [herror', if_true, wpIn_pure]
    exact ⟨hcut, hcut, hcut, .inl ⟨trivial, trivial, hF⟩⟩
  · cases hr
    have hentry : info = plan.entry.info (plan.block * config.blockSize + plan.front.size) :=
      hinfo.symm.trans plan.source.info
    have hsize : info.recordLength = plan.entry.size := by rw [hentry]; rfl
    have hid : info.recordId = plan.entry.id := by rw [hentry]; rfl
    obtain ⟨hlong, hfront, hfits⟩ := plan.source.inside plan.sync.stored
    have hlt : plan.entry.size < 2 ^ 32 := by
      have hpart := Config.le_partitionSize plan.source.bound hfits
      have hdensity := hsound.partition_lt
      omega
    have hroom := plan.room.fits
    have hpos : 0 < sizeofCperHeader := by decide
    have hlookup := plan.sync.tables.erstGetBlockOfRecord plan.room.bound
      (show (plan.logs plan.target).size < config.blockSize by omega)
      ⟨plan.entry.id, plan.entry.size, plan.new⟩ rfl
    simp only [EfiCode.isError_success, Bool.false_eq_true, if_false, wpIn_get_bind, hid, hsize,
      u32_of_lt hlt, hlookup]
    rw [wpIn_set_bind, wpIn_pure]
    refine ⟨hcuts.underway _ .untouched, ?_⟩
    simp only [EfiCode.isError_success, Bool.false_eq_true, if_false]
    apply wpIn_bind
    have hold := plan.source.replaceable plan.sync plan.room (by omega) plan.entry.id
    have hready := plan.room.ready plan.sync plan.entry.id
    have hreserve : (driver'.reserve plan.target plan.entry.size).info k = plan.entry.info plan.old :=
      plan.source.info
    have himage : writtenImage config m' ((persist cper statusIncoming).take plan.entry.size)
        plan.new (some plan.old) = plan.image cper := by
      rw [writtenImage_some (by rw [List.length_take, length_persist]; omega)]
      rfl
    apply erstWriteRecord_replace_wp hsound hdevice hready hold (by rw [← hsize]; exact hlength)
    · rw [hreserve]
      exact hcuts.underway
    · rw [hreserve]
      exact himage ▸ hcuts.moved
    · intro hinvalid status herror
      have herror' : EfiCode.isError status = true := herror
      simp only [herror', if_true]
      apply wpIn_bind
      apply erstUndoAllocateRecord_wp (hcuts.underway _ .untouched)
      intro status' undone
      rw [wpIn_pure]
      refine ⟨hcuts.underway _ .untouched, hcuts.underway _ .untouched, .inr ?_⟩
      exact ⟨driver', m', plan, hinfo, hG, .refused _ _ herror hinvalid, by
        intro hsuccess
        rw [length_persist]⟩
    · intro hfaulty status cper' driver'' image herror hunderway
      have herror' : EfiCode.isError status = true := herror
      rw [hreserve] at hunderway
      simp only [herror', if_true]
      apply wpIn_bind
      apply erstUndoAllocateRecord_wp (hcuts.underway _ hunderway)
      intro status' undone
      rw [wpIn_pure]
      refine ⟨hcuts.underway _ hunderway, hcuts.underway _ hunderway, .inr ?_⟩
      exact ⟨driver', m', plan, hinfo, hG, .broken _ _ _ hfaulty herror hunderway, by
        intro hsuccess
        dsimp only at hsuccess
        rw [hsuccess] at herror
        cases herror⟩
    · intro hvalid driver'' hreplaced
      rw [hreserve] at hreplaced ⊢
      change wpIn S _ _ driver'' (writtenImage config m'
        ((persist cper statusIncoming).take plan.entry.size) plan.new (some plan.old))
      change Replaced config (driver'.reserve plan.target plan.entry.size) k plan.block
        (plan.entry.info plan.new) 0 driver'' (writtenImage config m'
          ((persist cper statusIncoming).take plan.entry.size) plan.new (some plan.old))
        at hreplaced
      rw [himage] at hreplaced ⊢
      simp only [EfiCode.isError_success, Bool.false_eq_true, if_false, wpIn_modify_bind,
        wpIn_pure]
      have hcopy := plan.entry.size_copy (show plan.entry.size ≤ cper.length by omega)
      have hnew : (plan.entry.copy cper).info plan.new = plan.entry.info plan.new := by
        unfold Entry.info
        rw [hcopy]
        rfl
      have hmoved := plan.sync.move hsound plan.source plan.room hcopy hlong plan.source.live
        (plan.entry.status_copy (by omega) hlong) (hnew ▸ hreplaced)
      have hrecord : (driver'.reserve plan.target plan.entry.size).info k = plan.entry.info plan.old :=
        plan.source.info
      refine ⟨hcuts.moved, hcuts.moved, .inr ⟨driver', m', plan, hinfo, hG, ?_, ?_⟩⟩
      · have hblocks := hreplaced.blockInfo
        rw [hrecord] at hblocks
        refine .moved driver''.sync hvalid (hmoved.congr rfl rfl rfl rfl rfl) hblocks
          hreplaced.cperInfo (hstart.trans ?_)
        constructor
        · intro i
          exact congrArg (fun pools : Nat → Pool => (pools i).inUse) hreplaced.kept.recordPools
        · intro i
          exact congrArg (fun pools : Nat → Pool => (pools i).memory.length)
            hreplaced.kept.recordPools
        · exact hreplaced.kept.initStatus
        · exact hreplaced.kept.shadow
        · show driver''.unsyncedSpinorChanges - 1 = _
          rw [hreplaced.unsynced, show (driver'.reserve plan.target plan.entry.size
            ).unsyncedSpinorChanges + 0 = driver'.unsyncedSpinorChanges + 1 from BitVec.add_zero _]
          exact BitVec.add_sub_cancel _ _
        · show driver''.cperInfo.map _ = _
          rw [hreplaced.cperInfo]
          apply map_set_getD _ _ _ _ default
          show ((plan.entry.info plan.new).recordId, (plan.entry.info plan.new).recordLength) =
            ((driver'.info k).recordId, (driver'.info k).recordLength)
          rw [plan.source.info]
          rfl
      · intro hsuccess
        simp

end Relocate

/-! The read of the record and the pools. -/

section Relocate
variable {config : Config} {S : Setting EfiCode} {driver : Driver} {m : Memory}

theorem erstReadSpiNor_wp (hsound : config.Sound) (hdevice : Device S) {offset length : Nat}
    {Q : EfiCode × List UInt8 → Driver → Memory → Prop}
    (hfits : offset + length ≤ config.partitionSize) (hmirrors : Mirrors config driver m)
    (hcut : S.cut m)
    (served : Q (.success, slice m (config.norErstOffset + offset) length) driver m)
    (failed : driver.shadowFlash = none → ∀ status effect,
      S.ends (.read (config.norErstOffset + offset) length) (.failed status effect) →
      EfiCode.isError status.val → Q (status.val, []) driver m) :
    wpIn S (erstReadSpiNor config offset length) Q driver m := by
  have hlt := hsound.partition_lt
  unfold erstReadSpiNor
  rw [wpIn_get_bind, u32_of_lt (by omega), if_neg (by omega)]
  cases hshadow : driver.shadowFlash with
  | some shadow =>
    refine wpIn_pure.mpr ⟨hcut, ?_⟩
    have hsame : slice shadow offset length =
        slice m (config.norErstOffset + offset) length := by
      apply List.ext_getElem (by simp)
      intro i hi hi'
      rw [length_slice] at hi
      rw [getElem_slice, getElem_slice, hmirrors shadow hshadow _ (by omega), Nat.add_assoc]
    rw [hsame]
    exact served
  | none =>
    simp only
    rw [u32_of_lt (by omega), Nat.add_comm offset]
    apply wpIn_read hcut served
    intro status effect hending
    exact failed hshadow status effect hending (hdevice.error _ _ _ hending)

def Driver.Serves (driver : Driver) (length pool : Nat) : Prop :=
  pool < maxRecordPools ∧ (driver.recordPools pool).inUse = false ∧
    length ≤ (driver.recordPools pool).memory.length

/-- The driver while a pool is in use. -/
def Driver.take (driver : Driver) (pool : Nat) : Driver :=
  { driver with recordPools :=
      Function.update driver.recordPools pool ⟨(driver.recordPools pool).memory, true⟩ }

/-- The driver once a pool is given back. -/
def Driver.release (driver : Driver) (pool : Nat) (memory : List UInt8) : Driver :=
  { driver with recordPools := Function.update driver.recordPools pool ⟨memory, false⟩ }

theorem InSync.take {logs : Logs} (h : InSync config driver m logs) (pool : Nat) :
    InSync config (driver.take pool) m logs := h.congr rfl rfl rfl rfl rfl

theorem InSync.release {logs : Logs} (h : InSync config driver m logs) (pool : Nat)
    (memory : List UInt8) : InSync config (driver.release pool memory) m logs :=
  h.congr rfl rfl rfl rfl rfl

theorem erstAllocatePoolRecord_wp {length : Nat}
    {Q : Option (Nat × List UInt8) → Driver → Memory → Prop} (hcut : S.cut m)
    (served : ∀ pool, driver.Serves length pool →
      Q (some (pool, (driver.recordPools pool).memory)) (driver.take pool) m)
    (refused : (∀ pool, ¬ driver.Serves length pool) → Q none driver m) :
    wpIn S (erstAllocatePoolRecord length) Q driver m := by
  unfold erstAllocatePoolRecord
  rw [wpIn_get_bind]
  split
  · next hnone =>
    refine wpIn_pure.mpr ⟨hcut, refused ?_⟩
    rintro pool ⟨hpool, hfree, hlength⟩
    have h := List.find?_eq_none.mp hnone pool (List.mem_range.mpr hpool)
    simp [hfree, hlength] at h
  · next pool hsome =>
    have hfound := List.find?_some hsome
    have hmem := List.mem_range.mp (List.mem_of_find?_eq_some hsome)
    simp only [Bool.and_eq_true, Bool.not_eq_true', decide_eq_true_eq] at hfound
    exact wpIn_set_bind.mpr (wpIn_pure.mpr ⟨hcut, served pool ⟨hmem, hfound.1, hfound.2⟩⟩)

/-- A pool given back leaves the driver as it was before it was taken. -/
theorem Driver.Alike.release {driver driver' : Driver} {length pool : Nat} {memory : List UInt8}
    (hserves : driver.Serves length pool) (h : (driver.take pool).Alike driver')
    (hmemory : memory.length = (driver.recordPools pool).memory.length) :
    driver.Alike (driver'.release pool memory) := by
  constructor
  · intro i
    by_cases heq : i = pool
    · subst heq
      show (Function.update driver'.recordPools i (⟨memory, false⟩ : Pool) i).inUse = _
      rw [Function.update_self, hserves.2.1]
    · show (Function.update driver'.recordPools pool (⟨memory, false⟩ : Pool) i).inUse = _
      rw [Function.update_of_ne heq, h.inUse i]
      show (Function.update driver.recordPools pool _ i).inUse = _
      rw [Function.update_of_ne heq]
  · intro i
    by_cases heq : i = pool
    · subst heq
      show (Function.update driver'.recordPools i (⟨memory, false⟩ : Pool) i).memory.length = _
      rw [Function.update_self, hmemory]
    · show (Function.update driver'.recordPools pool (⟨memory, false⟩ : Pool) i).memory.length = _
      rw [Function.update_of_ne heq, h.length i]
      show (Function.update driver.recordPools pool _ i).memory.length = _
      rw [Function.update_of_ne heq]
  · exact h.initStatus
  · exact h.shadow
  · exact h.unsynced
  · exact h.records

/-- What stands in the buffer of a record: the record, or, behind a read that has failed, what
stood there before. -/
def Buffered (driver : Driver) (S : Setting EfiCode) (entry : Entry) (cper : List UInt8) : Prop :=
  entry.size ≤ cper.length ∧
    ((cper.take entry.size = entry.bytes ∧
        EfiCode.isError (erstValidateRecord cper entry.id entry.size) = false) ∨
      S.Faulty ∧ driver.shadowFlash = none)

/-- A record is moved, or an error leaves it where it is. -/
theorem erstRelocateRecord_wp (hsound : config.Sound) (hdevice : Device S) {find : Find}
    {logs : Logs} {k block : Nat} {front : Log} {entry : Entry} {back : Log}
    {F : Driver → Memory → Prop}
    {G : ∀ driver m, Plan config driver m k → Prop} (hsync : InSync config driver m logs)
    (hs : Source config driver logs k block front entry back) (hcut : S.cut m)
    (hfind : ∀ pool cper, driver.Serves entry.size pool →
      cper.length = (driver.recordPools pool).memory.length → Buffered driver S entry cper →
      wpIn S (find entry.size false) (fun r driver' m' =>
        (EfiCode.isError r.1 ∧ S.cut m' ∧ F (driver'.release pool cper) m') ∨
          ∃ plan : Plan config driver' m' k, r = (.success, plan.new) ∧
            driver'.info k = driver.info k ∧ plan.Cuts S cper ∧ (driver.take pool).Alike driver' ∧
            G driver' m' plan) (driver.take pool) m) :
    wpIn S (erstRelocateRecord config find k) (fun status driver'' m'' => S.cut m'' ∧
      ((EfiCode.isError status ∧ m'' = m ∧ driver.Alike driver'' ∧ InSync config driver'' m logs ∧
          ((∀ pool, ¬ driver.Serves entry.size pool) ∨
            ∃ cper, cper.take entry.size = entry.bytes ∧
              EfiCode.isError (erstValidateRecord cper entry.id entry.size))) ∨
        (EfiCode.isError status ∧ F driver'' m'') ∨
        ∃ driver' m' cper, ∃ plan : Plan config driver' m' k, driver'.info k = driver.info k ∧
          G driver' m' plan ∧ Buffered driver S entry cper ∧
          plan.Outcome S cper driver status driver'' m'')) driver m := by
  obtain ⟨hlong, hfront, hfits⟩ := hs.inside hsync.stored
  have hinfo := hs.info
  have hlength : (driver.info k).recordLength = entry.size := by rw [hinfo]; rfl
  have hid : (driver.info k).recordId = entry.id := by rw [hinfo]; rfl
  have hoffset : (driver.info k).recordOffset = block * config.blockSize + front.size := by
    rw [hinfo]; rfl
  have hpartition := Config.le_partitionSize hs.bound
    (show front.size + entry.size ≤ config.blockSize by omega)
  unfold erstRelocateRecord
  rw [wpIn_get_bind]
  apply wpIn_bind
  rw [hlength, hid, hoffset]
  apply erstAllocatePoolRecord_wp hcut
  · intro pool hserves
    have hmemory := hserves.2.2
    have hmirrors : Mirrors config (driver.take pool) m := hsync.mirrors
    -- what follows the read, whatever it has left in the buffer
    have hmove : ∀ cper : List UInt8,
        cper.length = (driver.recordPools pool).memory.length → Buffered driver S entry cper →
        wpIn S (relocateTo config find cper k (driver.info k) >>= fun r => do
            erstFreePoolRecord pool r.2
            pure r.1) (fun status driver'' m'' => S.cut m'' ∧
          ((EfiCode.isError status ∧ m'' = m ∧ driver.Alike driver'' ∧
              InSync config driver'' m logs ∧ ((∀ pool, ¬ driver.Serves entry.size pool) ∨
                ∃ cper, cper.take entry.size = entry.bytes ∧
                  EfiCode.isError (erstValidateRecord cper entry.id entry.size))) ∨
            (EfiCode.isError status ∧ F driver'' m'') ∨
            ∃ driver' m' cper, ∃ plan : Plan config driver' m' k,
              driver'.info k = driver.info k ∧ G driver' m' plan ∧ Buffered driver S entry cper ∧
              plan.Outcome S cper driver status driver'' m'')) (driver.take pool) m := by
      intro cper hcper hbuffered
      apply wpIn_bind
      have hrecord : (driver.info k).recordLength ≤ cper.length := by omega
      have hfound := hfind pool cper hserves hcper hbuffered
      rw [← hlength] at hfound
      apply wpIn_mono (relocateTo_wp
        (F := fun driver' m' => F (driver'.release pool cper) m') hsound hdevice hrecord hfound)
      rintro ⟨status, cper'⟩ driver'' m'' ⟨hcut', hresult⟩
      unfold erstFreePoolRecord
      rw [wpIn_modify_bind, wpIn_pure]
      refine ⟨hcut', hcut', .inr ?_⟩
      rcases hresult with ⟨herror, hcper', hF⟩ | ⟨driver', m', plan, hplan, hG, houtcome, hsame⟩
      · have hsame : cper' = cper := hcper'
        subst hsame
        exact .inl ⟨herror, hF⟩
      · refine .inr ⟨driver', m', cper, plan, hplan, hG, hbuffered, ?_⟩
        cases houtcome with
        | refused _ _ herror hinvalid => exact .refused _ _ herror hinvalid
        | broken _ _ _ hfaulty herror hunderway => exact .broken _ _ _ hfaulty herror hunderway
        | moved _ hvalid hmoved hblock hinfo halike =>
          exact .moved _ hvalid (hmoved.congr rfl rfl rfl rfl rfl) hblock hinfo
            (.release hserves halike ((hsame rfl).trans hcper))
    apply wpIn_bind
    apply erstReadSpiNor_wp hsound hdevice (by omega) hmirrors hcut
    · have hbytes : slice m (config.norErstOffset + (block * config.blockSize + front.size))
          entry.size = entry.bytes := hs.bytes hsync.stored
      simp only [EfiCode.isError_success, Bool.false_eq_true, if_false, hbytes]
      have htake : (received entry.bytes (driver.recordPools pool).memory).take entry.size =
          entry.bytes := by
        unfold received Entry.size
        rw [List.take_left]
      have hreceived : (received entry.bytes (driver.recordPools pool).memory).length =
          (driver.recordPools pool).memory.length := by
        unfold received
        rw [List.length_append, List.length_drop]
        unfold Entry.size at hmemory
        omega
      split
      · next herror =>
        unfold erstFreePoolRecord
        rw [wpIn_modify_bind, wpIn_pure]
        have halike : driver.Alike ((driver.take pool).release pool _) :=
          .release hserves (.refl _) hreceived
        exact ⟨hcut, hcut, .inl ⟨herror, rfl, halike, (hsync.take pool).release pool _,
          .inr ⟨_, htake, herror⟩⟩⟩
      · next hvalid =>
        exact hmove _ hreceived ⟨by omega, .inl ⟨htake, Bool.eq_false_iff.mpr hvalid⟩⟩
    · intro hshadow status effect hending herror
      simp only [show EfiCode.isError status.val = true from herror, if_true,
        EfiCode.isError_success, Bool.false_eq_true, if_false]
      exact hmove _ (by simp [received]) ⟨by simpa [received] using hmemory,
        .inr ⟨⟨_, _, _, hending⟩, hshadow⟩⟩
  · intro hnone
    exact wpIn_pure.mpr ⟨hcut, hcut, .inl ⟨by decide, rfl, .refl driver, hsync, .inl hnone⟩⟩

end Relocate

end Erst
