import Edk2Nvidia.Flash.Setting
import Edk2Nvidia.Erst.Tracking

/-! What `ErstWriteRecord` does to the flash and to the tables, whatever the flash answers: the
images it goes through and, when every write has succeeded, the record in its new place and the
one it replaces deleted. -/
namespace Erst
open Flash

/-- The flash reports a failure as an error, and a write that fails leaves its last byte. -/
structure Device (S : Setting EfiCode) : Prop where
  error : ∀ command status effect, S.ends command (.failed status effect) →
    EfiCode.isError status.val
  torn : ∀ offset data status effect, S.ends (.write offset data) (.failed status effect) →
    effect < data.length

theorem Device.faultFree (stops : Prop) : Device (Setting.faultFree stops) where
  error := by
    intro command status effect h
    cases h
  torn := by
    intro offset data status effect h
    cases h

def Driver.cache (driver : Driver) (offset : Nat) (data : List UInt8) : Driver :=
  { driver with shadowFlash := driver.shadowFlash.map fun shadow => overwrite shadow offset data }

theorem Mirrors.overwrite {config : Config} {driver : Driver} {m : Memory}
    (h : Mirrors config driver m) (offset : Nat) (data : List UInt8) :
    Mirrors config (driver.cache offset data)
      (overwrite m (config.norErstOffset + offset) data) := by
  intro shadow hshadow a ha
  obtain ⟨before, hbefore, rfl⟩ := Option.map_eq_some_iff.mp hshadow
  have hsame := h before hbefore a ha
  simp only [Flash.overwrite, hsame, Nat.add_lt_add_iff_left, Nat.add_sub_add_left]

section Write
variable {config : Config} {S : Setting EfiCode} {driver : Driver} {m : Memory}

theorem erstWriteSpiNor_wp (hsound : config.Sound) (hdevice : Device S) {data : List UInt8}
    {offset : Nat} {Q : EfiCode → Driver → Memory → Prop}
    (hfits : offset + data.length ≤ config.partitionSize)
    (hpermits : Permits m (config.norErstOffset + offset) data)
    (cut : ∀ j, S.cut (program m (config.norErstOffset + offset) (data.take j)))
    (served : Q .success (driver.cache offset data)
      (overwrite m (config.norErstOffset + offset) data))
    (failed : S.Faulty → ∀ status driver' j, EfiCode.isError status → j < data.length →
      Q status driver' (program m (config.norErstOffset + offset) (data.take j))) :
    wpIn S (erstWriteSpiNor config data offset) Q driver m := by
  have hlt := hsound.partition_lt
  unfold erstWriteSpiNor
  rw [u32_of_lt (by omega), u32_of_lt (by omega), if_neg (by omega), wpIn_modify_bind,
    Nat.add_comm offset]
  apply wpIn_write cut
  · rw [← hpermits.overwrite_eq]
    exact served
  · intro status effect hending
    exact failed ⟨_, status, effect, hending⟩ _ _ _ (hdevice.error _ _ _ hending)
      (hdevice.torn _ _ _ _ hending)

/-- The pointers after a status has been written. -/
def Driver.marked (driver : Driver) (cperStatus : UInt8) (cperInfo : Ref) : Driver :=
  if cperStatus = statusIncoming then { driver with incomingCperInfo := some cperInfo }
  else if cperStatus = statusOutgoing then { driver with outgoingCperInfo := some cperInfo }
  else
    { driver with
      incomingCperInfo := driver.incomingCperInfo.filter fun other =>
        (driver.deref other).recordOffset ≠ (driver.deref cperInfo).recordOffset
      outgoingCperInfo := driver.outgoingCperInfo.filter fun other =>
        (driver.deref other).recordOffset ≠ (driver.deref cperInfo).recordOffset }

theorem erstWriteCperStatus_wp (hsound : config.Sound) (hdevice : Device S) {cperStatus : UInt8}
    {cperInfo : Ref} (offset : Nat) {Q : EfiCode → Driver → Memory → Prop}
    (hoffset : (driver.deref cperInfo).recordOffset = offset)
    (hincoming : cperStatus = statusIncoming → driver.incomingCperInfo = none)
    (houtgoing : cperStatus = statusOutgoing → driver.outgoingCperInfo = none)
    (hfits : offset + sizeofCperHeader ≤ config.partitionSize)
    (hmirrors : Mirrors config driver m)
    (hbits : m (config.norErstOffset + (offset + statusOffset)) &&& cperStatus = cperStatus)
    (now : S.cut m)
    (after : S.cut (overwrite m (config.norErstOffset + (offset + statusOffset)) [cperStatus]))
    (served : Q .success
      ((driver.cache (offset + statusOffset) [cperStatus]).marked cperStatus cperInfo)
      (overwrite m (config.norErstOffset + (offset + statusOffset)) [cperStatus]))
    (failed : S.Faulty → ∀ status driver', EfiCode.isError status → Q status driver' m) :
    wpIn S (erstWriteCperStatus config cperStatus cperInfo) Q driver m := by
  have hlt := hsound.partition_lt
  have hstatus : statusOffset < sizeofCperHeader := by decide
  have hpermits : Permits m (config.norErstOffset + (offset + statusOffset)) [cperStatus] := by
    intro i hi
    rw [List.length_singleton] at hi
    obtain rfl : i = 0 := by omega
    exact hbits
  unfold erstWriteCperStatus
  rw [wpIn_get_bind]
  simp only [hoffset]
  rw [if_neg (by simp +contextual [hincoming]), if_neg (by simp +contextual [houtgoing])]
  have hreach : ¬ ∃ shadow ∈ driver.shadowFlash,
      shadow (offset + statusOffset) &&& cperStatus ≠ cperStatus := by
    rintro ⟨shadow, hshadow, hne⟩
    rw [hmirrors shadow hshadow _ (by omega)] at hne
    exact hne hbits
  rw [u32_of_lt (by omega), if_neg hreach]
  apply wpIn_bind
  apply erstWriteSpiNor_wp hsound hdevice (by simp only [List.length_singleton]; omega) hpermits
  · intro j
    cases j with
    | zero => simpa using now
    | succ j => simpa [hpermits.overwrite_eq] using after
  · rw [EfiCode.isError_success]
    simp only [Bool.false_eq_true, if_false, wpIn_modify_bind, wpIn_pure]
    refine ⟨after, ?_⟩
    rw [← hoffset] at served ⊢
    exact served
  · intro hfaulty status driver' j herror hj
    rw [List.length_singleton] at hj
    obtain rfl : j = 0 := by omega
    rw [if_pos herror, List.take_zero, program_nil, wpIn_pure]
    exact ⟨now, failed hfaulty status driver' herror⟩

end Write

/-! The images of the flash while `cper` is written at `new`, with the record at `old` replaced. -/

section Images
variable (config : Config) (m : Memory) (cper : List UInt8) (new : Nat) (old : Option Nat)

def startedImage : Memory :=
  overwrite m (config.norErstOffset + (new + statusOffset)) [statusIncoming]

def incomingImage : Memory :=
  overwrite (startedImage config m new) (config.norErstOffset + new) cper

def outgoingImage : Memory :=
  match old with
  | some old => overwrite (incomingImage config m cper new)
      (config.norErstOffset + (old + statusOffset)) [statusOutgoing]
  | none => incomingImage config m cper new

def validImage : Memory :=
  overwrite (outgoingImage config m cper new old)
    (config.norErstOffset + (new + statusOffset)) [statusValid]

def writtenImage : Memory :=
  match old with
  | some old => overwrite (validImage config m cper new (some old))
      (config.norErstOffset + (old + statusOffset)) [statusDeleted]
  | none => validImage config m cper new none

/-- A write that has not come to its end. -/
inductive Underway : Memory → Prop where
  | untouched : Underway m
  | started : Underway (startedImage config m new)
  | torn (j : Nat) : Underway (program (startedImage config m new) (config.norErstOffset + new)
      (cper.take j))
  | incoming : Underway (incomingImage config m cper new)
  | outgoing : Underway (outgoingImage config m cper new old)
  | valid : Underway (validImage config m cper new old)

end Images

section Images
variable {config : Config} {m : Memory} {cper : List UInt8} {new : Nat} {old : Option Nat}
  {image : Memory}

theorem overwrite_byte (m : Memory) (a : Nat) (b : UInt8) (x : Nat) :
    overwrite m a [b] x = if x = a then b else m x := by
  split
  next heq =>
    subst heq
    simpa using overwrite_inside m x [b] 0 (by simp) 0
  next hne => exact overwrite_outside _ _ _ _ (by simp only [List.length_singleton]; omega)

/-- Nothing changes but the place of the new record and the status of the old one. -/
theorem Underway.same (h : Underway config m cper new old image)
    (hlong : sizeofCperHeader ≤ cper.length) {a : Nat}
    (hnew : a < config.norErstOffset + new ∨ config.norErstOffset + new + cper.length ≤ a)
    (hold : ∀ o ∈ old, a ≠ config.norErstOffset + (o + statusOffset)) : image a = m a := by
  have hstatus : statusOffset < sizeofCperHeader := by decide
  have hstarted : startedImage config m new a = m a := by
    unfold startedImage
    rw [overwrite_byte, if_neg (by omega)]
  have hincoming : incomingImage config m cper new a = m a := by
    unfold incomingImage
    rw [overwrite_outside _ _ _ _ (by omega), hstarted]
  have houtgoing : outgoingImage config m cper new old a = m a := by
    unfold outgoingImage
    cases old with
    | none => exact hincoming
    | some o =>
      show overwrite _ _ _ a = _
      rw [overwrite_byte, if_neg (hold o rfl), hincoming]
  cases h with
  | untouched => rfl
  | started => exact hstarted
  | torn j =>
    rw [program_outside _ _ _ _ (by rw [List.length_take]; omega), hstarted]
  | incoming => exact hincoming
  | outgoing => exact houtgoing
  | valid =>
    unfold validImage
    rw [overwrite_byte, if_neg (by omega), houtgoing]

/-- The status of the old record is what it was, or `OUTGOING`. -/
theorem Underway.status {o : Nat} (h : Underway config m cper new (some o) image)
    (hlong : sizeofCperHeader ≤ cper.length)
    (hnew : o + statusOffset < new ∨ new + cper.length ≤ o + statusOffset) :
    image (config.norErstOffset + (o + statusOffset)) =
        m (config.norErstOffset + (o + statusOffset)) ∨
      image (config.norErstOffset + (o + statusOffset)) = statusOutgoing := by
  have hstatus : statusOffset < sizeofCperHeader := by decide
  have hstarted : startedImage config m new (config.norErstOffset + (o + statusOffset)) =
      m (config.norErstOffset + (o + statusOffset)) := by
    unfold startedImage
    rw [overwrite_byte, if_neg (by omega)]
  have houtgoing : outgoingImage config m cper new (some o)
      (config.norErstOffset + (o + statusOffset)) = statusOutgoing := by
    show overwrite _ _ _ _ = _
    rw [overwrite_byte, if_pos rfl]
  cases h with
  | untouched => exact .inl rfl
  | started => exact .inl hstarted
  | torn j =>
    rw [program_outside _ _ _ _ (by rw [List.length_take]; omega)]
    exact .inl hstarted
  | incoming =>
    unfold incomingImage
    rw [overwrite_outside _ _ _ _ (by omega)]
    exact .inl hstarted
  | outgoing => exact .inr houtgoing
  | valid =>
    unfold validImage
    rw [overwrite_byte, if_neg (by omega)]
    exact .inr houtgoing

/-- A record with the status `INCOMING` can be programmed behind that status. -/
theorem permits_startedImage (hblank : Blank m (config.norErstOffset + new) cper.length)
    (hstatus : cper.getD statusOffset 0 = statusIncoming) :
    Permits (startedImage config m new) (config.norErstOffset + new) cper := by
  intro i hi
  unfold startedImage
  rw [overwrite_byte]
  split
  · next heq =>
    obtain rfl : i = statusOffset := by omega
    rw [List.getD_eq_getElem _ _ hi] at hstatus
    rw [hstatus]
    rfl
  · rw [hblank _ (by omega) (by omega), erasedByte_and]

theorem outgoingImage_new (hlong : sizeofCperHeader ≤ cper.length)
    (hstatus : cper.getD statusOffset 0 = statusIncoming)
    (hold : ∀ o ∈ old, o ≠ new) :
    outgoingImage config m cper new old (config.norErstOffset + (new + statusOffset)) =
      statusIncoming := by
  have hoffset : statusOffset < sizeofCperHeader := by decide
  have hincoming : incomingImage config m cper new (config.norErstOffset + (new + statusOffset)) =
      statusIncoming := by
    unfold incomingImage
    rw [← Nat.add_assoc, overwrite_inside _ _ _ _ (by omega) 0]
    exact hstatus
  cases old with
  | none => exact hincoming
  | some o =>
    have hne := hold o rfl
    show overwrite _ _ _ _ = _
    rw [overwrite_byte, if_neg (by omega), hincoming]

theorem validImage_none (hlong : sizeofCperHeader ≤ cper.length) :
    validImage config m cper new none =
      overwrite m (config.norErstOffset + new) (cper.set statusOffset statusValid) := by
  have hstatus : statusOffset < sizeofCperHeader := by decide
  funext a
  show overwrite (incomingImage config m cper new) _ _ a = _
  rw [overwrite_byte]
  by_cases hin : config.norErstOffset + new ≤ a ∧ a < config.norErstOffset + new + cper.length
  · obtain ⟨i, rfl⟩ := Nat.exists_eq_add_of_le hin.1
    rw [overwrite_inside _ _ _ _ (by rw [List.length_set]; omega) 0]
    by_cases hi : i = statusOffset
    · rw [if_pos (by omega), hi, List.getD_eq_getElem _ _ (by rw [List.length_set]; omega)]
      simp
    · rw [if_neg (by omega)]
      unfold incomingImage
      rw [overwrite_inside _ _ _ _ (by omega) 0, List.getD_eq_getElem _ _ (by omega),
        List.getD_eq_getElem _ _ (by rw [List.length_set]; omega),
        List.getElem_set_ne (by omega)]
  · rw [if_neg (by omega), overwrite_outside _ _ _ _ (by rw [List.length_set]; omega)]
    unfold incomingImage startedImage
    rw [overwrite_outside _ _ _ _ (by omega), overwrite_byte, if_neg (by omega)]

theorem writtenImage_some {o : Nat} (hlong : sizeofCperHeader ≤ cper.length) :
    writtenImage config m cper new (some o) =
      overwrite (overwrite m (config.norErstOffset + new) (cper.set statusOffset statusValid))
        (config.norErstOffset + (o + statusOffset)) [statusDeleted] := by
  have hstatus : statusOffset < sizeofCperHeader := by decide
  rw [← validImage_none hlong]
  funext a
  show overwrite _ _ _ a = _
  rw [overwrite_byte, overwrite_byte]
  split
  · rfl
  · next hne =>
    show overwrite (overwrite (incomingImage config m cper new) _ _) _ _ a =
      overwrite (incomingImage config m cper new) _ _ a
    rw [overwrite_byte, overwrite_byte, overwrite_byte, if_neg hne]

end Images

/-! `ErstWriteRecord`. -/

/-- What a block is left with when a record of it is freed. -/
def BlockInfo.freed (block : BlockInfo) (recordLength : Nat) : BlockInfo :=
  { block with
    wastedSize := u32 (block.wastedSize + recordLength)
    validEntries :=
      if block.validEntries > 0 then block.validEntries - 1
      else if block.validEntries < 0 then block.validEntries + 1
      else block.validEntries }

structure Driver.Kept (driver driver' : Driver) : Prop where
  recordPools : driver'.recordPools = driver.recordPools
  initStatus : driver'.initStatus = driver.initStatus
  shadow : driver'.shadowFlash.isSome = driver.shadowFlash.isSome

/-- The room a record is written to, on a driver in sync. -/
structure Ready (config : Config) (driver : Driver) (m : Memory) (new : CperInfo) : Prop where
  incoming : driver.incomingCperInfo = none
  outgoing : driver.outgoingCperInfo = none
  mirrors : Mirrors config driver m
  fits : new.recordOffset + new.recordLength ≤ config.partitionSize
  blank : Blank m (config.norErstOffset + new.recordOffset) new.recordLength

/-- A record that can be replaced by one at `new`. -/
structure Replaceable (config : Config) (driver : Driver) (m : Memory) (new old : CperInfo)
    (block : Nat) : Prop where
  block : driver.erstGetBlockOfRecord config old = some block
  fits : old.recordOffset + sizeofCperHeader ≤ config.partitionSize
  valid : m (config.norErstOffset + (old.recordOffset + statusOffset)) = statusValid
  apart : old.recordOffset + statusOffset < new.recordOffset ∨
    new.recordOffset + new.recordLength ≤ old.recordOffset + statusOffset
  elsewhere : old.recordOffset ≠ new.recordOffset

/-- The driver in the middle of a write, with the pointers and the changes counted so far. -/
structure Partway (config : Config) (driver : Driver) (incoming outgoing : Option Ref)
    (changes : BitVec 16) (driver' : Driver) (m : Memory) : Prop where
  kept : driver.Kept driver'
  blockInfo : driver'.blockInfo = driver.blockInfo
  cperInfo : driver'.cperInfo = driver.cperInfo
  incoming : driver'.incomingCperInfo = incoming
  outgoing : driver'.outgoingCperInfo = outgoing
  unsynced : driver'.unsyncedSpinorChanges = driver.unsyncedSpinorChanges + changes
  mirrors : Mirrors config driver' m

/-- The driver once record `k` of `block` has moved to `new`. -/
structure Replaced (config : Config) (driver : Driver) (k block : Nat) (new : CperInfo)
    (changes : BitVec 16) (driver' : Driver) (m' : Memory) : Prop where
  kept : driver.Kept driver'
  blockInfo : driver'.blockInfo = Function.update driver.blockInfo block
    ((driver.blockInfo block).freed (driver.info k).recordLength)
  cperInfo : driver'.cperInfo = driver.cperInfo.set k new
  incoming : driver'.incomingCperInfo = none
  outgoing : driver'.outgoingCperInfo = none
  unsynced : driver'.unsyncedSpinorChanges = driver.unsyncedSpinorChanges + changes
  mirrors : Mirrors config driver' m'

@[simp] theorem Driver.deref_stack (driver : Driver) (info : CperInfo) :
    driver.deref (.stack info) = info := rfl

section Partway
variable {config : Config} {driver driver' : Driver} {m : Memory} {incoming outgoing : Option Ref}
  {changes : BitVec 16}

theorem Partway.unsync (h : Partway config driver incoming outgoing changes driver' m) :
    Partway config driver incoming outgoing (changes + 1) driver'.unsync m where
  kept := ⟨h.kept.recordPools, h.kept.initStatus, h.kept.shadow⟩
  blockInfo := h.blockInfo
  cperInfo := h.cperInfo
  incoming := h.incoming
  outgoing := h.outgoing
  unsynced := by
    show driver'.unsyncedSpinorChanges + 1 = _
    rw [h.unsynced, BitVec.add_assoc]
  mirrors := h.mirrors

theorem Partway.deref (h : Partway config driver incoming outgoing changes driver' m) (ref : Ref) :
    driver'.deref ref = driver.deref ref := by
  cases ref with
  | entry index =>
    show driver'.cperInfo.getD index default = driver.cperInfo.getD index default
    rw [h.cperInfo]
  | stack info => rfl

theorem Partway.cache (h : Partway config driver incoming outgoing changes driver' m)
    (offset : Nat) (data : List UInt8) :
    Partway config driver incoming outgoing changes (driver'.cache offset data)
      (overwrite m (config.norErstOffset + offset) data) where
  kept := ⟨h.kept.recordPools, h.kept.initStatus, by
    rw [← h.kept.shadow]
    exact Option.isSome_map⟩
  blockInfo := h.blockInfo
  cperInfo := h.cperInfo
  incoming := h.incoming
  outgoing := h.outgoing
  unsynced := h.unsynced
  mirrors := h.mirrors.overwrite offset data

theorem Partway.marked_incoming (h : Partway config driver incoming outgoing changes driver' m)
    (ref : Ref) :
    Partway config driver (some ref) outgoing changes (driver'.marked statusIncoming ref) m := by
  unfold Driver.marked
  rw [if_pos rfl]
  exact ⟨⟨h.kept.recordPools, h.kept.initStatus, h.kept.shadow⟩, h.blockInfo, h.cperInfo, rfl,
    h.outgoing, h.unsynced, h.mirrors⟩

theorem Partway.marked_outgoing (h : Partway config driver incoming outgoing changes driver' m)
    (ref : Ref) :
    Partway config driver incoming (some ref) changes (driver'.marked statusOutgoing ref) m := by
  unfold Driver.marked
  rw [if_neg (by decide), if_pos rfl]
  exact ⟨⟨h.kept.recordPools, h.kept.initStatus, h.kept.shadow⟩, h.blockInfo, h.cperInfo,
    h.incoming, rfl, h.unsynced, h.mirrors⟩

theorem Partway.marked (h : Partway config driver incoming outgoing changes driver' m) (ref : Ref)
    {cperStatus : UInt8} (hincoming : cperStatus ≠ statusIncoming)
    (houtgoing : cperStatus ≠ statusOutgoing) :
    Partway config driver
      (incoming.filter fun other =>
        (driver.deref other).recordOffset ≠ (driver.deref ref).recordOffset)
      (outgoing.filter fun other =>
        (driver.deref other).recordOffset ≠ (driver.deref ref).recordOffset)
      changes (driver'.marked cperStatus ref) m := by
  unfold Driver.marked
  rw [if_neg hincoming, if_neg houtgoing]
  simp only [h.deref, h.incoming, h.outgoing]
  exact ⟨⟨h.kept.recordPools, h.kept.initStatus, h.kept.shadow⟩, h.blockInfo, h.cperInfo, rfl, rfl,
    h.unsynced, h.mirrors⟩

end Partway

@[simp] theorem length_persist (cper : List UInt8) (status : UInt8) :
    (persist cper status).length = cper.length := by
  simp [persist]

theorem getD_persist (cper : List UInt8) (status : UInt8) (n : Nat)
    (hn : statusOffset < n) (hlength : n ≤ cper.length) :
    ((persist cper status).take n).getD statusOffset 0 = status := by
  unfold statusOffset at hn
  rw [List.getD_eq_getElem _ _ (by rw [List.length_take, length_persist]; unfold statusOffset; omega),
    List.getElem_take]
  unfold persist
  rw [List.getElem_set_ne (by decide), List.getElem_set_ne (by decide), List.getElem_set_self]

section WriteRecord
variable {config : Config} {S : Setting EfiCode} {driver : Driver} {m : Memory}

theorem length_of_valid {cper : List UInt8} {maxRecordLength : Nat}
    (h : EfiCode.isError (erstValidateCperHeader cper maxRecordLength) = false) :
    sizeofCperHeader ≤ maxRecordLength := by
  unfold erstValidateCperHeader at h
  split at h
  · cases h
  split at h
  · cases h
  split at h
  · cases h
  split at h
  · cases h
  split at h
  · cases h
  · omega

/-- The record is programmed and the one it replaces is on its way out. -/
theorem erstProgramRecord_wp (hsound : config.Sound) (hdevice : Device S) {driver' : Driver}
    {image : Memory} {cper : List UInt8} {k : Nat} {new : CperInfo} {changes : BitVec 16}
    {Q : EfiCode → Driver → Memory → Prop} (hlength : new.recordLength ≤ cper.length)
    (h : Partway config driver (some (.stack new)) none changes driver' image)
    (hfits : new.recordOffset + new.recordLength ≤ config.partitionSize)
    (hpermits : Permits image (config.norErstOffset + new.recordOffset)
      (cper.take new.recordLength))
    (hold : (driver.info k).recordOffset + sizeofCperHeader ≤ config.partitionSize)
    (hbits : overwrite image (config.norErstOffset + new.recordOffset) (cper.take new.recordLength)
        (config.norErstOffset + ((driver.info k).recordOffset + statusOffset)) &&& statusOutgoing =
      statusOutgoing)
    (cut : ∀ j, S.cut (program image (config.norErstOffset + new.recordOffset)
      ((cper.take new.recordLength).take j)))
    (cut_outgoing : S.cut (overwrite
      (overwrite image (config.norErstOffset + new.recordOffset) (cper.take new.recordLength))
      (config.norErstOffset + ((driver.info k).recordOffset + statusOffset)) [statusOutgoing]))
    (served : ∀ driver'', Partway config driver (some (.stack new)) (some (.entry k)) changes
        driver'' (overwrite
          (overwrite image (config.norErstOffset + new.recordOffset) (cper.take new.recordLength))
          (config.norErstOffset + ((driver.info k).recordOffset + statusOffset))
          [statusOutgoing]) →
      Q .success driver'' (overwrite
        (overwrite image (config.norErstOffset + new.recordOffset) (cper.take new.recordLength))
        (config.norErstOffset + ((driver.info k).recordOffset + statusOffset)) [statusOutgoing]))
    (failed : S.Faulty → ∀ status driver'' j, EfiCode.isError status →
      Q status driver'' (program image (config.norErstOffset + new.recordOffset)
        ((cper.take new.recordLength).take j))) :
    wpIn S (erstProgramRecord config cper (some k) (.stack new)) Q driver' image := by
  have hwhole : program image (config.norErstOffset + new.recordOffset)
      ((cper.take new.recordLength).take (cper.take new.recordLength).length) =
        overwrite image (config.norErstOffset + new.recordOffset) (cper.take new.recordLength) := by
    rw [List.take_length, hpermits.overwrite_eq]
  unfold erstProgramRecord
  rw [wpIn_get_bind]
  simp only [Driver.deref_stack]
  apply wpIn_bind
  apply erstWriteSpiNor_wp hsound hdevice
  · simpa [Nat.min_eq_left hlength] using hfits
  · exact hpermits
  · exact cut
  · rw [EfiCode.isError_success]
    simp only [Bool.false_eq_true, if_false]
    have hpart := h.cache new.recordOffset (cper.take new.recordLength)
    have hoffset := hpart.deref (.entry k)
    apply erstWriteCperStatus_wp hsound hdevice (driver.info k).recordOffset
    · exact congrArg CperInfo.recordOffset hoffset
    · intro heq
      exact absurd heq (by decide)
    · intro heq
      exact hpart.outgoing
    · exact hold
    · exact hpart.mirrors
    · exact hbits
    · rw [← hwhole]
      exact cut _
    · exact cut_outgoing
    · exact served _ ((hpart.cache _ _).marked_outgoing _)
    · intro hfaulty status driver'' herror
      have hlast := failed hfaulty status driver'' (cper.take new.recordLength).length herror
      rwa [hwhole] at hlast
  · intro hfaulty status driver'' j herror hj
    rw [if_pos herror, wpIn_pure]
    exact ⟨cut j, failed hfaulty status driver'' j herror⟩

/-- The old record is deleted and its entry of the table taken by the new one. -/
theorem erstRetireRecord_wp (hsound : config.Sound) (hdevice : Device S) {driver' : Driver}
    {image : Memory} {k block : Nat} {new : CperInfo} {changes : BitVec 16}
    {Q : EfiCode → Driver → Memory → Prop}
    (h : Partway config driver none (some (.entry k)) changes driver' image)
    (hblock : driver.erstGetBlockOfRecord config (driver.info k) = some block)
    (hold : (driver.info k).recordOffset + sizeofCperHeader ≤ config.partitionSize)
    (hbits : image (config.norErstOffset + ((driver.info k).recordOffset + statusOffset)) &&&
      statusDeleted = statusDeleted)
    (now : S.cut image)
    (after : S.cut (overwrite image
      (config.norErstOffset + ((driver.info k).recordOffset + statusOffset)) [statusDeleted]))
    (served : ∀ driver'', Replaced config driver k block new changes driver'' (overwrite image
        (config.norErstOffset + ((driver.info k).recordOffset + statusOffset)) [statusDeleted]) →
      Q .success driver'' (overwrite image
        (config.norErstOffset + ((driver.info k).recordOffset + statusOffset)) [statusDeleted]))
    (failed : S.Faulty → ∀ status driver'', EfiCode.isError status → Q status driver'' image) :
    wpIn S (erstRetireRecord config k (.stack new)) Q driver' image := by
  have hoffset := h.deref (.entry k)
  unfold erstRetireRecord
  apply wpIn_bind
  apply erstWriteCperStatus_wp hsound hdevice (driver.info k).recordOffset
  · exact congrArg CperInfo.recordOffset hoffset
  · intro heq
    exact absurd heq (by decide)
  · intro heq
    exact absurd heq (by decide)
  · exact hold
  · exact h.mirrors
  · exact hbits
  · exact now
  · exact after
  · have hpart := ((h.cache ((driver.info k).recordOffset + statusOffset)
      [statusDeleted]).marked (.entry k) (by decide : statusDeleted ≠ statusIncoming)
        (by decide)).unsync
    rw [EfiCode.isError_success]
    simp only [Bool.false_eq_true, if_false, wpIn_modify_bind]
    generalize (((driver'.cache ((driver.info k).recordOffset + statusOffset)
      [statusDeleted]).marked statusDeleted (.entry k)).unsync) = driver'' at hpart ⊢
    have hderef := hpart.deref (.entry k)
    have hlookup : driver''.erstGetBlockOfRecord config (driver.deref (.entry k)) = some block := by
      unfold Driver.erstGetBlockOfRecord
      rw [hpart.blockInfo]
      exact hblock
    apply wpIn_bind
    unfold erstFreeRecord
    rw [wpIn_get_bind]
    simp only [hderef, hlookup, wpIn_set_bind, wpIn_pure, EfiCode.isError_success,
      Bool.false_eq_true, if_false, wpIn_modify_bind]
    refine ⟨after, after, served _ ?_⟩
    exact {
      kept := ⟨hpart.kept.recordPools, hpart.kept.initStatus, hpart.kept.shadow⟩
      blockInfo := by
        show Function.update driver''.blockInfo block _ = _
        rw [hpart.blockInfo]
        rfl
      cperInfo := by
        show driver''.cperInfo.set k new = _
        rw [hpart.cperInfo]
      incoming := hpart.incoming
      outgoing := by
        rw [← show driver''.outgoingCperInfo = none by simp [hpart.outgoing]]
        rfl
      unsynced := by
        show driver''.unsyncedSpinorChanges - 1 = _
        rw [hpart.unsynced, ← BitVec.add_assoc, BitVec.add_sub_cancel]
      mirrors := hpart.mirrors }
  · intro hfaulty status driver'' herror
    rw [if_pos herror, wpIn_pure]
    exact ⟨now, failed hfaulty status driver'' herror⟩

theorem erstWriteRecord_replace_wp (hsound : config.Sound) (hdevice : Device S)
    {cper : List UInt8} {k block : Nat} {new : CperInfo}
    {Q : EfiCode × List UInt8 → Driver → Memory → Prop}
    (hready : Ready config driver m new)
    (hold : Replaceable config driver m new (driver.info k) block)
    (hlength : new.recordLength ≤ cper.length)
    (cut : ∀ image, Underway config m ((persist cper statusIncoming).take new.recordLength)
      new.recordOffset (some (driver.info k).recordOffset) image → S.cut image)
    (cut_written : S.cut (writtenImage config m
      ((persist cper statusIncoming).take new.recordLength) new.recordOffset
      (some (driver.info k).recordOffset)))
    (refused : EfiCode.isError (erstValidateCperHeader (persist cper statusIncoming)
        new.recordLength) → ∀ status, EfiCode.isError status →
      Q (status, persist cper statusIncoming) driver m)
    (failed : S.Faulty → ∀ status cper' driver' image, EfiCode.isError status →
      Underway config m ((persist cper statusIncoming).take new.recordLength) new.recordOffset
        (some (driver.info k).recordOffset) image → Q (status, cper') driver' image)
    (served : EfiCode.isError (erstValidateCperHeader (persist cper statusIncoming)
        new.recordLength) = false → ∀ driver',
      Replaced config driver k block new 0 driver' (writtenImage config m
        ((persist cper statusIncoming).take new.recordLength) new.recordOffset
        (some (driver.info k).recordOffset)) →
      Q (.success, (persist cper statusIncoming).set statusOffset statusValid) driver'
        (writtenImage config m ((persist cper statusIncoming).take new.recordLength)
          new.recordOffset (some (driver.info k).recordOffset))) :
    wpIn S (erstWriteRecord config cper (some k) (.stack new) false) Q driver m := by
  unfold erstWriteRecord
  rw [wpIn_get_bind, if_neg (by simp [hready.outgoing])]
  dsimp only
  by_cases hvalid : EfiCode.isError (erstValidateCperHeader (persist cper statusIncoming)
      (driver.deref (.stack new)).recordLength) = true
  · rw [if_pos hvalid, wpIn_pure]
    exact ⟨cut _ .untouched, refused hvalid _ hvalid⟩
  rw [if_neg hvalid, wpIn_modify_bind, wpIn_pure_bind]
  simp only [EfiCode.isError_success, Bool.false_eq_true, if_false]
  have hlong : sizeofCperHeader ≤ new.recordLength :=
    length_of_valid (Bool.eq_false_iff.mpr hvalid)
  have hdata : ((persist cper statusIncoming).take new.recordLength).length =
      new.recordLength := by simpa using hlength
  have hstatus : statusOffset < sizeofCperHeader := by decide
  have hfits := hready.fits
  have hapart := hold.apart
  have hblank := hready.blank
  have hstart : Partway config driver none none 1 driver.unsync m :=
    ⟨⟨rfl, rfl, rfl⟩, rfl, rfl, hready.incoming, hready.outgoing, rfl, hready.mirrors⟩
  have hnew := getD_persist cper statusIncoming new.recordLength (by omega) hlength
  have hkept := (Underway.incoming : Underway config m ((persist cper statusIncoming).take
    new.recordLength) new.recordOffset none _).same (by omega)
      (show config.norErstOffset + ((driver.info k).recordOffset + statusOffset) < _ ∨ _ by omega)
      (by simp)
  have houtgoing : incomingImage config m ((persist cper statusIncoming).take new.recordLength)
      new.recordOffset (config.norErstOffset + ((driver.info k).recordOffset + statusOffset)) &&&
        statusOutgoing = statusOutgoing := by
    rw [hkept, hold.valid]
    decide
  have hvalidated : outgoingImage config m ((persist cper statusIncoming).take new.recordLength)
      new.recordOffset (some (driver.info k).recordOffset)
        (config.norErstOffset + (new.recordOffset + statusOffset)) &&& statusValid =
          statusValid := by
    rw [outgoingImage_new (by omega) hnew (by simpa using hold.elsewhere)]
    decide
  have hdeleted : validImage config m ((persist cper statusIncoming).take new.recordLength)
      new.recordOffset (some (driver.info k).recordOffset)
        (config.norErstOffset + ((driver.info k).recordOffset + statusOffset)) &&& statusDeleted =
          statusDeleted := by
    unfold validImage
    rw [overwrite_byte, if_neg (by omega)]
    show overwrite _ _ _ _ &&& _ = _
    rw [overwrite_byte, if_pos rfl]
    decide
  -- the new record is announced
  apply wpIn_bind
  apply erstWriteCperStatus_wp hsound hdevice new.recordOffset rfl
  · intro heq
    exact hready.incoming
  · intro heq
    exact absurd heq (by decide)
  · omega
  · exact hstart.mirrors
  · rw [hblank _ (by omega) (by omega)]
    rfl
  · exact cut _ .untouched
  · exact cut _ .started
  · have hpart := ((hstart.cache (new.recordOffset + statusOffset)
      [statusIncoming]).marked_incoming (.stack new)).unsync
    rw [EfiCode.isError_success]
    simp only [Bool.false_eq_true, if_false, wpIn_modify_bind]
    -- it is programmed, and the old one goes out
    apply wpIn_bind
    apply erstProgramRecord_wp hsound hdevice (by simpa using hlength) hpart hfits
      (permits_startedImage (by rwa [hdata]) hnew) hold.fits houtgoing
    · intro j
      exact cut _ (.torn j)
    · exact cut _ .outgoing
    · intro driver₁ hpart₁
      rw [EfiCode.isError_success]
      simp only [Bool.false_eq_true, if_false]
      -- the new record is valid
      apply wpIn_bind
      apply erstWriteCperStatus_wp hsound hdevice new.recordOffset rfl
      · intro heq
        exact absurd heq (by decide)
      · intro heq
        exact absurd heq (by decide)
      · omega
      · exact hpart₁.mirrors
      · exact hvalidated
      · exact cut _ .outgoing
      · exact cut _ .valid
      · have hpart₂ := (hpart₁.cache (new.recordOffset + statusOffset) [statusValid]).marked
          (.stack new) (by decide : statusValid ≠ statusIncoming) (by decide)
        have hentry : (driver.deref (.entry k)).recordOffset ≠
            (driver.deref (.stack new)).recordOffset := hold.elsewhere
        simp only [Option.filter_some, ne_eq, hentry, not_true_eq_false, not_false_eq_true,
          decide_true, decide_false, Bool.false_eq_true, if_true, if_false] at hpart₂
        rw [EfiCode.isError_success]
        simp only [Bool.false_eq_true, if_false]
        -- the old one is deleted
        apply wpIn_bind
        apply erstRetireRecord_wp hsound hdevice hpart₂ hold.block hold.fits hdeleted
          (cut _ .valid) cut_written
        · intro driver₂ hreplaced
          rw [EfiCode.isError_success]
          simp only [Bool.false_eq_true, if_false, wpIn_modify_bind, wpIn_pure]
          refine ⟨cut_written, served (Bool.eq_false_iff.mpr hvalid) _ ?_⟩
          exact ⟨⟨hreplaced.kept.recordPools, hreplaced.kept.initStatus, hreplaced.kept.shadow⟩,
            hreplaced.blockInfo, hreplaced.cperInfo, hreplaced.incoming, hreplaced.outgoing, by
              show driver₂.unsyncedSpinorChanges - 1 - 1 = _
              rw [hreplaced.unsynced, ← BitVec.add_assoc, BitVec.add_sub_cancel,
                BitVec.add_sub_cancel]
              exact (BitVec.add_zero _).symm, hreplaced.mirrors⟩
        · intro hfaulty status driver₂ herror
          rw [if_pos herror, wpIn_pure]
          exact ⟨cut _ .valid, failed hfaulty _ _ _ _ herror .valid⟩
      · intro hfaulty status driver₂ herror
        rw [if_pos herror, wpIn_pure]
        exact ⟨cut _ .outgoing, failed hfaulty _ _ _ _ herror .outgoing⟩
    · intro hfaulty status driver₁ j herror
      rw [if_pos herror, wpIn_pure]
      exact ⟨cut _ (.torn j), failed hfaulty _ _ _ _ herror (.torn j)⟩
  · intro hfaulty status driver' herror
    rw [if_pos herror]
    apply wpIn_bind
    rw [show erstDeallocateRecord none = pure .invalidParameter from rfl, wpIn_pure, wpIn_pure]
    exact ⟨cut _ .untouched, cut _ .untouched, failed hfaulty _ _ _ _ herror .untouched⟩

end WriteRecord

end Erst
