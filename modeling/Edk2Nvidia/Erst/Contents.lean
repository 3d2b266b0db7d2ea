import Edk2Nvidia.Erst.Searching

/-! What the partition holds for its users: the contents of the records that are live, wherever they
stand. It stays on the flash while a record moves. -/
namespace Erst
open Flash

/-! The contents of a record, up to the persistence information. -/

def normalize (cper : List UInt8) : List UInt8 := persist cper statusValid

theorem set_persist (cper : List UInt8) (status status' : UInt8) :
    (persist cper status).set statusOffset status' = persist cper status' := by
  apply List.ext_getElem
  · simp [persist]
  · intro i hi hi'
    simp only [persist, statusOffset, List.getElem_set]
    split_ifs <;> first | rfl | omega

theorem normalize_set (cper : List UInt8) (status : UInt8) :
    normalize (cper.set statusOffset status) = normalize cper := by
  apply List.ext_getElem
  · simp [normalize, persist]
  · intro i hi hi'
    simp only [normalize, persist, statusOffset, List.getElem_set]
    split_ifs <;> rfl

theorem normalize_persist (cper : List UInt8) (status : UInt8) :
    normalize (persist cper status) = normalize cper := by
  apply List.ext_getElem
  · simp [normalize, persist]
  · intro i hi hi'
    simp only [normalize, persist, statusOffset, List.getElem_set]
    split_ifs <;> rfl

theorem persist_persist (cper : List UInt8) (status status' : UInt8) :
    persist (persist cper status) status' = persist cper status' := by
  apply List.ext_getElem
  · simp [persist]
  · intro i hi hi'
    simp only [persist, statusOffset, List.getElem_set]
    split_ifs <;> rfl

theorem take_persist (cper : List UInt8) (status : UInt8) (length : Nat) :
    (persist cper status).take length = persist (cper.take length) status := by
  simp only [persist, List.take_set]

theorem take_persist_front (cper : List UInt8) (status : UInt8) :
    (persist cper status).take 108 = cper.take 108 := by
  rw [take_persist]
  unfold persist statusOffset
  repeat rw [List.set_eq_of_length_le (by simp)]

theorem field_persist (cper : List UInt8) (status : UInt8) {offset width : Nat}
    (h : offset + width ≤ 108) : field (persist cper status) offset width =
      field cper offset width := by
  have hfield : ∀ bytes : List UInt8, field bytes offset width = field (bytes.take 108) offset width := by
    intro bytes
    unfold field
    rw [List.drop_take, List.take_take, Nat.min_eq_left (by omega)]
  rw [hfield, take_persist_front, ← hfield]

theorem erstValidateCperHeader_persist {cper : List UInt8} {maxRecordLength : Nat}
    (status : UInt8) (hlong : sizeofCperHeader ≤ cper.length) (hstatus : status ∈ knownStatuses)
    (h : EfiCode.isError (erstValidateCperHeader cper maxRecordLength) = false) :
    EfiCode.isError (erstValidateCperHeader (persist cper status) maxRecordLength) = false := by
  have hbyte : ∀ i < sizeofCperHeader, (persist cper status).getD i 0 =
      if i = 112 then erstRecordVersionMinor else if i = 111 then erstRecordVersionMajor
      else if i = 110 then status else if i = 109 then 0x52 else if i = 108 then 0x45
      else cper.getD i 0 := by
    intro i hi
    have hlength : i < cper.length := Nat.lt_of_lt_of_le hi hlong
    simp only [persist, statusOffset, List.getD_eq_getElem?_getD, List.getElem?_set,
      List.length_set]
    split_ifs <;> first | rfl | omega
  have hsignature : cperPersistenceSignature (persist cper status) = erstRecordSignature := by
    have hlow : (persist cper status).getD 108 0 = 0x45 := hbyte 108 (by decide)
    have hhigh : (persist cper status).getD 109 0 = 0x52 := hbyte 109 (by decide)
    have hlength : sizeofCperHeader ≤ (persist cper status).length := by rwa [length_persist]
    have hsize : sizeofCperHeader = 128 := rfl
    rw [List.getD_eq_getElem _ _ (by omega)] at hlow hhigh
    unfold cperPersistenceSignature field
    rw [List.drop_eq_getElem_cons (by omega), List.drop_eq_getElem_cons (by omega),
      List.take_succ_cons, List.take_succ_cons, List.take_zero, hlow, hhigh]
    decide
  have hmajor : cperMajor (persist cper status) = erstRecordVersionMajor := hbyte 111 (by decide)
  have hminor : cperMinor (persist cper status) = erstRecordVersionMinor := hbyte 112 (by decide)
  have hknown : cperStatus (persist cper status) = status := hbyte 110 (by decide)
  have haccepted : erstValidateCperHeader cper maxRecordLength = .success := by
    rcases erstValidateCperHeader_cases cper maxRecordLength with hsuccess | herror | herror
    · exact hsuccess
    · rw [herror] at h
      exact absurd h (by decide)
    · rw [herror] at h
      exact absurd h (by decide)
  unfold erstValidateCperHeader at haccepted ⊢
  unfold cperSignatureStart cperRevision cperSignatureEnd cperRecordID cperRecordLength
    at haccepted ⊢
  rw [hsignature, hmajor, hminor, hknown, field_persist _ _ (by omega), field_persist _ _ (by omega),
    field_persist _ _ (by omega), field_persist _ _ (by omega), field_persist _ _ (by omega)]
  split at haccepted
  · exact absurd haccepted (by decide)
  next hheader =>
  split at haccepted
  · exact absurd haccepted (by decide)
  next hid =>
  split at haccepted
  · exact absurd haccepted (by decide)
  split at haccepted
  · exact absurd haccepted (by decide)
  split at haccepted
  · exact absurd haccepted (by decide)
  next hlength =>
  rw [if_neg hheader, if_neg hid, if_neg (by simp), if_neg (not_not.mpr hstatus), if_neg hlength]
  exact EfiCode.isError_success

theorem field_take (cper : List UInt8) {n offset width : Nat} (h : offset + width ≤ n) :
    field (cper.take n) offset width = field cper offset width := by
  unfold field
  rw [List.drop_take, List.take_take, Nat.min_eq_left (by omega)]

theorem getD_take (cper : List UInt8) {n i : Nat} (h : i < n) :
    (cper.take n).getD i 0 = cper.getD i 0 := by
  rw [List.getD_eq_getElem?_getD, List.getD_eq_getElem?_getD, List.getElem?_take_of_lt h]

theorem erstValidateCperHeader_take (cper : List UInt8) {n : Nat} (h : sizeofCperHeader ≤ n)
    (maxRecordLength : Nat) : erstValidateCperHeader (cper.take n) maxRecordLength =
      erstValidateCperHeader cper maxRecordLength := by
  have hsize : sizeofCperHeader = 128 := rfl
  unfold erstValidateCperHeader cperSignatureStart cperRevision cperSignatureEnd cperRecordID
    cperRecordLength cperPersistenceSignature cperMajor cperMinor cperStatus statusOffset
  rw [field_take _ (by omega), field_take _ (by omega), field_take _ (by omega),
    field_take _ (by omega), field_take _ (by omega), field_take _ (by omega),
    getD_take _ (by omega), getD_take _ (by omega), getD_take _ (by omega)]

theorem erstValidateCperHeader_mono {cper : List UInt8} {max max' : Nat} (hle : max ≤ max')
    (h : EfiCode.isError (erstValidateCperHeader cper max) = false) :
    EfiCode.isError (erstValidateCperHeader cper max') = false := by
  unfold erstValidateCperHeader at h ⊢
  split
  · next hheader =>
    rw [if_pos hheader] at h
    exact h
  next hheader =>
  rw [if_neg hheader] at h
  split
  · next hid =>
    rw [if_pos hid] at h
    exact h
  next hid =>
  rw [if_neg hid] at h
  split
  · next hpersist =>
    rw [if_pos hpersist] at h
    exact h
  next hpersist =>
  rw [if_neg hpersist] at h
  split
  · next hstatus =>
    rw [if_pos hstatus] at h
    exact h
  next hstatus =>
  rw [if_neg hstatus] at h
  split at h
  · exact absurd h (by decide)
  · rw [if_neg (by omega)]
    exact EfiCode.isError_success

theorem isError_validateRecord {cper : List UInt8} {recordID recordLength : Nat}
    (h : EfiCode.isError (erstValidateRecord cper recordID recordLength) = false) :
    EfiCode.isError (erstValidateCperHeader cper recordLength) = false := by
  unfold erstValidateRecord at h
  split at h
  · exact absurd h (by decide)
  split at h
  · exact absurd h (by decide)
  · exact h

theorem Entry.normalize_copy (entry : Entry) {cper : List UInt8}
    (h : cper.take entry.size = entry.bytes) :
    normalize (entry.copy cper).bytes = normalize entry.bytes := by
  show normalize (((persist cper statusIncoming).take entry.size).set statusOffset statusValid) = _
  rw [take_persist, h, set_persist, normalize_persist]

/-! The contents of the logs. -/

def Entry.contents (entry : Entry) : Nat × List UInt8 := (entry.id, normalize entry.bytes)

def Log.contents (log : Log) : Multiset (Nat × List UInt8) :=
  ((log.filter Entry.live).map Entry.contents : List (Nat × List UInt8))

def Logs.contents (config : Config) (logs : Logs) : Multiset (Nat × List UInt8) :=
  ∑ block ∈ Finset.range config.numBlocks, (logs block).contents

section Contents
variable {config : Config} {logs : Logs} {block : Nat} {front back : Log} {entry : Entry}

theorem Log.contents_append (front back : Log) :
    Log.contents (front ++ back) = Log.contents front + Log.contents back := by
  simp [Log.contents]

theorem Log.contents_cons (hlive : entry.live) :
    Log.contents (entry :: back) = {entry.contents} + Log.contents back := by
  simp [Log.contents, hlive]

theorem Log.contents_cons_dead (hdead : entry.live = false) :
    Log.contents (entry :: back) = Log.contents back := by
  simp [Log.contents, hdead]

theorem Log.mem_contents {log : Log} {record : Nat × List UInt8} :
    record ∈ Log.contents log ↔ ∃ (front : Log) (entry : Entry) (back : Log),
      log = front ++ entry :: back ∧ entry.live ∧ record = entry.contents := by
  unfold Log.contents
  rw [Multiset.mem_coe, List.mem_map]
  constructor
  · rintro ⟨entry, hentry, rfl⟩
    obtain ⟨hmem, hlive⟩ := List.mem_filter.mp hentry
    obtain ⟨front, back, rfl⟩ := List.append_of_mem hmem
    exact ⟨front, entry, back, rfl, hlive, rfl⟩
  · rintro ⟨front, entry, back, rfl, hlive, rfl⟩
    exact ⟨entry, List.mem_filter.mpr ⟨by simp, hlive⟩, rfl⟩

theorem Logs.contents_update (logs : Logs) (hblock : block < config.numBlocks) (log : Log) :
    Logs.contents config (Function.update logs block log) + (logs block).contents =
      logs.contents config + log.contents := by
  have hmem : block ∈ Finset.range config.numBlocks := Finset.mem_range.mpr hblock
  unfold Logs.contents
  rw [← Finset.add_sum_erase _ _ hmem, ← Finset.add_sum_erase _ (fun b => (logs b).contents) hmem]
  have hrest : ∑ b ∈ (Finset.range config.numBlocks).erase block,
        (Function.update logs block log b).contents =
      ∑ b ∈ (Finset.range config.numBlocks).erase block, (logs b).contents := by
    apply Finset.sum_congr rfl
    intro b hb
    rw [Function.update_of_ne (Finset.ne_of_mem_erase hb)]
  rw [hrest, Function.update_self]
  abel

theorem Logs.contents_append (logs : Logs) (hblock : block < config.numBlocks)
    (hlive : entry.live) :
    (logs.append block entry).contents config = logs.contents config + {entry.contents} := by
  have h := Logs.contents_update logs hblock (logs block ++ [entry])
  rw [Log.contents_append, Log.contents_cons hlive, show Log.contents [] = 0 from rfl, add_zero,
    ← add_assoc, add_right_comm] at h
  exact add_right_cancel h

theorem Logs.contents_deleted (logs : Logs) (hblock : block < config.numBlocks)
    (hlog : logs block = front ++ entry :: back) (hlive : entry.live) :
    Logs.contents config (Function.update logs block (front ++ entry.deleted :: back)) +
      {entry.contents} = logs.contents config := by
  have h := Logs.contents_update logs hblock (front ++ entry.deleted :: back)
  rw [hlog, Log.contents_append, Log.contents_append, Log.contents_cons hlive,
    Log.contents_cons_dead rfl, add_left_comm (Log.contents front), ← add_assoc] at h
  exact add_right_cancel h

theorem Logs.contents_erase (logs : Logs) (hblock : block < config.numBlocks)
    (hlive : (logs block).liveCount = 0) :
    Logs.contents config (Function.update logs block []) = logs.contents config := by
  have hnone : (logs block).contents = 0 := by
    have hfilter : (logs block).filter Entry.live = [] := by
      rw [List.filter_eq_nil_iff]
      exact List.countP_eq_zero.mp hlive
    unfold Log.contents
    rw [hfilter]
    rfl
  have h := Logs.contents_update logs hblock []
  rwa [hnone, show Log.contents [] = 0 from rfl, add_zero, add_zero] at h

theorem Logs.mem_contents {record : Nat × List UInt8} (h : record ∈ logs.contents config) :
    ∃ block < config.numBlocks, ∃ (front : Log) (entry : Entry) (back : Log),
      logs block = front ++ entry :: back ∧ entry.live ∧ record = entry.contents := by
  unfold Logs.contents at h
  rw [Multiset.mem_sum] at h
  obtain ⟨block, hblock, hmem⟩ := h
  exact ⟨block, Finset.mem_range.mp hblock, Log.mem_contents.mp hmem⟩

theorem Source.mem_contents {driver : Driver} {k : Nat}
    (hs : Source config driver logs k block front entry back) :
    entry.contents ∈ logs.contents config := by
  unfold Logs.contents
  rw [Multiset.mem_sum]
  exact ⟨block, Finset.mem_range.mpr hs.bound, Log.mem_contents.mpr
    ⟨front, entry, back, hs.log, hs.live, rfl⟩⟩

end Contents

theorem Logs.contents_moved {config : Config} {driver : Driver} {logs : Logs}
    {k block target : Nat} {front back : Log} {entry new : Entry}
    (hs : Source config driver logs k block front entry back) (htarget : target < config.numBlocks)
    (hlive : new.live) :
    (logs.moved block target front entry back new).contents config + {entry.contents} =
      logs.contents config + {new.contents} := by
  have hlog := hs.log_append target new
  rw [← Logs.contents_append logs htarget hlive]
  exact Logs.contents_deleted (logs.append target new) hs.bound hlog hs.live

/-! The headers. -/

/-- The header of an entry says what the entry is. -/
structure Entry.Headed (entry : Entry) : Prop where
  persisted : entry.bytes =
    persist entry.bytes (if entry.live then statusValid else statusDeleted)
  valid : EfiCode.isError (erstValidateCperHeader entry.bytes entry.size) = false
  id : cperRecordID entry.bytes = entry.id
  length : cperRecordLength entry.bytes = entry.size

def Logs.Headed (config : Config) (logs : Logs) : Prop :=
  ∀ block < config.numBlocks, ∀ entry ∈ logs block, entry.Headed

theorem Logs.Headed.empty (config : Config) : Logs.Headed config fun _ => [] :=
  fun _ _ _ hentry => absurd hentry List.not_mem_nil

theorem Entry.headed_persist {bytes : List UInt8} {id : Nat} (live : Bool)
    (hlong : sizeofCperHeader ≤ bytes.length)
    (hvalid : EfiCode.isError (erstValidateCperHeader bytes bytes.length) = false)
    (hid : cperRecordID bytes = id) (hlength : cperRecordLength bytes = bytes.length) :
    Entry.Headed ⟨id, persist bytes (if live then statusValid else statusDeleted), live⟩ where
  persisted := (persist_persist _ _ _).symm
  valid := by
    show EfiCode.isError (erstValidateCperHeader _ (persist bytes _).length) = false
    rw [length_persist]
    apply erstValidateCperHeader_persist _ hlong ?_ hvalid
    cases live <;> decide
  id := by
    unfold cperRecordID
    rw [field_persist _ _ (by omega)]
    exact hid
  length := by
    show cperRecordLength (persist bytes _) = (persist bytes _).length
    unfold cperRecordLength
    rw [field_persist _ _ (by omega), length_persist]
    exact hlength

theorem Entry.Headed.deleted {entry : Entry} (h : entry.Headed)
    (hlong : sizeofCperHeader ≤ entry.size) : entry.deleted.Headed := by
  have hbytes : entry.bytes.set statusOffset statusDeleted = persist entry.bytes statusDeleted := by
    conv_lhs => rw [h.persisted]
    exact set_persist _ _ _
  have hdeleted : entry.deleted = ⟨entry.id, persist entry.bytes statusDeleted, false⟩ := by
    unfold Entry.deleted
    rw [hbytes]
  rw [hdeleted]
  exact Entry.headed_persist false hlong h.valid h.id h.length

theorem Entry.Headed.copy {entry : Entry} (h : entry.Headed)
    (hlong : sizeofCperHeader ≤ entry.size) (hlive : entry.live) {cper : List UInt8}
    (hcper : cper.take entry.size = entry.bytes) : (entry.copy cper).Headed := by
  have hcopy : entry.copy cper = ⟨entry.id, persist entry.bytes statusValid, true⟩ := by
    unfold Entry.copy
    rw [take_persist, hcper, set_persist, hlive]
  rw [hcopy]
  exact Entry.headed_persist true hlong h.valid h.id h.length

theorem Logs.Headed.update {config : Config} {logs : Logs} (h : logs.Headed config) {block : Nat}
    {log : Log} (hlog : ∀ entry ∈ log, entry.Headed) :
    Logs.Headed config (Function.update logs block log) := by
  intro b hb entry hentry
  by_cases heq : b = block
  · rw [heq, Function.update_self] at hentry
    exact hlog entry hentry
  · rw [Function.update_of_ne heq] at hentry
    exact h b hb entry hentry

theorem Logs.Headed.append {config : Config} {logs : Logs} (h : logs.Headed config) {block : Nat}
    (hblock : block < config.numBlocks) {entry : Entry} (hentry : entry.Headed) :
    (logs.append block entry).Headed config := by
  apply h.update
  intro entry' hmem
  rcases List.mem_append.mp hmem with hold | hnew
  · exact h block hblock entry' hold
  · rw [List.mem_singleton.mp hnew]
    exact hentry

theorem Logs.Headed.delete {config : Config} {logs : Logs} (h : logs.Headed config) {block : Nat}
    (hblock : block < config.numBlocks) {front back : Log} {entry : Entry}
    (hlog : logs block = front ++ entry :: back) (hlong : sizeofCperHeader ≤ entry.size) :
    Logs.Headed config (Function.update logs block (front ++ entry.deleted :: back)) := by
  apply h.update
  intro entry' hmem
  rcases List.mem_append.mp hmem with hfront | hback
  · exact h block hblock entry' (by rw [hlog]; exact List.mem_append_left _ hfront)
  rcases List.mem_cons.mp hback with rfl | hback
  · exact (h block hblock entry (by simp [hlog])).deleted hlong
  · exact h block hblock entry' (by rw [hlog]; simp [hback])

theorem Logs.Headed.moved {config : Config} {driver : Driver} {logs : Logs}
    {k block target : Nat} {front back : Log} {entry new : Entry} (h : logs.Headed config)
    (hs : Source config driver logs k block front entry back) (htarget : target < config.numBlocks)
    (hlong : sizeofCperHeader ≤ entry.size) (hnew : new.Headed) :
    (logs.moved block target front entry back new).Headed config :=
  (h.append htarget hnew).delete hs.bound (hs.log_append target new) hlong

structure Same (config : Config) (logs logs' : Logs) : Prop where
  contents : logs'.contents config = logs.contents config
  headed : logs.Headed config → logs'.Headed config

theorem Same.refl (config : Config) (logs : Logs) : Same config logs logs := ⟨rfl, id⟩

theorem Same.trans {config : Config} {logs logs' logs'' : Logs} (h : Same config logs logs')
    (h' : Same config logs' logs'') : Same config logs logs'' :=
  ⟨h'.contents.trans h.contents, fun hheaded => h'.headed (h.headed hheaded)⟩

theorem Same.erase {config : Config} {logs : Logs} {block : Nat} (hblock : block < config.numBlocks)
    (hlive : (logs block).liveCount = 0) : Same config logs (Function.update logs block []) :=
  ⟨Logs.contents_erase logs hblock hlive, fun hheaded =>
    hheaded.update fun _ hentry => absurd hentry List.not_mem_nil⟩

/-! The contents on the flash. -/

/-- The record stands on the flash as one that is valid or about to be replaced. -/
def Holding (config : Config) (image : Memory) (contents : List UInt8) : Prop :=
  ∃ block < config.numBlocks, ∃ offset bytes, offset + bytes.length ≤ config.blockSize ∧
    sizeofCperHeader ≤ bytes.length ∧ Holds image (config.place block + offset) bytes ∧
    (cperStatus bytes = statusValid ∨ cperStatus bytes = statusOutgoing) ∧
    normalize bytes = contents

def Preserved (config : Config) (image : Memory) (contents : Multiset (Nat × List UInt8)) : Prop :=
  ∀ record ∈ contents, Holding config image record.2

section Preserved
variable {config : Config} {m image : Memory} {logs : Logs} {block : Nat} {front back : Log}
  {entry : Entry}

theorem Stored.inside (h : Stored config m logs) (hblock : block < config.numBlocks)
    (hlog : logs block = front ++ entry :: back) :
    sizeofCperHeader ≤ entry.size ∧ front.size + entry.size ≤ (logs block).size ∧
      (logs block).size ≤ config.blockSize := by
  refine ⟨h.long block hblock entry (by simp [hlog]), ?_, h.fits block hblock⟩
  rw [hlog, Log.size_append, Log.size_cons]
  omega

theorem Log.entries_apart {front' back' : Log} {entry' : Entry}
    (h : front ++ entry :: back = front' ++ entry' :: back') :
    (front = front' ∧ entry = entry') ∨ Log.size front + entry.size ≤ Log.size front' ∨
      Log.size front' + entry'.size ≤ Log.size front := by
  rcases List.append_eq_append_iff.mp h with ⟨middle, rfl, hmiddle⟩ | ⟨middle, rfl, hmiddle⟩
  · cases middle with
    | nil =>
      cases hmiddle
      exact .inl ⟨(List.append_nil _).symm, rfl⟩
    | cons first rest =>
      cases hmiddle
      refine .inr (.inl ?_)
      rw [Log.size_append, Log.size_cons]
      omega
  · cases middle with
    | nil =>
      cases hmiddle
      exact .inl ⟨List.append_nil _, rfl⟩
    | cons first rest =>
      cases hmiddle
      refine .inr (.inr ?_)
      rw [Log.size_append, Log.size_cons]
      omega

theorem Stored.preserved (h : Stored config m logs) : Preserved config m (logs.contents config) := by
  intro record hrecord
  obtain ⟨block, hblock, front, entry, back, hlog, hlive, rfl⟩ := Logs.mem_contents hrecord
  obtain ⟨hlong, hfront, hfits⟩ := h.inside hblock hlog
  refine ⟨block, hblock, front.size, entry.bytes, ?_, hlong, h.entry hblock hlog, .inl ?_, rfl⟩
  · unfold Entry.size at hfront
    omega
  · exact h.valid block hblock entry (by simp [hlog]) hlive

/-- No record is lost while a block that holds none is erased. -/
theorem Stored.preserved_erasing (h : Stored config m logs) {dead : Nat}
    (hnone : (logs dead).liveCount = 0)
    (same : ∀ a, (a < config.place dead ∨ config.place dead + config.blockSize ≤ a) →
      image a = m a) : Preserved config image (logs.contents config) := by
  intro record hrecord
  obtain ⟨block, hblock, front, entry, back, hlog, hlive, rfl⟩ := Logs.mem_contents hrecord
  obtain ⟨hlong, hfront, hfits⟩ := h.inside hblock hlog
  have hmem : entry ∈ logs block := by simp [hlog]
  have hne : block ≠ dead := by
    rintro rfl
    exact List.countP_eq_zero.mp hnone entry hmem hlive
  unfold Entry.size at hfront
  refine ⟨block, hblock, front.size, entry.bytes, by omega, hlong, ?_, .inl ?_, rfl⟩
  · apply (h.entry hblock hlog).congr
    intro a ha ha'
    exact same a (Config.place_disjoint hne a ⟨by omega, by omega⟩)
  · exact h.valid block hblock entry hmem hlive

/-- No record is lost while one is written behind the log of `target`, in the place of `old`. -/
theorem Stored.preserved_underway (h : Stored config m logs) {data : List UInt8} {target : Nat}
    {old : Option Nat} (hlong : sizeofCperHeader ≤ data.length)
    (hroom : (logs target).size + data.length ≤ config.blockSize)
    (hold : ∀ o ∈ old, ∃ block < config.numBlocks, ∃ (front : Log) (entry : Entry) (back : Log),
      logs block = front ++ entry :: back ∧ o = block * config.blockSize + front.size)
    (hunderway : Underway config m data (logs.gap config target) old image) :
    Preserved config image (logs.contents config) := by
  have hoffset : statusOffset < sizeofCperHeader := by decide
  intro record hrecord
  obtain ⟨block, hblock, front, entry, back, hlog, hlive, rfl⟩ := Logs.mem_contents hrecord
  obtain ⟨hlong', hfront, hfits⟩ := h.inside hblock hlog
  have hbytes := h.entry hblock hlog
  have hvalid := h.valid block hblock entry (by simp [hlog]) hlive
  have hsize : entry.size = entry.bytes.length := rfl
  -- behind the log of its block nothing of an entry stands
  have hgap : ∀ a, config.place block + front.size ≤ a →
      a < config.place block + front.size + entry.size →
      a < config.norErstOffset + logs.gap config target ∨
        config.norErstOffset + logs.gap config target + data.length ≤ a := by
    intro a ha ha'
    unfold Logs.gap
    by_cases heq : block = target
    · subst heq
      unfold Config.place at ha ha'
      omega
    · have hapart : a < config.place target ∨ config.place target + config.blockSize ≤ a :=
        Config.place_disjoint heq a ⟨by omega, by omega⟩
      unfold Config.place at hapart
      omega
  have hplace : config.place block + front.size =
      config.norErstOffset + (block * config.blockSize + front.size) := Nat.add_assoc _ _ _
  by_cases hsame : old = some (block * config.blockSize + front.size)
  · -- the record that is replaced, whose status may have changed
    subst hsame
    have hstatus := hunderway.status hlong (by
      have := hgap (config.norErstOffset + (block * config.blockSize + front.size + statusOffset))
        (by omega) (by omega)
      omega)
    have hother : ∀ i < entry.size, i ≠ statusOffset →
        image (config.place block + front.size + i) = m (config.place block + front.size + i) := by
      intro i hi hne
      have hout := hgap (config.place block + front.size + i) (by omega) (by omega)
      apply Underway.same hunderway hlong (by omega)
      intro o ho
      obtain rfl : o = block * config.blockSize + front.size := (Option.some.inj ho).symm
      omega
    have hindex : statusOffset < entry.bytes.length := by omega
    refine ⟨block, hblock, front.size, entry.bytes.set statusOffset (image (config.norErstOffset +
      (block * config.blockSize + front.size + statusOffset))), ?_, ?_, ?_, ?_, normalize_set _ _⟩
    · rw [List.length_set]
      omega
    · rw [List.length_set]
      exact hlong'
    · rw [holds_iff]
      intro i hi
      rw [List.length_set] at hi
      rw [List.getElem_set]
      split
      · next heq =>
        subst heq
        rw [hplace, Nat.add_assoc]
      · next hne =>
        rw [hother i hi (Ne.symm hne)]
        exact (holds_iff _ _ _).mp hbytes i hi
    · unfold cperStatus
      rw [List.getD_eq_getElem _ _ (by rwa [List.length_set]), List.getElem_set_self]
      rcases hstatus with hkept | hout
      · rw [hkept, ← hvalid]
        unfold cperStatus
        rw [List.getD_eq_getElem _ _ hindex]
        have hbyte := (holds_iff _ _ _).mp hbytes statusOffset hindex
        rw [hplace, Nat.add_assoc] at hbyte
        exact .inl hbyte
      · exact .inr hout
  · refine ⟨block, hblock, front.size, entry.bytes, by omega, hlong', ?_, .inl hvalid, rfl⟩
    apply hbytes.congr
    intro a ha ha'
    apply Underway.same hunderway hlong (hgap a ha ha')
    intro o ho
    obtain ⟨b, hb, front', entry', back', hlog', rfl⟩ := hold o ho
    obtain ⟨hlong'', hfront', hfits'⟩ := h.inside hb hlog'
    by_cases heq : block = b
    · subst heq
      unfold Config.place at ha ha'
      rcases Log.entries_apart (hlog.symm.trans hlog') with ⟨rfl, rfl⟩ | hbefore | hbehind
      · exact absurd ho hsame
      · omega
      · omega
    · have hapart : a < config.place b ∨ config.place b + config.blockSize ≤ a :=
        Config.place_disjoint heq a ⟨by omega, by omega⟩
      unfold Config.place at hapart
      omega

end Preserved

section Plan
variable {config : Config} {driver : Driver} {m image : Memory} {k : Nat} {cper : List UInt8}

theorem Plan.preserved_underway (plan : Plan config driver m k)
    (hcper : plan.entry.size ≤ cper.length) (h : plan.Underway cper image) :
    Preserved config image (plan.logs.contents config) := by
  have hlong := (plan.source.inside plan.sync.stored).1
  have hlength : ((persist cper statusIncoming).take plan.entry.size).length = plan.entry.size := by
    rw [List.length_take, length_persist]
    omega
  apply plan.sync.stored.preserved_underway (by omega) (by rw [hlength]; exact plan.room.fits) ?_ h
  intro o ho
  obtain rfl : o = plan.old := (Option.some.inj ho).symm
  exact ⟨plan.block, plan.source.bound, plan.front, plan.entry, plan.back, plan.source.log, rfl⟩

theorem Plan.same_after (plan : Plan config driver m k)
    (h : cper.take plan.entry.size = plan.entry.bytes) :
    Same config plan.logs (plan.after cper) := by
  have hlong := (plan.source.inside plan.sync.stored).1
  have hmoved := @Logs.contents_moved _ _ _ _ _ _ _ _ _ (plan.entry.copy cper) plan.source plan.room.bound
    plan.source.live
  have hcopy : (plan.entry.copy cper).contents = plan.entry.contents :=
    Prod.ext rfl (plan.entry.normalize_copy h)
  rw [hcopy] at hmoved
  refine ⟨add_right_cancel hmoved, fun hheaded => ?_⟩
  have hentry := hheaded plan.block plan.source.bound plan.entry (by simp [plan.source.log])
  exact hheaded.moved plan.source plan.room.bound hlong (hentry.copy hlong plan.source.live h)

theorem Plan.preserved_moved (plan : Plan config driver m k)
    (hcper : plan.entry.size ≤ cper.length) (h : cper.take plan.entry.size = plan.entry.bytes) :
    Preserved config (plan.image cper) (plan.logs.contents config) := by
  rw [← (plan.same_after h).contents]
  have hlong := (plan.source.inside plan.sync.stored).1
  exact (plan.sync.stored.move plan.source plan.room (plan.entry.size_copy hcper) hlong
    (plan.entry.status_copy hcper hlong)).preserved

end Plan

end Erst
