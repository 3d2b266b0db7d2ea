import Edk2Nvidia.Flash.Faults
import Edk2Nvidia.SequentialRecord.Scan

/-! The scans of a block whatever it holds and however its reads end. A scan is a chain of calls of
`IsValidRecord`, each at the end of the record the call before it accepted. -/
namespace SequentialRecord
open Flash Crc8

/-- The answer to a read, and the tape behind it. -/
abbrev Answer := (EfiStatus × List UInt8) × (Nat → Ending EfiStatus)

/-- How a read of the device comes out: an access outside the device is refused before the flash
sees it. -/
def answerTo (nor : NorFlash) (m : Memory) (offset size : Nat) (tape : Nat → Ending EfiStatus) : Answer :=
  if u32 size = 0 ∨ u32 offset > u32 (u32 nor.memoryDensity + (2 ^ 32 - 1)) ∨
      u32 (u32 offset + u32 size) > u32 nor.memoryDensity then
    ((.invalidParameter, []), tape)
  else
    (((tape 0).status, (tape 0).data m (u32 offset) (u32 size)), fun i => tape (i + 1))

theorem play_read (nor : NorFlash) (m : Memory) (offset size : Nat) (tape : Nat → Ending EfiStatus)
    (s : Unit) :
    play (nor.read offset size) s tape m =
      (some ((answerTo nor m offset size tape).1, s), m, (answerTo nor m offset size tape).2) := by
  unfold NorFlash.read answerTo
  dsimp only
  split <;> rfl

/-- `SizeBytes` of a header that was read. -/
def Answer.sizeBytes (header : Answer) : Nat := DataHdr.sizeBytes header.1.2

/-- With these answers to the header read and the record read, `IsValidRecord` gets as far as the
CRC. -/
structure ComputesCrc (this : Protocol) (header record : Answer) : Prop where
  headerRead : header.1.1.isError = false
  active : DataHdr.flags header.1.2 = activePageMagic
  pool : this.allocateZeroPool header.sizeBytes = true
  recordRead : record.1.1.isError = false

instance (this : Protocol) (header record : Answer) : Decidable (ComputesCrc this header record) :=
  decidable_of_iff (header.1.1.isError = false ∧ DataHdr.flags header.1.2 = activePageMagic ∧
      this.allocateZeroPool header.sizeBytes = true ∧ record.1.1.isError = false)
    ⟨fun h => ⟨h.1, h.2.1, h.2.2.1, h.2.2.2⟩, fun h => ⟨h.1, h.2, h.3, h.4⟩⟩

def CrcMatches (header record : Answer) : Prop :=
  DataHdr.crc8 header.1.2 = calculateCrc8 (record.1.2.drop offsetOfSizeBytes)
    (header.sizeBytes + (2 ^ 64 - offsetOfSizeBytes)) 0 typeCrc8Maxim

instance (header record : Answer) : Decidable (CrcMatches header record) :=
  inferInstanceAs (Decidable (_ = _))

/-- What `IsValidRecord` returns then, and what `*RecSize` holds behind it. -/
def verdict (this : Protocol) (recSize : Nat) (header record : Answer) : Bool × Nat :=
  if header.1.1.isError then
    (true, recSize)
  else if ComputesCrc this header record ∧ CrcMatches header record then
    (true, header.sizeBytes)
  else
    (false, recSize)

theorem verdict_false {this : Protocol} {recSize : Nat} {header record : Answer}
    (h : (verdict this recSize header record).1 = false) :
    (verdict this recSize header record).2 = recSize := by
  unfold verdict at h ⊢
  split at h
  · cases h
  · rename_i herror
    split at h
    · cases h
    · rename_i hcrc
      rw [if_neg herror, if_neg hcrc]

def behind (this : Protocol) (header record : Answer) : Nat → Ending EfiStatus :=
  if header.1.1.isError = false ∧ DataHdr.flags header.1.2 = activePageMagic ∧
      this.allocateZeroPool header.sizeBytes = true then
    record.2
  else
    header.2

theorem play_isValidRecord {this : Protocol} {nor : NorFlash} {m : Memory} {curOffset recSize : Nat}
    {tape : Nat → Ending EfiStatus} {header record : Answer} {s : Unit}
    (hheader : play (nor.read curOffset sizeofDataHdr) s tape m = (some (header.1, s), m, header.2))
    (hrecord : play (nor.read curOffset header.sizeBytes) s header.2 m =
      (some (record.1, s), m, record.2)) :
    play (isValidRecord this nor curOffset recSize) s tape m =
      (some (verdict this recSize header record, s), m, behind this header record) := by
  unfold isValidRecord
  rw [play_bind_some hheader]
  dsimp only
  rw [show DataHdr.sizeBytes header.1.2 = header.sizeBytes from rfl]
  by_cases herror : header.1.1.isError = true
  · have hbehind : behind this header record = header.2 := if_neg fun h => by simp [herror] at h
    rw [if_pos herror, verdict, if_pos herror, hbehind, play_pure]
  · have hok : header.1.1.isError = false := by simpa using herror
    rw [if_neg herror, verdict, if_neg herror]
    by_cases hflags : DataHdr.flags header.1.2 = activePageMagic
    · rw [if_pos hflags]
      by_cases hpool : this.allocateZeroPool header.sizeBytes = true
      · have hbehind : behind this header record = record.2 := if_pos ⟨hok, hflags, hpool⟩
        rw [if_pos hpool, play_bind_some hrecord, hbehind]
        by_cases hread : record.1.1.isError = true
        · have hcrc : ¬ (ComputesCrc this header record ∧ CrcMatches header record) := fun h => by
            simp [h.1.recordRead] at hread
          rw [if_pos hread, if_neg hcrc, play_pure]
        · have hserved : record.1.1.isError = false := by simpa using hread
          rw [if_neg hread]
          by_cases hcrc : CrcMatches header record
          · rw [if_pos (show DataHdr.crc8 _ = _ from hcrc), if_pos ⟨⟨hok, hflags, hpool, hserved⟩, hcrc⟩, play_pure]
          · rw [if_neg (show ¬ DataHdr.crc8 _ = _ from hcrc), if_neg fun h => hcrc h.2, play_pure]
      · have hbehind : behind this header record = header.2 := if_neg fun h => hpool h.2.2
        rw [if_neg hpool, hbehind, if_neg fun h => hpool h.1.pool, play_pure]
    · have hbehind : behind this header record = header.2 := if_neg fun h => hflags h.2.1
      rw [if_neg hflags, hbehind, if_neg fun h => hflags h.1.active, play_pure]

/-- A record of `size` bytes at the offset has a whole header and ends in the block. -/
def Inside (endOffset offset size : Nat) : Prop := sizeofDataHdr ≤ size ∧ offset + size ≤ endOffset

instance (endOffset offset size : Nat) : Decidable (Inside endOffset offset size) :=
  inferInstanceAs (Decidable (_ ∧ _))

/-- The number of bytes `CalculateCrc8` goes over; its `Size` is a `UINT16`. -/
def crcLength (sizeBytes : Nat) : Nat := (sizeBytes + (2 ^ 64 - offsetOfSizeBytes)) % 2 ^ 16

theorem crcLength_inside {sizeBytes : Nat} (h : offsetOfSizeBytes ≤ sizeBytes) :
    offsetOfSizeBytes + crcLength sizeBytes ≤ sizeBytes := by
  unfold crcLength offsetOfSizeBytes at *
  omega

/-- A call of `IsValidRecord`, with what `*RecSize` holds before it. -/
structure Call where
  curOffset : Nat
  recSize : Nat
  tape : Nat → Ending EfiStatus

namespace Call

section
variable (this : Protocol) (nor : NorFlash) (m : Memory) (endOffset : Nat) (c : Call)

def header : Answer := answerTo nor m c.curOffset sizeofDataHdr c.tape

def record : Answer := answerTo nor m c.curOffset (c.header nor m).sizeBytes (c.header nor m).2

def result : Bool × Nat := verdict this c.recSize (c.header nor m) (c.record nor m)

theorem play_eq (s : Unit) :
    play (isValidRecord this nor c.curOffset c.recSize) s c.tape m =
      (some (c.result this nor m, s), m, behind this (c.header nor m) (c.record nor m)) :=
  play_isValidRecord (play_read nor m _ _ _ s) (play_read nor m _ _ _ s)

/-- The call accepts only records of the block, and goes with the CRC only over bytes it has read. -/
def Proper : Prop :=
  ((c.result this nor m).1 = true → Inside endOffset c.curOffset (c.result this nor m).2) ∧
    (ComputesCrc this (c.header nor m) (c.record nor m) →
      offsetOfSizeBytes ≤ (c.header nor m).sizeBytes ∧
        offsetOfSizeBytes + crcLength (c.header nor m).sizeBytes ≤ (c.header nor m).sizeBytes)

/-- The flash gives the call nothing to go wrong with: the header can be read, or the size left over
from the record before fits again, and an active header that the CRC is computed for has a size that
covers the size field and, with the CRC it has, the size of a record of the block. -/
def Fine : Prop :=
  ((c.header nor m).1.1.isError = true → Inside endOffset c.curOffset c.recSize) ∧
    (ComputesCrc this (c.header nor m) (c.record nor m) →
      offsetOfSizeBytes ≤ (c.header nor m).sizeBytes ∧
        (CrcMatches (c.header nor m) (c.record nor m) →
          Inside endOffset c.curOffset (c.header nor m).sizeBytes))

theorem proper_iff : c.Proper this nor m endOffset ↔ c.Fine this nor m endOffset := by
  unfold Proper Fine result verdict
  generalize c.header nor m = header
  generalize c.record nor m = record
  by_cases herror : header.1.1.isError = true
  · have hcrc : ¬ ComputesCrc this header record := fun h => by simp [h.headerRead] at herror
    simp [herror, hcrc]
  · by_cases hcrc : ComputesCrc this header record
    · by_cases hmatch : CrcMatches header record
      · simp only [herror, hcrc, hmatch, and_self, if_true, if_false, Bool.false_eq_true, true_implies,
          false_implies, true_and]
        exact ⟨fun h => ⟨h.2.1, h.1⟩, fun h => ⟨h.2, h.1, crcLength_inside h.1⟩⟩
      · simp only [herror, hcrc, hmatch, and_false, if_false, Bool.false_eq_true, true_implies,
          false_implies, true_and, and_true]
        exact ⟨fun h => h.1, fun h => ⟨h, crcLength_inside h⟩⟩
    · simp [herror, hcrc]

/-- The call at the end of the record this one has accepted. -/
def next : Call :=
  ⟨u32 (c.curOffset + (c.result this nor m).2), (c.result this nor m).2,
    behind this (c.header nor m) (c.record nor m)⟩

end

end Call

section
variable (this : Protocol) (nor : NorFlash) (m : Memory) (endOffset : Nat)

/-- The scan that begins with the call `c` comes to make the call `c'`, the `n`th behind it. -/
inductive Makes : Call → Nat → Call → Prop where
  | now {c : Call} (inside : c.curOffset < endOffset) : Makes c 0 c
  | later {c c' : Call} {n : Nat} (inside : c.curOffset < endOffset)
      (accepted : (c.result this nor m).1 = true) (makes : Makes (c.next this nor m) n c') :
      Makes c (n + 1) c'

variable {this nor m endOffset} {c : Call} {s : Unit}

/-- A call that is proper brings the scan further, and not out of the block. -/
theorem Call.Proper.advances (h : c.Proper this nor m endOffset) (hend : endOffset < 2 ^ 32)
    (haccepted : (c.result this nor m).1 = true) :
    c.curOffset < (c.next this nor m).curOffset ∧ (c.next this nor m).curOffset ≤ endOffset := by
  obtain ⟨hsize, hinside⟩ := h.1 haccepted
  unfold sizeofDataHdr at hsize
  rw [Call.next, u32_of_lt (by omega)]
  dsimp only
  omega

theorem Call.next_eq {valid : Bool} {size : Nat} (h : c.result this nor m = (valid, size)) :
    c.next this nor m = ⟨u32 (c.curOffset + size), size, behind this (c.header nor m) (c.record nor m)⟩ := by
  rw [Call.next, h]

theorem Call.result_false {size : Nat} (h : c.result this nor m = (false, size)) : size = c.recSize := by
  rw [Call.result] at h
  have hfalse := verdict_false (congrArg Prod.fst h)
  rw [h] at hfalse
  exact hfalse

variable (this nor) in
/-- What a turn of a scan makes of its call: it stops, or goes on with the next call. -/
theorem play_turn {α : Type} (f : Bool × Nat → SeqM α) :
    ((c.result this nor m).1 = false ∧ ∃ rest,
      play (isValidRecord this nor c.curOffset c.recSize >>= f) s c.tape m =
        play (f (false, c.recSize)) s rest m) ∨
    ((c.result this nor m).1 = true ∧
      (c.next this nor m).curOffset = u32 (c.curOffset + (c.next this nor m).recSize) ∧
      play (isValidRecord this nor c.curOffset c.recSize >>= f) s c.tape m =
        play (f (true, (c.next this nor m).recSize)) s (c.next this nor m).tape m) := by
  have hplay := c.play_eq this nor m s
  cases hresult : c.result this nor m with
  | mk valid size =>
    rw [hresult] at hplay
    rw [play_bind_some hplay]
    cases valid with
    | false =>
      left
      rw [Call.result_false hresult]
      exact ⟨rfl, _, rfl⟩
    | true =>
      right
      rw [Call.next_eq hresult]
      exact ⟨rfl, rfl, rfl⟩

theorem readLastScan_ends (hend : endOffset < 2 ^ 32)
    (hproper : ∀ n c', Makes this nor m endOffset c n c' → c'.Proper this nor m endOffset) (fuel : Nat)
    (hfuel : 0 < fuel ∧ endOffset < c.curOffset + fuel) (prevOffset prevSize : Nat) :
    ∃ r rest, play (readLastScan this nor endOffset fuel c.curOffset c.recSize prevOffset prevSize) s c.tape m =
      (some (r, s), m, rest) := by
  induction fuel generalizing c prevOffset prevSize with
  | zero => exact absurd hfuel.1 (by decide)
  | succ fuel ih =>
    rw [readLastScan]
    by_cases hcur : c.curOffset < endOffset
    · rw [if_pos hcur]
      rcases play_turn this nor (m := m) (c := c) (s := s) _ with
        ⟨-, _, hplay⟩ | ⟨haccepted, hoffset, hplay⟩
      · rw [hplay]
        exact ⟨_, _, rfl⟩
      · obtain ⟨hfurther, hinside⟩ := (hproper 0 c (.now hcur)).advances hend haccepted
        rw [hplay]
        dsimp only
        rw [if_pos rfl, ← hoffset]
        exact ih (fun n c' hmakes => hproper (n + 1) c' (.later hcur haccepted hmakes)) (by omega) _ _
    · rw [if_neg hcur]
      exact ⟨_, _, rfl⟩

theorem countRecords_ends (hend : endOffset < 2 ^ 32)
    (hproper : ∀ n c', Makes this nor m endOffset c n c' → c'.Proper this nor m endOffset) (fuel : Nat)
    (hfuel : 0 < fuel ∧ endOffset < c.curOffset + fuel) (recordCount : Nat) :
    ∃ r rest, play (countRecords this nor endOffset fuel c.curOffset c.recSize recordCount) s c.tape m =
      (some (r, s), m, rest) := by
  induction fuel generalizing c recordCount with
  | zero => exact absurd hfuel.1 (by decide)
  | succ fuel ih =>
    rw [countRecords]
    by_cases hcur : c.curOffset < endOffset
    · rw [if_pos hcur]
      rcases play_turn this nor (m := m) (c := c) (s := s) _ with
        ⟨-, _, hplay⟩ | ⟨haccepted, hoffset, hplay⟩
      · rw [hplay]
        exact ⟨_, _, rfl⟩
      · obtain ⟨hfurther, hinside⟩ := (hproper 0 c (.now hcur)).advances hend haccepted
        rw [hplay]
        dsimp only
        rw [if_pos rfl, ← hoffset]
        exact ih (fun n c' hmakes => hproper (n + 1) c' (.later hcur haccepted hmakes)) (by omega) _
    · rw [if_neg hcur]
      exact ⟨_, _, rfl⟩

/-- The second loop makes no call behind the record it looks for. -/
theorem findRecord_ends (hend : endOffset < 2 ^ 32) (targetIndex fuel recordCount : Nat)
    (hproper : ∀ n c', Makes this nor m endOffset c n c' → recordCount + n ≤ targetIndex →
      c'.Proper this nor m endOffset) (hcount : recordCount ≤ targetIndex)
    (hfuel : 0 < fuel ∧ endOffset < c.curOffset + fuel) :
    ∃ r rest, play (findRecord this nor endOffset targetIndex fuel c.curOffset c.recSize recordCount) s c.tape m =
      (some (r, s), m, rest) := by
  induction fuel generalizing c recordCount with
  | zero => exact absurd hfuel.1 (by decide)
  | succ fuel ih =>
    rw [findRecord]
    by_cases hcur : c.curOffset < endOffset
    · rw [if_pos hcur]
      rcases play_turn this nor (m := m) (c := c) (s := s) _ with
        ⟨-, _, hplay⟩ | ⟨haccepted, hoffset, hplay⟩
      · rw [hplay]
        exact ⟨_, _, rfl⟩
      · obtain ⟨hfurther, hinside⟩ := (hproper 0 c (.now hcur) hcount).advances hend haccepted
        rw [hplay]
        dsimp only
        rw [if_pos rfl, ← hoffset]
        split
        · exact ⟨_, _, rfl⟩
        · refine ih (recordCount + 1) (fun n c' hmakes hle => ?_) (by omega) (by omega)
          exact hproper (n + 1) c' (.later hcur haccepted hmakes) (by omega)
    · rw [if_neg hcur]
      exact ⟨_, _, rfl⟩

/-! The block a scan goes over. -/

def blockStart (blockNum : Nat) : Nat := u32 (blockNum * seqBlockSize)

def blockEnd (blockNum : Nat) : Nat := u32 (blockStart blockNum + seqBlockSize)

theorem blockEnd_lt (blockNum : Nat) : blockEnd blockNum < 2 ^ 32 := Nat.mod_lt _ (by decide)

theorem scan_fuel (blockNum : Nat) : 0 < seqBlockSize + 1 ∧
    blockEnd blockNum < blockStart blockNum + (seqBlockSize + 1) := by
  have hle : blockEnd blockNum ≤ blockStart blockNum + seqBlockSize := Nat.mod_le _ _
  omega

theorem getReadLastOffset_ends {blockNum : Nat} {tape : Nat → Ending EfiStatus}
    (hproper : ∀ n c, Makes this nor m (blockEnd blockNum) ⟨blockStart blockNum, 0, tape⟩ n c →
      c.Proper this nor m (blockEnd blockNum)) :
    (play (getReadLastOffset this nor blockNum) s tape m).1.isSome = true := by
  obtain ⟨r, rest, hplay⟩ := readLastScan_ends (s := s) (blockEnd_lt blockNum) hproper _ (scan_fuel blockNum)
    (blockStart blockNum) 0
  rw [getReadLastOffset]
  rw [show u32 (u32 (blockNum * seqBlockSize) + seqBlockSize) = blockEnd blockNum from rfl,
    show u32 (blockNum * seqBlockSize) = blockStart blockNum from rfl, hplay]
  rfl

/-- The first loop of `GetNthRecordFromEnd`. -/
def counting (this : Protocol) (nor : NorFlash) (m : Memory) (blockNum curSize : Nat)
    (tape : Nat → Ending EfiStatus) : Option ((Nat × Nat) × Unit) × Memory × (Nat → Ending EfiStatus) :=
  play (countRecords this nor (blockEnd blockNum) (seqBlockSize + 1) (blockStart blockNum) curSize 0) () tape m

/-- The calls `GetNthRecordFromEnd` makes: those of the count, and then those of the search up to the
record it looks for. -/
inductive Visits (this : Protocol) (nor : NorFlash) (m : Memory) (blockNum nthFromEnd curSize : Nat)
    (tape : Nat → Ending EfiStatus) : Call → Prop where
  | count {n : Nat} {c : Call} (hnth : nthFromEnd ≠ 0)
      (makes : Makes this nor m (blockEnd blockNum) ⟨blockStart blockNum, curSize, tape⟩ n c) :
      Visits this nor m blockNum nthFromEnd curSize tape c
  | find {n recordCount curSize' : Nat} {rest : Nat → Ending EfiStatus} {c : Call} (hnth : nthFromEnd ≠ 0)
      (counted : counting this nor m blockNum curSize tape = (some ((recordCount, curSize'), ()), m, rest))
      (enough : nthFromEnd ≤ recordCount) (upTo : n ≤ recordCount - nthFromEnd)
      (makes : Makes this nor m (blockEnd blockNum) ⟨blockStart blockNum, curSize', rest⟩ n c) :
      Visits this nor m blockNum nthFromEnd curSize tape c

theorem getNthRecordFromEnd_ends {blockNum nthFromEnd curSize : Nat} {tape : Nat → Ending EfiStatus}
    (hproper : ∀ c, Visits this nor m blockNum nthFromEnd curSize tape c →
      c.Proper this nor m (blockEnd blockNum)) :
    (play (getNthRecordFromEnd this nor blockNum nthFromEnd curSize) () tape m).1.isSome = true := by
  rw [getNthRecordFromEnd]
  by_cases hnth : nthFromEnd = 0
  · rw [if_pos hnth]
    rfl
  · rw [if_neg hnth]
    dsimp only
    obtain ⟨⟨recordCount, curSize'⟩, rest, hcount⟩ := countRecords_ends (s := ())
      (c := ⟨blockStart blockNum, curSize, tape⟩) (blockEnd_lt blockNum)
      (fun n c hmakes => hproper c (.count hnth hmakes)) _ (scan_fuel blockNum) 0
    rw [show u32 (u32 (blockNum * seqBlockSize) + seqBlockSize) = blockEnd blockNum from rfl,
      show u32 (blockNum * seqBlockSize) = blockStart blockNum from rfl, play_bind_some hcount]
    dsimp only
    split
    · rfl
    · rename_i henough
      obtain ⟨r, rest', hfind⟩ := findRecord_ends (s := ()) (c := ⟨blockStart blockNum, curSize', rest⟩)
        (blockEnd_lt blockNum) (recordCount - nthFromEnd) (seqBlockSize + 1) 0
        (fun n c hmakes hle => hproper c
          (.find hnth hcount (Nat.le_of_not_lt henough) (by omega) hmakes)) (Nat.zero_le _) (scan_fuel blockNum)
      rw [hfind]
      rfl

end

/-- A scan ends, accepts only records of its block and computes CRCs only over what it has read, just
if every call it makes of `IsValidRecord` finds nothing on the flash to go wrong with. -/
theorem scans_proper_iff (this : Protocol) (nor : NorFlash) (m : Memory) (blockNum : Nat)
    (tape : Nat → Ending EfiStatus) :
    ((play (getReadLastOffset this nor blockNum) () tape m).1.isSome = true ∧
        (∀ n c, Makes this nor m (blockEnd blockNum) ⟨blockStart blockNum, 0, tape⟩ n c →
          c.Proper this nor m (blockEnd blockNum)) ↔
      ∀ n c, Makes this nor m (blockEnd blockNum) ⟨blockStart blockNum, 0, tape⟩ n c →
        c.Fine this nor m (blockEnd blockNum)) ∧
    ∀ nthFromEnd curSize,
      ((play (getNthRecordFromEnd this nor blockNum nthFromEnd curSize) () tape m).1.isSome = true ∧
          (∀ c, Visits this nor m blockNum nthFromEnd curSize tape c → c.Proper this nor m (blockEnd blockNum)) ↔
        ∀ c, Visits this nor m blockNum nthFromEnd curSize tape c → c.Fine this nor m (blockEnd blockNum)) := by
  simp only [← Call.proper_iff]
  refine ⟨⟨fun h => h.2, fun h => ⟨getReadLastOffset_ends h, h⟩⟩, fun nthFromEnd curSize => ?_⟩
  exact ⟨fun h => h.2, fun h => ⟨getNthRecordFromEnd_ends h, h⟩⟩

/-! What goes wrong on a flash that does not answer, and with a record of one byte. -/

def samplePool : Protocol where
  partitionInfo := ⟨0, 2 * 65536⟩
  norFlashProtocol := fun _ => some ⟨2 * 65536, 4096⟩
  norFlashAttributes := ⟨2 * 65536, 4096⟩
  allocateZeroPool := fun _ => true

def noAnswer : Nat → Ending EfiStatus := fun _ => .failed ⟨.deviceError, deviceError_ne_ok⟩ 0

/-- An active header with `SizeBytes` 1. -/
def oneByteRecord : Memory
  | 0 => activePageMagic
  | 4 => 1
  | 5 | 6 | 7 => 0
  | _ => eraseByte

theorem header_noAnswer (m : Memory) :
    (Call.mk 0 0 noAnswer).header ⟨2 * 65536, 4096⟩ m = ((.deviceError, []), noAnswer) := by
  rw [Call.header, answerTo, if_neg (by decide)]
  rfl

theorem result_noAnswer (m : Memory) :
    (Call.mk 0 0 noAnswer).result samplePool ⟨2 * 65536, 4096⟩ m = (true, 0) := by
  rw [Call.result, header_noAnswer]
  rfl

theorem next_noAnswer (m : Memory) :
    (Call.mk 0 0 noAnswer).next samplePool ⟨2 * 65536, 4096⟩ m = ⟨0, 0, noAnswer⟩ := by
  rw [Call.next_eq (result_noAnswer m), header_noAnswer, behind, if_neg (by decide)]
  rfl

theorem scan_not_proper :
    (∀ fuel m, (play (readLastScan samplePool ⟨2 * 65536, 4096⟩ 65536 fuel 0 0 0 0) () noAnswer m).1 = none) ∧
      ¬ (Call.mk 0 0 fun _ => .ok).Proper samplePool ⟨2 * 65536, 4096⟩ oneByteRecord 65536 := by
  constructor
  · intro fuel m
    induction fuel with
    | zero => rfl
    | succ fuel ih =>
      rw [readLastScan, if_pos (by decide)]
      rcases play_turn samplePool ⟨2 * 65536, 4096⟩ (m := m) (c := ⟨0, 0, noAnswer⟩) (s := ()) _
        with ⟨hstop, -⟩ | ⟨-, -, hplay⟩
      · rw [result_noAnswer] at hstop
        cases hstop
      · rw [next_noAnswer] at hplay
        rw [hplay]
        exact ih
  · intro hproper
    have hcrc : ComputesCrc samplePool ((Call.mk 0 0 fun _ => .ok).header ⟨2 * 65536, 4096⟩ oneByteRecord)
        ((Call.mk 0 0 fun _ => .ok).record ⟨2 * 65536, 4096⟩ oneByteRecord) := by
      constructor <;> decide +kernel
    have hsize := (hproper.2 hcrc).1
    revert hsize
    decide +kernel

end SequentialRecord
