import Edk2Nvidia.SequentialRecord.Storage

/-! What the two scans of a block return when records stand back to back from its
start. -/
namespace SequentialRecord
open Flash Crc8

theorem seqBlockSize_eq : seqBlockSize = 65536 := by
  unfold seqBlockSize
  rfl

theorem seqBlockSize_pos : 0 < seqBlockSize := by
  rw [seqBlockSize_eq]
  decide

theorem block_succ (b : Nat) : (b + 1) * seqBlockSize = b * seqBlockSize + seqBlockSize := by
  rw [Nat.add_mul, Nat.one_mul]

def recordSize (payload : List UInt8) : Nat := payload.length + sizeofDataHdr

/-- The record of a payload, as it stands on the flash. -/
def encode (payload : List UInt8) : List UInt8 := makeRecord (recordSize payload) payload

def logBytes (payloads : List (List UInt8)) : List UInt8 := payloads.flatMap encode

def logSize (payloads : List (List UInt8)) : Nat := (payloads.map recordSize).sum

@[simp] theorem length_makeRecord (recSize : Nat) (payload : List UInt8) :
    (makeRecord recSize payload).length = payload.length + sizeofDataHdr := by
  simp only [makeRecord, sizeofDataHdr, List.length_append, List.length_cons, List.length_nil,
    length_toLittleEndian]
  omega

@[simp] theorem length_encode (payload : List UInt8) :
    (encode payload).length = recordSize payload :=
  length_makeRecord _ _

theorem recordSize_pos (payload : List UInt8) : 0 < recordSize payload := by
  simp only [recordSize, sizeofDataHdr]
  omega

@[simp] theorem logBytes_nil : logBytes [] = [] := rfl
@[simp] theorem logSize_nil : logSize [] = 0 := rfl

@[simp] theorem logBytes_cons (p : List UInt8) (ps : List (List UInt8)) :
    logBytes (p :: ps) = encode p ++ logBytes ps := rfl

@[simp] theorem logSize_cons (p : List UInt8) (ps : List (List UInt8)) :
    logSize (p :: ps) = recordSize p + logSize ps := by
  simp [logSize]

@[simp] theorem logSize_append (ps qs : List (List UInt8)) :
    logSize (ps ++ qs) = logSize ps + logSize qs := by
  simp [logSize]

@[simp] theorem logBytes_append (ps qs : List (List UInt8)) :
    logBytes (ps ++ qs) = logBytes ps ++ logBytes qs := by
  simp [logBytes]

@[simp] theorem length_logBytes (ps : List (List UInt8)) : (logBytes ps).length = logSize ps := by
  induction ps with
  | nil => rfl
  | cons p ps ih => simp [ih]

theorem length_le_logSize (ps : List (List UInt8)) : ps.length ≤ logSize ps := by
  induction ps with
  | nil => simp
  | cons p ps ih =>
    have := recordSize_pos p
    simp only [List.length_cons, logSize_cons]
    omega

/-! The header of a record. -/

/-- A header with the given CRC and size. -/
def header (crc8 : UInt8) (recSize : Nat) : DataHdr :=
  [activePageMagic, eraseByte, eraseByte, crc8] ++ toLittleEndian 4 recSize

@[simp] theorem length_header (crc8 : UInt8) (recSize : Nat) :
    (header crc8 recSize).length = sizeofDataHdr := by
  simp [header, sizeofDataHdr]

@[simp] theorem flags_header (crc8 : UInt8) (recSize : Nat) :
    DataHdr.flags (header crc8 recSize) = activePageMagic := rfl

@[simp] theorem crc8_header (crc8 : UInt8) (recSize : Nat) :
    DataHdr.crc8 (header crc8 recSize) = crc8 := rfl

theorem sizeBytes_header (crc8 : UInt8) (recSize : Nat) (h : recSize < 2 ^ 32) :
    DataHdr.sizeBytes (header crc8 recSize) = recSize := by
  have htake : (toLittleEndian 4 recSize).take 4 = toLittleEndian 4 recSize :=
    List.take_of_length_le (by simp)
  simp only [DataHdr.sizeBytes, header, field, offsetOfSizeBytes, List.cons_append, List.nil_append,
    List.drop_succ_cons, List.drop_zero, htake]
  exact fromLittleEndian_toLittleEndian 4 recSize (by omega)

/-- The CRC a record of this payload carries. -/
def payloadCrc8 (payload : List UInt8) : UInt8 := recordCrc8 (recordSize payload) payload

theorem encode_eq (payload : List UInt8) :
    encode payload = header (payloadCrc8 payload) (recordSize payload) ++ payload := rfl

/-! One record. -/

section
variable {this : Protocol} {nor : NorFlash} {m : Memory} {offset : Nat}

theorem slice_flags : DataHdr.flags (slice m offset sizeofDataHdr) = m offset := by
  rw [DataHdr.flags, getD_slice _ _ _ _ _ (by decide), Nat.add_zero]

theorem isValidRecord_notActive (hc : nor.Covers offset sizeofDataHdr)
    (hf : m offset ≠ activePageMagic) (recSize : Nat) :
    Returns (isValidRecord this nor offset recSize) (false, recSize) () m := by
  refine (NorFlash.returns_read hc).bind ?_
  simp only [EfiStatus.isError_success, Bool.false_eq_true, if_false, slice_flags, hf]
  exact returns_pure _

theorem isValidRecord_noPool (hc : nor.Covers offset sizeofDataHdr)
    (hf : m offset = activePageMagic)
    (hp : this.allocateZeroPool (DataHdr.sizeBytes (slice m offset sizeofDataHdr)) = false)
    (recSize : Nat) : Returns (isValidRecord this nor offset recSize) (false, recSize) () m := by
  refine (NorFlash.returns_read hc).bind ?_
  simp only [EfiStatus.isError_success, Bool.false_eq_true, if_false, slice_flags, hf, if_true, hp]
  exact returns_pure _

theorem isValidRecord_header {crc8 : UInt8} {payload : List UInt8}
    (hc : nor.Covers offset (recordSize payload))
    (hh : Holds m offset (header crc8 (recordSize payload) ++ payload))
    (hp : this.allocateZeroPool (recordSize payload) = true) (recSize : Nat) :
    Returns (isValidRecord this nor offset recSize)
      (if crc8 = payloadCrc8 payload then (true, recordSize payload) else (false, recSize)) () m := by
  have hlt : recordSize payload < 2 ^ 32 := by
    have := hc.inside
    have := hc.addressable
    omega
  have hsub : nor.Covers offset sizeofDataHdr :=
    hc.sub (by decide) (by simp only [recordSize]; omega)
  have hslice : slice m offset sizeofDataHdr = header crc8 (recordSize payload) := by
    rw [holds_append] at hh
    rw [← length_header crc8 (recordSize payload)]
    exact hh.1
  have hall : slice m offset (recordSize payload) = header crc8 (recordSize payload) ++ payload := by
    have hlen : (header crc8 (recordSize payload) ++ payload).length = recordSize payload := by
      simp only [List.length_append, length_header, recordSize]
      omega
    rw [← hlen]
    exact hh
  refine (NorFlash.returns_read hsub).bind ?_
  simp only [hslice, EfiStatus.isError_success, Bool.false_eq_true, if_false, flags_header, if_true,
    sizeBytes_header _ _ hlt, hp]
  refine (NorFlash.returns_read hc).bind ?_
  have hdrop : (header crc8 (recordSize payload) ++ payload).drop offsetOfSizeBytes =
      toLittleEndian 4 (recordSize payload) ++ payload := rfl
  have hcrc : calculateCrc8 (toLittleEndian 4 (recordSize payload) ++ payload)
      (recordSize payload + (2 ^ 64 - offsetOfSizeBytes)) 0 typeCrc8Maxim = payloadCrc8 payload := by
    simp only [payloadCrc8, recordCrc8]
  simp only [hall, hdrop, hcrc, EfiStatus.isError_success, Bool.false_eq_true, if_false, crc8_header]
  generalize payloadCrc8 payload = computedCrc8
  by_cases h : crc8 = computedCrc8
  · rw [if_pos h, if_pos h]
    exact returns_pure _
  · rw [if_neg h, if_neg h]
    exact returns_pure _

theorem isValidRecord_encode {payload : List UInt8} (hc : nor.Covers offset (recordSize payload))
    (hh : Holds m offset (encode payload))
    (hp : this.allocateZeroPool (recordSize payload) = true) (recSize : Nat) :
    Returns (isValidRecord this nor offset recSize) (true, recordSize payload) () m := by
  rw [encode_eq] at hh
  simpa using isValidRecord_header hc hh hp recSize

theorem isValidRecord_badCrc {crc8 : UInt8} {payload : List UInt8}
    (hc : nor.Covers offset (recordSize payload))
    (hh : Holds m offset (header crc8 (recordSize payload) ++ payload))
    (hp : this.allocateZeroPool (recordSize payload) = true) (hbad : crc8 ≠ payloadCrc8 payload)
    (recSize : Nat) : Returns (isValidRecord this nor offset recSize) (false, recSize) () m := by
  simpa only [hbad, if_false] using isValidRecord_header hc hh hp recSize

end

/-! The scans over a block. -/

/-- A scan that reaches `offset` goes no further. -/
def ScanStops (this : Protocol) (nor : NorFlash) (m : Memory) (endOffset offset : Nat) : Prop :=
  offset = endOffset ∨
    ∀ recSize, Returns (isValidRecord this nor offset recSize) (false, recSize) () m

/-- The offset and size of the last record, or of what was there before. -/
def lastRecord (curOffset prevOffset prevSize : Nat) : List (List UInt8) → Nat × Nat
  | [] => (prevOffset, prevSize)
  | p :: ps => lastRecord (curOffset + recordSize p) curOffset (recordSize p) ps

theorem lastRecord_concat (curOffset prevOffset prevSize : Nat) (ps : List (List UInt8))
    (p : List UInt8) : lastRecord curOffset prevOffset prevSize (ps ++ [p]) =
      (curOffset + logSize ps, recordSize p) := by
  induction ps generalizing curOffset prevOffset prevSize with
  | nil => rfl
  | cons q ps ih =>
    simp only [List.cons_append, lastRecord, ih, logSize_cons, Nat.add_assoc]

section
variable {this : Protocol} {nor : NorFlash} {m : Memory} {endOffset : Nat}

/-- The records `ps` stand at `curOffset`, inside what the device covers, and the
scan ends behind them. -/
structure Scannable (this : Protocol) (nor : NorFlash) (m : Memory) (endOffset curOffset : Nat)
    (ps : List (List UInt8)) : Prop where
  holds : Holds m curOffset (logBytes ps)
  inside : curOffset + logSize ps ≤ endOffset
  covered : endOffset ≤ nor.memoryDensity
  addressable : nor.memoryDensity < 2 ^ 32
  pool : ∀ p ∈ ps, this.allocateZeroPool (recordSize p) = true
  stops : ScanStops this nor m endOffset (curOffset + logSize ps)

theorem Scannable.tail {curOffset : Nat} {p : List UInt8} {ps : List (List UInt8)}
    (h : Scannable this nor m endOffset curOffset (p :: ps)) :
    Scannable this nor m endOffset (curOffset + recordSize p) ps := by
  obtain ⟨hholds, hin, hcov, haddr, hpool, hstop⟩ := h
  rw [logBytes_cons, holds_append, length_encode] at hholds
  rw [logSize_cons] at hin hstop
  exact ⟨hholds.2, by omega, hcov, haddr, fun q hq => hpool q (by simp [hq]),
    by rwa [Nat.add_assoc]⟩

theorem Scannable.first {curOffset : Nat} {p : List UInt8} {ps : List (List UInt8)}
    (h : Scannable this nor m endOffset curOffset (p :: ps)) (recSize : Nat) :
    Returns (isValidRecord this nor curOffset recSize) (true, recordSize p) () m := by
  have hholds := h.holds
  rw [logBytes_cons, holds_append] at hholds
  have hin := h.inside
  rw [logSize_cons] at hin
  have hcov := h.covered
  exact isValidRecord_encode ⟨recordSize_pos p, by omega, h.addressable⟩ hholds.1
    (h.pool p (by simp)) recSize

theorem Scannable.next {curOffset : Nat} {p : List UInt8} {ps : List (List UInt8)}
    (h : Scannable this nor m endOffset curOffset (p :: ps)) :
    curOffset < endOffset ∧ u32 (curOffset + recordSize p) = curOffset + recordSize p := by
  have hin := h.inside
  have hcov := h.covered
  have haddr := h.addressable
  have hpos := recordSize_pos p
  rw [logSize_cons] at hin
  exact ⟨by omega, u32_of_lt (by omega)⟩

theorem readLastScan_eq {curOffset : Nat} {ps : List (List UInt8)}
    (h : Scannable this nor m endOffset curOffset ps) {fuel : Nat} (hfuel : ps.length < fuel)
    (curSize prevOffset prevSize : Nat) :
    Returns (readLastScan this nor endOffset fuel curOffset curSize prevOffset prevSize)
      (lastRecord curOffset prevOffset prevSize ps) () m := by
  induction ps generalizing fuel curOffset curSize prevOffset prevSize with
  | nil =>
    obtain ⟨fuel, rfl⟩ := Nat.exists_eq_add_of_lt hfuel
    simp only [List.length_nil, Nat.zero_add, readLastScan]
    split
    next hlt =>
      rcases h.stops with hend | hstop
      · simp only [logSize_nil, Nat.add_zero] at hend
        omega
      · rw [logSize_nil, Nat.add_zero] at hstop
        refine (hstop curSize).bind ?_
        exact returns_pure _
    next => exact returns_pure _
  | cons p ps ih =>
    obtain ⟨fuel, rfl⟩ := Nat.exists_eq_add_of_lt hfuel
    obtain ⟨hlt, hu⟩ := h.next
    rw [readLastScan, if_pos hlt]
    refine (h.first curSize).bind ?_
    simp only [if_true, hu]
    exact ih h.tail (by simp only [List.length_cons]; omega) _ _ _

end

end SequentialRecord
