import Edk2Nvidia.Flash.Commands
import Edk2Nvidia.NorFlash
import Edk2Nvidia.SequentialRecord.Storage

/-! The storage half of the CMET record driver: one record, kept twice, each copy at the start of
a 64 KB block of its own, and the handler that passes a mailbox request on to it. -/
namespace CmetRecord
open Flash SequentialRecord

def cmetMinPartitionBlocks : Nat := 2
def numCmetRecords : Nat := 2
@[irreducible] def cmetBlockSize : Nat := 65536

theorem cmetBlockSize_eq : cmetBlockSize = 65536 := by
  unfold cmetBlockSize
  rfl

/-- `NVIDIA_CMET_RECORD_PROTOCOL`, with the flash attributes the driver keeps in a global. -/
structure Protocol where
  partitionInfo : PartitionInfo
  norFlashProtocol : Nat → Option NorFlash
  norFlashAttributes : NorFlash
  /-- What `CmetStorageInit` assumes when it asks socket 0 alone. -/
  same : ∀ socketNum nor, norFlashProtocol socketNum = some nor → nor = norFlashAttributes

abbrev CmetM := FlashM EfiStatus Unit

def validatePartitionInfo (norFlashAttributes : NorFlash) (partition : PartitionInfo) : EfiStatus :=
  if norFlashAttributes.blockSize > cmetBlockSize ∨
      cmetBlockSize % norFlashAttributes.blockSize ≠ 0 then
    .invalidParameter
  else if partition.partitionSize / cmetBlockSize < cmetMinPartitionBlocks then
    .invalidParameter
  else
    .success

def eraseRecord (this : Protocol) (recordOffset : Nat) (nor : NorFlash) : CmetM EfiStatus :=
  let eraseBlocks := cmetBlockSize / this.norFlashAttributes.blockSize
  let eraseBlockNum := recordOffset / this.norFlashAttributes.blockSize
  nor.erase eraseBlockNum eraseBlocks

def Protocol.cmetRecordReadOffset (this : Protocol) (primaryRecord : Nat) : Nat :=
  let offset := u32 this.partitionInfo.partitionByteOffset
  if primaryRecord = 0 then u32 (offset + cmetBlockSize) else offset

def cmetReadRecord (this : Protocol) (socketNum bufSize primaryRecord : Nat) :
    CmetM (EfiStatus × List UInt8) :=
  if bufSize > cmetBlockSize then
    pure (.invalidParameter, [])
  else if socketNum ≥ maxSockets then
    pure (.invalidParameter, [])
  else
    match this.norFlashProtocol socketNum with
    | none => pure (.deviceError, [])
    | some nor => nor.read (this.cmetRecordReadOffset primaryRecord) bufSize

/-- One pass of the loop of `CmetWriteRecord`. -/
def writeCopy (this : Protocol) (nor : NorFlash) (inBuf : List UInt8) (erase cmetOffset : Nat) :
    CmetM EfiStatus := do
  let status ← if erase = 1 then eraseRecord this cmetOffset nor else pure .success
  if status.isError then
    pure status
  else
    nor.write cmetOffset inBuf

/-- The passes of the loop that are left. -/
def writeCopies (this : Protocol) (nor : NorFlash) (inBuf : List UInt8) (erase : Nat) :
    Nat → Nat → CmetM EfiStatus
  | 0, _ => pure .success
  | records + 1, cmetOffset => do
    let status ← writeCopy this nor inBuf erase cmetOffset
    if status.isError then
      pure status
    else
      writeCopies this nor inBuf erase records (u32 (cmetOffset + cmetBlockSize))

def cmetWriteRecord (this : Protocol) (socketNum : Nat) (inBuf : List UInt8) (erase : Nat) :
    CmetM EfiStatus :=
  if socketNum ≥ maxSockets then
    pure .invalidParameter
  else
    match this.norFlashProtocol socketNum with
    | none => pure .deviceError
    | some nor =>
      writeCopies this nor inBuf erase numCmetRecords (u32 this.partitionInfo.partitionByteOffset)

/-- The fields of `RAS_MM_COMMUNICATE_PAYLOAD` the CMET handler uses; `data` is what the
communicate buffer holds behind the header. -/
structure CommunicatePayload where
  function : Nat
  socket : Nat
  flag : Nat
  data : List UInt8

def readLastRecordFunction : Nat := 0
def writeNextRecordFunction : Nat := 1

/-- `CmetMsgHandler` on a buffer that holds the whole header: the status it reports in-band and
the data left in the buffer. -/
def cmetMsgHandler (cmetSeqProto : Option Protocol) (isBufInSecSpMbox : Bool)
    (payload : CommunicatePayload) : CmetM (EfiStatus × List UInt8) :=
  match cmetSeqProto with
  | none => pure (.unsupported, payload.data)
  | some this =>
    if isBufInSecSpMbox then
      if payload.function = readLastRecordFunction then
        cmetReadRecord this payload.socket payload.data.length payload.flag
      else if payload.function = writeNextRecordFunction then
        cmetWriteRecord this payload.socket payload.data payload.flag >>= fun status =>
          pure (status, payload.data)
      else
        pure (.invalidParameter, payload.data)
    else
      pure (.invalidParameter, payload.data)

/-! What the device takes. -/

/-- The range check in front of a read and a program. -/
def Serves (nor : NorFlash) (offset size : Nat) : Prop :=
  ¬ (u32 size = 0 ∨ u32 offset > u32 (u32 nor.memoryDensity + (2 ^ 32 - 1)) ∨
    u32 (u32 offset + u32 size) > u32 nor.memoryDensity)

instance (nor : NorFlash) (offset size : Nat) : Decidable (Serves nor offset size) :=
  inferInstanceAs (Decidable (¬ _))

/-- The range check in front of the erase of the copy at `offset`. -/
def Erases (nor : NorFlash) (offset : Nat) : Prop :=
  ¬ (u32 (cmetBlockSize / nor.blockSize) = 0 ∨
    u32 (offset / nor.blockSize) > u32 (nor.memoryDensity / nor.blockSize + (2 ^ 32 - 1)) ∨
    u32 (u32 (offset / nor.blockSize) + u32 (cmetBlockSize / nor.blockSize) + (2 ^ 32 - 1)) >
      u32 (nor.memoryDensity / nor.blockSize + (2 ^ 32 - 1)))

instance (nor : NorFlash) (offset : Nat) : Decidable (Erases nor offset) :=
  inferInstanceAs (Decidable (¬ _))

/-- The flash a request for the socket reaches. -/
def Protocol.flash (this : Protocol) (socketNum : Nat) : Option NorFlash :=
  if socketNum < maxSockets then this.norFlashProtocol socketNum else none

theorem Protocol.flash_eq {this : Protocol} {socketNum : Nat} {nor : NorFlash}
    (h : this.flash socketNum = some nor) :
    ¬ socketNum ≥ maxSockets ∧ this.norFlashProtocol socketNum = some nor ∧
      nor = this.norFlashAttributes := by
  unfold Protocol.flash at h
  split at h
  next hlt => exact ⟨Nat.not_le.mpr hlt, h, this.same _ _ h⟩
  next => cases h

section
variable {nor : NorFlash} {offset : Nat}

theorem read_eq_ite (hlt : offset < 2 ^ 32) (size : Nat) :
    (nor.read offset size : CmetM _) =
      if Serves nor offset size then readFlash offset (u32 size)
      else pure (.invalidParameter, []) := by
  unfold NorFlash.read Serves
  simp only [u32_of_lt hlt]
  split
  next => rfl
  next => rfl

theorem write_eq_ite (hlt : offset < 2 ^ 32) (data : List UInt8) :
    (nor.write offset data : CmetM _) =
      if Serves nor offset data.length then writeFlash offset (data.take (u32 data.length))
      else pure .invalidParameter := by
  unfold NorFlash.write Serves
  simp only [u32_of_lt hlt]
  split
  next => rfl
  next => rfl

/-- The start of the blocks that are erased for the copy at `offset`. -/
def eraseStart (nor : NorFlash) (offset : Nat) : Nat := offset / nor.blockSize * nor.blockSize

theorem blockSize_dvd {partition : PartitionInfo}
    (valid : validatePartitionInfo nor partition = .success) :
    0 < nor.blockSize ∧ nor.blockSize ∣ cmetBlockSize := by
  unfold validatePartitionInfo at valid
  split at valid
  next => cases valid
  next h =>
    have hmod : cmetBlockSize % nor.blockSize = 0 := by
      by_contra hne
      exact h (.inr hne)
    refine ⟨Nat.pos_of_ne_zero fun hzero => ?_, Nat.dvd_of_mod_eq_zero hmod⟩
    rw [hzero, Nat.mod_zero, cmetBlockSize_eq] at hmod
    omega

theorem eraseRecord_eq_ite {this : Protocol}
    (hdvd : this.norFlashAttributes.blockSize ∣ cmetBlockSize) (hlt : offset < 2 ^ 32) :
    eraseRecord this offset this.norFlashAttributes =
      if Erases this.norFlashAttributes offset then
        eraseFlash (eraseStart this.norFlashAttributes offset) cmetBlockSize
      else pure .invalidParameter := by
  have hlba : offset / this.norFlashAttributes.blockSize < 2 ^ 32 :=
    Nat.lt_of_le_of_lt (Nat.div_le_self _ _) hlt
  have hnum : cmetBlockSize / this.norFlashAttributes.blockSize < 2 ^ 32 :=
    Nat.lt_of_le_of_lt (Nat.div_le_self _ _) (by rw [cmetBlockSize_eq]; omega)
  unfold eraseRecord NorFlash.erase Erases
  simp only [u32_of_lt hlba, u32_of_lt hnum]
  split
  next => rfl
  next => rw [eraseStart, Nat.div_mul_cancel hdvd]

end

end CmetRecord
