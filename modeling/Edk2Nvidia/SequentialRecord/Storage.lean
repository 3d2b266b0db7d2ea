import Edk2Nvidia.Parse.Packed
import Edk2Nvidia.NorFlash
import Edk2Nvidia.SequentialRecord.Crc8

/-! The storage half of the sequential record driver: records with an eight byte
header are appended to the active 64 KB block of a partition, and the log moves
to the next block when a record does not fit. -/
namespace SequentialRecord
open Flash Crc8

def eraseByte : UInt8 := 0xFF
def activePageMagic : UInt8 := 0xFE
def retiredPageMagic : UInt8 := 0xFC
def minPartitionBlocks : Nat := 2
@[irreducible] def seqBlockSize : Nat := 65536
def maxSockets : Nat := 4

structure PartitionInfo where
  partitionByteOffset : Nat
  partitionSize : Nat
deriving DecidableEq, Repr

/-- `NVIDIA_SEQ_RECORD_PROTOCOL`, with the flash attributes the driver keeps in a
global and the answer of the pool allocator. -/
structure Protocol where
  partitionInfo : PartitionInfo
  norFlashProtocol : Nat → Option NorFlash
  norFlashAttributes : NorFlash
  allocateZeroPool : Nat → Bool

/-- A packed `DATA_HDR`: flags, two reserved bytes, the CRC and the size. -/
abbrev DataHdr := List UInt8

def sizeofDataHdr : Nat := 8
def offsetOfSizeBytes : Nat := 4

def DataHdr.flags (hdr : DataHdr) : UInt8 := hdr.getD 0 0
def DataHdr.crc8 (hdr : DataHdr) : UInt8 := hdr.getD 3 0
def DataHdr.sizeBytes (hdr : DataHdr) : Nat := field hdr offsetOfSizeBytes 4

/-- The driver keeps no state of its own between calls. -/
abbrev SeqM := FlashM EfiStatus Unit

def PartitionInfo.startBlock (partition : PartitionInfo) : Nat :=
  u32 (partition.partitionByteOffset / seqBlockSize)

def PartitionInfo.numBlocks (partition : PartitionInfo) : Nat :=
  u32 (partition.partitionSize / seqBlockSize)

def PartitionInfo.lastBlock (partition : PartitionInfo) : Nat :=
  u32 (partition.startBlock + partition.numBlocks + (2 ^ 32 - 1))

def validatePartitionInfo (partition : PartitionInfo) : EfiStatus :=
  if partition.partitionSize % seqBlockSize ≠ 0 ∨
      partition.partitionByteOffset % seqBlockSize ≠ 0 then
    .invalidParameter
  else if partition.partitionSize / seqBlockSize < minPartitionBlocks then
    .invalidParameter
  else
    .success

def isSpiNorRegionErased (this : Protocol) (nor : NorFlash) (curOffset recSize : Nat) :
    SeqM Bool :=
  if this.allocateZeroPool recSize then do
    let (status, buf) ← nor.read curOffset recSize
    if status.isError then
      pure false
    else
      pure (buf.all (· == eraseByte))
  else
    pure false

/-- `IsValidRecord`. The second component is `*RecSize`, which holds `recSize`
before the call. -/
def isValidRecord (this : Protocol) (nor : NorFlash) (curOffset recSize : Nat) :
    SeqM (Bool × Nat) := do
  let (status, dataHdr) ← nor.read curOffset sizeofDataHdr
  if status.isError then
    -- the flag still holds its initial TRUE
    pure (true, recSize)
  else if DataHdr.flags dataHdr = activePageMagic then
    let bufSize := DataHdr.sizeBytes dataHdr
    if this.allocateZeroPool bufSize then do
      let (status, buf) ← nor.read curOffset bufSize
      if status.isError then
        pure (false, recSize)
      else
        let computedCrc8 := calculateCrc8 (buf.drop offsetOfSizeBytes)
          (bufSize + (2 ^ 64 - offsetOfSizeBytes)) 0 typeCrc8Maxim
        if DataHdr.crc8 dataHdr = computedCrc8 then
          pure (true, bufSize)
        else
          pure (false, recSize)
    else
      pure (false, recSize)
  else
    pure (false, recSize)

def getNextWriteBlock (partition : PartitionInfo) (activeBlock : Nat) : Nat :=
  if activeBlock = partition.lastBlock then partition.startBlock else u32 (activeBlock + 1)

def eraseNewBlock (this : Protocol) (nor : NorFlash) (activeBlockNum : Nat) : SeqM EfiStatus :=
  let eraseBlocks := seqBlockSize / this.norFlashAttributes.blockSize
  let eraseBlockNum := u32 (activeBlockNum * seqBlockSize) / this.norFlashAttributes.blockSize
  nor.erase eraseBlockNum eraseBlocks

def retireBlock (nor : NorFlash) (retireBlockNum : Nat) : SeqM EfiStatus := do
  let readOffset := u32 (retireBlockNum * seqBlockSize)
  let (status, dataHdr) ← nor.read readOffset sizeofDataHdr
  if status.isError then
    pure status
  else
    nor.write readOffset (dataHdr.set 0 retiredPageMagic)

/-- The scan of `GetActiveBlock` from `blockIndex` over the next `count` blocks. -/
def activeBlockScan (nor : NorFlash) : Nat → Nat → SeqM (Except EfiStatus Nat)
  | 0, _ => pure (.error .notFound)
  | count + 1, blockIndex => do
    let (status, dataHdr) ← nor.read (u32 (blockIndex * seqBlockSize)) sizeofDataHdr
    if status.isError then
      pure (.error status)
    else if DataHdr.flags dataHdr = activePageMagic then
      pure (.ok (u32 blockIndex))
    else
      activeBlockScan nor count (blockIndex + 1)

def getActiveBlock (this : Protocol) (nor : NorFlash) : SeqM (Except EfiStatus Nat) :=
  activeBlockScan nor this.partitionInfo.numBlocks this.partitionInfo.startBlock

/-- The loop of `GetReadLastOffset`: the last valid record up to the first
position that holds none. -/
def readLastScan (this : Protocol) (nor : NorFlash) (endOffset : Nat) :
    Nat → Nat → Nat → Nat → Nat → SeqM (Nat × Nat)
  | 0, _, _, _, _ => outOfFuel
  | fuel + 1, curOffset, curSize, prevOffset, prevSize =>
    if curOffset < endOffset then do
      let (isValid, curSize) ← isValidRecord this nor curOffset curSize
      if isValid then
        readLastScan this nor endOffset fuel (u32 (curOffset + curSize)) curSize curOffset curSize
      else
        pure (prevOffset, prevSize)
    else
      pure (prevOffset, prevSize)

/-- `GetReadLastOffset`. A scan of one block takes at most one step a byte. -/
def getReadLastOffset (this : Protocol) (nor : NorFlash) (blockNum : Nat) : SeqM (Nat × Nat) :=
  let startOffset := u32 (blockNum * seqBlockSize)
  let endOffset := u32 (startOffset + seqBlockSize)
  readLastScan this nor endOffset (seqBlockSize + 1) startOffset 0 startOffset 0

/-- The first loop of `GetNthRecordFromEnd`. -/
def countRecords (this : Protocol) (nor : NorFlash) (endOffset : Nat) :
    Nat → Nat → Nat → Nat → SeqM (Nat × Nat)
  | 0, _, _, _ => outOfFuel
  | fuel + 1, curOffset, curSize, recordCount =>
    if curOffset < endOffset then do
      let (isValid, curSize) ← isValidRecord this nor curOffset curSize
      if isValid then
        countRecords this nor endOffset fuel (u32 (curOffset + curSize)) curSize (recordCount + 1)
      else
        pure (recordCount, curSize)
    else
      pure (recordCount, curSize)

/-- The second loop of `GetNthRecordFromEnd`. -/
def findRecord (this : Protocol) (nor : NorFlash) (endOffset targetIndex : Nat) :
    Nat → Nat → Nat → Nat → SeqM (Except EfiStatus (Nat × Nat))
  | 0, _, _, _ => outOfFuel
  | fuel + 1, curOffset, curSize, recordCount =>
    if curOffset < endOffset then do
      let (isValid, curSize) ← isValidRecord this nor curOffset curSize
      if isValid then
        if recordCount = targetIndex then
          pure (.ok (curOffset, curSize))
        else
          findRecord this nor endOffset targetIndex fuel (u32 (curOffset + curSize)) curSize
            (recordCount + 1)
      else
        pure (.error .notFound)
    else
      pure (.error .notFound)

/-- `GetNthRecordFromEnd`. `curSize` is what its uninitialised local holds. -/
def getNthRecordFromEnd (this : Protocol) (nor : NorFlash) (blockNum nthFromEnd curSize : Nat) :
    SeqM (Except EfiStatus (Nat × Nat)) :=
  if nthFromEnd = 0 then
    pure (.error .invalidParameter)
  else do
    let startOffset := u32 (blockNum * seqBlockSize)
    let endOffset := u32 (startOffset + seqBlockSize)
    let (recordCount, curSize) ←
      countRecords this nor endOffset (seqBlockSize + 1) startOffset curSize 0
    if recordCount < nthFromEnd then
      pure (.error .notFound)
    else
      findRecord this nor endOffset (recordCount - nthFromEnd) (seqBlockSize + 1) startOffset
        curSize 0

/-- What both readers do with the record they found: `RecSize - sizeof (DATA_HDR)`
is taken in 64 bits. -/
def readRecord (nor : NorFlash) (readOffset recSize bufSize : Nat) :
    SeqM (EfiStatus × List UInt8) := do
  if bufSize < (recSize + (2 ^ 64 - sizeofDataHdr)) % 2 ^ 64 then
    pure (.bufferTooSmall, [])
  else
    nor.read (readOffset + sizeofDataHdr) bufSize

def getWriteNextOffset (this : Protocol) (nor : NorFlash) : SeqM (Except EfiStatus Nat) := do
  match ← getActiveBlock this nor with
  | .error .notFound => pure (.ok (u32 (this.partitionInfo.startBlock * seqBlockSize)))
  | .error status => pure (.error status)
  | .ok activeBlockNum =>
    let (readLast, readLastSize) ← getReadLastOffset this nor activeBlockNum
    pure (.ok (u32 (readLast + readLastSize)))

def readLastRecord (this : Protocol) (socketNum bufSize : Nat) : SeqM (EfiStatus × List UInt8) :=
  if bufSize < sizeofDataHdr then
    pure (.invalidParameter, [])
  else if socketNum ≥ maxSockets then
    pure (.invalidParameter, [])
  else
    match this.norFlashProtocol socketNum with
    | none => pure (.deviceError, [])
    | some nor => do
      match ← getActiveBlock this nor with
      | .error status => pure (status, [])
      | .ok activeBlock =>
        let (readLastHdrOffset, readLastRecSize) ← getReadLastOffset this nor activeBlock
        readRecord nor readLastHdrOffset readLastRecSize bufSize

/-- The CRC the driver puts in front of a payload: it covers the size field too. -/
def recordCrc8 (recSize : Nat) (payload : List UInt8) : UInt8 :=
  calculateCrc8 (toLittleEndian 4 recSize ++ payload)
    (recSize + (2 ^ 64 - offsetOfSizeBytes)) 0 typeCrc8Maxim

/-- The buffer `WriteNextRecord` programs. -/
def makeRecord (recSize : Nat) (payload : List UInt8) : List UInt8 :=
  [activePageMagic, eraseByte, eraseByte, recordCrc8 recSize payload] ++
    toLittleEndian 4 recSize ++ payload

/-- Whether `WriteNextRecord` leaves the active block: the record does not fit, or
the space behind the last record is not erased. -/
def mustSwitchBlock (this : Protocol) (nor : NorFlash) (activeBlock writeHeaderOffset recSize : Nat) :
    SeqM Bool :=
  let activeBlockEnd := u32 ((activeBlock + 1) * seqBlockSize)
  if u32 (writeHeaderOffset + recSize) > activeBlockEnd then
    pure true
  else if writeHeaderOffset ≠ u32 (activeBlock * seqBlockSize) then do
    let erased ← isSpiNorRegionErased this nor writeHeaderOffset recSize
    pure (!erased)
  else
    pure false

/-- `WriteNextRecord` once it knows the active block and the write offset. -/
def writeRecord (this : Protocol) (nor : NorFlash) (activeBlock writeHeaderOffset : Nat)
    (inBuf : List UInt8) : SeqM EfiStatus := do
  let recSize := u32 (inBuf.length + sizeofDataHdr)
  let switch ← mustSwitchBlock this nor activeBlock writeHeaderOffset recSize
  let writeBlock :=
    if switch then getNextWriteBlock this.partitionInfo activeBlock else activeBlock
  let writeHeaderOffset := if switch then u32 (writeBlock * seqBlockSize) else writeHeaderOffset
  -- the status of the erase is not looked at
  if writeBlock ≠ activeBlock ∨ writeHeaderOffset = u32 (writeBlock * seqBlockSize) then
    let _ ← eraseNewBlock this nor writeBlock
  if this.allocateZeroPool (inBuf.length + sizeofDataHdr) then do
    let status ← nor.write writeHeaderOffset (makeRecord recSize inBuf)
    if status.isError then
      pure status
    else if writeBlock ≠ activeBlock then do
      -- nor is the status of the retirement
      let _ ← retireBlock nor activeBlock
      pure status
    else
      pure status
  else
    pure .outOfResources

def writeNextRecord (this : Protocol) (socketNum : Nat) (inBuf : List UInt8) : SeqM EfiStatus :=
  if socketNum ≥ maxSockets then
    pure .invalidParameter
  else
    match this.norFlashProtocol socketNum with
    | none => pure .deviceError
    | some nor => do
      match ← getWriteNextOffset this nor with
      | .error status => pure status
      | .ok writeHeaderOffset =>
        match ← getActiveBlock this nor with
        | .error .notFound =>
          writeRecord this nor this.partitionInfo.startBlock writeHeaderOffset inBuf
        | .error status => pure status
        | .ok activeBlock => writeRecord this nor activeBlock writeHeaderOffset inBuf

def erasePartition (this : Protocol) (socketNum : Nat) : SeqM EfiStatus :=
  if socketNum ≥ maxSockets then
    pure .invalidParameter
  else
    match this.norFlashProtocol socketNum with
    | none => pure .deviceError
    | some nor =>
      let eraseBlocks := u32 (this.partitionInfo.partitionSize / this.norFlashAttributes.blockSize)
      let eraseBlockNum :=
        u32 (this.partitionInfo.partitionByteOffset / this.norFlashAttributes.blockSize)
      nor.erase eraseBlockNum eraseBlocks

theorem deviceError_ne_ok : EfiStatus.deviceError ≠ Flash.Status.ok := by decide

end SequentialRecord
