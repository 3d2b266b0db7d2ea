import Edk2Nvidia.Flash.Slots
import Edk2Nvidia.VarInt.Protocol

/-! Access to the measurement partition: flash and copy are updated together, and
two scans find the next free slot and the live records. -/
namespace VarInt
open Flash

section
variable {Store : Type}

def partitionRead (this : Protocol Store) (offset size : Nat) :
    VarIntM (EfiStatus × List UInt8) := do
  let offset := u32 offset
  let partitionStart := u32 this.partitionByteOffset
  let partitionEnd := u32 (partitionStart + this.partitionSize)
  if offset < partitionStart ∧ offset > partitionEnd then
    pure (.invalidParameter, [])
  else if u32 (offset + size) > partitionEnd then
    pure (.invalidParameter, [])
  else do
    let bufferOffset := u32 (offset + (2 ^ 32 - partitionStart))
    let s ← get
    pure (.success, slice s.partitionData bufferOffset size)

def partitionWrite (this : Protocol Store) (offset : Nat) (buffer : List UInt8) :
    VarIntM EfiStatus := do
  let offset := u32 offset
  let partitionStart := u32 this.partitionByteOffset
  let partitionEnd := u32 (partitionStart + this.partitionSize)
  if offset < partitionStart ∧ offset > partitionEnd then
    pure .invalidParameter
  else if u32 (offset + buffer.length) > partitionEnd then
    pure .invalidParameter
  else do
    let bufferOffset := u32 (offset + (2 ^ 32 - partitionStart))
    let status ← this.norFlashProtocol.write offset buffer
    if status.isError then
      pure status
    else
      modify fun s => { s with partitionData := overwrite s.partitionData bufferOffset buffer }
      pure status

def partitionErase (this : Protocol Store) (lba numBlocks : Nat) : VarIntM EfiStatus := do
  let lba := u32 lba
  let partitionStart := u32 this.partitionByteOffset
  let partitionEnd := u32 (partitionStart + this.partitionSize)
  let offset := u32 (lba * this.blockSize)
  let size := u32 (numBlocks * this.blockSize)
  if offset < partitionStart ∧ offset > partitionEnd then
    pure .invalidParameter
  else if u32 (offset + size) > partitionEnd then
    pure .invalidParameter
  else do
    let bufferOffset := u32 (offset + (2 ^ 32 - partitionStart))
    let status ← this.norFlashProtocol.erase lba numBlocks
    if status.isError then
      pure status
    else
      modify fun s => { s with partitionData := erase s.partitionData bufferOffset size }
      pure status

def recordWindowFitsInBlock (this : Protocol Store) (offset numRecords : Nat) : Bool :=
  let blockStart := offset / this.blockSize * this.blockSize
  let blockEnd := blockStart + this.blockSize
  let writeSize := u32 (this.measurementSize * numRecords)
  decide (offset + writeSize ≤ blockEnd)

/-- The values `CurOffset` takes in both scans. -/
def blockOffsets (this : Protocol Store) : List Nat :=
  steps this.partitionByteOffset (this.partitionByteOffset + this.partitionSize) this.blockSize

/-- The values `BlockOffset` takes inside one block. -/
def recordOffsets (this : Protocol Store) (curOffset : Nat) : List Nat :=
  steps curOffset (curOffset + this.blockSize) this.measurementSize

/-- Where the scan of `GetWriteOffset` stands: the last status, the last valid record
(zero when there is none) and the erased slot. -/
structure WriteScan where
  status : EfiStatus
  validRecord : Nat
  offset : Option Nat
deriving DecidableEq, Repr

/-- The inner loop of `GetWriteOffset`. -/
def scanBlock (this : Protocol Store) : List Nat → WriteScan → VarIntM WriteScan
  | [], scan => pure scan
  | blockOffset :: rest, scan =>
    if recordWindowFitsInBlock this blockOffset 1 then do
      let (status, readBuf) ← partitionRead this blockOffset this.measurementSize
      let scan := { scan with status }
      if status.isError then
        pure scan
      else if readBuf.headD 0 = fvbErasedByte then
        pure { scan with offset := some blockOffset }
      else if isRecordValid (readBuf.headD 0) then
        scanBlock this rest { scan with validRecord := blockOffset }
      else
        scanBlock this rest scan
    else
      scanBlock this rest scan

/-- The outer loop of `GetWriteOffset`. -/
def scanBlocks (this : Protocol Store) : List Nat → WriteScan → VarIntM WriteScan
  | [], scan => pure scan
  | curOffset :: rest, scan => do
    let scan ← scanBlock this (recordOffsets this curOffset) scan
    if scan.offset.isSome then
      pure scan
    else
      scanBlocks this rest scan

/-- Where `GetWriteOffset` goes when no slot is erased. -/
def nextBlockOffset (this : Protocol Store) (validRecord : Nat) : Nat :=
  let numPartitionBlocks := this.partitionSize / this.blockSize
  let startBlock := this.partitionByteOffset / this.blockSize
  let endBlock := u32 (startBlock + numPartitionBlocks + (2 ^ 32 - 1))
  if validRecord = 0 ∨ numPartitionBlocks = 1 then
    this.partitionByteOffset
  else
    let curBlock := validRecord / this.blockSize
    if curBlock = endBlock then
      this.partitionByteOffset
    else
      (curBlock + 1) * this.blockSize

def getWriteOffset (this : Protocol Store) : VarIntM (EfiStatus × Nat) := do
  let scan ← scanBlocks this (blockOffsets this) ⟨.notFound, 0, none⟩
  let offset := scan.offset.getD (nextBlockOffset this scan.validRecord)
  if offset % this.blockSize = 0 then do
    let status ← partitionErase this (offset / this.blockSize) 1
    pure (status, offset)
  else
    pure (scan.status, offset)

/-- The loops of `GetLastValidMeasurements`; the records found so far are collected. -/
def collectMeasurements (this : Protocol Store) :
    List Nat → List MeasureRec → VarIntM (EfiStatus × List MeasureRec)
  | [], records => pure (.success, records)
  | blockOffset :: rest, records =>
    if recordWindowFitsInBlock this blockOffset 1 then do
      let (status, readBuf) ← partitionRead this blockOffset this.measurementSize
      if status.isError then
        pure (status, records)
      else if isRecordLive (readBuf.headD 0) then
        if records.length + 1 > maxValidRecords then
          pure (.deviceError, records)
        else
          collectMeasurements this rest (records ++ [⟨.ofBytes readBuf, blockOffset⟩])
      else
        collectMeasurements this rest records
    else
      collectMeasurements this rest records

def getLastValidMeasurements (this : Protocol Store) :
    VarIntM (EfiStatus × List MeasureRec) :=
  collectMeasurements this ((blockOffsets this).flatMap (recordOffsets this)) []

def isBufErasedOrZero (buf : List UInt8) : Bool :=
  buf.all fun byte => byte == fvbErasedByte || byte == 0

def size1KB : Nat := 1024

/-- The loop of `IsMeasurementPartitionErasedOrZero`. -/
def checkErasedOrZero (this : Protocol Store) : List Nat → VarIntM Bool
  | [] => pure true
  | partitionOffset :: rest => do
    let (status, buf) ← this.norFlashProtocol.read partitionOffset size1KB
    if status.isError then
      pure false
    else if isBufErasedOrZero buf then
      checkErasedOrZero this rest
    else
      pure false

def isMeasurementPartitionErasedOrZero (this : Protocol Store) : VarIntM Bool :=
  if this.allocatePool size1KB then
    checkErasedOrZero this (steps this.partitionByteOffset
      (this.partitionByteOffset + this.partitionSize) size1KB)
  else
    pure false

end

end VarInt
