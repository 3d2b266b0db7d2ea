import Edk2Nvidia.Erst.Space

/-! The start of the ERST driver: it finds the geometry of its partition, reads every block and
cleans up what an interrupted write has left. -/
namespace Erst
open Flash

def erstMinBlockSize : Nat := 32 * 1024

def sizeofCperInfo : Nat := 16

/-- What the platform tells the driver: the flash, the partition and the error log buffer. -/
structure Platform where
  memoryDensity : Nat
  norBlockSize : Nat
  norErstOffset : Nat
  norErstSize : Nat
  errorLogLength : Nat
deriving DecidableEq, Repr

/-- `ErrorSerializationGatherBufferData` and `ErrorSerializationInitProtocol`, without the
timings. -/
def errorSerializationInitProtocol (platform : Platform) : Except EfiCode Config :=
  let blockSize := max erstMinBlockSize platform.norBlockSize
  let numBlocks := platform.norErstSize / blockSize
  if platform.errorLogLength < sizeofCperHeader then .error .bufferTooSmall
  else if u32 (platform.norErstOffset + platform.norErstSize) > platform.memoryDensity then
    .error .invalidParameter
  else if blockSize % platform.norBlockSize ≠ 0 then .error .invalidParameter
  else if platform.norErstOffset % platform.norBlockSize ≠ 0 then .error .invalidParameter
  else if numBlocks < 2 then .error .bufferTooSmall
  else .ok {
    norErstOffset := platform.norErstOffset
    memoryDensity := platform.memoryDensity
    norBlockSize := platform.norBlockSize
    blockSize
    numBlocks
    maxRecords := u32 (blockSize * (numBlocks - 1)) / sizeofCperInfo
    errorLogLength := platform.errorLogLength }

section Collect
variable (config : Config)

def erstAddCperToList (cper : List UInt8) (offset : Nat) : ErstM EfiCode := do
  let (status, _) ←
    erstAllocateNewRecord config (.stack ⟨cperRecordID cper, cperRecordLength cper, offset⟩)
  if EfiCode.isError status then pure status
  else
    modify fun driver =>
      if cperStatus cper = statusIncoming then
        { driver with incomingCperInfo := some (.entry (driver.recordCount - 1)) }
      else if cperStatus cper = statusOutgoing then
        { driver with outgoingCperInfo := some (.entry (driver.recordCount - 1)) }
      else driver
    pure status

/-- What the loop of `ErstCollectBlock` does behind a header. -/
inductive Collected where
  /-- The rest of the block is free, invalid or taken by a record still coming in. -/
  | last (invalid : Bool)
  | next (recordLength : Nat)
deriving DecidableEq, Repr

/-- The body of the loop of `ErstCollectBlock`. -/
def collectRecord (blockIndex offset : Nat) : ErstM (Except EfiCode Collected) := do
  let driver ← get
  let base := (driver.blockInfo blockIndex).base
  let (status, cper) ← erstReadSpiNor config (u32 (base + offset)) sizeofCperHeader
  if EfiCode.isError status then pure (.error status)
  else if cperStatus cper = statusFree then
    let (status, blockData) ←
      erstReadSpiNor config (u32 (base + offset)) (config.blockSize - offset)
    if EfiCode.isError status then pure (.error status)
    else pure (.ok (.last !isErased blockData))
  else if cperStatus cper = statusValid ∨ cperStatus cper = statusOutgoing ∨
      cperStatus cper = statusDeleted ∨ cperStatus cper = statusIncoming then
    if EfiCode.isError (erstValidateCperHeader cper (config.blockSize - offset)) then
      pure (.ok (.last true))
    else if cperStatus cper = statusDeleted then do
      modify fun driver => driver.updateBlock blockIndex fun block =>
        { block with
          usedSize := u32 (block.usedSize + cperRecordLength cper)
          wastedSize := u32 (block.wastedSize + cperRecordLength cper) }
      pure (.ok (.next (cperRecordLength cper)))
    else
      let status ← erstAddCperToList config cper (u32 (base + offset))
      if EfiCode.isError status then pure (.error status)
      else if cperStatus cper = statusIncoming then do
        modify fun driver => driver.updateBlock blockIndex fun block =>
          { block with
            validEntries := block.validEntries + 1
            usedSize := u32 (block.usedSize + (config.blockSize - offset)) }
        pure (.ok (.last false))
      else do
        modify fun driver => driver.updateBlock blockIndex fun block =>
          { block with
            validEntries := block.validEntries + 1
            usedSize := u32 (block.usedSize + cperRecordLength cper) }
        pure (.ok (.next (cperRecordLength cper)))
  else pure (.ok (.last true))

/-- The loop of `ErstCollectBlock` from `offset` on: where it stops, and whether the rest of the
block is invalid. -/
def collectRecords (blockIndex : Nat) : Nat → Nat → ErstM (Except EfiCode (Nat × Bool))
  | 0, _ => outOfFuel
  | fuel + 1, offset => do
    match ← collectRecord config blockIndex offset with
    | .error status => pure (.error status)
    | .ok (.last invalid) => pure (.ok (offset, invalid))
    | .ok (.next recordLength) =>
      if offset + recordLength ≤ config.blockSize - sizeofCperHeader then
        collectRecords blockIndex fuel (offset + recordLength)
      else pure (.ok (offset + recordLength, false))

def erstCollectBlock (blockIndex base : Nat) : ErstM EfiCode := do
  modify fun driver => driver.updateBlock blockIndex fun _ => ⟨0, 0, 0, base⟩
  match ← collectRecords config blockIndex (config.blockSize + 1) 0 with
  | .error status => pure status
  | .ok (offset, invalid) => do
    if invalid then
      modify fun driver => driver.updateBlock blockIndex fun block =>
        { block with
          usedSize := u32 (block.usedSize + (config.blockSize - offset))
          wastedSize := u32 (block.wastedSize + (config.blockSize - offset))
          validEntries :=
            if block.validEntries > 0 then -block.validEntries else block.validEntries }
    let driver ← get
    let block := driver.blockInfo blockIndex
    if block.validEntries = 0 ∧ (block.usedSize ≠ 0 ∨ invalid) then
      erstEraseBlock config blockIndex
    else
      if config.blockSize - offset < sizeofCperHeader then
        modify fun driver => driver.updateBlock blockIndex fun block =>
          { block with wastedSize := u32 (block.wastedSize + (config.blockSize - offset)) }
      pure .success

/-- The first loop of `ErstCollectBlockInfo`. -/
def collectBlocks : List Nat → ErstM EfiCode
  | [] => pure .success
  | blockNum :: rest => do
    let status ← erstCollectBlock config blockNum (u32 (blockNum * config.blockSize))
    if EfiCode.isError status then pure status else collectBlocks rest

/-- The checks of `ErstCopyValidToIncomingCper` on what it has read: the record, what stands where
it is to go and what follows there. -/
def canCopy (validCper incomingCper space : List UInt8) : Bool :=
  (validCper.zip incomingCper).all (fun (valid, incoming) => valid &&& incoming == valid) &&
    isErased space

def erstCopyValidToIncomingCper (validCperInfo incomingCperInfo : Nat) : ErstM EfiCode := do
  let driver ← get
  let valid := driver.info validCperInfo
  let incoming := driver.info incomingCperInfo
  if incoming.recordLength < valid.recordLength ∨
      incoming.recordId &&& valid.recordId ≠ valid.recordId then
    pure .invalidParameter
  else
    match ← erstAllocatePoolRecord valid.recordLength with
    | none => pure .outOfResources
    | some (validPool, validMemory) => do
      let (status, cper) ← copy validCperInfo incomingCperInfo valid validMemory
      erstFreePoolRecord validPool cper
      pure status
where
  copy (validCperInfo incomingCperInfo : Nat) (valid : CperInfo) (validMemory : List UInt8) :
      ErstM (EfiCode × List UInt8) := do
    let (status, data) ← erstReadSpiNor config valid.recordOffset valid.recordLength
    let validCper := received data validMemory
    if EfiCode.isError status then pure (status, validCper)
    else
      modify fun driver => { driver with
        cperInfo := driver.cperInfo.modify incomingCperInfo fun info =>
          { info with recordId := valid.recordId, recordLength := valid.recordLength } }
      match ← erstAllocatePoolRecord valid.recordLength with
      | none => pure (.outOfResources, validCper)
      | some (incomingPool, incomingMemory) => do
        let driver ← get
        let offset := (driver.info incomingCperInfo).recordOffset
        let (status, data) ← erstReadSpiNor config offset valid.recordLength
        let incomingCper := received data incomingMemory
        let (status, validCper) ←
          if EfiCode.isError status then pure (status, validCper)
          else merge validCperInfo incomingCperInfo valid offset validCper incomingCper
        erstFreePoolRecord incomingPool incomingCper
        pure (status, validCper)
  merge (validCperInfo incomingCperInfo : Nat) (valid : CperInfo) (offset : Nat)
      (validCper incomingCper : List UInt8) : ErstM (EfiCode × List UInt8) := do
    let driver ← get
    if !canCopy (validCper.take valid.recordLength) (incomingCper.take valid.recordLength) [] then
      pure (.invalidParameter, validCper)
    else
      match driver.erstGetBlockOfRecord config (driver.info incomingCperInfo) with
      | none => pure (.notFound, validCper)
      | some blockIndex =>
        let remainingBlockSize := u32 (config.blockSize + 2 ^ 32 -
          (offset - (driver.blockInfo blockIndex).base + valid.recordLength))
        let (status, space) ←
          if remainingBlockSize > 0 then
            erstReadSpiNor config (u32 (offset + valid.recordLength)) remainingBlockSize
          else pure (.success, [])
        if EfiCode.isError status then pure (status, validCper)
        else if !canCopy [] [] space then pure (.invalidParameter, validCper)
        else
          let (status, validCper) ← erstWriteRecord config validCper (some validCperInfo)
            (.entry incomingCperInfo) false
          if EfiCode.isError status then pure (status, validCper)
          else
            modify fun driver => driver.updateBlock blockIndex fun block =>
              -- the pointer still names the entry's old place in the table
              let incoming := driver.info incomingCperInfo
              { block with
                usedSize :=
                  u32 (incoming.recordOffset % config.blockSize + incoming.recordLength) }
            pure (status, validCper)

def erstMarkAsInvalid (cperInfo : Nat) : ErstM EfiCode := do
  let status ← erstWriteCperStatus config statusInvalid (.entry cperInfo)
  if EfiCode.isError status then pure status
  else
    modify Driver.unsync
    let driver ← get
    match driver.erstGetBlockOfRecord config (driver.info cperInfo) with
    | none => pure .notFound
    | some blockIndex => do
      set (driver.updateBlock blockIndex fun block =>
        { block with
          validEntries :=
            if block.validEntries > 0 then -block.validEntries else block.validEntries })
      let status ← erstFreeRecord config (.entry cperInfo)
      if EfiCode.isError status then pure status
      else erstDeallocateRecord (some cperInfo)

/-- The entry a pointer names; at the start of the driver none points to the stack. -/
def Ref.index : Ref → Nat
  | .entry index => index
  | .stack _ => 0

/-- How `ErstCollectBlockInfo` settles what it has found coming in and going out: the statuses
the two records are to get. -/
def settle : ErstM (Except EfiCode (UInt8 × UInt8)) := do
  let driver ← get
  match driver.outgoingCperInfo, driver.incomingCperInfo with
  | some outgoing, none =>
    if (driver.erstFindRecord (driver.deref outgoing).recordId).isSome then
      pure (.ok (statusIncoming, statusDeleted))
    else pure (.ok (statusIncoming, statusInvalid))
  | some outgoing, some incoming =>
    if (driver.deref incoming).recordId = (driver.deref outgoing).recordId then
      pure (.ok (statusValid, statusDeleted))
    else pure (.ok (statusInvalid, statusInvalid))
  | none, some incoming =>
    match driver.erstFindRecord (driver.deref incoming).recordId with
    | some valid => do
      let status ← erstCopyValidToIncomingCper config valid incoming.index
      if status = .invalidParameter then pure (.ok (statusInvalid, statusOutgoing))
      else if EfiCode.isError status then pure (.error status)
      else pure (.ok (statusIncoming, statusOutgoing))
    | none => pure (.ok (statusInvalid, statusOutgoing))
  | none, none => pure (.ok (statusIncoming, statusOutgoing))

def settleIncoming (newIncomingStatus : UInt8) : ErstM EfiCode := do
  let driver ← get
  match driver.incomingCperInfo with
  | some incoming =>
    if newIncomingStatus = statusValid then erstWriteCperStatus config statusValid incoming
    else if newIncomingStatus = statusInvalid then erstMarkAsInvalid config incoming.index
    else pure .success
  | none => pure .success

def settleOutgoing (newOutgoingStatus : UInt8) : ErstM EfiCode := do
  let driver ← get
  match driver.outgoingCperInfo with
  | some outgoing =>
    if newOutgoingStatus = statusDeleted then erstClearRecord config outgoing.index
    else if newOutgoingStatus = statusInvalid then erstMarkAsInvalid config outgoing.index
    else pure .success
  | none => pure .success

/-- The loop of `ErstCollectBlockInfo` over the blocks that are to be reclaimed. -/
def reclaimBlocks (fuel : Nat) : List Nat → ErstM EfiCode
  | [] => pure .success
  | blockNum :: rest => do
    let driver ← get
    if (driver.blockInfo blockNum).validEntries < 0 then
      let status ← erstReclaimBlock config (erstFindFreeSpace config fuel) fuel blockNum
      if EfiCode.isError status then pure status else reclaimBlocks fuel rest
    else reclaimBlocks fuel rest

/-- The number of blocks without a valid entry, in a `UINT8`. -/
def freeBlocks (driver : Driver) : Nat :=
  ((List.range config.numBlocks).countP fun blockNum =>
    (driver.blockInfo blockNum).validEntries = 0) % 2 ^ 8

/-- The last loop of `ErstCollectBlockInfo`. -/
def finishCollect : ErstM EfiCode := do
  modify fun driver => { driver with
    mostRecentBlock := ((List.range config.numBlocks).filter fun blockNum =>
      (driver.blockInfo blockNum).validEntries ≠ 0).getLast?.getD driver.mostRecentBlock % 2 ^ 16 }
  let driver ← get
  if freeBlocks config driver < 1 then pure .outOfResources else pure .success

def erstCollectBlockInfo (fuel : Nat) : ErstM EfiCode := do
  let status ← collectBlocks config (List.range config.numBlocks)
  if EfiCode.isError status then pure status
  else
    match ← settle config with
    | .error status => pure status
    | .ok (newIncomingStatus, newOutgoingStatus) => do
      let status ← settleIncoming config newIncomingStatus
      if EfiCode.isError status then pure status
      else
        let status ← settleOutgoing config newOutgoingStatus
        if EfiCode.isError status then pure status
        else
          let status ← reclaimBlocks config fuel (List.range config.numBlocks)
          if EfiCode.isError status then pure status
          else finishCollect config

/-- `ErstInitShadowFlash`; `allocates` tells whether the pool serves the cache. -/
def erstInitShadowFlash (allocates : Bool) : ErstM Unit := do
  if allocates then
    let (status, data) ← readFlash config.norErstOffset config.partitionSize
    if EfiCode.isError status then
      modify fun driver => { driver with shadowFlash := none }
    else
      modify fun driver =>
        { driver with shadowFlash := some (overwrite (fun _ => erasedByte) 0 data) }
  else modify fun driver => { driver with shadowFlash := none }

def errorSerializationGatherSpinorData (fuel : Nat) (allocates : Bool) : ErstM EfiCode := do
  modify fun driver => { driver with
    blockInfo := fun _ => default
    cperInfo := []
    allocated := true }
  erstInitShadowFlash config allocates
  modify fun driver => { driver with unsyncedSpinorChanges := 1 }
  let status ← erstCollectBlockInfo config fuel
  if EfiCode.isError status then modify fun driver => { driver with allocated := false }
  else modify fun driver => { driver with unsyncedSpinorChanges := 0 }
  pure status

/-- `ErrorSerializationInitialize` behind the search for the partition, with the status it leaves
in `InitStatus`. -/
def errorSerializationInitialize (fuel : Nat) (allocates : Bool) : ErstM EfiCode := do
  modify fun driver => { driver with
    incomingCperInfo := none
    outgoingCperInfo := none
    mostRecentBlock := 0
    unsyncedSpinorChanges := 0 }
  let status ← errorSerializationGatherSpinorData config fuel allocates
  modify fun driver => { driver with initStatus := status }
  pure status

end Collect

end Erst
