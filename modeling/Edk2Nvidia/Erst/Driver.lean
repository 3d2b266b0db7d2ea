import Mathlib.Logic.Function.Basic
import Edk2Nvidia.NorFlash
import Edk2Nvidia.Erst.Record

/-! The ERST driver: its tables of blocks and records next to the flash, and the functions that
write, move, delete and read records. -/
namespace Erst
open Flash

/-- What does not change after the driver has found its partition. -/
structure Config where
  norErstOffset : Nat
  memoryDensity : Nat
  norBlockSize : Nat
  blockSize : Nat
  numBlocks : Nat
  maxRecords : Nat
  /-- `ErrorLogInfo.Length`. -/
  errorLogLength : Nat
deriving DecidableEq, Repr

def Config.partitionSize (config : Config) : Nat := config.numBlocks * config.blockSize

structure BlockInfo where
  validEntries : Int
  usedSize : Nat
  wastedSize : Nat
  base : Nat
deriving DecidableEq, Repr, Inhabited

structure CperInfo where
  recordId : Nat
  recordLength : Nat
  recordOffset : Nat
deriving DecidableEq, Repr

instance : Inhabited CperInfo := ⟨⟨0, 0, 0⟩⟩

/-- A pointer to an `ERST_CPER_INFO`: an entry of the table, or a new record on the stack. -/
inductive Ref where
  | entry (index : Nat)
  | stack (info : CperInfo)
deriving DecidableEq, Repr

/-- `ERST_MEMORY_POOL_INFO`, of a record pool. -/
structure Pool where
  memory : List UInt8
  inUse : Bool

def maxRecordPools : Nat := 4

/-- `ERST_PRIVATE_INFO`, the cache of the flash and the record pools; `cperInfo` has the entries
that `RecordCount` counts. -/
structure Driver where
  blockInfo : Nat → BlockInfo
  cperInfo : List CperInfo
  incomingCperInfo : Option Ref
  outgoingCperInfo : Option Ref
  mostRecentBlock : Nat
  unsyncedSpinorChanges : BitVec 16
  shadowFlash : Option Memory
  recordPools : Nat → Pool
  initStatus : EfiCode
  /-- The tables have been allocated. -/
  allocated : Bool

abbrev ErstM := FlashM EfiCode Driver

namespace Driver
variable (driver : Driver)

def info (index : Nat) : CperInfo := driver.cperInfo.getD index default

def deref : Ref → CperInfo
  | .entry index => driver.info index
  | .stack info => info

def recordCount : Nat := driver.cperInfo.length

/-- `UnsyncedSpinorChanges++`. -/
def unsync : Driver :=
  { driver with unsyncedSpinorChanges := driver.unsyncedSpinorChanges + 1 }

def sync : Driver :=
  { driver with unsyncedSpinorChanges := driver.unsyncedSpinorChanges - 1 }

def updateBlock (index : Nat) (f : BlockInfo → BlockInfo) : Driver :=
  { driver with blockInfo := Function.update driver.blockInfo index (f (driver.blockInfo index)) }

end Driver

/-! The record pools. -/

def erstAllocatePoolRecord (allocationSize : Nat) : ErstM (Option (Nat × List UInt8)) := do
  let driver ← get
  match (List.range maxRecordPools).find? fun i =>
      !(driver.recordPools i).inUse && allocationSize ≤ (driver.recordPools i).memory.length with
  | none => pure none
  | some i => do
    set { driver with
      recordPools := Function.update driver.recordPools i ⟨(driver.recordPools i).memory, true⟩ }
    pure (some (i, (driver.recordPools i).memory))

def erstFreePoolRecord (pool : Nat) (memory : List UInt8) : ErstM Unit :=
  modify fun driver =>
    { driver with recordPools := Function.update driver.recordPools pool ⟨memory, false⟩ }

/-- What a read of `data` leaves in a buffer. -/
def received (data buffer : List UInt8) : List UInt8 := data ++ buffer.drop data.length

/-! The flash. -/

section Driver
variable (config : Config)

def erstReadSpiNor (offset length : Nat) : ErstM (EfiCode × List UInt8) := do
  let driver ← get
  if u32 (offset + length) > config.partitionSize then pure (.invalidParameter, [])
  else
    match driver.shadowFlash with
    | some shadow => pure (.success, slice shadow offset length)
    | none => readFlash (u32 (offset + config.norErstOffset)) length

def erstWriteSpiNor (data : List UInt8) (offset : Nat) : ErstM EfiCode := do
  if u32 (offset + data.length) > config.partitionSize then pure .invalidParameter
  else
    modify fun driver =>
      { driver with shadowFlash := driver.shadowFlash.map fun shadow => overwrite shadow offset data }
    writeFlash (u32 (offset + config.norErstOffset)) data

def erstEraseSpiNor (offset length : Nat) : ErstM EfiCode := do
  if offset % config.norBlockSize ≠ 0 ∨ length % config.norBlockSize ≠ 0 ∨
      u32 (offset + length + config.norErstOffset) > config.memoryDensity then
    pure .invalidParameter
  else
    let lba := u32 (offset + config.norErstOffset) / config.norBlockSize
    let numLba := length / config.norBlockSize
    modify fun driver =>
      { driver with shadowFlash := driver.shadowFlash.map fun shadow => erase shadow offset length }
    eraseFlash (lba * config.norBlockSize) (numLba * config.norBlockSize)

def erstWriteCperStatus (cperStatus : UInt8) (cperInfo : Ref) : ErstM EfiCode := do
  let driver ← get
  let recordOffset := (driver.deref cperInfo).recordOffset
  let elsewhere := fun other : Ref => (driver.deref other).recordOffset ≠ recordOffset
  if cperStatus = statusIncoming ∧ ∃ other ∈ driver.incomingCperInfo, elsewhere other then
    pure .unsupported
  else if cperStatus = statusOutgoing ∧ ∃ other ∈ driver.outgoingCperInfo, elsewhere other then
    pure .unsupported
  else
    let offset := u32 (recordOffset + statusOffset)
    if ∃ shadow ∈ driver.shadowFlash, shadow offset &&& cperStatus ≠ cperStatus then
      pure .unsupported
    else
      let status ← erstWriteSpiNor config [cperStatus] offset
      if EfiCode.isError status then pure status
      else
        modify fun driver =>
          if cperStatus = statusIncoming then { driver with incomingCperInfo := some cperInfo }
          else if cperStatus = statusOutgoing then
            { driver with outgoingCperInfo := some cperInfo }
          else
            { driver with
              incomingCperInfo := driver.incomingCperInfo.filter fun other =>
                (driver.deref other).recordOffset ≠ recordOffset
              outgoingCperInfo := driver.outgoingCperInfo.filter fun other =>
                (driver.deref other).recordOffset ≠ recordOffset }
        pure status

def erstEraseBlock (blockIndex : Nat) : ErstM EfiCode := do
  let driver ← get
  let status ← erstEraseSpiNor config (driver.blockInfo blockIndex).base config.blockSize
  if EfiCode.isError status then pure status
  else
    modify fun driver => driver.updateBlock blockIndex fun block =>
      { block with usedSize := 0, wastedSize := 0, validEntries := 0 }
    pure status

/-! The tables. -/

namespace Driver
variable (driver : Driver)

def erstFindRecord (recordID : Nat) : Option Nat :=
  (List.range driver.recordCount).find? fun index =>
    (driver.info index).recordId = recordID ∧ driver.incomingCperInfo ≠ some (.entry index) ∧
      driver.outgoingCperInfo ≠ some (.entry index)

def erstGetBlockOfRecord (record : CperInfo) : Option Nat :=
  (List.range config.numBlocks).find? fun blockIndex =>
    (driver.blockInfo blockIndex).base ≤ record.recordOffset ∧
      record.recordOffset < (driver.blockInfo blockIndex).base + config.blockSize

def erstGetBlockIndexOfRecord (record : CperInfo) : Nat :=
  (driver.erstGetBlockOfRecord config record).getD 0 % 2 ^ 16

end Driver

def erstUndoAllocateRecord (record : CperInfo) : ErstM EfiCode := do
  let driver ← get
  match driver.erstGetBlockOfRecord config record with
  | some blockIndex =>
    set (driver.updateBlock blockIndex fun block =>
      { block with
        usedSize := u32 (block.usedSize + 2 ^ 32 - record.recordLength)
        validEntries := block.validEntries - 1 }).sync
    pure .success
  | none => pure .notFound

def erstFreeRecord (record : Ref) : ErstM EfiCode := do
  let driver ← get
  match driver.erstGetBlockOfRecord config (driver.deref record) with
  | some blockIndex =>
    set (driver.updateBlock blockIndex fun block =>
      { block with
        wastedSize := u32 (block.wastedSize + (driver.deref record).recordLength)
        validEntries :=
          if block.validEntries > 0 then block.validEntries - 1
          else if block.validEntries < 0 then block.validEntries + 1
          else block.validEntries })
    pure .success
  | none => pure .notFound

/-- Where a pointer points once the entries behind `index` have moved up. -/
def Ref.shift (index : Nat) : Ref → Option Ref
  | .entry i => if i > index then some (.entry (i - 1)) else if i = index then none else some (.entry i)
  | .stack info => some (.stack info)

def erstDeallocateRecord (record : Option Nat) : ErstM EfiCode := do
  match record with
  | none => pure .invalidParameter
  | some index =>
    modify fun driver =>
      { driver with
        cperInfo := driver.cperInfo.eraseIdx index
        incomingCperInfo := driver.incomingCperInfo.bind (Ref.shift index)
        outgoingCperInfo := driver.outgoingCperInfo.bind (Ref.shift index) }.sync
    pure .success

def erstClearRecord (record : Nat) : ErstM EfiCode := do
  let driver ← get
  if record ≥ driver.recordCount then pure .notFound
  else
    let status ← erstWriteCperStatus config statusDeleted (.entry record)
    if EfiCode.isError status then pure status
    else
      modify Driver.unsync
      let status ← erstFreeRecord config (.entry record)
      if EfiCode.isError status then pure status
      else erstDeallocateRecord (some record)

def erstAllocateNewRecord (newRecord : Ref) : ErstM (EfiCode × Option Nat) := do
  let driver ← get
  match newRecord with
  | .entry _ => do
    set driver.unsync
    pure (.success, none)
  | .stack info =>
    if driver.recordCount < config.maxRecords then do
      set { driver with cperInfo := driver.cperInfo ++ [info] }.unsync
      pure (.success, some driver.recordCount)
    else pure (.outOfResources, none)

/-! Writing a record. -/

/-- The part of `ErstWriteRecord` that programs the record, whose status is `INCOMING`, and gives
the old copy the status `OUTGOING`. -/
def erstProgramRecord (cper : List UInt8) (currentRecord : Option Nat) (newRecord : Ref) :
    ErstM EfiCode := do
  let driver ← get
  let new := driver.deref newRecord
  let status ← erstWriteSpiNor config (cper.take new.recordLength) new.recordOffset
  if EfiCode.isError status then pure status
  else
    match currentRecord with
    | some current => erstWriteCperStatus config statusOutgoing (.entry current)
    | none => pure status

/-- The end of `ErstWriteRecord` for a record that replaces `current`. -/
def erstRetireRecord (current : Nat) (newRecord : Ref) : ErstM EfiCode := do
  let status ← erstWriteCperStatus config statusDeleted (.entry current)
  if EfiCode.isError status then pure status
  else
    modify Driver.unsync
    let status ← erstFreeRecord config (.entry current)
    if EfiCode.isError status then pure status
    else
      match newRecord with
      | .entry _ => erstDeallocateRecord (some current)
      | .stack info => do
        modify fun driver => { driver with cperInfo := driver.cperInfo.set current info }.sync
        pure .success

/-- `ErstWriteRecord`, with what it leaves of the record in memory. -/
def erstWriteRecord (cper : List UInt8) (currentRecord : Option Nat) (newRecord : Ref)
    (dummyOp : Bool) : ErstM (EfiCode × List UInt8) := do
  let driver ← get
  if ∃ outgoing ∈ driver.outgoingCperInfo, some outgoing ≠ currentRecord.map .entry then
    pure (.unsupported, cper)
  else
    let cper := persist cper statusIncoming
    let status := erstValidateCperHeader cper (driver.deref newRecord).recordLength
    if EfiCode.isError status then pure (status, cper)
    else
      let (status, allocatedRecord) ←
        match currentRecord with
        | none => erstAllocateNewRecord config newRecord
        | some _ => do
          modify Driver.unsync
          pure (.success, none)
      if EfiCode.isError status then pure (status, cper)
      else if dummyOp then do
        let _ ← erstDeallocateRecord allocatedRecord
        pure (status, cper)
      else
        let status ← erstWriteCperStatus config statusIncoming newRecord
        if EfiCode.isError status then do
          let _ ← erstDeallocateRecord allocatedRecord
          pure (status, cper)
        else
          modify Driver.unsync
          let status ← erstProgramRecord config cper currentRecord newRecord
          if EfiCode.isError status then pure (status, cper)
          else
            let cper := cper.set statusOffset statusValid
            let status ← erstWriteCperStatus config statusValid newRecord
            if EfiCode.isError status then pure (status, cper)
            else
              let status ←
                match currentRecord with
                | some current => erstRetireRecord config current newRecord
                | none => pure status
              if EfiCode.isError status then pure (status, cper)
              else
                modify fun driver =>
                  { driver with
                    mostRecentBlock :=
                      driver.erstGetBlockIndexOfRecord config (driver.deref newRecord) }.sync.sync
                pure (status, cper)

end Driver

end Erst
