import Edk2Nvidia.Erst.Driver

/-! The search of the ERST driver for the space of a record. It takes the rest of a block in use,
starts a free block as long as another one stays free, or moves the records of a block elsewhere
and erases it, and then searches again. The moves search for space themselves; the search is open
in that recursion and `erstFindFreeSpace` closes it. -/
namespace Erst
open Flash

/-! The loop of `ErstFindFreeSpace` over the blocks. -/

structure Survey where
  freeBlock : Option Nat
  wastedBlock : Option Nat
  freeBlockCount : Nat
  reclaimingBlockCount : Nat
deriving DecidableEq, Repr

/-- `UsedSize - WastedSize`. -/
def BlockInfo.live (block : BlockInfo) : Nat := u32 (block.usedSize + 2 ^ 32 - block.wastedSize)

section Search
variable (config : Config)

/-- A block in use with room for the record. -/
def BlockInfo.Fits (block : BlockInfo) (recordLength : Nat) : Prop :=
  block.validEntries > 0 ∧ block.usedSize + recordLength ≤ config.blockSize

instance (block : BlockInfo) (recordLength : Nat) : Decidable (block.Fits config recordLength) :=
  inferInstanceAs (Decidable (_ ∧ _))

def Survey.visit (blockInfo : Nat → BlockInfo) (recordLength : Nat) (survey : Survey)
    (index : Nat) : Survey :=
  let block := blockInfo index
  if block.validEntries = 0 then
    if block.usedSize = 0 ∧ block.wastedSize = 0 then
      { survey with
        freeBlock := survey.freeBlock <|> some index
        freeBlockCount := survey.freeBlockCount + 1 }
    else { survey with wastedBlock := some index }
  else if block.validEntries ≥ 0 then
    if (∃ wasted ∈ survey.wastedBlock, (blockInfo wasted).live < block.live) ∨
        block.live + recordLength ≤ config.blockSize then
      { survey with wastedBlock := some index }
    else survey
  else { survey with reclaimingBlockCount := survey.reclaimingBlockCount + 1 }

/-- The blocks in the order of the loop. -/
def searchOrder (mostRecentBlock : Nat) : List Nat :=
  (List.range config.numBlocks).map fun blockIndex =>
    (blockIndex + mostRecentBlock) % config.numBlocks

inductive Choice where
  | found (freeOffset : Nat)
  | reclaim (wastedBlock : Nat)
  | none
deriving DecidableEq, Repr

def Driver.choose (driver : Driver) (recordLength : Nat) (dummyOp : Bool) : Choice :=
  let order := searchOrder config driver.mostRecentBlock
  match order.find? fun index => (driver.blockInfo index).Fits config recordLength with
  | some index =>
    .found (u32 ((driver.blockInfo index).usedSize + (driver.blockInfo index).base))
  | Option.none =>
    let survey := order.foldl (Survey.visit config driver.blockInfo recordLength)
      ⟨Option.none, Option.none, 0, 0⟩
    match survey.freeBlock with
    | some index =>
      if survey.freeBlockCount + survey.reclaimingBlockCount > 1 then
        .found (driver.blockInfo index).base
      else reclaim driver survey
    | Option.none => reclaim driver survey
where
  reclaim (driver : Driver) (survey : Survey) : Choice :=
    match survey.wastedBlock with
    | some index =>
      if driver.outgoingCperInfo = Option.none ∧ !dummyOp then .reclaim index else .none
    | Option.none => .none

/-- The status of a search and `*NewOffset`. -/
abbrev Find := Nat → Bool → ErstM (EfiCode × Nat)

def erstPrepareNewRecord (find : Find) (recordId recordLength : Nat) (dummyOp : Bool) :
    ErstM (EfiCode × CperInfo) := do
  let (status, recordOffset) ← find recordLength dummyOp
  let record : CperInfo := ⟨recordId, u32 recordLength, recordOffset⟩
  if EfiCode.isError status then pure (status, record)
  else
    let driver ← get
    match driver.erstGetBlockOfRecord config record with
    | some blockIndex =>
      set (driver.unsync.updateBlock blockIndex fun block =>
        { block with
          usedSize := u32 (block.usedSize + recordLength)
          validEntries := block.validEntries + 1 })
      pure (.success, record)
    | none => pure (.notFound, record)

/-- The part of `ErstRelocateRecord` behind the read of the record into `cper`. -/
def relocateTo (find : Find) (cper : List UInt8) (cperInfo : Nat) (info : CperInfo) :
    ErstM (EfiCode × List UInt8) := do
  let (status, newRecord) ←
    erstPrepareNewRecord config find info.recordId info.recordLength false
  if EfiCode.isError status then pure (status, cper)
  else
    let (status, cper) ← erstWriteRecord config cper (some cperInfo) (.stack newRecord) false
    if EfiCode.isError status then do
      let _ ← erstUndoAllocateRecord config newRecord
      pure (status, cper)
    else do
      modify Driver.sync
      pure (status, cper)

/-- `ErstRelocateRecord`. A read that fails goes on with what the pool still holds. -/
def erstRelocateRecord (find : Find) (cperInfo : Nat) : ErstM EfiCode := do
  let driver ← get
  let info := driver.info cperInfo
  match ← erstAllocatePoolRecord info.recordLength with
  | none => pure .outOfResources
  | some (pool, memory) =>
    let (status, data) ← erstReadSpiNor config info.recordOffset info.recordLength
    let cper := received data memory
    let valid :=
      if EfiCode.isError status then .success
      else erstValidateRecord cper info.recordId info.recordLength
    if EfiCode.isError valid then do
      erstFreePoolRecord pool cper
      pure valid
    else
      let (status, cper) ← relocateTo config find cper cperInfo info
      erstFreePoolRecord pool cper
      pure status

/-- The inner loop of `ErstReclaimBlock` from `cperInfoIndex` on: the next record of the block
at `base`. The index is a `UINT16`. -/
def nextInBlock (base : Nat) : Nat → Nat → ErstM (Option Nat)
  | 0, _ => outOfFuel
  | fuel + 1, cperInfoIndex => do
    let driver ← get
    let info := driver.info cperInfoIndex
    if base ≤ info.recordOffset ∧ info.recordOffset < u32 (base + config.blockSize) then
      pure (some cperInfoIndex)
    else
      let cperInfoIndex := (cperInfoIndex + 1) % 2 ^ 16
      if cperInfoIndex ≥ driver.recordCount then pure none
      else nextInBlock base fuel cperInfoIndex

/-- The outer loop of `ErstReclaimBlock`. -/
def reclaimRecords (find : Find) (blockIndex : Nat) : Nat → Nat → ErstM EfiCode
  | 0, _ => outOfFuel
  | fuel + 1, cperInfoIndex => do
    let driver ← get
    let block := driver.blockInfo blockIndex
    if block.validEntries < 0 then
      match ← nextInBlock config block.base (2 ^ 16 + 1) cperInfoIndex with
      | none => pure .notFound
      | some cperInfoIndex => do
        let status ← erstRelocateRecord config find cperInfoIndex
        if EfiCode.isError status then pure status
        else reclaimRecords find blockIndex fuel cperInfoIndex
    else erstEraseBlock config blockIndex

def erstReclaimBlock (find : Find) (fuel blockIndex : Nat) : ErstM EfiCode := do
  modify fun driver => driver.updateBlock blockIndex fun block =>
    if block.validEntries > 0 then { block with validEntries := -block.validEntries } else block
  reclaimRecords config find blockIndex fuel 0

def erstFindFreeSpace : Nat → Find
  | 0, _, _ => outOfFuel
  | fuel + 1, recordLength, dummyOp => do
    let driver ← get
    match driver.choose config recordLength dummyOp with
    | .found freeOffset => pure (.success, freeOffset)
    | .none => pure (.outOfResources, 0)
    | .reclaim wastedBlock => do
      let status ← erstReclaimBlock config (erstFindFreeSpace fuel) fuel wastedBlock
      if EfiCode.isError status then pure (status, 0)
      else erstFindFreeSpace fuel recordLength dummyOp

end Search

end Erst
