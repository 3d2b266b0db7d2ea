import Edk2Nvidia.FwPartition.Device

/-! The BR-BCT update library: the geometry its initialization accepts, and the update of the
slots of the BCT partition to the BCT of another boot chain. -/
namespace BrBct
open FwPartition

def brBctSlotMax : Nat := 4
def brBctSlotMarkerBasedMax : Nat := 3
def brBctBackupPartitionChainOffset : Nat := 16 * 1024

def bootChainB : Nat := 1
def bootChainCount : Nat := 2

structure Pcds where
  brBctDataSize : Nat
  brBctLogicalSlotSize : Nat
  brBctVerifyUpdateBeforeWrite : Bool
  bootChainIsMarkerBased : Bool
  overwriteActiveFwPartition : Bool

/-- `BR_BCT_UPDATE_PRIVATE_DATA`, with the settings kept next to it. -/
structure Config where
  brBctDataSize : Nat
  slotSize : Nat
  brBctPartition : PrivateData
  brBctBackupPartition : PrivateData
  bctPartitionSlots : Nat
  brBctVerifyUpdateBeforeWrite : Bool
  bootChainIsMarkerBased : Bool
  overwriteActiveFwPartition : Bool

def brBctUpdateDeviceLibInit (pcds : Pcds) (partitions : List PrivateData)
    (eraseBlockSize : Nat) : Except EfiStatus Config :=
  let maxBctSlotsSupported :=
    if pcds.bootChainIsMarkerBased then brBctSlotMarkerBasedMax else brBctSlotMax
  let slotSize := max eraseBlockSize pcds.brBctLogicalSlotSize
  match fwPartitionFindByName partitions (nameOf "BCT"),
      fwPartitionFindByName partitions (nameOf "BCT-boot-chain_backup") with
  | some brBctPartition, some brBctBackupPartition =>
    let slots := brBctPartition.info.bytes / slotSize
    if slots = 0 ∧ pcds.brBctDataSize > brBctPartition.info.bytes then .error .unsupported
    else if pcds.brBctDataSize > brBctBackupPartitionChainOffset then .error .unsupported
    else .ok {
      brBctDataSize := pcds.brBctDataSize
      slotSize
      brBctPartition
      brBctBackupPartition
      bctPartitionSlots :=
        if slots = 0 then 1
        else if slots > maxBctSlotsSupported then maxBctSlotsSupported
        else slots
      brBctVerifyUpdateBeforeWrite := pcds.brBctVerifyUpdateBeforeWrite
      bootChainIsMarkerBased := pcds.bootChainIsMarkerBased
      overwriteActiveFwPartition := pcds.overwriteActiveFwPartition }
  | _, _ => .error .notFound

def brBctReadSlot (partition : PrivateData) (offset bytes : Nat) :
    Program (EfiStatus × List UInt8) :=
  fwPartitionRead partition offset bytes

namespace Config
variable (config : Config)

def brBctGetSlotOffset (slot : Nat) : Nat := u64 (slot * config.slotSize)

def invalidateBuffer : List UInt8 := List.replicate config.brBctDataSize 0xFF

def brBctVerifySlot (partition : PrivateData) (slot bytes : Nat) (buffer : List UInt8) :
    Program EfiStatus :=
  let bytesToRead := alignValue bytes partition.device.blockSize
  if bytesToRead > config.brBctDataSize then pure .invalidParameter
  else do
    let (status, verifyBuffer) ←
      brBctReadSlot partition (config.brBctGetSlotOffset slot) bytesToRead
    if status.isError then pure status
    else if verifyBuffer.take bytes ≠ buffer.take bytes then pure .volumeCorrupted
    else pure .success

def brBctWriteSlot (partition : PrivateData) (slot bytes : Nat) (buffer : List UInt8) :
    Program EfiStatus :=
  fwPartitionWrite config.overwriteActiveFwPartition partition (config.brBctGetSlotOffset slot)
    (buffer.take bytes)

def brBctWriteAndVerifySlot (partition : PrivateData) (slot bytes : Nat) (buffer : List UInt8) :
    Program EfiStatus :=
  let update : Program EfiStatus := do
    let status ← config.brBctWriteSlot partition slot bytes buffer
    if status.isError then pure status
    else config.brBctVerifySlot partition slot bytes buffer
  if config.brBctVerifyUpdateBeforeWrite then do
    let status ← config.brBctVerifySlot partition slot bytes buffer
    if status = .success then pure status else update
  else update

def slotShouldBeInvalidated (slot newFwChain : Nat) : Bool :=
  config.bootChainIsMarkerBased && newFwChain == bootChainB && slot == 0

def slotShouldBeUpdated (slot newFwChain : Nat) : Bool :=
  if config.bootChainIsMarkerBased then
    slot &&& 1 == newFwChain || config.slotShouldBeInvalidated slot newFwChain
  else true

/-- The loop of `BrBctUpdateBctSlots` over the slots below `slots`, highest first.
`bufferToWrite` and `status` are carried from slot to slot. -/
def updateSlots (bytes newFwChain : Nat) :
    Nat → (bufferToWrite : List UInt8) → (status : EfiStatus) → Program EfiStatus
  | 0, _, status => pure status
  | slot + 1, bufferToWrite, status =>
    if config.slotShouldBeUpdated slot newFwChain then do
      let bufferToWrite :=
        if config.slotShouldBeInvalidated slot newFwChain then config.invalidateBuffer
        else bufferToWrite
      let status ←
        config.brBctWriteAndVerifySlot config.brBctPartition slot bytes bufferToWrite
      if status.isError then pure status
      else updateSlots bytes newFwChain slot bufferToWrite status
    else updateSlots bytes newFwChain slot bufferToWrite status

def brBctUpdateBctSlots (bytes : Nat) (buffer : List UInt8) (newFwChain : Nat) :
    Program EfiStatus :=
  config.updateSlots bytes newFwChain config.bctPartitionSlots buffer .success

def brBctUpdateFwChain (newFwChain : Nat) : Program EfiStatus := do
  let dataSize := config.brBctDataSize
  let backupOffset := u64 (newFwChain * brBctBackupPartitionChainOffset)
  let (status, buffer) ← brBctReadSlot config.brBctBackupPartition backupOffset dataSize
  if status.isError then pure status
  else
    let status ← config.brBctUpdateBctSlots dataSize buffer newFwChain
    if status.isError then pure status
    else
      let _ ← Effect.Prog.perform (.setNextBootChain newFwChain)
      pure status

end Config

/-! What the parts of a slot's update do, for any device. -/

namespace Config
variable {config : Config}

/-- Where the data of a slot stands on the device of the BCT partition. -/
def address (config : Config) (slot : Nat) : Nat :=
  u64 (config.brBctGetSlotOffset slot + config.brBctPartition.info.offset)

def slotData (config : Config) (system : System) (slot : Nat) : List UInt8 :=
  Flash.slice (system.storage config.brBctPartition.device.number) (config.address slot)
    config.brBctDataSize

def slotSpan (config : Config) (slot : Nat) : Span :=
  ⟨config.address slot, config.address slot + max config.slotSize config.brBctDataSize⟩

/-- What a write of a slot can change. -/
def writeSpan (config : Config) (slot : Nat) : Span :=
  config.brBctPartition.device.touched (config.address slot) config.brBctDataSize

/-- The system with `image` where a write of the slot can change it. -/
def written (config : Config) (slot : Nat) (image : Flash.Memory) (system : System) : System :=
  system.patched config.brBctPartition.device.number (config.writeSpan slot) image

/-- The BCT of a chain in the backup partition. -/
def backupData (config : Config) (system : System) (chain : Nat) : List UInt8 :=
  Flash.slice (system.storage config.brBctBackupPartition.device.number)
    (u64 (u64 (chain * brBctBackupPartitionChainOffset) +
      config.brBctBackupPartition.info.offset)) config.brBctDataSize

@[simp] theorem length_slotData (system : System) (slot : Nat) :
    (config.slotData system slot).length = config.brBctDataSize := Flash.length_slice _ _ _

@[simp] theorem length_backupData (system : System) (chain : Nat) :
    (config.backupData system chain).length = config.brBctDataSize := Flash.length_slice _ _ _

@[simp] theorem length_invalidateBuffer :
    config.invalidateBuffer.length = config.brBctDataSize := List.length_replicate

end Config

end BrBct
