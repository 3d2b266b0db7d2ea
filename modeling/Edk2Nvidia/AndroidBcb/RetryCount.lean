import Edk2Nvidia.Effect.Program
import Edk2Nvidia.NorFlash
import Edk2Nvidia.Parse.Packed

/-! The boot control block of the misc partition and the two functions of a boot that rewrite it:
the lock of the slots to the running chain, and the countdown of the tries of a slot that the
system has not confirmed. -/
namespace AndroidBcb
open Effect
open Flash (toLittleEndian)

def kDefaultPriority : BitVec 4 := 15
def kDefaultBootAttempts : BitVec 2 := 3

structure SlotMetadata where
  priority : BitVec 4
  triesRemaining : BitVec 2
  successfulBoot : BitVec 1
  verityCorrupted : BitVec 1
  reserved : BitVec 8
deriving DecidableEq, Repr, Inhabited

/-- `BootloaderControl`; the status fields share a word, of which `unused` is the rest. -/
structure BootloaderControl where
  slotSuffix : Vector UInt8 4
  magic : BitVec 32
  version : UInt8
  nbSlot : BitVec 3
  recoveryTriesRemaining : BitVec 3
  mergeStatus : BitVec 3
  unused : BitVec 7
  reserved0 : UInt8
  slotInfo : Vector SlotMetadata 4
  reserved1 : Vector UInt8 8
  crc32Le : BitVec 32
deriving DecidableEq, Repr, Inhabited

def SlotMetadata.bytes (slot : SlotMetadata) : List UInt8 :=
  toLittleEndian 2 (slot.reserved ++ slot.verityCorrupted ++ slot.successfulBoot ++
    slot.triesRemaining ++ slot.priority).toNat

namespace BootloaderControl
variable (bootCtrl : BootloaderControl)

def covered : List UInt8 :=
  bootCtrl.slotSuffix.toList ++ toLittleEndian 4 bootCtrl.magic.toNat ++ [bootCtrl.version] ++
    toLittleEndian 2 (bootCtrl.unused ++ bootCtrl.mergeStatus ++
      bootCtrl.recoveryTriesRemaining ++ bootCtrl.nbSlot).toNat ++
    [bootCtrl.reserved0] ++ bootCtrl.slotInfo.toList.flatMap SlotMetadata.bytes ++
    bootCtrl.reserved1.toList

def slot (i : Nat) : SlotMetadata := bootCtrl.slotInfo[i]?.getD default

def setSlot (i : Nat) (slot : SlotMetadata) : BootloaderControl :=
  { bootCtrl with slotInfo := bootCtrl.slotInfo.setIfInBounds i slot }

/-- The loop of `BcbGetActiveBootSlot`, with the slot found so far and its priority. -/
def bcbGetActiveBootSlot : Nat :=
  ((List.range bootCtrl.nbSlot.toNat).foldl (fun (active : Nat × BitVec 4) idx =>
    if (bootCtrl.slot idx).priority > active.2 then (idx, (bootCtrl.slot idx).priority)
    else active) (0, (bootCtrl.slot 0).priority)).1

variable (calculateCrc32 : List UInt8 → BitVec 32)

def bootloaderControlLeCrc : BitVec 32 := calculateCrc32 bootCtrl.covered

def sealed : BootloaderControl :=
  { bootCtrl with crc32Le := bootCtrl.bootloaderControlLeCrc calculateCrc32 }

end BootloaderControl

/-- What the functions ask of the protocols around them. -/
inductive Call where
  | getMiscIoProtocolFromHandle
  | readDisk
  | writeDisk (bootCtrl : BootloaderControl)
  | locateProtocol
  | validateActiveBootChain
  | updateFwChain (chain : Nat)
  | statusRegReset
  /-- The caller goes on with the boot. -/
  | proceed
deriving DecidableEq, Repr

structure Reply where
  status : EfiStatus
  bootCtrl : BootloaderControl
  marked : Bool

/-- How a function ends: it returns, and tells whether an unconfirmed slot is being tried, or it
resets the system. -/
inductive Ending where
  | returned (status : EfiStatus) (androidIsInOta : Bool)
  | resetCold
deriving DecidableEq, Repr

abbrev Program := Prog Call Reply

section Functions
variable (calculateCrc32 : List UInt8 → BitVec 32) (isHypervisorMode : Bool)

/-- `AndroidBcbLockChain`; `currentSlotIndex` is the running chain. -/
def androidBcbLockChain (currentSlotIndex : Nat) : Program EfiStatus :=
  if isHypervisorMode = false then pure .success
  else do
    let reply ← Prog.perform .getMiscIoProtocolFromHandle
    if reply.status.isError then pure reply.status
    else
      let reply ← Prog.perform .readDisk
      if reply.status.isError then pure reply.status
      else
        let bootCtrl := reply.bootCtrl
        if bootCtrl.bootloaderControlLeCrc calculateCrc32 ≠ bootCtrl.crc32Le then pure .success
        else
          let mscActiveSlotIndex := bootCtrl.bcbGetActiveBootSlot
          if currentSlotIndex ≠ mscActiveSlotIndex then
            let bootCtrl := bootCtrl.setSlot currentSlotIndex
              { bootCtrl.slot currentSlotIndex with priority := kDefaultPriority }
            let bootCtrl := bootCtrl.setSlot mscActiveSlotIndex
              { bootCtrl.slot mscActiveSlotIndex with priority := kDefaultPriority - 1 }
            let bootCtrl := bootCtrl.setSlot currentSlotIndex
              { bootCtrl.slot currentSlotIndex with
                triesRemaining := kDefaultBootAttempts
                verityCorrupted := 0 }
            let reply ← Prog.perform (.writeDisk (bootCtrl.sealed calculateCrc32))
            pure reply.status
          else pure .success

/-- The end of `AndroidBcbCheckAndUpdateRetryCount`, for a slot that has tries left. -/
def countDown (bootCtrl : BootloaderControl) (mscActiveSlotIndex : Nat) : Program Ending :=
  let slot := bootCtrl.slot mscActiveSlotIndex
  if slot.successfulBoot = 0 ∧ slot.triesRemaining ≠ 0 then do
    let bootCtrl := bootCtrl.setSlot mscActiveSlotIndex
      { slot with triesRemaining := slot.triesRemaining - 1 }
    let reply ← Prog.perform (.writeDisk (bootCtrl.sealed calculateCrc32))
    if reply.status.isError then pure (.returned reply.status false)
    else pure (.returned .success true)
  else pure (.returned .success false)

/-- The branch of `AndroidBcbCheckAndUpdateRetryCount` for a slot without tries on native UEFI. -/
def switchChain (bootCtrl : BootloaderControl) (mscActiveSlotIndex : Nat) : Program Ending := do
  let bootCtrl := bootCtrl.setSlot mscActiveSlotIndex
    { bootCtrl.slot mscActiveSlotIndex with priority := 0 }
  let reply ← Prog.perform (.writeDisk (bootCtrl.sealed calculateCrc32))
  if reply.status.isError then pure (.returned reply.status false)
  else
    let reply ← Prog.perform .locateProtocol
    if reply.status.isError then pure (.returned reply.status false)
    else
      let _ ← Prog.perform .validateActiveBootChain
      let reply ← Prog.perform (.updateFwChain (if mscActiveSlotIndex = 0 then 1 else 0))
      if reply.status.isError then pure (.returned reply.status false)
      else
        let _ ← Prog.perform .statusRegReset
        pure .resetCold

def androidBcbCheckAndUpdateRetryCount : Program Ending := do
  let reply ← Prog.perform .getMiscIoProtocolFromHandle
  if reply.status.isError then pure (.returned reply.status false)
  else
    let reply ← Prog.perform .readDisk
    if reply.status.isError then pure (.returned reply.status false)
    else
      let bootCtrl := reply.bootCtrl
      if bootCtrl.bootloaderControlLeCrc calculateCrc32 ≠ bootCtrl.crc32Le then
        pure (.returned .success false)
      else
        let mscActiveSlotIndex := bootCtrl.bcbGetActiveBootSlot
        if (bootCtrl.slot mscActiveSlotIndex).triesRemaining = 0 then
          if isHypervisorMode then pure (.returned .invalidParameter false)
          else switchChain calculateCrc32 bootCtrl mscActiveSlotIndex
        else countDown calculateCrc32 bootCtrl mscActiveSlotIndex

end Functions

/-! What the functions find of the slots they rewrite. -/

namespace BootloaderControl
variable {bootCtrl : BootloaderControl}

@[simp] theorem setSlot_nbSlot (i : Nat) (slot : SlotMetadata) :
    (bootCtrl.setSlot i slot).nbSlot = bootCtrl.nbSlot := rfl

@[simp] theorem setSlot_crc32Le (i : Nat) (slot : SlotMetadata) :
    (bootCtrl.setSlot i slot).crc32Le = bootCtrl.crc32Le := rfl

@[simp] theorem sealed_nbSlot (calculateCrc32 : List UInt8 → BitVec 32) :
    (bootCtrl.sealed calculateCrc32).nbSlot = bootCtrl.nbSlot := rfl

@[simp] theorem sealed_slot (calculateCrc32 : List UInt8 → BitVec 32) (i : Nat) :
    (bootCtrl.sealed calculateCrc32).slot i = bootCtrl.slot i := rfl

@[simp] theorem sealed_bcbGetActiveBootSlot (calculateCrc32 : List UInt8 → BitVec 32) :
    (bootCtrl.sealed calculateCrc32).bcbGetActiveBootSlot = bootCtrl.bcbGetActiveBootSlot := rfl

@[simp] theorem sealed_crc32Le (calculateCrc32 : List UInt8 → BitVec 32) :
    (bootCtrl.sealed calculateCrc32).crc32Le =
      (bootCtrl.sealed calculateCrc32).bootloaderControlLeCrc calculateCrc32 := rfl

theorem slot_setSlot {i : Nat} (hi : i < 4) (slot : SlotMetadata) (j : Nat) :
    (bootCtrl.setSlot i slot).slot j = if i = j then slot else bootCtrl.slot j := by
  simp only [BootloaderControl.slot, setSlot, Vector.getElem?_setIfInBounds, hi, if_true]
  split <;> rfl

/-- The slot of the higher priority; the first slot of two that are equal. -/
theorem bcbGetActiveBootSlot_eq (h : bootCtrl.nbSlot = 2) :
    bootCtrl.bcbGetActiveBootSlot =
      if (bootCtrl.slot 1).priority > (bootCtrl.slot 0).priority then 1 else 0 := by
  have hrange : List.range (2 : BitVec 3).toNat = [0, 1] := rfl
  have hself : ¬ (bootCtrl.slot 0).priority > (bootCtrl.slot 0).priority := BitVec.lt_irrefl _
  simp only [bcbGetActiveBootSlot, h, hrange, List.foldl_cons, List.foldl_nil, hself, if_false]
  split <;> rfl

theorem bcbGetActiveBootSlot_lt (h : bootCtrl.nbSlot = 2) : bootCtrl.bcbGetActiveBootSlot < 2 := by
  rw [bcbGetActiveBootSlot_eq h]
  split <;> omega

end BootloaderControl

end AndroidBcb
