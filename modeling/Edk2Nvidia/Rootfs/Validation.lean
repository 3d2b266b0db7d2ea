import Edk2Nvidia.Parse.BitField

/-! The launcher's choice between rootfs A, rootfs B and recovery: slot statuses live in
variables, retry counts in two bits each of a scratch register. -/
namespace Rootfs
open Parse

inductive Status where
  | success
  | invalidParameter
  | loadError
  | notFound
  /-- Any other status of the variable and register services. -/
  | deviceError
deriving DecidableEq, Repr

inductive VariableIndex where
  | statusA
  | statusB
  | redundancy
  | retryMax
  | fwNext
  | bcStatus
deriving DecidableEq, Repr

def VariableIndex.all : List VariableIndex :=
  [statusA, statusB, redundancy, retryMax, fwNext, bcStatus]

def osStatusNormal : BitVec 32 := 0
def osStatusUnbootable : BitVec 32 := 0xFF

def redundancyBootOnly : BitVec 32 := 0
def redundancyBootRootfs : BitVec 32 := 1

def bootModeRecovery : BitVec 32 := 3

def srRfMagic : BitVec 32 := 0xFACE

def magicField : BitField 32 := ⟨0, 16, by decide⟩
def currentSlotField : BitField 32 := ⟨16, 2, by decide⟩
def retryCountBField : BitField 32 := ⟨18, 2, by decide⟩
def retryCountAField : BitField 32 := ⟨20, 2, by decide⟩

example : (currentSlotField.mask, retryCountBField.mask, retryCountAField.mask) =
    (0x30000, 0xC0000, 0x300000) := by decide

def rootfsSlotA : BitVec 32 := 0
def rootfsSlotB : BitVec 32 := 1

/-- What survives a reset. A variable that does not exist is `none`. -/
structure Store where
  values : VariableIndex → Option (BitVec 32)
  register : BitVec 32

/-- The writes of the status register in one run. -/
inductive RegisterWrite where
  | initRegister
  | clearForRecovery
  | save
  | clearForSwitch
deriving DecidableEq, Repr

structure Services where
  getVariable : VariableIndex → Bool
  setVariable : VariableIndex → Bool
  getRegister : Bool
  setRegister : RegisterWrite → Bool

structure Info where
  value : VariableIndex → BitVec 32
  updateFlag : VariableIndex → Bool
  retryCountSlotA : BitVec 32
  retryCountSlotB : BitVec 32
  currentSlot : BitVec 32

def Info.setValue (info : Info) (index : VariableIndex) (value : BitVec 32) : Info :=
  { info with
    value := fun i => if i = index then value else info.value i
    updateFlag := fun i => if i = index then true else info.updateFlag i }

structure BootParams where
  bootMode : BitVec 32
  bootChain : BitVec 32

/-- `BootChainFwNext` and `BootChainFwStatus` do not exist by default. -/
def rfGetVariable (services : Services) (store : Store) (index : VariableIndex) :
    Except Status (BitVec 32) :=
  if services.getVariable index then
    match store.values index with
    | some value => .ok value
    | none => if index = .fwNext ∨ index = .bcStatus then .ok 0 else .error .notFound
  else .error .deviceError

def rfSetVariable (services : Services) (store : Store) (index : VariableIndex)
    (value : BitVec 32) : Status × Store :=
  if services.setVariable index then
    (.success, { store with
      values := fun i => if i = index then some value else store.values i })
  else (.deviceError, store)

def rfDeleteVariable (services : Services) (store : Store) (index : VariableIndex) : Store :=
  if services.setVariable index then
    { store with values := fun i => if i = index then none else store.values i }
  else store

def setRootfsStatusReg (services : Services) (store : Store) (write : RegisterWrite)
    (value : BitVec 32) : Status × Store :=
  if services.setRegister write then (.success, { store with register := value })
  else (.deviceError, store)

def initialRetryCount (info : Info) (status : VariableIndex) : BitVec 32 :=
  if info.value status = osStatusUnbootable then 0 else info.value .retryMax

def initialRegister (info : Info) (rootfsSlot : BitVec 32) : BitVec 32 :=
  retryCountBField.set (initialRetryCount info .statusB)
    (retryCountAField.set (initialRetryCount info .statusA)
      (currentSlotField.set rootfsSlot (magicField.set srRfMagic 0)))

def initializeRootfsStatusReg (services : Services) (store : Store) (info : Info)
    (rootfsSlot : BitVec 32) : Status × BitVec 32 × Store :=
  if services.getRegister then
    if magicField.get store.register = srRfMagic then (.success, store.register, store)
    else
      let register := initialRegister info rootfsSlot
      let (status, store) := setRootfsStatusReg services store .initRegister register
      (status, register, store)
  else (.deviceError, 0, store)

def setStatusTomRootfsInfo (info : Info) (rootfsSlot rootfsStatus : BitVec 32) : Status × Info :=
  if rootfsSlotB < rootfsSlot then (.invalidParameter, info)
  else if rootfsSlot = rootfsSlotA then (.success, info.setValue .statusA rootfsStatus)
  else (.success, info.setValue .statusB rootfsStatus)

def getRetryCountFrommRootfsInfo (info : Info) (rootfsSlot : BitVec 32) :
    Except Status (BitVec 32) :=
  if rootfsSlotB < rootfsSlot then .error .invalidParameter
  else if rootfsSlot = rootfsSlotA then .ok info.retryCountSlotA
  else .ok info.retryCountSlotB

def setRetryCountTomRootfsInfo (info : Info) (rootfsSlot retryCount : BitVec 32) : Status × Info :=
  if rootfsSlotB < rootfsSlot then (.invalidParameter, info)
  else if rootfsSlot = rootfsSlotA then (.success, { info with retryCountSlotA := retryCount })
  else (.success, { info with retryCountSlotB := retryCount })

/-- `FROM_REG_TO_VAR`. -/
def syncFromRegister (register : BitVec 32) (info : Info) : Info :=
  { info with
    currentSlot := currentSlotField.get register
    retryCountSlotA := retryCountAField.get register
    retryCountSlotB := retryCountBField.get register }

/-- `FROM_VAR_TO_REG`. -/
def syncToRegister (info : Info) (register : BitVec 32) : BitVec 32 :=
  retryCountBField.set info.retryCountSlotB
    (retryCountAField.set info.retryCountSlotA
      (currentSlotField.set info.currentSlot register))

def isValidRootfs (info : Info) : Bool :=
  ¬ (info.value .redundancy = redundancyBootOnly ∧ info.value .statusA = osStatusUnbootable) ∧
    ¬ (info.value .redundancy = redundancyBootRootfs ∧ info.value .statusA = osStatusUnbootable ∧
      info.value .statusB = osStatusUnbootable)

/-- Writes what is flagged, in the order of the indices, up to the first failure. -/
def checkAndUpdateVariable (services : Services) (info : Info) :
    List VariableIndex → Store → Status × Store
  | [], store => (.success, store)
  | index :: rest, store =>
    if info.updateFlag index then
      match rfSetVariable services store index (info.value index) with
      | (.success, store) => checkAndUpdateVariable services info rest store
      | failed => failed
    else checkAndUpdateVariable services info rest store

def isRootfsSlotBootable (info : Info) (rootfsSlot : BitVec 32) : Bool :=
  match getRetryCountFrommRootfsInfo info rootfsSlot with
  | .error _ => false
  | .ok retryCount => retryCount ≠ 0

def decreaseRootfsRetryCount (info : Info) (rootfsSlot : BitVec 32) : Status × Info :=
  match getRetryCountFrommRootfsInfo info rootfsSlot with
  | .error status => (status, info)
  | .ok retryCount =>
    if retryCount ≠ 0 then setRetryCountTomRootfsInfo info rootfsSlot (retryCount - 1)
    else (.invalidParameter, info)

/-- Where the switch over the redundancy level leaves `Status`, `mRootfsInfo`, the boot mode and
the register value. -/
structure Selection where
  status : Status
  info : Info
  bootMode : BitVec 32
  register : BitVec 32

def selectBootOnly (info : Info) (bootMode register : BitVec 32) : Selection :=
  let info :=
    if info.currentSlot ≠ rootfsSlotA then { info with currentSlot := rootfsSlotA } else info
  if isRootfsSlotBootable info info.currentSlot then
    let (status, info) := decreaseRootfsRetryCount info info.currentSlot
    ⟨status, info, bootMode, register⟩
  else
    match setStatusTomRootfsInfo info info.currentSlot osStatusUnbootable with
    | (.success, info) => ⟨.success, info, bootModeRecovery, 0⟩
    | (status, info) => ⟨status, info, bootModeRecovery, register⟩

def selectBootRootfs (info : Info) (bootMode register : BitVec 32) : Selection :=
  if isRootfsSlotBootable info info.currentSlot then
    let (status, info) := decreaseRootfsRetryCount info info.currentSlot
    ⟨status, info, bootMode, register⟩
  else
    match setStatusTomRootfsInfo info info.currentSlot osStatusUnbootable with
    | (.success, info) =>
      let nonCurrentSlot := if info.currentSlot = 0 then rootfsSlotB else rootfsSlotA
      if isRootfsSlotBootable info nonCurrentSlot then
        match decreaseRootfsRetryCount { info with currentSlot := nonCurrentSlot } nonCurrentSlot with
        | (.success, info) => ⟨.success, info.setValue .fwNext nonCurrentSlot, bootMode, register⟩
        | (status, info) => ⟨status, info, bootMode, register⟩
      else
        match setStatusTomRootfsInfo info nonCurrentSlot osStatusUnbootable with
        | (.success, info) => ⟨.success, info, bootModeRecovery, 0⟩
        | (status, info) => ⟨status, info, bootModeRecovery, register⟩
    | (status, info) => ⟨status, info, bootMode, register⟩

def select (info : Info) (bootMode register : BitVec 32) : Selection :=
  if info.value .redundancy = redundancyBootOnly then selectBootOnly info bootMode register
  else if info.value .redundancy = redundancyBootRootfs then
    selectBootRootfs info bootMode register
  else ⟨.success, info, bootMode, register⟩

/-- How a run ends: `reset` says that it ends in `ResetSystem`. -/
structure Result where
  status : Status
  bootParams : BootParams
  store : Store
  reset : Bool

/-- Below the label `Exit`. -/
def exit (services : Services) (bootChain : BitVec 32) (selection : Selection) (store : Store) :
    Result :=
  if selection.status ≠ .success then
    ⟨selection.status, ⟨selection.bootMode, bootChain⟩, store, false⟩
  else
    match setRootfsStatusReg services store .save
      (syncToRegister selection.info selection.register) with
    | (.success, store) =>
      let bootParams : BootParams := ⟨selection.bootMode, selection.info.currentSlot⟩
      let (status, store) := checkAndUpdateVariable services selection.info VariableIndex.all store
      if selection.info.updateFlag .fwNext then
        match setRootfsStatusReg services store .clearForSwitch 0 with
        | (.success, store) =>
          ⟨.success, bootParams, rfDeleteVariable services store .bcStatus, true⟩
        | (status, store) => ⟨status, bootParams, store, false⟩
      else ⟨status, bootParams, store, false⟩
    | (status, store) => ⟨status, ⟨selection.bootMode, bootChain⟩, store, false⟩

/-- The variables as `mRootfsInfo` holds them, with nothing flagged. -/
def readVariables (services : Services) (store : Store) : Except Status Info :=
  if ∀ index ∈ VariableIndex.all, (rfGetVariable services store index).isOk then
    .ok {
      value := fun index => (rfGetVariable services store index).toOption.getD 0
      updateFlag := fun _ => false
      retryCountSlotA := 0
      retryCountSlotB := 0
      currentSlot := 0 }
  else .error .loadError

def validateRootfsStatus (services : Services) (store : Store) (bootParams : BootParams) : Result :=
  if bootParams.bootMode = bootModeRecovery then ⟨.success, bootParams, store, false⟩
  else if rootfsSlotB < bootParams.bootChain then ⟨.invalidParameter, bootParams, store, false⟩
  else
    match readVariables services store with
    | .error status => ⟨status, bootParams, store, false⟩
    | .ok info =>
      match initializeRootfsStatusReg services store info bootParams.bootChain with
      | (.success, register, store) =>
        let info := { syncFromRegister register info with currentSlot := bootParams.bootChain }
        if isValidRootfs info then
          exit services bootParams.bootChain (select info bootParams.bootMode register) store
        else
          let (_, store) := setRootfsStatusReg services store .clearForRecovery 0
          ⟨.success, ⟨bootModeRecovery, bootParams.bootChain⟩, store, false⟩
      | (status, _, store) => ⟨status, bootParams, store, false⟩

end Rootfs
