import Edk2Nvidia.VarInt.Record

/-! The variable integrity protocol: its fields, the globals next to it, which
variable updates are measured, and how a measurement is computed and signed. -/
namespace VarInt
open Flash

abbrev Guid := BitVec 128

/-- The arguments of a `SetVariable`. -/
structure VariableUpdate where
  variableName : String
  vendorGuid : Guid
  attributes : UInt32
  data : List UInt8
deriving DecidableEq, Repr

/-- `NVIDIA_VAR_INT_PROTOCOL` without its buffers, and what the driver gets from
outside: the signing service, the pool, the variable driver and the hash over its
variables. A failed signature stops the CPU, so signing is a function. -/
structure Protocol (Store : Type) where
  partitionByteOffset : Nat
  partitionSize : Nat
  measurementSize : Nat
  norFlashProtocol : NorFlash
  isOpteePresent : Bool
  sign : List UInt8 → List UInt8
  allocatePool : Nat → Bool
  /-- `ExcludedVars`; a missing name stands for every variable of the GUID. -/
  excludedVars : List (Option String × Guid)
  smmGetVariable : Store → String → Guid → Option (UInt32 × List UInt8)
  /-- `ComputeVarMeasurementV0` and `ComputeVarMeasurementV1`, of the store as it is or
  as an update would leave it. -/
  computeVarMeasurement :
    RecordVersion → Store → Option VariableUpdate → Except EfiStatus (List UInt8)

def Protocol.blockSize {Store : Type} (this : Protocol Store) : Nat :=
  this.norFlashProtocol.blockSize

def efiVariableNonVolatile : UInt32 := 0x01
def efiVariableBootserviceAccess : UInt32 := 0x02
def efiVariableRuntimeAccess : UInt32 := 0x04
def efiVariableAppendWrite : UInt32 := 0x40

section
variable {Store : Type}

def isExcludedVar (this : Protocol Store) (varName : String) (varGuid : Guid) : Bool :=
  this.excludedVars.any fun entry =>
    entry.2 == varGuid && (entry.1 == none || entry.1 == some varName)

def isDeleteRequest (attributes : UInt32) (dataSize : Nat) : Bool :=
  (attributes &&& efiVariableAppendWrite == 0 && dataSize == 0) ||
    attributes &&& (efiVariableRuntimeAccess ||| efiVariableBootserviceAccess) == 0

def canUpdateMeasurement (this : Protocol Store) (update : VariableUpdate) : Bool :=
  if isExcludedVar this update.variableName update.vendorGuid then
    false
  else if !isDeleteRequest update.attributes update.data.length &&
      update.attributes &&& efiVariableNonVolatile == 0 then
    false
  else
    true

def isNoOpUpdate (this : Protocol Store) (store : Store) (update : VariableUpdate) : Bool :=
  if isDeleteRequest update.attributes update.data.length ||
      update.attributes &&& efiVariableAppendWrite != 0 then
    false
  else
    match this.smmGetVariable store update.variableName update.vendorGuid with
    | none => false
    | some (existingAttributes, existingData) =>
      let effectiveAttributes := update.attributes &&& ~~~efiVariableAppendWrite
      if existingAttributes != effectiveAttributes ||
          existingData.length != update.data.length then
        false
      else
        existingData == update.data

/-- The update is not measured, or leaves its variable as it is. -/
def isSkipped (this : Protocol Store) (store : Store) (update : VariableUpdate) : Bool :=
  !canUpdateMeasurement this update || isNoOpUpdate this store update

end

/-- The buffers and flags of the protocol and of the driver's globals. The scans also
read into `CurMeas`; nothing they leave there is used. -/
structure Driver where
  /-- The copy of the partition all reads are served from, from its first byte on. -/
  partitionData : Memory
  curMeasurement : Measurement
  curMeas : Measurement
  speculativeMeasurement : Measurement
  bootstrapDeferred : Bool
  measurementDirty : Bool
  speculativeMeasurementValid : Bool
  preWrittenMeasurementPending : Bool
  prePostComparisonValid : Bool
  prePostComparisonMatched : Bool

abbrev VarIntM := FlashM EfiStatus Driver

section
variable {Store : Type}

def getMeasurementPayloadSize (this : Protocol Store) : Nat :=
  this.measurementSize - headerSzBytes

/-- The buffers a measurement is computed into: `CurMeasurement` is the page shared with
the FF-A signing service, `CurMeas` is not. -/
inductive Target where
  | curMeasurement
  | curMeas
deriving DecidableEq, Repr

def Driver.buffer (s : Driver) : Target → Measurement
  | .curMeasurement => s.curMeasurement
  | .curMeas => s.curMeas

def Driver.setBuffer (s : Driver) (target : Target) (measurement : Measurement) : Driver :=
  match target with
  | .curMeasurement => { s with curMeasurement := measurement }
  | .curMeas => { s with curMeas := measurement }

def Driver.signBuffer (s : Driver) (sign : List UInt8 → List UInt8) (target : Target) : Driver :=
  s.setBuffer target { s.buffer target with payload := sign (s.buffer target).payload }

/-- `SendOpteeCmd`. OP-TEE signs the buffer it is given; the FF-A command names no
buffer, so the page shared at start is signed whatever the caller passes. -/
def sendOpteeCmd (this : Protocol Store) (meas : Target) : VarIntM EfiStatus := do
  if this.isOpteePresent then
    modify (·.signBuffer this.sign meas)
  else
    modify (·.signBuffer this.sign .curMeasurement)
  pure .success

def computeCurrentMeasurement (this : Protocol Store) (store : Store)
    (update : Option VariableUpdate) (version : RecordVersion) (measurement : Target) :
    VarIntM EfiStatus := do
  modify (·.setBuffer measurement (.zeroMem this.measurementSize))
  match this.computeVarMeasurement version store update with
  | .error status => pure status
  | .ok meas =>
    modify (·.setBuffer measurement ⟨0, meas⟩)
    let status ← sendOpteeCmd this measurement
    if status.isError then
      pure status
    else
      modify fun s => s.setBuffer measurement { s.buffer measurement with header := fvbErasedByte }
      pure .success

def clearSpeculativeMeasurement (this : Protocol Store) (s : Driver) : Driver :=
  { s with
    speculativeMeasurementValid := false
    speculativeMeasurement := .zeroMem this.measurementSize }

def logPrePostMeasurementCompare (this : Protocol Store) (committedMeasurement : Measurement)
    (s : Driver) : Driver :=
  let s := { s with prePostComparisonValid := false, prePostComparisonMatched := false }
  if !s.speculativeMeasurementValid then
    s
  else if getMeasurementPayloadSize this < 8 then
    clearSpeculativeMeasurement this s
  else
    clearSpeculativeMeasurement this { s with
      prePostComparisonValid := true
      prePostComparisonMatched :=
        s.speculativeMeasurement.payload == committedMeasurement.payload }

end

end VarInt
