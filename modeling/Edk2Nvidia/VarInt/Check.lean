import Edk2Nvidia.VarInt.Partition

/-! The protocol functions: measurements are written before a variable update,
committed or dropped behind it, and checked at boot. -/
namespace VarInt
open Flash

section
variable {Store : Type}

def computedMeasurementMatchesValidRecord (this : Protocol Store) (measurement : Measurement) :
    VarIntM (EfiStatus × Bool) := do
  let (status, records) ← getLastValidMeasurements this
  if status.isError then
    pure (status, false)
  else
    pure (.success, records.any fun record =>
      isRecordV1 record.measurement.header && isRecordValid record.measurement.header &&
        measurement.payload == record.measurement.payload)

/-- The header a commit gives a live record. -/
def commitHeader (header : UInt8) (previousResult : EfiStatus) : UInt8 :=
  if isRecordPending header then
    if previousResult.isError then
      -- the update failed: the pending measurement is dropped
      setRecordStatePreserveVersion header varIntInvalid
    else
      setRecordStatePreserveVersion header varIntValid
  else
    if previousResult.isError then
      setRecordStatePreserveVersion header varIntValid
    else
      setRecordStatePreserveVersion header varIntInvalid

/-- `CommitMeasurements`; `status` is the first error so far. -/
def commitMeasurements (this : Protocol Store) (previousResult : EfiStatus) :
    List MeasureRec → EfiStatus → VarIntM EfiStatus
  | [], status => pure status
  | curRec :: rest, status => do
    let header := commitHeader curRec.measurement.header previousResult
    let writeStatus ← partitionWrite this curRec.byteOffset [header]
    commitMeasurements this previousResult rest
      (if writeStatus.isError && !status.isError then writeStatus else status)

def updateLiveMeasurementRecordStates (this : Protocol Store) (previousResult : EfiStatus) :
    VarIntM EfiStatus := do
  let (status, records) ← getLastValidMeasurements this
  if status.isError then
    pure status
  else if records.isEmpty then
    pure .notFound
  else
    commitMeasurements this previousResult records .success

/-- `VarIntComputeMeasurement`, with a variable update before it takes place, or without
one for the committed store. -/
def varIntComputeMeasurement (this : Protocol Store) (store : Store)
    (update : Option VariableUpdate) : VarIntM EfiStatus := do
  match update with
  | some u =>
    modify fun s => clearSpeculativeMeasurement this { s with
      measurementDirty := false
      prePostComparisonValid := false
      prePostComparisonMatched := false
      preWrittenMeasurementPending := false }
    if isSkipped this store u then
      modify fun s => { s with curMeasurement := .zeroMem this.measurementSize }
      pure .success
    else
      let status ← computeCurrentMeasurement this store update .v1 .curMeasurement
      if status.isError then
        modify (clearSpeculativeMeasurement this)
        pure status
      else
        modify fun s => { s with
          speculativeMeasurement := s.curMeasurement
          speculativeMeasurementValid := true
          measurementDirty := true }
        pure status
  | none =>
    let status ← computeCurrentMeasurement this store update .v1 .curMeasurement
    if status.isError then
      modify (clearSpeculativeMeasurement this)
      pure status
    else
      modify fun s => logPrePostMeasurementCompare this s.curMeasurement s
      pure status

/-- The part of `VarIntWriteMeasurement` that writes a new pending record. -/
def writePendingRecord (this : Protocol Store) (preMeasurementWrite : Bool) :
    VarIntM EfiStatus := do
  let (status, measurementUnchanged) ←
    computedMeasurementMatchesValidRecord this (← get).curMeasurement
  if status.isError then
    pure status
  else if measurementUnchanged then
    modify fun s => clearSpeculativeMeasurement this { s with
      prePostComparisonValid := false
      prePostComparisonMatched := false
      preWrittenMeasurementPending := false
      measurementDirty := false
      curMeasurement := .zeroMem this.measurementSize }
    pure .success
  else
    let (status, curOffset) ← getWriteOffset this
    if status.isError then
      pure status
    else
      modify fun s => { s with
        curMeasurement := { s.curMeasurement with header := varIntV1Pending } }
      let status ← partitionWrite this curOffset (← get).curMeasurement.bytes
      if status.isError then
        pure status
      else
        modify fun s => { s with
          preWrittenMeasurementPending := preMeasurementWrite || s.preWrittenMeasurementPending }
        pure status

/-- `VarIntWriteMeasurement` up to its exit label. -/
def writeMeasurement (this : Protocol Store) (preMeasurementWrite : Bool) :
    VarIntM EfiStatus := do
  let s ← get
  if s.preWrittenMeasurementPending then
    if !s.prePostComparisonValid then
      pure .notReady
    else if s.prePostComparisonMatched then
      modify fun s => { s with
        curMeasurement := { s.curMeasurement with header := varIntV1Pending } }
      pure .success
    else if this.allocatePool this.measurementSize then
      let correctedMeasurement := s.curMeasurement
      let status ← updateLiveMeasurementRecordStates this .aborted
      if status.isError then
        pure status
      else
        modify fun s => { s with
          preWrittenMeasurementPending := false
          curMeasurement := correctedMeasurement }
        writePendingRecord this preMeasurementWrite
    else
      pure .outOfResources
  else
    writePendingRecord this preMeasurementWrite

def varIntWriteMeasurement (this : Protocol Store) : VarIntM EfiStatus := do
  let preMeasurementWrite := (← get).speculativeMeasurementValid
  let status ← writeMeasurement this preMeasurementWrite
  if status.isError && preMeasurementWrite then
    modify fun s => clearSpeculativeMeasurement this { s with
      preWrittenMeasurementPending := false
      measurementDirty := false
      curMeasurement := .zeroMem this.measurementSize }
  pure status

def varIntMarkDirty (this : Protocol Store) (update : VariableUpdate) (previousResult : EfiStatus) :
    VarIntM EfiStatus := do
  let s ← get
  if !s.bootstrapDeferred then
    pure .success
  else if previousResult.isError || isExcludedVar this update.variableName update.vendorGuid then
    pure .success
  else
    set { s with measurementDirty := true }
    pure .success

def varIntFlushDeferredMeasurement (this : Protocol Store) (store : Store) :
    VarIntM EfiStatus := do
  if !(← get).bootstrapDeferred then
    pure .success
  else
    let status ← flush
    modify fun s => { s with curMeasurement := .zeroMem this.measurementSize }
    pure status
where
  flush : VarIntM EfiStatus := do
    let status ← computeCurrentMeasurement this store none .v1 .curMeasurement
    if status.isError then
      pure status
    else
      let (status, curOffset) ← getWriteOffset this
      if status.isError then
        pure status
      else
        modify fun s => { s with
          curMeasurement := { s.curMeasurement with header := varIntV1Pending } }
        let status ← partitionWrite this curOffset (← get).curMeasurement.bytes
        if status.isError then
          pure status
        else
          modify fun s => { s with
            curMeasurement := { s.curMeasurement with header := varIntV1Valid } }
          let status ← partitionWrite this curOffset [varIntV1Valid]
          if status.isError then
            pure status
          else
            modify fun s => { s with bootstrapDeferred := false, measurementDirty := false }
            pure status

/-- The header `FinalizeValidatedRecords` gives a record. -/
def finalHeader (header : UInt8) (keep : Bool) : UInt8 :=
  if keep then
    if isRecordPending header then setRecordStatePreserveVersion header varIntValid else header
  else if isRecordLive header then
    setRecordStatePreserveVersion header varIntInvalid
  else
    header

/-- `FinalizeValidatedRecords`; `keepRecord` is the offset of the record to keep, and
`status` the last error so far. -/
def finalizeValidatedRecords (this : Protocol Store) (keepRecord : Option Nat) :
    List MeasureRec → EfiStatus → VarIntM EfiStatus
  | [], status => pure status
  | curRec :: rest, status => do
    let newState := finalHeader curRec.measurement.header (keepRecord == some curRec.byteOffset)
    if newState = curRec.measurement.header then
      finalizeValidatedRecords this keepRecord rest status
    else
      let writeStatus ← partitionWrite this curRec.byteOffset [newState]
      finalizeValidatedRecords this keepRecord rest
        (if writeStatus.isError then writeStatus else status)

def migrateV0RecordToV1 (this : Protocol Store) (v0Record : MeasureRec) :
    VarIntM (EfiStatus × MeasureRec) := do
  if !isRecordV0 v0Record.measurement.header then
    pure (.invalidParameter, v0Record)
  else
    let (status, curOffset) ← getWriteOffset this
    if status.isError then
      pure (status, v0Record)
    else
      modify fun s => { s with
        curMeasurement := { s.curMeasurement with header := varIntV1Pending } }
      let status ← partitionWrite this curOffset (← get).curMeasurement.bytes
      if status.isError then
        pure (status, v0Record)
      else
        modify fun s => { s with
          curMeasurement := { s.curMeasurement with header := varIntV1Valid } }
        let status ← partitionWrite this curOffset [varIntV1Valid]
        if status.isError then
          pure (status, v0Record)
        else
          let header := setRecordStatePreserveVersion v0Record.measurement.header varIntInvalid
          let status ← partitionWrite this v0Record.byteOffset [header]
          pure (status, { v0Record with measurement := { v0Record.measurement with header } })

def varIntInvalidateLast (this : Protocol Store) (update : VariableUpdate)
    (prevResult : EfiStatus) : VarIntM EfiStatus := do
  let status ← invalidate
  modify fun s => clearSpeculativeMeasurement this { s with
    preWrittenMeasurementPending := false
    prePostComparisonValid := false
    prePostComparisonMatched := false
    measurementDirty := false
    curMeasurement := .zeroMem this.measurementSize }
  pure status
where
  invalidate : VarIntM EfiStatus := do
    let s ← get
    if isExcludedVar this update.variableName update.vendorGuid then
      pure .success
    else if !isRecordPending s.curMeasurement.header && !s.preWrittenMeasurementPending then
      pure .success
    else
      modify fun s => { s with
        curMeasurement := { s.curMeasurement with
          header := setRecordStatePreserveVersion s.curMeasurement.header varIntValid } }
      updateLiveMeasurementRecordStates this prevResult

def initPartition (this : Protocol Store) : VarIntM EfiStatus := do
  if (← get).curMeasurement.header = fvbErasedByte then
    modify fun s => { s with
      curMeasurement := { s.curMeasurement with header := varIntV1Valid } }
    let (status, writeOffset) ← getWriteOffset this
    if status.isError then
      pure status
    else
      partitionWrite this writeOffset (← get).curMeasurement.bytes
  else
    pure .success

/-- The first record of the version whose payload is the computed one. -/
def findMatch (records : List MeasureRec) (isVersion : UInt8 → Bool) (payload : List UInt8) :
    Option MeasureRec :=
  records.find? fun record =>
    isVersion record.measurement.header && payload == record.measurement.payload

/-- `VarIntValidate` between the computation of the measurement and the exit label:
whether a record matched, and the status. -/
def validateRecords (this : Protocol Store) (store : Store) : VarIntM (Bool × EfiStatus) := do
  let status ← computeCurrentMeasurement this store none .v1 .curMeasurement
  if status.isError then
    pure (false, status)
  else
    let (status, records) ← getLastValidMeasurements this
    if status.isError then
      pure (false, status)
    else if records.isEmpty then
      pure (false, .notFound)
    else
      match findMatch records isRecordV1 (← get).curMeasurement.payload with
      | some matchedRecord =>
        let status ← finalizeValidatedRecords this (some matchedRecord.byteOffset) records .success
        pure (true, status)
      | none =>
        -- `IsV0MigrationAllowed` is a stub that answers yes
        let status ← computeCurrentMeasurement this store none .v0 .curMeas
        if status.isError then
          pure (false, status)
        else
          match findMatch records isRecordV0 (← get).curMeas.payload with
          | none => pure (false, status)
          | some matchedRecord =>
            let (status, migrated) ← migrateV0RecordToV1 this matchedRecord
            if status.isError then
              pure (true, status)
            else
              let status ← finalizeValidatedRecords this none
                (records.map fun record =>
                  if record.byteOffset = matchedRecord.byteOffset then migrated else record)
                .success
              pure (true, status)

def varIntValidate (this : Protocol Store) (store : Store) : VarIntM EfiStatus := do
  modify fun s => { s with bootstrapDeferred := false, measurementDirty := false }
  let status ←
    if ← isMeasurementPartitionErasedOrZero this then do
      modify fun s => { s with bootstrapDeferred := true }
      pure .success
    else do
      let (isMatched, status) ← validateRecords this store
      if isMatched then
        pure status
      else if ← isMeasurementPartitionErasedOrZero this then
        initPartition this
      else
        pure .deviceError
  modify fun s => { s with
    curMeasurement := .zeroMem this.measurementSize
    curMeas := .zeroMem this.measurementSize }
  pure status

/-- The driver as `VarIntInit` leaves it: the partition is copied, everything else zero. -/
def varIntInit (this : Protocol Store) : VarIntM EfiStatus := do
  let (status, partitionData) ←
    this.norFlashProtocol.read this.partitionByteOffset this.partitionSize
  set (⟨fun i => partitionData.getD i 0, .zeroMem this.measurementSize,
    .zeroMem this.measurementSize, .zeroMem this.measurementSize,
    false, false, false, false, false, false⟩ : Driver)
  pure status

end

end VarInt
