import Edk2Nvidia.Erst.Init

/-! The requests of the operating system to the ERST driver. -/
namespace Erst
open Flash

/-! The statuses of the ACPI specification. -/

def acpiSuccess : Nat := 0
def acpiNotEnoughSpace : Nat := 1
def acpiHardwareNotAvailable : Nat := 2
def acpiFailed : Nat := 3
def acpiRecordStoreEmpty : Nat := 4
def acpiRecordNotFound : Nat := 5

def erstEfiStatusToAcpiStatus (efiStatus : EfiCode) : Nat :=
  if efiStatus = .success then acpiSuccess
  else if efiStatus = .outOfResources ∨ efiStatus = .volumeFull ∨ efiStatus = .bufferTooSmall then
    acpiNotEnoughSpace
  else if efiStatus = .noMedia ∨ efiStatus = .noResponse ∨ efiStatus = .accessDenied ∨
      efiStatus = .writeProtected ∨ efiStatus = .noMapping ∨ efiStatus = .notReady ∨
      efiStatus = .timeout then acpiHardwareNotAvailable
  else if efiStatus = .notFound ∨ efiStatus = .endOfMedia ∨ efiStatus = .endOfFile then
    acpiRecordNotFound
  else acpiFailed

/-! `ERST_OPERATION_TYPE`. -/

def operationWrite : Nat := 1
def operationRead : Nat := 2
def operationClear : Nat := 3
def operationDummyWrite : Nat := 4

/-- What the operating system has put into the registers and the error log buffer, and whether
memory is there for a cache, should the driver start again. -/
structure Request where
  operation : Nat
  recordOffset : Nat
  recordID : Nat
  errorLog : List UInt8
  allocates : Bool

structure Response where
  status : Nat
  recordCount : Nat
  recordID : Nat
  errorLog : List UInt8
deriving DecidableEq, Repr

/-- What an operation comes to before it is reported. -/
structure Result where
  acpiStatus : Nat
  efiStatus : EfiCode
  recordID : Nat
  errorLog : List UInt8

section Handler
variable (config : Config)

/-- `ErstReadRecord` into `buffer`. Its status is a `UINT32`. -/
def erstReadRecord (recordID : Nat) (buffer : List UInt8) (maxLength : Nat) :
    ErstM (EfiCode × List UInt8) := do
  let driver ← get
  match driver.erstFindRecord recordID with
  | none => pure (.notFound, buffer)
  | some index =>
    let record := driver.info index
    if record.recordLength > maxLength then pure (.outOfResources, buffer)
    else
      let (status, data) ← erstReadSpiNor config record.recordOffset record.recordLength
      let cper := received data buffer
      let status := EfiCode.throughUint32 status
      if EfiCode.isError status then pure (status, cper)
      else
        pure (EfiCode.throughUint32 (erstValidateCperHeader cper record.recordLength), cper)

def Driver.erstGetNextRecordID (driver : Driver) (recordID : Nat) : Nat :=
  if driver.recordCount = 0 then erstInvalidRecordId
  else
    match (List.range (driver.recordCount - 1)).find? fun index =>
        (driver.info index).recordId = recordID with
    | some index => (driver.info (index + 1)).recordId
    | none => (driver.info 0).recordId

/-- The cases `ERST_OPERATION_WRITE` and `ERST_OPERATION_DUMMY_WRITE`. -/
def handleWrite (fuel : Nat) (request : Request) (dummyOp : Bool) : ErstM Result := do
  let result : Result := ⟨acpiSuccess, .success, request.recordID, request.errorLog⟩
  if request.recordOffset > config.errorLogLength - sizeofCperHeader then
    pure { result with acpiStatus := acpiFailed }
  else
    let cper := request.errorLog.drop request.recordOffset
    let osRecordLength := cperRecordLength cper
    let osRecordID := cperRecordID cper
    if request.recordOffset + osRecordLength > config.errorLogLength then
      pure { result with acpiStatus := acpiFailed }
    else
      match ← erstAllocatePoolRecord osRecordLength with
      | none => pure { result with acpiStatus := acpiNotEnoughSpace }
      | some (pool, memory) => do
        let newCper := received (cper.take osRecordLength) memory
        let (result, newCper) ← write result osRecordLength osRecordID newCper
        erstFreePoolRecord pool newCper
        pure result
where
  write (result : Result) (osRecordLength osRecordID : Nat) (newCper : List UInt8) :
      ErstM (Result × List UInt8) := do
    let driver ← get
    let record := driver.erstFindRecord osRecordID
    let (efiStatus, newRecord) ← erstPrepareNewRecord config (erstFindFreeSpace config fuel)
      osRecordID osRecordLength dummyOp
    if EfiCode.isError efiStatus then pure ({ result with efiStatus }, newCper)
    else
      let (efiStatus, newCper) ← erstWriteRecord config newCper record (.stack newRecord) dummyOp
      if EfiCode.isError efiStatus ∨ dummyOp then do
        let _ ← erstUndoAllocateRecord config newRecord
        pure ({ result with efiStatus }, newCper)
      else do
        modify Driver.sync
        pure ({ result with
          efiStatus
          recordID :=
            if result.recordID = erstInvalidRecordId then osRecordID else result.recordID },
          newCper)

/-- The case `ERST_OPERATION_READ`. -/
def handleRead (request : Request) : ErstM Result := do
  let driver ← get
  let result : Result := ⟨acpiSuccess, .success, request.recordID, request.errorLog⟩
  if driver.recordCount = 0 then pure { result with acpiStatus := acpiRecordStoreEmpty }
  else if request.recordOffset > config.errorLogLength - sizeofCperHeader then
    pure { result with acpiStatus := acpiNotEnoughSpace }
  else
    let maxLength := config.errorLogLength - request.recordOffset
    let osRecordID :=
      if request.recordID = erstFirstRecordId then (driver.info 0).recordId else request.recordID
    let (efiStatus, cper) ←
      erstReadRecord config osRecordID (request.errorLog.drop request.recordOffset) maxLength
    pure { result with
      efiStatus
      errorLog := request.errorLog.take request.recordOffset ++ cper
      recordID :=
        if !EfiCode.isError efiStatus then driver.erstGetNextRecordID osRecordID
        else if efiStatus = .notFound then (driver.info 0).recordId
        else request.recordID }

/-- The case `ERST_OPERATION_CLEAR`. -/
def handleClear (request : Request) : ErstM Result := do
  let driver ← get
  let result : Result := ⟨acpiSuccess, .success, request.recordID, request.errorLog⟩
  let result ←
    if request.recordID = erstFirstRecordId then pure { result with acpiStatus := acpiFailed }
    else if driver.recordCount = 0 then
      pure { result with acpiStatus := acpiRecordStoreEmpty }
    else if request.recordID = erstInvalidRecordId then
      pure { result with acpiStatus := acpiFailed }
    else
      match driver.erstFindRecord request.recordID with
      | none => pure { result with acpiStatus := acpiRecordNotFound }
      | some record => do
        let efiStatus ← erstClearRecord config record
        pure { result with efiStatus }
  let driver ← get
  pure { result with
    recordID := if driver.recordCount > 0 then (driver.info 0).recordId else erstInvalidRecordId }

def handleOperation (fuel : Nat) (request : Request) : ErstM Result :=
  if request.operation = operationDummyWrite then handleWrite config fuel request true
  else if request.operation = operationWrite then handleWrite config fuel request false
  else if request.operation = operationRead then handleRead config request
  else if request.operation = operationClear then handleClear config request
  else pure ⟨acpiFailed, .success, request.recordID, request.errorLog⟩

/-- The report at the end of `ErrorSerializationEventHandler`. -/
def report (result : Result) : ErstM Response := do
  let driver ← get
  pure {
    status :=
      if result.acpiStatus = acpiSuccess then erstEfiStatusToAcpiStatus result.efiStatus
      else result.acpiStatus
    recordCount := driver.recordCount
    recordID := result.recordID
    errorLog := result.errorLog }

def errorSerializationEventHandler (fuel : Nat) (request : Request) : ErstM Response := do
  let driver ← get
  let failed := fun efiStatus : EfiCode =>
    report ⟨acpiSuccess, efiStatus, request.recordID, request.errorLog⟩
  if EfiCode.isError driver.initStatus then failed driver.initStatus
  else if driver.unsyncedSpinorChanges ≠ 0 ∨ driver.incomingCperInfo ≠ none ∨
      driver.outgoingCperInfo ≠ none then do
    let efiStatus ← errorSerializationInitialize config fuel request.allocates
    if EfiCode.isError efiStatus then failed efiStatus
    else handleOperation config fuel request >>= report
  else handleOperation config fuel request >>= report

end Handler

end Erst
