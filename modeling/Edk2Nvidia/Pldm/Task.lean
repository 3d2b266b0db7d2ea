import Edk2Nvidia.Pldm.Message

/-! The firmware update task of one device: its state, and what each state's handler does.
A handler that follows a pointer nothing has set up yet has no outcome. -/
namespace Pldm
open Flash Parse

inductive TaskState where
  | start
  | queryDeviceIdentifiersSetupReq
  | queryDeviceIdentifiersProcessRsp
  | getFwParamsSetupReq
  | getFwParamsProcessRsp
  | processPackage
  | requestUpdateSetupReq
  | requestUpdateProcessRsp
  | passComponentTableSetupReq
  | passComponentTableProcessRsp
  | passComponentTableNextComponent
  | updateComponentSetupReq
  | updateComponentProcessRsp
  | waitForRequests
  | requestFwDataHandleReq
  | transferCompleteHandleReq
  | verifyCompleteHandleReq
  | applyCompleteHandleReq
  | nextComponent
  | activateFwSetupReq
  | activateFwProcessRsp
  | complete
  | receive
  | sendReq
  | processRsp
  | retryReq
  | fatalError
  | cancelUpdateComponentSetupReq
  | cancelUpdateComponentProcessRsp
  | cancelUpdateSetupReq
  | cancelUpdateProcessRsp
  | max
deriving DecidableEq, Repr

inductive FDState where
  | idle
  | learnComponents
  | readyXfer
  | download
  | verify
  | apply
  | activate
deriving DecidableEq, Repr

/-- `PLDM_FW_UPDATE_TASK_ERROR`. The codes that a device reports come in ranges. -/
inductive TaskError where
  | none
  | queryDeviceIdsFailed
  | noFdMatchInPkg
  | getFwParamsFailed
  | getFwParamsBufferTooSmall
  | noUpdateComponents
  | requestUpdateFailed
  | requestUpdateUnsupported
  | passComponentTableFailed
  | passComponentTableBadRsp
  | updateComponentFailed
  | updateComponentWillNotUpdate
  | transferCompleteBadLen
  | transferCompleteResultErr
  | verifyCompleteBadLen
  | verifyCompleteFailed
  | applyCompleteBadLen
  | applyCompleteFailed
  | activateFwFailed
  | requestFwDataTimeout
  | sendReqFailed
  | reqRetriesExhausted
  | transferCompleteFailedSpec (result : Nat)
  | transferCompleteFailedVendor (result : Nat)
  | verifyCompleteFailedSpec (result : Nat)
  | verifyCompleteFailedVendor (result : Nat)
  | applyCompleteFailedSpec (result : Nat)
  | applyCompleteFailedVendor (result : Nat)
deriving DecidableEq, Repr

structure Timer where
  enabled : Bool := false
  endNs : Nat := 0
deriving DecidableEq, Repr

def Timer.isExpired (timer : Timer) (nowNs : Nat) : Bool := timer.enabled && timer.endNs ≤ nowNs

def startTimer (nowNs timeoutMs : Nat) : Timer := ⟨true, nowNs + timeoutMs * 1000 * 1000⟩

def Timer.cancel (timer : Timer) : Timer := { timer with enabled := false }

/-- `PLDM_FW_UPDATE_TASK`, as `PldmFwUpdateTaskCreate` zeroes it. -/
structure Task where
  taskState : TaskState := .start
  status : EfiStatus := .success
  complete : Bool := false
  isExpectingFDRequests : Bool := false
  retryCount : Nat := 0
  fdState : FDState := .idle
  rspExtraMs : Nat := 0
  rspTimer : Timer := {}
  requestFwDataTimer : Timer := {}
  instanceId : UInt8 := 0
  recvBuffer : Memory := fun _ => 0
  recvLength : Nat := 0
  recvMsgTag : UInt8 := 0
  request : Memory := fun _ => 0
  requestLength : Nat := 0
  requestMsgTag : UInt8 := 0
  requestIsActive : Bool := false
  response : Memory := fun _ => 0
  responseLength : Nat := 0
  processResponseState : TaskState := .start
  pkgHdr : Memory
  pkgLen : Nat
  deviceIdRecord : Option Nat := none
  imageInfoArea : Option Nat := none
  imageInfo : Option Nat := none
  componentImageIndex : Nat := 0
  numUpdateComponents : Nat := 0
  updateComponentIndex : Nat := 0
  lastFwDataRequested : Nat := 0
  getFwParamsResponse : Option Memory := none
  fwParamsComponentIndex : Nat := 0

structure Globals where
  numTasksComplete : Nat := 0
  status : EfiStatus := .success
  activationMethod : Nat := 0
  error : TaskError := .none
  cancelAllUpdates : Bool := false
deriving DecidableEq, Repr

abbrev recvBufferSize : Nat := 1024

/-- What `FD->Recv` comes back with. A message fits the buffer it is received into. -/
inductive Recv where
  | timeout
  | error
  | message (bytes : List UInt8) (msgTag : UInt8) (fits : bytes.length ≤ recvBufferSize)

/-- What one handler may learn from outside: the time, and the device's end of `FD->Recv`
and `FD->Send`. -/
structure Input where
  nowNs : Nat := 0
  recv : Recv := .timeout
  sendStatus : EfiStatus := .success
  sendMsgTag : UInt8 := 0

structure Sent where
  isRequest : Bool
  message : List UInt8
deriving DecidableEq, Repr

structure Outcome where
  next : TaskState
  task : Task
  globals : Globals
  sent : List Sent := []

abbrev Handler := Input → Globals → Task → Option Outcome

def setError (globals : Globals) (error : TaskError) : Globals :=
  if globals.error = .none then { globals with error } else globals

def Task.setFDState (task : Task) (fdState : FDState) : Task := { task with fdState }

/-- The current component is this one of the parameter table. -/
def Task.toComponent (task : Task) (fwParamsComponentIndex : Nat) : Task :=
  { task with fwParamsComponentIndex }

def Task.countImage (task : Task) : Task :=
  { task with componentImageIndex := task.componentImageIndex + 1 }

/-- The info of the current image is here. -/
def Task.toImageInfo (task : Task) (info : Nat) : Task := { task with imageInfo := some info }

/-- The device is not to send requests any more. -/
def Task.expectNoRequests (task : Task) : Task := { task with isExpectingFDRequests := false }

def resetComponentInfo (task : Task) : Task :=
  let imageInfoArea := getComponentImageInfoArea.value task.pkgHdr
  { task with
    imageInfoArea := some imageInfoArea
    imageInfo := some (imageInfos imageInfoArea)
    componentImageIndex := 0
    fwParamsComponentIndex := 0
    updateComponentIndex := 0
    lastFwDataRequested := 0 }

/-- `PldmFwTaskSendReqSetup`, with what the caller wrote behind the header. -/
def sendReqSetup (task : Task) (command : UInt8) (payload : List UInt8)
    (processResponseState : TaskState) : Task :=
  let instanceId := task.instanceId + 1
  { task with
    retryCount := pldmPN1Retries
    instanceId
    requestLength := Common.size + payload.length
    processResponseState
    rspExtraMs := 0
    request := overwrite (overwrite task.request Common.size payload) 0
      (fwFillCommon true instanceId command) }

def unlessCancelled (cancelled : TaskState) (body : Handler) : Handler := fun input globals task =>
  if globals.cancelAllUpdates then
    some { next := cancelled, task, globals }
  else
    body input globals task

def failWith (error : TaskError) : Handler := fun _ globals task =>
  some { next := .fatalError, task, globals := setError globals error }

def taskStart : Handler := fun _ globals task =>
  some { next := .queryDeviceIdentifiersSetupReq, task, globals }

def queryDeviceIdentifiersSetupReq : Handler := fun _ globals task =>
  some { next := .sendReq, globals
         task := sendReqSetup task Command.queryDeviceIds [] .queryDeviceIdentifiersProcessRsp }

def queryDeviceIdentifiersProcessRsp : Handler := fun input globals task =>
  let response := task.recvBuffer
  if (fwQueryDeviceIdsCheckRsp response task.recvLength).isError then
    failWith .queryDeviceIdsFailed input globals task
  else
    match (matchesFD (QueryDeviceIds.count response) response QueryDeviceIds.descriptors).value
        task.pkgHdr with
    | none => failWith .noFdMatchInPkg input globals task
    | some record =>
      some { next := .getFwParamsSetupReq, task := { task with deviceIdRecord := some record }, globals }

def getFwParamsSetupReq : Handler := fun _ globals task =>
  some { next := .sendReq, globals
         task := sendReqSetup task Command.getFwParams [] .getFwParamsProcessRsp }

abbrev fwParamsSize : Nat := 512

def getFwParamsProcessRsp : Handler := fun input globals task =>
  let response := task.recvBuffer
  if (fwGetFwParamsCheckRsp response task.recvLength).isError then
    failWith .getFwParamsFailed input globals task
  else if task.recvLength > fwParamsSize then
    failWith .getFwParamsBufferTooSmall input globals task
  else
    some { next := .processPackage, globals
           task := { task with
             getFwParamsResponse := some (overwrite (fun _ => 0) 0 (slice response 0 task.recvLength)) } }

/-- The classification and id of a component image. -/
def imageClassification (pkg : Memory) (info : Nat) : Nat := (ImageInfo.classification info).value pkg
def imageId (pkg : Memory) (info : Nat) : Nat := (ImageInfo.id info).value pkg

/-- The inner loop of `PldmFwTaskProcessPackage`: the components an image is for. -/
def countMatches (pkg response : Memory) (info : Nat) : Nat :=
  (List.range (FwParams.componentCount response)).countP
    (componentMatches response (imageClassification pkg info) (imageId pkg info))

/-- The outer loop of `PldmFwTaskProcessPackage`, with the images still to come. -/
def countUpdateComponents (pkg response : Memory) (record : Nat) : Nat → Nat → Nat → Nat
  | 0, _, _ => 0
  | count + 1, index, info =>
    (if (componentIsApplicable index record).value pkg then countMatches pkg response info else 0) +
      countUpdateComponents pkg response record count (index + 1)
        ((getNextComponentImage info).value pkg)

def processPackage : Handler := fun input globals task => do
  let task := resetComponentInfo task
  let imageInfoArea ← task.imageInfoArea
  let record ← task.deviceIdRecord
  let response ← task.getFwParamsResponse
  let numUpdateComponents := countUpdateComponents task.pkgHdr response record
    ((imageCount imageInfoArea).value task.pkgHdr) 0 (imageInfos imageInfoArea)
  let task := { task with numUpdateComponents }
  if numUpdateComponents = 0 then
    failWith .noUpdateComponents input globals task
  else
    some { next := .requestUpdateSetupReq, task, globals }

abbrev maxTransferSize : Nat := 4 * 1024

/-- The fields of `PLDM_FW_REQUEST_UPDATE_REQUEST`. -/
def requestUpdateRequest (pkg : Memory) (record numUpdateComponents : Nat) : List UInt8 :=
  let versionStringLength := (DeviceIdRecord.imageSetVersionStringLength record).value pkg
  toLittleEndian 4 maxTransferSize ++ toLittleEndian 2 numUpdateComponents ++ [1] ++
    toLittleEndian 2 ((DeviceIdRecord.packageDataLength record).value pkg) ++
    toLittleEndian 1 ((DeviceIdRecord.imageSetVersionStringType record).value pkg) ++
    toLittleEndian 1 versionStringLength ++
    slice pkg ((getDeviceIdRecordImageSetVersionString record).value pkg) versionStringLength

def requestUpdateSetupReq : Handler := unlessCancelled .cancelUpdateSetupReq fun _ globals task => do
  let record ← task.deviceIdRecord
  return { next := .sendReq, globals
           task := sendReqSetup task Command.requestUpdate
             (requestUpdateRequest task.pkgHdr record task.numUpdateComponents)
             .requestUpdateProcessRsp }

def requestUpdateProcessRsp : Handler :=
  unlessCancelled .cancelUpdateSetupReq fun input globals task =>
    let response := task.recvBuffer
    if (fwCheckRspCompletionAndLength response task.recvLength 8).isError then
      failWith .requestUpdateFailed input globals task
    else if le16 response 5 > 0 ∨ response 7 ≠ 0 then
      failWith .requestUpdateUnsupported input globals task
    else
      some { next := .passComponentTableSetupReq, task := task.setFDState .learnComponents, globals }

/-- What both component requests say of the image, from its classification to its
comparison stamp. -/
def componentFields (pkg response : Memory) (info fwParamsComponentIndex : Nat) : List UInt8 :=
  toLittleEndian 2 (imageClassification pkg info) ++ toLittleEndian 2 (imageId pkg info) ++
    [FwParamsComponent.classificationIndex response
      (fwGetFwParamsComponent response fwParamsComponentIndex)] ++
    toLittleEndian 4 ((ImageInfo.comparisonStamp info).value pkg)

/-- The version string of the image, with its type and length. -/
def versionFields (pkg : Memory) (info : Nat) : List UInt8 :=
  let versionStringLength := (ImageInfo.versionStringLength info).value pkg
  toLittleEndian 1 ((ImageInfo.versionStringType info).value pkg) ++
    toLittleEndian 1 versionStringLength ++
    slice pkg (ImageInfo.versionString info) versionStringLength

abbrev transferFlagStart : UInt8 := 0x01
abbrev transferFlagMiddle : UInt8 := 0x02
abbrev transferFlagEnd : UInt8 := 0x04

/-- The transfer flag of component `updateComponentIndex` of `numUpdateComponents`. -/
def transferFlag (updateComponentIndex numUpdateComponents : Nat) : UInt8 :=
  let flag := (if updateComponentIndex = 0 then transferFlagStart else 0) |||
    (if updateComponentIndex + 1 = numUpdateComponents then transferFlagEnd else 0)
  if flag = 0 then transferFlagMiddle else flag

/-- The fields of `PLDM_FW_PASS_COMPONENT_TABLE_REQUEST`. -/
def passComponentTableRequest (pkg response : Memory) (info fwParamsComponentIndex : Nat)
    (flag : UInt8) : List UInt8 :=
  [flag] ++ componentFields pkg response info fwParamsComponentIndex ++ versionFields pkg info

def passComponentTableSetupReq : Handler :=
  unlessCancelled .cancelUpdateSetupReq fun _ globals task => do
    let record ← task.deviceIdRecord
    if (componentIsApplicable task.componentImageIndex record).value task.pkgHdr = false then
      return { next := .passComponentTableNextComponent, task, globals }
    else do
      let response ← task.getFwParamsResponse
      let info ← task.imageInfo
      let (found, fwParamsComponentIndex) := fwGetNextFwParamsMatchingComponent response
        task.fwParamsComponentIndex (imageClassification task.pkgHdr info) (imageId task.pkgHdr info)
      let task := task.toComponent fwParamsComponentIndex
      if found = false then
        return { next := .passComponentTableNextComponent, task, globals }
      else
        return { next := .sendReq, globals
                 task := sendReqSetup task Command.passComponentTable
                   (passComponentTableRequest task.pkgHdr response info fwParamsComponentIndex
                     (transferFlag task.updateComponentIndex task.numUpdateComponents))
                   .passComponentTableProcessRsp }

def passComponentTableProcessRsp : Handler :=
  unlessCancelled .cancelUpdateSetupReq fun input globals task =>
    let response := task.recvBuffer
    if (fwCheckRspCompletionAndLength response task.recvLength 7).isError then
      failWith .passComponentTableFailed input globals task
    else if response 5 ≠ 0 then
      failWith .passComponentTableBadRsp input globals task
    else
      some { next := .passComponentTableNextComponent, task, globals }

def passComponentTableNextComponent : Handler :=
  unlessCancelled .cancelUpdateSetupReq fun _ globals task => do
    let response ← task.getFwParamsResponse
    let info ← task.imageInfo
    let imageInfoArea ← task.imageInfoArea
    let (found, fwParamsComponentIndex) := fwGetNextFwParamsMatchingComponent response
      (task.fwParamsComponentIndex + 1) (imageClassification task.pkgHdr info)
      (imageId task.pkgHdr info)
    let task := task.toComponent fwParamsComponentIndex
    if found then
      return { next := .passComponentTableSetupReq, task, globals }
    else
      let task := task.countImage
      if task.componentImageIndex ≥ (imageCount imageInfoArea).value task.pkgHdr then
        return { next := .updateComponentSetupReq, globals
                 task := (resetComponentInfo task).setFDState .readyXfer }
      else
        return { next := .passComponentTableSetupReq, globals
                 task := task.toImageInfo ((getNextComponentImage info).value task.pkgHdr) }

/-- `PLDM_FW_PKG_COMPONENT_OPT_FORCE_UPDATE`, as the update option flag. -/
def updateOptionFlags (options : Nat) : Nat := options % 2

/-- The fields of `PLDM_FW_UPDATE_COMPONENT_REQUEST`. -/
def updateComponentRequest (pkg response : Memory) (info fwParamsComponentIndex : Nat) :
    List UInt8 :=
  componentFields pkg response info fwParamsComponentIndex ++
    toLittleEndian 4 ((ImageInfo.size info).value pkg) ++
    toLittleEndian 4 (updateOptionFlags ((ImageInfo.options info).value pkg)) ++
    versionFields pkg info

def updateComponentSetupReq : Handler :=
  unlessCancelled .cancelUpdateComponentSetupReq fun _ globals task => do
    let record ← task.deviceIdRecord
    if (componentIsApplicable task.componentImageIndex record).value task.pkgHdr = false then
      return { next := .nextComponent, task, globals }
    else do
      let response ← task.getFwParamsResponse
      let info ← task.imageInfo
      let (found, fwParamsComponentIndex) := fwGetNextFwParamsMatchingComponent response
        task.fwParamsComponentIndex (imageClassification task.pkgHdr info) (imageId task.pkgHdr info)
      let task := task.toComponent fwParamsComponentIndex
      if found = false then
        return { next := .nextComponent, task, globals }
      else
        return { next := .sendReq, globals
                 task := sendReqSetup task Command.updateComponent
                   (updateComponentRequest task.pkgHdr response info fwParamsComponentIndex)
                   .updateComponentProcessRsp }

def updateComponentProcessRsp : Handler :=
  unlessCancelled .cancelUpdateComponentSetupReq fun input globals task =>
    let response := task.recvBuffer
    if (fwCheckRspCompletionAndLength response task.recvLength 13).isError then
      failWith .updateComponentFailed input globals task
    else if response 5 ≠ 0 then
      failWith .updateComponentWillNotUpdate input globals task
    else
      let timeBeforeRequestFwData := le16 response 11
      some { next := .waitForRequests, globals
             task := { task with
               fdState := .download
               requestFwDataTimer := startTimer input.nowNs
                 (timeBeforeRequestFwData + pldmFwUaT2MsMax) } }

def waitForRequests : Handler :=
  unlessCancelled .cancelUpdateComponentSetupReq fun _ globals task =>
    some { next := .receive, task := { task with isExpectingFDRequests := true }, globals }

/-- Answers the request in the receive buffer: its header, the completion code, the data. -/
def sendResponse (input : Input) (task : Task) (code : UInt8) (data : List UInt8) :
    Task × List Sent :=
  let message := slice task.recvBuffer 0 Common.size ++ [code] ++ data
  ({ task with response := overwrite task.response 0 message, responseLength := message.length },
    if input.sendStatus.isError then [] else [⟨false, message⟩])

/-- The completion code of a `RequestFirmwareData` of `length` bytes at `offset`. -/
def requestFwDataCompletion (task : Task) (offset length imageSize : Nat) : UInt8 :=
  if task.recvLength < 12 then
    Completion.invalidLength
  else if length > maxTransferSize then
    Completion.invalidTransferLength
  else if length + offset > u32 (imageSize + baselineTransferSize) then
    Completion.dataOutOfRange
  else
    Completion.success

def requestFwDataAnswer (task : Task) (offset length : Nat) : Option (UInt8 × List UInt8) :=
  if task.fdState ≠ .download then
    some (Completion.commandNotExpected, [])
  else do
    let info ← task.imageInfo
    let code := requestFwDataCompletion task offset length ((ImageInfo.size info).value task.pkgHdr)
    if code = Completion.success then
      return (code, slice task.pkgHdr ((ImageInfo.locationOffset info).value task.pkgHdr + offset) length)
    else
      return (code, [])

def requestFwDataHandleReq : Handler :=
  unlessCancelled .cancelUpdateComponentSetupReq fun input globals task => do
    let offset := le32 task.recvBuffer 4
    let length := le32 task.recvBuffer 8
    let task := { task with lastFwDataRequested := u32 (offset + length) }
    let (code, data) ← requestFwDataAnswer task offset length
    let (task, sent) := sendResponse input task code data
    return { next := .waitForRequests, globals, sent
             task := { task with requestFwDataTimer := startTimer input.nowNs pldmFwUaT2MsMax } }

/-- A result a device reported as failed, by the range it is in. -/
def resultError (vendorMin : Nat) (spec vendor : Nat → TaskError) (other : TaskError)
    (result : UInt8) : TaskError :=
  let result := result.toNat
  if result ≤ 0x1f then
    spec result
  else if vendorMin ≤ result ∧ result ≤ vendorMin + 0x1f then
    vendor (result - vendorMin)
  else
    other

/-- The device reports the end of a phase: too short a report is an error, any other is
answered, and unless its result is zero the update fails. -/
def phaseCompleteHandleReq (badLen : TaskError) (error : UInt8 → TaskError)
    (received done : Task → Task) : Handler :=
  unlessCancelled .cancelUpdateComponentSetupReq fun input globals task =>
    if task.recvLength < 5 then
      failWith badLen input globals task
    else
      let result := task.recvBuffer 4
      let (task, sent) := sendResponse input (received task) Completion.success []
      if result ≠ 0 then
        some { next := .fatalError, task, globals := setError globals (error result), sent }
      else
        some { next := .waitForRequests, task := done task, globals, sent }

def transferCompleteHandleReq : Handler :=
  phaseCompleteHandleReq .transferCompleteBadLen
    (resultError 0x70 .transferCompleteFailedSpec .transferCompleteFailedVendor
      .transferCompleteResultErr)
    (fun task => { task with requestFwDataTimer := task.requestFwDataTimer.cancel })
    (fun task => { task with lastFwDataRequested := task.pkgLen, fdState := .verify })

def verifyCompleteHandleReq : Handler :=
  phaseCompleteHandleReq .verifyCompleteBadLen
    (resultError 0x90 .verifyCompleteFailedSpec .verifyCompleteFailedVendor .verifyCompleteFailed)
    id (fun task => task.setFDState .apply)

abbrev applyResultSuccess : UInt8 := 0x00
abbrev applyResultSuccessNewActivation : UInt8 := 0x01

/-- The activation methods of the component: the device's new ones, or the package's. -/
def appliedActivationMethod (task : Task) (result : UInt8) : Option Nat :=
  if result = applyResultSuccessNewActivation then
    some (le16 task.recvBuffer 5)
  else do
    let info ← task.imageInfo
    return (ImageInfo.requestedActivationMethod info).value task.pkgHdr

def applyCompleteHandleReq : Handler :=
  unlessCancelled .cancelUpdateComponentSetupReq fun input globals task => do
    if task.recvLength < 7 then
      failWith .applyCompleteBadLen input globals task
    else
      let result := task.recvBuffer 4
      let applyFailed := result ≠ applyResultSuccess ∧ result ≠ applyResultSuccessNewActivation
      let activationMethod ← appliedActivationMethod task result
      let globals := { globals with activationMethod := globals.activationMethod ||| activationMethod }
      let (task, sent) := sendResponse input task Completion.success []
      if applyFailed then
        let error := resultError 0xb0 .applyCompleteFailedSpec .applyCompleteFailedVendor
          .applyCompleteFailed result
        return { next := .fatalError, task, globals := setError globals error, sent }
      else
        return { next := .nextComponent, task := task.setFDState .readyXfer, globals, sent }

/-- `PldmFwTaskNextComponent`. Another component for the same image goes back to the
component table. -/
def nextComponent : Handler :=
  unlessCancelled .cancelUpdateComponentSetupReq fun _ globals task => do
    let response ← task.getFwParamsResponse
    let info ← task.imageInfo
    let imageInfoArea ← task.imageInfoArea
    let (found, fwParamsComponentIndex) := fwGetNextFwParamsMatchingComponent response
      (task.fwParamsComponentIndex + 1) (imageClassification task.pkgHdr info)
      (imageId task.pkgHdr info)
    let task := task.toComponent fwParamsComponentIndex
    if found then
      return { next := .passComponentTableSetupReq, task, globals }
    else
      let task := task.countImage
      if task.componentImageIndex ≥ (imageCount imageInfoArea).value task.pkgHdr then
        return { next := .activateFwSetupReq, task := task.expectNoRequests, globals }
      else
        return { next := .updateComponentSetupReq, globals
                 task := task.toImageInfo ((getNextComponentImage info).value task.pkgHdr) }

def activateFwSetupReq : Handler :=
  unlessCancelled .cancelUpdateComponentSetupReq fun _ globals task =>
    some { next := .sendReq, globals
           task := { sendReqSetup task Command.activateFw [0] .activateFwProcessRsp with
             rspExtraMs := 20 * 1000
             fdState := .activate } }

/-- `PldmFwTaskActivateFwProcessRsp`. The completion code is taken from the buffer this
side's own responses are built in. -/
def activateFwProcessRsp : Handler := fun input globals task =>
  if (fwCheckRspCompletionAndLength task.response task.recvLength 7).isError then
    failWith .activateFwFailed input globals task
  else
    some { next := .complete, task := task.setFDState .idle, globals }

def taskComplete : Handler := fun _ globals task =>
  some { next := .max, task := { task with complete := true }, globals }

def dispatch (buffer : Memory) : TaskState :=
  if Common.mctpType buffer ≠ mctpTypePldm ∧ Common.pldmType buffer ≠ pldmTypeFwUpdate then
    .receive
  else if Common.instanceId buffer &&& pldmRq ≠ 0 then
    if Common.command buffer = Command.requestFwData then .requestFwDataHandleReq
    else if Common.command buffer = Command.transferComplete then .transferCompleteHandleReq
    else if Common.command buffer = Command.verifyComplete then .verifyCompleteHandleReq
    else if Common.command buffer = Command.applyComplete then .applyCompleteHandleReq
    else .receive
  else
    .processRsp

def receive : Handler := fun input globals task =>
  match input.recv with
  | .timeout =>
    let task := { task with recvLength := recvBufferSize }
    if task.requestFwDataTimer.isExpired input.nowNs then
      failWith .requestFwDataTimeout input globals task
    else if task.rspTimer.isExpired input.nowNs then
      some { next := .retryReq, task, globals }
    else
      some { next := .receive, task, globals }
  | .error => some { next := .receive, task := { task with recvLength := recvBufferSize }, globals }
  | .message bytes msgTag _ =>
    let task := { task with
      recvBuffer := overwrite task.recvBuffer 0 bytes
      recvLength := bytes.length
      recvMsgTag := msgTag }
    if task.recvLength < Common.size then
      some { next := .receive, task, globals }
    else
      some { next := dispatch task.recvBuffer, task, globals }

def sendReq : Handler := fun input globals task =>
  if input.sendStatus.isError then
    failWith .sendReqFailed input globals task
  else
    some { next := .receive, globals
           task := { task with
             requestMsgTag := input.sendMsgTag
             requestIsActive := true
             rspTimer := startTimer input.nowNs (pldmPT2MsMax + task.rspExtraMs) }
           sent := [⟨true, slice task.request 0 task.requestLength⟩] }

def processRsp : Handler := fun _ globals task =>
  if task.requestIsActive = false then
    some { next := .receive, task, globals }
  else
    let task := { task with requestIsActive := false, rspTimer := task.rspTimer.cancel }
    if (validateResponse task.request task.recvBuffer task.recvLength task.requestMsgTag
        task.recvMsgTag).isError then
      some { next := .retryReq, task, globals }
    else
      some { next := task.processResponseState, task, globals }

def retryReq : Handler := fun input globals task =>
  if task.retryCount = 0 then
    failWith .reqRetriesExhausted input globals task
  else
    some { next := .sendReq, task := { task with retryCount := task.retryCount - 1 }, globals }

def fatalError : Handler := fun _ globals task =>
  some { next := .complete, task := { task with status := .protocolError }, globals }

def cancelUpdateComponentSetupReq : Handler := fun _ globals task =>
  some { next := .sendReq, globals
         task := sendReqSetup task Command.cancelUpdateComponent [] .cancelUpdateComponentProcessRsp }

/-- `PldmFwTaskCancelUpdateComponentProcessRsp`: a refusal is only printed. -/
def cancelUpdateComponentProcessRsp : Handler := fun _ globals task =>
  some { next := .cancelUpdateSetupReq, task, globals }

def cancelUpdateSetupReq : Handler := fun _ globals task =>
  some { next := .sendReq, globals
         task := sendReqSetup task Command.cancelUpdate [] .cancelUpdateProcessRsp }

/-- `PldmFwTaskCancelUpdateProcessRsp`: a refusal is only printed. -/
def cancelUpdateProcessRsp : Handler := fun _ globals task =>
  some { next := .complete, task, globals }

/-- `mPldmFwTaskStateTable`. Its size is the number of states; nothing runs in the last. -/
def handler : TaskState → Handler
  | .start => taskStart
  | .queryDeviceIdentifiersSetupReq => queryDeviceIdentifiersSetupReq
  | .queryDeviceIdentifiersProcessRsp => queryDeviceIdentifiersProcessRsp
  | .getFwParamsSetupReq => getFwParamsSetupReq
  | .getFwParamsProcessRsp => getFwParamsProcessRsp
  | .processPackage => processPackage
  | .requestUpdateSetupReq => requestUpdateSetupReq
  | .requestUpdateProcessRsp => requestUpdateProcessRsp
  | .passComponentTableSetupReq => passComponentTableSetupReq
  | .passComponentTableProcessRsp => passComponentTableProcessRsp
  | .passComponentTableNextComponent => passComponentTableNextComponent
  | .updateComponentSetupReq => updateComponentSetupReq
  | .updateComponentProcessRsp => updateComponentProcessRsp
  | .waitForRequests => waitForRequests
  | .requestFwDataHandleReq => requestFwDataHandleReq
  | .transferCompleteHandleReq => transferCompleteHandleReq
  | .verifyCompleteHandleReq => verifyCompleteHandleReq
  | .applyCompleteHandleReq => applyCompleteHandleReq
  | .nextComponent => nextComponent
  | .activateFwSetupReq => activateFwSetupReq
  | .activateFwProcessRsp => activateFwProcessRsp
  | .complete => taskComplete
  | .receive => receive
  | .sendReq => sendReq
  | .processRsp => processRsp
  | .retryReq => retryReq
  | .fatalError => fatalError
  | .cancelUpdateComponentSetupReq => cancelUpdateComponentSetupReq
  | .cancelUpdateComponentProcessRsp => cancelUpdateComponentProcessRsp
  | .cancelUpdateSetupReq => cancelUpdateSetupReq
  | .cancelUpdateProcessRsp => cancelUpdateProcessRsp
  | .max => fun _ _ _ => none

end Pldm
