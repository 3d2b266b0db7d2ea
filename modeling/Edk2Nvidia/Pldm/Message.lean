import Edk2Nvidia.Pldm.Package

/-! PLDM firmware update messages: the common header, the checks on responses, and the
parameter table a device answers `GetFirmwareParameters` with. -/
namespace Pldm
open Flash

abbrev mctpTypePldm : UInt8 := 0x01
abbrev pldmTypeFwUpdate : UInt8 := 0x05
abbrev pldmRq : UInt8 := 0x80
abbrev pldmInstanceIdMask : UInt8 := 0x3f
abbrev mctpTypeMask : UInt8 := 0x7f

/-! Command codes. -/
namespace Command
abbrev queryDeviceIds : UInt8 := 0x01
abbrev getFwParams : UInt8 := 0x02
abbrev requestUpdate : UInt8 := 0x10
abbrev passComponentTable : UInt8 := 0x13
abbrev updateComponent : UInt8 := 0x14
abbrev requestFwData : UInt8 := 0x15
abbrev transferComplete : UInt8 := 0x16
abbrev verifyComplete : UInt8 := 0x17
abbrev applyComplete : UInt8 := 0x18
abbrev activateFw : UInt8 := 0x1a
abbrev cancelUpdateComponent : UInt8 := 0x1c
abbrev cancelUpdate : UInt8 := 0x1d
end Command

/-! Completion codes. -/
namespace Completion
abbrev success : UInt8 := 0x00
abbrev invalidLength : UInt8 := 0x03
abbrev dataOutOfRange : UInt8 := 0x82
abbrev invalidTransferLength : UInt8 := 0x83
abbrev commandNotExpected : UInt8 := 0x88
end Completion

/-! Timing, in milliseconds. -/
abbrev pldmPN1Retries : Nat := 2
abbrev pldmPT2MsMax : Nat := 5000 - 2 * 100
abbrev pldmFwUaT2MsMax : Nat := 90 * 1000

abbrev baselineTransferSize : Nat := 32

def le8 (m : Memory) (offset : Nat) : Nat := (m offset).toNat
def le16 (m : Memory) (offset : Nat) : Nat := fromLittleEndian (slice m offset 2)
def le32 (m : Memory) (offset : Nat) : Nat := fromLittleEndian (slice m offset 4)

/-! `MCTP_PLDM_COMMON` at the start of a message. -/
namespace Common
abbrev mctpType (m : Memory) : UInt8 := m 0
abbrev instanceId (m : Memory) : UInt8 := m 1
abbrev pldmType (m : Memory) : UInt8 := m 2
abbrev command (m : Memory) : UInt8 := m 3
abbrev size : Nat := 4
end Common

def fwFillCommon (isRequest : Bool) (instanceId command : UInt8) : List UInt8 :=
  [mctpTypePldm, (instanceId &&& pldmInstanceIdMask) ||| (if isRequest then pldmRq else 0),
    pldmTypeFwUpdate, command]

@[simp] theorem length_fwFillCommon (isRequest : Bool) (instanceId command : UInt8) :
    (fwFillCommon isRequest instanceId command).length = Common.size := rfl

/-- The completion code of `MCTP_PLDM_RESPONSE_HEADER`. -/
abbrev completionCode (m : Memory) : UInt8 := m 4

/-- `MctpValidateResponse`. Its command field is the type field of a PLDM header. -/
def mctpValidateResponse (req rsp : Memory) (reqMsgTag rspMsgTag : UInt8) : EfiStatus :=
  if reqMsgTag ≠ rspMsgTag ∨ Common.pldmType req ≠ Common.pldmType rsp ∨
      Common.instanceId req &&& pldmInstanceIdMask ≠ Common.instanceId rsp &&& pldmInstanceIdMask ∨
      Common.mctpType req &&& mctpTypeMask ≠ Common.mctpType rsp &&& mctpTypeMask then
    .protocolError
  else
    .success

def validateResponse (req rsp : Memory) (rspLength : Nat) (reqMsgTag rspMsgTag : UInt8) :
    EfiStatus :=
  let status := mctpValidateResponse req rsp reqMsgTag rspMsgTag
  if status.isError then
    status
  else if rspLength < 5 then
    .protocolError
  else if Common.command req ≠ Common.command rsp then
    .protocolError
  else
    .success

theorem validateResponse_success {req rsp : Memory} {rspLength : Nat} {reqMsgTag rspMsgTag : UInt8}
    (h : (validateResponse req rsp rspLength reqMsgTag rspMsgTag).isError = false) :
    5 ≤ rspLength ∧ Common.command rsp = Common.command req := by
  unfold validateResponse at h
  cases hmctp : (mctpValidateResponse req rsp reqMsgTag rspMsgTag).isError with
  | true =>
    simp only [hmctp, if_true] at h
    cases h
  | false =>
    simp only [hmctp, Bool.false_eq_true, if_false] at h
    by_cases hlength : rspLength < 5
    · rw [if_pos hlength] at h
      cases h
    · by_cases hcommand : Common.command req ≠ Common.command rsp
      · rw [if_neg hlength, if_pos hcommand] at h
        cases h
      · exact ⟨Nat.le_of_not_lt hlength, (Decidable.of_not_not hcommand).symm⟩

def fwCheckRspCompletion (rsp : Memory) : EfiStatus :=
  if completionCode rsp ≠ Completion.success then .deviceError else .success

def fwCheckRspCompletionAndLength (rsp : Memory) (rspLength rspLengthExpected : Nat) : EfiStatus :=
  let status := fwCheckRspCompletion rsp
  if status.isError then
    status
  else if rspLength ≠ rspLengthExpected then
    .deviceError
  else
    .success

theorem fwCheckRspCompletionAndLength_success {rsp : Memory} {rspLength expected : Nat} :
    (fwCheckRspCompletionAndLength rsp rspLength expected).isError = false ↔
      completionCode rsp = Completion.success ∧ rspLength = expected := by
  unfold fwCheckRspCompletionAndLength fwCheckRspCompletion
  by_cases hcode : completionCode rsp = Completion.success <;>
    by_cases hlength : rspLength = expected <;> simp [hcode, hlength, EfiStatus.isError]

/-! `PLDM_FW_QUERY_DEVICE_IDS_RESPONSE`. -/
namespace QueryDeviceIds
def length (rsp : Memory) : Nat := le32 rsp 5
def count (rsp : Memory) : Nat := le8 rsp 9
abbrev descriptors : Nat := 10
end QueryDeviceIds

def fwQueryDeviceIdsCheckRsp (rsp : Memory) (rspLength : Nat) : EfiStatus :=
  let status := fwCheckRspCompletion rsp
  if status.isError then
    status
  else if rspLength ≠ QueryDeviceIds.descriptors + QueryDeviceIds.length rsp then
    .deviceError
  else
    .success

/-! `PLDM_FW_GET_FW_PARAMS_RESPONSE`. -/
namespace FwParams
def componentCount (rsp : Memory) : Nat := le16 rsp 9
def imageSetActiveVersionStringLength (rsp : Memory) : Nat := le8 rsp 12
def imageSetPendingVersionStringLength (rsp : Memory) : Nat := le8 rsp 14
end FwParams

/-! `PLDM_FW_COMPONENT_PARAMETER_TABLE_ENTRY`. -/
namespace FwParamsComponent
def classification (rsp : Memory) (entry : Nat) : Nat := le16 rsp entry
def id (rsp : Memory) (entry : Nat) : Nat := le16 rsp (entry + 2)
def classificationIndex (rsp : Memory) (entry : Nat) : UInt8 := rsp (entry + 4)
def activeVersionStringLength (rsp : Memory) (entry : Nat) : Nat := le8 rsp (entry + 10)
def pendingVersionStringLength (rsp : Memory) (entry : Nat) : Nat := le8 rsp (entry + 24)

def size (rsp : Memory) (entry : Nat) : Nat :=
  39 + activeVersionStringLength rsp entry + pendingVersionStringLength rsp entry
end FwParamsComponent

def fwGetFwParamsComponentTableOffset (rsp : Memory) : Nat :=
  15 + FwParams.imageSetActiveVersionStringLength rsp +
    FwParams.imageSetPendingVersionStringLength rsp

def fwGetFwParamsComponent (rsp : Memory) : Nat → Nat
  | 0 => fwGetFwParamsComponentTableOffset rsp
  | componentIndex + 1 =>
    let entry := fwGetFwParamsComponent rsp componentIndex
    entry + FwParamsComponent.size rsp entry

def fwGetFwParamsCheckRsp (rsp : Memory) (rspLength : Nat) : EfiStatus :=
  let status := fwCheckRspCompletion rsp
  if status.isError then
    status
  else
    let length := (List.range (FwParams.componentCount rsp)).foldl
      (fun length index => length + FwParamsComponent.size rsp (fwGetFwParamsComponent rsp index))
      (fwGetFwParamsComponentTableOffset rsp)
    if rspLength ≠ length then .deviceError else .success

/-- Component `index` of the table has this classification and id. -/
def componentMatches (rsp : Memory) (classification id index : Nat) : Bool :=
  FwParamsComponent.classification rsp (fwGetFwParamsComponent rsp index) == classification &&
    FwParamsComponent.id rsp (fwGetFwParamsComponent rsp index) == id

/-- `PldmFwGetNextFwParamsMatchingComponent`: whether there is a matching component from
`fwParamsComponentIndex` on, and what the index is set to. -/
def fwGetNextFwParamsMatchingComponent (rsp : Memory)
    (fwParamsComponentIndex classification id : Nat) : Bool × Nat :=
  match (List.range' fwParamsComponentIndex
      (FwParams.componentCount rsp - fwParamsComponentIndex)).find?
        (componentMatches rsp classification id) with
  | some index => (true, index)
  | none => (false, 0)

section
variable {rsp : Memory} {start classification id : Nat}

theorem matchingComponent_found {index : Nat}
    (h : fwGetNextFwParamsMatchingComponent rsp start classification id = (true, index)) :
    start ≤ index ∧ index < FwParams.componentCount rsp ∧
      componentMatches rsp classification id index = true ∧
        ∀ i, start ≤ i → i < index → componentMatches rsp classification id i = false := by
  unfold fwGetNextFwParamsMatchingComponent at h
  split at h
  · rename_i i hfind
    cases h
    obtain ⟨hmatch, hmem, hfirst⟩ := List.find?_range'_eq_some.mp hfind
    have hbound := List.mem_range'_1.mp hmem
    exact ⟨hbound.1, by omega, hmatch, fun i hle hlt => by simpa using hfirst i hle hlt⟩
  · cases h

theorem matchingComponent_none {index : Nat}
    (h : fwGetNextFwParamsMatchingComponent rsp start classification id = (false, index)) :
    index = 0 ∧ ∀ i, start ≤ i → i < FwParams.componentCount rsp →
      componentMatches rsp classification id i = false := by
  unfold fwGetNextFwParamsMatchingComponent at h
  split at h
  · cases h
  · rename_i hfind
    cases h
    refine ⟨rfl, fun i hle hlt => ?_⟩
    have hnot := List.find?_range'_eq_none.mp hfind i hle (by omega)
    simpa using hnot

end

end Pldm
