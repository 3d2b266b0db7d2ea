import Edk2Nvidia.Parse.Packed
import Edk2Nvidia.Flash.Faults

/-! CPER records of the ERST driver: the header fields it reads, the persistence information it
keeps in them and the checks of a header; and the status codes of the firmware, with the error
flag in the top bit. -/
namespace Erst
open Flash

/-- `EFI_STATUS`. -/
abbrev EfiCode := BitVec 64

namespace EfiCode

def error (code : Nat) : EfiCode := BitVec.ofNat 64 (2 ^ 63 + code)

def success : EfiCode := 0
def loadError : EfiCode := error 1
def invalidParameter : EfiCode := error 2
def unsupported : EfiCode := error 3
def badBufferSize : EfiCode := error 4
def bufferTooSmall : EfiCode := error 5
def notReady : EfiCode := error 6
def deviceError : EfiCode := error 7
def writeProtected : EfiCode := error 8
def outOfResources : EfiCode := error 9
def volumeCorrupted : EfiCode := error 10
def volumeFull : EfiCode := error 11
def noMedia : EfiCode := error 12
def notFound : EfiCode := error 14
def accessDenied : EfiCode := error 15
def noResponse : EfiCode := error 16
def noMapping : EfiCode := error 17
def timeout : EfiCode := error 18
def incompatibleVersion : EfiCode := error 25
def endOfMedia : EfiCode := error 28
def endOfFile : EfiCode := error 31
def compromisedData : EfiCode := error 33

/-- `EFI_ERROR`. -/
def isError (status : EfiCode) : Bool := status.msb

/-- A status kept in a `UINT32` and returned as `EFI_STATUS` again. -/
def throughUint32 (status : EfiCode) : EfiCode := (status.setWidth 32).setWidth 64

instance : Status EfiCode := ⟨success⟩

@[simp] theorem ok_eq : (Status.ok : EfiCode) = success := rfl
@[simp] theorem isError_success : isError success = false := by decide

theorem isError_throughUint32 (status : EfiCode) : isError (throughUint32 status) = false := by
  unfold isError throughUint32
  rw [BitVec.msb_setWidth]
  simp

end EfiCode

/-! `EFI_COMMON_ERROR_RECORD_HEADER`. -/

def sizeofCperHeader : Nat := 128

/-- The offset of the status in the persistence information. -/
def statusOffset : Nat := 110

def cperSignatureStart (cper : List UInt8) : Nat := field cper 0 4
def cperRevision (cper : List UInt8) : Nat := field cper 4 2
def cperSignatureEnd (cper : List UInt8) : Nat := field cper 6 4
def cperRecordLength (cper : List UInt8) : Nat := field cper 20 4
def cperRecordID (cper : List UInt8) : Nat := field cper 96 8
def cperPersistenceSignature (cper : List UInt8) : Nat := field cper 108 2
def cperStatus (cper : List UInt8) : UInt8 := cper.getD statusOffset 0
def cperMajor (cper : List UInt8) : UInt8 := cper.getD 111 0
def cperMinor (cper : List UInt8) : UInt8 := cper.getD 112 0

def efiErrorRecordSignatureStart : Nat := 0x52455043
def efiErrorRecordSignatureEnd : Nat := 0xFFFFFFFF
def efiErrorRecordRevision : Nat := 0x0101
def erstRecordSignature : Nat := 0x5245
def erstRecordVersionMajor : UInt8 := 1
def erstRecordVersionMinor : UInt8 := 1

def erstFirstRecordId : Nat := 0
def erstInvalidRecordId : Nat := 2 ^ 64 - 1

/-! `ERST_RECORD_STATUS`. -/

def statusFree : UInt8 := 0xFF
def statusIncoming : UInt8 := 0xFE
def statusValid : UInt8 := 0xF0
def statusOutgoing : UInt8 := 0xE0
def statusDeleted : UInt8 := 0x80
def statusInvalid : UInt8 := 0x00

def knownStatuses : List UInt8 :=
  [statusDeleted, statusFree, statusIncoming, statusInvalid, statusOutgoing, statusValid]

/-- The persistence information a record is written with. -/
def persist (cper : List UInt8) (status : UInt8) : List UInt8 :=
  ((((cper.set 108 0x45).set 109 0x52).set statusOffset status).set 111
    erstRecordVersionMajor).set 112 erstRecordVersionMinor

def erstValidateCperHeader (cper : List UInt8) (maxRecordLength : Nat) : EfiCode :=
  if cperSignatureStart cper ≠ efiErrorRecordSignatureStart ∨
      cperRevision cper / 256 ≠ efiErrorRecordRevision / 256 ∨
      cperSignatureEnd cper ≠ efiErrorRecordSignatureEnd then .incompatibleVersion
  else if cperRecordID cper = erstFirstRecordId ∨ cperRecordID cper = erstInvalidRecordId then
    .compromisedData
  else if cperPersistenceSignature cper ≠ erstRecordSignature ∨
      cperMajor cper ≠ erstRecordVersionMajor ∨ cperMinor cper ≠ erstRecordVersionMinor then
    .incompatibleVersion
  else if cperStatus cper ∉ knownStatuses then .compromisedData
  else if cperRecordLength cper > maxRecordLength ∨ cperRecordLength cper < sizeofCperHeader then
    .compromisedData
  else .success

def erstValidateRecord (cper : List UInt8) (recordID recordLength : Nat) : EfiCode :=
  if recordID = erstFirstRecordId ∨ recordID = erstInvalidRecordId then .invalidParameter
  else if recordID ≠ cperRecordID cper ∨ recordLength ≠ cperRecordLength cper then
    .compromisedData
  else erstValidateCperHeader cper recordLength

theorem erstValidateCperHeader_cases (cper : List UInt8) (maxRecordLength : Nat) :
    erstValidateCperHeader cper maxRecordLength = .success ∨
      erstValidateCperHeader cper maxRecordLength = .incompatibleVersion ∨
        erstValidateCperHeader cper maxRecordLength = .compromisedData := by
  unfold erstValidateCperHeader
  repeat' split
  all_goals simp

end Erst
