import Edk2Nvidia.Parse.Reader
import Edk2Nvidia.NorFlash

/-! The PLDM firmware update package: a header, the records of the devices it is for, the
infos of the component images, a checksum, and the images. A package is the memory from
its header on; what lies behind its last byte is whatever is there. -/
namespace Pldm
open Flash Parse Reader

/-- Memory that holds `bytes` and zeros behind them. -/
def memoryOf (bytes : List UInt8) : Memory := fun a => bytes.getD a 0

/-- `sizeof (PLDM_FW_PKG_HDR)`. -/
abbrev hdrSize : Nat := 37

namespace PkgHdr
abbrev identifier : Reader (List UInt8) := bytes 0 16
abbrev formatRevision : Reader Nat := uint 16 1
abbrev size : Reader Nat := uint 17 2
abbrev componentBitmapBitLength : Reader Nat := uint 32 2
abbrev versionStringLength : Reader Nat := uint 35 1
/-- `OFFSET_OF (PLDM_FW_PKG_HDR, VersionString)`. -/
abbrev versionString : Nat := 36
end PkgHdr

/-! `PLDM_FW_PKG_DEVICE_ID_RECORD`. -/
namespace DeviceIdRecord
abbrev length (record : Nat) : Reader Nat := uint record 2
abbrev descriptorCount (record : Nat) : Reader Nat := uint (record + 2) 1
abbrev imageSetVersionStringType (record : Nat) : Reader Nat := uint (record + 7) 1
abbrev imageSetVersionStringLength (record : Nat) : Reader Nat := uint (record + 8) 1
abbrev packageDataLength (record : Nat) : Reader Nat := uint (record + 9) 2
abbrev applicableComponents (record : Nat) : Nat := record + 11
end DeviceIdRecord

/-! `PLDM_FW_PKG_COMPONENT_IMAGE_INFO`. -/
namespace ImageInfo
abbrev classification (info : Nat) : Reader Nat := uint info 2
abbrev id (info : Nat) : Reader Nat := uint (info + 2) 2
abbrev comparisonStamp (info : Nat) : Reader Nat := uint (info + 4) 4
abbrev options (info : Nat) : Reader Nat := uint (info + 8) 2
abbrev requestedActivationMethod (info : Nat) : Reader Nat := uint (info + 10) 2
abbrev locationOffset (info : Nat) : Reader Nat := uint (info + 12) 4
abbrev size (info : Nat) : Reader Nat := uint (info + 16) 4
abbrev versionStringType (info : Nat) : Reader Nat := uint (info + 20) 1
abbrev versionStringLength (info : Nat) : Reader Nat := uint (info + 21) 1
abbrev versionString (info : Nat) : Nat := info + 22
end ImageInfo

/-! `PLDM_FW_DESCRIPTOR`. -/
namespace Descriptor
abbrev type (desc : Nat) : Reader Nat := uint desc 2
abbrev length (desc : Nat) : Reader Nat := uint (desc + 2) 2
abbrev data (desc : Nat) : Nat := desc + 4
end Descriptor

abbrev recordCount (area : Nat) : Reader Nat := uint area 1

abbrev records (area : Nat) : Nat := area + 1

abbrev imageCount (area : Nat) : Reader Nat := uint area 2

abbrev imageInfos (area : Nat) : Nat := area + 2

def getFwDeviceIdArea : Reader Nat := do
  return PkgHdr.versionString + (← PkgHdr.versionStringLength)

def getNextDeviceIdRecord (record : Nat) : Reader Nat := do
  return record + (← DeviceIdRecord.length record)

/-- The loop of `PldmFwPkgGetDeviceIdAreaSize`, with the records still to come. -/
def addRecordLengths : Nat → Nat → Nat → Reader Nat
  | 0, _, areaSize => pure areaSize
  | count + 1, record, areaSize => do
    let areaSize := areaSize + (← DeviceIdRecord.length record)
    addRecordLengths count (← getNextDeviceIdRecord record) areaSize

def getDeviceIdAreaSize (area : Nat) : Reader Nat := do
  addRecordLengths (← recordCount area) (records area) 1

def getDownstreamDeviceIdArea : Reader (Option Nat) := do
  if (← PkgHdr.formatRevision) < 2 then
    return none
  else do
    let fwDeviceIdArea ← getFwDeviceIdArea
    return some (fwDeviceIdArea + (← getDeviceIdAreaSize fwDeviceIdArea))

def getDeviceIdRecordImageSetVersionString (record : Nat) : Reader Nat := do
  return DeviceIdRecord.applicableComponents record + (← PkgHdr.componentBitmapBitLength) / 8

def getFwDeviceIdRecordDescriptors (record : Nat) : Reader Nat := do
  return (← getDeviceIdRecordImageSetVersionString record) +
    (← DeviceIdRecord.imageSetVersionStringLength record)

def getComponentImageInfoArea : Reader Nat := do
  let deviceIdArea ← (← getDownstreamDeviceIdArea).elim getFwDeviceIdArea pure
  return deviceIdArea + (← getDeviceIdAreaSize deviceIdArea)

def getComponentImageInfoSize (info : Nat) : Reader Nat := do
  return 22 + (← ImageInfo.versionStringLength info)

def getNextComponentImage (info : Nat) : Reader Nat := do
  return info + (← getComponentImageInfoSize info)

/-- The loop of `PldmFwPkgGetComponentImageInfoAreaSize`. -/
def addImageInfoSizes : Nat → Nat → Nat → Reader Nat
  | 0, _, areaSize => pure areaSize
  | count + 1, info, areaSize => do
    let areaSize := areaSize + (← getComponentImageInfoSize info)
    addImageInfoSizes count (← getNextComponentImage info) areaSize

def getComponentImageInfoAreaSize (area : Nat) : Reader Nat := do
  addImageInfoSizes (← imageCount area) (imageInfos area) 2

def descNext (desc : Nat) : Reader Nat := do
  return desc + ((← Descriptor.length desc) + 4)

/-- `PldmFwPrintFwDesc`: what it prints is not modelled, what it reads is. -/
def printFwDesc (desc : Nat) : Reader Unit := do
  let _ ← Descriptor.type desc
  let _ ← bytes (Descriptor.data desc) (← Descriptor.length desc)
  pure ()

/-- `PldmFwDescriptorIsInList`. The list is the one the device answered with, in memory of
its own. -/
def descriptorIsInList (descriptor : Nat) (list : Memory) : Nat → Nat → Reader Bool
  | 0, _ => pure false
  | count + 1, listDescriptor => do
    let type ← Descriptor.type descriptor
    let length ← Descriptor.length descriptor
    if type = (Descriptor.type listDescriptor).value list ∧
        length = (Descriptor.length listDescriptor).value list then do
      let data ← bytes (Descriptor.data descriptor) length
      if data = slice list (Descriptor.data listDescriptor) length then
        pure true
      else
        descriptorIsInList descriptor list count ((descNext listDescriptor).value list)
    else
      descriptorIsInList descriptor list count ((descNext listDescriptor).value list)

/-- The inner loop of `PldmFwPkgMatchesFD`: every descriptor of the record is one of the
device's. -/
def descriptorsMatch (fwDescriptors : Memory) (first descriptorCount : Nat) : Nat → Nat → Reader Bool
  | 0, _ => pure true
  | count + 1, descriptor => do
    printFwDesc descriptor
    if ← descriptorIsInList descriptor fwDescriptors descriptorCount first then do
      descriptorsMatch fwDescriptors first descriptorCount count (← descNext descriptor)
    else
      pure false

/-- The outer loop of `PldmFwPkgMatchesFD`. -/
def matchRecords (fwDescriptors : Memory) (first descriptorCount : Nat) :
    Nat → Nat → Reader (Option Nat)
  | 0, _ => pure none
  | count + 1, record => do
    let descriptor ← getFwDeviceIdRecordDescriptors record
    if ← descriptorsMatch fwDescriptors first descriptorCount
        (← DeviceIdRecord.descriptorCount record) descriptor then
      pure (some record)
    else do
      matchRecords fwDescriptors first descriptorCount count (← getNextDeviceIdRecord record)

/-- `PldmFwPkgMatchesFD`: the record of the device whose descriptors start at `first`. -/
def matchesFD (descriptorCount : Nat) (fwDescriptors : Memory) (first : Nat) :
    Reader (Option Nat) := do
  let fwDeviceIdArea ← getFwDeviceIdArea
  matchRecords fwDescriptors first descriptorCount (← recordCount fwDeviceIdArea)
    (records fwDeviceIdArea)

def componentIsApplicable (componentIndex record : Nat) : Reader Bool := do
  let byte ← uint (DeviceIdRecord.applicableComponents record + componentIndex / 8) 1
  return byte.testBit (componentIndex % 8)

def uuidV1_0 : List UInt8 :=
  [0xF0, 0x18, 0x87, 0x8C, 0xCB, 0x7D, 0x49, 0x43, 0x98, 0x00, 0xA0, 0x2F, 0x05, 0x9A, 0xCA, 0x02]

def uuidV1_1 : List UInt8 :=
  [0x12, 0x44, 0xd2, 0x64, 0x8d, 0x7d, 0x47, 0x18, 0xa0, 0x30, 0xfc, 0x8a, 0x56, 0x58, 0x7d, 0x5a]

/-- The identifier a package of this format revision carries. -/
def pldmGuid (formatRevision : Nat) : Option (List UInt8) :=
  match formatRevision with
  | 1 => some uuidV1_0
  | 2 => some uuidV1_1
  | _ => none

/-- The last loop of `PldmFwPkgHdrValidate`. -/
def addImageSizes : Nat → Nat → Nat → Reader Nat
  | 0, _, pkgLength => pure pkgLength
  | count + 1, info, pkgLength => do
    let pkgLength := pkgLength + (← ImageInfo.size info)
    addImageSizes count (← getNextComponentImage info) pkgLength

/-- The part of `PldmFwPkgHdrValidate` behind the checksum: the lengths of the areas have
to add up to the header's size, and with the images to the package's. -/
def lengthsValidate (length : Nat) : Reader EfiStatus := do
  let size ← PkgHdr.size
  let fwDeviceIdArea ← getFwDeviceIdArea
  let fwAreaSize ← getDeviceIdAreaSize fwDeviceIdArea
  let downstreamAreaSize ← (← getDownstreamDeviceIdArea).elim (pure 0) getDeviceIdAreaSize
  let imageInfoArea ← getComponentImageInfoArea
  let pkgLength := PkgHdr.versionString + (← PkgHdr.versionStringLength) + fwAreaSize +
    downstreamAreaSize + (← getComponentImageInfoAreaSize imageInfoArea) + 4
  if pkgLength ≠ size then
    return .unsupported
  else do
    let pkgLength ← addImageSizes (← imageCount imageInfoArea) (imageInfos imageInfoArea) pkgLength
    if pkgLength ≠ length then
      return .unsupported
    else
      return .success

/-- `PldmFwPkgHdrValidate`, over the `CalculateCrc32` of the platform's base library. -/
def hdrValidate (calculateCrc32 : List UInt8 → Nat) (length : Nat) : Reader EfiStatus :=
  if length < hdrSize then
    pure .badBufferSize
  else do
    let size ← PkgHdr.size
    if length < size then
      return .badBufferSize
    else do
      match pldmGuid (← PkgHdr.formatRevision) with
      | none => return .unsupported
      | some guid => do
        if (← PkgHdr.identifier) ≠ guid then
          return .unsupported
        else do
          -- `Hdr->Size - sizeof (UINT32)` in UINTN: a size below four wraps
          let crcOffset := (size + (2 ^ 64 - 4)) % 2 ^ 64
          let hdrCrc ← uint crcOffset 4
          if hdrCrc ≠ calculateCrc32 (← bytes 0 crcOffset) then
            return .crcError
          else do
            if (← PkgHdr.componentBitmapBitLength) % 8 ≠ 0 then
              return .unsupported
            else
              lengthsValidate length

end Pldm
