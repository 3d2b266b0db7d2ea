import Edk2Nvidia.Parse.Packed
import Edk2Nvidia.Transition.Iterate

/-! How the inventory of the field replaceable units is collected from the BMC: the list of
devices, and the multi-records of one device. -/
namespace Fru
open Flash Transition

/-- What the BMC leaves in the response buffer. -/
abbrev Response := Nat → UInt8

/-- How the BMC answers one request after the other, and which allocations succeed. An allocation
has the number of the requests made before it. -/
structure Environment where
  answer : Nat → Option Response
  allocates : Nat → Bool

def Response.bytes (response : Response) (offset size : Nat) : List UInt8 :=
  (List.range size).map fun i => response (offset + i)

/-- The response, if the command succeeds and its completion code is normal. -/
def Environment.reply (environment : Environment) (request : Nat) : Option Response :=
  match environment.answer request with
  | some response => if response 0 = 0 then some response else none
  | none => none

inductive EfiStatus where
  | success
  | deviceError
  | outOfResources
deriving DecidableEq, Repr

structure GetSdrRequest where
  recordId : Nat
  bytesToRead : Nat
deriving DecidableEq, Repr

structure FruDevice where
  fruDeviceId : UInt8
  fruDeviceDescription : List UInt8
deriving DecidableEq, Repr

def maxNumberOfFruDeviceIds : Nat := 100
def endOfSdrRecords : Nat := 0xFFFF

def nextRecordId (response : Response) : Nat := fromLittleEndian (response.bytes 1 2)
def sdrRecordId (response : Response) : Nat := fromLittleEndian (response.bytes 3 2)

/-- `SDR_RECORD_TYPE_FRU_DEVICE_LOCATOR`. -/
def isLocator (response : Response) : Bool := response 6 = 0x11

/-- The description has at most `MAX_FRU_STR_LENGTH` bytes. -/
def fruDevice (response : Response) : FruDevice where
  fruDeviceId := response 9
  fruDeviceDescription := response.bytes 19 (min (response 18 &&& 0x1F).toNat 16)

/-- `DevIndex` is the number of devices; `slots` are the elements of `mFruRecordInfo` written. -/
structure DeviceList where
  status : EfiStatus
  request : GetSdrRequest
  requests : List GetSdrRequest
  devices : List FruDevice
  slots : List Nat
  recordCount : Nat
deriving DecidableEq, Repr

def DeviceList.start : DeviceList :=
  ⟨.success, ⟨0, 5⟩, [], [], [], 0⟩

def DeviceList.asked (list : DeviceList) : DeviceList :=
  { list with requests := list.requests ++ [list.request] }

/-- The end of the loop body: another record is due, or the list is complete. -/
def DeviceList.advance (list : DeviceList) (response : Response) : Pass DeviceList :=
  let list := { list with request := { list.request with recordId := nextRecordId response } }
  if nextRecordId response ≠ endOfSdrRecords ∧ list.devices.length < maxNumberOfFruDeviceIds then
    .next list
  else .stop { list with recordCount := list.devices.length }

def DeviceList.pass (environment : Environment) (list : DeviceList) : Pass DeviceList :=
  match environment.reply list.requests.length with
  | none => .stop { list.asked with status := .deviceError }
  | some response =>
    if isLocator response then
      let list := { list.asked with request := ⟨sdrRecordId response, 32⟩ }
      match environment.reply list.requests.length with
      | none => .stop { list.asked with status := .deviceError }
      | some response =>
        let list := { list.asked with slots := list.slots ++ [list.devices.length] }
        if environment.allocates list.requests.length then
          { list with devices := list.devices ++ [fruDevice response] }.advance response
        else .stop { list with status := .outOfResources }
    else list.asked.advance response

/-- The loop as far as so many passes. -/
def updateFruDeviceIdList (environment : Environment) (passes : Nat) : Option DeviceList :=
  iterate (DeviceList.pass environment) passes .start

structure ReadFruDataRequest where
  inventoryOffset : Nat
  countToRead : Nat
deriving DecidableEq, Repr

structure MultiRecordHeader where
  type : UInt8
  format : UInt8
  length : UInt8
  recordChecksum : UInt8
  headerChecksum : UInt8
deriving DecidableEq, Repr

def MultiRecordHeader.version (header : MultiRecordHeader) : UInt8 := header.format &&& 0x0F
def MultiRecordHeader.endOfList (header : MultiRecordHeader) : Bool := header.format &&& 0x80 ≠ 0

def multiRecordHeader (response : Response) : MultiRecordHeader :=
  ⟨response 2, response 3, response 4, response 5, response 6⟩

def MultiRecordHeader.bytes (header : MultiRecordHeader) : List UInt8 :=
  [header.type, header.format, header.length, header.recordChecksum, header.headerChecksum]

structure MultiRecord where
  header : MultiRecordHeader
  data : List UInt8
deriving DecidableEq, Repr

def maxFruMultiRecords : Nat := 8
def maxFruSize : Nat := 0x1000
def fruMultiRecordVersion : UInt8 := 0x02

def calculateSum8 (bytes : List UInt8) : UInt8 := bytes.foldl (· + ·) 0

/-- The header is one of a record that lies inside the FRU. -/
def MultiRecordHeader.accepted (header : MultiRecordHeader) (offset : Nat) : Bool :=
  header.version = fruMultiRecordVersion ∧ calculateSum8 header.bytes = 0 ∧
    ¬ (maxFruSize - 5 < offset ∨ maxFruSize - 5 - header.length.toNat < offset)

/-- `RecNum` is the number of records; `slots` are the elements of `MultiRecords` written. -/
structure MultiRecordArea where
  offset : Nat
  requests : List ReadFruDataRequest
  records : List MultiRecord
  slots : List Nat
deriving DecidableEq, Repr

def MultiRecordArea.asked (area : MultiRecordArea) (offset count : Nat) : MultiRecordArea :=
  { area with requests := area.requests ++ [⟨offset, count⟩] }

def MultiRecordArea.pass (environment : Environment) (area : MultiRecordArea) :
    Pass MultiRecordArea :=
  let read := area.asked area.offset 5
  match environment.reply area.requests.length with
  | none => .stop read
  | some response =>
    let header := multiRecordHeader response
    if ¬ header.accepted area.offset then .stop read
    else if ¬ environment.allocates read.requests.length then .stop read
    else
      let area := read.asked (area.offset + 5) header.length.toNat
      match environment.reply read.requests.length with
      | none => .stop area
      | some response =>
        let data := response.bytes 2 header.length.toNat
        if calculateSum8 data + header.recordChecksum ≠ 0 then .stop area
        else
          let area := { area with slots := area.slots ++ [area.records.length] }
          if ¬ environment.allocates area.requests.length then .stop area
          else
            let area := { area with
              records := area.records ++ [⟨header, data⟩]
              offset := area.offset + 5 + header.length.toNat }
            if header.endOfList then .stop area else .next area

def readFruMultiRecordArea (environment : Environment) (offset passes : Nat) :
    Option MultiRecordArea :=
  iterate (MultiRecordArea.pass environment) passes ⟨offset, [], [], []⟩

end Fru
