import Edk2Nvidia.Parse.Checked

/-! The configuration table that is kept in a partition: its entries, the texts read out of them,
and the addresses that are written from them into a device tree. Debug output is left out. -/
namespace Nct
open Parse (Buffer Checked Span)
open Flash

inductive EfiStatus where
  | success
  | invalidParameter
  | badBufferSize
  | notFound
  | deviceError
deriving DecidableEq, Repr

def charBytes (text : String) : List UInt8 := text.toList.map fun c => UInt8.ofNat c.toNat

def nctMagicId : List UInt8 := charBytes "nVCt"

def nctEntryOffset : Nat := 0x4000
def nctEntrySize : Nat := 1040
def nctEntryDataOffset : Nat := 12
def maxNctDataSize : Nat := 1024
def maxTnspecLen : Nat := 0x200000

def nctIdSerialNumber : Nat := 0
def nctIdWifiAddr : Nat := 1
def nctIdBtAddr : Nat := 2
def nctIdEthAddr : Nat := 19
def nctIdThreadAddr : Nat := 20
def nctIdSpec : Nat := 42
def nctIdEnd : Nat := 43

def quote : UInt8 := 0x22
def nctSpecIdName : List UInt8 := charBytes "\"id\":\""
def nctSpecCfgName : List UInt8 := charBytes "\"config\":\""

def entryOffset (id : Nat) : Nat := nctEntryOffset + id * nctEntrySize

/-- The check of the header; the partition is read into a buffer of its own size. -/
def nctInit (image : Buffer) : Checked EfiStatus := do
  let magic ← image.bytes 0 4
  return if magic = nctMagicId then .success else .invalidParameter

def nctReadItem (image : Buffer) (buf : Bool) (id : Nat) :
    Checked (Except EfiStatus (List UInt8)) := do
  let status ← nctInit image
  if status ≠ .success then return .error status
  if nctIdEnd < id then return .error .invalidParameter
  if !buf then return .error .invalidParameter
  let index ← image.uint (entryOffset id) 4
  if index ≠ id then return .error .invalidParameter
  let data ← image.bytes (entryOffset id + nctEntryDataOffset) maxNctDataSize
  return .ok data

def behindItem : Span := ⟨maxNctDataSize, 1⟩

/-- `AsciiStrLen` of a text inside an item. -/
def asciiStrLen : List UInt8 → Checked Nat
  | [] => .error behindItem
  | c :: text => if c = 0 then .ok 0 else return (← asciiStrLen text) + 1

/-- `AsciiStrStr` in a text inside an item; the text from the first occurrence on. -/
def asciiStrStr (target : List UInt8) : List UInt8 → Checked (Option (List UInt8))
  | [] => .error behindItem
  | c :: text =>
    if target.isPrefixOf (c :: text) then .ok (some (c :: text))
    else if c = 0 then .ok none
    else asciiStrStr target text

/-- The loops of `NctGetSpec`, which copy up to a quote and put a terminator behind the copy; the
first argument is the room that the output still has. -/
def copyToQuote : Nat → List UInt8 → Checked (List UInt8)
  | _, [] => .error behindItem
  | 0, _ :: _ => .error ⟨0, 1⟩
  | room + 1, c :: text =>
    if c = quote then .ok [0] else return c :: (← copyToQuote room text)

/-- What `NctGetSpec` leaves in its two outputs. -/
structure Spec where
  status : EfiStatus
  config : Option (List UInt8)
  id : Option (List UInt8)

def nctGetSpec (image : Buffer) : Option Nat → Option Nat → Checked Spec
  | some idSize, some configSize => do
    match ← nctReadItem image true nctIdSpec with
    | .error status => return ⟨status, none, none⟩
    | .ok item =>
      match ← asciiStrStr nctSpecCfgName item with
      | none => return ⟨.notFound, none, none⟩
      | some found =>
        let config ← copyToQuote configSize (found.drop nctSpecCfgName.length)
        match ← asciiStrStr nctSpecIdName item with
        | none => return ⟨.notFound, some config, none⟩
        | some found =>
          let id ← copyToQuote idSize (found.drop nctSpecIdName.length)
          return ⟨.success, some config, some id⟩
  | _, _ => return ⟨.invalidParameter, none, none⟩

def maximumAsciiStringLength : Nat := 1000000

def asciiStrCpyS (destMax : Nat) (source : List UInt8) : List UInt8 :=
  if destMax ≤ maximumAsciiStringLength ∧ source.length < destMax then source ++ [0] else []

/-- The status and what is written into the output. -/
def nctGetSerialNumber (image : Buffer) (serialNumber : Bool) (bufferSize : Nat) :
    Checked (EfiStatus × List UInt8) := do
  let status ← nctInit image
  if status ≠ .success then return (status, [])
  if !serialNumber then return (.invalidParameter, [])
  match ← nctReadItem image true nctIdSerialNumber with
  | .error status => return (status, [])
  | .ok item =>
    let length ← asciiStrLen item
    if length = 0 then return (.invalidParameter, [])
    return (.success, asciiStrCpyS bufferSize (item.take length))

def tnsIdOffset : Nat := 20
def tnsOffOffset : Nat := 24
def tnsLenOffset : Nat := 28

/-- The offset of the text; a wrong `TnsId` is only reported. -/
def nctGetTnspec (image : Buffer) : Checked (Except EfiStatus Nat) := do
  let status ← nctInit image
  if status ≠ .success then return .error status
  let _ ← image.bytes tnsIdOffset 4
  let len ← image.uint tnsLenOffset 4
  if len = 0 ∨ maxTnspecLen < len then return .error .badBufferSize
  let off ← image.uint tnsOffOffset 4
  let last ← image.uint (off + len) 1
  if last ≠ 0 then return .error .invalidParameter
  return .ok off

/-- A device tree: the paths of its nodes and the values of their properties. -/
structure Dtb where
  hasNode : String → Bool
  property : String → String → Option (List UInt8)

def Dtb.setProp (dtb : Dtb) (path name : String) (value : List UInt8) : Dtb :=
  { dtb with property := fun p n => if p = path ∧ n = name then some value else dtb.property p n }

/-- `fdtSetProp` is what the library answers to the storing of a property. -/
def setMacAddrInDtb (fdtSetProp : String → String → Int) (dtb : Dtb) (nodePath propName : String)
    (addr : List UInt8) : EfiStatus × Dtb :=
  if !dtb.hasNode nodePath then (.notFound, dtb)
  else if fdtSetProp nodePath propName < 0 then (.deviceError, dtb)
  else (.success, dtb.setProp nodePath propName addr)

def netEtherAddrLen : Nat := 6

structure MacAddr where
  id : Nat
  nodePath : String
  propName : String
  /-- The address has its last byte first. -/
  reversed : Bool

def MacAddr.addr (mac : MacAddr) (item : List UInt8) : List UInt8 :=
  if mac.reversed then (item.take netEtherAddrLen).reverse else item.take netEtherAddrLen

def wifi : MacAddr := ⟨nctIdWifiAddr, "/wifi", "mac-address", false⟩
def ethernet : MacAddr := ⟨nctIdEthAddr, "/ethernet", "mac-address", false⟩
def bluetooth : MacAddr :=
  ⟨nctIdBtAddr, "/serial@3130000/bluetooth", "local-bd-address", true⟩
def threadNetwork : MacAddr :=
  ⟨nctIdThreadAddr, "/serial@c6f0000/threadnetwork", "mac-address", false⟩

/-- One address after the other: all share one local item, and a failure to read it is only
reported. -/
def populate (image : Buffer) (fdtSetProp : String → String → Int) :
    List MacAddr → List UInt8 → EfiStatus × Dtb → Checked (EfiStatus × Dtb)
  | [], _, result => return result
  | mac :: macs, item, (_, dtb) => do
    let item := match ← nctReadItem image true mac.id with
      | .ok data => data
      | .error _ => item
    populate image fdtSetProp macs item
      (setMacAddrInDtb fdtSetProp dtb mac.nodePath mac.propName (mac.addr item))

def macAddrs : List MacAddr := [wifi, ethernet, bluetooth, threadNetwork]

/-- `stack` is what the local item holds before it is read. -/
def nctPopulateMacAddrs (image : Buffer) (fdtSetProp : String → String → Int)
    (stack : List UInt8) : Option Dtb → Checked (EfiStatus × Option Dtb)
  | none => return (.invalidParameter, none)
  | some dtb => do
    let status ← nctInit image
    if status ≠ .success then return (status, some dtb)
    let (status, dtb) ← populate image fdtSetProp macAddrs stack (.success, dtb)
    return (status, some dtb)

end Nct
