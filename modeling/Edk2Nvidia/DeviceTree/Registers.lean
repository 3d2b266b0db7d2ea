import Edk2Nvidia.Parse.Packed

/-! The registers of a device tree node: `reg` holds base and size of each in cells whose
widths the parent gives, `reg-names` their names. -/
namespace DeviceTree
open Parse

inductive Status where
  | success
  | invalidParameter
  | deviceError
  | notFound
  | bufferTooSmall
  | badBufferSize
deriving DecidableEq, Repr

abbrev Properties := String → Option (List UInt8)

structure Node where
  /-- What `DeviceTreeGetParent` leads to. -/
  parent : Option Properties
  properties : Properties

structure Register where
  baseAddress : UInt64
  size : UInt64
  name : Option CString
deriving DecidableEq

def deviceTreeGetNodeProperty (properties : Properties) (property : String) :
    Except Status (List UInt8) :=
  match properties property with
  | none => .error .notFound
  | some data => .ok data

/-- The values the specification gives to cells a node does not mention. -/
def defaultCells (property : String) : Option UInt64 :=
  if property = "#address-cells" then some 2
  else if property = "#size-cells" then some 1
  else if property = "#msi-cells" then some 0
  else none

def deviceTreeGetNodePropertyValue64 (properties : Properties) (property : String) :
    Except Status UInt64 :=
  match deviceTreeGetNodeProperty properties property with
  | .error .notFound =>
    match defaultCells property with
    | some value => .ok value
    | none => .error .notFound
  | .error status => .error status
  | .ok data =>
    if data.length = 4 ∨ data.length = 8 then .ok (UInt64.ofNat (fromBigEndian data))
    else .error .badBufferSize

def registerCells (node : Node) : Except Status (Nat × Nat) :=
  match node.parent with
  | none => .error .deviceError
  | some parent =>
    match deviceTreeGetNodePropertyValue64 parent "#address-cells",
        deviceTreeGetNodePropertyValue64 parent "#size-cells" with
    | .ok addressCells, .ok sizeCells =>
      if addressCells > 2 ∨ addressCells = 0 ∨ sizeCells > 2 ∨ sizeCells = 0 then
        .error .deviceError
      else .ok (addressCells.toNat, sizeCells.toNat)
    | _, _ => .error .deviceError

section
variable (addressCells sizeCells : Nat)

def entrySize : Nat := 4 * (addressCells + sizeCells)

/-- `CpuToFdt32` takes the low half of the value, whatever the other half holds. -/
def encodeRegister (r : Register) : List UInt8 :=
  toBigEndian (4 * addressCells) r.baseAddress.toNat ++ toBigEndian (4 * sizeCells) r.size.toNat

/-- `PropertySize` is a `UINT32`. -/
def propertySize (numberOfRegisters : Nat) : Nat :=
  numberOfRegisters * entrySize addressCells sizeCells % 2 ^ 32

def regProperty (registers : List Register) : List UInt8 :=
  (registers.flatMap (encodeRegister addressCells sizeCells)).take
    (propertySize addressCells sizeCells registers.length)

/-- The entries in front of the first one without a name. -/
def leadingNames : List Register → List CString
  | [] => []
  | r :: rest =>
    match r.name with
    | none => []
    | some name => name :: leadingNames rest

def regNames (registers : List Register) : List UInt8 :=
  (leadingNames registers).flatMap CString.terminated

/-- The loop of `DeviceTreeGetRegisters` over what is left of the two properties. -/
def readRegions : Nat → List UInt8 → List UInt8 → List Register
  | 0, _, _ => []
  | count + 1, data, names =>
    let address := UInt64.ofNat (fromBigEndian (data.take (4 * addressCells)))
    let size := UInt64.ofNat (fromBigEndian ((data.drop (4 * addressCells)).take (4 * sizeCells)))
    let name := if names = [] then none else some (CString.first names)
    let used := match name with
      | none => 0
      | some name => name.size
    ⟨address, size, name⟩ ::
      readRegions count (data.drop (entrySize addressCells sizeCells)) (names.drop used)

end

/-- The status, the registers copied out, and `*NumberOfRegisters`. -/
def deviceTreeGetRegisters (node : Node) (numberOfRegisters : Nat) :
    Status × List Register × Nat :=
  match registerCells node with
  | .error status => (status, [], numberOfRegisters)
  | .ok (addressCells, sizeCells) =>
    match deviceTreeGetNodeProperty node.properties "reg" with
    | .error status => (status, [], numberOfRegisters)
    | .ok reg =>
      if reg.length % entrySize addressCells sizeCells ≠ 0 then
        (.deviceError, [], numberOfRegisters)
      else
        let numberOfRegRegions := reg.length / entrySize addressCells sizeCells
        if numberOfRegisters < numberOfRegRegions then (.bufferTooSmall, [], numberOfRegRegions)
        else if numberOfRegRegions = 0 then (.notFound, [], numberOfRegisters)
        else
          match deviceTreeGetNodeProperty node.properties "reg-names" with
          | .error .notFound =>
            (.success, readRegions addressCells sizeCells numberOfRegRegions reg [],
              numberOfRegRegions)
          | .error status => (status, [], numberOfRegisters)
          | .ok names =>
            (.success, readRegions addressCells sizeCells numberOfRegRegions reg names,
              numberOfRegRegions)

section
-- what `FdtSetProp` has no room for
variable (refuses : String → List UInt8 → Bool)

def deviceTreeSetNodeProperty (node : Node) (property : String) (data : List UInt8) :
    Except Status Node :=
  if refuses property data then .error .deviceError
  else .ok { node with
    properties := fun name => if name = property then some data else node.properties name }

/-- The status and the node as the call leaves it. -/
def deviceTreeSetRegisters (node : Node) (registers : List Register) : Status × Node :=
  if registers = [] then (.invalidParameter, node)
  else
    match registerCells node with
    | .error status => (status, node)
    | .ok (addressCells, sizeCells) =>
      -- reg-names goes first: the names may point into the tree
      match (if leadingNames registers = [] then .ok node
          else deviceTreeSetNodeProperty refuses node "reg-names" (regNames registers)) with
      | .error status => (status, node)
      | .ok named =>
        match deviceTreeSetNodeProperty refuses named "reg"
            (regProperty addressCells sizeCells registers) with
        | .error status => (status, named)
        | .ok node' => (.success, node')

end

end DeviceTree
