import Edk2Nvidia.DeviceTree.Registers
import Edk2Nvidia.DtHelper.Compatible

/-! A flattened device tree as its walkers see it: the nodes in tree order, the offset of a node
being its place in that order, and the lookups of properties and phandles. -/
namespace DtHelper
open Parse
open DeviceTree (Properties deviceTreeGetNodePropertyValue64)

/-- A node: its name, its parent and its properties. -/
structure Node where
  name : List UInt8
  parent : Option Nat
  properties : Properties

/-- The nodes in tree order: the root, and nodes behind their parents. -/
structure Tree where
  nodes : List Node
  root : nodes ≠ []
  parent_lt : ∀ (i : Nat) (node : Node), nodes[i]? = some node →
    match node.parent with
    | none => i = 0
    | some p => p < i

namespace Tree
variable (tree : Tree)

def node? (offset : Int) : Option Node :=
  if offset < 0 then none else tree.nodes[offset.toNat]?

/-- `FdtGetProperty`: no property of what is no node. -/
def properties (offset : Int) : Properties := fun name =>
  (tree.node? offset).bind fun node => node.properties name

/-- What `FdtNextNode` goes through behind an offset; it starts with the root at -1. -/
def following (offset : Int) : List Nat := (List.range tree.nodes.length).drop (offset + 1).toNat

/-- The subnodes of a node in their order. -/
def subnodes (parent : Nat) : List Nat :=
  (List.range tree.nodes.length).filter fun i =>
    (tree.nodes[i]?.bind Node.parent) = some parent

/-- What `FdtNextSubnode` goes through behind a subnode. -/
def nextSubnodes (offset : Int) : List Nat :=
  match (tree.node? offset).bind Node.parent with
  | none => []
  | some parent => (tree.subnodes parent).filter fun i => offset < i

end Tree

def fdtErrNotFound : Int := -1

/-- The statuses of the lookup of a property. -/
def ofLookup : DeviceTree.Status → EfiStatus
  | .success => .success
  | .invalidParameter => .invalidParameter
  | .deviceError => .deviceError
  | .notFound => .notFound
  | .bufferTooSmall => .bufferTooSmall
  | .badBufferSize => .badBufferSize

def deviceTreeGetNodePropertyValue32 (properties : Properties) (property : String) :
    Except EfiStatus UInt32 :=
  match deviceTreeGetNodePropertyValue64 properties property with
  | .error status => .error (ofLookup status)
  | .ok largeValue =>
    if largeValue > 0xFFFFFFFF then .error .noMapping else .ok largeValue.toUInt32

def deviceTreeGetNodePHandle (properties : Properties) : Except EfiStatus UInt32 :=
  match deviceTreeGetNodePropertyValue32 properties "phandle" with
  | .ok value => .ok value
  | .error _ => deviceTreeGetNodePropertyValue32 properties "linux,phandle"

/-- The string at the start of a property; the byte behind a property is zero, be it padding or the
first of a tag. -/
def propertyString (data : List UInt8) : CString := CString.first data

def okay : CString := ⟨[0x6F, 0x6B, 0x61, 0x79], by simp⟩

def deviceTreeNodeIsEnabled (properties : Properties) : EfiStatus :=
  match properties "status" with
  | none => .success
  | some data => if propertyString data = okay then .success else .notFound

variable (allocates : Nat → Bool)

/-- The loop of `DeviceTreeCheckNodeCompatibility`, `status` being that of the string before. -/
def locateAny (properties : Properties) : EfiStatus → List CString → EfiStatus
  | status, [] => status
  | _, compatible :: rest =>
    let located := deviceTreeLocateStringIndex allocates (properties "compatible") [0] compatible
    if located.status ≠ .notFound then located.status
    else locateAny properties located.status rest

def deviceTreeCheckNodeCompatibility (compatibleInfo : List CString) (properties : Properties) :
    EfiStatus :=
  let status := locateAny allocates properties .notFound compatibleInfo
  let status := if status = .noMapping then .notFound else status
  if status = .success then deviceTreeNodeIsEnabled properties else status

end DtHelper
