import Edk2Nvidia.Chain.Follow
import Edk2Nvidia.DtHelper.Enumeration

/-! References inside a device tree: the interrupt parent of a node, through phandles and parents up
to a controller, and the node of a path, through aliases. Both functions call themselves. -/
namespace DtHelper
open Parse (CString)
open DeviceTree (Properties deviceTreeGetNodePropertyValue64)

variable (tree : Tree)

/-! Nodes above a node. -/

/-- The nodes above one, counted with as much fuel as there are nodes in front of it. -/
def Tree.depthFrom : Nat → Nat → Nat
  | 0, _ => 0
  | fuel + 1, i =>
    match tree.nodes[i]?.bind Node.parent with
    | none => 0
    | some parent => depthFrom fuel parent + 1

/-- The depth that `FdtNextNode` keeps. -/
def Tree.depth (i : Nat) : Nat := tree.depthFrom i i

def nodeHierarchyDepthGuess : Nat := 32

structure Hierarchy where
  status : EfiStatus
  offsetArray : Nat → Int
  nodeDepth : Nat

/-- The most recent node at a depth is put into the array, if there is a place for the depth. -/
def logNode (base entries : Nat) (array : Nat → Int) (i : Nat) : Nat → Int := fun k =>
  if base ≤ tree.depth i ∧ tree.depth i - base < entries ∧ k = tree.depth i - base then Int.ofNat i
  else array k

/-- The loop goes through the nodes up to the given one. Depths are subtracted without a sign, and a
difference below zero is a large one. -/
def getNodeHierarchyInfo (nodeOffset : Int) (offsetArray : Nat → Int) (entries nodeDepth : Nat) :
    Hierarchy :=
  if nodeOffset < 0 then ⟨.invalidParameter, offsetArray, nodeDepth⟩
  else
    let base := if entries < nodeDepth then nodeDepth - entries - 1 else 1
    let visited := List.range (min (nodeOffset.toNat + 1) tree.nodes.length)
    let array := visited.foldl (logNode tree base entries) offsetArray
    if nodeOffset.toNat < tree.nodes.length then
      let depth := tree.depth nodeOffset.toNat
      ⟨if depth < base ∨ entries ≤ depth - base then .bufferTooSmall else .success, array, depth⟩
    else ⟨.notFound, array, nodeDepth⟩

/-- The array starts with what the stack holds. -/
def deviceTreeGetParent (stack : Nat → Int) (nodeOffset : Int) : Except EfiStatus Int :=
  let first := getNodeHierarchyInfo tree nodeOffset stack nodeHierarchyDepthGuess 0
  let last :=
    if first.status = .bufferTooSmall then
      getNodeHierarchyInfo tree nodeOffset first.offsetArray nodeHierarchyDepthGuess first.nodeDepth
    else first
  if last.status ≠ .success then .error .deviceError
  else if last.nodeDepth = 1 then .ok 0
  else if nodeHierarchyDepthGuess < last.nodeDepth then
    .ok (last.offsetArray (nodeHierarchyDepthGuess - 2))
  else .ok (last.offsetArray (last.nodeDepth - 2))

/-! Interrupt parents. -/

/-- The parent as the function finds it; that a phandle is not found is not looked at. -/
def interruptParent (stack : Nat → Int) (nodeOffset : Int) : Except EfiStatus Int :=
  if nodeOffset = 0 then .error .invalidParameter
  else
    match deviceTreeGetNodePropertyValue64 (tree.properties nodeOffset) "interrupt-parent" with
    | .ok parentPhandle =>
      if 0xFFFFFFFF ≤ parentPhandle then .error .deviceError
      else .ok (deviceTreeGetNodeByPHandle tree parentPhandle.toUInt32).2
    | .error .notFound => deviceTreeGetParent tree stack nodeOffset
    | .error status => .error (ofLookup status)

def isInterruptController (nodeOffset : Int) : Bool :=
  (tree.properties nodeOffset "interrupt-controller").isSome

def getInterruptParentOffset (stack : Nat → Int) : Nat → Int → Option (Except EfiStatus Int)
  | 0, _ => none
  | fuel + 1, nodeOffset =>
    match interruptParent tree stack nodeOffset with
    | .error status => some (.error status)
    | .ok parent =>
      if isInterruptController tree parent then some (.ok parent)
      else getInterruptParentOffset stack fuel parent

/-! Paths. -/

def slash : UInt8 := 0x2F
def unitSeparator : UInt8 := 0x40

/-- The name, or the name in front of its unit address where none is given. -/
def fdtNodenameEq (nodeName name : List UInt8) : Bool :=
  nodeName = name ||
    (unitSeparator ∉ name && name.isPrefixOf nodeName && nodeName[name.length]? = some unitSeparator)

def fdtSubnodeOffsetNameLen (parent : Nat) (name : List UInt8) : Option Nat :=
  (tree.subnodes parent).find? fun i =>
    (tree.nodes[i]?).any fun node => fdtNodenameEq node.name name

def components (path : List UInt8) : List (List UInt8) :=
  (path.splitOn slash).filter fun name => !name.isEmpty

def descend : Nat → List (List UInt8) → Except EfiStatus Nat
  | current, [] => .ok current
  | current, name :: rest =>
    match fdtSubnodeOffsetNameLen tree current name with
    | none => .error .notFound
    | some next => descend next rest

/-- The text `/aliases` behind its slash. -/
def aliasesName : List UInt8 := [0x61, 0x6C, 0x69, 0x61, 0x73, 0x65, 0x73]

def deviceTreeMaxNameLength : Nat := 32

/-- The name of a property, out of its characters. -/
def propertyName (chars : List UInt8) : String :=
  String.ofList (chars.map fun c => Char.ofNat c.toNat)

def firstComponent (path : CString) : List UInt8 := path.chars.takeWhile (· != slash)
def behindFirst (path : CString) : List UInt8 := path.chars.dropWhile (· != slash)

/-- `AsciiStrnCpyS` leaves what the stack of the call holds where the name has no room. -/
def aliasName (stack : CString → CString) (path : CString) : List UInt8 :=
  if (firstComponent path).length < deviceTreeMaxNameLength then firstComponent path
  else (stack path).chars

/-- What the alias in front of a path stands for. -/
def aliasPath (stack : CString → CString) (path : CString) : Except EfiStatus CString :=
  match descend tree 0 [aliasesName] with
  | .error status => .error status
  | .ok aliasOffset =>
    match tree.properties aliasOffset (propertyName (aliasName stack path)) with
    | none => .error .notFound
    | some data => .ok (propertyString data)

def deviceTreeGetNodeByPath (stack : CString → CString) :
    Nat → CString → Option (Except EfiStatus Nat)
  | 0, _ => none
  | fuel + 1, path =>
    if path.chars.head? = some slash then some (descend tree 0 (components path.chars))
    else
      match aliasPath tree stack path with
      | .error status => some (.error status)
      | .ok target =>
        match deviceTreeGetNodeByPath stack fuel target with
        | none => none
        | some (.error status) => some (.error status)
        | some (.ok current) => some (descend tree current (components (behindFirst path)))

end DtHelper
