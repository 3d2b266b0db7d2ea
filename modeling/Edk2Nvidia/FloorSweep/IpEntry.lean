import Edk2Nvidia.DtHelper.Enumeration

/-! The floorsweeping of the nodes of one kind of IP: the compatible subnodes of a root are looked
up one after the other, and those that are fused off are disabled in the tree meanwhile. -/
namespace FloorSweep
open Parse (CString)
open DeviceTree (Properties)
open DtHelper

/-- What is used of `TEGRA_PLATFORM_RESOURCE_INFO` and its floorsweeping info. That there are at most
32 sockets is asserted where the mask is fetched. -/
structure Info where
  maxPossibleSockets : Nat
  socketMask : UInt32
  socketAddressMask : UInt64
  addressToSocketShift : UInt8
  sockets_le : maxPossibleSockets ≤ 32

/-- `TEGRA_FLOOR_SWEEPING_IP_ENTRY`, with a register for each possible socket. -/
structure IpEntry where
  compatibilityList : List CString
  idProperty : Option String
  disableReg : Nat → UInt32

variable (info : Info) (ipEntry : IpEntry)

/-- The shift of a 32-bit one goes by the low five bits of the socket. -/
def isSocketEnabled (socketIndex : Nat) : Bool := info.socketMask.toNat.testBit (socketIndex % 32)

def ipIsDisabled : Bool :=
  (List.range info.maxPossibleSockets).any fun socket =>
    !isSocketEnabled info socket || ipEntry.disableReg socket != 0

def atSign : UInt8 := 0x40

/-- The text behind the first `@` of a name. -/
def unitAddressString (nodeName : List UInt8) : Option (List UInt8) :=
  match nodeName.dropWhile (· != atSign) with
  | [] => none
  | _ :: text => some text

def maxUint64 : Nat := 2 ^ 64 - 1

/-- The digits of `AsciiStrDecimalToUint64`, from a value on; too large a number saturates. -/
def decimalFrom (value : Nat) : List UInt8 → Nat
  | [] => value
  | c :: text =>
    if 0x30 ≤ c.toNat ∧ c.toNat ≤ 0x39 then
      if maxUint64 < value * 10 + (c.toNat - 0x30) then maxUint64
      else decimalFrom (value * 10 + (c.toNat - 0x30)) text
    else value

def asciiStrDecimalToUint64 (text : List UInt8) : Nat :=
  decimalFrom 0 (text.dropWhile fun c => c == 0x20 || c == 0x09)

def deviceTreeGetNodeUnitAddress (nodeName : List UInt8) : Nat :=
  match unitAddressString nodeName with
  | none => 0
  | some text => asciiStrDecimalToUint64 text

def floorSweepGetDtbNodeSocket (nodeName : List UInt8) : Nat :=
  ((deviceTreeGetNodeUnitAddress nodeName >>> (info.addressToSocketShift.toNat % 64)) &&&
    info.socketAddressMask.toNat) % 256

/-- Whether the node of a socket is to be disabled, or nothing where the register lies outside the
array. The shift of a 64-bit one goes by the low six bits of the id. -/
def nodeIsDisabled (properties : Properties) (socket : Nat) : Option Bool :=
  if !isSocketEnabled info socket then some true
  else if info.maxPossibleSockets ≤ socket then none
  else if ipEntry.disableReg socket = 0 then some false
  else
    match ipEntry.idProperty with
    | none => some true
    | some idProperty =>
      match deviceTreeGetNodePropertyValue32 properties idProperty with
      | .error _ => some false
      | .ok id => some ((ipEntry.disableReg socket).toNat.testBit (id.toNat % 64))

def disabledText : List UInt8 := [0x64, 0x69, 0x73, 0x61, 0x62, 0x6C, 0x65, 0x64, 0]

def disabled (node : Node) : Node :=
  { node with
    properties := fun name => if name = "status" then some disabledText else node.properties name }

/-- The tree with some of its nodes disabled. -/
def disable (tree : Tree) (which : Nat → Bool) : Tree where
  nodes := tree.nodes.mapIdx fun i node => if which i then disabled node else node
  root := by simpa using tree.root
  parent_lt := by
    intro i node hnode
    rw [List.getElem?_mapIdx] at hnode
    obtain ⟨old, hold, rfl⟩ := Option.map_eq_some_iff.mp hnode
    have hparent : (if which i then disabled old else old).parent = old.parent := by
      split <;> rfl
    rw [hparent]
    exact tree.parent_lt i old hold

/-- `FloorSweepDisableNode`, which fails for what is no node, and where the library has no room. -/
def floorSweepDisableNode (room : Nat → Bool) (tree : Tree) (nodeOffset : Int) : Tree :=
  match tree.node? nodeOffset with
  | none => tree
  | some _ =>
    if room nodeOffset.toNat then disable tree fun i => i == nodeOffset.toNat else tree

inductive Outcome where
  | done (tree : Tree)
  /-- A register outside its array, or the name of no node. -/
  | outside

variable (allocates room : Nat → Bool) (ipsOffset : Nat)

/-- The loop over the subnodes, as long as there is fuel. -/
def sweep : Nat → Tree → Int → Option Outcome
  | 0, _, _ => none
  | fuel + 1, tree, nodeOffset =>
    let (status, nodeOffset) := deviceTreeGetNextCompatibleSubnode allocates tree
      ipEntry.compatibilityList ipsOffset nodeOffset
    if status ≠ .success then some (.done tree)
    else
      let socket :=
        if info.maxPossibleSockets = 1 then some 0
        else (tree.node? nodeOffset).map fun node => floorSweepGetDtbNodeSocket info node.name
      match socket.bind (nodeIsDisabled info ipEntry (tree.properties nodeOffset)) with
      | none => some .outside
      | some false => sweep fuel tree nodeOffset
      | some true => sweep fuel (floorSweepDisableNode room tree nodeOffset) nodeOffset

def floorSweepIpEntry (fuel : Nat) (tree : Tree) : Option Outcome :=
  if !ipIsDisabled info ipEntry then some (.done tree)
  else sweep info ipEntry allocates room ipsOffset fuel tree 0

end FloorSweep
