import Edk2Nvidia.FwImage.Assembly
import Edk2Nvidia.Parse.Checked

/-! The names of the partitions of the boot chains, and which of them can be taken apart again. -/
namespace BootChainInfoLib
open Parse (Checked)
open FwPartition (Name nameOf)
open FwImageDxe (BootChain nameLength partitionPrefixLength partitionSuffixLength strCpyS
  suffixPartitionNameId t234PartitionNameId)

def t234ChipId : UInt32 := 0x23
def t264ChipId : UInt32 := 0x26

/-- `TegraGetPlatform`, `PcdPartitionNamesHaveSuffixes` and `TegraGetChipID`. -/
structure Platform where
  silicon : Bool
  partitionNamesHaveSuffixes : Bool
  chipId : UInt32

/-- `MAX_BOOT_CHAIN_INFO_MAPPING` chains. -/
def mapping : Nat → Option BootChain
  | 0 => some .a
  | 1 => some .b
  | _ => none

/-- `UnicodeSPrint` of two texts into a field of a name. -/
def unicodeSPrint (first second : Name) : Name := (first ++ second).take (nameLength - 1)

/-- The name of the partition; `buffer` says that there is one to write it to. -/
def getBootChainPartitionName (platform : Platform) (basePartitionName : Option Name)
    (bootChain : Nat) (buffer : Bool) : Except EfiStatus Name :=
  match basePartitionName, mapping bootChain with
  | some base, some chain =>
    if buffer = false then .error .invalidParameter
    else if platform.silicon = false then
      if base.length < nameLength then .ok base else .error .bufferTooSmall
    else if platform.partitionNamesHaveSuffixes then
      .ok (unicodeSPrint base (suffixPartitionNameId chain))
    else if platform.chipId = t234ChipId ∨ platform.chipId = t264ChipId then
      .ok (unicodeSPrint (t234PartitionNameId chain) base)
    else .error .unsupported
  | _, _ => .error .invalidParameter

/-- A character of a name or its terminator. -/
def charAt (name : Name) (position : Int) : Checked UInt16 :=
  if 0 ≤ position ∧ position ≤ name.length then .ok (name.getD position.toNat 0)
  else .error ⟨position.toNat, 1⟩

/-- `StrnCmp`: whether the characters at a position are those of another text. -/
def strnCmp (name : Name) : Int → Name → Nat → Checked Bool
  | _, _, 0 => .ok true
  | position, second, length + 1 =>
    charAt name position >>= fun c =>
      if c ≠ 0 ∧ second.headD 0 ≠ 0 ∧ c = second.headD 0 ∧ 0 < length then
        strnCmp name (position + 1) second.tail length
      else .ok (c = second.headD 0)

/-- The base name, in a buffer that held another text, and the boot chain. -/
def baseNameAndBootChain (name baseName : Name) : Checked (Name × BootChain) :=
  let suffixStart : Int := (name.length : Int) - partitionSuffixLength
  strnCmp name 0 (t234PartitionNameId .a) partitionPrefixLength >>= fun prefixA =>
    if prefixA then .ok (strCpyS nameLength baseName (name.drop partitionPrefixLength), .a)
    else
      strnCmp name 0 (t234PartitionNameId .b) partitionPrefixLength >>= fun prefixB =>
        if prefixB then .ok (strCpyS nameLength baseName (name.drop partitionPrefixLength), .b)
        else
          strnCmp name suffixStart (suffixPartitionNameId .a) partitionSuffixLength >>= fun suffixA =>
            if suffixA then
              .ok (strCpyS nameLength baseName (name.take (name.length - partitionSuffixLength)), .a)
            else
              strnCmp name suffixStart (suffixPartitionNameId .b) partitionSuffixLength >>=
                fun suffixB =>
                  if suffixB then
                    .ok (strCpyS nameLength baseName
                      (name.take (name.length - partitionSuffixLength)), .b)
                  else .ok (strCpyS nameLength baseName name, .a)

/-- `bootChain` says that there is a place for the chain. -/
def getPartitionBaseNameAndBootChainAny (partitionName baseName : Option Name) (bootChain : Bool) :
    Checked (Except EfiStatus (Name × BootChain)) :=
  match partitionName, baseName with
  | some name, some buffer =>
    if bootChain = false then .ok (.error .invalidParameter)
    else baseNameAndBootChain name buffer >>= fun result => .ok (.ok result)
  | _, _ => .ok (.error .invalidParameter)

/-! What the names are for. -/

/-- The two schemes that tell the chains apart. -/
inductive Scheme where
  | prefixed
  | suffixed
deriving DecidableEq, Repr

def Platform.scheme (platform : Platform) : Option Scheme :=
  if platform.silicon = false then none
  else if platform.partitionNamesHaveSuffixes then some .suffixed
  else if platform.chipId = t234ChipId ∨ platform.chipId = t264ChipId then some .prefixed
  else none

def number : BootChain → Nat
  | .a => 0
  | .b => 1

def Terminated (name : Name) : Prop := ∀ c ∈ name, c ≠ 0

instance (name : Name) : Decidable (Terminated name) :=
  List.decidableBAll (· ≠ 0) name

/-- A name to put an identifier to: it has none in front already. -/
structure IsBase (base : Name) : Prop where
  terminated : Terminated base
  plain : ∀ chain, ¬ t234PartitionNameId chain <+: base

/-- The name of the partition of either chain is taken apart into the base name and the chain. -/
def RoundTrips (platform : Platform) (base : Name) : Prop :=
  ∀ chain name buffer,
    getBootChainPartitionName platform (some base) (number chain) true = .ok name →
      getPartitionBaseNameAndBootChainAny (some name) (some buffer) true = .ok (.ok (base, chain))

/-- No other base name or chain has the name of one of its partitions. -/
def Distinct (platform : Platform) (base : Name) : Prop :=
  ∀ chain other otherChain name, IsBase other →
    getBootChainPartitionName platform (some base) (number chain) true = .ok name →
      getBootChainPartitionName platform (some other) (number otherChain) true = .ok name →
        other = base ∧ otherChain = chain

/-- Only characters of the name are read when it is taken apart. -/
def ReadsInside (name : Name) : Prop :=
  ∀ baseName bootChain,
    (getPartitionBaseNameAndBootChainAny (some name) baseName bootChain).Inside

/-- A base name to which a suffix gives the look of a prefix. -/
def LooksPrefixed (base : Name) : Prop := base = nameOf "A" ∨ base = nameOf "B"

/-- The identifier and the base name in the order of the scheme. -/
def Scheme.join : Scheme → Name → BootChain → Name
  | .prefixed, base, chain => t234PartitionNameId chain ++ base
  | .suffixed, base, chain => base ++ suffixPartitionNameId chain

end BootChainInfoLib
