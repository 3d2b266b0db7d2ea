import Edk2Nvidia.FwPartition.Device
import Edk2Nvidia.Keyed.Table

/-! The assembly of firmware images out of the partitions that come up one after the other, and the
partition that an installed image is written to and read from. -/
namespace FwImageDxe
open FwPartition (Name nameOf fwPartitionCheckOffsetAndBytes)

/-- `FW_PARTITION_NAME_LENGTH`, `FW_IMAGE_NAME_LENGTH` and `MAX_PARTITION_NAME_LEN`. -/
def nameLength : Nat := 36
def fwImageMaxImages : Nat := 100

def bctPartition : Name := nameOf "BCT"
def brBctBackupPartitionName : Name := nameOf "BCT-boot-chain_backup"
def updateInactivePartitions : Name := nameOf "update_inactive_partitions"

/-- `NVIDIA_FW_PARTITION_PROTOCOL` with its attributes; the name is terminated in its field. -/
structure Partition where
  partitionName : Name
  bytes : Nat
  blockSize : Nat
  eraseBlockSize : Nat
  name_lt : partitionName.length < nameLength
deriving DecidableEq

inductive BootChain where
  | a
  | b
deriving DecidableEq, Repr

def t234PartitionNameId : BootChain → Name
  | .a => nameOf "A_"
  | .b => nameOf "B_"

def suffixPartitionNameId : BootChain → Name
  | .a => nameOf "_a"
  | .b => nameOf "_b"

def partitionPrefixLength : Nat := 2
def partitionSuffixLength : Nat := 2

/-- `StrCpyS` and `StrnCpyS`: a text that does not fit leaves the destination as it was. -/
def strCpyS (destMax : Nat) (destination source : Name) : Name :=
  if source.length < destMax then source else destination

/-- The last characters of a name. In front of the field of a name are zeros, which a shorter name
is compared with. -/
def suffixOf (name : Name) : Name :=
  (List.replicate partitionSuffixLength 0 ++ name).drop name.length

/-- The base name, in a buffer that held another text, and the boot chain. -/
def getPartitionBaseNameAndBootChainAny (name baseName : Name) : Name × BootChain :=
  if name.take partitionPrefixLength = t234PartitionNameId .a then
    (strCpyS nameLength baseName (name.drop partitionPrefixLength), .a)
  else if name.take partitionPrefixLength = t234PartitionNameId .b then
    (strCpyS nameLength baseName (name.drop partitionPrefixLength), .b)
  else if suffixOf name = suffixPartitionNameId .a then
    (strCpyS nameLength baseName (name.take (name.length - partitionSuffixLength)), .a)
  else if suffixOf name = suffixPartitionNameId .b then
    (strCpyS nameLength baseName (name.take (name.length - partitionSuffixLength)), .b)
  else (strCpyS nameLength baseName name, .a)

/-- `PcdFwImageEnableBPartitions` and whether `mBootChain` is the chain B. -/
structure Platform where
  enableBPartitions : Bool
  mBootChain : BootChain

/-- `FW_IMAGE_PRIVATE_DATA`; the protocol is installed when there is a handle. -/
structure Private where
  name : Name
  readBytes : Nat
  writeBytes : Nat
  blockSize : Nat
  eraseBlockSize : Nat
  fwPartitionA : Option Partition
  fwPartitionB : Option Partition
  installed : Bool
deriving DecidableEq

/-- A slot of the zeroed pool with its name. -/
def newPrivate (name : Name) : Private := ⟨name, 0, 0, 0, 0, none, none, false⟩

variable (platform : Platform)

def activeImagePartition (image : Private) : Option Partition :=
  match platform.mBootChain with
  | .b => image.fwPartitionB
  | .a => image.fwPartitionA

def inactiveImagePartition (image : Private) : Option Partition :=
  match platform.mBootChain with
  | .b => image.fwPartitionA
  | .a => image.fwPartitionB

def fwImageGetPartitionAttributes (image : Private) : Private :=
  match activeImagePartition platform image, inactiveImagePartition platform image with
  | some active, some inactive =>
    { image with
      readBytes := active.bytes
      writeBytes := inactive.bytes
      blockSize := max inactive.blockSize active.blockSize
      eraseBlockSize := max inactive.eraseBlockSize active.eraseBlockSize }
  | some partition, none | none, some partition =>
    { image with
      readBytes := partition.bytes
      writeBytes := partition.bytes
      blockSize := partition.blockSize
      eraseBlockSize := partition.eraseBlockSize }
  | none, none => image

def fwImageHasNoBackup (image : Private) : Bool :=
  image.name == brBctBackupPartitionName || image.name == updateInactivePartitions

def fwImageIsReadyToInstall (image : Private) : Bool :=
  image.fwPartitionA.isSome &&
    ((platform.enableBPartitions && image.fwPartitionB.isSome) || !platform.enableBPartitions ||
      fwImageHasNoBackup image)

/-- The partition in its place of the image. -/
def place (chain : BootChain) (partition : Partition) (image : Private) : Private :=
  match chain with
  | .a => { image with fwPartitionA := some partition }
  | .b =>
    if platform.enableBPartitions then { image with fwPartitionB := some partition } else image

/-- What the callback does with the image of a partition; the protocol cannot be installed a second
time on its handle. -/
def addPartition (chain : BootChain) (partition : Partition) (image : Private) : Private :=
  let image := place platform chain partition image
  if fwImageIsReadyToInstall platform image then
    { fwImageGetPartitionAttributes platform image with installed := true }
  else image

def images : Keyed.Kind Name Private := ⟨Private.name, newPrivate, fun _ => rfl⟩

/-- The images and the buffer for base names, after one pass of the loop. -/
def callbackPass (state : List Private × Name) (partition : Partition) : List Private × Name :=
  if partition.partitionName = bctPartition then state
  else
    let (imageName, chain) :=
      getPartitionBaseNameAndBootChainAny partition.partitionName state.2
    (images.change fwImageMaxImages imageName (addPartition platform chain partition) state.1,
      imageName)

/-- `FwImageProtocolCallback`, with the partitions that have come up since it ran last; its buffer
holds anything before. -/
def fwImageProtocolCallback (mPrivate : List Private) (imageName : Name)
    (partitions : List Partition) : List Private :=
  (partitions.foldl (callbackPass platform) (mPrivate, imageName)).1

def callbacks (groups : List (Name × List Partition)) : List Private :=
  groups.foldl (fun mPrivate group => fwImageProtocolCallback platform mPrivate group.1 group.2) []

inductive RwStatus where
  | notFound
  | invalidParameter
deriving DecidableEq, Repr

def readInactiveImage : Nat := 1
def forcePartitionA : Nat := 2
def forcePartitionB : Nat := 4

/-- The partition that is called, with the offset and the number of bytes. -/
abbrev Access := Except RwStatus (Partition × Nat × Nat)

def access (partition : Option Partition) (offset bytes : Nat) : Access :=
  match partition with
  | none => .error .notFound
  | some partition =>
    if (fwPartitionCheckOffsetAndBytes partition.bytes offset bytes).isError then
      .error .invalidParameter
    else .ok (partition, offset, bytes)

/-- The partition that the flags force, or the one to take without them. -/
def selectPartition (image : Private) (flags : Nat) (otherwise : Option Partition) :
    Option Partition :=
  if flags &&& (forcePartitionA ||| forcePartitionB) ≠ 0 then
    if flags &&& forcePartitionA ≠ 0 then image.fwPartitionA else image.fwPartitionB
  else if image.fwPartitionA.isSome ∧ image.fwPartitionB.isSome then otherwise
  else image.fwPartitionA

def fwImageWrite (image : Private) (offset bytes flags : Nat) : Access :=
  access (selectPartition image flags (inactiveImagePartition platform image)) offset bytes

def fwImageRead (image : Private) (offset bytes flags : Nat) : Access :=
  access (selectPartition image flags
    (if flags &&& readInactiveImage ≠ 0 then inactiveImagePartition platform image
      else activeImagePartition platform image)) offset bytes

end FwImageDxe
