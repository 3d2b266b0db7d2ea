import Edk2Nvidia.FwPartition.Device
import Edk2Nvidia.Parse.Packed
import Edk2Nvidia.Parse.ShiftRegister

/-! The GUID partition table: its validation, the search of an entry by name, and the firmware
partitions that are made of its entries. A pointer into the table is an offset into the memory that
starts with it; a function that runs off the end of that memory returns nothing. -/
namespace Gpt
open FwPartition
open Flash (field)

def sizeofPartitionTableHeader : Nat := 92
def sizeofPartitionEntry : Nat := 128
def offsetofPartitionName : Nat := 56
def partitionNameLength : Nat := 36
def gptBlockSize : Nat := 512

/-- `EFI_PARTITION_TABLE_HEADER` as it lies in memory. -/
structure Header where
  bytes : List UInt8
  length_eq : bytes.length = sizeofPartitionTableHeader

namespace Header
variable (header : Header)

def headerSize : Nat := field header.bytes 12 4
def crc32 : Nat := field header.bytes 16 4
def firstUsableLba : Nat := field header.bytes 40 8
def lastUsableLba : Nat := field header.bytes 48 8
def numberOfPartitionEntries : Nat := field header.bytes 80 4
def sizeOfPartitionEntry : Nat := field header.bytes 84 4
def partitionEntryArrayCrc32 : Nat := field header.bytes 88 4

end Header

variable (header : Header)

/-- `GptPartitionTableSizeInBytes`: the product of two 32-bit integers. -/
def gptPartitionTableSizeInBytes : Nat :=
  u32 (header.numberOfPartitionEntries * header.sizeOfPartitionEntry)

def strLen : List UInt8 → Option Nat
  | lo :: hi :: rest => if lo = 0 ∧ hi = 0 then some 0 else (strLen rest).map (· + 1)
  | _ => none

def characters : List UInt8 → Name
  | lo :: hi :: rest =>
    if lo = 0 ∧ hi = 0 then [] else (lo.toUInt16 ||| hi.toUInt16 <<< 8) :: characters rest
  | _ => []

/-- `EFI_PARTITION_ENTRY`, the fields that are used. -/
structure Entry where
  name : Name
  startingLba : Nat
  endingLba : Nat
deriving DecidableEq, Repr

def entryAt (memory : List UInt8) (offset : Nat) : Entry where
  name := characters (memory.drop (offset + offsetofPartitionName))
  startingLba := field memory (offset + 32) 8
  endingLba := field memory (offset + 40) 8

/-- The loop of `GptValidatePartitionTable` with the entries that are left; the pointer moves by
the size of the structure. -/
def validateEntries (memory : List UInt8) : Nat → Nat → Option EfiStatus
  | 0, _ => some .success
  | entries + 1, offset =>
    match strLen (memory.drop (offset + offsetofPartitionName)) with
    | none => none
    | some 0 => validateEntries memory entries (offset + sizeofPartitionEntry)
    | some _ =>
      let partition := entryAt memory offset
      if partition.startingLba > header.lastUsableLba ∨ partition.endingLba > header.lastUsableLba ∨
          partition.startingLba < header.firstUsableLba ∨
          partition.endingLba < header.firstUsableLba then
        some .volumeCorrupted
      else
        validateEntries memory entries (offset + sizeofPartitionEntry)

def gptValidatePartitionTable (memory : List UInt8) : Option EfiStatus :=
  let crc := (Parse.crc32 (memory.take (gptPartitionTableSizeInBytes header))).toNat
  if header.partitionEntryArrayCrc32 ≠ crc then
    some .crcError
  else
    validateEntries header memory header.numberOfPartitionEntries 0

/-- `StrnCmp` of the string at the start of `memory` with another one: whether they are equal, and
how many characters of the first were read. -/
def strnCmp : List UInt8 → Name → Nat → Option (Bool × Nat)
  | lo :: hi :: rest, second, length =>
    let c := lo.toUInt16 ||| hi.toUInt16 <<< 8
    match second with
    | [] => some (c == 0, 1)
    | d :: second =>
      if c ≠ 0 ∧ d ≠ 0 ∧ c = d ∧ length > 1 then
        (strnCmp rest second (length - 1)).map fun r => (r.1, r.2 + 1)
      else
        some (c == d, 1)
  | _, _, _ => none

/-- The loop of `GptFindPartitionByName` with the entries that are left; the pointer is computed
from the size in the header. -/
def findEntries (memory : List UInt8) (name : Name) : Nat → Nat → Option (Option Nat)
  | 0, _ => some none
  | entries + 1, index =>
    let offset := index * header.sizeOfPartitionEntry
    match strnCmp (memory.drop (offset + offsetofPartitionName)) name partitionNameLength with
    | none => none
    | some (true, _) => some (some offset)
    | some (false, _) => findEntries memory name entries (index + 1)

def gptFindPartitionByName (memory : List UInt8) (name : Name) : Option (Option Nat) :=
  findEntries header memory name header.numberOfPartitionEntries 0

def gptPartitionSizeInBlocks (partition : Entry) : Nat :=
  u64 (partition.endingLba + 2 ^ 64 - partition.startingLba + 1)

/-! The partitions that are made of the entries. -/

/-- What adding a partition asks of the platform: whether the boot chain library knows a base name
for a name, which partitions are active, how many can be added, and their device. -/
structure Platform where
  hasBaseName : Name → Bool
  fwPartitionIsActive : Name → Bool
  maxFwPartitions : Nat
  device : DeviceInfo

/-- The name `StrnCpyS` leaves in the zeroed private data. -/
def storedName (name : Name) : Name := if name.length < partitionNameLength then name else []

/-- What `FwPartitionAdd` stores for an entry. -/
def partitionOf (platform : Platform) (partition : Entry) : PrivateData where
  info :=
    { name := storedName partition.name
      bytes := u64 (gptPartitionSizeInBlocks partition * gptBlockSize)
      offset := u64 (partition.startingLba * gptBlockSize)
      isActivePartition := platform.fwPartitionIsActive partition.name }
  device := platform.device

/-- The loop of `FwPartitionAddFromPartitionTable` over the entries that are left: the partitions
it adds to those that are `present`. -/
def addEntries (platform : Platform) : List Entry → List PrivateData → List PrivateData
  | [], _ => []
  | partition :: rest, present =>
    if partition.name = [] then
      addEntries platform rest present
    else if !platform.hasBaseName partition.name then
      addEntries platform rest present
    else if present.length ≥ platform.maxFwPartitions then
      []
    else if (fwPartitionFindByName present partition.name).isSome then
      []
    else
      partitionOf platform partition ::
        addEntries platform rest (present ++ [partitionOf platform partition])

/-- The entries a pointer to the structure runs over. -/
def entries (memory : List UInt8) : List Entry :=
  (List.range header.numberOfPartitionEntries).map fun i =>
    entryAt memory (i * sizeofPartitionEntry)

def fwPartitionAddFromPartitionTable (platform : Platform) (memory : List UInt8)
    (present : List PrivateData) : List PrivateData :=
  if gptValidatePartitionTable header memory = some .success then
    addEntries platform (entries header memory) present
  else []

end Gpt
