import Edk2Nvidia.FwPartition.Gpt

/-! What the users of an accepted table can rely on, and when. -/
namespace Gpt
open FwPartition
open Flash (field fromLittleEndian_lt toLittleEndian)

section
variable {header : Header} {table beyond memory : List UInt8}

/-! What is relied on. -/

/-- The pointer that moves by the structure and the one computed from the header's size are on the
same entries. -/
def SameEntries (header : Header) : Prop :=
  ∀ i < header.numberOfPartitionEntries,
    i * sizeofPartitionEntry = i * header.sizeOfPartitionEntry

/-- The length of each name is found in the table. -/
def NamesInside (header : Header) (table beyond : List UInt8) : Prop :=
  ∀ i < header.numberOfPartitionEntries, ∃ n,
    strLen ((table ++ beyond).drop (i * sizeofPartitionEntry + offsetofPartitionName)) = some n ∧
      i * sizeofPartitionEntry + offsetofPartitionName + 2 * (n + 1) ≤ table.length

/-- No comparison with an entry's name reads behind the table. -/
def ComparesInside (header : Header) (table beyond : List UInt8) : Prop :=
  ∀ i < header.numberOfPartitionEntries, ∀ name : Name, ∃ equal read,
    strnCmp ((table ++ beyond).drop (i * header.sizeOfPartitionEntry + offsetofPartitionName)) name
        partitionNameLength = some (equal, read) ∧
      i * header.sizeOfPartitionEntry + offsetofPartitionName + 2 * read ≤ table.length

/-- The named entries are ranges of usable blocks. -/
def WellPlaced (header : Header) (memory : List UInt8) : Prop :=
  ∀ partition ∈ entries header memory, partition.name ≠ [] →
    header.firstUsableLba ≤ partition.startingLba ∧ partition.startingLba ≤ partition.endingLba ∧
      partition.endingLba ≤ header.lastUsableLba

/-- The call a request comes to, if it is not rejected. -/
def issued {α : Type} : FwPartition.Program α → Option Command
  | .ret _ => none
  | .call command _ => some command

def Touches : Command → Nat → Prop
  | .deviceRead _ offset bytes, a => offset ≤ a ∧ a < offset + bytes
  | .deviceWrite _ offset buffer, a => offset ≤ a ∧ a < offset + buffer.length
  | .setNextBootChain _, _ => False

/-- No read or write of the partition that is not rejected touches a byte outside it. -/
def Confined (partition : PrivateData) : Prop :=
  ∀ offset < 2 ^ 64, ∀ command,
    ((∃ bytes < 2 ^ 64, issued (fwPartitionRead partition offset bytes) = some command) ∨
      ∃ (overwriteActive : Bool) (buffer : List UInt8), buffer.length < 2 ^ 64 ∧
        issued (fwPartitionWrite overwriteActive partition offset buffer) = some command) →
    ∀ a, Touches command a →
      partition.info.offset ≤ a ∧ a < partition.info.offset + partition.info.bytes

/-- A search by name comes to a result, and what it finds is an entry that the validation has
seen. -/
def Finds (header : Header) (memory : List UInt8) : Prop :=
  ∀ name : Name, ∃ found, gptFindPartitionByName header memory name = some found ∧
    ∀ offset, found = some offset →
      ∃ i < header.numberOfPartitionEntries, offset = i * sizeofPartitionEntry

/-- What the validation of a table is for, on every platform. -/
structure Sound (header : Header) (table beyond : List UInt8) : Prop where
  same : SameEntries header
  finds : Finds header (table ++ beyond)
  names : NamesInside header table beyond
  compares : ComparesInside header table beyond
  placed : WellPlaced header (table ++ beyond)
  confined : ∀ platform present, ∀ partition ∈
    fwPartitionAddFromPartitionTable header platform (table ++ beyond) present, Confined partition

/-! When that is so. -/

/-- The bytes of the entry's blocks do not wrap, neither by themselves nor behind the start. -/
def Fits (partition : Entry) : Prop :=
  let offset := u64 (partition.startingLba * gptBlockSize)
  let bytes := u64 ((partition.endingLba - partition.startingLba + 1) * gptBlockSize)
  bytes = 0 ∨ bytes < 2 ^ 63 ∧ offset + bytes ≤ 2 ^ 64

/-- A request that passes the check stays inside, where neither sum wraps. -/
theorem inside_of_check {bytes start offset length : Nat} (hbytes : bytes < 2 ^ 63)
    (hstart : start + bytes ≤ 2 ^ 64)
    (hcheck : offset ≤ bytes ∧ length ≤ bytes ∧ u64 (offset + length) ≤ bytes) {a : Nat}
    (ha : u64 (offset + start) ≤ a ∧ a < u64 (offset + start) + length) :
    start ≤ a ∧ a < start + bytes := by
  obtain ⟨hoffset, hlength, hsum⟩ := hcheck
  unfold u64 at hsum ha
  have hnowrap : offset + length < 2 ^ 64 := by omega
  rw [Nat.mod_eq_of_lt hnowrap] at hsum
  have hlow : offset + start < 2 ^ 64 := by omega
  rw [Nat.mod_eq_of_lt hlow] at ha
  omega

end

/-! Tables with entries of the names "A" and "B". -/

end Gpt
