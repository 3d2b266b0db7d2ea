import Edk2Nvidia.DtHelper.CellEntries
import Edk2Nvidia.DtHelper.References

/-! The interrupts and the ranges of a node. What is only asserted is not relied on; a read outside
a property or the array, and a division by zero, stop the program. -/
namespace DtHelper
open Parse (Checked Span fromBigEndian)
open DeviceTree (Properties deviceTreeGetNodePropertyValue64)

/-- `AsciiStrSize` of the name at an offset, as long as there is one, and the offset behind it. -/
def nameAt (names : List UInt8) (offset : Nat) : Checked (Option (List UInt8) × Nat) :=
  if offset < names.length then
    let name := (names.drop offset).takeWhile (· != 0)
    if offset + name.length < names.length then .ok (some name, offset + name.length + 1)
    else .error ⟨names.length, 1⟩
  else .ok (none, offset)

/-- Where the cells of an entry are, and how many, from the cursor at the entry. -/
abbrev Header := Nat → Checked (Except EfiStatus (Nat × Nat))

section
variable (tree : Tree)

variable (nodeOffset : Int)

end

/-! Ranges. -/

/-- The cells of the child address, of the parent address and of the size. -/
structure RangeCells where
  child : Nat
  parent : Nat
  size : Nat

def RangeCells.entrySize (cells : RangeCells) : Nat := 4 * (cells.child + cells.parent + cells.size)

section
variable (tree : Tree) (nodeOffset : Int)

end

end DtHelper
