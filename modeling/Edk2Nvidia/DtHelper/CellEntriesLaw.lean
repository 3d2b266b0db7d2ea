import Edk2Nvidia.DtHelper.CellEntries

/-! The formats of the properties that list entries of cells: how a reading of an entry depends on
its cells, and the statuses a lookup fails with. -/
namespace DtHelper
open Parse (Checked)
open DeviceTree (Properties deviceTreeGetNodeProperty deviceTreeGetNodePropertyValue64 defaultCells)

/-! What a reading of the parts relies on. -/
section
variable {read : Nat → Checked UInt32} {p n : Nat}

/-- A part is parsed, or has more cells than are supported. -/
def Parsed {α : Type} (result : Checked (EfiStatus × α)) : Prop :=
  ∃ status value, result = .ok (status, value) ∧ (status = .success ∨ status = .unsupported)

def Readable (read : Nat → Checked UInt32) (p n : Nat) : Prop :=
  ∀ k < n, ∃ c, read (p + k) = .ok c

end

namespace Format
variable {κ ε : Type}

structure Proper (format : Format κ ε) : Prop where
  lead_le : format.lead ≤ 1 ∧ format.lead ≤ format.phandleOffset
  offset_lt : ∀ counts, format.phandleOffset < format.width counts
  breaks_rejects : format.breaks → ¬ format.rejects
  resolve_error : ∀ {phandle status}, format.resolve phandle = .error status →
    status ≠ .success ∧ status ≠ .bufferTooSmall
  parse_congr : ∀ {read read' i i' phandle counts old},
    i + format.width counts < 2 ^ 32 → i' + format.width counts < 2 ^ 32 →
      (∀ k < format.width counts, read (i + k) = read' (i' + k)) →
        format.parse read i phandle counts old = format.parse read' i' phandle counts old
  parse_parsed : ∀ {read i phandle counts old}, i + format.width counts < 2 ^ 32 →
    Readable read i (format.width counts) → Parsed (format.parse read i phandle counts old)

end Format

/-! The formats. -/
section
variable (tree : Tree)

end

end DtHelper
