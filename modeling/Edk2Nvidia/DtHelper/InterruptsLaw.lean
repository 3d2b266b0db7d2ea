import Mathlib.Order.Interval.Finset.Nat
import Edk2Nvidia.DtHelper.CellEntriesLaw
import Edk2Nvidia.DtHelper.ReferencesLaw
import Edk2Nvidia.DtHelper.CellListing
import Edk2Nvidia.DtHelper.Interrupts

/-! The interrupts and the ranges of a node are read inside their properties, and a success lists a
whole property, when what the functions only assert is so. -/
namespace DtHelper
open Parse (Checked)

/-! What the functions are for. -/

/-- The entries the headers lead to, one after the other, fill so many bytes exactly. -/
def Tiles (header : Header) (length : Nat) : Nat → List (Nat × Nat) → Prop
  | i, [] => 4 * i = length
  | i, slot :: rest => header i = .ok (.ok slot) ∧ Tiles header length (slot.1 + slot.2) rest

/-- Each entry up to the first one with more cells than are supported lies inside the property, and
its name ends inside the names. -/
def Usable (cells : List UInt32) (names : List UInt8) : Nat → List (Nat × Nat) → Prop
  | _, [] => True
  | offset, slot :: rest =>
    slot.2 ≤ 3 → Readable (cell cells) slot.1 slot.2 ∧
      ∃ name next, nameAt names offset = .ok (name, next) ∧ Usable cells names next rest

/-- The entries from a cursor up to the end of the property, as the first pass finds them. -/
inductive Spans (header : Header) (cells : List UInt32) : Nat → List (Nat × Nat) → Prop
  | done {i : Nat} (hend : cells.length ≤ i) : Spans header cells i []
  | next {i : Nat} {slot : Nat × Nat} {rest : List (Nat × Nat)} (hlt : i < cells.length)
      (hheader : header i = .ok (.ok slot))
      (h : Spans header cells (wrap (slot.1 + slot.2)) rest) : Spans header cells i (slot :: rest)

def Fits (header : Header) (data names : List UInt8) (slots : List (Nat × Nat)) : Prop :=
  Usable (words data) names 0 slots ∧
    ((∀ slot ∈ slots, slot.2 ≤ 3) → Tiles header data.length 0 slots)

/-! The loop that parses. -/
section
variable {header : Header} {cells : List UInt32} {names : List UInt8}
  {compatible : Option (List UInt8)} {total number : Nat}

def Plan (header : Header) : Nat → List (Nat × Nat) → Prop
  | _, [] => True
  | i, slot :: rest => header i = .ok (.ok slot) ∧ Plan header (wrap (slot.1 + slot.2)) rest

theorem Spans.plan {i : Nat} {slots : List (Nat × Nat)} (h : Spans header cells i slots) :
    Plan header i slots := by
  induction h with
  | done => trivial
  | next _ hheader _ ih => exact ⟨hheader, ih⟩

end

/-! Interrupts. -/
section
variable {tree : Tree} {stack : Nat → Int} {nodeOffset : Int} {header : Header}
  {cells : List UInt32} {slots : List (Nat × Nat)}

end

end DtHelper
