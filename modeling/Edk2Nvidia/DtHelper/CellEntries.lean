import Edk2Nvidia.Chunk.Layout
import Edk2Nvidia.Parse.Checked
import Edk2Nvidia.DtHelper.Enumeration

/-! The properties that list entries of cells, each as wide as the node it refers to says. Cursors
and widths are 32-bit sums; a read outside the property or the array stops the program. -/
namespace DtHelper
open Parse (Checked fromBigEndian)
open DeviceTree (Properties)

/-- The cells of a property; what is behind the last whole one is not looked at. -/
def wordsFrom : Nat → List UInt8 → List UInt32
  | 0, _ => []
  | n + 1, data => UInt32.ofNat (fromBigEndian (data.take 4)) :: wordsFrom n (data.drop 4)

def words (data : List UInt8) : List UInt32 := wordsFrom (data.length / 4) data

def cell (cells : List UInt32) (i : Nat) : Checked UInt32 :=
  match cells[i]? with
  | some c => .ok c
  | none => .error ⟨4 * i, 4⟩

def wrap (i : Nat) : Nat := i % 2 ^ 32

def phandleInvalid : UInt32 := 0xFFFFFFFF

/-! The parts of an entry. Each reads at a pointer and says with which status it ends. -/
section
variable (read : Nat → Checked UInt32) (property : Nat)

end

/-! The loop over the entries. -/

/-- What the four loops differ in: `κ` are the counts of cells found with a phandle, `ε` the
entries of the array. -/
structure Format (κ ε : Type) where
  /-- The loop goes on while the cell so far behind the cursor is there. -/
  lead : Nat
  phandleOffset : Nat
  /-- The invalid phandle is an error before it is looked up. -/
  rejects : Bool
  /-- What goes wrong with an entry ends the loop and not the function. -/
  breaks : Bool
  resolve : UInt32 → Except EfiStatus κ
  width : κ → Nat
  parse : (Nat → Checked UInt32) → Nat → UInt32 → κ → ε → Checked (EfiStatus × ε)

/-- What a function leaves: its status, the array, and the number it returns. -/
structure Listing (ε : Type) where
  status : EfiStatus
  array : List ε
  number : Nat

def finish {ε : Type} (number index : Nat) (array : List ε) : Listing ε :=
  ⟨if number < index then .bufferTooSmall else .success, array, index⟩

namespace Format
variable {κ ε : Type} (format : Format κ ε) (cells : List UInt32) (number : Nat)

def fail (status : EfiStatus) (index : Nat) (array : List ε) : Listing ε :=
  if format.breaks then finish number index array else ⟨status, array, number⟩

/-- The element of the array, in a span of elements. -/
def element (array : List ε) (index : Nat) : Checked ε :=
  match array[index]? with
  | some old => .ok old
  | none => .error ⟨index, 1⟩

def walk : Nat → Nat → Nat → List ε → Option (Checked (Listing ε))
  | 0, _, _, _ => none
  | fuel + 1, index, i, array =>
    if wrap (i + format.lead) < cells.length then
      if cells.length ≤ wrap (i + format.phandleOffset) then
        some (.ok ⟨.deviceError, array, number⟩)
      else
        match cell cells (wrap (i + format.phandleOffset)) with
        | .error span => some (.error span)
        | .ok phandle =>
          if format.rejects ∧ phandle = phandleInvalid then
            some (.ok ⟨.deviceError, array, number⟩)
          else
            match format.resolve phandle with
            | .error status => some (.ok (format.fail number status index array))
            | .ok counts =>
              if cells.length < wrap (i + format.width counts) then
                some (.ok ⟨.deviceError, array, number⟩)
              else if index < number then
                match element array index with
                | .error span => some (.error span)
                | .ok old =>
                  match format.parse (cell cells) i phandle counts old with
                  | .error span => some (.error span)
                  | .ok (status, new) =>
                    if status = .success then
                      walk fuel (wrap (index + 1)) (wrap (i + format.width counts))
                        (array.set index new)
                    else some (.ok (format.fail number status index (array.set index new)))
              else
                walk fuel (wrap (index + 1)) (wrap (i + format.width counts)) array
    else some (.ok (finish number index array))

end Format

/-- The array is optional where no room is asked for. -/
def entries {κ ε : Type} (property : Option (List UInt8)) (format : Except EfiStatus (Format κ ε))
    (array : Option (List ε)) (number fuel : Nat) : Option (Checked (Listing ε)) :=
  let fails status := some (.ok ⟨status, array.getD [], number⟩)
  if array = none ∧ number ≠ 0 then fails .invalidParameter
  else
    match property, format with
    | none, _ => fails .notFound
    | some _, .error status => fails status
    | some data, .ok format => format.walk (words data) number fuel 0 0 (array.getD [])

/-! The functions. -/
section
variable (tree : Tree)

variable (nodeOffset : Int)

end

end DtHelper
