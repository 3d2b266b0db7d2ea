import Mathlib.Algebra.Order.Ring.Int
import Mathlib.Data.List.ModifyLast
import Mathlib.Data.List.TakeWhile
import Mathlib.Tactic.Common

/-! The priority table the boot order library builds from the `DefaultBootPriority` variable. -/
namespace BootPriority

def bootOrderClassSeparator : UInt8 := 0x2C
def bootOrderSbdfStarter : UInt8 := 0x7C
def bootOrderTerminator : UInt8 := 0
variable (hex : HexReader)

def isSeparator (b : UInt8) : Bool := b == bootOrderClassSeparator || b == bootOrderTerminator

/-- An entry of the list: its text, and what stands behind it from its separator on. -/
structure Entry where
  text : List UInt8
  behind : List UInt8
deriving DecidableEq

theorem length_dropWhile_lt {p : UInt8 → Bool} {bytes : List UInt8} (h : bytes.dropWhile p ≠ []) :
    ((bytes.dropWhile p).drop 1).length < bytes.length := by
  have hlt := List.length_pos_iff.mpr h
  have hle := (List.dropWhile_sublist p : List.Sublist _ bytes).length_le
  rw [List.length_drop]
  omega

/-- The entries the class separator and the terminator separate. -/
def entries (bytes : List UInt8) : List Entry :=
  if _h : (bytes.dropWhile fun b => !isSeparator b) = [] then
    [⟨bytes.takeWhile fun b => !isSeparator b, []⟩]
  else
    ⟨bytes.takeWhile fun b => !isSeparator b, bytes.dropWhile fun b => !isSeparator b⟩ ::
      entries ((bytes.dropWhile fun b => !isSeparator b).drop 1)
termination_by bytes.length
decreasing_by exact length_dropWhile_lt _h

namespace Entry

/-- The location with its starter, empty when there is none. -/
def sbdfText (entry : Entry) : List UInt8 := entry.text.dropWhile (· != bootOrderSbdfStarter)

end Entry

end BootPriority
