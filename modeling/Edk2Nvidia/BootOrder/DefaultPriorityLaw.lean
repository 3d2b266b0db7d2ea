import Edk2Nvidia.BootOrder.DefaultPriority

/-! When the table parsed from the `DefaultBootPriority` variable is the one it lists, and what is
read stays in the variable. -/
namespace BootPriority

section
variable {hex : HexReader} {beyond bytes rest : List UInt8} {e : Entry}

/-! The location of an entry. -/

/-- The loop sees where the class of the entry ends before the variable does. -/
def Entry.scanned (e : Entry) : Bool := e.behind != [] || e.text.contains bootOrderSbdfStarter

/-- The pointer an entry hands to the conversion. -/
def Entry.handed (e : Entry) : List (List UInt8) :=
  if e.sbdfText = [] then [] else [e.sbdfText ++ e.behind]

end

/-! A conversion that meets what is documented. -/

def hexDigit (b : UInt8) : Option Nat :=
  if 0x30 ≤ b ∧ b ≤ 0x39 then some (b.toNat - 0x30)
  else if 0x41 ≤ b ∧ b ≤ 0x46 then some (b.toNat - 0x37)
  else if 0x61 ≤ b ∧ b ≤ 0x66 then some (b.toNat - 0x57)
  else none

end BootPriority
