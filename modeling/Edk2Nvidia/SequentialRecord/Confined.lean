import Edk2Nvidia.Flash.Commands
import Edk2Nvidia.SequentialRecord.Acknowledge

/-! Where the commands of a write go, whatever the partition holds. -/
namespace SequentialRecord
open Flash Crc8

/-- `[offset, offset + size)` lies in block `b`. -/
def InBlock (b offset size : Nat) : Prop :=
  b * seqBlockSize ≤ offset ∧ offset + size ≤ (b + 1) * seqBlockSize

/-- A command stays in one block of the partition; an erase takes the whole block, and what is
programmed at the start of a block is the header that retires the block, or goes into a block that
has just been erased. -/
def Confined (ring : Ring) (earlier : List Command) : Command → Prop
  | .read _ _ => True
  | .erase offset size => ∃ b, ring.Mem b ∧ offset = b * seqBlockSize ∧ size = seqBlockSize
  | .write offset data => ∃ b, ring.Mem b ∧ InBlock b offset data.length ∧
      (offset = b * seqBlockSize → .erase (b * seqBlockSize) seqBlockSize ∈ earlier ∨
        DataHdr.flags data = retiredPageMagic ∧ data.length = sizeofDataHdr)

/-- Every one of the commands is confined, with `earlier` in front of them, the last one first. -/
def AllConfined (ring : Ring) : List Command → List Command → Prop
  | _, [] => True
  | earlier, command :: commands =>
    Confined ring earlier command ∧ AllConfined ring (command :: earlier) commands

theorem Confined.mono {ring : Ring} {earlier earlier' : List Command} {command : Command}
    (h : Confined ring earlier command) (hsub : earlier ⊆ earlier') : Confined ring earlier' command := by
  cases command with
  | read => trivial
  | erase offset size => exact h
  | write offset data =>
    obtain ⟨b, hb, hin, hstart⟩ := h
    exact ⟨b, hb, hin, fun h => (hstart h).imp_left (@hsub _)⟩

theorem AllConfined.mono {ring : Ring} {earlier earlier' commands : List Command}
    (h : AllConfined ring earlier commands) (hsub : earlier ⊆ earlier') :
    AllConfined ring earlier' commands := by
  induction commands generalizing earlier earlier' with
  | nil => trivial
  | cons command commands ih => exact ⟨h.1.mono hsub, ih h.2 (List.cons_subset_cons _ hsub)⟩

section
variable (this : Protocol) (nor : NorFlash)

end

/-! Where the scans lead. -/

section
variable {this : Protocol} {socketNum : Nat} {nor : NorFlash} {m : Memory} {b : Nat}

variable {ring : Ring} {earlier : List Command} {α : Type}

theorem AllConfined.right {xs ys : List Command} (h : AllConfined ring earlier (xs ++ ys)) :
    ∃ earlier', AllConfined ring earlier' ys := by
  induction xs generalizing earlier with
  | nil => exact ⟨earlier, h⟩
  | cons x xs ih => exact ih h.2

theorem AllConfined.bind_right {β : Type} {x : SeqM β} {f : β → SeqM α} {a : β} (hx : Returns x a () m)
    (h : AllConfined ring earlier (commands (x >>= f) () m)) :
    ∃ earlier', AllConfined ring earlier' (commands (f a) () m) := by
  rw [commands_bind_some hx.run] at h
  exact h.right

/-- An erased flash but for the flag of block `b`. -/
def marked (b : Nat) : Memory := fun a => if a = b * seqBlockSize then activePageMagic else eraseByte

end

end SequentialRecord
