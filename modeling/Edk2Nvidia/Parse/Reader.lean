import Edk2Nvidia.Flash.Memory
import Edk2Nvidia.Parse.Packed

/-! Programs that parse a structure in place. Each value comes with the spans that were
read to find it, so "stays inside the buffer" is a property of the program and not of
what it returns. -/
namespace Parse
open Flash

structure Span where
  offset : Nat
  size : Nat
deriving DecidableEq, Repr

def Span.Inside (span : Span) (length : Nat) : Prop := span.offset + span.size ≤ length

instance (span : Span) (length : Nat) : Decidable (span.Inside length) :=
  inferInstanceAs (Decidable (_ ≤ _))

/-- A value read from memory, and what was read for it. -/
def Reader (α : Type) := Memory → α × List Span

namespace Reader

def value (r : Reader α) (m : Memory) : α := (r m).1

def spans (r : Reader α) (m : Memory) : List Span := (r m).2

/-- Nothing outside `[0, length)` is read. -/
def Within (r : Reader α) (m : Memory) (length : Nat) : Prop :=
  ∀ span ∈ r.spans m, span.Inside length

instance (r : Reader α) (m : Memory) (length : Nat) : Decidable (r.Within m length) :=
  inferInstanceAs (Decidable (∀ span ∈ r.spans m, span.Inside length))

instance : Monad Reader where
  pure a := fun _ => (a, [])
  bind r f := fun m => ((f (r.value m)).value m, r.spans m ++ (f (r.value m)).spans m)

/-- The bytes of `[offset, offset + size)`. -/
def bytes (offset size : Nat) : Reader (List UInt8) := fun m => (slice m offset size, [⟨offset, size⟩])

def uint (offset size : Nat) : Reader Nat := fun m =>
  (fromLittleEndian (slice m offset size), [⟨offset, size⟩])

section
variable {m : Memory} {length : Nat}

@[simp] theorem value_pure (a : α) : (pure a : Reader α).value m = a := rfl

@[simp] theorem value_bind (r : Reader α) (f : α → Reader β) :
    (r >>= f).value m = (f (r.value m)).value m := rfl

@[simp] theorem value_bytes (offset size : Nat) :
    (bytes offset size).value m = slice m offset size := rfl

@[simp] theorem value_uint (offset size : Nat) :
    (uint offset size).value m = fromLittleEndian (slice m offset size) := rfl

@[simp] theorem within_pure (a : α) : (pure a : Reader α).Within m length := by
  intro span hspan
  cases hspan

@[simp] theorem within_bind (r : Reader α) (f : α → Reader β) :
    (r >>= f).Within m length ↔ r.Within m length ∧ (f (r.value m)).Within m length :=
  List.forall_mem_append

@[simp] theorem within_bytes (offset size : Nat) :
    (bytes offset size).Within m length ↔ offset + size ≤ length :=
  List.forall_mem_singleton

@[simp] theorem within_uint (offset size : Nat) :
    (uint offset size).Within m length ↔ offset + size ≤ length :=
  List.forall_mem_singleton

theorem value_ite (c : Prop) {_ : Decidable c} (r s : Reader α) :
    (if c then r else s).value m = if c then r.value m else s.value m := by
  split <;> rfl

theorem within_ite (c : Prop) {_ : Decidable c} (r s : Reader α) :
    (if c then r else s).Within m length ↔ (c → r.Within m length) ∧ (¬ c → s.Within m length) := by
  split
  · rename_i h
    exact ⟨fun hr => ⟨fun _ => hr, fun hc => absurd h hc⟩, fun hr => hr.1 h⟩
  · rename_i h
    exact ⟨fun hs => ⟨fun hc => absurd hc h, fun _ => hs⟩, fun hs => hs.2 h⟩

end
end Reader

/-! A chain is a run of records of which each says where the next one starts. -/

/-- The offset of record `i`. -/
def chain (next : Memory → Nat → Nat) (m : Memory) (offset : Nat) : Nat → Nat
  | 0 => offset
  | i + 1 => chain next m (next m offset) i

theorem chain_succ (next : Memory → Nat → Nat) (m : Memory) (offset i : Nat) :
    chain next m offset (i + 1) = next m (chain next m offset i) := by
  induction i generalizing offset with
  | zero => rfl
  | succ i ih => exact ih (next m offset)

theorem chain_le {next : Memory → Nat → Nat} {m : Memory} (grows : ∀ o, o ≤ next m o)
    (offset : Nat) {i j : Nat} (h : i ≤ j) :
    chain next m offset i ≤ chain next m offset j := by
  induction h with
  | refl => exact Nat.le_refl _
  | step _ ih =>
    rw [chain_succ]
    exact Nat.le_trans ih (grows _)

/-- Runs `body` at each of `count` records. -/
def Reader.forChain (next : Nat → Reader Nat) (body : Nat → Reader Unit) : Nat → Nat → Reader Unit
  | 0, _ => pure ()
  | count + 1, offset => do
    body offset
    forChain next body count (← next offset)

theorem Reader.within_forChain {next : Nat → Reader Nat} {body : Nat → Reader Unit} {m : Memory}
    {length count offset : Nat} :
    (forChain next body count offset).Within m length ↔
      ∀ i < count, (body (chain (fun m o => (next o).value m) m offset i)).Within m length ∧
        (next (chain (fun m o => (next o).value m) m offset i)).Within m length := by
  induction count generalizing offset with
  | zero => simp [forChain]
  | succ count ih =>
    simp only [forChain, within_bind, ih]
    constructor
    · rintro ⟨hbody, hnext, hrest⟩ i hi
      cases i with
      | zero => exact ⟨hbody, hnext⟩
      | succ i => exact hrest i (by omega)
    · intro h
      exact ⟨(h 0 (by omega)).1, (h 0 (by omega)).2, fun i hi => h (i + 1) (by omega)⟩

end Parse
