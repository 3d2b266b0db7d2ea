import Mathlib.Algebra.Order.Ring.Nat
import Mathlib.Tactic.Common

/-! Programs over several buffers. Each value comes with the accesses made for it, each next
to the size of the buffer it went to, and with the events the program caused. -/
namespace Parse

structure Access where
  offset : Nat
  size : Nat
  capacity : Nat
deriving DecidableEq, Repr

def Access.Inside (a : Access) : Prop := a.offset + a.size ≤ a.capacity

instance Access.decidableInside (a : Access) : Decidable a.Inside := inferInstanceAs (Decidable (_ ≤ _))

@[ext] structure Logged (E α : Type) where
  value : α
  accesses : List Access
  events : List E

namespace Logged

variable {E α β : Type}

instance : Monad (Logged E) where
  pure a := ⟨a, [], []⟩
  bind r f := ⟨(f r.value).value, r.accesses ++ (f r.value).accesses,
    r.events ++ (f r.value).events⟩

instance : LawfulMonad (Logged E) :=
  LawfulMonad.mk' (Logged E)
    (by intros; ext1 <;> simp [Functor.map])
    (by intros; rfl)
    (by
      intros
      ext1
      · rfl
      · exact List.append_assoc _ _ _
      · exact List.append_assoc _ _ _)

/-- One access to a buffer of `capacity` bytes. -/
def access (offset size capacity : Nat) : Logged E Unit := ⟨(), [⟨offset, size, capacity⟩], []⟩

def event (e : E) : Logged E Unit := ⟨(), [], [e]⟩

def InBounds (r : Logged E α) : Prop := ∀ a ∈ r.accesses, a.Inside

instance (r : Logged E α) : Decidable r.InBounds :=
  inferInstanceAs (Decidable (∀ a ∈ r.accesses, a.Inside))

/-- All events are in `P`. -/
def Only (P : E → Prop) (r : Logged E α) : Prop := ∀ e ∈ r.events, P e

@[simp] theorem value_pure (a : α) : (pure a : Logged E α).value = a := rfl

@[simp] theorem value_bind (r : Logged E α) (f : α → Logged E β) :
    (r >>= f).value = (f r.value).value := rfl

@[simp] theorem value_map (f : α → β) (r : Logged E α) : (f <$> r).value = f r.value := rfl

@[simp] theorem value_access (offset size capacity : Nat) :
    (access offset size capacity : Logged E Unit).value = () := rfl

@[simp] theorem value_event (e : E) : (event e).value = () := rfl

@[simp] theorem inBounds_pure (a : α) : (pure a : Logged E α).InBounds := by
  intro x hx
  cases hx

@[simp] theorem inBounds_bind (r : Logged E α) (f : α → Logged E β) :
    (r >>= f).InBounds ↔ r.InBounds ∧ (f r.value).InBounds :=
  List.forall_mem_append

@[simp] theorem inBounds_map (f : α → β) (r : Logged E α) : (f <$> r).InBounds ↔ r.InBounds := by
  rw [map_eq_pure_bind, inBounds_bind]
  exact and_iff_left (inBounds_pure _)

@[simp] theorem inBounds_access (offset size capacity : Nat) :
    (access offset size capacity : Logged E Unit).InBounds ↔ offset + size ≤ capacity :=
  List.forall_mem_singleton

@[simp] theorem inBounds_event (e : E) : (event e).InBounds := by
  intro x hx
  cases hx

@[simp] theorem only_pure (P : E → Prop) (a : α) : (pure a : Logged E α).Only P := by
  intro x hx
  cases hx

@[simp] theorem only_bind (P : E → Prop) (r : Logged E α) (f : α → Logged E β) :
    (r >>= f).Only P ↔ r.Only P ∧ (f r.value).Only P :=
  List.forall_mem_append

@[simp] theorem only_map (P : E → Prop) (f : α → β) (r : Logged E α) :
    (f <$> r).Only P ↔ r.Only P := by
  rw [map_eq_pure_bind, only_bind]
  exact and_iff_left (only_pure P _)

@[simp] theorem only_access (P : E → Prop) (offset size capacity : Nat) :
    (access offset size capacity : Logged E Unit).Only P := by
  intro x hx
  cases hx

@[simp] theorem only_event (P : E → Prop) (e : E) : (event e).Only P ↔ P e :=
  List.forall_mem_singleton

theorem Only.mono {P Q : E → Prop} {r : Logged E α} (h : r.Only P) (hpq : ∀ e, P e → Q e) :
    r.Only Q :=
  fun e he => hpq e (h e he)

theorem inBounds_ite (c : Prop) {_ : Decidable c} (r s : Logged E α) :
    (if c then r else s).InBounds ↔ (c → r.InBounds) ∧ (¬ c → s.InBounds) := by
  split
  · rename_i h
    exact ⟨fun hr => ⟨fun _ => hr, fun hc => absurd h hc⟩, fun hr => hr.1 h⟩
  · rename_i h
    exact ⟨fun hs => ⟨fun hc => absurd hc h, fun _ => hs⟩, fun hs => hs.2 h⟩

theorem only_ite (P : E → Prop) (c : Prop) {_ : Decidable c} (r s : Logged E α) :
    (if c then r else s).Only P ↔ (c → r.Only P) ∧ (¬ c → s.Only P) := by
  split
  · rename_i h
    exact ⟨fun hr => ⟨fun _ => hr, fun hc => absurd h hc⟩, fun hr => hr.1 h⟩
  · rename_i h
    exact ⟨fun hs => ⟨fun hc => absurd hc h, fun _ => hs⟩, fun hs => hs.2 h⟩

end Logged
end Parse
