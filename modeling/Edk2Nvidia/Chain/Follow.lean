import Mathlib.Data.Set.Finite.Basic
import Mathlib.Data.Fintype.EquivFin
import Mathlib.Tactic.Common

/-! A chain of references that is followed to its end, and when it has one: among finitely many
places, just where none is met twice. -/
namespace Chain

variable {α β : Type} (step : α → α ⊕ β)

/-- To the next place, or to a result. -/
def follow : Nat → α → Option β
  | 0, _ => none
  | fuel + 1, a =>
    match step a with
    | .inl next => follow fuel next
    | .inr result => some result

def place (a : α) : Nat → Option α
  | 0 => some a
  | n + 1 => (place a n).bind fun b => (step b).getLeft?

def Returns (a : α) : Prop :=
  ∃ i j b, i < j ∧ place step a i = some b ∧ place step a j = some b

variable {step}

theorem place_succ (a : α) (n : Nat) :
    place step a (n + 1) = ((step a).getLeft?).bind fun next => place step next n := by
  induction n with
  | zero =>
    show (some a).bind _ = _
    cases h : step a <;> simp [h, place]
  | succ n ih =>
    rw [place, ih, Option.bind_assoc]
    rfl

theorem place_add (a b : α) (i n : Nat) (h : place step a i = some b) :
    place step a (i + n) = place step b n := by
  induction n with
  | zero => exact h
  | succ n ih =>
    rw [← Nat.add_assoc, place, ih]
    rfl

theorem follow_none {a : α} {fuel : Nat} :
    follow step fuel a = none ↔ (place step a fuel).isSome := by
  induction fuel generalizing a with
  | zero => simp [follow, place]
  | succ fuel ih =>
    rw [follow, place_succ]
    cases h : step a with
    | inl next => simp [ih]
    | inr result => simp

theorem place_isSome_of_le {a : α} {i j : Nat} (hij : i ≤ j) (h : (place step a j).isSome) :
    (place step a i).isSome := by
  induction j with
  | zero =>
    rw [Nat.le_zero.mp hij]
    exact h
  | succ j ih =>
    by_cases heq : i = j + 1
    · rwa [heq]
    · refine ih (by omega) ?_
      cases hj : place step a j with
      | none => rw [place, hj] at h; cases h
      | some b => rfl

theorem Returns.place_isSome {a : α} (h : Returns step a) (n : Nat) : (place step a n).isSome := by
  obtain ⟨i, j, b, hij, hi, hj⟩ := h
  have hround : ∀ k, place step a (i + k * (j - i)) = some b := by
    intro k
    induction k with
    | zero => rwa [Nat.zero_mul, Nat.add_zero]
    | succ k ih =>
      rw [Nat.succ_mul, ← Nat.add_assoc, place_add a b _ _ ih, ← place_add a b i _ hi,
        show i + (j - i) = j by omega, hj]
  refine place_isSome_of_le (j := i + n * (j - i)) ?_ (by rw [hround]; rfl)
  calc n ≤ n * (j - i) := Nat.le_mul_of_pos_right n (by omega)
    _ ≤ i + n * (j - i) := Nat.le_add_left _ _

theorem returns_of_endless {a : α} {places : Set α} (hfinite : places.Finite)
    (hplaces : ∀ n b, place step a n = some b → b ∈ places)
    (hendless : ∀ n, (place step a n).isSome) : Returns step a := by
  by_contra hnot
  have hinjective : Function.Injective fun n => (place step a n).get (hendless n) := by
    intro i j hij
    have hi := Option.some_get (hendless i)
    have hj := Option.some_get (hendless j)
    change (place step a i).get _ = (place step a j).get _ at hij
    rcases Nat.lt_trichotomy i j with h | h | h
    · exact absurd ⟨i, j, _, h, hi.symm, by rw [hij, hj]⟩ hnot
    · exact h
    · exact absurd ⟨j, i, _, h, hj.symm, by rw [← hij, hi]⟩ hnot
  exact Set.infinite_of_injective_forall_mem hinjective
    (fun n => hplaces n _ (Option.some_get (hendless n)).symm) hfinite

/-- Among finitely many places the following ends just where none is met twice. -/
theorem ends_iff {a : α} {places : Set α} (hfinite : places.Finite)
    (hplaces : ∀ n b, place step a n = some b → b ∈ places) :
    (∃ fuel result, follow step fuel a = some result) ↔ ¬ Returns step a := by
  constructor
  · rintro ⟨fuel, result, hresult⟩ hreturns
    have hnone := follow_none.mpr (hreturns.place_isSome fuel)
    rw [hresult] at hnone
    cases hnone
  · intro hnot
    by_contra hendless
    refine hnot (returns_of_endless hfinite hplaces fun n => ?_)
    rw [← follow_none]
    cases hfollow : follow step n a with
    | none => rfl
    | some result => exact absurd ⟨n, result, hfollow⟩ hendless

/-- What holds of the end and is kept backwards along the chain. -/
theorem follow_induct {P : α → β → Prop} (hend : ∀ a result, step a = .inr result → P a result)
    (hstep : ∀ a next result, step a = .inl next → P next result → P a result) {fuel : Nat} {a : α}
    {result : β} (h : follow step fuel a = some result) : P a result := by
  induction fuel generalizing a with
  | zero => cases h
  | succ fuel ih =>
    rw [follow] at h
    cases hcase : step a with
    | inl next =>
      simp only [hcase] at h
      exact hstep a next result hcase (ih h)
    | inr last =>
      simp only [hcase] at h
      rw [Option.some.inj h] at hcase
      exact hend a result hcase

end Chain
