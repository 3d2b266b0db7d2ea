import Mathlib.Algebra.Order.Ring.Nat
import Mathlib.Tactic.Common

/-! Loops whose passes decide themselves whether another one follows. -/
namespace Transition

inductive Pass (σ : Type) where
  | stop (s : σ)
  | next (s : σ)

/-- The loop, or nothing when it has not ended after so many passes. -/
def iterate (pass : σ → Pass σ) : Nat → σ → Option σ
  | 0, _ => none
  | fuel + 1, s =>
    match pass s with
    | .stop s => some s
    | .next s => iterate pass fuel s

variable {σ : Type} {pass : σ → Pass σ}

/-- The passes are counted: `At n` is what holds before pass `n`, and `EndsAt n` whether it is the
last. -/
structure Counted (pass : σ → Pass σ) (At : Nat → σ → Prop) (EndsAt : Nat → Prop) : Prop where
  stop : ∀ n s, At n s → EndsAt n → ∃ s', pass s = .stop s'
  next : ∀ n s, At n s → ¬ EndsAt n → ∃ s', pass s = .next s' ∧ At (n + 1) s'

variable {At : Nat → σ → Prop} {EndsAt : Nat → Prop}

theorem Counted.iterate_some (h : Counted pass At EndsAt) {fuel n : Nat} {s final : σ}
    (hs : At n s) (hrun : iterate pass fuel s = some final) :
    ∃ last s', n ≤ last ∧ last < n + fuel ∧ At last s' ∧ EndsAt last ∧ pass s' = .stop final ∧
      ∀ k, n ≤ k → k < last → ¬ EndsAt k := by
  induction fuel generalizing n s with
  | zero => cases hrun
  | succ fuel ih =>
    unfold iterate at hrun
    by_cases hends : EndsAt n
    · obtain ⟨s', hpass⟩ := h.stop n s hs hends
      rw [hpass] at hrun
      cases hrun
      exact ⟨n, s, le_rfl, by omega, hs, hends, hpass, fun k hk hlt => by omega⟩
    · obtain ⟨s', hpass, hs'⟩ := h.next n s hs hends
      rw [hpass] at hrun
      obtain ⟨last, s'', hle, hlt, hat, hlast, hstop, hbefore⟩ := ih hs' hrun
      refine ⟨last, s'', by omega, by omega, hat, hlast, hstop, fun k hk hlt => ?_⟩
      rcases Nat.eq_or_lt_of_le hk with rfl | hk
      · exact hends
      · exact hbefore k hk hlt

theorem Counted.iterate_iff (h : Counted pass At EndsAt) (fuel : Nat) {n : Nat} {s : σ}
    (hs : At n s) :
    (∃ final, iterate pass fuel s = some final) ↔ ∃ k, n ≤ k ∧ k < n + fuel ∧ EndsAt k := by
  constructor
  · rintro ⟨final, hrun⟩
    obtain ⟨last, -, hle, hlt, -, hlast, -⟩ := h.iterate_some hs hrun
    exact ⟨last, hle, hlt, hlast⟩
  · rintro ⟨k, hle, hlt, hk⟩
    induction fuel generalizing n s with
    | zero => omega
    | succ fuel ih =>
      unfold iterate
      by_cases hends : EndsAt n
      · obtain ⟨s', hpass⟩ := h.stop n s hs hends
        exact ⟨s', by rw [hpass]⟩
      · obtain ⟨s', hpass, hs'⟩ := h.next n s hs hends
        have hne : n ≠ k := by
          rintro rfl
          exact hends hk
        obtain ⟨final, hrun⟩ := ih hs' (by omega) (by omega)
        exact ⟨final, by rw [hpass]; exact hrun⟩

end Transition
