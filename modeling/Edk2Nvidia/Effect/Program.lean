import Mathlib.Algebra.Order.Ring.Nat
import Mathlib.Init

/-! Programs that make one call after the other on a system that can lose power before each of
them. The environment answers the calls; when its answers run out, power is lost as the next call
is due. `wp` is the weakest precondition of both at once: `Q` for what a run returns, `lost` for
what a power loss leaves. -/
namespace Effect

inductive Prog (C R α : Type) where
  | ret (a : α)
  | call (c : C) (k : R → Prog C R α)

/-- How a run ends: it returns, or power is lost as a call is due. -/
inductive Outcome (C S α : Type) where
  | done (a : α) (s : S)
  | lost (c : C) (s : S)
deriving DecidableEq, Repr

namespace Prog

def bind : Prog C R α → (α → Prog C R β) → Prog C R β
  | ret a, f => f a
  | call c k, f => call c fun r => (k r).bind f

instance instMonad : Monad (Prog C R) where
  pure := ret
  bind := bind

def perform (c : C) : Prog C R R := call c ret

variable (exec : C → A → S → R × S)

def run : Prog C R α → List A → S → Outcome C S α
  | ret a, _, s => .done a s
  | call c _, [], s => .lost c s
  | call c k, a :: answers, s => run (k (exec c a s).1) answers (exec c a s).2

@[simp] theorem run_pure (a : α) (answers : List A) (s : S) :
    run exec (pure a : Prog C R α) answers s = .done a s := rfl

@[simp] theorem run_perform_nil (c : C) (f : R → Prog C R α) (s : S) :
    run exec (perform c >>= f) ([] : List A) s = .lost c s := rfl

@[simp] theorem run_perform_cons (c : C) (f : R → Prog C R α) (a : A) (answers : List A) (s : S) :
    run exec (perform c >>= f) (a :: answers) s =
      run exec (f (exec c a s).1) answers (exec c a s).2 := rfl

theorem bind_assoc (p : Prog C R α) (f : α → Prog C R β) (g : β → Prog C R γ) :
    p >>= f >>= g = p >>= fun a => f a >>= g := by
  show (p.bind f).bind g = p.bind fun a => (f a).bind g
  induction p with
  | ret a => rfl
  | call c k ih =>
    simp only [bind]
    congr 1
    funext r
    exact ih r

@[simp] theorem pure_bind (a : α) (f : α → Prog C R β) : pure a >>= f = f a := rfl

/-- `ok` says which answers the environment can give. -/
def wp (ok : A → Prop) (lost : C → S → Prop) (Q : α → S → Prop) : Prog C R α → S → Prop
  | ret a, s => Q a s
  | call c k, s => lost c s ∧ ∀ a, ok a → wp ok lost Q (k (exec c a s).1) (exec c a s).2

variable {exec} {ok : A → Prop} {lost : C → S → Prop} {Q : α → S → Prop} {s : S}

@[simp] theorem wp_pure (a : α) : wp exec ok lost Q (pure a) s ↔ Q a s := Iff.rfl

@[simp] theorem wp_perform (c : C) {Q : R → S → Prop} :
    wp exec ok lost Q (perform c) s ↔
      lost c s ∧ ∀ a, ok a → Q (exec c a s).1 (exec c a s).2 := Iff.rfl

@[simp] theorem wp_bind (p : Prog C R β) (f : β → Prog C R α) :
    wp exec ok lost Q (p >>= f) s ↔
      wp exec ok lost (fun b s => wp exec ok lost Q (f b) s) p s := by
  show wp exec ok lost Q (p.bind f) s ↔ _
  induction p generalizing s with
  | ret b => rfl
  | call c k ih => simp only [bind, wp, ih]

theorem wp_mono {lost' : C → S → Prop} {Q' : α → S → Prop} {p : Prog C R α}
    (h : wp exec ok lost Q p s) (hlost : ∀ c s, lost c s → lost' c s)
    (hQ : ∀ a s, Q a s → Q' a s) : wp exec ok lost' Q' p s := by
  induction p generalizing s with
  | ret a => exact hQ a s h
  | call c k ih => exact ⟨hlost c s h.1, fun a ha => ih _ (h.2 a ha)⟩

theorem wp_run {p : Prog C R α} (h : wp exec ok lost Q p s) {answers : List A}
    (hok : ∀ a ∈ answers, ok a) :
    match run exec p answers s with
    | .done a s' => Q a s'
    | .lost c s' => lost c s' := by
  induction p generalizing s answers with
  | ret a => exact h
  | call c k ih =>
    cases answers with
    | nil => exact h.1
    | cons a answers =>
      exact ih _ (h.2 a (hok a List.mem_cons_self)) fun b hb => hok b (List.mem_cons_of_mem a hb)

theorem wp_done {p : Prog C R α} (h : wp exec ok lost Q p s) {answers : List A}
    (hok : ∀ a ∈ answers, ok a) {a : α} {s' : S} (hrun : run exec p answers s = .done a s') :
    Q a s' := by
  have hwp := wp_run h hok
  rwa [hrun] at hwp

theorem wp_lost {p : Prog C R α} (h : wp exec ok lost Q p s) {answers : List A}
    (hok : ∀ a ∈ answers, ok a) {c : C} {s' : S} (hrun : run exec p answers s = .lost c s') :
    lost c s' := by
  have hwp := wp_run h hok
  rwa [hrun] at hwp

/-- With as many answers as it takes, of the one that is possible, a program returns. -/
theorem wp_total {a : A} {p : Prog C R α} (h : wp exec (· = a) lost Q p s) :
    ∃ n b s', run exec p (List.replicate n a) s = .done b s' ∧ Q b s' := by
  induction p generalizing s with
  | ret b => exact ⟨0, b, s, rfl, h⟩
  | call c k ih =>
    obtain ⟨n, b, s', hrun, hQ⟩ := ih _ (h.2 a rfl)
    exact ⟨n + 1, b, s', hrun, hQ⟩

end Prog

end Effect
