import Mathlib.Algebra.Order.Ring.Nat
import Mathlib.Tactic.Common

/-! Runs of a machine that may get stuck: along finite lists of inputs, and along endless
ones. An invariant that no permitted input can break also shows that nothing gets stuck;
what is to happen at last is shown by waiting for it. -/
namespace Transition

variable {I S : Type}

/-- The state behind a list of inputs, if the machine gets there. -/
def run (step : I → S → Option S) : List I → S → Option S
  | [], s => some s
  | input :: inputs, s => (step input s).bind (run step inputs)

/-- Each input is permitted in the state that takes it. -/
def Along (step : I → S → Option S) (permitted : S → I → Prop) : List I → S → Prop
  | [], _ => True
  | input :: inputs, s =>
    permitted s input ∧ ∀ s', step input s = some s' → Along step permitted inputs s'

instance decidableAlong (step : I → S → Option S) (permitted : S → I → Prop)
    [∀ s i, Decidable (permitted s i)] :
    (inputs : List I) → (s : S) → Decidable (Along step permitted inputs s)
  | [], _ => isTrue trivial
  | input :: inputs, s =>
    match h : step input s with
    | none => decidable_of_iff (permitted s input)
        ⟨fun hp => ⟨hp, fun s' hs' => by simp [h] at hs'⟩, fun along => along.1⟩
    | some s' =>
      have := decidableAlong step permitted inputs s'
      decidable_of_iff (permitted s input ∧ Along step permitted inputs s')
        ⟨fun hp => ⟨hp.1, fun s₁ hs₁ => by cases h.symm.trans hs₁; exact hp.2⟩,
          fun along => ⟨along.1, along.2 s' h⟩⟩

section
variable {step : I → S → Option S} {permitted : S → I → Prop} {Inv : S → Prop}

theorem run_append (front back : List I) (s : S) :
    run step (front ++ back) s = (run step front s).bind (run step back) := by
  induction front generalizing s with
  | nil => rfl
  | cons input front ih =>
    simp only [List.cons_append, run]
    cases step input s with
    | none => rfl
    | some s' => exact ih s'

theorem Along.front {front back : List I} {s : S} (along : Along step permitted (front ++ back) s) :
    Along step permitted front s := by
  induction front generalizing s with
  | nil => trivial
  | cons input front ih => exact ⟨along.1, fun s' hs' => ih (along.2 s' hs')⟩

theorem Along.at {front back : List I} {input : I} {s s' : S}
    (along : Along step permitted (front ++ input :: back) s) (h : run step front s = some s') :
    permitted s' input := by
  induction front generalizing s with
  | nil =>
    cases h
    exact along.1
  | cons first front ih =>
    obtain ⟨s₁, hstep, hrun⟩ := Option.bind_eq_some_iff.mp h
    exact ih (along.2 s₁ hstep) hrun

theorem Along.mono {permitted' : S → I → Prop} (h : ∀ s i, permitted s i → permitted' s i)
    {inputs : List I} {s : S} (along : Along step permitted inputs s) :
    Along step permitted' inputs s := by
  induction inputs generalizing s with
  | nil => trivial
  | cons input inputs ih => exact ⟨h _ _ along.1, fun s' hs' => ih (along.2 s' hs')⟩

/-- The invariant rule: where every permitted step exists and keeps the invariant, a whole
run does. -/
theorem run_invariant
    (keeps : ∀ s input, Inv s → permitted s input → ∃ s', step input s = some s' ∧ Inv s')
    {inputs : List I} {s : S} (inv : Inv s) (along : Along step permitted inputs s) :
    ∃ s', run step inputs s = some s' ∧ Inv s' := by
  induction inputs generalizing s with
  | nil => exact ⟨s, rfl, inv⟩
  | cons input inputs ih =>
    obtain ⟨s₁, hstep, inv₁⟩ := keeps s input inv along.1
    obtain ⟨s', hrun, inv'⟩ := ih inv₁ (along.2 s₁ hstep)
    exact ⟨s', by rw [run, hstep, Option.bind_some, hrun], inv'⟩

end

/-- The state before input `n`. -/
def trace (step : I → S → Option S) (inputs : Nat → I) (s : S) : Nat → Option S
  | 0 => some s
  | n + 1 => (trace step inputs s n).bind (step (inputs n))

section
variable {step : I → S → Option S} {inputs : Nat → I} {s₀ : S}

theorem trace_succ {n : Nat} {s : S} (h : trace step inputs s₀ n = some s) :
    trace step inputs s₀ (n + 1) = step (inputs n) s := by
  rw [trace, h, Option.bind_some]

theorem trace_of_list (front : List I) (later : I) (s : S) {n : Nat} (hn : n ≤ front.length) :
    trace step (fun n => front.getD n later) s n = run step (front.take n) s := by
  induction n with
  | zero => rfl
  | succ n ih =>
    have hlt : n < front.length := hn
    have hget : front.getD n later = front[n] := by
      rw [List.getD, List.getElem?_eq_getElem hlt, Option.getD_some]
    rw [trace, ih (Nat.le_of_lt hlt), List.take_succ_eq_append_getElem hlt, run_append, hget]
    congr 1
    funext s'
    simp only [run, Option.bind_fun_some]

/-- From index `n` on, the trace reaches a state in `Q`. -/
def Reaches (step : I → S → Option S) (inputs : Nat → I) (s₀ : S) (n : Nat) (Q : S → Prop) : Prop :=
  ∃ k s, n ≤ k ∧ trace step inputs s₀ k = some s ∧ Q s

theorem Reaches.now {n : Nat} {s : S} {Q : S → Prop} (h : trace step inputs s₀ n = some s)
    (hq : Q s) : Reaches step inputs s₀ n Q :=
  ⟨n, s, Nat.le_refl n, h, hq⟩

theorem Reaches.mono {n : Nat} {P Q : S → Prop} (h : Reaches step inputs s₀ n P)
    (hpq : ∀ s, P s → Q s) : Reaches step inputs s₀ n Q := by
  obtain ⟨k, s, hk, hs, hp⟩ := h
  exact ⟨k, s, hk, hs, hpq s hp⟩

theorem Reaches.later {n k : Nat} {Q : S → Prop} (h : Reaches step inputs s₀ k Q) (hk : n ≤ k) :
    Reaches step inputs s₀ n Q := by
  obtain ⟨j, t, hj, ht⟩ := h
  exact ⟨j, t, Nat.le_trans hk hj, ht⟩

theorem Reaches.next {n : Nat} {s s' : S} {Q : S → Prop} (h : trace step inputs s₀ n = some s)
    (hstep : step (inputs n) s = some s')
    (later : trace step inputs s₀ (n + 1) = some s' → Reaches step inputs s₀ (n + 1) Q) :
    Reaches step inputs s₀ n Q := by
  obtain ⟨k, t, hk, ht, hq⟩ := later ((trace_succ h).trans hstep)
  exact ⟨k, t, by omega, ht, hq⟩

theorem Reaches.trans {n : Nat} {P Q : S → Prop} (first : Reaches step inputs s₀ n P)
    (second : ∀ k s, n ≤ k → trace step inputs s₀ k = some s → P s → Reaches step inputs s₀ k Q) :
    Reaches step inputs s₀ n Q := by
  obtain ⟨k, s, hk, hs, hp⟩ := first
  obtain ⟨k', s', hk', hs', hq⟩ := second k s hk hs hp
  exact ⟨k', s', by omega, hs', hq⟩

/-- Waiting: what holds until the awaited input arrives still holds when it does. -/
theorem Reaches.wait (awaited : S → I → Prop) {n : Nat} {s : S} {P : S → Prop}
    (h : trace step inputs s₀ n = some s) (hp : P s)
    (stays : ∀ k s, trace step inputs s₀ k = some s → P s → ¬ awaited s (inputs k) →
      ∃ s', step (inputs k) s = some s' ∧ P s')
    (comes : ∃ j, n ≤ j ∧ ∀ s, trace step inputs s₀ j = some s → P s → awaited s (inputs j)) :
    ∃ k s, n ≤ k ∧ trace step inputs s₀ k = some s ∧ P s ∧ awaited s (inputs k) := by
  obtain ⟨j, hj, hawaited⟩ := comes
  obtain ⟨d, rfl⟩ := Nat.exists_eq_add_of_le hj
  clear hj
  induction d generalizing n s with
  | zero => exact ⟨n, s, Nat.le_refl n, h, hp, hawaited s h hp⟩
  | succ d ih =>
    by_cases hnow : awaited s (inputs n)
    · exact ⟨n, s, Nat.le_refl n, h, hp, hnow⟩
    · obtain ⟨s', hstep, hp'⟩ := stays n s h hp hnow
      have h' : trace step inputs s₀ (n + 1) = some s' := (trace_succ h).trans hstep
      have hrest : ∀ s, trace step inputs s₀ (n + 1 + d) = some s → P s →
          awaited s (inputs (n + 1 + d)) := by
        rw [show n + 1 + d = n + (d + 1) by omega]
        exact hawaited
      obtain ⟨k, t, hk, ht⟩ := ih h' hp' hrest
      exact ⟨k, t, by omega, ht⟩

end

/-! What a log says about the past. -/

/-- At some entry in `good`, `P` held of the log before it, and no entry in `barrier` has
come since. -/
def Since (barrier good : S → Prop) (P : List S → Prop) (log : List S) : Prop :=
  ∃ before entry since, log = before ++ entry :: since ∧ P before ∧ good entry ∧
    ∀ e ∈ since, ¬ barrier e

section
variable {barrier good : S → Prop} {P : List S → Prop} {log : List S}

theorem Since.intro (hp : P log) {entry : S} (hgood : good entry) :
    Since barrier good P (log ++ [entry]) :=
  ⟨log, entry, [], rfl, hp, hgood, nofun⟩

theorem Since.append (h : Since barrier good P log) {later : List S}
    (harmless : ∀ e ∈ later, ¬ barrier e) : Since barrier good P (log ++ later) := by
  obtain ⟨before, entry, since, rfl, hp, hgood, hsince⟩ := h
  refine ⟨before, entry, since ++ later, by simp, hp, hgood, fun e he => ?_⟩
  rcases List.mem_append.mp he with he | he
  · exact hsince e he
  · exact harmless e he

theorem Since.occurred (h : Since barrier good P log) : ∃ entry ∈ log, good entry := by
  obtain ⟨before, entry, since, rfl, -, hgood, -⟩ := h
  exact ⟨entry, by simp, hgood⟩

theorem Since.earlier (stays : ∀ l later, P l → P (l ++ later)) (h : Since barrier good P log) :
    P log := by
  obtain ⟨before, entry, since, rfl, hp, -, -⟩ := h
  exact stays before (entry :: since) hp

theorem Since.mono {Q : List S → Prop} (hpq : ∀ l, P l → Q l) (h : Since barrier good P log) :
    Since barrier good Q log := by
  obtain ⟨before, entry, since, rfl, hp, hgood, hsince⟩ := h
  exact ⟨before, entry, since, rfl, hpq _ hp, hgood, hsince⟩

end

/-- Every entry in `event` has only come after `P` held of the log. -/
def OnlyAfter (event : S → Prop) (P : List S → Prop) (log : List S) : Prop :=
  ∀ before entry after, log = before ++ entry :: after → event entry → P before

theorem OnlyAfter.nil (event : S → Prop) (P : List S → Prop) : OnlyAfter event P [] := by
  intro before entry after h
  simp at h

theorem OnlyAfter.mono {event : S → Prop} {P Q : List S → Prop} {log : List S}
    (h : OnlyAfter event P log) (hpq : ∀ l, P l → Q l) : OnlyAfter event Q log :=
  fun before entry after heq he => hpq _ (h before entry after heq he)

theorem OnlyAfter.append {event : S → Prop} {P : List S → Prop} {log : List S}
    (h : OnlyAfter event P log) {entry : S} (hentry : event entry → P log) :
    OnlyAfter event P (log ++ [entry]) := by
  intro before e after heq he
  rcases List.eq_nil_or_concat after with rfl | ⟨after', last, rfl⟩
  · obtain ⟨rfl, hlast⟩ := List.append_inj' heq rfl
    cases hlast
    exact hentry he
  · rw [List.concat_eq_append, ← List.cons_append, ← List.append_assoc] at heq
    obtain ⟨hlog, -⟩ := List.append_inj' heq rfl
    exact h before e after' hlog he

end Transition
