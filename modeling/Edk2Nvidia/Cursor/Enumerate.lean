import Mathlib.Data.List.TakeWhile
import Mathlib.Data.List.Infix
import Mathlib.Tactic.Common

/-! An enumeration through a cursor: each step searches what lies behind the cursor, and the status
it returns is the one the search was left with. When that visits each match once and then ends. -/
namespace Cursor

variable {α β σ : Type} [DecidableEq σ]

/-- The search of what lies ahead: `check` gives the status an element leaves and whether the
search ends at it. -/
def search (check : α → σ × Bool) : σ → List α → σ × Option α
  | status, [] => (status, none)
  | _, a :: rest =>
    if (check a).2 then ((check a).1, some a) else search check (check a).1 rest

/-- The cursor moves when the status is `ok`, to `stop` where nothing was found. -/
def advance (ok : σ) (place : α → β) (stop cursor : β) (found : σ × Option α) : σ × β :=
  if found.1 = ok then (ok, (found.2.map place).getD stop) else (found.1, cursor)

/-- The cursors of the calls up to the first one that fails, and what that one returns. -/
def enumerate (ok : σ) (next : β → σ × β) : Nat → β → List β × Option (σ × β)
  | 0, _ => ([], none)
  | fuel + 1, cursor =>
    if (next cursor).1 = ok then
      let rest := enumerate ok next fuel (next cursor).2
      ((next cursor).2 :: rest.1, rest.2)
    else ([], some (next cursor))

/-- The calls up to the first one that fails, counted. -/
def count (ok : σ) (next : β → σ × β) : Nat → β → Nat → Option (σ × Nat)
  | 0, _, _ => none
  | fuel + 1, cursor, n =>
    if (next cursor).1 = ok then count ok next fuel (next cursor).2 (n + 1)
    else some ((next cursor).1, n)

theorem count_eq (ok : σ) (next : β → σ × β) (fuel : Nat) (cursor : β) (n : Nat) :
    count ok next fuel cursor n =
      (enumerate ok next fuel cursor).2.map fun last =>
        (last.1, n + (enumerate ok next fuel cursor).1.length) := by
  induction fuel generalizing cursor n with
  | zero => rfl
  | succ fuel ih =>
    rw [count, enumerate]
    split
    · rw [ih]
      simp only [List.length_cons]
      congr 1
      funext last
      rw [Nat.add_assoc, Nat.add_comm 1]
    · rfl

theorem count_fails {ok : σ} {next : β → σ × β} {fuel : Nat} {cursor : β} {n : Nat}
    {last : σ × Nat} (h : count ok next fuel cursor n = some last) : last.1 ≠ ok := by
  induction fuel generalizing cursor n with
  | zero => cases h
  | succ fuel ih =>
    rw [count] at h
    split at h
    · exact ih h
    next hfails =>
      cases h
      exact hfails

structure Walk (place : α → β) (order : List α) (after : β → List α) (start : β) : Prop where
  start : after start = order
  next : ∀ before a rest, order = before ++ a :: rest → after (place a) = rest

/-- The status left behind the last match, where `init` is the one a search starts with. -/
def finalStatus (check : α → σ × Bool) (init : σ) (order : List α) : σ :=
  match order.getLast? with
  | none => init
  | some a => if (check a).2 then init else (check a).1

/-- What an enumeration is to do: visit the matches in their order, and then fail and leave the
cursor. -/
def Enumerates (ok missing : σ) (place : α → β) (check : α → σ × Bool) (order : List α)
    (next : β → σ × β) (start : β) : Prop :=
  ∃ fuel, enumerate ok next fuel start =
    ((order.filter fun a => (check a).2).map place,
      some (missing, (((order.filter fun a => (check a).2).map place).getLast?).getD start))

def Counts (ok missing : σ) (check : α → σ × Bool) (order : List α) (next : β → σ × β)
    (start : β) : Prop :=
  ∃ fuel, count ok next fuel start 0 = some (missing, (order.filter fun a => (check a).2).length)

section
variable {ok missing init : σ} {place : α → β} {stop start : β} {check : α → σ × Bool}
  {order : List α} {after : β → List α}

omit [DecidableEq σ] in
/-- A search ends at the first match, or is left with the last status. -/
theorem search_spec (check : α → σ × Bool) (init : σ) (ahead : List α) :
    (∃ skipped a rest, ahead = skipped ++ a :: rest ∧ (∀ b ∈ skipped, (check b).2 = false) ∧
        (check a).2 = true ∧ search check init ahead = ((check a).1, some a)) ∨
      (∀ b ∈ ahead, (check b).2 = false) ∧
        search check init ahead = (finalStatus check init ahead, none) := by
  induction ahead generalizing init with
  | nil =>
    refine .inr ⟨?_, rfl⟩
    intro b hb
    cases hb
  | cons a ahead ih =>
    rw [search]
    split
    next hmatch =>
      refine .inl ⟨[], a, ahead, rfl, ?_, hmatch, rfl⟩
      intro b hb
      cases hb
    next hmatch =>
      have hfalse : (check a).2 = false := by simpa using hmatch
      rcases ih (check a).1 with ⟨skipped, m, rest, rfl, hskipped, hm, hsearch⟩ | ⟨hnone, hsearch⟩
      · refine .inl ⟨a :: skipped, m, rest, rfl, ?_, hm, hsearch⟩
        rintro b (_ | ⟨_, hb⟩)
        · exact hfalse
        · exact hskipped b hb
      · refine .inr ⟨?_, ?_⟩
        · rintro b (_ | ⟨_, hb⟩)
          · exact hfalse
          · exact hnone b hb
        · rw [hsearch]
          cases ahead with
          | nil => simp [finalStatus, hfalse]
          | cons b ahead =>
            unfold finalStatus
            rw [List.getLast?_cons_cons]
            cases hlast : (b :: ahead).getLast? with
            | none => cases List.getLast?_eq_none_iff.mp hlast
            | some l =>
              have hl := hnone l (List.mem_of_getLast? hlast)
              simp only [hl, Bool.false_eq_true, if_false]

omit [DecidableEq σ] in
theorem finalStatus_behind (init : σ) (skipped : List α) {a : α} (rest : List α)
    (ha : (check a).2 = true) :
    finalStatus check init (skipped ++ a :: rest) = finalStatus check init rest := by
  unfold finalStatus
  rw [List.getLast?_append_of_ne_nil _ (List.cons_ne_nil a rest)]
  cases rest with
  | nil =>
    rw [List.getLast?_singleton]
    simp only [ha, if_true, List.getLast?_nil]
  | cons b rest => rw [List.getLast?_cons_cons]

omit [DecidableEq σ] in
theorem filter_behind {skipped : List α} (hskipped : ∀ b ∈ skipped, (check b).2 = false) {a : α}
    (ha : (check a).2 = true) (rest : List α) :
    (skipped ++ a :: rest).filter (fun b => (check b).2) =
      a :: rest.filter fun b => (check b).2 := by
  have hnone : skipped.filter (fun b => (check b).2) = [] := by
    rw [List.filter_eq_nil_iff]
    intro b hb
    rw [hskipped b hb]
    exact Bool.false_ne_true
  rw [List.filter_append, hnone, List.nil_append,
    List.filter_cons_of_pos (p := fun b => (check b).2) ha]

def step (ok : σ) (place : α → β) (stop : β) (check : α → σ × Bool) (init : σ)
    (after : β → List α) (cursor : β) : σ × β :=
  advance ok place stop cursor (search check init (after cursor))

/-- From a cursor on, the matches ahead are visited exactly when the final status is the one that
says so. -/
theorem enumerates_from (hne : missing ≠ ok) (hfound : ∀ a, (check a).2 = true → (check a).1 = ok)
    (hwalk : Walk place order after start) (ahead : List α) (cursor : β) (before : List α)
    (horder : order = before ++ ahead) (hafter : after cursor = ahead) :
    Enumerates ok missing place check ahead (step ok place stop check init after) cursor ↔
      finalStatus check init ahead = missing := by
  induction hn : ahead.length using Nat.strong_induction_on generalizing ahead cursor before with
  | _ n ih =>
    subst hn
    rcases search_spec check init ahead with
      ⟨skipped, a, rest, rfl, hskipped, ha, hsearch⟩ | ⟨hnone, hsearch⟩
    · have hstep : step ok place stop check init after cursor = (ok, place a) := by
        rw [step, hafter, hsearch, hfound a ha, advance, if_pos rfl]
        rfl
      have hshorter : rest.length < (skipped ++ a :: rest).length := by
        rw [List.length_append, List.length_cons]
        omega
      have hrest := ih rest.length hshorter rest (place a) (before ++ (skipped ++ [a]))
        (by rw [horder]; simp) (hwalk.next (before ++ skipped) a rest (by rw [horder]; simp)) rfl
      rw [finalStatus_behind init skipped rest ha, ← hrest]
      unfold Enumerates
      rw [filter_behind hskipped ha]
      constructor
      · rintro ⟨fuel, heq⟩
        cases fuel with
        | zero => cases heq
        | succ fuel =>
          rw [enumerate, hstep, if_pos rfl] at heq
          refine ⟨fuel, Prod.ext ?_ ?_⟩
          · exact (List.cons.inj (congrArg Prod.fst heq)).2
          · have hlast := congrArg Prod.snd heq
            rw [List.map_cons, List.getLast?_cons, Option.getD_some] at hlast
            exact hlast
      · rintro ⟨fuel, heq⟩
        refine ⟨fuel + 1, ?_⟩
        rw [enumerate, hstep, if_pos rfl]
        simp only [heq, List.map_cons, List.getLast?_cons, Option.getD_some]
    · have hfilter : ahead.filter (fun b => (check b).2) = [] := by
        rw [List.filter_eq_nil_iff]
        intro b hb
        rw [hnone b hb]
        exact Bool.false_ne_true
      unfold Enumerates
      rw [hfilter]
      constructor
      · rintro ⟨fuel, heq⟩
        cases fuel with
        | zero => cases heq
        | succ fuel =>
          rw [enumerate, step, hafter, hsearch, advance] at heq
          by_cases hok : finalStatus check init ahead = ok
          · rw [if_pos hok, if_pos rfl] at heq
            cases congrArg Prod.fst heq
          · rw [if_neg hok, if_neg hok] at heq
            exact (Prod.mk.inj (Option.some.inj (congrArg Prod.snd heq))).1
      · intro hfinal
        refine ⟨1, ?_⟩
        have hok : finalStatus check init ahead ≠ ok := by
          rw [hfinal]
          exact hne
        rw [enumerate, step, hafter, hsearch, advance, if_neg hok, if_neg hok, hfinal]
        rfl

/-- An enumeration visits the matches once each and fails then exactly when the final status is the
one that says so. -/
theorem enumerates_iff (stop : β) (hne : missing ≠ ok)
    (hfound : ∀ a, (check a).2 = true → (check a).1 = ok)
    (hwalk : Walk place order after start) :
    Enumerates ok missing place check order (step ok place stop check init after) start ↔
      finalStatus check init order = missing :=
  enumerates_from hne hfound hwalk order start [] rfl hwalk.start

/-- Where the final status is `ok` and the enumeration starts over, it does not end. -/
theorem enumerate_never (hfound : ∀ a, (check a).2 = true → (check a).1 = ok)
    (hwalk : Walk place order after start) (hstop : after stop = order)
    (hfinal : finalStatus check init order = ok) (fuel : Nat) (cursor : β)
    (before ahead : List α) (horder : order = before ++ ahead) (hafter : after cursor = ahead)
    (hahead : finalStatus check init ahead = ok) :
    (enumerate ok (step ok place stop check init after) fuel cursor).2 = none := by
  induction fuel generalizing cursor before ahead with
  | zero => rfl
  | succ fuel ih =>
    rcases search_spec check init ahead with
      ⟨skipped, a, rest, rfl, hskipped, ha, hsearch⟩ | ⟨-, hsearch⟩
    · have hstep : step ok place stop check init after cursor = (ok, place a) := by
        rw [step, hafter, hsearch, hfound a ha, advance, if_pos rfl]
        rfl
      rw [finalStatus_behind init skipped rest ha] at hahead
      rw [enumerate, hstep, if_pos rfl]
      exact ih (place a) (before ++ (skipped ++ [a])) rest (by rw [horder]; simp)
        (hwalk.next (before ++ skipped) a rest (by rw [horder]; simp)) hahead
    · have hstep : step ok place stop check init after cursor = (ok, stop) := by
        rw [step, hafter, hsearch, advance, if_pos hahead]
        rfl
      rw [enumerate, hstep, if_pos rfl]
      exact ih stop [] order rfl hstop hfinal

/-- The count ends at the number of matches under the same condition. -/
theorem counts_iff (hne : missing ≠ ok) (hfound : ∀ a, (check a).2 = true → (check a).1 = ok)
    (hwalk : Walk place order after start) (hstop : after stop = order)
    (hfinal : finalStatus check init order = ok ∨ finalStatus check init order = missing) :
    Counts ok missing check order (step ok place stop check init after) start ↔
      finalStatus check init order = missing := by
  unfold Counts
  constructor
  · rintro ⟨fuel, heq⟩
    refine hfinal.resolve_left fun hok => ?_
    rw [count_eq, enumerate_never hfound hwalk hstop hok fuel start [] order rfl hwalk.start hok]
      at heq
    cases heq
  · intro h
    obtain ⟨fuel, heq⟩ := (enumerates_iff stop hne hfound hwalk).mpr h
    refine ⟨fuel, ?_⟩
    rw [count_eq, heq, Option.map_some, List.length_map, Nat.zero_add]

end

end Cursor
