import Mathlib.Data.List.TakeWhile
import Mathlib.Data.List.Infix
import Mathlib.Tactic.Common

/-! Patterns over an alphabet with a wildcard, the search of a string for a literal, and the greedy
matching of a pattern: it takes the first occurrence of each literal, and so finds the shortest
prefix of the string that is in the language. -/
namespace Wildcard

variable {α : Type} [DecidableEq α] {star : α}

def Matches (star : α) : List α → List α → Prop
  | [], string => string = []
  | c :: pattern, string =>
    if c = star then ∃ skipped rest, string = skipped ++ rest ∧ Matches star pattern rest
    else ∃ rest, string = c :: rest ∧ Matches star pattern rest

/-- The string from the first occurrence of the literal on. -/
def search (literal : List α) : List α → Option (List α)
  | [] => if literal = [] then some [] else none
  | c :: string =>
    if literal.isPrefixOf (c :: string) then some (c :: string) else search literal string

/-- The pattern against what is left of the string; `first` says that nothing of it is matched. -/
def greedy (star : α) (first : Bool) : List α → List α → Bool
  | [], string => string = []
  | c :: pattern, string =>
    if c = star then greedy star false pattern (if pattern = [] then [] else string)
    else
      let literal := (c :: pattern).takeWhile (· ≠ star)
      match search literal string with
      | none => false
      | some found =>
        if first ∧ found.length ≠ string.length then false
        else
          greedy star false ((c :: pattern).dropWhile (· ≠ star)) (found.drop literal.length)
  termination_by pattern => pattern.length
  decreasing_by
    · simp
    · have hne : ¬ c = star := by assumption
      rw [List.dropWhile_cons, if_pos (by simpa using hne), List.length_cons]
      exact Nat.lt_succ_of_le (List.length_dropWhile_le _ _)

/-! The language. -/

theorem matches_star (pattern string : List α) :
    Matches star (star :: pattern) string ↔
      ∃ skipped rest, string = skipped ++ rest ∧ Matches star pattern rest := by
  rw [Matches, if_pos rfl]

theorem matches_cons {c : α} (hc : c ≠ star) (pattern string : List α) :
    Matches star (c :: pattern) string ↔
      ∃ rest, string = c :: rest ∧ Matches star pattern rest := by
  rw [Matches, if_neg hc]

theorem matches_literal {literal : List α} (h : ∀ c ∈ literal, c ≠ star)
    (pattern string : List α) :
    Matches star (literal ++ pattern) string ↔
      ∃ rest, string = literal ++ rest ∧ Matches star pattern rest := by
  induction literal generalizing string with
  | nil =>
    constructor
    · intro hm
      exact ⟨string, rfl, hm⟩
    · rintro ⟨rest, rfl, hm⟩
      exact hm
  | cons c literal ih =>
    have hrest := fun d hd => h d (List.mem_cons_of_mem c hd)
    rw [List.cons_append, matches_cons (h c List.mem_cons_self)]
    constructor
    · rintro ⟨rest, rfl, hm⟩
      obtain ⟨rest', rfl, hm'⟩ := (ih hrest rest).mp hm
      exact ⟨rest', rfl, hm'⟩
    · rintro ⟨rest, rfl, hm⟩
      exact ⟨literal ++ rest, rfl, (ih hrest _).mpr ⟨rest, rfl, hm⟩⟩

/-- A pattern that starts with a wildcard takes in what stands in front. -/
theorem Matches.absorb {pattern string : List α} (h : Matches star (star :: pattern) string)
    (front : List α) : Matches star (star :: pattern) (front ++ string) := by
  obtain ⟨skipped, rest, rfl, hm⟩ := (matches_star pattern string).mp h
  exact (matches_star pattern _).mpr ⟨front ++ skipped, rest, by rw [List.append_assoc], hm⟩

theorem matches_star_star (pattern string : List α) :
    Matches star (star :: star :: pattern) string ↔ Matches star (star :: pattern) string := by
  constructor
  · intro h
    obtain ⟨skipped, rest, rfl, hm⟩ := (matches_star _ _).mp h
    exact hm.absorb skipped
  · intro h
    exact (matches_star _ _).mpr ⟨[], string, rfl, h⟩

/-! The search. -/

theorem search_none {literal string : List α} (h : search literal string = none) :
    ∀ front back, string ≠ front ++ (literal ++ back) := by
  induction string with
  | nil =>
    rintro front back heq
    rw [search] at h
    obtain ⟨-, hliteral⟩ := List.append_eq_nil_iff.mp heq.symm
    rw [if_pos (List.append_eq_nil_iff.mp hliteral).1] at h
    cases h
  | cons c string ih =>
    rw [search] at h
    split at h
    · cases h
    next hprefix =>
      rintro (_ | ⟨d, front⟩) back heq
      · refine hprefix (List.isPrefixOf_iff_prefix.mpr ?_)
        exact ⟨back, heq.symm⟩
      · exact ih h front back (List.cons.inj heq).2

theorem search_some {literal string found : List α} (h : search literal string = some found) :
    ∃ before after, string = before ++ (literal ++ after) ∧ found = literal ++ after ∧
      ∀ front back, string = front ++ (literal ++ back) → before.length ≤ front.length := by
  induction string with
  | nil =>
    rw [search] at h
    split at h
    next hliteral =>
      cases h
      refine ⟨[], [], by rw [hliteral]; rfl, by rw [hliteral]; rfl, ?_⟩
      intro front back _
      exact Nat.zero_le _
    · cases h
  | cons c string ih =>
    rw [search] at h
    split at h
    next hprefix =>
      cases h
      obtain ⟨after, hafter⟩ := List.isPrefixOf_iff_prefix.mp hprefix
      refine ⟨[], after, hafter.symm, hafter.symm, ?_⟩
      intro front back _
      exact Nat.zero_le _
    next hprefix =>
      obtain ⟨before, after, rfl, hfound, hfirst⟩ := ih h
      refine ⟨c :: before, after, rfl, hfound, ?_⟩
      rintro (_ | ⟨d, front⟩) back heq
      · exact absurd (List.isPrefixOf_iff_prefix.mpr ⟨back, heq.symm⟩) hprefix
      · exact Nat.succ_le_succ (hfirst front back (List.cons.inj heq).2)

/-! The greedy matching. -/

/-- The string is in the language, and no shorter prefix of it is, unless the pattern ends in a
wildcard. -/
def Shortest (star : α) (pattern string : List α) : Prop :=
  Matches star pattern string ∧ (pattern.getLast? = some star ∨
    ∀ front, front <+: string → front ≠ string → ¬ Matches star pattern front)

theorem shortest_star_star (pattern string : List α) :
    Shortest star (star :: star :: pattern) string ↔ Shortest star (star :: pattern) string := by
  unfold Shortest
  simp only [matches_star_star, List.getLast?_cons_cons]

/-- Where one pattern is another behind a fixed front, so is the shortest match. -/
theorem shortest_behind {pattern behind front string : List α}
    (hmatches : ∀ u, u <+: front ++ string →
      (Matches star pattern u ↔ ∃ w, u = front ++ w ∧ Matches star behind w))
    (hlast : pattern.getLast? = some star ↔ behind.getLast? = some star) :
    Shortest star pattern (front ++ string) ↔ Shortest star behind string := by
  have hwhole : Matches star pattern (front ++ string) ↔ Matches star behind string := by
    rw [hmatches _ (List.prefix_refl _)]
    constructor
    · rintro ⟨w, heq, hm⟩
      rw [List.append_cancel_left heq]
      exact hm
    · intro hm
      exact ⟨string, rfl, hm⟩
  have hshorter : (∀ u, u <+: front ++ string → u ≠ front ++ string → ¬ Matches star pattern u) ↔
      ∀ w, w <+: string → w ≠ string → ¬ Matches star behind w := by
    constructor
    · intro h w hprefix hne hm
      have hu : front ++ w <+: front ++ string := (List.prefix_append_right_inj front).mpr hprefix
      refine h (front ++ w) hu ?_ ((hmatches _ hu).mpr ⟨w, rfl, hm⟩)
      intro heq
      exact hne (List.append_cancel_left heq)
    · intro h u hprefix hne hm
      obtain ⟨w, rfl, hm'⟩ := (hmatches u hprefix).mp hm
      refine h w ((List.prefix_append_right_inj front).mp hprefix) ?_ hm'
      intro heq
      exact hne (by rw [heq])
  unfold Shortest
  rw [hwhole, hlast, hshorter]

/-- What follows a literal that is looked for is matched behind its first occurrence. -/
theorem matches_behind {literal before after : List α} (hliteral : ∀ c ∈ literal, c ≠ star)
    (hfirst : ∀ front back, before ++ (literal ++ after) = front ++ (literal ++ back) →
      before.length ≤ front.length)
    (pattern : List α) {u : List α} (hu : u <+: before ++ literal ++ after) :
    Matches star (star :: (literal ++ star :: pattern)) u ↔
      ∃ w, u = before ++ literal ++ w ∧ Matches star (star :: pattern) w := by
  constructor
  · intro h
    obtain ⟨skipped, rest, rfl, hm⟩ := (matches_star _ _).mp h
    obtain ⟨rest', rfl, hm'⟩ := (matches_literal hliteral _ _).mp hm
    obtain ⟨back, hback⟩ := hu
    have hle := hfirst skipped (rest' ++ back) (by
      rw [← List.append_assoc before, ← hback]
      simp only [List.append_assoc])
    -- the first occurrence lies in front of the end of this one
    have hfront : before ++ literal <+: skipped ++ literal ++ rest' := by
      have hlong : before ++ literal <+: skipped ++ (literal ++ rest') ++ back := by
        rw [hback]
        exact List.prefix_append _ _
      refine List.prefix_of_prefix_length_le hlong ?_ ?_
      · rw [List.append_assoc skipped]
        exact List.prefix_append _ _
      · simp only [List.length_append]
        omega
    obtain ⟨w, hw⟩ := hfront
    refine ⟨w, ?_, ?_⟩
    · rw [hw, List.append_assoc]
    · have hlength := congrArg List.length hw
      simp only [List.length_append] at hlength
      have hrest : rest' <:+ skipped ++ literal ++ rest' := List.suffix_append _ _
      have hw' : w <:+ skipped ++ literal ++ rest' := ⟨before ++ literal, hw⟩
      obtain ⟨between, rfl⟩ := List.suffix_of_suffix_length_le hrest hw' (by omega)
      exact hm'.absorb between
  · rintro ⟨w, rfl, hm⟩
    refine (matches_star _ _).mpr ⟨before, literal ++ w, by rw [List.append_assoc], ?_⟩
    exact (matches_literal hliteral _ _).mpr ⟨w, rfl, hm⟩

omit [DecidableEq α] in
theorem getLast?_literal {literal : List α} (hliteral : ∀ c ∈ literal, c ≠ star) :
    literal.getLast? ≠ some star := by
  intro heq
  exact hliteral star (List.mem_of_getLast? heq) rfl

theorem shortest_literal {literal before after : List α} (hliteral : ∀ c ∈ literal, c ≠ star)
    (hne : literal ≠ [])
    (hfirst : ∀ front back, before ++ (literal ++ after) = front ++ (literal ++ back) →
      before.length ≤ front.length) :
    Shortest star (star :: literal) (before ++ (literal ++ after)) ↔ after = [] := by
  have hmatches : ∀ u, Matches star (star :: literal) u ↔ ∃ front, u = front ++ literal := by
    intro u
    have hall := matches_literal hliteral []
    rw [List.append_nil] at hall
    rw [matches_star]
    constructor
    · rintro ⟨front, rest, rfl, hm⟩
      obtain ⟨rest', rfl, rfl⟩ := (hall rest).mp hm
      exact ⟨front, by rw [List.append_nil]⟩
    · rintro ⟨front, rfl⟩
      exact ⟨front, literal, rfl, (hall literal).mpr ⟨[], by rw [List.append_nil], rfl⟩⟩
  have hlast : (star :: literal).getLast? ≠ some star := by
    rw [List.getLast?_cons_of_ne_nil hne]
    exact getLast?_literal hliteral
  unfold Shortest
  constructor
  · rintro ⟨-, hstar | hshorter⟩
    · exact absurd hstar hlast
    · by_contra hafter
      refine hshorter (before ++ literal) ?_ ?_ ((hmatches _).mpr ⟨before, rfl⟩)
      · rw [← List.append_assoc]
        exact List.prefix_append _ _
      · intro heq
        rw [← List.append_assoc] at heq
        exact hafter (List.append_right_eq_self.mp heq.symm)
  · rintro rfl
    rw [List.append_nil]
    refine ⟨(hmatches _).mpr ⟨before, rfl⟩, .inr ?_⟩
    rintro u ⟨back, hback⟩ hne' hm
    obtain ⟨front, rfl⟩ := (hmatches u).mp hm
    have hle := hfirst front back (by rw [List.append_nil, ← hback, List.append_assoc])
    have hlength := congrArg List.length hback
    simp only [List.length_append] at hlength
    have hnil : back = [] := List.eq_nil_of_length_eq_zero (by omega)
    rw [hnil, List.append_nil] at hback
    exact hne' hback

/-- The pattern behind its first literal is empty or starts with a wildcard. -/
theorem dropWhile_eq (pattern : List α) :
    pattern.dropWhile (· ≠ star) = [] ∨
      ∃ rest, pattern.dropWhile (· ≠ star) = star :: rest := by
  cases h : pattern.dropWhile (· ≠ star) with
  | nil => exact .inl rfl
  | cons c rest =>
    refine .inr ⟨rest, ?_⟩
    have hc := List.head?_dropWhile_not (fun d : α => decide (d ≠ star)) pattern
    rw [h] at hc
    simp only [List.head?_cons] at hc
    simpa using hc

/-- A pattern of which nothing or a wildcard is left is matched greedily from there on. -/
theorem greedy_behind {pattern string : List α}
    (hpattern : pattern = [] ∨ ∃ rest, pattern = star :: rest)
    (h : pattern ≠ [] → (greedy star false pattern string = true ↔
      Shortest star (star :: pattern) string)) :
    greedy star false pattern string = true ↔ Shortest star pattern string := by
  rcases hpattern with rfl | ⟨rest, rfl⟩
  · rw [greedy, decide_eq_true_iff]
    constructor
    · rintro rfl
      refine ⟨rfl, .inr ?_⟩
      intro front hprefix hne
      exact absurd (List.prefix_nil.mp hprefix) hne
    · intro hm
      exact hm.1
  · rw [h (List.cons_ne_nil _ _), shortest_star_star]

theorem greedy_star (pattern string : List α) (hne : pattern ≠ []) (first : Bool) :
    greedy star first (star :: pattern) string = greedy star false pattern string := by
  rw [greedy, if_pos rfl, if_neg hne]

theorem exists_literal {c : α} (hc : c ≠ star) (rest : List α) :
    ∃ literal next, c :: rest = literal ++ next ∧ literal ≠ [] ∧ (∀ d ∈ literal, d ≠ star) ∧
      (next = [] ∨ ∃ pattern, next = star :: pattern) ∧
      (c :: rest).takeWhile (· ≠ star) = literal ∧ (c :: rest).dropWhile (· ≠ star) = next := by
  refine ⟨_, _, (List.takeWhile_append_dropWhile (p := (· ≠ star))).symm, ?_, ?_,
    dropWhile_eq _, rfl, rfl⟩
  · rw [List.takeWhile_cons, if_pos (by simpa using hc)]
    exact List.cons_ne_nil _ _
  · intro d hd
    simpa using List.mem_takeWhile_imp hd

omit [DecidableEq α] in
theorem getLast?_behind (front : List α) (c : α) (pattern : List α) :
    (front ++ c :: pattern).getLast? = (c :: pattern).getLast? := by
  rw [List.getLast?_append_of_ne_nil _ (List.cons_ne_nil c pattern)]

theorem greedy_iff_shortest (pattern string : List α) (hne : pattern ≠ []) :
    greedy star false pattern string = true ↔ Shortest star (star :: pattern) string := by
  induction hn : pattern.length using Nat.strong_induction_on generalizing pattern string with
  | _ n ih =>
    subst hn
    match pattern with
    | [] => exact absurd rfl hne
    | c :: rest =>
      by_cases hc : c = star
      · subst hc
        by_cases hrest : rest = []
        · rw [hrest, greedy, if_pos rfl, if_pos rfl, greedy]
          refine iff_of_true (decide_eq_true rfl) ⟨?_, .inl rfl⟩
          exact (matches_star _ _).mpr ⟨[], string, rfl,
            (matches_star _ _).mpr ⟨string, [], (List.append_nil string).symm, rfl⟩⟩
        · rw [greedy_star rest string hrest, ih _ (Nat.lt_succ_self _) rest string hrest rfl,
            shortest_star_star]
      · obtain ⟨literal, next, hsplit, hliteral, hplain, hnext, htake, hdrop⟩ :=
          exists_literal hc rest
        have hshorter : next.length < (c :: rest).length := by
          rw [hsplit, List.length_append]
          have hpos := List.length_pos_of_ne_nil hliteral
          omega
        rw [greedy, if_neg hc]
        simp only [htake, hdrop]
        rw [hsplit]
        cases hsearch : search literal string with
        | none =>
          refine iff_of_false Bool.false_ne_true ?_
          rintro ⟨hm, -⟩
          obtain ⟨skipped, back, rfl, hm'⟩ := (matches_star _ _).mp hm
          obtain ⟨back', rfl, -⟩ := (matches_literal hplain _ _).mp hm'
          exact search_none hsearch skipped back' rfl
        | some found =>
          obtain ⟨before, after, rfl, rfl, hfirst⟩ := search_some hsearch
          simp only [Bool.false_eq_true, false_and, if_false, List.drop_left]
          rw [greedy_behind hnext fun hne' => ih _ hshorter next after hne' rfl]
          rcases hnext with rfl | ⟨pattern', rfl⟩
          · rw [List.append_nil, shortest_literal hplain hliteral hfirst]
            constructor
            · intro h
              exact h.1
            · rintro rfl
              refine ⟨rfl, .inr ?_⟩
              intro front hprefix hfront
              exact absurd (List.prefix_nil.mp hprefix) hfront
          · rw [← List.append_assoc before]
            refine (shortest_behind ?_ ?_).symm
            · intro u hu
              exact matches_behind hplain hfirst pattern' hu
            · rw [← List.cons_append, getLast?_behind]

/-- From the start of the string, the greedy matching finds the shortest match as well. -/
theorem greedy_first_iff_shortest (pattern string : List α) (hne : pattern ≠ []) :
    greedy star true pattern string = true ↔ Shortest star pattern string := by
  match pattern with
  | [] => exact absurd rfl hne
  | c :: rest =>
    by_cases hc : c = star
    · subst hc
      by_cases hrest : rest = []
      · rw [hrest, greedy, if_pos rfl, if_pos rfl, greedy]
        refine iff_of_true (decide_eq_true rfl) ⟨?_, .inl rfl⟩
        exact (matches_star _ _).mpr ⟨string, [], (List.append_nil string).symm, rfl⟩
      · rw [greedy_star rest string hrest, greedy_iff_shortest rest string hrest]
    · obtain ⟨literal, next, hsplit, hliteral, hplain, hnext, htake, hdrop⟩ :=
        exists_literal hc rest
      rw [greedy, if_neg hc]
      simp only [htake, hdrop]
      rw [hsplit]
      have hfails : (∀ after, string ≠ literal ++ after) →
          ¬ Shortest star (literal ++ next) string := by
        rintro h ⟨hm, -⟩
        obtain ⟨after, heq, -⟩ := (matches_literal hplain _ _).mp hm
        exact h after heq
      cases hsearch : search literal string with
      | none =>
        refine iff_of_false Bool.false_ne_true (hfails ?_)
        intro after heq
        exact search_none hsearch [] after heq
      | some found =>
        obtain ⟨before, after, rfl, rfl, hfirst⟩ := search_some hsearch
        simp only [true_and]
        split
        next hlength =>
          refine iff_of_false Bool.false_ne_true (hfails ?_)
          intro after' heq
          have hle := hfirst [] after' heq
          refine hlength ?_
          rw [List.eq_nil_of_length_eq_zero (Nat.le_zero.mp hle), List.nil_append]
        next hlength =>
          have hbefore : before = [] := by
            refine List.eq_nil_of_length_eq_zero ?_
            have hsame := not_not.mp hlength
            rw [List.length_append] at hsame
            rw [List.length_append, List.length_append] at hsame
            omega
          subst hbefore
          rw [List.nil_append, List.drop_left,
            greedy_behind hnext fun hne' => greedy_iff_shortest next after hne']
          refine (shortest_behind ?_ ?_).symm
          · intro u _
            exact matches_literal hplain next u
          · rcases hnext with rfl | ⟨pattern', rfl⟩
            · rw [List.append_nil]
              exact iff_of_false (getLast?_literal hplain) (by simp)
            · rw [getLast?_behind]

end Wildcard
