import Edk2Nvidia.Wildcard.Language

/-! The search of a string that is put together from parts. -/
namespace Wildcard

variable {α : Type} [DecidableEq α] {literal front back found : List α}

theorem search_eq_none_iff : search literal front = none ↔ ¬ literal <:+: front := by
  constructor
  · rintro h ⟨before, after, heq⟩
    exact search_none h before after (by rw [← heq, List.append_assoc])
  · intro h
    cases hsearch : search literal front with
    | none => rfl
    | some found =>
      obtain ⟨before, after, heq, -, -⟩ := search_some hsearch
      exact absurd ⟨before, after, by rw [heq, List.append_assoc]⟩ h

theorem length_le_of_search (h : search literal front = some found) :
    literal.length ≤ front.length := by
  obtain ⟨before, after, rfl, -, -⟩ := search_some h
  simp only [List.length_append]
  omega

theorem search_of_prefix (h : literal <+: front) : search literal front = some front := by
  cases front with
  | nil => rw [search, if_pos (List.prefix_nil.mp h)]
  | cons c front => rw [search, if_pos (List.isPrefixOf_iff_prefix.mpr h)]

theorem search_append_some (h : search literal front = some found) (back : List α) :
    search literal (front ++ back) = some (found ++ back) := by
  induction front with
  | nil =>
    rw [search] at h
    split at h
    next hnil =>
      cases h
      rw [hnil]
      exact search_of_prefix List.nil_prefix
    · cases h
  | cons c front ih =>
    rw [search] at h
    split at h
    next hstart =>
      cases h
      exact search_of_prefix ((List.isPrefixOf_iff_prefix.mp hstart).trans (List.prefix_append _ _))
    next hstart =>
      have hlength := length_le_of_search h
      rw [List.cons_append, search, if_neg, ih h]
      intro hlonger
      refine hstart (List.isPrefixOf_iff_prefix.mpr ?_)
      exact List.prefix_of_prefix_length_le (List.isPrefixOf_iff_prefix.mp hlonger)
        (List.prefix_append (c :: front) back) (by rw [List.length_cons]; omega)

/-- No occurrence runs across an element that the literal does not have. -/
theorem search_append_none {mark : α} (hmark : mark ∉ literal) (hne : literal ≠ [])
    (h : search literal front = none) (back : List α) :
    search literal (front ++ mark :: back) = search literal back := by
  induction front with
  | nil =>
    rw [List.nil_append, search, if_neg]
    intro hstart
    obtain ⟨d, rest, rfl⟩ := List.exists_cons_of_ne_nil hne
    have hd := (List.cons_prefix_cons.mp (List.isPrefixOf_iff_prefix.mp hstart)).1
    exact hmark (hd ▸ List.mem_cons_self)
  | cons c front ih =>
    rw [search] at h
    split at h
    · cases h
    next hstart =>
      rw [List.cons_append, search, if_neg, ih h]
      intro hlonger
      have hprefix : literal <+: (c :: front) ++ mark :: back :=
        List.isPrefixOf_iff_prefix.mp hlonger
      rcases Nat.lt_or_ge (c :: front).length literal.length with hlong | hshort
      · have hacross : (c :: front) ++ [mark] <+: literal := by
          refine List.prefix_of_prefix_length_le ?_ hprefix ?_
          · exact (List.prefix_append_right_inj _).mpr (List.cons_prefix_cons.mpr
              ⟨rfl, List.nil_prefix⟩)
          · rw [List.length_append]
            exact hlong
        exact hmark (hacross.subset (by simp))
      · exact hstart (List.isPrefixOf_iff_prefix.mpr
          (List.prefix_of_prefix_length_le hprefix (List.prefix_append _ _) hshort))

theorem search_singleton {c : α} (h : c ∉ front) (back : List α) :
    search [c] (front ++ c :: back) = some (c :: back) := by
  induction front with
  | nil => exact search_of_prefix ⟨back, rfl⟩
  | cons d front ih =>
    obtain ⟨hd, hfront⟩ := not_or.mp (fun h' => h (List.mem_cons.mpr h'))
    rw [List.cons_append, search, if_neg, ih hfront]
    intro hstart
    exact hd (List.cons_prefix_cons.mp (List.isPrefixOf_iff_prefix.mp hstart)).1

theorem search_singleton_none {c : α} (h : c ∉ front) : search [c] front = none :=
  search_eq_none_iff.mpr fun hwithin => h (hwithin.subset (List.mem_singleton.mpr rfl))

end Wildcard
