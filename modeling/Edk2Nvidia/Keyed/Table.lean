import Mathlib.Data.Finset.Card
import Mathlib.Data.List.Perm.Basic
import Mathlib.Tactic.Common

/-! A table of records that are found by a key, with room for so many: an event changes the record
of its key, which is added when there is none. As long as there is room, what is found under a key
does not depend on the order of events that commute. -/
namespace Keyed

variable {κ σ ε : Type} [DecidableEq κ]

/-- How the records of a table are told apart and made. -/
structure Kind (κ σ : Type) where
  key : σ → κ
  blank : κ → σ
  key_blank : ∀ k, key (blank k) = k

variable (kind : Kind κ σ)

def Kind.lookup (records : List σ) (k : κ) : Option σ := records.find? fun s => kind.key s = k

/-- The change of the first record of a key. -/
def Kind.update (k : κ) (f : σ → σ) : List σ → List σ
  | [] => []
  | s :: records => if kind.key s = k then f s :: records else s :: Kind.update k f records

def Kind.change (max : Nat) (k : κ) (f : σ → σ) (records : List σ) : List σ :=
  if k ∈ records.map kind.key then kind.update k f records
  else if max ≤ records.length then records
  else records ++ [f (kind.blank k)]

/-- Events with a key each, which leave the keys of records alone. -/
structure Events (kind : Kind κ σ) (ε : Type) where
  keyOf : ε → κ
  act : ε → σ → σ
  key_act : ∀ e s, kind.key (act e s) = kind.key s

def Events.arrive {kind : Kind κ σ} (events : Events kind ε) (max : Nat) (records : List σ) (e : ε) :
    List σ :=
  kind.change max (events.keyOf e) (events.act e) records

/-- What an event does to the meaning of a table. -/
def Events.apply {kind : Kind κ σ} (events : Events kind ε) (meaning : κ → Option σ) (e : ε) :
    κ → Option σ := fun k =>
  if k = events.keyOf e then
    some (events.act e ((meaning (events.keyOf e)).getD (kind.blank (events.keyOf e))))
  else meaning k

variable {kind}

theorem lookup_cons (s : σ) (records : List σ) (k : κ) :
    kind.lookup (s :: records) k = if kind.key s = k then some s else kind.lookup records k := by
  by_cases h : kind.key s = k
  · rw [if_pos h, Kind.lookup, List.find?_cons_of_pos (by simpa using h)]
  · rw [if_neg h, Kind.lookup, List.find?_cons_of_neg (by simpa using h)]
    rfl

theorem lookup_isSome {records : List σ} {k : κ} :
    (kind.lookup records k).isSome ↔ k ∈ records.map kind.key := by
  simp [Kind.lookup, List.find?_isSome]

theorem lookup_eq_none {records : List σ} {k : κ} (h : k ∉ records.map kind.key) :
    kind.lookup records k = none := by
  rwa [← Option.not_isSome_iff_eq_none, lookup_isSome]

theorem mem_of_lookup {records : List σ} {k : κ} {s : σ} (h : kind.lookup records k = some s) :
    s ∈ records ∧ kind.key s = k :=
  ⟨List.mem_of_find?_eq_some h, by simpa using List.find?_some h⟩

/-- In a table without two records of one key, every record is the one found under its key. -/
theorem lookup_of_mem {records : List σ} (hnodup : (records.map kind.key).Nodup) {s : σ}
    (h : s ∈ records) : kind.lookup records (kind.key s) = some s := by
  induction records with
  | nil => cases h
  | cons t records ih =>
    rw [List.map_cons, List.nodup_cons] at hnodup
    rw [lookup_cons]
    rcases List.mem_cons.mp h with rfl | h
    · exact if_pos rfl
    · have hne : kind.key t ≠ kind.key s := fun heq =>
        hnodup.1 (heq ▸ List.mem_map_of_mem h)
      rw [if_neg hne]
      exact ih hnodup.2 h

section Update
variable {k : κ} {f : σ → σ} (hkey : ∀ s, kind.key (f s) = kind.key s)
include hkey

theorem map_key_update (records : List σ) :
    (kind.update k f records).map kind.key = records.map kind.key := by
  induction records with
  | nil => rfl
  | cons s records ih =>
    rw [Kind.update]
    split
    · rw [List.map_cons, List.map_cons, hkey]
    · rw [List.map_cons, List.map_cons, ih]

theorem lookup_update (records : List σ) (k' : κ) :
    kind.lookup (kind.update k f records) k' =
      if k' = k then (kind.lookup records k).map f else kind.lookup records k' := by
  induction records with
  | nil => simp [Kind.update, Kind.lookup]
  | cons s records ih =>
    rw [Kind.update]
    by_cases hs : kind.key s = k
    · rw [if_pos hs, lookup_cons, lookup_cons, lookup_cons, hkey, hs, if_pos rfl]
      by_cases hk : k' = k
      · rw [if_pos hk.symm, if_pos hk, Option.map_some]
      · rw [if_neg (Ne.symm hk), if_neg hk, if_neg (Ne.symm hk)]
    · rw [if_neg hs, lookup_cons, lookup_cons, lookup_cons, ih, if_neg hs]
      by_cases hk : k' = k
      · rw [if_pos hk, if_pos hk, if_neg (hk ▸ hs)]
      · rw [if_neg hk, if_neg hk]

theorem map_key_change (max : Nat) (records : List σ) :
    (kind.change max k f records).map kind.key =
      if k ∈ records.map kind.key ∨ max ≤ records.length then records.map kind.key
      else records.map kind.key ++ [k] := by
  unfold Kind.change
  by_cases hmem : k ∈ records.map kind.key
  · rw [if_pos hmem, if_pos (.inl hmem), map_key_update hkey]
  · rw [if_neg hmem]
    by_cases hfull : max ≤ records.length
    · rw [if_pos hfull, if_pos (.inr hfull)]
    · rw [if_neg hfull, if_neg (not_or.mpr ⟨hmem, hfull⟩), List.map_append, List.map_singleton, hkey,
        kind.key_blank]

theorem lookup_change {max : Nat} {records : List σ}
    (hroom : k ∈ records.map kind.key ∨ records.length < max) (k' : κ) :
    kind.lookup (kind.change max k f records) k' =
      if k' = k then some (f ((kind.lookup records k).getD (kind.blank k)))
      else kind.lookup records k' := by
  unfold Kind.change
  by_cases hmem : k ∈ records.map kind.key
  · obtain ⟨s, hs⟩ := Option.isSome_iff_exists.mp (lookup_isSome.mpr hmem)
    rw [if_pos hmem, lookup_update hkey, hs, Option.map_some, Option.getD_some]
  · rw [if_neg hmem, if_neg (not_le.mpr (hroom.resolve_left hmem)), Kind.lookup, List.find?_append,
      lookup_eq_none hmem, Option.getD_none]
    by_cases hk : k' = k
    · subst hk
      have hnone : records.find? (fun s => kind.key s = k') = none := lookup_eq_none hmem
      rw [hnone, if_pos rfl, Option.none_or]
      exact List.find?_cons_of_pos (by simp [hkey, kind.key_blank])
    · have hother : [f (kind.blank k)].find? (fun s => kind.key s = k') = none :=
        List.find?_cons_of_neg (by simpa [hkey, kind.key_blank] using Ne.symm hk)
      rw [hother, if_neg hk, Option.or_none]
      rfl

end Update

theorem forall_change {P : σ → Prop} {max : Nat} {k : κ} {f : σ → σ} {records : List σ}
    (hblank : P (kind.blank k)) (hf : ∀ s, kind.key s = k → P s → P (f s))
    (h : ∀ s ∈ records, P s) : ∀ s ∈ kind.change max k f records, P s := by
  unfold Kind.change
  split
  · clear * - hf h
    induction records with
    | nil => exact h
    | cons s records ih =>
      obtain ⟨hs, hrecords⟩ := List.forall_mem_cons.mp h
      rw [Kind.update]
      split
      · next hkey => exact List.forall_mem_cons.mpr ⟨hf s hkey hs, hrecords⟩
      · exact List.forall_mem_cons.mpr ⟨hs, ih hrecords⟩
  · split
    · exact h
    · intro s hs
      rcases List.mem_append.mp hs with hs | hs
      · exact h s hs
      · rw [List.mem_singleton.mp hs]
        exact hf _ (kind.key_blank k) hblank

section Runs
variable (events : Events kind ε) (max : Nat)

theorem nodup_foldl (es : List ε) (records : List σ) (h : (records.map kind.key).Nodup) :
    ((es.foldl (events.arrive max) records).map kind.key).Nodup := by
  induction es generalizing records with
  | nil => exact h
  | cons e es ih =>
    refine ih _ ?_
    rw [Events.arrive, map_key_change (events.key_act e) max]
    split
    · exact h
    · next hnew =>
      refine List.nodup_append.mpr ⟨h, List.nodup_singleton _, ?_⟩
      rintro a ha b hb rfl
      rw [List.mem_singleton] at hb
      exact hnew (.inl (hb ▸ ha))

/-- What each event keeps of the record of its key holds of every record. -/
theorem forall_foldl_of_key {P : σ → Prop} (es : List ε)
    (hact : ∀ e ∈ es, ∀ s, kind.key s = events.keyOf e → P s → P (events.act e s))
    (hblank : ∀ e ∈ es, P (kind.blank (events.keyOf e))) (records : List σ)
    (h : ∀ s ∈ records, P s) : ∀ s ∈ es.foldl (events.arrive max) records, P s := by
  induction es generalizing records with
  | nil => exact h
  | cons e es ih =>
    obtain ⟨he, hes⟩ := List.forall_mem_cons.mp hblank
    obtain ⟨hacte, hactes⟩ := List.forall_mem_cons.mp hact
    exact ih hactes hes _ (forall_change he hacte h)

theorem forall_foldl {P : σ → Prop} (hact : ∀ e s, P s → P (events.act e s)) (es : List ε)
    (hblank : ∀ e ∈ es, P (kind.blank (events.keyOf e))) (records : List σ)
    (h : ∀ s ∈ records, P s) : ∀ s ∈ es.foldl (events.arrive max) records, P s :=
  forall_foldl_of_key events max es (fun e _ s _ => hact e s) hblank records h

/-- With room for the keys of all events, the table means what the events do one after the other. -/
theorem lookup_foldl {keys : Finset κ} (hmax : keys.card ≤ max) (es : List ε)
    (hes : ∀ e ∈ es, events.keyOf e ∈ keys) {records : List σ}
    (hnodup : (records.map kind.key).Nodup) (hrecords : ∀ k ∈ records.map kind.key, k ∈ keys) :
    kind.lookup (es.foldl (events.arrive max) records) =
      es.foldl events.apply (kind.lookup records) := by
  induction es generalizing records with
  | nil => rfl
  | cons e es ih =>
    obtain ⟨he, hes⟩ := List.forall_mem_cons.mp hes
    have hkeys := map_key_change (k := events.keyOf e) (events.key_act e) max records
    have hroom : events.keyOf e ∈ records.map kind.key ∨ records.length < max := by
      by_contra hfull
      obtain ⟨hnew, hlength⟩ := not_or.mp hfull
      have hsub : (events.keyOf e :: records.map kind.key).toFinset ⊆ keys := by
        intro k hk
        rcases List.mem_cons.mp (List.mem_toFinset.mp hk) with rfl | hk
        · exact he
        · exact hrecords k hk
      have hcard := Finset.card_le_card hsub
      rw [List.toFinset_card_of_nodup (List.nodup_cons.mpr ⟨hnew, hnodup⟩), List.length_cons,
        List.length_map] at hcard
      omega
    have hstep : kind.lookup (events.arrive max records e) =
        events.apply (kind.lookup records) e := by
      funext k
      exact lookup_change (events.key_act e) hroom k
    rw [List.foldl_cons, List.foldl_cons, ← hstep]
    refine ih hes (nodup_foldl events max [e] records hnodup) fun k hk => ?_
    rw [Events.arrive, hkeys] at hk
    split at hk
    · exact hrecords k hk
    · rcases List.mem_append.mp hk with hk | hk
      · exact hrecords k hk
      · rwa [List.mem_singleton.mp hk]

/-- The order of the events does not matter when those of one key commute. -/
theorem lookup_foldl_perm {keys : Finset κ} (hmax : keys.card ≤ max) {es es' : List ε}
    (hperm : es.Perm es') (hes : ∀ e ∈ es, events.keyOf e ∈ keys)
    (hcommute : ∀ e ∈ es, ∀ e' ∈ es, events.keyOf e = events.keyOf e' → ∀ s,
      events.act e' (events.act e s) = events.act e (events.act e' s)) :
    kind.lookup (es.foldl (events.arrive max) []) =
      kind.lookup (es'.foldl (events.arrive max) []) := by
  have hnodup : (([] : List σ).map kind.key).Nodup := List.nodup_nil
  have hkeys : ∀ k ∈ ([] : List σ).map kind.key, k ∈ keys := by simp
  rw [lookup_foldl events max hmax es hes hnodup hkeys, lookup_foldl events max hmax es'
    (fun e he => hes e (hperm.mem_iff.mpr he)) hnodup hkeys]
  refine hperm.foldl_eq' (fun e he e' he' meaning => ?_) _
  funext k
  unfold Events.apply
  by_cases hsame : events.keyOf e = events.keyOf e'
  · by_cases hk : k = events.keyOf e'
    · rw [if_pos hk, if_pos (hk.trans hsame.symm), if_pos hsame.symm, if_pos hsame,
        Option.getD_some, Option.getD_some, hsame, hcommute e he e' he' hsame]
    · rw [if_neg hk, if_neg (hsame ▸ hk), if_neg (hsame ▸ hk), if_neg hk]
  · by_cases hk : k = events.keyOf e'
    · subst hk
      rw [if_pos rfl, if_neg (Ne.symm hsame), if_neg (Ne.symm hsame), if_pos rfl]
    · by_cases hk' : k = events.keyOf e
      · rw [if_neg hk, if_pos hk', if_pos hk', if_neg hsame]
      · rw [if_neg hk, if_neg hk', if_neg hk', if_neg hk]

/-- Two tables that mean the same, in neither of which a key is found twice, hold the same records. -/
theorem perm_of_lookup {records records' : List σ} (hnodup : (records.map kind.key).Nodup)
    (hnodup' : (records'.map kind.key).Nodup)
    (h : kind.lookup records = kind.lookup records') : records.Perm records' := by
  refine (List.perm_ext_iff_of_nodup hnodup.of_map hnodup'.of_map).mpr fun s =>
    ⟨fun hs => ?_, fun hs => ?_⟩
  · exact (mem_of_lookup (h ▸ lookup_of_mem hnodup hs)).1
  · exact (mem_of_lookup (h.symm ▸ lookup_of_mem hnodup' hs)).1

end Runs
end Keyed
