import Mathlib.Data.List.Induction
import Edk2Nvidia.BootOrder.Ipmi

/-! Putting a class in front and taking it for temporary again are two algorithms; both bring the
options into one arrangement. -/
namespace BootOrder
open Reorder

theorem moveIndexToStart_append (front : List UInt16) (a : UInt16) (back : List UInt16) :
    moveIndexToStart (front ++ a :: back) front.length = a :: (front ++ back) := by
  unfold moveIndexToStart
  split
  · exact toStart_append front a back
  · have hfront : front = [] := List.eq_nil_of_length_eq_zero (by omega)
    simp [hfront]

theorem exists_last {p : UInt16 → Bool} {l : List UInt16} (h : l.filter p ≠ []) :
    ∃ front a back, l = front ++ a :: back ∧ p a = true ∧ back.filter p = [] := by
  induction l using List.reverseRecOn with
  | nil => exact absurd rfl h
  | append_singleton l a ih =>
    cases ha : p a with
    | true => exact ⟨l, a, [], rfl, ha, rfl⟩
    | false =>
      have hl : l.filter p ≠ [] := by
        intro hl
        exact h (by simp [List.filter_append, hl, ha])
      obtain ⟨front, b, back, hsplit, hb, hback⟩ := ih hl
      refine ⟨front, b, back ++ [a], ?_, hb, ?_⟩
      · rw [hsplit, List.append_assoc, List.cons_append]
      · simp [List.filter_append, hback, ha]

theorem idxOf_split {front : List UInt16} {a : UInt16} {back : List UInt16}
    (h : (front ++ a :: back).Nodup) : (front ++ a :: back).idxOf a = front.length := by
  have hfront : a ∉ front := fun ha =>
    (List.nodup_append.mp h).2.2 a ha a List.mem_cons_self rfl
  rw [List.idxOf_append_of_notMem hfront, List.idxOf_cons_self, Nat.add_zero]

theorem searchDown_eq {front : List UInt16} {a : UInt16} {back : List UInt16} {index : Nat}
    (hindex : front.length ≤ index) (hback : a ∉ back.take (index - front.length)) :
    searchDown (front ++ a :: back) a index = front.length := by
  induction index with
  | zero => exact (Nat.le_zero.mp hindex).symm
  | succ index ih =>
    unfold searchDown
    by_cases heq : front.length = index + 1
    · have hget : (front ++ a :: back)[index + 1]? = some a := by simp [← heq]
      rw [if_pos hget, heq]
    · have hget : (front ++ a :: back)[index + 1]? = back[index - front.length]? := by
        rw [List.getElem?_append_right hindex,
          show index + 1 - front.length = index - front.length + 1 by omega,
          List.getElem?_cons_succ]
      have hne : back[index - front.length]? ≠ some a := by
        intro ha
        refine hback (List.mem_iff_getElem?.mpr ⟨index - front.length, ?_⟩)
        rw [List.getElem?_take_of_lt (by omega), ha]
      rw [hget, if_neg hne]
      refine ih (by omega) fun ha => hback ?_
      exact List.take_subset_take_left back (by omega) ha

/-- `moved` is in front already, and the search starts behind `rest` or further back. -/
theorem moveInstances_eq {p : UInt16 → Bool} (rest moved behind : List UInt16) {index : Nat}
    (hindex : moved.length + rest.length ≤ index + 1)
    (hbehind : ∀ a, (rest.filter p).getLast? = some a →
      a ∉ behind.take (index + 1 - (moved.length + rest.length)))
    (hfirst : moved ≠ [] ∨ ∀ a, rest.head? = some a → p a = false) :
    ∃ index', moveInstances (rest.filter p).reverse (moved ++ (rest ++ behind)) index =
      some (rest.filter p ++ (moved ++ (rest.filter (fun a => !p a) ++ behind)), index') := by
  induction rest using List.reverseRecOn generalizing moved behind index with
  | nil => exact ⟨index, rfl⟩
  | append_singleton rest a ih =>
    rw [List.length_append, List.length_singleton] at hindex hbehind
    cases ha : p a with
    | true =>
      have hfilter : (rest ++ [a]).filter p = rest.filter p ++ [a] := by
        simp [List.filter_append, ha]
      have hbuffer : moved ++ (rest ++ [a] ++ behind) = (moved ++ rest) ++ a :: behind := by
        simp
      have hsearch : searchDown ((moved ++ rest) ++ a :: behind) a index =
          (moved ++ rest).length := by
        refine searchDown_eq (by rw [List.length_append]; omega) fun hmem => ?_
        refine hbehind a (by rw [hfilter, List.getLast?_concat]) ?_
        rw [List.length_append] at hmem
        rwa [show index + 1 - (moved.length + (rest.length + 1)) =
          index - (moved.length + rest.length) by omega]
      have hpositive : 0 < (moved ++ rest).length := by
        rcases hfirst with hmoved | hhead
        · rw [List.length_append]
          have := List.length_pos_of_ne_nil hmoved
          omega
        · cases rest with
          | nil =>
            have := hhead a rfl
            rw [ha] at this
            cases this
          | cons b rest =>
            rw [List.length_append, List.length_cons]
            omega
      obtain ⟨index', hloop⟩ := @ih (a :: moved) behind (moved ++ rest).length
        (by rw [List.length_append, List.length_cons]; omega)
        (fun b _ hmem => by
          rw [List.length_append, List.length_cons, show moved.length + rest.length + 1 -
            (moved.length + 1 + rest.length) = 0 by omega] at hmem
          cases hmem)
        (.inl (List.cons_ne_nil _ _))
      refine ⟨index', ?_⟩
      rw [hfilter, List.reverse_append, List.reverse_singleton, List.singleton_append, hbuffer,
        moveInstances, hsearch, if_pos hpositive, moveIndexToStart_append, List.append_assoc, ← List.cons_append, hloop]
      simp [List.filter_append, ha]
    | false =>
      have hfilter : (rest ++ [a]).filter p = rest.filter p := by simp [List.filter_append, ha]
      rw [hfilter] at hbehind ⊢
      have hslack : index + 1 - (moved.length + rest.length) =
          index + 1 - (moved.length + (rest.length + 1)) + 1 := by omega
      obtain ⟨index', hloop⟩ := @ih moved (a :: behind) index (by omega)
        (fun b hb hmem => by
          rw [hslack, List.take_succ_cons] at hmem
          rcases List.mem_cons.mp hmem with heq | hmem
          · have hpb : p b = true := (List.mem_filter.mp (List.mem_of_getLast? hb)).2
            rw [heq, ha] at hpb
            cases hpb
          · exact hbehind b hb hmem)
        (hfirst.imp id fun hhead b hb => hhead b (by rw [List.head?_append, hb]; rfl))
      refine ⟨index', ?_⟩
      rw [List.append_assoc, List.singleton_append, hloop]
      simp [List.filter_append, ha]

abbrev Classes := UInt16 → Option BootClass

def Classes.lookup (classes : Classes) : Lookup := fun option =>
  match classes option with
  | some bootClass => .ok bootClass
  | none => .error .notFound

@[simp] theorem optionClass_lookup (classes : Classes) (option : UInt16) :
    optionClass classes.lookup option = .ok (classes option) := by
  unfold optionClass Classes.lookup
  cases classes option <;> rfl

def Classes.is (classes : Classes) (bootClass : Option BootClass) (option : UInt16) : Bool :=
  bootClass.isSome && classes option == bootClass

@[simp] theorem Classes.is_none (classes : Classes) (option : UInt16) :
    classes.is none option = false := rfl

theorem Classes.is_iff {classes : Classes} {bootClass : BootClass} {option : UInt16} :
    classes.is (some bootClass) option = true ↔ classes option = some bootClass := by
  simp [Classes.is]

variable {classes : Classes}

theorem findInstances_eq (requested : BootClass) (virtual : Option BootClass)
    (bootOrder : List UInt16) :
    findInstances classes.lookup requested virtual bootOrder =
      .ok (bootOrder.filter fun a => !classes.is virtual a && classes.is (some requested) a,
        bootOrder.filter (classes.is virtual)) := by
  induction bootOrder with
  | nil => rfl
  | cons option rest ih =>
    rw [findInstances, ih, optionClass_lookup]
    cases hvirtual : classes.is virtual option with
    | true =>
      have h : virtual.isSome ∧ classes option = virtual := by simpa [Classes.is] using hvirtual
      simp [Except.bind, bind, pure, Except.pure, hvirtual, h.1, h.2]
    | false =>
      have h : ¬ (virtual.isSome ∧ classes option = virtual) := by
        intro h
        simp [Classes.is, h.1, h.2] at hvirtual
      cases hclass : classes.is (some requested) option with
      | true =>
        have hrequested := Classes.is_iff.mp hclass
        rw [hrequested] at h
        simp [Except.bind, bind, pure, Except.pure, hvirtual, hclass, hrequested, h]
      | false =>
        have hother : classes option ≠ some requested := fun heq => by
          rw [Classes.is_iff.mpr heq] at hclass
          cases hclass
        simp [Except.bind, bind, pure, Except.pure, hvirtual, hclass, hother, h]

theorem reordered_virtual {p : UInt16 → Bool} {bootOrder : List UInt16}
    (hnodup : bootOrder.Nodup) (hvirtual : bootOrder.filter p ≠ []) {behind : UInt16}
    (hbehind : (bootOrder.filter p).dropLast.getLast? ≠ some behind) :
    reordered behind bootOrder
        ⟨0, (bootOrder.filter p).getLastD 0, [], (bootOrder.filter p).dropLast⟩ =
      some (bootOrder.filter p ++ bootOrder.filter fun a => !p a) := by
  obtain ⟨front, a, back, rfl, ha, hback⟩ := exists_last hvirtual
  have hfilter : (front ++ a :: back).filter p = front.filter p ++ [a] := by
    simp [List.filter_append, ha, hback]
  rw [hfilter, List.dropLast_concat] at hbehind
  have hmove : moveIndexToStart (front ++ a :: back ++ [behind]) front.length =
      [a] ++ (front ++ (back ++ [behind])) := by
    rw [List.append_assoc, List.cons_append, moveIndexToStart_append]
    rfl
  obtain ⟨index', hloop⟩ := @moveInstances_eq p front [a] (back ++ [behind])
    (front ++ a :: back).length (by simp; omega)
    (fun b hb hmem => by
      rcases List.mem_append.mp (List.mem_of_mem_take hmem) with hmem | hmem
      · have hpb : p b = true := (List.mem_filter.mp (List.mem_of_getLast? hb)).2
        have hbfilter : b ∈ back.filter p := List.mem_filter.mpr ⟨hmem, hpb⟩
        rw [hback] at hbfilter
        cases hbfilter
      · exact hbehind (hb.trans (congrArg some (List.mem_singleton.mp hmem))))
    (.inl (List.cons_ne_nil _ _))
  have hrest : back.filter (fun a => !p a) = back :=
    List.filter_eq_self.mpr fun b hb => by
      simpa using List.filter_eq_nil_iff.mp hback b hb
  unfold reordered
  simp only [hfilter, List.getLastD_concat, List.dropLast_concat, idxOf_split hnodup, hmove,
    List.reverse_nil, moveInstances, if_true, Option.bind_eq_bind, Option.bind_some, hloop]
  have hbuffer : front.filter p ++ ([a] ++ (front.filter (fun a => !p a) ++ (back ++ [behind]))) =
      (front.filter p ++ [a] ++ (front ++ a :: back).filter fun a => !p a) ++ [behind] := by
    simp [List.filter_append, ha, hrest]
  have hlength : (front ++ a :: back).length =
      (front.filter p ++ [a] ++ (front ++ a :: back).filter fun a => !p a).length := by
    have hperm := (List.filter_append_perm p (front ++ a :: back)).length_eq
    rw [← hperm, hfilter]
  rw [hbuffer, hlength, List.take_left]
  rfl

theorem reordered_class {p q : UInt16 → Bool} (hdisjoint : ∀ a, q a = true → p a = false)
    {bootOrder : List UInt16} (hnodup : bootOrder.Nodup) (hclass : bootOrder.filter q ≠ [])
    {behind : UInt16} (hbehind : (bootOrder.filter p).getLast? ≠ some behind) :
    reordered behind bootOrder
        ⟨0, (bootOrder.filter q).getLastD 0, (bootOrder.filter q).dropLast, bootOrder.filter p⟩ =
      some (bootOrder.filter p ++
        (bootOrder.filter q ++ bootOrder.filter fun a => !p a && !q a)) := by
  obtain ⟨front, a, back, rfl, ha, hback⟩ := exists_last hclass
  have hfilter : (front ++ a :: back).filter q = front.filter q ++ [a] := by
    simp [List.filter_append, ha, hback]
  have hmove : moveIndexToStart (front ++ a :: back ++ [behind]) front.length =
      [a] ++ (front ++ (back ++ [behind])) := by
    rw [List.append_assoc, List.cons_append, moveIndexToStart_append]
    rfl
  obtain ⟨index', hloop⟩ := @moveInstances_eq q front [a] (back ++ [behind])
    front.length (by simp; omega)
    (fun b hb hmem => by
      rw [List.length_singleton, show front.length + 1 - (1 + front.length) = 0 by omega] at hmem
      cases hmem)
    (.inl (List.cons_ne_nil _ _))
  have hrest : back.filter (fun a => !q a) = back :=
    List.filter_eq_self.mpr fun b hb => by
      simpa using List.filter_eq_nil_iff.mp hback b hb
  -- the buffer in between, before the virtual instances are moved
  have hbetween : front.filter q ++ ([a] ++ (front.filter (fun a => !q a) ++ (back ++ [behind]))) =
      [] ++ (((front ++ a :: back).filter q ++ (front ++ a :: back).filter fun a => !q a) ++
        [behind]) := by
    simp [List.filter_append, ha, hback, hrest]
  have hvirtual : ((front ++ a :: back).filter q ++ (front ++ a :: back).filter fun a => !q a).filter
      p = (front ++ a :: back).filter p := by
    have hnone : ((front ++ a :: back).filter q).filter p = [] := by
      refine List.filter_eq_nil_iff.mpr fun b hb => ?_
      simp [hdisjoint b (List.mem_filter.mp hb).2]
    have hall : ∀ b ∈ front ++ a :: back, (p b && !q b) = p b := by
      intro b _
      cases hq : q b with
      | true => simp [hdisjoint b hq]
      | false => simp
    rw [List.filter_append, hnone, List.nil_append, List.filter_filter, List.filter_congr hall]
  have hother : ((front ++ a :: back).filter q ++ (front ++ a :: back).filter fun a => !q a).filter
      (fun a => !p a) =
        (front ++ a :: back).filter q ++ (front ++ a :: back).filter fun a => !p a && !q a := by
    have hall : ((front ++ a :: back).filter q).filter (fun a => !p a) =
        (front ++ a :: back).filter q := by
      refine List.filter_eq_self.mpr fun b hb => ?_
      simp [hdisjoint b (List.mem_filter.mp hb).2]
    rw [List.filter_append, hall, List.filter_filter]
  have hlength : ((front ++ a :: back).filter q ++
      (front ++ a :: back).filter fun a => !q a).length = (front ++ a :: back).length :=
    (List.filter_append_perm q (front ++ a :: back)).length_eq
  obtain ⟨index'', hloop'⟩ := @moveInstances_eq p
    ((front ++ a :: back).filter q ++ (front ++ a :: back).filter fun a => !q a) [] [behind]
    (front ++ a :: back).length (by rw [hlength]; simp)
    (fun b hb hmem => by
      rw [hvirtual] at hb
      exact hbehind (hb.trans (congrArg some (List.mem_singleton.mp (List.mem_of_mem_take hmem)))))
    (.inr fun b hb => by
      rw [hfilter] at hb
      refine hdisjoint b ?_
      cases hfront : front.filter q with
      | nil =>
        rw [hfront] at hb
        cases hb
        exact ha
      | cons c rest =>
        rw [hfront] at hb
        cases hb
        exact (List.mem_filter.mp (hfront ▸ List.mem_cons_self)).2)
  rw [hvirtual, hother] at hloop'
  unfold reordered
  simp only [hfilter, List.getLastD_concat, List.dropLast_concat, idxOf_split hnodup, hmove,
    if_true, Option.bind_eq_bind, Option.bind_some, hloop, hbetween]
  rw [← hfilter, hloop', List.nil_append, Option.bind_some]
  have hall : (front ++ a :: back).length = ((front ++ a :: back).filter p ++
      ((front ++ a :: back).filter q ++ (front ++ a :: back).filter fun a => !p a && !q a)).length := by
    rw [← hother, ← hvirtual, (List.filter_append_perm p _).length_eq, hlength]
  rw [← List.append_assoc, hall, List.take_left]
  rfl

theorem reordered_all {p q : UInt16 → Bool} {bootOrder : List UInt16} (hnodup : bootOrder.Nodup)
    {behind : UInt16}
    (hsome : ¬ ((bootOrder.filter fun a => !p a && q a) = [] ∧ bootOrder.filter p = []))
    (hbehind : (allInstances (bootOrder.filter fun a => !p a && q a)
      (bootOrder.filter p)).virtualRemaining.getLast? ≠ some behind) :
    reordered behind bootOrder
        (allInstances (bootOrder.filter fun a => !p a && q a) (bootOrder.filter p)) =
      some (arrange p q bootOrder) := by
  unfold allInstances at hbehind ⊢
  by_cases hclass : (bootOrder.filter fun a => !p a && q a) = []
  · have hvirtual : bootOrder.filter p ≠ [] := fun h => hsome ⟨hclass, h⟩
    rw [if_neg (not_not.mpr hclass)] at hbehind ⊢
    have hrest : (bootOrder.filter fun a => !p a && !q a) = bootOrder.filter fun a => !p a := by
      refine List.filter_congr fun a ha => ?_
      have hnone := List.filter_eq_nil_iff.mp hclass a ha
      cases hp : p a <;> cases hq : q a <;> simp [hp, hq] at hnone ⊢
    rw [reordered_virtual hnodup hvirtual hbehind, arrange, hclass, hrest, List.nil_append]
  · rw [if_pos hclass] at hbehind ⊢
    have hdisjoint : ∀ a, (!p a && q a) = true → p a = false := by
      intro a ha
      cases hp : p a with
      | true => simp [hp] at ha
      | false => rfl
    have hrest : (bootOrder.filter fun a => !p a && !(!p a && q a)) =
        bootOrder.filter fun a => !p a && !q a := by
      refine List.filter_congr fun a _ => ?_
      cases p a <;> simp
    rw [reordered_class hdisjoint hnodup hclass hbehind, arrange, hrest]

theorem reordered_one {bootOrder : List UInt16} (hnodup : bootOrder.Nodup) {behind : UInt16}
    {desired : Desired} (hinstance : desired.requestedInstance ≠ 0)
    (hmem : desired.optionNumber ∈ bootOrder) :
    reordered behind bootOrder desired =
      some (moveIndexToStart bootOrder (bootOrder.idxOf desired.optionNumber)) := by
  obtain ⟨front, back, hsplit⟩ := List.append_of_mem hmem
  rw [hsplit] at hnodup
  have hidx : bootOrder.idxOf desired.optionNumber = front.length := by
    rw [hsplit, idxOf_split hnodup]
  have hlength : bootOrder.length = (desired.optionNumber :: (front ++ back)).length := by
    rw [hsplit]
    simp
    omega
  unfold reordered
  simp only [hinstance, if_false, hidx]
  rw [hlength, hsplit, List.append_assoc, List.cons_append, moveIndexToStart_append,
    moveIndexToStart_append, show desired.optionNumber :: (front ++ (back ++ [behind])) =
      (desired.optionNumber :: (front ++ back)) ++ [behind] by simp, List.take_left]

variable (classes) in
theorem restoreLoop_eq (bootClass virtual : Option BootClass) (rest moved virtuals : List UInt16)
    (others : List UInt16) :
    restoreLoop classes.lookup bootClass virtual rest.length
        (virtuals ++ (moved ++ (rest ++ others))) (virtuals.length + moved.length)
        virtuals.length =
      .ok ((rest.filter fun a => classes a != bootClass && classes.is virtual a) ++
        (virtuals ++ ((rest.filter fun a => classes a == bootClass) ++ (moved ++
          ((rest.filter fun a => classes a != bootClass && !classes.is virtual a) ++ others))))) := by
  induction rest using List.reverseRecOn generalizing moved virtuals others with
  | nil => rfl
  | append_singleton rest a ih =>
    have hget : (virtuals ++ (moved ++ (rest ++ [a] ++ others))).getD
        (virtuals.length + moved.length + rest.length) 0 = a := by
      have hsplit : virtuals ++ (moved ++ (rest ++ [a] ++ others)) =
          (virtuals ++ moved ++ rest) ++ a :: others := by
        simp
      have hlength : virtuals.length + moved.length + rest.length =
          (virtuals ++ moved ++ rest).length := by
        simp only [List.length_append]
      rw [hsplit, hlength, List.getD_eq_getElem?_getD, List.getElem?_append_right (Nat.le_refl _)]
      simp
    rw [List.length_append, List.length_singleton, restoreLoop, hget, optionClass_lookup]
    by_cases hclass : classes a = bootClass
    · have hmove : (virtuals ++ (moved ++ (rest ++ [a] ++ others))).take virtuals.length ++
          moveIndexToStart ((virtuals ++ (moved ++ (rest ++ [a] ++ others))).drop virtuals.length)
            (virtuals.length + moved.length + rest.length - virtuals.length) =
          virtuals ++ ((a :: moved) ++ (rest ++ others)) := by
        have hsplit : moved ++ (rest ++ [a] ++ others) = (moved ++ rest) ++ a :: others := by
          simp
        rw [List.take_left, List.drop_left, hsplit,
          show virtuals.length + moved.length + rest.length - virtuals.length =
            (moved ++ rest).length by rw [List.length_append]; omega,
          moveIndexToStart_append]
        simp
      simp only [bind, Except.bind, hclass, if_true]
      rw [hmove, show virtuals.length + moved.length + 1 = virtuals.length + (a :: moved).length by
        rw [List.length_cons]; omega, ih]
      simp [List.filter_append, hclass]
    · by_cases hvirtual : classes.is virtual a = true
      · have hboth : (classes a).isSome ∧ classes a = virtual := by
          have hiff : virtual.isSome ∧ classes a = virtual := by simpa [Classes.is] using hvirtual
          exact ⟨hiff.2 ▸ hiff.1, hiff.2⟩
        have hmove : moveIndexToStart (virtuals ++ (moved ++ (rest ++ [a] ++ others)))
            (virtuals.length + moved.length + rest.length) =
            (a :: virtuals) ++ (moved ++ (rest ++ others)) := by
          have hsplit : virtuals ++ (moved ++ (rest ++ [a] ++ others)) =
              (virtuals ++ (moved ++ rest)) ++ a :: others := by
            simp
          rw [hsplit, show virtuals.length + moved.length + rest.length =
            (virtuals ++ (moved ++ rest)).length by simp only [List.length_append]; omega,
            moveIndexToStart_append]
          simp
        simp only [bind, Except.bind, hclass, if_false]
        rw [if_pos hboth, hmove, show virtuals.length + moved.length + 1 =
          (a :: virtuals).length + moved.length by rw [List.length_cons]; omega,
          show virtuals.length + 1 = (a :: virtuals).length from rfl, ih]
        simp [List.filter_append, hclass, hvirtual]
      · have hboth : ¬ ((classes a).isSome ∧ classes a = virtual) := by
          intro h
          exact hvirtual (by simp [Classes.is, ← h.2, h.1])
        simp only [bind, Except.bind, hclass, if_false]
        rw [if_neg hboth, List.append_assoc rest, List.singleton_append, ih]
        simp [List.filter_append, hclass, hvirtual]

variable (classes) in
theorem restoreLoop_arrange {bootClass virtual : Option BootClass} (hne : virtual ≠ bootClass)
    (saved : List UInt16) :
    restoreLoop classes.lookup bootClass virtual saved.length saved 0 0 =
      .ok (arrange (classes.is virtual) (fun a => classes a == bootClass) saved) := by
  have hloop := restoreLoop_eq classes bootClass virtual saved [] [] []
  have hvirtual : ∀ a, classes.is virtual a = true → (classes a == bootClass) = false := by
    intro a ha
    have hclass : virtual.isSome ∧ classes a = virtual := by simpa [Classes.is] using ha
    simp [hclass.2, hne]
  have hfirst : (saved.filter fun a => classes a != bootClass && classes.is virtual a) =
      saved.filter (classes.is virtual) := by
    refine List.filter_congr fun a _ => ?_
    cases h : classes.is virtual a with
    | true => simp [hvirtual a h, bne]
    | false => simp
  have hnext : (saved.filter fun a => classes a == bootClass) =
      saved.filter fun a => !classes.is virtual a && classes a == bootClass := by
    refine List.filter_congr fun a _ => ?_
    cases h : classes.is virtual a with
    | true => simp [hvirtual a h]
    | false => simp
  have hrest : (saved.filter fun a => classes a != bootClass && !classes.is virtual a) =
      saved.filter fun a => !classes.is virtual a && !(classes a == bootClass) :=
    List.filter_congr fun a _ => Bool.and_comm _ _
  rw [hfirst, hnext, hrest] at hloop
  simpa [arrange] using hloop

theorem selection_bootClass {ipv6 : Bool} {selector : BitVec 4} {requested : BootClass}
    {virtual : Option BootClass} (h : selection ipv6 selector = .bootClass requested virtual) :
    virtual = none ∨ requested = .usb ∧ virtual = some .virtual := by
  unfold selection at h
  split at h <;> cases h <;> simp

theorem desired_all {requestedInstance : Nat} {classInstances virtualInstances : List UInt16}
    (h : (desired requestedInstance classInstances virtualInstances).requestedInstance = 0) :
    desired requestedInstance classInstances virtualInstances =
      allInstances classInstances virtualInstances := by
  unfold desired at h ⊢
  by_cases hzero : requestedInstance = 0
  · rw [if_pos hzero]
  · rw [if_neg hzero] at h ⊢
    split at h
    · exact absurd h hzero
    · split at h
      · exact absurd h hzero
      · rename_i hvirtual hclass
        rw [if_neg hvirtual, if_neg hclass]

theorem allInstances_requestedInstance (classInstances virtualInstances : List UInt16) :
    (allInstances classInstances virtualInstances).requestedInstance = 0 := by
  unfold allInstances
  split <;> rfl

theorem mem_sorted_getD {instances : List UInt16} {n : Nat} (h : n < instances.length) :
    (sorted instances).getD n 0 ∈ instances := by
  have hn : n < (sorted instances).length := by simpa [sorted] using h
  have hmem : (sorted instances)[n] ∈ sorted instances := List.getElem_mem hn
  rw [List.getD_eq_getElem?_getD, List.getElem?_eq_getElem hn, Option.getD_some]
  exact (List.mem_insertionSort _).mp hmem

theorem desired_mem {requestedInstance : Nat} {classInstances virtualInstances : List UInt16}
    (h : (desired requestedInstance classInstances virtualInstances).requestedInstance ≠ 0) :
    (desired requestedInstance classInstances virtualInstances).optionNumber ∈
      classInstances ++ virtualInstances := by
  have hall := allInstances_requestedInstance classInstances virtualInstances
  unfold desired at h ⊢
  split
  · rename_i hzero
    rw [if_pos hzero] at h
    exact absurd hall h
  · rename_i hzero
    rw [if_neg hzero] at h
    split
    · exact List.mem_append_right _ (mem_sorted_getD ‹_›)
    · rename_i hvirtual
      rw [if_neg hvirtual] at h
      split
      · exact List.mem_append_left _ (mem_sorted_getD ‹_›)
      · rename_i hclass
        rw [if_neg hclass] at h
        exact absurd hall h

/-- The instances of a request in an order. -/
def classInstances (classes : Classes) (requested : BootClass) (virtual : Option BootClass)
    (bootOrder : List UInt16) : List UInt16 :=
  bootOrder.filter fun a => !classes.is virtual a && classes.is (some requested) a

def virtualInstances (classes : Classes) (virtual : Option BootClass) (bootOrder : List UInt16) :
    List UInt16 :=
  bootOrder.filter (classes.is virtual)

theorem isTemporary_cons {lookup : Lookup} {flags : Option UInt8} {saved rest : List UInt16}
    {a : UInt16} (hlength : saved.length = (a :: rest).length) (hmem : a ∈ saved)
    (h : recreated lookup flags saved a = .ok (a :: rest)) :
    isTemporary lookup flags saved (a :: rest) = true := by
  unfold isTemporary
  simp only [hlength, hmem, h, Except.toOption, and_self, decide_true]

theorem isTemporary_all {requested : BootClass} {virtual : Option BootClass}
    (hvirtual : virtual = none ∨ requested = .usb ∧ virtual = some .virtual)
    {bootOrder : List UInt16}
    (hsome : ¬ (classInstances classes requested virtual bootOrder = [] ∧
      virtualInstances classes virtual bootOrder = []))
    {flags : Option UInt8} (hall : flagSet flags savedBootOrderAllInstancesFlag = true)
    (hflag : flagSet flags savedBootOrderVirtualFlag = virtual.isSome) :
    isTemporary classes.lookup flags bootOrder
      (arrange (classes.is virtual) (classes.is (some requested)) bootOrder) = true := by
  have hmem := fun a => @mem_arrange UInt16 (classes.is virtual) (classes.is (some requested))
    bootOrder a
  have hlength := length_arrange (classes.is virtual) (classes.is (some requested)) bootOrder
  have hrequested : ∀ a, classes.is (some requested) a = (classes a == some requested) :=
    fun _ => rfl
  cases hinstances : virtualInstances classes virtual bootOrder with
  | cons v rest =>
    have hv : classes.is virtual v = true := by
      have hv : v ∈ virtualInstances classes virtual bootOrder := hinstances ▸ List.mem_cons_self
      exact (List.mem_filter.mp hv).2
    rcases hvirtual with rfl | ⟨rfl, rfl⟩
    · cases hv
    · obtain ⟨order, horder⟩ : ∃ order, arrange (classes.is (some .virtual))
          (classes.is (some .usb)) bootOrder = v :: order := by
        unfold virtualInstances at hinstances
        exact ⟨_, by rw [arrange, hinstances, List.cons_append]⟩
      have hloop := restoreLoop_arrange classes
        (by decide : some BootClass.virtual ≠ some .usb) bootOrder
      rw [horder] at hmem hlength ⊢
      refine isTemporary_cons hlength.symm ((hmem v).mp List.mem_cons_self) ?_
      unfold recreated
      rw [if_pos hall, optionClass_lookup, Classes.is_iff.mp hv]
      simp only [bind, Except.bind, hflag, Option.isSome_some, and_self, if_true]
      rw [hloop, ← horder]
      rfl
  | nil =>
    have hnone : ∀ a ∈ bootOrder, classes.is virtual a = false := fun a ha => by
      simpa using List.filter_eq_nil_iff.mp hinstances a ha
    obtain ⟨c, rest, hclass⟩ : ∃ c rest,
        classInstances classes requested virtual bootOrder = c :: rest :=
      List.exists_cons_of_ne_nil fun h => hsome ⟨h, hinstances⟩
    have hc : classes c = some requested := by
      have hc : c ∈ classInstances classes requested virtual bootOrder :=
        hclass ▸ List.mem_cons_self
      have hboth := (List.mem_filter.mp hc).2
      rw [Bool.and_eq_true] at hboth
      exact Classes.is_iff.mp hboth.2
    obtain ⟨order, horder⟩ : ∃ order, arrange (classes.is virtual)
        (classes.is (some requested)) bootOrder = c :: order := by
      unfold virtualInstances at hinstances
      unfold classInstances at hclass
      exact ⟨_, by rw [arrange, hinstances, List.nil_append, hclass, List.cons_append]⟩
    have hloop := restoreLoop_arrange classes (Option.some_ne_none requested).symm bootOrder
    have hsame : arrange (classes.is none) (fun a => classes a == some requested) bootOrder =
        arrange (classes.is virtual) (classes.is (some requested)) bootOrder :=
      arrange_congr (fun a ha => (hnone a ha).symm) fun a _ => (hrequested a).symm
    have hnot : ¬ (flagSet flags savedBootOrderVirtualFlag = true ∧
        some requested = some .virtual) := by
      rcases hvirtual with rfl | ⟨rfl, rfl⟩
      · rw [hflag]
        exact fun h => by cases h.1
      · exact fun h => by cases h.2
    rw [horder] at hmem hlength hsame ⊢
    refine isTemporary_cons hlength.symm ((hmem c).mp List.mem_cons_self) ?_
    unfold recreated
    rw [if_pos hall, optionClass_lookup, hc]
    simp only [bind, Except.bind]
    rw [if_neg hnot, hloop, hsame]

theorem isTemporary_one {lookup : Lookup} {flags : Option UInt8}
    (hall : flagSet flags savedBootOrderAllInstancesFlag = false) {bootOrder : List UInt16}
    (hnodup : bootOrder.Nodup) {option : UInt16} (hmem : option ∈ bootOrder) :
    isTemporary lookup flags bootOrder
      (moveIndexToStart bootOrder (bootOrder.idxOf option)) = true := by
  obtain ⟨front, back, rfl⟩ := List.append_of_mem hmem
  have hmove : moveIndexToStart (front ++ option :: back) ((front ++ option :: back).idxOf option) =
      option :: (front ++ back) := by
    rw [idxOf_split hnodup, moveIndexToStart_append]
  rw [hmove]
  refine isTemporary_cons (by simp; omega) hmem ?_
  unfold recreated
  rw [hall, if_neg (by decide), hmove]

end BootOrder
