import Mathlib.Data.List.Lex
import Mathlib.Data.List.Nodup
import Edk2Nvidia.VarMeasure.Stream

/-! The stream of a component as a canonical form of the store: it does not depend on the order
of the enumeration, and the variables can be read off it. -/
namespace VarMeasure
open Flash

/-! A list of packed items determines the items. -/

theorem toLittleEndian_inj {width n n' : Nat} (hn : n < 256 ^ width) (hn' : n' < 256 ^ width)
    (h : toLittleEndian width n = toLittleEndian width n') : n = n' := by
  rw [← fromLittleEndian_toLittleEndian width n hn, h,
    fromLittleEndian_toLittleEndian width n' hn']

theorem toLittleEndian_append_inj {width n n' : Nat} (hn : n < 256 ^ width)
    (hn' : n' < 256 ^ width) {back back' : List UInt8}
    (h : toLittleEndian width n ++ back = toLittleEndian width n' ++ back') :
    n = n' ∧ back = back' := by
  obtain ⟨hfront, hback⟩ := List.append_inj h (by simp)
  exact ⟨toLittleEndian_inj hn hn' hfront, hback⟩

theorem chars_append_inj {chars chars' : List UInt16} (hnull : 0 ∉ chars) (hnull' : 0 ∉ chars')
    {back back' : List UInt8}
    (h : (chars ++ [0]).flatMap (fun char : UInt16 => toLittleEndian 2 char.toNat) ++ back =
      (chars' ++ [0]).flatMap (fun char : UInt16 => toLittleEndian 2 char.toNat) ++ back') :
    chars = chars' ∧ back = back' := by
  have hchar : ∀ char : UInt16, char.toNat < 256 ^ 2 := fun char => char.toNat_lt
  induction chars generalizing chars' with
  | nil =>
    cases chars' with
    | nil =>
      obtain ⟨-, hback⟩ := List.append_inj h rfl
      exact ⟨rfl, hback⟩
    | cons char rest =>
      simp only [List.nil_append, List.cons_append, List.flatMap_cons, List.flatMap_nil,
        List.append_assoc] at h
      obtain ⟨hhead, -⟩ := toLittleEndian_append_inj (hchar _) (hchar _) h
      have hzero : (0 : UInt16) = char := UInt16.toNat_inj.mp hhead
      exact absurd (hzero ▸ List.mem_cons_self) hnull'
  | cons char rest ih =>
    cases chars' with
    | nil =>
      simp only [List.nil_append, List.cons_append, List.flatMap_cons, List.flatMap_nil,
        List.append_assoc] at h
      obtain ⟨hhead, -⟩ := toLittleEndian_append_inj (hchar _) (hchar _) h
      have hzero : char = (0 : UInt16) := UInt16.toNat_inj.mp hhead
      exact absurd (hzero ▸ List.mem_cons_self) hnull
    | cons char' rest' =>
      simp only [List.cons_append, List.flatMap_cons, List.append_assoc] at h
      obtain ⟨hhead, htail⟩ := toLittleEndian_append_inj (hchar _) (hchar _) h
      obtain ⟨hrest, hback⟩ := ih (fun hmem => hnull (List.mem_cons_of_mem _ hmem))
        (fun hmem => hnull' (List.mem_cons_of_mem _ hmem)) htail
      exact ⟨by rw [UInt16.toNat_inj.mp hhead, hrest], hback⟩

theorem VarName.append_inj {name name' : VarName} {back back' : List UInt8}
    (h : name.bytes ++ back = name'.bytes ++ back') : name = name' ∧ back = back' := by
  obtain ⟨hchars, hback⟩ := chars_append_inj name.noNull name'.noNull h
  cases name
  cases name'
  cases hchars
  exact ⟨rfl, hback⟩

theorem EfiGuid.append_inj {guid guid' : EfiGuid} {back back' : List UInt8}
    (h : guid.bytes ++ back = guid'.bytes ++ back') : guid = guid' ∧ back = back' := by
  have hword : ∀ word : UInt32, word.toNat < 256 ^ 4 := fun word => word.toNat_lt
  have hhalf : ∀ half : UInt16, half.toNat < 256 ^ 2 := fun half => half.toNat_lt
  simp only [EfiGuid.bytes, List.append_assoc] at h
  obtain ⟨h1, h⟩ := toLittleEndian_append_inj (hword _) (hword _) h
  obtain ⟨h2, h⟩ := toLittleEndian_append_inj (hhalf _) (hhalf _) h
  obtain ⟨h3, h⟩ := toLittleEndian_append_inj (hhalf _) (hhalf _) h
  obtain ⟨h4, hback⟩ := List.append_inj h (by simp)
  cases guid
  cases guid'
  simp only [EfiGuid.mk.injEq]
  exact ⟨⟨UInt32.toNat_inj.mp h1, UInt16.toNat_inj.mp h2, UInt16.toNat_inj.mp h3,
    Vector.toList_inj.mp h4⟩, hback⟩

theorem record_append_inj {v v' : Variable} (hsize : v.data.length < 2 ^ 64)
    (hsize' : v'.data.length < 2 ^ 64) {back back' : List UInt8}
    (h : hashVariableRecord v ++ back = hashVariableRecord v' ++ back') :
    v = v' ∧ back = back' := by
  have hword : ∀ word : UInt32, word.toNat < 256 ^ 4 := fun word => word.toNat_lt
  simp only [hashVariableRecord, List.append_assoc] at h
  obtain ⟨hname, h⟩ := VarName.append_inj h
  obtain ⟨hguid, h⟩ := EfiGuid.append_inj h
  obtain ⟨hattributes, h⟩ := toLittleEndian_append_inj (hword _) (hword _) h
  obtain ⟨hlength, h⟩ := toLittleEndian_append_inj (by omega) (by omega) h
  obtain ⟨hdata, hback⟩ := List.append_inj h hlength
  cases v
  cases v'
  simp only [Variable.mk.injEq]
  exact ⟨⟨hname, hguid, UInt32.toNat_inj.mp hattributes, hdata⟩, hback⟩

theorem hashVariableRecord_ne_nil (v : Variable) : hashVariableRecord v ≠ [] := by
  intro h
  have hlen := congrArg List.length h
  simp [hashVariableRecord, EfiGuid.bytes] at hlen

theorem stream_inj {vs vs' : List Variable} (hsized : ∀ v ∈ vs, v.data.length < 2 ^ 64)
    (hsized' : ∀ v ∈ vs', v.data.length < 2 ^ 64)
    (h : hashNvVarMeasureDescriptors vs = hashNvVarMeasureDescriptors vs') : vs = vs' := by
  unfold hashNvVarMeasureDescriptors at h
  induction vs generalizing vs' with
  | nil =>
    cases vs' with
    | nil => rfl
    | cons v' rest' =>
      rw [List.flatMap_nil, List.flatMap_cons] at h
      exact absurd (List.append_eq_nil_iff.mp h.symm).1 (hashVariableRecord_ne_nil v')
  | cons v rest ih =>
    cases vs' with
    | nil =>
      rw [List.flatMap_nil, List.flatMap_cons] at h
      exact absurd (List.append_eq_nil_iff.mp h).1 (hashVariableRecord_ne_nil v)
    | cons v' rest' =>
      rw [List.flatMap_cons, List.flatMap_cons] at h
      obtain ⟨hv, hrest⟩ := record_append_inj (hsized v List.mem_cons_self)
        (hsized' v' List.mem_cons_self) h
      rw [hv, ih (fun x hx => hsized x (List.mem_cons_of_mem _ hx))
        (fun x hx => hsized' x (List.mem_cons_of_mem _ hx)) hrest]

/-! The order of the sort. -/

/-- The sign of a comparison is the lexicographic order of what is compared. -/
def Compares (result : Int) (first second : List Nat) : Prop :=
  (result < 0 ↔ first < second) ∧ (result = 0 ↔ first = second)

theorem Compares.le_iff {result : Int} {first second : List Nat}
    (h : Compares result first second) : result ≤ 0 ↔ first ≤ second := by
  rw [Int.le_iff_lt_or_eq, h.1, h.2, ← le_iff_lt_or_eq]

theorem Compares.cons {result : Int} {firsts seconds : List Nat}
    (h : Compares result firsts seconds) (first second : Nat) :
    Compares (if first < second then -1 else if second < first then 1 else result)
      (first :: firsts) (second :: seconds) := by
  unfold Compares
  rw [List.cons_lt_cons_iff, List.cons.injEq]
  split
  next hlt =>
    exact ⟨iff_of_true (by decide) (.inl hlt), iff_of_false (by decide) (by omega)⟩
  next hge =>
    split
    next hgt => exact ⟨iff_of_false (by decide) (by omega), iff_of_false (by decide) (by omega)⟩
    next hle =>
      have heq : first = second := by omega
      rw [h.1, h.2]
      simp [heq]

theorem append_lt_append_iff {first second : List Nat} (hlen : first.length = second.length)
    (back back' : List Nat) :
    first ++ back < second ++ back' ↔ first < second ∨ first = second ∧ back < back' := by
  induction first generalizing second with
  | nil =>
    rw [List.length_nil] at hlen
    rw [List.length_eq_zero_iff.mp hlen.symm]
    simp
  | cons a rest ih =>
    cases second with
    | nil => exact absurd hlen (by simp)
    | cons b rest' =>
      rw [List.cons_append, List.cons_append, List.cons_lt_cons_iff, List.cons_lt_cons_iff,
        ih (by simpa using hlen), List.cons.injEq]
      tauto

theorem Compares.append {result result' : Int} {first second back back' : List Nat}
    (h : Compares result first second) (h' : Compares result' back back')
    (hlen : first.length = second.length) :
    Compares (if result ≠ 0 then result else result') (first ++ back) (second ++ back') := by
  have happend : first ++ back = second ++ back' ↔ first = second ∧ back = back' :=
    ⟨fun heq => List.append_inj heq hlen, fun ⟨hfront, hback⟩ => by rw [hfront, hback]⟩
  unfold Compares
  rw [append_lt_append_iff hlen, happend, ← h.1, ← h.2, ← h'.1, ← h'.2]
  split <;> omega

theorem compareData4_compares {first second : List UInt8} (hlen : first.length = second.length) :
    Compares (compareData4 first second) (first.map UInt8.toNat) (second.map UInt8.toNat) := by
  induction first generalizing second with
  | nil =>
    rw [List.length_nil] at hlen
    rw [List.length_eq_zero_iff.mp hlen.symm]
    simp [Compares, compareData4]
  | cons a rest ih =>
    cases second with
    | nil => exact absurd hlen (by simp)
    | cons b rest' =>
      exact (ih (by simpa using hlen)).cons a.toNat b.toNat

/-- The fields of a GUID in the order they are compared. -/
def EfiGuid.rank (guid : EfiGuid) : List Nat :=
  guid.data1.toNat :: guid.data2.toNat :: guid.data3.toNat :: guid.data4.toList.map UInt8.toNat

theorem EfiGuid.length_rank (guid : EfiGuid) : guid.rank.length = 11 := by
  simp [EfiGuid.rank]

theorem compareGuid_compares (first second : EfiGuid) :
    Compares (compareGuidForMeasurementSort first second) first.rank second.rank :=
  (((compareData4_compares (by simp)).cons first.data3.toNat second.data3.toNat).cons
    first.data2.toNat second.data2.toNat).cons first.data1.toNat second.data1.toNat

theorem strCmp_compares {first second : List UInt16} (hnull : 0 ∉ first) (hnull' : 0 ∉ second) :
    Compares (strCmp first second) (first.map UInt16.toNat) (second.map UInt16.toNat) := by
  have hne : ∀ {char : UInt16} {rest : List UInt16}, 0 ∉ char :: rest → char.toNat ≠ 0 := by
    intro char rest hnull heq
    have hzero : char = 0 := UInt16.toNat_inj.mp heq
    exact hnull (hzero ▸ List.mem_cons_self)
  induction first generalizing second with
  | nil =>
    cases second with
    | nil => simp [Compares, strCmp]
    | cons char rest =>
      have := hne hnull'
      constructor
      · rw [strCmp]
        exact iff_of_true (by omega) (by simp)
      · rw [strCmp]
        exact iff_of_false (by omega) (by simp)
  | cons char rest ih =>
    cases second with
    | nil =>
      have := hne hnull
      constructor
      · rw [strCmp]
        exact iff_of_false (by omega) (by simp)
      · rw [strCmp]
        exact iff_of_false (by omega) (by simp)
    | cons char' rest' =>
      have hrest := ih (fun hmem => hnull (List.mem_cons_of_mem _ hmem))
        (fun hmem => hnull' (List.mem_cons_of_mem _ hmem))
      unfold Compares
      rw [List.map_cons, List.map_cons, List.cons_lt_cons_iff, List.cons.injEq, strCmp,
        ← hrest.1, ← hrest.2]
      by_cases heq : char = char'
      · rw [if_pos heq, heq]
        simp
      · have hchar : char.toNat ≠ char'.toNat := fun h => heq (UInt16.toNat_inj.mp h)
        rw [if_neg heq]
        omega

def Variable.rank (v : Variable) : List Nat :=
  v.varGuid.rank ++ v.varName.chars.map UInt16.toNat

theorem compareDescriptor_compares (first second : Variable) :
    Compares (compareNvVarMeasureDescriptor first second) first.rank second.rank :=
  (compareGuid_compares first.varGuid second.varGuid).append
    (strCmp_compares first.varName.noNull second.varName.noNull)
    (by rw [EfiGuid.length_rank, EfiGuid.length_rank])

theorem Variable.rank_inj {v v' : Variable} (h : v.rank = v'.rank) : v.key = v'.key := by
  obtain ⟨hguid, hname⟩ := List.append_inj h (by rw [EfiGuid.length_rank, EfiGuid.length_rank])
  obtain ⟨name, guid, attributes, data⟩ := v
  obtain ⟨name', guid', attributes', data'⟩ := v'
  simp only [EfiGuid.rank, List.cons.injEq] at hguid
  obtain ⟨h1, h2, h3, h4⟩ := hguid
  have hdata4 := Vector.toList_inj.mp
    (List.map_injective_iff.mpr (fun _ _ h => UInt8.toNat_inj.mp h) h4)
  have hchars := List.map_injective_iff.mpr (fun _ _ h => UInt16.toNat_inj.mp h) hname
  cases guid
  cases guid'
  cases name
  cases name'
  simp only [Variable.key, Prod.mk.injEq, EfiGuid.mk.injEq, VarName.mk.injEq]
  exact ⟨⟨UInt32.toNat_inj.mp h1, UInt16.toNat_inj.mp h2, UInt16.toNat_inj.mp h3, hdata4⟩, hchars⟩

/-- `PerformQuickSort` returns a permutation that is sorted by the comparison. -/
def IsSort (performQuickSort : List Variable → List Variable) : Prop :=
  ∀ vs, (performQuickSort vs).Perm vs ∧
    (performQuickSort vs).Pairwise fun v v' => compareNvVarMeasureDescriptor v v' ≤ 0

/-- The comparison is a total order on names and GUIDs, so there is such a sort. -/
theorem isSort_mergeSort :
    IsSort fun vs => vs.mergeSort fun v v' => decide (compareNvVarMeasureDescriptor v v' ≤ 0) := by
  have hle : ∀ v v' : Variable, decide (compareNvVarMeasureDescriptor v v' ≤ 0) = true ↔
      v.rank ≤ v'.rank := fun v v' => by
    rw [decide_eq_true_iff, (compareDescriptor_compares v v').le_iff]
  intro vs
  refine ⟨List.mergeSort_perm _ _, ?_⟩
  have hsorted : (vs.mergeSort fun v v' => decide (compareNvVarMeasureDescriptor v v' ≤ 0)).Pairwise
      fun v v' => decide (compareNvVarMeasureDescriptor v v' ≤ 0) = true := by
    apply List.pairwise_mergeSort
    · intro a b c hab hbc
      rw [hle] at hab hbc ⊢
      exact le_trans hab hbc
    · intro a b
      rw [Bool.or_eq_true, hle, hle]
      exact le_total _ _
  exact hsorted.imp fun h => of_decide_eq_true h

section
variable {performQuickSort : List Variable → List Variable} {excludedVars : ExcludedVars}
  {store : VariableStore} {component : Component}

theorem sorted (hsort : IsSort performQuickSort) (vs : List Variable) :
    (sortNvVarMeasureDescriptors performQuickSort vs).Perm vs ∧
      (sortNvVarMeasureDescriptors performQuickSort vs).Pairwise
        fun v v' => compareNvVarMeasureDescriptor v v' ≤ 0 := by
  unfold sortNvVarMeasureDescriptors
  split
  next hshort =>
    refine ⟨.refl _, ?_⟩
    cases vs with
    | nil => exact .nil
    | cons v rest =>
      rw [List.length_cons] at hshort
      rw [List.length_eq_zero_iff.mp (by omega : rest.length = 0)]
      exact List.pairwise_singleton _ _
  next => exact hsort vs

theorem sorted_eq (hsort : IsSort performQuickSort) {vs vs' : List Variable}
    (hperm : vs.Perm vs') (hdistinct : (vs.map Variable.key).Nodup) :
    sortNvVarMeasureDescriptors performQuickSort vs =
      sortNvVarMeasureDescriptors performQuickSort vs' := by
  obtain ⟨hp, hs⟩ := sorted hsort vs
  obtain ⟨hp', hs'⟩ := sorted hsort vs'
  apply List.Perm.eq_of_pairwise _ hs hs' (hp.trans (hperm.trans hp'.symm))
  intro v v' hv hv' hle hge
  rw [(compareDescriptor_compares v v').le_iff] at hle
  rw [(compareDescriptor_compares v' v).le_iff] at hge
  have hkey := Variable.rank_inj (le_antisymm hle hge)
  exact List.inj_on_of_nodup_map hdistinct (hp.mem_iff.mp hv)
    (hperm.mem_iff.mpr (hp'.mem_iff.mp hv')) hkey

/-! The descriptors of a store. -/

def Measured (excludedVars : ExcludedVars) (component : Component) (v : Variable) : Bool :=
  !isExcludedVar excludedVars v.varName v.varGuid &&
    isMeasurableNvVarForComponent v.attributes component

theorem smmGetVariable_eq {v : Variable} (hv : v ∈ store.vars) :
    store.smmGetVariable v.varName v.varGuid = some v := by
  unfold VariableStore.smmGetVariable
  cases hfind : store.vars.find? fun x => x.varName = v.varName && x.varGuid = v.varGuid with
  | none =>
    have hnone := List.find?_eq_none.mp hfind v hv
    simp at hnone
  | some found =>
    have hfound := List.find?_some hfind
    simp only [Bool.and_eq_true, decide_eq_true_eq] at hfound
    have hkey : found.key = v.key := by
      rw [Variable.key, Variable.key, hfound.1, hfound.2]
    rw [List.inj_on_of_nodup_map store.distinct (List.mem_of_find?_eq_some hfind) hv hkey]

/-- Without an update the loop lists what the component covers, in the order of the
enumeration. -/
theorem collectDescriptors_eq {rest : List Variable} (hrest : ∀ v ∈ rest, v ∈ store.vars)
    (descriptors : List Variable) (matchedUpdate : Bool) :
    collectDescriptors excludedVars store component none rest (descriptors, matchedUpdate) =
      .ok (descriptors ++ rest.filter (Measured excludedVars component), matchedUpdate) := by
  induction rest generalizing descriptors with
  | nil => rw [collectDescriptors, List.filter_nil, List.append_nil]
  | cons next rest ih =>
    have hnext := hrest next List.mem_cons_self
    have hbehind := ih fun v hv => hrest v (List.mem_cons_of_mem _ hv)
    rw [collectDescriptors, List.filter_cons, Measured]
    cases hexcluded : isExcludedVar excludedVars next.varName next.varGuid with
    | true => exact hbehind descriptors
    | false =>
      simp only [smmGetVariable_eq hnext, Option.filter_none, Bool.false_eq_true, if_false,
        Bool.not_false, Bool.true_and]
      split
      next =>
        rw [hbehind, List.append_assoc]
        rfl
      next => exact hbehind descriptors

theorem measureNvVarsForComponent_eq :
    measureNvVarsForComponent performQuickSort excludedVars store component none =
      .ok (hashNvVarMeasureDescriptors (sortNvVarMeasureDescriptors performQuickSort
        (store.vars.filter (Measured excludedVars component)))) := by
  unfold measureNvVarsForComponent
  rw [collectDescriptors_eq fun _ hv => hv]
  rfl

theorem filter_keys_nodup (store : VariableStore) (covers : Variable → Bool) :
    ((store.vars.filter covers).map Variable.key).Nodup :=
  store.distinct.sublist (List.filter_sublist.map _)

/-- The streams of two stores, whatever the order of their enumerations, are the same exactly
when the stores hold the same variables that are not excluded, in each component. -/
theorem streams_eq_iff (hsort : IsSort performQuickSort) (store store' : VariableStore) :
    (∀ component, ∃ stream,
        measureNvVarsForComponent performQuickSort excludedVars store component none =
          .ok stream ∧
        measureNvVarsForComponent performQuickSort excludedVars store' component none =
          .ok stream) ↔
      ∀ component v, isExcludedVar excludedVars v.varName v.varGuid = false →
        isMeasurableNvVarForComponent v.attributes component = true →
        (v ∈ store.vars ↔ v ∈ store'.vars) := by
  constructor
  · intro hsame component v hexcluded hmeasurable
    obtain ⟨stream, hstream, hstream'⟩ := hsame component
    rw [measureNvVarsForComponent_eq, Except.ok.injEq] at hstream hstream'
    have hsized : ∀ (s : VariableStore), ∀ x ∈ sortNvVarMeasureDescriptors performQuickSort
        (s.vars.filter (Measured excludedVars component)), x.data.length < 2 ^ 64 := by
      intro s x hx
      exact s.sized x (List.mem_filter.mp ((sorted hsort _).1.mem_iff.mp hx)).1
    have hlists := stream_inj (hsized store) (hsized store') (hstream.trans hstream'.symm)
    have hperm := (sorted hsort (store.vars.filter (Measured excludedVars component))).1.symm.trans
      (hlists ▸ (sorted hsort (store'.vars.filter (Measured excludedVars component))).1)
    have hmem := hperm.mem_iff (a := v)
    simpa only [List.mem_filter, Measured, hexcluded, hmeasurable, Bool.not_false, Bool.and_self,
      and_true] using hmem
  · intro hsame component
    refine ⟨_, measureNvVarsForComponent_eq, ?_⟩
    have hperm : (store.vars.filter (Measured excludedVars component)).Perm
        (store'.vars.filter (Measured excludedVars component)) := by
      rw [List.perm_ext_iff_of_nodup (filter_keys_nodup store _).of_map
        (filter_keys_nodup store' _).of_map]
      intro v
      rw [List.mem_filter, List.mem_filter]
      refine and_congr_left fun hcovers => ?_
      rw [Measured, Bool.and_eq_true, Bool.not_eq_true'] at hcovers
      exact hsame component v hcovers.1 hcovers.2
    rw [measureNvVarsForComponent_eq, sorted_eq hsort hperm (filter_keys_nodup store _)]

end

/-! Two variables in both orders, a volatile one beside them in one store. -/

def sampleGuid (data1 : UInt32) : EfiGuid := ⟨data1, 0, 0, Vector.replicate 8 0⟩

def sampleVariable (char : UInt16) (hchar : 0 ∉ [char]) (attributes : UInt32) (data : UInt8) :
    Variable :=
  ⟨⟨[char], hchar⟩, sampleGuid 1, attributes, [data]⟩

def sampleStore : VariableStore where
  vars := [sampleVariable 65 (by decide) 0x07 1, sampleVariable 66 (by decide) 0x03 2,
    sampleVariable 67 (by decide) 0x06 3]
  distinct := by decide
  sized := by decide

def reversedStore : VariableStore where
  vars := [sampleVariable 66 (by decide) 0x03 2, sampleVariable 65 (by decide) 0x07 1]
  distinct := by decide
  sized := by decide

theorem streams_eq_sample :
    (∀ component, ∃ stream,
        measureNvVarsForComponent
          (fun vs => vs.mergeSort fun v v' => decide (compareNvVarMeasureDescriptor v v' ≤ 0))
          [(none, sampleGuid 2)] sampleStore component none = .ok stream ∧
        measureNvVarsForComponent
          (fun vs => vs.mergeSort fun v v' => decide (compareNvVarMeasureDescriptor v v' ≤ 0))
          [(none, sampleGuid 2)] reversedStore component none = .ok stream) ↔
      ∀ component v, isExcludedVar [(none, sampleGuid 2)] v.varName v.varGuid = false →
        isMeasurableNvVarForComponent v.attributes component = true →
        (v ∈ sampleStore.vars ↔ v ∈ reversedStore.vars) :=
  streams_eq_iff isSort_mergeSort sampleStore reversedStore

end VarMeasure
