import Edk2Nvidia.BootChainInfo.PartitionName

/-! When the name of a partition of a boot chain is taken apart into what it was put together from,
and when this reads the name only. -/
namespace BootChainInfoLib
open Parse (Checked)
open FwPartition (Name nameOf)
open FwImageDxe (BootChain nameLength partitionPrefixLength partitionSuffixLength strCpyS
  suffixPartitionNameId t234PartitionNameId)

variable {platform : Platform} {scheme : Scheme} {base name : Name} {chain : BootChain}

/-! The comparison. -/

theorem charAt_of_lt {i : Nat} (h : i < name.length) : charAt name i = .ok name[i] := by
  rw [charAt, if_pos ⟨Int.natCast_nonneg _, Int.ofNat_le.mpr h.le⟩]
  simp [h]

theorem charAt_end (name : Name) : charAt name name.length = .ok 0 := by
  rw [charAt, if_pos ⟨Int.natCast_nonneg _, le_refl _⟩]
  simp

theorem charAt_before {position : Int} (h : position < 0) :
    charAt name position = .error ⟨position.toNat, 1⟩ :=
  if_neg fun hin => absurd hin.1 (by omega)

theorem strnCmp_eq (hname : Terminated name) {second : Name} (hsecond : Terminated second) {i : Nat}
    (hi : i ≤ name.length) :
    strnCmp name i second second.length =
      .ok (decide ((name.drop i).take second.length = second)) := by
  induction second generalizing i with
  | nil => simp [strnCmp]
  | cons d second ih =>
    obtain ⟨hd, hrest⟩ := List.forall_mem_cons.mp hsecond
    rw [List.length_cons, strnCmp]
    rcases Nat.lt_or_eq_of_le hi with hlt | rfl
    · have hc : name[i] ≠ 0 := hname _ (List.getElem_mem _)
      rw [charAt_of_lt hlt, Parse.ok_bind, List.drop_eq_getElem_cons hlt, List.take_succ_cons]
      by_cases heq : name[i] = d
      · rcases second with _ | ⟨e, second⟩
        · simp [heq]
        · rw [if_pos ⟨hc, hd, heq, Nat.succ_pos _⟩]
          have hnext := ih hrest (i := i + 1) hlt
          rw [List.tail_cons, show ((i : Int) + 1) = ((i + 1 : Nat) : Int) from rfl, hnext, heq]
          simp
      · rw [if_neg fun h => heq h.2.2.1]
        simp [heq]
    · rw [charAt_end, Parse.ok_bind, if_neg fun h => h.1 rfl]
      simp [Ne.symm hd]

theorem terminated_prefixId (chain : BootChain) : Terminated (t234PartitionNameId chain) := by
  cases chain <;> decide

theorem terminated_suffix (chain : BootChain) : Terminated (suffixPartitionNameId chain) := by
  cases chain <;> decide

theorem length_prefixId (chain : BootChain) :
    (t234PartitionNameId chain).length = partitionPrefixLength := by
  cases chain <;> rfl

theorem length_suffix (chain : BootChain) :
    (suffixPartitionNameId chain).length = partitionSuffixLength := by
  cases chain <;> rfl

theorem strnCmp_prefixId (hname : Terminated name) (chain : BootChain) :
    strnCmp name 0 (t234PartitionNameId chain) partitionPrefixLength =
      .ok (decide (t234PartitionNameId chain <+: name)) := by
  rw [← length_prefixId chain]
  refine (strnCmp_eq hname (terminated_prefixId chain) (Nat.zero_le _)).trans ?_
  congr 1
  rw [List.drop_zero, decide_eq_decide, eq_comm, ← List.prefix_iff_eq_take]

theorem strnCmp_suffix (hname : Terminated name) (hlength : partitionSuffixLength ≤ name.length)
    (chain : BootChain) :
    strnCmp name ((name.length : Int) - partitionSuffixLength) (suffixPartitionNameId chain)
        partitionSuffixLength = .ok (decide (suffixPartitionNameId chain <:+ name)) := by
  rw [← Int.ofNat_sub hlength]
  have heq := strnCmp_eq hname (terminated_suffix chain)
    (Nat.sub_le name.length partitionSuffixLength)
  rw [length_suffix] at heq
  rw [heq]
  congr 1
  rw [decide_eq_decide, List.take_of_length_le (by rw [List.length_drop]; omega), eq_comm,
    List.suffix_iff_eq_drop, length_suffix]

/-! The name taken apart. -/

theorem baseNameAndBootChain_prefixed (hname : Terminated name)
    (h : t234PartitionNameId chain <+: name) (buffer : Name) :
    baseNameAndBootChain name buffer =
      .ok (strCpyS nameLength buffer (name.drop partitionPrefixLength), chain) := by
  unfold baseNameAndBootChain
  simp only [strnCmp_prefixId hname, Parse.ok_bind]
  cases chain with
  | a => rw [if_pos (decide_eq_true h)]
  | b =>
    have ha : ¬ t234PartitionNameId .a <+: name := by
      intro ha
      rcases List.prefix_or_prefix_of_prefix ha h with h | h <;> revert h <;> decide
    rw [if_neg (by simpa using ha), if_pos (decide_eq_true h)]

theorem baseNameAndBootChain_suffixed (hname : Terminated name)
    (hplain : ∀ chain, ¬ t234PartitionNameId chain <+: name)
    (h : suffixPartitionNameId chain <:+ name) (buffer : Name) :
    baseNameAndBootChain name buffer =
      .ok (strCpyS nameLength buffer (name.take (name.length - partitionSuffixLength)), chain) := by
  have hlength : partitionSuffixLength ≤ name.length := length_suffix chain ▸ h.length_le
  unfold baseNameAndBootChain
  simp only [strnCmp_prefixId hname, strnCmp_suffix hname hlength, Parse.ok_bind, hplain,
    decide_false, Bool.false_eq_true, if_false]
  cases chain with
  | a => rw [if_pos (decide_eq_true h)]
  | b =>
    have ha : ¬ suffixPartitionNameId .a <:+ name := by
      intro ha
      rcases List.suffix_or_suffix_of_suffix ha h with h | h <;> revert h <;> decide
    rw [if_neg (by simpa using ha), if_pos (decide_eq_true h)]

theorem baseNameAndBootChain_plain (hname : Terminated name)
    (hlength : partitionSuffixLength ≤ name.length)
    (hplain : ∀ chain, ¬ t234PartitionNameId chain <+: name)
    (hnone : ∀ chain, ¬ suffixPartitionNameId chain <:+ name) (buffer : Name) :
    baseNameAndBootChain name buffer = .ok (strCpyS nameLength buffer name, .a) := by
  unfold baseNameAndBootChain
  simp only [strnCmp_prefixId hname, strnCmp_suffix hname hlength, Parse.ok_bind, hplain, hnone,
    decide_false, Bool.false_eq_true, if_false]

/-- A name that is shorter than a suffix is read in front of its start. -/
theorem baseNameAndBootChain_short (hname : Terminated name)
    (hshort : name.length < partitionSuffixLength) (buffer : Name) :
    ¬ (baseNameAndBootChain name buffer).Inside := by
  have hplain : ∀ chain, ¬ t234PartitionNameId chain <+: name := fun chain h =>
    absurd h.length_le (by rw [length_prefixId]; exact Nat.not_le.mpr hshort)
  have hbefore : (name.length : Int) - partitionSuffixLength < 0 := by omega
  unfold baseNameAndBootChain
  simp only [strnCmp_prefixId hname, Parse.ok_bind, hplain, decide_false, Bool.false_eq_true,
    if_false]
  rw [show partitionSuffixLength = 1 + 1 from rfl] at hbefore ⊢
  rw [strnCmp, charAt_before hbefore]
  exact Parse.not_inside_error _

theorem readsInside_iff (hname : Terminated name) :
    ReadsInside name ↔ partitionSuffixLength ≤ name.length := by
  constructor
  · intro h
    by_contra hshort
    have hinside := h (some []) true
    rw [getPartitionBaseNameAndBootChainAny, if_neg (by decide), Parse.inside_bind] at hinside
    obtain ⟨result, hresult, -⟩ := hinside
    exact baseNameAndBootChain_short hname (Nat.not_le.mp hshort) [] ⟨result, hresult⟩
  · intro hlength baseName bootChain
    rcases baseName with _ | buffer
    · exact Parse.inside_ok _
    rw [getPartitionBaseNameAndBootChainAny]
    split
    · exact Parse.inside_ok _
    rw [Parse.inside_bind]
    by_cases hprefix : ∃ chain, t234PartitionNameId chain <+: name
    · obtain ⟨chain, h⟩ := hprefix
      exact ⟨_, baseNameAndBootChain_prefixed hname h buffer, Parse.inside_ok _⟩
    have hplain := not_exists.mp hprefix
    by_cases hsuffix : ∃ chain, suffixPartitionNameId chain <:+ name
    · obtain ⟨chain, h⟩ := hsuffix
      exact ⟨_, baseNameAndBootChain_suffixed hname hplain h buffer, Parse.inside_ok _⟩
    · exact ⟨_, baseNameAndBootChain_plain hname hlength hplain (not_exists.mp hsuffix) buffer,
        Parse.inside_ok _⟩

/-- Where the name has a suffix's length, the assembly of the firmware images takes it apart in the
same way. -/
theorem baseNameAndBootChain_eq (hname : Terminated name)
    (hlength : partitionSuffixLength ≤ name.length) (buffer : Name) :
    baseNameAndBootChain name buffer =
      .ok (FwImageDxe.getPartitionBaseNameAndBootChainAny name buffer) := by
  have hprefix : ∀ chain, name.take partitionPrefixLength = t234PartitionNameId chain ↔
      t234PartitionNameId chain <+: name := fun chain => by
    rw [eq_comm, List.prefix_iff_eq_take, length_prefixId]
  have hsuffixOf : FwImageDxe.suffixOf name = name.drop (name.length - partitionSuffixLength) := by
    rw [FwImageDxe.suffixOf, List.drop_append, List.drop_eq_nil_of_le (by simpa using hlength),
      List.nil_append, List.length_replicate]
  have hsuffix : ∀ chain, FwImageDxe.suffixOf name = suffixPartitionNameId chain ↔
      suffixPartitionNameId chain <:+ name := fun chain => by
    rw [hsuffixOf, eq_comm, List.suffix_iff_eq_drop, length_suffix]
  unfold baseNameAndBootChain FwImageDxe.getPartitionBaseNameAndBootChainAny
  simp only [strnCmp_prefixId hname, strnCmp_suffix hname hlength, Parse.ok_bind, hprefix, hsuffix,
    decide_eq_true_eq]
  split_ifs <;> rfl

/-! The name put together. -/

theorem getBootChainPartitionName_eq (hscheme : platform.scheme = some scheme) (base : Name)
    (chain : BootChain) :
    getBootChainPartitionName platform (some base) (number chain) true =
      .ok ((scheme.join base chain).take (nameLength - 1)) := by
  have hmapping : mapping (number chain) = some chain := by cases chain <;> rfl
  unfold Platform.scheme at hscheme
  unfold getBootChainPartitionName
  simp only [hmapping]
  split at hscheme
  · cases hscheme
  next hsilicon =>
    rw [if_neg (by decide), if_neg hsilicon]
    split at hscheme
    next hsuffixes =>
      cases hscheme
      rw [if_pos hsuffixes]
      rfl
    next hsuffixes =>
      rw [if_neg hsuffixes]
      split at hscheme
      next hchip =>
        cases hscheme
        rw [if_pos hchip]
        rfl
      · cases hscheme

theorem length_join (scheme : Scheme) (base : Name) (chain : BootChain) :
    (scheme.join base chain).length = base.length + 2 := by
  cases scheme
  · rw [Scheme.join, List.length_append, length_prefixId, Nat.add_comm]
    rfl
  · rw [Scheme.join, List.length_append, length_suffix]
    rfl

theorem terminated_join (hbase : Terminated base) (scheme : Scheme) (chain : BootChain) :
    Terminated (scheme.join base chain) := by
  intro c hc
  cases scheme with
  | prefixed => exact (List.mem_append.mp hc).elim (terminated_prefixId chain c) (hbase c)
  | suffixed => exact (List.mem_append.mp hc).elim (hbase c) (terminated_suffix chain c)

theorem join_inj {other : Name} {otherChain : BootChain}
    (h : scheme.join other otherChain = scheme.join base chain) :
    other = base ∧ otherChain = chain := by
  cases scheme with
  | prefixed =>
    obtain ⟨hid, hbase⟩ := List.append_inj h (by rw [length_prefixId, length_prefixId])
    refine ⟨hbase, ?_⟩
    cases chain <;> cases otherChain <;> first | rfl | exact absurd hid (by decide)
  | suffixed =>
    obtain ⟨hbase, hid⟩ := List.append_inj' h (by rw [length_suffix, length_suffix])
    refine ⟨hbase, ?_⟩
    cases chain <;> cases otherChain <;> first | rfl | exact absurd hid (by decide)

/-- A suffix makes a prefix out of the letter in front of it only. -/
theorem plain_append (hbase : IsBase base) (hlook : ¬ LooksPrefixed base) (chain other : BootChain) :
    ¬ t234PartitionNameId other <+: base ++ suffixPartitionNameId chain := by
  intro h
  match base with
  | [] => revert h; cases chain <;> cases other <;> decide
  | [c] =>
    have hc : c = (t234PartitionNameId other).headD 0 := by
      obtain ⟨rest, hrest⟩ := h
      cases other <;> exact (List.cons.inj hrest).1.symm
    cases other
    · exact hlook (.inl (congrArg (fun x => [x]) hc))
    · exact hlook (.inr (congrArg (fun x => [x]) hc))
  | c :: d :: base =>
    refine hbase.plain other (List.prefix_of_prefix_length_le h (List.prefix_append _ _) ?_)
    rw [length_prefixId]
    exact Nat.le_add_left _ _

theorem isBase_append (hbase : IsBase base) (hlength : 2 ≤ base.length) (chain : BootChain) :
    IsBase (base ++ suffixPartitionNameId chain) where
  terminated := terminated_join hbase.terminated .suffixed chain
  plain other h := hbase.plain other
    (List.prefix_of_prefix_length_le h (List.prefix_append _ _) (by rwa [length_prefixId]))

/-! The two put together. -/

theorem getPartition_eq (name buffer : Name) (base : Name) (chain : BootChain) :
    getPartitionBaseNameAndBootChainAny (some name) (some buffer) true = .ok (.ok (base, chain)) ↔
      baseNameAndBootChain name buffer = .ok (base, chain) := by
  rw [getPartitionBaseNameAndBootChainAny, if_neg (by decide)]
  cases baseNameAndBootChain name buffer with
  | error span => exact ⟨nofun, nofun⟩
  | ok result =>
    rw [Parse.ok_bind]
    constructor
    · intro h
      cases h
      rfl
    · intro h
      cases h
      rfl

/-- A base name that comes from a full field with the chain B lacks an identifier's length. -/
theorem length_of_full (hname : Terminated name) (hfull : name.length = nameLength - 1)
    {buffer : Name} (h : baseNameAndBootChain name buffer = .ok (base, .b)) :
    base.length = nameLength - 3 := by
  have hfits : ∀ source : Name, source.length ≤ name.length →
      strCpyS nameLength buffer source = source := fun source hsource =>
    if_pos (by rw [hfull] at hsource; exact Nat.lt_of_le_of_lt hsource (by decide))
  by_cases hprefix : ∃ chain, t234PartitionNameId chain <+: name
  · obtain ⟨chain, hchain⟩ := hprefix
    rw [baseNameAndBootChain_prefixed hname hchain,
      hfits _ (by rw [List.length_drop]; exact Nat.sub_le _ _)] at h
    cases h
    rw [List.length_drop, hfull]
    rfl
  have hplain := not_exists.mp hprefix
  by_cases hsuffix : ∃ chain, suffixPartitionNameId chain <:+ name
  · obtain ⟨chain, hchain⟩ := hsuffix
    rw [baseNameAndBootChain_suffixed hname hplain hchain,
      hfits _ (by rw [List.length_take]; exact Nat.min_le_right _ _)] at h
    cases h
    rw [List.length_take, hfull]
    rfl
  · have hlength : partitionSuffixLength ≤ name.length := by
      rw [hfull]
      decide
    rw [baseNameAndBootChain_plain hname hlength hplain (not_exists.mp hsuffix)] at h
    cases h

theorem naming_roundTrips_iff (hscheme : platform.scheme = some scheme) (hbase : IsBase base) :
    RoundTrips platform base ↔
      base.length + 2 < nameLength ∧ (scheme = .suffixed → ¬ LooksPrefixed base) := by
  constructor
  · intro h
    have hrun := fun chain => (getPartition_eq _ _ _ _).mp
      (h chain _ [] (getBootChainPartitionName_eq hscheme base chain))
    constructor
    · by_contra hlong
      have hfull : ((scheme.join base .b).take (nameLength - 1)).length = nameLength - 1 := by
        rw [List.length_take, length_join]
        omega
      have hlength := length_of_full
        (fun c hc => terminated_join hbase.terminated scheme .b c (List.mem_of_mem_take hc)) hfull
        (hrun .b)
      rw [hlength] at hlong
      exact hlong (by decide)
    · rintro rfl (rfl | rfl)
      · exact absurd (hrun .a) (by decide)
      · exact absurd (hrun .a) (by decide)
  · rintro ⟨hlength, hlook⟩ chain name buffer hname
    rw [getBootChainPartitionName_eq hscheme,
      List.take_of_length_le (by rw [length_join]; omega)] at hname
    cases hname
    rw [getPartition_eq]
    have hterminated := terminated_join hbase.terminated scheme chain
    have hfits : strCpyS nameLength buffer base = base := if_pos (by omega)
    cases scheme with
    | prefixed =>
      rw [baseNameAndBootChain_prefixed hterminated (List.prefix_append _ _)]
      rw [Scheme.join, ← length_prefixId chain, List.drop_left, hfits]
    | suffixed =>
      rw [baseNameAndBootChain_suffixed hterminated
        (fun other => plain_append hbase (hlook rfl) chain other) (List.suffix_append _ _)]
      rw [Scheme.join, List.length_append, length_suffix, Nat.add_sub_cancel, List.take_left, hfits]

theorem distinct_iff (hscheme : platform.scheme = some scheme) (hbase : IsBase base) :
    Distinct platform base ↔ base.length + 2 < nameLength - 1 := by
  constructor
  · intro h
    by_contra hlong
    have hmax : nameLength = 36 := rfl
    -- what follows a full field does not show in it
    have hother : (scheme.join (base ++ suffixPartitionNameId .a) .a).take (nameLength - 1) =
        (scheme.join base .a).take (nameLength - 1) := by
      have hlength := length_join scheme base .a
      cases scheme with
      | prefixed =>
        rw [Scheme.join, ← List.append_assoc]
        exact List.take_append_of_le_length (by rw [Scheme.join] at hlength; omega)
      | suffixed =>
        exact List.take_append_of_le_length (by rw [Scheme.join] at hlength; omega)
    have hsame := h .a (base ++ suffixPartitionNameId .a) .a _
      (isBase_append hbase (by omega) .a) (getBootChainPartitionName_eq hscheme base .a)
      ((getBootChainPartitionName_eq hscheme _ .a).trans (congrArg _ hother))
    have hlength := congrArg List.length hsame.1
    rw [List.length_append, length_suffix] at hlength
    exact absurd hlength (by unfold partitionSuffixLength; omega)
  · intro hlength chain other otherChain name _ hname hother
    rw [getBootChainPartitionName_eq hscheme,
      List.take_of_length_le (by rw [length_join]; omega)] at hname
    cases hname
    rw [getBootChainPartitionName_eq hscheme] at hother
    have heq := Except.ok.inj hother
    have hshort : (scheme.join other otherChain).length ≤ nameLength - 1 := by
      by_contra hlong
      have hfull := congrArg List.length heq
      rw [length_join] at hlong
      rw [List.length_take, length_join, length_join] at hfull
      omega
    rw [List.take_of_length_le hshort] at heq
    exact join_inj heq

theorem naming_law (hscheme : platform.scheme = some scheme) :
    (∀ base, IsBase base → (RoundTrips platform base ↔
      base.length + 2 < nameLength ∧ (scheme = .suffixed → ¬ LooksPrefixed base))) ∧
    (∀ base, IsBase base → (Distinct platform base ↔ base.length + 2 < nameLength - 1)) ∧
    ∀ name, Terminated name → (ReadsInside name ↔ partitionSuffixLength ≤ name.length) :=
  ⟨fun _ => naming_roundTrips_iff hscheme, fun _ => distinct_iff hscheme, fun _ => readsInside_iff⟩

def suffixes : Platform := ⟨true, true, t234ChipId⟩

theorem naming_law_suffixes : suffixes.scheme = some .suffixed ∧
    (RoundTrips suffixes (nameOf "kernel") ∧ ReadsInside (nameOf "kernel_b")) := by
  have hlaw := @naming_law suffixes .suffixed rfl
  refine ⟨rfl, (hlaw.1 _ ⟨by decide, fun chain => by cases chain <;> decide⟩).mpr
    ⟨by decide, fun _ => ?_⟩, (hlaw.2.2 _ (by decide)).mpr (by decide)⟩
  rintro (h | h) <;> exact absurd h (by decide)

/-- The partition `A_a` is taken for one of the chain A with the base name `a`. -/
theorem suffix_read_as_prefix : ¬ ∀ platform scheme base, platform.scheme = some scheme →
    IsBase base → RoundTrips platform base := by
  intro h
  have hrun := h suffixes .suffixed (nameOf "A") rfl
    ⟨by decide, fun chain => by cases chain <;> decide⟩ .a _ [] rfl
  exact absurd hrun (by decide)

end BootChainInfoLib
