import Mathlib.Data.List.Infix
import Edk2Nvidia.AndroidBoot.BootConfig

/-! When appended parameters make up the section they should, whatever is in front of it. -/
namespace AndroidBootDxe
open Flash (Memory Holds overwrite slice toLittleEndian)
open FwPartition (u64)

variable {m : Memory} {start : Nat} {text params : List UInt8}

/-! What is looked at for the magic. -/

/-- As many bytes in front of an address as the magic has. -/
def before (m : Memory) (a : Nat) : List UInt8 :=
  (List.range bootConfigMagicSize).map fun i => m (u64 (a + (2 ^ 64 - bootConfigMagicSize) + i))

@[simp] theorem length_before (m : Memory) (a : Nat) :
    (before m a).length = bootConfigMagicSize := by
  simp [before]

theorem asciiStrnCmp_eq (m : Memory) (first : Nat) {second : List UInt8}
    (hsecond : ∀ c ∈ second, c ≠ 0) :
    asciiStrnCmp m first second second.length =
      decide ((List.range second.length).map (fun i => m (u64 (first + i))) = second) := by
  induction second generalizing first with
  | nil => rfl
  | cons d second ih =>
    obtain ⟨hd, hrest⟩ := List.forall_mem_cons.mp hsecond
    have hmap : (List.range (second.length + 1)).map (fun i => m (u64 (first + i))) =
        m (u64 first) :: (List.range second.length).map fun i => m (u64 (first + 1 + i)) := by
      rw [List.range_succ_eq_map, List.map_cons, List.map_map]
      congr 1
      apply List.map_congr_left
      intro i _
      rw [Function.comp_apply, Nat.succ_eq_add_one, Nat.add_comm i, ← Nat.add_assoc]
    rw [List.length_cons, asciiStrnCmp, hmap]
    by_cases heq : m (u64 first) = d
    · rcases second with _ | ⟨e, second⟩
      · simp [heq]
      · rw [if_pos ⟨heq ▸ hd, hd, heq, Nat.succ_pos _⟩, List.tail_cons, ih _ hrest, heq]
        simp
    · rw [if_neg fun h => heq h.2.2.1]
      simp [heq]

theorem isTrailerPresent_eq (m : Memory) (a : Nat) :
    isTrailerPresent m a = decide (before m a = bootConfigMagic) := by
  refine (@asciiStrnCmp_eq m _ bootConfigMagic (by decide +kernel)).trans ?_
  have hbytes : ∀ b n : Nat, (List.range n).map (fun i => m (u64 (u64 b + i))) =
      (List.range n).map fun i => m (u64 (b + i)) := by
    intro b n
    refine List.map_congr_left fun i _ => ?_
    rw [u64, u64, Nat.mod_add_mod, u64]
  rw [hbytes]
  rfl

/-- Behind bytes of memory these are looked at, and what is in front of them when they are few. -/
theorem before_add (m : Memory) {start n : Nat} (hroom : start + n ≤ 2 ^ 64) :
    before m (start + n) = (before m start ++ slice m start n).drop n := by
  apply List.ext_getElem
  · rw [length_before, List.length_drop, List.length_append, length_before, Flash.length_slice]
    omega
  · intro i hi _
    rw [length_before] at hi
    have hsize : bootConfigMagicSize = 12 := rfl
    rw [List.getElem_drop]
    by_cases hin : n + i < bootConfigMagicSize
    · rw [List.getElem_append_left (by rw [length_before]; exact hin)]
      simp only [before, List.getElem_map, List.getElem_range]
      congr 2
      omega
    · rw [List.getElem_append_right (by rw [length_before]; omega), Flash.getElem_slice]
      simp only [before, List.getElem_map, List.getElem_range, List.length_map, List.length_range,
        u64]
      congr 1
      omega

/-- The trailer is found where the magic ends the text, with what is in front of it. -/
theorem isTrailerPresent_iff (hholds : Holds m start text)
    (hroom : start + text.length ≤ 2 ^ 64) :
    isTrailerPresent m (start + text.length) = true ↔ bootConfigMagic <:+ before m start ++ text := by
  rw [isTrailerPresent_eq, decide_eq_true_eq, before_add m hroom,
    show slice m start text.length = text from hholds, eq_comm, List.suffix_iff_eq_drop,
    List.length_append, length_before]
  rw [show bootConfigMagic.length = bootConfigMagicSize from rfl, Nat.add_sub_cancel_left]

theorem suffix_trailer (front : List UInt8) (text : List UInt8) :
    bootConfigMagic <:+ front ++ sectionOf text := by
  refine List.IsSuffix.trans ?_ (List.suffix_append _ _)
  refine List.IsSuffix.trans ?_ (List.suffix_append _ _)
  refine List.IsSuffix.trans ?_ (List.suffix_append _ _)
  exact List.suffix_append _ _

/-- What is written in the section is not in front of it. -/
theorem before_overwrite (m : Memory) {a : Nat} {data : List UInt8} (ha : start ≤ a)
    (hsize : a + data.length ≤ start + 2 ^ 32) :
    before (overwrite m a data) start = before m start := by
  apply List.map_congr_left
  intro i hi
  have hi' : i < 12 := List.mem_range.mp hi
  have hmagic : bootConfigMagicSize = 12 := rfl
  apply Flash.overwrite_outside
  simp only [u64]
  omega

theorem length_trailer (text : List UInt8) : (trailer text).length = bootConfigTrailerSize := by
  simp only [trailer, List.length_append, Flash.length_toLittleEndian]
  rfl

theorem length_sectionOf (text : List UInt8) :
    (sectionOf text).length = text.length + bootConfigTrailerSize := by
  rw [sectionOf, List.length_append, length_trailer]

theorem holds_copied (hholds : Holds m start text) (data : List UInt8) :
    Holds (overwrite m (start + text.length) data) start (text ++ data) := by
  rw [Flash.holds_append]
  refine ⟨hholds.congr fun a _ ha => ?_, Flash.holds_overwrite _ _ _⟩
  exact Flash.overwrite_outside _ _ _ _ (.inl ha)

/-! One call. -/

section
variable (hstart : start ≠ 0) (hroom : start + text.length + bootConfigTrailerSize ≤ 2 ^ 64)
include hstart hroom

theorem addBootConfigTrailer_seen (hholds : Holds m start text)
    (hseen : bootConfigMagic <:+ before m start ++ text) :
    addBootConfigTrailer m start text.length = .ok (m, 0) := by
  have htrailer : bootConfigTrailerSize = 20 := rfl
  unfold addBootConfigTrailer
  rw [if_neg hstart]
  split
  · rfl
  · have hstop : u64 (start + text.length) = start + text.length := Nat.mod_eq_of_lt (by omega)
    rw [hstop, if_pos ((isTrailerPresent_iff hholds (by omega)).mpr hseen)]

theorem addBootConfigTrailer_added (hsize : text.length + bootConfigTrailerSize < 2 ^ 32)
    (hholds : Holds m start text) (hne : text ≠ [])
    (hseen : ¬ bootConfigMagic <:+ before m start ++ text) :
    ∃ m', addBootConfigTrailer m start text.length = .ok (m', bootConfigTrailerSize) ∧
      Holds m' start (sectionOf text) ∧ before m' start = before m start := by
  have htrailer : bootConfigTrailerSize = 20 := rfl
  have hsizeSize : bootConfigSizeSize = 4 := rfl
  have hsumSize : bootConfigChecksumSize = 4 := rfl
  have hstop : u64 (start + text.length) = start + text.length := Nat.mod_eq_of_lt (by omega)
  have hpresent : ¬ isTrailerPresent m (start + text.length) = true := fun h =>
    hseen ((isTrailerPresent_iff hholds (by omega)).mp h)
  unfold addBootConfigTrailer
  rw [if_neg hstart, if_neg (fun h => hne (List.length_eq_zero_iff.mp h)), hstop, if_neg hpresent]
  have hsized := holds_copied hholds (toLittleEndian bootConfigSizeSize text.length)
  have hsum : slice (overwrite m (start + text.length)
      (toLittleEndian bootConfigSizeSize text.length)) start text.length = text :=
    (Flash.holds_append.mp hsized).1
  simp only [hsum]
  have hsummed := holds_copied hsized (toLittleEndian bootConfigChecksumSize (checkSum text))
  rw [List.length_append, Flash.length_toLittleEndian, ← Nat.add_assoc] at hsummed
  have hended := holds_copied hsummed bootConfigMagic
  rw [List.length_append, List.length_append, Flash.length_toLittleEndian,
    Flash.length_toLittleEndian, ← Nat.add_assoc, ← Nat.add_assoc] at hended
  refine ⟨_, rfl, ?_, ?_⟩
  · rwa [sectionOf, trailer, ← List.append_assoc, ← List.append_assoc]
  · have hmagic : bootConfigMagic.length = 12 := rfl
    rw [before_overwrite _ (by omega) (by omega),
      before_overwrite _ (by omega) (by rw [Flash.length_toLittleEndian]; omega),
      before_overwrite _ (by omega) (by rw [Flash.length_toLittleEndian]; omega)]

end

theorem addBootConfigTrailer_cases (hstart : start ≠ 0) (m : Memory) (size : Nat) :
    ∃ m' added, addBootConfigTrailer m start size = .ok (m', added) ∧
      (added = 0 ∨ added = bootConfigTrailerSize) := by
  unfold addBootConfigTrailer
  rw [if_neg hstart]
  split
  · exact ⟨m, 0, rfl, .inl rfl⟩
  · simp only
    split
    · exact ⟨m, 0, rfl, .inl rfl⟩
    · exact ⟨_, _, rfl, .inr rfl⟩

/-- The bytes applied before the trailer is added again. -/
def appliedFirst (withTrailer : Bool) (params : List UInt8) : Nat :=
  u32 ((if withTrailer then u32 (2 ^ 32 - bootConfigTrailerSize) else 0) + params.length)

section
variable {withTrailer : Bool} (hstart : start ≠ 0) (hne : params ≠ [])
  (hroom : start + (text ++ params).length + bootConfigTrailerSize ≤ 2 ^ 64)
  (hsize : (text ++ params).length + bootConfigTrailerSize < 2 ^ 32)
  (hholds : Holds m start (Initial.bytes ⟨text, withTrailer⟩))
include hstart hne hroom hsize hholds

omit hne hroom hsize hstart in
theorem holds_text : Holds m start text := by
  cases withTrailer with
  | true => exact (Flash.holds_append.mp hholds).1
  | false => exact hholds

/-- Where the trailer that is there is found, and no other one, the parameters take its place. -/
theorem addBootConfigParameters_eq
    (htold : withTrailer = false → ¬ bootConfigMagic <:+ before m start ++ text) {m' : Memory}
    {added : Nat} (hadd : addBootConfigTrailer (overwrite m (start + text.length) params) start
      (text ++ params).length = .ok (m', added)) :
    addBootConfigParameters params m start (Initial.bytes ⟨text, withTrailer⟩).length =
      .ok (m', u32 (appliedFirst withTrailer params + added)) := by
  have htrailer : bootConfigTrailerSize = 20 := rfl
  have hlength := length_sectionOf text
  rw [List.length_append] at hroom hsize hadd
  have hpos : 0 < params.length := List.length_pos_iff.mpr hne
  unfold addBootConfigParameters
  rw [if_neg (by omega)]
  cases withTrailer with
  | true =>
    rw [show Initial.bytes ⟨text, true⟩ = sectionOf text from rfl] at hholds ⊢
    have hstop : u64 (start + (sectionOf text).length) = start + (sectionOf text).length :=
      Nat.mod_eq_of_lt (by omega)
    have hpresent := (isTrailerPresent_iff hholds (by omega)).mpr (suffix_trailer _ text)
    have hnew : u32 ((sectionOf text).length + appliedFirst true params) =
        text.length + params.length := by
      simp only [appliedFirst, if_true, u32]
      omega
    have haddr : u64 (start + (sectionOf text).length + (2 ^ 64 - bootConfigTrailerSize)) =
        start + text.length := by
      rw [u64]
      omega
    simp only [hstop, hpresent, if_true, haddr]
    rw [show u32 (u32 (2 ^ 32 - bootConfigTrailerSize) + params.length) =
      appliedFirst true params from rfl, hnew, hadd]
  | false =>
    rw [show Initial.bytes ⟨text, false⟩ = text from rfl] at hholds ⊢
    have hstop : u64 (start + text.length) = start + text.length := Nat.mod_eq_of_lt (by omega)
    have hpresent : isTrailerPresent m (start + text.length) = false := by
      by_contra h
      exact htold rfl ((isTrailerPresent_iff hholds (by omega)).mp (Bool.not_eq_false _ ▸ h))
    have hnew : u32 (text.length + appliedFirst false params) = text.length + params.length := by
      simp only [appliedFirst, Bool.false_eq_true, if_false, u32]
      omega
    simp only [hstop, hpresent, Bool.false_eq_true, if_false]
    rw [show u32 (0 + params.length) = appliedFirst false params from rfl, hnew, hadd]

/-- The call does what it should where the magic is found in the trailer only. -/
theorem addBootConfigParameters_appends
    (htold : withTrailer = false → ¬ bootConfigMagic <:+ before m start ++ text)
    (hnext : ¬ bootConfigMagic <:+ before m start ++ (text ++ params)) :
    ∃ m' applied,
      addBootConfigParameters params m start (Initial.bytes ⟨text, withTrailer⟩).length =
        .ok (m', applied) ∧
      Holds m' start (sectionOf (text ++ params)) ∧
      (Initial.bytes ⟨text, withTrailer⟩).length + applied = (sectionOf (text ++ params)).length ∧
      before m' start = before m start := by
  have htrailer : bootConfigTrailerSize = 20 := rfl
  have hcopied := holds_copied (holds_text hholds) params
  have hlength : (text ++ params).length = text.length + params.length := List.length_append
  have hbefore : before (overwrite m (start + text.length) params) start = before m start :=
    before_overwrite _ (by omega) (by omega)
  obtain ⟨m', hadd, hsection, hsame⟩ := addBootConfigTrailer_added hstart hroom hsize hcopied
    (List.append_ne_nil_of_right_ne_nil _ hne) (by rwa [hbefore])
  refine ⟨m', _, addBootConfigParameters_eq hstart hne hroom hsize hholds htold hadd, hsection, ?_,
    hsame.trans hbefore⟩
  rw [length_sectionOf]
  have hsectionLength := length_sectionOf text
  cases withTrailer with
  | true =>
    rw [show Initial.bytes ⟨text, true⟩ = sectionOf text from rfl]
    simp only [appliedFirst, if_true, u32]
    omega
  | false =>
    rw [show Initial.bytes ⟨text, false⟩ = text from rfl]
    simp only [appliedFirst, Bool.false_eq_true, if_false, u32]
    omega

/-- Where the magic is found elsewhere, too few bytes are said to be applied. -/
theorem addBootConfigParameters_lost
    (hseen : withTrailer = false ∧ bootConfigMagic <:+ before m start ++ text ∨
      bootConfigMagic <:+ before m start ++ (text ++ params)) {m' : Memory} {applied : Nat}
    (hrun : addBootConfigParameters params m start (Initial.bytes ⟨text, withTrailer⟩).length =
      .ok (m', applied)) :
    (Initial.bytes ⟨text, withTrailer⟩).length + applied ≠ (sectionOf (text ++ params)).length := by
  have htrailer : bootConfigTrailerSize = 20 := rfl
  have hlength : (text ++ params).length = text.length + params.length := List.length_append
  have hsectionLength := length_sectionOf text
  have hpos : 0 < params.length := List.length_pos_iff.mpr hne
  rw [length_sectionOf]
  by_cases hfirst : withTrailer = false ∧ bootConfigMagic <:+ before m start ++ text
  · obtain ⟨rfl, hfirst⟩ := hfirst
    rw [show Initial.bytes ⟨text, false⟩ = text from rfl] at hholds hrun ⊢
    have hstop : u64 (start + text.length) = start + text.length := Nat.mod_eq_of_lt (by omega)
    have hpresent := (isTrailerPresent_iff hholds (by omega)).mpr hfirst
    unfold addBootConfigParameters at hrun
    rw [if_neg (by omega)] at hrun
    simp only [hstop, hpresent, if_true] at hrun
    obtain ⟨m'', added, hadd, hadded⟩ := addBootConfigTrailer_cases hstart
      (overwrite m (u64 (start + text.length + (2 ^ 64 - bootConfigTrailerSize))) params)
      (u32 (text.length + u32 (u32 (2 ^ 32 - bootConfigTrailerSize) + params.length)))
    rw [hadd] at hrun
    have happlied := congrArg Prod.snd (Except.ok.inj hrun)
    simp only [u32] at happlied
    omega
  · have hbefore : before (overwrite m (start + text.length) params) start = before m start :=
      before_overwrite _ (by omega) (by omega)
    have hadd := addBootConfigTrailer_seen hstart hroom (holds_copied (holds_text hholds) params)
      (by rw [hbefore]; exact hseen.resolve_left hfirst)
    rw [addBootConfigParameters_eq hstart hne hroom hsize hholds
      (fun hfalse h => hfirst ⟨hfalse, h⟩) hadd] at hrun
    have happlied := congrArg Prod.snd (Except.ok.inj hrun)
    cases withTrailer with
    | true =>
      rw [show Initial.bytes ⟨text, true⟩ = sectionOf text from rfl]
      simp only [appliedFirst, if_true, u32] at happlied
      omega
    | false =>
      rw [show Initial.bytes ⟨text, false⟩ = text from rfl]
      simp only [appliedFirst, Bool.false_eq_true, if_false, u32] at happlied
      omega

end

/-! Call after call. -/

/-- The same with what is in front of the section. -/
structure ToldBehind (front : List UInt8) (initial : Initial) (params : List (List UInt8)) :
    Prop where
  initially : initial.withTrailer = false → params ≠ [] → ¬ bootConfigMagic <:+ front ++ initial.text
  appended : ∀ part, part <+: params → part ≠ [] →
    ¬ bootConfigMagic <:+ front ++ (initial.text ++ part.flatten)

theorem toldBehind_cons {front : List UInt8} {withTrailer : Bool} {rest : List (List UInt8)} :
    ToldBehind front ⟨text, withTrailer⟩ (params :: rest) ↔
      ((withTrailer = false → ¬ bootConfigMagic <:+ front ++ text) ∧
        ¬ bootConfigMagic <:+ front ++ (text ++ params)) ∧
      ToldBehind front ⟨text ++ params, true⟩ rest := by
  constructor
  · rintro ⟨hinitially, happended⟩
    refine ⟨⟨fun hfalse => hinitially hfalse (List.cons_ne_nil _ _), ?_⟩, nofun, ?_⟩
    · simpa using happended [params] ⟨rest, rfl⟩ (List.cons_ne_nil _ _)
    · intro part hpart _
      have := happended (params :: part) ((List.prefix_cons_inj _).mpr hpart)
        (List.cons_ne_nil _ _)
      rwa [List.flatten_cons, ← List.append_assoc text] at this
  · rintro ⟨⟨hfirst, hnext⟩, -, happended⟩
    refine ⟨fun hfalse _ => hfirst hfalse, ?_⟩
    intro part hpart hnil
    rcases part with _ | ⟨p, part⟩
    · exact absurd rfl hnil
    obtain ⟨rfl, hpart'⟩ := List.cons_prefix_cons.mp hpart
    rw [List.flatten_cons, ← List.append_assoc text]
    rcases part with _ | ⟨q, part⟩
    · simpa using hnext
    · exact happended _ hpart' (List.cons_ne_nil _ _)

theorem appends_iff (hstart : start ≠ 0) {withTrailer : Bool} {calls : List (List UInt8)}
    (hne : ∀ p ∈ calls, p ≠ [])
    (hroom : start + (text ++ calls.flatten).length + bootConfigTrailerSize ≤ 2 ^ 64)
    (hsize : (text ++ calls.flatten).length + bootConfigTrailerSize < 2 ^ 32)
    (hholds : Holds m start (Initial.bytes ⟨text, withTrailer⟩)) :
    Appends start m (Initial.bytes ⟨text, withTrailer⟩) text calls ↔
      ToldBehind (before m start) ⟨text, withTrailer⟩ calls := by
  induction calls generalizing m text withTrailer with
  | nil => exact ⟨fun _ => ⟨fun _ h => absurd rfl h, fun part hpart hnil =>
      absurd (List.prefix_nil.mp hpart) hnil⟩, fun _ => trivial⟩
  | cons params rest ih =>
    obtain ⟨hp, hrest⟩ := List.forall_mem_cons.mp hne
    have hlengths : (text ++ (params :: rest).flatten).length =
        (text ++ params ++ rest.flatten).length := by
      rw [List.flatten_cons, List.append_assoc]
    have hlonger : (text ++ params).length ≤ (text ++ params ++ rest.flatten).length := by
      rw [@List.length_append _ (text ++ params)]
      exact Nat.le_add_right _ _
    rw [hlengths] at hroom hsize
    rw [toldBehind_cons, Appends]
    by_cases htold : (withTrailer = false → ¬ bootConfigMagic <:+ before m start ++ text) ∧
        ¬ bootConfigMagic <:+ before m start ++ (text ++ params)
    · obtain ⟨m', applied, hrun, hsection, hgrown, hsame⟩ := addBootConfigParameters_appends hstart hp
        (by omega) (by omega) hholds htold.1 htold.2
      have hafter : Holds m' start (Initial.bytes ⟨text ++ params, true⟩) := hsection
      have hiff := ih hrest hroom hsize hafter
      rw [hsame] at hiff
      rw [← hiff]
      constructor
      · rintro ⟨m'', applied', hrun', -, -, happends⟩
        rw [hrun] at hrun'
        cases hrun'
        exact ⟨htold, happends⟩
      · rintro ⟨-, happends⟩
        exact ⟨m', applied, hrun, hsection, hgrown, happends⟩
    · refine iff_of_false ?_ (fun h => htold h.1)
      rintro ⟨m', applied, hrun, -, hgrown, -⟩
      refine addBootConfigParameters_lost hstart hp (by omega) (by omega) hholds ?_ hrun hgrown
      by_contra hseen
      refine htold ⟨fun hfalse h => hseen (.inl ⟨hfalse, h⟩), fun h => hseen (.inr h)⟩

/-! Whatever is in front. -/

/-- Bytes in front can make a text end in the magic when it is an end of the magic. -/
theorem seen_iff (htext : ¬ bootConfigMagic <:+ text) :
    (∃ front : List UInt8, front.length = bootConfigMagicSize ∧ bootConfigMagic <:+ front ++ text) ↔
      text <:+ bootConfigMagic := by
  constructor
  · rintro ⟨front, -, hseen⟩
    exact (List.suffix_or_suffix_of_suffix hseen (List.suffix_append _ _)).resolve_left htext
  · rintro ⟨front, hfront⟩
    have hlength := congrArg List.length hfront
    rw [List.length_append, show bootConfigMagic.length = bootConfigMagicSize from rfl] at hlength
    refine ⟨List.replicate (bootConfigMagicSize - front.length) 0 ++ front, ?_, ?_⟩
    · rw [List.length_append, List.length_replicate]
      omega
    · rw [List.append_assoc, hfront]
      exact List.suffix_append _ _

theorem exists_memory {front : List UInt8} (hfront : front.length = bootConfigMagicSize)
    (bytes : List UInt8) :
    ∃ m, before m bootConfigMagicSize = front ∧ Holds m bootConfigMagicSize bytes := by
  have hholds := holds_copied (Flash.holds_overwrite (fun _ => 0) 0 front) bytes
  rw [Flash.holds_append, hfront, Nat.zero_add] at hholds
  obtain ⟨hleft, hright⟩ := hholds
  refine ⟨_, ?_, hright⟩
  refine Eq.trans ?_ hleft
  rw [hfront, slice, List.range'_eq_map_range, List.map_map]
  refine List.map_congr_left fun i hi => ?_
  have hi' := List.mem_range.mp hi
  have hmagic : bootConfigMagicSize = 12 := rfl
  rw [Function.comp_apply, u64]
  congr 1
  omega

/-- The section is as it should be, wherever it lies, exactly if no text in front of which the
trailer is looked for is an end of the magic; and then it does not matter in how many calls the
parameters are appended. -/
theorem boot_config_append_law (initial : Initial) (params : List (List UInt8))
    (hne : ∀ p ∈ params, p ≠ [])
    (hplain : ∀ front, front <+: params → ¬ bootConfigMagic <:+ initial.text ++ front.flatten)
    (hsize : (sectionOf (initial.text ++ params.flatten)).length < 2 ^ 32) :
    (AppendLaw initial params ↔ Told initial params) ∧
      (AppendLaw initial params → params ≠ [] → AppendLaw initial [params.flatten]) := by
  rw [length_sectionOf] at hsize
  have hplainText : ¬ bootConfigMagic <:+ initial.text := by
    simpa using hplain [] List.nil_prefix
  have htold : Told initial params → ∀ front, ToldBehind front initial params := by
    intro htold front
    refine ⟨fun hfalse hnil hseen => ?_, fun part hpart hnil hseen => ?_⟩
    · exact ((List.suffix_or_suffix_of_suffix hseen (List.suffix_append _ _)).elim hplainText
        (htold.initially hfalse hnil))
    · exact ((List.suffix_or_suffix_of_suffix hseen (List.suffix_append _ _)).elim
        (hplain part hpart) (htold.appended part hpart hnil))
  have hiff : AppendLaw initial params ↔ Told initial params := by
    constructor
    · intro hlaw
      have hbehind : ∀ front : List UInt8, front.length = bootConfigMagicSize →
          ToldBehind front initial params := by
        intro front hfront
        obtain ⟨m, hbefore, hholds⟩ := exists_memory hfront initial.bytes
        have hmagic : bootConfigMagicSize = 12 := rfl
        rw [← hbefore]
        refine (appends_iff (by decide) hne (by omega) hsize hholds).mp (hlaw _ m (by decide) ?_ hholds)
        rw [length_sectionOf]
        omega
      constructor
      · intro hfalse hnil hend
        obtain ⟨front, hfront, hseen⟩ := (seen_iff hplainText).mpr hend
        exact (hbehind front hfront).initially hfalse hnil hseen
      · intro part hpart hnil hend
        obtain ⟨front, hfront, hseen⟩ := (seen_iff (hplain part hpart)).mpr hend
        exact (hbehind front hfront).appended part hpart hnil hseen
    · intro h start m hstart hroom hholds
      rw [length_sectionOf, ← Nat.add_assoc] at hroom
      exact (appends_iff hstart hne hroom hsize hholds).mpr (htold h _)
  refine ⟨hiff, fun hlaw hnil start m hstart hroom hholds => ?_⟩
  have hsingle : [params.flatten].flatten = params.flatten := by simp
  rw [hsingle, length_sectionOf, ← Nat.add_assoc] at hroom
  have hflat : params.flatten ≠ [] := by
    obtain ⟨p, rest, rfl⟩ := List.exists_cons_of_ne_nil hnil
    rw [List.flatten_cons]
    exact List.append_ne_nil_of_left_ne_nil (hne p List.mem_cons_self) _
  refine (appends_iff hstart (fun p hp => List.mem_singleton.mp hp ▸ hflat) (by rwa [hsingle])
    (by rwa [hsingle]) hholds).mpr ?_
  obtain ⟨hinitially, happended⟩ := htold (hiff.mp hlaw) (before m start)
  refine ⟨fun hfalse _ => hinitially hfalse hnil, fun part hpart hpartNil => ?_⟩
  rcases part with _ | ⟨p, part⟩
  · exact absurd rfl hpartNil
  · obtain ⟨rfl, hpart'⟩ := List.cons_prefix_cons.mp hpart
    rw [List.prefix_nil.mp hpart', hsingle]
    exact happended params List.prefix_rfl hnil

/-- Two parameters behind an initial one. -/
theorem boot_config_append_sample :
    AppendLaw ⟨[0x61, 0x3D, 0x31, 0x0B], false⟩ [[0x62, 0x3D, 0x32, 0x0B], [0x63, 0x0B]] := by
  refine (boot_config_append_law _ _ (by decide +kernel) ?_ (by decide +kernel)).1.mpr
    ⟨fun _ _ => by decide +kernel, ?_⟩
  · intro front hfront
    have hmem := (List.mem_inits _ _).mpr hfront
    clear hfront
    revert front
    decide +kernel
  · intro front hfront
    have hmem := (List.mem_inits _ _).mpr hfront
    clear hfront
    revert front
    decide +kernel

/-- An empty section is taken for a trailer where the magic lies in front of it. -/
theorem magic_in_front : ¬ ∀ initial params, (∀ p ∈ params, p ≠ []) →
    (∀ front, front <+: params → ¬ bootConfigMagic <:+ initial.text ++ front.flatten) →
    (sectionOf (initial.text ++ params.flatten)).length < 2 ^ 32 → AppendLaw initial params := by
  intro h
  have hlaw := h ⟨[], false⟩ [[0x61]] (by decide +kernel) ?_ (by decide +kernel)
  · obtain ⟨m, hbefore, hholds⟩ := @exists_memory bootConfigMagic rfl []
    have happends := hlaw _ m (by decide) (by decide +kernel) hholds
    rw [appends_iff (by decide) (by decide +kernel) (by decide +kernel) (by decide +kernel)
      hholds] at happends
    have htold := happends
    refine htold.initially rfl (by decide) ?_
    rw [hbefore, List.append_nil]
  · intro front hfront
    have hmem := (List.mem_inits _ _).mpr hfront
    clear hfront
    revert front
    decide +kernel

end AndroidBootDxe
