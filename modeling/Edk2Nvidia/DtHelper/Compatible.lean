import Mathlib.Data.Nat.Find
import Edk2Nvidia.Parse.Packed
import Edk2Nvidia.Wildcard.Language

/-! How the strings of a `compatible` property are matched: the wildcard string library, and the
search of a string list. -/
namespace DtHelper
open Parse Wildcard

inductive EfiStatus where
  | success
  | invalidParameter
  | unsupported
  | badBufferSize
  | bufferTooSmall
  | deviceError
  | notFound
  | noMapping
deriving DecidableEq, Repr

/-- The character `*`. -/
def asterisk : UInt8 := 0x2A

def wildcardMaxStringSize : Nat := 0x100

variable (allocates : Nat → Bool)

/-- `WildcardStringMatchAscii`; `allocates` says for which sizes the pool has a buffer. -/
def wildcardStringMatchAscii (wildcardString checkString : CString) : Bool :=
  if wildcardString.size = 1 ∨
      wildcardString.size = 2 ∧ wildcardString.chars.head? = some asterisk then
    true
  else if wildcardString.size > wildcardMaxStringSize ∧ !allocates wildcardString.size then
    false
  else
    greedy asterisk true wildcardString.chars checkString.chars

/-- A search of a string list: what it found, and the bytes of the strings it read. -/
structure Located where
  status : EfiStatus
  index : Nat
  reads : List (Nat × Nat)

/-- The loop of `DeviceTreeLocateStringIndex`: `memory` starts at the string it has come to, and
`left` bytes of it belong to the property. -/
def locateFrom (string : CString) (memory : List UInt8) (left offset index : Nat) : Located :=
  if string.size ≤ left then
    let found := CString.first memory
    if wildcardStringMatchAscii allocates string found then
      ⟨.success, index, [(offset, found.size)]⟩
    else
      let rest := locateFrom string (memory.drop found.size) (left - found.size)
        (offset + found.size) (index + 1)
      { rest with reads := (offset, found.size) :: rest.reads }
  else
    ⟨.notFound, index, []⟩
  termination_by left
  decreasing_by
    have hstring : 0 < string.size := Nat.succ_pos _
    have hfound : 0 < (CString.first memory).size := Nat.succ_pos _
    omega

def deviceTreeLocateStringIndex (property : Option (List UInt8)) (beyond : List UInt8)
    (string : CString) : Located :=
  match property with
  | none => ⟨.noMapping, 0, []⟩
  | some data => locateFrom allocates string (data ++ beyond) data.length 0 0

/-! The strings of a list. -/

def encodeStrings (strings : List CString) : List UInt8 := strings.flatMap CString.terminated

/-- What a pattern stands for: the empty one for every string. -/
def InLanguage (pattern string : CString) : Prop :=
  pattern.chars = [] ∨ Matches asterisk pattern.chars string.chars

/-- The first string of the list that is in the language. -/
structure FirstMatch (pattern : CString) (strings : List CString) (i : Nat) (string : CString) :
    Prop where
  there : strings[i]? = some string
  inLanguage : InLanguage pattern string
  first : ∀ j < i, ∀ earlier, strings[j]? = some earlier → ¬ InLanguage pattern earlier

/-- The search finds the first string of the language, or none exactly when there is none, and
reads the property only. -/
structure Locates (pattern : CString) (strings : List CString) (located : Located) : Prop where
  inside : ∀ read ∈ located.reads, read.1 + read.2 ≤ (encodeStrings strings).length
  found : ∀ i, located.status = .success ∧ located.index = i ↔
    ∃ string, FirstMatch pattern strings i string
  none : located.status = .notFound ↔ ∀ string ∈ strings, ¬ InLanguage pattern string

/-! When the matching is right. -/

/-- The pool has the copy of a long pattern, and no shorter prefix of the string is in the language
unless the pattern ends in a wildcard. -/
def Matchable (pattern string : CString) : Prop :=
  pattern.chars = [] ∨
    (pattern.size ≤ wildcardMaxStringSize ∨ allocates pattern.size = true) ∧
      (pattern.chars.getLast? = some asterisk ∨
        ∀ front, front <+: string.chars → front ≠ string.chars →
          ¬ Matches asterisk pattern.chars front)

variable {allocates : Nat → Bool}

theorem wildcardStringMatchAscii_iff (pattern string : CString) :
    wildcardStringMatchAscii allocates pattern string = true ↔
      InLanguage pattern string ∧ Matchable allocates pattern string := by
  unfold wildcardStringMatchAscii InLanguage Matchable
  have hsize : pattern.size = pattern.chars.length + 1 := rfl
  by_cases hempty : pattern.chars = []
  · rw [if_pos (.inl (by rw [hsize, hempty]; rfl))]
    exact iff_of_true rfl ⟨.inl hempty, .inl hempty⟩
  have hpos := List.length_pos_of_ne_nil hempty
  by_cases hone : pattern.size = 2 ∧ pattern.chars.head? = some asterisk
  · rw [if_pos (.inr hone)]
    have hchars : pattern.chars = [asterisk] := by
      obtain ⟨c, hc⟩ := List.length_eq_one_iff.mp (by omega : pattern.chars.length = 1)
      rw [hc, List.head?_cons] at hone
      rw [hc, Option.some.inj hone.2]
    rw [hchars]
    refine iff_of_true rfl ⟨.inr ?_, .inr ⟨.inl (by rw [hone.1]; decide), .inl rfl⟩⟩
    exact (matches_star _ _).mpr ⟨string.chars, [], (List.append_nil _).symm, rfl⟩
  · have hneither : ¬ (pattern.size = 1 ∨
        pattern.size = 2 ∧ pattern.chars.head? = some asterisk) := by
      rintro (h | h)
      · omega
      · exact hone h
    rw [if_neg hneither]
    split
    next hpool =>
      refine iff_of_false Bool.false_ne_true ?_
      rintro ⟨-, hnil | ⟨hsmall | hallocates, -⟩⟩
      · exact hempty hnil
      · omega
      · rw [hallocates] at hpool
        exact absurd hpool.2 (by decide)
    next hpool =>
      rw [greedy_first_iff_shortest _ _ hempty]
      unfold Shortest
      have hcopy : pattern.size ≤ wildcardMaxStringSize ∨ allocates pattern.size = true := by
        by_contra hno
        rw [not_or, Bool.not_eq_true] at hno
        exact hpool ⟨Nat.lt_of_not_le hno.1, by rw [hno.2]; rfl⟩
      constructor
      · rintro ⟨hm, hshortest⟩
        exact ⟨.inr hm, .inr ⟨hcopy, hshortest⟩⟩
      · rintro ⟨hm, hshortest⟩
        exact ⟨hm.resolve_left hempty, (hshortest.resolve_left hempty).2⟩

theorem encodeStrings_cons (string : CString) (strings : List CString) :
    encodeStrings (string :: strings) = string.terminated ++ encodeStrings strings := by
  rw [encodeStrings, List.flatMap_cons]
  rfl

theorem encodeStrings_drop_length_le (strings : List CString) (i : Nat) :
    (encodeStrings (strings.drop i)).length ≤ (encodeStrings strings).length := by
  induction strings generalizing i with
  | nil => rw [List.drop_nil]
  | cons string strings ih =>
    cases i with
    | zero => exact Nat.le_refl _
    | succ i =>
      rw [List.drop_succ_cons, encodeStrings_cons, List.length_append]
      exact Nat.le_trans (ih i) (Nat.le_add_left _ _)

/-- A search ends at the first string that is matched and in front of which there is room for the
pattern, or finds none. -/
theorem locateFrom_strings (allocates : Nat → Bool) (pattern : CString)
    (strings : List CString) (beyond : List UInt8)
    (offset index : Nat) :
    let located := locateFrom allocates pattern (encodeStrings strings ++ beyond)
      (encodeStrings strings).length offset index
    (∀ read ∈ located.reads, read.1 + read.2 ≤ offset + (encodeStrings strings).length) ∧
      ((∃ (i : Nat) (string : CString), located.status = .success ∧ located.index = index + i ∧
          strings[i]? = some string ∧
          pattern.size ≤ (encodeStrings (strings.drop i)).length ∧
          wildcardStringMatchAscii allocates pattern string = true ∧
          ∀ j < i, ∀ earlier, strings[j]? = some earlier →
            wildcardStringMatchAscii allocates pattern earlier = false) ∨
        located.status = .notFound ∧ ∀ (i : Nat) (string : CString), strings[i]? = some string →
          pattern.size ≤ (encodeStrings (strings.drop i)).length →
            wildcardStringMatchAscii allocates pattern string = false) := by
  induction strings generalizing offset index with
  | nil =>
    have hsmall : ¬ pattern.size ≤ (encodeStrings []).length := Nat.not_succ_le_zero _
    rw [locateFrom, if_neg hsmall]
    refine ⟨?_, .inr ⟨rfl, ?_⟩⟩
    · intro read hread
      cases hread
    · intro i string hthere
      cases hthere
  | cons first strings ih =>
    rw [locateFrom]
    split
    next hroom =>
      have hfirst : CString.first (encodeStrings (first :: strings) ++ beyond) = first := by
        rw [encodeStrings_cons, List.append_assoc, CString.first_terminated]
      have hlength : (encodeStrings (first :: strings)).length =
          first.size + (encodeStrings strings).length := by
        rw [encodeStrings_cons, List.length_append, CString.length_terminated]
      simp only [hfirst]
      split
      next hmatch =>
        refine ⟨?_, .inl ⟨0, first, rfl, rfl, rfl, hroom, hmatch, ?_⟩⟩
        · intro read hread
          rw [List.mem_singleton.mp hread, hlength]
          change offset + first.size ≤ _
          omega
        · intro j hj
          omega
      next hmatch =>
        have hrest : (encodeStrings (first :: strings) ++ beyond).drop first.size
            = encodeStrings strings ++ beyond := by
          rw [encodeStrings_cons, List.append_assoc, ← CString.length_terminated, List.drop_left]
        have hleft : (encodeStrings (first :: strings)).length - first.size
            = (encodeStrings strings).length := by omega
        obtain ⟨hreads, hresult⟩ := ih (offset + first.size) (index + 1)
        simp only [hrest, hleft]
        refine ⟨?_, ?_⟩
        · intro read hread
          rcases List.mem_cons.mp hread with rfl | hread
          · change offset + first.size ≤ _
            omega
          · have hinside := hreads read hread
            omega
        · rcases hresult with ⟨i, string, hstatus, hindex, hthere, hsize, hm, hearlier⟩ |
            ⟨hstatus, hnone⟩
          · refine .inl ⟨i + 1, string, hstatus, ?_, hthere, hsize, hm, ?_⟩
            · rw [hindex]
              omega
            · intro j hj earlier hj'
              cases j with
              | zero =>
                cases hj'
                exact Bool.eq_false_of_not_eq_true hmatch
              | succ j => exact hearlier j (by omega) earlier hj'
          · refine .inr ⟨hstatus, ?_⟩
            intro i string hthere hsize
            cases i with
            | zero =>
              cases hthere
              exact Bool.eq_false_of_not_eq_true hmatch
            | succ i => exact hnone i string hthere hsize
    next hroom =>
      refine ⟨?_, .inr ⟨rfl, ?_⟩⟩
      · intro read hread
        cases hread
      · intro i string _ hsize
        exact absurd (Nat.le_trans hsize (encodeStrings_drop_length_le _ i)) hroom

/-- Where a string of the list is in the language, there is a first one. -/
theorem exists_firstMatch {pattern string : CString} {strings : List CString}
    (hmem : string ∈ strings) (hm : InLanguage pattern string) :
    ∃ i first, FirstMatch pattern strings i first := by
  classical
  have hexists : ∃ i : Nat, ∃ string : CString,
      strings[i]? = some string ∧ InLanguage pattern string := by
    obtain ⟨i, hi⟩ := List.mem_iff_getElem?.mp hmem
    exact ⟨i, string, hi, hm⟩
  obtain ⟨first, hthere, hfirst⟩ := Nat.find_spec hexists
  refine ⟨_, first, hthere, hfirst, ?_⟩
  intro j hj earlier hj' hm'
  exact Nat.find_min hexists hj ⟨earlier, hj', hm'⟩

/-- The search of a list is right exactly when the first string of the language has room for the
pattern behind it and can be matched. -/
theorem locates_iff (pattern : CString) (strings : List CString) (beyond : List UInt8) :
    Locates pattern strings
        (deviceTreeLocateStringIndex allocates (some (encodeStrings strings)) beyond pattern) ↔
      ∀ i string, FirstMatch pattern strings i string →
        pattern.size ≤ (encodeStrings (strings.drop i)).length ∧
          Matchable allocates pattern string := by
  obtain ⟨hreads, hresult⟩ :=
    locateFrom_strings allocates pattern strings beyond 0 0
  simp only [Nat.zero_add] at hreads hresult
  change Locates pattern strings (locateFrom allocates pattern (encodeStrings strings ++ beyond)
    (encodeStrings strings).length 0 0) ↔ _
  constructor
  · rintro ⟨-, hfound, hnone⟩ i string hfirst
    obtain ⟨hstatus, hindex⟩ := (hfound i).mpr ⟨string, hfirst⟩
    rcases hresult with ⟨i', string', -, hindex', hthere, hsize, hm, -⟩ | ⟨hstatus', -⟩
    · rw [hindex] at hindex'
      subst hindex'
      rw [hfirst.there] at hthere
      cases hthere
      exact ⟨hsize, ((wildcardStringMatchAscii_iff _ _).mp hm).2⟩
    · rw [hstatus] at hstatus'
      cases hstatus'
  · intro h
    have hsucceeds : ∀ i string, FirstMatch pattern strings i string →
        (locateFrom allocates pattern (encodeStrings strings ++ beyond)
          (encodeStrings strings).length 0 0).status = .success ∧
        (locateFrom allocates pattern (encodeStrings strings ++ beyond)
          (encodeStrings strings).length 0 0).index = i := by
      intro i string hfirst
      obtain ⟨hsize, hmatchable⟩ := h i string hfirst
      have hm := (wildcardStringMatchAscii_iff _ _).mpr ⟨hfirst.inLanguage, hmatchable⟩
      rcases hresult with ⟨i', string', hstatus, hindex, hthere, -, hm', hearlier⟩ | ⟨-, hnone⟩
      · refine ⟨hstatus, ?_⟩
        rw [hindex]
        have hlanguage := ((wildcardStringMatchAscii_iff _ _).mp hm').1
        rcases Nat.lt_trichotomy i' i with hlt | heq | hgt
        · exact absurd hlanguage (hfirst.first i' hlt string' hthere)
        · exact heq
        · rw [hearlier i hgt string hfirst.there] at hm
          cases hm
      · rw [hnone i string hfirst.there hsize] at hm
        cases hm
    refine ⟨hreads, ?_, ?_⟩
    · intro i
      constructor
      · rintro ⟨hstatus, rfl⟩
        rcases hresult with ⟨i', string', -, hindex, hthere, -, hm', -⟩ | ⟨hstatus', -⟩
        · have hlanguage := ((wildcardStringMatchAscii_iff _ _).mp hm').1
          have hmem := List.mem_of_getElem? hthere
          obtain ⟨j, first, hfirst⟩ := exists_firstMatch hmem hlanguage
          rw [(hsucceeds j first hfirst).2]
          exact ⟨first, hfirst⟩
        · rw [hstatus] at hstatus'
          cases hstatus'
      · rintro ⟨string, hfirst⟩
        exact hsucceeds i string hfirst
    · constructor
      · intro hstatus string hmem hm
        obtain ⟨i, first, hfirst⟩ := exists_firstMatch hmem hm
        rw [(hsucceeds i first hfirst).1] at hstatus
        cases hstatus
      · intro hnone
        rcases hresult with ⟨i, string, -, -, hthere, -, hm, -⟩ | ⟨hstatus, -⟩
        · have hlanguage := ((wildcardStringMatchAscii_iff _ _).mp hm).1
          exact absurd hlanguage (hnone string (List.mem_of_getElem? hthere))
        · exact hstatus

/-- When a string is matched as its pattern says, and a list searched so. -/
theorem compatible_iff (allocates : Nat → Bool) (pattern : CString) :
    (∀ string, (wildcardStringMatchAscii allocates pattern string = true ↔
        InLanguage pattern string) ↔
      (InLanguage pattern string → Matchable allocates pattern string)) ∧
    ∀ (strings : List CString) (beyond : List UInt8),
      Locates pattern strings
          (deviceTreeLocateStringIndex allocates (some (encodeStrings strings)) beyond pattern) ↔
        ∀ i string, FirstMatch pattern strings i string →
          pattern.size ≤ (encodeStrings (strings.drop i)).length ∧
            Matchable allocates pattern string := by
  refine ⟨?_, locates_iff pattern⟩
  intro string
  rw [wildcardStringMatchAscii_iff]
  exact and_iff_left_iff_imp

/-- The pattern `*a` does not match `aa`. -/
theorem greedy_stops_short :
    ¬ ∀ (allocates : Nat → Bool) (pattern string : CString),
      (∀ size, allocates size = true) →
        (wildcardStringMatchAscii allocates pattern string = true ↔
          InLanguage pattern string) := by
  intro h
  have hiff := h (fun _ => true) ⟨[asterisk, 0x61], by simp [asterisk]⟩ ⟨[0x61, 0x61], by simp⟩
    fun _ => rfl
  have hm : InLanguage ⟨[asterisk, 0x61], by simp [asterisk]⟩ ⟨[0x61, 0x61], by simp⟩ :=
    .inr ((matches_star _ _).mpr ⟨[0x61], [0x61], rfl,
      (matches_cons (by decide) _ _).mpr ⟨[], rfl, rfl⟩⟩)
  rw [← hiff, wildcardStringMatchAscii_iff] at hm
  rcases hm.2 with hnil | ⟨-, hlast | hshorter⟩
  · cases hnil
  · exact absurd hlast (by decide)
  · refine hshorter [0x61] ⟨[0x61], rfl⟩ (by decide) ?_
    exact (matches_star _ _).mpr ⟨[], [0x61], rfl,
      (matches_cons (by decide) _ _).mpr ⟨[], rfl, rfl⟩⟩

end DtHelper
