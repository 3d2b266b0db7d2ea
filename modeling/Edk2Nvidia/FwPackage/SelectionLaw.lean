import Edk2Nvidia.FwPackage.Selection
import Mathlib.Data.List.Forall2

/-! When the selection by TnSpec finds the image it has to, and stays inside its buffers. -/
namespace FwPackage
open Parse

def fields (spec : CString) : List (List UInt8) := spec.chars.splitOn dash

/-- As many fields, and each pair equal unless one of it is empty. -/
def Matches (a b : CString) : Prop :=
  List.Forall₂ (fun x y => x = [] ∨ y = [] ∨ x = y) (fields a) (fields b)

instance (a b : CString) : Decidable (Matches a b) :=
  inferInstanceAs (Decidable (List.Forall₂ _ _ _))

/-- The string fits into its buffer and its fields into the array of tokens. -/
structure Fits (spec : CString) : Prop where
  length : spec.chars.length < fwPackageTnSpecLength
  dashes : spec.chars.count dash + 1 < fwPackageTnSpecLength / 2

theorem compareTokens_success {a b : List (List UInt8)} (h : a.length = b.length) :
    compareTokens a b = .success ↔ List.Forall₂ (fun x y => x = [] ∨ y = [] ∨ x = y) a b := by
  induction a generalizing b with
  | nil =>
    rw [List.length_eq_zero_iff.mp h.symm]
    exact iff_of_true rfl .nil
  | cons x a ih =>
    cases b with
    | nil => cases h
    | cons y b =>
      rw [compareTokens, List.forall₂_cons, ← ih (Nat.succ.inj h), ← or_assoc]
      by_cases hempty : x = [] ∨ y = []
      · simp [hempty]
      · by_cases heq : x = y <;> simp [hempty, heq]

theorem specTokens_fits {spec : CString} (h : Fits spec) (buffer : List UInt8) :
    specTokens buffer spec = some (fields spec) := by
  have htokens : tokens (spec.chars.length + 1) (some spec.chars) = fields spec :=
    tokens_eq (Nat.lt_succ_self _)
  have hlength : (fields spec).length < fwPackageTnSpecLength / 2 := by
    rw [fields, length_splitOn]
    exact h.dashes
  unfold specTokens copied
  simp only [if_pos h.length, Option.bind_eq_bind, Option.bind_some, htokens, if_pos hlength]

/-- What is on the stack can be free of terminators. -/
def unterminated : Stack := ⟨List.replicate 128 1, List.replicate 128 1⟩

theorem specTokens_overrun {spec : CString} (h : ¬ Fits spec) :
    specTokens (List.replicate 128 1) spec = none := by
  have hnone : ¬ (0 : UInt8) ∈ (List.replicate 128 1).take fwPackageTnSpecLength := by decide
  unfold specTokens copied
  by_cases hlength : spec.chars.length < fwPackageTnSpecLength
  · have hdashes : ¬ (fields spec).length < fwPackageTnSpecLength / 2 := fun hfields => by
      rw [fields, length_splitOn] at hfields
      exact h ⟨hlength, hfields⟩
    have htokens : tokens (spec.chars.length + 1) (some spec.chars) = fields spec :=
      tokens_eq (Nat.lt_succ_self _)
    simp only [if_pos hlength, Option.bind_eq_bind, Option.bind_some, htokens, if_neg hdashes]
  · simp only [if_neg hlength, if_neg hnone]
    rfl

/-- The matcher stays inside its buffers and says whether two specs match. -/
def Decides (a b : CString) : Prop :=
  ∀ stack, ∃ status, fwPackageCheckTnSpec stack a b = some status ∧
    (status = .success ↔ Matches a b)

theorem decides_of_fits {a b : CString} (ha : Fits a) (hb : Fits b) : Decides a b := by
  intro stack
  unfold fwPackageCheckTnSpec
  rw [specTokens_fits ha, specTokens_fits hb]
  simp only [Option.bind_eq_bind, Option.bind_some]
  by_cases hlength : (fields a).length = (fields b).length
  · rw [if_neg (not_not.mpr hlength)]
    exact ⟨_, rfl, compareTokens_success hlength⟩
  · rw [if_pos hlength]
    refine ⟨_, rfl, iff_of_false (fun h => by cases h) fun h => hlength h.length_eq⟩

theorem check_overrun {a b : CString} (h : ¬ (Fits a ∧ Fits b)) :
    fwPackageCheckTnSpec unterminated a b = none := by
  unfold fwPackageCheckTnSpec unterminated
  by_cases ha : Fits a
  · rw [specTokens_overrun (fun hb => h ⟨ha, hb⟩)]
    cases specTokens (List.replicate 128 1) a <;> rfl
  · rw [specTokens_overrun ha]
    rfl

theorem decides_iff (a b : CString) : Decides a b ↔ Fits a ∧ Fits b := by
  refine ⟨fun h => ?_, fun h => decides_of_fits h.1 h.2⟩
  by_contra hnot
  obtain ⟨status, hstatus, -⟩ := h unterminated
  rw [check_overrun hnot] at hstatus
  cases hstatus

namespace Request

variable (request : Request)

/-- An image of the name that the fuse state allows. -/
def candidate (imageInfo : ImageInfo) : Bool :=
  request.name = imageInfo.name && fwPackageUpdateModeIsOk imageInfo request.isProductionFused

def unqualified (imageInfo : ImageInfo) : Bool := imageInfo.tnSpec.chars = []

def matchesFull (imageInfo : ImageInfo) : Bool :=
  request.fullSpec.any fun fullSpec => Matches fullSpec imageInfo.tnSpec

def matchesCompat (imageInfo : ImageInfo) : Bool :=
  request.compatSpec.any fun compatSpec => Matches compatSpec imageInfo.tnSpec

/-- The image to find: the first that matches the full spec, or else the first that is unqualified
or matches the compat spec. -/
def wanted (imageInfos : List ImageInfo) : Option Nat :=
  (imageInfos.findIdx? fun i => request.candidate i && request.matchesFull i).or
    (imageInfos.findIdx? fun i =>
      request.candidate i && (unqualified i || request.matchesCompat i))

/-- The image the code finds when the matcher works. -/
def found (imageInfos : List ImageInfo) : Option Nat :=
  (imageInfos.findIdx? fun i =>
    request.candidate i && (!unqualified i && request.matchesFull i)).or
    (imageInfos.findIdx? fun i =>
      request.candidate i &&
        (unqualified i || (request.compatSpec.isNone || request.matchesCompat i)))

def Comparable : List ImageInfo → Prop
  | [] => True
  | imageInfo :: rest =>
    if request.candidate imageInfo && !unqualified imageInfo then
      (∀ fullSpec ∈ request.fullSpec, Fits fullSpec ∧ Fits imageInfo.tnSpec) ∧
        (request.matchesFull imageInfo = false →
          (∀ compatSpec ∈ request.compatSpec, Fits compatSpec ∧ Fits imageInfo.tnSpec) ∧
            Comparable rest)
    else Comparable rest

end Request

variable {request : Request} {imageInfo : ImageInfo}

theorem check_full (h : ∀ fullSpec ∈ request.fullSpec, Fits fullSpec ∧ Fits imageInfo.tnSpec)
    (stack : Stack) : ∃ status, checkFullSpec stack request imageInfo = some status ∧
      (status = .success ↔ request.matchesFull imageInfo = true) := by
  unfold Request.matchesFull checkFullSpec
  cases hspec : request.fullSpec with
  | none => exact ⟨_, rfl, iff_of_false (fun h => by cases h) (by simp)⟩
  | some fullSpec =>
    obtain ⟨hfull, htnSpec⟩ := h fullSpec hspec
    obtain ⟨status, hstatus, hiff⟩ := decides_of_fits hfull htnSpec stack
    exact ⟨status, hstatus, hiff.trans (by simp)⟩

theorem check_compat
    (h : ∀ compatSpec ∈ request.compatSpec, Fits compatSpec ∧ Fits imageInfo.tnSpec)
    (stack : Stack) : ∃ status, checkCompatSpec stack request imageInfo = some status ∧
      (status = .success ↔
        (request.compatSpec.isNone || request.matchesCompat imageInfo) = true) := by
  unfold Request.matchesCompat checkCompatSpec
  cases hspec : request.compatSpec with
  | none => exact ⟨_, rfl, iff_of_true rfl (by simp)⟩
  | some compatSpec =>
    obtain ⟨hcompat, htnSpec⟩ := h compatSpec hspec
    obtain ⟨status, hstatus, hiff⟩ := decides_of_fits hcompat htnSpec stack
    exact ⟨status, hstatus, hiff.trans (by simp)⟩

/-- The loop finds what `found` says, behind what it has found already. -/
theorem getImageIndexLoop_eq {imageInfos : List ImageInfo} (h : request.Comparable imageInfos)
    (stack : Stack) (index : Nat) (before : Option Nat) :
    getImageIndexLoop stack request imageInfos index before =
      some (((imageInfos.findIdx? fun i =>
          request.candidate i && (!Request.unqualified i && request.matchesFull i)).map
            (· + index)).or (before.or ((imageInfos.findIdx? fun i => request.candidate i &&
              (Request.unqualified i || (request.compatSpec.isNone || request.matchesCompat i))).map
                (· + index)))) := by
  induction imageInfos generalizing index before with
  | nil => simp [getImageIndexLoop]
  | cons imageInfo rest ih =>
    have hshift : ∀ o : Option Nat, (o.map (· + 1)).map (· + index) = o.map (· + (index + 1)) :=
      fun o => by cases o <;> simp [Nat.add_assoc, Nat.add_comm 1]
    rw [List.findIdx?_cons, List.findIdx?_cons]
    unfold Request.Comparable at h
    unfold getImageIndexLoop
    by_cases hname : request.name = imageInfo.name
    · rw [if_neg (not_not.mpr hname)]
      by_cases hmode : fwPackageUpdateModeIsOk imageInfo request.isProductionFused = true
      · rw [if_neg (not_not.mpr hmode)]
        have hcandidate : request.candidate imageInfo = true := by
          simp [Request.candidate, hname, hmode]
        by_cases hqualified : 0 < imageInfo.tnSpec.chars.length
        · rw [if_pos hqualified]
          have hunqualified : Request.unqualified imageInfo = false := by
            simpa [Request.unqualified] using List.ne_nil_of_length_pos hqualified
          rw [if_pos (by simp [hcandidate, hunqualified])] at h
          obtain ⟨full, hfull, hfull'⟩ := check_full h.1 stack
          simp only [hfull, Option.bind_eq_bind, Option.bind_some, hcandidate, hunqualified,
            Bool.true_and, Bool.not_false, Bool.false_or]
          by_cases hmatches : request.matchesFull imageInfo = true
          · rw [if_pos (hfull'.mpr hmatches)]
            simp [hmatches]
          · rw [if_neg (mt hfull'.mp hmatches)]
            obtain ⟨hcompats, hrest⟩ := h.2 (by simpa using hmatches)
            obtain ⟨compat, hcompat, hcompat'⟩ := check_compat hcompats stack
            simp only [hcompat, Option.bind_some]
            by_cases hcompatible : (request.compatSpec.isNone ||
                request.matchesCompat imageInfo) = true
            · rw [if_neg (not_not.mpr (hcompat'.mpr hcompatible)), ih hrest]
              simp [hmatches, hcompatible, hshift]
            · rw [if_pos (mt hcompat'.mp hcompatible), ih hrest]
              simp [hmatches, hcompatible, hshift]
        · rw [if_neg hqualified]
          have hunqualified : Request.unqualified imageInfo = true := by
            simpa [Request.unqualified] using hqualified
          rw [if_neg (by simp [hunqualified])] at h
          rw [ih h]
          simp [hcandidate, hunqualified, hshift]
      · rw [if_pos hmode]
        have hcandidate : request.candidate imageInfo = false := by
          simp [Request.candidate, hmode]
        rw [if_neg (by simp [hcandidate])] at h
        rw [ih h]
        simp [hcandidate, hshift]
    · rw [if_pos hname]
      have hcandidate : request.candidate imageInfo = false := by
        simp [Request.candidate, hname]
      rw [if_neg (by simp [hcandidate])] at h
      rw [ih h]
      simp [hcandidate, hshift]

theorem getImageIndexLoop_overrun {imageInfos : List ImageInfo}
    (h : ¬ request.Comparable imageInfos) (index : Nat) (before : Option Nat) :
    getImageIndexLoop unterminated request imageInfos index before = none := by
  induction imageInfos generalizing index before with
  | nil => exact absurd trivial h
  | cons imageInfo rest ih =>
    unfold Request.Comparable at h
    unfold getImageIndexLoop
    by_cases hname : request.name = imageInfo.name
    · rw [if_neg (not_not.mpr hname)]
      by_cases hmode : fwPackageUpdateModeIsOk imageInfo request.isProductionFused = true
      · rw [if_neg (not_not.mpr hmode)]
        have hcandidate : request.candidate imageInfo = true := by
          simp [Request.candidate, hname, hmode]
        by_cases hqualified : 0 < imageInfo.tnSpec.chars.length
        · rw [if_pos hqualified]
          have hunqualified : Request.unqualified imageInfo = false := by
            simpa [Request.unqualified] using List.ne_nil_of_length_pos hqualified
          rw [if_pos (by simp [hcandidate, hunqualified])] at h
          by_cases hfulls : ∀ fullSpec ∈ request.fullSpec, Fits fullSpec ∧ Fits imageInfo.tnSpec
          · obtain ⟨full, hfull, hfull'⟩ := check_full hfulls unterminated
            simp only [hfull, Option.bind_eq_bind, Option.bind_some]
            obtain ⟨hmatches, hrest⟩ := Classical.not_imp.mp (not_and.mp h hfulls)
            rw [if_neg (fun hsuccess => by
              rw [hfull'.mp hsuccess] at hmatches
              cases hmatches)]
            by_cases hcompats : ∀ compatSpec ∈ request.compatSpec,
                Fits compatSpec ∧ Fits imageInfo.tnSpec
            · obtain ⟨compat, hcompat, -⟩ := check_compat hcompats unterminated
              have hrest := not_and.mp hrest hcompats
              simp only [hcompat, Option.bind_some, ih hrest, ite_self]
            · obtain ⟨compatSpec, hspec, hfits⟩ := by simpa using hcompats
              simp only [checkCompatSpec, hspec, check_overrun (not_and.mpr hfits)]
              rfl
          · obtain ⟨fullSpec, hspec, hfits⟩ := by simpa using hfulls
            simp only [checkFullSpec, hspec, check_overrun (not_and.mpr hfits)]
            rfl
        · rw [if_neg hqualified]
          have hunqualified : Request.unqualified imageInfo = true := by
            simpa [Request.unqualified] using hqualified
          rw [if_neg (by simp [hunqualified])] at h
          exact ih h _ _
      · rw [if_pos hmode]
        have hcandidate : request.candidate imageInfo = false := by
          simp [Request.candidate, hmode]
        rw [if_neg (by simp [hcandidate])] at h
        exact ih h _ _
    · rw [if_pos hname]
      have hcandidate : request.candidate imageInfo = false := by
        simp [Request.candidate, hname]
      rw [if_neg (by simp [hcandidate])] at h
      exact ih h _ _

section
variable {α : Type} (p q : α → Bool) (l : List α)

/-- A weaker test finds the same element unless it accepts one before it. -/
theorem findIdx?_or_eq_iff (h : l.any p = true) :
    (l.findIdx? fun x => p x || q x) = l.findIdx? p ↔
      ((l.takeWhile fun x => !p x).all fun x => !q x) = true := by
  induction l with
  | nil => cases h
  | cons x l ih =>
    rw [List.findIdx?_cons, List.findIdx?_cons]
    cases hp : p x with
    | true => simp [hp]
    | false =>
      have hany : l.any p = true := by simpa [hp] using h
      cases hq : q x with
      | true =>
        simp only [Bool.or_true, if_true, Bool.false_eq_true, if_false]
        cases l.findIdx? p <;> simp [hp, hq]
      | false =>
        rw [List.takeWhile_cons_of_pos (by simp [hp]), List.all_cons, hq, Bool.not_false,
          Bool.true_and, ← ih hany]
        simp only [Bool.or_self, Bool.false_eq_true, if_false]
        exact (Option.map_injective fun a b hab => Nat.succ.inj hab).eq_iff

theorem findIdx?_or_of_none (h : l.any p = false) :
    (l.findIdx? fun x => p x || q x) = l.findIdx? q := by
  induction l with
  | nil => rfl
  | cons x l ih =>
    obtain ⟨hp, hany⟩ : p x = false ∧ l.any p = false := by
      rw [List.any_cons, Bool.or_eq_false_iff] at h
      exact h
    rw [List.findIdx?_cons, List.findIdx?_cons, ih hany, hp, Bool.false_or]

theorem findIdx?_none_of_any (h : l.any p = false) : l.findIdx? p = none := by
  rw [List.findIdx?_eq_none_iff]
  intro x hx
  simpa using List.any_eq_false.mp h x hx

theorem findIdx?_isSome_of_any (h : l.any p = true) : ∃ i, l.findIdx? p = some i := by
  rw [← Option.isSome_iff_exists, List.findIdx?_isSome]
  exact h

/-- A stronger test finds the same element if and only if it accepts that one. -/
theorem findIdx?_and_eq_iff :
    (l.findIdx? fun x => p x && q x) = l.findIdx? p ↔ ∀ x ∈ l.find? p, q x = true := by
  induction l with
  | nil => simp
  | cons x l ih =>
    rw [List.findIdx?_cons, List.findIdx?_cons, List.find?_cons]
    cases hp : p x with
    | true =>
      cases hq : q x with
      | true => simp [hq]
      | false =>
        simp only [Bool.and_false, Bool.false_eq_true, if_false, if_true]
        cases (l.findIdx? fun x => p x && q x) <;> simp [hq]
    | false =>
      rw [← ih]
      simp only [Bool.false_and, Bool.false_eq_true, if_false]
      exact (Option.map_injective fun a b hab => Nat.succ.inj hab).eq_iff

end

namespace Request

variable (request : Request)

/-- Whether a full spec is given that an empty TnSpec matches: one without dashes. -/
def singleField : Bool := request.fullSpec.any fun fullSpec => fullSpec.chars.count dash = 0

/-- Whether the image found is the one wanted. Candidates without TnSpec must not come before a
qualified match of a full spec that has a single field, nor be preceded then by a match of the
compat spec; and without compat spec and match, the first candidate must be one without TnSpec. -/
def Preferred (imageInfos : List ImageInfo) : Prop :=
  if imageInfos.any fun i => request.candidate i && (!unqualified i && request.matchesFull i) then
    request.singleField = true →
      ((imageInfos.takeWhile fun i =>
          !(request.candidate i && (!unqualified i && request.matchesFull i))).all
        fun i => !(request.candidate i && unqualified i)) = true
  else if request.compatSpec.isSome then
    request.singleField = true →
      (imageInfos.any fun i => request.candidate i && unqualified i) = true →
      ((imageInfos.takeWhile fun i => !(request.candidate i && unqualified i)).all
        fun i => !(request.candidate i && request.matchesCompat i)) = true
  else ∀ i ∈ imageInfos.find? request.candidate, unqualified i = true

end Request

theorem matches_empty {spec other : CString} (h : other.chars = []) :
    Matches spec other ↔ spec.chars.count dash = 0 := by
  have hfields : fields other = [[]] := by
    rw [fields, h]
    rfl
  have hlength := length_splitOn dash spec.chars
  unfold Matches
  rw [hfields]
  cases hspec : fields spec with
  | nil =>
    rw [fields] at hspec
    rw [hspec] at hlength
    simp at hlength
  | cons field rest =>
    rw [fields] at hspec
    rw [hspec, List.length_cons] at hlength
    cases rest with
    | nil => simpa using hlength.symm
    | cons next rest =>
      rw [List.length_cons] at hlength
      refine iff_of_false (fun h => ?_) (by omega)
      have hcount := h.length_eq
      simp at hcount

theorem matchesFull_unqualified (h : Request.unqualified imageInfo = true) :
    request.matchesFull imageInfo = request.singleField := by
  have hempty : imageInfo.tnSpec.chars = [] := by simpa [Request.unqualified] using h
  unfold Request.matchesFull Request.singleField
  cases request.fullSpec with
  | none => rfl
  | some fullSpec => simp [matches_empty hempty]

theorem wanted_full (request : Request) :
    (fun i => request.candidate i && request.matchesFull i) = fun i =>
      (request.candidate i && (!Request.unqualified i && request.matchesFull i)) ||
        (request.candidate i && Request.unqualified i && request.singleField) := by
  funext i
  cases hunqualified : Request.unqualified i with
  | true =>
    rw [matchesFull_unqualified hunqualified]
    cases request.candidate i <;> simp
  | false => cases request.candidate i <;> simp

theorem wanted_compat (request : Request) :
    (fun i => request.candidate i && (Request.unqualified i || request.matchesCompat i)) = fun i =>
      (request.candidate i && Request.unqualified i) ||
        (request.candidate i && request.matchesCompat i) := by
  funext i
  exact Bool.and_or_distrib_left _ _ _

theorem wanted_eq_found_iff (imageInfos : List ImageInfo) :
    request.wanted imageInfos = request.found imageInfos ↔ request.Preferred imageInfos := by
  unfold Request.wanted Request.found Request.Preferred
  rw [wanted_full, wanted_compat]
  generalize hqualified : (fun i => request.candidate i &&
    (!Request.unqualified i && request.matchesFull i)) = qualified
  have hor : ∀ i, (request.candidate i && (!Request.unqualified i && request.matchesFull i)) =
      qualified i := fun i => congrFun hqualified i
  simp only [hor]
  cases hmatch : imageInfos.any qualified with
  | true =>
    obtain ⟨found, hfound⟩ := findIdx?_isSome_of_any qualified imageInfos hmatch
    rw [if_pos rfl, hfound, Option.some_or]
    cases hsingle : request.singleField with
    | false =>
      simp only [Bool.and_false, Bool.or_false, hfound, Option.some_or, Bool.false_eq_true,
        false_implies]
    | true =>
      have hiff := findIdx?_or_eq_iff qualified
        (fun i => request.candidate i && Request.unqualified i) imageInfos hmatch
      rw [hfound] at hiff
      simp only [Bool.and_true, true_implies, ← hiff]
      cases hwanted : imageInfos.findIdx? fun i =>
          qualified i || (request.candidate i && Request.unqualified i) with
      | some wanted => rfl
      | none =>
        have hnone := List.findIdx?_eq_none_iff.mp hwanted
        obtain ⟨i, hi, hi'⟩ := List.any_eq_true.mp hmatch
        have hi'' := hnone i hi
        rw [hi'] at hi''
        cases hi''
  | false =>
    rw [if_neg Bool.false_ne_true, findIdx?_none_of_any qualified imageInfos hmatch, Option.none_or,
      findIdx?_or_of_none _ _ _ hmatch]
    cases hspec : request.compatSpec with
    | some compatSpec =>
      have hcompat : (fun i => request.candidate i && (Request.unqualified i ||
          ((some compatSpec).isNone || request.matchesCompat i))) = fun i =>
            (request.candidate i && Request.unqualified i) ||
              (request.candidate i && request.matchesCompat i) := by
        rw [← wanted_compat]
        simp
      rw [hcompat, if_pos Option.isSome_some]
      cases hsingle : request.singleField with
      | false =>
        simp only [Bool.and_false, Bool.false_eq_true, false_implies, iff_true]
        rw [findIdx?_none_of_any _ _ (List.any_eq_false.mpr fun _ _ => Bool.false_ne_true)]
        rfl
      | true =>
        simp only [Bool.and_true, true_implies]
        cases hany : imageInfos.any fun i => request.candidate i && Request.unqualified i with
        | true =>
          obtain ⟨first, hfirst⟩ := findIdx?_isSome_of_any _ imageInfos hany
          rw [← findIdx?_or_eq_iff _ _ _ hany, hfirst, Option.some_or]
          simp only [true_implies]
          exact eq_comm
        | false =>
          rw [findIdx?_none_of_any _ _ hany, Option.none_or]
          simp
    | none =>
      have hcompat : ∀ i, request.matchesCompat i = false := fun i => by
        simp [Request.matchesCompat, hspec]
      have hand := findIdx?_and_eq_iff request.candidate Request.unqualified imageInfos
      rw [← hand, if_neg (by simp)]
      simp only [hcompat, Bool.and_false, Bool.or_false, Option.isNone_none,
        Bool.or_true, Bool.and_true]
      cases hsingle : request.singleField with
      | false =>
        simp only [Bool.and_false]
        rw [findIdx?_none_of_any _ _ (List.any_eq_false.mpr fun _ _ => Bool.false_ne_true)]
        rfl
      | true => simp only [Bool.and_true, Option.or_self]

/-- The image wanted is found, whatever the stack holds. -/
def Selects (request : Request) (imageInfos : List ImageInfo) : Prop :=
  ∀ stack, fwPackageGetImageIndex stack request imageInfos =
    some (match request.wanted imageInfos with
      | some index => .ok index
      | none => .error .notFound)

theorem selects_iff (request : Request) (imageInfos : List ImageInfo) :
    Selects request imageInfos ↔
      request.Comparable imageInfos ∧ request.Preferred imageInfos := by
  have hresult : request.Comparable imageInfos → ∀ stack,
      fwPackageGetImageIndex stack request imageInfos =
        some (match request.found imageInfos with
          | some index => .ok index
          | none => .error .notFound) := fun hcomparable stack => by
    unfold fwPackageGetImageIndex
    rw [getImageIndexLoop_eq hcomparable]
    simp only [Nat.add_zero, Option.map_id', Option.none_or, Option.map_some]
    rfl
  rw [← wanted_eq_found_iff]
  constructor
  · intro h
    have hcomparable : request.Comparable imageInfos := by
      by_contra hnot
      have hsome := h unterminated
      unfold fwPackageGetImageIndex at hsome
      rw [getImageIndexLoop_overrun hnot] at hsome
      cases hsome
    refine ⟨hcomparable, ?_⟩
    have hsame := h unterminated
    rw [hresult hcomparable] at hsame
    revert hsame
    cases request.wanted imageInfos <;> cases request.found imageInfos <;> intro hsame <;>
      cases hsame <;> rfl
  · rintro ⟨hcomparable, hsame⟩ stack
    rw [hsame]
    exact hresult hcomparable stack

/-- The matcher and the selection together. -/
theorem tnSpec_law (a b : CString) (request : Request) (imageInfos : List ImageInfo) :
    Decides a b ∧ Selects request imageInfos ↔
      (Fits a ∧ Fits b) ∧ request.Comparable imageInfos ∧ request.Preferred imageInfos :=
  and_congr (decides_iff a b) (selects_iff request imageInfos)

def dashes (count : Nat) : CString :=
  ⟨List.replicate count dash, fun c hc => by rw [List.eq_of_mem_replicate hc]; decide⟩

def qualifiedImage : ImageInfo :=
  ⟨CString.first [120], 0, CString.first [49, 45, 50]⟩

/-- The full spec is "1-3", and there is no compat spec. -/
def fullOnly : Request := ⟨CString.first [120], false, none, some (CString.first [49, 45, 51])⟩

/-- 63 dashes overrun the tokens, and an image of another board is selected when there is no compat
spec. -/
theorem not_selects : ¬ Decides (dashes 63) (dashes 63) ∧ ¬ Selects fullOnly [qualifiedImage] := by
  refine ⟨fun h => ?_, fun h => ?_⟩
  · exact absurd ((decides_iff _ _).mp h).1.dashes (by decide)
  · exact absurd (h unterminated) (by decide)

end FwPackage
