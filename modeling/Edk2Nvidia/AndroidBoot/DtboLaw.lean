import Edk2Nvidia.AndroidBoot.DtboImage
import Mathlib.Data.List.Chain

/-! When the overlays of an image are applied as they are chosen. The walk is compared with the tries
at the offsets of the entries: it is always the tries at the addresses it comes to. -/
namespace AndroidBootDxe
open Flash (Memory overwrite slice)
open FwPartition (u64)

/-! Choosing the entries. -/

/-- Behind the first match the loop counts up to a gap, and all other matches are behind the gap. -/
theorem matchLoop_run (hit : Nat → Bool) (left count first matched : Nat) :
    ∃ k more, matchLoop hit left count first (matched + 1) = (first, matched + 1 + k) ∧
      (List.range' count left).filter hit = List.range' count k ++ more ∧
      ∀ j ∈ more, count + k < j := by
  induction left generalizing count matched with
  | zero => exact ⟨0, [], rfl, by simp, by simp⟩
  | succ left ih =>
    by_cases h : hit count
    · obtain ⟨k, more, hloop, hfilter, hmore⟩ := ih (count + 1) (matched + 1)
      refine ⟨k + 1, more, ?_, ?_, ?_⟩
      · rw [matchLoop, if_pos h, if_neg (by omega), hloop, Nat.add_assoc _ 1 k, Nat.add_comm 1 k]
      · rw [List.range'_succ, List.filter_cons_of_pos h, hfilter, List.range'_succ,
          List.cons_append]
      · intro j hj
        have := hmore j hj
        omega
    · refine ⟨0, (List.range' (count + 1) left).filter hit, ?_, ?_, ?_⟩
      · rw [matchLoop, if_neg h, if_pos (by omega)]
      · rw [List.range'_succ, List.filter_cons_of_neg h]
        rfl
      · intro j hj
        have := (List.mem_range'_1.mp (List.mem_filter.mp hj).1).1
        omega

theorem matchLoop_finds (hit : Nat → Bool) (left count first : Nat) :
    ∃ found k more, matchLoop hit left count first 0 = (found, k) ∧
      (List.range' count left).filter hit = List.range' found k ++ more ∧
      (∀ j ∈ more, found + k < j) ∧ (k = 0 → more = []) := by
  induction left generalizing count with
  | zero => exact ⟨first, 0, [], rfl, by simp, by simp, by simp⟩
  | succ left ih =>
    by_cases h : hit count
    · obtain ⟨k, more, hloop, hfilter, hmore⟩ := matchLoop_run hit left (count + 1) count 0
      refine ⟨count, k + 1, more, ?_, ?_, ?_, by omega⟩
      · rw [matchLoop, if_pos h, if_pos rfl, hloop, Nat.zero_add, Nat.add_comm]
      · rw [List.range'_succ, List.filter_cons_of_pos h, hfilter, List.range'_succ,
          List.cons_append]
      · intro j hj
        have := hmore j hj
        omega
    · obtain ⟨found, k, more, hloop, hfilter, hmore⟩ := ih (count + 1)
      refine ⟨found, k, more, ?_, ?_, hmore⟩
      · rw [matchLoop, if_neg h, if_neg (by simp), hloop]
      · rw [List.range'_succ, List.filter_cons_of_neg h, hfilter]

theorem extract_ok {platform : DtboPlatform} {m : Memory} {range : DtboRange}
    (h : extractDtbofromDtboImg platform m = .ok range) :
    range.dtbo = dtOffset m range.dtboStartIdx ∧ 0 < range.dtboCount ∧
      ∃ more, selected platform m = List.range' range.dtboStartIdx range.dtboCount ++ more ∧
        ∀ j ∈ more, range.dtboStartIdx + range.dtboCount < j := by
  unfold extractDtbofromDtboImg at h
  unfold selected
  by_cases hmagic : dtbImgMagic m ≠ dtbImageMagic
  · simp [hmagic] at h
  · rw [if_neg hmagic] at h ⊢
    by_cases hzero : dtEntryCount m = 0
    · simp [hzero] at h
    · by_cases hone : dtEntryCount m = 1
      · simp only [hone, Nat.one_ne_zero, if_false, if_true, Except.ok.injEq] at h
        subst h
        exact ⟨rfl, Nat.one_pos, [], by simp [hone], by simp⟩
      · simp only [hzero, hone, if_false, false_or] at h ⊢
        by_cases hmode : platform.hypervisorMode
        · simp only [hmode, if_true, Except.ok.injEq] at h ⊢
          subst h
          exact ⟨rfl, Nat.pos_of_ne_zero hzero, [], by simp [List.range_eq_range'], by simp⟩
        · rw [if_neg hmode] at h ⊢
          cases hboard : platform.boardInfo with
          | none =>
            simp only [hboard, Except.ok.injEq] at h
            subst h
            exact ⟨rfl, Nat.pos_of_ne_zero hzero, [], by simp [List.range_eq_range'], by simp⟩
          | some board =>
            simp only [hboard] at h
            obtain ⟨found, k, more, hloop, hfilter, hmore, -⟩ :=
              matchLoop_finds (matchDtEntry m board) (dtEntryCount m) 0 (dtEntryCount m)
            rw [hloop] at h
            by_cases hk : k = 0
            · simp [hk] at h
            · simp only [hk, if_false, Except.ok.injEq] at h
              subst h
              exact ⟨rfl, Nat.pos_of_ne_zero hk, more, by simpa [List.range_eq_range'] using hfilter,
                hmore⟩

theorem extract_error {platform : DtboPlatform} {m : Memory} {status : EfiStatus}
    (h : extractDtbofromDtboImg platform m = .error status) : selected platform m = [] := by
  unfold extractDtbofromDtboImg at h
  unfold selected
  by_cases hmagic : dtbImgMagic m ≠ dtbImageMagic
  · rw [if_pos hmagic]
  · rw [if_neg hmagic] at h ⊢
    by_cases hzero : dtEntryCount m = 0
    · rw [hzero]
      simp only [List.range_zero, List.filter_nil]
      split
      · rfl
      · split <;> rfl
    · by_cases hone : dtEntryCount m = 1
      · simp [hone] at h
      · simp only [hzero, hone, if_false, false_or] at h ⊢
        by_cases hmode : platform.hypervisorMode
        · simp [hmode] at h
        · rw [if_neg hmode] at h ⊢
          cases hboard : platform.boardInfo with
          | none => simp [hboard] at h
          | some board =>
            simp only [hboard] at h
            obtain ⟨found, k, more, hloop, hfilter, -, hnone⟩ :=
              matchLoop_finds (matchDtEntry m board) (dtEntryCount m) 0 (dtEntryCount m)
            rw [hloop] at h
            by_cases hk : k = 0
            · simpa [hk, hnone hk, List.range_eq_range'] using hfilter
            · simp [hk] at h

theorem Consecutive.no_more {first count : Nat} {more : List Nat} (hcount : 0 < count)
    (h : Consecutive (List.range' first count ++ more))
    (hmore : ∀ j ∈ more, first + count < j) : more = [] := by
  obtain ⟨start, hrun⟩ := h
  cases more with
  | nil => rfl
  | cons j rest =>
    obtain ⟨n, rfl⟩ := Nat.exists_eq_add_of_lt hcount
    have hlast := congrArg (fun l => l[0 + n + 1]?) hrun
    have hfirst := congrArg (fun l => l[0]?) hrun
    simp only [List.length_append, List.length_range', List.length_cons] at hlast hfirst
    rw [List.getElem?_append_right (by simp), List.getElem?_range' (by omega)] at hlast
    rw [List.getElem?_append_left (by simp), List.getElem?_range' (by omega),
      List.getElem?_range' (by omega)] at hfirst
    simp at hlast hfirst
    have := hmore j (by simp)
    omega

/-! The tries. -/

theorem tryOverlay_address (lib : FdtLib) (allocated : Bool) (dtb image : Memory) (a : Nat) :
    (tryOverlay lib allocated dtb image a).address = a := by
  simp only [tryOverlay]
  split
  · rfl
  · split <;> rfl

/-- What fails leaves the tree as it was, whatever the library did to it. -/
theorem tryOverlay_restores (lib : FdtLib) (allocated : Bool) (dtb image : Memory) (a : Nat)
    (h : (tryOverlay lib allocated dtb image a).applied = false) :
    (tryOverlay lib allocated dtb image a).after =
      (tryOverlay lib allocated dtb image a).before := by
  simp only [tryOverlay] at h ⊢
  split
  · rfl
  · rename_i hvalid
    rw [if_neg hvalid] at h
    split at h
    · rename_i hstatus
      rw [if_pos hstatus]
      funext x
      show overwrite (lib.fdtOverlayApply dtb image a).2.1 0 (slice dtb 0 (fdtTotalSize dtb 0)) x =
        dtb x
      by_cases hx : x < fdtTotalSize dtb 0
      · have hinside := Flash.overwrite_inside (lib.fdtOverlayApply dtb image a).2.1 0
          (slice dtb 0 (fdtTotalSize dtb 0)) x (by simpa using hx) 0
        rw [Flash.getD_slice _ _ _ _ _ hx] at hinside
        simpa using hinside
      · rw [Flash.overwrite_outside _ _ _ _ (.inr (by simpa using hx))]
        exact lib.confined dtb image a x (by omega)
    · cases h

section
variable {lib : FdtLib} {allocatePool : Nat → Bool}

theorem triesAt_restores (entries : List (Nat × Nat)) (dtb image : Memory) :
    ∀ t ∈ triesAt lib allocatePool entries dtb image, t.applied = false → t.after = t.before := by
  induction entries generalizing dtb image with
  | nil => simp [triesAt]
  | cons entry rest ih =>
    obtain ⟨i, a⟩ := entry
    intro t ht
    rw [triesAt, List.mem_cons] at ht
    rcases ht with rfl | ht
    · exact tryOverlay_restores lib _ dtb image a
    · exact ih _ _ t ht

theorem triesAt_addresses (entries : List (Nat × Nat)) (dtb image : Memory) :
    (triesAt lib allocatePool entries dtb image).map (·.address) = entries.map (·.2) := by
  induction entries generalizing dtb image with
  | nil => rfl
  | cons entry rest ih =>
    rw [triesAt, List.map_cons, List.map_cons, ih, tryOverlay_address]

/-! The loop. -/

theorem applyLoop_ends (left : Nat) {currentIdx fdtNext : Nat} {dtb image : Memory}
    {text : List UInt8} (h : (tryOverlay lib (allocatePool currentIdx) dtb image fdtNext).record
      text currentIdx = none) :
    applyLoop lib allocatePool (left + 1) currentIdx fdtNext dtb image text =
      ([tryOverlay lib (allocatePool currentIdx) dtb image fdtNext], text) := by
  simp only [applyLoop, h]

theorem applyLoop_goes (left : Nat) {currentIdx fdtNext : Nat} {dtb image : Memory}
    {text text' : List UInt8}
    (h : (tryOverlay lib (allocatePool currentIdx) dtb image fdtNext).record text currentIdx =
      some text') :
    applyLoop lib allocatePool (left + 1) currentIdx fdtNext dtb image text =
      let t := tryOverlay lib (allocatePool currentIdx) dtb image fdtNext
      let rest := applyLoop lib allocatePool left (currentIdx + 1) t.next t.after t.image text'
      (t :: rest.1, rest.2) := by
  simp only [applyLoop, h]

theorem applyLoop_tries (left currentIdx fdtNext : Nat) (dtb image : Memory)
    (text : List UInt8) :
    let log := (applyLoop lib allocatePool left currentIdx fdtNext dtb image text).1
    log = triesAt lib allocatePool
      ((List.range' currentIdx left).zip (log.map (·.address))) dtb image := by
  induction left generalizing currentIdx fdtNext dtb image text with
  | zero => rfl
  | succ left ih =>
    cases h : (tryOverlay lib (allocatePool currentIdx) dtb image fdtNext).record text
      currentIdx with
    | none =>
      rw [applyLoop_ends left h, List.range'_succ]
      simp only [List.map_cons, List.map_nil, List.zip_cons_cons, List.zip_nil_right, triesAt,
        tryOverlay_address]
    | some text' =>
      rw [applyLoop_goes left h, List.range'_succ]
      simp only [List.map_cons, List.zip_cons_cons, triesAt, tryOverlay_address]
      rw [← ih]

theorem applyLoop_walks (left currentIdx fdtNext : Nat) (dtb image : Memory)
    (text : List UInt8) :
    let log := (applyLoop lib allocatePool left currentIdx fdtNext dtb image text).1
    (∀ t ∈ log.head?, t.address = fdtNext) ∧ log.IsChain fun t t' => t'.address = t.next := by
  induction left generalizing currentIdx fdtNext dtb image text with
  | zero => exact ⟨by simp [applyLoop], List.isChain_nil⟩
  | succ left ih =>
    cases h : (tryOverlay lib (allocatePool currentIdx) dtb image fdtNext).record text
      currentIdx with
    | none =>
      rw [applyLoop_ends left h]
      exact ⟨by rintro t ⟨⟩; exact tryOverlay_address .., List.isChain_singleton _⟩
    | some text' =>
      rw [applyLoop_goes left h]
      obtain ⟨hhead, hchain⟩ := ih (currentIdx + 1)
        (tryOverlay lib (allocatePool currentIdx) dtb image fdtNext).next
        (tryOverlay lib (allocatePool currentIdx) dtb image fdtNext).after
        (tryOverlay lib (allocatePool currentIdx) dtb image fdtNext).image text'
      exact ⟨by rintro t ⟨⟩; exact tryOverlay_address .., List.isChain_cons.mpr ⟨hhead, hchain⟩⟩

theorem length_applyLoop_le (left currentIdx fdtNext : Nat) (dtb image : Memory)
    (text : List UInt8) :
    (applyLoop lib allocatePool left currentIdx fdtNext dtb image text).1.length ≤ left := by
  induction left generalizing currentIdx fdtNext dtb image text with
  | zero => exact Nat.le_refl 0
  | succ left ih =>
    cases h : (tryOverlay lib (allocatePool currentIdx) dtb image fdtNext).record text
      currentIdx with
    | none =>
      rw [applyLoop_ends left h]
      simp
    | some text' =>
      rw [applyLoop_goes left h]
      exact Nat.succ_le_succ (ih _ _ _ _ _)

end

/-! The text. -/

/-- The text with every index as one character. -/
def codeText : List Nat → List UInt8
  | [] => []
  | i :: rest => idxChar i :: rest.flatMap fun j => [0x2C, idxChar j]

theorem length_codeText (indices : List Nat) : (codeText indices).length = 2 * indices.length - 1 := by
  cases indices with
  | nil => rfl
  | cons i rest =>
    simp only [codeText, List.length_cons, List.length_flatMap, List.length_nil, List.map_const',
      List.sum_replicate_nat]
    omega

theorem codeText_append (indices : List Nat) (i : Nat) (h : indices ≠ []) :
    codeText (indices ++ [i]) = codeText indices ++ [0x2C, idxChar i] := by
  cases indices with
  | nil => contradiction
  | cons j rest => simp [codeText]

theorem recordIdx_codeText (done : List Nat) (i : Nat) :
    recordIdx (codeText done) i =
      if done.length < 5 then some (codeText (done ++ [i])) else none := by
  unfold recordIdx
  rw [length_codeText]
  by_cases hnil : done = []
  · subst hnil
    rfl
  · have hpos := List.length_pos_iff.mpr hnil
    rw [if_neg (by omega), codeText_append done i hnil]
    by_cases hfive : done.length < 5
    · rw [if_pos hfive, if_pos (by simp only [maxAndroidBootDtboIdx]; omega)]
    · rw [if_neg hfive, if_neg (by simp only [maxAndroidBootDtboIdx]; omega)]

theorem appliedOf_cons (i : Nat) (indices : List Nat) (t : Try) (log : List Try) :
    appliedOf (i :: indices) (t :: log) =
      (if t.applied then [i] else []) ++ appliedOf indices log := by
  unfold appliedOf
  rw [List.zip_cons_cons, List.filter_cons]
  split <;> rfl

section
variable {lib : FdtLib} {allocatePool : Nat → Bool}

theorem applyLoop_text (left currentIdx fdtNext : Nat) (dtb image : Memory) (done : List Nat)
    (h : done.length ≤ 5) :
    let result := applyLoop lib allocatePool left currentIdx fdtNext dtb image (codeText done)
    result.2 = codeText ((done ++ appliedOf (List.range' currentIdx left) result.1).take 5) := by
  induction left generalizing currentIdx fdtNext dtb image done with
  | zero =>
    simp only [applyLoop, appliedOf, List.zip_nil_right, List.filter_nil, List.map_nil,
      List.append_nil, List.take_of_length_le h]
  | succ left ih =>
    cases happlied : (tryOverlay lib (allocatePool currentIdx) dtb image fdtNext).applied with
    | false =>
      have hrecord : (tryOverlay lib (allocatePool currentIdx) dtb image fdtNext).record
          (codeText done) currentIdx = some (codeText done) := by
        rw [Try.record, happlied]
        rfl
      rw [applyLoop_goes left hrecord, List.range'_succ]
      simp only [appliedOf_cons, happlied, Bool.false_eq_true, if_false, List.nil_append]
      exact ih _ _ _ _ done h
    | true =>
      have hrecord : (tryOverlay lib (allocatePool currentIdx) dtb image fdtNext).record
          (codeText done) currentIdx = recordIdx (codeText done) currentIdx := by
        rw [Try.record, happlied]
        rfl
      rw [recordIdx_codeText] at hrecord
      by_cases hfive : done.length < 5
      · rw [if_pos hfive] at hrecord
        rw [applyLoop_goes left hrecord, List.range'_succ]
        simp only [appliedOf_cons, happlied, if_true]
        rw [← List.append_assoc]
        exact ih _ _ _ _ (done ++ [currentIdx]) (by simp; omega)
      · rw [if_neg hfive] at hrecord
        rw [applyLoop_ends left hrecord]
        show codeText done = _
        have hfull : 5 = done.length := by omega
        rw [hfull, List.take_left]

/-- Where the tries at some addresses are a walk and the indices fit, they are what the loop makes. -/
theorem applyLoop_of_walk (currentIdx fdtNext : Nat) (dtb image : Memory) (done : List Nat)
    (addresses : List Nat)
    (hhead : ∀ a ∈ addresses.head?, a = fdtNext)
    (hchain : (triesAt lib allocatePool
      ((List.range' currentIdx addresses.length).zip addresses) dtb image).IsChain
        fun t t' => t'.address = t.next)
    (hfew : done.length + (appliedOf (List.range' currentIdx addresses.length) (triesAt lib
      allocatePool ((List.range' currentIdx addresses.length).zip addresses) dtb image)).length ≤ 5) :
    (applyLoop lib allocatePool addresses.length currentIdx fdtNext dtb image (codeText done)).1 =
      triesAt lib allocatePool ((List.range' currentIdx addresses.length).zip addresses)
        dtb image := by
  induction addresses generalizing currentIdx fdtNext dtb image done with
  | nil => rfl
  | cons a rest ih =>
    obtain rfl : a = fdtNext := hhead a rfl
    simp only [List.length_cons, List.range'_succ, List.zip_cons_cons, triesAt] at hchain hfew ⊢
    rw [List.isChain_cons] at hchain
    rw [appliedOf_cons] at hfew
    have hnext : ∀ b ∈ rest.head?,
        b = (tryOverlay lib (allocatePool currentIdx) dtb image a).next := by
      intro b hb
      cases rest with
      | nil => cases hb
      | cons c rest =>
        cases hb
        have := hchain.1 _ rfl
        rwa [tryOverlay_address] at this
    cases happlied : (tryOverlay lib (allocatePool currentIdx) dtb image a).applied with
    | false =>
      have hrecord : (tryOverlay lib (allocatePool currentIdx) dtb image a).record
          (codeText done) currentIdx = some (codeText done) := by
        rw [Try.record, happlied]
        rfl
      rw [applyLoop_goes rest.length hrecord]
      rw [happlied] at hfew
      simp only [ih _ _ _ _ done hnext hchain.2 (by simpa using hfew)]
    | true =>
      rw [happlied] at hfew
      simp only [if_true, List.length_append, List.length_singleton] at hfew
      have hrecord : (tryOverlay lib (allocatePool currentIdx) dtb image a).record
          (codeText done) currentIdx = some (codeText (done ++ [currentIdx])) := by
        rw [Try.record, happlied, if_pos rfl, recordIdx_codeText, if_pos (by omega)]
      rw [applyLoop_goes rest.length hrecord]
      simp only [ih _ _ _ _ (done ++ [currentIdx]) hnext hchain.2 (by simp; omega)]

end

theorem decimal_single {i : Nat} (h : i < 10) : decimal i = [idxChar i] := by
  rw [decimal, if_pos h]
  rfl

theorem length_decimal (i : Nat) :
    1 ≤ (decimal i).length ∧ ((decimal i).length ≤ 1 → i < 10) := by
  induction i using decimal.induct with
  | case1 i h => simp [decimal_single h, h]
  | case2 i h ih =>
    rw [decimal, if_neg h]
    simp only [List.length_append, List.length_singleton]
    omega

/-- Behind the first index, each takes two characters, and more if it has more digits. -/
theorem length_behind (indices : List Nat) :
    2 * indices.length ≤ (indices.flatMap fun j => 0x2C :: decimal j).length ∧
      ((indices.flatMap fun j => 0x2C :: decimal j).length ≤ 2 * indices.length →
        ∀ j ∈ indices, j < 10) := by
  induction indices with
  | nil => simp
  | cons i rest ih =>
    have hdigit := length_decimal i
    simp only [List.flatMap_cons, List.length_append, List.length_cons, List.forall_mem_cons]
    refine ⟨by omega, fun h => ⟨hdigit.2 (by omega), ih.2 (by omega)⟩⟩

theorem dtboIdx_single {indices : List Nat} (h : ∀ i ∈ indices, i < 10) :
    dtboIdx indices = codeText indices := by
  cases indices with
  | nil => rfl
  | cons i rest =>
    rw [List.forall_mem_cons] at h
    rw [dtboIdx, codeText, decimal_single h.1, List.singleton_append]
    congr 1
    apply List.flatMap_congr
    intro j hj
    rw [decimal_single (h.2 j hj)]

theorem idxChar_ne_zero {i : Nat} (h : i < 10) : idxChar i ≠ 0 := by
  revert i
  decide

theorem codeText_nonzero {indices : List Nat} (h : ∀ i ∈ indices, i < 10) :
    ∀ c ∈ codeText indices, c ≠ 0 := by
  cases indices with
  | nil => simp [codeText]
  | cons i rest =>
    rw [List.forall_mem_cons] at h
    simp only [codeText, List.mem_cons, List.mem_flatMap, List.not_mem_nil, or_false]
    rintro c (rfl | ⟨j, hj, rfl | rfl⟩)
    · exact idxChar_ne_zero h.1
    · decide
    · exact idxChar_ne_zero (h.2 j hj)

/-- The text is the list of the indices when all of them fit with one digit. -/
theorem text_iff (indices : List Nat) :
    (codeText (indices.take 5)).takeWhile (· ≠ 0) = dtboIdx indices ↔
      indices.length ≤ 5 ∧ ∀ i ∈ indices, i < 10 := by
  constructor
  · intro h
    have hle : (dtboIdx indices).length ≤ (codeText (indices.take 5)).length := by
      rw [← h]
      exact (List.takeWhile_sublist _).length_le
    rw [length_codeText, List.length_take] at hle
    cases indices with
    | nil => simp
    | cons i rest =>
      have hfirst := length_decimal i
      have hbehind := length_behind rest
      simp only [dtboIdx, List.length_append, List.length_cons] at hle
      rw [List.forall_mem_cons, List.length_cons]
      exact ⟨by omega, hfirst.2 (by omega), hbehind.2 (by omega)⟩
  · rintro ⟨hfew, hsingle⟩
    rw [List.take_of_length_le hfew, dtboIdx_single hsingle, List.takeWhile_eq_self_iff]
    intro c hc
    simpa using codeText_nonzero hsingle c hc

section
variable {lib : FdtLib} {allocatePool : Nat → Bool} {platform : DtboPlatform} {dtb image : Memory}

theorem selectedTries_addresses :
    (selectedTries lib allocatePool platform dtb image).map (·.address) =
      (selected platform image).map (dtOffset image) := by
  rw [selectedTries, triesAt_addresses, List.map_snd_zip (by simp)]

/-- The walk from the first of the chosen entries. -/
def walkLog (lib : FdtLib) (allocatePool : Nat → Bool) (dtb image : Memory) (range : DtboRange) :
    List Try :=
  (applyLoop lib allocatePool range.dtboCount range.dtboStartIdx range.dtbo dtb image []).1

theorem applyDtboImg_ok {range : DtboRange}
    (h : extractDtbofromDtboImg platform image = .ok range) :
    applyDtboImg lib allocatePool platform dtb image =
      (walkLog lib allocatePool dtb image range,
        some ((codeText ((appliedOf (List.range' range.dtboStartIdx range.dtboCount)
          (walkLog lib allocatePool dtb image range)).take 5)).takeWhile (· ≠ 0))) := by
  have htext := @applyLoop_text lib allocatePool range.dtboCount
    range.dtboStartIdx range.dtbo dtb image [] (by simp)
  simp only [applyDtboImg, h, androidApplyOverlays]
  exact congrArg (fun text => (walkLog lib allocatePool dtb image range,
    some (text.takeWhile (· ≠ 0)))) htext

/-- A walk that comes to the offsets of the chosen entries makes the tries there. -/
theorem walkLog_eq {range : DtboRange}
    (hselected : selected platform image = List.range' range.dtboStartIdx range.dtboCount)
    (htried : (walkLog lib allocatePool dtb image range).map (·.address) =
      (selected platform image).map (dtOffset image)) :
    walkLog lib allocatePool dtb image range =
      selectedTries lib allocatePool platform dtb image := by
  have htries := @applyLoop_tries lib allocatePool range.dtboCount
    range.dtboStartIdx range.dtbo dtb image []
  rw [selectedTries, ← htried, hselected]
  exact htries

theorem Walkable.of_applies {range : DtboRange}
    (hrange : extractDtbofromDtboImg platform image = .ok range)
    (h : AppliesSelected lib allocatePool platform dtb image) :
    Walkable lib allocatePool platform dtb image := by
  obtain ⟨htried, -, hhanded⟩ := h
  obtain ⟨-, -, more, hselected, -⟩ := extract_ok hrange
  simp only [applyDtboImg_ok hrange] at htried hhanded
  -- The walk makes no more tries than the entries it was given.
  have hmore : more = [] := by
    have hlength := congrArg List.length htried
    have hle : (walkLog lib allocatePool dtb image range).length ≤ range.dtboCount :=
      length_applyLoop_le _ _ _ _ _ _
    rw [List.length_map, List.length_map, hselected, List.length_append, List.length_range'] at hlength
    exact List.length_eq_zero_iff.mp (by omega)
  rw [hmore, List.append_nil] at hselected
  have hlog := walkLog_eq hselected htried
  have htext := hhanded _ rfl
  rw [hlog, ← hselected, text_iff] at htext
  refine ⟨⟨range.dtboStartIdx, by rw [hselected, List.length_range']⟩, ?_, htext.1, htext.2⟩
  rw [← hlog]
  exact (applyLoop_walks _ _ _ _ _ _).2

theorem Walkable.applies {range : DtboRange}
    (hrange : extractDtbofromDtboImg platform image = .ok range)
    (h : Walkable lib allocatePool platform dtb image) :
    AppliesSelected lib allocatePool platform dtb image := by
  obtain ⟨hdtbo, hpos, more, hselected, hmore⟩ := extract_ok hrange
  have hnone : more = [] := Consecutive.no_more hpos (hselected ▸ h.consecutive) hmore
  rw [hnone, List.append_nil] at hselected
  have hpacked := h.packed
  have hfew := h.few
  have hlog : walkLog lib allocatePool dtb image range =
      selectedTries lib allocatePool platform dtb image := by
    have hwalk := @applyLoop_of_walk lib allocatePool
      range.dtboStartIdx range.dtbo dtb image []
      ((selected platform image).map (dtOffset image))
    simp only [List.length_map, hselected, List.length_range'] at hwalk
    rw [selectedTries, hselected] at hpacked hfew ⊢
    refine hwalk ?_ hpacked (by simpa using hfew)
    obtain ⟨n, hn⟩ := Nat.exists_eq_add_of_lt hpos
    rw [hn, Nat.zero_add, List.range'_succ, hdtbo]
    rintro a ⟨⟩
    rfl
  constructor
  · rw [applyDtboImg_ok hrange, hlog]
    exact selectedTries_addresses
  · rw [applyDtboImg_ok hrange, hlog]
    exact triesAt_restores _ _ _
  · rw [applyDtboImg_ok hrange, hlog, ← hselected]
    rintro text ⟨⟩
    exact (text_iff _).mpr ⟨h.few, h.single⟩

end

/-- The overlays of an image are applied as they are chosen exactly when the walk can meet them. -/
theorem dtbo_law (lib : FdtLib) (allocatePool : Nat → Bool) (platform : DtboPlatform)
    (dtb image : Memory) :
    AppliesSelected lib allocatePool platform dtb image ↔
      Walkable lib allocatePool platform dtb image := by
  cases hrange : extractDtbofromDtboImg platform image with
  | ok range => exact ⟨Walkable.of_applies hrange, Walkable.applies hrange⟩
  | error status =>
    have hselected := extract_error hrange
    have hrun : applyDtboImg lib allocatePool platform dtb image = ([], none) := by
      simp only [applyDtboImg, hrange]
    have hnone : selectedTries lib allocatePool platform dtb image = [] := by
      rw [selectedTries, hselected]
      rfl
    constructor
    · intro _
      refine ⟨⟨0, by rw [hselected]; rfl⟩, ?_, ?_, ?_⟩
      · rw [hnone]
        exact List.isChain_nil
      · rw [hselected]
        exact Nat.zero_le 5
      · rw [hselected]
        rintro i ⟨⟩
    · intro _
      refine ⟨?_, ?_, ?_⟩
      · rw [hrun, hselected]
        rfl
      · rw [hrun]
        rintro t ⟨⟩
      · rw [hrun]
        rintro text ⟨⟩

def emptyOverlay : List UInt8 :=
  [0xd00dfeed, 72, 56, 72, 40, 17, 16, 0, 0, 16, 0, 0, 0, 0, 1, 0, 2, 9].flatMap
    (Parse.toBigEndian 4)

/-- An image of two overlays, the second of them aligned to sixteen bytes. -/
def alignedImage : List UInt8 :=
  [0xd7b7ab1e, 248, 32, 32, 2, 32, 2048, 0,
    72, 96, 0, 0, 0, 0, 0, 0,
    72, 176, 0, 0, 0, 0, 0, 0].flatMap (Parse.toBigEndian 4) ++
  emptyOverlay ++ List.replicate 8 0 ++ emptyOverlay

/-- A library that looks at the magic, and spoils it in an overlay that is applied. -/
def emptyOverlayLib : FdtLib where
  fdtCheckHeader m a := if swapBytes32 m a = 0xd00dfeed then 0 else -9
  fdtOverlayApply dtb image a := (0, dtb, overwrite image a [0xFF, 0xFF, 0xFF, 0xFF])
  confined _ _ _ _ _ := rfl

/-- The second overlay is looked for in the gap in front of it. -/
theorem second_overlay_missed :
    ¬ AppliesSelected emptyOverlayLib (fun _ => true) ⟨false, none⟩
      (fun a => emptyOverlay.getD a 0) (fun a => alignedImage.getD a 0) := by
  intro h
  exact absurd h.tried (by decide)

end AndroidBootDxe
