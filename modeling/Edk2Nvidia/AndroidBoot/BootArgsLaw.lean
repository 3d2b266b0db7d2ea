import Edk2Nvidia.AndroidBoot.BootArgs

/-! Which command lines have their boot arguments handed on as they should be. -/
namespace AndroidBootDxe
open Parse (CString)

variable {protocol : BootConfigUpdate} {token found text name value : List UInt8}
  {rest : List (List UInt8)} {handed : List BootArg} {fuel : Nat}

/-! The line and its tokens. -/

def behindText (rest : List (List UInt8)) : List UInt8 := rest.flatMap fun token => blank :: token

@[simp] theorem behindText_nil : behindText [] = [] := rfl

@[simp] theorem behindText_cons (token : List UInt8) (rest : List (List UInt8)) :
    behindText (token :: rest) = blank :: (token ++ behindText rest) := rfl

theorem behindText_append (front rest : List (List UInt8)) :
    behindText (front ++ rest) = behindText front ++ behindText rest := List.flatMap_append

theorem splitOn_blank (chars : List UInt8) :
    ∃ token rest, chars.splitOn blank = token :: rest ∧ chars = token ++ behindText rest ∧
      ∀ t ∈ token :: rest, blank ∉ t := by
  induction chars with
  | nil => exact ⟨[], [], rfl, rfl, by simp⟩
  | cons c chars ih =>
    obtain ⟨token, rest, hsplit, rfl, hblank⟩ := ih
    rw [List.splitOn_cons_eq_if_modifyHead, hsplit]
    by_cases hc : c = blank
    · rw [if_pos (by rw [hc]; rfl)]
      refine ⟨[], token :: rest, rfl, by rw [hc]; rfl, ?_⟩
      exact List.forall_mem_cons.mpr ⟨List.not_mem_nil, hblank⟩
    · rw [if_neg (by simpa using hc)]
      obtain ⟨htoken, hrest⟩ := List.forall_mem_cons.mp hblank
      refine ⟨c :: token, rest, rfl, rfl, List.forall_mem_cons.mpr ⟨?_, hrest⟩⟩
      rw [List.mem_cons, not_or]
      exact ⟨Ne.symm hc, htoken⟩

theorem arg_split (h : equals ∈ text) :
    text = nameOfArg text ++ equals :: valueOfArg text ∧ equals ∉ nameOfArg text := by
  induction text with
  | nil => cases h
  | cons c text ih =>
    by_cases hc : c = equals
    · simp [nameOfArg, valueOfArg, hc]
    · obtain ⟨hsplit, hname⟩ := ih ((List.mem_cons.mp h).resolve_left (Ne.symm hc))
      have hnameCons : nameOfArg (c :: text) = c :: nameOfArg text := by
        simp [nameOfArg, hc]
      have hvalueCons : valueOfArg (c :: text) = valueOfArg text := by
        simp [valueOfArg, hc]
      rw [hnameCons, hvalueCons, List.cons_append, ← hsplit, List.mem_cons, not_or]
      exact ⟨rfl, Ne.symm hc, hname⟩

theorem equals_not_mem_argPrefix : equals ∉ androidBootArgPrefix := by decide

theorem blank_not_mem_prefix : blank ∉ androidBootArgPrefix := by decide

theorem found_eq (h : asciiStrStr token androidBootArgPrefix = some found) :
    ∃ front, token = front ++ found ∧
      found = androidBootArgPrefix ++ found.drop androidBootArgPrefix.length := by
  obtain ⟨before, after, htoken, rfl, -⟩ := Wildcard.search_some h
  exact ⟨before, htoken, by rw [List.drop_left]⟩

/-- A token that begins with the prefix is found as a whole. -/
theorem asciiStrStr_prefixed (h : androidBootArgPrefix <+: token) :
    asciiStrStr token androidBootArgPrefix = some token := Wildcard.search_of_prefix h

theorem bootArg?_of_none (h : asciiStrStr token androidBootArgPrefix = none) :
    bootArg? token = none ∧ ¬ Unfinished token := by
  have hnot : ¬ androidBootArgPrefix <+: token := fun hprefix =>
    Wildcard.search_eq_none_iff.mp h hprefix.isInfix
  exact ⟨if_neg fun h => hnot h.1, fun h => hnot h.1⟩

theorem bootArg?_of_no_equals (h : equals ∉ token) : bootArg? token = none :=
  if_neg fun h' => h h'.2

/-! One argument. -/

def clamped (name value : List UInt8) : BootArg :=
  (name.take (maxAndroidBootArgSize - 1), value.take (maxAndroidBootValSize - 1))

theorem copyLoop_found {remaining : List UInt8} {after : List (List UInt8)}
    (hfound : asciiStrStr remaining androidBootArgPrefix = some found)
    (harg : found.drop androidBootArgPrefix.length =
      name ++ equals :: (value ++ behindText after))
    (hname : equals ∉ name) (hvalue : blank ∉ value) :
    copyLoop protocol (fuel + 1) remaining handed =
      if protocol.updateBootConfigs (handed ++ [clamped name value]) ≠ .success then
        some (protocol.updateBootConfigs (handed ++ [clamped name value]),
          handed ++ [clamped name value])
      else if behindText after = [] then some (.success, handed ++ [clamped name value])
      else copyLoop protocol fuel (behindText after) (handed ++ [clamped name value]) := by
  have hequals : asciiStrStr (name ++ equals :: (value ++ behindText after)) [equals] =
      some (equals :: (value ++ behindText after)) := Wildcard.search_singleton hname _
  have hend : (asciiStrStr (value ++ behindText after) [blank]).getD [] = behindText after := by
    cases after with
    | nil =>
      rw [behindText_nil, List.append_nil, asciiStrStr, Wildcard.search_singleton_none hvalue]
      rfl
    | cons t after =>
      rw [behindText_cons, asciiStrStr, Wildcard.search_singleton hvalue]
      rfl
  have hfront : ∀ front back : List UInt8,
      (front ++ back).take ((front ++ back).length - back.length) = front := by
    intro front back
    rw [List.length_append, Nat.add_sub_cancel, List.take_left]
  rw [copyLoop, hfound]
  simp only [harg, hequals, hfront, List.drop_one, List.tail_cons, hend]
  rfl

/-! The run over the tokens. -/

/-- The text from the end of a token to the next equals sign. -/
def across (between : List (List UInt8)) (last : List UInt8) : List UInt8 :=
  behindText between ++ blank :: nameOfArg last

/-- What is handed on as long as it is accepted, and whether no equals sign is missed. -/
def scan : List (List UInt8) → List BootArg × Bool
  | [] => ([], true)
  | token :: rest =>
    match asciiStrStr token androidBootArgPrefix with
    | none => scan rest
    | some found =>
      let text := found.drop androidBootArgPrefix.length
      if equals ∈ text then
        (clamped (nameOfArg text) (valueOfArg text) :: (scan rest).1, (scan rest).2)
      else
        match h : closing rest with
        | [] => ([], false)
        | last :: behind =>
          have : behind.length < rest.length := by
            have := (List.dropWhile_suffix (l := rest) fun token => equals ∉ token).length_le
            rw [show rest.dropWhile _ = last :: behind from h, List.length_cons] at this
            exact this
          (clamped (text ++ across (rest.takeWhile fun token => equals ∉ token) last)
            (valueOfArg last) :: (scan behind).1, (scan behind).2)
  termination_by tokens => tokens.length

/-- The arguments are handed on until one is not accepted. -/
def feed (protocol : BootConfigUpdate) (handed : List BootArg) :
    List BootArg → Bool → EfiStatus × List BootArg
  | [], true => (.success, handed)
  | [], false => (.invalidParameter, handed)
  | arg :: args, whole =>
    if protocol.updateBootConfigs (handed ++ [arg]) ≠ .success then
      (protocol.updateBootConfigs (handed ++ [arg]), handed ++ [arg])
    else feed protocol (handed ++ [arg]) args whole

theorem scan_none (h : asciiStrStr token androidBootArgPrefix = none) :
    scan (token :: rest) = scan rest := by
  rw [scan, h]

theorem scan_equals (h : asciiStrStr token androidBootArgPrefix = some found)
    (hequals : equals ∈ found.drop androidBootArgPrefix.length) :
    scan (token :: rest) = (clamped (nameOfArg (found.drop androidBootArgPrefix.length))
      (valueOfArg (found.drop androidBootArgPrefix.length)) :: (scan rest).1, (scan rest).2) := by
  rw [scan, h]
  simp only
  rw [if_pos hequals]

theorem scan_missed (h : asciiStrStr token androidBootArgPrefix = some found)
    (hequals : equals ∉ found.drop androidBootArgPrefix.length) (hclosing : closing rest = []) :
    scan (token :: rest) = ([], false) := by
  rw [scan, h]
  simp only
  rw [if_neg hequals]
  split
  · rfl
  next last behind hclosing' => rw [hclosing] at hclosing'; cases hclosing'

theorem scan_across (h : asciiStrStr token androidBootArgPrefix = some found)
    (hequals : equals ∉ found.drop androidBootArgPrefix.length) {last : List UInt8}
    {behind : List (List UInt8)} (hclosing : closing rest = last :: behind) :
    scan (token :: rest) = (clamped (found.drop androidBootArgPrefix.length ++
      across (rest.takeWhile fun token => equals ∉ token) last) (valueOfArg last) ::
        (scan behind).1, (scan behind).2) := by
  rw [scan, h]
  simp only
  rw [if_neg hequals]
  split
  next hclosing' => rw [hclosing] at hclosing'; cases hclosing'
  next last' behind' hclosing' =>
    rw [hclosing] at hclosing'
    cases hclosing'
    rfl

theorem closing_eq {last : List UInt8} {behind : List (List UInt8)}
    (hclosing : closing rest = last :: behind) :
    rest = (rest.takeWhile fun token => equals ∉ token) ++ last :: behind ∧ equals ∈ last ∧
      ∀ between ∈ rest.takeWhile fun token => equals ∉ token, equals ∉ between := by
  refine ⟨?_, ?_, fun between hbetween => ?_⟩
  · rw [← hclosing]
    exact List.takeWhile_append_dropWhile.symm
  · have hlast := List.head?_dropWhile_not (fun token => decide (equals ∉ token)) rest
    rw [show rest.dropWhile _ = last :: behind from hclosing] at hlast
    simpa using hlast
  · simpa using List.mem_takeWhile_imp hbetween

theorem closing_nil (hclosing : closing rest = []) : ∀ t ∈ rest, equals ∉ t := by
  intro t ht
  simpa using List.dropWhile_eq_nil_iff.mp hclosing t ht

theorem not_mem_behindText (h : ∀ t ∈ rest, equals ∉ t) : equals ∉ behindText rest := by
  intro hmem
  obtain ⟨t, ht, hin⟩ := List.mem_flatMap.mp hmem
  rcases List.mem_cons.mp hin with heq | hin
  · exact absurd heq (by decide)
  · exact h t ht hin

/-- Where nothing is found in a token, the search goes on behind it. -/
theorem copyLoop_skip (h : asciiStrStr token androidBootArgPrefix = none) (next : List UInt8)
    (rest : List (List UInt8)) (fuel : Nat) :
    copyLoop protocol (fuel + 1) (token ++ behindText (next :: rest)) handed =
      copyLoop protocol (fuel + 1) (next ++ behindText rest) handed := by
  have hsearch : asciiStrStr (token ++ behindText (next :: rest)) androidBootArgPrefix =
      asciiStrStr (next ++ behindText rest) androidBootArgPrefix :=
    Wildcard.search_append_none blank_not_mem_prefix (by decide) h _
  rw [copyLoop, copyLoop, hsearch]

theorem copyLoop_scan (protocol : BootConfigUpdate) (size : Nat) :
    ∀ rest : List (List UInt8), rest.length = size → ∀ token, (∀ t ∈ token :: rest, blank ∉ t) →
      ∀ fuel handed, rest.length < fuel →
        copyLoop protocol fuel (token ++ behindText rest) handed =
          some (feed protocol handed (scan (token :: rest)).1 (scan (token :: rest)).2) := by
  induction size using Nat.strong_induction_on with
  | _ size ih =>
    intro rest hsize token hblank fuel handed hfuel
    obtain ⟨htoken, hrest⟩ := List.forall_mem_cons.mp hblank
    obtain ⟨fuel, rfl⟩ := Nat.exists_eq_succ_of_ne_zero (Nat.ne_zero_of_lt hfuel)
    -- what the loop does behind an argument that was accepted
    have hnext : ∀ after : List (List UInt8), after.length ≤ rest.length → (∀ t ∈ after, blank ∉ t) →
        ∀ handed, (if behindText after = [] then some (.success, handed)
            else copyLoop protocol fuel (behindText after) handed) =
          some (feed protocol handed (scan after).1 (scan after).2) := by
      intro after hafter hblank' handed
      cases after with
      | nil =>
        rw [if_pos behindText_nil, scan]
        rfl
      | cons next after =>
        rw [List.length_cons] at hafter
        rw [if_neg (show behindText (next :: after) ≠ [] from List.cons_ne_nil _ _)]
        obtain ⟨fuel, rfl⟩ := Nat.exists_eq_succ_of_ne_zero (show fuel ≠ 0 by omega)
        rw [← List.nil_append (behindText _), copyLoop_skip (by decide)]
        exact ih after.length (by omega) after rfl next hblank' (fuel + 1) handed (by omega)
    have hone : ∀ {found name value : List UInt8} {after : List (List UInt8)},
        asciiStrStr (token ++ behindText rest) androidBootArgPrefix = some found →
        found.drop androidBootArgPrefix.length = name ++ equals :: (value ++ behindText after) →
        equals ∉ name → blank ∉ value → after.length ≤ rest.length → (∀ t ∈ after, blank ∉ t) →
          copyLoop protocol (fuel + 1) (token ++ behindText rest) handed =
            some (feed protocol handed (clamped name value :: (scan after).1) (scan after).2) := by
      intro found name value after hfound harg hname hvalue hafter hblank'
      rw [copyLoop_found hfound harg hname hvalue, hnext after hafter hblank', feed]
      split
      · rfl
      · rfl
    cases hsearch : asciiStrStr token androidBootArgPrefix with
    | none =>
      rw [scan_none hsearch]
      cases rest with
      | nil =>
        rw [behindText_nil, List.append_nil, copyLoop, hsearch, scan]
        rfl
      | cons next rest =>
        rw [List.length_cons] at hsize hfuel
        rw [copyLoop_skip hsearch]
        exact ih rest.length (by omega) rest rfl next hrest (fuel + 1) handed (by omega)
    | some found =>
      have hlong : asciiStrStr (token ++ behindText rest) androidBootArgPrefix =
          some (found ++ behindText rest) := Wildcard.search_append_some hsearch _
      obtain ⟨front, hfront, hfound⟩ := found_eq hsearch
      have hdrop : (found ++ behindText rest).drop androidBootArgPrefix.length =
          found.drop androidBootArgPrefix.length ++ behindText rest := by
        rw [List.drop_append_of_le_length]
        have := congrArg List.length hfound
        rw [List.length_append] at this
        omega
      have hblankText : blank ∉ found.drop androidBootArgPrefix.length := fun hmem =>
        htoken (hfront ▸ List.mem_append_right _ (List.mem_of_mem_drop hmem))
      by_cases hequals : equals ∈ found.drop androidBootArgPrefix.length
      · obtain ⟨hsplit, hname⟩ := arg_split hequals
        rw [scan_equals hsearch hequals]
        refine hone hlong ?_ hname (fun hmem => hblankText ?_) (Nat.le_refl _) hrest
        · rw [hdrop]
          conv_lhs => rw [hsplit]
          rw [List.append_assoc, List.cons_append]
        · rw [hsplit]
          exact List.mem_append_right _ (List.mem_cons_of_mem _ hmem)
      · cases hclosing : closing rest with
        | nil =>
          rw [scan_missed hsearch hequals hclosing, copyLoop, hlong]
          simp only [hdrop]
          have hnone : asciiStrStr (found.drop androidBootArgPrefix.length ++ behindText rest)
              [equals] = none := by
            refine Wildcard.search_singleton_none fun hmem => ?_
            rcases List.mem_append.mp hmem with hin | hin
            · exact hequals hin
            · exact not_mem_behindText (closing_nil hclosing) hin
          rw [hnone]
          rfl
        | cons last behind =>
          obtain ⟨hrestSplit, hlast, hbetween⟩ := closing_eq hclosing
          obtain ⟨hsplit, hname⟩ := arg_split hlast
          have hbehindLength := congrArg List.length hrestSplit
          rw [List.length_append, List.length_cons] at hbehindLength
          rw [scan_across hsearch hequals hclosing]
          refine @hone _ _ _ behind hlong ?_ ?_ (fun hmem => ?_) (by omega) fun t ht => ?_
          · rw [hdrop]
            conv_lhs => rw [hrestSplit, behindText_append, behindText_cons, hsplit]
            simp only [across, List.append_assoc, List.cons_append]
          · rw [across, List.mem_append, List.mem_append, List.mem_cons]
            rintro (hin | hin | hin | hin)
            · exact hequals hin
            · exact not_mem_behindText hbetween hin
            · exact absurd hin (by decide)
            · exact hname hin
          · refine hrest last ?_ ?_
            · rw [hrestSplit]
              exact List.mem_append_right _ List.mem_cons_self
            · rw [hsplit]
              exact List.mem_append_right _ (List.mem_cons_of_mem _ hmem)
          · refine hrest t ?_
            rw [hrestSplit]
            exact List.mem_append_right _ (List.mem_cons_of_mem _ ht)

theorem feed_spec (protocol : BootConfigUpdate) (handed args : List BootArg) (whole : Bool) :
    ∃ status front, feed protocol handed args whole = (status, handed ++ front) ∧ front <+: args ∧
      (status = .success → front = args ∧ whole = true) := by
  induction args generalizing handed with
  | nil =>
    cases whole with
    | true => exact ⟨.success, [], by rw [feed, List.append_nil], List.nil_prefix, fun _ => ⟨rfl, rfl⟩⟩
    | false =>
      exact ⟨.invalidParameter, [], by rw [feed, List.append_nil], List.nil_prefix, nofun⟩
  | cons arg args ih =>
    rw [feed]
    by_cases hstatus : protocol.updateBootConfigs (handed ++ [arg]) = .success
    · obtain ⟨status, front, hfeed, hfront, hwhole⟩ := ih (handed ++ [arg])
      refine ⟨status, arg :: front, ?_, (List.prefix_cons_inj arg).mpr hfront, fun h => ?_⟩
      · rw [if_neg (not_not.mpr hstatus), hfeed, List.append_assoc, List.singleton_append]
      · obtain ⟨rfl, h'⟩ := hwhole h
        exact ⟨rfl, h'⟩
    · exact ⟨_, [arg], if_pos hstatus, ⟨args, rfl⟩, fun h => absurd h hstatus⟩

def accepting : BootConfigUpdate := ⟨.success, fun _ => .success⟩

theorem feed_accepting (handed args : List BootArg) (whole : Bool) :
    feed accepting handed args whole =
      (if whole then .success else .invalidParameter, handed ++ args) := by
  induction args generalizing handed with
  | nil => cases whole <;> simp [feed]
  | cons arg args ih =>
    have hstatus : accepting.updateBootConfigs (handed ++ [arg]) = .success := rfl
    rw [feed, if_neg (not_not.mpr hstatus), ih, List.append_assoc, List.singleton_append]

/-! The law. -/

def Exact (tokens : List (List UInt8)) : Prop :=
  ((scan tokens).2 = true → (scan tokens).1 = tokens.filterMap bootArg? ∧
    ∀ token ∈ tokens, ¬ Unfinished token) ∧ (scan tokens).1 <+: argsBefore tokens

theorem copy_eq (protocol : BootConfigUpdate) (cmdline : CString) {fuel : Nat}
    (hfuel : (tokens cmdline).length < fuel) :
    copyAndroidBootArgsToBootConfig protocol (some cmdline) fuel =
      if protocol.getProtocol ≠ .success then some (protocol.getProtocol, [])
      else some (feed protocol [] (scan (tokens cmdline)).1 (scan (tokens cmdline)).2) := by
  obtain ⟨token, rest, hsplit, hchars, hblank⟩ := splitOn_blank cmdline.chars
  have htokens : tokens cmdline = token :: rest := hsplit
  rw [htokens, List.length_cons] at hfuel
  rw [htokens, copyAndroidBootArgsToBootConfig, hchars,
    copyLoop_scan protocol rest.length rest rfl token hblank fuel [] (by omega)]

theorem transfers_iff_exact (cmdline : CString) : Transfers cmdline ↔ Exact (tokens cmdline) := by
  constructor
  · intro h
    obtain ⟨status, handed, ⟨enough, hrun⟩, hsuccess, hprefix⟩ := h accepting
    have hcopy := hrun (enough + (tokens cmdline).length + 1) (by omega)
    have hprotocol : accepting.getProtocol = .success := rfl
    rw [copy_eq accepting cmdline (by omega), if_neg (not_not.mpr hprotocol), feed_accepting] at hcopy
    cases hcopy
    exact ⟨fun hwhole => hsuccess (if_pos hwhole), hprefix⟩
  · rintro ⟨hwhole, hprefix⟩ protocol
    by_cases hprotocol : protocol.getProtocol = .success
    · obtain ⟨status, front, hfeed, hfront, hsuccess⟩ :=
        feed_spec protocol [] (scan (tokens cmdline)).1 (scan (tokens cmdline)).2
      refine ⟨status, front, ⟨(tokens cmdline).length + 1, fun fuel hfuel => ?_⟩, fun h => ?_,
        hfront.trans hprefix⟩
      · rw [copy_eq protocol cmdline (by omega), if_neg (not_not.mpr hprotocol), hfeed,
          List.nil_append]
      · obtain ⟨rfl, hend⟩ := hsuccess h
        exact hwhole hend
    · refine ⟨_, [], ⟨(tokens cmdline).length + 1, fun fuel hfuel => ?_⟩,
        fun h => absurd h hprotocol, List.nil_prefix⟩
      rw [copy_eq protocol cmdline (by omega), if_pos hprotocol]

theorem filterMap_of_no_equals {tokens : List (List UInt8)} (h : ∀ t ∈ tokens, equals ∉ t) :
    tokens.filterMap bootArg? = [] :=
  List.filterMap_eq_nil_iff.mpr fun t ht => bootArg?_of_no_equals (h t ht)

theorem argsBefore_sublist (tokens : List (List UInt8)) :
    (argsBefore tokens).length ≤ (tokens.filterMap bootArg?).length :=
  ((List.takeWhile_sublist _).filterMap _).length_le

theorem length_args_le (size : Nat) : ∀ tokens : List (List UInt8), tokens.length = size →
    (tokens.filterMap bootArg?).length ≤ (scan tokens).1.length := by
  induction size using Nat.strong_induction_on with
  | _ size ih =>
    intro tokens hsize
    cases tokens with
    | nil => exact Nat.zero_le _
    | cons token rest =>
      rw [List.length_cons] at hsize
      have hrest := ih rest.length (by omega) rest rfl
      have hhead : ((token :: rest).filterMap bootArg?).length ≤
          (rest.filterMap bootArg?).length + 1 := by
        cases harg : bootArg? token with
        | none =>
          rw [List.filterMap_cons_none harg]
          omega
        | some arg =>
          rw [List.filterMap_cons_some harg, List.length_cons]
      cases hsearch : asciiStrStr token androidBootArgPrefix with
      | none =>
        rw [scan_none hsearch, List.filterMap_cons_none (bootArg?_of_none hsearch).1]
        exact hrest
      | some found =>
        obtain ⟨front, hfront, hfound⟩ := found_eq hsearch
        by_cases hequals : equals ∈ found.drop androidBootArgPrefix.length
        · rw [scan_equals hsearch hequals, List.length_cons]
          omega
        · have hnone : bootArg? token = none := by
            refine if_neg fun h => ?_
            have hwhole := (asciiStrStr_prefixed h.1).symm.trans hsearch
            cases hwhole
            rw [hfound, List.mem_append] at h
            exact h.2.elim equals_not_mem_argPrefix hequals
          rw [List.filterMap_cons_none hnone]
          cases hclosing : closing rest with
          | nil =>
            rw [filterMap_of_no_equals (closing_nil hclosing)]
            exact Nat.zero_le _
          | cons last behind =>
            obtain ⟨hsplit, -, hbetween⟩ := closing_eq hclosing
            have hlength := congrArg List.length hsplit
            rw [List.length_append, List.length_cons] at hlength
            have hbehind := ih behind.length (by omega) behind rfl
            rw [scan_across hsearch hequals hclosing, List.length_cons, hsplit,
              List.filterMap_append, filterMap_of_no_equals hbetween, List.nil_append]
            cases harg : bootArg? last with
            | none =>
              rw [List.filterMap_cons_none harg]
              omega
            | some arg =>
              rw [List.filterMap_cons_some harg, List.length_cons]
              omega

theorem exact_skip (hscan : scan (token :: rest) = scan rest) (harg : bootArg? token = none)
    (hfinished : ¬ Unfinished token) : Exact (token :: rest) ↔ Exact rest := by
  unfold Exact argsBefore
  rw [hscan, List.filterMap_cons_none harg, List.takeWhile_cons_of_pos (by simpa using hfinished),
    List.filterMap_cons_none harg, List.forall_mem_cons]
  simp only [hfinished, not_false_eq_true, true_and]

theorem clamped_eq_iff : clamped name value = (name, value) ↔
    name.length < maxAndroidBootArgSize ∧ value.length < maxAndroidBootValSize := by
  unfold clamped
  rw [Prod.mk.injEq, List.take_eq_self_iff, List.take_eq_self_iff]
  have hname : maxAndroidBootArgSize = 32 := rfl
  have hvalue : maxAndroidBootValSize = 256 := rfl
  omega

/-- A cut name is one without a blank only when the cut is in front of the blank. -/
theorem take_eq_iff {back : List UInt8} (hblank : blank ∉ name) (n : Nat) :
    (text ++ blank :: back).take n = name ↔ n ≤ text.length ∧ text.take n = name := by
  constructor
  · intro h
    have hle : n ≤ text.length := by
      by_contra hlong
      refine hblank (h ▸ ?_)
      obtain ⟨k, rfl⟩ := Nat.exists_eq_add_of_lt (Nat.not_le.mp hlong)
      rw [show text.length + k + 1 = text.length + (k + 1) by omega, List.take_length_add_append,
        List.take_succ_cons]
      exact List.mem_append_right _ List.mem_cons_self
    rw [List.take_append_of_le_length hle] at h
    exact ⟨hle, h⟩
  · rintro ⟨hle, h⟩
    rwa [List.take_append_of_le_length hle]

theorem plain_none (h : asciiStrStr token androidBootArgPrefix = none) :
    Plain (token :: rest) ↔ Plain rest := by
  rw [Plain, h]

theorem plain_equals (h : asciiStrStr token androidBootArgPrefix = some found)
    (hequals : equals ∈ found.drop androidBootArgPrefix.length) :
    Plain (token :: rest) ↔ androidBootArgPrefix <+: token ∧
      (nameOfArg (found.drop androidBootArgPrefix.length)).length < maxAndroidBootArgSize ∧
      (valueOfArg (found.drop androidBootArgPrefix.length)).length < maxAndroidBootValSize ∧
        Plain rest := by
  rw [Plain, h]
  simp only
  rw [if_pos hequals]

theorem plain_missed (h : asciiStrStr token androidBootArgPrefix = some found)
    (hequals : equals ∉ found.drop androidBootArgPrefix.length) (hclosing : closing rest = []) :
    Plain (token :: rest) := by
  rw [Plain, h]
  simp only
  rw [if_neg hequals]
  split
  · trivial
  next last behind hclosing' => rw [hclosing] at hclosing'; cases hclosing'

theorem plain_across (h : asciiStrStr token androidBootArgPrefix = some found)
    (hequals : equals ∉ found.drop androidBootArgPrefix.length) {last : List UInt8}
    {behind : List (List UInt8)} (hclosing : closing rest = last :: behind) :
    Plain (token :: rest) ↔ ¬ androidBootArgPrefix <+: token ∧
      (∀ between ∈ rest.takeWhile fun token => equals ∉ token, ¬ Unfinished between) ∧
      maxAndroidBootArgSize - 1 ≤ (found.drop androidBootArgPrefix.length).length ∧
      (∃ value, bootArg? last = some ((found.drop androidBootArgPrefix.length).take
        (maxAndroidBootArgSize - 1), value) ∧ value.length < maxAndroidBootValSize) ∧
      Plain behind := by
  rw [Plain, h]
  simp only
  rw [if_neg hequals]
  split
  next hclosing' => rw [hclosing] at hclosing'; cases hclosing'
  next last' behind' hclosing' =>
    rw [hclosing] at hclosing'
    cases hclosing'
    exact Iff.rfl

/-- The value of an argument is what follows the first equals sign of its token. -/
theorem bootArg?_some {last : List UInt8} {arg : BootArg} (h : bootArg? last = some arg) :
    arg.2 = valueOfArg last ∧ (∀ c ∈ arg.1, c ∈ last) ∧ equals ∈ last := by
  unfold bootArg? at h
  split at h
  next hform =>
    cases h
    obtain ⟨⟨after, rfl⟩, hequals⟩ := hform
    have hafter : equals ∈ after := (List.mem_append.mp hequals).resolve_left equals_not_mem_argPrefix
    obtain ⟨hsplit, -⟩ := arg_split hafter
    rw [List.drop_left]
    refine ⟨?_, fun c hc => List.mem_append_right _ ?_, hequals⟩
    · unfold valueOfArg
      rw [List.dropWhile_append_of_pos]
      intro c hc
      simpa using fun heq : c = equals => equals_not_mem_argPrefix (heq ▸ hc)
    · rw [hsplit]
      exact List.mem_append_left _ hc
  · cases h

theorem across_eq (between : List (List UInt8)) (last : List UInt8) :
    ∃ back, across between last = blank :: back := by
  cases between with
  | nil => exact ⟨_, rfl⟩
  | cons t between => exact ⟨_, rfl⟩

/-- The arguments behind tokens without an equals sign, none of which is unfinished. -/
theorem argsBefore_append {between behind : List (List UInt8)} {last : List UInt8}
    (hbetween : ∀ t ∈ between, equals ∉ t) (hlast : equals ∈ last)
    (hfinished : ∀ t ∈ between, ¬ Unfinished t) :
    argsBefore (between ++ last :: behind) = (bootArg? last).toList ++ argsBefore behind := by
  have hlast' : ¬ Unfinished last := fun h => h.2 hlast
  unfold argsBefore
  rw [List.takeWhile_append_of_pos (fun t ht => by simpa using hfinished t ht),
    List.takeWhile_cons_of_pos (by simpa using hlast'), List.filterMap_append,
    filterMap_of_no_equals hbetween, List.nil_append]
  cases harg : bootArg? last with
  | none =>
    rw [List.filterMap_cons_none harg]
    rfl
  | some arg =>
    rw [List.filterMap_cons_some harg]
    rfl

theorem argsBefore_unfinished {between behind : List (List UInt8)}
    (hbetween : ∀ t ∈ between, equals ∉ t) (h : ∃ t ∈ between, Unfinished t) :
    argsBefore (between ++ behind) = [] := by
  have hstops : (between ++ behind).takeWhile (fun token => ¬ Unfinished token) =
      between.takeWhile fun token => ¬ Unfinished token := by
    rw [List.takeWhile_append, if_neg]
    intro hlength
    have hfront : between.takeWhile (fun token => decide (¬ Unfinished token)) <+: between :=
      List.takeWhile_prefix _
    have hall := hfront.eq_of_length hlength
    obtain ⟨t, ht, hunfinished⟩ := h
    rw [← hall] at ht
    have := List.mem_takeWhile_imp ht
    simp [hunfinished] at this
  unfold argsBefore
  rw [hstops]
  exact filterMap_of_no_equals fun t ht => hbetween t ((List.takeWhile_sublist _).subset ht)

theorem exact_across (hblank : ∀ t ∈ token :: rest, blank ∉ t)
    (h : asciiStrStr token androidBootArgPrefix = some found)
    (hequals : equals ∉ found.drop androidBootArgPrefix.length) {last : List UInt8}
    {behind : List (List UInt8)} (hclosing : closing rest = last :: behind) :
    Exact (token :: rest) ↔ ¬ androidBootArgPrefix <+: token ∧
      (∀ between ∈ rest.takeWhile fun token => equals ∉ token, ¬ Unfinished between) ∧
      maxAndroidBootArgSize - 1 ≤ (found.drop androidBootArgPrefix.length).length ∧
      (∃ value, bootArg? last = some ((found.drop androidBootArgPrefix.length).take
        (maxAndroidBootArgSize - 1), value) ∧ value.length < maxAndroidBootValSize) ∧
      Exact behind := by
  obtain ⟨hsplit, hlast, hbetween⟩ := closing_eq hclosing
  obtain ⟨front, hfront, hfound⟩ := found_eq h
  have hblankLast : blank ∉ last := hblank last (by
    rw [hsplit]
    exact List.mem_cons_of_mem _ (List.mem_append_right _ List.mem_cons_self))
  by_cases hprefix : androidBootArgPrefix <+: token
  · refine iff_of_false ?_ fun h' => h'.1 hprefix
    have hwhole := (asciiStrStr_prefixed hprefix).symm.trans h
    cases hwhole
    have hunfinished : Unfinished token := by
      refine ⟨ hprefix, ?_⟩
      rw [hfound, List.mem_append, not_or]
      exact ⟨equals_not_mem_argPrefix, hequals⟩
    rintro ⟨-, hbefore⟩
    have hnil : argsBefore (token :: rest) = [] :=
      @argsBefore_unfinished [token] rest (fun t ht => List.mem_singleton.mp ht ▸
        hunfinished.2) ⟨token, List.mem_cons_self, hunfinished⟩
    rw [hnil, scan_across h hequals hclosing] at hbefore
    exact absurd (List.prefix_nil.mp hbefore) (List.cons_ne_nil _ _)
  have hnone : bootArg? token = none := if_neg fun h' => hprefix h'.1
  have hfinished : ¬ Unfinished token := fun h' => hprefix h'.1
  have hbefore : argsBefore (token :: rest) = argsBefore rest := by
    unfold argsBefore
    rw [List.takeWhile_cons_of_pos (by simpa using hfinished), List.filterMap_cons_none hnone]
  have hargs : (token :: rest).filterMap bootArg? =
      (bootArg? last).toList ++ behind.filterMap bootArg? := by
    rw [List.filterMap_cons_none hnone]
    conv_lhs => rw [hsplit]
    rw [List.filterMap_append, filterMap_of_no_equals hbetween, List.nil_append]
    cases harg : bootArg? last with
    | none => rw [List.filterMap_cons_none harg]; rfl
    | some arg => rw [List.filterMap_cons_some harg]; rfl
  rw [Exact, hbefore, hargs, scan_across h hequals hclosing]
  by_cases hunfinished : ∃ t ∈ rest.takeWhile fun token => equals ∉ token, Unfinished t
  · refine iff_of_false ?_ ?_
    · rintro ⟨-, hprefixes⟩
      rw [hsplit, argsBefore_unfinished hbetween hunfinished] at hprefixes
      exact absurd (List.prefix_nil.mp hprefixes) (List.cons_ne_nil _ _)
    · rintro ⟨-, hnot, -⟩
      obtain ⟨t, ht, h'⟩ := hunfinished
      exact hnot t ht h'
  have hall : ∀ t ∈ rest.takeWhile fun token => equals ∉ token, ¬ Unfinished t := fun t ht h' =>
    hunfinished ⟨t, ht, h'⟩
  have hrest : argsBefore rest = (bootArg? last).toList ++ argsBefore behind := by
    conv_lhs => rw [hsplit]
    exact argsBefore_append hbetween hlast hall
  have hfinishes : (∀ t ∈ token :: rest, ¬ Unfinished t) ↔ ∀ t ∈ behind, ¬ Unfinished t := by
    constructor
    · intro h' t ht
      refine h' t ?_
      rw [hsplit]
      exact List.mem_cons_of_mem _ (List.mem_append_right _ (List.mem_cons_of_mem _ ht))
    · intro h' t ht
      rw [hsplit] at ht
      rcases List.mem_cons.mp ht with rfl | ht
      · exact hfinished
      rcases List.mem_append.mp ht with ht | ht
      · exact hall t ht
      rcases List.mem_cons.mp ht with rfl | ht
      · exact fun h'' => h''.2 hlast
      · exact h' t ht
  rw [hrest, hfinishes]
  cases harg : bootArg? last with
  | none =>
    refine iff_of_false ?_ ?_
    · rintro ⟨-, hprefixes⟩
      have hlength := hprefixes.length_le
      have := length_args_le _ behind rfl
      have := argsBefore_sublist behind
      rw [List.length_cons] at hlength
      simp only [Option.toList_none, List.nil_append] at hlength
      omega
    · rintro ⟨-, -, -, ⟨value, h', -⟩, -⟩
      cases h'
  | some arg =>
    obtain ⟨name, value⟩ := arg
    obtain ⟨hvalue, hname, -⟩ := bootArg?_some harg
    replace hvalue : value = valueOfArg last := hvalue
    obtain ⟨back, hback⟩ := across_eq (rest.takeWhile fun token => equals ∉ token) last
    have hclamped : clamped (found.drop androidBootArgPrefix.length ++
          across (rest.takeWhile fun token => equals ∉ token) last) (valueOfArg last) =
          (name, value) ↔
        (maxAndroidBootArgSize - 1 ≤ (found.drop androidBootArgPrefix.length).length ∧
          (found.drop androidBootArgPrefix.length).take (maxAndroidBootArgSize - 1) = name) ∧
        value.length < maxAndroidBootValSize := by
      have hsize : maxAndroidBootValSize = 256 := rfl
      rw [clamped, ← hvalue, hback, Prod.mk.injEq,
        take_eq_iff (fun hmem => hblankLast (hname _ hmem)), List.take_eq_self_iff]
      exact and_congr_right fun _ => by omega
    simp only [Option.toList_some, List.singleton_append, List.cons_prefix_cons, List.cons.injEq,
      Option.some.injEq, Prod.mk.injEq]
    rw [hclamped]
    constructor
    · rintro ⟨hend, ⟨⟨hlong, hsame⟩, hfits⟩, hprefixes⟩
      exact ⟨ hprefix, hall, hlong, ⟨value, ⟨hsame.symm, rfl⟩, hfits⟩,
        fun hwhole => ⟨(hend hwhole).1.2, (hend hwhole).2⟩, hprefixes⟩
    · rintro ⟨-, -, hlong, ⟨value', ⟨hsame, rfl⟩, hfits⟩, hend, hprefixes⟩
      exact ⟨fun hwhole => ⟨⟨⟨⟨hlong, hsame.symm⟩, hfits⟩, (hend hwhole).1⟩, (hend hwhole).2⟩,
        ⟨⟨hlong, hsame.symm⟩, hfits⟩, hprefixes⟩

theorem exact_iff_plain (size : Nat) : ∀ tokens : List (List UInt8), tokens.length = size →
    (∀ t ∈ tokens, blank ∉ t) → (Exact tokens ↔ Plain tokens) := by
  induction size using Nat.strong_induction_on with
  | _ size ih =>
    intro tokens hsize hblank
    cases tokens with
    | nil =>
      rw [Plain, Exact, scan]
      exact iff_of_true ⟨fun _ => ⟨rfl, by intros; contradiction⟩, List.nil_prefix⟩ trivial
    | cons token rest =>
      rw [List.length_cons] at hsize
      have hrest := ih rest.length (by omega) rest rfl (List.forall_mem_cons.mp hblank).2
      cases hsearch : asciiStrStr token androidBootArgPrefix with
      | none =>
        obtain ⟨harg, hfinished⟩ := bootArg?_of_none hsearch
        rw [exact_skip (scan_none hsearch) harg hfinished, plain_none hsearch, hrest]
      | some found =>
        obtain ⟨front, hfront, hfound⟩ := found_eq hsearch
        by_cases hequals : equals ∈ found.drop androidBootArgPrefix.length
        · rw [plain_equals hsearch hequals, ← hrest]
          have hfinished : ¬ Unfinished token := fun h => h.2 (by
            rw [hfront]
            exact List.mem_append_right _ (List.mem_of_mem_drop hequals))
          by_cases hprefix : androidBootArgPrefix <+: token
          · have hwhole := (asciiStrStr_prefixed hprefix).symm.trans hsearch
            cases hwhole
            have harg : bootArg? token = some (nameOfArg (token.drop androidBootArgPrefix.length),
                valueOfArg (token.drop androidBootArgPrefix.length)) :=
              if_pos ⟨ hprefix, List.mem_of_mem_drop hequals⟩
            rw [← and_assoc (b := _ < maxAndroidBootValSize), ← clamped_eq_iff]
            unfold Exact argsBefore
            rw [scan_equals hsearch hequals, List.filterMap_cons_some harg,
              List.takeWhile_cons_of_pos (by simpa using hfinished),
              List.filterMap_cons_some harg, List.forall_mem_cons, List.cons_prefix_cons]
            constructor
            · rintro ⟨hwhole, heq, hbefore⟩
              exact ⟨ hprefix, heq, fun hend => ⟨(List.cons.inj (hwhole hend).1).2,
                (hwhole hend).2.2⟩, hbefore⟩
            · rintro ⟨-, heq, hwhole, hbefore⟩
              exact ⟨fun hend => ⟨by rw [heq, (hwhole hend).1], hfinished, (hwhole hend).2⟩, heq,
                hbefore⟩
          · refine iff_of_false ?_ fun h => hprefix h.1
            rintro ⟨-, hbefore⟩
            -- one argument more is handed on than there are
            have hnone : bootArg? token = none := if_neg fun h => hprefix h.1
            have hlength := hbefore.length_le.trans (argsBefore_sublist _)
            rw [scan_equals hsearch hequals, List.length_cons, List.filterMap_cons_none hnone]
              at hlength
            have := length_args_le _ rest rfl
            omega
        · cases hclosing : closing rest with
          | nil =>
            refine iff_of_true ?_ (plain_missed hsearch hequals hclosing)
            rw [Exact, scan_missed hsearch hequals hclosing]
            exact ⟨by intros; contradiction, List.nil_prefix⟩
          | cons last behind =>
            obtain ⟨hsplit, -, -⟩ := closing_eq hclosing
            have hlength := congrArg List.length hsplit
            rw [List.length_append, List.length_cons] at hlength
            rw [exact_across hblank hsearch hequals hclosing, plain_across hsearch hequals hclosing,
              ih behind.length (by omega) behind rfl fun t ht => hblank t (by
                rw [hsplit]
                exact List.mem_cons_of_mem _ (List.mem_append_right _ (List.mem_cons_of_mem _ ht)))]

/-- The boot arguments are handed on as they should be exactly if each token with the prefix is a
boot argument that fits, up to one behind whose prefix the line has no equals sign any more, and but
for a coincidence. -/
theorem boot_args_law (cmdline : CString) : Transfers cmdline ↔ Plain (tokens cmdline) := by
  obtain ⟨token, rest, hsplit, -, hblank⟩ := splitOn_blank cmdline.chars
  have htokens : tokens cmdline = token :: rest := hsplit
  rw [transfers_iff_exact, htokens, exact_iff_plain _ _ rfl hblank]

/-- The line `xandroidboot.a=1`. -/
def embedded : CString :=
  ⟨0x78 :: (androidBootArgPrefix ++ [0x61, 0x3D, 0x31]), by simp [androidBootArgPrefix]⟩

/-- The prefix inside another token makes an argument. -/
theorem embedded_prefix_handed : ¬ ∀ cmdline, Transfers cmdline := by
  intro h
  have hexact := (transfers_iff_exact embedded).mp (h embedded)
  have htokens : tokens embedded = [embedded.chars] := by decide
  rw [htokens, exact_iff_plain 1 _ rfl (by decide)] at hexact
  have hsearch : asciiStrStr embedded.chars androidBootArgPrefix =
      some (androidBootArgPrefix ++ [0x61, 0x3D, 0x31]) := by decide
  rw [plain_equals hsearch (by decide)] at hexact
  exact absurd hexact.1 (by decide)

end AndroidBootDxe
