import Edk2Nvidia.SequentialRecord.DeleteVariables

/-! The clearing of the store ends and keeps the protected variables, and when nothing else is left
behind it. -/
namespace SequentialRecordComm
open VarMeasure (EfiGuid VarName Variable)

variable {env : Environment} {store final : Store} {v : Variable} {n fuel : Nat}

/-! The enumeration. -/

theorem not_mem_of_key {front rest : List Variable}
    (hdistinct : ((front ++ v :: rest).map Variable.key).Nodup) :
    (∀ w ∈ front, w.key ≠ v.key) ∧ ∀ w ∈ rest, w.key ≠ v.key := by
  rw [List.map_append, List.map_cons] at hdistinct
  obtain ⟨-, hrest, happart⟩ := List.nodup_append.mp hdistinct
  refine ⟨fun w hw => happart _ (List.mem_map_of_mem hw) _ List.mem_cons_self, fun w hw heq => ?_⟩
  exact (List.nodup_cons.mp hrest).1 (heq ▸ List.mem_map_of_mem hw)

theorem eq_of_key (store : Store) {w : Variable} (hv : v ∈ store.vars) (hw : w ∈ store.vars)
    (hkey : w.key = v.key) : w = v := List.inj_on_of_nodup_map store.distinct hw hv hkey

theorem enumerateFrom_eq {front rest : List Variable} (hvars : store.vars = front ++ v :: rest) :
    enumerateFrom store.vars v.key = .ok rest := by
  have hnamed : v.varName.chars ≠ [] := store.named v (by rw [hvars]; simp)
  have hdistinct := store.distinct
  rw [hvars] at hdistinct ⊢
  unfold enumerateFrom
  rw [if_neg (show v.key.2.chars ≠ [] from hnamed), List.dropWhile_append_of_pos
    (fun w hw => by simpa using (not_mem_of_key hdistinct).1 w hw)]
  simp

theorem smmGetNextVariableName_mem {last key : EfiGuid × VarName}
    (h : smmGetNextVariableName env n store last = .ok key) :
    ∃ front next rest, store.vars = front ++ next :: rest ∧ next.key = key ∧
      enumerateFrom store.vars last = .ok (next :: rest) := by
  unfold smmGetNextVariableName at h
  split at h
  · cases h
  split at h
  · cases h
  · cases h
  next next rest henumerate =>
    split at h
    · cases h
    · have hkey := Except.ok.inj h
      have hsuffix : next :: rest <:+ store.vars := by
        unfold enumerateFrom at henumerate
        split at henumerate
        · have hall : store.vars = next :: rest := Except.ok.inj henumerate
          exact hall ▸ List.suffix_rfl
        generalize hdrop : store.vars.dropWhile _ = dropped at henumerate
        cases dropped with
        | nil => cases henumerate
        | cons last' rest' =>
          cases henumerate
          exact (List.suffix_cons _ _).trans (hdrop ▸ List.dropWhile_suffix _)
      obtain ⟨front, hfront⟩ := hsuffix
      exact ⟨front, next, rest, hfront.symm, hkey, henumerate⟩

/-! The deletion. -/

theorem mem_without {key : EfiGuid × VarName} :
    v ∈ (store.without env n key).vars ↔ v ∈ store.vars ∧ v.key ≠ key := by
  rw [Store.without, (env.arrange_perm n _).mem_iff, List.mem_filter, decide_eq_true_eq]

theorem mem_smmSetVariable {key : EfiGuid × VarName}
    (h : v ∈ (smmSetVariable env n store key).vars) : v ∈ store.vars := by
  unfold smmSetVariable at h
  split at h
  · exact h
  split at h
  · exact (mem_without.mp h).1
  · exact h

theorem mem_smmSetVariable_of_ne {key : EfiGuid × VarName} (hv : v ∈ store.vars) (hne : v.key ≠ key) :
    v ∈ (smmSetVariable env n store key).vars := by
  unfold smmSetVariable
  split
  · exact hv
  split
  · exact mem_without.mpr ⟨hv, hne⟩
  · exact hv

/-! The protection. -/

theorem find_productInfo (store : Store) {info : Variable} (hinfo : info ∈ store.vars)
    (hkey : IsProductInfo info) :
    store.vars.find? (fun v => v.key = (gNvidiaPublicVariableGuid, productInfoVariableName)) =
      some info := by
  cases hfind : store.vars.find? fun v =>
      v.key = (gNvidiaPublicVariableGuid, productInfoVariableName) with
  | none =>
    have hnone := List.find?_eq_none.mp hfind info hinfo
    exact absurd (show info.key = _ from hkey) (by simpa using hnone)
  | some found =>
    have hfound : found.key = (gNvidiaPublicVariableGuid, productInfoVariableName) := by
      simpa using List.find?_some hfind
    rw [eq_of_key store hinfo (List.mem_of_find?_eq_some hfind) (hfound.trans hkey.symm)]

/-- The check tells the protected variables, but for what it finds on the stack. -/
theorem isVariableProtectedStmm_iff (stack : UInt8) (store : Store) (v : Variable) :
    isVariableProtectedStmm stack store v.key = true ↔
      Protected (Flagged store.vars) v ∨ Guarded v ∧ CutShort store.vars ∧ stack ≠ 0 := by
  have hguarded : (productInfoVariableName.chars.isPrefixOf v.key.2.chars &&
      decide (v.key.1 = gNvidiaPublicVariableGuid)) = true ↔ Guarded v := by
    rw [Bool.and_eq_true, List.isPrefixOf_iff_prefix, decide_eq_true_eq]
    rfl
  unfold isVariableProtectedStmm Protected
  by_cases hauth : v.varGuid = gUserAuthenticationGuid
  · rw [if_pos (show v.key.1 = _ from hauth)]
    exact ⟨fun _ => .inl (.inl hauth), fun _ => rfl⟩
  rw [if_neg (show ¬ v.key.1 = _ from hauth)]
  by_cases hexists : ∃ info ∈ store.vars, IsProductInfo info
  · obtain ⟨info, hinfo, hkey⟩ := hexists
    rw [find_productInfo store hinfo hkey]
    have hflagged : Flagged store.vars ↔ offsetOfAssetTagProtection < info.data.length ∧
        info.data.length ≤ sizeofProductInfo ∧
          info.data.getD offsetOfAssetTagProtection 0 ≠ 0 := by
      constructor
      · rintro ⟨w, hw, hwkey, h⟩
        rwa [eq_of_key store hinfo hw (hwkey.trans hkey.symm)] at h
      · exact fun h => ⟨info, hinfo, hkey, h⟩
    have hcut : CutShort store.vars ↔ info.data.length ≤ offsetOfAssetTagProtection := by
      constructor
      · rintro ⟨w, hw, hwkey, h⟩
        rwa [eq_of_key store hinfo hw (hwkey.trans hkey.symm)] at h
      · exact fun h => ⟨info, hinfo, hkey, h⟩
    have hoffset : offsetOfAssetTagProtection ≤ sizeofProductInfo := by decide
    rw [hflagged, hcut]
    simp only
    by_cases hlarge : sizeofProductInfo < info.data.length
    · rw [if_pos hlarge]
      refine iff_of_false (by decide) ?_
      rintro ((h | h) | h)
      · exact hauth h
      · exact absurd h.2.2.1 (Nat.not_le.mpr hlarge)
      · exact absurd (h.2.1.trans hoffset) (Nat.not_le.mpr hlarge)
    · rw [if_neg hlarge, Bool.and_assoc, Bool.and_eq_true, hguarded, decide_eq_true_eq]
      by_cases hlong : offsetOfAssetTagProtection < info.data.length
      · rw [List.getD_eq_getElem _ _ hlong, List.getD_eq_getElem _ _ hlong]
        constructor
        · rintro ⟨hbyte, h⟩
          exact .inl (.inr ⟨h, hlong, Nat.not_lt.mp hlarge, hbyte⟩)
        · rintro ((h | h) | h)
          · exact absurd h hauth
          · exact ⟨h.2.2.2, h.1⟩
          · exact absurd h.2.1 (Nat.not_le.mpr hlong)
      · rw [List.getD_eq_default _ _ (Nat.not_lt.mp hlong)]
        constructor
        · rintro ⟨hbyte, h⟩
          exact .inr ⟨h, Nat.not_lt.mp hlong, hbyte⟩
        · rintro ((h | h) | h)
          · exact absurd h hauth
          · exact absurd h.2.1 hlong
          · exact ⟨h.2.2, h.1⟩
  · have hnone : store.vars.find? (fun v =>
        v.key = (gNvidiaPublicVariableGuid, productInfoVariableName)) = none :=
      List.find?_eq_none.mpr fun w hw h =>
        hexists ⟨w, hw, show w.key = _ by simpa using h⟩
    rw [hnone]
    refine iff_of_false Bool.false_ne_true ?_
    rintro ((h | h) | h)
    · exact hauth h
    · obtain ⟨info, hinfo, hkey, -⟩ := h.2
      exact hexists ⟨info, hinfo, hkey⟩
    · obtain ⟨info, hinfo, hkey, -⟩ := h.2.1
      exact hexists ⟨info, hinfo, hkey⟩

theorem guarded_productInfo (h : IsProductInfo v) : Guarded v := by
  have hname : v.varName = productInfoVariableName := congrArg Prod.snd h
  exact ⟨hname ▸ List.prefix_rfl, congrArg Prod.fst h⟩

theorem kept_step {cur : EfiGuid × VarName}
    (hcheck : isVariableProtectedStmm (env.stack n) store cur = false) (hv : v ∈ store.vars)
    (hprotected : Protected (Flagged store.vars) v) :
    v ∈ (smmSetVariable env n store cur).vars := by
  refine mem_smmSetVariable_of_ne hv fun heq => ?_
  rw [← heq, (isVariableProtectedStmm_iff _ _ _).mpr (.inl hprotected)] at hcheck
  cases hcheck

theorem flagged_step {cur : EfiGuid × VarName}
    (hcheck : isVariableProtectedStmm (env.stack n) store cur = false) :
    Flagged (smmSetVariable env n store cur).vars ↔ Flagged store.vars := by
  constructor
  · rintro ⟨info, hinfo, h⟩
    exact ⟨info, mem_smmSetVariable hinfo, h⟩
  · intro hflagged
    obtain ⟨info, hinfo, hkey, h⟩ := id hflagged
    exact ⟨info, kept_step hcheck hinfo (.inr ⟨guarded_productInfo hkey, hflagged⟩), hkey, h⟩

/-! The run. -/

theorem kept_run {status : Except EfiStatus (EfiGuid × VarName)}
    (hrun : deleteLoop env fuel n store status = some final) :
    (Flagged final.vars ↔ Flagged store.vars) ∧
      (∀ v ∈ store.vars, Protected (Flagged store.vars) v → v ∈ final.vars) ∧
        ∀ v ∈ final.vars, v ∈ store.vars := by
  induction fuel generalizing n store status with
  | zero => cases hrun
  | succ fuel ih =>
    cases status with
    | error status =>
      cases hrun
      exact ⟨Iff.rfl, fun _ hv _ => hv, fun _ hv => hv⟩
    | ok cur =>
      rw [deleteLoop] at hrun
      split at hrun
      · exact ih hrun
      next hcheck =>
        have hcheck := Bool.eq_false_iff.mpr hcheck
        obtain ⟨hflag, hkept, hmem⟩ := ih hrun
        have hstep := flagged_step hcheck
        refine ⟨hflag.trans hstep, fun v hv hprotected => ?_, fun v hv =>
          mem_smmSetVariable (hmem v hv)⟩
        refine hkept v (kept_step hcheck hv hprotected) ?_
        rwa [Protected, hstep]

theorem smmSetVariable_cases (env : Environment) (n : Nat) (store : Store)
    (key : EfiGuid × VarName) :
    smmSetVariable env n store key = store ∨
      (smmSetVariable env n store key).vars.length < store.vars.length := by
  unfold smmSetVariable
  split
  · exact .inl rfl
  split
  next hmem =>
    obtain ⟨v, hv, rfl⟩ := List.mem_map.mp hmem
    right
    rw [Store.without, (env.arrange_perm n _).length_eq]
    exact List.length_filter_lt_length_iff_exists.mpr ⟨v, hv, by simp⟩
  · exact .inl rfl

/-- A pass goes on behind the variable, or with a smaller store. -/
theorem pass_ends {front rest : List Variable} (hvars : store.vars = front ++ v :: rest)
    (hbehind : ∀ next rest', rest = next :: rest' → ∀ n, ∃ fuel final,
      deleteLoop env fuel n store (.ok next.key) = some final)
    (hless : ∀ store' : Store, store'.vars.length < store.vars.length → ∀ w ∈ store'.vars, ∀ n,
      ∃ fuel final, deleteLoop env fuel n store' (.ok w.key) = some final) (n : Nat) :
    ∃ fuel final, deleteLoop env fuel n store (.ok v.key) = some final := by
  cases hnext : smmGetNextVariableName env (n + 1) store v.key with
  | error status =>
    refine ⟨2, ?_⟩
    simp only [deleteLoop, hnext]
    split
    · exact ⟨_, rfl⟩
    · exact ⟨_, rfl⟩
  | ok key =>
    obtain ⟨-, next, rest', -, rfl, henumerate⟩ := smmGetNextVariableName_mem hnext
    rw [enumerateFrom_eq hvars] at henumerate
    have hrest := Except.ok.inj henumerate
    cases hcheck : isVariableProtectedStmm (env.stack n) store v.key with
    | true =>
      obtain ⟨fuel, final, hrun⟩ := hbehind next rest' hrest (n + 1)
      refine ⟨fuel + 1, final, ?_⟩
      rwa [deleteLoop, hnext, if_pos hcheck]
    | false =>
      have hstep : ∃ fuel final, deleteLoop env fuel (n + 1) (smmSetVariable env n store v.key)
          (.ok next.key) = some final := by
        rcases smmSetVariable_cases env n store v.key with hsame | hsmaller
        · rw [hsame]
          exact hbehind next rest' hrest (n + 1)
        · have hdistinct := store.distinct
          rw [hvars] at hdistinct
          refine hless _ hsmaller next (mem_smmSetVariable_of_ne ?_ ?_) (n + 1)
          · rw [hvars, hrest]
            simp
          · exact (not_mem_of_key hdistinct).2 next (hrest ▸ List.mem_cons_self)
      obtain ⟨fuel, final, hrun⟩ := hstep
      refine ⟨fuel + 1, final, ?_⟩
      rwa [deleteLoop, hnext, if_neg (by rw [hcheck]; decide)]

theorem deleteLoop_ends (env : Environment) (size : Nat) :
    ∀ store : Store, store.vars.length = size → ∀ v ∈ store.vars, ∀ n, ∃ fuel final,
      deleteLoop env fuel n store (.ok v.key) = some final := by
  induction size using Nat.strong_induction_on with
  | _ size ihSize =>
    intro store hsize
    have hless : ∀ store' : Store, store'.vars.length < store.vars.length → ∀ w ∈ store'.vars,
        ∀ n, ∃ fuel final, deleteLoop env fuel n store' (.ok w.key) = some final :=
      fun store' hlt => ihSize _ (hsize ▸ hlt) store' rfl
    have hall : ∀ rest front v, store.vars = front ++ v :: rest → ∀ n, ∃ fuel final,
        deleteLoop env fuel n store (.ok v.key) = some final := by
      intro rest
      induction rest with
      | nil =>
        intro front v hvars
        exact pass_ends hvars (fun _ _ h => by cases h) hless
      | cons w rest ihRest =>
        intro front v hvars
        refine pass_ends hvars (fun next rest' hrest => ?_) hless
        cases hrest
        exact ihRest (front ++ [v]) w (by rw [hvars]; simp)
    intro v hv
    obtain ⟨front, rest, hvars⟩ := List.append_of_mem hv
    exact hall rest front v hvars

theorem deleteNsVars_ends (env : Environment) (store : Store) :
    ∃ fuel result, deleteNsVars env store fuel = some result := by
  have hloop : ∃ fuel final, deleteLoop env fuel 0 store
      (smmGetNextVariableName env 0 store zeroed) = some final := by
    cases hfirst : smmGetNextVariableName env 0 store zeroed with
    | error status => exact ⟨1, store, rfl⟩
    | ok key =>
      obtain ⟨front, v, rest, hvars, rfl, -⟩ := smmGetNextVariableName_mem hfirst
      exact deleteLoop_ends env _ store rfl v (by rw [hvars]; simp) 0
  obtain ⟨fuel, final, hrun⟩ := hloop
  refine ⟨fuel, ?_⟩
  unfold deleteNsVars
  split
  · exact ⟨_, rfl⟩
  split
  · exact ⟨_, rfl⟩
  split
  · exact ⟨_, rfl⟩
  · rw [hrun]
    exact ⟨_, rfl⟩

theorem deleteNsVars_cases {status : EfiStatus}
    (hrun : deleteNsVars env store fuel = some (status, final)) :
    Refused env ∧ status ≠ .success ∧ final = store ∨
      ¬ Refused env ∧ status = .success ∧ deleteLoop env fuel 0 store
        (smmGetNextVariableName env 0 store zeroed) = some final := by
  unfold deleteNsVars at hrun
  split at hrun
  next h =>
    cases hrun
    exact .inl ⟨.inl h, by decide, rfl⟩
  next hprotocol =>
    split at hrun
    next h =>
      cases hrun
      exact .inl ⟨.inr (.inl h), by decide, rfl⟩
    next hfirst =>
      split at hrun
      next h =>
        cases hrun
        exact .inl ⟨.inr (.inr h), by decide, rfl⟩
      next hsecond =>
        obtain ⟨store', hloop, heq⟩ := Option.map_eq_some_iff.mp hrun
        cases heq
        refine .inr ⟨?_, rfl, hloop⟩
        rintro (h | h | h)
        · exact hprotocol h
        · exact hfirst h
        · exact hsecond h

/-! What is left. -/

/-- The answer to the call for the first of these variables. -/
def offer (env : Environment) (n : Nat) : List Variable → Except EfiStatus (EfiGuid × VarName)
  | [] => match env.getNextFails n with
    | some status => .error status
    | none => .error .notFound
  | v :: _ => match env.getNextFails n with
    | some status => .error status
    | none => if maxVarName < nameSize v.varName then .error .bufferTooSmall else .ok v.key

theorem smmGetNextVariableName_eq {last : EfiGuid × VarName} {rest : List Variable}
    (h : enumerateFrom store.vars last = .ok rest) :
    smmGetNextVariableName env n store last = offer env n rest := by
  unfold smmGetNextVariableName
  rw [h]
  cases rest with
  | nil => cases hfails : env.getNextFails n <;> simp [offer, hfails]
  | cons v rest => cases hfails : env.getNextFails n <;> simp [offer, hfails]

theorem offer_cons (env : Environment) (n : Nat) (v : Variable) (rest : List Variable) :
    Offered env n v ∧ offer env n (v :: rest) = .ok v.key ∨
      ¬ Offered env n v ∧ ∃ status, offer env n (v :: rest) = .error status := by
  unfold Offered offer
  cases hfails : env.getNextFails n with
  | some status => exact .inr ⟨fun h => (nomatch h.1), status, rfl⟩
  | none =>
    by_cases hsize : maxVarName < nameSize v.varName
    · exact .inr ⟨fun h => absurd h.2 (Nat.not_le.mpr hsize), _, if_pos hsize⟩
    · exact .inl ⟨⟨rfl, Nat.not_lt.mp hsize⟩, if_neg hsize⟩

/-- Deletions leave the other variables in their order. -/
def KeepsOrder (env : Environment) : Prop := ∀ n vars, env.arrange n vars = vars

theorem smmSetVariable_vars (hkeeps : KeepsOrder env) {kept rest : List Variable}
    (hvars : store.vars = kept ++ v :: rest) (hset : env.setFails n = none) :
    (smmSetVariable env n store v.key).vars = kept ++ rest := by
  have hdistinct := store.distinct
  rw [hvars] at hdistinct
  obtain ⟨hkept, hrest⟩ := not_mem_of_key hdistinct
  unfold smmSetVariable
  rw [hset]
  simp only
  rw [if_pos (List.mem_map_of_mem (by rw [hvars]; simp)), Store.without]
  simp only
  rw [hkeeps, hvars, List.filter_append, List.filter_cons_of_neg (by simp),
    List.filter_eq_self.mpr (fun w hw => by simpa using hkept w hw),
    List.filter_eq_self.mpr (fun w hw => by simpa using hrest w hw)]

/-- Past the variables in front nothing is deleted any more; only protected ones are left exactly if
these are, and the loop meets nothing that comes in between. -/
theorem deleteLoop_complete_iff (hkeeps : KeepsOrder env) {flagged : Prop} {rest kept : List Variable}
    (hflagged : Flagged store.vars ↔ flagged) (hvars : store.vars = kept ++ rest)
    (hrun : deleteLoop env fuel n store (offer env n rest) = some final) :
    (∀ w ∈ final.vars, Protected flagged w) ↔
      (∀ w ∈ kept, Protected flagged w) ∧ Clearable env flagged n rest := by
  induction rest generalizing kept n fuel store with
  | nil =>
    have hfinal : final = store := by
      cases fuel with
      | zero => cases hrun
      | succ fuel =>
        unfold offer at hrun
        cases hfails : env.getNextFails n with
        | none => rw [hfails] at hrun; exact (Option.some.inj hrun).symm
        | some status => rw [hfails] at hrun; exact (Option.some.inj hrun).symm
    rw [hfinal, hvars, List.append_nil]
    exact ⟨fun h => ⟨h, trivial⟩, fun h => h.1⟩
  | cons v rest ih =>
    rcases offer_cons env n v rest with ⟨hoffered, hanswer⟩ | ⟨hnot, status, hanswer⟩
    · cases fuel with
      | zero => cases hrun
      | succ fuel =>
        rw [hanswer, deleteLoop, smmGetNextVariableName_eq (enumerateFrom_eq hvars)] at hrun
        have hcheck := isVariableProtectedStmm_iff (env.stack n) store v
        have hclear : Clearable env flagged n (v :: rest) ↔
            (Protected flagged v ∨ env.setFails n = none ∧
              ¬ (Guarded v ∧ CutShort (v :: rest) ∧ env.stack n ≠ 0)) ∧
            Clearable env flagged (n + 1) rest := by
          rw [Clearable]
          exact ⟨fun h => h.elim (fun h => h.2) (fun h => absurd hoffered h.1),
            fun h => .inl ⟨hoffered, h⟩⟩
        have hprotected : Protected (Flagged store.vars) v ↔ Protected flagged v := by
          rw [Protected, Protected, hflagged]
        have hsplit : (∀ w ∈ kept ++ [v], Protected flagged w) ↔
            (∀ w ∈ kept, Protected flagged w) ∧ Protected flagged v := by
          rw [List.forall_mem_append, List.forall_mem_singleton]
        have hfront : store.vars = (kept ++ [v]) ++ rest := by rw [hvars]; simp
        rw [hclear]
        by_cases hstays : isVariableProtectedStmm (env.stack n) store v.key = true
        · rw [if_pos hstays] at hrun
          rw [ih hflagged hfront hrun, hsplit, and_assoc]
          refine and_congr_right fun hkept => and_congr_left fun _ => ?_
          constructor
          · exact .inl
          · rintro (h | ⟨-, htold⟩)
            · exact h
            rcases hcheck.mp hstays with h | ⟨hguarded, hcut, hstack⟩
            · exact hprotected.mp h
            · exfalso
              -- the short product info is not protected, so it is not among the variables in front
              refine htold ⟨hguarded, ?_, hstack⟩
              obtain ⟨info, hinfo, hkey, hshort⟩ := hcut
              refine ⟨info, ?_, hkey, hshort⟩
              rw [hvars] at hinfo
              rcases List.mem_append.mp hinfo with hin | hin
              · exfalso
                have hflag := hflagged.mpr ((hkept info hin).elim (fun h => ?_) fun h => h.2)
                · obtain ⟨other, hother, hotherKey, hlong, -⟩ := hflag
                  rw [eq_of_key store (hvars ▸ List.mem_append_left _ hin) hother
                    (hotherKey.trans hkey.symm)] at hlong
                  exact absurd hshort (Nat.not_le.mpr hlong)
                · rw [(guarded_productInfo hkey).2] at h
                  exact absurd h (by decide +kernel)
              · exact hin
        · rw [if_neg hstays] at hrun
          have hunprotected : ¬ Protected flagged v := fun h =>
            hstays (hcheck.mpr (.inl (hprotected.mpr h)))
          cases hset : env.setFails n with
          | some status =>
            rw [show smmSetVariable env n store v.key = store by
              unfold smmSetVariable; rw [hset]] at hrun
            rw [ih hflagged hfront hrun, hsplit]
            refine iff_of_false (fun h => hunprotected h.1.2) ?_
            rintro ⟨-, (h | h), -⟩
            · exact hunprotected h
            · exact nomatch h.1
          | none =>
            have hflag := flagged_step (Bool.eq_false_iff.mpr hstays)
            rw [ih (hflag.trans hflagged) (smmSetVariable_vars hkeeps hvars hset)
              hrun]
            refine and_congr_right fun _ => ⟨fun h => ⟨.inr ⟨rfl, ?_⟩, h⟩, fun h => h.2⟩
            rintro ⟨hguarded, ⟨info, hinfo, h⟩, hstack⟩
            exact hstays (hcheck.mpr (.inr ⟨hguarded,
              ⟨info, hvars ▸ List.mem_append_right _ hinfo, h⟩, hstack⟩))
    · have hfinal : final = store := by
        cases fuel with
        | zero => cases hrun
        | succ fuel => rw [hanswer] at hrun; exact (Option.some.inj hrun).symm
      rw [hfinal, hvars, List.forall_mem_append]
      refine and_congr_right fun _ => ?_
      rw [Clearable]
      exact ⟨fun h => .inr ⟨hnot, h⟩, fun h => h.elim (fun h => absurd h.1 hnot) fun h => h.2⟩

/-- The clearing ends and keeps the protected variables, whatever fails and however deletions leave
the enumeration. Where they keep its order, success means that only protected variables are left
exactly if nothing comes in between. -/
theorem variable_clearing_law (env : Environment) (store : Store) :
    (∃ fuel result, deleteNsVars env store fuel = some result) ∧
      (∀ fuel status final, deleteNsVars env store fuel = some (status, final) →
        ∀ v ∈ store.vars, Protected (Flagged store.vars) v → v ∈ final.vars) ∧
      (KeepsOrder env → (Clears env store ↔
        Refused env ∨ Clearable env (Flagged store.vars) 0 store.vars)) := by
  have hends := deleteNsVars_ends env store
  have hkept : ∀ fuel status final, deleteNsVars env store fuel = some (status, final) →
      ∀ v ∈ store.vars, Protected (Flagged store.vars) v → v ∈ final.vars := by
    intro fuel status final hrun
    rcases deleteNsVars_cases hrun with ⟨-, -, rfl⟩ | ⟨-, -, hloop⟩
    · exact fun v hv _ => hv
    · exact (kept_run hloop).2.1
  refine ⟨hends, hkept, fun hkeeps => ?_⟩
  have hall : ∀ {fuel final}, deleteLoop env fuel 0 store
      (smmGetNextVariableName env 0 store zeroed) = some final →
      ((∀ w ∈ final.vars, Protected (Flagged final.vars) w) ↔
        Clearable env (Flagged store.vars) 0 store.vars) := by
    intro fuel final hloop
    rw [(kept_run hloop).1]
    rw [smmGetNextVariableName_eq (show enumerateFrom store.vars zeroed = .ok store.vars from rfl)]
      at hloop
    rw [deleteLoop_complete_iff hkeeps Iff.rfl (List.nil_append _).symm hloop]
    exact ⟨fun h => h.2, fun h => ⟨nofun, h⟩⟩
  constructor
  · intro h
    by_contra hneither
    obtain ⟨hrefused, hclearable⟩ := not_or.mp hneither
    obtain ⟨fuel, ⟨status, final⟩, hrun⟩ := h.ends
    rcases deleteNsVars_cases hrun with ⟨hrefused', -, -⟩ | ⟨-, rfl, hloop⟩
    · exact hrefused hrefused'
    · exact hclearable ((hall hloop).mp (h.complete fuel final hrun))
  · intro h
    refine ⟨hends, hkept, fun fuel final hrun => ?_⟩
    rcases deleteNsVars_cases hrun with ⟨-, hstatus, -⟩ | ⟨hrefused, -, hloop⟩
    · exact absurd rfl hstatus
    · exact (hall hloop).mpr (h.resolve_left hrefused)

/-- A store with one variable, whose deletion fails. -/
def failing : Environment where
  smmVar := true
  allocateZeroPool _ := true
  getNextFails _ := none
  setFails _ := some .deviceError
  stack _ := 0
  arrange _ vars := vars
  arrange_perm _ _ := .refl _

theorem bootOrder_nonzero : (0 : UInt16) ∉ [0x42] := by simp

def bootOrder : Store where
  vars := [⟨⟨[0x42], bootOrder_nonzero⟩, gNvidiaPublicVariableGuid, 0x07, [0x01]⟩]
  distinct := List.nodup_singleton _
  named v hv := by
    rw [List.mem_singleton.mp hv]
    exact List.cons_ne_nil _ _

/-- The deletion fails, and the clearing is said to have succeeded. -/
theorem failed_deletion_succeeds : ¬ ∀ env store, Clears env store := by
  intro h
  have hrun : deleteNsVars failing bootOrder 2 = some (.success, bootOrder) := rfl
  rcases (h failing bootOrder).complete 2 bootOrder hrun _ List.mem_cons_self with hauth | ⟨-, hflag⟩
  · exact absurd hauth (by decide +kernel)
  · obtain ⟨info, hinfo, hkey, -⟩ := hflag
    rw [List.mem_singleton.mp hinfo] at hkey
    exact absurd hkey (by decide +kernel)

end SequentialRecordComm
