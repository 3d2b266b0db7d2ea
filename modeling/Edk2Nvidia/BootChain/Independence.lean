import Edk2Nvidia.BootChain.ExecuteUpdate

/-! When requests to switch the boot chain are independent. Where there is no request there is no
bookkeeping, and nothing but the deletion of a request on its own breaks this. -/
namespace BootChainDxe
open Effect Transition

@[simp] theorem vars_write (s : Store) (v w : BcVariable) (value : Option Nat) :
    (s.write v value).vars w = if w = v then value else s.vars w := rfl

theorem Store.write_eq {s : Store} {v : BcVariable} {value : Option Nat} (h : s.vars v = value) :
    s.write v value = s := by
  have hvars : (s.write v value).vars = s.vars := by
    funext w
    rw [vars_write]
    split
    · next hw => rw [hw, h]
    · rfl
  exact congrArg (fun vars => { s with vars }) hvars

theorem Store.Clean.new_eq {s : Store} (h : s.Clean) : s.new = s := by
  rw [Store.new, Store.write_eq h.1, Store.write_eq h.2]

/-- Where there is no request there is no bookkeeping. -/
def Store.Kept (s : Store) : Prop := s.vars .next = none → s.Clean

theorem Store.Clean.kept {s : Store} (h : s.Clean) : s.Kept := fun _ => h

theorem Store.kept_of_request {s : Store} (h : s.vars .next ≠ none) : s.Kept := fun hnone =>
  absurd hnone h

/-! What the calls do. -/

section
variable {ok : Answer → Prop} {lost : Call → Store → Prop} {s : Store} {v : BcVariable}
  {Q : Reply → Store → Prop}

theorem wp_getVariable (hlost : lost (.getVariable v) s) (herror : Q .error s)
    (hnone : s.vars v = none → Q .notFound s)
    (hsome : ∀ value, s.vars v = some value → Q (.success value) s) :
    Prog.wp exec ok lost Q (Prog.perform (.getVariable v)) s := by
  refine ⟨hlost, fun fails _ => ?_⟩
  show Q (exec (.getVariable v) fails s).1 (exec (.getVariable v) fails s).2
  unfold exec
  split
  · exact herror
  · cases h : s.vars v with
    | none => simpa only [h] using hnone h
    | some value => simpa only [h] using hsome value h

theorem wp_setVariable {value : Nat} (hlost : lost (.setVariable v value) s) (herror : Q .error s)
    (hset : Q (.success 0) (s.write v (some value))) :
    Prog.wp exec ok lost Q (Prog.perform (.setVariable v value)) s := by
  refine ⟨hlost, fun fails _ => ?_⟩
  show Q (exec (.setVariable v value) fails s).1 (exec (.setVariable v value) fails s).2
  unfold exec
  split
  · exact herror
  · exact hset

theorem wp_deleteVariable (hlost : lost (.deleteVariable v) s)
    (herror : (∃ fails, ok fails ∧ fails (.deleteVariable v) = true) → Q .error s)
    (hdeleted : ∀ r, Q r (s.write v none)) :
    Prog.wp exec ok lost Q (Prog.perform (.deleteVariable v)) s := by
  refine ⟨hlost, fun fails hok => ?_⟩
  show Q (exec (.deleteVariable v) fails s).1 (exec (.deleteVariable v) fails s).2
  unfold exec
  split
  · next hfails => exact herror ⟨fails, hok, hfails⟩
  · by_cases hnone : s.vars v = none
    · have hsame := hdeleted .notFound
      rw [Store.write_eq hnone] at hsame
      simpa only [hnone, if_true] using hsame
    · simpa only [hnone, if_false] using hdeleted (.success 0)

theorem exec_getVariable_snd (fails : Answer) (v : BcVariable) (s : Store) :
    (exec (.getVariable v) fails s).2 = s := by
  unfold exec
  split
  · rfl
  · cases h : s.vars v <;> simp only [h]

theorem wp_perform_vars {c : Call} (hlost : lost c s)
    (hc : (∃ chain, c = .updateFwChain chain) ∨ c = .validateActiveBootChain ∨
      c = .clearUpdateBrBctFlag)
    (hQ : ∀ r s', s'.vars = s.vars → Q r s') : Prog.wp exec ok lost Q (Prog.perform c) s := by
  refine ⟨hlost, fun fails _ => hQ _ _ ?_⟩
  unfold exec
  split
  · rfl
  · rcases hc with ⟨chain, rfl⟩ | rfl | rfl <;> rfl

end

/-! What a boot keeps. -/

/-- The deletion of the bookkeeping does not fail. -/
def Deletes (fails : Answer) : Prop :=
  fails (.deleteVariable .previous) = false ∧ fails (.deleteVariable .resetCount) = false

/-- Where power may be lost: nothing is kept of a request that is gone, unless power is lost as the
count of its resets is to be deleted. -/
def Loses (c : Call) (s : Store) : Prop :=
  (c = .deleteVariable .resetCount ∧ s.vars .resetCount ≠ none) ∨ s.Kept

def Leaves (ended : Ended) (s : Store) : Prop := s.Kept ∧ (ended ≠ .reset → s.Clean)

theorem Store.Clean.leaves {s : Store} (h : s.Clean) (ended : Ended) : Leaves ended s :=
  ⟨h.kept, fun _ => h⟩

section
variable {boot : Boot} {s : Store}

theorem bootOs_wp (bcStatus : Nat) (h : s.Clean) :
    Prog.wp exec Deletes Loses Leaves (bootOs boot bcStatus) s := by
  have hsame : ∀ s' : Store, s'.vars = s.vars → s'.Clean := fun s' hvars => by
    rw [Store.Clean, hvars]
    exact h
  unfold bootOs
  split
  · simp only [brBctUpdateNeeded, Prog.wp_bind]
    have hdone : Prog.wp exec Deletes Loses Leaves (pure .bootOs) s := h.leaves _
    have hupdate : Prog.wp exec Deletes Loses Leaves (do
        let _ ← Prog.perform (.updateFwChain boot.bootChain)
        let _ ← Prog.perform .clearUpdateBrBctFlag
        pure .bootOs : Program Ended) s := by
      simp only [Prog.wp_bind]
      refine wp_perform_vars (.inr h.kept) (.inl ⟨_, rfl⟩) fun _ s₁ h₁ => ?_
      refine wp_perform_vars (.inr (hsame s₁ h₁).kept) (.inr (.inr rfl)) fun _ s₂ h₂ => ?_
      exact (hsame s₂ (h₂.trans h₁)).leaves _
    refine wp_getVariable (.inr h.kept) ?_ ?_ ?_
    · exact hdone
    · intro _
      exact hdone
    · intro value _
      rw [Prog.wp_pure]
      split
      · exact hupdate
      · exact hdone
  · exact h.leaves _

theorem restoreChain_wp (previous : Option Nat) (h : s.Clean) :
    Prog.wp exec Deletes Loses (fun _ s' => s'.Clean) (restoreChain previous) s := by
  cases previous with
  | none => exact h
  | some chain =>
    simp only [restoreChain, Prog.wp_bind]
    refine wp_perform_vars (.inr h.kept) (.inl ⟨_, rfl⟩) fun r s' hvars => ?_
    have hclean : s'.Clean := by
      rw [Store.Clean, hvars]
      exact h
    cases r <;> exact hclean

theorem cleanup_wp (previous : Option Nat) (h : s.Kept) :
    Prog.wp exec Deletes Loses (fun _ s' => s'.Clean) (cleanup previous) s := by
  have hfirst : (s.write .previous none).Kept := fun hnext => ⟨rfl, (h hnext).2⟩
  -- the deletion of the count of resets, wherever it is reached
  have hcount : ∀ s' : Store, s'.vars .previous = none →
      Prog.wp exec Deletes Loses (fun _ s' => s'.Clean) (do
        let _ ← Prog.perform (.deleteVariable .resetCount)
        restoreChain previous : Program Bool) s' := by
    intro s' hprevious
    have hclean : (s'.write .resetCount none).Clean := ⟨hprevious, rfl⟩
    rw [Prog.wp_bind]
    refine wp_deleteVariable ?_ ?_ fun _ => restoreChain_wp previous hclean
    · by_cases hnone : s'.vars .resetCount = none
      · exact .inr fun _ => ⟨hprevious, hnone⟩
      · exact .inl ⟨rfl, hnone⟩
    · rintro ⟨fails, hok, hfails⟩
      exact absurd (hok.2.symm.trans hfails) (by decide)
  unfold cleanup
  rw [Prog.wp_bind]
  refine wp_deleteVariable (.inr h) ?_ fun _ => ?_
  · rintro ⟨fails, hok, hfails⟩
    exact absurd (hok.1.symm.trans hfails) (by decide)
  · rw [Prog.wp_bind]
    exact wp_deleteVariable (.inr hfirst) (fun _ => hcount _ rfl) fun _ => hcount _ rfl

theorem finishUpdateAndBootOs_wp (bcStatus : Nat) (h : s.Kept) :
    Prog.wp exec Deletes Loses Leaves (finishUpdateAndBootOs boot bcStatus) s := by
  have hend : ∀ (reset : Bool) (s' : Store), s'.Clean →
      Prog.wp exec Deletes Loses Leaves
        (if reset then pure .reset else bootOs boot bcStatus) s' := by
    intro reset s' hclean
    cases reset with
    | true => exact hclean.leaves _
    | false => exact bootOs_wp bcStatus hclean
  have hcleanup : ∀ previous, Prog.wp exec Deletes Loses
      (fun reset s' => Prog.wp exec Deletes Loses Leaves
        (if reset then pure .reset else bootOs boot bcStatus) s') (cleanup previous) s :=
    fun previous => Prog.wp_mono (cleanup_wp previous h) (fun _ _ h => h) hend
  unfold finishUpdateAndBootOs bootChainFinishUpdate
  rw [Prog.wp_bind]
  split
  · exact hcleanup none
  · rw [Prog.wp_bind]
    exact wp_getVariable (.inr h) (hcleanup none) (fun _ => hcleanup none) fun _ _ => hcleanup _

theorem setStatusAndBootOs_wp (bcStatus : Nat) (h : s.Kept) :
    Prog.wp exec Deletes Loses Leaves (setStatusAndBootOs boot bcStatus) s := by
  unfold setStatusAndBootOs
  rw [Prog.wp_bind]
  exact wp_setVariable (.inr h) (finishUpdateAndBootOs_wp bcStatus h)
    (finishUpdateAndBootOs_wp bcStatus h)

theorem switchChain_wp (bcNext bcResetCount : Nat) (h : s.vars .next ≠ none) :
    Prog.wp exec Deletes Loses Leaves (switchChain boot bcNext bcResetCount) s := by
  have hkept := Store.kept_of_request h
  unfold switchChain
  split
  · exact setStatusAndBootOs_wp _ hkept
  · rw [Prog.wp_bind]
    refine wp_setVariable (.inr hkept) (setStatusAndBootOs_wp _ hkept) ?_
    have hkept' : (s.write .resetCount (some (bcResetCount + 1))).Kept := Store.kept_of_request h
    simp only [Prog.wp_bind]
    refine wp_perform_vars (.inr hkept') (.inr (.inl rfl)) fun _ s₁ h₁ => ?_
    have hkept₁ : s₁.Kept := Store.kept_of_request (by rw [h₁]; exact h)
    refine wp_perform_vars (.inr hkept₁) (.inl ⟨_, rfl⟩) fun r s₂ h₂ => ?_
    have hkept₂ : s₂.Kept := Store.kept_of_request (by rw [h₂, h₁]; exact h)
    cases r with
    | success _ => exact ⟨hkept₂, fun hreset => absurd rfl hreset⟩
    | notFound => exact setStatusAndBootOs_wp _ hkept₂
    | error => exact setStatusAndBootOs_wp _ hkept₂

theorem recordUpdate_wp (bcNext : Nat) (h : s.vars .next ≠ none) :
    Prog.wp exec Deletes Loses Leaves (recordUpdate boot bcNext) s := by
  have hkept := Store.kept_of_request h
  unfold recordUpdate
  rw [Prog.wp_bind]
  refine wp_setVariable (.inr hkept) (setStatusAndBootOs_wp _ hkept) ?_
  have h₁ : (s.write .previous (some boot.bootChain)).vars .next ≠ none := h
  have hkept₁ := Store.kept_of_request h₁
  rw [Prog.wp_bind]
  refine wp_setVariable (.inr hkept₁) (setStatusAndBootOs_wp _ hkept₁) ?_
  have h₂ : ((s.write .previous (some boot.bootChain)).write .status
    (some statusInProgress)).vars .next ≠ none := h
  have hkept₂ := Store.kept_of_request h₂
  rw [Prog.wp_bind]
  exact wp_getVariable (.inr hkept₂) (setStatusAndBootOs_wp _ hkept₂)
    (fun _ => switchChain_wp _ _ h₂) fun _ _ => switchChain_wp _ _ h₂

theorem newUpdate_wp (bcNext : Nat) (h : s.vars .next ≠ none) :
    Prog.wp exec Deletes Loses Leaves (newUpdate boot bcNext) s := by
  have hkept := Store.kept_of_request h
  unfold newUpdate
  split
  · exact setStatusAndBootOs_wp _ hkept
  split
  · exact setStatusAndBootOs_wp _ hkept
  split
  · exact setStatusAndBootOs_wp _ hkept
  split
  · exact setStatusAndBootOs_wp _ hkept
  split
  · exact setStatusAndBootOs_wp _ hkept
  · exact recordUpdate_wp bcNext h

theorem resumeUpdate_wp (bcNext bcStatus : Nat) (h : s.Kept) :
    Prog.wp exec Deletes Loses Leaves (resumeUpdate boot bcNext bcStatus) s := by
  unfold resumeUpdate
  split
  · split
    · exact setStatusAndBootOs_wp _ h
    · exact setStatusAndBootOs_wp _ h
  · exact finishUpdateAndBootOs_wp _ h

theorem bootChainExecuteUpdate_wp (h : s.Kept)
    (hprotocol : boot.brBctUpdateProtocol = true ∨ s.Clean) :
    Prog.wp exec Deletes Loses Leaves (bootChainExecuteUpdate boot) s := by
  unfold bootChainExecuteUpdate
  split
  · next hnone =>
    rcases hprotocol with hthere | hclean
    · exact absurd (hthere.symm.trans hnone) (by decide)
    · exact hclean.leaves _
  rw [Prog.wp_bind]
  refine wp_getVariable (.inr h) (setStatusAndBootOs_wp _ h) (fun hnone => bootOs_wp _ (h hnone)) ?_
  intro bcNext hnext
  have hrequest : s.vars .next ≠ none := by
    rw [hnext]
    exact Option.some_ne_none bcNext
  rw [Prog.wp_bind]
  exact wp_getVariable (.inr h) (setStatusAndBootOs_wp _ h) (fun _ => newUpdate_wp bcNext hrequest)
    fun bcStatus _ => resumeUpdate_wp bcNext bcStatus h

end

/-! What a cancellation keeps. -/

theorem cancelStatus_wp (canceled : Bool) (s : Store) :
    Prog.wp exec (fun _ => True) (fun _ s' => (s.Kept → s'.Kept) ∧ (s.Clean → s'.Clean))
      (fun _ s' => (s.Kept → s'.Kept) ∧ (s.Clean → s'.Clean)) (cancelStatus canceled) s := by
  have hset : ∀ canceled' : Bool,
      Prog.wp exec (fun _ => True) (fun _ s' => (s.Kept → s'.Kept) ∧ (s.Clean → s'.Clean))
        (fun _ s' => (s.Kept → s'.Kept) ∧ (s.Clean → s'.Clean)) (if canceled' then do
          let _ ← Prog.perform (.setVariable .status statusErrorCanceledForFmpConflict)
          pure true
        else pure false : Program Bool) s := by
    intro canceled'
    cases canceled' with
    | false => exact ⟨id, id⟩
    | true =>
      have hsame : (s.Kept → s.Kept) ∧ (s.Clean → s.Clean) := ⟨id, id⟩
      rw [if_pos rfl, Prog.wp_bind]
      exact wp_setVariable hsame hsame ⟨id, id⟩
  unfold cancelStatus
  rw [Prog.wp_bind]
  exact wp_getVariable ⟨id, id⟩ (by simpa using hset true)
    (fun _ => by simpa using hset canceled) fun _ _ => by simpa using hset true

theorem cancel_clean_wp {s : Store} (h : s.Clean) :
    Prog.wp exec (fun _ => True) (fun _ s' => s'.Clean) (fun _ s' => s'.Clean)
      bootChainCheckAndCancelUpdate s := by
  have hstatus : ∀ canceled, ∀ s' : Store, s'.Clean → Prog.wp exec (fun _ => True)
      (fun _ s' => s'.Clean) (fun _ s' => s'.Clean) (cancelStatus canceled) s' :=
    fun canceled s' h' => Prog.wp_mono (cancelStatus_wp canceled s') (fun _ _ h => h.2 h')
      fun _ _ h => h.2 h'
  have hdelete : Prog.wp exec (fun _ => True) (fun _ s' => s'.Clean) (fun _ s' => s'.Clean) (do
      let _ ← Prog.perform (.deleteVariable .next)
      cancelStatus true : Program Bool) s := by
    rw [Prog.wp_bind]
    exact wp_deleteVariable h (fun _ => hstatus true s h) fun _ => hstatus true _ h
  unfold bootChainCheckAndCancelUpdate
  rw [Prog.wp_bind]
  exact wp_getVariable h hdelete (fun _ => hstatus false s h) fun _ _ => hdelete

def leftBy : Outcome Call Store Bool → Store
  | .done _ s => s
  | .lost _ s => s

theorem cancelStatus_leftBy (canceled : Bool) (answers : List Answer) (s : Store) :
    (s.Kept → (leftBy ((cancelStatus canceled).run exec answers s)).Kept) ∧
      (s.Clean → (leftBy ((cancelStatus canceled).run exec answers s)).Clean) := by
  cases h : (cancelStatus canceled).run exec answers s with
  | done a s' => exact Prog.wp_done (cancelStatus_wp canceled s) (fun _ _ => trivial) h
  | lost c s' => exact Prog.wp_lost (cancelStatus_wp canceled s) (fun _ _ => trivial) h

theorem cancel_leftBy (answers : List Answer) (s : Store) (hkept : s.Kept)
    (hcareful : s.Clean ∨ ∀ fails ∈ answers[1]?, fails (.deleteVariable .next) = true) :
    (leftBy (bootChainCheckAndCancelUpdate.run exec answers s)).Kept ∧
      (s.Clean → (leftBy (bootChainCheckAndCancelUpdate.run exec answers s)).Clean) := by
  have hclean : s.Clean → (leftBy (bootChainCheckAndCancelUpdate.run exec answers s)).Clean := by
    intro h
    cases hcase : bootChainCheckAndCancelUpdate.run exec answers s with
    | done a s' => exact Prog.wp_done (cancel_clean_wp h) (fun _ _ => trivial) hcase
    | lost c s' => exact Prog.wp_lost (cancel_clean_wp h) (fun _ _ => trivial) hcase
  refine ⟨?_, hclean⟩
  rcases hcareful with h | hfails
  · exact (hclean h).kept
  · unfold bootChainCheckAndCancelUpdate
    -- the request is read, and its deletion is not done
    rcases answers with _ | ⟨first, _ | ⟨second, rest⟩⟩
    · exact hkept
    · rw [Prog.run_perform_cons]
      rw [exec_getVariable_snd]
      cases (exec (.getVariable .next) first s).1 <;> exact hkept
    · have hdeletion : second (.deleteVariable .next) = true := hfails second rfl
      rw [Prog.run_perform_cons]
      rw [exec_getVariable_snd]
      have hstay : exec (.deleteVariable .next) second s = (.error, s) := if_pos hdeletion
      cases (exec (.getVariable .next) first s).1 with
      | notFound => exact (cancelStatus_leftBy false (second :: rest) s).1 hkept
      | success value =>
        rw [Prog.run_perform_cons, hstay]
        exact (cancelStatus_leftBy true rest s).1 hkept
      | error =>
        rw [Prog.run_perform_cons, hstay]
        exact (cancelStatus_leftBy true rest s).1 hkept

/-! A request where there is no bookkeeping. -/

/-- Where a new request may lose power: it is not about to fail for too many resets, and it is not
started without the chain that was booted as the previous one. -/
def Begins (boot : Boot) (c : Call) (s : Store) : Prop :=
  c ≠ .setVariable .status statusErrorMaxResetCount ∧
    (c = .setVariable .status statusInProgress → s.vars .previous = some boot.bootChain)

section
variable {boot : Boot} {s : Store}

theorem begins_of_call {c : Call} (hc : ∀ value, c ≠ .setVariable .status value) :
    Begins boot c s :=
  ⟨hc _, fun hset => absurd hset (hc _)⟩

theorem begins_of_status {bcStatus : Nat} (hmax : bcStatus ≠ statusErrorMaxResetCount)
    (hprogress : bcStatus ≠ statusInProgress) : Begins boot (.setVariable .status bcStatus) s := by
  refine ⟨fun hset => ?_, fun hset => ?_⟩
  · injection hset with _ hvalue
    exact hmax hvalue
  · injection hset with _ hvalue
    exact absurd hvalue hprogress

theorem bootOs_begins (bcStatus : Nat) :
    Prog.wp exec (fun _ => True) (Begins boot) (fun _ _ => True) (bootOs boot bcStatus) s := by
  unfold bootOs
  split
  · simp only [brBctUpdateNeeded, Prog.wp_bind]
    have hupdate : ∀ needed : Bool, Prog.wp exec (fun _ => True) (Begins boot) (fun _ _ => True)
        (if needed then do
          let _ ← Prog.perform (.updateFwChain boot.bootChain)
          let _ ← Prog.perform .clearUpdateBrBctFlag
          pure .bootOs
        else pure .bootOs : Program Ended) s := by
      intro needed
      cases needed with
      | false => trivial
      | true =>
        simp only [if_true, Prog.wp_bind]
        refine wp_perform_vars (begins_of_call (by rintro _ ⟨⟩)) (.inl ⟨_, rfl⟩) fun _ _ _ => ?_
        exact wp_perform_vars (begins_of_call (by rintro _ ⟨⟩)) (.inr (.inr rfl)) fun _ _ _ =>
          trivial
    exact wp_getVariable (begins_of_call (by rintro _ ⟨⟩)) (hupdate false)
      (fun _ => hupdate false) fun value _ => hupdate _
  · trivial

theorem cleanup_begins (previous : Option Nat) :
    Prog.wp exec (fun _ => True) (Begins boot) (fun _ _ => True) (cleanup previous) s := by
  have hrestore : ∀ s' : Store, Prog.wp exec (fun _ => True) (Begins boot) (fun _ _ => True)
      (restoreChain previous) s' := by
    intro s'
    cases previous with
    | none => trivial
    | some chain =>
      simp only [restoreChain, Prog.wp_bind]
      refine wp_perform_vars (begins_of_call (by rintro _ ⟨⟩)) (.inl ⟨_, rfl⟩) fun r _ _ => ?_
      cases r <;> trivial
  unfold cleanup
  simp only [Prog.wp_bind]
  refine Prog.wp_perform _ |>.mpr ⟨begins_of_call (by rintro _ ⟨⟩), fun _ _ => ?_⟩
  refine Prog.wp_perform _ |>.mpr ⟨begins_of_call (by rintro _ ⟨⟩), fun _ _ => ?_⟩
  exact Prog.wp_perform _ |>.mpr ⟨begins_of_call (by rintro _ ⟨⟩), fun _ _ => hrestore _⟩

theorem finishUpdateAndBootOs_begins (bcStatus : Nat) :
    Prog.wp exec (fun _ => True) (Begins boot) (fun _ _ => True)
      (finishUpdateAndBootOs boot bcStatus) s := by
  have hcleanup : ∀ previous, Prog.wp exec (fun _ => True) (Begins boot)
      (fun reset s' => Prog.wp exec (fun _ => True) (Begins boot) (fun _ _ => True)
        (if reset then pure .reset else bootOs boot bcStatus) s') (cleanup previous) s := by
    intro previous
    refine Prog.wp_mono (cleanup_begins previous) (fun _ _ h => h) fun reset s' _ => ?_
    cases reset with
    | true => trivial
    | false => exact bootOs_begins bcStatus
  unfold finishUpdateAndBootOs bootChainFinishUpdate
  rw [Prog.wp_bind]
  split
  · exact hcleanup none
  · rw [Prog.wp_bind]
    exact wp_getVariable (begins_of_call (by rintro _ ⟨⟩)) (hcleanup none) (fun _ => hcleanup none)
      fun _ _ => hcleanup _

theorem setStatusAndBootOs_begins {bcStatus : Nat} (hmax : bcStatus ≠ statusErrorMaxResetCount)
    (hprogress : bcStatus ≠ statusInProgress) :
    Prog.wp exec (fun _ => True) (Begins boot) (fun _ _ => True)
      (setStatusAndBootOs boot bcStatus) s := by
  unfold setStatusAndBootOs
  rw [Prog.wp_bind]
  exact wp_setVariable (begins_of_status hmax hprogress) (finishUpdateAndBootOs_begins bcStatus)
    (finishUpdateAndBootOs_begins bcStatus)

theorem switchChain_begins (bcNext : Nat) :
    Prog.wp exec (fun _ => True) (Begins boot) (fun _ _ => True) (switchChain boot bcNext 0) s := by
  unfold switchChain
  rw [if_neg (by decide), Prog.wp_bind]
  refine wp_setVariable (begins_of_call (by rintro _ ⟨⟩))
    (setStatusAndBootOs_begins (by decide) (by decide)) ?_
  simp only [Prog.wp_bind]
  refine wp_perform_vars (begins_of_call (by rintro _ ⟨⟩)) (.inr (.inl rfl)) fun _ _ _ => ?_
  refine wp_perform_vars (begins_of_call (by rintro _ ⟨⟩)) (.inl ⟨_, rfl⟩) fun r _ _ => ?_
  cases r with
  | success _ => trivial
  | notFound => exact setStatusAndBootOs_begins (by decide) (by decide)
  | error => exact setStatusAndBootOs_begins (by decide) (by decide)

/-- The chain that was booted is recorded before the request is started, and no reset is counted. -/
theorem recordUpdate_begins (bcNext : Nat) (h : s.vars .resetCount = none) :
    Prog.wp exec (fun _ => True) (Begins boot) (fun _ _ => True) (recordUpdate boot bcNext) s := by
  unfold recordUpdate
  rw [Prog.wp_bind]
  refine wp_setVariable (begins_of_call (by rintro _ ⟨⟩))
    (setStatusAndBootOs_begins (by decide) (by decide)) ?_
  rw [Prog.wp_bind]
  refine wp_setVariable ⟨by decide, fun _ => rfl⟩
    (setStatusAndBootOs_begins (by decide) (by decide)) ?_
  rw [Prog.wp_bind]
  refine wp_getVariable (begins_of_call (by rintro _ ⟨⟩))
    (setStatusAndBootOs_begins (by decide) (by decide)) (fun _ => switchChain_begins bcNext) ?_
  intro value hvalue
  have hnone : none = some value := h.symm.trans hvalue
  cases hnone

theorem newUpdate_begins (bcNext : Nat) (h : s.vars .resetCount = none) :
    Prog.wp exec (fun _ => True) (Begins boot) (fun _ _ => True) (newUpdate boot bcNext) s := by
  unfold newUpdate
  split
  · exact setStatusAndBootOs_begins (by decide) (by decide)
  split
  · exact setStatusAndBootOs_begins (by decide) (by decide)
  split
  · exact setStatusAndBootOs_begins (by decide) (by decide)
  split
  · exact setStatusAndBootOs_begins (by decide) (by decide)
  split
  · exact setStatusAndBootOs_begins (by decide) (by decide)
  · exact recordUpdate_begins bcNext h

theorem request_begins (chain : Nat) (h : s.Clean) :
    Prog.wp exec (fun _ => True) (Begins boot) (fun _ _ => True) (bootChainExecuteUpdate boot)
      (s.request chain) := by
  unfold bootChainExecuteUpdate
  split
  · trivial
  rw [Prog.wp_bind]
  refine wp_getVariable (begins_of_call (by rintro _ ⟨⟩))
    (setStatusAndBootOs_begins (by decide) (by decide)) (fun _ => bootOs_begins _) ?_
  intro bcNext _
  rw [Prog.wp_bind]
  refine wp_getVariable (begins_of_call (by rintro _ ⟨⟩))
    (setStatusAndBootOs_begins (by decide) (by decide)) (fun _ => newUpdate_begins bcNext h.2) ?_
  intro bcStatus hstatus
  -- a new request has no status
  have hnone : none = some bcStatus := hstatus
  cases hnone

end

theorem Store.Clean.handledAsNew {s : Store} (h : s.Clean) : HandledAsNew s where
  same := fun boot chain answers _ => by rw [h.new_eq]
  resets := fun boot chain answers s' _ hlost =>
    (Prog.wp_lost (request_begins chain h) (fun _ _ => trivial) hlost).1 rfl
  recorded := fun boot chain answers s' _ hlost =>
    (Prog.wp_lost (request_begins chain h) (fun _ _ => trivial) hlost).2 rfl

/-! Runs. -/

/-- No request, no bookkeeping; and none where the operating system runs. -/
structure Inv (system : System) : Prop where
  kept : system.store.Kept
  clean : system.os = true → system.store.Clean

theorem inv_step {event : Event} {system system' : System} (inv : Inv system)
    (hcareful : Careful system event) (hstep : step event system = some system') : Inv system' := by
  cases event with
  | boot boot answers =>
    obtain ⟨hprotocol, hdeletes, huncut⟩ := hcareful
    have hrun := Prog.wp_run (bootChainExecuteUpdate_wp inv.kept hprotocol) hdeletes
    cases h : (bootChainExecuteUpdate boot).run exec answers system.store with
    | done ended store =>
      simp only [h] at hrun
      simp only [step, h, Option.some.injEq] at hstep
      subst hstep
      exact ⟨hrun.1, fun hos => hrun.2 (of_decide_eq_true hos)⟩
    | lost c store =>
      simp only [h] at hrun
      simp only [step, h, Option.some.injEq] at hstep
      subst hstep
      refine ⟨?_, by rintro ⟨⟩⟩
      rcases hrun with ⟨rfl, hcount⟩ | hkept
      · exact absurd (huncut store h) hcount
      · exact hkept
  | cancel answers =>
    obtain ⟨hkept, hclean⟩ := cancel_leftBy answers system.store inv.kept hcareful
    cases h : bootChainCheckAndCancelUpdate.run exec answers system.store with
    | done canceled store =>
      simp only [h] at hkept hclean
      simp only [step, h, Option.some.injEq] at hstep
      subst hstep
      exact ⟨hkept, fun hos => hclean (inv.clean hos)⟩
    | lost c store =>
      simp only [h] at hkept
      simp only [step, h, Option.some.injEq] at hstep
      subst hstep
      exact ⟨hkept, by rintro ⟨⟩⟩
  | writes next status =>
    by_cases hos : system.os = true
    · simp only [step, hos, if_true, Option.some.injEq] at hstep
      subst hstep
      have hclean : ((system.store.write .next next).write .status status).Clean := inv.clean hos
      exact ⟨hclean.kept, fun _ => hclean⟩
    · simp only [step, hos] at hstep
      cases hstep

theorem inv_run {events : List Event} {system system' : System} (inv : Inv system)
    (hcareful : Along step Careful events system) (hrun : run step events system = some system') :
    Inv system' := by
  induction events generalizing system with
  | nil =>
    cases hrun
    exact inv
  | cons event events ih =>
    obtain ⟨middle, hstep, hrest⟩ := Option.bind_eq_some_iff.mp hrun
    exact ih (inv_step inv hcareful.1 hstep) (hcareful.2 middle hstep) hrest

/-- Requests are independent where no event loses the bookkeeping of one. -/
theorem requests_independent {store : Store} (hstore : store.Clean) {events : List Event}
    {system : System} (hcareful : Along step Careful events ⟨store, true⟩)
    (hrun : run step events ⟨store, true⟩ = some system) : Independent system := by
  have inv : Inv ⟨store, true⟩ := ⟨hstore.kept, fun _ => hstore⟩
  intro hos _ _
  exact ((inv_run inv hcareful hrun).clean hos).handledAsNew

/-- A boot of a chain in which nothing fails and power is not lost. -/
def normalBoot (bootChain : Nat) : Event :=
  .boot ⟨bootChain, true, false, false, fun _ => false⟩ (List.replicate 16 fun _ => false)

def firstStore : Store := ⟨fun _ => none, 0⟩

def switched : List Event := [.writes (some 1) none, normalBoot 0, normalBoot 1, .writes none none]

theorem switched_independent : ∃ system, run step switched ⟨firstStore, true⟩ = some system ∧
    system.os = true ∧ Independent system := by
  have hfails : ∀ fails ∈ List.replicate 16 (fun _ : Call => false),
      fails (.deleteVariable .previous) = false ∧
        fails (.deleteVariable .resetCount) = false := by
    intro fails hmem
    rw [List.eq_of_mem_replicate hmem]
    exact ⟨rfl, rfl⟩
  refine ⟨_, rfl, rfl, @requests_independent firstStore ⟨rfl, rfl⟩ switched _ ?_ rfl⟩
  refine ⟨trivial, fun _ h₁ => ?_⟩
  cases h₁
  refine ⟨⟨.inl rfl, hfails, fun _ hlost => ?_⟩, fun _ h₂ => ?_⟩
  · cases hlost
  cases h₂
  refine ⟨⟨.inl rfl, hfails, fun _ hlost => ?_⟩, fun _ h₃ => ?_⟩
  · cases hlost
  cases h₃
  exact ⟨trivial, fun _ _ => trivial⟩

/-- A request that is cancelled behind the reset into the new chain. -/
def canceledBehindReset (bootChain chain : Nat) : List Event :=
  [.writes (some chain) none, normalBoot bootChain, .cancel (List.replicate 4 fun _ => false),
    normalBoot chain, .writes none none]

/-- Three requests cancelled behind their resets are enough for the next one to fail. -/
theorem canceled_requests_counted : ¬ ∀ (store : Store) (events : List Event) (system : System),
    store.Clean → run step events ⟨store, true⟩ = some system → Independent system := by
  intro h
  have hindependent := h firstStore
    (canceledBehindReset 0 1 ++ canceledBehindReset 1 0 ++ canceledBehindReset 0 1) _ ⟨rfl, rfl⟩ rfl
    rfl rfl rfl
  exact hindependent.resets ⟨1, true, false, false, fun _ => false⟩ 0
    (List.replicate 5 fun _ => false) _ (by decide) rfl

end BootChainDxe
