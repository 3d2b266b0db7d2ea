import Mathlib.Data.List.Induction
import Edk2Nvidia.Rootfs.Boots

/-! How many attempts each slot gets over a sequence of boots that nobody confirms. -/
namespace Rootfs
open Parse

namespace System

def run (boots : List Boot) (system : System) : System :=
  boots.foldl (fun system boot => system.after boot) system

/-- What the boots come to that were not asked to go to recovery. -/
def trace : List Boot → System → List Outcome
  | [], _ => []
  | boot :: rest, system =>
    if boot.bootMode = bootModeRecovery then trace rest (system.after boot)
    else system.outcome boot :: trace rest (system.after boot)

theorem run_append (boots : List Boot) (boot : Boot) (system : System) :
    run (boots ++ [boot]) system = (run boots system).after boot := by
  simp [run]

theorem trace_append (boots : List Boot) (boot : Boot) (system : System) :
    trace (boots ++ [boot]) system = trace boots system ++
      if boot.bootMode = bootModeRecovery then [] else [(run boots system).outcome boot] := by
  induction boots generalizing system with
  | nil => simp only [List.nil_append, trace, run, List.foldl_nil]
  | cons first rest ih =>
    simp only [List.cons_append, trace, ih]
    split <;> rfl

/-- A boot that is asked to go to recovery leaves everything as it is. -/
theorem after_requested {boot : Boot} (h : boot.bootMode = bootModeRecovery) (system : System) :
    system.after boot = system := by
  unfold after result validateRootfsStatus
  simp [h]

end System

/-- All services work and a requested switch takes effect. -/
structure Boot.Sound (boot : Boot) : Prop where
  working : boot.services.Working
  setVariable : ∀ index, boot.services.setVariable index = true
  accepts : boot.accepts = true

/-- The slots to be tried, the firmware's chain first. -/
def slots (level : BitVec 32) (unbootable : Slot → Bool) (chain : Slot) : List Slot :=
  (if level = redundancyBootRootfs then [chain, chain.other] else [.a]).filter fun slot =>
    !unbootable slot

/-- All attempts of the slots in turn; the other chain's slot is switched to first. -/
def attempts (level max : BitVec 32) (chain : Slot) (slots : List Slot) : List Outcome :=
  slots.flatMap fun slot =>
    (if level = redundancyBootRootfs ∧ slot ≠ chain then [.switch slot] else []) ++
      List.replicate max.toNat (.normal slot)

def schedule (attempts : List Outcome) (n : Nat) : List Outcome :=
  (attempts ++ List.replicate n Outcome.recovery).take n

/-- Over any sequence of boots each slot that can be booted gets as many attempts as configured,
then it is marked, and recovery comes when none is left. -/
structure RetryLaw (level max : BitVec 32) (system : System) : Prop where
  scheduled : ∀ boots : List Boot, (∀ boot ∈ boots, boot.Sound) →
    system.trace boots = schedule
      (attempts level max system.chain (slots level (unbootable system.store) system.chain))
      (system.trace boots).length
  bootable : ∀ (boots : List Boot) (boot : Boot) (slot : Slot),
    (∀ b ∈ boots ++ [boot], b.Sound) → boot.bootMode ≠ bootModeRecovery →
      (system.run boots).outcome boot = .normal slot →
      unbootable (system.run boots).store slot = false
  marked : ∀ (boots : List Boot) (boot : Boot) (slot : Slot),
    (∀ b ∈ boots ++ [boot], b.Sound) → unbootable (system.run boots).store slot = false →
      unbootable (system.run (boots ++ [boot])).store slot = true →
      (system.trace boots).count (.normal slot) = max.toNat
  exhausted : ∀ boots : List Boot, (∀ boot ∈ boots, boot.Sound) →
    Outcome.recovery ∈ system.trace boots →
      slots level (unbootable (system.run boots).store) system.chain = []

def Supported (level : BitVec 32) : Prop :=
  level = redundancyBootOnly ∨ level = redundancyBootRootfs

instance (level : BitVec 32) : Decidable (Supported level) := inferInstanceAs (Decidable (_ ∨ _))

def InUse (level : BitVec 32) (slot : Slot) : Prop := level = redundancyBootRootfs ∨ slot = .a

namespace View

variable {level max : BitVec 32} {view view' : View} {outcome : Outcome}

/-- A slot that is marked has no attempts left. -/
def Consistent (view : View) : Prop := ∀ slot, view.unbootable slot = true → view.retries slot = 0

def current (level : BitVec 32) (view : View) : Slot :=
  if level = redundancyBootRootfs then view.chain else .a

/-- What one sound boot can do at a level the launcher knows. -/
inductive Moves (level max : BitVec 32) (view : View) : Outcome → View → Prop
  | attempt (left : view.retries (view.current level) ≠ 0) :
    Moves level max view (.normal (view.current level)) (view.attempt (view.current level))
  | switch (redundant : level = redundancyBootRootfs) (spent : view.retries view.chain = 0)
    (left : view.retries view.chain.other ≠ 0) :
    Moves level max view (.switch view.chain.other)
      { view.mark max fun slot => slot = view.chain with chain := view.chain.other, next := none }
  | giveUp (works : Slot → Bool) (spent : ∀ slot, InUse level slot → view.retries slot = 0)
    (marks : ∀ slot, InUse level slot → (view.unbootable slot || works slot) = true)
    (only : ∀ slot, works slot = true → InUse level slot) :
    Moves level max view .recovery (view.mark max works)

variable (max) in
theorem step_moves (hlevel : Supported level) (h : view.Consistent) :
    Moves level max view (view.step level max (fun _ => true) true).1
      (view.step level max (fun _ => true) true).2 := by
  unfold step
  rcases hlevel with rfl | rfl
  · have hcurrent : view.current redundancyBootOnly = .a := rfl
    have hinUse : ∀ slot, InUse redundancyBootOnly slot ↔ slot = .a := fun slot =>
      or_iff_right (by decide)
    rw [if_pos rfl]
    split
    · rename_i hunbootable
      refine .giveUp _ (fun slot hslot => ?_) (fun slot hslot => ?_) nofun
      · rw [(hinUse slot).mp hslot, h .a hunbootable]
      · rw [(hinUse slot).mp hslot, hunbootable]
        rfl
    · split
      · rename_i hretries
        exact hcurrent ▸ Moves.attempt (hcurrent ▸ hretries)
      · rename_i hretries
        refine .giveUp _ (fun slot hslot => ?_) (fun slot hslot => ?_) fun slot hslot => ?_
        · rw [(hinUse slot).mp hslot, not_not.mp hretries]
        · rw [(hinUse slot).mp hslot]
          simp
        · exact (hinUse slot).mpr (by simpa using hslot)
  · have hcurrent : view.current redundancyBootRootfs = view.chain := rfl
    have hinUse : ∀ slot, InUse redundancyBootRootfs slot := fun slot => .inl rfl
    rw [if_neg (by decide), if_pos rfl]
    split
    · rename_i hunbootable
      have hboth : ∀ slot, view.unbootable slot = true := fun slot => by
        cases slot
        · exact hunbootable.1
        · exact hunbootable.2
      refine .giveUp _ (fun slot _ => h slot (hboth slot)) (fun slot _ => ?_) nofun
      rw [hboth slot]
      rfl
    · split
      · rename_i hretries
        exact hcurrent ▸ Moves.attempt (hcurrent ▸ hretries)
      · rename_i hretries
        split
        · rename_i hother
          have hswitch : Moves redundancyBootRootfs max view _ _ :=
            .switch rfl (not_not.mp hretries) hother
          simpa using hswitch
        · rename_i hother
          refine .giveUp _ (fun slot _ => ?_) (fun slot _ => by simp) fun slot _ => hinUse slot
          rcases hc : view.chain <;> cases slot <;> simp_all [Slot.other]

theorem Consistent.moves (h : view.Consistent) (hmoves : Moves level max view outcome view') :
    view'.Consistent := by
  cases hmoves with
  | attempt left =>
    intro slot hslot
    have hzero : view.retries slot = 0 := h slot hslot
    simp [attempt, hzero]
  | switch redundant spent left =>
    intro slot hslot
    exact if_pos hslot
  | giveUp works spent marks only =>
    intro slot hslot
    exact if_pos hslot

theorem inUse_current (level : BitVec 32) (view : View) : InUse level (view.current level) := by
  unfold current
  split
  · exact .inl ‹_›
  · exact .inr rfl

def upcoming (level max : BitVec 32) (view : View) : List Outcome :=
  List.replicate (view.retries (view.current level)) (.normal (view.current level)) ++
    if level = redundancyBootRootfs ∧ view.retries view.chain.other ≠ 0 then
      .switch view.chain.other ::
        List.replicate (fresh max view.unbootable view.chain.other) (.normal view.chain.other)
    else []

theorem upcoming_spent (h : ∀ slot, InUse level slot → view.retries slot = 0) :
    view.upcoming level max = [] := by
  unfold upcoming
  rw [h _ (inUse_current level view)]
  split
  · rename_i hother
    exact absurd (h _ (.inl hother.1)) hother.2
  · rfl

/-- Each boot takes the first of what is to come, or nothing is left. -/
theorem upcoming_moves (h : view.Consistent) (hmoves : Moves level max view outcome view') :
    outcome :: view'.upcoming level max = view.upcoming level max ∨
      view.upcoming level max = [] ∧ outcome = .recovery ∧ view'.upcoming level max = [] := by
  have h' := h.moves hmoves
  cases hmoves with
  | attempt left =>
    refine .inl ?_
    obtain ⟨n, hn⟩ := Nat.exists_eq_succ_of_ne_zero left
    have hcurrent : (view.attempt (view.current level)).current level = view.current level := rfl
    have hothers : level = redundancyBootRootfs →
        (view.attempt (view.current level)).retries view.chain.other =
          view.retries view.chain.other := by
      intro hlevel
      have hne : view.chain.other ≠ view.current level := by
        rw [current, if_pos hlevel]
        cases view.chain <;> exact nofun
      simp [attempt, hne]
    have hleft : (view.attempt (view.current level)).retries (view.current level) = n := by
      simp [attempt, hn]
    have hchain : (view.attempt (view.current level)).chain = view.chain := rfl
    have hmarks : (view.attempt (view.current level)).unbootable = view.unbootable := rfl
    unfold upcoming
    rw [hcurrent, hleft, hn, hchain, hmarks, List.replicate_succ, List.cons_append]
    by_cases hlevel : level = redundancyBootRootfs
    · rw [hothers hlevel]
    · simp [hlevel]
  | switch redundant spent left =>
    refine .inl ?_
    subst redundant
    have hcurrent : ∀ view : View, view.current redundancyBootRootfs = view.chain :=
      fun _ => if_pos rfl
    have hback : view.chain.other.other = view.chain := by cases view.chain <;> rfl
    have hne : view.chain.other ≠ view.chain := by cases view.chain <;> exact nofun
    have hspent : fresh max (fun s => view.unbootable s || decide (s = view.chain)) view.chain =
        0 := if_pos (by simp)
    have hsame : fresh max (fun s => view.unbootable s || decide (s = view.chain))
        view.chain.other = fresh max view.unbootable view.chain.other := by
      simp [fresh, hne]
    unfold upcoming
    simp only [hcurrent, hback, spent, left, List.replicate_zero, List.nil_append,
      ne_eq, not_false_eq_true, and_self, if_true, mark, hspent, hsame]
    simp
  | giveUp works spent marks only =>
    exact .inr ⟨upcoming_spent spent, rfl, upcoming_spent fun slot hslot => h' slot (marks slot hslot)⟩

theorem Moves.keeps (hmoves : Moves level max view outcome view') {slot : Slot}
    (h : view.unbootable slot = true) : view'.unbootable slot = true := by
  cases hmoves with
  | attempt left => exact h
  | switch redundant spent left => simp [mark, h]
  | giveUp works spent marks only => simp [mark, h]

theorem Moves.inUse (hmoves : Moves level max view outcome view') {slot : Slot}
    (hbefore : view.unbootable slot = false) (hafter : view'.unbootable slot = true) :
    InUse level slot := by
  cases hmoves with
  | attempt left =>
    have hsame : view.unbootable slot = true := hafter
    rw [hbefore] at hsame
    cases hsame
  | switch redundant spent left => exact .inl redundant
  | giveUp works spent marks only => exact only slot (by simpa [mark, hbefore] using hafter)

theorem Moves.bootable {slot : Slot} (h : view.Consistent)
    (hmoves : Moves level max view (.normal slot) view') : view.unbootable slot = false := by
  cases hmoves with
  | attempt left =>
    cases hmarked : view.unbootable (view.current level) with
    | false => rfl
    | true => exact absurd (h _ hmarked) left

/-- How a run so far fits the attempts that are left. -/
structure Tracked (level max : BitVec 32) (trace : List Outcome) (view : View) : Prop where
  consistent : view.Consistent
  counted : ∀ slot, InUse level slot → view.unbootable slot = false →
    trace.count (.normal slot) + view.retries slot = max.toNat % 4
  untried : level = redundancyBootRootfs → view.unbootable view.chain.other = false →
    view.retries view.chain.other = max.toNat % 4
  recovered : .recovery ∈ trace → ∀ slot, InUse level slot → view.unbootable slot = true

theorem Tracked.moves {trace : List Outcome} (h : Tracked level max trace view)
    (hmoves : Moves level max view outcome view') :
    Tracked level max (trace ++ [outcome]) view' := by
  obtain ⟨hconsistent, hcounted, huntried, hrecovered⟩ := h
  refine ⟨hconsistent.moves hmoves, ?_, ?_, ?_⟩
  · intro slot hslot hbootable
    cases hmoves with
    | attempt left =>
      have hcount := hcounted slot hslot hbootable
      by_cases heq : slot = view.current level
      · subst heq
        simp only [List.count_append, List.count_singleton_self, attempt, if_true]
        omega
      · have hne : Outcome.normal (view.current level) ≠ .normal slot :=
          fun h => heq (Outcome.normal.inj h).symm
        simp only [List.count_append, attempt, heq, if_false, List.count_singleton, beq_iff_eq, hne]
        omega
    | switch redundant spent left =>
      have hsplit : view.unbootable slot = false ∧ slot ≠ view.chain := by
        simpa [mark] using hbootable
      have hother : slot = view.chain.other := by
        have hne := hsplit.2
        revert hne
        cases slot <;> cases view.chain <;> simp [Slot.other]
      have hcount := hcounted slot hslot hsplit.1
      have hall := huntried redundant (hother ▸ hsplit.1)
      rw [← hother] at hall
      have hretries : (mark max (fun s => decide (s = view.chain)) view).retries slot =
          max.toNat % 4 := by
        simp [mark, fresh, hsplit]
      simp only [List.count_append, List.count_singleton, beq_iff_eq, reduceCtorEq, if_false,
        hretries]
      omega
    | giveUp works spent marks only =>
      rw [mark] at hbootable
      simp [marks slot hslot] at hbootable
  · intro hlevel hbootable
    cases hmoves with
    | attempt left =>
      have hne : view.chain.other ≠ view.current level := by
        rw [current, if_pos hlevel]
        cases view.chain <;> (rintro ⟨⟩)
      simpa [attempt, hne] using huntried hlevel hbootable
    | switch redundant spent left =>
      have hback : view.chain.other.other = view.chain := by cases view.chain <;> rfl
      simp [mark, hback] at hbootable
    | giveUp works spent marks only =>
      rw [mark] at hbootable
      simp [marks _ (.inl hlevel)] at hbootable
  · intro hmem slot hslot
    cases hmoves with
    | attempt left => exact hrecovered (by simpa using hmem) slot hslot
    | switch redundant spent left =>
      have hbefore := hrecovered (by simpa using hmem) slot hslot
      simp [mark, hbefore]
    | giveUp works spent marks only => exact marks slot hslot

theorem Tracked.marked {trace : List Outcome} (h : Tracked level max trace view)
    (hmoves : Moves level max view outcome view') {slot : Slot}
    (hbefore : view.unbootable slot = false) (hafter : view'.unbootable slot = true) :
    trace.count (.normal slot) = max.toNat % 4 := by
  cases hmoves with
  | attempt left =>
    have hsame : view.unbootable slot = true := hafter
    rw [hbefore] at hsame
    cases hsame
  | switch redundant spent left =>
    have hslot : slot = view.chain := by simpa [mark, hbefore] using hafter
    have hcount := h.counted slot (.inl redundant) hbefore
    rwa [hslot, spent, Nat.add_zero, ← hslot] at hcount
  | giveUp works spent marks only =>
    have hworks : works slot = true := by simpa [mark, hbefore] using hafter
    have hcount := h.counted slot (only slot hworks) hbefore
    rwa [spent slot (only slot hworks), Nat.add_zero] at hcount

end View

section
variable {level max : BitVec 32} {system : System}

theorem sound_moves (hlevel : Supported level) (hconfigured : Configured level max system.store)
    (hconsistent : (system.view max).Consistent) {boot : Boot} (hsound : boot.Sound)
    (hmode : boot.bootMode ≠ bootModeRecovery) :
    View.Moves level max (system.view max) (system.outcome boot) ((system.after boot).view max) ∧
      Configured level max (system.after boot).store := by
  obtain ⟨hstep, hafter⟩ := refines hsound.working hconfigured hmode
  have hset : boot.services.setVariable = fun _ => true := funext hsound.setVariable
  rw [hset, hsound.accepts] at hstep
  have hmoves := View.step_moves max hlevel hconsistent
  rw [← hstep] at hmoves
  exact ⟨hmoves, hafter⟩

variable (max) in
theorem view_uninitialized (hregister : magicField.get system.store.register ≠ srRfMagic) :
    (system.view max).retries = fresh max (unbootable system.store) := by
  funext slot
  exact if_neg hregister

theorem tracked_uninitialized (hregister : magicField.get system.store.register ≠ srRfMagic) :
    View.Tracked level max [] (system.view max) := by
  have hretries := view_uninitialized max hregister
  have hfresh : ∀ slot, unbootable system.store slot = false →
      (system.view max).retries slot = max.toNat % 4 := fun slot h => by
    rw [hretries]
    exact if_neg (by simp [h])
  refine ⟨fun slot h => ?_, fun slot _ h => ?_, fun _ h => hfresh _ h, nofun⟩
  · rw [hretries]
    exact if_pos h
  · rw [hfresh slot h, List.count_nil, Nat.zero_add]

/-- Along sound boots the view keeps track of the trace, which uses up what was to come at the
start. -/
theorem run_tracked (hlevel : Supported level) (hconfigured : Configured level max system.store)
    (hregister : magicField.get system.store.register ≠ srRfMagic) (boots : List Boot)
    (hsound : ∀ boot ∈ boots, boot.Sound) :
    Configured level max (system.run boots).store ∧
      View.Tracked level max (system.trace boots) ((system.run boots).view max) ∧
      (∀ slot, unbootable system.store slot = true →
        unbootable (system.run boots).store slot = true) ∧
      ∃ k, system.trace boots ++ ((system.run boots).view max).upcoming level max =
        (system.view max).upcoming level max ++ List.replicate k .recovery := by
  induction boots using List.reverseRecOn with
  | nil =>
    exact ⟨hconfigured, tracked_uninitialized hregister, fun _ => id, 0, (List.append_nil _).symm⟩
  | append_singleton boots boot ih =>
    obtain ⟨hrun, htracked, hkeeps, k, hk⟩ := ih fun b hb => hsound b (List.mem_append_left _ hb)
    have hboot := hsound boot (List.mem_append_right _ (List.mem_singleton_self boot))
    rw [System.run_append, System.trace_append]
    by_cases hmode : boot.bootMode = bootModeRecovery
    · rw [System.after_requested hmode, if_pos hmode, List.append_nil]
      exact ⟨hrun, htracked, hkeeps, k, hk⟩
    · rw [if_neg hmode]
      obtain ⟨hmoves, hafter⟩ := sound_moves hlevel hrun htracked.consistent hboot hmode
      refine ⟨hafter, htracked.moves hmoves, fun slot h => hmoves.keeps (hkeeps slot h), ?_⟩
      rcases View.upcoming_moves htracked.consistent hmoves with hnext | ⟨hnone, hrecovery, hlater⟩
      · refine ⟨k, ?_⟩
        rw [List.append_assoc, List.singleton_append, hnext, hk]
      · refine ⟨k + 1, ?_⟩
        rw [hnone, List.append_nil] at hk
        rw [hlater, hrecovery, List.append_nil, hk, List.replicate_succ', List.append_assoc]

theorem schedule_eq {trace rest attempts : List Outcome} {k : Nat}
    (h : trace ++ rest = attempts ++ List.replicate k .recovery) :
    trace = schedule attempts trace.length := by
  have hlength := congrArg List.length h
  simp only [List.length_append, List.length_replicate] at hlength
  have htrace : trace = (trace ++ rest).take trace.length := List.take_left.symm
  unfold schedule
  conv_lhs => rw [htrace, h]
  rw [List.take_append, List.take_append, List.take_replicate, List.take_replicate]
  congr 2
  omega

/-- What is to come at the start are the attempts, with the retry count cut to its two bits. -/
theorem upcoming_uninitialized (hlevel : Supported level)
    (hregister : magicField.get system.store.register ≠ srRfMagic) (hne : max ≠ 0)
    (hmax : max.toNat ≤ 3) :
    (system.view max).upcoming level max =
      attempts level max system.chain (slots level (unbootable system.store) system.chain) := by
  have hfour : max.toNat % 4 = max.toNat := Nat.mod_eq_of_lt (by omega)
  have hpos : max.toNat ≠ 0 := fun h => hne (BitVec.eq_of_toNat_eq h)
  have hretries := view_uninitialized max hregister
  have hchain : (system.view max).chain = system.chain := rfl
  have hmarks : (system.view max).unbootable = unbootable system.store := rfl
  unfold View.upcoming View.current attempts slots
  rw [hretries, hchain, hmarks]
  rcases hlevel with rfl | rfl
  · simp only [fresh, hfour, show redundancyBootOnly ≠ redundancyBootRootfs by decide, if_false,
      false_and]
    cases ha : unbootable system.store .a <;> simp [ha]
  · simp only [fresh, hfour, if_true, true_and]
    have hother : system.chain.other ≠ system.chain := by cases system.chain <;> (rintro ⟨⟩)
    cases hc : unbootable system.store system.chain <;>
      cases ho : unbootable system.store system.chain.other <;> simp [hc, ho, hother, hpos]

theorem slots_nil_iff (hlevel : Supported level) (marks : Slot → Bool) (chain : Slot) :
    slots level marks chain = [] ↔ ∀ slot, InUse level slot → marks slot = true := by
  unfold slots InUse
  rcases hlevel with rfl | rfl
  · simp [show redundancyBootOnly ≠ redundancyBootRootfs by decide]
  · simp only [if_true, List.filter_eq_nil_iff, List.mem_cons, List.not_mem_nil, or_false,
      Bool.not_eq_true', Bool.not_eq_false, true_or, true_implies, forall_eq_or_imp, forall_eq]
    constructor
    · rintro ⟨hcurrent, hother⟩ slot
      cases slot <;> cases hc : chain <;> simp_all [Slot.other]
    · exact fun h => ⟨h chain, h chain.other⟩

theorem retryLaw_of_width (hlevel : Supported level) (hconfigured : Configured level max system.store)
    (hne : max ≠ 0) (hregister : magicField.get system.store.register ≠ srRfMagic)
    (hwidth : max.toNat ≤ 3 ∨ slots level (unbootable system.store) system.chain = []) :
    RetryLaw level max system := by
  refine ⟨fun boots hsound => ?_, fun boots boot slot hsound hmode houtcome => ?_,
    fun boots boot slot hsound hbefore hafter => ?_, fun boots hsound hmem => ?_⟩
  · obtain ⟨-, -, -, k, hk⟩ := run_tracked hlevel hconfigured hregister boots hsound
    rcases hwidth with hmax | hnone
    · rw [← upcoming_uninitialized hlevel hregister hne hmax]
      exact schedule_eq hk
    · have hspent : ∀ slot, InUse level slot → (system.view max).retries slot = 0 := by
        intro slot hslot
        rw [view_uninitialized max hregister]
        exact if_pos ((slots_nil_iff hlevel _ _).mp hnone slot hslot)
      rw [View.upcoming_spent hspent] at hk
      rw [hnone]
      exact schedule_eq hk
  · obtain ⟨hrun, htracked, -⟩ := run_tracked hlevel hconfigured hregister boots
      fun b hb => hsound b (List.mem_append_left _ hb)
    have hboot := hsound boot (List.mem_append_right _ (List.mem_singleton_self boot))
    obtain ⟨hmoves, -⟩ := sound_moves hlevel hrun htracked.consistent hboot hmode
    rw [houtcome] at hmoves
    exact hmoves.bootable htracked.consistent
  · obtain ⟨hrun, htracked, hkeeps, -⟩ := run_tracked hlevel hconfigured hregister boots
      fun b hb => hsound b (List.mem_append_left _ hb)
    have hboot := hsound boot (List.mem_append_right _ (List.mem_singleton_self boot))
    rw [System.run_append] at hafter
    have hmode : boot.bootMode ≠ bootModeRecovery := by
      intro hmode
      rw [System.after_requested hmode, hbefore] at hafter
      cases hafter
    obtain ⟨hmoves, -⟩ := sound_moves hlevel hrun htracked.consistent hboot hmode
    have hcount := htracked.marked hmoves hbefore hafter
    rcases hwidth with hmax | hnone
    · rwa [Nat.mod_eq_of_lt (by omega)] at hcount
    · have hmarked := hkeeps slot ((slots_nil_iff hlevel _ _).mp hnone slot
        (hmoves.inUse hbefore hafter))
      rw [hbefore] at hmarked
      cases hmarked
  · obtain ⟨-, htracked, -⟩ := run_tracked hlevel hconfigured hregister boots hsound
    exact (slots_nil_iff hlevel _ _).mpr (htracked.recovered hmem)

def plainBoot : Boot where
  bootMode := 0
  services := ⟨fun _ => true, fun _ => true, true, fun _ => true⟩
  accepts := true

theorem plainBoot_sound : plainBoot.Sound :=
  ⟨⟨fun _ => rfl, rfl, fun _ => rfl⟩, fun _ => rfl, rfl⟩

theorem sound_replicate (n : Nat) : ∀ boot ∈ List.replicate n plainBoot, boot.Sound := by
  intro boot hboot
  rw [List.eq_of_mem_replicate hboot]
  exact plainBoot_sound

theorem length_trace_replicate (n : Nat) (system : System) :
    (system.trace (List.replicate n plainBoot)).length = n := by
  induction n generalizing system with
  | zero => rfl
  | succ n ih =>
    rw [List.replicate_succ, System.trace, if_neg (by decide), List.length_cons, ih]

theorem recovery_mem_schedule {attempts : List Outcome} {n : Nat} (h : attempts.length < n) :
    .recovery ∈ schedule attempts n := by
  unfold schedule
  rw [List.take_append, List.take_of_length_le (Nat.le_of_lt h), List.take_replicate]
  refine List.mem_append_right _ (List.mem_replicate.mpr ⟨?_, rfl⟩)
  omega

theorem count_schedule {attempts : List Outcome} {n : Nat} (h : attempts.length ≤ n)
    (slot : Slot) :
    (schedule attempts n).count (.normal slot) = attempts.count (.normal slot) := by
  unfold schedule
  rw [List.take_append, List.take_of_length_le h, List.take_replicate, List.count_append,
    List.count_replicate]
  simp

/-- At a level the launcher does not know, the current slot is booted for ever. -/
theorem unsupported_trace (hlevel : ¬ Supported level) (n : Nat)
    (hconfigured : Configured level max system.store) :
    system.trace (List.replicate n plainBoot) = List.replicate n (.normal system.chain) := by
  induction n generalizing system with
  | zero => rfl
  | succ n ih =>
    have hmode : plainBoot.bootMode ≠ bootModeRecovery := by decide
    obtain ⟨hstep, hafter⟩ := refines plainBoot_sound.working hconfigured hmode
    unfold View.step at hstep
    rw [if_neg fun h => hlevel (.inl h), if_neg fun h => hlevel (.inr h)] at hstep
    obtain ⟨houtcome, hview⟩ := Prod.mk.inj hstep
    have hchain : (system.after plainBoot).chain = system.chain := congrArg View.chain hview
    rw [List.replicate_succ, System.trace, if_neg hmode, ih hafter, houtcome, hchain,
      List.replicate_succ]
    rfl

theorem unsupported_breaks (hconfigured : Configured level max system.store)
    (hlevel : ¬ Supported level) : ¬ RetryLaw level max system := by
  intro h
  have hscheduled := h.scheduled (List.replicate (max.toNat + 1) plainBoot) (sound_replicate _)
  rw [length_trace_replicate, unsupported_trace hlevel _ hconfigured] at hscheduled
  have hlength : (attempts level max system.chain
      (slots level (unbootable system.store) system.chain)).length < max.toNat + 1 := by
    have hnot : level ≠ redundancyBootRootfs := fun h => hlevel (.inr h)
    unfold attempts slots
    simp only [hnot, if_false, false_and, List.nil_append]
    cases hmark : unbootable system.store .a <;> simp [hmark]
  have hmem := recovery_mem_schedule hlength
  rw [← hscheduled] at hmem
  exact absurd (List.eq_of_mem_replicate hmem) nofun

variable (level max) in
theorem count_upcoming_le (view : View) (hview : ∀ slot, view.retries slot < 4) (slot : Slot) :
    (view.upcoming level max).count (.normal slot) ≤ 3 := by
  have hcurrent := hview (view.current level)
  have hfresh : fresh max view.unbootable view.chain.other < 4 := by
    unfold fresh
    split <;> omega
  unfold View.upcoming
  rw [List.count_append, List.count_replicate]
  by_cases hother : level = redundancyBootRootfs ∧ view.retries view.chain.other ≠ 0
  · rw [if_pos hother, List.count_cons, List.count_replicate]
    have hcurrent' : view.current level = view.chain := if_pos hother.1
    have hne : view.chain.other ≠ view.chain := by cases view.chain <;> exact nofun
    rw [hcurrent'] at hcurrent ⊢
    by_cases heq : view.chain = slot
    · subst heq
      simp [hne]
      omega
    · simp only [beq_iff_eq, Outcome.normal.injEq, heq, if_false, reduceCtorEq]
      split <;> omega
  · rw [if_neg hother, List.count_nil]
    split <;> omega

variable (max) in
theorem count_attempts (marks : Slot → Bool) (chain : Slot) {slot : Slot}
    (h : slot ∈ slots level marks chain) :
    max.toNat ≤ (attempts level max chain (slots level marks chain)).count (.normal slot) := by
  have hsub : (List.replicate max.toNat (Outcome.normal slot)).Sublist
      (attempts level max chain (slots level marks chain)) := by
    exact (List.sublist_append_right _ _).trans
      (List.sublist_flatten_of_mem (List.mem_map.mpr ⟨slot, h, rfl⟩))
  have hcount := hsub.count_le (.normal slot)
  rwa [List.count_replicate_self] at hcount

theorem wide_breaks (hlevel : Supported level) (hconfigured : Configured level max system.store)
    (hregister : magicField.get system.store.register ≠ srRfMagic) (hmax : 3 < max.toNat)
    (hslots : slots level (unbootable system.store) system.chain ≠ []) :
    ¬ RetryLaw level max system := by
  intro h
  obtain ⟨slot, hslot⟩ := List.exists_mem_of_ne_nil _ hslots
  have hscheduled := h.scheduled (List.replicate ((attempts level max system.chain
    (slots level (unbootable system.store) system.chain)).length +
      ((system.view max).upcoming level max).length) plainBoot) (sound_replicate _)
  obtain ⟨-, -, -, k, hk⟩ := run_tracked hlevel hconfigured hregister _ (sound_replicate
    ((attempts level max system.chain (slots level (unbootable system.store) system.chain)).length +
      ((system.view max).upcoming level max).length))
  have hmine := schedule_eq hk
  rw [length_trace_replicate] at hscheduled hmine
  have hcount := congrArg (List.count (.normal slot)) (hscheduled.symm.trans hmine)
  rw [count_schedule (Nat.le_add_right _ _), count_schedule (Nat.le_add_left _ _)] at hcount
  have hmany := count_attempts max (unbootable system.store) system.chain hslot
  have hfew := count_upcoming_le level max (system.view max) (retries_lt max system) slot
  omega

/-- The law holds exactly at a level the launcher knows, with a retry count that fits into its two
bits unless no slot is to be tried. -/
theorem retryLaw_iff (hconfigured : Configured level max system.store) (hne : max ≠ 0)
    (hregister : magicField.get system.store.register ≠ srRfMagic) :
    RetryLaw level max system ↔
      Supported level ∧
        (max.toNat ≤ 3 ∨ slots level (unbootable system.store) system.chain = []) := by
  constructor
  · intro h
    have hlevel : Supported level := by
      by_contra hlevel
      exact unsupported_breaks hconfigured hlevel h
    refine ⟨hlevel, ?_⟩
    by_contra hnot
    rw [not_or] at hnot
    exact wide_breaks hlevel hconfigured hregister (by omega) hnot.2 h
  · rintro ⟨hlevel, hwidth⟩
    exact retryLaw_of_width hlevel hconfigured hne hregister hwidth

end

/-- Both slots are good and the register is not initialized. -/
def goodStore (level max : BitVec 32) : Store where
  values
    | .statusA => some osStatusNormal
    | .statusB => some osStatusNormal
    | .redundancy => some level
    | .retryMax => some max
    | .fwNext => none
    | .bcStatus => none
  register := 0

theorem goodStore_configured (level max : BitVec 32) :
    Configured level max (goodStore level max) :=
  ⟨rfl, rfl, fun slot => by cases slot <;> rfl⟩

theorem retryLaw_sample : RetryLaw redundancyBootRootfs 3 ⟨goodStore redundancyBootRootfs 3, .a⟩ :=
  (retryLaw_iff (goodStore_configured _ _) (by decide) (by decide)).mpr
    ⟨.inr rfl, .inl (by decide)⟩

/-- Four attempts do not fit into two bits: there is none. -/
theorem four_retries : ¬ RetryLaw redundancyBootOnly 4 ⟨goodStore redundancyBootOnly 4, .a⟩ := by
  intro h
  have hscheduled := h.scheduled [plainBoot] (by simp [plainBoot_sound])
  revert hscheduled
  decide

end Rootfs
