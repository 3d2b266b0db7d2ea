import Edk2Nvidia.Rootfs.Retry

/-! Whether a launcher that cannot boot either slot comes to recovery when variables cannot be
written or the firmware refuses to switch. -/
namespace Rootfs
open Parse

namespace View

/-- The current slot has no attempts left and the other one has. -/
def SwitchDue (view : View) : Prop :=
  ¬ (view.unbootable .a = true ∧ view.unbootable .b = true) ∧ view.retries view.chain = 0 ∧
    view.retries view.chain.other ≠ 0

instance (view : View) : Decidable view.SwitchDue := inferInstanceAs (Decidable (_ ∧ _ ∧ _))

/-- Both variables of a switch can be written, and the firmware takes it. -/
def Completes (setVariable : VariableIndex → Bool) (accepts : Bool) (view : View) : Prop :=
  view.SwitchDue →
    setVariable view.chain.status = true ∧ setVariable .fwNext = true ∧ accepts = true

instance (setVariable : VariableIndex → Bool) (accepts : Bool) (view : View) :
    Decidable (view.Completes setVariable accepts) := inferInstanceAs (Decidable (_ → _))

/-- The boots until recovery when every switch completes. -/
def remaining (max : BitVec 32) (view : View) : Nat :=
  if view.unbootable .a ∧ view.unbootable .b then 0
  else
    view.retries view.chain +
      if view.retries view.chain.other = 0 then 0
      else 1 + fresh max view.unbootable view.chain.other

theorem fresh_le (max : BitVec 32) (marks : Slot → Bool) (slot : Slot) :
    fresh max marks slot ≤ max.toNat % 4 := by
  unfold fresh
  split <;> omega

theorem fresh_marked_le (max : BitVec 32) (view : View) (works : Slot → Bool) (slot : Slot) :
    (view.mark max works).retries slot ≤ fresh max view.unbootable slot := by
  unfold mark fresh
  cases hmark : view.unbootable slot with
  | true => simp [hmark]
  | false =>
    simp only [hmark, Bool.false_or, Bool.false_eq_true, if_false]
    split
    · exact Nat.zero_le _
    · exact Nat.le_refl _

theorem remaining_mark_le (max : BitVec 32) (view : View) (works : Slot → Bool) (chain : Slot)
    (next : Option Slot) :
    remaining max { view.mark max works with chain := chain, next := next } ≤
      1 + fresh max view.unbootable view.chain + fresh max view.unbootable view.chain.other := by
  have ha := fresh_marked_le max view works .a
  have hb := fresh_marked_le max view works .b
  have heq : ∀ slot, fresh max (view.mark max works).unbootable slot =
      (view.mark max works).retries slot := fun _ => rfl
  have hite : ∀ n : Nat, (if n = 0 then 0 else 1 + n) ≤ 1 + n := by
    intro n
    split <;> omega
  unfold remaining
  dsimp only
  split
  · exact Nat.zero_le _
  · rw [heq]
    refine Nat.le_trans (Nat.add_le_add_left (hite _) _) ?_
    cases view.chain <;> cases chain <;> simp only [Slot.other] <;> omega

theorem remaining_completed_le (max : BitVec 32) (view : View) (next : Option Slot) :
    remaining max { view.mark max (fun s => s = view.chain) with
      chain := view.chain.other, next := next } ≤ fresh max view.unbootable view.chain.other := by
  have hother := fresh_marked_le max view (fun s => s = view.chain) view.chain.other
  have hcurrent : (view.mark max (fun s => s = view.chain)).retries view.chain = 0 :=
    if_pos (by simp)
  have hback : view.chain.other.other = view.chain := by cases view.chain <;> rfl
  unfold remaining
  dsimp only
  rw [hback, hcurrent]
  split
  · exact Nat.zero_le _
  · simpa using hother

/-- A boot that does not come to recovery takes one from what remains; a switch that is not
completed gives back at most the attempts of one slot. -/
theorem remaining_step (max : BitVec 32) (setVariable : VariableIndex → Bool) (accepts : Bool)
    (view : View)
    (h : (view.step redundancyBootRootfs max setVariable accepts).1 ≠ .recovery) :
    (view.step redundancyBootRootfs max setVariable accepts).2.remaining max + 1 ≤
      view.remaining max +
        if view.Completes setVariable accepts then 0 else max.toNat % 4 + 1 := by
  revert h
  unfold step
  rw [if_neg (by decide), if_pos rfl]
  split
  · exact fun h => absurd rfl h
  · rename_i hboth
    split
    · rename_i hretries
      intro _
      have hne : view.chain.other ≠ view.chain := by cases view.chain <;> exact nofun
      have hremaining : (view.attempt view.chain).remaining max + 1 = view.remaining max := by
        unfold remaining attempt
        simp only [hboth, if_false, if_true, hne]
        omega
      exact Nat.le_trans (Nat.le_of_eq hremaining) (Nat.le_add_right _ _)
    · rename_i hretries
      split
      · rename_i hother
        intro _
        have hremaining : view.remaining max = 1 + fresh max view.unbootable view.chain.other := by
          unfold remaining
          rw [if_neg hboth, if_neg hother, not_not.mp hretries, Nat.zero_add]
        have hcurrent := fresh_le max view.unbootable view.chain
        by_cases hcompletes : view.Completes setVariable accepts
        · obtain ⟨hstatus, hnext, haccepts⟩ := hcompletes ⟨hboth, not_not.mp hretries, hother⟩
          have hle := remaining_completed_le max view none
          rw [if_pos hcompletes, hremaining]
          simp only [hstatus, hnext, haccepts, and_self, if_true, and_true, Option.getD_some]
          exact Nat.le_trans (Nat.succ_le_succ hle) (by omega)
        · have hle := remaining_mark_le max view
            (fun s => s = view.chain ∧ setVariable view.chain.status)
            (if accepts then (if setVariable view.chain.status ∧ setVariable .fwNext then
              some view.chain.other else view.next).getD view.chain else view.chain) none
          rw [if_neg hcompletes, hremaining]
          exact Nat.le_trans (Nat.succ_le_succ hle) (by omega)
      · exact fun h => absurd rfl h

end View

namespace System

def outcomes : List Boot → System → List Outcome
  | [], _ => []
  | boot :: rest, system => system.outcome boot :: outcomes rest (system.after boot)

/-- How many boots of a run leave a switch half done. -/
def uncompleted (max : BitVec 32) : List Boot → System → Nat
  | [], _ => 0
  | boot :: rest, system =>
    (if (system.view max).Completes boot.services.setVariable boot.accepts then 0 else 1) +
      uncompleted max rest (system.after boot)

end System

section
variable {max : BitVec 32} {system : System}

theorem outcome_requested {boot : Boot} (h : boot.bootMode = bootModeRecovery) :
    system.outcome boot = .recovery := by
  unfold System.outcome System.result validateRootfsStatus
  simp [h]

/-- As long as recovery does not come, the boots are paid for by what remains at the start and
by the switches left half done. -/
theorem length_le_remaining (hconfigured : Configured redundancyBootRootfs max system.store)
    (boots : List Boot) (hworking : ∀ boot ∈ boots, boot.services.Working)
    (hfree : .recovery ∉ system.outcomes boots) :
    boots.length ≤
      (system.view max).remaining max + (max.toNat % 4 + 1) * system.uncompleted max boots := by
  induction boots generalizing system with
  | nil => exact Nat.zero_le _
  | cons boot rest ih =>
    rw [System.outcomes, List.mem_cons, not_or] at hfree
    have hmode : boot.bootMode ≠ bootModeRecovery := fun h => hfree.1 (outcome_requested h).symm
    obtain ⟨hstep, hafter⟩ := refines (hworking boot List.mem_cons_self) hconfigured hmode
    have houtcome := congrArg Prod.fst hstep
    have hview := congrArg Prod.snd hstep
    have hrest := ih hafter (fun b hb => hworking b (List.mem_cons_of_mem _ hb)) hfree.2
    have hpaid := View.remaining_step max boot.services.setVariable boot.accepts (system.view max)
      (by rw [← houtcome]; exact fun h => hfree.1 h.symm)
    rw [← hview] at hpaid
    rw [System.uncompleted, List.length_cons, Nat.mul_add]
    by_cases hcompletes : (system.view max).Completes boot.services.setVariable boot.accepts
    · rw [if_pos hcompletes] at hpaid ⊢
      dsimp only at hpaid
      omega
    · rw [if_neg hcompletes] at hpaid ⊢
      dsimp only at hpaid
      omega

/-- Recovery comes within a number of boots that depends on the retry count only, and on how many
switches were left half done. -/
theorem recovers (hmin : 1 ≤ max.toNat) (hmax : max.toNat ≤ 3)
    (hconfigured : Configured redundancyBootRootfs max system.store) (boots : List Boot)
    (hworking : ∀ boot ∈ boots, boot.services.Working)
    (hlength : max.toNat + 4 + (max.toNat + 1) * system.uncompleted max boots < boots.length) :
    .recovery ∈ system.outcomes boots := by
  by_contra hfree
  have hle := length_le_remaining hconfigured boots hworking hfree
  rw [Nat.mod_eq_of_lt (by omega)] at hle
  have hremaining : (system.view max).remaining max ≤ max.toNat + 4 := by
    have hfresh := View.fresh_le max (system.view max).unbootable (system.view max).chain.other
    have hretries := retries_lt max system (system.view max).chain
    unfold View.remaining
    split
    · exact Nat.zero_le _
    · split <;> omega
  omega

end

/-- A boot on which everything works but the firmware's switch. -/
def refusedBoot : Boot := { plainBoot with accepts := false }

/-- A boot on which no variable can be written. -/
def unwrittenBoot : Boot :=
  { plainBoot with services := { plainBoot.services with setVariable := fun _ => false } }

/-- Slot A uses up its attempts; a switch is refused, the next one cannot be written down, and twelve
more boots are enough. -/
theorem recovers_sample :
    .recovery ∈ System.outcomes
      (List.replicate 3 plainBoot ++ [refusedBoot, unwrittenBoot] ++ List.replicate 12 plainBoot)
      ⟨goodStore redundancyBootRootfs 3, .a⟩ := by
  refine recovers (by decide : 1 ≤ (3 : BitVec 32).toNat) (by decide)
    (goodStore_configured redundancyBootRootfs 3) _ (fun boot hboot => ?_) (by decide)
  have hworking : plainBoot.services.Working := plainBoot_sound.working
  rw [List.mem_append, List.mem_append] at hboot
  rcases hboot with (hboot | hboot) | hboot
  · exact List.eq_of_mem_replicate hboot ▸ hworking
  · rcases List.mem_cons.mp hboot with rfl | hlast
    · exact hworking
    · rw [List.mem_singleton.mp hlast]
      exact ⟨hworking.getVariable, hworking.getRegister, hworking.setRegister⟩
  · exact List.eq_of_mem_replicate hboot ▸ hworking

/-- For a retry count, recovery comes within a bound that nothing else has a part in. -/
def RecoversWithin (max : BitVec 32) : Prop :=
  ∃ bound, ∀ system : System, Configured redundancyBootRootfs max system.store →
    ∀ boots : List Boot, (∀ boot ∈ boots, boot.services.Working) → bound < boots.length →
      .recovery ∈ system.outcomes boots

/-- Slot A has been marked, and the firmware is still on its chain. -/
def stuckView (max : BitVec 32) : View where
  chain := .a
  next := none
  unbootable := fun slot => slot = .a
  retries := fresh max fun slot => slot = .a

theorem stuckView_step :
    (stuckView 3).step redundancyBootRootfs 3 refusedBoot.services.setVariable
      refusedBoot.accepts = (.switch .b, stuckView 3) := by
  refine Prod.ext rfl ?_
  ext1
  · rfl
  · rfl
  · funext slot
    cases slot <;> rfl
  · funext slot
    cases slot <;> rfl

theorem stuck_outcomes (boots : Nat) {system : System}
    (hconfigured : Configured redundancyBootRootfs 3 system.store)
    (hview : system.view 3 = stuckView 3) :
    system.outcomes (List.replicate boots refusedBoot) = List.replicate boots (.switch .b) := by
  induction boots generalizing system with
  | zero => rfl
  | succ n ih =>
    have hmode : refusedBoot.bootMode ≠ bootModeRecovery := by decide
    have hworking : refusedBoot.services.Working := plainBoot_sound.working
    obtain ⟨hstep, hafter⟩ := refines hworking hconfigured hmode
    rw [hview] at hstep
    have houtcome := congrArg Prod.fst (hstep.trans stuckView_step)
    have hagain := congrArg Prod.snd (hstep.trans stuckView_step)
    rw [List.replicate_succ, System.outcomes, ih hafter hagain, List.replicate_succ]
    exact congrArg (· :: _) houtcome

/-- Slot A is marked, slot B has all its attempts and the register is not initialized. -/
def stuckSystem : System where
  store := { goodStore redundancyBootRootfs 3 with
    values := fun index =>
      if index = .statusA then some osStatusUnbootable
      else (goodStore redundancyBootRootfs 3).values index }
  chain := .a

theorem stuckSystem_configured : Configured redundancyBootRootfs 3 stuckSystem.store :=
  ⟨rfl, rfl, fun slot => by cases slot <;> rfl⟩

theorem stuckSystem_view : stuckSystem.view 3 = stuckView 3 := by
  ext1
  · rfl
  · rfl
  · funext slot
    cases slot <;> rfl
  · funext slot
    cases slot <;> decide

/-- The firmware never switches: recovery never comes. -/
theorem refused_never_recovers : ¬ RecoversWithin 3 := by
  rintro ⟨bound, h⟩
  have hmem := h stuckSystem stuckSystem_configured (List.replicate (bound + 1) refusedBoot)
    (fun boot hboot => by
      rw [List.eq_of_mem_replicate hboot]
      exact plainBoot_sound.working)
    (by simp)
  rw [stuck_outcomes (bound + 1) stuckSystem_configured stuckSystem_view] at hmem
  exact absurd (List.eq_of_mem_replicate hmem) nofun

end Rootfs
