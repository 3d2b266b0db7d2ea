import Edk2Nvidia.AndroidBcb.RetryCount
import Edk2Nvidia.Parse.ShiftRegister

/-! Boots of native UEFI one after the other, with the system marking the slot it runs from or
not and power lost at any call: the slot of the highest priority is kept the running chain. -/
namespace AndroidBcb
open Effect

/-- What outlives a boot: the block on the misc partition and the chain that the BCT selects. -/
structure System where
  bootCtrl : BootloaderControl
  bct : Nat
deriving DecidableEq, Repr

/-- The answer to a call. A system that runs may confirm its slot and set the slot's tries. -/
structure Answer where
  status : EfiStatus
  marks : Option (BitVec 2)
deriving DecidableEq, Repr

inductive Happening where
  /-- The boot goes on from `slot` on `chain`; `marked` tells whether the system confirms it. -/
  | booted (slot chain : Nat) (marked : Bool)
  /-- Power is lost before the boot goes on from `slot`. -/
  | interrupted (slot chain : Nat)
  /-- `slot` is given up, the other chain selected and the system reset. -/
  | switched (slot : Nat)
  | stopped
deriving DecidableEq, Repr

namespace Happening

def Boots (x : Nat) : Happening → Bool
  | booted slot _ _ => slot == x
  | _ => false

def Interrupts (x : Nat) : Happening → Bool
  | interrupted slot _ => slot == x
  | _ => false

def Marks (x : Nat) : Happening → Bool
  | booted slot _ marked => slot == x && marked
  | _ => false

def Resets : Happening → Bool
  | switched _ => true
  | _ => false

end Happening

def other (slot : Nat) : Nat := if slot = 0 then 1 else 0

namespace System
variable (calculateCrc32 : List UInt8 → BitVec 32) (system : System)

def active : Nat := system.bootCtrl.bcbGetActiveBootSlot

def slot (i : Nat) : SlotMetadata := system.bootCtrl.slot i

/-- One slot rewritten, with the checksum of the block. -/
def rewrite (i : Nat) (slot : SlotMetadata) : System :=
  { system with bootCtrl := (system.bootCtrl.setSlot i slot).sealed calculateCrc32 }

end System

/-- How the protocols, the disk and the system that is booted answer a call. -/
def serve (calculateCrc32 : List UInt8 → BitVec 32) (call : Call) (answer : Answer)
    (system : System) : Reply × System :=
  (⟨answer.status, system.bootCtrl, answer.marks.isSome⟩,
    match call with
    | .writeDisk bootCtrl =>
      if answer.status.isError then system else { system with bootCtrl }
    | .updateFwChain chain => if answer.status.isError then system else { system with bct := chain }
    | .proceed =>
      match answer.marks with
      | some triesRemaining => system.rewrite calculateCrc32 system.bct
          { system.slot system.bct with successfulBoot := 1, triesRemaining }
      | none => system
    | _ => system)

section Boots
variable (calculateCrc32 : List UInt8 → BitVec 32)

/-- A boot goes on when the countdown returns success. -/
def goOn (ending : Ending) : Program (Ending × Bool) :=
  match ending with
  | .returned .success _ => do
    let reply ← Prog.perform .proceed
    pure (ending, reply.marked)
  | _ => pure (ending, false)

/-- The part of a boot on `chain` that the block decides about. -/
def bootAndroid (chain : Nat) : Program (Ending × Bool) := do
  let status ← androidBcbLockChain calculateCrc32 false chain
  if status.isError then pure (.returned status false, false)
  else androidBcbCheckAndUpdateRetryCount calculateCrc32 false >>= goOn

/-- What a boot that started in `before` has come to. -/
def conclude (before : System) : Outcome Call System (Ending × Bool) → Happening × System
  | .done (.returned .success _, marked) s => (.booted s.active before.bct marked, s)
  | .done (.returned _ _, _) s => (.stopped, s)
  | .done (.resetCold, _) s => (.switched before.active, s)
  | .lost .statusRegReset s => (.switched before.active, s)
  | .lost .proceed s => (.interrupted s.active before.bct, s)
  | .lost _ s => (.stopped, s)

def System.boot (system : System) (answers : List Answer) : Happening × System :=
  conclude system ((bootAndroid calculateCrc32 system.bct).run (serve calculateCrc32)
    answers system)

end Boots

/-! When the two stores agree, and when a switch of the chain can be made good. -/

/-- The answers left when the block has been read. -/
def served : List Answer → Option (List Answer)
  | misc :: disk :: rest =>
    if misc.status.isError || disk.status.isError then none else some rest
  | _ => none

def Updates : List Answer → Prop
  | locate :: _ :: update :: _ => locate.status = .success ∧ update.status = .success
  | _ => False

instance : DecidablePred Updates
  | [] => .isFalse id
  | [_] => .isFalse id
  | [_, _] => .isFalse id
  | locate :: _ :: update :: _ =>
    inferInstanceAs (Decidable (locate.status = .success ∧ update.status = .success))

namespace System

/-- The other slot can take over: it has tries, and comes first once the active one is cleared. -/
def Fallback (system : System) : Prop :=
  (system.slot (other system.active)).triesRemaining ≠ 0 ∧
    (system.active = 0 → (system.slot 1).priority ≠ 0)

instance (system : System) : Decidable system.Fallback :=
  inferInstanceAs (Decidable (_ ∧ _))

/-- A slot is given up only where the other can take over, and then its chain is selected. -/
def Gives (system : System) : List Answer → Prop
  | write :: rest =>
    write.status = .success → (system.slot system.active).triesRemaining = 0 →
      system.Fallback ∧ Updates rest
  | [] => True

instance (system : System) : DecidablePred system.Gives
  | [] => .isTrue trivial
  | _ :: rest => inferInstanceAs (Decidable (_ → _ → system.Fallback ∧ Updates rest))

def Permitted (system : System) (answers : List Answer) : Prop :=
  ∀ rest ∈ served answers, system.Gives rest

instance (system : System) (answers : List Answer) : Decidable (system.Permitted answers) :=
  inferInstanceAs (Decidable (∀ rest ∈ served answers, system.Gives rest))

variable (calculateCrc32 : List UInt8 → BitVec 32)

structure Agree (system : System) : Prop where
  valid : system.bootCtrl.bootloaderControlLeCrc calculateCrc32 = system.bootCtrl.crc32Le
  nbSlot : system.bootCtrl.nbSlot = 2
  bct : system.bct = system.active

/-- One try used up, unless the slot is confirmed. -/
def counted (system : System) : System :=
  if (system.slot system.active).successfulBoot = 0 then
    system.rewrite calculateCrc32 system.active
      { system.slot system.active with
        triesRemaining := (system.slot system.active).triesRemaining - 1 }
  else system

def confirmed (system : System) : Option (BitVec 2) → System
  | some triesRemaining => system.rewrite calculateCrc32 system.bct
      { system.slot system.bct with successfulBoot := 1, triesRemaining }
  | none => system

/-- The active slot cleared and the other chain selected. -/
def givenUp (system : System) : System :=
  let slot := { system.slot system.active with priority := 0 }
  { system.rewrite calculateCrc32 system.active slot with bct := other system.active }

end System

inductive Step (calculateCrc32 : List UInt8 → BitVec 32) (system : System) :
    Happening → System → Prop where
  | stopped : Step calculateCrc32 system .stopped system
  | interrupted (htries : (system.slot system.active).triesRemaining ≠ 0) :
      Step calculateCrc32 system
        (.interrupted (system.counted calculateCrc32).active system.bct)
        (system.counted calculateCrc32)
  | booted (htries : (system.slot system.active).triesRemaining ≠ 0)
      (marks : Option (BitVec 2)) :
      Step calculateCrc32 system
        (.booted ((system.counted calculateCrc32).confirmed calculateCrc32 marks).active
          system.bct marks.isSome)
        ((system.counted calculateCrc32).confirmed calculateCrc32 marks)
  | switched (htries : (system.slot system.active).triesRemaining = 0)
      (hfallback : system.Fallback) :
      Step calculateCrc32 system (.switched system.active) (system.givenUp calculateCrc32)

/-! A boot makes one of these steps. -/

section Runs
variable {calculateCrc32 : List UInt8 → BitVec 32} {system : System}

theorem goOn_error {status : EfiStatus} (h : status.isError) (ota : Bool) :
    goOn (.returned status ota) = pure (.returned status ota, false) := by
  cases status
  case success => simp at h
  all_goals rfl

theorem conclude_error {status : EfiStatus} (h : status.isError) (ota marked : Bool)
    (before s : System) :
    conclude before (.done (.returned status ota, marked) s) = (.stopped, s) := by
  cases status
  case success => simp at h
  all_goals rfl

theorem bootAndroid_eq (chain : Nat) :
    bootAndroid calculateCrc32 chain =
      androidBcbCheckAndUpdateRetryCount calculateCrc32 false >>= goOn := rfl

theorem boot_unserved {answers : List Answer} (h : served answers = none) :
    system.boot calculateCrc32 answers = (.stopped, system) := by
  unfold System.boot
  rw [bootAndroid_eq, androidBcbCheckAndUpdateRetryCount, Prog.bind_assoc]
  cases answers with
  | nil => rfl
  | cons misc answers =>
    rw [Prog.run_perform_cons]
    cases hmisc : misc.status.isError with
    | true =>
      simp only [serve, hmisc, if_true, Prog.pure_bind, goOn_error hmisc, Prog.run_pure,
        conclude_error hmisc]
    | false =>
      cases answers with
      | nil => simp [serve, hmisc, Prog.bind_assoc, conclude]
      | cons disk rest =>
        cases hdisk : disk.status.isError with
        | true =>
          simp only [serve, hmisc, hdisk, if_true, Prog.pure_bind, goOn_error hdisk,
            Prog.run_pure, conclude_error hdisk, Prog.bind_assoc, Prog.run_perform_cons,
            Bool.false_eq_true, if_false]
        | false => simp [served, hmisc, hdisk] at h

/-- What is left of a boot when the block has been read. -/
theorem boot_served (h : system.Agree calculateCrc32) {answers rest : List Answer}
    (hserved : served answers = some rest) :
    system.boot calculateCrc32 answers =
      conclude system (((if (system.slot system.active).triesRemaining = 0 then
          switchChain calculateCrc32 system.bootCtrl system.active
        else countDown calculateCrc32 system.bootCtrl system.active) >>= goOn).run
          (serve calculateCrc32) rest system) := by
  match answers, hserved with
  | misc :: disk :: _, hserved =>
    simp only [served, Bool.or_eq_true] at hserved
    split at hserved
    · cases hserved
    · next hok =>
      cases hserved
      have hmisc : misc.status.isError = false := by simpa using fun h => hok (.inl h)
      have hdisk : disk.status.isError = false := by simpa using fun h => hok (.inr h)
      unfold System.boot
      rw [bootAndroid_eq, androidBcbCheckAndUpdateRetryCount, Prog.bind_assoc]
      simp only [serve, hmisc, hdisk, Prog.bind_assoc, Prog.run_perform_cons,
        Bool.false_eq_true, if_false, h.valid, ne_eq, not_true_eq_false]
      rfl

theorem goOn_step {s : System} (htries : (system.slot system.active).triesRemaining ≠ 0)
    (hs : s = system.counted calculateCrc32) (ota : Bool) (rest : List Answer) :
    let result := conclude system
      ((goOn (.returned .success ota)).run (serve calculateCrc32) rest s)
    Step calculateCrc32 system result.1 result.2 := by
  subst hs
  cases rest with
  | nil => exact .interrupted htries
  | cons answer rest => exact .booted htries answer.marks

theorem countDown_step (htries : (system.slot system.active).triesRemaining ≠ 0)
    (rest : List Answer) :
    let result := conclude system
      ((countDown calculateCrc32 system.bootCtrl system.active >>= goOn).run
        (serve calculateCrc32) rest system)
    Step calculateCrc32 system result.1 result.2 := by
  have hslot : system.bootCtrl.slot system.active = system.slot system.active := rfl
  unfold countDown
  by_cases hsuccessful : (system.slot system.active).successfulBoot = 0
  · simp only [hslot, hsuccessful, htries, ne_eq, not_false_eq_true, and_self, if_true,
      Prog.bind_assoc]
    cases rest with
    | nil => exact .stopped
    | cons write rest =>
      rw [Prog.run_perform_cons]
      cases hwrite : write.status.isError with
      | true =>
        simp only [serve, hwrite, if_true, Prog.pure_bind, goOn_error hwrite, Prog.run_pure,
          conclude_error hwrite]
        exact .stopped
      | false =>
        simp only [serve, hwrite, Bool.false_eq_true, if_false, Prog.pure_bind]
        apply goOn_step htries
        simp only [System.counted, hsuccessful, if_true]
        rfl
  · simp only [hslot, hsuccessful, false_and, if_false, Prog.pure_bind]
    apply goOn_step htries
    simp only [System.counted, hsuccessful, if_false]

theorem switchChain_step (htries : (system.slot system.active).triesRemaining = 0)
    {rest : List Answer} (hgives : system.Gives rest) :
    let result := conclude system
      ((switchChain calculateCrc32 system.bootCtrl system.active >>= goOn).run
        (serve calculateCrc32) rest system)
    Step calculateCrc32 system result.1 result.2 := by
  unfold switchChain
  rw [Prog.bind_assoc]
  cases rest with
  | nil => exact .stopped
  | cons write rest =>
    rw [Prog.run_perform_cons]
    cases hwrite : write.status.isError with
    | true =>
      simp only [serve, hwrite, if_true, Prog.pure_bind, goOn_error hwrite, Prog.run_pure,
        conclude_error hwrite]
      exact .stopped
    | false =>
      have hsuccess : write.status = .success := by simpa [EfiStatus.isError] using hwrite
      obtain ⟨hfallback, hupdates⟩ := hgives hsuccess htries
      match rest, hupdates with
      | locate :: validate :: update :: rest, ⟨hlocate, hupdate⟩ =>
        simp only [serve, hwrite, hlocate, hupdate, EfiStatus.isError_success, Bool.false_eq_true,
          if_false, Prog.bind_assoc, Prog.run_perform_cons]
        cases rest with
        | nil => exact .switched htries hfallback
        | cons reset rest => exact .switched htries hfallback

theorem boot_step (h : system.Agree calculateCrc32) {answers : List Answer}
    (hpermitted : system.Permitted answers) :
    Step calculateCrc32 system (system.boot calculateCrc32 answers).1
      (system.boot calculateCrc32 answers).2 := by
  cases hserved : served answers with
  | none =>
    rw [boot_unserved hserved]
    exact .stopped
  | some rest =>
    rw [boot_served h hserved]
    by_cases htries : (system.slot system.active).triesRemaining = 0
    · rw [if_pos htries]
      exact switchChain_step htries (hpermitted rest hserved)
    · rw [if_neg htries]
      exact countDown_step htries rest

/-! What a step does to the slots. -/

theorem rewrite_slot {i : Nat} (hi : i < 4) (slot : SlotMetadata) (j : Nat) :
    (system.rewrite calculateCrc32 i slot).slot j = if i = j then slot else system.slot j :=
  BootloaderControl.slot_setSlot hi slot j

theorem active_congr {s : System} (h : system.bootCtrl.nbSlot = 2) (hs : s.bootCtrl.nbSlot = 2)
    (hpriority : ∀ i < 2, (s.slot i).priority = (system.slot i).priority) :
    s.active = system.active := by
  have h0 := hpriority 0 (by decide)
  have h1 := hpriority 1 (by decide)
  unfold System.slot at h0 h1
  simp only [System.active, BootloaderControl.bcbGetActiveBootSlot_eq h,
    BootloaderControl.bcbGetActiveBootSlot_eq hs, h0, h1]

theorem active_lt (h : system.Agree calculateCrc32) : system.active < 2 :=
  BootloaderControl.bcbGetActiveBootSlot_lt h.nbSlot

theorem other_other {x : Nat} (h : x < 2) : other (other x) = x := by
  unfold other
  split <;> simp <;> omega

theorem other_ne (x : Nat) : other x ≠ x := by
  unfold other
  split <;> omega

/-- A step that selects no other chain: what it leaves as it was. -/
structure Kept (system s : System) : Prop where
  nbSlot : s.bootCtrl.nbSlot = system.bootCtrl.nbSlot
  bct : s.bct = system.bct
  priority : ∀ x, (s.slot x).priority = (system.slot x).priority
  elsewhere : ∀ x ≠ system.active, s.slot x = system.slot x

theorem Kept.refl (system : System) : Kept system system :=
  ⟨rfl, rfl, fun _ => rfl, fun _ _ => rfl⟩

theorem Kept.active {s : System} (hkept : Kept system s) (h : system.Agree calculateCrc32) :
    s.active = system.active :=
  active_congr h.nbSlot (hkept.nbSlot.trans h.nbSlot) fun x _ => hkept.priority x

theorem Kept.trans {s t : System} (h : system.Agree calculateCrc32) (hs : Kept system s)
    (ht : Kept s t) : Kept system t where
  nbSlot := ht.nbSlot.trans hs.nbSlot
  bct := ht.bct.trans hs.bct
  priority x := (ht.priority x).trans (hs.priority x)
  elsewhere x hx :=
    (ht.elsewhere x (by rwa [hs.active h])).trans (hs.elsewhere x hx)

theorem Kept.rewrite (h : system.Agree calculateCrc32) (slot : SlotMetadata)
    (hpriority : slot.priority = (system.slot system.active).priority) :
    Kept system (system.rewrite calculateCrc32 system.active slot) := by
  have hactive : system.active < 4 := by
    have := active_lt h
    omega
  constructor
  · rfl
  · rfl
  · intro x
    rw [rewrite_slot hactive]
    split
    · next hx => rw [← hx, hpriority]
    · rfl
  · intro x hx
    rw [rewrite_slot hactive, if_neg (Ne.symm hx)]

theorem Kept.agree {s : System} (hkept : Kept system s) (h : system.Agree calculateCrc32)
    (hvalid : s.bootCtrl.bootloaderControlLeCrc calculateCrc32 = s.bootCtrl.crc32Le) :
    s.Agree calculateCrc32 :=
  ⟨hvalid, hkept.nbSlot.trans h.nbSlot, by rw [hkept.bct, h.bct, hkept.active h]⟩

theorem counted_kept (h : system.Agree calculateCrc32) :
    Kept system (system.counted calculateCrc32) ∧
      (system.counted calculateCrc32).Agree calculateCrc32 := by
  unfold System.counted
  split
  · have hkept := Kept.rewrite h { system.slot system.active with
      triesRemaining := (system.slot system.active).triesRemaining - 1 } rfl
    exact ⟨hkept, hkept.agree h rfl⟩
  · exact ⟨Kept.refl system, h⟩

theorem confirmed_kept (h : system.Agree calculateCrc32) (marks : Option (BitVec 2)) :
    Kept system (system.confirmed calculateCrc32 marks) ∧
      (system.confirmed calculateCrc32 marks).Agree calculateCrc32 := by
  cases marks with
  | none => exact ⟨Kept.refl system, h⟩
  | some triesRemaining =>
    have hkept := Kept.rewrite h { system.slot system.active with
      successfulBoot := 1, triesRemaining } rfl
    unfold System.confirmed
    rw [h.bct]
    exact ⟨hkept, hkept.agree h rfl⟩

/-- A step that is no switch leaves the priorities and the other slot alone. -/
theorem Step.kept (h : system.Agree calculateCrc32) {happening : Happening} {s : System}
    (hstep : Step calculateCrc32 system happening s) (hresets : happening.Resets = false) :
    Kept system s ∧ s.Agree calculateCrc32 := by
  cases hstep with
  | stopped => exact ⟨Kept.refl system, h⟩
  | interrupted => exact counted_kept h
  | booted _ marks =>
    have hcounted := counted_kept h
    have hconfirmed := confirmed_kept hcounted.2 marks
    exact ⟨Kept.trans h hcounted.1 hconfirmed.1, hconfirmed.2⟩
  | switched => simp [Happening.Resets] at hresets

theorem givenUp_slot (h : system.Agree calculateCrc32) (x : Nat) :
    (system.givenUp calculateCrc32).slot x =
      if system.active = x then { system.slot system.active with priority := 0 }
      else system.slot x := by
  have hactive := active_lt h
  exact rewrite_slot (by omega) _ x

/-- The other slot is active once the active one has been given up. -/
theorem givenUp_active (h : system.Agree calculateCrc32) (hfallback : system.Fallback) :
    (system.givenUp calculateCrc32).active = other system.active := by
  have hnbSlot : (system.givenUp calculateCrc32).bootCtrl.nbSlot = 2 := h.nbSlot
  have hactive := active_lt h
  have hslot0 := givenUp_slot h 0
  have hslot1 := givenUp_slot h 1
  unfold System.slot at hslot0 hslot1
  rw [System.active, BootloaderControl.bcbGetActiveBootSlot_eq hnbSlot, hslot0, hslot1]
  match hx : system.active with
  | 0 =>
    have hpriority : (system.bootCtrl.slot 1).priority ≠ 0#4 := hfallback.2 hx
    simp [other, BitVec.pos_iff_ne_zero, hpriority]
  | 1 => simp [other]
  | n + 2 => omega

theorem givenUp_agree (h : system.Agree calculateCrc32) (hfallback : system.Fallback) :
    (system.givenUp calculateCrc32).Agree calculateCrc32 :=
  ⟨rfl, h.nbSlot, (givenUp_active h hfallback).symm⟩

theorem Step.agree (h : system.Agree calculateCrc32) {happening : Happening} {s : System}
    (hstep : Step calculateCrc32 system happening s) : s.Agree calculateCrc32 := by
  cases hresets : happening.Resets with
  | false => exact (hstep.kept h hresets).2
  | true =>
    cases hstep with
    | switched _ hfallback => exact givenUp_agree h hfallback
    | _ => simp [Happening.Resets] at hresets

/-- The tries of a slot that is not confirmed count the boots from it. -/
theorem Step.tries (h : system.Agree calculateCrc32) {happening : Happening} {s : System}
    (hstep : Step calculateCrc32 system happening s) {x : Nat}
    (hsuccessful : (system.slot x).successfulBoot = 0) (hmarks : happening.Marks x = false) :
    (s.slot x).successfulBoot = 0 ∧
      (happening.Boots x).toNat + (happening.Interrupts x).toNat +
        (s.slot x).triesRemaining.toNat = (system.slot x).triesRemaining.toNat := by
  have hactive : system.active < 4 := by
    have := active_lt h
    omega
  have hcounted := counted_kept h
  have hcountedActive := hcounted.1.active h
  have hcountedSlot : (system.slot system.active).triesRemaining ≠ 0 →
      system.active = x →
      ((system.counted calculateCrc32).slot x).successfulBoot = 0 ∧
        1 + ((system.counted calculateCrc32).slot x).triesRemaining.toNat =
          (system.slot x).triesRemaining.toNat := by
    intro htries hx
    subst hx
    unfold System.counted
    rw [if_pos hsuccessful, rewrite_slot hactive, if_pos rfl]
    refine ⟨hsuccessful, ?_⟩
    dsimp only
    generalize (system.slot system.active).triesRemaining = tries at htries
    revert htries
    revert tries
    decide
  cases hstep with
  | stopped => exact ⟨hsuccessful, by simp [Happening.Boots, Happening.Interrupts]⟩
  | interrupted htries =>
    by_cases hx : system.active = x
    · have hslot := hcountedSlot htries hx
      simpa [Happening.Boots, Happening.Interrupts, hcountedActive, hx] using hslot
    · rw [hcounted.1.elsewhere x (Ne.symm hx)]
      simpa [Happening.Boots, Happening.Interrupts, hcountedActive, hx] using hsuccessful
  | booted htries marks =>
    have hconfirmed := confirmed_kept hcounted.2 marks
    have hboth := Kept.trans h hcounted.1 hconfirmed.1
    have hbothActive := hboth.active h
    by_cases hx : system.active = x
    · cases marks with
      | none =>
        have hslot := hcountedSlot htries hx
        simpa [Happening.Boots, Happening.Interrupts, System.confirmed, hcountedActive, hx]
          using hslot
      | some tries => simp [Happening.Marks, hbothActive, hx] at hmarks
    · rw [hboth.elsewhere x (Ne.symm hx)]
      simpa [Happening.Boots, Happening.Interrupts, hbothActive, hx] using hsuccessful
  | switched =>
    rw [givenUp_slot h]
    split
    · next hx =>
      subst hx
      exact ⟨hsuccessful, by simp [Happening.Boots, Happening.Interrupts]⟩
    · exact ⟨hsuccessful, by simp [Happening.Boots, Happening.Interrupts]⟩

theorem Step.resets_of_spent {happening : Happening} {s : System}
    (hstep : Step calculateCrc32 system happening s)
    (hspent : (system.slot (other system.active)).triesRemaining = 0) :
    happening.Resets = false := by
  cases hstep with
  | switched _ hfallback => exact absurd hspent hfallback.1
  | _ => rfl

/-- The slot given up has none, and is the other slot from then on. -/
theorem Step.spent (h : system.Agree calculateCrc32) {happening : Happening} {s : System}
    (hstep : Step calculateCrc32 system happening s) (hresets : happening.Resets = true) :
    (s.slot (other s.active)).triesRemaining = 0 := by
  cases hstep with
  | switched htries hfallback =>
    rw [givenUp_active h hfallback, other_other (active_lt h), givenUp_slot h, if_pos rfl]
    exact htries
  | _ => simp [Happening.Resets] at hresets

end Runs

/-! Boots one after the other. -/

structure Transition where
  before : System
  happening : Happening
  after : System

section Histories
variable (calculateCrc32 : List UInt8 → BitVec 32)

def history : List (List Answer) → System → List Transition
  | [], _ => []
  | answers :: boots, system =>
    let result := system.boot calculateCrc32 answers
    ⟨system, result.1, result.2⟩ :: history boots result.2

def Permits : List (List Answer) → System → Prop
  | [], _ => True
  | answers :: boots, system =>
    system.Permitted answers ∧ Permits boots (system.boot calculateCrc32 answers).2

instance decidablePermits :
    ∀ (boots : List (List Answer)) (system : System),
      Decidable (Permits calculateCrc32 boots system)
  | [], _ => .isTrue trivial
  | answers :: boots, system =>
    let _ := decidablePermits boots (system.boot calculateCrc32 answers).2
    inferInstanceAs (Decidable (_ ∧ _))

end Histories

/-- The boots of `history`, from `system` on, keep the slots and the firmware chain together. -/
structure Together (system : System) (history : List Transition) : Prop where
  /-- A boot that goes on runs the chain of the slot of the highest priority. -/
  agrees : ∀ t ∈ history, ∀ slot chain marked,
    t.happening = .booted slot chain marked → slot = chain ∧ t.after.active = t.after.bct
  /-- The tries of a slot that is not confirmed are its boots still to come. -/
  tries : ∀ x pre t post, history = pre ++ t :: post →
    (system.slot x).successfulBoot = 0 → (∀ u ∈ pre, u.happening.Marks x = false) →
    pre.countP (·.happening.Boots x) + pre.countP (·.happening.Interrupts x) +
      (t.before.slot x).triesRemaining.toNat = (system.slot x).triesRemaining.toNat
  /-- A slot is given up when none are left. -/
  switched : ∀ t ∈ history, ∀ x, t.happening = .switched x →
    (t.before.slot x).triesRemaining = 0 ∧ t.before.bct = x ∧
      (t.after.slot x).priority = 0 ∧ t.after.bct = other x
  kept : ∀ t ∈ history, t.happening.Resets = false →
    t.after.bct = t.before.bct ∧ ∀ x, (t.after.slot x).priority = (t.before.slot x).priority
  resets : history.countP (·.happening.Resets) ≤ 1

section Runs
variable {calculateCrc32 : List UInt8 → BitVec 32} {system : System}

/-- What holds of every permitted boot of two stores that agree holds all along. -/
theorem history_forall {P : System → Happening → System → Prop}
    (hstep : ∀ {system happening s}, system.Agree calculateCrc32 →
      Step calculateCrc32 system happening s → P system happening s)
    {boots : List (List Answer)} (h : system.Agree calculateCrc32)
    (hpermits : Permits calculateCrc32 boots system) :
    ∀ t ∈ history calculateCrc32 boots system, P t.before t.happening t.after := by
  induction boots generalizing system with
  | nil => simp [history]
  | cons answers boots ih =>
    intro t ht
    have hboot := boot_step h hpermits.1
    rcases List.mem_cons.mp ht with rfl | ht
    · exact hstep h hboot
    · exact ih (hboot.agree h) hpermits.2 t ht

theorem history_tries {x : Nat} {boots : List (List Answer)} (h : system.Agree calculateCrc32)
    (hpermits : Permits calculateCrc32 boots system)
    (hsuccessful : (system.slot x).successfulBoot = 0) {pre post : List Transition}
    {t : Transition} (heq : history calculateCrc32 boots system = pre ++ t :: post)
    (hmarks : ∀ u ∈ pre, u.happening.Marks x = false) :
    pre.countP (·.happening.Boots x) + pre.countP (·.happening.Interrupts x) +
      (t.before.slot x).triesRemaining.toNat = (system.slot x).triesRemaining.toNat := by
  induction boots generalizing system pre with
  | nil => simp [history] at heq
  | cons answers boots ih =>
    rw [history, List.cons_eq_append_iff] at heq
    rcases heq with ⟨rfl, heq⟩ | ⟨rest, rfl, heq⟩
    · cases heq
      simp
    · have hboot := boot_step h hpermits.1
      have htries := hboot.tries h hsuccessful (hmarks _ List.mem_cons_self)
      have hrest := ih (hboot.agree h) hpermits.2 htries.1 heq
        fun u hu => hmarks u (List.mem_cons_of_mem _ hu)
      rw [← htries.2, ← hrest, List.countP_cons, List.countP_cons]
      cases (system.boot calculateCrc32 answers).1.Boots x <;>
        cases (system.boot calculateCrc32 answers).1.Interrupts x <;> simp <;> omega

theorem history_resets_zero {boots : List (List Answer)} (h : system.Agree calculateCrc32)
    (hpermits : Permits calculateCrc32 boots system)
    (hspent : (system.slot (other system.active)).triesRemaining = 0) :
    (history calculateCrc32 boots system).countP (·.happening.Resets) = 0 := by
  induction boots generalizing system with
  | nil => rfl
  | cons answers boots ih =>
    have hboot := boot_step h hpermits.1
    have hresets := hboot.resets_of_spent hspent
    have hkept := hboot.kept h hresets
    rw [history, List.countP_cons, hresets]
    apply ih hkept.2 hpermits.2
    rw [hkept.1.active h, hkept.1.elsewhere _ (other_ne system.active), hspent]

theorem history_resets {boots : List (List Answer)} (h : system.Agree calculateCrc32)
    (hpermits : Permits calculateCrc32 boots system) :
    (history calculateCrc32 boots system).countP (·.happening.Resets) ≤ 1 := by
  induction boots generalizing system with
  | nil => simp [history]
  | cons answers boots ih =>
    have hboot := boot_step h hpermits.1
    have hagree := hboot.agree h
    rw [history, List.countP_cons]
    cases hresets : (system.boot calculateCrc32 answers).1.Resets with
    | false => exact ih hagree hpermits.2
    | true =>
      have hzero := history_resets_zero hagree hpermits.2 (hboot.spent h hresets)
      simp [hzero]

/-- For every run of boots, with the system confirming its slot or not and power lost at any call:
the slots and the firmware chain stay together, provided that a slot without tries is given up
only where the other one can take over, and that its chain is then selected before power is lost
or a call fails. -/
theorem slots_together (h : system.Agree calculateCrc32) (boots : List (List Answer))
    (hpermits : Permits calculateCrc32 boots system) :
    Together system (history calculateCrc32 boots system) where
  agrees t ht slot chain marked heq := by
    have hagrees := history_forall (P := fun _ happening after =>
      ∀ slot chain marked, happening = .booted slot chain marked →
        slot = chain ∧ after.active = after.bct)
      (fun hagree hstep slot chain marked heq => by
        have hafter := hstep.agree hagree
        subst heq
        cases hstep with
        | booted _ marks =>
          have hcounted := counted_kept hagree
          have hboth := Kept.trans hagree hcounted.1 (confirmed_kept hcounted.2 marks).1
          exact ⟨by rw [hagree.bct, hboth.active hagree], hafter.bct.symm⟩)
      h hpermits
    exact hagrees t ht slot chain marked heq
  tries x pre t post heq hsuccessful hmarks := history_tries h hpermits hsuccessful heq hmarks
  switched t ht x heq := by
    have hswitched := history_forall (P := fun before happening after =>
      ∀ x, happening = .switched x → (before.slot x).triesRemaining = 0 ∧ before.bct = x ∧
        (after.slot x).priority = 0 ∧ after.bct = other x)
      (fun hagree hstep x heq => by
        subst heq
        cases hstep with
        | switched htries =>
          exact ⟨htries, hagree.bct, by rw [givenUp_slot hagree, if_pos rfl], rfl⟩)
      h hpermits
    exact hswitched t ht x heq
  kept t ht hresets := by
    have hkept := history_forall (P := fun before happening after =>
      happening.Resets = false →
        after.bct = before.bct ∧ ∀ x, (after.slot x).priority = (before.slot x).priority)
      (fun hagree hstep hresets =>
        ⟨(hstep.kept hagree hresets).1.bct, (hstep.kept hagree hresets).1.priority⟩)
      h hpermits
    exact hkept t ht hresets
  resets := history_resets h hpermits

end Runs

def blockOf (slot0 slot1 : SlotMetadata) : BootloaderControl :=
  BootloaderControl.sealed {
    slotSuffix := #v[0x5F, 0x61, 0, 0]
    magic := 0x42414342#32
    version := 1
    nbSlot := 2
    recoveryTriesRemaining := 0
    mergeStatus := 0
    unused := 0
    reserved0 := 0
    slotInfo := #v[slot0, slot1, default, default]
    reserved1 := Vector.replicate 8 0
    crc32Le := 0 } Parse.crc32

/-- Slot 0 comes first and is being tried; slot 1 is confirmed. -/
def sampleSystem (triesRemaining : BitVec 2) : System :=
  ⟨blockOf ⟨15, triesRemaining, 0, 0, 0⟩ ⟨14, 3, 1, 0, 0⟩, 0⟩

def works : Answer := ⟨.success, none⟩

/-- The first try fails to start, the second loses power; then slot 1 takes over and is
confirmed again. -/
def sampleBoots : List (List Answer) :=
  [List.replicate 4 works, List.replicate 3 works, List.replicate 7 works,
    [works, works, ⟨.success, some 3⟩]]

theorem sampleSystem_agree (triesRemaining : BitVec 2) :
    (sampleSystem triesRemaining).Agree Parse.crc32 := by
  refine ⟨rfl, rfl, ?_⟩
  revert triesRemaining
  decide

theorem slots_together_sample :
    Together (sampleSystem 2) (history Parse.crc32 sampleBoots (sampleSystem 2)) ∧
      (history Parse.crc32 sampleBoots (sampleSystem 2)).map (·.happening) =
        [.booted 0 0 false, .interrupted 0 0, .switched 0, .booted 1 1 true] :=
  ⟨slots_together (sampleSystem_agree 2) sampleBoots (by decide +kernel), by decide +kernel⟩

/-- Power is lost when slot 0 has been cleared and its chain is still selected; the next boot
goes on from slot 1 on that chain. -/
theorem torn_switch :
    (sampleSystem 0).Agree Parse.crc32 ∧
      ¬ Together (sampleSystem 0)
        (history Parse.crc32 [List.replicate 3 works, List.replicate 4 works]
          (sampleSystem 0)) := by
  refine ⟨sampleSystem_agree 0, fun h => ?_⟩
  have hboot : Happening.booted 1 0 false ∈ (history Parse.crc32
      [List.replicate 3 works, List.replicate 4 works] (sampleSystem 0)).map (·.happening) := by
    decide +kernel
  obtain ⟨t, ht, heq⟩ := List.mem_map.mp hboot
  have hagrees := (h.agrees t ht 1 0 false heq).1
  omega

def spentSystem (bct : Nat) : System := ⟨blockOf ⟨0, 0, 0, 0, 0⟩ ⟨0, 0, 0, 0, 0⟩, bct⟩

theorem spentSystem_boot {bct : Nat} (h : bct < 2) :
    (spentSystem bct).boot Parse.crc32 (List.replicate 7 works) = (.switched 0, spentSystem 1) := by
  match bct with
  | 0 => decide +kernel
  | 1 => decide +kernel
  | n + 2 => omega

/-- Without a slot that can take over, every boot ends in a reset. -/
theorem resets_without_fallback (n : Nat) {bct : Nat} (h : bct < 2) :
    (history Parse.crc32 (List.replicate n (List.replicate 7 works)) (spentSystem bct)).countP
      (·.happening.Resets) = n := by
  induction n generalizing bct with
  | zero => rfl
  | succ n ih =>
    rw [List.replicate_succ, history, List.countP_cons, spentSystem_boot h, ih (by decide)]
    rfl

end AndroidBcb
