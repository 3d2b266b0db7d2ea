import Edk2Nvidia.Transition.Run
import Edk2Nvidia.BootOrder.Reordering

/-! Boots in which an order is requested for one boot, restored, and changed by others, with power
lost between any two writes. -/
namespace BootOrder
open Effect Reorder

/-- What a completed `RestoreBootOrder` leaves in `BootOrder`. -/
def outcome (lookup : Lookup) (store : Store) : Option (List UInt16) :=
  match store.savedBootOrder, store.bootOrder with
  | some saved, some bootOrder =>
    if saved ≠ [] ∧ isTemporary lookup store.savedBootOrderFlags saved bootOrder then some saved
    else some bootOrder
  | _, bootOrder => bootOrder

/-- Nothing is left that a later request would be restored by. -/
def Clean (store : Store) : Prop :=
  store.savedBootOrder = none ∧
    flagSet store.savedBootOrderFlags savedBootOrderAllInstancesFlag = false

section
variable {lookup : Lookup} {store : Store}

theorem outcome_unsaved (h : store.savedBootOrder = none) :
    outcome lookup store = store.bootOrder := by
  unfold outcome
  rw [h]

/-- An order that is saved and in force is what it is restored to. -/
theorem outcome_same (h : store.savedBootOrder = store.bootOrder) :
    outcome lookup store = store.bootOrder := by
  unfold outcome
  rw [h]
  cases store.bootOrder with
  | none => rfl
  | some bootOrder => simp

theorem outcome_temporary {saved bootOrder : List UInt16}
    (hsaved : store.savedBootOrder = some saved) (horder : store.bootOrder = some bootOrder)
    (h : isTemporary lookup store.savedBootOrderFlags saved bootOrder = true) :
    outcome lookup store = some saved := by
  have hne : saved ≠ [] := by
    rintro rfl
    cases bootOrder <;> simp [isTemporary] at h
  unfold outcome
  simp only [hsaved, horder, h, hne, ne_eq, not_false_eq_true, and_self, if_true]

theorem wp_deleteSaveAndCleanup {lost : Call → Store → Prop} {Q : Unit → Store → Prop}
    (hsaved : lost .deleteSavedBootOrder store)
    (hflags : lost .deleteSavedBootOrderFlags { store with savedBootOrder := none })
    (hdone : Q () { store with savedBootOrder := none, savedBootOrderFlags := none }) :
    Prog.wp exec (· = .success) lost Q deleteSaveAndCleanup store := by
  unfold deleteSaveAndCleanup
  simp only [Prog.wp_bind, Prog.wp_perform, Prog.wp_pure]
  refine ⟨hsaved, ?_⟩
  rintro _ rfl
  refine ⟨hflags, ?_⟩
  rintro _ rfl
  exact hdone

/-- A restore that is not stopped leaves its outcome and deletes what was saved. -/
theorem wp_restoreBootOrder {trigger : Trigger}
    (htrigger : ∀ bootOrder, store.bootOrder = some bootOrder → bootOrder ≠ [] →
      trigger.permits bootOrder = true) :
    Prog.wp exec (· = .success)
      (fun call s => s = store ∨
        call ≠ .deleteSavedBootOrderFlags ∧
          s = { store with bootOrder := outcome lookup store } ∨
        call = .deleteSavedBootOrderFlags ∧
          s = { store with bootOrder := outcome lookup store, savedBootOrder := none })
      (fun _ s => store.savedBootOrder = none ∧ s = store ∨
        s = { store with
          bootOrder := outcome lookup store
          savedBootOrder := none
          savedBootOrderFlags := none })
      (restoreBootOrder lookup trigger store) store := by
  unfold restoreBootOrder
  cases hsaved : store.savedBootOrder with
  | none => exact .inl ⟨rfl, rfl⟩
  | some saved =>
    cases horder : store.bootOrder with
    | none =>
      have houtcome : outcome lookup store = store.bootOrder := by
        unfold outcome
        rw [hsaved, horder]
      rw [houtcome]
      exact wp_deleteSaveAndCleanup (.inl rfl) (.inr (.inr ⟨rfl, rfl⟩)) (.inr rfl)
    | some bootOrder =>
      dsimp only
      by_cases htemporary : saved ≠ [] ∧
          isTemporary lookup store.savedBootOrderFlags saved bootOrder = true
      · have houtcome : outcome lookup store = some saved :=
          outcome_temporary hsaved horder htemporary.2
        have hpermits := htrigger bootOrder horder (by
          rintro rfl
          cases htemporary.2)
        rw [if_pos (show saved ≠ [] ∧ isTemporary lookup store.savedBootOrderFlags saved
          bootOrder = true ∧ trigger.permits bootOrder = true from
            ⟨htemporary.1, htemporary.2, hpermits⟩), Prog.wp_bind, Prog.wp_perform, houtcome]
        refine ⟨.inl rfl, ?_⟩
        rintro _ rfl
        refine wp_deleteSaveAndCleanup (.inr (.inl ⟨nofun, ?_⟩)) (.inr (.inr ⟨rfl, ?_⟩)) (.inr ?_)
        · simp only [exec, if_true, apply, hsaved]
        · simp only [exec, if_true, apply]
        · simp only [exec, if_true, apply]
      · have houtcome : outcome lookup store = store.bootOrder := by
          unfold outcome
          simp only [hsaved, horder]
          rw [if_neg htemporary]
        rw [if_neg (show ¬ (saved ≠ [] ∧ isTemporary lookup store.savedBootOrderFlags saved
          bootOrder = true ∧ trigger.permits bootOrder = true) from
            fun h => htemporary ⟨h.1, h.2.1⟩), houtcome]
        exact wp_deleteSaveAndCleanup (.inl rfl) (.inr (.inr ⟨rfl, rfl⟩)) (.inr rfl)

end

/-- What a request may leave, at its end and wherever it is cut: the order before it is saved or
in force, and a restore brings it back. -/
structure Kept (lookup : Lookup) (store store' : Store) : Prop where
  restores : outcome lookup store' = store.bootOrder
  saved : store'.savedBootOrder = none ∨ store'.savedBootOrder = store.bootOrder
  clean : store'.savedBootOrder = none → Clean store'

section
variable {lookup : Lookup} {store store' : Store}

theorem Kept.of_clean (h : Clean store) : Kept lookup store store where
  restores := outcome_unsaved h.1
  saved := .inl h.1
  clean := fun _ => h

/-- The boot options of the request and the OS indications have no part in it. -/
theorem Kept.congr (h : Kept lookup store store') {store'' : Store}
    (horder : store''.bootOrder = store'.bootOrder)
    (hsaved : store''.savedBootOrder = store'.savedBootOrder)
    (hflags : store''.savedBootOrderFlags = store'.savedBootOrderFlags) :
    Kept lookup store store'' where
  restores := by
    rw [← h.restores]
    unfold outcome
    rw [horder, hsaved, hflags]
  saved := hsaved ▸ h.saved
  clean := fun hnone => by
    obtain ⟨hclean, hflag⟩ := h.clean (hsaved ▸ hnone)
    exact ⟨hnone, hflags ▸ hflag⟩

theorem wp_cleanupAndReturn (h : Kept lookup store store') (base : Store) (bootToUiApp : Bool) :
    Prog.wp exec (· = .success) (fun _ => Kept lookup store) (fun _ => Kept lookup store)
      (cleanupAndReturn base bootToUiApp) store' := by
  unfold cleanupAndReturn setOsIndications
  cases bootToUiApp with
  | false => exact h
  | true =>
    simp only [if_true, Prog.wp_bind, Prog.wp_perform, Prog.wp_pure]
    refine ⟨h, ?_⟩
    rintro _ rfl
    exact h.congr rfl rfl rfl

theorem wp_acknowledgeAndCleanup (h : Kept lookup store store') (base : Store)
    (bootToUiApp : Bool) :
    Prog.wp exec (· = .success) (fun _ => Kept lookup store) (fun _ => Kept lookup store)
      (acknowledgeAndCleanup base bootToUiApp) store' := by
  unfold acknowledgeAndCleanup
  simp only [Prog.wp_bind, Prog.wp_perform]
  refine ⟨h, ?_⟩
  rintro _ rfl
  refine ⟨h, ?_⟩
  rintro _ rfl
  exact wp_cleanupAndReturn h base bootToUiApp

/-- What `prepareRestore` leaves when it succeeds. -/
structure Prepared (flags : UInt8) (bootOrder : List UInt16) (store store' : Store) : Prop where
  bootOrder_eq : store'.bootOrder = store.bootOrder
  saved : store'.savedBootOrder = some bootOrder
  flags_eq :
    store'.savedBootOrderFlags = if flags ≠ 0 then some flags else store.savedBootOrderFlags

theorem Kept.of_saved {bootOrder : List UInt16} (horder : store.bootOrder = some bootOrder)
    (horder' : store'.bootOrder = store.bootOrder)
    (hsaved : store'.savedBootOrder = some bootOrder) :
    Kept lookup store store' where
  restores := by rw [outcome_same (by rw [hsaved, horder', horder]), horder']
  saved := .inr (by rw [hsaved, horder])
  clean := fun hnone => by
    rw [hsaved] at hnone
    cases hnone

theorem wp_prepareRestore {platform : Platform} {bootOrder : List UInt16} {flags : UInt8}
    (hclean : Clean store) (horder : store.bootOrder = some bootOrder) :
    Prog.wp exec (· = .success) (fun _ => Kept lookup store)
      (fun status s => Kept lookup store s ∧
        (status = .success → Prepared flags bootOrder store s))
      (prepareRestore platform bootOrder flags) store := by
  have hkept : Kept lookup store store := .of_clean hclean
  unfold prepareRestore
  split
  · rename_i hevent
    exact ⟨hkept, fun h => absurd h hevent⟩
  · simp only [Prog.wp_bind, Prog.wp_perform]
    refine ⟨hkept, ?_⟩
    rintro _ rfl
    have hsaved : Kept lookup store { store with savedBootOrder := some bootOrder } :=
      .of_saved horder rfl rfl
    simp only [exec, if_true, apply, ne_eq, not_true_eq_false, if_false]
    split
    · rename_i hflags
      simp only [Prog.wp_perform]
      refine ⟨hsaved, ?_⟩
      rintro _ rfl
      exact ⟨.of_saved horder rfl rfl, fun _ => ⟨rfl, rfl, (if_pos hflags).symm⟩⟩
    · rename_i hflags
      exact ⟨hsaved, fun _ => ⟨rfl, rfl, (if_neg hflags).symm⟩⟩

end

/-- The virtual option that is looked for one element behind the boot order, if there is one. -/
def searchedBehind (platform : Platform) (request : Option Request) (store : Store) :
    Option UInt16 :=
  match request, store.bootOrder with
  | some request, some bootOrder =>
    match selection platform.ipv6 request.bootDeviceSelector with
    | .bootClass requested virtual =>
      match findInstances platform.lookup requested virtual bootOrder with
      | .ok (classInstances, virtualInstances) =>
        let desired := desired (request.deviceInstanceSelector.toNat % 16) classInstances
          virtualInstances
        if desired.requestedInstance = 0 ∧
            willModifyBootOrder bootOrder classInstances virtualInstances desired then
          desired.virtualRemaining.getLast?
        else none
      | .error _ => none
    | _ => none
  | _, _ => none

section
variable {classes : Classes} {store : Store} {bootOrder : List UInt16} {behind : UInt16}
  {requested : BootClass} {virtual : Option BootClass}

theorem bootOrderFlags_all {d : Desired} (h : d.requestedInstance = 0) {old : Option UInt8} :
    (if bootOrderFlags virtual d ≠ 0 then some (bootOrderFlags virtual d) else old) =
      some (if virtual.isSome then 0x3 else 0x1) := by
  unfold bootOrderFlags
  rw [if_pos h]
  cases virtual.isSome
  · exact if_pos (by decide)
  · exact if_pos (by decide)

theorem bootOrderFlags_one {d : Desired} (h : d.requestedInstance ≠ 0) {old : Option UInt8} :
    (if bootOrderFlags virtual d ≠ 0 then some (bootOrderFlags virtual d) else old) =
      if virtual.isSome then some 0x2 else old := by
  unfold bootOrderFlags
  rw [if_neg h]
  cases virtual.isSome
  · exact if_neg (by decide)
  · exact if_pos (by decide)

theorem isTemporary_reordered
    (hvirtual : virtual = none ∨ requested = .usb ∧ virtual = some .virtual)
    (hnodup : bootOrder.Nodup)
    (hsome : ¬ (classInstances classes requested virtual bootOrder = [] ∧
      virtualInstances classes virtual bootOrder = [])) {n : Nat} {d : Desired}
    (hd : d = desired n (classInstances classes requested virtual bootOrder)
      (virtualInstances classes virtual bootOrder))
    (hbehind : d.requestedInstance = 0 → d.virtualRemaining.getLast? ≠ some behind)
    {old flags : Option UInt8} (hclean : flagSet old savedBootOrderAllInstancesFlag = false)
    (hflags : flags =
      if bootOrderFlags virtual d ≠ 0 then some (bootOrderFlags virtual d) else old) :
    ∃ order, reordered behind bootOrder d = some order ∧
      isTemporary classes.lookup flags bootOrder order = true := by
  by_cases hinstance : d.requestedInstance = 0
  · have hall : d = allInstances (classInstances classes requested virtual bootOrder)
        (virtualInstances classes virtual bootOrder) := by
      rw [hd] at hinstance ⊢
      exact desired_all hinstance
    have hbehind := hbehind hinstance
    rw [hall] at hbehind
    refine ⟨_, hall ▸ reordered_all hnodup hsome hbehind, isTemporary_all hvirtual hsome ?_ ?_⟩
    · rw [hflags, bootOrderFlags_all hinstance]
      cases virtual.isSome <;> decide
    · rw [hflags, bootOrderFlags_all hinstance]
      cases virtual.isSome <;> decide
  · have hmem : d.optionNumber ∈ bootOrder := by
      rw [hd] at hinstance ⊢
      rcases List.mem_append.mp (desired_mem hinstance) with hmem | hmem
      · exact (List.mem_filter.mp hmem).1
      · exact (List.mem_filter.mp hmem).1
    refine ⟨_, reordered_one hnodup hinstance hmem, isTemporary_one ?_ hnodup hmem⟩
    rw [hflags, bootOrderFlags_one hinstance]
    cases virtual.isSome with
    | true =>
      rw [if_pos rfl]
      decide
    | false => exact hclean

/-- A request for one boot can be undone, wherever it is cut. -/
theorem wp_processInstances {platform : Platform} {request : Request}
    (hpersistent : request.persistentOptions = false)
    (hclean : Clean store) (horder : store.bootOrder = some bootOrder)
    (hvirtual : virtual = none ∨ requested = .usb ∧ virtual = some .virtual)
    (hnodup : bootOrder.Nodup) {d : Desired}
    (hd : d = desired (request.deviceInstanceSelector.toNat % 16)
      (classInstances classes requested virtual bootOrder)
      (virtualInstances classes virtual bootOrder))
    (hbehind : d.requestedInstance = 0 →
      willModifyBootOrder bootOrder (classInstances classes requested virtual bootOrder)
        (virtualInstances classes virtual bootOrder) d = true →
      d.virtualRemaining.getLast? ≠ some behind) :
    Prog.wp exec (· = .success) (fun _ => Kept classes.lookup store)
      (fun _ => Kept classes.lookup store)
      (processInstances platform behind request virtual store bootOrder
        (classInstances classes requested virtual bootOrder,
          virtualInstances classes virtual bootOrder)) store := by
  have hkept : Kept classes.lookup store store := .of_clean hclean
  unfold processInstances
  dsimp only
  split
  · exact wp_acknowledgeAndCleanup hkept store _
  · rename_i hsome
    rw [hpersistent, ← hd]
    simp only [Bool.false_eq_true, if_false]
    split
    · rename_i hmodify
      rw [Prog.wp_bind]
      refine Prog.wp_mono (wp_prepareRestore hclean horder) (fun _ _ h => h) ?_
      rintro status s ⟨hs, hprepared⟩
      by_cases hstatus : status = .success
      · rw [if_neg (not_not.mpr hstatus)]
        have hprepared := hprepared hstatus
        obtain ⟨order, hreordered, htemporary⟩ := isTemporary_reordered hvirtual hnodup hsome hd
          (fun hinstance => hbehind hinstance hmodify) hclean.2 hprepared.flags_eq
        rw [hreordered]
        simp only [Prog.wp_bind, Prog.wp_perform]
        refine ⟨hs, ?_⟩
        rintro _ rfl
        refine wp_acknowledgeAndCleanup ?_ store false
        refine ⟨?_, .inr (by rw [horder]; exact hprepared.saved), fun hnone => ?_⟩
        · rw [horder]
          exact outcome_temporary hprepared.saved rfl htemporary
        · have hnone : s.savedBootOrder = none := hnone
          rw [hprepared.saved] at hnone
          cases hnone
      · rw [if_pos hstatus]
        exact wp_acknowledgeAndCleanup hs store _
    · exact wp_acknowledgeAndCleanup hkept store false

theorem wp_processIPMIBootOrderUpdates {platform : Platform}
    (hlookup : platform.lookup = classes.lookup) {request : Option Request}
    (hpersistent : ∀ r, request = some r → r.persistentOptions = false) (hclean : Clean store)
    (hnodup : ∀ order, store.bootOrder = some order → order.Nodup)
    (hbehind : searchedBehind platform request store ≠ some behind) :
    Prog.wp exec (· = .success) (fun _ => Kept classes.lookup store)
      (fun _ => Kept classes.lookup store)
      (processIPMIBootOrderUpdates platform behind request store) store := by
  have hkept : Kept classes.lookup store store := .of_clean hclean
  unfold processIPMIBootOrderUpdates
  cases request with
  | none => exact wp_cleanupAndReturn hkept store _
  | some request =>
    have hpersistent := hpersistent request rfl
    dsimp only
    split
    · exact wp_acknowledgeAndCleanup hkept store _
    · cases hselection : selection platform.ipv6 request.bootDeviceSelector with
      | ignored => exact wp_acknowledgeAndCleanup hkept store _
      | biosSetup =>
        rw [hpersistent]
        exact wp_acknowledgeAndCleanup hkept store true
      | bootClass requested virtual =>
        cases horder : store.bootOrder with
        | none => exact wp_acknowledgeAndCleanup hkept store _
        | some bootOrder =>
          dsimp only
          rw [hlookup, findInstances_eq]
          refine wp_processInstances hpersistent hclean horder
            (selection_bootClass hselection) (hnodup bootOrder horder) rfl ?_
          intro hinstance hmodify
          unfold searchedBehind at hbehind
          rw [horder] at hbehind
          simp only [hselection, hlookup, findInstances_eq] at hbehind
          rwa [if_pos ⟨hinstance, hmodify⟩] at hbehind

end

/-- Where a boot is: power is off or a restore is due, an order can be requested, or a request has
been processed. -/
inductive Phase where
  | off
  | ready
  | processed
deriving DecidableEq, Repr

/-- The variables, with the order chosen by those who own it and the one the request in force has
produced, neither of which the code knows. -/
structure System where
  store : Store
  phase : Phase
  chosen : Option (List UInt16)
  temporary : Option (List UInt16)
deriving DecidableEq, Repr

/-- The services answer the calls of an event in turn; power is lost when the answers run out. -/
inductive Event where
  | start (answers : List Status)
  | request (ipv6 : Bool) (createEvent : Status) (behind : UInt16) (request : Option Request)
    (answers : List Status)
  | readyToBoot (answers : List Status)
  | modify (order : Option (List UInt16))
deriving DecidableEq, Repr

namespace System

/-- After a restore, in the given phase unless power is lost. -/
def restored (phase : Phase) (system : System) : Outcome Call Store Unit → System
  | .done _ store => ⟨store, phase, system.chosen, none⟩
  | .lost _ store => ⟨store, .off, system.chosen, none⟩

def processed (system : System) : Outcome Call Store Unit → System
  | .done _ store =>
    ⟨store, .processed, system.chosen,
      if store.savedBootOrder.isSome then store.bootOrder else none⟩
  | .lost _ store => ⟨store, .off, system.chosen, none⟩

/-- An order that the request in force has produced is not told from the temporary one: the order
that is saved stays chosen. -/
def modified (order : Option (List UInt16)) (system : System) : System :=
  { system with
    store := { system.store with bootOrder := order }
    chosen :=
      if system.temporary.isSome ∧ order = system.temporary then system.store.savedBootOrder
      else order }

def platform (classes : Classes) (ipv6 : Bool) (createEvent : Status) : Platform :=
  ⟨classes.lookup, ipv6, createEvent⟩

/-- `BootCurrent` is the first option of the boot order. -/
def readyToBoot (system : System) : Trigger :=
  .readyToBoot (system.store.bootOrder.bind List.head?)

/-- `RestoreBootOrder` runs at each start, a request is processed once after it. -/
def step (classes : Classes) : Event → System → Option System
  | .start answers, system =>
    some (system.restored .ready
      (Prog.run exec (restoreBootOrder classes.lookup .start system.store) answers system.store))
  | .request ipv6 createEvent behind request answers, system =>
    if system.phase = .ready then
      some (system.processed
        (Prog.run exec (processIPMIBootOrderUpdates (platform classes ipv6 createEvent) behind
          request system.store) answers system.store))
    else none
  | .readyToBoot answers, system =>
    if system.phase ≠ .off then
      some (system.restored system.phase
        (Prog.run exec (restoreBootOrder classes.lookup system.readyToBoot system.store) answers
          system.store))
    else none
  | .modify order, system => if system.phase ≠ .off then some (system.modified order) else none

end System

/-- What histories are made of: the services work, requests are for one boot, orders have distinct
options. -/
def Event.Admissible (system : System) : Event → Prop
  | .start answers => ∀ answer ∈ answers, answer = .success
  | .request _ _ _ asked answers =>
    system.phase = .ready ∧ (∀ answer ∈ answers, answer = .success) ∧
      ∀ r ∈ asked, r.persistentOptions = false
  | .readyToBoot answers => system.phase ≠ .off ∧ ∀ answer ∈ answers, answer = .success
  | .modify order => system.phase ≠ .off ∧ ∀ l ∈ order, l.Nodup

/-- Power is lost between the two deletions of a restore. -/
def Torn : Outcome Call Store Unit → Bool
  | .lost .deleteSavedBootOrderFlags _ => true
  | _ => false

/-- No restore is torn while all instances are flagged. -/
def Whole (lookup : Lookup) (trigger : Trigger) (answers : List Status) (store : Store) : Prop :=
  ¬ (flagSet store.savedBootOrderFlags savedBootOrderAllInstancesFlag = true ∧
    Torn (Prog.run exec (restoreBootOrder lookup trigger store) answers store) = true)

instance instDecidableWhole (lookup : Lookup) (trigger : Trigger) (answers : List Status)
    (store : Store) : Decidable (Whole lookup trigger answers store) :=
  inferInstanceAs (Decidable (¬ _))

def Event.Manageable (classes : Classes) (system : System) : Event → Prop
  | .start answers => Whole classes.lookup .start answers system.store
  | .request ipv6 createEvent behind asked _ =>
    searchedBehind (System.platform classes ipv6 createEvent) asked system.store ≠ some behind
  | .readyToBoot answers => Whole classes.lookup system.readyToBoot answers system.store
  | .modify order =>
    order = system.temporary ∨ ∀ saved ∈ system.store.savedBootOrder, ∀ l ∈ order,
      l = saved ∨ isTemporary classes.lookup system.store.savedBootOrderFlags saved l = false

instance instDecidableAdmissible (system : System) :
    (event : Event) → Decidable (event.Admissible system)
  | .start _ => inferInstanceAs (Decidable (∀ _ ∈ _, _))
  | .request .. => inferInstanceAs (Decidable (_ ∧ _ ∧ _))
  | .readyToBoot _ => inferInstanceAs (Decidable (_ ∧ _))
  | .modify _ => inferInstanceAs (Decidable (_ ∧ _))

instance instDecidableManageable (classes : Classes) (system : System) :
    (event : Event) → Decidable (event.Manageable classes system)
  | .start _ => inferInstanceAs (Decidable (Whole ..))
  | .request .. => inferInstanceAs (Decidable (_ ≠ _))
  | .readyToBoot _ => inferInstanceAs (Decidable (Whole ..))
  | .modify _ => inferInstanceAs (Decidable (_ ∨ _))

def Event.isRestore : Event → Bool
  | .start _ => true
  | .request .. => false
  | .readyToBoot _ => true
  | .modify _ => false

/-- The variables as they are before the first request. -/
structure System.Fresh (system : System) : Prop where
  unsaved : system.store.savedBootOrder = none
  unflagged : system.store.savedBootOrderFlags = none
  chosen_eq : system.chosen = system.store.bootOrder
  temporary_eq : system.temporary = none
  distinct : ∀ order, system.chosen = some order → order.Nodup

/-- What a restore of the code brings back is always what has been chosen. -/
structure System.Inv (lookup : Lookup) (system : System) : Prop where
  restores : outcome lookup system.store = system.chosen
  distinct : ∀ order, system.chosen = some order → order.Nodup
  saved : ∀ order, system.store.savedBootOrder = some order → order.Nodup
  clean : system.store.savedBootOrder = none → Clean system.store
  ready : system.phase = .ready → system.store.savedBootOrder = none
  temporary : ∀ order, system.temporary = some order → system.store.savedBootOrder ≠ none ∧
    outcome lookup { system.store with bootOrder := some order } = system.store.savedBootOrder

section
variable {classes : Classes} {system system' : System}

theorem outcome_outcome (lookup : Lookup) (store : Store) :
    outcome lookup { store with bootOrder := outcome lookup store } = outcome lookup store := by
  have hcases : outcome lookup store = store.bootOrder ∨
      outcome lookup store = store.savedBootOrder := by
    unfold outcome
    split
    · rename_i saved bootOrder hsaved horder
      split
      · exact .inr hsaved.symm
      · exact .inl horder.symm
    · exact .inl rfl
  rcases hcases with h | h
  · rw [h]
    exact h
  · exact outcome_same h.symm

theorem System.Inv.restored (h : system.Inv classes.lookup) {trigger : Trigger} {phase : Phase}
    {answers : List Status} (hok : ∀ answer ∈ answers, answer = .success)
    (hwhole : Whole classes.lookup trigger answers system.store)
    (htrigger : ∀ order, system.store.bootOrder = some order → order ≠ [] →
      trigger.permits order = true) :
    (system.restored phase (Prog.run exec (restoreBootOrder classes.lookup trigger system.store)
      answers system.store)).Inv classes.lookup := by
  have hwp := @wp_restoreBootOrder classes.lookup system.store trigger htrigger
  cases hrun : Prog.run exec (restoreBootOrder classes.lookup trigger system.store) answers
    system.store with
  | done _ store =>
    rcases Prog.wp_done hwp hok hrun with ⟨hunsaved, rfl⟩ | rfl
    · exact ⟨h.restores, h.distinct, h.saved, h.clean, fun _ => hunsaved, nofun⟩
    · exact ⟨h.restores, h.distinct, nofun, fun _ => ⟨rfl, flagSet_none _⟩, fun _ => rfl, nofun⟩
  | lost call store =>
    rcases Prog.wp_lost hwp hok hrun with rfl | ⟨hcall, rfl⟩ | ⟨rfl, rfl⟩
    · exact ⟨h.restores, h.distinct, h.saved, h.clean, nofun, nofun⟩
    · refine ⟨(outcome_outcome _ _).trans h.restores, h.distinct, h.saved, fun hnone => ?_, nofun,
        nofun⟩
      exact ⟨hnone, (h.clean hnone).2⟩
    · refine ⟨h.restores, h.distinct, nofun, fun _ => ⟨rfl, ?_⟩, nofun, nofun⟩
      by_contra hflag
      exact hwhole ⟨(Bool.not_eq_false _).mp hflag, by rw [hrun]; rfl⟩

theorem System.Inv.processed (h : system.Inv classes.lookup) (hready : system.phase = .ready)
    {platform : Platform} (hlookup : platform.lookup = classes.lookup) {behind : UInt16}
    {asked : Option Request} (hpersistent : ∀ r, asked = some r → r.persistentOptions = false)
    (hbehind : searchedBehind platform asked system.store ≠ some behind) {answers : List Status}
    (hok : ∀ answer ∈ answers, answer = .success) :
    (system.processed (Prog.run exec (processIPMIBootOrderUpdates platform behind asked
      system.store) answers system.store)).Inv classes.lookup := by
  have hclean := h.clean (h.ready hready)
  have hchosen : system.store.bootOrder = system.chosen := by
    rw [← h.restores, outcome_unsaved hclean.1]
  have hdistinct : ∀ order, system.store.bootOrder = some order → order.Nodup := by
    rw [hchosen]
    exact h.distinct
  have hwp := wp_processIPMIBootOrderUpdates hlookup hpersistent hclean
    hdistinct hbehind
  have hsaved : ∀ store, Kept classes.lookup system.store store →
      ∀ order, store.savedBootOrder = some order → order.Nodup := by
    intro store hkept order horder
    rcases hkept.saved with hnone | hsame
    · rw [hnone] at horder
      cases horder
    · exact hdistinct order (hsame ▸ horder)
  cases hrun : Prog.run exec (processIPMIBootOrderUpdates platform behind asked system.store)
    answers system.store with
  | done _ store =>
    have hkept : Kept classes.lookup system.store store := Prog.wp_done hwp hok hrun
    refine ⟨hkept.restores.trans hchosen, h.distinct, hsaved store hkept, hkept.clean, nofun, ?_⟩
    intro order horder
    have hif : (if store.savedBootOrder.isSome then store.bootOrder else none) = some order := horder
    by_cases hne : store.savedBootOrder.isSome = true
    · rw [if_pos hne] at hif
      have hne := Option.isSome_iff_ne_none.mp hne
      refine ⟨hne, ?_⟩
      rw [← hif]
      exact hkept.restores.trans (hkept.saved.resolve_left hne).symm
    · rw [if_neg hne] at hif
      cases hif
  | lost call store =>
    have hkept : Kept classes.lookup system.store store := Prog.wp_lost hwp hok hrun
    exact ⟨hkept.restores.trans hchosen, h.distinct, hsaved store hkept, hkept.clean, nofun, nofun⟩

theorem System.Inv.modified (h : system.Inv classes.lookup) {order : Option (List UInt16)}
    (hdistinct : ∀ l, order = some l → l.Nodup)
    (hmanageable : (Event.modify order).Manageable classes system) :
    (system.modified order).Inv classes.lookup := by
  have hready : system.phase = .ready → system.store.savedBootOrder = none := h.ready
  by_cases htemporary : system.temporary.isSome ∧ order = system.temporary
  · obtain ⟨t, ht⟩ := Option.isSome_iff_exists.mp htemporary.1
    have hchosen : (system.modified order).chosen = system.store.savedBootOrder := if_pos htemporary
    refine ⟨?_, ?_, h.saved, fun hnone => ⟨hnone, (h.clean hnone).2⟩, hready, h.temporary⟩
    · rw [hchosen, ← (h.temporary t ht).2, ← ht, ← htemporary.2]
      rfl
    · rw [hchosen]
      exact h.saved
  · have hchosen : (system.modified order).chosen = order := if_neg htemporary
    refine ⟨?_, ?_, h.saved, fun hnone => ⟨hnone, (h.clean hnone).2⟩, hready, h.temporary⟩
    · rw [hchosen]
      show outcome classes.lookup { system.store with bootOrder := order } = order
      unfold outcome
      dsimp only
      split
      · rename_i saved l hsaved
        rcases hmanageable with hsame | hother
        · exact absurd ⟨by rw [← hsame]; rfl, hsame⟩ htemporary
        · rcases hother saved hsaved l rfl with rfl | hnot
          · split <;> rfl
          · rw [if_neg]
            rintro ⟨-, hboth⟩
            rw [hnot] at hboth
            cases hboth
      · rfl
    · rw [hchosen]
      exact hdistinct

/-- Everything that can be asked of the code can be done, and keeps the invariant. -/
theorem System.Inv.step (h : system.Inv classes.lookup) {event : Event}
    (hadmissible : event.Admissible system) (hmanageable : event.Manageable classes system) :
    ∃ system', System.step classes event system = some system' ∧ system'.Inv classes.lookup := by
  cases event with
  | start answers => exact ⟨_, rfl, h.restored hadmissible hmanageable fun _ _ _ => rfl⟩
  | request ipv6 createEvent behind asked answers =>
    obtain ⟨hready, hok, hpersistent⟩ := hadmissible
    exact ⟨_, if_pos hready, h.processed hready rfl hpersistent hmanageable hok⟩
  | readyToBoot answers =>
    refine ⟨_, if_pos hadmissible.1, h.restored hadmissible.2 hmanageable fun order horder hne => ?_⟩
    obtain ⟨option, rest, rfl⟩ := List.exists_cons_of_ne_nil hne
    simp [System.readyToBoot, Trigger.permits, horder]
  | modify order => exact ⟨_, if_pos hadmissible.1, h.modified hadmissible.2 hmanageable⟩

theorem System.Fresh.inv (h : system.Fresh) : system.Inv classes.lookup where
  restores := (outcome_unsaved h.unsaved).trans h.chosen_eq.symm
  distinct := h.distinct
  saved := by
    rw [h.unsaved]
    exact nofun
  clean := fun hnone => ⟨hnone, by rw [h.unflagged]; exact flagSet_none _⟩
  ready := fun _ => h.unsaved
  temporary := by
    rw [h.temporary_eq]
    exact nofun

theorem unsaved_of_restore {event : Event} (hrestore : event.isRestore = true)
    (hadmissible : event.Admissible system)
    (hstep : System.step classes event system = some system') (hphase : system'.phase ≠ .off) :
    system'.store.savedBootOrder = none := by
  have hrestored : ∀ (trigger : Trigger) (phase : Phase) (answers : List Status),
      (∀ answer ∈ answers, answer = .success) →
      (∀ order, system.store.bootOrder = some order → order ≠ [] →
        trigger.permits order = true) →
      (system.restored phase (Prog.run exec (restoreBootOrder classes.lookup trigger system.store)
        answers system.store)).phase ≠ .off →
      (system.restored phase (Prog.run exec (restoreBootOrder classes.lookup trigger system.store)
        answers system.store)).store.savedBootOrder = none := by
    intro trigger phase answers hok htrigger hphase
    have hwp := @wp_restoreBootOrder classes.lookup system.store trigger htrigger
    cases hrun : Prog.run exec (restoreBootOrder classes.lookup trigger system.store) answers
      system.store with
    | done _ store =>
      rcases Prog.wp_done hwp hok hrun with ⟨hunsaved, rfl⟩ | rfl
      · exact hunsaved
      · rfl
    | lost call store =>
      rw [hrun] at hphase
      exact absurd rfl hphase
  cases event with
  | start answers =>
    cases hstep
    exact hrestored .start .ready answers hadmissible (fun _ _ _ => rfl) hphase
  | readyToBoot answers =>
    rw [System.step, if_pos hadmissible.1] at hstep
    cases hstep
    refine hrestored system.readyToBoot system.phase answers hadmissible.2 (fun order horder hne => ?_)
      hphase
    obtain ⟨option, rest, rfl⟩ := List.exists_cons_of_ne_nil hne
    simp [System.readyToBoot, Trigger.permits, horder]
  | request ipv6 createEvent behind asked answers => cases hrestore
  | modify order => cases hrestore

end

def Event.Permitted (classes : Classes) (system : System) (event : Event) : Prop :=
  event.Admissible system ∧ event.Manageable classes system

instance instDecidablePermitted (classes : Classes) (system : System) (event : Event) :
    Decidable (event.Permitted classes system) := inferInstanceAs (Decidable (_ ∧ _))

/-- After each completed restore the boot order is the one that was chosen, by the owner or by
somebody who changed it since, and nothing is left that a later request would be restored by. -/
theorem temporary_is_temporary {classes : Classes} {system : System} (hfresh : system.Fresh)
    {events : List Event} {event : Event} (hrestore : event.isRestore = true)
    (along : Transition.Along (System.step classes) (Event.Permitted classes) (events ++ [event])
      system) :
    ∃ system', Transition.run (System.step classes) (events ++ [event]) system = some system' ∧
      (system'.phase ≠ .off →
        system'.store.bootOrder = system'.chosen ∧ Clean system'.store) := by
  have hkeeps : ∀ s e, System.Inv classes.lookup s → Event.Permitted classes s e →
      ∃ s', System.step classes e s = some s' ∧ s'.Inv classes.lookup :=
    fun _ _ hinv hpermitted => hinv.step hpermitted.1 hpermitted.2
  obtain ⟨last, hfront, hinv⟩ := Transition.run_invariant hkeeps hfresh.inv along.front
  obtain ⟨hadmissible, hmanageable⟩ := along.at hfront
  obtain ⟨system', hstep, hinv'⟩ := hinv.step hadmissible hmanageable
  refine ⟨system', ?_, fun hphase => ?_⟩
  · rw [Transition.run_append, hfront, Option.bind_some, Transition.run, hstep]
    rfl
  · have hunsaved := unsaved_of_restore hrestore hadmissible hstep hphase
    exact ⟨(outcome_unsaved hunsaved).symm.trans hinv'.restores, hinv'.clean hunsaved⟩

/-- The classes of three options: two disks and one without a class. -/
def sampleClasses : Classes := fun option => if option = 1 ∨ option = 2 then some .nvme else none

def sampleSystem : System where
  store := ⟨some [3, 1, 2], none, none, false, 0⟩
  phase := .off
  chosen := some [3, 1, 2]
  temporary := none

theorem sampleSystem_fresh : sampleSystem.Fresh :=
  ⟨rfl, rfl, rfl, rfl, by rintro _ ⟨⟩; decide⟩

/-- All disks are requested, and the order is restored at the next start. -/
def sampleEvents (cut : Nat) : List Event :=
  [.start [], .request false .success 0 (some ⟨true, false, 0x2, 0⟩) (List.replicate 5 .success),
    .start (List.replicate cut .success)]

theorem temporary_is_temporary_sample :
    ∃ system', Transition.run (System.step sampleClasses) (sampleEvents 3 ++ [.start []])
        sampleSystem = some system' ∧
      (system'.phase ≠ .off →
        system'.store.bootOrder = system'.chosen ∧ Clean system'.store) :=
  temporary_is_temporary sampleSystem_fresh rfl (by decide)

/-- What histories should satisfy whatever happens in them. -/
def Law (classes : Classes) (system : System) : Prop :=
  ∀ (events : List Event) (event : Event) (system' : System), event.isRestore = true →
    Transition.Along (System.step classes) (fun s e => e.Admissible s) (events ++ [event]) system →
    Transition.run (System.step classes) (events ++ [event]) system = some system' →
    system'.phase ≠ .off → system'.store.bootOrder = system'.chosen ∧ Clean system'.store

/-- The restore is torn, its flags stay, and the next request is not restored. -/
theorem torn_restore : ¬ Law sampleClasses sampleSystem := by
  intro h
  have hlaw := h (sampleEvents 2 ++ [.start [],
    .request false .success 0 (some ⟨true, false, 0x2, 2⟩) (List.replicate 4 .success)])
    (.start (List.replicate 2 .success)) _ rfl (by decide) rfl (by decide)
  exact absurd hlaw.1 (by decide)

end BootOrder
