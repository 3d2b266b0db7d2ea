import Edk2Nvidia.Rootfs.Validation

/-! A boot seen from outside: which slots are unbootable, how many attempts each has left and
which chain the firmware is on. -/
namespace Rootfs
open Parse

inductive Slot where
  | a
  | b
deriving DecidableEq, Repr

namespace Slot

def other : Slot → Slot
  | a => b
  | b => a

def number : Slot → BitVec 32
  | a => rootfsSlotA
  | b => rootfsSlotB

def ofNumber (n : BitVec 32) : Slot := if n = rootfsSlotA then a else b

def status : Slot → VariableIndex
  | a => .statusA
  | b => .statusB

def retryCountField : Slot → BitField 32
  | a => retryCountAField
  | b => retryCountBField

@[simp] theorem ofNumber_number (slot : Slot) : ofNumber slot.number = slot := by
  cases slot <;> rfl

end Slot

/-- What one boot brings with it: the boot mode asked for, the services that work and whether the
firmware takes a switch it is asked for. -/
structure Boot where
  bootMode : BitVec 32
  services : Services
  accepts : Bool

/-- What survives, and the chain the firmware is on. -/
structure System where
  store : Store
  chain : Slot

inductive Outcome where
  | normal (slot : Slot)
  | recovery
  | switch (slot : Slot)
deriving DecidableEq, Repr

namespace System

def result (boot : Boot) (system : System) : Result :=
  validateRootfsStatus boot.services system.store ⟨boot.bootMode, system.chain.number⟩

def outcome (boot : Boot) (system : System) : Outcome :=
  let result := system.result boot
  let slot := Slot.ofNumber result.bootParams.bootChain
  if result.reset then .switch slot
  else if result.bootParams.bootMode = bootModeRecovery then .recovery
  else .normal slot

/-- The chain the firmware is asked to switch to. -/
def next (store : Store) : Option Slot :=
  match store.values .fwNext with
  | none => none
  | some n => if n = rootfsSlotA then some .a else if n = rootfsSlotB then some .b else none

/-- After a reset the firmware takes the request back, and switches or refuses. -/
def after (boot : Boot) (system : System) : System :=
  let result := system.result boot
  if result.reset then
    ⟨{ result.store with
        values := fun i => if i = .fwNext then none else result.store.values i },
      if boot.accepts then (next result.store).getD system.chain else system.chain⟩
  else ⟨result.store, system.chain⟩

end System

/-- All services but `SetVariable` work. -/
structure Services.Working (services : Services) : Prop where
  getVariable : ∀ index, services.getVariable index = true
  getRegister : services.getRegister = true
  setRegister : ∀ write, services.setRegister write = true

/-- The variables that have no default are there. -/
structure Configured (level max : BitVec 32) (store : Store) : Prop where
  redundancy : store.values .redundancy = some level
  retryMax : store.values .retryMax = some max
  statuses : ∀ slot : Slot, (store.values slot.status).isSome

@[ext] structure View where
  chain : Slot
  next : Option Slot
  unbootable : Slot → Bool
  retries : Slot → Nat

/-- The attempts each slot gets when the register is initialized. -/
def fresh (max : BitVec 32) (unbootable : Slot → Bool) (slot : Slot) : Nat :=
  if unbootable slot then 0 else max.toNat % 4

def unbootable (store : Store) (slot : Slot) : Bool :=
  store.values slot.status = some osStatusUnbootable

def System.view (max : BitVec 32) (system : System) : View where
  chain := system.chain
  next := System.next system.store
  unbootable := unbootable system.store
  retries := fun slot =>
    if magicField.get system.store.register = srRfMagic then
      (slot.retryCountField.get system.store.register).toNat
    else fresh max (unbootable system.store) slot

namespace View

def attempt (slot : Slot) (view : View) : View :=
  { view with
    retries := fun s => if s = slot then view.retries s - 1 else view.retries s }

/-- `works` says whether a slot's status could be written. -/
def mark (max : BitVec 32) (works : Slot → Bool) (view : View) : View :=
  let unbootable := fun s => view.unbootable s || works s
  { view with unbootable := unbootable, retries := fresh max unbootable }

/-- One boot: what it comes to, and what it leaves. -/
def step (level max : BitVec 32) (setVariable : VariableIndex → Bool) (accepts : Bool)
    (view : View) : Outcome × View :=
  let current := view.chain
  let other := current.other
  if level = redundancyBootOnly then
    if view.unbootable .a then (.recovery, view.mark max fun _ => false)
    else if view.retries .a ≠ 0 then (.normal .a, view.attempt .a)
    else (.recovery, view.mark max fun s => s = .a ∧ setVariable .statusA)
  else if level = redundancyBootRootfs then
    if view.unbootable .a ∧ view.unbootable .b then (.recovery, view.mark max fun _ => false)
    else if view.retries current ≠ 0 then (.normal current, view.attempt current)
    else if view.retries other ≠ 0 then
      let next := if setVariable current.status ∧ setVariable .fwNext then some other else view.next
      (.switch other,
        { view.mark max fun s => s = current ∧ setVariable current.status with
          chain := if accepts then next.getD current else current
          next := none })
    else
      (.recovery, view.mark max fun s =>
        setVariable .statusA ∧ (s = .b → setVariable .statusB))
  else (.normal current, view)

end View

section
variable {services : Services} {level max : BitVec 32} {store : Store}

/-- What is read of a variable that exists, or has a default. -/
def Store.read (store : Store) (index : VariableIndex) : BitVec 32 :=
  (store.values index).getD 0

theorem readVariables_eq (hworking : services.Working) (hconfigured : Configured level max store) :
    readVariables services store = .ok ⟨store.read, fun _ => false, 0, 0, 0⟩ := by
  obtain ⟨hredundancy, hretryMax, hstatuses⟩ := hconfigured
  have hread : ∀ index, rfGetVariable services store index = .ok (store.read index) := by
    intro index
    unfold rfGetVariable Store.read
    rw [hworking.getVariable, if_pos rfl]
    cases index with
    | statusA => obtain ⟨v, hv⟩ := Option.isSome_iff_exists.mp (hstatuses .a); simp_all [Slot.status]
    | statusB => obtain ⟨v, hv⟩ := Option.isSome_iff_exists.mp (hstatuses .b); simp_all [Slot.status]
    | redundancy => simp [hredundancy]
    | retryMax => simp [hretryMax]
    | fwNext => cases store.values .fwNext <;> simp
    | bcStatus => cases store.values .bcStatus <;> simp
  unfold readVariables
  simp [hread, Except.isOk, Except.toBool, Except.toOption]

def workingRegister (max : BitVec 32) (system : System) : BitVec 32 :=
  if magicField.get system.store.register = srRfMagic then system.store.register
  else
    retryCountBField.set (if unbootable system.store .b then 0 else max)
      (retryCountAField.set (if unbootable system.store .a then 0 else max)
        (currentSlotField.set system.chain.number (magicField.set srRfMagic 0)))

theorem magic_workingRegister (max : BitVec 32) (system : System) :
    magicField.get (workingRegister max system) = srRfMagic := by
  unfold workingRegister
  split
  · assumption
  · rw [BitField.get_set_of_apart (by decide), BitField.get_set_of_apart (by decide),
      BitField.get_set_of_apart (by decide), BitField.get_set]
    decide

theorem retryCount_workingRegister (max : BitVec 32) (system : System) (slot : Slot) :
    (slot.retryCountField.get (workingRegister max system)).toNat =
      (system.view max).retries slot := by
  unfold workingRegister System.view
  by_cases hmagic : magicField.get system.store.register = srRfMagic
  · simp only [hmagic, if_true]
  · simp only [hmagic, if_false, fresh]
    cases slot with
    | a =>
      rw [Slot.retryCountField, BitField.get_set_of_apart (by decide), BitField.get_set,
        BitField.toNat_and_low]
      split <;> simp [retryCountAField]
    | b =>
      rw [Slot.retryCountField, BitField.get_set, BitField.toNat_and_low]
      split <;> simp [retryCountBField]

/-- `mRootfsInfo` once it has been brought up to date. -/
def loaded (max : BitVec 32) (system : System) : Info where
  value := system.store.read
  updateFlag := fun _ => false
  retryCountSlotA := retryCountAField.get (workingRegister max system)
  retryCountSlotB := retryCountBField.get (workingRegister max system)
  currentSlot := system.chain.number

theorem read_status (hconfigured : Configured level max store) (slot : Slot) :
    store.read slot.status = osStatusUnbootable ↔ unbootable store slot = true := by
  obtain ⟨v, hv⟩ := Option.isSome_iff_exists.mp (hconfigured.statuses slot)
  simp [Store.read, unbootable, hv]

end

section
variable {level max : BitVec 32} {boot : Boot} {system : System}
  (hworking : boot.services.Working) (hconfigured : Configured level max system.store)
  (hmode : boot.bootMode ≠ bootModeRecovery)
include hworking hconfigured hmode

theorem result_eq :
    system.result boot =
      if isValidRootfs (loaded max system) then
        exit boot.services system.chain.number
          (select (loaded max system) boot.bootMode (workingRegister max system))
          { system.store with register := workingRegister max system }
      else
        ⟨.success, ⟨bootModeRecovery, system.chain.number⟩, { system.store with register := 0 },
          false⟩ := by
  have hchain : ¬ rootfsSlotB < system.chain.number := by
    cases system.chain <;> decide
  have hregister : ∀ info : Info, info.value = system.store.read →
      ¬ magicField.get system.store.register = srRfMagic →
      initialRegister info system.chain.number = workingRegister max system := by
    intro info hinfo hmagic
    have hmax : system.store.read .retryMax = max := by simp [Store.read, hconfigured.retryMax]
    rw [workingRegister, if_neg hmagic, initialRegister, initialRetryCount, initialRetryCount,
      hinfo, hmax]
    simp only [← read_status hconfigured, Slot.status]
  unfold System.result validateRootfsStatus
  rw [if_neg hmode, if_neg hchain, readVariables_eq hworking hconfigured]
  unfold initializeRootfsStatusReg
  simp only [hworking.getRegister, if_true, setRootfsStatusReg, hworking.setRegister]
  by_cases hmagic : magicField.get system.store.register = srRfMagic
  · have heq : workingRegister max system = system.store.register := if_pos hmagic
    have hstore : { system.store with register := workingRegister max system } = system.store := by
      rw [heq]
    simp only [hmagic, if_true]
    rw [hstore, ← heq]
    rfl
  · simp only [hmagic, if_false]
    rw [hregister _ rfl hmagic]
    rfl

end

namespace Info

def retryCount (info : Info) : Slot → BitVec 32
  | .a => info.retryCountSlotA
  | .b => info.retryCountSlotB

def decreased (info : Info) : Slot → Info
  | .a => { info with retryCountSlotA := info.retryCountSlotA - 1 }
  | .b => { info with retryCountSlotB := info.retryCountSlotB - 1 }

variable (info : Info) (slot : Slot)

theorem getRetryCount_eq :
    getRetryCountFrommRootfsInfo info slot.number = .ok (info.retryCount slot) := by
  cases slot <;> rfl

theorem isBootable_eq :
    isRootfsSlotBootable info slot.number = decide (info.retryCount slot ≠ 0) := by
  rw [isRootfsSlotBootable, getRetryCount_eq]

theorem decrease_eq (h : info.retryCount slot ≠ 0) :
    decreaseRootfsRetryCount info slot.number = (.success, info.decreased slot) := by
  rw [decreaseRootfsRetryCount, getRetryCount_eq]
  dsimp only
  rw [if_pos h]
  cases slot <;> rfl

theorem setStatus_eq (status : BitVec 32) :
    setStatusTomRootfsInfo info slot.number status = (.success, info.setValue slot.status status) := by
  cases slot <;> rfl

end Info

section
variable {services : Services} {info : Info}

theorem magic_syncToRegister (register : BitVec 32) :
    magicField.get (syncToRegister info register) = magicField.get register := by
  unfold syncToRegister
  rw [BitField.get_set_of_apart (by decide), BitField.get_set_of_apart (by decide),
    BitField.get_set_of_apart (by decide)]

theorem retryCount_syncToRegister (register : BitVec 32) (slot : Slot) :
    (slot.retryCountField.get (syncToRegister info register)).toNat =
      (info.retryCount slot).toNat % 4 := by
  unfold syncToRegister
  cases slot with
  | a =>
    rw [Slot.retryCountField, BitField.get_set_of_apart (by decide), BitField.get_set,
      BitField.toNat_and_low]
    rfl
  | b =>
    rw [Slot.retryCountField, BitField.get_set, BitField.toNat_and_low]
    rfl

theorem view_saved (max : BitVec 32) {register : BitVec 32}
    (hmagic : magicField.get register = srRfMagic) (store : Store) (chain : Slot) :
    (System.mk { store with register := syncToRegister info register } chain).view max =
      ⟨chain, System.next store, unbootable store, fun s => (info.retryCount s).toNat % 4⟩ := by
  unfold System.view
  simp only [magic_syncToRegister, hmagic, if_true, retryCount_syncToRegister]
  rfl

theorem view_cleared (max : BitVec 32) {register : BitVec 32}
    (hmagic : magicField.get register ≠ srRfMagic) (store : Store) (chain : Slot) :
    (System.mk { store with register := register } chain).view max =
      ⟨chain, System.next store, unbootable store, fresh max (unbootable store)⟩ := by
  unfold System.view
  simp only [hmagic, if_false]
  rfl

/-- What a run writes: what is flagged, up to the first failure. -/
def writes (services : Services) (info : Info) : List VariableIndex :=
  (VariableIndex.all.filter info.updateFlag).takeWhile services.setVariable

def Store.written (store : Store) (info : Info) (indices : List VariableIndex) : Store :=
  { store with
    values := fun i => if i ∈ indices then some (info.value i) else store.values i }

theorem checkAndUpdateVariable_eq (indices : List VariableIndex) (store : Store) :
    (checkAndUpdateVariable services info indices store).2 =
      store.written info ((indices.filter info.updateFlag).takeWhile services.setVariable) := by
  induction indices generalizing store with
  | nil => simp [checkAndUpdateVariable, Store.written]
  | cons index rest ih =>
    unfold checkAndUpdateVariable rfSetVariable
    cases hflag : info.updateFlag index with
    | true =>
      cases hset : services.setVariable index with
      | true =>
        simp only [if_true, ih]
        rw [List.filter_cons_of_pos hflag, List.takeWhile_cons_of_pos hset]
        simp only [Store.written, List.mem_cons]
        congr 1
        funext i
        by_cases heq : i = index <;> simp [heq]
      | false =>
        rw [List.filter_cons_of_pos hflag, List.takeWhile_cons_of_neg (by simp [hset])]
        simp [Store.written]
    | false =>
      rw [List.filter_cons_of_neg (by simp [hflag])]
      simpa using ih store

theorem updateFlag_of_writes {index : VariableIndex} (h : index ∈ writes services info) :
    info.updateFlag index = true :=
  (List.mem_filter.mp (List.takeWhile_subset _ h)).2

theorem unbootable_written (store : Store) (indices : List VariableIndex)
    (hvalue : ∀ slot : Slot, slot.status ∈ indices →
      info.value slot.status = osStatusUnbootable) :
    unbootable (store.written info indices) =
      fun slot => unbootable store slot || decide (slot.status ∈ indices) := by
  funext slot
  unfold unbootable Store.written
  by_cases h : slot.status ∈ indices
  · simp [h, hvalue slot h]
  · simp [h]

theorem next_written (store : Store) {indices : List VariableIndex} (h : .fwNext ∉ indices) :
    System.next (store.written info indices) = System.next store := by
  unfold System.next Store.written
  simp [h]

variable (hworking : services.Working)
include hworking

/-- A run that asks for no switch saves the register and goes on. -/
theorem exit_unswitched (bootChain bootMode register : BitVec 32) (store : Store)
    (hflag : info.updateFlag .fwNext = false) :
    ∃ status, exit services bootChain ⟨.success, info, bootMode, register⟩ store =
      ⟨status, ⟨bootMode, info.currentSlot⟩,
        { store with register := syncToRegister info register }.written info
          (writes services info), false⟩ := by
  unfold exit
  simp only [ne_eq, not_true_eq_false, if_false, setRootfsStatusReg, hworking.setRegister, if_true,
    hflag, Bool.false_eq_true, checkAndUpdateVariable_eq]
  exact ⟨_, rfl⟩

/-- A run that asks for one clears the register and resets, whatever could be written. -/
theorem exit_switched (bootChain bootMode register : BitVec 32) (store : Store)
    (hflag : info.updateFlag .fwNext = true) :
    exit services bootChain ⟨.success, info, bootMode, register⟩ store =
      ⟨.success, ⟨bootMode, info.currentSlot⟩,
        rfDeleteVariable services
          { store.written info (writes services info) with register := 0 } .bcStatus, true⟩ := by
  unfold exit
  simp only [ne_eq, not_true_eq_false, if_false, setRootfsStatusReg, hworking.setRegister, if_true,
    hflag, checkAndUpdateVariable_eq]
  rfl

end

section
variable {level max : BitVec 32} {boot : Boot} {system : System}

theorem isValidRootfs_loaded (hconfigured : Configured level max system.store) :
    isValidRootfs (loaded max system) = true ↔
      ¬ (level = redundancyBootOnly ∧ unbootable system.store .a) ∧
        ¬ (level = redundancyBootRootfs ∧ unbootable system.store .a ∧ unbootable system.store .b) := by
  have hlevel : system.store.read .redundancy = level := by
    simp [Store.read, hconfigured.redundancy]
  unfold isValidRootfs loaded
  simp only [hlevel, ← read_status hconfigured, Slot.status, Bool.decide_and, Bool.and_eq_true,
    decide_eq_true_eq]

theorem unswitched_of_result {status : Status} {bootMode bootChain : BitVec 32} {store : Store}
    (h : system.result boot = ⟨status, ⟨bootMode, bootChain⟩, store, false⟩) :
    system.outcome boot =
        (if bootMode = bootModeRecovery then .recovery else .normal (Slot.ofNumber bootChain)) ∧
      system.after boot = ⟨store, system.chain⟩ := by
  unfold System.outcome System.after
  rw [h]
  exact ⟨rfl, rfl⟩

variable (max system) in
theorem retryCount_loaded (slot : Slot) :
    ((loaded max system).retryCount slot).toNat = (system.view max).retries slot := by
  rw [← retryCount_workingRegister]
  cases slot <;> rfl

variable (max system) in
theorem retries_lt (slot : Slot) : (system.view max).retries slot < 4 := by
  rw [← retryCount_workingRegister]
  cases slot
  · exact BitField.toNat_get_lt retryCountAField _
  · exact BitField.toNat_get_lt retryCountBField _

theorem retryCount_ne_zero (slot : Slot) :
    (loaded max system).retryCount slot ≠ 0 ↔ (system.view max).retries slot ≠ 0 := by
  rw [← retryCount_loaded, ne_eq, ne_eq, BitVec.toNat_eq]
  rfl

theorem toNat_sub_one {x : BitVec 32} (h : x ≠ 0) : (x - 1).toNat = x.toNat - 1 := by
  bv_omega

theorem retryCount_decreased (slot other : Slot) (h : (system.view max).retries slot ≠ 0)
    (currentSlot : BitVec 32) :
    ((({ loaded max system with currentSlot := currentSlot } : Info).decreased
      slot).retryCount other).toNat % 4 = ((system.view max).attempt slot).retries other := by
  have hlt := retries_lt max system other
  have hcount := retryCount_loaded max system other
  have hne := (retryCount_ne_zero slot).mpr h
  have hsub := toNat_sub_one hne
  cases slot <;> cases other <;>
    simp_all [Info.decreased, Info.retryCount, View.attempt] <;> omega

theorem attempted (hworking : boot.services.Working) (slot : Slot)
    (h : (system.view max).retries slot ≠ 0) (hmode : boot.bootMode ≠ bootModeRecovery)
    (hresult : system.result boot =
      exit boot.services system.chain.number
        ⟨.success, ({ loaded max system with currentSlot := slot.number } : Info).decreased slot,
          boot.bootMode, workingRegister max system⟩
        { system.store with register := workingRegister max system }) :
    system.outcome boot = .normal slot ∧
      (system.after boot).view max = (system.view max).attempt slot ∧
      (system.after boot).store.values = system.store.values := by
  have hflags : (({ loaded max system with currentSlot := slot.number } : Info).decreased
      slot).updateFlag = fun _ => false := by
    cases slot <;> rfl
  have hslot : (({ loaded max system with currentSlot := slot.number } : Info).decreased
      slot).currentSlot = slot.number := by
    cases slot <;> rfl
  have hwrites : writes boot.services (({ loaded max system with currentSlot := slot.number } :
      Info).decreased slot) = [] := by
    rw [writes, hflags]
    rfl
  obtain ⟨status, hexit⟩ := exit_unswitched hworking system.chain.number boot.bootMode
    (workingRegister max system) { system.store with register := workingRegister max system }
    (congrFun hflags .fwNext)
  rw [hexit, hwrites, hslot] at hresult
  obtain ⟨houtcome, hafter⟩ := unswitched_of_result hresult
  rw [if_neg hmode, Slot.ofNumber_number] at houtcome
  refine ⟨houtcome, ?_, by rw [hafter]; rfl⟩
  rw [hafter]
  refine (view_saved max (magic_workingRegister max system) system.store system.chain).trans ?_
  ext1
  · rfl
  · rfl
  · rfl
  · funext other
    exact retryCount_decreased slot other h _

theorem recovered (hworking : boot.services.Working)
    (hconfigured : Configured level max system.store) (hmode : boot.bootMode ≠ bootModeRecovery)
    (hinvalid : ¬ isValidRootfs (loaded max system) = true) :
    system.outcome boot = .recovery ∧
      (system.after boot).view max = (system.view max).mark max (fun _ => false) ∧
      (system.after boot).store.values = system.store.values := by
  have hresult := result_eq hworking hconfigured hmode
  rw [if_neg hinvalid] at hresult
  obtain ⟨houtcome, hafter⟩ := unswitched_of_result hresult
  refine ⟨houtcome, ?_, by rw [hafter]⟩
  rw [hafter]
  refine (view_cleared max (by decide) system.store system.chain).trans ?_
  simp [View.mark, System.view]

theorem exhausted (hworking : boot.services.Working) (info : Info)
    (hvalue : ∀ slot : Slot, info.updateFlag slot.status = true →
      info.value slot.status = osStatusUnbootable)
    (hflag : info.updateFlag .fwNext = false)
    (hresult : system.result boot =
      exit boot.services system.chain.number ⟨.success, info, bootModeRecovery, 0⟩
        { system.store with register := workingRegister max system }) :
    system.outcome boot = .recovery ∧
      (system.after boot).view max = (system.view max).mark max (fun slot =>
        slot.status ∈ writes boot.services info) ∧
      (system.after boot).store.values =
        (system.store.written info (writes boot.services info)).values := by
  obtain ⟨status, hexit⟩ := exit_unswitched hworking system.chain.number bootModeRecovery 0
    { system.store with register := workingRegister max system } hflag
  rw [hexit] at hresult
  obtain ⟨houtcome, hafter⟩ := unswitched_of_result hresult
  refine ⟨houtcome, ?_, by rw [hafter]; rfl⟩
  rw [hafter]
  have hmagic : magicField.get (syncToRegister info 0) ≠ srRfMagic := by
    rw [magic_syncToRegister]
    decide
  refine (view_cleared max hmagic (system.store.written info (writes boot.services info))
    system.chain).trans ?_
  rw [unbootable_written _ _ fun slot h => hvalue slot (updateFlag_of_writes h),
    next_written _ fun h => by rw [updateFlag_of_writes h] at hflag; cases hflag]
  rfl

theorem switched (hworking : boot.services.Working) (info : Info) (slot : Slot)
    (hslot : info.currentSlot = slot.number)
    (hvalue : ∀ slot : Slot, info.updateFlag slot.status = true →
      info.value slot.status = osStatusUnbootable)
    (hnext : info.value .fwNext = slot.number) (hflag : info.updateFlag .fwNext = true)
    (bootMode : BitVec 32)
    (hresult : system.result boot =
      exit boot.services system.chain.number
        ⟨.success, info, bootMode, workingRegister max system⟩
        { system.store with register := workingRegister max system }) :
    system.outcome boot = .switch slot ∧
      (system.after boot).view max =
        { (system.view max).mark max (fun slot => slot.status ∈ writes boot.services info) with
          chain := if boot.accepts then
            (if .fwNext ∈ writes boot.services info then some slot else
              (system.view max).next).getD system.chain else system.chain
          next := none } ∧
      ∀ index, index ≠ .fwNext → index ≠ .bcStatus → (system.after boot).store.values index =
        (system.store.written info (writes boot.services info)).values index := by
  rw [exit_switched hworking _ _ _ _ hflag, hslot] at hresult
  have hunbootable := unbootable_written system.store (writes boot.services info)
    fun s h => hvalue s (updateFlag_of_writes h)
  generalize writes boot.services info = indices at hresult hunbootable ⊢
  have hdeleted : ∀ index, index ≠ .bcStatus →
      (rfDeleteVariable boot.services
        { ({ system.store with register := workingRegister max system } : Store).written info
          indices with register := 0 } .bcStatus).values index =
        (system.store.written info indices).values index := by
    intro index hindex
    unfold rfDeleteVariable
    split <;> simp [Store.written, hindex]
  have hregister : (rfDeleteVariable boot.services
      { ({ system.store with register := workingRegister max system } : Store).written info
        indices with register := 0 } .bcStatus).register = 0 := by
    unfold rfDeleteVariable
    split <;> rfl
  refine ⟨?_, ?_, fun index hfwNext hbcStatus => ?_⟩
  · unfold System.outcome
    simp [hresult]
  · have hrequest : System.next (rfDeleteVariable boot.services
        { ({ system.store with register := workingRegister max system } : Store).written info
          indices with register := 0 } .bcStatus) =
        if .fwNext ∈ indices then some slot else System.next system.store := by
      unfold System.next
      rw [hdeleted _ (by decide)]
      by_cases h : .fwNext ∈ indices
      · simp only [Store.written, h, if_true, hnext]
        cases slot <;> rfl
      · simp only [Store.written, h, if_false]
    have hmagic : ¬ magicField.get (0 : BitVec 32) = srRfMagic := by decide
    have hmarks : unbootable (system.after boot).store = fun s =>
        unbootable system.store s || decide (s.status ∈ indices) := by
      rw [← hunbootable]
      funext s
      unfold unbootable System.after
      simp only [hresult, if_true]
      have hstatus : s.status ≠ .fwNext ∧ s.status ≠ .bcStatus := by
        cases s <;> decide
      rw [if_neg hstatus.1, hdeleted _ hstatus.2]
    have hview : (system.after boot).view max = ⟨(system.after boot).chain, none,
        unbootable (system.after boot).store, fresh max (unbootable (system.after boot).store)⟩ := by
      unfold System.after System.view
      simp only [hresult, if_true, hregister, hmagic, if_false]
      simp [System.next]
    rw [hview, hmarks]
    unfold System.after
    simp only [hresult, if_true, hrequest]
    rfl
  · unfold System.after
    simp only [hresult, if_true, hfwNext, if_false]
    exact hdeleted index hbcStatus

theorem Configured.written {store : Store} (h : Configured level max store) {info : Info}
    {indices : List VariableIndex} (hredundancy : .redundancy ∉ indices)
    (hretryMax : .retryMax ∉ indices) : Configured level max (store.written info indices) where
  redundancy := by simp [Store.written, hredundancy, h.redundancy]
  retryMax := by simp [Store.written, hretryMax, h.retryMax]
  statuses := fun slot => by
    have hslot := h.statuses slot
    unfold Store.written
    dsimp only
    split
    · rfl
    · exact hslot

theorem Configured.congr {store store' : Store} (h : Configured level max store)
    (hvalues : ∀ index, index ≠ .fwNext → index ≠ .bcStatus →
      store'.values index = store.values index) : Configured level max store' where
  redundancy := (hvalues .redundancy (by decide) (by decide)).trans h.redundancy
  retryMax := (hvalues .retryMax (by decide) (by decide)).trans h.retryMax
  statuses := fun slot => by
    have hstatus : slot.status ≠ .fwNext ∧ slot.status ≠ .bcStatus := by cases slot <;> decide
    rw [hvalues _ hstatus.1 hstatus.2]
    exact h.statuses slot

/-- The launcher does what its view of the system says, with rootfs A alone. -/
theorem refines_bootOnly (hworking : boot.services.Working)
    (hconfigured : Configured redundancyBootOnly max system.store)
    (hmode : boot.bootMode ≠ bootModeRecovery) :
    (system.outcome boot, (system.after boot).view max) =
        (system.view max).step redundancyBootOnly max boot.services.setVariable boot.accepts ∧
      Configured redundancyBootOnly max (system.after boot).store := by
  have hunbootable : (system.view max).unbootable = unbootable system.store := rfl
  unfold View.step
  rw [if_pos rfl, hunbootable]
  by_cases hinvalid : unbootable system.store .a = true
  · have hnot : ¬ isValidRootfs (loaded max system) = true := fun h =>
      ((isValidRootfs_loaded hconfigured).mp h).1 ⟨rfl, hinvalid⟩
    obtain ⟨houtcome, hview, hvalues⟩ := recovered hworking hconfigured hmode hnot
    rw [if_pos hinvalid, houtcome, hview]
    exact ⟨rfl, hconfigured.congr fun index _ _ => by rw [hvalues]⟩
  · rw [if_neg hinvalid]
    have hvalid : isValidRootfs (loaded max system) = true :=
      (isValidRootfs_loaded hconfigured).mpr ⟨fun h => hinvalid h.2, fun h => by simp [redundancyBootOnly, redundancyBootRootfs] at h⟩
    have hlevel : (loaded max system).value .redundancy = redundancyBootOnly := by
      simp [loaded, Store.read, hconfigured.redundancy]
    have hresult := result_eq hworking hconfigured hmode
    rw [if_pos hvalid, select, if_pos hlevel, selectBootOnly] at hresult
    have hinfo : (if (loaded max system).currentSlot ≠ rootfsSlotA then
        { loaded max system with currentSlot := rootfsSlotA } else loaded max system) =
        { loaded max system with currentSlot := Slot.a.number } := by
      split
      · rfl
      · rename_i h
        have h : (loaded max system).currentSlot = Slot.a.number := not_not.mp h
        rw [← h]
    simp only [hinfo, Info.isBootable_eq] at hresult
    by_cases hretries : (system.view max).retries .a = 0
    · have hzero : ({ loaded max system with currentSlot := Slot.a.number } : Info).retryCount .a =
          0 := not_not.mp (mt (retryCount_ne_zero .a).mp (not_not.mpr hretries))
      simp only [hzero, ne_eq, not_true_eq_false, decide_false, Bool.false_eq_true, if_false,
        Info.setStatus_eq] at hresult
      obtain ⟨houtcome, hview, hvalues⟩ := exhausted hworking _ (fun slot h => by
        cases slot <;> first | rfl | cases h) rfl hresult
      have hwrites : writes boot.services (({ loaded max system with currentSlot :=
          Slot.a.number } : Info).setValue Slot.a.status osStatusUnbootable) =
          if boot.services.setVariable .statusA then [.statusA] else [] := by
        have hfilter : VariableIndex.all.filter (({ loaded max system with currentSlot :=
          Slot.a.number } : Info).setValue Slot.a.status osStatusUnbootable).updateFlag =
          [.statusA] := rfl
        rw [writes, hfilter, List.takeWhile_cons]
        rfl
      rw [hwrites] at hview hvalues
      rw [if_neg (not_not.mpr hretries), houtcome, hview]
      refine ⟨?_, ?_⟩
      · congr 2
        funext slot
        cases slot <;> cases boot.services.setVariable .statusA <;> rfl
      · refine (hconfigured.written ?_ ?_).congr fun index _ _ => by rw [hvalues]
        · split <;> decide
        · split <;> decide
    · have hne : ({ loaded max system with currentSlot := Slot.a.number } : Info).retryCount .a ≠
          0 := (retryCount_ne_zero .a).mpr hretries
      simp only [hne, ne_eq, not_false_eq_true, decide_true, if_true] at hresult
      rw [Info.decrease_eq _ .a hne] at hresult
      obtain ⟨houtcome, hview, hvalues⟩ := attempted hworking .a hretries hmode hresult
      rw [if_pos hretries, houtcome, hview]
      exact ⟨rfl, hconfigured.congr fun index _ _ => by rw [hvalues]⟩

theorem writes_marked (services : Services) (info : Info)
    (h : VariableIndex.all.filter info.updateFlag = [.statusA, .statusB]) (slot : Slot) :
    slot.status ∈ writes services info ↔
      services.setVariable .statusA = true ∧
        (slot = .b → services.setVariable .statusB = true) := by
  rw [writes, h, List.takeWhile_cons, List.takeWhile_cons]
  cases slot <;> cases services.setVariable .statusA <;> cases services.setVariable .statusB <;>
    simp [Slot.status]

theorem writes_switch (services : Services) (info : Info) (current : Slot)
    (h : VariableIndex.all.filter info.updateFlag = [current.status, .fwNext]) :
    (∀ slot : Slot, slot.status ∈ writes services info ↔
        slot = current ∧ services.setVariable current.status = true) ∧
      (.fwNext ∈ writes services info ↔
        services.setVariable current.status = true ∧ services.setVariable .fwNext = true) := by
  rw [writes, h, List.takeWhile_cons, List.takeWhile_cons]
  constructor
  · intro slot
    cases slot <;> cases current <;> cases services.setVariable .statusA <;>
      cases services.setVariable .statusB <;> cases services.setVariable .fwNext <;>
      simp_all [Slot.status]
  · cases current <;> cases services.setVariable .statusA <;>
      cases services.setVariable .statusB <;> cases services.setVariable .fwNext <;>
      simp_all [Slot.status]

theorem refines_bootRootfs (hworking : boot.services.Working)
    (hconfigured : Configured redundancyBootRootfs max system.store)
    (hmode : boot.bootMode ≠ bootModeRecovery) :
    (system.outcome boot, (system.after boot).view max) =
        (system.view max).step redundancyBootRootfs max boot.services.setVariable boot.accepts ∧
      Configured redundancyBootRootfs max (system.after boot).store := by
  have hunbootable : (system.view max).unbootable = unbootable system.store := rfl
  have hchain : (system.view max).chain = system.chain := rfl
  unfold View.step
  rw [if_neg (by decide), if_pos rfl, hunbootable, hchain]
  by_cases hinvalid : unbootable system.store .a = true ∧ unbootable system.store .b = true
  · have hnot : ¬ isValidRootfs (loaded max system) = true := fun h =>
      ((isValidRootfs_loaded hconfigured).mp h).2 ⟨rfl, hinvalid⟩
    obtain ⟨houtcome, hview, hvalues⟩ := recovered hworking hconfigured hmode hnot
    rw [if_pos hinvalid, houtcome, hview]
    exact ⟨rfl, hconfigured.congr fun index _ _ => by rw [hvalues]⟩
  · rw [if_neg hinvalid]
    have hvalid : isValidRootfs (loaded max system) = true :=
      (isValidRootfs_loaded hconfigured).mpr ⟨fun h => by
        simp [redundancyBootOnly, redundancyBootRootfs] at h, fun h => hinvalid h.2⟩
    have hlevel : (loaded max system).value .redundancy = redundancyBootRootfs := by
      simp [loaded, Store.read, hconfigured.redundancy]
    have hcurrent : (loaded max system).currentSlot = system.chain.number := rfl
    have hresult := result_eq hworking hconfigured hmode
    rw [if_pos hvalid, select, if_neg (by rw [hlevel]; decide), if_pos hlevel, selectBootRootfs,
      hcurrent, Info.isBootable_eq] at hresult
    by_cases hretries : (system.view max).retries system.chain = 0
    · have hzero : (loaded max system).retryCount system.chain = 0 :=
        not_not.mp (mt (retryCount_ne_zero system.chain).mp (not_not.mpr hretries))
      simp only [hzero, ne_eq, not_true_eq_false, decide_false, Bool.false_eq_true, if_false,
        Info.setStatus_eq] at hresult
      have hother : (if ((loaded max system).setValue system.chain.status
          osStatusUnbootable).currentSlot = 0 then rootfsSlotB else rootfsSlotA) =
          system.chain.other.number := by
        show (if system.chain.number = 0 then _ else _) = _
        cases system.chain <;> rfl
      rw [hother, Info.isBootable_eq] at hresult
      have hcount : ((loaded max system).setValue system.chain.status osStatusUnbootable).retryCount
          system.chain.other = (loaded max system).retryCount system.chain.other := by
        cases system.chain <;> rfl
      rw [hcount] at hresult
      rw [if_neg (not_not.mpr hretries)]
      by_cases hothers : (system.view max).retries system.chain.other = 0
      · have hzero : (loaded max system).retryCount system.chain.other = 0 :=
          not_not.mp (mt (retryCount_ne_zero system.chain.other).mp (not_not.mpr hothers))
        simp only [hzero, ne_eq, not_true_eq_false, decide_false, Bool.false_eq_true, if_false,
          Info.setStatus_eq] at hresult
        have hfilter : VariableIndex.all.filter (((loaded max system).setValue system.chain.status
            osStatusUnbootable).setValue system.chain.other.status osStatusUnbootable).updateFlag =
            [.statusA, .statusB] := by
          cases system.chain <;> rfl
        obtain ⟨houtcome, hview, hvalues⟩ := exhausted hworking _ (fun slot _ => by
          cases slot <;> cases system.chain <;> rfl) (by cases system.chain <;> rfl) hresult
        rw [if_neg (not_not.mpr hothers), houtcome, hview]
        refine ⟨?_, ?_⟩
        · congr 2
          funext slot
          simp only [writes_marked _ _ hfilter]
        · refine (hconfigured.written (fun h => ?_) fun h => ?_).congr fun index _ _ => by rw [hvalues]
          · exact absurd (updateFlag_of_writes h) (by cases system.chain <;> exact nofun)
          · exact absurd (updateFlag_of_writes h) (by cases system.chain <;> exact nofun)
      · have hne : (loaded max system).retryCount system.chain.other ≠ 0 :=
          (retryCount_ne_zero system.chain.other).mpr hothers
        simp only [hne, ne_eq, not_false_eq_true, decide_true, if_true] at hresult
        rw [Info.decrease_eq _ system.chain.other (by rw [← hcount] at hne; exact hne)] at hresult
        obtain ⟨houtcome, hview, hvalues⟩ := switched hworking _ system.chain.other
          (by cases system.chain <;> rfl)
          (by
            intro slot
            cases slot <;> cases system.chain <;> first | exact fun _ => rfl | exact nofun)
          (by cases system.chain <;> rfl) (by cases system.chain <;> rfl) boot.bootMode hresult
        obtain ⟨hstatuses, hnext⟩ := writes_switch boot.services
          (Info.setValue (Info.decreased { (loaded max system).setValue system.chain.status
            osStatusUnbootable with currentSlot := system.chain.other.number }
              system.chain.other) .fwNext system.chain.other.number) system.chain
          (by cases system.chain <;> rfl)
        rw [if_pos hothers, houtcome, hview]
        refine ⟨?_, ?_⟩
        · simp only [hstatuses, hnext]
        · refine (hconfigured.written (fun h => ?_) fun h => ?_).congr hvalues
          · exact absurd (updateFlag_of_writes h) (by cases system.chain <;> exact nofun)
          · exact absurd (updateFlag_of_writes h) (by cases system.chain <;> exact nofun)
    · have hne : (loaded max system).retryCount system.chain ≠ 0 :=
        (retryCount_ne_zero system.chain).mpr hretries
      simp only [hne, ne_eq, not_false_eq_true, decide_true, if_true] at hresult
      rw [Info.decrease_eq _ system.chain hne] at hresult
      obtain ⟨houtcome, hview, hvalues⟩ := attempted hworking system.chain hretries hmode hresult
      rw [if_pos hretries, houtcome, hview]
      exact ⟨rfl, hconfigured.congr fun index _ _ => by rw [hvalues]⟩

theorem refines_unsupported (hworking : boot.services.Working)
    (hconfigured : Configured level max system.store) (hbootOnly : level ≠ redundancyBootOnly)
    (hbootRootfs : level ≠ redundancyBootRootfs) (hmode : boot.bootMode ≠ bootModeRecovery) :
    (system.outcome boot, (system.after boot).view max) =
        (system.view max).step level max boot.services.setVariable boot.accepts ∧
      Configured level max (system.after boot).store := by
  unfold View.step
  rw [if_neg hbootOnly, if_neg hbootRootfs]
  have hvalid : isValidRootfs (loaded max system) = true :=
    (isValidRootfs_loaded hconfigured).mpr ⟨fun h => hbootOnly h.1, fun h => hbootRootfs h.1⟩
  have hlevel : (loaded max system).value .redundancy = level := by
    simp [loaded, Store.read, hconfigured.redundancy]
  have hresult := result_eq hworking hconfigured hmode
  rw [if_pos hvalid, select, if_neg (by rwa [hlevel]), if_neg (by rwa [hlevel])] at hresult
  have hwrites : writes boot.services (loaded max system) = [] := rfl
  obtain ⟨status, hexit⟩ := exit_unswitched hworking system.chain.number boot.bootMode
    (workingRegister max system) { system.store with register := workingRegister max system }
    (show (loaded max system).updateFlag .fwNext = false from rfl)
  rw [hexit, hwrites] at hresult
  obtain ⟨houtcome, hafter⟩ := unswitched_of_result hresult
  have hslot : Slot.ofNumber (loaded max system).currentSlot = system.chain :=
    Slot.ofNumber_number system.chain
  have hview : (system.after boot).view max = system.view max := by
    rw [hafter]
    refine (view_saved max (magic_workingRegister max system) system.store system.chain).trans ?_
    ext1
    · rfl
    · rfl
    · rfl
    · funext slot
      dsimp only
      rw [retryCount_loaded, Nat.mod_eq_of_lt (retries_lt max system slot)]
  rw [houtcome, if_neg hmode, hslot, hview]
  exact ⟨rfl, hconfigured.congr fun index _ _ => by rw [hafter]; rfl⟩

theorem refines (hworking : boot.services.Working) (hconfigured : Configured level max system.store)
    (hmode : boot.bootMode ≠ bootModeRecovery) :
    (system.outcome boot, (system.after boot).view max) =
        (system.view max).step level max boot.services.setVariable boot.accepts ∧
      Configured level max (system.after boot).store := by
  by_cases hbootOnly : level = redundancyBootOnly
  · subst hbootOnly
    exact refines_bootOnly hworking hconfigured hmode
  · by_cases hbootRootfs : level = redundancyBootRootfs
    · subst hbootRootfs
      exact refines_bootRootfs hworking hconfigured hmode
    · exact refines_unsupported hworking hconfigured hbootOnly hbootRootfs hmode

end

end Rootfs
