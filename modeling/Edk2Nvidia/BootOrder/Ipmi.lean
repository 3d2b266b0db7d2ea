import Mathlib.Algebra.Order.Ring.Nat
import Mathlib.Data.List.Nodup
import Mathlib.Data.List.Sort
import Edk2Nvidia.Effect.Program

/-! Lists in which some elements are brought to the front and the rest keeps its order. -/
namespace Reorder

variable {α : Type}

/-- The element at an index first, then the others. -/
def toStart (l : List α) (index : Nat) : List α :=
  l[index]?.toList ++ l.eraseIdx index

theorem toStart_append (front : List α) (a : α) (back : List α) :
    toStart (front ++ a :: back) front.length = a :: (front ++ back) := by
  simp [toStart, List.eraseIdx_append_of_length_le]

/-- What `p` selects first, what `q` selects of the others next, and then the rest. -/
def arrange (p q : α → Bool) (l : List α) : List α :=
  l.filter p ++ (l.filter (fun a => !p a && q a) ++ l.filter fun a => !p a && !q a)

theorem arrange_perm (p q : α → Bool) (l : List α) : (arrange p q l).Perm l := by
  have hrest : ((l.filter fun a => !p a && q a) ++ l.filter fun a => !p a && !q a).Perm
      (l.filter fun a => !p a) := by
    have hsplit := List.filter_append_perm q (l.filter fun a => !p a)
    simpa only [List.filter_filter, Bool.and_comm] using hsplit
  exact (hrest.append_left _).trans (List.filter_append_perm p l)

@[simp] theorem length_arrange (p q : α → Bool) (l : List α) : (arrange p q l).length = l.length :=
  (arrange_perm p q l).length_eq

@[simp] theorem mem_arrange (p q : α → Bool) {l : List α} {a : α} : a ∈ arrange p q l ↔ a ∈ l :=
  (arrange_perm p q l).mem_iff

theorem arrange_congr {p p' q q' : α → Bool} {l : List α} (hp : ∀ a ∈ l, p a = p' a)
    (hq : ∀ a ∈ l, q a = q' a) : arrange p q l = arrange p' q' l := by
  have hnext : l.filter (fun a => !p a && q a) = l.filter fun a => !p' a && q' a :=
    List.filter_congr fun a ha => by rw [hp a ha, hq a ha]
  have hrest : l.filter (fun a => !p a && !q a) = l.filter fun a => !p' a && !q' a :=
    List.filter_congr fun a ha => by rw [hp a ha, hq a ha]
  rw [arrange, arrange, List.filter_congr hp, hnext, hrest]

end Reorder

/-! The boot order requested over IPMI for one boot: how it is put in place and how the order
before it is restored. -/
namespace BootOrder
open Effect

inductive Status where
  | success
  | notFound
  | deviceError
  | outOfResources
deriving DecidableEq, Repr

/-- The classes of `mBootPriorityTemplate`. -/
inductive BootClass where
  | scsi
  | usb
  | sata
  | pxev4
  | httpv4
  | pxev6
  | httpv6
  | nvme
  | ufs
  | sd
  | emmc
  | cdrom
  | bootImg
  | virtual
  | shell
  | fastboot
deriving DecidableEq, Repr

/-- `GetBootClassOfOptionNum` with the template. -/
abbrev Lookup := UInt16 → Except Status BootClass

/-- An option without a class, such as the "ubuntu" option, is not an error. -/
def optionClass (lookup : Lookup) (option : UInt16) : Except Status (Option BootClass) :=
  match lookup option with
  | .ok bootClass => .ok (some bootClass)
  | .error .notFound => .ok none
  | .error status => .error status

structure Request where
  bootFlagValid : Bool
  persistentOptions : Bool
  bootDeviceSelector : BitVec 4
  deviceInstanceSelector : BitVec 5
deriving DecidableEq, Repr

structure Store where
  bootOrder : Option (List UInt16)
  savedBootOrder : Option (List UInt16)
  savedBootOrderFlags : Option UInt8
  bootToUiApp : Bool
  osIndications : UInt64
deriving DecidableEq, Repr

/-- The calls that have an effect. The last two go to the BMC. -/
inductive Call where
  | setBootOrder (order : List UInt16)
  | setSavedBootOrder (order : List UInt16)
  | setSavedBootOrderFlags (flags : UInt8)
  | deleteSavedBootOrder
  | deleteSavedBootOrderFlags
  | setBootToUiApp (value : Bool)
  | setOsIndications (value : UInt64)
  | acknowledge
  | clearBootFlags
deriving DecidableEq, Repr

def apply (store : Store) : Call → Store
  | .setBootOrder order => { store with bootOrder := some order }
  | .setSavedBootOrder order => { store with savedBootOrder := some order }
  | .setSavedBootOrderFlags flags => { store with savedBootOrderFlags := some flags }
  | .deleteSavedBootOrder => { store with savedBootOrder := none }
  | .deleteSavedBootOrderFlags => { store with savedBootOrderFlags := none }
  | .setBootToUiApp value => { store with bootToUiApp := value }
  | .setOsIndications value => { store with osIndications := value }
  | .acknowledge => store
  | .clearBootFlags => store

def exec (call : Call) (status : Status) (store : Store) : Status × Store :=
  (status, if status = .success then apply store call else store)

abbrev Ipmi := Prog Call Status

def moveIndexToStart (array : List UInt16) (index : Nat) : List UInt16 :=
  if 0 < index then Reorder.toStart array index else array

def savedBootOrderAllInstancesFlag : UInt8 := 0x1
def savedBootOrderVirtualFlag : UInt8 := 0x2

def efiOsIndicationsBootToFwUi : UInt64 := 0x1

inductive Selection where
  | ignored
  | biosSetup
  | bootClass (requested : BootClass) (virtual : Option BootClass)
deriving DecidableEq, Repr

/-- USB devices that are virtual come before the others. -/
def selection (ipv6 : Bool) (bootDeviceSelector : BitVec 4) : Selection :=
  match bootDeviceSelector.toNat with
  | 0x1 => .bootClass (if ipv6 then .pxev6 else .pxev4) none
  | 0x2 => .bootClass .nvme none
  | 0x5 => .bootClass .cdrom none
  | 0x6 => .biosSetup
  | 0x7 => .bootClass .sata none
  | 0x8 => .bootClass (if ipv6 then .httpv6 else .httpv4) none
  | 0xB => .bootClass .scsi none
  | 0xF => .bootClass .usb (some .virtual)
  | _ => .ignored

/-- `ClassInstanceList` and `VirtualInstanceList`, in the order of `BootOrder`. -/
def findInstances (lookup : Lookup) (requested : BootClass) (virtual : Option BootClass) :
    List UInt16 → Except Status (List UInt16 × List UInt16)
  | [] => .ok ([], [])
  | option :: rest => do
    let optionBootClass ← optionClass lookup option
    let (classInstances, virtualInstances) ← findInstances lookup requested virtual rest
    if virtual.isSome ∧ optionBootClass = virtual then
      return (classInstances, option :: virtualInstances)
    else if optionBootClass = some requested then
      return (option :: classInstances, virtualInstances)
    else return (classInstances, virtualInstances)

/-- The option to move first and the instances that remain to be moved. -/
structure Desired where
  requestedInstance : Nat
  optionNumber : UInt16
  classRemaining : List UInt16
  virtualRemaining : List UInt16
deriving DecidableEq, Repr

def allInstances (classInstances virtualInstances : List UInt16) : Desired :=
  if classInstances ≠ [] then
    ⟨0, classInstances.getLastD 0, classInstances.dropLast, virtualInstances⟩
  else ⟨0, virtualInstances.getLastD 0, [], virtualInstances.dropLast⟩

/-- `PerformQuickSort`. -/
def sorted (instances : List UInt16) : List UInt16 := instances.insertionSort (· ≤ ·)

/-- Instance 0 stands for all, and so does an instance that does not exist. -/
def desired (requestedInstance : Nat) (classInstances virtualInstances : List UInt16) : Desired :=
  if requestedInstance = 0 then allInstances classInstances virtualInstances
  else if requestedInstance - 1 < virtualInstances.length then
    ⟨requestedInstance, (sorted virtualInstances).getD (requestedInstance - 1) 0, classInstances,
      virtualInstances⟩
  else if requestedInstance - 1 - virtualInstances.length < classInstances.length then
    ⟨requestedInstance,
      (sorted classInstances).getD (requestedInstance - 1 - virtualInstances.length) 0,
      classInstances, virtualInstances⟩
  else allInstances classInstances virtualInstances

def willModifyBootOrder (bootOrder classInstances virtualInstances : List UInt16)
    (desired : Desired) : Bool :=
  if desired.requestedInstance = 0 then
    bootOrder.take virtualInstances.length ≠ virtualInstances ∨
      (bootOrder.drop virtualInstances.length).take classInstances.length ≠ classInstances
  else 0 < bootOrder.idxOf desired.optionNumber

/-- The inner loop: where an option is found at or below an index, 0 if it is not found. -/
def searchDown (buffer : List UInt16) (optionNumber : UInt16) : Nat → Nat
  | 0 => 0
  | index + 1 =>
    if buffer[index + 1]? = some optionNumber then index + 1
    else searchDown buffer optionNumber index

/-- The outer loop, the last instance first; nothing is returned when its assertion fails. -/
def moveInstances : List UInt16 → List UInt16 → Nat → Option (List UInt16 × Nat)
  | [], buffer, index => some (buffer, index)
  | optionNumber :: rest, buffer, index =>
    let index := searchDown buffer optionNumber index
    if 0 < index then moveInstances rest (moveIndexToStart buffer index) index else none

/-- `BootOrder` with the desired options in front. The search for virtual instances starts one
element behind the order: `behind` is what the memory holds there. -/
def reordered (behind : UInt16) (bootOrder : List UInt16) (desired : Desired) :
    Option (List UInt16) :=
  let index := bootOrder.idxOf desired.optionNumber
  let buffer := moveIndexToStart (bootOrder ++ [behind]) index
  if desired.requestedInstance = 0 then do
    let (buffer, _) ← moveInstances desired.classRemaining.reverse buffer index
    let (buffer, _) ← moveInstances desired.virtualRemaining.reverse buffer bootOrder.length
    return buffer.take bootOrder.length
  else some (buffer.take bootOrder.length)

structure Platform where
  lookup : Lookup
  ipv6 : Bool
  createEvent : Status

def bootOrderFlags (virtual : Option BootClass) (desired : Desired) : UInt8 :=
  (if desired.requestedInstance = 0 then savedBootOrderAllInstancesFlag else 0) |||
    if virtual.isSome then savedBootOrderVirtualFlag else 0

/-- Registers the event and saves what restoring needs. -/
def prepareRestore (platform : Platform) (bootOrder : List UInt16) (flags : UInt8) : Ipmi Status :=
  if platform.createEvent ≠ .success then pure platform.createEvent
  else do
    let status ← Prog.perform (.setSavedBootOrder bootOrder)
    if status ≠ .success then pure status
    else if flags ≠ 0 then Prog.perform (.setSavedBootOrderFlags flags)
    else pure .success

def setOsIndications (store : Store) (value mask : UInt64) : Ipmi Unit := do
  let _ ← Prog.perform (.setOsIndications ((store.osIndications &&& ~~~mask) ||| (value &&& mask)))

/-- Below the label `CleanupAndReturn`. -/
def cleanupAndReturn (store : Store) (bootToUiApp : Bool) : Ipmi Unit :=
  if bootToUiApp then setOsIndications store efiOsIndicationsBootToFwUi efiOsIndicationsBootToFwUi
  else pure ()

/-- Below the label `AcknowledgeAndCleanup`. -/
def acknowledgeAndCleanup (store : Store) (bootToUiApp : Bool) : Ipmi Unit := do
  let _ ← Prog.perform .acknowledge
  let _ ← Prog.perform .clearBootFlags
  cleanupAndReturn store bootToUiApp

/-- Once the instances of the requested class are known. -/
def processInstances (platform : Platform) (behind : UInt16) (request : Request)
    (virtual : Option BootClass) (store : Store) (bootOrder : List UInt16)
    (instances : List UInt16 × List UInt16) : Ipmi Unit :=
  let (classInstances, virtualInstances) := instances
  if classInstances = [] ∧ virtualInstances = [] then
    acknowledgeAndCleanup store store.bootToUiApp
  else
    let desired := desired (request.deviceInstanceSelector.toNat % 16) classInstances
      virtualInstances
    let modify := willModifyBootOrder bootOrder classInstances virtualInstances desired
    let processed : Ipmi Unit := do
      if request.persistentOptions then
        let _ ← Prog.perform (.setBootToUiApp false)
      acknowledgeAndCleanup store false
    if modify then do
      let status ←
        if request.persistentOptions then pure .success
        else prepareRestore platform bootOrder (bootOrderFlags virtual desired)
      if status ≠ .success then acknowledgeAndCleanup store store.bootToUiApp
      else
        match reordered behind bootOrder desired with
        | none => acknowledgeAndCleanup store store.bootToUiApp
        | some order => do
          let _ ← Prog.perform (.setBootOrder order)
          processed
    else processed

/-- `request` is what `CheckIPMIForBootOrderUpdates` has left, if there is something to do. -/
def processIPMIBootOrderUpdates (platform : Platform) (behind : UInt16) (request : Option Request)
    (store : Store) : Ipmi Unit :=
  match request with
  | none => cleanupAndReturn store store.bootToUiApp
  | some request =>
    if ¬ request.bootFlagValid then acknowledgeAndCleanup store store.bootToUiApp
    else
      match selection platform.ipv6 request.bootDeviceSelector with
      | .ignored => acknowledgeAndCleanup store store.bootToUiApp
      | .biosSetup => do
        if request.persistentOptions then
          let _ ← Prog.perform (.setBootToUiApp true)
        acknowledgeAndCleanup store true
      | .bootClass requested virtual =>
        match store.bootOrder with
        | none => acknowledgeAndCleanup store store.bootToUiApp
        | some bootOrder =>
          match findInstances platform.lookup requested virtual bootOrder with
          | .error _ => acknowledgeAndCleanup store store.bootToUiApp
          | .ok instances =>
            processInstances platform behind request virtual store bootOrder instances

/-- The loop over `SavedBootOrderCopy` while the index, which is `moved + remaining - 1`, is not
below `moved`. -/
def restoreLoop (lookup : Lookup) (bootClass virtual : Option BootClass) :
    Nat → List UInt16 → Nat → Nat → Except Status (List UInt16)
  | 0, copy, _, _ => .ok copy
  | remaining + 1, copy, moved, virtualCount => do
    let index := moved + remaining
    let savedBootClass ← optionClass lookup (copy.getD index 0)
    if savedBootClass = bootClass then
      restoreLoop lookup bootClass virtual remaining
        (copy.take virtualCount ++
          moveIndexToStart (copy.drop virtualCount) (index - virtualCount))
        (moved + 1) virtualCount
    else if savedBootClass.isSome ∧ savedBootClass = virtual then
      restoreLoop lookup bootClass virtual remaining (moveIndexToStart copy index) (moved + 1)
        (virtualCount + 1)
    else restoreLoop lookup bootClass virtual remaining copy moved virtualCount

def flagSet (flags : Option UInt8) (flag : UInt8) : Bool := flags.getD 0 &&& flag ≠ 0

@[simp] theorem flagSet_none (flag : UInt8) : flagSet none flag = false := by
  simp [flagSet]

/-- `SavedBootOrderCopy` as it is compared with `BootOrder`, whose first option is
`reorderedBootNum`. -/
def recreated (lookup : Lookup) (flags : Option UInt8) (saved : List UInt16)
    (reorderedBootNum : UInt16) : Except Status (List UInt16) :=
  if flagSet flags savedBootOrderAllInstancesFlag then do
    let bootClass ← optionClass lookup reorderedBootNum
    if flagSet flags savedBootOrderVirtualFlag ∧ bootClass = some .virtual then
      restoreLoop lookup (some .usb) bootClass saved.length saved 0 0
    else restoreLoop lookup bootClass none saved.length saved 0 0
  else .ok (moveIndexToStart saved (saved.idxOf reorderedBootNum))

/-- `BootOrder` is `SavedBootOrder` but for one option or class moved to its start. -/
def isTemporary (lookup : Lookup) (flags : Option UInt8) (saved bootOrder : List UInt16) : Bool :=
  match bootOrder with
  | [] => false
  | reorderedBootNum :: _ =>
    saved.length = bootOrder.length ∧ reorderedBootNum ∈ saved ∧
      (recreated lookup flags saved reorderedBootNum).toOption = some bootOrder

/-- What `RestoreBootOrder` is called for; an event comes with the variable `BootCurrent`. -/
inductive Trigger where
  | start
  | readyToBoot (bootCurrent : Option UInt16)
deriving DecidableEq, Repr

def Trigger.permits (trigger : Trigger) (bootOrder : List UInt16) : Bool :=
  match trigger with
  | .start => true
  | .readyToBoot bootCurrent => bootCurrent.isSome ∧ bootCurrent = bootOrder.head?

def deleteSaveAndCleanup : Ipmi Unit := do
  let _ ← Prog.perform .deleteSavedBootOrder
  let _ ← Prog.perform .deleteSavedBootOrderFlags

def restoreBootOrder (lookup : Lookup) (trigger : Trigger) (store : Store) : Ipmi Unit :=
  match store.savedBootOrder with
  | none => pure ()
  | some saved =>
    match store.bootOrder with
    | none => deleteSaveAndCleanup
    | some bootOrder =>
      if saved ≠ [] ∧ isTemporary lookup store.savedBootOrderFlags saved bootOrder ∧
          trigger.permits bootOrder then do
        let _ ← Prog.perform (.setBootOrder saved)
        deleteSaveAndCleanup
      else deleteSaveAndCleanup

end BootOrder
