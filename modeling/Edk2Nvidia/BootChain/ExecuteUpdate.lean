import Edk2Nvidia.Effect.Program
import Edk2Nvidia.Transition.Run

/-! The switch of the boot chain: the bookkeeping of a request is in variables that are written one
at a time, with a reset in between, and a request can be cancelled at any time. -/
namespace BootChainDxe
open Effect Transition

/-- The variables of the driver that outlive a boot, and of these `BootChainFwPrevious` and
`BootChainFwResetCount` are its own. -/
inductive BcVariable where
  | next
  | status
  | previous
  | resetCount
  | autoUpdateBrBct
deriving DecidableEq, Repr

def bootChainCount : Nat := 2
def bootChainMaxResetCount : Nat := 3
def maxUint32 : Nat := 2 ^ 32 - 1

/-! The values of `BootChainFwStatus`. -/

def statusSuccess : Nat := 0
def statusInProgress : Nat := 1
def statusErrorNoOperationRequired : Nat := 2
def statusErrorCanceledForFmpConflict : Nat := 3
def statusErrorReadingStatus : Nat := 4
def statusErrorMaxResetCount : Nat := 5
def statusErrorSettingResetCount : Nat := 6
def statusErrorSettingInProgress : Nat := 7
def statusErrorBadBootChainNext : Nat := 9
def statusErrorReadingNext : Nat := 10
def statusErrorUpdatingFwChain : Nat := 11
def statusErrorBootChainFailed : Nat := 12
def statusErrorReadingResetCount : Nat := 13
def statusErrorBootNextExists : Nat := 14
def statusErrorUpdateBrBctFlagSet : Nat := 17
def statusErrorSettingPrevious : Nat := 18
def statusErrorBootChainIsFailed : Nat := 19

inductive Call where
  | getVariable (index : BcVariable)
  | setVariable (index : BcVariable) (value : Nat)
  | deleteVariable (index : BcVariable)
  | updateFwChain (chain : Nat)
  | validateActiveBootChain
  | clearUpdateBrBctFlag
deriving DecidableEq, Repr

/-- The status of a call; the functions tell other errors than `EFI_NOT_FOUND` not apart. -/
inductive Reply where
  | success (value : Nat)
  | notFound
  | error
deriving DecidableEq, Repr

/-- What outlives a boot: the variables, and the chain the BCT selects. -/
structure Store where
  vars : BcVariable → Option Nat
  chain : Nat

def Store.write (s : Store) (v : BcVariable) (value : Option Nat) : Store :=
  { s with vars := fun w => if w = v then value else s.vars w }

abbrev Answer := Call → Bool

def exec (c : Call) (fails : Answer) (s : Store) : Reply × Store :=
  if fails c then (.error, s)
  else match c with
    | .getVariable v =>
      match s.vars v with
      | none => (.notFound, s)
      | some value => (.success value, s)
    | .setVariable v value => (.success 0, s.write v (some value))
    | .deleteVariable v =>
      if s.vars v = none then (.notFound, s) else (.success 0, s.write v none)
    | .updateFwChain chain => (.success 0, { s with chain })
    | .validateActiveBootChain => (.success 0, s)
    | .clearUpdateBrBctFlag => (.success 0, s)

/-- How `BootChainExecuteUpdate` ends. -/
inductive Ended where
  | notReady
  | bootOs
  | reset
deriving DecidableEq, Repr

/-- What a boot brings with it: the chain that was booted, whether the protocol of the BCT is there,
and what else a request is checked against. -/
structure Boot where
  bootChain : Nat
  brBctUpdateProtocol : Bool
  updateBrBctFlag : Bool
  bootNextExists : Bool
  bootChainIsFailed : Nat → Bool

abbrev Program := Prog Call Reply

section
variable (boot : Boot)

def brBctUpdateNeeded : Program Bool := do
  match ← Prog.perform (.getVariable .autoUpdateBrBct) with
  | .success value => pure (value = 1 ∧ boot.updateBrBctFlag)
  | _ => pure false

def bootOs (bcStatus : Nat) : Program Ended :=
  if bcStatus = maxUint32 then do
    if ← brBctUpdateNeeded boot then
      let _ ← Prog.perform (.updateFwChain boot.bootChain)
      let _ ← Prog.perform .clearUpdateBrBctFlag
      pure .bootOs
    else pure .bootOs
  else pure .bootOs

/-- The way back to the chain that was booted before; whether the system is reset. -/
def restoreChain : Option Nat → Program Bool
  | none => pure false
  | some chain => do
    match ← Prog.perform (.updateFwChain chain) with
    | .success _ => pure true
    | _ => pure false

/-- The label `Cleanup` of `BootChainFinishUpdate`, with the chain to go back to. -/
def cleanup (previous : Option Nat) : Program Bool := do
  let _ ← Prog.perform (.deleteVariable .previous)
  let _ ← Prog.perform (.deleteVariable .next)
  let _ ← Prog.perform (.deleteVariable .resetCount)
  restoreChain previous

def bootChainFinishUpdate (bcStatus : Nat) : Program Bool :=
  if bcStatus = statusSuccess then cleanup none
  else do
    match ← Prog.perform (.getVariable .previous) with
    | .success chain => cleanup (if boot.bootChain = chain then none else some chain)
    | _ => cleanup none

def finishUpdateAndBootOs (bcStatus : Nat) : Program Ended := do
  if ← bootChainFinishUpdate boot bcStatus then pure .reset else bootOs boot bcStatus

def setStatusAndBootOs (bcStatus : Nat) : Program Ended := do
  let _ ← Prog.perform (.setVariable .status bcStatus)
  finishUpdateAndBootOs boot bcStatus

/-- The new chain, behind the check of the resets. -/
def switchChain (bcNext bcResetCount : Nat) : Program Ended :=
  if bootChainMaxResetCount ≤ bcResetCount then setStatusAndBootOs boot statusErrorMaxResetCount
  else do
    match ← Prog.perform (.setVariable .resetCount (bcResetCount + 1)) with
    | .success _ =>
      let _ ← Prog.perform .validateActiveBootChain
      match ← Prog.perform (.updateFwChain bcNext) with
      | .success _ => pure .reset
      | _ => setStatusAndBootOs boot statusErrorUpdatingFwChain
    | _ => setStatusAndBootOs boot statusErrorSettingResetCount

def recordUpdate (bcNext : Nat) : Program Ended := do
  match ← Prog.perform (.setVariable .previous boot.bootChain) with
  | .success _ =>
    match ← Prog.perform (.setVariable .status statusInProgress) with
    | .success _ =>
      match ← Prog.perform (.getVariable .resetCount) with
      | .success bcResetCount => switchChain boot bcNext bcResetCount
      | .notFound => switchChain boot bcNext 0
      | .error => setStatusAndBootOs boot statusErrorReadingResetCount
    | _ => setStatusAndBootOs boot statusErrorSettingInProgress
  | _ => setStatusAndBootOs boot statusErrorSettingPrevious

def newUpdate (bcNext : Nat) : Program Ended :=
  if bootChainCount ≤ bcNext then setStatusAndBootOs boot statusErrorBadBootChainNext
  else if boot.bootNextExists then setStatusAndBootOs boot statusErrorBootNextExists
  else if bcNext = boot.bootChain then setStatusAndBootOs boot statusErrorNoOperationRequired
  else if boot.updateBrBctFlag then setStatusAndBootOs boot statusErrorUpdateBrBctFlagSet
  else if boot.bootChainIsFailed bcNext then setStatusAndBootOs boot statusErrorBootChainIsFailed
  else recordUpdate boot bcNext

/-- A request that a status is recorded of. -/
def resumeUpdate (bcNext bcStatus : Nat) : Program Ended :=
  if bcStatus = statusInProgress then
    if boot.bootChain = bcNext then setStatusAndBootOs boot statusSuccess
    else setStatusAndBootOs boot statusErrorBootChainFailed
  else finishUpdateAndBootOs boot bcStatus

def bootChainExecuteUpdate : Program Ended :=
  if boot.brBctUpdateProtocol = false then pure .notReady
  else do
    match ← Prog.perform (.getVariable .next) with
    | .notFound => bootOs boot maxUint32
    | .error => setStatusAndBootOs boot statusErrorReadingNext
    | .success bcNext =>
      match ← Prog.perform (.getVariable .status) with
      | .notFound => newUpdate boot bcNext
      | .error => setStatusAndBootOs boot statusErrorReadingStatus
      | .success bcStatus => resumeUpdate boot bcNext bcStatus

end

/-- The end of `BootChainCheckAndCancelUpdate`. -/
def cancelStatus (canceled : Bool) : Program Bool := do
  let canceled := (← Prog.perform (.getVariable .status)) ≠ .notFound ∨ canceled
  if canceled then
    let _ ← Prog.perform (.setVariable .status statusErrorCanceledForFmpConflict)
    pure true
  else pure false

def bootChainCheckAndCancelUpdate : Program Bool := do
  match ← Prog.perform (.getVariable .next) with
  | .notFound => cancelStatus false
  | _ =>
    let _ ← Prog.perform (.deleteVariable .next)
    cancelStatus true

/-! What a system goes through. -/

/-- What outlives a boot, and whether the last boot has got to the operating system, as it does
unless the function resets. -/
structure System where
  store : Store
  os : Bool

/-- The functions run until the answers are used up, and then power is lost. The operating system
writes the variables that it can reach. -/
inductive Event where
  | boot (boot : Boot) (answers : List Answer)
  | cancel (answers : List Answer)
  | writes (next status : Option Nat)

def step : Event → System → Option System
  | .boot boot answers, system =>
    match (bootChainExecuteUpdate boot).run exec answers system.store with
    | .done ended store => some ⟨store, ended ≠ .reset⟩
    | .lost _ store => some ⟨store, false⟩
  | .cancel answers, system =>
    match bootChainCheckAndCancelUpdate.run exec answers system.store with
    | .done _ store => some ⟨store, system.os⟩
    | .lost _ store => some ⟨store, false⟩
  | .writes next status, system =>
    if system.os then some ⟨(system.store.write .next next).write .status status, true⟩ else none

/-- The store as if there never had been a request. -/
def Store.new (s : Store) : Store := (s.write .previous none).write .resetCount none

def Store.request (s : Store) (chain : Nat) : Store :=
  (s.write .next (some chain)).write .status none

/-- A request for a valid chain is handled in any boot, up to any power loss, as it is without what
earlier requests have left: it does not fail for too many resets, and the chain recorded as previous
is the one that was booted. -/
structure HandledAsNew (s : Store) : Prop where
  same : ∀ boot chain answers, chain < bootChainCount →
    (bootChainExecuteUpdate boot).run exec answers (s.request chain) =
      (bootChainExecuteUpdate boot).run exec answers (s.new.request chain)
  resets : ∀ boot chain answers s', chain < bootChainCount →
    (bootChainExecuteUpdate boot).run exec answers (s.request chain) ≠
      .lost (.setVariable .status statusErrorMaxResetCount) s'
  recorded : ∀ boot chain answers s', chain < bootChainCount →
    (bootChainExecuteUpdate boot).run exec answers (s.request chain) =
        .lost (.setVariable .status statusInProgress) s' →
      s'.vars .previous = some boot.bootChain

/-- Once the operating system has cleared the request and its status, a new one is handled as if it
was the first. -/
def Independent (system : System) : Prop :=
  system.os = true → system.store.vars .next = none → system.store.vars .status = none →
    HandledAsNew system.store

def Store.Clean (s : Store) : Prop := s.vars .previous = none ∧ s.vars .resetCount = none

/-- The events that lose no bookkeeping: a boot that finds some has the protocol, its deletion does
not fail, and power is not lost between the deletion of the request and that of its count of resets;
and what is cancelled has no bookkeeping, or the deletion of the request is not done. -/
def Careful (system : System) : Event → Prop
  | .boot boot answers =>
    (boot.brBctUpdateProtocol = true ∨ system.store.Clean) ∧
    (∀ fails ∈ answers, fails (.deleteVariable .previous) = false ∧
      fails (.deleteVariable .resetCount) = false) ∧
    ∀ s', (bootChainExecuteUpdate boot).run exec answers system.store =
      .lost (.deleteVariable .resetCount) s' → s'.vars .resetCount = none
  | .cancel answers =>
    system.store.Clean ∨ ∀ fails ∈ answers[1]?, fails (.deleteVariable .next) = true
  | .writes _ _ => True

end BootChainDxe
