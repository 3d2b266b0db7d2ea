import Edk2Nvidia.NorFlash
import Edk2Nvidia.Transition.Run
import Mathlib.Logic.Function.Basic

/-! The threading driver: threads wait in a queue for an application processor. Its calls and its
completion event run on the boot processor, one after the other; what the event and processor
services answer is an input of each call. -/
namespace Threading

def threadingCpuRetryCount : Nat := 10

inductive CpuState where
  | idle
  | busy
  | bsp
  | timeout
deriving DecidableEq, Repr

inductive ThreadState where
  | spawned
  | starting
  | ready
  | running
  | finished
deriving DecidableEq, Repr

/-- The arguments of `ThreadingSpawnThread`; a procedure is its address. -/
structure Request where
  threadProcedure : Nat
  threadArgument : Nat
  onThreadExit : Nat
  onThreadExitArgument : Nat
  threadTimeout : Nat
deriving DecidableEq, Repr

/-- `INTERNAL_EFI_THREAD`, without its list entry. -/
structure Thread where
  state : ThreadState
  procedure : Nat
  procedureArgument : Nat
  finishedEvent : Option Nat
  onThreadExit : Nat
  onThreadExitArgument : Nat
  timeout : Nat
  cpuId : Nat
deriving DecidableEq, Repr

structure CpuInfo where
  cpuId : Nat
  currentThread : Option Nat
  state : CpuState
  initialized : Bool
deriving DecidableEq, Repr

inductive Action where
  | spawned (thread : Nat) (request : Request)
  | procedure (thread procedure argument : Nat)
  | onThreadExit (thread procedure argument : Nat)
  | cleaned (thread : Nat)
deriving DecidableEq, Repr

/-- `mThreadingData` with the thread objects in the pool, the open events with their contexts, and
the threads and wait events handed to each processor that have not completed. -/
structure System where
  cpuCount : Nat
  cpuInfo : Nat → CpuInfo
  threadsQueued : List Nat
  bspCpuId : Nat
  threads : Nat → Option Thread
  nextThread : Nat
  events : List (Nat × Nat)
  nextEvent : Nat
  aps : Nat → List (Nat × Nat)
  log : List Action

/-- What `CreateEvent` and `StartupThisAP` return, call by call; behind the lists they succeed. -/
structure Services where
  createEvent : List EfiStatus
  startupThisAP : List EfiStatus

def answer : List EfiStatus → EfiStatus × List EfiStatus
  | [] => (.success, [])
  | status :: later => (status, later)

namespace System

def modifyThread (s : System) (thread : Nat) (f : Thread → Thread) : System :=
  { s with threads := Function.update s.threads thread ((s.threads thread).map f) }

def modifyCpu (s : System) (cpuId : Nat) (f : CpuInfo → CpuInfo) : System :=
  { s with cpuInfo := Function.update s.cpuInfo cpuId (f (s.cpuInfo cpuId)) }

def closeEvent (s : System) (event : Nat) : System :=
  { s with events := s.events.filter fun e => e.1 ≠ event }

def record (s : System) (action : Action) : System :=
  { s with log := s.log ++ [action] }

/-- The loop of `ThreadingFindFreeCpu` over the processors left. -/
def findFreeCpuLoop (cpuInfo : Nat → CpuInfo) : List Nat → Option Nat → Option Nat
  | [], firstTimedoutCpu => firstTimedoutCpu
  | cpu :: cpus, firstTimedoutCpu =>
    if (cpuInfo cpu).initialized then
      if (cpuInfo cpu).state = .idle then
        some cpu
      else if (cpuInfo cpu).state = .timeout then
        findFreeCpuLoop cpuInfo cpus (if firstTimedoutCpu = none then some cpu else firstTimedoutCpu)
      else
        findFreeCpuLoop cpuInfo cpus firstTimedoutCpu
    else
      findFreeCpuLoop cpuInfo cpus firstTimedoutCpu

/-- `ThreadingFindFreeCpu`; `none` is `MAX_UINTN`. -/
def findFreeCpu (s : System) : Option Nat :=
  findFreeCpuLoop s.cpuInfo (List.range s.cpuCount) none

def cleanupThread (s : System) (thread : Nat) : EfiStatus × System :=
  match s.threads thread with
  | none => (.invalidParameter, s)
  | some iThread =>
    if iThread.state = .running ∨ iThread.state = .ready then
      (.alreadyStarted, s)
    else
      let s :=
        if iThread.state = .spawned then
          { s with threadsQueued := s.threadsQueued.erase thread }
        else if iThread.state = .starting then
          iThread.finishedEvent.elim s s.closeEvent
        else
          s
      (.success, { s with threads := Function.update s.threads thread none })

/-- The tries of `StartupThisAP` in `ThreadingRunThread`. -/
def startupThisAP : Nat → List EfiStatus → EfiStatus × List EfiStatus
  | 0, answers => (.notReady, answers)
  | retries + 1, answers =>
    let (status, later) := answer answers
    if status = .notReady then startupThisAP retries later else (status, later)

def runThread (s : System) (services : Services) (thread cpuId : Nat) :
    EfiStatus × System × Services :=
  if s.bspCpuId = cpuId then
    (.invalidParameter, s, services)
  else
    let s := s.modifyCpu cpuId fun info => { info with state := .busy }
    let s := s.modifyThread thread fun t => { t with state := .starting }
    let (status, createEvent) := answer services.createEvent
    if status.isError then
      -- the thread stays as it is, in no queue
      (status, s.modifyCpu cpuId fun info => { info with state := .idle },
        { services with createEvent := createEvent })
    else
      let event := s.nextEvent
      let s := { s with events := s.events ++ [(event, thread)], nextEvent := event + 1 }
      let s := s.modifyThread thread fun t => { t with finishedEvent := some event }
      let (status, answers) := startupThisAP threadingCpuRetryCount services.startupThisAP
      let services : Services := ⟨createEvent, answers⟩
      if status = .notReady then
        let s := s.modifyThread thread fun t => { t with state := .spawned }
        let s := s.closeEvent event
        (status, s.modifyCpu cpuId fun info => { info with state := .timeout }, services)
      else if status.isError then
        let s := (s.cleanupThread thread).2
        (status, s.modifyCpu cpuId fun info => { info with state := .idle }, services)
      else
        let s := { s with aps := Function.update s.aps cpuId (s.aps cpuId ++ [(thread, event)]) }
        let s := s.modifyThread thread fun t => { t with cpuId := cpuId }
        let s := s.modifyCpu cpuId fun info => { info with currentThread := some thread }
        (.success, s.modifyThread thread fun t => { t with state := .ready }, services)

/-- The loop of `ThreadingQueueNextThread`; `none` when the fuel does not last. -/
def queueLoop : Nat → System → Services → Option System
  | 0, _, _ => none
  | fuel + 1, s, services =>
    match s.findFreeCpu with
    | none => some s
    | some cpuId =>
      match s.threadsQueued with
      | [] => some s
      | thread :: later =>
        let (status, s, services) :=
          runThread { s with threadsQueued := later } services thread cpuId
        if status = .notReady then
          queueLoop fuel { s with threadsQueued := s.threadsQueued ++ [thread] } services
        else if status.isError then
          some s
        else
          queueLoop fuel s services

/-- `ThreadingQueueNextThread`. Each turn takes a thread from the queue or an answer. -/
def queueNextThread (s : System) (services : Services) : Option System :=
  queueLoop (s.threadsQueued.length + services.startupThisAP.length + 1) s services

/-- `ThreadingSpawnThread`; `pool` is whether the object can be allocated. -/
def spawnThread (s : System) (request : Request) (pool : Bool) (services : Services) :
    Option (EfiStatus × System) :=
  if request.threadProcedure = 0 then
    some (.invalidParameter, s)
  else if pool then
    let thread := s.nextThread
    let object : Thread :=
      { state := .spawned
        procedure := request.threadProcedure
        procedureArgument := request.threadArgument
        finishedEvent := none
        onThreadExit := request.onThreadExit
        onThreadExitArgument := request.onThreadExitArgument
        timeout := request.threadTimeout
        cpuId := 0 }
    let s := { s with
      threads := Function.update s.threads thread (some object)
      nextThread := thread + 1 }
    let s := s.record (.spawned thread request)
    let s := { s with threadsQueued := s.threadsQueued ++ [thread] }
    (s.queueNextThread services).map fun s => (.success, s)
  else
    some (.outOfResources, s)

def genericOnThreadExit (s : System) (services : Services) (event thread : Nat) : Option System :=
  let s := s.closeEvent event
  let s := s.modifyThread thread fun t => { t with finishedEvent := none }
  match s.threads thread with
  | none => none
  | some t =>
    let s :=
      if t.onThreadExit ≠ 0 then
        s.record (.onThreadExit thread t.onThreadExit t.onThreadExitArgument)
      else
        s
    let s := s.modifyThread thread fun t => { t with state := .finished }
    -- closed a second time
    let s := s.closeEvent event
    let s := s.modifyCpu t.cpuId fun info => { info with state := .idle }
    s.queueNextThread services

end System

/-- What can happen: calls of the driver, a processor that sees its thread ready, and one that
completes it or is stopped by its timeout. -/
inductive Event where
  | spawn (request : Request) (pool : Bool) (services : Services)
  | procedure (cpuId : Nat)
  | exit (cpuId : Nat) (services : Services)
  | cleanup (thread : Nat)

def step (event : Event) (s : System) : Option System :=
  match event with
  | .spawn request pool services => (s.spawnThread request pool services).map Prod.snd
  | .procedure cpuId =>
    -- `ThreadingGenericProcedure` has waited for its thread to be ready
    match s.aps cpuId with
    | [] => none
    | (thread, _) :: _ =>
      match s.threads thread with
      | none => none
      | some t =>
        if t.state = .ready then
          some ((s.modifyThread thread fun t => { t with state := .running }).record
            (.procedure thread t.procedure t.procedureArgument))
        else
          none
  | .exit cpuId services =>
    match s.aps cpuId with
    | [] => none
    | (_, event) :: later =>
      let s := { s with aps := Function.update s.aps cpuId later }
      match s.events.find? fun e => e.1 = event with
      | none => some s
      | some (_, context) => s.genericOnThreadExit services event context
  | .cleanup thread =>
    match s.threads thread with
    | none => none
    | some t =>
      if t.state = .finished then
        some ((s.cleanupThread thread).2.record (.cleaned thread))
      else
        none

/-- `ThreadingInitCores`, with at least two processors enabled. -/
def initCores (cpuCount bspCpuId : Nat) : System where
  cpuCount := cpuCount
  cpuInfo := fun i =>
    { cpuId := i
      currentThread := none
      state := if i = bspCpuId then .bsp else .idle
      initialized := true }
  threadsQueued := []
  bspCpuId := bspCpuId
  threads := fun _ => none
  nextThread := 0
  events := []
  nextEvent := 0
  aps := fun _ => []
  log := []

end Threading
