import Edk2Nvidia.Pldm.Session

/-! What holds of a session whose device keeps to the order of the phases: the invariant
and the conditions it rests on. -/
namespace Pldm
open Flash Parse Transition

/-! The condition on the device's messages. -/

/-- One of the type fields names a firmware update message, and the other does not. -/
def HalfTyped (message : List UInt8) : Prop :=
  Common.size ≤ message.length ∧
    ¬ (message.getD 0 0 = mctpTypePldm ↔ message.getD 2 0 = pldmTypeFwUpdate)

/-- The state a device is in when it sends the request this state handles. -/
def due : TaskState → Option FDState
  | .requestFwDataHandleReq | .transferCompleteHandleReq => some .download
  | .verifyCompleteHandleReq => some .verify
  | .applyCompleteHandleReq => some .apply
  | _ => none

/-- The request about to be handled belongs to the state the device is held to be in. -/
def Timely (task : Task) : Prop := ∀ fdState ∈ due task.taskState, task.fdState = fdState

/-- The device keeps to the order: its messages are of this protocol or of another one
altogether, and unless everything has been cancelled it reports the end of a phase when the
task is in that phase. -/
def InOrder (s : Session) (event : Input × Globals) : Prop :=
  (∀ entry ∈ heard event.1 s.task, ¬ Receives HalfTyped entry) ∧
  (event.2.cancelAllUpdates = false → s.task.taskState ≠ .requestFwDataHandleReq → Timely s.task)

instance : DecidablePred HalfTyped :=
  fun message => inferInstanceAs (Decidable (Common.size ≤ message.length ∧ ¬ (_ ↔ _)))

instance (task : Task) : Decidable (Timely task) :=
  inferInstanceAs (Decidable (∀ fdState ∈ due task.taskState, _))

instance (s : Session) (event : Input × Globals) : Decidable (InOrder s event) :=
  inferInstanceAs (Decidable ((∀ entry ∈ heard event.1 s.task, _) ∧ _))

/-! Where a task is. -/

/-- The states all requests and responses go through. -/
def shared : TaskState → Bool
  | .sendReq | .receive | .processRsp | .retryReq | .waitForRequests | .requestFwDataHandleReq
  | .transferCompleteHandleReq | .verifyCompleteHandleReq | .applyCompleteHandleReq => true
  | _ => false

/-- What the task is about: its state, or the one it will take the next response to. -/
def focus (task : Task) : TaskState :=
  if shared task.taskState then task.processResponseState else task.taskState

/-- The states that look at the message received last. -/
def hearing : TaskState → Bool
  | .processRsp | .requestFwDataHandleReq | .transferCompleteHandleReq | .verifyCompleteHandleReq
  | .applyCompleteHandleReq | .queryDeviceIdentifiersProcessRsp | .getFwParamsProcessRsp
  | .requestUpdateProcessRsp | .passComponentTableProcessRsp | .updateComponentProcessRsp
  | .activateFwProcessRsp | .cancelUpdateComponentProcessRsp | .cancelUpdateProcessRsp => true
  | _ => false

/-- The states of a task that gives up. -/
def cancelling : TaskState → Bool
  | .cancelUpdateComponentSetupReq | .cancelUpdateComponentProcessRsp | .cancelUpdateSetupReq
  | .cancelUpdateProcessRsp => true
  | _ => false

/-- The request whose response a state takes. Before the first one, the buffer is zeroed. -/
def commandFor : TaskState → Option UInt8
  | .start => some 0
  | .queryDeviceIdentifiersProcessRsp => some Command.queryDeviceIds
  | .getFwParamsProcessRsp => some Command.getFwParams
  | .requestUpdateProcessRsp => some Command.requestUpdate
  | .passComponentTableProcessRsp => some Command.passComponentTable
  | .updateComponentProcessRsp => some Command.updateComponent
  | .activateFwProcessRsp => some Command.activateFw
  | .cancelUpdateComponentProcessRsp => some Command.cancelUpdateComponent
  | .cancelUpdateProcessRsp => some Command.cancelUpdate
  | _ => none

/-- The message answers the request whose response the state takes. -/
structure Answered (task : Task) (state : TaskState) (command : UInt8) (message : List UInt8) : Prop where
  settled : task.requestIsActive = false
  state : task.processResponseState = state
  answers : Answers command message

/-- What the message is taken for, by the state that looks at it. -/
def HeardAs (task : Task) (message : List UInt8) : TaskState → Prop
  | .processRsp => ¬ IsRequest message
  | .requestFwDataHandleReq => True
  | .transferCompleteHandleReq =>
    IsRequest message ∧ commandOf message = Command.transferComplete
  | .verifyCompleteHandleReq => IsRequest message ∧ commandOf message = Command.verifyComplete
  | .applyCompleteHandleReq => IsRequest message ∧ commandOf message = Command.applyComplete
  | state => Answered task state (Common.command task.request) message

structure Heard (task : Task) (message : List UInt8) : Prop where
  length : task.recvLength = message.length
  buffer : ∀ a < message.length, task.recvBuffer a = message.getD a 0
  header : Common.size ≤ message.length
  genuine : Genuine message

def Granted (log : List Entry) : Prop :=
  ∃ entry ∈ log, Receives (AnswersSuccess Command.requestUpdate) entry

/-- The device answered the activation, one way or the other. -/
def Activated (log : List Entry) : Prop :=
  ∃ entry ∈ log, Receives (Answers Command.activateFw) entry

/-- The device is idle, and nothing has been activated. -/
def Fresh (task : Task) (log : List Entry) : Prop :=
  task.fdState = .idle ∧ ∀ entry ∈ log, ¬ IsActivateRequest entry

/-- How far the device is with the current component, by the state it is held to be in. -/
def Reached (plan : Plan) (i k : Nat) (log : List Entry) : FDState → Prop
  | .download => Accepted plan i k log
  | .verify => Transferred plan i k log
  | .apply => Verified plan i k log
  | _ => False

/-- The current image is for the current component, the first it is for, and all images
before it are installed. -/
structure AtPair (plan : Plan) (cursor : Cursor) (log : List Entry) : Prop where
  setUp : SetUp plan cursor
  pair : plan.IsPair cursor.componentImageIndex cursor.fwParamsComponentIndex
  first : ∀ k < cursor.fwParamsComponentIndex, plan.compatible cursor.componentImageIndex k = false
  before : ∀ i < cursor.componentImageIndex, Covered plan i log

def Busy (task : Task) : Prop :=
  task.fdState = .download ∨ task.fdState = .verify ∨ task.fdState = .apply

/-- The device is at work on the current component. -/
def AtWork (task : Task) (log : List Entry) : Prop :=
  Granted log ∧ ∃ plan, AtPair plan task.cursor log ∧
    Reached plan task.componentImageIndex task.fwParamsComponentIndex log task.fdState

/-- The component has been, or is about to be, offered to the device. -/
def Pending (task : Task) (log : List Entry) : Prop :=
  Granted log ∧ task.fdState = .readyXfer ∧
    ∃ plan, AtPair plan task.cursor log ∧
      (∃ instanceId, slice task.request 0 task.requestLength =
        fwFillCommon true instanceId Command.updateComponent ++
          plan.updateRequest task.componentImageIndex task.fwParamsComponentIndex) ∧
      (task.taskState = .sendReq ∨
        Offered plan task.componentImageIndex task.fwParamsComponentIndex log)

def Settled (task : Task) : Prop :=
  task.requestIsActive = false ∧ task.taskState ≠ .sendReq ∧ task.taskState ≠ .retryReq ∧
    task.taskState ≠ .updateComponentProcessRsp

def Complete (task : Task) (log : List Entry) : Prop :=
  ∃ plan, Planned plan task.cursor ∧ AllCovered plan log

/-- The update was granted, and everything is installed. -/
def Ready (task : Task) (log : List Entry) : Prop :=
  Granted log ∧ Complete task log

/-- What is known of a task, by what it is about. -/
def Stage (task : Task) (log : List Entry) : TaskState → Prop
  | .start | .queryDeviceIdentifiersSetupReq | .queryDeviceIdentifiersProcessRsp => Fresh task log
  | .getFwParamsSetupReq | .getFwParamsProcessRsp =>
    Fresh task log ∧ ∃ record, task.deviceIdRecord = some record
  | .processPackage =>
    Fresh task log ∧ (∃ record, task.deviceIdRecord = some record) ∧
      ∃ response, task.getFwParamsResponse = some response
  | .requestUpdateSetupReq | .requestUpdateProcessRsp =>
    Fresh task log ∧ ∃ plan, SetUp plan task.cursor
  | .passComponentTableSetupReq | .passComponentTableProcessRsp
  | .passComponentTableNextComponent =>
    Granted log ∧ (task.fdState = .learnComponents ∨ task.fdState = .readyXfer) ∧
      ∃ plan, SetUp plan task.cursor
  | .updateComponentSetupReq =>
    Granted log ∧ task.fdState = .readyXfer ∧ task.fwParamsComponentIndex = 0 ∧
      ∃ plan, SetUp plan task.cursor ∧ ∀ i < task.componentImageIndex, Covered plan i log
  | .updateComponentProcessRsp => Pending task log ∨ AtWork task log ∧ Settled task
  | .nextComponent =>
    Granted log ∧ task.fdState = .readyXfer ∧ ∃ plan, SetUp plan task.cursor ∧
      (∀ i < task.componentImageIndex, Covered plan i log) ∧
      ∀ k ≤ task.fwParamsComponentIndex, plan.IsPair task.componentImageIndex k →
        Installed plan task.componentImageIndex k log
  | .activateFwSetupReq => task.fdState = .readyXfer ∧ Ready task log
  | .activateFwProcessRsp => task.fdState = .activate ∧ Ready task log
  | .cancelUpdateComponentSetupReq | .cancelUpdateComponentProcessRsp | .cancelUpdateSetupReq
  | .cancelUpdateProcessRsp => Busy task → AtWork task log
  | .complete =>
    task.status = .success →
      cancelling task.processResponseState = true ∨ Ready task log ∧ Activated log
  | .max =>
    task.complete = true ∧ (task.status = .success →
      cancelling task.processResponseState = true ∨ Ready task log ∧ Activated log)
  | .fatalError => True
  | _ => False

/-- The invariant. A state that looks at a message knows the stage from before it came. -/
structure Inv (s : Session) : Prop where
  activation : OnlyAfter IsActivateRequest (Complete s.task) s.log
  timer : s.task.requestIsActive = false → s.task.rspTimer.enabled = false
  command : commandFor s.task.processResponseState = some (Common.command s.task.request)
  stage : if hearing s.task.taskState then
      ∃ log message, s.log = log ++ [.received message] ∧ Heard s.task message ∧
        HeardAs s.task message s.task.taskState ∧ Stage s.task log (focus s.task)
    else
      Stage s.task s.log (focus s.task)

/-! Nothing is lost when harmless entries follow. -/

section
variable {plan : Plan} {i k : Nat} {task : Task} {log later : List Entry}

theorem Granted.append (h : Granted log) (later : List Entry) : Granted (log ++ later) := by
  obtain ⟨entry, hmem, hentry⟩ := h
  exact ⟨entry, List.mem_append_left _ hmem, hentry⟩

theorem Activated.append (h : Activated log) (later : List Entry) : Activated (log ++ later) := by
  obtain ⟨entry, hmem, hentry⟩ := h
  exact ⟨entry, List.mem_append_left _ hmem, hentry⟩

theorem Fresh.append (h : Fresh task log) (harmless : ∀ e ∈ later, Harmless e) :
    Fresh task (log ++ later) := by
  refine ⟨h.1, fun e he => ?_⟩
  rcases List.mem_append.mp he with he | he
  · exact h.2 e he
  · exact (harmless e he).2

theorem Reached.append {fdState : FDState} (h : Reached plan i k log fdState)
    (harmless : ∀ e ∈ later, Harmless e) : Reached plan i k (log ++ later) fdState := by
  cases fdState with
  | download => exact Since.append h fun e he => (harmless e he).1
  | verify => exact Since.append h fun e he => (harmless e he).1
  | apply => exact Since.append h fun e he => (harmless e he).1
  | _ => exact h

theorem AtPair.append {cursor : Cursor} (h : AtPair plan cursor log) (later : List Entry) :
    AtPair plan cursor (log ++ later) :=
  ⟨h.setUp, h.pair, h.first, fun i hi => (h.before i hi).append later⟩

theorem AtWork.append (h : AtWork task log) (harmless : ∀ e ∈ later, Harmless e) :
    AtWork task (log ++ later) := by
  obtain ⟨hgranted, plan, hpair, hreached⟩ := h
  exact ⟨hgranted.append _, plan, hpair.append _, hreached.append harmless⟩

theorem Pending.append (h : Pending task log) (harmless : ∀ e ∈ later, Harmless e) :
    Pending task (log ++ later) := by
  obtain ⟨hgranted, hfd, plan, hpair, hrequest, hoffered⟩ := h
  refine ⟨hgranted.append _, hfd, plan, hpair.append _, hrequest, ?_⟩
  exact hoffered.imp_right fun h => Since.append h fun e he => (harmless e he).1

theorem Ready.append (h : Ready task log) (later : List Entry) : Ready task (log ++ later) := by
  obtain ⟨hgranted, plan, hplanned, hall⟩ := h
  exact ⟨hgranted.append _, plan, hplanned, hall.append _⟩

theorem Stage.append {state : TaskState} (h : Stage task log state)
    (harmless : ∀ e ∈ later, Harmless e) : Stage task (log ++ later) state := by
  cases state with
  | start => exact Fresh.append h harmless
  | queryDeviceIdentifiersSetupReq => exact Fresh.append h harmless
  | queryDeviceIdentifiersProcessRsp => exact Fresh.append h harmless
  | getFwParamsSetupReq => exact ⟨h.1.append harmless, h.2⟩
  | getFwParamsProcessRsp => exact ⟨h.1.append harmless, h.2⟩
  | processPackage => exact ⟨h.1.append harmless, h.2⟩
  | requestUpdateSetupReq => exact ⟨h.1.append harmless, h.2⟩
  | requestUpdateProcessRsp => exact ⟨h.1.append harmless, h.2⟩
  | passComponentTableSetupReq => exact ⟨h.1.append _, h.2⟩
  | passComponentTableProcessRsp => exact ⟨h.1.append _, h.2⟩
  | passComponentTableNextComponent => exact ⟨h.1.append _, h.2⟩
  | updateComponentSetupReq =>
    obtain ⟨hgranted, hfd, hindex, plan, hsetUp, hbefore⟩ := h
    exact ⟨hgranted.append _, hfd, hindex, plan, hsetUp, fun i hi => (hbefore i hi).append _⟩
  | updateComponentProcessRsp =>
    exact h.imp (fun h => h.append harmless) fun h => ⟨h.1.append harmless, h.2⟩
  | nextComponent =>
    obtain ⟨hgranted, hfd, plan, hsetUp, hbefore, hcurrent⟩ := h
    exact ⟨hgranted.append _, hfd, plan, hsetUp, fun i hi => (hbefore i hi).append _,
      fun k hk hpair => (hcurrent k hk hpair).append _⟩
  | activateFwSetupReq => exact ⟨h.1, h.2.append _⟩
  | activateFwProcessRsp => exact ⟨h.1, h.2.append _⟩
  | cancelUpdateComponentSetupReq => exact fun busy => (h busy).append harmless
  | cancelUpdateComponentProcessRsp => exact fun busy => (h busy).append harmless
  | cancelUpdateSetupReq => exact fun busy => (h busy).append harmless
  | cancelUpdateProcessRsp => exact fun busy => (h busy).append harmless
  | complete => exact fun hok => (h hok).imp_right fun h => ⟨h.1.append _, h.2.append _⟩
  | max => exact ⟨h.1, fun hok => (h.2 hok).imp_right fun h => ⟨h.1.append _, h.2.append _⟩⟩
  | fatalError => trivial
  | _ => exact h

theorem harmless_heard (message : List UInt8) : ∀ e ∈ [Entry.received message], Harmless e := by
  intro e he
  cases List.mem_singleton.mp he
  exact harmless_received message

end

end Pldm
