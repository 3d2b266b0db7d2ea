import Edk2Nvidia.Pldm.OrderKept

/-! A device that accepts every request and completes every phase, and how a task gets on
with it from one request to the next. -/
namespace Pldm
open Flash Parse Transition

/-- The plan for a device that has this record in the package and answers
`GetFirmwareParameters` with `table`. -/
def planOf (pkg : Memory) (record : Nat) (table : List UInt8) : Plan :=
  ⟨pkg, record, overwrite (fun _ => 0) 0 table⟩

/-- What an answer to the request `command` has to say, and in how many bytes. -/
structure Agrees (pkg : Memory) (record : Nat) (table : List UInt8) (command : UInt8)
    (message : List UInt8) (buffer : Memory) : Prop where
  identifies : command = Command.queryDeviceIds →
    (fwQueryDeviceIdsCheckRsp buffer message.length).isError = false ∧
      (matchesFD (QueryDeviceIds.count buffer) buffer QueryDeviceIds.descriptors).value pkg = some record
  parameters : command = Command.getFwParams →
    (fwGetFwParamsCheckRsp buffer message.length).isError = false ∧ message.length ≤ fwParamsSize ∧
      message = table
  grants : command = Command.requestUpdate →
    completionCode buffer = Completion.success ∧ message.length = 8 ∧ le16 buffer 5 = 0 ∧ buffer 7 = 0
  takes : command = Command.passComponentTable →
    completionCode buffer = Completion.success ∧ message.length = 7 ∧ buffer 5 = 0
  updates : command = Command.updateComponent →
    completionCode buffer = Completion.success ∧ message.length = 13 ∧ buffer 5 = 0

instance (pkg : Memory) (record : Nat) (table : List UInt8) (command : UInt8) (message : List UInt8)
    (buffer : Memory) : Decidable (Agrees pkg record table command message buffer) :=
  decidable_of_iff
    ((command = Command.queryDeviceIds →
        (fwQueryDeviceIdsCheckRsp buffer message.length).isError = false ∧
          (matchesFD (QueryDeviceIds.count buffer) buffer QueryDeviceIds.descriptors).value pkg =
            some record) ∧
      (command = Command.getFwParams →
        (fwGetFwParamsCheckRsp buffer message.length).isError = false ∧
          message.length ≤ fwParamsSize ∧ message = table) ∧
      (command = Command.requestUpdate →
        completionCode buffer = Completion.success ∧ message.length = 8 ∧ le16 buffer 5 = 0 ∧
          buffer 7 = 0) ∧
      (command = Command.passComponentTable →
        completionCode buffer = Completion.success ∧ message.length = 7 ∧ buffer 5 = 0) ∧
      (command = Command.updateComponent →
        completionCode buffer = Completion.success ∧ message.length = 13 ∧ buffer 5 = 0))
    ⟨fun h => ⟨h.1, h.2.1, h.2.2.1, h.2.2.2.1, h.2.2.2.2⟩,
      fun h => ⟨h.identifies, h.parameters, h.grants, h.takes, h.updates⟩⟩

/-- What completes a phase, or asks for data in the first one. -/
def Completes (fdState : FDState) (message : List UInt8) : Prop :=
  match fdState with
  | .download => commandOf message = Command.requestFwData ∨
    commandOf message = Command.transferComplete ∧ 5 ≤ message.length ∧ message.getD 4 0 = 0
  | .verify => commandOf message = Command.verifyComplete ∧ 5 ≤ message.length ∧ message.getD 4 0 = 0
  | .apply => commandOf message = Command.applyComplete ∧ 7 ≤ message.length ∧
    (message.getD 4 0 = applyResultSuccess ∨ message.getD 4 0 = applyResultSuccessNewActivation)
  | _ => False

instance (fdState : FDState) (message : List UInt8) : Decidable (Completes fdState message) :=
  match fdState with
  | .download => inferInstanceAs (Decidable (_ ∨ _))
  | .verify => inferInstanceAs (Decidable (_ ∧ _))
  | .apply => inferInstanceAs (Decidable (_ ∧ _))
  | .idle | .learnComponents | .readyXfer | .activate => inferInstanceAs (Decidable False)

/-- The message a device sends that accepts the outstanding request, or that completes the
phase it is in; in the first phase it may ask for data before that. -/
def Expected (pkg : Memory) (record : Nat) (table : List UInt8) (task : Task) (message : List UInt8)
    (msgTag : UInt8) : Prop :=
  message.getD 0 0 = mctpTypePldm ∧ message.getD 2 0 = pldmTypeFwUpdate ∧ Common.size ≤ message.length ∧
    if task.requestIsActive then
      message.getD 1 0 &&& pldmRq = 0 ∧
        (validateResponse task.request (overwrite task.recvBuffer 0 message) message.length
          task.requestMsgTag msgTag).isError = false ∧
        Agrees pkg record table (Common.command task.request) message
          (overwrite task.recvBuffer 0 message)
    else
      message.getD 1 0 &&& pldmRq ≠ 0 ∧ Completes task.fdState message

instance (pkg : Memory) (record : Nat) (table : List UInt8) (task : Task) (message : List UInt8)
    (msgTag : UInt8) : Decidable (Expected pkg record table task message msgTag) :=
  inferInstanceAs (Decidable (_ ∧ _ ∧ _ ∧ if task.requestIsActive then _ else _))

/-- What a step with an accepting device may bring: nothing is cancelled, everything can be
sent, no timer runs out, and only the expected message comes. -/
def Accepts (pkg : Memory) (record : Nat) (table : List UInt8) (s : Session) (event : Input × Globals) :
    Prop :=
  event.2.cancelAllUpdates = false ∧ event.1.sendStatus.isError = false ∧
    (s.task.taskState = .receive →
      match event.1.recv with
      | .timeout => s.task.requestFwDataTimer.isExpired event.1.nowNs = false ∧
        s.task.rspTimer.isExpired event.1.nowNs = false
      | .error => True
      | .message bytes msgTag _ => Expected pkg record table s.task bytes msgTag)

instance (pkg : Memory) (record : Nat) (table : List UInt8) (s : Session) (event : Input × Globals) :
    Decidable (Accepts pkg record table s event) :=
  have : Decidable (match event.1.recv with
      | .timeout => s.task.requestFwDataTimer.isExpired event.1.nowNs = false ∧
        s.task.rspTimer.isExpired event.1.nowNs = false
      | .error => True
      | .message bytes msgTag _ => Expected pkg record table s.task bytes msgTag) :=
    match event.1.recv with
    | .timeout => inferInstanceAs (Decidable (_ ∧ _))
    | .error => inferInstanceAs (Decidable True)
    | .message .. => inferInstanceAs (Decidable (Expected ..))
  inferInstanceAs (Decidable (_ ∧ _ ∧ (_ → _)))

/-- The answer comes, or the end of the phase. -/
def Delivers (s : Session) (event : Input × Globals) : Prop :=
  s.task.taskState = .receive ∧
    match event.1.recv with
    | .message bytes _ _ => s.task.requestIsActive = true ∨ commandOf bytes ≠ Command.requestFwData
    | _ => False

instance (s : Session) (event : Input × Globals) : Decidable (Delivers s event) :=
  have : Decidable (match event.1.recv with
      | .message bytes _ _ => s.task.requestIsActive = true ∨ commandOf bytes ≠ Command.requestFwData
      | _ => False) :=
    match event.1.recv with
    | .message .. => inferInstanceAs (Decidable (_ ∨ _))
    | .timeout | .error => inferInstanceAs (Decidable False)
  inferInstanceAs (Decidable (_ ∧ _))

/-- The sequence of events of a device that accepts every request and completes every phase:
whenever the task waits for it, it delivers at some time. -/
structure AcceptingDevice (pkg : Memory) (record : Nat) (table : List UInt8) (pkgLen : Nat)
    (events : Nat → Input × Globals) : Prop where
  accepts : ∀ n s, trace Session.advance events (Session.create pkg pkgLen) n = some s →
    Accepts pkg record table s (events n)
  delivers : ∀ n s, trace Session.advance events (Session.create pkg pkgLen) n = some s →
    s.task.taskState = .receive → ∃ m s', n ≤ m ∧
      trace Session.advance events (Session.create pkg pkgLen) m = some s' ∧ Delivers s' (events m)

/-- The requests that went out, without what all of them start with. -/
def requestsOf (log : List Entry) : List (List UInt8) :=
  log.filterMap fun entry =>
    match entry with
    | .sent sent => if sent.isRequest then some (sent.message.drop 3) else none
    | .received _ => none

theorem requestsOf_append (log later : List Entry) :
    requestsOf (log ++ later) = requestsOf log ++ requestsOf later :=
  List.filterMap_append

structure Progress where
  cursor : Cursor
  fdState : FDState
  numUpdateComponents : Nat
  updateComponentIndex : Nat
  complete : Bool

def Task.progress (task : Task) : Progress where
  cursor := task.cursor
  fdState := task.fdState
  numUpdateComponents := task.numUpdateComponents
  updateComponentIndex := task.updateComponentIndex
  complete := task.complete

/-! Responses that agree. -/

section
variable {input : Input} {globals : Globals} {task : Task}
variable (hc : globals.cancelAllUpdates = false)
  (hcode : completionCode task.recvBuffer = Completion.success)
include hc hcode

theorem requestUpdateProcessRsp_agreed (hlength : task.recvLength = 8)
    (hdata : le16 task.recvBuffer 5 = 0) (hget : task.recvBuffer 7 = 0) :
    requestUpdateProcessRsp input globals task = some
      { next := .passComponentTableSetupReq, task := task.setFDState .learnComponents, globals } := by
  have hcheck := fwCheckRspCompletionAndLength_success.mpr ⟨hcode, hlength⟩
  rw [requestUpdateProcessRsp, unlessCancelled_of_not hc]
  simp only [hcheck, hdata, hget, Bool.false_eq_true, if_false, gt_iff_lt, Nat.lt_irrefl, ne_eq,
    not_true_eq_false, or_self]

theorem passComponentTableProcessRsp_agreed (hlength : task.recvLength = 7)
    (hresponse : task.recvBuffer 5 = 0) :
    passComponentTableProcessRsp input globals task = some
      { next := .passComponentTableNextComponent, task, globals } := by
  have hcheck := fwCheckRspCompletionAndLength_success.mpr ⟨hcode, hlength⟩
  rw [passComponentTableProcessRsp, unlessCancelled_of_not hc]
  simp only [hcheck, hresponse, Bool.false_eq_true, if_false, ne_eq, not_true_eq_false]

theorem updateComponentProcessRsp_agreed (hlength : task.recvLength = 13)
    (hresponse : task.recvBuffer 5 = 0) :
    updateComponentProcessRsp input globals task = some
      { next := .waitForRequests, globals
        task := { task with
          fdState := .download
          requestFwDataTimer := startTimer input.nowNs
            (le16 task.recvBuffer 11 + pldmFwUaT2MsMax) } } := by
  have hcheck := fwCheckRspCompletionAndLength_success.mpr ⟨hcode, hlength⟩
  rw [updateComponentProcessRsp, unlessCancelled_of_not hc]
  simp only [hcheck, hresponse, Bool.false_eq_true, if_false, ne_eq, not_true_eq_false]

end

section
variable {pkg : Memory} {record : Nat} {table : List UInt8} {pkgLen : Nat}
  {events : Nat → Input × Globals}

/-- From index `n` on, the session gets to where `Q` holds. -/
abbrev Gets (pkg : Memory) (pkgLen : Nat) (events : Nat → Input × Globals) (n : Nat)
    (Q : Session → Prop) : Prop :=
  Reaches Session.advance events (Session.create pkg pkgLen) n Q

abbrev At (pkg : Memory) (pkgLen : Nat) (events : Nat → Input × Globals) (n : Nat) : Option Session :=
  trace Session.advance events (Session.create pkg pkgLen) n

variable {n : Nat} {s : Session}

theorem gets_next {Q : Session → Prop} {state : TaskState} {outcome : Outcome}
    (h : At pkg pkgLen events n = some s) (running : s.task.complete = false)
    (hstate : s.task.taskState = state)
    (hbody : handler state (events n).1 (events n).2 s.task = some outcome)
    (later : At pkg pkgLen events (n + 1) = some (s.after (events n).1 outcome) →
      Gets pkg pkgLen events (n + 1) Q) : Gets pkg pkgLen events n Q :=
  Reaches.next h (advance_eq running (hstate ▸ hbody)) later

/-- The task waits for the answer to its request. -/
structure Waiting (task : Task) (requests : List (List UInt8)) (s : Session) : Prop where
  state : s.task.taskState = .receive
  active : s.task.requestIsActive = true
  progress : s.task.progress = task.progress
  request : s.task.request = task.request
  respond : s.task.processResponseState = task.processResponseState
  log : requestsOf s.log = requests

/-- The task has got an answer that agrees. -/
structure Agreed (pkg : Memory) (record : Nat) (table : List UInt8) (task : Task)
    (requests : List (List UInt8)) (s : Session) : Prop where
  state : s.task.taskState = task.processResponseState
  idle : s.task.requestIsActive = false
  progress : s.task.progress = task.progress
  log : requestsOf s.log = requests
  agrees : ∃ message, s.task.recvLength = message.length ∧
    slice s.task.recvBuffer 0 message.length = message ∧
      Agrees pkg record table (Common.command task.request) message s.task.recvBuffer

theorem Waiting.running {task : Task} {requests : List (List UInt8)} (h : Waiting task requests s)
    (running : task.complete = false) : s.task.complete = false :=
  (congrArg Progress.complete h.progress).trans running

theorem requestsOf_after (s : Session) (input : Input) (outcome : Outcome) :
    requestsOf (s.after input outcome).log =
      requestsOf s.log ++ requestsOf (outcome.sent.map .sent) := by
  have hheard : requestsOf (heard input s.task) = [] := by
    unfold heard
    split
    · rfl
    · rfl
  rw [Session.after, requestsOf_append, requestsOf_append, hheard, List.nil_append]

theorem requestsOf_quiet {s : Session} {input : Input} {outcome : Outcome} (silent : outcome.sent = []) :
    requestsOf (s.after input outcome).log = requestsOf s.log := by
  rw [requestsOf_after, silent]
  exact List.append_nil _

variable (device : AcceptingDevice pkg record table pkgLen events)
include device

theorem receive_or_wait (h : At pkg pkgLen events n = some s) (running : s.task.complete = false)
    (hstate : s.task.taskState = .receive) :
    (∃ bytes msgTag, ∃ fits : bytes.length ≤ recvBufferSize,
      (events n).1.recv = .message bytes msgTag fits ∧
        Expected pkg record table s.task bytes msgTag) ∨
      ¬ Delivers s (events n) ∧ s.advance (events n) = some (s.after (events n).1
        { next := .receive, task := { s.task with recvLength := recvBufferSize }, globals := (events n).2 }) := by
  obtain ⟨-, -, hrecv⟩ := device.accepts n s h
  have hrecv := hrecv hstate
  have hhandler : handler s.task.taskState (events n).1 (events n).2 s.task =
      receive (events n).1 (events n).2 s.task := by
    rw [hstate]
    rfl
  cases hin : (events n).1.recv with
  | timeout =>
    rw [hin] at hrecv
    have hbody : receive (events n).1 (events n).2 s.task = _ := receive_timeout hin
    simp only [hrecv.1, hrecv.2, Bool.false_eq_true, if_false] at hbody
    refine .inr ⟨fun h => ?_, advance_eq running (hhandler.trans hbody)⟩
    rw [Delivers, hin] at h
    exact h.2
  | error =>
    refine .inr ⟨fun h => ?_, advance_eq running (hhandler.trans (receive_error hin))⟩
    rw [Delivers, hin] at h
    exact h.2
  | message bytes msgTag fits =>
    rw [hin] at hrecv
    exact .inl ⟨bytes, msgTag, fits, rfl, hrecv⟩

theorem gets_answer {task : Task} {requests : List (List UInt8)} (running : task.complete = false)
    (h : At pkg pkgLen events n = some s) (waiting : Waiting task requests s) :
    Gets pkg pkgLen events n (Agreed pkg record table task requests) := by
  obtain ⟨k, s, hk, h, waiting, hdelivers⟩ := Reaches.wait Delivers h waiting
    (by
      rintro k s h waiting hnot
      rcases receive_or_wait device h (waiting.running running) waiting.state with
        ⟨bytes, msgTag, fits, hin, -⟩ | ⟨-, hstep⟩
      · refine absurd ⟨waiting.state, ?_⟩ hnot
        rw [hin]
        exact .inl waiting.active
      · refine ⟨_, hstep, rfl, waiting.active, waiting.progress, waiting.request, waiting.respond, ?_⟩
        exact (requestsOf_quiet rfl).trans waiting.log)
    (by
      obtain ⟨m, s', hm, h', hdelivers⟩ := device.delivers n s h waiting.state
      refine ⟨m, hm, fun s'' h'' _ => ?_⟩
      cases h'.symm.trans h''
      exact hdelivers)
  refine Reaches.later ?_ hk
  rcases receive_or_wait device h (waiting.running running) waiting.state with
    ⟨bytes, msgTag, fits, hin, hmctp, hpldm, hlength, hexpected⟩ | ⟨hnot, -⟩
  · rw [if_pos waiting.active] at hexpected
    obtain ⟨hresponse, hvalid, hagrees⟩ := hexpected
    have hbody : receive (events k).1 (events k).2 s.task = some
        { next := .processRsp, task := s.task.withMessage bytes msgTag, globals := (events k).2 } := by
      rw [receive_message hin, if_neg (Nat.not_lt.mpr hlength), dispatch_overwrite hlength,
        if_neg (fun h => h.1 hmctp), if_neg (fun h => h hresponse)]
    refine gets_next h (waiting.running running) waiting.state hbody fun h => ?_
    have hprocess : processRsp (events (k + 1)).1 (events (k + 1)).2
        { s.task.withMessage bytes msgTag with taskState := .processRsp } = _ :=
      (if_neg (by rw [Task.withMessage, waiting.active]; decide)).trans (if_neg (by
        rw [Task.withMessage, hvalid]
        decide))
    refine gets_next h (waiting.running running) rfl hprocess fun h => ?_
    refine Reaches.now h ⟨waiting.respond, rfl, waiting.progress, ?_, bytes, rfl, ?_, ?_⟩
    · rw [requestsOf_quiet rfl, requestsOf_quiet rfl]
      exact waiting.log
    · exact holds_overwrite s.task.recvBuffer 0 bytes
    · rw [← waiting.request]
      exact hagrees
  · exact absurd hdelivers hnot

theorem gets_sent (h : At pkg pkgLen events n = some s) (running : s.task.complete = false)
    (hstate : s.task.taskState = .sendReq) {instanceId command : UInt8} {payload : List UInt8}
    (hmessage : slice s.task.request 0 s.task.requestLength =
      fwFillCommon true instanceId command ++ payload) :
    Gets pkg pkgLen events n
      (fun s' => requestsOf s'.log = requestsOf s.log ++ [command :: payload]) := by
  obtain ⟨-, hsend, -⟩ := device.accepts n s h
  have hbody : sendReq (events n).1 (events n).2 s.task = _ := if_neg (by rw [hsend]; decide)
  refine gets_next h running hstate hbody fun h => Reaches.now h ?_
  rw [requestsOf_after, hmessage]
  rfl

theorem gets_exchange (h : At pkg pkgLen events n = some s) (running : s.task.complete = false)
    (hstate : s.task.taskState = .sendReq) {instanceId command : UInt8} {payload : List UInt8}
    (hmessage : slice s.task.request 0 s.task.requestLength =
      fwFillCommon true instanceId command ++ payload) :
    Gets pkg pkgLen events n
      (Agreed pkg record table s.task (requestsOf s.log ++ [command :: payload])) := by
  obtain ⟨-, hsend, -⟩ := device.accepts n s h
  have hbody : sendReq (events n).1 (events n).2 s.task = _ := if_neg (by rw [hsend]; decide)
  refine gets_next h running hstate hbody fun h => ?_
  refine gets_answer device running h ⟨rfl, rfl, rfl, rfl, rfl, ?_⟩
  rw [requestsOf_after, hmessage]
  rfl

theorem gets_request_next {state respond : TaskState} {task : Task} {command : UInt8}
    {payload : List UInt8} (h : At pkg pkgLen events n = some s) (running : s.task.complete = false)
    (hstate : s.task.taskState = state)
    (hbody : handler state (events n).1 (events n).2 s.task = some
      { next := .sendReq, task := sendReqSetup task command payload respond
        globals := (events n).2 })
    (running' : task.complete = false) :
    Gets pkg pkgLen events (n + 1) (Agreed pkg record table (sendReqSetup task command payload respond)
      (requestsOf s.log ++ [command :: payload])) := by
  have hnext : At pkg pkgLen events (n + 1) = some _ :=
    (trace_succ h).trans (advance_from running hstate hbody)
  have hexchange := gets_exchange device hnext running' rfl
    (sendReqSetup_message task command payload respond)
  rw [requestsOf_quiet rfl] at hexchange
  exact hexchange.mono fun s' h => ⟨h.state, h.idle, h.progress, h.log, h.agrees⟩

theorem gets_request {state respond : TaskState} {task : Task} {command : UInt8}
    {payload : List UInt8} (h : At pkg pkgLen events n = some s) (running : s.task.complete = false)
    (hstate : s.task.taskState = state)
    (hbody : handler state (events n).1 (events n).2 s.task = some
      { next := .sendReq, task := sendReqSetup task command payload respond
        globals := (events n).2 })
    (running' : task.complete = false) :
    Gets pkg pkgLen events n (Agreed pkg record table (sendReqSetup task command payload respond)
      (requestsOf s.log ++ [command :: payload])) :=
  (gets_request_next device h running hstate hbody running').later (Nat.le_succ n)

end

end Pldm
