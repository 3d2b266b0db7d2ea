import Edk2Nvidia.Pldm.Order
import Edk2Nvidia.Pldm.Walk

/-! Every state of the task keeps the invariant, as long as the device keeps to the
order. -/
namespace Pldm
open Flash Parse Transition

/-- The session gets on, and the invariant with it. -/
def Keeps (s : Session) (event : Input × Globals) : Prop :=
  ∃ s', s.advance event = some s' ∧ Inv s'

section
variable {s : Session} {event : Input × Globals} {state : TaskState} {outcome : Outcome}

theorem advance_eq (running : s.task.complete = false)
    (h : handler s.task.taskState event.1 event.2 s.task = some outcome) :
    s.advance event = some (s.after event.1 outcome) := by
  simp only [Session.advance, running, Bool.false_eq_true, if_false, Session.step, h]
  rfl

theorem advance_from (running : s.task.complete = false) (hstate : s.task.taskState = state)
    (h : handler state event.1 event.2 s.task = some outcome) :
    s.advance event = some (s.after event.1 outcome) :=
  advance_eq running (hstate ▸ h)

theorem heard_of_ne {input : Input} {task : Task} (h : task.taskState ≠ .receive) :
    heard input task = [] := by
  unfold heard
  split
  · rename_i hstate _
    exact absurd hstate h
  · rfl

/-! The stage, state by state. -/

theorem Inv.at (inv : Inv s) (hstate : s.task.taskState = state) (hhearing : hearing state = false)
    (hshared : shared state = false) : Stage s.task s.log state := by
  have h := inv.stage
  rw [focus, hstate, hhearing, hshared] at h
  exact h

/-- Between request and response, the stage is the one of the response. -/
theorem Inv.between (inv : Inv s) (hstate : s.task.taskState = state)
    (hhearing : hearing state = false) (hshared : shared state = true) :
    Stage s.task s.log s.task.processResponseState := by
  have h := inv.stage
  rw [focus, hstate, hhearing, hshared] at h
  exact h

theorem Inv.hears (inv : Inv s) (hstate : s.task.taskState = state)
    (hhearing : hearing state = true) :
    ∃ log message, s.log = log ++ [.received message] ∧ Heard s.task message ∧
      HeardAs s.task message state ∧ Stage s.task log (focus s.task) := by
  have h := inv.stage
  rw [hstate, hhearing] at h
  exact h

/-- The answer that is heard is one to the request that went out. -/
theorem Inv.answers (inv : Inv s) {message : List UInt8} {command : UInt8}
    (h : Answered s.task state (Common.command s.task.request) message)
    (hcommand : commandFor state = some command) : Answers command message := by
  have hsent := inv.command
  rw [h.state, hcommand] at hsent
  cases hsent
  exact h.answers

/-- In every state but the last ones, a busy device is at work on the current component. -/
theorem Stage.busy {task : Task} {log : List Entry} {state : TaskState}
    (h : Stage task log state) (running : state ≠ .complete ∧ state ≠ .max ∧ state ≠ .fatalError)
    (busy : Busy task) : AtWork task log := by
  have hnot : ∀ fd, task.fdState = fd → fd ≠ .download → fd ≠ .verify → fd ≠ .apply → False := by
    rintro fd hfd hd hv ha
    unfold Busy at busy
    rw [hfd] at busy
    exact busy.elim hd fun h => h.elim hv ha
  cases state with
  | start => exact (hnot _ h.1 nofun nofun nofun).elim
  | queryDeviceIdentifiersSetupReq => exact (hnot _ h.1 nofun nofun nofun).elim
  | queryDeviceIdentifiersProcessRsp => exact (hnot _ h.1 nofun nofun nofun).elim
  | getFwParamsSetupReq => exact (hnot _ h.1.1 nofun nofun nofun).elim
  | getFwParamsProcessRsp => exact (hnot _ h.1.1 nofun nofun nofun).elim
  | processPackage => exact (hnot _ h.1.1 nofun nofun nofun).elim
  | requestUpdateSetupReq => exact (hnot _ h.1.1 nofun nofun nofun).elim
  | requestUpdateProcessRsp => exact (hnot _ h.1.1 nofun nofun nofun).elim
  | passComponentTableSetupReq =>
    exact h.2.1.elim (fun h => (hnot _ h nofun nofun nofun).elim)
      fun h => (hnot _ h nofun nofun nofun).elim
  | passComponentTableProcessRsp =>
    exact h.2.1.elim (fun h => (hnot _ h nofun nofun nofun).elim)
      fun h => (hnot _ h nofun nofun nofun).elim
  | passComponentTableNextComponent =>
    exact h.2.1.elim (fun h => (hnot _ h nofun nofun nofun).elim)
      fun h => (hnot _ h nofun nofun nofun).elim
  | updateComponentSetupReq => exact (hnot _ h.2.1 nofun nofun nofun).elim
  | updateComponentProcessRsp =>
    exact h.elim (fun h => (hnot _ h.2.1 nofun nofun nofun).elim) fun h => h.1
  | nextComponent => exact (hnot _ h.2.1 nofun nofun nofun).elim
  | activateFwSetupReq => exact (hnot _ h.1 nofun nofun nofun).elim
  | activateFwProcessRsp => exact (hnot _ h.1 nofun nofun nofun).elim
  | cancelUpdateComponentSetupReq => exact h busy
  | cancelUpdateComponentProcessRsp => exact h busy
  | cancelUpdateSetupReq => exact h busy
  | cancelUpdateProcessRsp => exact h busy
  | complete => exact absurd rfl running.1
  | max => exact absurd rfl running.2.1
  | fatalError => exact absurd rfl running.2.2
  | _ => exact h.elim

/-- What a running task knows when it gives up, or goes on hearing. -/
theorem Inv.busy (inv : Inv s)
    (running : focus s.task ≠ .complete ∧ focus s.task ≠ .max ∧ focus s.task ≠ .fatalError)
    (busy : Busy s.task) : AtWork s.task s.log := by
  have h := inv.stage
  split at h
  · obtain ⟨log, message, hlog, -, -, hstage⟩ := h
    rw [hlog]
    exact (hstage.busy running busy).append (harmless_heard message)
  · exact h.busy running busy

/-! From a stage to the invariant. -/

theorem onlyAfter_append {P : List Entry → Prop} {log later : List Entry}
    (h : OnlyAfter IsActivateRequest P log) (quiet : ∀ e ∈ later, ¬ IsActivateRequest e) :
    OnlyAfter IsActivateRequest P (log ++ later) := by
  induction later generalizing log with
  | nil => rwa [List.append_nil]
  | cons entry later ih =>
    rw [show log ++ entry :: later = (log ++ [entry]) ++ later by simp]
    refine ih (h.append fun hentry => ?_) fun e he => quiet e (List.mem_cons_of_mem _ he)
    exact absurd hentry (quiet entry (List.mem_cons_self ..))

theorem onlyAfter_quiet {P : List Entry → Prop} {log : List Entry}
    (quiet : ∀ e ∈ log, ¬ IsActivateRequest e) : OnlyAfter IsActivateRequest P log := by
  have h := onlyAfter_append (OnlyAfter.nil IsActivateRequest P) quiet
  rwa [List.nil_append] at h

theorem Inv.planned {task : Task} (inv : Inv s)
    (h : ∀ plan, Planned plan s.task.cursor → Planned plan task.cursor) :
    OnlyAfter IsActivateRequest (Complete task) s.log :=
  inv.activation.mono fun _ ⟨plan, hplan, hall⟩ => ⟨plan, h plan hplan, hall⟩

/-- The request, what its response is for and its timer are left alone. -/
structure SameRequest (task task' : Task) : Prop where
  active : task'.requestIsActive = task.requestIsActive
  timer : task'.rspTimer = task.rspTimer
  request : task'.request = task.request
  processResponseState : task'.processResponseState = task.processResponseState

section
variable {task task' task'' : Task}

theorem SameRequest.trans (h : SameRequest task task') (h' : SameRequest task' task'') :
    SameRequest task task'' :=
  ⟨h'.active.trans h.active, h'.timer.trans h.timer, h'.request.trans h.request,
    h'.processResponseState.trans h.processResponseState⟩

theorem SameRequest.timed (same : SameRequest s.task task) (inv : Inv s) :
    task.requestIsActive = false → task.rspTimer.enabled = false := by
  rw [same.active, same.timer]
  exact inv.timer

theorem SameRequest.commanded (same : SameRequest s.task task) (inv : Inv s) :
    commandFor task.processResponseState = some (Common.command task.request) := by
  rw [same.request, same.processResponseState]
  exact inv.command

end

theorem sameRequest_restart (task : Task) : SameRequest task task.restart := by
  constructor <;> simp only [Task.restart, Task.setFDState, resetComponentInfo, Task.pastLastImage,
    Task.countImage, Task.toComponent]

theorem keeps_of_stage (outcome : Outcome) (inv : Inv s) (running : s.task.complete = false)
    (hstate : s.task.taskState = state) (h : handler state event.1 event.2 s.task = some outcome)
    (deaf : state ≠ .receive) (hnext : hearing outcome.next = false)
    (activation : (∀ plan, Planned plan s.task.cursor → Planned plan outcome.result.cursor) ∨
      ∀ e ∈ s.log, ¬ IsActivateRequest e)
    (timer : outcome.task.requestIsActive = false → outcome.task.rspTimer.enabled = false)
    (command : commandFor outcome.task.processResponseState =
      some (Common.command outcome.task.request))
    (responses : ∀ sent ∈ outcome.sent, sent.isRequest = false)
    (stage : ∀ later, (∀ e ∈ later, Harmless e) →
      Stage outcome.result (s.log ++ later) (focus outcome.result)) :
    Keeps s event := by
  have harmless : ∀ e ∈ outcome.sent.map Entry.sent, Harmless e := by
    intro e he
    obtain ⟨sent, hmem, rfl⟩ := List.mem_map.mp he
    have hsent := responses sent hmem
    exact ⟨fun h => Bool.false_ne_true (hsent.symm.trans h.1),
      fun h => Bool.false_ne_true (hsent.symm.trans h.1)⟩
  have hheard : heard event.1 s.task = [] := heard_of_ne (by rw [hstate]; exact deaf)
  rw [← hstate] at h
  refine ⟨s.after event.1 outcome, advance_eq running h, ?_, timer, command, ?_⟩
  · rw [Session.after, hheard, List.nil_append]
    refine onlyAfter_append ?_ fun e he => (harmless e he).2
    exact activation.elim inv.planned onlyAfter_quiet
  · have hnot : hearing (s.after event.1 outcome).task.taskState = false := hnext
    rw [hnot, if_neg (by decide), Session.after, hheard, List.nil_append]
    exact stage _ harmless

/-- The same for a handler that sends nothing and leaves the plan and the timer alone. -/
theorem keeps_quiet (outcome : Outcome) (inv : Inv s) (running : s.task.complete = false)
    (hstate : s.task.taskState = state) (h : handler state event.1 event.2 s.task = some outcome)
    (deaf : state ≠ .receive) (hnext : hearing outcome.next = false)
    (planned : ∀ plan, Planned plan s.task.cursor → Planned plan outcome.result.cursor)
    (same : SameRequest s.task outcome.task)
    (silent : outcome.sent = [])
    (stage : Stage outcome.result s.log (focus outcome.result)) :
    Keeps s event := by
  refine keeps_of_stage outcome inv running hstate h deaf hnext
    (.inl planned) (same.timed inv) (same.commanded inv) ?_
    fun later harmless => stage.append harmless
  rw [silent]
  exact nofun

/-! Giving up. -/

theorem keeps_failed (error : TaskError) {task : Task} (inv : Inv s)
    (running : s.task.complete = false) (hstate : s.task.taskState = state)
    (h : handler state event.1 event.2 s.task = failWith error event.1 event.2 task)
    (deaf : state ≠ .receive)
    (planned : ∀ plan, Planned plan s.task.cursor → Planned plan task.cursor)
    (same : SameRequest s.task task) : Keeps s event :=
  keeps_quiet _ inv running hstate h deaf rfl planned same rfl trivial

theorem keeps_unlessCancelled {cancelled : TaskState} {body : Handler} (inv : Inv s)
    (running : s.task.complete = false) (hstate : s.task.taskState = state)
    (h : handler state = unlessCancelled cancelled body) (deaf : state ≠ .receive)
    (giveUp : cancelled = .cancelUpdateSetupReq ∨ cancelled = .cancelUpdateComponentSetupReq)
    (alive : focus s.task ≠ .complete ∧ focus s.task ≠ .max ∧ focus s.task ≠ .fatalError)
    (rest : event.2.cancelAllUpdates = false → Keeps s event) : Keeps s event := by
  have hbody : handler state event.1 event.2 s.task =
      if event.2.cancelAllUpdates then some { next := cancelled, task := s.task, globals := event.2 }
      else body event.1 event.2 s.task := by
    rw [h]
    rfl
  cases hcancel : event.2.cancelAllUpdates with
  | false => exact rest hcancel
  | true =>
    rw [hcancel, if_pos rfl] at hbody
    have hwork : Busy s.task → AtWork s.task s.log := inv.busy alive
    rcases giveUp with rfl | rfl
    · exact keeps_quiet _ inv running hstate hbody deaf rfl (fun _ h => h) ⟨rfl, rfl, rfl, rfl⟩ rfl hwork
    · exact keeps_quiet _ inv running hstate hbody deaf rfl (fun _ h => h) ⟨rfl, rfl, rfl, rfl⟩ rfl hwork

/-! Requests. -/

theorem sendReqSetup_message (task : Task) (command : UInt8) (payload : List UInt8)
    (processResponseState : TaskState) :
    slice (sendReqSetup task command payload processResponseState).request 0
        (sendReqSetup task command payload processResponseState).requestLength =
      fwFillCommon true (task.instanceId + 1) command ++ payload := by
  let header := fwFillCommon true (task.instanceId + 1) command
  have hheader : Holds (overwrite (overwrite task.request Common.size payload) 0 header) 0 header :=
    holds_overwrite _ _ _
  have hpayload : Holds (overwrite (overwrite task.request Common.size payload) 0 header)
      (0 + header.length) payload := by
    refine (holds_overwrite task.request Common.size payload).congr fun a hle _ => ?_
    exact overwrite_outside _ _ _ _ (.inr hle)
  have hmessage := holds_append.mpr ⟨hheader, hpayload⟩
  rw [Holds, List.length_append] at hmessage
  exact hmessage

theorem sendReqSetup_command (task : Task) (command : UInt8) (payload : List UInt8)
    (processResponseState : TaskState) :
    Common.command (sendReqSetup task command payload processResponseState).request = command :=
  overwrite_inside (overwrite task.request Common.size payload) 0
    (fwFillCommon true (task.instanceId + 1) command) 3 (Nat.lt_succ_self 3) 0

theorem keeps_setup {command : UInt8} {payload : List UInt8} {next : TaskState} {task : Task}
    (inv : Inv s) (running : s.task.complete = false) (hstate : s.task.taskState = state)
    (h : handler state event.1 event.2 s.task =
      some { next := .sendReq, task := sendReqSetup task command payload next, globals := event.2 })
    (deaf : state ≠ .receive) (hcommand : commandFor next = some command)
    (planned : ∀ plan, Planned plan s.task.cursor → Planned plan task.cursor)
    (timer : task.requestIsActive = s.task.requestIsActive ∧ task.rspTimer = s.task.rspTimer)
    (stage : Stage (Outcome.result
      { next := .sendReq, task := sendReqSetup task command payload next, globals := event.2 })
      s.log next) :
    Keeps s event := by
  refine keeps_of_stage _ inv running hstate h deaf rfl (.inl planned)
    ?_ ?_ nofun fun later harmless => stage.append harmless
  · change task.requestIsActive = false → task.rspTimer.enabled = false
    rw [timer.1, timer.2]
    exact inv.timer
  · change commandFor next = some (Common.command (sendReqSetup task command payload next).request)
    rw [sendReqSetup_command]
    exact hcommand

/-! The first states. -/

theorem keeps_start (inv : Inv s) (running : s.task.complete = false)
    (hstate : s.task.taskState = .start) : Keeps s event := by
  have hstage := inv.at hstate rfl rfl
  exact keeps_quiet _ inv running hstate rfl nofun rfl (fun _ h => h) ⟨rfl, rfl, rfl, rfl⟩ rfl hstage

theorem keeps_queryDeviceIdentifiersSetupReq (inv : Inv s) (running : s.task.complete = false)
    (hstate : s.task.taskState = .queryDeviceIdentifiersSetupReq) : Keeps s event := by
  have hstage := inv.at hstate rfl rfl
  exact keeps_setup inv running hstate rfl nofun rfl (fun _ h => h) ⟨rfl, rfl⟩ hstage

theorem keeps_queryDeviceIdentifiersProcessRsp (inv : Inv s) (running : s.task.complete = false)
    (hstate : s.task.taskState = .queryDeviceIdentifiersProcessRsp) : Keeps s event := by
  obtain ⟨log, message, hlog, -, -, hstage⟩ := inv.hears hstate rfl
  rw [focus, hstate] at hstage
  have hfresh : Fresh s.task s.log := by
    rw [hlog]
    exact Fresh.append hstage (harmless_heard message)
  cases hcheck : (fwQueryDeviceIdsCheckRsp s.task.recvBuffer s.task.recvLength).isError with
  | true =>
    exact keeps_failed .queryDeviceIdsFailed inv running hstate (if_pos hcheck) nofun
      (fun _ h => h) ⟨rfl, rfl, rfl, rfl⟩
  | false =>
    cases hmatch : (matchesFD (QueryDeviceIds.count s.task.recvBuffer) s.task.recvBuffer
        QueryDeviceIds.descriptors).value s.task.pkgHdr with
    | none =>
      refine keeps_failed .noFdMatchInPkg inv running hstate ?_ nofun (fun _ h => h) ⟨rfl, rfl, rfl, rfl⟩
      simp only [handler, queryDeviceIdentifiersProcessRsp, hcheck, hmatch, Bool.false_eq_true,
        if_false]
    | some record =>
      refine keeps_of_stage { next := .getFwParamsSetupReq, globals := event.2
                              task := { s.task with deviceIdRecord := some record } }
        inv running hstate ?_ nofun rfl (.inr hfresh.2) inv.timer inv.command nofun ?_
      · simp only [handler, queryDeviceIdentifiersProcessRsp, hcheck, hmatch, Bool.false_eq_true,
          if_false]
      · exact fun later harmless => ⟨Fresh.append hfresh harmless, record, rfl⟩

theorem keeps_getFwParamsSetupReq (inv : Inv s) (running : s.task.complete = false)
    (hstate : s.task.taskState = .getFwParamsSetupReq) : Keeps s event := by
  have hstage := inv.at hstate rfl rfl
  exact keeps_setup inv running hstate rfl nofun rfl (fun _ h => h) ⟨rfl, rfl⟩ hstage

theorem keeps_getFwParamsProcessRsp (inv : Inv s) (running : s.task.complete = false)
    (hstate : s.task.taskState = .getFwParamsProcessRsp) : Keeps s event := by
  obtain ⟨log, message, hlog, -, -, hstage⟩ := inv.hears hstate rfl
  rw [focus, hstate] at hstage
  obtain ⟨hfresh, hrecord⟩ : Fresh s.task log ∧ ∃ record, s.task.deviceIdRecord = some record :=
    hstage
  have hfresh : Fresh s.task s.log := by
    rw [hlog]
    exact hfresh.append (harmless_heard message)
  cases hcheck : (fwGetFwParamsCheckRsp s.task.recvBuffer s.task.recvLength).isError with
  | true =>
    exact keeps_failed .getFwParamsFailed inv running hstate (if_pos hcheck) nofun (fun _ h => h)
      ⟨rfl, rfl, rfl, rfl⟩
  | false =>
    by_cases hsize : s.task.recvLength > fwParamsSize
    · refine keeps_failed .getFwParamsBufferTooSmall inv running hstate ?_ nofun (fun _ h => h)
        ⟨rfl, rfl, rfl, rfl⟩
      simp only [handler, getFwParamsProcessRsp, hcheck, Bool.false_eq_true, if_false, if_pos hsize]
    · refine keeps_of_stage { next := .processPackage, globals := event.2
                              task := { s.task with
                                getFwParamsResponse := some (overwrite (fun _ => 0) 0
                                  (slice s.task.recvBuffer 0 s.task.recvLength)) } }
        inv running hstate ?_ nofun rfl (.inr hfresh.2) inv.timer inv.command nofun ?_
      · simp only [handler, getFwParamsProcessRsp, hcheck, Bool.false_eq_true, if_false,
          if_neg hsize]
      · exact fun later harmless => ⟨Fresh.append hfresh harmless, hrecord, _, rfl⟩

theorem image_of_pairs {pkg response : Memory} {record count index info : Nat}
    (h : countUpdateComponents pkg response record count index info ≠ 0) : 0 < count := by
  cases count with
  | zero => exact absurd rfl h
  | succ count => exact Nat.succ_pos count

theorem keeps_processPackage (inv : Inv s) (running : s.task.complete = false)
    (hstate : s.task.taskState = .processPackage) : Keeps s event := by
  obtain ⟨hfresh, ⟨record, hrecord⟩, response, hresponse⟩ := inv.at hstate rfl rfl
  let plan : Plan := ⟨s.task.pkgHdr, record, response⟩
  have hbody : ∀ n, n = countUpdateComponents s.task.pkgHdr response record plan.imageCount 0
      (imageInfos (imageArea s.task.pkgHdr)) →
      handler .processPackage event.1 event.2 s.task =
        if n = 0 then
          failWith .noUpdateComponents event.1 event.2
            { resetComponentInfo s.task with numUpdateComponents := n }
        else
          some { next := .requestUpdateSetupReq, globals := event.2
                 task := { resetComponentInfo s.task with numUpdateComponents := n } } := by
    rintro n rfl
    simp only [handler, processPackage, resetComponentInfo, hrecord, hresponse, Option.bind_some,
      Option.bind_eq_bind]
    rfl
  generalize hn : countUpdateComponents _ _ _ _ _ _ = n at hbody
  have hbody := hbody n rfl
  by_cases hzero : n = 0
  · rw [if_pos hzero] at hbody
    exact keeps_failed .noUpdateComponents inv running hstate hbody (by rintro ⟨⟩)
      (fun plan h => ⟨h.pkg, h.record, h.response⟩) ⟨rfl, rfl, rfl, rfl⟩
  · rw [if_neg hzero] at hbody
    refine keeps_quiet _ inv running hstate hbody (by rintro ⟨⟩) rfl
      (fun plan h => ⟨h.pkg, h.record, h.response⟩) ⟨rfl, rfl, rfl, rfl⟩ rfl ⟨hfresh, plan, ?_⟩
    exact ⟨⟨rfl, hrecord, hresponse⟩, rfl, rfl, image_of_pairs (hn ▸ hzero)⟩

theorem keeps_requestUpdateSetupReq (inv : Inv s) (running : s.task.complete = false)
    (hstate : s.task.taskState = .requestUpdateSetupReq) : Keeps s event := by
  refine keeps_unlessCancelled inv running hstate rfl nofun (.inl rfl) ?_ fun hc => ?_
  · rw [focus, hstate]
    exact ⟨nofun, nofun, nofun⟩
  obtain ⟨hfresh, plan, hsetUp⟩ := inv.at hstate rfl rfl
  have hrecord : s.task.deviceIdRecord = some plan.record := hsetUp.planned.record
  exact keeps_setup inv running hstate (requestUpdateSetupReq_eq hc hrecord) nofun rfl (fun _ h => h) ⟨rfl, rfl⟩
    ⟨hfresh, plan, hsetUp⟩

/-! Hearing an answer. -/

theorem Heard.byte {message : List UInt8} (heard : Heard s.task message) {a : Nat}
    (h : a < message.length) : s.task.recvBuffer a = message.getD a 0 :=
  heard.buffer a h

theorem Answers.ok {command : UInt8} {message : List UInt8} (heard : Heard s.task message)
    (answers : Answers command message)
    (hcode : completionCode s.task.recvBuffer = Completion.success) :
    AnswersSuccess command message :=
  ⟨answers, (heard.byte answers.length).symm.trans hcode⟩

/-- A handler that checks the answer to a request of its own. -/
theorem keeps_answered {length : Nat} {error : TaskError} {task : Task} {next : TaskState}
    {bad : Prop} [Decidable bad] {error' : TaskError}
    (inv : Inv s) (running : s.task.complete = false) (hstate : s.task.taskState = state)
    (h : handler state event.1 event.2 s.task =
      if (fwCheckRspCompletionAndLength s.task.recvBuffer s.task.recvLength length).isError then
        failWith error event.1 event.2 s.task
      else if bad then failWith error' event.1 event.2 s.task
      else some { next, task, globals := event.2 })
    (deaf : state ≠ .receive) (hnext : hearing next = false)
    (planned : ∀ plan, Planned plan s.task.cursor → Planned plan task.cursor)
    (same : SameRequest s.task task)
    (stage : completionCode s.task.recvBuffer = Completion.success → s.task.recvLength = length →
      ¬ bad → Stage (Outcome.result { next, task, globals := event.2 }) s.log
        (focus (Outcome.result { next, task, globals := event.2 }))) :
    Keeps s event := by
  cases hcheck : (fwCheckRspCompletionAndLength s.task.recvBuffer s.task.recvLength length).isError with
  | true =>
    rw [hcheck, if_pos rfl] at h
    exact keeps_failed error inv running hstate h deaf (fun _ h => h) ⟨rfl, rfl, rfl, rfl⟩
  | false =>
    rw [hcheck, if_neg (by decide)] at h
    obtain ⟨hcode, hlength⟩ := fwCheckRspCompletionAndLength_success.mp hcheck
    by_cases hbad : bad
    · rw [if_pos hbad] at h
      exact keeps_failed error' inv running hstate h deaf (fun _ h => h) ⟨rfl, rfl, rfl, rfl⟩
    · rw [if_neg hbad] at h
      exact keeps_quiet _ inv running hstate h deaf hnext planned same rfl (stage hcode hlength hbad)

theorem keeps_requestUpdateProcessRsp (inv : Inv s) (running : s.task.complete = false)
    (hstate : s.task.taskState = .requestUpdateProcessRsp) : Keeps s event := by
  refine keeps_unlessCancelled inv running hstate rfl nofun (.inl rfl) ?_ fun hc => ?_
  · rw [focus, hstate]
    exact ⟨nofun, nofun, nofun⟩
  obtain ⟨log, message, hlog, heard, hheard, hstage⟩ := inv.hears hstate rfl
  rw [focus, hstate] at hstage
  obtain ⟨-, plan, hsetUp⟩ := hstage
  have answers : Answers Command.requestUpdate message := inv.answers hheard rfl
  have hbody : requestUpdateProcessRsp event.1 event.2 s.task = _ := unlessCancelled_of_not hc
  refine keeps_answered inv running hstate hbody nofun rfl (fun _ h => ⟨h.pkg, h.record, h.response⟩)
    ⟨rfl, rfl, rfl, rfl⟩ fun hcode _ _ => ⟨?_, .inl rfl, plan, hsetUp⟩
  rw [hlog]
  exact ⟨_, List.mem_append_right _ (List.mem_singleton_self _), answers.ok heard hcode⟩

/-! The component table. -/

theorem keeps_passComponentTableSetupReq (inv : Inv s) (running : s.task.complete = false)
    (hstate : s.task.taskState = .passComponentTableSetupReq) : Keeps s event := by
  refine keeps_unlessCancelled inv running hstate rfl nofun (.inl rfl) ?_ fun hc => ?_
  · rw [focus, hstate]
    exact ⟨nofun, nofun, nofun⟩
  obtain ⟨hgranted, hfd, plan, hsetUp⟩ := inv.at hstate rfl rfl
  cases happ : plan.applicable s.task.componentImageIndex with
  | false =>
    exact keeps_quiet _ inv running hstate (passComponentTableSetupReq_skip hc hsetUp happ) nofun rfl
      (fun _ h => h) ⟨rfl, rfl, rfl, rfl⟩ rfl ⟨hgranted, hfd, plan, hsetUp⟩
  | true =>
    cases hnext : plan.next s.task.componentImageIndex s.task.fwParamsComponentIndex with
    | mk found k =>
      cases found with
      | false =>
        exact keeps_quiet _ inv running hstate (passComponentTableSetupReq_none hc hsetUp happ hnext)
          nofun rfl (fun _ h => ⟨h.pkg, h.record, h.response⟩) ⟨rfl, rfl, rfl, rfl⟩ rfl
          ⟨hgranted, hfd, plan, hsetUp.toComponent k⟩
      | true =>
        exact keeps_setup inv running hstate (passComponentTableSetupReq_found hc hsetUp happ hnext)
          nofun rfl (fun _ h => ⟨h.pkg, h.record, h.response⟩) ⟨rfl, rfl⟩
          ⟨hgranted, hfd, plan, hsetUp.toComponent k⟩

theorem keeps_passComponentTableProcessRsp (inv : Inv s) (running : s.task.complete = false)
    (hstate : s.task.taskState = .passComponentTableProcessRsp) : Keeps s event := by
  refine keeps_unlessCancelled inv running hstate rfl nofun (.inl rfl) ?_ fun hc => ?_
  · rw [focus, hstate]
    exact ⟨nofun, nofun, nofun⟩
  obtain ⟨log, message, hlog, -, -, hstage⟩ := inv.hears hstate rfl
  rw [focus, hstate] at hstage
  have hstage : Stage s.task s.log .passComponentTableNextComponent := by
    rw [hlog]
    exact Stage.append hstage (harmless_heard message)
  have hbody : passComponentTableProcessRsp event.1 event.2 s.task = _ := unlessCancelled_of_not hc
  exact keeps_answered inv running hstate hbody nofun rfl (fun _ h => h) ⟨rfl, rfl, rfl, rfl⟩
    fun _ _ _ => hstage

theorem keeps_passComponentTableNextComponent (inv : Inv s) (running : s.task.complete = false)
    (hstate : s.task.taskState = .passComponentTableNextComponent) : Keeps s event := by
  refine keeps_unlessCancelled inv running hstate rfl nofun (.inl rfl) ?_ fun hc => ?_
  · rw [focus, hstate]
    exact ⟨nofun, nofun, nofun⟩
  obtain ⟨hgranted, hfd, plan, hsetUp⟩ := inv.at hstate rfl rfl
  cases hnext : plan.next s.task.componentImageIndex (s.task.fwParamsComponentIndex + 1) with
  | mk found k =>
    cases found with
    | true =>
      exact keeps_quiet _ inv running hstate (passComponentTableNextComponent_found hc hsetUp hnext)
        nofun rfl (fun _ h => ⟨h.pkg, h.record, h.response⟩) ⟨rfl, rfl, rfl, rfl⟩ rfl
        ⟨hgranted, hfd, plan, hsetUp.toComponent k⟩
    | false =>
      cases (plan.next_none hnext).1
      by_cases hmore : s.task.componentImageIndex + 1 < plan.imageCount
      · exact keeps_quiet _ inv running hstate
          (passComponentTableNextComponent_more hc hsetUp hnext hmore) nofun rfl
          (fun _ h => ⟨h.pkg, h.record, h.response⟩) ⟨rfl, rfl, rfl, rfl⟩ rfl
          ⟨hgranted, hfd, plan, hsetUp.toNextImage hmore⟩
      · exact keeps_quiet _ inv running hstate
          (passComponentTableNextComponent_last hc hsetUp hnext (Nat.le_of_not_lt hmore)) nofun rfl
          (fun _ h => h.restart) (sameRequest_restart _) rfl
          ⟨hgranted, rfl, rfl, plan, hsetUp.restart, fun i hi => absurd hi (Nat.not_lt_zero i)⟩

end

end Pldm
