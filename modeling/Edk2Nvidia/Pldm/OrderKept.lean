import Edk2Nvidia.Pldm.OrderPhases

/-! Sending requests, receiving messages and giving up keep the invariant, and so does every
run. -/
namespace Pldm
open Flash Parse Transition

section
variable {s : Session} {event : Input × Globals} {state : TaskState}

/-! Sending. -/

theorem commandOf_slice {m : Memory} {n : Nat} {command : UInt8} (h : commandOf (slice m 0 n) = command)
    (hne : command ≠ 0) : Common.command m = command := by
  by_cases hn : 3 < n
  · have hbyte : (slice m 0 n).getD 3 0 = m 3 := by
      simp [slice, hn]
    exact hbyte.symm.trans h
  · have hbyte : (slice m 0 n).getD 3 0 = 0 := by
      simp [slice, hn]
    exact absurd (h.symm.trans hbyte) hne

theorem commandFor_updateComponent (h : commandFor state = some Command.updateComponent) :
    state = .updateComponentProcessRsp := by
  cases state <;> first | rfl | cases h

theorem commandFor_activateFw (h : commandFor state = some Command.activateFw) :
    state = .activateFwProcessRsp := by
  cases state <;> first | rfl | cases h

/-- The request goes out. A component that was about to be offered is offered now. -/
theorem Stage.sent {task : Task} {log : List Entry} {request : Entry}
    (h : Stage task log task.processResponseState)
    (awaits : commandFor task.processResponseState = some (Common.command task.request))
    (hrequest : request = .sent ⟨true, slice task.request 0 task.requestLength⟩)
    (hstate : task.taskState = .sendReq) (requestMsgTag : UInt8) (rspTimer : Timer) :
    Stage { task with
        requestMsgTag, rspTimer
        requestIsActive := true
        taskState := .receive } (log ++ [request]) task.processResponseState := by
  have hsends : ∀ command, command ≠ 0 →
      commandOf (slice task.request 0 task.requestLength) = command →
        commandFor task.processResponseState = some command := by
    rintro command hne hcommand
    rw [awaits, commandOf_slice hcommand hne]
  by_cases hupdate : task.processResponseState = .updateComponentProcessRsp
  · rw [hupdate] at h ⊢
    have hpending : Pending task log := by
      rcases h with hpending | ⟨-, -, hne, -⟩
      · exact hpending
      · exact absurd hstate hne
    obtain ⟨hgranted, hfd, plan, hpair, ⟨instanceId, hmessage⟩, -⟩ := hpending
    have hoffered : Offered plan task.componentImageIndex task.fwParamsComponentIndex
        (log ++ [request]) := by
      refine Since.intro trivial ⟨instanceId, ?_⟩
      rw [hrequest, hmessage]
    exact .inl ⟨hgranted.append _, hfd, plan, hpair.append _, ⟨instanceId, hmessage⟩, .inr hoffered⟩
  · by_cases hactivate : task.processResponseState = .activateFwProcessRsp
    · rw [hactivate] at h ⊢
      exact ⟨h.1, SameWork.ready ⟨rfl, rfl, rfl, rfl⟩ (h.2.append _)⟩
    · have harmless : ∀ e ∈ [request], Harmless e := by
        intro e he
        rw [List.mem_singleton.mp he, hrequest]
        exact ⟨fun h => hupdate (commandFor_updateComponent (hsends _ (by decide) h.2)),
          fun h => hactivate (commandFor_activateFw (hsends _ (by decide) h.2))⟩
      exact (h.append harmless).move ⟨rfl, rfl, rfl, rfl⟩ awaits (fun h => absurd h hupdate)
        fun h => absurd hstate h.2.1

theorem keeps_sendReq (inv : Inv s) (running : s.task.complete = false)
    (hstate : s.task.taskState = .sendReq) : Keeps s event := by
  have hstage := inv.between hstate rfl rfl
  cases hsent : event.1.sendStatus.isError with
  | true =>
    exact keeps_failed .sendReqFailed inv running hstate (if_pos hsent) (by rintro ⟨⟩) (fun _ h => h)
      ⟨rfl, rfl, rfl, rfl⟩
  | false =>
    have hbody : handler s.task.taskState event.1 event.2 s.task =
        some { next := .receive, globals := event.2
               task := { s.task with
                 requestMsgTag := event.1.sendMsgTag
                 requestIsActive := true
                 rspTimer := startTimer event.1.nowNs (pldmPT2MsMax + s.task.rspExtraMs) }
               sent := [⟨true, slice s.task.request 0 s.task.requestLength⟩] } := by
      rw [hstate]
      simp only [handler, sendReq, hsent, Bool.false_eq_true, if_false]
    have hheard : heard event.1 s.task = [] := heard_of_ne (by rw [hstate]; (rintro ⟨⟩))
    refine ⟨_, advance_eq running hbody, ?_, by intros; contradiction, inv.command, ?_⟩
    · rw [Session.after, hheard]
      refine OnlyAfter.append inv.activation fun hactivate => ?_
      have hcommand : Common.command s.task.request = Command.activateFw :=
        commandOf_slice hactivate.2 (by decide)
      rw [commandFor_activateFw (inv.command.trans (congrArg some hcommand))] at hstage
      exact hstage.2.2
    · have hsent := hstage.sent inv.command rfl hstate event.1.sendMsgTag
        (startTimer event.1.nowNs (pldmPT2MsMax + s.task.rspExtraMs))
      rw [Session.after, hheard]
      exact hsent

theorem keeps_retryReq (inv : Inv s) (running : s.task.complete = false)
    (hstate : s.task.taskState = .retryReq) : Keeps s event := by
  have hstage := inv.between hstate rfl rfl
  by_cases hcount : s.task.retryCount = 0
  · exact keeps_failed .reqRetriesExhausted inv running hstate (if_pos hcount) nofun (fun _ h => h)
      ⟨rfl, rfl, rfl, rfl⟩
  · have hbody : handler .retryReq event.1 event.2 s.task = some _ := if_neg hcount
    exact keeps_quiet _ inv running hstate hbody nofun rfl (fun _ h => h) ⟨rfl, rfl, rfl, rfl⟩ rfl
      (hstage.move ⟨rfl, rfl, rfl, rfl⟩ inv.command (fun _ _ => rfl)
        fun h => absurd hstate h.2.2.1)

/-! Giving up, and the end. -/

theorem keeps_fatalError (inv : Inv s) (running : s.task.complete = false)
    (hstate : s.task.taskState = .fatalError) : Keeps s event :=
  keeps_quiet _ inv running hstate rfl nofun rfl (fun _ h => h) ⟨rfl, rfl, rfl, rfl⟩ rfl nofun

theorem keeps_complete (inv : Inv s) (running : s.task.complete = false)
    (hstate : s.task.taskState = .complete) : Keeps s event := by
  have hstage := inv.at hstate rfl rfl
  refine keeps_quiet _ inv running hstate rfl nofun rfl (fun _ h => h) ⟨rfl, rfl, rfl, rfl⟩ rfl
    ⟨rfl, fun hok => (hstage hok).imp_right fun h => ⟨?_, h.2⟩⟩
  exact SameWork.ready ⟨rfl, rfl, rfl, rfl⟩ h.1

theorem keeps_cancelUpdateComponentSetupReq (inv : Inv s) (running : s.task.complete = false)
    (hstate : s.task.taskState = .cancelUpdateComponentSetupReq) : Keeps s event :=
  have hstage := inv.at hstate rfl rfl
  keeps_setup inv running hstate rfl nofun rfl (fun _ h => h) ⟨rfl, rfl⟩ hstage

theorem keeps_cancelUpdateSetupReq (inv : Inv s) (running : s.task.complete = false)
    (hstate : s.task.taskState = .cancelUpdateSetupReq) : Keeps s event :=
  have hstage := inv.at hstate rfl rfl
  keeps_setup inv running hstate rfl nofun rfl (fun _ h => h) ⟨rfl, rfl⟩ hstage

theorem keeps_cancelUpdateComponentProcessRsp (inv : Inv s) (running : s.task.complete = false)
    (hstate : s.task.taskState = .cancelUpdateComponentProcessRsp) : Keeps s event := by
  have hwork : Busy s.task → AtWork s.task s.log := inv.busy (by
    rw [focus, hstate]
    exact ⟨by rintro ⟨⟩, by rintro ⟨⟩, by rintro ⟨⟩⟩)
  exact keeps_quiet _ inv running hstate rfl (by rintro ⟨⟩) rfl (fun _ h => h)
    ⟨rfl, rfl, rfl, rfl⟩ rfl hwork

theorem keeps_cancelUpdateProcessRsp (inv : Inv s) (running : s.task.complete = false)
    (hstate : s.task.taskState = .cancelUpdateProcessRsp) : Keeps s event := by
  obtain ⟨log, message, -, -, hheard, -⟩ := inv.hears hstate rfl
  have hcancelling : cancelling s.task.processResponseState = true := by
    rw [hheard.state]
    rfl
  exact keeps_quiet _ inv running hstate rfl nofun rfl (fun _ h => h) ⟨rfl, rfl, rfl, rfl⟩ rfl
    fun _ => .inl hcancelling

/-! Receiving. -/

/-- A task that goes to the state of the response it has heard. -/
theorem stage_of_answer {task : Task} {log log' : List Entry} {message : List UInt8} {command : UInt8}
    (awaits : commandFor state = some command) (hlog : log' = log ++ [.received message])
    (hstate : task.taskState = state) (hresponse : task.processResponseState = state)
    (heard : Heard task message)
    (answered : Answered task state (Common.command task.request) message)
    (stage : Stage task log state) :
    if hearing task.taskState then
      ∃ log message, log' = log ++ [.received message] ∧ Heard task message ∧
        HeardAs task message task.taskState ∧ Stage task log (focus task)
    else
      Stage task log' (focus task) := by
  have hfocus : focus task = state := by
    unfold focus
    rw [hstate, hresponse, ite_self]
  rw [hfocus, hstate]
  cases state with
  | start =>
    rw [if_neg (by decide), hlog]
    exact Stage.append stage (harmless_heard message)
  | queryDeviceIdentifiersProcessRsp => exact ⟨log, message, hlog, heard, answered, stage⟩
  | getFwParamsProcessRsp => exact ⟨log, message, hlog, heard, answered, stage⟩
  | requestUpdateProcessRsp => exact ⟨log, message, hlog, heard, answered, stage⟩
  | passComponentTableProcessRsp => exact ⟨log, message, hlog, heard, answered, stage⟩
  | updateComponentProcessRsp => exact ⟨log, message, hlog, heard, answered, stage⟩
  | activateFwProcessRsp => exact ⟨log, message, hlog, heard, answered, stage⟩
  | cancelUpdateComponentProcessRsp => exact ⟨log, message, hlog, heard, answered, stage⟩
  | cancelUpdateProcessRsp => exact ⟨log, message, hlog, heard, answered, stage⟩
  | _ => cases awaits

theorem keeps_processRsp (inv : Inv s) (running : s.task.complete = false)
    (hstate : s.task.taskState = .processRsp) : Keeps s event := by
  obtain ⟨log, message, hlog, hmessage, hresponse, hstage⟩ := inv.hears hstate rfl
  rw [focus, hstate, if_pos (by decide)] at hstage
  have hbody : ∀ outcome, processRsp event.1 event.2 s.task = some outcome →
      handler .processRsp event.1 event.2 s.task = some outcome := fun _ h => h
  cases hactive : s.task.requestIsActive with
  | false =>
    have hout := hbody _ (if_pos hactive)
    have hnow : Stage s.task s.log s.task.processResponseState := by
      rw [hlog]
      exact hstage.append (harmless_heard message)
    exact keeps_quiet _ inv running hstate hout (by rintro ⟨⟩) rfl (fun _ h => h) ⟨rfl, rfl, rfl, rfl⟩ rfl
      (hnow.move ⟨rfl, rfl, rfl, rfl⟩ inv.command (fun _ h => by cases hstate.symm.trans h)
        fun h => ⟨h.1, by rintro ⟨⟩, by rintro ⟨⟩, by rintro ⟨⟩⟩)
  | true =>
    have busy : ¬ Settled s.task := fun h => Bool.false_ne_true (h.1.symm.trans hactive)
    have hidle : ¬ s.task.requestIsActive = false := fun h => Bool.false_ne_true (h.symm.trans hactive)
    cases hvalid : (validateResponse s.task.request s.task.recvBuffer s.task.recvLength
        s.task.requestMsgTag s.task.recvMsgTag).isError with
    | true =>
      have hout := hbody _ ((if_neg hidle).trans (if_pos hvalid))
      refine keeps_of_stage _ inv running hstate hout (by rintro ⟨⟩) rfl (.inl fun _ h => h) (fun _ => rfl)
        inv.command (by intros; contradiction) fun later harmless => ?_
      have hnow : Stage s.task (s.log ++ later) s.task.processResponseState := by
        rw [hlog]
        exact (hstage.append (harmless_heard message)).append harmless
      exact hnow.move ⟨rfl, rfl, rfl, rfl⟩ inv.command (fun _ h => by cases hstate.symm.trans h)
        fun h => absurd h busy
    | false =>
      have hinvalid : ¬ (validateResponse s.task.request s.task.recvBuffer s.task.recvLength
        s.task.requestMsgTag s.task.recvMsgTag).isError = true := by
        rw [hvalid]
        (rintro ⟨⟩)
      have hout := hbody _ ((if_neg hidle).trans (if_neg hinvalid))
      obtain ⟨hlength, hcommand⟩ := validateResponse_success hvalid
      have answers : Answers (Common.command s.task.request) message := by
        have hfour : 4 < message.length := by
          rw [← hmessage.length]
          omega
        have hbyte : Common.command s.task.recvBuffer = commandOf message := hmessage.byte (by omega)
        exact ⟨hmessage.genuine, hresponse, hbyte.symm.trans hcommand, hfour⟩
      rw [← hstate] at hout
      have hheard : heard event.1 s.task = [] := heard_of_ne (by rw [hstate]; (rintro ⟨⟩))
      refine ⟨_, advance_eq running hout, ?_, fun _ => rfl, inv.command, ?_⟩
      · rw [Session.after, hheard, List.nil_append, List.map_nil, List.append_nil]
        exact inv.planned fun _ h => h
      · have hmoved : ∀ task', SameWork s.task task' → Stage task' log s.task.processResponseState :=
          fun task' same => hstage.move same inv.command (fun _ h => by cases hstate.symm.trans h)
            fun h => absurd h busy
        rw [Session.after, hheard]
        refine stage_of_answer inv.command ?_ rfl rfl ⟨hmessage.length, hmessage.buffer, hmessage.header, hmessage.genuine⟩
          ⟨rfl, rfl, answers⟩ (hmoved _ ⟨rfl, rfl, rfl, rfl⟩)
        simpa using hlog

section
variable {input : Input} {globals : Globals} {task : Task}

theorem receive_timeout (h : input.recv = .timeout) :
    receive input globals task =
      let task := { task with recvLength := recvBufferSize }
      if task.requestFwDataTimer.isExpired input.nowNs then
        failWith .requestFwDataTimeout input globals task
      else if task.rspTimer.isExpired input.nowNs then
        some { next := .retryReq, task, globals }
      else
        some { next := .receive, task, globals } := by
  rw [receive, h]

theorem receive_error (h : input.recv = .error) :
    receive input globals task =
      some { next := .receive, task := { task with recvLength := recvBufferSize }, globals } := by
  rw [receive, h]

def Task.withMessage (task : Task) (bytes : List UInt8) (msgTag : UInt8) : Task :=
  { task with
    recvBuffer := overwrite task.recvBuffer 0 bytes
    recvLength := bytes.length
    recvMsgTag := msgTag }

theorem receive_message {bytes : List UInt8} {msgTag : UInt8} {fits : bytes.length ≤ recvBufferSize}
    (h : input.recv = .message bytes msgTag fits) :
    receive input globals task =
      if bytes.length < Common.size then
        some { next := .receive, task := task.withMessage bytes msgTag, globals }
      else
        some { next := dispatch (overwrite task.recvBuffer 0 bytes)
               task := task.withMessage bytes msgTag, globals } := by
  rw [receive, h]
  rfl

end

theorem dispatch_overwrite {m : Memory} {bytes : List UInt8} (h : Common.size ≤ bytes.length) :
    dispatch (overwrite m 0 bytes) =
      if bytes.getD 0 0 ≠ mctpTypePldm ∧ bytes.getD 2 0 ≠ pldmTypeFwUpdate then .receive
      else if bytes.getD 1 0 &&& pldmRq ≠ 0 then
        if commandOf bytes = Command.requestFwData then .requestFwDataHandleReq
        else if commandOf bytes = Command.transferComplete then .transferCompleteHandleReq
        else if commandOf bytes = Command.verifyComplete then .verifyCompleteHandleReq
        else if commandOf bytes = Command.applyComplete then .applyCompleteHandleReq
        else .receive
      else .processRsp := by
  have h : 4 ≤ bytes.length := h
  have hbyte : ∀ a < 4, overwrite m 0 bytes a = bytes.getD a 0 :=
    fun a ha => by simpa using overwrite_inside m 0 bytes a (by omega) 0
  simp only [dispatch, Common.mctpType, Common.instanceId, Common.pldmType, Common.command, commandOf,
    hbyte 0 (by decide), hbyte 1 (by decide), hbyte 2 (by decide), hbyte 3 (by decide)]
  rfl

theorem harmless_heard_of (input : Input) (task : Task) : ∀ e ∈ heard input task, Harmless e := by
  intro e he
  unfold heard at he
  split at he
  · exact harmless_heard _ e he
  · cases he

theorem keeps_received (outcome : Outcome) (inv : Inv s) (running : s.task.complete = false)
    (hstate : s.task.taskState = .receive) (h : receive event.1 event.2 s.task = some outcome)
    (silent : outcome.sent = []) (same : SameRequest s.task outcome.task)
    (cursor : outcome.task.cursor = s.task.cursor)
    (stage : if hearing outcome.next then
        ∃ log message, s.log ++ heard event.1 s.task = log ++ [.received message] ∧
          Heard outcome.result message ∧ HeardAs outcome.result message outcome.next ∧
          Stage outcome.result log (focus outcome.result)
      else
        Stage outcome.result (s.log ++ heard event.1 s.task) (focus outcome.result)) :
    Keeps s event := by
  have hbody : handler s.task.taskState event.1 event.2 s.task = some outcome := by
    rw [hstate]
    exact h
  have hlog : (s.after event.1 outcome).log = s.log ++ heard event.1 s.task := by
    rw [Session.after, silent, List.map_nil, List.append_nil]
  refine ⟨_, advance_eq running hbody, ?_, same.timed inv, same.commanded inv, ?_⟩
  · rw [hlog]
    exact onlyAfter_append (inv.planned fun _ h => cursor.symm ▸ h)
      fun e he => (harmless_heard_of _ _ e he).2
  · rw [hlog]
    exact stage

theorem keeps_dispatched {bytes : List UInt8} {msgTag : UInt8} {next : TaskState} (inv : Inv s)
    (running : s.task.complete = false) (hstate : s.task.taskState = .receive)
    (h : receive event.1 event.2 s.task =
      some { next, task := s.task.withMessage bytes msgTag, globals := event.2 })
    (hheard : heard event.1 s.task = [.received bytes]) (hhearing : hearing next = true)
    (hshared : shared next = true) (hmessage : Heard (s.task.withMessage bytes msgTag) bytes)
    (has : HeardAs { s.task.withMessage bytes msgTag with taskState := next } bytes next) :
    Keeps s event := by
  have hstage := inv.between hstate rfl rfl
  refine keeps_received _ inv running hstate h rfl ⟨rfl, rfl, rfl, rfl⟩ rfl ?_
  rw [if_pos hhearing]
  refine ⟨s.log, bytes, congrArg _ hheard,
    ⟨hmessage.length, hmessage.buffer, hmessage.header, hmessage.genuine⟩, has, ?_⟩
  have hfocus : focus (Outcome.result
      { next, task := s.task.withMessage bytes msgTag, globals := event.2 }) =
        s.task.processResponseState := if_pos hshared
  rw [hfocus]
  refine hstage.move ⟨rfl, rfl, rfl, rfl⟩ inv.command (fun _ h => nomatch hstate.symm.trans h)
    fun h => ⟨h.1, ?_, ?_, ?_⟩
  · rintro rfl
    cases hhearing
  · rintro rfl
    cases hhearing
  · rintro rfl
    cases hshared

theorem keeps_receive (inv : Inv s) (running : s.task.complete = false)
    (hstate : s.task.taskState = .receive) (order : InOrder s event) : Keeps s event := by
  have hstage := inv.between hstate rfl rfl
  have hmoved : ∀ task', SameWork s.task task' → (Settled s.task → Settled task') →
      Stage task' (s.log ++ heard event.1 s.task) s.task.processResponseState :=
    fun task' same settled => (hstage.append (harmless_heard_of _ _)).move same inv.command
      (fun _ h => nomatch hstate.symm.trans h) settled
  cases hrecv : event.1.recv with
  | timeout =>
    have hbody : receive event.1 event.2 s.task = _ := receive_timeout hrecv
    cases hdata : s.task.requestFwDataTimer.isExpired event.1.nowNs with
    | true =>
      simp only [hdata, if_true] at hbody
      exact keeps_received _ inv running hstate hbody rfl ⟨rfl, rfl, rfl, rfl⟩ rfl trivial
    | false =>
      cases hrsp : s.task.rspTimer.isExpired event.1.nowNs with
      | true =>
        simp only [hdata, hrsp, Bool.false_eq_true, if_false, if_true] at hbody
        have hactive : ¬ Settled s.task := by
          rintro ⟨hidle, -⟩
          have hdisabled := inv.timer hidle
          rw [Timer.isExpired, hdisabled] at hrsp
          cases hrsp
        exact keeps_received _ inv running hstate hbody rfl ⟨rfl, rfl, rfl, rfl⟩ rfl
          (hmoved _ ⟨rfl, rfl, rfl, rfl⟩ fun h => absurd h hactive)
      | false =>
        simp only [hdata, hrsp, Bool.false_eq_true, if_false] at hbody
        exact keeps_received _ inv running hstate hbody rfl ⟨rfl, rfl, rfl, rfl⟩ rfl
          (hmoved _ ⟨rfl, rfl, rfl, rfl⟩ fun h => ⟨h.1, nofun, nofun, nofun⟩)
  | error =>
    exact keeps_received _ inv running hstate (receive_error hrecv) rfl ⟨rfl, rfl, rfl, rfl⟩ rfl
      (hmoved _ ⟨rfl, rfl, rfl, rfl⟩ fun h => ⟨h.1, nofun, nofun, nofun⟩)
  | message bytes msgTag fits =>
    have hbody : receive event.1 event.2 s.task = _ := receive_message hrecv
    have hheard : heard event.1 s.task = [.received bytes] := by
      rw [heard, hstate, hrecv]
    by_cases hshort : bytes.length < Common.size
    · rw [if_pos hshort] at hbody
      exact keeps_received _ inv running hstate hbody rfl ⟨rfl, rfl, rfl, rfl⟩ rfl
        (hmoved _ ⟨rfl, rfl, rfl, rfl⟩ fun h => ⟨h.1, nofun, nofun, nofun⟩)
    rw [if_neg hshort, dispatch_overwrite (by omega)] at hbody
    have htyped : ¬ HalfTyped bytes := order.1 (.received bytes) (by rw [hheard]; exact List.mem_singleton_self _)
    have htyped := Decidable.of_not_not fun h => htyped ⟨Nat.le_of_not_lt hshort, h⟩
    by_cases hforeign : bytes.getD 0 0 ≠ mctpTypePldm ∧ bytes.getD 2 0 ≠ pldmTypeFwUpdate
    · rw [if_pos hforeign] at hbody
      exact keeps_received _ inv running hstate hbody rfl ⟨rfl, rfl, rfl, rfl⟩ rfl
        (hmoved _ ⟨rfl, rfl, rfl, rfl⟩ fun h => ⟨h.1, nofun, nofun, nofun⟩)
    rw [if_neg hforeign] at hbody
    have hgenuine : Genuine bytes := by
      by_cases hmctp : bytes.getD 0 0 = mctpTypePldm
      · exact ⟨hmctp, htyped.mp hmctp⟩
      · exact absurd ⟨hmctp, fun hpldm => hmctp (htyped.mpr hpldm)⟩ hforeign
    have hmessage : Heard (s.task.withMessage bytes msgTag) bytes := by
      refine ⟨rfl, fun a ha => ?_, Nat.le_of_not_lt hshort, hgenuine⟩
      have hbyte := overwrite_inside s.task.recvBuffer 0 bytes a ha 0
      rwa [Nat.zero_add] at hbyte
    by_cases hrequest : bytes.getD 1 0 &&& pldmRq ≠ 0
    · rw [if_pos hrequest] at hbody
      by_cases hdata : commandOf bytes = Command.requestFwData
      · rw [if_pos hdata] at hbody
        exact keeps_dispatched inv running hstate hbody hheard rfl rfl hmessage trivial
      rw [if_neg hdata] at hbody
      by_cases htransfer : commandOf bytes = Command.transferComplete
      · rw [if_pos htransfer] at hbody
        exact keeps_dispatched inv running hstate hbody hheard rfl rfl hmessage
          ⟨hrequest, htransfer⟩
      rw [if_neg htransfer] at hbody
      by_cases hverify : commandOf bytes = Command.verifyComplete
      · rw [if_pos hverify] at hbody
        exact keeps_dispatched inv running hstate hbody hheard rfl rfl hmessage
          ⟨hrequest, hverify⟩
      rw [if_neg hverify] at hbody
      by_cases happly : commandOf bytes = Command.applyComplete
      · rw [if_pos happly] at hbody
        exact keeps_dispatched inv running hstate hbody hheard rfl rfl hmessage
          ⟨hrequest, happly⟩
      rw [if_neg happly] at hbody
      exact keeps_received _ inv running hstate hbody rfl ⟨rfl, rfl, rfl, rfl⟩ rfl
        (hmoved _ ⟨rfl, rfl, rfl, rfl⟩ fun h => ⟨h.1, nofun, nofun, nofun⟩)
    · rw [if_neg hrequest] at hbody
      exact keeps_dispatched inv running hstate hbody hheard rfl rfl hmessage hrequest

/-! Every step, and every run. -/

theorem keeps_step (inv : Inv s) (order : InOrder s event) : Keeps s event := by
  cases hcomplete : s.task.complete with
  | true => exact ⟨s, if_pos hcomplete, inv⟩
  | false =>
    cases hstate : s.task.taskState with
    | start => exact keeps_start inv hcomplete hstate
    | queryDeviceIdentifiersSetupReq =>
      exact keeps_queryDeviceIdentifiersSetupReq inv hcomplete hstate
    | queryDeviceIdentifiersProcessRsp =>
      exact keeps_queryDeviceIdentifiersProcessRsp inv hcomplete hstate
    | getFwParamsSetupReq => exact keeps_getFwParamsSetupReq inv hcomplete hstate
    | getFwParamsProcessRsp => exact keeps_getFwParamsProcessRsp inv hcomplete hstate
    | processPackage => exact keeps_processPackage inv hcomplete hstate
    | requestUpdateSetupReq => exact keeps_requestUpdateSetupReq inv hcomplete hstate
    | requestUpdateProcessRsp => exact keeps_requestUpdateProcessRsp inv hcomplete hstate
    | passComponentTableSetupReq => exact keeps_passComponentTableSetupReq inv hcomplete hstate
    | passComponentTableProcessRsp => exact keeps_passComponentTableProcessRsp inv hcomplete hstate
    | passComponentTableNextComponent =>
      exact keeps_passComponentTableNextComponent inv hcomplete hstate
    | updateComponentSetupReq => exact keeps_updateComponentSetupReq inv hcomplete hstate
    | updateComponentProcessRsp => exact keeps_updateComponentProcessRsp inv hcomplete hstate
    | waitForRequests => exact keeps_waitForRequests inv hcomplete hstate
    | requestFwDataHandleReq => exact keeps_requestFwDataHandleReq inv hcomplete hstate
    | transferCompleteHandleReq => exact keeps_transferCompleteHandleReq inv hcomplete hstate order
    | verifyCompleteHandleReq => exact keeps_verifyCompleteHandleReq inv hcomplete hstate order
    | applyCompleteHandleReq => exact keeps_applyCompleteHandleReq inv hcomplete hstate order
    | nextComponent => exact keeps_nextComponent inv hcomplete hstate
    | activateFwSetupReq => exact keeps_activateFwSetupReq inv hcomplete hstate
    | activateFwProcessRsp => exact keeps_activateFwProcessRsp inv hcomplete hstate
    | complete => exact keeps_complete inv hcomplete hstate
    | receive => exact keeps_receive inv hcomplete hstate order
    | sendReq => exact keeps_sendReq inv hcomplete hstate
    | processRsp => exact keeps_processRsp inv hcomplete hstate
    | retryReq => exact keeps_retryReq inv hcomplete hstate
    | fatalError => exact keeps_fatalError inv hcomplete hstate
    | cancelUpdateComponentSetupReq =>
      exact keeps_cancelUpdateComponentSetupReq inv hcomplete hstate
    | cancelUpdateComponentProcessRsp =>
      exact keeps_cancelUpdateComponentProcessRsp inv hcomplete hstate
    | cancelUpdateSetupReq => exact keeps_cancelUpdateSetupReq inv hcomplete hstate
    | cancelUpdateProcessRsp => exact keeps_cancelUpdateProcessRsp inv hcomplete hstate
    | max =>
      have hdone : s.task.complete = true := (inv.at hstate rfl rfl).1
      exact absurd (hcomplete.symm.trans hdone) Bool.false_ne_true

end

theorem inv_create (pkgHdr : Memory) (pkgLen : Nat) : Inv (Session.create pkgHdr pkgLen) where
  activation := OnlyAfter.nil _ _
  timer := fun _ => rfl
  command := rfl
  stage := ⟨rfl, nofun⟩

/-- Nothing gets stuck, and the invariant holds, in every run of a device that keeps to the
order. -/
theorem inv_run {pkgHdr : Memory} {pkgLen : Nat} {events : List (Input × Globals)}
    (order : Along Session.advance InOrder events (Session.create pkgHdr pkgLen)) :
    ∃ s, run Session.advance events (Session.create pkgHdr pkgLen) = some s ∧ Inv s :=
  run_invariant (fun _ _ => keeps_step) (inv_create pkgHdr pkgLen) order

end Pldm
