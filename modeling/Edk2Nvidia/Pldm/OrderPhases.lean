import Edk2Nvidia.Pldm.OrderSteps

/-! The update of one component after the other, and the activation, keep the invariant. -/
namespace Pldm
open Flash Parse Transition

section
variable {plan : Plan} {task task' : Task} {log : List Entry}

/-- All that a stage depends on but the state. -/
structure SameWork (task task' : Task) : Prop where
  cursor : task'.cursor = task.cursor
  fdState : task'.fdState = task.fdState
  request : task'.request = task.request
  requestLength : task'.requestLength = task.requestLength

theorem SameWork.fresh (same : SameWork task task') (h : Fresh task log) : Fresh task' log :=
  ⟨same.fdState.trans h.1, h.2⟩

theorem SameWork.atWork (same : SameWork task task') (h : AtWork task log) : AtWork task' log := by
  obtain ⟨hgranted, plan, hpair, hreached⟩ := h
  refine ⟨hgranted, plan, ?_, ?_⟩
  · rw [same.cursor]
    exact hpair
  · have hi : task'.componentImageIndex = task.componentImageIndex :=
      congrArg Cursor.componentImageIndex same.cursor
    have hk : task'.fwParamsComponentIndex = task.fwParamsComponentIndex :=
      congrArg Cursor.fwParamsComponentIndex same.cursor
    rw [hi, hk, same.fdState]
    exact hreached

theorem SameWork.busy (same : SameWork task task') (h : Busy task') : Busy task := by
  unfold Busy at h ⊢
  rw [← same.fdState]
  exact h

/-- The component has been offered already, or the task still sends its request. -/
theorem SameWork.pending (same : SameWork task task')
    (sends : task.taskState = .sendReq → task'.taskState = .sendReq) (h : Pending task log) :
    Pending task' log := by
  obtain ⟨hgranted, hfd, plan, hpair, hrequest, hoffered⟩ := h
  have hi : task'.componentImageIndex = task.componentImageIndex :=
    congrArg Cursor.componentImageIndex same.cursor
  have hk : task'.fwParamsComponentIndex = task.fwParamsComponentIndex :=
    congrArg Cursor.fwParamsComponentIndex same.cursor
  refine ⟨hgranted, same.fdState.trans hfd, plan, ?_, ?_, ?_⟩
  · rw [same.cursor]
    exact hpair
  · rw [same.request, same.requestLength, hi, hk]
    exact hrequest
  · rw [hi, hk]
    exact hoffered.imp_left sends

theorem SameWork.ready (same : SameWork task task') (h : Ready task log) : Ready task' log := by
  obtain ⟨hgranted, plan, hplanned, hall⟩ := h
  exact ⟨hgranted, plan, same.cursor ▸ hplanned, hall⟩

/-- Between request and response the state may change, as long as nothing is sent again that
was not outstanding. -/
theorem Stage.move {state : TaskState} {command : UInt8} (h : Stage task log state)
    (same : SameWork task task') (awaits : commandFor state = some command)
    (sends : state = .updateComponentProcessRsp → task.taskState = .sendReq →
      task'.taskState = .sendReq)
    (settled : Settled task → Settled task') : Stage task' log state := by
  have hrecord : task'.deviceIdRecord = task.deviceIdRecord :=
    congrArg Cursor.deviceIdRecord same.cursor
  cases state with
  | start => exact same.fresh h
  | queryDeviceIdentifiersProcessRsp => exact same.fresh h
  | getFwParamsProcessRsp =>
    refine ⟨same.fresh h.1, ?_⟩
    rw [hrecord]
    exact h.2
  | requestUpdateProcessRsp =>
    refine ⟨same.fresh h.1, ?_⟩
    rw [same.cursor]
    exact h.2
  | passComponentTableProcessRsp =>
    refine ⟨h.1, ?_⟩
    rw [same.cursor, same.fdState]
    exact h.2
  | updateComponentProcessRsp =>
    exact h.imp (same.pending (sends rfl)) fun h => ⟨same.atWork h.1, settled h.2⟩
  | activateFwProcessRsp => exact ⟨same.fdState.trans h.1, same.ready h.2⟩
  | cancelUpdateComponentProcessRsp => exact fun busy => same.atWork (h (same.busy busy))
  | cancelUpdateProcessRsp => exact fun busy => same.atWork (h (same.busy busy))
  | _ => cases awaits

theorem Stage.progress {state : TaskState} {command : UInt8} {log' : List Entry}
    (h : Stage task log state) (awaits : commandFor state = some command) (busy : Busy task)
    (settled : Settled task → Settled task') (work : AtWork task' log') :
    Stage task' log' state := by
  have hnot : ∀ fd, task.fdState = fd → fd ≠ .download → fd ≠ .verify → fd ≠ .apply → False := by
    rintro fd hfd hd hv ha
    unfold Busy at busy
    rw [hfd] at busy
    exact busy.elim hd fun h => h.elim hv ha
  cases state with
  | start => exact (hnot _ h.1 nofun nofun nofun).elim
  | queryDeviceIdentifiersProcessRsp => exact (hnot _ h.1 nofun nofun nofun).elim
  | getFwParamsProcessRsp => exact (hnot _ h.1.1 nofun nofun nofun).elim
  | requestUpdateProcessRsp => exact (hnot _ h.1.1 nofun nofun nofun).elim
  | passComponentTableProcessRsp =>
    exact h.2.1.elim (fun h => (hnot _ h nofun nofun nofun).elim)
      fun h => (hnot _ h nofun nofun nofun).elim
  | updateComponentProcessRsp =>
    exact h.elim (fun h => (hnot _ h.2.1 nofun nofun nofun).elim) fun h => .inr ⟨work, settled h.2⟩
  | activateFwProcessRsp => exact (hnot _ h.1 nofun nofun nofun).elim
  | cancelUpdateComponentProcessRsp => exact fun _ => work
  | cancelUpdateProcessRsp => exact fun _ => work
  | _ => cases awaits

end

section
variable {s : Session} {event : Input × Globals} {state : TaskState}

theorem responses_sendResponse (input : Input) (task : Task) (code : UInt8) (data : List UInt8) :
    ∀ sent ∈ (sendResponse input task code data).2, sent.isRequest = false := by
  intro sent hsent
  unfold sendResponse at hsent
  split at hsent
  · cases hsent
  · cases List.mem_singleton.mp hsent
    rfl

theorem Inv.alive (inv : Inv s) (hshared : shared s.task.taskState = true) :
    focus s.task ≠ .complete ∧ focus s.task ≠ .max ∧ focus s.task ≠ .fatalError := by
  have hcommand := inv.command
  rw [focus, hshared, if_pos rfl]
  refine ⟨fun h => ?_, fun h => ?_, fun h => ?_⟩
  all_goals
    rw [h] at hcommand
    cases hcommand

/-! Offering a component. -/

theorem keeps_updateComponentSetupReq (inv : Inv s) (running : s.task.complete = false)
    (hstate : s.task.taskState = .updateComponentSetupReq) : Keeps s event := by
  refine keeps_unlessCancelled inv running hstate rfl (by rintro ⟨⟩) (.inr rfl) ?_ fun hc => ?_
  · rw [focus, hstate]
    exact ⟨by rintro ⟨⟩, by rintro ⟨⟩, by rintro ⟨⟩⟩
  obtain ⟨hgranted, hfd, hindex, plan, hsetUp, hbefore⟩ := inv.at hstate rfl rfl
  cases happ : plan.applicable s.task.componentImageIndex with
  | false =>
    refine keeps_quiet _ inv running hstate (updateComponentSetupReq_skip hc hsetUp happ) (by rintro ⟨⟩) rfl
      (fun _ h => h) ⟨rfl, rfl, rfl, rfl⟩ rfl
      ⟨hgranted, hfd, plan, hsetUp, hbefore, fun k _ hpair => ?_⟩
    exact absurd (happ.symm.trans hpair.applicable) Bool.false_ne_true
  | true =>
    cases hnext : plan.next s.task.componentImageIndex s.task.fwParamsComponentIndex with
    | mk found k =>
      cases found with
      | false =>
        obtain ⟨rfl, hnone⟩ := plan.next_none hnext
        refine keeps_quiet _ inv running hstate (updateComponentSetupReq_none hc hsetUp happ hnext)
          (by rintro ⟨⟩) rfl (fun _ h => ⟨h.pkg, h.record, h.response⟩) ⟨rfl, rfl, rfl, rfl⟩ rfl
          ⟨hgranted, hfd, plan, hsetUp.toComponent 0, hbefore, fun k _ hpair => ?_⟩
        have hno := hnone k (by omega) hpair.component
        exact absurd (hno.symm.trans hpair.compatible) Bool.false_ne_true
      | true =>
        obtain ⟨-, hk, hcompatible, hfirst⟩ := plan.next_found hnext
        refine keeps_setup inv running hstate (updateComponentSetupReq_found hc hsetUp happ hnext)
          (by rintro ⟨⟩) rfl (fun _ h => ⟨h.pkg, h.record, h.response⟩) ⟨rfl, rfl⟩
          (.inl ⟨hgranted, hfd, plan, ?_, ⟨_, sendReqSetup_message _ _ _ .updateComponentProcessRsp⟩,
            .inl rfl⟩)
        have hsetUp' := hsetUp.toComponent k
        exact ⟨⟨hsetUp'.planned, hsetUp'.area, hsetUp'.info, hsetUp'.image⟩,
          ⟨hsetUp.image, happ, hk, hcompatible⟩, fun j hj => hfirst j (by omega) hj, hbefore⟩

theorem keeps_updateComponentProcessRsp (inv : Inv s) (running : s.task.complete = false)
    (hstate : s.task.taskState = .updateComponentProcessRsp) : Keeps s event := by
  refine keeps_unlessCancelled inv running hstate rfl (by rintro ⟨⟩) (.inr rfl) ?_ fun hc => ?_
  · rw [focus, hstate]
    exact ⟨by rintro ⟨⟩, by rintro ⟨⟩, by rintro ⟨⟩⟩
  obtain ⟨log, message, hlog, heard, hheard, hstage⟩ := inv.hears hstate rfl
  rw [focus, hstate] at hstage
  have answers : Answers Command.updateComponent message := inv.answers hheard rfl
  have hbody : updateComponentProcessRsp event.1 event.2 s.task = _ := unlessCancelled_of_not hc
  have hpending : Pending s.task log := by
    rcases hstage with hpending | ⟨-, -, -, -, hne⟩
    · exact hpending
    · exact absurd hstate hne
  obtain ⟨hgranted, -, plan, hpair, -, hoffered⟩ := hpending
  have hoffered := hoffered.resolve_left fun h => by cases hstate.symm.trans h
  have hnow : ∀ task' : Task, task'.processResponseState = s.task.processResponseState →
      Stage { task' with taskState := .waitForRequests } s.log .updateComponentProcessRsp →
      Stage { task' with taskState := .waitForRequests } s.log
        (focus { task' with taskState := .waitForRequests }) := by
    rintro task' h hstage
    have hfocus : focus { task' with taskState := .waitForRequests } = .updateComponentProcessRsp :=
      h.trans hheard.state
    rwa [hfocus]
  refine keeps_answered inv running hstate hbody (by rintro ⟨⟩) rfl
    (fun _ h => ⟨h.pkg, h.record, h.response⟩)
    ⟨rfl, rfl, rfl, rfl⟩ fun hcode hlength hwill => hnow _ rfl (.inr ⟨⟨?_, plan, ?_, ?_⟩, ?_⟩)
  · exact hlog ▸ hgranted.append _
  · have hpair' := hpair.append [.received message]
    rw [← hlog] at hpair'
    exact ⟨⟨⟨hpair.setUp.planned.pkg, hpair.setUp.planned.record, hpair.setUp.planned.response⟩,
      hpair.setUp.area, hpair.setUp.info, hpair.setUp.image⟩, hpair.pair, hpair.first, hpair'.before⟩
  · have hbyte : s.task.recvBuffer 5 = message.getD 5 0 := heard.byte (by rw [← heard.length]; omega)
    rw [hlog]
    exact Offered.accepted hoffered ⟨answers.ok heard hcode,
      hbyte.symm.trans (Decidable.of_not_not hwill)⟩
  · exact ⟨hheard.settled, by rintro ⟨⟩, by rintro ⟨⟩, by rintro ⟨⟩⟩

/-! Waiting for the device. -/

theorem keeps_waitForRequests (inv : Inv s) (running : s.task.complete = false)
    (hstate : s.task.taskState = .waitForRequests) : Keeps s event := by
  have alive := inv.alive (by rw [hstate]; rfl)
  refine keeps_unlessCancelled inv running hstate rfl nofun (.inr rfl) alive fun hc => ?_
  have hstage := inv.between hstate rfl rfl
  have hbody : waitForRequests event.1 event.2 s.task = _ := unlessCancelled_of_not hc
  exact keeps_quiet _ inv running hstate hbody nofun rfl (fun _ h => h) ⟨rfl, rfl, rfl, rfl⟩ rfl
    (hstage.move ⟨rfl, rfl, rfl, rfl⟩ inv.command (fun _ h => nomatch hstate.symm.trans h)
      fun h => ⟨h.1, nofun, nofun, nofun⟩)

/-! Requests of the device. -/

theorem keeps_requestFwDataHandleReq (inv : Inv s) (running : s.task.complete = false)
    (hstate : s.task.taskState = .requestFwDataHandleReq) : Keeps s event := by
  have alive := inv.alive (by rw [hstate]; rfl)
  refine keeps_unlessCancelled inv running hstate rfl (by rintro ⟨⟩) (.inr rfl) alive fun hc => ?_
  obtain ⟨log, message, hlog, -, -, hstage⟩ := inv.hears hstate rfl
  rw [focus, hstate, if_pos (by decide)] at hstage
  have hinfo : s.task.fdState = .download → ∃ info, s.task.imageInfo = some info := by
    intro hfd
    obtain ⟨-, plan, hpair, -⟩ := inv.busy alive (.inl hfd)
    exact ⟨_, hpair.setUp.info⟩
  obtain ⟨answer, hanswer⟩ := requestFwDataAnswer_some
    { s.task with lastFwDataRequested := u32 (le32 s.task.recvBuffer 4 + le32 s.task.recvBuffer 8) }
    (le32 s.task.recvBuffer 4) (le32 s.task.recvBuffer 8) hinfo
  have hbody : requestFwDataHandleReq event.1 event.2 s.task = _ := unlessCancelled_of_not hc
  simp only [hanswer, Option.bind_eq_bind, Option.bind_some] at hbody
  refine keeps_of_stage _ inv running hstate hbody (by rintro ⟨⟩) rfl (.inl fun _ h => h) inv.timer
    inv.command ?_ fun later harmless => ?_
  · exact responses_sendResponse event.1 _ _ _
  · have hlater : Stage s.task (s.log ++ later) s.task.processResponseState := by
      rw [hlog]
      exact (hstage.append (harmless_heard message)).append harmless
    exact hlater.move ⟨rfl, rfl, rfl, rfl⟩ inv.command (fun _ h => by cases hstate.symm.trans h)
      fun h => ⟨h.1, by rintro ⟨⟩, by rintro ⟨⟩, by rintro ⟨⟩⟩

/-- The end of a phase: the device's good report takes the component to the next one. -/
theorem keeps_phaseComplete {badLen : TaskError} {error : UInt8 → TaskError}
    {received done : Task → Task} {command : UInt8} {fdState fdState' : FDState}
    (inv : Inv s) (running : s.task.complete = false) (hstate : s.task.taskState = state)
    (h : handler state = phaseCompleteHandleReq badLen error received done)
    (hshared : shared state = true) (hhearing : hearing state = true) (deaf : state ≠ .receive)
    (order : InOrder s event) (hne : state ≠ .requestFwDataHandleReq) (hdue : due state = some fdState)
    (hbusy : s.task.fdState = fdState → Busy s.task)
    (hheard : ∀ message, HeardAs s.task message state →
      IsRequest message ∧ commandOf message = command)
    (hreceived : SameRequest s.task (received s.task) ∧ (received s.task).cursor = s.task.cursor)
    (hdone : ∀ task, SameRequest task (done task) ∧ (done task).cursor = task.cursor ∧
      (done task).fdState = fdState')
    (hreached : ∀ plan i k log message, Reached plan i k log fdState →
      ReportsSuccess command message → Reached plan i k (log ++ [.received message]) fdState') :
    Keeps s event := by
  have alive := inv.alive (by rw [hstate]; exact hshared)
  have hhandler : handler state = unlessCancelled .cancelUpdateComponentSetupReq _ := h
  refine keeps_unlessCancelled inv running hstate hhandler deaf (.inr rfl) alive fun hc => ?_
  obtain ⟨log, message, hlog, heard, has, hstage⟩ := inv.hears hstate hhearing
  have hbody : handler state event.1 event.2 s.task = _ :=
    (congrFun (congrFun (congrFun hhandler event.1) event.2) s.task).trans (unlessCancelled_of_not hc)
  by_cases hlength : s.task.recvLength < 5
  · rw [if_pos hlength] at hbody
    exact keeps_failed badLen inv running hstate hbody deaf (fun _ h => h) ⟨rfl, rfl, rfl, rfl⟩
  rw [if_neg hlength] at hbody
  obtain ⟨same, hcursor⟩ := hreceived
  have hresponses := responses_sendResponse event.1 (received s.task) Completion.success []
  have hanswered : SameRequest s.task
      (sendResponse event.1 (received s.task) Completion.success []).1 :=
    ⟨same.active, same.timer, same.request, same.processResponseState⟩
  have hcursor : (sendResponse event.1 (received s.task) Completion.success []).1.cursor =
      s.task.cursor := hcursor
  generalize (sendResponse event.1 (received s.task) Completion.success []) = answer at *
  obtain ⟨answered, sent⟩ := answer
  by_cases hresult : s.task.recvBuffer 4 ≠ 0
  · simp only [if_pos hresult] at hbody
    refine keeps_of_stage _ inv running hstate hbody deaf rfl (.inl fun plan h => ?_)
      (hanswered.timed inv) (hanswered.commanded inv) hresponses fun _ _ => trivial
    exact hcursor.symm ▸ h
  · simp only [if_neg hresult] at hbody
    obtain ⟨hsame, hcursor', hfd'⟩ := hdone answered
    have hsame := hanswered.trans hsame
    have hcursor' : (done answered).cursor = s.task.cursor := hcursor'.trans hcursor
    refine keeps_of_stage _ inv running hstate hbody deaf rfl (.inl fun plan h => ?_)
      (hsame.timed inv) (hsame.commanded inv) hresponses fun later harmless => ?_
    · exact hcursor'.symm ▸ h
    · obtain ⟨hrequest, hcommand⟩ := hheard message has
      have hfd : s.task.fdState = fdState := by
        have timely := order.2 hc (by rw [hstate]; exact hne)
        rw [Timely, hstate] at timely
        exact timely fdState hdue
      obtain ⟨hgranted, plan, hpair, hphase⟩ := hstage.busy alive (hbusy hfd)
      have hsuccess : ReportsSuccess command message := by
        have hfour : 4 < message.length := by
          rw [← heard.length]
          omega
        exact ⟨⟨heard.genuine, hrequest, hcommand, hfour⟩,
          (heard.byte hfour).symm.trans (Decidable.of_not_not hresult)⟩
      have hi : (done answered).componentImageIndex = s.task.componentImageIndex :=
        congrArg Cursor.componentImageIndex hcursor'
      have hk : (done answered).fwParamsComponentIndex = s.task.fwParamsComponentIndex :=
        congrArg Cursor.fwParamsComponentIndex hcursor'
      have hwork : AtWork { done answered with taskState := .waitForRequests } s.log := by
        rw [hlog]
        refine ⟨hgranted.append _, plan, ?_, ?_⟩
        · have hpair := hpair.append [.received message]
          rw [← hcursor'] at hpair
          exact ⟨hpair.setUp, hpair.pair, hpair.first, hpair.before⟩
        · change Reached plan (done answered).componentImageIndex
            (done answered).fwParamsComponentIndex _ (done answered).fdState
          rw [hi, hk, hfd']
          exact hreached plan _ _ log message (hfd ▸ hphase) hsuccess
      have hfocus : focus s.task = s.task.processResponseState := by
        rw [focus, hstate, hshared, if_pos rfl]
      rw [hfocus] at hstage
      have hprogress : Stage { done answered with taskState := .waitForRequests } (s.log ++ later)
          s.task.processResponseState :=
        hstage.progress inv.command (hbusy hfd)
          (fun h => ⟨hsame.active.trans h.1, by rintro ⟨⟩, by rintro ⟨⟩, by rintro ⟨⟩⟩)
          (hwork.append harmless)
      rw [← hsame.processResponseState] at hprogress
      exact hprogress

theorem keeps_transferCompleteHandleReq (inv : Inv s) (running : s.task.complete = false)
    (hstate : s.task.taskState = .transferCompleteHandleReq) (order : InOrder s event) : Keeps s event := by
  have h : transferCompleteHandleReq = phaseCompleteHandleReq _ _ _ _ := rfl
  exact keeps_phaseComplete inv running hstate h rfl rfl nofun order nofun rfl .inl (fun _ h => h)
    ⟨⟨rfl, rfl, rfl, rfl⟩, rfl⟩ (fun _ => ⟨⟨rfl, rfl, rfl, rfl⟩, rfl, rfl⟩) fun _ _ _ _ _ haccepted hsuccess =>
      show Reached _ _ _ _ .verify from Accepted.transferred haccepted hsuccess

theorem keeps_verifyCompleteHandleReq (inv : Inv s) (running : s.task.complete = false)
    (hstate : s.task.taskState = .verifyCompleteHandleReq) (order : InOrder s event) : Keeps s event := by
  have h : verifyCompleteHandleReq = phaseCompleteHandleReq _ _ _ _ := rfl
  exact keeps_phaseComplete inv running hstate h rfl rfl nofun order nofun rfl
    (fun h => .inr (.inl h)) (fun _ h => h)
    ⟨⟨rfl, rfl, rfl, rfl⟩, rfl⟩ (fun _ => ⟨⟨rfl, rfl, rfl, rfl⟩, rfl, rfl⟩) fun _ _ _ _ _ htransferred hsuccess =>
      show Reached _ _ _ _ .apply from Transferred.verified htransferred hsuccess

theorem keeps_applyCompleteHandleReq (inv : Inv s) (running : s.task.complete = false)
    (hstate : s.task.taskState = .applyCompleteHandleReq) (order : InOrder s event) : Keeps s event := by
  have alive := inv.alive (by rw [hstate]; rfl)
  refine keeps_unlessCancelled inv running hstate rfl nofun (.inr rfl) alive fun hc => ?_
  obtain ⟨log, message, hlog, heard, ⟨hrequest, hcommand⟩, hstage⟩ := inv.hears hstate rfl
  have hfd : s.task.fdState = .apply := by
    have timely := order.2 hc (by rw [hstate]; exact nofun)
    rw [Timely, hstate] at timely
    exact timely .apply rfl
  have hbody : applyCompleteHandleReq event.1 event.2 s.task = _ := unlessCancelled_of_not hc
  by_cases hlength : s.task.recvLength < 7
  · rw [if_pos hlength] at hbody
    exact keeps_failed .applyCompleteBadLen inv running hstate hbody nofun (fun _ h => h)
      ⟨rfl, rfl, rfl, rfl⟩
  rw [if_neg hlength] at hbody
  obtain ⟨hgranted, plan, hpair, hverified⟩ := hstage.busy alive (.inr (.inr hfd))
  have hinfo : s.task.imageInfo = some (plan.info s.task.componentImageIndex) := hpair.setUp.info
  have hmethod : ∃ method, appliedActivationMethod s.task (s.task.recvBuffer 4) = some method := by
    unfold appliedActivationMethod
    rw [hinfo]
    split
    · exact ⟨_, rfl⟩
    · exact ⟨_, rfl⟩
  obtain ⟨method, hmethod⟩ := hmethod
  simp only [hmethod, Option.bind_eq_bind, Option.bind_some] at hbody
  have hresponses := responses_sendResponse event.1 s.task Completion.success []
  split at hbody
  · exact keeps_of_stage _ inv running hstate hbody nofun rfl (.inl fun _ h => h) inv.timer inv.command
      hresponses fun _ _ => trivial
  · rename_i hgood
    have happlied : ReportsApplied message := by
      have hfour : 4 < message.length := by
        rw [← heard.length]
        omega
      have hresult : s.task.recvBuffer 4 = message.getD 4 0 := heard.byte hfour
      rw [hresult] at hgood
      refine ⟨⟨heard.genuine, hrequest, hcommand, hfour⟩, ?_⟩
      by_cases hzero : message.getD 4 0 = applyResultSuccess
      · exact .inl hzero
      · exact .inr (Decidable.of_not_not fun hone => hgood ⟨hzero, hone⟩)
    refine keeps_of_stage _ inv running hstate hbody nofun rfl (.inl fun _ h => h) inv.timer inv.command
      hresponses fun later harmless => ?_
    refine ⟨(hlog ▸ hgranted.append _).append _, rfl, plan, ?_, ?_, ?_⟩
    · exact ⟨⟨hpair.setUp.planned.pkg, hpair.setUp.planned.record, hpair.setUp.planned.response⟩,
        hpair.setUp.area, hpair.setUp.info, hpair.setUp.image⟩
    · rw [hlog]
      exact fun i hi => ((hpair.before i hi).append _).append _
    · intro k hk hother
      rcases Nat.lt_or_eq_of_le hk with hlt | rfl
      · exact absurd ((hpair.first k hlt).symm.trans hother.compatible) Bool.false_ne_true
      · rw [hlog]
        have hverified : Verified plan s.task.componentImageIndex s.task.fwParamsComponentIndex log := by
          rw [hfd] at hverified
          exact hverified
        exact (hverified.installed happlied).append _

/-! The next component, and the activation. -/

/-- An image is installed on all components when it is on those up to the last one it is
for. -/
theorem covered_of_last {log : List Entry} {plan : Plan} {i k : Nat}
    (upTo : ∀ j ≤ k, plan.IsPair i j → Installed plan i j log)
    (last : ∀ j, k + 1 ≤ j → j < plan.componentCount → plan.compatible i j = false) :
    Covered plan i log := by
  intro j hpair
  by_cases hj : j ≤ k
  · exact upTo j hj hpair
  · have hno := last j (by omega) hpair.component
    exact absurd (hno.symm.trans hpair.compatible) Bool.false_ne_true

theorem keeps_nextComponent (inv : Inv s) (running : s.task.complete = false)
    (hstate : s.task.taskState = .nextComponent) : Keeps s event := by
  refine keeps_unlessCancelled inv running hstate rfl (by rintro ⟨⟩) (.inr rfl) ?_ fun hc => ?_
  · rw [focus, hstate]
    exact ⟨by rintro ⟨⟩, by rintro ⟨⟩, by rintro ⟨⟩⟩
  obtain ⟨hgranted, hfd, plan, hsetUp, hbefore, hcurrent⟩ := inv.at hstate rfl rfl
  cases hnext : plan.next s.task.componentImageIndex (s.task.fwParamsComponentIndex + 1) with
  | mk found k =>
    cases found with
    | true =>
      exact keeps_quiet _ inv running hstate (nextComponent_found hc hsetUp hnext) (by rintro ⟨⟩) rfl
        (fun _ h => ⟨h.pkg, h.record, h.response⟩) ⟨rfl, rfl, rfl, rfl⟩ rfl
        ⟨hgranted, .inr hfd, plan, hsetUp.toComponent k⟩
    | false =>
      obtain ⟨rfl, hlast⟩ := plan.next_none hnext
      have hcovered : ∀ i ≤ s.task.componentImageIndex, Covered plan i s.log := by
        intro i hi
        rcases Nat.lt_or_eq_of_le hi with hlt | rfl
        · exact hbefore i hlt
        · exact covered_of_last hcurrent hlast
      by_cases hmore : s.task.componentImageIndex + 1 < plan.imageCount
      · exact keeps_quiet _ inv running hstate (nextComponent_more hc hsetUp hnext hmore) (by rintro ⟨⟩) rfl
          (fun _ h => ⟨h.pkg, h.record, h.response⟩) ⟨rfl, rfl, rfl, rfl⟩ rfl
          ⟨hgranted, hfd, rfl, plan, hsetUp.toNextImage hmore,
            fun i hi => hcovered i (Nat.le_of_lt_succ hi)⟩
      · refine keeps_quiet _ inv running hstate
          (nextComponent_last hc hsetUp hnext (Nat.le_of_not_lt hmore)) (by rintro ⟨⟩) rfl
          (fun _ h => ⟨h.pkg, h.record, h.response⟩) ⟨rfl, rfl, rfl, rfl⟩ rfl
          ⟨hfd, hgranted, plan,
            ⟨hsetUp.planned.pkg, hsetUp.planned.record, hsetUp.planned.response⟩, fun i k hpair => ?_⟩
        have himage := hpair.image
        exact hcovered i (by omega) k hpair

theorem keeps_activateFwSetupReq (inv : Inv s) (running : s.task.complete = false)
    (hstate : s.task.taskState = .activateFwSetupReq) : Keeps s event := by
  refine keeps_unlessCancelled inv running hstate rfl (by rintro ⟨⟩) (.inr rfl) ?_ fun hc => ?_
  · rw [focus, hstate]
    exact ⟨by rintro ⟨⟩, by rintro ⟨⟩, by rintro ⟨⟩⟩
  obtain ⟨hfd, hgranted, plan, hplanned, hall⟩ := inv.at hstate rfl rfl
  have hbody : activateFwSetupReq event.1 event.2 s.task = _ := unlessCancelled_of_not hc
  refine keeps_of_stage _ inv running hstate hbody (by rintro ⟨⟩) rfl (.inl fun _ h => h)
    inv.timer ?_ (by intros; contradiction)
    fun later harmless => ⟨rfl, hgranted.append _, plan, hplanned, hall.append _⟩
  have hcommand := sendReqSetup_command s.task Command.activateFw [0] .activateFwProcessRsp
  exact congrArg some hcommand.symm

theorem keeps_activateFwProcessRsp (inv : Inv s) (running : s.task.complete = false)
    (hstate : s.task.taskState = .activateFwProcessRsp) : Keeps s event := by
  obtain ⟨log, message, hlog, heard, hheard, hstage⟩ := inv.hears hstate rfl
  rw [focus, hstate] at hstage
  obtain ⟨-, hready⟩ : s.task.fdState = .activate ∧ Ready s.task log := hstage
  have answers : Answers Command.activateFw message := inv.answers hheard rfl
  cases hcheck : (fwCheckRspCompletionAndLength s.task.response s.task.recvLength 7).isError with
  | true =>
    exact keeps_failed .activateFwFailed inv running hstate (if_pos hcheck) (by rintro ⟨⟩) (fun _ h => h)
      ⟨rfl, rfl, rfl, rfl⟩
  | false =>
    have hbody : handler .activateFwProcessRsp event.1 event.2 s.task =
        some { next := .complete, task := s.task.setFDState .idle, globals := event.2 } := by
      simp only [handler, activateFwProcessRsp, hcheck, Bool.false_eq_true, if_false]
    refine keeps_quiet _ inv running hstate hbody (by rintro ⟨⟩) rfl (fun _ h => h) ⟨rfl, rfl, rfl, rfl⟩ rfl
      fun _ => .inr ⟨?_, ?_⟩
    · rw [hlog]
      exact SameWork.ready ⟨rfl, rfl, rfl, rfl⟩ (hready.append _)
    · rw [hlog]
      exact ⟨_, List.mem_append_right _ (List.mem_singleton_self _), answers⟩

end

end Pldm
