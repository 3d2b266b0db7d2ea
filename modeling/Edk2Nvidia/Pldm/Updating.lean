import Edk2Nvidia.Pldm.Learning

/-! The update of the components, one after the other, by a device that accepts
everything. -/
namespace Pldm
open Flash Parse Transition

/-- The `UpdateComponent` of a pair. -/
def Plan.offers (plan : Plan) (pair : Nat × Nat) : List UInt8 :=
  Command.updateComponent :: plan.updateRequest pair.1 pair.2

/-! One component. -/

/-- The state that handles the report of the end of a phase. -/
def reportedTo : FDState → TaskState
  | .download => .transferCompleteHandleReq
  | .verify => .verifyCompleteHandleReq
  | .apply => .applyCompleteHandleReq
  | _ => .receive

/-- The device is in a phase, and the task waits for what it sends. -/
structure InPhase (plan : Plan) (i k : Nat) (requests : List (List UInt8)) (fdState : FDState)
    (s : Session) : Prop where
  idle : s.task.requestIsActive = false
  standing : Standing plan i k fdState s.task.progress
  log : requestsOf s.log = requests
  phase : fdState = .download ∨ fdState = .verify ∨ fdState = .apply
  state : s.task.taskState = .receive ∨ s.task.taskState = .waitForRequests ∨
    s.task.taskState = .requestFwDataHandleReq ∧ fdState = .download

/-- The device has reported the end of its phase, and that it went well. -/
structure Reported (plan : Plan) (i k : Nat) (requests : List (List UInt8)) (fdState : FDState)
    (s : Session) : Prop where
  state : s.task.taskState = reportedTo fdState
  idle : s.task.requestIsActive = false
  standing : Standing plan i k fdState s.task.progress
  log : requestsOf s.log = requests
  length : 5 ≤ s.task.recvLength
  result : fdState ≠ .apply → s.task.recvBuffer 4 = 0
  applied : fdState = .apply → 7 ≤ s.task.recvLength ∧
    (s.task.recvBuffer 4 = applyResultSuccess ∨ s.task.recvBuffer 4 = applyResultSuccessNewActivation)

theorem requestsOf_responses {s : Session} {input : Input} {outcome : Outcome}
    (responses : ∀ sent ∈ outcome.sent, sent.isRequest = false) :
    requestsOf (s.after input outcome).log = requestsOf s.log := by
  have hnone : requestsOf (outcome.sent.map .sent) = [] := by
    refine List.filterMap_eq_nil_iff.mpr fun entry hentry => ?_
    obtain ⟨sent, hmem, rfl⟩ := List.mem_map.mp hentry
    simp only [responses sent hmem, Bool.false_eq_true, if_false]
  rw [requestsOf_after, hnone, List.append_nil]

section
variable {badLen : TaskError} {error : UInt8 → TaskError} {received done : Task → Task}
  {input : Input} {globals : Globals} {task : Task}

theorem phaseComplete_done (hc : globals.cancelAllUpdates = false) (hlength : 5 ≤ task.recvLength)
    (hresult : task.recvBuffer 4 = 0) :
    phaseCompleteHandleReq badLen error received done input globals task =
      let answer := sendResponse input (received task) Completion.success []
      some { next := .waitForRequests, task := done answer.1, globals, sent := answer.2 } := by
  rw [phaseCompleteHandleReq, unlessCancelled_of_not hc]
  simp only [Nat.not_lt.mpr hlength, hresult, if_false, ne_eq, not_true_eq_false]

/-- The methods of activation are the component's, or what the device has to say of them. -/
theorem applyComplete_done {info : Nat} (hc : globals.cancelAllUpdates = false)
    (hlength : 7 ≤ task.recvLength) (hinfo : task.imageInfo = some info)
    (hresult : task.recvBuffer 4 = applyResultSuccess ∨
      task.recvBuffer 4 = applyResultSuccessNewActivation) :
    ∃ globals', applyCompleteHandleReq input globals task =
      let answer := sendResponse input task Completion.success []
      some { next := .nextComponent, task := answer.1.setFDState .readyXfer, globals := globals'
             sent := answer.2 } := by
  have hgood : ¬ (task.recvBuffer 4 ≠ applyResultSuccess ∧
      task.recvBuffer 4 ≠ applyResultSuccessNewActivation) :=
    fun h => hresult.elim h.1 h.2
  obtain ⟨method, hmethod⟩ : ∃ method, appliedActivationMethod task (task.recvBuffer 4) = some method := by
    unfold appliedActivationMethod
    rw [hinfo]
    split
    · exact ⟨_, rfl⟩
    · exact ⟨_, rfl⟩
  refine ⟨{ globals with activationMethod := globals.activationMethod ||| method }, ?_⟩
  rw [applyCompleteHandleReq, unlessCancelled_of_not hc]
  simp only [Nat.not_lt.mpr hlength, hmethod, if_false, Option.bind_eq_bind, Option.bind_some,
    if_neg hgood]
  rfl

end

section
variable {pkg : Memory} {record : Nat} {table : List UInt8} {pkgLen : Nat}
  {events : Nat → Input × Globals} {plan : Plan} {n i k : Nat} {s : Session} {fdState : FDState}
  {requests : List (List UInt8)}
variable (device : AcceptingDevice pkg record table pkgLen events)
include device

/-- Until the device reports the end of its phase, the task waits on and answers what data
it asks for. -/
theorem inPhase_stays (h : At pkg pkgLen events n = some s)
    (inPhase : InPhase plan i k requests fdState s) (hnot : ¬ Delivers s (events n)) :
    ∃ s', s.advance (events n) = some s' ∧ InPhase plan i k requests fdState s' := by
  have hc := (device.accepts n s h).1
  have hrunning := inPhase.standing.running
  rcases inPhase.state with hstate | hstate | ⟨hstate, hdownload⟩
  · rcases receive_or_wait device h hrunning hstate with ⟨bytes, msgTag, fits, hin, hexpected⟩ | ⟨-, hstep⟩
    · obtain ⟨hmctp, hpldm, hlength, hexpected⟩ := hexpected
      rw [if_neg (by rw [inPhase.idle]; decide)] at hexpected
      obtain ⟨hrequest, hphase⟩ := hexpected
      have hdata : commandOf bytes = Command.requestFwData := by
        by_contra hother
        refine hnot ⟨hstate, ?_⟩
        rw [hin]
        exact .inr hother
      have hfd : s.task.fdState = fdState := inPhase.standing.fdState
      have hdownload : fdState = .download := by
        rcases inPhase.phase with rfl | rfl | rfl
        · rfl
        · rw [hfd] at hphase
          exact absurd (hdata.symm.trans hphase.1) (by decide)
        · rw [hfd] at hphase
          exact absurd (hdata.symm.trans hphase.1) (by decide)
      have hbody : receive (events n).1 (events n).2 s.task = some
          { next := .requestFwDataHandleReq, task := s.task.withMessage bytes msgTag
            globals := (events n).2 } := by
        rw [receive_message hin, if_neg (Nat.not_lt.mpr hlength), dispatch_overwrite hlength,
          if_neg (fun h => h.1 hmctp), if_pos hrequest, if_pos hdata]
      refine ⟨_, advance_from hrunning hstate hbody, inPhase.idle, inPhase.standing,
        (requestsOf_quiet rfl).trans inPhase.log, inPhase.phase, .inr (.inr ⟨rfl, hdownload⟩)⟩
    · exact ⟨_, hstep, inPhase.idle, inPhase.standing, (requestsOf_quiet rfl).trans inPhase.log,
        inPhase.phase, .inl rfl⟩
  · have hbody : waitForRequests (events n).1 (events n).2 s.task = _ := unlessCancelled_of_not hc
    exact ⟨_, advance_from hrunning hstate hbody, inPhase.idle, inPhase.standing,
      (requestsOf_quiet rfl).trans inPhase.log, inPhase.phase, .inl rfl⟩
  · have hinfo : s.task.imageInfo = _ := inPhase.standing.setUp.info
    obtain ⟨answer, hanswer⟩ := requestFwDataAnswer_some
      { s.task with lastFwDataRequested := u32 (le32 s.task.recvBuffer 4 + le32 s.task.recvBuffer 8) }
      (le32 s.task.recvBuffer 4) (le32 s.task.recvBuffer 8) fun _ => ⟨_, hinfo⟩
    have hbody : requestFwDataHandleReq (events n).1 (events n).2 s.task = _ :=
      unlessCancelled_of_not hc
    simp only [hanswer, Option.bind_eq_bind, Option.bind_some] at hbody
    exact ⟨_, advance_from hrunning hstate hbody, inPhase.idle, inPhase.standing,
      (requestsOf_responses (responses_sendResponse _ _ _ _)).trans inPhase.log, inPhase.phase,
        .inr (.inl rfl)⟩

theorem gets_reported (h : At pkg pkgLen events n = some s)
    (inPhase : InPhase plan i k requests fdState s) (hwait : s.task.taskState = .waitForRequests) :
    Gets pkg pkgLen events n (Reported plan i k requests fdState) := by
  have hc := (device.accepts n s h).1
  have hbody : waitForRequests (events n).1 (events n).2 s.task = _ := unlessCancelled_of_not hc
  refine gets_next h inPhase.standing.running hwait hbody fun h => ?_
  obtain ⟨m, s, hm, h, inPhase, hdelivers⟩ := Reaches.wait Delivers h
    (P := InPhase plan i k requests fdState)
    ⟨inPhase.idle, inPhase.standing, (requestsOf_quiet rfl).trans inPhase.log, inPhase.phase, .inl rfl⟩
    (fun _ _ => inPhase_stays device)
    (by
      obtain ⟨m, s', hm, h', hdelivers⟩ := device.delivers _ _ h rfl
      refine ⟨m, hm, fun s'' h'' _ => ?_⟩
      cases h'.symm.trans h''
      exact hdelivers)
  refine Reaches.later ?_ hm
  rcases receive_or_wait device h inPhase.standing.running hdelivers.1 with
    ⟨bytes, msgTag, fits, hin, hmctp, hpldm, hlength, hexpected⟩ | ⟨hnot, -⟩
  · have hmessage := hdelivers.2
    rw [hin] at hmessage
    have hother : commandOf bytes ≠ Command.requestFwData :=
      hmessage.resolve_left (by rw [inPhase.idle]; decide)
    rw [if_neg (by rw [inPhase.idle]; decide)] at hexpected
    obtain ⟨hrequest, hphase⟩ := hexpected
    have hfd : s.task.fdState = fdState := inPhase.standing.fdState
    have hdispatch : ∀ next, dispatch (overwrite s.task.recvBuffer 0 bytes) = next →
        receive (events m).1 (events m).2 s.task = some
          { next, task := s.task.withMessage bytes msgTag, globals := (events m).2 } := by
      rintro next rfl
      rw [receive_message hin, if_neg (Nat.not_lt.mpr hlength)]
    rw [dispatch_overwrite hlength, if_neg (fun h => h.1 hmctp), if_pos hrequest, if_neg hother]
      at hdispatch
    have hbyte : 4 < bytes.length → (s.task.withMessage bytes msgTag).recvBuffer 4 = bytes.getD 4 0 :=
      fun h => overwrite_inside s.task.recvBuffer 0 bytes 4 h 0
    rcases inPhase.phase with rfl | rfl | rfl
    · rw [hfd] at hphase
      obtain ⟨hcommand, hfive, hresult⟩ := hphase.resolve_left hother
      refine gets_next h inPhase.standing.running hdelivers.1
        (hdispatch _ (if_pos hcommand)) fun h => Reaches.now h ?_
      exact ⟨rfl, inPhase.idle, inPhase.standing, (requestsOf_quiet rfl).trans inPhase.log, hfive,
        fun _ => (hbyte hfive).trans hresult, nofun⟩
    · rw [hfd] at hphase
      obtain ⟨hcommand, hfive, hresult⟩ := hphase
      rw [hcommand] at hdispatch
      refine gets_next h inPhase.standing.running hdelivers.1 (hdispatch _ rfl) fun h =>
        Reaches.now h ?_
      exact ⟨rfl, inPhase.idle, inPhase.standing, (requestsOf_quiet rfl).trans inPhase.log, hfive,
        fun _ => (hbyte hfive).trans hresult, nofun⟩
    · rw [hfd] at hphase
      obtain ⟨hcommand, hseven, hresult⟩ := hphase
      rw [hcommand] at hdispatch
      have hfive : 5 ≤ bytes.length := by omega
      rw [← hbyte hfive] at hresult
      refine gets_next h inPhase.standing.running hdelivers.1 (hdispatch _ rfl) fun h =>
        Reaches.now h ?_
      exact ⟨rfl, inPhase.idle, inPhase.standing, (requestsOf_quiet rfl).trans inPhase.log, hfive,
        fun h => absurd rfl h, fun _ => ⟨hseven, hresult⟩⟩
  · exact absurd hdelivers hnot

theorem gets_installed (h : At pkg pkgLen events n = some s)
    (inPhase : InPhase plan i k requests .download s) (hwait : s.task.taskState = .waitForRequests) :
    Gets pkg pkgLen events n (Stands plan i k requests .readyXfer .nextComponent) := by
  refine (gets_reported device h inPhase hwait).trans fun m s _ h reported => ?_
  have hbody : transferCompleteHandleReq (events m).1 (events m).2 s.task = _ :=
    phaseComplete_done (device.accepts m s h).1 reported.length (reported.result nofun)
  refine gets_next h reported.standing.running reported.state hbody fun h => ?_
  refine (gets_reported device h ⟨reported.idle, reported.standing.setFDState .verify,
    (requestsOf_responses (responses_sendResponse _ _ _ _)).trans reported.log, .inr (.inl rfl),
    .inr (.inl rfl)⟩ rfl).trans fun m s _ h reported => ?_
  have hbody : verifyCompleteHandleReq (events m).1 (events m).2 s.task = _ :=
    phaseComplete_done (device.accepts m s h).1 reported.length (reported.result nofun)
  refine gets_next h reported.standing.running reported.state hbody fun h => ?_
  refine (gets_reported device h ⟨reported.idle, reported.standing.setFDState .apply,
    (requestsOf_responses (responses_sendResponse _ _ _ _)).trans reported.log, .inr (.inr rfl),
    .inr (.inl rfl)⟩ rfl).trans fun m s _ h reported => ?_
  obtain ⟨hlength, hresult⟩ := reported.applied rfl
  obtain ⟨globals, hbody⟩ := applyComplete_done (device.accepts m s h).1 hlength
    reported.standing.setUp.info hresult
  refine gets_next h reported.standing.running reported.state hbody fun h => Reaches.now h ?_
  exact ⟨rfl, reported.standing.setFDState .readyXfer,
    (requestsOf_responses (responses_sendResponse _ _ _ _)).trans reported.log⟩

/-! One image. -/

theorem gets_offered (h : At pkg pkgLen events n = some s)
    (stands : Stands plan i k requests .readyXfer .updateComponentSetupReq s)
    (happ : plan.applicable i = true) {j : Nat} (hnext : plan.next i k = (true, j)) :
    Gets pkg pkgLen events (n + 1) (fun s' =>
      InPhase plan i j (requests ++ [plan.offers (i, j)]) .download s' ∧
        s'.task.taskState = .waitForRequests) := by
  have hc := (device.accepts n s h).1
  obtain ⟨hrunning, hsetUp, himage, hcomponent, -⟩ := stands.standing.fields
  rw [← himage] at happ
  rw [← himage, ← hcomponent] at hnext
  have hrequest := gets_request_next device h hrunning stands.state
    (updateComponentSetupReq_found hc hsetUp happ hnext) hrunning
  refine hrequest.trans fun m s' hm h agreed => ?_
  obtain ⟨message, hlength, -, hagrees⟩ := agreed.agrees
  rw [sendReqSetup_command] at hagrees
  obtain ⟨hcode, hthirteen, hresponse⟩ := hagrees.updates rfl
  have hstanding : Standing plan i j .readyXfer s'.task.progress := by
    rw [agreed.progress]
    exact stands.standing.toComponent j
  refine gets_next h hstanding.running agreed.state (updateComponentProcessRsp_agreed
    (device.accepts m s' h).1 hcode (hlength.trans hthirteen) hresponse) fun h => Reaches.now h
      ⟨⟨agreed.idle, hstanding.setFDState .download, ?_, .inl rfl, .inr (.inl rfl)⟩, rfl⟩
  rw [requestsOf_quiet rfl, agreed.log, stands.log, himage]
  rfl

/-- What is known of image `i` once its first component, if any, has been updated. -/
def Updated (plan : Plan) (i : Nat) (requests : List (List UInt8)) (s : Session) : Prop :=
  ∃ k first, plan.pairsOf i 0 = first ++ plan.pairsOf i (k + 1) ∧
    (plan.additional i ↔ ∃ j, plan.next i (k + 1) = (true, j)) ∧
      Stands plan i k (requests ++ first.map plan.offers) .readyXfer .nextComponent s

theorem gets_image_updated (h : At pkg pkgLen events n = some s)
    (stands : Stands plan i 0 requests .readyXfer .updateComponentSetupReq s) :
    Gets pkg pkgLen events (n + 1) (Updated plan i requests) := by
  have hc := (device.accepts n s h).1
  obtain ⟨hrunning, hsetUp, himage, hcomponent, -⟩ := stands.standing.fields
  cases happ : plan.applicable i with
  | false =>
    have hnext : At pkg pkgLen events (n + 1) = some _ := (trace_succ h).trans
      (advance_from hrunning stands.state (updateComponentSetupReq_skip hc hsetUp (himage ▸ happ)))
    refine Reaches.now hnext ⟨0, [], ?_, ?_, rfl, stands.standing, ?_⟩
    · rw [plan.pairsOf_skip happ, plan.pairsOf_skip happ]
      rfl
    · rw [plan.additional_skip happ]
      exact plan.next_iff.symm
    · rw [requestsOf_quiet rfl, stands.log]
      exact (List.append_nil _).symm
  | true =>
    cases hfirst : plan.next i 0 with
    | mk found k =>
      cases found with
      | false =>
        obtain ⟨rfl, hnone⟩ := plan.next_none hfirst
        have hfirst' : plan.next s.task.componentImageIndex s.task.fwParamsComponentIndex = (false, 0) := by
          rw [himage, hcomponent]
          exact hfirst
        have hnext : At pkg pkgLen events (n + 1) = some _ := (trace_succ h).trans
          (advance_from hrunning stands.state
            (updateComponentSetupReq_none hc hsetUp (himage ▸ happ) hfirst'))
        have hlater : ∀ j, 0 + 1 ≤ j → j < plan.componentCount → plan.compatible i j = false :=
          fun j _ hj => hnone j (Nat.zero_le j) hj
        refine Reaches.now hnext ⟨0, [], ?_, ?_, rfl, stands.standing.toComponent 0, ?_⟩
        · rw [plan.pairsOf_none hfirst, plan.pairsOf_empty hlater]
          rfl
        · rw [plan.next_iff, plan.matchesFrom_none hlater]
          exact iff_of_false (plan.additional_none happ hfirst) (fun h => h rfl)
        · rw [requestsOf_quiet rfl, stands.log]
          exact (List.append_nil _).symm
      | true =>
        refine (gets_offered device h stands happ hfirst).trans fun m s' _ h offered => ?_
        refine (gets_installed device h offered.1 offered.2).mono fun s'' stands => ⟨k, [(i, k)], ?_, ?_, stands⟩
        · exact plan.pairsOf_found happ hfirst
        · exact (plan.additional_found happ hfirst).trans plan.next_iff.symm

/-! From image to image. -/

/-- Behind an image no other component matches, the next one's turn has come. -/
theorem gets_next_image (h : At pkg pkgLen events n = some s)
    (stands : Stands plan i 0 requests .readyXfer .updateComponentSetupReq s)
    (single : ¬ plan.additional i) (hmore : i + 1 < plan.imageCount) :
    Gets pkg pkgLen events (n + 1)
      (Stands plan (i + 1) 0 (requests ++ (plan.pairsOf i 0).map plan.offers) .readyXfer
        .updateComponentSetupReq) := by
  refine (gets_image_updated device h stands).trans fun m s _ h updated => ?_
  obtain ⟨k, first, hpairs, hadditional, stands⟩ := updated
  have hc := (device.accepts m s h).1
  obtain ⟨hrunning, hsetUp, himage, hcomponent, -⟩ := stands.standing.fields
  cases hnext : plan.next i (k + 1) with
  | mk found j =>
    cases found with
    | true => exact absurd (hadditional.mpr ⟨j, hnext⟩) single
    | false =>
      obtain ⟨rfl, -⟩ := plan.next_none hnext
      have hnext' : plan.next s.task.componentImageIndex (s.task.fwParamsComponentIndex + 1) =
          (false, 0) := by
        rw [himage, hcomponent]
        exact hnext
      refine gets_next h hrunning stands.state (nextComponent_more hc hsetUp hnext' (himage ▸ hmore))
        fun h => Reaches.now h ⟨rfl, stands.standing.toNextImage hmore, ?_⟩
      rw [requestsOf_quiet rfl, stands.log, hpairs, plan.pairsOf_none hnext, List.append_nil]

theorem gets_activated (h : At pkg pkgLen events n = some s)
    (stands : Stands plan i 0 requests .readyXfer .updateComponentSetupReq s)
    (single : ¬ plan.additional i) (hlast : plan.imageCount ≤ i + 1) :
    Gets pkg pkgLen events (n + 1) (fun s' =>
      requestsOf s'.log = requests ++ (plan.pairsOf i 0).map plan.offers ++ [[Command.activateFw, 0]]) := by
  refine (gets_image_updated device h stands).trans fun m s _ h updated => ?_
  obtain ⟨k, first, hpairs, hadditional, stands⟩ := updated
  have hc := (device.accepts m s h).1
  obtain ⟨hrunning, hsetUp, himage, hcomponent, -⟩ := stands.standing.fields
  cases hnext : plan.next i (k + 1) with
  | mk found j =>
    cases found with
    | true => exact absurd (hadditional.mpr ⟨j, hnext⟩) single
    | false =>
      obtain ⟨rfl, -⟩ := plan.next_none hnext
      have hnext' : plan.next s.task.componentImageIndex (s.task.fwParamsComponentIndex + 1) =
          (false, 0) := by
        rw [himage, hcomponent]
        exact hnext
      refine gets_next h hrunning stands.state (nextComponent_last hc hsetUp hnext' (himage ▸ hlast))
        fun h => ?_
      have hsetup : activateFwSetupReq (events (m + 1)).1 (events (m + 1)).2
          { s.task.pastLastImage.expectNoRequests with taskState := .activateFwSetupReq } = _ :=
        unlessCancelled_of_not (device.accepts _ _ h).1
      refine gets_next h hrunning rfl hsetup fun h => ?_
      have hmessage := sendReqSetup_message
        { s.task.pastLastImage.expectNoRequests with taskState := .activateFwSetupReq }
        Command.activateFw [0] .activateFwProcessRsp
      refine (gets_sent device h hrunning rfl hmessage).mono fun s' hlog => hlog.trans ?_
      rw [requestsOf_quiet rfl, requestsOf_quiet rfl, stands.log, hpairs, plan.pairsOf_none hnext,
        List.append_nil]

/-- Behind an image another component matches, the component table is passed again, and all
updates begin anew. -/
theorem gets_anew (h : At pkg pkgLen events n = some s)
    (stands : Stands plan i 0 requests .readyXfer .updateComponentSetupReq s)
    (hadditional : plan.additional i) :
    Gets pkg pkgLen events (n + 1) (fun s' => ∃ first again, plan.pairsOf i 0 = first ++ again ∧
      Stands plan 0 0 (requests ++ first.map plan.offers ++
        (again ++ plan.pairsFrom (i + 1)).map plan.tells) .readyXfer .updateComponentSetupReq s') := by
  refine (gets_image_updated device h stands).trans fun m s _ h updated => ?_
  obtain ⟨k, first, hpairs, hmatches, stands⟩ := updated
  obtain ⟨j, hnext⟩ := hmatches.mp hadditional
  obtain ⟨-, hj, hcompatible, -⟩ := plan.next_found hnext
  have hc := (device.accepts m s h).1
  obtain ⟨hrunning, hsetUp, himage, hcomponent, -⟩ := stands.standing.fields
  refine gets_next h hrunning stands.state
    (nextComponent_found hc hsetUp (himage ▸ hcomponent ▸ hnext)) fun h => ?_
  refine (gets_passed device h ⟨rfl, stands.standing.toComponent j,
    (requestsOf_quiet rfl).trans stands.log⟩ hj hcompatible).trans fun m' s' _ h hpassed => ?_
  obtain ⟨passed, hrest, stands⟩ := hpassed
  refine (gets_learned device h stands).trans fun m' s' _ h hlearned => ?_
  rw [List.append_assoc (requests ++ _), ← List.map_append, ← hrest, ← plan.pairsOf_next hnext]
    at hlearned
  rcases hlearned with ⟨hmore, stands⟩ | ⟨hlast, stands⟩
  · refine (gets_updates device h stands).mono fun s'' stands => ⟨first, _, hpairs, ?_⟩
    rw [List.map_append, ← List.append_assoc]
    exact stands
  · refine Reaches.now h ⟨first, _, hpairs, ?_⟩
    rw [plan.pairsFrom_nil hlast, List.append_nil]
    exact stands

end

end Pldm
