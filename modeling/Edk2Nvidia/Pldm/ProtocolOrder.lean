import Edk2Nvidia.Pldm.OrderKept

/-! The order of the protocol: what is activated has been installed, and a request that is
not due does not get the update any further. It is kept with every device that keeps to the
order itself, and with no check of this side not with any other. -/
namespace Pldm
open Flash Parse Transition

def Unknown (message : List UInt8) : Prop :=
  ¬ (message.getD 0 0 = mctpTypePldm ∧ message.getD 2 0 = pldmTypeFwUpdate) ∨
    message.getD 1 0 &&& pldmRq ≠ 0 ∧ commandOf message ∉
      [Command.requestFwData, Command.transferComplete, Command.verifyComplete, Command.applyComplete]

/-- A request of the device that is not due: one of another protocol or of no known command,
one that does not belong to the state the device is held to be in, or one that comes before
any component was accepted. -/
def Misplaced (s : Session) (event : Input × Globals) : Prop :=
  (∃ entry ∈ heard event.1 s.task, Receives Unknown entry) ∨
    due s.task.taskState ≠ none ∧
      (¬ Timely s.task ∨ ∀ entry ∈ s.log, ¬ Receives AcceptsUpdate entry)

/-- The update has not got any further: the task waits for another message, or gives up
because everything has been cancelled. -/
structure Stays (s s' : Session) (cancelled : Bool) : Prop where
  work : SameWork s.task s'.task
  request : SameRequest s.task s'.task
  state : s'.task.taskState = .receive ∨ s'.task.taskState = .waitForRequests ∨
    cancelled = true ∧ s'.task.taskState = .cancelUpdateComponentSetupReq

/-- A run keeps the order. It does not get stuck, so no handler has followed a pointer that
was not set up. -/
def KeepsOrder (pkgHdr : Memory) (pkgLen : Nat) (events : List (Input × Globals)) : Prop :=
  ∃ s, run Session.advance events (Session.create pkgHdr pkgLen) = some s ∧
    OnlyAfter IsActivateRequest (Complete s.task) s.log ∧
      ∀ front event back s₁ s₂, events = front ++ event :: back →
        run Session.advance front (Session.create pkgHdr pkgLen) = some s₁ →
          s₁.advance event = some s₂ → s₁.task.complete = false → Misplaced s₁ event →
            Stays s₁ s₂ event.2.cancelAllUpdates

section
variable {s s' : Session} {event : Input × Globals}

theorem received_of_heard {input : Input} {task : Task} {message : List UInt8}
    (h : .received message ∈ heard input task) :
    task.taskState = .receive ∧ ∃ msgTag fits, input.recv = .message message msgTag fits := by
  unfold heard at h
  split at h
  · rename_i bytes msgTag fits hstate hrecv
    cases List.mem_singleton.mp h
    exact ⟨hstate, msgTag, fits, hrecv⟩
  · cases h

theorem dispatch_unknown {message : List UInt8} (m : Memory) (hlength : Common.size ≤ message.length)
    (hunknown : Unknown message) (htyped : ¬ HalfTyped message) :
    dispatch (overwrite m 0 message) = .receive := by
  have htyped : message.getD 0 0 = mctpTypePldm ↔ message.getD 2 0 = pldmTypeFwUpdate :=
    Decidable.of_not_not fun h => htyped ⟨hlength, h⟩
  rw [dispatch_overwrite hlength]
  by_cases hmctp : message.getD 0 0 = mctpTypePldm
  · have hpldm := htyped.mp hmctp
    obtain ⟨hrequest, hcommand⟩ := hunknown.resolve_left fun h => h ⟨hmctp, hpldm⟩
    simp only [List.mem_cons, List.not_mem_nil, or_false, not_or] at hcommand
    rw [if_neg (fun h => h.1 hmctp), if_pos hrequest, if_neg hcommand.1, if_neg hcommand.2.1,
      if_neg hcommand.2.2.1, if_neg hcommand.2.2.2]
  · exact if_pos ⟨hmctp, fun h => hmctp (htyped.mpr h)⟩

theorem stays_unknown (running : s.task.complete = false) (order : InOrder s event)
    {entry : Entry} (hheard : entry ∈ heard event.1 s.task) (hunknown : Receives Unknown entry) :
    ∃ s', s.advance event = some s' ∧ Stays s s' event.2.cancelAllUpdates := by
  cases entry with
  | sent sent => exact hunknown.elim
  | received message =>
    obtain ⟨hstate, msgTag, fits, hrecv⟩ := received_of_heard hheard
    have hbody : receive event.1 event.2 s.task = some
        { next := .receive, task := s.task.withMessage message msgTag, globals := event.2 } := by
      rw [receive_message hrecv]
      split
      · rfl
      · rename_i hlength
        rw [dispatch_unknown s.task.recvBuffer (Nat.le_of_not_lt hlength) hunknown
          (order.1 _ hheard)]
    have hhandler : handler s.task.taskState event.1 event.2 s.task =
        receive event.1 event.2 s.task := by
      rw [hstate]
      rfl
    exact ⟨_, advance_eq running (hhandler.trans hbody), ⟨rfl, rfl, rfl, rfl⟩, ⟨rfl, rfl, rfl, rfl⟩,
      .inl rfl⟩

theorem accepted_of_reached {plan : Plan} {i k : Nat} {log : List Entry} {fdState : FDState}
    (h : Reached plan i k log fdState) : ∃ entry ∈ log, Receives AcceptsUpdate entry := by
  have hlater : ∀ l later : List Entry, (∃ entry ∈ l, Receives AcceptsUpdate entry) →
      ∃ entry ∈ l ++ later, Receives AcceptsUpdate entry := by
    rintro l later ⟨entry, hmem, hentry⟩
    exact ⟨entry, List.mem_append_left _ hmem, hentry⟩
  have haccepted : ∀ l, Accepted plan i k l → ∃ entry ∈ l, Receives AcceptsUpdate entry :=
    fun l h => Since.occurred h
  have htransferred : ∀ l, Transferred plan i k l → ∃ entry ∈ l, Receives AcceptsUpdate entry :=
    fun l h => (Since.mono haccepted h).earlier hlater
  have hverified : ∀ l, Verified plan i k l → ∃ entry ∈ l, Receives AcceptsUpdate entry :=
    fun l h => (Since.mono htransferred h).earlier hlater
  cases fdState with
  | download => exact haccepted log h
  | verify => exact htransferred log h
  | apply => exact hverified log h
  | _ => exact h.elim

theorem due_cases {state : TaskState} {fdState : FDState} (h : due state = some fdState) :
    shared state = true ∧ (∃ body, handler state = unlessCancelled .cancelUpdateComponentSetupReq body) ∧
      (fdState = .download ∨ fdState = .verify ∨ fdState = .apply) := by
  cases state with
  | requestFwDataHandleReq => exact ⟨rfl, ⟨_, rfl⟩, .inl (Option.some.inj h).symm⟩
  | transferCompleteHandleReq => exact ⟨rfl, ⟨_, rfl⟩, .inl (Option.some.inj h).symm⟩
  | verifyCompleteHandleReq => exact ⟨rfl, ⟨_, rfl⟩, .inr (.inl (Option.some.inj h).symm)⟩
  | applyCompleteHandleReq => exact ⟨rfl, ⟨_, rfl⟩, .inr (.inr (Option.some.inj h).symm)⟩
  | _ => cases h

theorem Inv.accepted (inv : Inv s) {fdState : FDState} (hdue : due s.task.taskState = some fdState)
    (timely : Timely s.task) : ∃ entry ∈ s.log, Receives AcceptsUpdate entry := by
  obtain ⟨hshared, -, hfd⟩ := due_cases hdue
  have busy : Busy s.task := by
    rw [Busy, timely fdState hdue]
    exact hfd
  obtain ⟨-, plan, -, hreached⟩ := inv.busy (inv.alive hshared) busy
  exact accepted_of_reached hreached

/-- A request that is not due is refused, or not even looked at. -/
theorem stays_untimely (running : s.task.complete = false) (order : InOrder s event)
    {fdState : FDState} (hdue : due s.task.taskState = some fdState) (untimely : ¬ Timely s.task) :
    ∃ s', s.advance event = some s' ∧ Stays s s' event.2.cancelAllUpdates := by
  obtain ⟨-, ⟨body, hhandler⟩, -⟩ := due_cases hdue
  cases hcancel : event.2.cancelAllUpdates with
  | true =>
    have hbody : handler s.task.taskState event.1 event.2 s.task = some
        { next := .cancelUpdateComponentSetupReq, task := s.task, globals := event.2 } := by
      rw [hhandler]
      exact if_pos hcancel
    exact ⟨_, advance_eq running hbody, ⟨rfl, rfl, rfl, rfl⟩, ⟨rfl, rfl, rfl, rfl⟩,
      .inr (.inr ⟨rfl, rfl⟩)⟩
  | false =>
    have hstate : s.task.taskState = .requestFwDataHandleReq :=
      Decidable.byContradiction fun h => untimely (order.2 hcancel h)
    have hfd : s.task.fdState ≠ .download := by
      intro h
      refine untimely fun fdState hdue => ?_
      rw [hstate] at hdue
      exact h.trans (Option.some.inj hdue)
    have hbody : requestFwDataHandleReq event.1 event.2 s.task = _ := unlessCancelled_of_not hcancel
    simp only [requestFwDataAnswer, if_pos hfd, Option.bind_eq_bind, Option.bind_some] at hbody
    have hhandler : handler s.task.taskState event.1 event.2 s.task =
        requestFwDataHandleReq event.1 event.2 s.task := by
      rw [hstate]
      rfl
    exact ⟨_, advance_eq running (hhandler.trans hbody), ⟨rfl, rfl, rfl, rfl⟩, ⟨rfl, rfl, rfl, rfl⟩,
      .inr (.inl rfl)⟩

theorem stays_misplaced (inv : Inv s) (running : s.task.complete = false) (order : InOrder s event)
    (misplaced : Misplaced s event) :
    ∃ s', s.advance event = some s' ∧ Stays s s' event.2.cancelAllUpdates := by
  rcases misplaced with ⟨entry, hheard, hunknown⟩ | ⟨hdue, hearly⟩
  · exact stays_unknown running order hheard hunknown
  · obtain ⟨fdState, hdue⟩ := Option.ne_none_iff_exists'.mp hdue
    refine stays_untimely running order hdue fun timely => ?_
    obtain ⟨entry, hmem, hentry⟩ := inv.accepted hdue timely
    exact hearly.elim (fun h => h timely) fun h => h entry hmem hentry

end

/-- Every run of a device that keeps to the order keeps it on this side too. -/
theorem order_kept {pkgHdr : Memory} {pkgLen : Nat} {events : List (Input × Globals)}
    (order : Along Session.advance InOrder events (Session.create pkgHdr pkgLen)) :
    KeepsOrder pkgHdr pkgLen events := by
  obtain ⟨s, hrun, inv⟩ := inv_run order
  refine ⟨s, hrun, inv.activation, ?_⟩
  rintro front event back s₁ s₂ rfl hfront hstep running misplaced
  obtain ⟨s₁', hfront', inv₁⟩ := inv_run order.front
  cases hfront.symm.trans hfront'
  obtain ⟨s₂', hstep', stays⟩ := stays_misplaced inv₁ running (order.at hfront) misplaced
  cases hstep.symm.trans hstep'
  exact stays

/-! Two devices. -/

/-- A package with one image for the one component of any device. -/
def samplePackage : Memory := memoryOf <|
  List.replicate 16 0 ++ [1, 0, 0] ++ List.replicate 13 0 ++ [8, 0, 0, 0] ++
    -- one record of a device without descriptors, to which image 0 applies
    [1] ++ [12, 0, 0, 0, 0, 0, 0, 0, 0, 0, 0, 1] ++
    [1, 0] ++ [10, 0, 1, 0] ++ List.replicate 18 0

/-- Nothing is received, and everything can be sent. -/
def tick : Input × Globals := ({}, {})

def hears (message : List UInt8) (fits : message.length ≤ recvBufferSize) : Input × Globals :=
  ({ recv := .message message 0 fits }, {})

def exchange (instanceId command : UInt8) (data : List UInt8) (fits : data.length ≤ 100) :
    List (Input × Globals) :=
  [tick, tick, hears ([mctpTypePldm, instanceId, pldmTypeFwUpdate, command, Completion.success] ++ data)
    (by rw [List.length_append, recvBufferSize]; change 5 + data.length ≤ 1024; omega), tick, tick]

theorem report_fits : 7 ≤ 1024 := by decide
theorem deviceIds_fit : ([0, 0, 0, 0, 0] : List UInt8).length ≤ 100 := by decide
theorem parameters_fit : ([0, 0, 0, 0, 1, 0, 0, 0, 0, 0] ++ [10, 0, 1, 0] ++
    List.replicate 35 0 : List UInt8).length ≤ 100 := by decide
theorem update_fits : ([0, 0, 0] : List UInt8).length ≤ 100 := by decide
theorem table_fits : ([0, 0] : List UInt8).length ≤ 100 := by decide
theorem component_fits : ([0, 0, 0, 0, 0, 0, 0, 0] : List UInt8).length ≤ 100 := by decide

/-- The device reports the end of a phase, without an error. -/
def reports (command : UInt8) : List (Input × Globals) :=
  [hears [mctpTypePldm, pldmRq, pldmTypeFwUpdate, command, 0, 0, 0] report_fits, tick,
    tick]

def untilAccepted : List (Input × Globals) :=
  [tick] ++ exchange 1 Command.queryDeviceIds [0, 0, 0, 0, 0] deviceIds_fit ++
    exchange 2 Command.getFwParams
      ([0, 0, 0, 0, 1, 0, 0, 0, 0, 0] ++ [10, 0, 1, 0] ++ List.replicate 35 0) parameters_fit ++
    [tick] ++ exchange 3 Command.requestUpdate [0, 0, 0] update_fits ++
    exchange 4 Command.passComponentTable [0, 0] table_fits ++ [tick] ++
    exchange 5 Command.updateComponent [0, 0, 0, 0, 0, 0, 0, 0] component_fits ++ [tick]

theorem order_kept_sample :
    KeepsOrder samplePackage 100 (untilAccepted ++ reports Command.transferComplete ++
      reports Command.verifyComplete ++ reports Command.applyComplete ++
      exchange 6 Command.activateFw [0, 0] (by decide) ++ [tick]) :=
  order_kept (by decide +kernel)

/-- The device reports its component applied at once: `ActivateFirmware` goes out all the
same. -/
theorem order_broken :
    ¬ KeepsOrder samplePackage 100 (untilAccepted ++ reports Command.applyComplete ++ [tick, tick]) := by
  rintro ⟨s, hrun, honly, -⟩
  have hfacts : (run Session.advance
      (untilAccepted ++ reports Command.applyComplete ++ [tick, tick])
      (Session.create samplePackage 100)).map (fun s => (s.log.drop 12,
        s.log.all fun entry => ! decide (Receives (fun m => commandOf m = Command.verifyComplete) entry),
        s.task.cursor.plan.any fun plan => plan.IsPair 0 0)) =
      some ([.sent ⟨true, fwFillCommon true 6 Command.activateFw ++ [0]⟩], true, true) := by
    decide +kernel
  rw [hrun, Option.map_some, Option.some.injEq, Prod.mk.injEq, Prod.mk.injEq] at hfacts
  obtain ⟨hlast, hnone, hpair⟩ := hfacts
  have hlog : s.log = s.log.take 12 ++ [.sent ⟨true, fwFillCommon true 6 Command.activateFw ++ [0]⟩] := by
    rw [← hlast, List.take_append_drop]
  obtain ⟨plan, hplan, hall⟩ := honly _ _ [] hlog ⟨rfl, rfl⟩
  rw [hplan.plan, Option.any_some, decide_eq_true_iff] at hpair
  obtain ⟨before, _, since, hbefore, hverified, -⟩ := hall 0 0 hpair
  obtain ⟨entry, hmem, hentry⟩ := Since.occurred hverified
  have hmem : entry ∈ s.log := List.mem_of_mem_take (hbefore ▸ List.mem_append_left _ hmem)
  have hnot := List.all_eq_true.mp hnone entry hmem
  cases entry with
  | sent sent => exact hentry.elim
  | received message =>
    have hcommand : commandOf message = Command.verifyComplete := hentry.1.command
    simp [Receives, hcommand] at hnot

end Pldm
