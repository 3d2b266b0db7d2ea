import Edk2Nvidia.Pldm.Order

/-! What a handler does to what all tasks share, and when a task gives up. -/
namespace Pldm
open Flash Parse

/-- What the state machine loop keeps count of. -/
def Globals.tally (globals : Globals) : Nat × EfiStatus × Bool :=
  (globals.numTasksComplete, globals.status, globals.cancelAllUpdates)

/-- The states of a task at its end. -/
def ended : TaskState → Bool
  | .complete | .max => true
  | _ => false

/-- Handlers leave the loop's variables alone. Only a task that is cancelled gives up, and a task
ends because its firmware is activated, because it failed, or because it has given up. -/
structure Steady (state : TaskState) (globals : Globals) (task : Task) (outcome : Outcome) : Prop where
  tally : outcome.globals.tally = globals.tally
  pkg : outcome.task.pkgHdr = task.pkgHdr
  status : state ≠ .fatalError → outcome.task.status = task.status
  complete : state ≠ .complete → outcome.task.complete = task.complete
  resolute : globals.cancelAllUpdates = false → cancelling state = false →
    cancelling task.processResponseState = false →
      cancelling outcome.next = false ∧ cancelling outcome.task.processResponseState = false
  ends : ended outcome.next = true → state = .activateFwProcessRsp ∨ state = .fatalError ∨
    state = .complete ∨ cancelling state = true ∨ ended task.processResponseState = true

/-- The handler is steady wherever it has an outcome. -/
def Behaves (state : TaskState) (body : Handler) : Prop :=
  ∀ input globals task outcome, body input globals task = some outcome →
    Steady state globals task outcome

theorem tally_setError (globals : Globals) (error : TaskError) :
    (setError globals error).tally = globals.tally := by
  unfold setError
  split
  · rfl
  · rfl

section
variable {state : TaskState} {globals : Globals} {task : Task} {outcome : Outcome}

/-- The task goes on, with the same request or with another one. -/
theorem steady_move (tally : outcome.globals.tally = globals.tally)
    (same : outcome.task.pkgHdr = task.pkgHdr ∧ outcome.task.status = task.status ∧
      outcome.task.complete = task.complete)
    (hrespond : outcome.task.processResponseState = task.processResponseState ∨
      cancelling outcome.task.processResponseState = false)
    (hnext : cancelling outcome.next = false) (hgoes : ended outcome.next = false) :
    Steady state globals task outcome where
  tally := tally
  pkg := same.1
  status := fun _ => same.2.1
  complete := fun _ => same.2.2
  resolute := fun _ _ h => ⟨hnext, hrespond.elim (fun heq => heq ▸ h) id⟩
  ends := fun h => absurd (hgoes.symm.trans h) nofun

theorem steady_failWith {error : TaskError} {input : Input} {task' : Task}
    (h : failWith error input globals task' = some outcome)
    (same : task'.pkgHdr = task.pkgHdr ∧ task'.status = task.status ∧ task'.complete = task.complete)
    (hrespond : task'.processResponseState = task.processResponseState) :
    Steady state globals task outcome := by
  cases h
  exact steady_move (tally_setError globals error) same (.inl hrespond) rfl rfl

theorem behaves_unlessCancelled {cancelled : TaskState} {body : Handler}
    (hcancelled : ended cancelled = false) (h : Behaves state body) :
    Behaves state (unlessCancelled cancelled body) := by
  intro input globals task outcome houtcome
  unfold unlessCancelled at houtcome
  split at houtcome
  · rename_i hcancel
    cases houtcome
    exact ⟨rfl, rfl, fun _ => rfl, fun _ => rfl, fun h => absurd (h.symm.trans hcancel) nofun,
      fun h => absurd (hcancelled.symm.trans h) nofun⟩
  · exact h input globals task outcome houtcome

end

/-! The handlers of a response, of a component that is offered, and of the step to the next one. -/

/-- A response is refused for its form or for what it says, or it is taken. -/
theorem behaves_taken {state next : TaskState} {malformed refused : Task → Prop}
    [∀ task, Decidable (malformed task)] [∀ task, Decidable (refused task)]
    {badForm badAnswer : TaskError} {take : Input → Task → Task}
    (hnext : cancelling next = false) (hgoes : ended next = false)
    (htake : ∀ input task, (take input task).pkgHdr = task.pkgHdr ∧
      (take input task).status = task.status ∧ (take input task).complete = task.complete ∧
        (take input task).processResponseState = task.processResponseState) :
    Behaves state fun input globals task =>
      if malformed task then failWith badForm input globals task
      else if refused task then failWith badAnswer input globals task
      else some { next, task := take input task, globals } := by
  intro input globals task outcome h
  dsimp only at h
  split at h
  · exact steady_failWith h ⟨rfl, rfl, rfl⟩ rfl
  · split at h
    · exact steady_failWith h ⟨rfl, rfl, rfl⟩ rfl
    · cases h
      obtain ⟨hpkg, hstatus, hcomplete, hrespond⟩ := htake input task
      exact steady_move rfl ⟨hpkg, hstatus, hcomplete⟩ (.inl hrespond) hnext hgoes

/-- An image that is not for the device, or for no component of it that is left, is skipped. -/
def offerComponent (skip respond : TaskState) (command : UInt8)
    (fields : Task → Memory → Nat → Nat → List UInt8) : Handler := fun _ globals task => do
  let record ← task.deviceIdRecord
  if (componentIsApplicable task.componentImageIndex record).value task.pkgHdr = false then
    return { next := skip, task, globals }
  else do
    let response ← task.getFwParamsResponse
    let info ← task.imageInfo
    let (found, fwParamsComponentIndex) := fwGetNextFwParamsMatchingComponent response
      task.fwParamsComponentIndex (imageClassification task.pkgHdr info) (imageId task.pkgHdr info)
    let task := task.toComponent fwParamsComponentIndex
    if found = false then
      return { next := skip, task, globals }
    else
      return { next := .sendReq, globals
               task := sendReqSetup task command (fields task response info fwParamsComponentIndex)
                 respond }

theorem behaves_offerComponent {state skip respond : TaskState} {command : UInt8}
    {fields : Task → Memory → Nat → Nat → List UInt8} (hskip : cancelling skip = false)
    (hgoes : ended skip = false) (hrespond : cancelling respond = false) :
    Behaves state (offerComponent skip respond command fields) := by
  intro input globals task outcome h
  obtain ⟨record, -, h⟩ := Option.bind_eq_some_iff.mp h
  split at h
  · cases h
    exact steady_move rfl ⟨rfl, rfl, rfl⟩ (.inl rfl) hskip hgoes
  · obtain ⟨response, -, h⟩ := Option.bind_eq_some_iff.mp h
    obtain ⟨info, -, h⟩ := Option.bind_eq_some_iff.mp h
    split at h
    split at h
    · cases h
      exact steady_move rfl ⟨rfl, rfl, rfl⟩ (.inl rfl) hskip hgoes
    · cases h
      exact steady_move rfl ⟨rfl, rfl, rfl⟩ (.inr hrespond) rfl rfl

/-- The next component of the device for the image, or the next image, or the end. -/
def toNextComponent (again last : TaskState) (finish : Task → Task) : Handler :=
  fun _ globals task => do
  let response ← task.getFwParamsResponse
  let info ← task.imageInfo
  let imageInfoArea ← task.imageInfoArea
  let (found, fwParamsComponentIndex) := fwGetNextFwParamsMatchingComponent response
    (task.fwParamsComponentIndex + 1) (imageClassification task.pkgHdr info)
    (imageId task.pkgHdr info)
  let task := task.toComponent fwParamsComponentIndex
  if found then
    return { next := .passComponentTableSetupReq, task, globals }
  else
    let task := task.countImage
    if task.componentImageIndex ≥ (imageCount imageInfoArea).value task.pkgHdr then
      return { next := last, globals, task := finish task }
    else
      return { next := again, globals
               task := task.toImageInfo ((getNextComponentImage info).value task.pkgHdr) }

theorem behaves_toNextComponent {state again last : TaskState} {finish : Task → Task}
    (hagain : cancelling again = false ∧ ended again = false)
    (hlast : cancelling last = false ∧ ended last = false)
    (hfinish : ∀ task, (finish task).pkgHdr = task.pkgHdr ∧ (finish task).status = task.status ∧
      (finish task).complete = task.complete ∧
        (finish task).processResponseState = task.processResponseState) :
    Behaves state (toNextComponent again last finish) := by
  intro input globals task outcome h
  obtain ⟨response, -, h⟩ := Option.bind_eq_some_iff.mp h
  obtain ⟨info, -, h⟩ := Option.bind_eq_some_iff.mp h
  obtain ⟨area, -, h⟩ := Option.bind_eq_some_iff.mp h
  split at h
  split at h
  · cases h
    exact steady_move rfl ⟨rfl, rfl, rfl⟩ (.inl rfl) rfl rfl
  · dsimp only at h
    split at h
    · cases h
      obtain ⟨hpkg, hstatus, hcomplete, hrespond⟩ := hfinish (task.toComponent _).countImage
      exact steady_move rfl ⟨hpkg, hstatus, hcomplete⟩ (.inl hrespond) hlast.1 hlast.2
    · cases h
      exact steady_move rfl ⟨rfl, rfl, rfl⟩ (.inl rfl) hagain.1 hagain.2

/-! State by state. -/

theorem behaves_getFwParamsProcessRsp {state : TaskState} : Behaves state getFwParamsProcessRsp :=
  behaves_taken rfl rfl fun _ _ => ⟨rfl, rfl, rfl, rfl⟩

theorem behaves_requestUpdateProcessRsp {state : TaskState} :
    Behaves state requestUpdateProcessRsp :=
  behaves_unlessCancelled rfl (behaves_taken rfl rfl fun _ _ => ⟨rfl, rfl, rfl, rfl⟩)

theorem behaves_passComponentTableSetupReq {state : TaskState} :
    Behaves state passComponentTableSetupReq := by
  have hoffers : passComponentTableSetupReq = unlessCancelled .cancelUpdateSetupReq
      (offerComponent .passComponentTableNextComponent .passComponentTableProcessRsp
        Command.passComponentTable fun task response info index =>
          passComponentTableRequest task.pkgHdr response info index
            (transferFlag task.updateComponentIndex task.numUpdateComponents)) := rfl
  rw [hoffers]
  exact behaves_unlessCancelled rfl (behaves_offerComponent rfl rfl rfl)

theorem behaves_passComponentTableProcessRsp {state : TaskState} :
    Behaves state passComponentTableProcessRsp :=
  behaves_unlessCancelled rfl (behaves_taken rfl rfl fun _ _ => ⟨rfl, rfl, rfl, rfl⟩)

theorem behaves_passComponentTableNextComponent {state : TaskState} :
    Behaves state passComponentTableNextComponent := by
  have hsteps : passComponentTableNextComponent = unlessCancelled .cancelUpdateSetupReq
      (toNextComponent .passComponentTableSetupReq .updateComponentSetupReq fun task =>
        (resetComponentInfo task).setFDState .readyXfer) := rfl
  rw [hsteps]
  exact behaves_unlessCancelled rfl
    (behaves_toNextComponent ⟨rfl, rfl⟩ ⟨rfl, rfl⟩ fun _ => ⟨rfl, rfl, rfl, rfl⟩)

theorem behaves_updateComponentSetupReq {state : TaskState} :
    Behaves state updateComponentSetupReq := by
  have hoffers : updateComponentSetupReq = unlessCancelled .cancelUpdateComponentSetupReq
      (offerComponent .nextComponent .updateComponentProcessRsp Command.updateComponent
        fun task response info index =>
          updateComponentRequest task.pkgHdr response info index) := rfl
  rw [hoffers]
  exact behaves_unlessCancelled rfl (behaves_offerComponent rfl rfl rfl)

theorem behaves_updateComponentProcessRsp {state : TaskState} :
    Behaves state updateComponentProcessRsp :=
  behaves_unlessCancelled rfl (behaves_taken rfl rfl fun _ _ => ⟨rfl, rfl, rfl, rfl⟩)

theorem behaves_nextComponent {state : TaskState} : Behaves state nextComponent := by
  have hsteps : nextComponent = unlessCancelled .cancelUpdateComponentSetupReq
      (toNextComponent .updateComponentSetupReq .activateFwSetupReq Task.expectNoRequests) := rfl
  rw [hsteps]
  exact behaves_unlessCancelled rfl
    (behaves_toNextComponent ⟨rfl, rfl⟩ ⟨rfl, rfl⟩ fun _ => ⟨rfl, rfl, rfl, rfl⟩)

theorem behaves_queryDeviceIdentifiersProcessRsp {state : TaskState} :
    Behaves state queryDeviceIdentifiersProcessRsp := by
  intro input globals task outcome h
  unfold queryDeviceIdentifiersProcessRsp at h
  dsimp only at h
  split at h
  · exact steady_failWith h ⟨rfl, rfl, rfl⟩ rfl
  · split at h
    · exact steady_failWith h ⟨rfl, rfl, rfl⟩ rfl
    · cases h
      exact steady_move rfl ⟨rfl, rfl, rfl⟩ (.inl rfl) rfl rfl

theorem behaves_processPackage {state : TaskState} : Behaves state processPackage := by
  intro input globals task outcome h
  obtain ⟨record, -, h⟩ := Option.bind_eq_some_iff.mp h
  obtain ⟨response, -, h⟩ := Option.bind_eq_some_iff.mp h
  dsimp only at h
  split at h
  · exact steady_failWith h ⟨rfl, rfl, rfl⟩ rfl
  · cases h
    exact steady_move rfl ⟨rfl, rfl, rfl⟩ (.inl rfl) rfl rfl

theorem behaves_requestUpdateSetupReq {state : TaskState} : Behaves state requestUpdateSetupReq := by
  refine behaves_unlessCancelled rfl fun input globals task outcome h => ?_
  obtain ⟨record, -, h⟩ := Option.bind_eq_some_iff.mp h
  cases h
  exact steady_move rfl ⟨rfl, rfl, rfl⟩ (.inr rfl) rfl rfl

theorem behaves_requestFwDataHandleReq {state : TaskState} :
    Behaves state requestFwDataHandleReq := by
  refine behaves_unlessCancelled rfl fun input globals task outcome h => ?_
  obtain ⟨answer, -, h⟩ := Option.bind_eq_some_iff.mp h
  cases h
  exact steady_move rfl ⟨rfl, rfl, rfl⟩ (.inl rfl) rfl rfl

theorem behaves_phaseComplete {state : TaskState} {badLen : TaskError} {error : UInt8 → TaskError}
    {received done : Task → Task}
    (hreceived : ∀ task, (received task).pkgHdr = task.pkgHdr ∧ (received task).status = task.status ∧
      (received task).complete = task.complete ∧
        (received task).processResponseState = task.processResponseState)
    (hdone : ∀ task, (done task).pkgHdr = task.pkgHdr ∧ (done task).status = task.status ∧
      (done task).complete = task.complete ∧
        (done task).processResponseState = task.processResponseState) :
    Behaves state (phaseCompleteHandleReq badLen error received done) := by
  refine behaves_unlessCancelled rfl fun input globals task outcome h => ?_
  dsimp only at h
  obtain ⟨hpkg, hstatus, hcomplete, hrespond⟩ := hreceived task
  split at h
  · exact steady_failWith h ⟨rfl, rfl, rfl⟩ rfl
  · split at h
    · cases h
      exact steady_move (tally_setError _ _) ⟨hpkg, hstatus, hcomplete⟩ (.inl hrespond) rfl rfl
    · cases h
      obtain ⟨hpkg', hstatus', hcomplete', hrespond'⟩ :=
        hdone (sendResponse input (received task) Completion.success []).1
      exact steady_move rfl ⟨hpkg'.trans hpkg, hstatus'.trans hstatus, hcomplete'.trans hcomplete⟩
        (.inl (hrespond'.trans hrespond)) rfl rfl

theorem behaves_transferCompleteHandleReq {state : TaskState} :
    Behaves state transferCompleteHandleReq := by
  unfold transferCompleteHandleReq
  exact behaves_phaseComplete (fun _ => ⟨rfl, rfl, rfl, rfl⟩) fun _ => ⟨rfl, rfl, rfl, rfl⟩

theorem behaves_verifyCompleteHandleReq {state : TaskState} :
    Behaves state verifyCompleteHandleReq := by
  unfold verifyCompleteHandleReq
  exact behaves_phaseComplete (fun _ => ⟨rfl, rfl, rfl, rfl⟩) fun _ => ⟨rfl, rfl, rfl, rfl⟩

theorem behaves_applyCompleteHandleReq {state : TaskState} :
    Behaves state applyCompleteHandleReq := by
  refine behaves_unlessCancelled rfl fun input globals task outcome h => ?_
  dsimp only at h
  split at h
  · exact steady_failWith h ⟨rfl, rfl, rfl⟩ rfl
  · obtain ⟨method, -, h⟩ := Option.bind_eq_some_iff.mp h
    split at h
    · cases h
      exact steady_move (tally_setError _ _) ⟨rfl, rfl, rfl⟩ (.inl rfl) rfl rfl
    · cases h
      exact steady_move rfl ⟨rfl, rfl, rfl⟩ (.inl rfl) rfl rfl

theorem behaves_activateFwSetupReq {state : TaskState} : Behaves state activateFwSetupReq := by
  refine behaves_unlessCancelled rfl fun input globals task outcome h => ?_
  cases h
  exact steady_move rfl ⟨rfl, rfl, rfl⟩ (.inr rfl) rfl rfl

theorem behaves_activateFwProcessRsp : Behaves .activateFwProcessRsp activateFwProcessRsp := by
  intro input globals task outcome h
  unfold activateFwProcessRsp at h
  split at h
  · exact steady_failWith h ⟨rfl, rfl, rfl⟩ rfl
  · cases h
    exact ⟨rfl, rfl, fun _ => rfl, fun _ => rfl, fun _ _ h => ⟨rfl, h⟩, fun _ => .inl rfl⟩

theorem dispatch_cases (buffer : Memory) :
    cancelling (dispatch buffer) = false ∧ ended (dispatch buffer) = false := by
  unfold dispatch
  split
  · exact ⟨rfl, rfl⟩
  · split
    · split
      · exact ⟨rfl, rfl⟩
      · split
        · exact ⟨rfl, rfl⟩
        · split
          · exact ⟨rfl, rfl⟩
          · split
            · exact ⟨rfl, rfl⟩
            · exact ⟨rfl, rfl⟩
    · exact ⟨rfl, rfl⟩

theorem behaves_receive {state : TaskState} : Behaves state receive := by
  intro input globals task outcome h
  unfold receive at h
  dsimp only at h
  split at h
  · split at h
    · exact steady_failWith h ⟨rfl, rfl, rfl⟩ rfl
    · split at h
      · cases h
        exact steady_move rfl ⟨rfl, rfl, rfl⟩ (.inl rfl) rfl rfl
      · cases h
        exact steady_move rfl ⟨rfl, rfl, rfl⟩ (.inl rfl) rfl rfl
  · cases h
    exact steady_move rfl ⟨rfl, rfl, rfl⟩ (.inl rfl) rfl rfl
  · split at h
    · cases h
      exact steady_move rfl ⟨rfl, rfl, rfl⟩ (.inl rfl) rfl rfl
    · cases h
      obtain ⟨hnext, hgoes⟩ := dispatch_cases _
      exact steady_move rfl ⟨rfl, rfl, rfl⟩ (.inl rfl) hnext hgoes

theorem behaves_sendReq {state : TaskState} : Behaves state sendReq := by
  intro input globals task outcome h
  unfold sendReq at h
  split at h
  · exact steady_failWith h ⟨rfl, rfl, rfl⟩ rfl
  · cases h
    exact steady_move rfl ⟨rfl, rfl, rfl⟩ (.inl rfl) rfl rfl

theorem behaves_processRsp : Behaves .processRsp processRsp := by
  intro input globals task outcome h
  unfold processRsp at h
  split at h
  · cases h
    exact steady_move rfl ⟨rfl, rfl, rfl⟩ (.inl rfl) rfl rfl
  · dsimp only at h
    split at h
    · cases h
      exact steady_move rfl ⟨rfl, rfl, rfl⟩ (.inl rfl) rfl rfl
    · cases h
      exact ⟨rfl, rfl, fun _ => rfl, fun _ => rfl, fun _ _ h => ⟨h, h⟩,
        fun h => .inr (.inr (.inr (.inr h)))⟩

theorem behaves_retryReq {state : TaskState} : Behaves state retryReq := by
  intro input globals task outcome h
  unfold retryReq at h
  split at h
  · exact steady_failWith h ⟨rfl, rfl, rfl⟩ rfl
  · cases h
    exact steady_move rfl ⟨rfl, rfl, rfl⟩ (.inl rfl) rfl rfl

theorem behaves_handler (state : TaskState) : Behaves state (handler state) := by
  cases state with
  | start =>
    intro input globals task outcome h
    cases h
    exact steady_move rfl ⟨rfl, rfl, rfl⟩ (.inl rfl) rfl rfl
  | queryDeviceIdentifiersSetupReq =>
    intro input globals task outcome h
    cases h
    exact steady_move rfl ⟨rfl, rfl, rfl⟩ (.inr rfl) rfl rfl
  | queryDeviceIdentifiersProcessRsp => exact behaves_queryDeviceIdentifiersProcessRsp
  | getFwParamsSetupReq =>
    intro input globals task outcome h
    cases h
    exact steady_move rfl ⟨rfl, rfl, rfl⟩ (.inr rfl) rfl rfl
  | getFwParamsProcessRsp => exact behaves_getFwParamsProcessRsp
  | processPackage => exact behaves_processPackage
  | requestUpdateSetupReq => exact behaves_requestUpdateSetupReq
  | requestUpdateProcessRsp => exact behaves_requestUpdateProcessRsp
  | passComponentTableSetupReq => exact behaves_passComponentTableSetupReq
  | passComponentTableProcessRsp => exact behaves_passComponentTableProcessRsp
  | passComponentTableNextComponent => exact behaves_passComponentTableNextComponent
  | updateComponentSetupReq => exact behaves_updateComponentSetupReq
  | updateComponentProcessRsp => exact behaves_updateComponentProcessRsp
  | waitForRequests =>
    refine behaves_unlessCancelled rfl fun input globals task outcome h => ?_
    cases h
    exact steady_move rfl ⟨rfl, rfl, rfl⟩ (.inl rfl) rfl rfl
  | requestFwDataHandleReq => exact behaves_requestFwDataHandleReq
  | transferCompleteHandleReq => exact behaves_transferCompleteHandleReq
  | verifyCompleteHandleReq => exact behaves_verifyCompleteHandleReq
  | applyCompleteHandleReq => exact behaves_applyCompleteHandleReq
  | nextComponent => exact behaves_nextComponent
  | activateFwSetupReq => exact behaves_activateFwSetupReq
  | activateFwProcessRsp => exact behaves_activateFwProcessRsp
  | complete =>
    intro input globals task outcome h
    cases h
    exact ⟨rfl, rfl, fun _ => rfl, fun h => absurd rfl h, fun _ _ h => ⟨rfl, h⟩,
      fun _ => .inr (.inr (.inl rfl))⟩
  | receive => exact behaves_receive
  | sendReq => exact behaves_sendReq
  | processRsp => exact behaves_processRsp
  | retryReq => exact behaves_retryReq
  | fatalError =>
    intro input globals task outcome h
    cases h
    exact ⟨rfl, rfl, fun h => absurd rfl h, fun _ => rfl, fun _ _ h => ⟨rfl, h⟩,
      fun _ => .inr (.inl rfl)⟩
  | cancelUpdateComponentSetupReq =>
    intro input globals task outcome h
    cases h
    exact ⟨rfl, rfl, fun _ => rfl, fun _ => rfl, nofun, nofun⟩
  | cancelUpdateComponentProcessRsp =>
    intro input globals task outcome h
    cases h
    exact ⟨rfl, rfl, fun _ => rfl, fun _ => rfl, nofun, nofun⟩
  | cancelUpdateSetupReq =>
    intro input globals task outcome h
    cases h
    exact ⟨rfl, rfl, fun _ => rfl, fun _ => rfl, nofun, nofun⟩
  | cancelUpdateProcessRsp =>
    intro input globals task outcome h
    cases h
    exact ⟨rfl, rfl, fun _ => rfl, fun _ => rfl, nofun, fun _ => .inr (.inr (.inr (.inl rfl)))⟩
  | max =>
    intro input globals task outcome h
    cases h

end Pldm
