import Edk2Nvidia.Pldm.Session

/-! What the handlers that go over the images and the components do, for a task whose
component information is set up. -/
namespace Pldm
open Flash Parse Transition

/-- The first component from `start` on that image `i` is for. -/
def Plan.next (plan : Plan) (i start : Nat) : Bool × Nat :=
  fwGetNextFwParamsMatchingComponent plan.response start (imageClassification plan.pkg (plan.info i))
    (imageId plan.pkg (plan.info i))

section
variable {plan : Plan} {i start k : Nat}

theorem Plan.next_found (h : plan.next i start = (true, k)) :
    start ≤ k ∧ k < plan.componentCount ∧ plan.compatible i k = true ∧
      ∀ j, start ≤ j → j < k → plan.compatible i j = false :=
  matchingComponent_found h

theorem Plan.next_none (h : plan.next i start = (false, k)) :
    k = 0 ∧ ∀ j, start ≤ j → j < plan.componentCount → plan.compatible i j = false :=
  matchingComponent_none h

theorem Plan.info_succ (plan : Plan) (i : Nat) :
    plan.info (i + 1) = (getNextComponentImage (plan.info i)).value plan.pkg :=
  chain_succ _ _ _ _

end

/-- The cursor is moved to the first component of the next image. -/
def Task.toNextImage (plan : Plan) (task : Task) : Task :=
  (task.toComponent 0).countImage.toImageInfo (plan.info (task.componentImageIndex + 1))

/-- The cursor is moved behind the last image. -/
def Task.pastLastImage (task : Task) : Task := (task.toComponent 0).countImage

/-- Behind the component table, the cursor is at the first image again. -/
def Task.restart (task : Task) : Task :=
  (resetComponentInfo task.pastLastImage).setFDState .readyXfer

def Plan.passRequest (plan : Plan) (i k : Nat) (flag : UInt8) : List UInt8 :=
  passComponentTableRequest plan.pkg plan.response (plan.info i) k flag

section
variable {plan : Plan} {input : Input} {globals : Globals} {task : Task} {k : Nat}

theorem unlessCancelled_of_not {cancelled : TaskState} {body : Handler}
    (hc : globals.cancelAllUpdates = false) :
    unlessCancelled cancelled body input globals task = body input globals task := by
  simp only [unlessCancelled, hc, Bool.false_eq_true, if_false]

theorem requestUpdateSetupReq_eq {record : Nat} (hc : globals.cancelAllUpdates = false)
    (hrecord : task.deviceIdRecord = some record) :
    requestUpdateSetupReq input globals task =
      some { next := .sendReq, globals
             task := sendReqSetup task Command.requestUpdate
               (requestUpdateRequest task.pkgHdr record task.numUpdateComponents)
               .requestUpdateProcessRsp } := by
  rw [requestUpdateSetupReq, unlessCancelled_of_not hc, hrecord]
  rfl

theorem Task.setUp_fields (hsetUp : SetUp plan task.cursor) :
    task.pkgHdr = plan.pkg ∧ task.deviceIdRecord = some plan.record ∧
      task.getFwParamsResponse = some plan.response ∧
        task.imageInfoArea = some (imageArea plan.pkg) ∧
          task.imageInfo = some (plan.info task.componentImageIndex) :=
  ⟨hsetUp.planned.pkg, hsetUp.planned.record, hsetUp.planned.response, hsetUp.area, hsetUp.info⟩

theorem value_applicable {i : Nat} {applicable : Bool} (h : plan.applicable i = applicable) :
    (componentIsApplicable i plan.record).value plan.pkg = applicable := h

/-- The handlers that look for a component do so from the cursor. -/
theorem value_next {i start : Nat} {found : Bool} (h : plan.next i start = (found, k)) :
    fwGetNextFwParamsMatchingComponent plan.response start
      (imageClassification plan.pkg (plan.info i)) (imageId plan.pkg (plan.info i)) = (found, k) := h

@[simp] theorem toComponent_pkgHdr (task : Task) (k : Nat) :
    (task.toComponent k).pkgHdr = task.pkgHdr := rfl
@[simp] theorem countImage_pkgHdr (task : Task) : task.countImage.pkgHdr = task.pkgHdr := rfl
@[simp] theorem countImage_componentImageIndex (task : Task) (k : Nat) :
    (task.toComponent k).countImage.componentImageIndex = task.componentImageIndex + 1 := rfl

variable (hc : globals.cancelAllUpdates = false) (hsetUp : SetUp plan task.cursor)
include hc hsetUp

theorem passComponentTableSetupReq_skip (h : plan.applicable task.componentImageIndex = false) :
    passComponentTableSetupReq input globals task =
      some { next := .passComponentTableNextComponent, task, globals } := by
  obtain ⟨hpkg, hrecord, -⟩ := Task.setUp_fields hsetUp
  rw [passComponentTableSetupReq, unlessCancelled_of_not hc, hrecord, hpkg]
  exact if_pos h

theorem passComponentTableSetupReq_none (h : plan.applicable task.componentImageIndex = true)
    (hnext : plan.next task.componentImageIndex task.fwParamsComponentIndex = (false, k)) :
    passComponentTableSetupReq input globals task =
      some { next := .passComponentTableNextComponent, task := task.toComponent k, globals } := by
  obtain ⟨hpkg, hrecord, hresponse, -, hinfo⟩ := Task.setUp_fields hsetUp
  rw [passComponentTableSetupReq, unlessCancelled_of_not hc, hrecord, hresponse, hinfo, hpkg]
  simp only [Option.bind_eq_bind, Option.bind_some, value_applicable h, value_next hnext,
    Bool.true_eq_false, if_false, if_true, Option.pure_def]

theorem passComponentTableSetupReq_found (h : plan.applicable task.componentImageIndex = true)
    (hnext : plan.next task.componentImageIndex task.fwParamsComponentIndex = (true, k)) :
    passComponentTableSetupReq input globals task =
      some { next := .sendReq, globals
             task := sendReqSetup (task.toComponent k) Command.passComponentTable
               (plan.passRequest task.componentImageIndex k
                 (transferFlag task.updateComponentIndex task.numUpdateComponents))
               .passComponentTableProcessRsp } := by
  obtain ⟨hpkg, hrecord, hresponse, -, hinfo⟩ := Task.setUp_fields hsetUp
  rw [passComponentTableSetupReq, unlessCancelled_of_not hc, hrecord, hresponse, hinfo, hpkg]
  simp only [Option.bind_eq_bind, Option.bind_some, value_applicable h, value_next hnext,
    Bool.true_eq_false, if_false, Option.pure_def, toComponent_pkgHdr, hpkg]
  rfl

theorem updateComponentSetupReq_skip (h : plan.applicable task.componentImageIndex = false) :
    updateComponentSetupReq input globals task =
      some { next := .nextComponent, task, globals } := by
  obtain ⟨hpkg, hrecord, -⟩ := Task.setUp_fields hsetUp
  rw [updateComponentSetupReq, unlessCancelled_of_not hc, hrecord, hpkg]
  exact if_pos h

theorem updateComponentSetupReq_none (h : plan.applicable task.componentImageIndex = true)
    (hnext : plan.next task.componentImageIndex task.fwParamsComponentIndex = (false, k)) :
    updateComponentSetupReq input globals task =
      some { next := .nextComponent, task := task.toComponent k, globals } := by
  obtain ⟨hpkg, hrecord, hresponse, -, hinfo⟩ := Task.setUp_fields hsetUp
  rw [updateComponentSetupReq, unlessCancelled_of_not hc, hrecord, hresponse, hinfo, hpkg]
  simp only [Option.bind_eq_bind, Option.bind_some, value_applicable h, value_next hnext,
    Bool.true_eq_false, if_false, if_true, Option.pure_def]

theorem updateComponentSetupReq_found (h : plan.applicable task.componentImageIndex = true)
    (hnext : plan.next task.componentImageIndex task.fwParamsComponentIndex = (true, k)) :
    updateComponentSetupReq input globals task =
      some { next := .sendReq, globals
             task := sendReqSetup (task.toComponent k) Command.updateComponent
               (plan.updateRequest task.componentImageIndex k) .updateComponentProcessRsp } := by
  obtain ⟨hpkg, hrecord, hresponse, -, hinfo⟩ := Task.setUp_fields hsetUp
  rw [updateComponentSetupReq, unlessCancelled_of_not hc, hrecord, hresponse, hinfo, hpkg]
  simp only [Option.bind_eq_bind, Option.bind_some, value_applicable h, value_next hnext,
    Bool.true_eq_false, if_false, Option.pure_def, toComponent_pkgHdr, hpkg]
  rfl

theorem passComponentTableNextComponent_found
    (hnext : plan.next task.componentImageIndex (task.fwParamsComponentIndex + 1) = (true, k)) :
    passComponentTableNextComponent input globals task =
      some { next := .passComponentTableSetupReq, task := task.toComponent k, globals } := by
  obtain ⟨hpkg, -, hresponse, harea, hinfo⟩ := Task.setUp_fields hsetUp
  rw [passComponentTableNextComponent, unlessCancelled_of_not hc, hresponse, harea, hinfo, hpkg]
  simp only [Option.bind_eq_bind, Option.bind_some, value_next hnext, if_true, Option.pure_def]

theorem passComponentTableNextComponent_more
    (hnext : plan.next task.componentImageIndex (task.fwParamsComponentIndex + 1) = (false, 0))
    (hmore : task.componentImageIndex + 1 < plan.imageCount) :
    passComponentTableNextComponent input globals task =
      some { next := .passComponentTableSetupReq, task := task.toNextImage plan, globals } := by
  obtain ⟨hpkg, -, hresponse, harea, hinfo⟩ := Task.setUp_fields hsetUp
  have hcount : ¬ task.componentImageIndex + 1 ≥ (imageCount (imageArea plan.pkg)).value plan.pkg :=
    Nat.not_le.mpr hmore
  rw [passComponentTableNextComponent, unlessCancelled_of_not hc, hresponse, harea, hinfo, hpkg]
  simp only [Option.bind_eq_bind, Option.bind_some, value_next hnext, Bool.false_eq_true, if_false,
    Option.pure_def, countImage_pkgHdr, toComponent_pkgHdr, countImage_componentImageIndex, hpkg,
    if_neg hcount, Task.toNextImage, Plan.info_succ]

theorem passComponentTableNextComponent_last
    (hnext : plan.next task.componentImageIndex (task.fwParamsComponentIndex + 1) = (false, 0))
    (hlast : plan.imageCount ≤ task.componentImageIndex + 1) :
    passComponentTableNextComponent input globals task =
      some { next := .updateComponentSetupReq, task := task.restart, globals } := by
  obtain ⟨hpkg, -, hresponse, harea, hinfo⟩ := Task.setUp_fields hsetUp
  have hcount : task.componentImageIndex + 1 ≥ (imageCount (imageArea plan.pkg)).value plan.pkg :=
    hlast
  rw [passComponentTableNextComponent, unlessCancelled_of_not hc, hresponse, harea, hinfo, hpkg]
  simp only [Option.bind_eq_bind, Option.bind_some, value_next hnext, Bool.false_eq_true, if_false,
    Option.pure_def, countImage_pkgHdr, toComponent_pkgHdr, countImage_componentImageIndex, hpkg,
    if_pos hcount, Task.pastLastImage, Task.restart]

theorem nextComponent_found
    (hnext : plan.next task.componentImageIndex (task.fwParamsComponentIndex + 1) = (true, k)) :
    nextComponent input globals task =
      some { next := .passComponentTableSetupReq, task := task.toComponent k, globals } := by
  obtain ⟨hpkg, -, hresponse, harea, hinfo⟩ := Task.setUp_fields hsetUp
  rw [nextComponent, unlessCancelled_of_not hc, hresponse, harea, hinfo, hpkg]
  simp only [Option.bind_eq_bind, Option.bind_some, value_next hnext, if_true, Option.pure_def]

theorem nextComponent_more
    (hnext : plan.next task.componentImageIndex (task.fwParamsComponentIndex + 1) = (false, 0))
    (hmore : task.componentImageIndex + 1 < plan.imageCount) :
    nextComponent input globals task =
      some { next := .updateComponentSetupReq, task := task.toNextImage plan, globals } := by
  obtain ⟨hpkg, -, hresponse, harea, hinfo⟩ := Task.setUp_fields hsetUp
  have hcount : ¬ task.componentImageIndex + 1 ≥ (imageCount (imageArea plan.pkg)).value plan.pkg :=
    Nat.not_le.mpr hmore
  rw [nextComponent, unlessCancelled_of_not hc, hresponse, harea, hinfo, hpkg]
  simp only [Option.bind_eq_bind, Option.bind_some, value_next hnext, Bool.false_eq_true, if_false,
    Option.pure_def, countImage_pkgHdr, toComponent_pkgHdr, countImage_componentImageIndex, hpkg,
    if_neg hcount, Task.toNextImage, Plan.info_succ]

theorem nextComponent_last
    (hnext : plan.next task.componentImageIndex (task.fwParamsComponentIndex + 1) = (false, 0))
    (hlast : plan.imageCount ≤ task.componentImageIndex + 1) :
    nextComponent input globals task =
      some { next := .activateFwSetupReq, task := task.pastLastImage.expectNoRequests, globals } := by
  obtain ⟨hpkg, -, hresponse, harea, hinfo⟩ := Task.setUp_fields hsetUp
  have hcount : task.componentImageIndex + 1 ≥ (imageCount (imageArea plan.pkg)).value plan.pkg :=
    hlast
  rw [nextComponent, unlessCancelled_of_not hc, hresponse, harea, hinfo, hpkg]
  simp only [Option.bind_eq_bind, Option.bind_some, value_next hnext, Bool.false_eq_true, if_false,
    Option.pure_def, countImage_pkgHdr, toComponent_pkgHdr, countImage_componentImageIndex, hpkg,
    if_pos hcount, Task.pastLastImage]

end

/-- A request for data is always answered, once the component information is set up. -/
theorem requestFwDataAnswer_some (task : Task) (offset length : Nat)
    (h : task.fdState = .download → ∃ info, task.imageInfo = some info) :
    ∃ answer, requestFwDataAnswer task offset length = some answer := by
  by_cases hfd : task.fdState = .download
  · obtain ⟨info, hinfo⟩ := h hfd
    simp only [requestFwDataAnswer, hfd, hinfo, ne_eq, not_true_eq_false, if_false,
      Option.bind_eq_bind, Option.bind_some]
    split
    · exact ⟨_, rfl⟩
    · exact ⟨_, rfl⟩
  · exact ⟨_, if_pos hfd⟩

/-! The component information stays set up. -/

section
variable {plan : Plan} {task : Task}

theorem SetUp.toComponent (h : SetUp plan task.cursor) (k : Nat) :
    SetUp plan (task.toComponent k).cursor :=
  ⟨⟨h.planned.pkg, h.planned.record, h.planned.response⟩, h.area, h.info, h.image⟩

theorem SetUp.toNextImage (h : SetUp plan task.cursor)
    (hmore : task.componentImageIndex + 1 < plan.imageCount) :
    SetUp plan (task.toNextImage plan).cursor :=
  ⟨⟨h.planned.pkg, h.planned.record, h.planned.response⟩, h.area, rfl, hmore⟩

theorem Planned.reset (h : Planned plan task.cursor) (himages : 0 < plan.imageCount) :
    SetUp plan (resetComponentInfo task).cursor := by
  have hpkg : task.pkgHdr = plan.pkg := h.pkg
  refine ⟨⟨h.pkg, h.record, h.response⟩, ?_, ?_, himages⟩
  · change some (getComponentImageInfoArea.value task.pkgHdr) = _
    rw [hpkg]
    rfl
  · change some (imageInfos (getComponentImageInfoArea.value task.pkgHdr)) = _
    rw [hpkg]
    rfl

theorem Planned.restart (h : Planned plan task.cursor) : Planned plan task.restart.cursor := by
  simp only [Task.restart, Task.setFDState, resetComponentInfo, Task.pastLastImage, Task.countImage,
    Task.toComponent, Task.cursor]
  exact ⟨h.pkg, h.record, h.response⟩

theorem SetUp.restart (h : SetUp plan task.cursor) : SetUp plan task.restart.cursor := by
  have hplanned : Planned plan task.pastLastImage.cursor :=
    ⟨h.planned.pkg, h.planned.record, h.planned.response⟩
  have hreset := hplanned.reset (Nat.zero_lt_of_lt h.image)
  exact ⟨⟨hreset.planned.pkg, hreset.planned.record, hreset.planned.response⟩, hreset.area,
    hreset.info, hreset.image⟩

@[simp] theorem restart_fdState (task : Task) : task.restart.fdState = .readyXfer := rfl
@[simp] theorem restart_fwParamsComponentIndex (task : Task) :
    task.restart.fwParamsComponentIndex = 0 := rfl
@[simp] theorem restart_componentImageIndex (task : Task) :
    task.restart.componentImageIndex = 0 := rfl

end

end Pldm
