import Edk2Nvidia.Pldm.Accepting

/-! The pairs of images and components there are to update, and how a task passes them to a
device that accepts everything. -/
namespace Pldm
open Flash Parse Transition

namespace Plan

/-- The components from `start` on that have the classification and id of image `i`. -/
def matchesFrom (plan : Plan) (i start : Nat) : List Nat :=
  (List.range' start (plan.componentCount - start)).filter (plan.compatible i)

/-- The pairs of image `i` with components from `start` on. -/
def pairsOf (plan : Plan) (i start : Nat) : List (Nat × Nat) :=
  if plan.applicable i then (plan.matchesFrom i start).map fun k => (i, k) else []

/-- The pairs of the images from `i` on, in the order of the package. -/
def pairsFrom (plan : Plan) (i : Nat) : List (Nat × Nat) :=
  (List.range' i (plan.imageCount - i)).flatMap fun i => plan.pairsOf i 0

/-- All applicable images with the components they are for. -/
def pairs (plan : Plan) : List (Nat × Nat) := plan.pairsFrom 0

variable {plan : Plan} {i start k : Nat}

theorem matchesFrom_step (h : start < plan.componentCount) :
    plan.matchesFrom i start =
      if plan.compatible i start then start :: plan.matchesFrom i (start + 1)
      else plan.matchesFrom i (start + 1) := by
  unfold matchesFrom
  obtain ⟨d, hd⟩ : ∃ d, plan.componentCount - start = d + 1 := ⟨plan.componentCount - start - 1, by omega⟩
  have hrest : plan.componentCount - (start + 1) = d := by omega
  rw [hd, hrest, List.range'_succ, List.filter_cons]

theorem matchesFrom_none (h : ∀ j, start ≤ j → j < plan.componentCount → plan.compatible i j = false) :
    plan.matchesFrom i start = [] := by
  refine List.filter_eq_nil_iff.mpr fun j hj => ?_
  have hbound := List.mem_range'_1.mp hj
  rw [h j hbound.1 (by omega)]
  exact Bool.false_ne_true

theorem matchesFrom_found (hle : start ≤ k) (hk : k < plan.componentCount)
    (hcompatible : plan.compatible i k = true)
    (hfirst : ∀ j, start ≤ j → j < k → plan.compatible i j = false) :
    plan.matchesFrom i start = k :: plan.matchesFrom i (k + 1) := by
  obtain ⟨d, rfl⟩ := Nat.exists_eq_add_of_le hle
  induction d generalizing start with
  | zero => exact (matchesFrom_step hk).trans (if_pos hcompatible)
  | succ d ih =>
    have hno : plan.compatible i start = false := hfirst start (Nat.le_refl _) (by omega)
    have hshift : start + (d + 1) = start + 1 + d := by omega
    rw [matchesFrom_step (by omega), hno, if_neg Bool.false_ne_true, hshift]
    rw [hshift] at hk hcompatible hfirst
    exact ih (by omega) hk hcompatible fun j hle hlt => hfirst j (by omega) hlt

theorem pairsFrom_cons (h : i < plan.imageCount) :
    plan.pairsFrom i = plan.pairsOf i 0 ++ plan.pairsFrom (i + 1) := by
  unfold pairsFrom
  obtain ⟨d, hd⟩ : ∃ d, plan.imageCount - i = d + 1 := ⟨plan.imageCount - i - 1, by omega⟩
  have hrest : plan.imageCount - (i + 1) = d := by omega
  rw [hd, hrest, List.range'_succ, List.flatMap_cons]

theorem pairsFrom_nil (h : plan.imageCount ≤ i) : plan.pairsFrom i = [] := by
  unfold pairsFrom
  rw [Nat.sub_eq_zero_of_le h]
  rfl

theorem fst_of_pairsOf {pair : Nat × Nat} (h : pair ∈ plan.pairsOf i start) : pair.1 = i := by
  unfold pairsOf at h
  split at h
  · obtain ⟨k, -, rfl⟩ := List.mem_map.mp h
    rfl
  · cases h

theorem image_of_pair {pair : Nat × Nat} (h : pair ∈ plan.pairs) :
    pair.1 < plan.imageCount ∧ pair ∈ plan.pairsOf pair.1 0 := by
  obtain ⟨j, hj, hpair⟩ := List.mem_flatMap.mp h
  cases fst_of_pairsOf hpair
  have hbound := List.mem_range'_1.mp hj
  exact ⟨by omega, hpair⟩

/-- The pairs from an image on are those of this image and the later ones. -/
theorem mem_pairsFrom_of_le {pair : Nat × Nat} (h : pair ∈ plan.pairs) (hle : i ≤ pair.1) :
    pair ∈ plan.pairsFrom i := by
  obtain ⟨j, hj, hpair⟩ := List.mem_flatMap.mp h
  have hfst := fst_of_pairsOf hpair
  have hbound := List.mem_range'_1.mp hj
  exact List.mem_flatMap.mpr ⟨j, List.mem_range'_1.mpr ⟨by omega, by omega⟩, hpair⟩

theorem pairsOf_skip (h : plan.applicable i = false) : plan.pairsOf i start = [] := by
  rw [pairsOf, h]
  rfl

theorem pairsOf_empty
    (h : ∀ j, start ≤ j → j < plan.componentCount → plan.compatible i j = false) :
    plan.pairsOf i start = [] := by
  unfold pairsOf
  rw [matchesFrom_none h]
  exact ite_self _

theorem pairsOf_none (hnext : plan.next i start = (false, k)) : plan.pairsOf i start = [] :=
  pairsOf_empty (plan.next_none hnext).2

theorem pairsOf_found (happ : plan.applicable i = true) (hnext : plan.next i start = (true, k)) :
    plan.pairsOf i start = (i, k) :: plan.pairsOf i (k + 1) := by
  obtain ⟨hle, hk, hcompatible, hfirst⟩ := plan.next_found hnext
  rw [pairsOf, pairsOf, happ, if_pos rfl, if_pos rfl,
    matchesFrom_found hle hk hcompatible hfirst, List.map_cons]

theorem pairsOf_next (hnext : plan.next i start = (true, k)) :
    plan.pairsOf i start = plan.pairsOf i k := by
  obtain ⟨hle, hk, hcompatible, hfirst⟩ := plan.next_found hnext
  unfold pairsOf
  rw [matchesFrom_found hle hk hcompatible hfirst, matchesFrom_found (Nat.le_refl k) hk hcompatible
    fun j hle hlt => absurd hlt (Nat.not_lt.mpr hle)]

theorem next_self (hk : k < plan.componentCount) (hcompatible : plan.compatible i k = true) :
    plan.next i k = (true, k) := by
  cases hnext : plan.next i k with
  | mk found j =>
    cases found with
    | false => exact absurd ((plan.next_none hnext).2 k (Nat.le_refl k) hk) (by rw [hcompatible]; decide)
    | true =>
      obtain ⟨hle, -, -, hfirst⟩ := plan.next_found hnext
      rcases Nat.lt_or_eq_of_le hle with hlt | rfl
      · exact absurd (hfirst k (Nat.le_refl k) hlt) (by rw [hcompatible]; decide)
      · rfl

theorem next_iff : (∃ k, plan.next i start = (true, k)) ↔ plan.matchesFrom i start ≠ [] := by
  constructor
  · rintro ⟨k, hnext⟩
    obtain ⟨hle, hk, hcompatible, hfirst⟩ := plan.next_found hnext
    rw [matchesFrom_found hle hk hcompatible hfirst]
    exact List.cons_ne_nil _ _
  · intro hne
    cases hnext : plan.next i start with
    | mk found k =>
      cases found with
      | true => exact ⟨k, rfl⟩
      | false => exact absurd (matchesFrom_none (plan.next_none hnext).2) hne

/-- A component matches image `i` besides the one the task stands at when the image is done:
the first one, or, when there is nothing to install, the first of the table. -/
def additional (plan : Plan) (i : Nat) : Prop :=
  if plan.applicable i then 2 ≤ (plan.matchesFrom i 0).length else plan.matchesFrom i 1 ≠ []

instance (plan : Plan) (i : Nat) : Decidable (plan.additional i) :=
  inferInstanceAs (Decidable (if plan.applicable i then 2 ≤ (plan.matchesFrom i 0).length
    else plan.matchesFrom i 1 ≠ []))

theorem additional_skip (h : plan.applicable i = false) :
    plan.additional i ↔ plan.matchesFrom i 1 ≠ [] := by
  rw [additional, h]
  exact Iff.rfl

theorem additional_found (happ : plan.applicable i = true) (hnext : plan.next i 0 = (true, k)) :
    plan.additional i ↔ plan.matchesFrom i (k + 1) ≠ [] := by
  obtain ⟨hle, hk, hcompatible, hfirst⟩ := plan.next_found hnext
  rw [additional, happ, if_pos rfl, matchesFrom_found hle hk hcompatible hfirst, List.length_cons,
    Nat.succ_le_succ_iff, Nat.succ_le_iff, List.length_pos_iff]

theorem additional_none (happ : plan.applicable i = true) (hnext : plan.next i 0 = (false, k)) :
    ¬ plan.additional i := by
  rw [additional, happ, if_pos rfl, matchesFrom_none (plan.next_none hnext).2]
  exact nofun

theorem count_pairs (plan : Plan) (count i : Nat) :
    countUpdateComponents plan.pkg plan.response plan.record count i (plan.info i) =
      ((List.range' i count).flatMap fun i => plan.pairsOf i 0).length := by
  induction count generalizing i with
  | zero => rfl
  | succ count ih =>
    have hrest := ih (i + 1)
    rw [plan.info_succ] at hrest
    rw [List.range'_succ, List.flatMap_cons, List.length_append, ← hrest, countUpdateComponents]
    have himage : (if plan.applicable i = true then countMatches plan.pkg plan.response (plan.info i)
        else 0) = (plan.pairsOf i 0).length := by
      unfold pairsOf
      split
      · rw [List.length_map, matchesFrom, ← List.countP_eq_length_filter, countMatches,
          List.range_eq_range']
        rfl
      · rfl
    rw [← himage]
    rfl

end Plan

/-- The task stands at component `k` for image `i`. -/
structure Standing (plan : Plan) (i k : Nat) (fdState : FDState) (progress : Progress) : Prop where
  running : progress.complete = false
  setUp : SetUp plan progress.cursor
  image : progress.cursor.componentImageIndex = i
  component : progress.cursor.fwParamsComponentIndex = k
  index : progress.updateComponentIndex = 0
  count : progress.numUpdateComponents = plan.pairs.length
  fdState : progress.fdState = fdState

/-- It does so in this state, having sent these requests. -/
structure Stands (plan : Plan) (i k : Nat) (requests : List (List UInt8)) (fdState : FDState)
    (state : TaskState) (s : Session) : Prop where
  state : s.task.taskState = state
  standing : Standing plan i k fdState s.task.progress
  log : requestsOf s.log = requests

/-- The `PassComponentTable` of a pair. The index it takes the flag from is the first of all. -/
def Plan.tells (plan : Plan) (pair : Nat × Nat) : List UInt8 :=
  Command.passComponentTable :: plan.passRequest pair.1 pair.2 (transferFlag 0 plan.pairs.length)

section
variable {plan : Plan} {i k : Nat} {task : Task} {fdState : FDState}

theorem Standing.toComponent (h : Standing plan i k fdState task.progress) (j : Nat) :
    Standing plan i j fdState (task.toComponent j).progress :=
  ⟨h.running, h.setUp.toComponent j, h.image, rfl, h.index, h.count, h.fdState⟩

theorem Standing.setFDState (h : Standing plan i k fdState task.progress) (fdState' : FDState) :
    Standing plan i k fdState' (task.setFDState fdState').progress :=
  ⟨h.running, ⟨⟨h.setUp.planned.pkg, h.setUp.planned.record, h.setUp.planned.response⟩, h.setUp.area,
    h.setUp.info, h.setUp.image⟩, h.image, h.component, h.index, h.count, rfl⟩

theorem Standing.toNextImage (h : Standing plan i k fdState task.progress)
    (hmore : i + 1 < plan.imageCount) :
    Standing plan (i + 1) 0 fdState (task.toNextImage plan).progress := by
  obtain ⟨hrunning, hsetUp, rfl, -, hindex, hcount, hfd⟩ := h
  exact ⟨hrunning, hsetUp.toNextImage hmore, rfl, rfl, hindex, hcount, hfd⟩

theorem Standing.restart (h : Standing plan i k fdState task.progress) :
    Standing plan 0 0 .readyXfer task.restart.progress := by
  have hkept : task.restart.complete = task.complete ∧
      task.restart.numUpdateComponents = task.numUpdateComponents := by
    simp only [Task.restart, Task.setFDState, resetComponentInfo, Task.pastLastImage, Task.countImage,
      Task.toComponent, and_self]
  exact ⟨hkept.1.trans h.running, h.setUp.restart, rfl, rfl, rfl, hkept.2.trans h.count, rfl⟩

theorem Standing.fields (h : Standing plan i k fdState task.progress) :
    task.complete = false ∧ SetUp plan task.cursor ∧ task.componentImageIndex = i ∧
      task.fwParamsComponentIndex = k ∧ task.updateComponentIndex = 0 ∧
        task.numUpdateComponents = plan.pairs.length :=
  ⟨h.running, h.setUp, h.image, h.component, h.index, h.count⟩

end

theorem processPackage_counted {plan : Plan} {input : Input} {globals : Globals} {task : Task}
    (planned : Planned plan task.cursor) :
    processPackage input globals task =
      let task := { resetComponentInfo task with numUpdateComponents := plan.pairs.length }
      if plan.pairs.length = 0 then failWith .noUpdateComponents input globals task
      else some { next := .requestUpdateSetupReq, task, globals } := by
  have hpkg : task.pkgHdr = plan.pkg := planned.pkg
  have hrecord : task.deviceIdRecord = some plan.record := planned.record
  have hresponse : task.getFwParamsResponse = some plan.response := planned.response
  have hcount := plan.count_pairs plan.imageCount 0
  have hbody : ∀ count, countUpdateComponents task.pkgHdr plan.response plan.record
      ((imageCount (imageArea task.pkgHdr)).value task.pkgHdr) 0 (imageInfos (imageArea task.pkgHdr)) =
        count → processPackage input globals task =
      let task := { resetComponentInfo task with numUpdateComponents := count }
      if count = 0 then failWith .noUpdateComponents input globals task
      else some { next := .requestUpdateSetupReq, task, globals } := by
    rintro count rfl
    simp only [processPackage, resetComponentInfo, hrecord, hresponse, Option.bind_some,
      Option.bind_eq_bind]
    rfl
  refine hbody _ ?_
  rw [hpkg]
  exact hcount

section
variable {pkg : Memory} {record : Nat} {table : List UInt8} {pkgLen : Nat}
  {events : Nat → Input × Globals} {plan : Plan} {n i k : Nat} {s : Session} {fdState : FDState}
  {requests : List (List UInt8)}
variable (device : AcceptingDevice pkg record table pkgLen events)
include device

/-! The component table. -/

theorem gets_told (h : At pkg pkgLen events n = some s)
    (stands : Stands plan i k requests fdState .passComponentTableSetupReq s)
    (happ : plan.applicable i = true) {j : Nat} (hnext : plan.next i k = (true, j)) :
    Gets pkg pkgLen events n
      (Stands plan i j (requests ++ [plan.tells (i, j)]) fdState .passComponentTableNextComponent) := by
  have hc := (device.accepts n s h).1
  obtain ⟨hrunning, hsetUp, himage, hcomponent, hindex, hcount⟩ := stands.standing.fields
  rw [← himage] at happ
  rw [← himage, ← hcomponent] at hnext
  have hrequest := gets_request device h hrunning stands.state
    (passComponentTableSetupReq_found hc hsetUp happ hnext) hrunning
  refine hrequest.trans fun m s' hm h agreed => ?_
  obtain ⟨message, hlength, -, hagrees⟩ := agreed.agrees
  rw [sendReqSetup_command] at hagrees
  obtain ⟨hcode, hseven, hresponse⟩ := hagrees.takes rfl
  have hstanding : Standing plan i j fdState s'.task.progress := by
    rw [agreed.progress]
    exact stands.standing.toComponent j
  refine gets_next h hstanding.running agreed.state
    (passComponentTableProcessRsp_agreed (device.accepts m s' h).1 hcode (hlength.trans hseven) hresponse)
    fun h => Reaches.now h ⟨rfl, hstanding, ?_⟩
  rw [requestsOf_quiet rfl, agreed.log, stands.log, himage, hindex, hcount]
  rfl

theorem gets_skipped (h : At pkg pkgLen events n = some s)
    (stands : Stands plan i k requests fdState .passComponentTableSetupReq s)
    (happ : plan.applicable i = false) :
    Gets pkg pkgLen events n (Stands plan i k requests fdState .passComponentTableNextComponent) := by
  have hc := (device.accepts n s h).1
  obtain ⟨hrunning, hsetUp, himage, -⟩ := stands.standing.fields
  refine gets_next h hrunning stands.state (passComponentTableSetupReq_skip hc hsetUp (himage ▸ happ))
    fun h => Reaches.now h ⟨rfl, stands.standing, (requestsOf_quiet rfl).trans stands.log⟩

/-- At a component the image matches, the pair is passed if the image is applicable. -/
theorem gets_passed (h : At pkg pkgLen events n = some s)
    (stands : Stands plan i k requests fdState .passComponentTableSetupReq s)
    (hk : k < plan.componentCount) (hcompatible : plan.compatible i k = true) :
    Gets pkg pkgLen events n (fun s' => ∃ passed,
      plan.pairsOf i k = passed ++ plan.pairsOf i (k + 1) ∧
        Stands plan i k (requests ++ passed.map plan.tells) fdState .passComponentTableNextComponent s') := by
  cases happ : plan.applicable i with
  | false =>
    refine (gets_skipped device h stands happ).mono fun s' stands' => ⟨[], ?_, ?_⟩
    · rw [plan.pairsOf_skip happ, plan.pairsOf_skip happ]
      rfl
    · rw [List.map_nil, List.append_nil]
      exact stands'
  | true =>
    have hnext := plan.next_self hk hcompatible
    exact (gets_told device h stands happ hnext).mono fun s' stands' =>
      ⟨[(i, k)], plan.pairsOf_found happ hnext, stands'⟩

/-- Where the component table goes on behind image `i`. -/
def Learned (plan : Plan) (i : Nat) (requests : List (List UInt8)) (fdState : FDState)
    (s : Session) : Prop :=
  (i + 1 < plan.imageCount ∧
    Stands plan (i + 1) 0 requests fdState .passComponentTableSetupReq s) ∨
  (plan.imageCount ≤ i + 1 ∧ Stands plan 0 0 requests .readyXfer .updateComponentSetupReq s)

/-- From one component of an image on, the others are passed too. -/
theorem gets_learned (h : At pkg pkgLen events n = some s)
    (stands : Stands plan i k requests fdState .passComponentTableNextComponent s) :
    Gets pkg pkgLen events n
      (Learned plan i (requests ++ (plan.pairsOf i (k + 1)).map plan.tells) fdState) := by
  obtain ⟨d, hd⟩ : ∃ d, plan.componentCount - k = d := ⟨_, rfl⟩
  induction d using Nat.strongRecOn generalizing n s k requests with
  | _ d ih =>
    have hc := (device.accepts n s h).1
    obtain ⟨hrunning, hsetUp, himage, hcomponent, -, -⟩ := stands.standing.fields
    cases hnext : plan.next i (k + 1) with
    | mk found j =>
      cases found with
      | true =>
        obtain ⟨hle, hj, hcompatible, -⟩ := plan.next_found hnext
        refine gets_next h hrunning stands.state (passComponentTableNextComponent_found hc hsetUp
          (himage ▸ hcomponent ▸ hnext)) fun h => ?_
        refine (gets_passed device h ⟨rfl, stands.standing.toComponent j,
          (requestsOf_quiet rfl).trans stands.log⟩ hj hcompatible).trans fun m s' _ h hpassed => ?_
        obtain ⟨passed, hpairs, stands⟩ := hpassed
        have hrest := ih (plan.componentCount - j) (by omega) h stands rfl
        rw [plan.pairsOf_next hnext, hpairs, List.map_append, ← List.append_assoc]
        exact hrest
      | false =>
        obtain ⟨rfl, -⟩ := plan.next_none hnext
        rw [plan.pairsOf_none hnext, List.map_nil, List.append_nil]
        by_cases hmore : i + 1 < plan.imageCount
        · refine gets_next h hrunning stands.state (passComponentTableNextComponent_more hc hsetUp
            (himage ▸ hcomponent ▸ hnext) (himage ▸ hmore)) fun h => Reaches.now h (.inl ⟨hmore, rfl,
              stands.standing.toNextImage hmore, ?_⟩)
          exact (requestsOf_quiet rfl).trans stands.log
        · have hlast := Nat.le_of_not_lt hmore
          refine gets_next h hrunning stands.state (passComponentTableNextComponent_last hc hsetUp
            (himage ▸ hcomponent ▸ hnext) (himage ▸ hlast)) fun h => Reaches.now h (.inr ⟨hlast, rfl,
              stands.standing.restart, ?_⟩)
          exact (requestsOf_quiet rfl).trans stands.log

theorem gets_image_learned (h : At pkg pkgLen events n = some s)
    (stands : Stands plan i 0 requests fdState .passComponentTableSetupReq s) :
    Gets pkg pkgLen events n
      (Learned plan i (requests ++ (plan.pairsOf i 0).map plan.tells) fdState) := by
  cases happ : plan.applicable i with
  | false =>
    refine (gets_skipped device h stands happ).trans fun m s' _ h stands => ?_
    have hlearned := gets_learned device h stands
    rw [plan.pairsOf_skip happ] at hlearned ⊢
    exact hlearned
  | true =>
    cases hnext : plan.next i 0 with
    | mk found j =>
      cases found with
      | true =>
        refine (gets_told device h stands happ hnext).trans fun m s' _ h stands => ?_
        have hlearned := gets_learned device h stands
        rw [List.append_assoc] at hlearned
        rw [plan.pairsOf_found happ hnext]
        exact hlearned
      | false =>
        have hc := (device.accepts n s h).1
        obtain ⟨hrunning, hsetUp, himage, hcomponent, -⟩ := stands.standing.fields
        obtain ⟨rfl, hnone⟩ := plan.next_none hnext
        have hnext' : plan.next s.task.componentImageIndex s.task.fwParamsComponentIndex = (false, 0) := by
          rw [himage, hcomponent]
          exact hnext
        refine gets_next h hrunning stands.state
          (passComponentTableSetupReq_none hc hsetUp (himage ▸ happ) hnext') fun h => ?_
        have hlearned := gets_learned device h
          ⟨rfl, stands.standing.toComponent 0, (requestsOf_quiet rfl).trans stands.log⟩
        rw [plan.pairsOf_empty fun j _ hj => hnone j (Nat.zero_le j) hj] at hlearned
        rw [plan.pairsOf_none hnext]
        exact hlearned

/-- From an image on, all pairs are passed in order; then the updates begin. -/
theorem gets_updates (h : At pkg pkgLen events n = some s)
    (stands : Stands plan i 0 requests fdState .passComponentTableSetupReq s) :
    Gets pkg pkgLen events n (Stands plan 0 0 (requests ++ (plan.pairsFrom i).map plan.tells) .readyXfer
      .updateComponentSetupReq) := by
  obtain ⟨d, hd⟩ : ∃ d, plan.imageCount - i = d := ⟨_, rfl⟩
  induction d generalizing n s i requests with
  | zero =>
    have himage := stands.standing.setUp.image
    rw [stands.standing.image] at himage
    omega
  | succ d ih =>
    refine (gets_image_learned device h stands).trans fun m s' _ h hlearned => ?_
    rw [plan.pairsFrom_cons (by omega), List.map_append, ← List.append_assoc]
    rcases hlearned with ⟨hmore, stands⟩ | ⟨hlast, stands⟩
    · exact ih h stands (by omega)
    · rw [plan.pairsFrom_nil hlast, List.map_nil, List.append_nil]
      exact Reaches.now h stands

/-! The beginning. -/

/-- The device is found in the package, and its parameters are known. -/
structure Identified (plan : Plan) (requests : List (List UInt8)) (s : Session) : Prop where
  state : s.task.taskState = .processPackage
  running : s.task.complete = false
  planned : Planned plan s.task.cursor
  log : requestsOf s.log = requests

theorem gets_identified :
    Gets pkg pkgLen events 0 (Identified (planOf pkg record table)
      [[Command.queryDeviceIds], [Command.getFwParams]]) := by
  have hstart : At pkg pkgLen events 0 = some (Session.create pkg pkgLen) := rfl
  refine gets_next hstart rfl rfl rfl fun h => ?_
  refine (gets_request device h rfl rfl rfl rfl).trans fun m s _ h agreed => ?_
  obtain ⟨message, hlength, -, hagrees⟩ := agreed.agrees
  rw [sendReqSetup_command] at hagrees
  obtain ⟨hcheck, hmatch⟩ := hagrees.identifies rfl
  have hpkg : s.task.pkgHdr = pkg := congrArg (fun p => p.cursor.pkgHdr) agreed.progress
  have hrunning : s.task.complete = false := congrArg Progress.complete agreed.progress
  rw [← hlength] at hcheck
  rw [← hpkg] at hmatch
  have hbody : queryDeviceIdentifiersProcessRsp (events m).1 (events m).2 s.task = some
      { next := .getFwParamsSetupReq, task := { s.task with deviceIdRecord := some record }
        globals := (events m).2 } := by
    simp only [queryDeviceIdentifiersProcessRsp, hcheck, hmatch, Bool.false_eq_true, if_false]
  refine gets_next h hrunning agreed.state hbody fun h => ?_
  refine (gets_request device h hrunning rfl rfl hrunning).trans fun m' s' _ h agreed' => ?_
  obtain ⟨message, hlength, hslice, hagrees⟩ := agreed'.agrees
  rw [sendReqSetup_command] at hagrees
  obtain ⟨hcheck, hsize, rfl⟩ := hagrees.parameters rfl
  have hrunning' : s'.task.complete = false :=
    (congrArg Progress.complete agreed'.progress).trans hrunning
  have hpkg' : s'.task.pkgHdr = pkg :=
    (congrArg (fun p => p.cursor.pkgHdr) agreed'.progress).trans hpkg
  have hrecord : s'.task.deviceIdRecord = some record :=
    congrArg (fun p => p.cursor.deviceIdRecord) agreed'.progress
  rw [← hlength] at hcheck hsize hslice
  have hbody : getFwParamsProcessRsp (events m').1 (events m').2 s'.task = some
      { next := .processPackage, globals := (events m').2
        task := { s'.task with getFwParamsResponse := some (overwrite (fun _ => 0) 0 message) } } := by
    simp only [getFwParamsProcessRsp, hcheck, hslice, Nat.not_lt.mpr hsize,
      Bool.false_eq_true, if_false]
  refine gets_next h hrunning' agreed'.state hbody fun h => Reaches.now h
    ⟨rfl, hrunning', ⟨hpkg', hrecord, rfl⟩, ?_⟩
  rw [requestsOf_quiet rfl, agreed'.log, requestsOf_quiet rfl, agreed.log, requestsOf_quiet rfl]
  rfl

/-- The `RequestUpdate` that announces all pairs. -/
def Plan.announces (plan : Plan) : List UInt8 :=
  Command.requestUpdate :: requestUpdateRequest plan.pkg plan.record plan.pairs.length

theorem gets_granted (some_pair : 0 < plan.pairs.length) (h : At pkg pkgLen events n = some s)
    (identified : Identified plan requests s) :
    Gets pkg pkgLen events n (Stands plan 0 0 (requests ++ [plan.announces]) .learnComponents
      .passComponentTableSetupReq) := by
  have himages : 0 < plan.imageCount := by
    by_contra hnot
    have hempty : plan.pairs = [] := plan.pairsFrom_nil (Nat.le_of_not_lt hnot)
    rw [hempty] at some_pair
    exact absurd some_pair (Nat.lt_irrefl 0)
  have hbody : processPackage (events n).1 (events n).2 s.task = _ :=
    (processPackage_counted identified.planned).trans (if_neg (Nat.ne_of_gt some_pair))
  have hreset := identified.planned.reset himages
  have hstanding : Standing plan 0 0 s.task.fdState (Task.progress
      { resetComponentInfo s.task with numUpdateComponents := plan.pairs.length }) :=
    ⟨identified.running, hreset, rfl, rfl, rfl, rfl, rfl⟩
  refine gets_next h identified.running identified.state hbody fun h => ?_
  refine (gets_request device h identified.running rfl
    (requestUpdateSetupReq_eq (device.accepts _ _ h).1 hreset.planned.record)
    identified.running).trans fun m s' _ h agreed => ?_
  obtain ⟨message, hlength, -, hagrees⟩ := agreed.agrees
  rw [sendReqSetup_command] at hagrees
  obtain ⟨hcode, height, hdata, hget⟩ := hagrees.grants rfl
  have hstanding : Standing plan 0 0 s.task.fdState s'.task.progress := by
    rw [agreed.progress]
    exact hstanding
  obtain ⟨hrunning, hsetUp, himage, hcomponent, hindex, hcount, -⟩ := hstanding
  refine gets_next h hrunning agreed.state (requestUpdateProcessRsp_agreed (device.accepts m s' h).1
    hcode (hlength.trans height) hdata hget) fun h => Reaches.now h
      ⟨rfl, ⟨hrunning, ⟨⟨hsetUp.planned.pkg, hsetUp.planned.record, hsetUp.planned.response⟩,
        hsetUp.area, hsetUp.info, hsetUp.image⟩, himage, hcomponent, hindex, hcount, rfl⟩, ?_⟩
  have hpkg : s.task.pkgHdr = plan.pkg := identified.planned.pkg
  rw [requestsOf_quiet rfl, agreed.log, requestsOf_quiet rfl, identified.log, Plan.announces, ← hpkg]
  rfl

omit device in
theorem gets_refused (no_pair : plan.pairs.length = 0) (h : At pkg pkgLen events n = some s)
    (identified : Identified plan requests s) :
    Gets pkg pkgLen events n (fun s' => s'.task.complete = true ∧ requestsOf s'.log = requests) := by
  have hbody : processPackage (events n).1 (events n).2 s.task = _ :=
    (processPackage_counted identified.planned).trans (if_pos no_pair)
  refine gets_next h identified.running identified.state hbody fun h => ?_
  refine gets_next h identified.running rfl rfl fun h => ?_
  refine gets_next h identified.running rfl rfl fun h => Reaches.now h ⟨rfl, ?_⟩
  rw [requestsOf_quiet rfl, requestsOf_quiet rfl, requestsOf_quiet rfl]
  exact identified.log

end

end Pldm
