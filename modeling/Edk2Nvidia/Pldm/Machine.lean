import Edk2Nvidia.Pldm.Steady
import Edk2Nvidia.Pldm.ProtocolOrder

/-! The state machine loop over the tasks of all devices, and the runs of one boot. -/
namespace Pldm
open Flash Parse Transition

/-- The tasks of one run, and where the loop is. -/
structure Machine where
  sessions : List Session
  globals : Globals
  index : Nat := 0
  returned : Bool := false

/-- `PldmFwUpdateTaskLibInit`. A cancellation is not taken back. -/
def libInit (globals : Globals) : Globals := { cancelAllUpdates := globals.cancelAllUpdates }

/-- What the loop does when a task has completed. -/
def taskEnded (task : Task) (globals : Globals) : Globals :=
  let globals :=
    if task.status.isError then
      { globals with status := .protocolError, cancelAllUpdates := true }
    else
      globals
  { globals with numTasksComplete := globals.numTasksComplete + 1 }

/-- What comes behind a call of a handler. -/
def Machine.handled (m : Machine) (s : Session) (globals : Globals) : Machine :=
  let m := { m with sessions := m.sessions.set m.index s, globals, index := m.index + 1 }
  if s.task.complete then
    let globals := taskEnded s.task globals
    { m with globals, returned := globals.numTasksComplete == m.sessions.length }
  else
    m

/-- One turn of the inner loop of `PldmFwTaskStateMachineLoop`, or the end of it. -/
def Machine.step (input : Input) (m : Machine) : Option Machine :=
  if m.returned then
    some m
  else
    match m.sessions[m.index]? with
    | none => some { m with index := 0 }
    | some s =>
      if s.task.complete then
        some { m with index := m.index + 1 }
      else
        (s.step input m.globals).map fun (s, globals) => m.handled s globals

/-- An update of all devices, each from its package. Where the tasks cannot be created,
nothing is executed. -/
structure Run where
  packages : List (Memory × Nat)
  created : Bool := true
  inputs : List Input

def Run.start (r : Run) (globals : Globals) : Machine where
  sessions := r.packages.map fun package => Session.create package.1 package.2
  globals := libInit globals

/-- `PldmFwUpdateTaskExecuteAll`, if it returns. -/
def Run.executeAll (r : Run) (globals : Globals) : Option Machine :=
  (run Machine.step r.inputs (r.start globals)).filter (·.returned)

/-- What the runs of a boot leave behind. -/
def boot : List Run → Globals → Option Globals
  | [], globals => some globals
  | r :: runs, globals =>
    if r.created then
      (r.executeAll globals).bind fun m => boot runs m.globals
    else
      boot runs (libInit globals)

def Confirmed (log : List Entry) : Prop :=
  ∃ entry ∈ log, Receives (AnswersSuccess Command.activateFw) entry

/-- The device granted the update, took every image that is for one of its components, and
activated them. -/
structure UpdatedDevice (s : Session) : Prop where
  granted : Granted s.log
  installed : Complete s.task s.log
  confirmed : Confirmed s.log

/-- A run that returns success has updated every device, from its package. -/
def Honest (r : Run) (globals : Globals) : Prop :=
  ∀ m, r.executeAll globals = some m → m.globals.status = .success →
    m.sessions.map (fun s => s.task.pkgHdr) = r.packages.map Prod.fst ∧ ∀ s ∈ m.sessions, UpdatedDevice s

/-- The boot comes to execute this run, from these variables. -/
def Executes (runs : List Run) (r : Run) (globals : Globals) : Prop :=
  ∃ earlier later, runs = earlier ++ r :: later ∧ boot earlier {} = some globals ∧ r.created = true

/-- Every run of the boot that is executed is honest. -/
def BootHonest (runs : List Run) : Prop := ∀ r globals, Executes runs r globals → Honest r globals

/-! The conditions. -/

/-- What the task takes for a confirmation of the activation is one. -/
def TakesConfirmation (task : Task) : Prop :=
  task.taskState = .activateFwProcessRsp →
    (fwCheckRspCompletionAndLength task.response task.recvLength 7).isError = false →
      completionCode task.recvBuffer = Completion.success

/-- The device the loop is at keeps to the order, and is not misunderstood. -/
def Fair (m : Machine) (input : Input) : Prop :=
  ∀ s ∈ m.sessions[m.index]?, m.returned = false → s.task.complete = false →
    InOrder s (input, m.globals) ∧ TakesConfirmation s.task

/-- Nothing has been cancelled when the run starts, and its devices are fair. -/
def FairRun (r : Run) (globals : Globals) : Prop :=
  globals.cancelAllUpdates = false ∧ Along Machine.step Fair r.inputs (r.start globals)

instance (task : Task) : Decidable (TakesConfirmation task) :=
  inferInstanceAs (Decidable (_ → _ → _))

instance (m : Machine) (input : Input) : Decidable (Fair m input) :=
  inferInstanceAs (Decidable (∀ s ∈ m.sessions[m.index]?, _ → _ → _ ∧ _))

/-! One task. -/

/-- What holds of a task while no task has failed. -/
structure Resolute (s : Session) : Prop where
  state : cancelling s.task.taskState = false
  respond : cancelling s.task.processResponseState = false
  confirmed : ended s.task.taskState = true → s.task.status = .success → Confirmed s.log

/-- What holds of a task in any case. -/
structure SoundTask (globals : Globals) (s : Session) : Prop where
  inv : Inv s
  done : s.task.complete = true → s.task.taskState = .max
  resolute : globals.status = .success → Resolute s

section
variable {s s' : Session} {globals globals' : Globals} {input : Input}

theorem advance_of_step (running : s.task.complete = false)
    (hstep : s.step input globals = some (s', globals')) : s.advance (input, globals) = some s' := by
  rw [Session.advance, running, if_neg Bool.false_ne_true, hstep]
  rfl

theorem Confirmed.append {log : List Entry} (h : Confirmed log) (later : List Entry) :
    Confirmed (log ++ later) := by
  obtain ⟨entry, hmem, hentry⟩ := h
  exact ⟨entry, List.mem_append_left _ hmem, hentry⟩

theorem Inv.awaits (inv : Inv s) : ended s.task.processResponseState = false := by
  have hcommand := inv.command
  cases hrespond : s.task.processResponseState with
  | complete =>
    rw [hrespond] at hcommand
    cases hcommand
  | max =>
    rw [hrespond] at hcommand
    cases hcommand
  | _ => rfl

theorem confirmed_of_activate {outcome : Outcome} (inv : Inv s)
    (hstate : s.task.taskState = .activateFwProcessRsp) (takes : TakesConfirmation s.task)
    (h : activateFwProcessRsp input globals s.task = some outcome) (hended : ended outcome.next = true) :
    Confirmed s.log := by
  unfold activateFwProcessRsp at h
  split at h
  · cases h
    cases hended
  · rename_i hcheck
    have hcode := takes hstate (eq_false_of_ne_true hcheck)
    obtain ⟨log, message, hlog, hheard, hanswered, -⟩ := inv.hears hstate rfl
    have hanswers := inv.answers hanswered rfl
    refine ⟨.received message, ?_, hanswers, ?_⟩
    · rw [hlog]
      exact List.mem_append_right _ (List.mem_singleton_self _)
    · rw [← hheard.buffer 4 hanswers.length]
      exact hcode

theorem SoundTask.step (sound : SoundTask globals s)
    (hcancel : globals.cancelAllUpdates = true → globals.status ≠ .success)
    (order : InOrder s (input, globals)) (takes : TakesConfirmation s.task)
    (running : s.task.complete = false) (hstep : s.step input globals = some (s', globals')) :
    globals'.tally = globals.tally ∧ s'.task.pkgHdr = s.task.pkgHdr ∧ SoundTask globals' s' := by
  obtain ⟨outcome, hhandler, hresult⟩ := Option.bind_eq_some_iff.mp hstep
  cases hresult
  have steady := behaves_handler s.task.taskState input globals s.task outcome hhandler
  have hstatus : outcome.globals.status = globals.status := congrArg (fun t => t.2.1) steady.tally
  obtain ⟨s₁, hadvance, inv⟩ := keeps_step sound.inv order
  cases (advance_of_step running hstep).symm.trans hadvance
  refine ⟨steady.tally, steady.pkg, inv, fun hdone => ?_, fun hok => ?_⟩
  · -- only `PldmFwTaskComplete` completes a task
    by_cases hstate : s.task.taskState = .complete
    · rw [hstate] at hhandler
      cases hhandler
      rfl
    · exact absurd (running.symm.trans ((steady.complete hstate).symm.trans hdone)) nofun
  · have hok : globals.status = .success := hstatus.symm.trans hok
    have resolute := sound.resolute hok
    have hcancelled : globals.cancelAllUpdates = false :=
      eq_false_of_ne_true fun h => hcancel h hok
    obtain ⟨hnext, hrespond⟩ := steady.resolute hcancelled resolute.state resolute.respond
    refine ⟨hnext, hrespond, fun hended hsuccess => ?_⟩
    rcases steady.ends hended with hstate | hstate | hstate | hgivesUp | hawaits
    · rw [hstate] at hhandler
      exact (confirmed_of_activate sound.inv hstate takes hhandler hended).append _
    · rw [hstate] at hhandler
      cases hhandler
      cases hsuccess
    · have hsuccess : s.task.status = .success :=
        (steady.status (by rw [hstate]; exact nofun)).symm.trans hsuccess
      exact (resolute.confirmed (by rw [hstate]; rfl) hsuccess).append _
    · exact absurd (resolute.state.symm.trans hgivesUp) nofun
    · exact absurd (sound.inv.awaits.symm.trans hawaits) nofun

theorem SoundTask.updatedDevice (sound : SoundTask globals s) (hok : globals.status = .success)
    (hdone : s.task.complete = true) (hsuccess : s.task.status = .success) : UpdatedDevice s := by
  have resolute := sound.resolute hok
  have hstate := sound.done hdone
  have hstage : Stage s.task s.log .max := sound.inv.at hstate rfl rfl
  rcases hstage.2 hsuccess with hgivesUp | ⟨⟨hgranted, hinstalled⟩, -⟩
  · exact absurd (resolute.respond.symm.trans hgivesUp) nofun
  · exact ⟨hgranted, hinstalled, resolute.confirmed (by rw [hstate]; rfl) hsuccess⟩

theorem soundTask_create (pkgHdr : Memory) (pkgLen : Nat) : SoundTask globals (Session.create pkgHdr pkgLen) :=
  ⟨inv_create pkgHdr pkgLen, nofun, fun _ => ⟨rfl, rfl, nofun⟩⟩

end

/-! All tasks. -/

/-- What holds between two turns of the loop. -/
structure MachineInv (packages : List Memory) (m : Machine) : Prop where
  packages : m.sessions.map (fun s => s.task.pkgHdr) = packages
  sound : ∀ s ∈ m.sessions, SoundTask m.globals s
  cancel : m.globals.cancelAllUpdates = true → m.globals.status ≠ .success
  succeeded : m.globals.status = .success →
    ∀ s ∈ m.sessions, s.task.complete = true → s.task.status = .success
  count : m.globals.numTasksComplete = m.sessions.countP (·.task.complete)
  returned : m.returned = true → m.globals.numTasksComplete = m.sessions.length

section
variable {packages : List Memory} {m m' : Machine} {s s' : Session} {globals : Globals}
  {input : Input}

theorem SoundTask.congr {globals' : Globals} (sound : SoundTask globals s)
    (hstatus : globals'.status = .success → globals.status = .success) : SoundTask globals' s :=
  ⟨sound.inv, sound.done, fun hok => sound.resolute (hstatus hok)⟩

theorem countP_set {α : Type} {p : α → Bool} {l : List α} {i : Nat} {a b : α} (ha : l[i]? = some a)
    (hp : p a = false) : (l.set i b).countP p = l.countP p + if p b then 1 else 0 := by
  induction l generalizing i with
  | nil => cases ha
  | cons first l ih =>
    cases i with
    | zero =>
      cases ha
      rw [List.set_cons_zero, List.countP_cons, List.countP_cons, hp, if_neg Bool.false_ne_true,
        Nat.add_zero]
    | succ i =>
      rw [List.set_cons_succ, List.countP_cons, List.countP_cons, ih ha]
      omega

theorem taskEnded_success {task : Task} (h : (taskEnded task globals).status = .success) :
    globals.status = .success ∧ task.status = .success := by
  unfold taskEnded at h
  cases hfailed : task.status.isError with
  | true =>
    rw [hfailed] at h
    cases h
  | false =>
    rw [hfailed] at h
    exact ⟨h, by simpa [EfiStatus.isError] using hfailed⟩

theorem taskEnded_cancel {task : Task}
    (hcancel : globals.cancelAllUpdates = true → globals.status ≠ .success)
    (h : (taskEnded task globals).cancelAllUpdates = true) :
    (taskEnded task globals).status ≠ .success := by
  unfold taskEnded at h ⊢
  cases hfailed : task.status.isError with
  | true => exact nofun
  | false =>
    rw [hfailed] at h
    exact hcancel h

theorem taskEnded_count (task : Task) (globals : Globals) :
    (taskEnded task globals).numTasksComplete = globals.numTasksComplete + 1 := by
  unfold taskEnded
  split
  · rfl
  · rfl

theorem MachineInv.handled (inv : MachineInv packages m) (hs : m.sessions[m.index]? = some s)
    (running : s.task.complete = false) (htally : globals.tally = m.globals.tally)
    (hpkg : s'.task.pkgHdr = s.task.pkgHdr) (sound : SoundTask globals s') (hbusy : m.returned = false) :
    MachineInv packages (m.handled s' globals) := by
  have hcount : globals.numTasksComplete = m.globals.numTasksComplete := congrArg Prod.fst htally
  have hstatus : globals.status = m.globals.status := congrArg (fun t => t.2.1) htally
  have hcancel : globals.cancelAllUpdates = m.globals.cancelAllUpdates :=
    congrArg (fun t => t.2.2) htally
  have hpackages : (m.sessions.set m.index s').map (fun s => s.task.pkgHdr) = packages := by
    rw [← inv.packages, List.map_set, hpkg]
    refine List.ext_getElem? fun i => ?_
    rw [List.getElem?_set]
    split
    · rename_i heq
      rw [← heq, List.getElem?_map, hs]
      simp [(List.getElem?_eq_some_iff.mp hs).1]
    · rfl
  have hold : ∀ t ∈ m.sessions.set m.index s', t ∈ m.sessions ∨ t = s' :=
    fun t ht => List.mem_or_eq_of_mem_set ht
  have hcountP := countP_set (b := s') (p := fun s => s.task.complete) hs running
  have hlength : (m.sessions.set m.index s').length = m.sessions.length := List.length_set
  unfold Machine.handled
  cases hdone : s'.task.complete with
  | false =>
    rw [hdone] at hcountP
    refine ⟨hpackages, fun t ht => ?_, ?_, fun hok t ht htdone => ?_, ?_, ?_⟩
    · rcases hold t ht with ht | rfl
      · exact (inv.sound t ht).congr fun hok => hstatus.symm.trans hok
      · exact sound
    · intro h
      exact fun hok => inv.cancel (hcancel.symm.trans h) (hstatus.symm.trans hok)
    · rcases hold t ht with ht | rfl
      · exact inv.succeeded (hstatus.symm.trans hok) t ht htdone
      · exact absurd (hdone.symm.trans htdone) nofun
    · exact (hcount.trans inv.count).trans hcountP.symm
    · exact fun h => absurd (hbusy.symm.trans h) nofun
  | true =>
    rw [hdone] at hcountP
    refine ⟨hpackages, fun t ht => ?_, ?_, fun hok t ht htdone => ?_, ?_, ?_⟩
    · rcases hold t ht with ht | rfl
      · exact (inv.sound t ht).congr fun hok => hstatus.symm.trans (taskEnded_success hok).1
      · exact sound.congr fun hok => (taskEnded_success hok).1
    · exact taskEnded_cancel fun h hok => inv.cancel (hcancel.symm.trans h) (hstatus.symm.trans hok)
    · obtain ⟨hok, hsuccess⟩ := taskEnded_success hok
      rcases hold t ht with ht | rfl
      · exact inv.succeeded (hstatus.symm.trans hok) t ht htdone
      · exact hsuccess
    · refine (taskEnded_count _ _).trans ?_
      rw [hcount, inv.count]
      exact hcountP.symm
    · exact fun h => beq_iff_eq.mp h

theorem MachineInv.step (inv : MachineInv packages m) (fair : Fair m input) :
    ∃ m', m.step input = some m' ∧ MachineInv packages m' := by
  unfold Machine.step
  cases hreturned : m.returned with
  | true => exact ⟨m, rfl, inv⟩
  | false =>
    cases hs : m.sessions[m.index]? with
    | none => exact ⟨_, rfl, inv.packages, inv.sound, inv.cancel, inv.succeeded, inv.count, nofun⟩
    | some s =>
      cases running : s.task.complete with
      | true =>
        simp only [running]
        exact ⟨_, rfl, inv.packages, inv.sound, inv.cancel, inv.succeeded, inv.count, nofun⟩
      | false =>
        obtain ⟨order, takes⟩ := fair s hs hreturned running
        have sound := inv.sound s (List.mem_of_getElem? hs)
        obtain ⟨s₁, hadvance, -⟩ := keeps_step sound.inv order
        rw [Session.advance, running, if_neg Bool.false_ne_true] at hadvance
        obtain ⟨⟨s', globals⟩, hstep, -⟩ := Option.map_eq_some_iff.mp hadvance
        obtain ⟨htally, hpkg, sound'⟩ := sound.step inv.cancel order takes running hstep
        refine ⟨m.handled s' globals, ?_, inv.handled hs running htally hpkg sound' hreturned⟩
        simp only [running, Bool.false_eq_true, if_false, hstep, Option.map_some]

theorem machineInv_start (r : Run) {globals : Globals} (hcancel : globals.cancelAllUpdates = false) :
    MachineInv (r.packages.map Prod.fst) (r.start globals) := by
  have hcreated : ∀ s ∈ (r.start globals).sessions, ∃ pkgHdr pkgLen, s = Session.create pkgHdr pkgLen := by
    intro s hs
    obtain ⟨package, -, rfl⟩ := List.mem_map.mp hs
    exact ⟨package.1, package.2, rfl⟩
  refine ⟨?_, fun s hs => ?_, fun h => ?_, fun _ s hs hdone => ?_, ?_, nofun⟩
  · rw [Run.start, List.map_map]
    rfl
  · obtain ⟨pkgHdr, pkgLen, rfl⟩ := hcreated s hs
    exact soundTask_create pkgHdr pkgLen
  · exact absurd (hcancel.symm.trans h) nofun
  · obtain ⟨pkgHdr, pkgLen, rfl⟩ := hcreated s hs
    cases hdone
  · refine (List.countP_eq_zero.mpr fun s hs => ?_).symm
    obtain ⟨pkgHdr, pkgLen, rfl⟩ := hcreated s hs
    exact nofun

/-- A run that starts with nothing cancelled is honest, if its devices are fair. -/
theorem run_honest {r : Run} (fair : FairRun r globals) : Honest r globals := by
  intro m hexecuted hok
  obtain ⟨hcancel, fair⟩ := fair
  obtain ⟨hrun, hreturned⟩ := Option.filter_eq_some_iff.mp hexecuted
  obtain ⟨m', hrun', inv⟩ := run_invariant (fun _ _ inv fair => inv.step fair)
    (machineInv_start r hcancel) fair
  cases hrun.symm.trans hrun'
  refine ⟨inv.packages, fun s hs => ?_⟩
  -- all tasks are counted, so each has completed
  have hall : m.sessions.countP (·.task.complete) = m.sessions.length :=
    inv.count.symm.trans (inv.returned hreturned)
  have hdone : s.task.complete = true := List.countP_eq_length.mp hall s hs
  exact (inv.sound s hs).updatedDevice hok hdone (inv.succeeded hok s hs hdone)

end

/-- In a boot whose runs are fair, success means that every device has been updated. -/
theorem boot_honest {runs : List Run}
    (fair : ∀ r globals, Executes runs r globals → FairRun r globals) : BootHonest runs :=
  fun r globals executes => run_honest (fair r globals executes)

/-! Boots with one device. -/

/-- The loop gets to the only task again. -/
def alone (events : List (Input × Globals)) : List Input := events.flatMap fun event => [event.1, {}]

def completeRun : Run where
  packages := [(samplePackage, 100)]
  inputs := alone (untilAccepted ++ reports Command.transferComplete ++ reports Command.verifyComplete ++
    reports Command.applyComplete ++ exchange 6 Command.activateFw [0, 0] table_fits ++ [tick])

theorem executes_first {r r' : Run} {globals : Globals} (h : Executes [r] r' globals) :
    r' = r ∧ globals = {} := by
  obtain ⟨earlier, later, hsplit, hboot, -⟩ := h
  cases earlier with
  | nil =>
    cases hsplit
    cases hboot
    exact ⟨rfl, rfl⟩
  | cons first earlier => simp at hsplit

theorem boot_honest_sample : BootHonest [completeRun] :=
  boot_honest fun r globals executes => by
    obtain ⟨rfl, rfl⟩ := executes_first executes
    exact ⟨rfl, by decide +kernel⟩

/-- The device does not get the first request. -/
def failedRun : Run where
  packages := [(samplePackage, 100)]
  inputs := alone [tick, tick, ({ sendStatus := .deviceError }, {}), tick, tick]

/-- The device answers everything it is asked, but it is not asked to update anything. -/
def cancelledRun : Run where
  packages := [(samplePackage, 100)]
  inputs := alone ([tick] ++ exchange 1 Command.queryDeviceIds [0, 0, 0, 0, 0] deviceIds_fit ++
    exchange 2 Command.getFwParams
      ([0, 0, 0, 0, 1, 0, 0, 0, 0, 0] ++ [10, 0, 1, 0] ++ List.replicate 35 0) parameters_fit ++
    [tick, tick] ++ exchange 3 Command.cancelUpdate [0, 0, 0, 0, 0, 0, 0, 0, 0] (by decide) ++ [tick])

def refusedRun : Run where
  packages := [(samplePackage, 100)]
  inputs := alone (untilAccepted ++ reports Command.transferComplete ++ reports Command.verifyComplete ++
    reports Command.applyComplete ++ [tick, tick,
      hears [mctpTypePldm, 6, pldmTypeFwUpdate, Command.activateFw, 1, 0, 0] report_fits,
      tick, tick, tick])

/-- A run that succeeds although some device has confirmed no activation. -/
def Unconfirmed (m : Machine) : Prop :=
  m.globals.status = .success ∧ ∃ s ∈ m.sessions, ∀ entry ∈ s.log,
    ¬ Receives (fun message => commandOf message = Command.activateFw ∧
      message.getD 4 0 = Completion.success) entry

instance (m : Machine) : Decidable (Unconfirmed m) :=
  inferInstanceAs (Decidable (_ ∧ ∃ s ∈ m.sessions, ∀ entry ∈ s.log, ¬ _))

theorem dishonest_of_unconfirmed {r : Run} {globals : Globals}
    (h : ∃ m ∈ r.executeAll globals, Unconfirmed m) : ¬ Honest r globals := by
  obtain ⟨m, hexecuted, hok, s, hs, hnone⟩ := h
  intro honest
  obtain ⟨entry, hmem, hentry⟩ := ((honest m hexecuted hok).2 s hs).confirmed
  refine hnone entry hmem ?_
  cases entry with
  | sent sent => exact hentry
  | received message => exact ⟨hentry.1.command, hentry.2⟩

/-- After a failure, a run that updates nothing succeeds; and a device that refuses the
activation is taken for updated. -/
theorem boot_dishonest : ¬ BootHonest [failedRun, cancelledRun] ∧ ¬ BootHonest [refusedRun] := by
  constructor
  · have hfailed : boot [failedRun] {} = some
        { numTasksComplete := 1, status := .protocolError, error := .sendReqFailed
          cancelAllUpdates := true } := by
      decide +kernel
    intro honest
    exact dishonest_of_unconfirmed (by decide +kernel)
      (honest cancelledRun _ ⟨[failedRun], [], rfl, hfailed, rfl⟩)
  · intro honest
    exact dishonest_of_unconfirmed (by decide +kernel) (honest refusedRun _ ⟨[], [], rfl, rfl, rfl⟩)

end Pldm
