import Edk2Nvidia.Threading.Scheduler
import Mathlib.Data.List.Nodup

/-! What the scheduler keeps while every event can be created and no processor refuses for good:
the state of a thread says where it is and what its user has seen of it. -/
namespace Threading

namespace Action

def thread : Action → Nat
  | spawned thread _ => thread
  | procedure thread _ _ => thread
  | onThreadExit thread _ _ => thread
  | cleaned thread => thread

end Action

namespace System

def history (s : System) (thread : Nat) : List Action :=
  s.log.filter fun action => action.thread = thread

end System

def begun (thread : Nat) (request : Request) (ran : Bool) : List Action :=
  .spawned thread request ::
    if ran then [.procedure thread request.threadProcedure request.threadArgument] else []

def ended (thread : Nat) (request : Request) (ran : Bool) : List Action :=
  begun thread request ran ++
    if request.onThreadExit ≠ 0 then
      [.onThreadExit thread request.onThreadExit request.onThreadExitArgument]
    else []

structure Made (t : Thread) (request : Request) : Prop where
  procedure : t.procedure = request.threadProcedure
  argument : t.procedureArgument = request.threadArgument
  exit : t.onThreadExit = request.onThreadExit
  exitArgument : t.onThreadExitArgument = request.onThreadExitArgument

/-- The history of a thread in a state. -/
def Told (thread : Nat) (request : Request) : ThreadState → List Action → Prop
  | .spawned, history => history = begun thread request false
  | .starting, _ => False
  | .ready, history => history = begun thread request false
  | .running, history => history = begun thread request true
  | .finished, history => ∃ ran, history = ended thread request ran

def Recorded (thread : Nat) (object : Option Thread) (history : List Action) : Prop :=
  match object with
  | some t => ∃ request, Made t request ∧ Told thread request t.state history
  | none => history = [] ∨ ∃ request ran, history = ended thread request ran ++ [.cleaned thread]

def Placed (s : System) (thread : Nat) (t : Thread) : Prop :=
  match t.state with
  | .spawned => thread ∈ s.threadsQueued
  | .starting => False
  | .ready => ∃ event, s.aps t.cpuId = [(thread, event)]
  | .running => ∃ event, s.aps t.cpuId = [(thread, event)]
  | .finished => True

structure Assigned (s : System) (cpuId thread event : Nat) : Prop where
  single : s.aps cpuId = [(thread, event)]
  waited : (event, thread) ∈ s.events
  current : (s.cpuInfo cpuId).currentThread = some thread
  object : ∃ t, s.threads thread = some t ∧ t.cpuId = cpuId ∧
    (t.state = .ready ∨ t.state = .running)

/-- A processor is in the state of what it has. -/
structure CpuOf (bspCpuId cpuId : Nat) (info : CpuInfo) (ap : List (Nat × Nat)) : Prop where
  initialized : info.initialized = true
  bsp : info.state = .bsp ↔ cpuId = bspCpuId
  busy : info.state = .busy ↔ ap ≠ []

structure Inv (s : System) : Prop where
  boot : s.bspCpuId < s.cpuCount
  cpu : ∀ cpuId, CpuOf s.bspCpuId cpuId (s.cpuInfo cpuId) (s.aps cpuId)
  assigned : ∀ cpuId thread event, (thread, event) ∈ s.aps cpuId → Assigned s cpuId thread event
  queued : ∀ thread ∈ s.threadsQueued, ∃ t, s.threads thread = some t ∧ t.state = .spawned
  nodup : s.threadsQueued.Nodup
  placed : ∀ thread t, s.threads thread = some t → Placed s thread t
  fresh : ∀ thread, s.nextThread ≤ thread → s.threads thread = none ∧ s.history thread = []
  handles : ∀ e ∈ s.events, e.1 < s.nextEvent
  once : (s.events.map Prod.fst).Nodup
  recorded : ∀ thread, Recorded thread (s.threads thread) (s.history thread)

/-! The services. -/

/-- Events can be created, and a processor starts or is not ready. -/
structure Services.Available (services : Services) : Prop where
  createEvent : ∀ status ∈ services.createEvent, status = .success
  startupThisAP : ∀ status ∈ services.startupThisAP, status = .success ∨ status = .notReady

theorem startupThisAP_available {answers : List EfiStatus}
    (h : ∀ status ∈ answers, status = .success ∨ status = .notReady) (retries : Nat) :
    ∃ later, (∀ status ∈ later, status = .success ∨ status = .notReady) ∧
      later.length ≤ answers.length ∧
      (System.startupThisAP retries answers = (.success, later) ∨
        System.startupThisAP retries answers = (.notReady, later) ∧
          (0 < retries → later.length < answers.length)) := by
  induction retries generalizing answers with
  | zero =>
    exact ⟨answers, h, Nat.le_refl _, .inr ⟨rfl, fun hpos => absurd hpos (Nat.lt_irrefl 0)⟩⟩
  | succ retries ih =>
    cases answers with
    | nil =>
      exact ⟨[], h, Nat.le_refl _, .inl rfl⟩
    | cons status answers =>
      have hrest : ∀ status ∈ answers, status = .success ∨ status = .notReady :=
        fun status hmem => h status (List.mem_cons_of_mem _ hmem)
      rcases h status List.mem_cons_self with rfl | rfl
      · exact ⟨answers, hrest, Nat.le_succ _, .inl rfl⟩
      · obtain ⟨later, hlater, hle, hresult⟩ := ih hrest
        refine ⟨later, hlater, Nat.le_succ_of_le hle, ?_⟩
        have hstep : System.startupThisAP (retries + 1) (.notReady :: answers) =
            System.startupThisAP retries answers := rfl
        rw [hstep]
        rcases hresult with hsuccess | ⟨hready, -⟩
        · exact .inl hsuccess
        · exact .inr ⟨hready, fun _ => Nat.lt_succ_of_le hle⟩

/-- The state when a processor took the thread. -/
def started (s : System) (thread cpuId : Nat) : System :=
  { s with
    cpuInfo := Function.update s.cpuInfo cpuId
      { s.cpuInfo cpuId with state := .busy, currentThread := some thread }
    threads := Function.update s.threads thread ((s.threads thread).map fun t =>
      { t with state := .ready, finishedEvent := some s.nextEvent, cpuId := cpuId })
    events := s.events ++ [(s.nextEvent, thread)]
    nextEvent := s.nextEvent + 1
    aps := Function.update s.aps cpuId (s.aps cpuId ++ [(thread, s.nextEvent)]) }

/-- The state when the processor was not ready. -/
def refused (s : System) (thread cpuId : Nat) : System :=
  { s with
    cpuInfo := Function.update s.cpuInfo cpuId { s.cpuInfo cpuId with state := .timeout }
    threads := Function.update s.threads thread ((s.threads thread).map fun t =>
      { t with state := .spawned, finishedEvent := some s.nextEvent })
    events := (s.events ++ [(s.nextEvent, thread)]).filter fun e => e.1 ≠ s.nextEvent
    nextEvent := s.nextEvent + 1 }

/-- A try to run a thread starts it or finds the processor not ready. -/
theorem runThread_available {s : System} {services : Services} (h : services.Available)
    (thread : Nat) {cpuId : Nat} (hcpu : s.bspCpuId ≠ cpuId) :
    ∃ later : Services, later.Available ∧
      later.startupThisAP.length ≤ services.startupThisAP.length ∧
      (s.runThread services thread cpuId = (.success, started s thread cpuId, later) ∨
        s.runThread services thread cpuId = (.notReady, refused s thread cpuId, later) ∧
          later.startupThisAP.length < services.startupThisAP.length) := by
  obtain ⟨createEvent, answers⟩ := services
  obtain ⟨hcreate, hanswers⟩ := h
  obtain ⟨create, hcreate', hfirst⟩ : ∃ create, (∀ status ∈ create, status = .success) ∧
      answer createEvent = (.success, create) := by
    cases createEvent with
    | nil => exact ⟨[], hcreate, rfl⟩
    | cons status create =>
      cases hcreate status List.mem_cons_self
      exact ⟨create, fun status hmem => hcreate status (List.mem_cons_of_mem _ hmem), rfl⟩
  obtain ⟨later, hlater, hle, hresult⟩ :=
    startupThisAP_available hanswers threadingCpuRetryCount
  refine ⟨⟨create, later⟩, ⟨hcreate', hlater⟩, hle, ?_⟩
  rcases hresult with hsuccess | ⟨hready, hlt⟩
  · left
    simp [System.runThread, hcpu, hfirst, hsuccess, System.modifyThread, System.modifyCpu, started,
      Function.comp_def]
  · right
    refine ⟨?_, hlt (by decide)⟩
    simp [System.runThread, hcpu, hfirst, hready, System.modifyThread, System.modifyCpu, refused,
      System.closeEvent, Function.comp_def]
    exact List.filter_congr fun e _ => decide_not

theorem findFreeCpuLoop_some {cpuInfo : Nat → CpuInfo} {cpus : List Nat}
    {first : Option Nat} {cpuId : Nat}
    (hfirst : ∀ c, first = some c → (cpuInfo c).state = .timeout)
    (h : System.findFreeCpuLoop cpuInfo cpus first = some cpuId) :
    (cpuInfo cpuId).state = .idle ∨ (cpuInfo cpuId).state = .timeout := by
  induction cpus generalizing first with
  | nil => exact .inr (hfirst cpuId h)
  | cons cpu cpus ih =>
    rw [System.findFreeCpuLoop] at h
    split at h
    · split at h
      next hidle =>
        cases h
        exact .inl hidle
      next =>
        split at h
        next htimeout =>
          refine ih ?_ h
          intro c hc
          split at hc
          · cases hc
            exact htimeout
          · exact hfirst c hc
        next => exact ih hfirst h
    · exact ih hfirst h

theorem findFreeCpuLoop_none {cpuInfo : Nat → CpuInfo} {cpus : List Nat} {first : Option Nat}
    (h : System.findFreeCpuLoop cpuInfo cpus first = none) :
    first = none ∧ ∀ c ∈ cpus, (cpuInfo c).initialized = true →
      (cpuInfo c).state ≠ .idle ∧ (cpuInfo c).state ≠ .timeout := by
  induction cpus generalizing first with
  | nil => exact ⟨h, nofun⟩
  | cons cpu cpus ih =>
    rw [System.findFreeCpuLoop] at h
    split at h
    next hinit =>
      split at h
      next => cases h
      next hidle =>
        split at h
        next htimeout =>
          obtain ⟨hnone, -⟩ := ih h
          split at hnone
          next => cases hnone
          next hsome => exact absurd hnone hsome
        next htimeout =>
          obtain ⟨hfirst, hrest⟩ := ih h
          refine ⟨hfirst, ?_⟩
          intro c hc
          rcases List.mem_cons.mp hc with rfl | hc
          · exact fun _ => ⟨hidle, htimeout⟩
          · exact hrest c hc
    next hinit =>
      obtain ⟨hfirst, hrest⟩ := ih h
      refine ⟨hfirst, ?_⟩
      intro c hc
      rcases List.mem_cons.mp hc with rfl | hc
      · exact fun hyes => absurd hyes hinit
      · exact hrest c hc

theorem findFreeCpu_state {s : System} {cpuId : Nat} (h : s.findFreeCpu = some cpuId) :
    (s.cpuInfo cpuId).state = .idle ∨ (s.cpuInfo cpuId).state = .timeout :=
  findFreeCpuLoop_some (fun c hc => by cases hc) h

section
variable {s : System} {thread cpuId : Nat} {later : List Nat}

/-- A free processor has no thread, and is not the boot processor. -/
theorem Inv.free (inv : Inv s) (h : s.findFreeCpu = some cpuId) :
    s.aps cpuId = [] ∧ s.bspCpuId ≠ cpuId := by
  have hstate := findFreeCpu_state h
  constructor
  · by_contra hne
    rw [(inv.cpu cpuId).busy.mpr hne] at hstate
    simp at hstate
  · intro heq
    rw [(inv.cpu cpuId).bsp.mpr heq.symm] at hstate
    simp at hstate

theorem Inv.occupied (inv : Inv s) (h : s.findFreeCpu = none) {cpuId : Nat}
    (hcpu : cpuId < s.cpuCount) (hboot : cpuId ≠ s.bspCpuId) : s.aps cpuId ≠ [] := by
  obtain ⟨hidle, htimeout⟩ := (findFreeCpuLoop_none h).2 cpuId (List.mem_range.mpr hcpu)
    (inv.cpu cpuId).initialized
  apply (inv.cpu cpuId).busy.mp
  cases hstate : (s.cpuInfo cpuId).state with
  | idle => exact absurd hstate hidle
  | busy => rfl
  | bsp => exact absurd ((inv.cpu cpuId).bsp.mp hstate) hboot
  | timeout => exact absurd hstate htimeout

theorem Inv.head (inv : Inv s) (h : s.threadsQueued = thread :: later) :
    (∃ t, s.threads thread = some t ∧ t.state = .spawned) ∧ thread ∉ later ∧ later.Nodup := by
  have hnodup := inv.nodup
  rw [h, List.nodup_cons] at hnodup
  exact ⟨inv.queued thread (by rw [h]; exact List.mem_cons_self), hnodup⟩

theorem Inv.not_assigned (inv : Inv s) {t : Thread} (ht : s.threads thread = some t)
    (hstate : t.state = .spawned ∨ t.state = .finished) {c event : Nat} :
    (thread, event) ∉ s.aps c := by
  intro hmem
  obtain ⟨t', ht', -, hrun⟩ := (inv.assigned c thread event hmem).object
  rw [ht] at ht'
  cases ht'
  rcases hstate with hstate | hstate <;> rw [hstate] at hrun <;> simp at hrun

theorem Inv.started (inv : Inv s) (hqueue : s.threadsQueued = thread :: later)
    (hfree : s.aps cpuId = []) (hboot : s.bspCpuId ≠ cpuId) :
    Inv (started { s with threadsQueued := later } thread cpuId) := by
  obtain ⟨⟨t, ht, hstate⟩, hnot, hnodup⟩ := inv.head hqueue
  have hother : ∀ c event, (thread, event) ∉ s.aps c :=
    fun c event => inv.not_assigned ht (.inl hstate)
  constructor
  · exact inv.boot
  · intro c
    by_cases hc : c = cpuId
    · subst hc
      simp only [Threading.started, Function.update_self]
      exact ⟨(inv.cpu c).initialized, by simpa using hboot.symm, by simp⟩
    · simpa [Threading.started, Function.update_of_ne hc] using inv.cpu c
  · intro c x event hmem
    by_cases hc : c = cpuId
    · subst hc
      simp only [Threading.started, Function.update_self, hfree, List.nil_append,
        List.mem_singleton, Prod.mk.injEq] at hmem
      obtain ⟨rfl, rfl⟩ := hmem
      refine ⟨by simp [Threading.started, hfree], by simp [Threading.started],
        by simp [Threading.started], ?_⟩
      simp [Threading.started, ht]
    · simp only [Threading.started, Function.update_of_ne hc] at hmem
      obtain ⟨hsingle, hwaited, hcurrent, t', ht', hcpu, hrun⟩ := inv.assigned c x event hmem
      have hx : x ≠ thread := by
        rintro rfl
        exact hother c event hmem
      refine ⟨by simpa [Threading.started, Function.update_of_ne hc] using hsingle,
        List.mem_append_left _ hwaited,
        by simpa [Threading.started, Function.update_of_ne hc] using hcurrent, t', ?_, hcpu, hrun⟩
      simpa [Threading.started, Function.update_of_ne hx] using ht'
  · intro x hx
    have hne : x ≠ thread := by
      rintro rfl
      exact hnot hx
    have hin : x ∈ s.threadsQueued := by
      rw [hqueue]
      exact List.mem_cons_of_mem _ hx
    simpa [Threading.started, Function.update_of_ne hne] using inv.queued x hin
  · exact hnodup
  · intro x t' ht'
    by_cases hx : x = thread
    · subst hx
      simp only [Threading.started, Function.update_self, ht, Option.map_some,
        Option.some.injEq] at ht'
      subst ht'
      simp [Placed, Threading.started, hfree]
    · simp only [Threading.started, Function.update_of_ne hx] at ht'
      have hplaced := inv.placed x t' ht'
      have hkept : ∀ event, s.aps t'.cpuId = [(x, event)] →
          (Threading.started { s with threadsQueued := later } thread cpuId).aps t'.cpuId =
            [(x, event)] := by
        intro event heq
        have hc : t'.cpuId ≠ cpuId := by
          intro hc
          rw [hc, hfree] at heq
          cases heq
        simpa [Threading.started, Function.update_of_ne hc] using heq
      unfold Placed at hplaced ⊢
      split at hplaced
      next =>
        rw [hqueue] at hplaced
        exact (List.mem_cons.mp hplaced).resolve_left hx
      next => exact hplaced
      next => exact hplaced.imp hkept
      next => exact hplaced.imp hkept
      next => trivial
  · intro x hx
    obtain ⟨hnone, hhistory⟩ := inv.fresh x hx
    have hne : x ≠ thread := by
      rintro rfl
      rw [ht] at hnone
      cases hnone
    exact ⟨by simpa [Threading.started, Function.update_of_ne hne] using hnone, hhistory⟩
  · intro e he
    rcases List.mem_append.mp he with he | he
    · exact Nat.lt_succ_of_lt (inv.handles e he)
    · rw [List.mem_singleton.mp he]
      exact Nat.lt_succ_self _
  · have hlast : s.nextEvent ∉ s.events.map Prod.fst := by
      intro hmem
      obtain ⟨e, he, heq⟩ := List.mem_map.mp hmem
      exact absurd (inv.handles e he) (by omega)
    simp only [Threading.started, List.map_append, List.map_cons, List.map_nil]
    exact List.nodup_append.mpr ⟨inv.once, by simp, by
      intro a ha b hb
      rw [List.mem_singleton.mp hb]
      rintro rfl
      exact hlast ha⟩
  · intro x
    have hrecorded := inv.recorded x
    by_cases hx : x = thread
    · subst hx
      simp only [Recorded, ht] at hrecorded
      obtain ⟨request, hmade, htold⟩ := hrecorded
      rw [hstate] at htold
      simp only [Threading.started, Function.update_self, ht, Option.map_some, Recorded]
      exact ⟨request, ⟨hmade.procedure, hmade.argument, hmade.exit, hmade.exitArgument⟩, htold⟩
    · have hsame : (Threading.started { s with threadsQueued := later } thread cpuId).threads x =
          s.threads x := by
        simp [Threading.started, Function.update_of_ne hx]
      rw [hsame]
      exact hrecorded

theorem Inv.refused (inv : Inv s) (hqueue : s.threadsQueued = thread :: later)
    (hfree : s.aps cpuId = []) (hboot : s.bspCpuId ≠ cpuId) :
    Inv { refused { s with threadsQueued := later } thread cpuId with
      threadsQueued := later ++ [thread] } := by
  obtain ⟨⟨t, ht, hstate⟩, hnot, hnodup⟩ := inv.head hqueue
  have hmember : ∀ x, x ∈ later ++ [thread] ↔ x ∈ s.threadsQueued := by
    intro x
    rw [hqueue, List.mem_append, List.mem_singleton, List.mem_cons, or_comm]
  constructor
  · exact inv.boot
  · intro c
    by_cases hc : c = cpuId
    · subst hc
      simp only [Threading.refused, Function.update_self]
      exact ⟨(inv.cpu c).initialized, by simpa using hboot.symm, by simp [hfree]⟩
    · simpa [Threading.refused, Function.update_of_ne hc] using inv.cpu c
  · intro c x event hmem
    obtain ⟨hsingle, hwaited, hcurrent, t', ht', hcpu, hrun⟩ := inv.assigned c x event hmem
    have hc : c ≠ cpuId := by
      rintro rfl
      rw [hfree] at hsingle
      cases hsingle
    have hx : x ≠ thread := by
      rintro rfl
      exact inv.not_assigned ht (.inl hstate) hmem
    refine ⟨hsingle, ?_, ?_, t', ?_, hcpu, hrun⟩
    · refine List.mem_filter.mpr ⟨List.mem_append_left _ hwaited, ?_⟩
      simpa using Nat.ne_of_lt (inv.handles _ hwaited)
    · simpa [Threading.refused, Function.update_of_ne hc] using hcurrent
    · simpa [Threading.refused, Function.update_of_ne hx] using ht'
  · intro x hx
    by_cases hne : x = thread
    · subst hne
      simp [Threading.refused, ht]
    · simpa [Threading.refused, Function.update_of_ne hne] using inv.queued x ((hmember x).mp hx)
  · refine List.nodup_append.mpr ⟨hnodup, by simp, ?_⟩
    intro a ha b hb
    rw [List.mem_singleton.mp hb]
    rintro rfl
    exact hnot ha
  · intro x t' ht'
    by_cases hx : x = thread
    · subst hx
      simp only [Threading.refused, Function.update_self, ht, Option.map_some,
        Option.some.injEq] at ht'
      subst ht'
      simp [Placed]
    · simp only [Threading.refused, Function.update_of_ne hx] at ht'
      have hplaced := inv.placed x t' ht'
      unfold Placed at hplaced ⊢
      split at hplaced
      next => exact (hmember x).mpr hplaced
      next => exact hplaced
      next => exact hplaced
      next => exact hplaced
      next => trivial
  · intro x hx
    obtain ⟨hnone, hhistory⟩ := inv.fresh x hx
    have hne : x ≠ thread := by
      rintro rfl
      rw [ht] at hnone
      cases hnone
    exact ⟨by simpa [Threading.refused, Function.update_of_ne hne] using hnone, hhistory⟩
  · intro e he
    rcases List.mem_append.mp (List.mem_filter.mp he).1 with he | he
    · exact Nat.lt_succ_of_lt (inv.handles e he)
    · rw [List.mem_singleton.mp he]
      exact Nat.lt_succ_self _
  · have hkept : (s.events ++ [(s.nextEvent, thread)]).filter (fun e => e.1 ≠ s.nextEvent) =
        s.events := by
      rw [List.filter_append, List.filter_eq_self.mpr, List.filter_eq_nil_iff.mpr, List.append_nil]
      · intro e he
        simp [List.mem_singleton.mp he]
      · intro e he
        simpa using Nat.ne_of_lt (inv.handles e he)
    simp only [Threading.refused]
    rw [hkept]
    exact inv.once
  · intro x
    have hrecorded := inv.recorded x
    by_cases hx : x = thread
    · subst hx
      simp only [Recorded, ht] at hrecorded
      obtain ⟨request, hmade, htold⟩ := hrecorded
      rw [hstate] at htold
      simp only [Threading.refused, Function.update_self, ht, Option.map_some, Recorded]
      exact ⟨request, ⟨hmade.procedure, hmade.argument, hmade.exit, hmade.exitArgument⟩, htold⟩
    · have hsame : (Threading.refused { s with threadsQueued := later } thread cpuId).threads x =
          s.threads x := by
        simp [Threading.refused, Function.update_of_ne hx]
      show Recorded x ((Threading.refused _ thread cpuId).threads x) _
      rw [hsame]
      exact hrecorded

/-- Where a thread waits, every application processor has one. -/
def Settled (s : System) : Prop :=
  s.threadsQueued ≠ [] → ∀ cpuId < s.cpuCount, cpuId ≠ s.bspCpuId → s.aps cpuId ≠ []

theorem Inv.queueLoop (inv : Inv s) {services : Services} (h : services.Available) {fuel : Nat}
    (hfuel : s.threadsQueued.length + services.startupThisAP.length < fuel) :
    ∃ s', System.queueLoop fuel s services = some s' ∧ Inv s' ∧ Settled s' := by
  induction fuel generalizing s services with
  | zero => exact absurd hfuel (Nat.not_lt_zero _)
  | succ fuel ih =>
    rw [System.queueLoop]
    split
    next hnone => exact ⟨s, rfl, inv, fun _ c hc hboot => inv.occupied hnone hc hboot⟩
    next cpuId hcpu =>
      obtain ⟨hfree, hboot⟩ := inv.free hcpu
      split
      next hempty => exact ⟨s, rfl, inv, fun hne => absurd hempty hne⟩
      next thread later hqueue =>
        rw [hqueue, List.length_cons] at hfuel
        obtain ⟨services', havailable, hle, hresult⟩ :=
          @runThread_available { s with threadsQueued := later } services h thread cpuId hboot
        rcases hresult with hsuccess | ⟨hready, hlt⟩
        · rw [hsuccess]
          exact ih (inv.started hqueue hfree hboot) havailable
            (show later.length + _ < fuel by omega)
        · rw [hready]
          refine ih (inv.refused hqueue hfree hboot) havailable ?_
          show (later ++ [thread]).length + _ < fuel
          rw [List.length_append, List.length_singleton]
          omega

theorem Inv.queueNextThread (inv : Inv s) {services : Services} (h : services.Available) :
    ∃ s', s.queueNextThread services = some s' ∧ Inv s' ∧ Settled s' :=
  inv.queueLoop h (Nat.lt_succ_self _)

/-! The steps. -/

theorem history_append (s : System) (actions : List Action) (x : Nat) :
    System.history { s with log := s.log ++ actions } x =
      s.history x ++ actions.filter fun action => action.thread = x := by
  unfold System.history
  rw [List.filter_append]

theorem history_other {s : System} {action : Action} {x : Nat} (h : action.thread ≠ x) :
    System.history { s with log := s.log ++ [action] } x = s.history x := by
  rw [history_append]
  simp [h]

theorem history_own {s : System} {action : Action} {x : Nat} (h : action.thread = x) :
    System.history { s with log := s.log ++ [action] } x = s.history x ++ [action] := by
  rw [history_append]
  simp [h]

def spawnedThread (request : Request) : Thread where
  state := .spawned
  procedure := request.threadProcedure
  procedureArgument := request.threadArgument
  finishedEvent := none
  onThreadExit := request.onThreadExit
  onThreadExitArgument := request.onThreadExitArgument
  timeout := request.threadTimeout
  cpuId := 0

def enqueued (s : System) (request : Request) : System :=
  { s with
    threads := Function.update s.threads s.nextThread (some (spawnedThread request))
    nextThread := s.nextThread + 1
    log := s.log ++ [.spawned s.nextThread request]
    threadsQueued := s.threadsQueued ++ [s.nextThread] }

theorem Inv.enqueued (inv : Inv s) (request : Request) : Inv (enqueued s request) := by
  obtain ⟨hnone, hnothing⟩ := inv.fresh s.nextThread (Nat.le_refl _)
  have hlive : ∀ x t, s.threads x = some t → x ≠ s.nextThread := by
    rintro x t ht rfl
    rw [hnone] at ht
    cases ht
  have hkept : ∀ x t, s.threads x = some t →
      (Threading.enqueued s request).threads x = some t := by
    intro x t ht
    simpa [Threading.enqueued, Function.update_of_ne (hlive x t ht)] using ht
  constructor
  · exact inv.boot
  · exact inv.cpu
  · intro c x event hmem
    obtain ⟨hsingle, hwaited, hcurrent, t, ht, hcpu, hrun⟩ := inv.assigned c x event hmem
    exact ⟨hsingle, hwaited, hcurrent, t, hkept x t ht, hcpu, hrun⟩
  · intro x hx
    rcases List.mem_append.mp hx with hx | hx
    · obtain ⟨t, ht, hstate⟩ := inv.queued x hx
      exact ⟨t, hkept x t ht, hstate⟩
    · rw [List.mem_singleton.mp hx]
      exact ⟨spawnedThread request, by simp [Threading.enqueued], rfl⟩
  · refine List.nodup_append.mpr ⟨inv.nodup, by simp, ?_⟩
    intro a ha b hb
    obtain ⟨t, ht, -⟩ := inv.queued a ha
    rw [List.mem_singleton.mp hb]
    exact hlive a t ht
  · intro x t ht
    by_cases hx : x = s.nextThread
    · subst hx
      simp only [Threading.enqueued, Function.update_self, Option.some.injEq] at ht
      subst ht
      exact List.mem_append_right _ List.mem_cons_self
    · simp only [Threading.enqueued, Function.update_of_ne hx] at ht
      have hplaced := inv.placed x t ht
      unfold Placed at hplaced ⊢
      split at hplaced
      next => exact List.mem_append_left _ hplaced
      next => exact hplaced
      next => exact hplaced
      next => exact hplaced
      next => trivial
  · intro x hx
    have hlt : s.nextThread < x := hx
    obtain ⟨hfree, hhistory⟩ := inv.fresh x (Nat.le_of_lt hlt)
    constructor
    · simpa [Threading.enqueued, Function.update_of_ne (Nat.ne_of_gt hlt)] using hfree
    · exact (history_other (Nat.ne_of_lt hlt)).trans hhistory
  · exact inv.handles
  · exact inv.once
  · intro x
    by_cases hx : x = s.nextThread
    · subst hx
      have hown : (Threading.enqueued s request).history s.nextThread =
          [.spawned s.nextThread request] := by
        have happend := @history_own s (.spawned s.nextThread request) s.nextThread rfl
        rw [hnothing, List.nil_append] at happend
        exact happend
      have hself : (Threading.enqueued s request).threads s.nextThread =
          some (spawnedThread request) := by
        simp [Threading.enqueued]
      rw [hown, hself]
      exact ⟨request, ⟨rfl, rfl, rfl, rfl⟩, rfl⟩
    · have hsame : (Threading.enqueued s request).threads x = s.threads x := by
        simp [Threading.enqueued, Function.update_of_ne hx]
      have hhistory : (Threading.enqueued s request).history x = s.history x :=
        history_other (Ne.symm hx)
      rw [hsame, hhistory]
      exact inv.recorded x

theorem Inv.spawnThread (inv : Inv s) (settled : Settled s) {services : Services}
    (h : services.Available) (request : Request) (pool : Bool) :
    ∃ status s', s.spawnThread request pool services = some (status, s') ∧ Inv s' ∧
      Settled s' := by
  unfold System.spawnThread
  split
  · exact ⟨_, _, rfl, inv, settled⟩
  · split
    · obtain ⟨s', hrun, inv', settled'⟩ := (inv.enqueued request).queueNextThread h
      refine ⟨.success, s', ?_, inv', settled'⟩
      exact congrArg (Option.map _) hrun
    · exact ⟨_, _, rfl, inv, settled⟩

/-- The state when a thread has finished, before its processor gets the next. -/
def exited (s : System) (thread cpuId event : Nat) (t : Thread) : System :=
  { s with
    aps := Function.update s.aps cpuId []
    events := s.events.filter fun e => e.1 ≠ event
    threads := Function.update s.threads thread
      (some { t with state := .finished, finishedEvent := none })
    cpuInfo := Function.update s.cpuInfo cpuId { s.cpuInfo cpuId with state := .idle }
    log := s.log ++ if t.onThreadExit ≠ 0 then
      [.onThreadExit thread t.onThreadExit t.onThreadExitArgument] else [] }

theorem Inv.step_exit (inv : Inv s) {event : Nat} {t : Thread}
    (hsingle : s.aps cpuId = [(thread, event)]) (hwaited : (event, thread) ∈ s.events)
    (ht : s.threads thread = some t) (hcpu : t.cpuId = cpuId) (services : Services) :
    step (.exit cpuId services) s = (exited s thread cpuId event t).queueNextThread services := by
  have hfind : s.events.find? (fun e => decide (e.1 = event)) = some (event, thread) := by
    cases hsearch : s.events.find? (fun e => decide (e.1 = event)) with
    | none =>
      have hno := List.find?_eq_none.mp hsearch _ hwaited
      simp at hno
    | some found =>
      have hfound := List.find?_some hsearch
      rw [decide_eq_true_eq] at hfound
      rw [List.inj_on_of_nodup_map inv.once (List.mem_of_find?_eq_some hsearch) hwaited hfound]
  subst hcpu
  unfold step
  simp only [hsingle, hfind]
  unfold System.genericOnThreadExit
  simp only [System.closeEvent, System.modifyThread, Function.update_self, ht, Option.map_some,
    System.modifyCpu, System.record]
  split
  next hexit =>
    simp only [Threading.exited, if_pos hexit, Function.update_self, Function.update_idem,
      Option.map_some, List.filter_filter, Bool.and_self]
  next hexit =>
    simp only [Threading.exited, if_neg hexit, Function.update_self, Function.update_idem,
      Option.map_some, List.filter_filter, Bool.and_self, List.append_nil]

theorem Inv.exited (inv : Inv s) {event : Nat} {t : Thread}
    (hsingle : s.aps cpuId = [(thread, event)]) (ht : s.threads thread = some t)
    (hcpu : t.cpuId = cpuId) (hrun : t.state = .ready ∨ t.state = .running) :
    Inv (exited s thread cpuId event t) := by
  have hboot : cpuId ≠ s.bspCpuId := by
    intro heq
    have hbusy : (s.cpuInfo cpuId).state = .busy := (inv.cpu cpuId).busy.mpr (by rw [hsingle]; simp)
    rw [(inv.cpu cpuId).bsp.mpr heq] at hbusy
    cases hbusy
  have hnotQueued : thread ∉ s.threadsQueued := by
    intro hmem
    obtain ⟨t', ht', hstate⟩ := inv.queued thread hmem
    rw [ht] at ht'
    cases ht'
    rw [hstate] at hrun
    simp at hrun
  -- a thread with another processor is another thread, and its event another event
  have hother : ∀ c x event', c ≠ cpuId → (x, event') ∈ s.aps c → x ≠ thread ∧ event' ≠ event := by
    intro c x event' hc hmem
    have hx : x ≠ thread := by
      rintro rfl
      obtain ⟨t', ht', hc', -⟩ := (inv.assigned c x event' hmem).object
      rw [ht] at ht'
      cases ht'
      exact hc (hc'.symm.trans hcpu)
    refine ⟨hx, ?_⟩
    rintro rfl
    have hmine := (inv.assigned cpuId thread event' (by rw [hsingle]; simp)).waited
    have hpair := List.inj_on_of_nodup_map inv.once (inv.assigned c x event' hmem).waited hmine rfl
    exact hx (Prod.mk.inj hpair).2
  constructor
  · exact inv.boot
  · intro c
    by_cases hc : c = cpuId
    · subst hc
      simp only [Threading.exited, Function.update_self]
      exact ⟨(inv.cpu c).initialized, by simpa using hboot, by simp⟩
    · simpa [Threading.exited, Function.update_of_ne hc] using inv.cpu c
  · intro c x event' hmem
    by_cases hc : c = cpuId
    · subst hc
      simp [Threading.exited] at hmem
    · simp only [Threading.exited, Function.update_of_ne hc] at hmem
      obtain ⟨hx, hevent⟩ := hother c x event' hc hmem
      obtain ⟨hsingle', hwaited', hcurrent, t', ht', hcpu', hrun'⟩ := inv.assigned c x event' hmem
      refine ⟨by simpa [Threading.exited, Function.update_of_ne hc] using hsingle', ?_,
        by simpa [Threading.exited, Function.update_of_ne hc] using hcurrent, t',
        by simpa [Threading.exited, Function.update_of_ne hx] using ht', hcpu', hrun'⟩
      exact List.mem_filter.mpr ⟨hwaited', by simpa using hevent⟩
  · intro x hx
    have hne : x ≠ thread := by
      rintro rfl
      exact hnotQueued hx
    simpa [Threading.exited, Function.update_of_ne hne] using inv.queued x hx
  · exact inv.nodup
  · intro x t' ht'
    by_cases hx : x = thread
    · subst hx
      simp only [Threading.exited, Function.update_self, Option.some.injEq] at ht'
      subst ht'
      trivial
    · simp only [Threading.exited, Function.update_of_ne hx] at ht'
      have hplaced := inv.placed x t' ht'
      have hkept : ∀ event', s.aps t'.cpuId = [(x, event')] →
          (Threading.exited s thread cpuId event t).aps t'.cpuId = [(x, event')] := by
        intro event' heq
        have hc : t'.cpuId ≠ cpuId := by
          intro hc
          rw [hc, hsingle] at heq
          simp only [List.cons.injEq, Prod.mk.injEq] at heq
          exact hx heq.1.1.symm
        simpa [Threading.exited, Function.update_of_ne hc] using heq
      unfold Placed at hplaced ⊢
      split at hplaced
      next => exact hplaced
      next => exact hplaced
      next => exact hplaced.imp hkept
      next => exact hplaced.imp hkept
      next => trivial
  · intro x hx
    obtain ⟨hnone, hhistory⟩ := inv.fresh x hx
    have hne : x ≠ thread := by
      rintro rfl
      rw [ht] at hnone
      cases hnone
    refine ⟨by simpa [Threading.exited, Function.update_of_ne hne] using hnone, ?_⟩
    refine (history_append s _ x).trans ?_
    rw [hhistory, List.nil_append]
    split
    next => simp [Action.thread, Ne.symm hne]
    next => rfl
  · intro e he
    exact inv.handles e (List.mem_filter.mp he).1
  · exact (inv.once.sublist (List.filter_sublist.map _))
  · intro x
    have hrecorded := inv.recorded x
    by_cases hx : x = thread
    · subst hx
      have hself : (Threading.exited s x cpuId event t).threads x =
          some { t with state := .finished, finishedEvent := none } := by
        simp [Threading.exited]
      have hhistory : (Threading.exited s x cpuId event t).history x = s.history x ++
          if t.onThreadExit ≠ 0 then [.onThreadExit x t.onThreadExit t.onThreadExitArgument]
          else [] := by
        refine (history_append s _ x).trans ?_
        congr 1
        split
        next => simp [Action.thread]
        next => rfl
      rw [ht] at hrecorded
      obtain ⟨request, hmade, htold⟩ := hrecorded
      rw [hself, hhistory]
      refine ⟨request, ⟨hmade.procedure, hmade.argument, hmade.exit, hmade.exitArgument⟩, ?_⟩
      rw [hmade.exit, hmade.exitArgument]
      rcases hrun with hstate | hstate
      · rw [hstate] at htold
        exact ⟨false, by rw [show s.history x = _ from htold, ended]⟩
      · rw [hstate] at htold
        exact ⟨true, by rw [show s.history x = _ from htold, ended]⟩
    · have hsame : (Threading.exited s thread cpuId event t).threads x = s.threads x := by
        simp [Threading.exited, Function.update_of_ne hx]
      have hhistory : (Threading.exited s thread cpuId event t).history x = s.history x := by
        refine (history_append s _ x).trans ?_
        split
        next => simp [Action.thread, Ne.symm hx]
        next => simp
      rw [hsame, hhistory]
      exact hrecorded

theorem Inv.running (inv : Inv s) {event : Nat} {t : Thread}
    (hsingle : s.aps cpuId = [(thread, event)]) (ht : s.threads thread = some t)
    (hstate : t.state = .ready) :
    Inv ((s.modifyThread thread fun t => { t with state := .running }).record
      (.procedure thread t.procedure t.procedureArgument)) := by
  have hself : (s.modifyThread thread fun t => { t with state := .running }).threads thread =
      some { t with state := .running } := by
    simp [System.modifyThread, ht]
  have hsame : ∀ x, x ≠ thread →
      (s.modifyThread thread fun t => { t with state := .running }).threads x = s.threads x := by
    intro x hx
    simp [System.modifyThread, Function.update_of_ne hx]
  have hnotQueued : ∀ x ∈ s.threadsQueued, x ≠ thread := by
    rintro x hx rfl
    obtain ⟨t', ht', hstate'⟩ := inv.queued x hx
    rw [ht] at ht'
    cases ht'
    rw [hstate] at hstate'
    cases hstate'
  constructor
  · exact inv.boot
  · exact inv.cpu
  · intro c x event' hmem
    obtain ⟨hsingle', hwaited, hcurrent, t', ht', hcpu, hrun⟩ := inv.assigned c x event' hmem
    refine ⟨hsingle', hwaited, hcurrent, ?_⟩
    by_cases hx : x = thread
    · subst hx
      rw [ht] at ht'
      cases ht'
      exact ⟨_, hself, hcpu, .inr rfl⟩
    · exact ⟨t', (hsame x hx).trans ht', hcpu, hrun⟩
  · intro x hx
    obtain ⟨t', ht', hstate'⟩ := inv.queued x hx
    exact ⟨t', (hsame x (hnotQueued x hx)).trans ht', hstate'⟩
  · exact inv.nodup
  · intro x t' ht'
    by_cases hx : x = thread
    · subst hx
      have hplaced := inv.placed x t ht
      rw [Placed, hstate] at hplaced
      cases hself.symm.trans ht'
      exact hplaced
    · exact inv.placed x t' ((hsame x hx).symm.trans ht')
  · intro x hx
    obtain ⟨hnone, hhistory⟩ := inv.fresh x hx
    have hne : x ≠ thread := by
      rintro rfl
      rw [ht] at hnone
      cases hnone
    exact ⟨(hsame x hne).trans hnone, (history_other (Ne.symm hne)).trans hhistory⟩
  · exact inv.handles
  · exact inv.once
  · intro x
    have hrecorded := inv.recorded x
    by_cases hx : x = thread
    · subst hx
      rw [ht] at hrecorded
      obtain ⟨request, hmade, htold⟩ := hrecorded
      rw [hstate] at htold
      have hhistory := @history_own s (.procedure x t.procedure t.procedureArgument) x rfl
      rw [show s.history x = _ from htold, hmade.procedure, hmade.argument] at hhistory
      show Recorded x ((s.modifyThread x fun t => { t with state := .running }).threads x) _
      rw [hself]
      exact ⟨request, ⟨hmade.procedure, hmade.argument, hmade.exit, hmade.exitArgument⟩,
        by rw [hmade.procedure, hmade.argument]; exact hhistory⟩
    · have hhistory : ((s.modifyThread thread fun t => { t with state := .running }).record
          (.procedure thread t.procedure t.procedureArgument)).history x = s.history x :=
        history_other (Ne.symm hx)
      rw [hhistory]
      show Recorded x ((s.modifyThread thread fun t => { t with state := .running }).threads x) _
      rw [hsame x hx]
      exact hrecorded

/-- The state when the user has cleaned up a finished thread. -/
def cleanedUp (s : System) (thread : Nat) : System :=
  { s with
    threads := Function.update s.threads thread none
    log := s.log ++ [.cleaned thread] }

theorem Inv.cleanedUp (inv : Inv s) {t : Thread} (ht : s.threads thread = some t)
    (hstate : t.state = .finished) : Inv (cleanedUp s thread) := by
  have hsame : ∀ x, x ≠ thread → (Threading.cleanedUp s thread).threads x = s.threads x := by
    intro x hx
    simp [Threading.cleanedUp, Function.update_of_ne hx]
  have hother : ∀ x t', s.threads x = some t' → t'.state ≠ .finished → x ≠ thread := by
    rintro x t' ht' hnot rfl
    rw [ht] at ht'
    cases ht'
    exact hnot hstate
  constructor
  · exact inv.boot
  · exact inv.cpu
  · intro c x event hmem
    obtain ⟨hsingle, hwaited, hcurrent, t', ht', hcpu, hrun⟩ := inv.assigned c x event hmem
    have hx : x ≠ thread := by
      apply hother x t' ht'
      rcases hrun with hrun | hrun <;> rw [hrun] <;> decide
    exact ⟨hsingle, hwaited, hcurrent, t', (hsame x hx).trans ht', hcpu, hrun⟩
  · intro x hx
    obtain ⟨t', ht', hstate'⟩ := inv.queued x hx
    have hne : x ≠ thread := by
      apply hother x t' ht'
      rw [hstate']
      decide
    exact ⟨t', (hsame x hne).trans ht', hstate'⟩
  · exact inv.nodup
  · intro x t' ht'
    by_cases hx : x = thread
    · subst hx
      simp [Threading.cleanedUp] at ht'
    · exact inv.placed x t' ((hsame x hx).symm.trans ht')
  · intro x hx
    obtain ⟨hnone, hhistory⟩ := inv.fresh x hx
    have hne : x ≠ thread := by
      rintro rfl
      rw [ht] at hnone
      cases hnone
    exact ⟨(hsame x hne).trans hnone, (history_other (Ne.symm hne)).trans hhistory⟩
  · exact inv.handles
  · exact inv.once
  · intro x
    have hrecorded := inv.recorded x
    by_cases hx : x = thread
    · subst hx
      rw [ht] at hrecorded
      obtain ⟨request, -, htold⟩ := hrecorded
      rw [hstate] at htold
      obtain ⟨ran, htold⟩ := htold
      have hself : (Threading.cleanedUp s x).threads x = none := by
        simp [Threading.cleanedUp]
      have hhistory : (Threading.cleanedUp s x).history x = s.history x ++ [.cleaned x] :=
        history_own rfl
      rw [hself, hhistory, htold]
      exact .inr ⟨request, ran, rfl⟩
    · have hhistory : (Threading.cleanedUp s thread).history x = s.history x :=
        history_other (Ne.symm hx)
      rw [hsame x hx, hhistory]
      exact hrecorded

end

end Threading
