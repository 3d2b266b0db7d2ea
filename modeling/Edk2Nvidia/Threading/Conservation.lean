import Edk2Nvidia.Threading.Invariant

/-! No thread is lost: while every event can be created and no processor refuses for good, each
thread is queued, on one processor, or finished, and nothing waits while a processor is idle. -/
namespace Threading

namespace Action

def isProcedure : Action → Bool
  | procedure .. => true
  | _ => false

def isExit : Action → Bool
  | onThreadExit .. => true
  | _ => false

end Action

inductive Place where
  | queued
  | assigned (cpuId : Nat)
  | finished

/-- Where a thread is: in the queue, with a processor that has not completed it, or finished, and
then still there or cleaned up by its user. -/
def System.At (s : System) (thread : Nat) : Place → Prop
  | .queued => thread ∈ s.threadsQueued
  | .assigned cpuId => ∃ event, (thread, event) ∈ s.aps cpuId
  | .finished => (∃ t, s.threads thread = some t ∧ t.state = .finished) ∨
      .cleaned thread ∈ s.log

/-- What holds of a thread whose spawn returned success. -/
structure ThreadLaw (s : System) (thread : Nat) (request : Request) : Prop where
  place : ∃! place, s.At thread place
  procedureOnce : (s.history thread).filter Action.isProcedure = [] ∨
    (s.history thread).filter Action.isProcedure =
      [.procedure thread request.threadProcedure request.threadArgument]
  exitOnce : s.At thread .finished → (s.history thread).filter Action.isExit =
    if request.onThreadExit ≠ 0 then
      [.onThreadExit thread request.onThreadExit request.onThreadExitArgument]
    else []
  exitLast : ¬ s.At thread .finished → (s.history thread).filter Action.isExit = []
  kept : .cleaned thread ∉ s.log → ∃ t, s.threads thread = some t

/-- What the scheduler keeps. The last field is about the table of the driver. -/
structure SchedulerLaw (s : System) : Prop where
  threads : ∀ thread request, .spawned thread request ∈ s.log → ThreadLaw s thread request
  single : ∀ cpuId, (s.aps cpuId).length ≤ 1
  boot : s.aps s.bspCpuId = []
  busy : s.threadsQueued ≠ [] → ∀ cpuId < s.cpuCount, cpuId ≠ s.bspCpuId → s.aps cpuId ≠ []
  table : ∀ cpuId thread, s.At thread (.assigned cpuId) ↔
    (s.cpuInfo cpuId).state = .busy ∧ (s.cpuInfo cpuId).currentThread = some thread

section
variable {s : System} {thread cpuId : Nat}

theorem mem_history {action : Action} {x : Nat} :
    action ∈ s.history x ↔ action ∈ s.log ∧ action.thread = x := by
  rw [System.history, List.mem_filter, decide_eq_true_eq]

@[simp] theorem begun_procedures (x : Nat) (request : Request) (ran : Bool) :
    (begun x request ran).filter Action.isProcedure =
      if ran then [.procedure x request.threadProcedure request.threadArgument] else [] := by
  cases ran <;> rfl

@[simp] theorem begun_exits (x : Nat) (request : Request) (ran : Bool) :
    (begun x request ran).filter Action.isExit = [] := by
  cases ran <;> rfl

@[simp] theorem ended_procedures (x : Nat) (request : Request) (ran : Bool) :
    (ended x request ran).filter Action.isProcedure =
      if ran then [.procedure x request.threadProcedure request.threadArgument] else [] := by
  rw [ended, List.filter_append, begun_procedures]
  split <;> split <;> rfl

@[simp] theorem ended_exits (x : Nat) (request : Request) (ran : Bool) :
    (ended x request ran).filter Action.isExit =
      if request.onThreadExit ≠ 0 then
        [.onThreadExit x request.onThreadExit request.onThreadExitArgument]
      else [] := by
  rw [ended, List.filter_append, begun_exits]
  split <;> rfl

theorem spawned_mem_ended {x : Nat} {request request' : Request} {ran : Bool}
    (h : .spawned x request ∈ ended x request' ran) : request = request' := by
  unfold ended begun at h
  split at h <;> cases ran <;> simpa using h

theorem cleaned_mem_ended {x : Nat} {request : Request} {ran : Bool} :
    .cleaned x ∉ ended x request ran := by
  unfold ended begun
  split <;> cases ran <;> simp

theorem Told.facts {x : Nat} {request request' : Request} {state : ThreadState}
    {history : List Action} (h : Told x request' state history) :
    (.spawned x request ∈ history → request = request') ∧ .cleaned x ∉ history ∧
      (history.filter Action.isProcedure = [] ∨ history.filter Action.isProcedure =
        [.procedure x request'.threadProcedure request'.threadArgument]) ∧
      (state ≠ .finished → history.filter Action.isExit = []) := by
  have hbegun : ∀ ran, history = begun x request' ran →
      (.spawned x request ∈ history → request = request') ∧ .cleaned x ∉ history ∧
        (history.filter Action.isProcedure = [] ∨ history.filter Action.isProcedure =
          [.procedure x request'.threadProcedure request'.threadArgument]) ∧
        (state ≠ .finished → history.filter Action.isExit = []) := by
    rintro ran rfl
    refine ⟨fun hmem => @spawned_mem_ended x request request' ran (List.mem_append_left _ hmem),
      fun hmem => @cleaned_mem_ended x request' ran (List.mem_append_left _ hmem), ?_,
      fun _ => begun_exits x request' ran⟩
    cases ran
    · exact .inl (begun_procedures x request' false)
    · exact .inr (begun_procedures x request' true)
  cases state with
  | spawned => exact hbegun false h
  | starting => exact h.elim
  | ready => exact hbegun false h
  | running => exact hbegun true h
  | finished =>
    obtain ⟨ran, rfl⟩ := h
    refine ⟨spawned_mem_ended, cleaned_mem_ended, ?_, fun hne => absurd rfl hne⟩
    cases ran
    · exact .inl (ended_procedures x request' false)
    · exact .inr (ended_procedures x request' true)

theorem Inv.place (inv : Inv s) {t : Thread} (ht : s.threads thread = some t)
    (hkept : .cleaned thread ∉ s.log) : ∃! place, s.At thread place := by
  have hplaced := inv.placed thread t ht
  have hqueued : thread ∈ s.threadsQueued → t.state = .spawned := by
    intro hmem
    obtain ⟨t', ht', hstate⟩ := inv.queued thread hmem
    rw [ht] at ht'
    cases ht'
    exact hstate
  have hassigned : ∀ c event, (thread, event) ∈ s.aps c →
      c = t.cpuId ∧ (t.state = .ready ∨ t.state = .running) := by
    intro c event hmem
    obtain ⟨t', ht', hcpu, hrun⟩ := (inv.assigned c thread event hmem).object
    rw [ht] at ht'
    cases ht'
    exact ⟨hcpu.symm, hrun⟩
  have hfinished : s.At thread .finished → t.state = .finished := by
    rintro (⟨t', ht', hstate⟩ | hcleaned)
    · rw [ht] at ht'
      cases ht'
      exact hstate
    · exact absurd hcleaned hkept
  have hwith : ∀ event, s.aps t.cpuId = [(thread, event)] → t.state ≠ .spawned →
      t.state ≠ .finished → ∃! place, s.At thread place := by
    intro event hsingle hspawned hnot
    refine ⟨.assigned t.cpuId, ⟨event, by rw [hsingle]; exact List.mem_cons_self⟩, ?_⟩
    rintro (_ | c | _) hat
    · exact absurd (hqueued hat) hspawned
    · obtain ⟨event', hmem⟩ := hat
      rw [(hassigned c event' hmem).1]
    · exact absurd (hfinished hat) hnot
  unfold Placed at hplaced
  split at hplaced
  next hstate =>
    refine ⟨.queued, hplaced, ?_⟩
    rintro (_ | c | _) hat
    · rfl
    · obtain ⟨event, hmem⟩ := hat
      rw [hstate] at hassigned
      simpa using (hassigned c event hmem).2
    · rw [hfinished hat] at hstate
      cases hstate
  next => exact hplaced.elim
  next hstate =>
    obtain ⟨event, hsingle⟩ := hplaced
    exact hwith event hsingle (by rw [hstate]; decide) (by rw [hstate]; decide)
  next hstate =>
    obtain ⟨event, hsingle⟩ := hplaced
    exact hwith event hsingle (by rw [hstate]; decide) (by rw [hstate]; decide)
  next hstate =>
    refine ⟨.finished, .inl ⟨t, ht, hstate⟩, ?_⟩
    rintro (_ | c | _) hat
    · rw [hqueued hat] at hstate
      cases hstate
    · obtain ⟨event, hmem⟩ := hat
      rw [hstate] at hassigned
      simpa using (hassigned c event hmem).2
    · rfl

theorem Inv.threadLaw (inv : Inv s) {request : Request} (hmem : .spawned thread request ∈ s.log) :
    ThreadLaw s thread request := by
  have hspawned : .spawned thread request ∈ s.history thread := mem_history.mpr ⟨hmem, rfl⟩
  have hcleaned : .cleaned thread ∈ s.log → .cleaned thread ∈ s.history thread :=
    fun h => mem_history.mpr ⟨h, rfl⟩
  have hrecorded := inv.recorded thread
  cases ht : s.threads thread with
  | some t =>
    rw [ht] at hrecorded
    obtain ⟨request', -, htold⟩ := hrecorded
    obtain ⟨hsame, hnot, hprocedure, hexit⟩ := htold.facts
    cases hsame hspawned
    have hkept : .cleaned thread ∉ s.log := fun h => hnot (hcleaned h)
    have hstate : s.At thread .finished ↔ t.state = .finished := by
      constructor
      · rintro (⟨t', ht', hstate⟩ | h)
        · rw [ht] at ht'
          cases ht'
          exact hstate
        · exact absurd h hkept
      · exact fun h => .inl ⟨t, ht, h⟩
    refine ⟨inv.place ht hkept, hprocedure, ?_, ?_, fun _ => ⟨t, ht⟩⟩
    · intro hat
      rw [hstate.mp hat] at htold
      obtain ⟨ran, heq⟩ := htold
      rw [heq, ended_exits]
    · intro hat
      exact hexit fun h => hat (hstate.mpr h)
  | none =>
    rw [ht] at hrecorded
    rcases hrecorded with hnothing | ⟨request', ran, heq⟩
    · rw [hnothing] at hspawned
      cases hspawned
    · rw [heq] at hspawned
      obtain rfl : request = request' := by
        rcases List.mem_append.mp hspawned with h | h
        · exact spawned_mem_ended h
        · simp at h
      have hlog : .cleaned thread ∈ s.log := by
        have hlast : .cleaned thread ∈ s.history thread := by
          rw [heq]
          exact List.mem_append_right _ List.mem_cons_self
        exact (mem_history.mp hlast).1
      have hfinished : s.At thread .finished := .inr hlog
      refine ⟨⟨.finished, hfinished, ?_⟩, ?_, ?_, fun h => absurd hfinished h,
        fun h => absurd hlog h⟩
      · rintro (_ | c | _) hat
        · obtain ⟨t, ht', -⟩ := inv.queued thread hat
          rw [ht] at ht'
          cases ht'
        · obtain ⟨event, hat⟩ := hat
          obtain ⟨t, ht', -⟩ := (inv.assigned c thread event hat).object
          rw [ht] at ht'
          cases ht'
        · rfl
      · rw [heq, List.filter_append, ended_procedures]
        cases ran
        · exact .inl rfl
        · exact .inr rfl
      · intro _
        rw [heq, List.filter_append, ended_exits]
        split <;> rfl

theorem Inv.law (inv : Inv s) (settled : Settled s) : SchedulerLaw s where
  threads := fun _ _ hmem => inv.threadLaw hmem
  single := by
    intro c
    cases haps : s.aps c with
    | nil => exact Nat.zero_le _
    | cons pair later =>
      have hassigned := inv.assigned c pair.1 pair.2 (by rw [haps]; exact List.mem_cons_self)
      rw [← haps, hassigned.single]
      exact Nat.le_refl _
  boot := by
    by_contra hne
    have hbusy := (inv.cpu s.bspCpuId).busy.mpr hne
    rw [(inv.cpu s.bspCpuId).bsp.mpr rfl] at hbusy
    cases hbusy
  busy := settled
  table := by
    intro c x
    constructor
    · rintro ⟨event, hmem⟩
      have hassigned := inv.assigned c x event hmem
      refine ⟨(inv.cpu c).busy.mpr ?_, hassigned.current⟩
      rw [hassigned.single]
      simp
    · rintro ⟨hbusy, hcurrent⟩
      obtain ⟨⟨y, event⟩, hmem⟩ := List.exists_mem_of_ne_nil _ ((inv.cpu c).busy.mp hbusy)
      have hassigned := inv.assigned c y event hmem
      rw [hassigned.current] at hcurrent
      cases hcurrent
      exact ⟨event, hmem⟩

end

/-! Runs. -/

/-- What can happen next: a processor calls its procedure when its thread is ready, and completes
when it has a thread; threads are cleaned up when they have finished. -/
def Enabled (s : System) : Event → Prop
  | .spawn _ _ _ => True
  | .procedure cpuId => ∃ thread event later t, s.aps cpuId = (thread, event) :: later ∧
      s.threads thread = some t ∧ t.state = .ready
  | .exit cpuId _ => s.aps cpuId ≠ []
  | .cleanup thread => ∃ t, s.threads thread = some t ∧ t.state = .finished

/-- The services serve the calls of an event. -/
def Served : Event → Prop
  | .spawn _ _ services => services.Available
  | .exit _ services => services.Available
  | .procedure _ => True
  | .cleanup _ => True

theorem inv_step {s : System} {event : Event} (h : Inv s ∧ Settled s)
    (permitted : Enabled s event ∧ Served event) :
    ∃ s', step event s = some s' ∧ Inv s' ∧ Settled s' := by
  obtain ⟨inv, settled⟩ := h
  obtain ⟨enabled, served⟩ := permitted
  cases event with
  | spawn request pool services =>
    obtain ⟨status, s', hrun, hkeeps⟩ := inv.spawnThread settled served request pool
    exact ⟨s', by rw [step, hrun]; rfl, hkeeps⟩
  | procedure cpuId =>
    obtain ⟨thread, event, later, t, haps, ht, hstate⟩ := enabled
    have hassigned := inv.assigned cpuId thread event (by rw [haps]; exact List.mem_cons_self)
    refine ⟨_, ?_, inv.running hassigned.single ht hstate, settled⟩
    simp only [step, haps, ht, hstate, if_true]
  | exit cpuId services =>
    obtain ⟨⟨thread, event⟩, hmem⟩ := List.exists_mem_of_ne_nil _ enabled
    obtain ⟨hsingle, hwaited, -, t, ht, hcpu, hrun⟩ := inv.assigned cpuId thread event hmem
    rw [inv.step_exit hsingle hwaited ht hcpu]
    exact (inv.exited hsingle ht hcpu hrun).queueNextThread served
  | cleanup thread =>
    obtain ⟨t, ht, hstate⟩ := enabled
    refine ⟨cleanedUp s thread, ?_, inv.cleanedUp ht hstate, settled⟩
    simp [step, ht, hstate, System.cleanupThread, System.record, cleanedUp]

theorem inv_initCores {cpuCount bspCpuId : Nat} (h : bspCpuId < cpuCount) :
    Inv (initCores cpuCount bspCpuId) := by
  constructor
  · exact h
  · intro c
    by_cases hc : c = bspCpuId
    · exact ⟨rfl, by simp [initCores, hc], by simp [initCores, hc]⟩
    · exact ⟨rfl, by simp [initCores, hc], by simp [initCores, hc]⟩
  · intro c thread event hmem
    cases hmem
  · intro thread hmem
    cases hmem
  · exact List.nodup_nil
  · intro thread t ht
    cases ht
  · intro thread _
    exact ⟨rfl, rfl⟩
  · intro e he
    cases he
  · exact List.nodup_nil
  · intro thread
    exact .inl rfl

/-- Along every run in which events can be created and no processor fails for good, every call
returns and the law holds. -/
theorem conserved {cpuCount bspCpuId : Nat} (hboot : bspCpuId < cpuCount) {events : List Event}
    (along : Transition.Along step (fun s event => Enabled s event ∧ Served event) events
      (initCores cpuCount bspCpuId)) :
    ∃ s, Transition.run step events (initCores cpuCount bspCpuId) = some s ∧ SchedulerLaw s := by
  have hfirst : Inv (initCores cpuCount bspCpuId) ∧ Settled (initCores cpuCount bspCpuId) :=
    ⟨inv_initCores hboot, fun hne => absurd rfl hne⟩
  obtain ⟨s, hrun, inv, settled⟩ := Transition.run_invariant
    (fun s event h permitted => inv_step h permitted) hfirst along
  exact ⟨s, hrun, inv.law settled⟩

def sampleRequest : Request := ⟨1, 2, 3, 4, 0⟩

/-- One application processor, not ready at the first try, then stopped by its timeout. -/
theorem conserved_sample :
    ∃ s, Transition.run step [.spawn sampleRequest true ⟨[], [.notReady]⟩, .exit 1 ⟨[], []⟩]
      (initCores 2 0) = some s ∧ SchedulerLaw s := by
  refine conserved (by decide) ⟨⟨trivial, ⟨by simp, by simp⟩⟩, ?_⟩
  rintro s h
  cases h
  refine ⟨⟨?_, ⟨by simp, by simp⟩⟩, fun _ _ => trivial⟩
  show System.aps _ 1 ≠ []
  decide

/-- One thread whose event cannot be created and one whose processor fails. -/
def lostThreads : List Event :=
  [.spawn sampleRequest true ⟨[.outOfResources], []⟩, .spawn sampleRequest true ⟨[], [.deviceError]⟩]

/-- Both spawns return success, and neither thread is anywhere. The second object is freed under
its user. -/
theorem threads_lost :
    ∃ s, Transition.run step lostThreads (initCores 2 0) = some s ∧
      s.log = [.spawned 0 sampleRequest, .spawned 1 sampleRequest] ∧
      (¬ ∃ place, s.At 0 place) ∧ (¬ ∃ place, s.At 1 place) ∧ s.threads 1 = none := by
  have haps : (Transition.run step lostThreads (initCores 2 0)).map System.aps =
      some fun _ => [] := rfl
  have hqueue : (Transition.run step lostThreads (initCores 2 0)).map System.threadsQueued =
      some [] := rfl
  have hlog : (Transition.run step lostThreads (initCores 2 0)).map System.log =
      some [.spawned 0 sampleRequest, .spawned 1 sampleRequest] := rfl
  have hfirst : (Transition.run step lostThreads (initCores 2 0)).map
      (fun s => (s.threads 0).map Thread.state) = some (some .starting) := rfl
  have hsecond : (Transition.run step lostThreads (initCores 2 0)).map (fun s => s.threads 1) =
      some none := rfl
  cases hrun : Transition.run step lostThreads (initCores 2 0) with
  | none =>
    rw [hrun] at hqueue
    cases hqueue
  | some s =>
    rw [hrun, Option.map_some, Option.some.injEq] at haps hqueue hlog hfirst hsecond
    have hnowhere : ∀ thread, (∀ t, s.threads thread = some t → t.state = .starting) →
        ¬ ∃ place, s.At thread place := by
      rintro thread hstate ⟨_ | cpuId | _, hat⟩
      · rw [System.At, hqueue] at hat
        cases hat
      · obtain ⟨event, hat⟩ := hat
        rw [haps] at hat
        cases hat
      · rcases hat with ⟨t, ht, hfinished⟩ | hat
        · rw [hstate t ht] at hfinished
          cases hfinished
        · rw [hlog] at hat
          simp at hat
    refine ⟨s, rfl, hlog, hnowhere 0 ?_, hnowhere 1 ?_, hsecond⟩
    · intro t ht
      rw [ht] at hfirst
      exact Option.some.inj hfirst
    · intro t ht
      rw [hsecond] at ht
      cases ht

end Threading
