import Edk2Nvidia.Erst.Service

/-! The life of a partition: requests, and starts of the driver in between. Whatever a start finds
in the driver's memory, the store goes on from where the requests before it have left it. -/
namespace Erst
open Flash

/-- What happens to the driver. A start finds a driver of which nothing is known. -/
inductive Event where
  | request (request : Request)
  | start (driver : Driver) (allocates : Bool)

inductive Reply where
  | answered (response : Response)
  | started (status : EfiCode)

def live (config : Config) (fuel : Nat) : List Event → ErstM (List Reply)
  | [] => pure []
  | .request request :: events => do
    let response ← errorSerializationEventHandler config fuel request
    let replies ← live config fuel events
    pure (.answered response :: replies)
  | .start driver allocates :: events => do
    set driver
    let status ← errorSerializationInitialize config fuel allocates
    let replies ← live config fuel events
    pure (.started status :: replies)

namespace Store

/-- The store once it has all happened, of a driver that works or does not. -/
def outlive (store : Store) : Bool → List Event → List Reply → Store
  | true, .request request :: events, .answered response :: replies =>
    outlive (store.answered request response.status) true events replies
  | false, .request _ :: events, .answered _ :: replies => outlive store false events replies
  | _, .start _ _ :: events, .started status :: replies =>
    outlive store (status = .success) events replies
  | _, _, _ => store

/-- A driver that works answers from its store. One that found no room at its start answers nothing,
and the store waits for the next start. -/
def Lives (config : Config) : Store → Bool → List Event → List Reply → Prop
  | _, _, [], [] => True
  | store, true, .request request :: events, .answered response :: replies =>
    Answered config store request response ∧
      Lives config (store.answered request response.status) true events replies
  | store, false, .request _ :: events, .answered response :: replies =>
    response.status = acpiNotEnoughSpace ∧ Lives config store false events replies
  | store, _, .start _ _ :: events, .started status :: replies =>
    (status = .success ∨ status = .outOfResources) ∧
      Lives config store (status = .success) events replies
  | _, _, _, _ => False

end Store

def Alive (config : Config) (working : Bool) (driver : Driver) (m : Memory) (store : Store) : Prop :=
  if working then Idle config driver m store
  else driver.initStatus = .outOfResources ∧ Resting config m store

section Life
variable {config : Config} {S : Setting EfiCode} {driver driver' : Driver} {m m' : Memory}
  {store : Store} {fuel : Nat} {events : List Event} {replies : List Reply} {ids : Set Nat}
  {working : Bool}

theorem Alive.resting (h : Alive config working driver m store) : Resting config m store := by
  unfold Alive at h
  split at h
  · exact h.resting
  · exact h.2

theorem Started.alive {status : EfiCode} (h : Started config store status driver m) :
    (status = .success ∨ status = .outOfResources) ∧
      Alive config (status = .success) driver m store := by
  by_cases hfull : freeBlocks config driver < 1
  · have hstatus := h.reported
    rw [if_pos hfull] at hstatus
    subst hstatus
    exact ⟨.inr rfl, h.initStatus, h.resting⟩
  · have hstatus := h.reported
    rw [if_neg hfull] at hstatus
    exact ⟨.inl hstatus, by simpa [Alive, hstatus] using h.idle hstatus⟩

theorem errorSerializationEventHandler_refused_wp {request : Request}
    {Q : Response → Driver → Memory → Prop} (hinit : driver.initStatus = .outOfResources)
    (hcut : S.cut m) (h : ∀ response, response.status = acpiNotEnoughSpace → Q response driver m) :
    wpIn S (errorSerializationEventHandler config fuel request) Q driver m := by
  unfold errorSerializationEventHandler
  rw [wpIn_get_bind]
  dsimp only
  rw [if_pos (by rw [hinit]; decide)]
  unfold report
  rw [wpIn_get_bind, wpIn_pure]
  refine ⟨hcut, h _ ?_⟩
  rw [hinit]
  rfl

theorem live_wp (hsound : config.Sound) (hreliable : ¬ S.Faulty) (hstops : S.stops)
    (hcut : ∀ image, S.cut image) (halive : Alive config working driver m store)
    (hids : ∀ record ∈ store, record.1 ∈ ids)
    (hproper : ∀ request, .request request ∈ events → request.Proper config ids) :
    wpIn S (live config fuel events) (fun replies _ m' =>
      Resting config m' (store.outlive working events replies) ∧
        store.Lives config working events replies) driver m := by
  induction events generalizing driver m store working with
  | nil =>
    rw [live, wpIn_pure]
    refine ⟨hcut m, ?_, ?_⟩
    · cases working <;> exact halive.resting
    · cases working <;> trivial
  | cons event events ih =>
    have hrest : ∀ request, .request request ∈ events → request.Proper config ids :=
      fun request hmem => hproper request (List.mem_cons_of_mem _ hmem)
    cases event with
    | request request =>
      have hfirst := hproper request (List.mem_cons_self ..)
      rw [live]
      apply wpIn_bind
      cases working with
      | true =>
        have hidle : Idle config driver m store := halive
        apply wpIn_mono (errorSerializationEventHandler_wp hsound hreliable hstops fuel hidle hfirst
          hids fun image _ => hcut image)
        rintro response driver' m' ⟨_, hidle', hanswered, _⟩
        apply wpIn_bind
        apply wpIn_mono (@ih driver' m' (store.answered request response.status) true hidle'
          (Store.ids_answered hids hfirst response.status) hrest)
        rintro replies driver'' m'' ⟨hresting, hlives⟩
        rw [wpIn_pure]
        exact ⟨hcut m'', hresting, hanswered, hlives⟩
      | false =>
        have hrefuses : driver.initStatus = .outOfResources ∧ Resting config m store := halive
        apply errorSerializationEventHandler_refused_wp hrefuses.1 (hcut m)
        intro response hstatus
        apply wpIn_bind
        apply wpIn_mono (@ih driver m store false halive hids hrest)
        rintro replies driver'' m'' ⟨hresting, hlives⟩
        rw [wpIn_pure]
        exact ⟨hcut m'', hresting, hstatus, hlives⟩
    | start ram allocates =>
      rw [live, wpIn_set_bind]
      apply wpIn_bind
      apply wpIn_mono (errorSerializationInitialize_wp hsound hreliable halive.resting
        fun image _ => hcut image)
      intro status driver' m' hstarted
      obtain ⟨hstatus, halive'⟩ := hstarted.alive
      apply wpIn_bind
      apply wpIn_mono (@ih driver' m' store (status = .success) halive' hids hrest)
      rintro replies driver'' m'' ⟨hresting, hlives⟩
      rw [wpIn_pure]
      refine ⟨hcut m'', ?_, ?_⟩
      · cases working <;> exact hresting
      · cases working <;> exact ⟨hstatus, hlives⟩

/-- Any life of the driver refines the life of the store. -/
theorem live_refines (hsound : config.Sound) (halive : Alive config working driver m store)
    (hids : ∀ record ∈ store, record.1 ∈ ids)
    (hproper : ∀ request, .request request ∈ events → request.Proper config ids)
    (hrun : (live config fuel events driver).run m = (some (replies, driver'), m')) :
    Resting config m' (store.outlive working events replies) ∧
      store.Lives config working events replies := by
  have hlive := @live_wp config (Setting.reliable fun _ => True) driver m store fuel events ids
    working hsound (Setting.not_faulty_reliable _) trivial (fun _ => trivial) halive hids hproper
  exact wpIn_run_reliable hlive hrun

theorem Resting.restart (hresting : Resting config m store) (hsound : config.Sound) (fuel : Nat)
    (allocates : Bool) (driver : Driver) :
    ∃ status driver' m', (errorSerializationInitialize config fuel allocates driver).run m =
      (some (status, driver'), m') ∧ Started config store status driver' m' := by
  have hstart := @errorSerializationInitialize_wp config (Setting.faultFree False) driver m store
    fuel hsound (Setting.not_faulty_faultFree _) allocates hresting fun _ _ => trivial
  exact wpIn_total_faultFree hstart

/-- After any run of requests a start builds the tables of the driver again, less what is dead. -/
theorem serve_rebuilt {requests : List Request} {responses : List Response} (hsound : config.Sound)
    (hidle : Idle config driver m store) (hids : ∀ record ∈ store, record.1 ∈ ids)
    (hproper : ∀ request ∈ requests, request.Proper config ids)
    (hrun : (serve config fuel requests driver).run m = (some (responses, driver'), m'))
    (allocates : Bool) (ram : Driver) :
    ∃ status driver'' m'', (errorSerializationInitialize config fuel allocates ram).run m' =
      (some (status, driver''), m'') ∧ Rebuilt config driver' driver'' := by
  have hidle' := (hidle.serve hsound hids hproper hrun).1
  have hstart := @errorSerializationInitialize_rebuilt_wp config (Setting.faultFree False) driver' m'
    (store.run requests responses) fuel hsound (Setting.not_faulty_faultFree _) allocates ram hidle'
    fun _ => trivial
  exact wpIn_total_faultFree hstart

theorem run_live_start {allocates : Bool} {status : EfiCode} {ram : Driver}
    (hstart : (errorSerializationInitialize config fuel allocates ram).run m =
      (some (status, driver'), m')) :
    (live config fuel [.start ram allocates] driver).run m =
      (some ([.started status], driver'), m') := by
  have hset : ∀ x : ErstM (List Reply), (set ram >>= fun _ => x : ErstM (List Reply)) driver = x ram :=
    fun _ => rfl
  rw [live, hset, run_bind hstart]
  rfl

/-- It finds the store; where power is lost in it, the next one can. -/
theorem start_restores (hsound : config.Sound) (hresting : Resting config m store)
    (allocates : Bool) (driver : Driver) :
    (∃ status driver' m', (errorSerializationInitialize config fuel allocates driver).run m =
      (some (status, driver'), m') ∧ Started config store status driver' m') ∧
    ∀ image, (errorSerializationInitialize config fuel allocates driver).PowerLoss m image →
      Preserved config image store := by
  refine ⟨hresting.restart hsound fuel allocates driver, fun image hlost => ?_⟩
  have hstart := @errorSerializationInitialize_wp config
    (Setting.reliable fun image => Preserved config image store) driver m store fuel hsound
    (Setting.not_faulty_reliable _) allocates hresting fun _ h => h
  exact wpIn_powerLoss hstart hlost

end Life

/-! A record is written, and the driver starts again. -/

def writeAndStart : List Event := [.request writeSmall, .start emptyDriver false]

theorem writeAndStart_proper (request : Request) (h : .request request ∈ writeAndStart) :
    request.Proper twoBlocks Set.univ := by
  rcases List.mem_cons.mp h with heq | hmem
  · cases heq
    exact writeSmall_proper
  · cases List.mem_singleton.mp hmem

theorem live_writeAndStart : ∃ response status driver' m',
    (live twoBlocks 1 writeAndStart emptyDriver).run blankFlash =
      (some ([.answered response, .started status], driver'), m') ∧
        response.status = acpiSuccess := by
  obtain ⟨response, driver₁, m₁, hsuccess, hrun, -⟩ := errorSerializationEventHandler_writeSmall
  have hserve := run_serve_writeSmall hrun
  have hidle := (emptyDriver_idle.serve twoBlocks_sound noRecord_ids onlyWriteSmall_proper hserve).1
  obtain ⟨status, driver₂, m₂, hstart, -⟩ :=
    hidle.resting.restart twoBlocks_sound 1 false emptyDriver
  have hlive : (live twoBlocks 1 [.start emptyDriver false] driver₁).run m₁ =
      (some ([.started status], driver₂), m₂) := run_live_start hstart
  refine ⟨response, status, driver₂, m₂, ?_, hsuccess⟩
  rw [writeAndStart, live, run_bind hrun, run_bind hlive]
  rfl

theorem serve_rebuilt_writes : ∃ driver' status driver'' m' m'', driver'.cperInfo.length = 2 ∧
    (errorSerializationInitialize twoBlocks 1 false emptyDriver).run m' =
      (some (status, driver''), m'') ∧ Rebuilt twoBlocks driver' driver'' := by
  obtain ⟨responses, driver', m', hrun, -, -, -, htwo, -⟩ := serve_writes
  obtain ⟨status, driver'', m'', hstart, hrebuilt⟩ := serve_rebuilt twoBlocks_sound emptyDriver_idle
    noRecord_ids writes_proper hrun false emptyDriver
  exact ⟨driver', status, driver'', m', m'', htwo, hstart, hrebuilt⟩

theorem live_refines_writeAndStart : ∃ response status m', response.status = acpiSuccess ∧
    Resting twoBlocks m'
      (Store.outlive 0 true writeAndStart [.answered response, .started status]) ∧
    Store.Lives twoBlocks 0 true writeAndStart [.answered response, .started status] := by
  obtain ⟨response, status, driver', m', hrun, hsuccess⟩ := live_writeAndStart
  have halive : Alive twoBlocks true emptyDriver blankFlash 0 := emptyDriver_idle
  exact ⟨response, status, m', hsuccess,
    live_refines twoBlocks_sound halive noRecord_ids writeAndStart_proper hrun⟩

/-- Two records stand on the flash behind a deleted one, and the start finds them. -/
theorem start_restores_writes : ∃ m, twoRecords.card = 2 ∧ m statusOffset = statusDeleted ∧
    (∃ status driver' m', (errorSerializationInitialize twoBlocks 1 true emptyDriver).run m =
      (some (status, driver'), m') ∧ Started twoBlocks twoRecords status driver' m') ∧
    ∀ image, (errorSerializationInitialize twoBlocks 1 true emptyDriver).PowerLoss m image →
      Preserved twoBlocks image twoRecords := by
  obtain ⟨responses, driver, m, -, -, -, hidle, -, hdeleted⟩ := serve_writes
  exact ⟨m, rfl, hdeleted, start_restores twoBlocks_sound hidle.resting true emptyDriver⟩

end Erst
