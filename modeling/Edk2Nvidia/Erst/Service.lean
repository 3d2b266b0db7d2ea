import Edk2Nvidia.Erst.Refinement
import Edk2Nvidia.Erst.Starting

/-! Runs of requests. The driver is the store it is meant to be, from request to request, and power
may be lost in any of them. -/
namespace Erst
open Flash

/-- The requests of the operating system, one after the other. -/
def serve (config : Config) (fuel : Nat) : List Request → ErstM (List Response)
  | [] => pure []
  | request :: requests => do
    let response ← errorSerializationEventHandler config fuel request
    let responses ← serve config fuel requests
    pure (response :: responses)

namespace Store

def run (store : Store) : List Request → List Response → Store
  | request :: requests, response :: responses =>
    run (store.answered request response.status) requests responses
  | _, _ => store

/-- The order of the ids once the requests are answered. -/
def order (ids : List Nat) : List Request → List Response → List Nat
  | request :: requests, response :: responses =>
    order (orderAnswered ids request response.status) requests responses
  | _, _ => ids

/-- Every request is answered from the store it comes to. -/
def Answers (config : Config) : Store → List Request → List Response → Prop
  | _, [], [] => True
  | store, request :: requests, response :: responses =>
    Answered config store request response ∧
      Answers config (store.answered request response.status) requests responses
  | _, _, _ => False

theorem ids_answered {config : Config} {store : Store} {request : Request} {ids : Set Nat}
    (hids : ∀ record ∈ store, record.1 ∈ ids) (hproper : request.Proper config ids)
    (status : Nat) : ∀ record ∈ store.answered request status, record.1 ∈ ids := by
  intro record hrecord
  unfold Store.answered at hrecord
  split at hrecord
  · unfold Store.after at hrecord
    split at hrecord
    · next hwrite =>
      rcases Multiset.mem_add.mp hrecord with hold | hnew
      · exact hids record (Multiset.mem_filter.mp hold).1
      · rw [Multiset.mem_singleton.mp hnew]
        exact hproper.written hwrite
    split at hrecord
    · exact hids record (Multiset.mem_filter.mp hrecord).1
    · exact hids record hrecord
  · exact hids record hrecord

end Store

section Run
variable {config : Config} {S : Setting EfiCode} {driver driver' : Driver} {m m' : Memory}
  {store : Store} {fuel : Nat} {requests : List Request} {responses : List Response}
  {ids : Set Nat}

theorem serve_wp (hsound : config.Sound) (hreliable : ¬ S.Faulty) (hstops : S.stops) (fuel : Nat)
    (hcut : ∀ image, S.cut image) (hidle : Idle config driver m store)
    (hids : ∀ record ∈ store, record.1 ∈ ids)
    (hproper : ∀ request ∈ requests, request.Proper config ids) :
    wpIn S (serve config fuel requests) (fun responses driver' m' =>
      Idle config driver' m' (store.run requests responses) ∧
        store.Answers config requests responses ∧
          (∀ record ∈ store.run requests responses, record.1 ∈ ids) ∧
            driver'.ids = Store.order driver.ids requests responses) driver m := by
  induction requests generalizing driver m store with
  | nil =>
    rw [serve, wpIn_pure]
    exact ⟨hcut m, hidle, trivial, hids, rfl⟩
  | cons request requests ih =>
    have hfirst := hproper request (List.mem_cons_self ..)
    rw [serve]
    apply wpIn_bind
    apply wpIn_mono (errorSerializationEventHandler_wp hsound hreliable hstops fuel hidle hfirst
      hids fun image _ => hcut image)
    rintro response driver' m' ⟨_, hidle', hanswered, horder⟩
    apply wpIn_bind
    apply wpIn_mono (ih hidle' (Store.ids_answered hids hfirst response.status)
      fun request' hmem => hproper request' (List.mem_cons_of_mem _ hmem))
    rintro responses driver'' m'' ⟨hidle'', hanswers, hids'', horder'⟩
    rw [wpIn_pure]
    rw [horder] at horder'
    exact ⟨hcut m'', hidle'', ⟨hanswered, hanswers⟩, hids'', horder'⟩

theorem Idle.serve (hidle : Idle config driver m store) (hsound : config.Sound)
    (hids : ∀ record ∈ store, record.1 ∈ ids)
    (hproper : ∀ request ∈ requests, request.Proper config ids)
    (hrun : (serve config fuel requests driver).run m = (some (responses, driver'), m')) :
    Idle config driver' m' (store.run requests responses) ∧
      store.Answers config requests responses ∧
        (∀ record ∈ store.run requests responses, record.1 ∈ ids) ∧
          driver'.ids = Store.order driver.ids requests responses := by
  have hserve := serve_wp hsound (Setting.not_faulty_reliable fun _ => True) trivial fuel
    (fun _ => trivial) hidle hids hproper
  exact wpIn_run_reliable hserve hrun

/-- A run of requests refines the run of the store. -/
theorem serve_refines (hsound : config.Sound) (hidle : Idle config driver m store)
    (hids : ∀ record ∈ store, record.1 ∈ ids)
    (hproper : ∀ request ∈ requests, request.Proper config ids)
    (hrun : (serve config fuel requests driver).run m = (some (responses, driver'), m')) :
    Idle config driver' m' (store.run requests responses) ∧
      store.Answers config requests responses := by
  obtain ⟨hidle', hanswers, _⟩ := hidle.serve hsound hids hproper hrun
  exact ⟨hidle', hanswers⟩

/-- Power is lost in a request after any run. -/
theorem serve_interrupted (hsound : config.Sound) (hidle : Idle config driver m store)
    (hids : ∀ record ∈ store, record.1 ∈ ids)
    (hproper : ∀ request ∈ requests, request.Proper config ids)
    (hrun : (serve config fuel requests driver).run m = (some (responses, driver'), m'))
    {request : Request} (hrequest : request.Proper config ids) {fuel' : Nat} {image : Memory}
    (hlost : (errorSerializationEventHandler config fuel' request driver').PowerLoss m' image) :
    Preserved config image (store.run requests responses) ∨
      Preserved config image ((store.run requests responses).after request) := by
  obtain ⟨hidle', _, hids', _⟩ := hidle.serve hsound hids hproper hrun
  have hreliable : ¬ (Setting.reliable fun image =>
      Preserved config image (store.run requests responses) ∨
        Preserved config image ((store.run requests responses).after request) :
          Setting EfiCode).Faulty := Setting.not_faulty_reliable _
  have hhandler := errorSerializationEventHandler_wp hsound hreliable trivial fuel' hidle' hrequest
    hids' fun _ h => h
  exact wpIn_powerLoss hhandler hlost

/-! From a blank partition. -/

def session (config : Config) (fuel : Nat) (allocates : Bool) (requests : List Request) :
    ErstM (EfiCode × List Response) := do
  let status ← errorSerializationInitialize config fuel allocates
  let responses ← Erst.serve config fuel requests
  pure (status, responses)

/-- Whatever the driver held before, from a blank partition on it is the store that its requests
make of the empty one. -/
theorem session_refines (hsound : config.Sound) (hblocks : config.numBlocks % 2 ^ 8 ≠ 0)
    (hblank : Blank m config.norErstOffset config.partitionSize)
    (hproper : ∀ request ∈ requests, request.Proper config ids) {allocates : Bool}
    {status : EfiCode}
    (hrun : (session config fuel allocates requests driver).run m =
      (some ((status, responses), driver'), m')) :
    status = .success ∧ Idle config driver' m' (Store.run 0 requests responses) ∧
      Store.Answers config 0 requests responses := by
  have hreliable : ¬ (Setting.reliable fun _ => True : Setting EfiCode).Faulty :=
    Setting.not_faulty_reliable _
  have hsession : wpIn (Setting.reliable fun _ => True)
      (session config fuel allocates requests) (fun r driver' m' => r.1 = .success ∧
        Idle config driver' m' (Store.run 0 requests r.2) ∧
          Store.Answers config 0 requests r.2) driver m := by
    unfold session
    apply wpIn_bind
    apply wpIn_mono (errorSerializationInitialize_wp hsound hreliable (.of_blank hblank)
      fun _ _ => trivial)
    intro status driver₁ m₁ hstarted
    obtain ⟨hstatus, hidle⟩ := hstarted.of_empty hblocks
    apply wpIn_bind
    apply wpIn_mono (serve_wp hsound hreliable trivial fuel (fun _ => trivial) hidle
      (fun record hrecord => absurd hrecord (Multiset.notMem_zero record)) hproper)
    rintro responses driver₂ m₂ ⟨hidle', hanswers, _⟩
    rw [wpIn_pure]
    exact ⟨trivial, hstatus, hidle', hanswers⟩
  exact wpIn_run_reliable hsession hrun

end Run

/-! A write on a small partition. -/

def smallCper : List UInt8 :=
  [0x43, 0x50, 0x45, 0x52, 0x01, 0x01, 0xFF, 0xFF, 0xFF, 0xFF] ++ List.replicate 10 0 ++
    [128, 0, 0, 0] ++ List.replicate 72 0 ++ [7] ++ List.replicate 31 0

def writeSmall : Request := ⟨operationWrite, 0, erstInvalidRecordId, smallCper, false⟩

theorem writeSmall_proper : writeSmall.Proper twoBlocks Set.univ where
  errorLog := rfl
  fits := by decide
  written _ := trivial
  dummy h := absurd h (by decide)

theorem noRecord_ids : ∀ record ∈ (0 : Store), record.1 ∈ (Set.univ : Set Nat) :=
  fun _ _ => Set.mem_univ _

theorem onlyWriteSmall_proper : ∀ request ∈ [writeSmall], request.Proper twoBlocks Set.univ :=
  fun _ hmem => List.mem_singleton.mp hmem ▸ writeSmall_proper

def otherCper : List UInt8 :=
  [0x43, 0x50, 0x45, 0x52, 0x01, 0x01, 0xFF, 0xFF, 0xFF, 0xFF] ++ List.replicate 10 0 ++
    [128, 0, 0, 0] ++ List.replicate 72 0 ++ [9] ++ List.replicate 31 0

def writeOther : Request := ⟨operationWrite, 0, erstInvalidRecordId, otherCper, false⟩

theorem writeOther_proper : writeOther.Proper twoBlocks Set.univ where
  errorLog := rfl
  fits := by decide
  written _ := trivial
  dummy h := absurd h (by decide)

/-- Two records, the first of which is written again. -/
def writes : List Request := [writeSmall, writeOther, writeSmall]

theorem writes_proper : ∀ request ∈ writes, request.Proper twoBlocks Set.univ := by
  intro request hmem
  simp only [writes, List.mem_cons, List.not_mem_nil, or_false] at hmem
  rcases hmem with rfl | rfl | rfl
  · exact writeSmall_proper
  · exact writeOther_proper
  · exact writeSmall_proper

def twoRecords : Store := {(7, writeSmall.contents), (9, writeOther.contents)}

theorem run_writes {responses : List Response}
    (h : responses.map Response.status = [acpiSuccess, acpiSuccess, acpiSuccess]) :
    Store.run 0 writes responses = twoRecords ∧ Store.order [] writes responses = [7, 9] := by
  obtain ⟨first, responses, rfl, hfirst, h⟩ := List.map_eq_cons_iff.mp h
  obtain ⟨second, responses, rfl, hsecond, h⟩ := List.map_eq_cons_iff.mp h
  obtain ⟨third, responses, rfl, hthird, h⟩ := List.map_eq_cons_iff.mp h
  obtain rfl := List.map_eq_nil_iff.mp h
  simp only [writes, Store.run, Store.order, Store.answered, orderAnswered, hfirst, hsecond,
    hthird, if_true]
  decide

theorem idle_writes {responses : List Response} {driver : Driver} {m : Memory}
    (hrun : (serve twoBlocks 1 writes emptyDriver).run blankFlash = (some (responses, driver), m))
    (hstatus : responses.map Response.status = [acpiSuccess, acpiSuccess, acpiSuccess]) :
    Idle twoBlocks driver m twoRecords := by
  have hidle := (emptyDriver_idle.serve twoBlocks_sound noRecord_ids writes_proper hrun).1
  rwa [(run_writes hstatus).1] at hidle

/-- The two records are left, and the first write of the first one is deleted on the flash. -/
theorem serve_writes : ∃ responses driver m,
    (serve twoBlocks 1 writes emptyDriver).run blankFlash = (some (responses, driver), m) ∧
      Store.run 0 writes responses = twoRecords ∧ Store.order [] writes responses = [7, 9] ∧
        Idle twoBlocks driver m twoRecords ∧ driver.cperInfo.length = 2 ∧
          m statusOffset = statusDeleted := by
  have hends : (serve twoBlocks 1 writes emptyDriver).endsWith blankFlash (fun r m =>
      decide (r.1.map Response.status = [acpiSuccess, acpiSuccess, acpiSuccess]) &&
        decide (r.2.cperInfo.length = 2 ∧ m statusOffset = statusDeleted)) = true := by
    decide +kernel
  obtain ⟨⟨responses, driver⟩, m, hrun, hcheck⟩ := Prog.exists_of_endsWith hends
  obtain ⟨hstatus, hleft⟩ := Bool.and_eq_true_iff.mp hcheck
  obtain ⟨hstore, horder⟩ := run_writes (of_decide_eq_true hstatus)
  obtain ⟨htwo, hdeleted⟩ := of_decide_eq_true hleft
  exact ⟨responses, driver, m, hrun, hstore, horder, idle_writes hrun (of_decide_eq_true hstatus),
    htwo, hdeleted⟩

theorem serve_refines_writes : ∃ responses driver' m',
    Store.run 0 writes responses = twoRecords ∧
      Idle twoBlocks driver' m' (Store.run 0 writes responses) ∧
        Store.Answers twoBlocks 0 writes responses := by
  obtain ⟨responses, driver', m', hrun, hstore, -⟩ := serve_writes
  exact ⟨responses, driver', m', hstore, serve_refines twoBlocks_sound emptyDriver_idle noRecord_ids
    writes_proper hrun⟩

/-- The first record is written. Where power is lost in the write of the second one, behind its
first 64 bytes, the flash holds these and nothing behind them. -/
theorem errorSerializationEventHandler_writeSmall : ∃ response driver m,
    response.status = acpiSuccess ∧
      (errorSerializationEventHandler twoBlocks 1 writeSmall emptyDriver).run blankFlash =
        (some (response, driver), m) ∧
      (errorSerializationEventHandler twoBlocks 1 writeOther driver).lose 1 64 m 128 = 0x43 ∧
        (errorSerializationEventHandler twoBlocks 1 writeOther driver).lose 1 64 m 255 =
          erasedByte := by
  have hends : (errorSerializationEventHandler twoBlocks 1 writeSmall emptyDriver).endsWith
      blankFlash (fun r m => decide (r.1.status = acpiSuccess ∧
        (errorSerializationEventHandler twoBlocks 1 writeOther r.2).lose 1 64 m 128 = 0x43 ∧
          (errorSerializationEventHandler twoBlocks 1 writeOther r.2).lose 1 64 m 255 =
            erasedByte)) = true := by
    decide +kernel
  obtain ⟨⟨response, driver⟩, m, hrun, hcheck⟩ := Prog.exists_of_endsWith hends
  obtain ⟨hsuccess, himage⟩ := of_decide_eq_true hcheck
  exact ⟨response, driver, m, hsuccess, hrun, himage⟩

theorem run_serve_writeSmall {response : Response} {driver : Driver} {m : Memory}
    (hrun : (errorSerializationEventHandler twoBlocks 1 writeSmall emptyDriver).run blankFlash =
      (some (response, driver), m)) :
    (serve twoBlocks 1 [writeSmall] emptyDriver).run blankFlash =
      (some ([response], driver), m) := by
  rw [serve, run_bind hrun]
  rfl

/-- Power is lost in the second write, when 64 bytes of the record are programmed. -/
theorem serve_interrupted_writeOther : ∃ response image,
    response.status = acpiSuccess ∧ image 128 = 0x43 ∧ image 255 = erasedByte ∧
      (Preserved twoBlocks image (Store.run 0 [writeSmall] [response]) ∨
        Preserved twoBlocks image ((Store.run 0 [writeSmall] [response]).after writeOther)) := by
  obtain ⟨response, driver, m, hsuccess, hrun, hbegun, herased⟩ :=
    errorSerializationEventHandler_writeSmall
  exact ⟨response, _, hsuccess, hbegun, herased, serve_interrupted twoBlocks_sound emptyDriver_idle
    noRecord_ids onlyWriteSmall_proper (run_serve_writeSmall hrun) writeOther_proper
    (Prog.powerLoss_lose _ 1 64 _)⟩

theorem session_refines_writeSmall : ∃ (status : EfiCode) (response : Response) (driver' : Driver)
    (m' : Memory), response.status = acpiSuccess ∧
      (status = .success ∧ Idle twoBlocks driver' m' (Store.run 0 [writeSmall] [response]) ∧
        Store.Answers twoBlocks 0 [writeSmall] [response]) := by
  have hends : (serve twoBlocks 1 [writeSmall] freshDriver).endsWith blankFlash (fun r _ =>
      decide (r.1.map Response.status = [acpiSuccess])) = true := by
    decide +kernel
  obtain ⟨⟨responses, driver'⟩, m', hserve, hstatus⟩ := Prog.exists_of_endsWith hends
  obtain ⟨response, rfl, hsuccess⟩ := List.map_eq_singleton_iff.mp (of_decide_eq_true hstatus)
  have hrun : (session twoBlocks 1 false [writeSmall] emptyDriver).run blankFlash =
      (some ((.success, [response]), driver'), m') := by
    rw [session, run_bind errorSerializationInitialize_blankFlash, run_bind hserve]
    rfl
  exact ⟨.success, response, driver', m', hsuccess, session_refines twoBlocks_sound (by decide)
    (blankFlash_blank _ _) onlyWriteSmall_proper hrun⟩

end Erst
