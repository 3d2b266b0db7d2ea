import Edk2Nvidia.Erst.Requests

/-! The requests to the driver against the store: one that is reported successful has its effect and
any other one has none, and where power is lost within one the flash still holds every record of
the store before or after it. -/
namespace Erst
open Flash

/-! What the requests are for. -/

/-- The record in the buffer of the operating system. -/
def Request.cper (request : Request) : List UInt8 := request.errorLog.drop request.recordOffset

def Request.contents (request : Request) : List UInt8 :=
  normalize (request.cper.take (cperRecordLength request.cper))

def Store.after (store : Store) (request : Request) : Store :=
  if request.operation = operationWrite then
    store.put (cperRecordID request.cper) request.contents
  else if request.operation = operationClear then store.drop request.recordID
  else store

/-- The store once the request is answered with `status`. -/
def Store.answered (store : Store) (request : Request) (status : Nat) : Store :=
  if status = acpiSuccess then store.after request else store

/-- The order of the ids a request leads to. -/
def orderAfter (ids : List Nat) (request : Request) : List Nat :=
  if request.operation = operationWrite then putId ids (cperRecordID request.cper)
  else if request.operation = operationClear then ids.erase request.recordID
  else ids

def orderAnswered (ids : List Nat) (request : Request) (status : Nat) : List Nat :=
  if status = acpiSuccess then orderAfter ids request else ids

def Result.status (result : Result) : Nat :=
  if result.acpiStatus = acpiSuccess then erstEfiStatusToAcpiStatus result.efiStatus
  else result.acpiStatus

/-- A request for a driver with these buffers. Records fit into a block, and a dummy write is not one
of a record that is there. -/
structure Request.Proper (config : Config) (ids : Set Nat) (request : Request) : Prop where
  errorLog : request.errorLog.length = config.errorLogLength
  fits : cperRecordLength request.cper ≤ config.blockSize
  written : request.operation = operationWrite → cperRecordID request.cper ∈ ids
  dummy : request.operation = operationDummyWrite → cperRecordID request.cper ∉ ids

theorem erstEfiStatusToAcpiStatus_eq_acpiSuccess {status : EfiCode} :
    erstEfiStatusToAcpiStatus status = acpiSuccess ↔ status = .success := by
  constructor
  · intro h
    by_contra hne
    unfold erstEfiStatusToAcpiStatus at h
    rw [if_neg hne] at h
    revert h
    repeat' split
    all_goals decide
  · rintro rfl
    rfl

theorem Result.status_of_ne {result : Result} (h : result.acpiStatus ≠ acpiSuccess) :
    result.status = result.acpiStatus := if_neg h

theorem Result.status_eq {result : Result} (h : result.status = acpiSuccess) :
    result.efiStatus = .success := by
  by_cases hacpi : result.acpiStatus = acpiSuccess
  · unfold Result.status at h
    rw [if_pos hacpi] at h
    exact erstEfiStatusToAcpiStatus_eq_acpiSuccess.mp h
  · rw [Result.status_of_ne hacpi] at h
    exact absurd h hacpi

/-- What a read delivers: a record of the store where it is successful, and the record that is asked
for where that is there and fits, whatever is reported. -/
structure Delivered (config : Config) (store : Store) (request : Request) (status : Nat)
    (errorLog : List UInt8) : Prop where
  successful : status = acpiSuccess → ∃ record ∈ store,
    (request.recordID ≠ erstFirstRecordId → record.1 = request.recordID) ∧
      normalize ((errorLog.drop request.recordOffset).take record.2.length) = record.2
  present : ∀ record ∈ store, record.1 = request.recordID → request.recordID ≠ erstFirstRecordId →
    request.recordOffset + record.2.length ≤ config.errorLogLength →
      normalize ((errorLog.drop request.recordOffset).take record.2.length) = record.2

section Serve
variable {config : Config} {S : Setting EfiCode} {driver : Driver} {m : Memory} {store : Store}

/-! A write. -/

theorem handleWrite_write_wp (hsound : config.Sound) (hreliable : ¬ S.Faulty) (hstops : S.stops)
    {fuel length id : Nat} {result : Result} {newCper : List UInt8} {dummyOp : Bool}
    {Q : Result × List UInt8 → Driver → Memory → Prop} (hidle : Idle config driver m store)
    (hlength : length ≤ config.blockSize) (hcper : length ≤ newCper.length)
    (hheader : sizeofCperHeader ≤ length →
      cperRecordID newCper = id ∧ cperRecordLength newCper = length)
    (hdummy : dummyOp = true → ∀ record ∈ store, record.1 ≠ id)
    (hcut : ∀ image, Preserved config image store ∨ (dummyOp = false ∧
      Preserved config image (store.put id (normalize (newCper.take length)))) → S.cut image)
    (refused : ∀ efiStatus cper' driver' m', EfiCode.isError efiStatus ∨ dummyOp = true →
      Idle config driver' m' store → driver'.ids = driver.ids → Q ({ result with efiStatus }, cper') driver' m')
    (served : ∀ recordID cper' driver' m', dummyOp = false →
      Idle config driver' m' (store.put id (normalize (newCper.take length))) →
      driver'.ids = putId driver.ids id → Q ({ result with efiStatus := .success, recordID }, cper') driver' m') :
    wpIn S (handleWrite.write config fuel dummyOp result length id newCper) Q driver m := by
  obtain ⟨logs, hsync, rfl, hheaded⟩ := hidle.sync
  have hdistinct := hidle.distinct
  unfold handleWrite.write
  rw [wpIn_get_bind]
  apply wpIn_bind
  apply erstPrepareNewRecord_wp hsound hreliable hstops
    (fun image hpreserved => hcut image (.inl hpreserved)) hsync hlength
  · -- there is no room
    intro status record driver' m' logs' herror hsync' halike hsame
    have hidle' : Idle config driver' m' (logs.contents config) :=
      ⟨⟨logs', hsync', hsame.contents, hsame.headed hheaded⟩, hdistinct, hidle.room,
        halike.unsynced.trans hidle.unsynced, halike.initStatus ▸ hidle.initStatus⟩
    have herror' : EfiCode.isError status = true := herror
    simp only [herror', if_true, wpIn_pure]
    exact ⟨hcut _ (.inl hidle'.preserved), refused _ _ _ _ (.inl herror) hidle' halike.ids⟩
  intro driver' m' logs' target block hsync' halike hsame hroom hblock
  have hcontents := hsame.contents
  have hidle' : Idle config driver' m' (logs.contents config) :=
    ⟨⟨logs', hsync', hsame.contents, hsame.headed hheaded⟩, hdistinct, hidle.room,
      halike.unsynced.trans hidle.unsynced, halike.initStatus ▸ hidle.initStatus⟩
  have hnow : S.cut m' := hcut _ (.inl hidle'.preserved)
  have hincoming : (driver'.reserve block length).incomingCperInfo = none := hsync'.tables.incoming
  have houtgoing : (driver'.reserve block length).outgoingCperInfo = none := hsync'.tables.outgoing
  simp only [EfiCode.isError_success, Bool.false_eq_true, if_false]
  apply wpIn_bind
  -- a write that is refused gives the room back
  have hundo : ∀ efiStatus cper', EfiCode.isError efiStatus ∨ dummyOp = true →
      wpIn S (do
        let _ ← erstUndoAllocateRecord config ⟨id, length, logs'.gap config target⟩
        pure ({ result with efiStatus }, cper')) Q (driver'.reserve block length) m' := by
    intro efiStatus cper' hrefused
    apply wpIn_bind
    apply erstUndoAllocateRecord_reserve hsound hsync' hlength hblock hnow
    rw [wpIn_pure]
    exact ⟨hnow, refused _ _ _ _ hrefused hidle' halike.ids⟩
  by_cases hop : dummyOp = true
  · subst hop
    rw [hsync.erstFindRecord_eq_none (hdummy rfl)]
    apply erstWriteRecord_dummy_wp hincoming houtgoing hnow
    intro efiStatus cper'
    rw [if_pos (.inr rfl)]
    exact hundo efiStatus cper' (.inr rfl)
  · have hop' : dummyOp = false := Bool.eq_false_iff.mpr hop
    subst hop'
    by_cases hinvalid : EfiCode.isError (erstValidateCperHeader (persist newCper statusIncoming)
        length) = true
    · refine erstWriteRecord_refused_wp houtgoing ?_ hnow ?_
      · exact hinvalid
      intro efiStatus cper' herror
      rw [if_pos (.inl herror)]
      exact hundo efiStatus cper' (.inl herror)
    · have hvalid := Bool.eq_false_iff.mpr hinvalid
      have hlong : sizeofCperHeader ≤ length := length_of_valid hvalid
      have hpos : 0 < sizeofCperHeader := by decide
      have hroomy := hroom.fits
      have hplace := hsync'.tables.erstGetBlockOfRecord hroom.bound
        (show (logs' target).size < config.blockSize by omega)
        ⟨id, length, logs'.gap config target⟩ rfl
      obtain rfl : target = block := Option.some.inj (hplace.symm.trans hblock)
      apply erstWriteRecord_put_wp hsound hreliable hsync' hroom (by rw [hcontents]; exact hdistinct)
        (by rw [hcontents]; exact hidle.room) ?_ hcper (hheader hlong).1 (hheader hlong).2 hvalid
      · intro image hpreserved
        rw [hcontents] at hpreserved
        exact hcut image (hpreserved.imp_right fun h => ⟨rfl, h⟩)
      · intro efiStatus cper' herror
        rw [if_pos (.inl herror)]
        exact hundo efiStatus cper' (.inl herror)
      · intro cper' driver'' m'' logs'' hsync'' hcontents'' hroom'' hids'' hheaded'' hunsynced hinit
        rw [if_neg (by simp), wpIn_modify_bind, wpIn_pure]
        rw [hcontents] at hcontents''
        rw [hcontents''] at hroom''
        have hidle'' : Idle config driver''.sync m''
            (Store.put (logs.contents config) id (normalize (newCper.take length))) := by
          refine ⟨⟨logs'', hsync''.congr rfl rfl rfl rfl rfl, hcontents'',
            hheaded'' (hsame.headed hheaded)⟩, hdistinct.put _ _, hroom'', ?_, ?_⟩
          · show driver''.unsyncedSpinorChanges - 1 = 0
            rw [hunsynced]
            show driver'.unsyncedSpinorChanges + 1 - 1 = 0
            rw [BitVec.add_sub_cancel]
            exact hidle'.unsynced
          · show EfiCode.isError driver''.initStatus = false
            rw [hinit]
            exact hidle'.initStatus
        rw [halike.ids] at hids''
        exact ⟨hcut _ (.inr ⟨rfl, hidle''.preserved⟩), served _ _ _ _ rfl hidle'' hids''⟩
      · -- the record it replaces is still tracked
        cases hfind : driver.erstFindRecord id with
        | none =>
          intro record hrecord
          rw [hcontents] at hrecord
          exact erstFindRecord_none hsync hfind record hrecord
        | some k =>
          obtain ⟨hk, hid⟩ := erstFindRecord_some hfind
          exact ⟨by rw [halike.recordCount]; exact hk, by rw [halike.recordId]; exact hid⟩

structure Done (config : Config) (store : Store) (order : List Nat) (request : Request)
    (result : Result) (driver' : Driver) (m' : Memory) : Prop where
  idle : Idle config driver' m' (store.answered request result.status)
  order : driver'.ids = orderAnswered order request result.status

theorem Idle.done {request : Request} {result : Result} {order : List Nat}
    (h : Idle config driver m store) (horder : driver.ids = order)
    (hstatus : result.status = acpiSuccess →
      request.operation ≠ operationWrite ∧ request.operation ≠ operationClear) :
    Done config store order request result driver m := by
  have hsame : result.status = acpiSuccess →
      store.after request = store ∧ orderAfter order request = order := by
    intro hsuccess
    obtain ⟨hwrite, hclear⟩ := hstatus hsuccess
    unfold Store.after orderAfter
    rw [if_neg hwrite, if_neg hclear, if_neg hwrite, if_neg hclear]
    exact ⟨rfl, rfl⟩
  constructor
  · unfold Store.answered
    split
    · next hsuccess =>
      rw [(hsame hsuccess).1]
      exact h
    · exact h
  · unfold orderAnswered
    split
    · next hsuccess =>
      rw [(hsame hsuccess).2]
      exact horder
    · exact horder

theorem handleWrite_wp (hsound : config.Sound) (hreliable : ¬ S.Faulty) (hstops : S.stops)
    {fuel : Nat} {request : Request} {dummyOp : Bool} {ids : Set Nat}
    (hidle : Idle config driver m store) (hproper : request.Proper config ids)
    (hids : ∀ record ∈ store, record.1 ∈ ids)
    (hop : request.operation = if dummyOp then operationDummyWrite else operationWrite)
    (hcut : ∀ image, Preserved config image store ∨ Preserved config image (store.after request) →
      S.cut image) :
    wpIn S (handleWrite config fuel request dummyOp)
      (fun result driver' m' => S.cut m' ∧ Done config store driver.ids request result driver' m')
      driver m := by
  have hnow : S.cut m := hcut _ (.inl hidle.preserved)
  have hrefused : ∀ (result : Result) driver' m', result.status ≠ acpiSuccess →
      Idle config driver' m' store → driver'.ids = driver.ids →
        S.cut m' ∧ Done config store driver.ids request result driver' m' := by
    intro result driver' m' hstatus hidle' hids
    exact ⟨hcut _ (.inl hidle'.preserved), hidle'.done hids fun hsuccess => absurd hsuccess hstatus⟩
  have hfailed : ∀ acpiStatus, acpiStatus ≠ acpiSuccess → wpIn S
      (pure ⟨acpiStatus, .success, request.recordID, request.errorLog⟩)
      (fun result driver' m' => S.cut m' ∧ Done config store driver.ids request result driver' m')
      driver m := by
    intro acpiStatus hne
    rw [wpIn_pure]
    exact ⟨hnow, hrefused _ _ _ ((Result.status_of_ne hne).trans_ne hne) hidle rfl⟩
  unfold handleWrite
  dsimp only
  split
  · exact hfailed acpiFailed (by decide)
  split
  · exact hfailed acpiFailed (by decide)
  next hoffset hlength =>
  apply wpIn_bind
  apply erstAllocatePoolRecord_wp hnow
  swap
  · intro
    exact hfailed acpiNotEnoughSpace (by decide)
  intro pool hserves
  have hlog := hproper.errorLog
  have hinside : request.recordOffset + cperRecordLength request.cper ≤ config.errorLogLength :=
    Nat.le_of_not_lt hlength
  have hcper : request.cper.length = request.errorLog.length - request.recordOffset :=
    List.length_drop
  have htake : (received (request.cper.take (cperRecordLength request.cper))
      (driver.recordPools pool).memory).take (cperRecordLength request.cper) =
        request.cper.take (cperRecordLength request.cper) := by
    unfold received
    rw [List.take_append_of_le_length (by rw [List.length_take]; omega), List.take_take, Nat.min_self]
  have hreceived : cperRecordLength request.cper ≤ (received
      (request.cper.take (cperRecordLength request.cper))
      (driver.recordPools pool).memory).length := by
    unfold received
    rw [List.length_append, List.length_take]
    omega
  apply wpIn_bind
  apply handleWrite_write_wp hsound hreliable hstops (hidle.take pool) hproper.fits hreceived
  · intro hlong
    have hheader : sizeofCperHeader = 128 := rfl
    constructor
    · unfold cperRecordID
      rw [← field_take (received _ _) (show 96 + 8 ≤ cperRecordLength request.cper by omega), htake,
        field_take _ (by omega)]
      rfl
    · unfold cperRecordLength at hlong htake ⊢
      rw [← field_take (received _ _) (show 20 + 4 ≤ field request.cper 20 4 by omega)]
      exact (congrArg (fun bytes => field bytes 20 4) htake).trans (field_take _ (by omega))
  · rintro rfl record hrecord heq
    exact hproper.dummy hop (heq ▸ hids record hrecord)
  · rw [htake]
    rintro image (hpreserved | ⟨hdummy, hpreserved⟩)
    · exact hcut image (.inl hpreserved)
    · subst hdummy
      refine hcut image (.inr ?_)
      have hwrite : request.operation = operationWrite := hop
      unfold Store.after
      rw [if_pos hwrite]
      exact hpreserved
  · intro efiStatus cper' driver' m' hfail hidle' hids'
    apply wpIn_bind
    unfold erstFreePoolRecord
    rw [wpIn_modify, wpIn_pure]
    have hidle'' := hidle'.release pool cper'
    have hcut' := hcut _ (.inl hidle''.preserved)
    refine ⟨hcut', hcut', hcut', hidle''.done hids' fun hsuccess => ?_⟩
    rcases hfail with herror | hdummy
    · have hstatus : efiStatus = .success := Result.status_eq hsuccess
      subst hstatus
      exact absurd herror (by decide)
    · subst hdummy
      rw [hop]
      decide
  · intro recordID cper' driver' m' hdummy hidle' hids'
    subst hdummy
    rw [htake] at hidle'
    apply wpIn_bind
    unfold erstFreePoolRecord
    rw [wpIn_modify, wpIn_pure]
    have hwrite : request.operation = operationWrite := hop
    have hidle'' : Idle config (driver'.release pool cper') m' (store.after request) := by
      unfold Store.after
      rw [if_pos hwrite]
      exact hidle'.release pool cper'
    have hcut' := hcut _ (.inr hidle''.preserved)
    refine ⟨hcut', hcut', hcut', hidle'', ?_⟩
    show driver'.ids = orderAfter driver.ids request
    unfold orderAfter
    rw [if_pos hwrite]
    exact hids'

/-! A clear. -/

theorem erstClearRecord_drop_wp (hsound : config.Sound) (hreliable : ¬ S.Faulty) {id k : Nat}
    {Q : EfiCode → Driver → Memory → Prop} (hidle : Idle config driver m store)
    (hfind : driver.erstFindRecord id = some k)
    (hcut : ∀ image, Preserved config image store ∨ Preserved config image (store.drop id) →
      S.cut image)
    (served : ∀ driver' m', Idle config driver' m' (store.drop id) →
      driver'.ids = driver.ids.erase id → Q .success driver' m') :
    wpIn S (erstClearRecord config k) Q driver m := by
  have hnow : S.cut m := hcut _ (.inl hidle.preserved)
  obtain ⟨logs, hsync, rfl, hheaded⟩ := hidle.sync
  obtain ⟨hk, hid⟩ := erstFindRecord_some hfind
  obtain ⟨block, hblock, front, entry, back, hlog, hlive, hinfo⟩ := hsync.tables.entry hk
  have hs : Source config driver logs k block front entry back := ⟨hk, hblock, hlog, hlive, hinfo⟩
  have hentry : entry.contents.1 = id := by
    rw [hinfo] at hid
    exact hid
  have hcontents : Logs.contents config
      (Function.update logs block (front ++ entry.deleted :: back)) =
        Store.drop (logs.contents config) id := by
    rw [← hentry]
    exact (hidle.distinct.drop_of_add (Logs.contents_deleted logs hblock hlog hlive)).symm
  have hplace : config.norErstOffset + ((driver.info k).recordOffset + statusOffset) =
      config.place block + front.size + statusOffset := by
    rw [hinfo]
    show config.norErstOffset + (block * config.blockSize + front.size + statusOffset) = _
    unfold Config.place
    omega
  apply erstClearRecord_wp hsound hreliable hsync hs hnow
  · apply hcut _ (.inr _)
    rw [← hcontents, hplace]
    exact (hsync.stored.delete hblock hlog).preserved
  · intro driver' hcleared
    have hsync' := hsync.delete hs hcleared
    refine served _ _ ⟨⟨_, hsync', hcontents, hheaded.delete hblock hlog (hs.inside hsync.stored).1⟩,
      hidle.distinct.drop id, (Multiset.card_le_card (Multiset.filter_le _ _)).trans hidle.room,
      hcleared.unsynced.trans hidle.unsynced, hcleared.kept.initStatus ▸ hidle.initStatus⟩ ?_
    have hlt : k < driver.ids.length := driver.length_ids ▸ hk
    have hplace : driver.ids[k] = id := (Driver.getElem_ids hk).trans hid
    have hnodup : driver.ids.Nodup := by
      rw [← Multiset.coe_nodup, hsync.ids]
      exact hidle.distinct
    have herase : driver'.ids = driver.ids.eraseIdx k := by
      unfold Driver.ids
      rw [hcleared.cperInfo, List.eraseIdx_map]
    rw [herase, ← hplace]
    exact (hnodup.erase_getElem k hlt).symm

theorem Done.withRecordID {request : Request} {result : Result} {order : List Nat}
    (h : Done config store order request result driver m) (recordID : Nat) :
    Done config store order request { result with recordID } driver m := ⟨h.idle, h.order⟩

theorem handleClear_wp (hsound : config.Sound) (hreliable : ¬ S.Faulty) {request : Request}
    (hidle : Idle config driver m store) (hop : request.operation = operationClear)
    (hcut : ∀ image, Preserved config image store ∨ Preserved config image (store.after request) →
      S.cut image) :
    wpIn S (handleClear config request)
      (fun result driver' m' => S.cut m' ∧ Done config store driver.ids request result driver' m')
      driver m := by
  have hafter : store.after request = store.drop request.recordID := by
    unfold Store.after
    rw [hop]
    rfl
  have hnow : S.cut m := hcut _ (.inl hidle.preserved)
  have hfailed : ∀ acpiStatus, acpiStatus ≠ acpiSuccess → wpIn S (do
      let result ← (pure ⟨acpiStatus, .success, request.recordID, request.errorLog⟩ : ErstM Result)
      let driver ← get
      pure { result with
        recordID :=
          if driver.recordCount > 0 then (driver.info 0).recordId else erstInvalidRecordId })
      (fun result driver' m' => S.cut m' ∧ Done config store driver.ids request result driver' m')
      driver m := by
    intro acpiStatus hne
    rw [wpIn_pure_bind, wpIn_get_bind, wpIn_pure]
    refine ⟨hnow, hnow, Done.withRecordID (hidle.done rfl fun hsuccess => ?_) _⟩
    exact absurd hsuccess ((Result.status_of_ne hne).trans_ne hne)
  unfold handleClear
  rw [wpIn_get_bind]
  dsimp only
  split
  · exact hfailed acpiFailed (by decide)
  split
  · exact hfailed acpiRecordStoreEmpty (by decide)
  split
  · exact hfailed acpiFailed (by decide)
  split
  · exact hfailed acpiRecordNotFound (by decide)
  · next k hfind =>
    apply wpIn_bind
    apply erstClearRecord_drop_wp hsound hreliable hidle hfind
    · rw [← hafter]
      exact hcut
    · intro driver' m' hidle' hids'
      rw [← hafter] at hidle'
      have hcut' := hcut _ (.inr hidle'.preserved)
      rw [wpIn_pure_bind, wpIn_get_bind, wpIn_pure]
      refine ⟨hcut', hcut', hidle', ?_⟩
      show driver'.ids = orderAfter driver.ids request
      unfold orderAfter
      rw [hop]
      exact hids'

/-! A read. -/

theorem Store.Distinct.eq (h : store.Distinct) {record record' : Nat × List UInt8}
    (hmem : record ∈ store) (hmem' : record' ∈ store) (hid : record.1 = record'.1) :
    record = record' :=
  Multiset.inj_on_of_nodup_map h record hmem record' hmem' hid

/-- A record is read as it stands, and its header decides on what is reported. -/
theorem erstReadRecord_wp (hsound : config.Sound) (hreliable : ¬ S.Faulty) {id : Nat}
    {buffer : List UInt8} {Q : EfiCode × List UInt8 → Driver → Memory → Prop}
    (hidle : Idle config driver m store) (hcut : S.cut m)
    (h : ∀ efiStatus cper, (efiStatus = .success → ∃ record ∈ store, record.1 = id ∧
        normalize (cper.take record.2.length) = record.2) →
      (∀ record ∈ store, record.1 = id → record.2.length ≤ buffer.length →
        normalize (cper.take record.2.length) = record.2) → Q (efiStatus, cper) driver m) :
    wpIn S (erstReadRecord config id buffer buffer.length) Q driver m := by
  have hdistinct := hidle.distinct
  obtain ⟨logs, hsync, rfl, _⟩ := hidle.sync
  unfold erstReadRecord
  rw [wpIn_get_bind]
  cases hfind : driver.erstFindRecord id with
  | none =>
    have hnone := erstFindRecord_none hsync hfind
    refine wpIn_pure.mpr ⟨hcut, h _ _ (fun hsuccess => absurd hsuccess (by decide)) ?_⟩
    intro record hrecord hid
    exact absurd hid (hnone record hrecord)
  | some k =>
    obtain ⟨hk, hid⟩ := erstFindRecord_some hfind
    obtain ⟨block, hblock, front, entry, back, hlog, hlive, hinfo⟩ := hsync.tables.entry hk
    have hs : Source config driver logs k block front entry back :=
      ⟨hk, hblock, hlog, hlive, hinfo⟩
    obtain ⟨hlong, hfront, hfits⟩ := hs.inside hsync.stored
    have hentry : entry.contents.1 = id := by
      rw [hinfo] at hid
      exact hid
    have hmem := hs.mem_contents
    have hlength : entry.contents.2.length = entry.size := by
      show (normalize entry.bytes).length = _
      unfold normalize
      rw [length_persist]
      rfl
    have honly : ∀ record ∈ logs.contents config, record.1 = id → record = entry.contents := by
      intro record hrecord heq
      exact hdistinct.eq hrecord hmem (heq.trans hentry.symm)
    dsimp only
    rw [hinfo]
    change wpIn S (if entry.size > buffer.length then _ else _) Q driver m
    split
    · next hlarge =>
      refine wpIn_pure.mpr ⟨hcut, h _ _ (fun hsuccess => absurd hsuccess (by decide)) ?_⟩
      intro record hrecord heq hfit
      rw [honly record hrecord heq, hlength] at hfit
      omega
    · next hsmall =>
      have hpart := Config.le_partitionSize hblock
        (show front.size + entry.size ≤ config.blockSize by omega)
      have hbytes : slice m (config.norErstOffset + (block * config.blockSize + front.size))
          entry.size = entry.bytes := by
        have hholds := hsync.stored.entry hblock hlog
        unfold Config.place at hholds
        rw [Nat.add_assoc] at hholds
        exact hholds
      have hread : ∀ record ∈ logs.contents config, record.1 = id →
          normalize ((received entry.bytes buffer).take record.2.length) = record.2 := by
        intro record hrecord heq
        rw [honly record hrecord heq, hlength]
        have htake : (received entry.bytes buffer).take entry.size = entry.bytes :=
          List.take_left
        rw [htake]
        rfl
      apply wpIn_bind
      apply erstReadSpiNor_wp hsound (.of_reliable hreliable) (by
        show block * config.blockSize + front.size + entry.size ≤ _
        omega) hsync.mirrors hcut
      · dsimp only
        change wpIn S (if EfiCode.isError (EfiCode.throughUint32 .success) = true then _ else _) Q
          driver m
        rw [if_neg (by decide)]
        refine wpIn_pure.mpr ⟨hcut, h _ _ (fun _ => ⟨entry.contents, hmem, hentry, ?_⟩) ?_⟩
        · show normalize ((received (slice m (config.norErstOffset + (block * config.blockSize +
            front.size)) entry.size) buffer).take _) = _
          rw [hbytes]
          exact hread _ hmem hentry
        · intro record hrecord heq _
          show normalize ((received (slice m (config.norErstOffset + (block * config.blockSize +
            front.size)) entry.size) buffer).take _) = _
          rw [hbytes]
          exact hread record hrecord heq
      · intro _ status effect hending
        exact absurd ⟨_, status, effect, hending⟩ hreliable

theorem handleRead_wp (hsound : config.Sound) (hreliable : ¬ S.Faulty) {request : Request}
    (hidle : Idle config driver m store) (hop : request.operation = operationRead)
    (herrorLog : request.errorLog.length = config.errorLogLength) (hcut : S.cut m) :
    wpIn S (handleRead config request) (fun result driver' m' => S.cut m' ∧
      Done config store driver.ids request result driver' m' ∧
        Delivered config store request result.status result.errorLog) driver m := by
  have hread : request.operation ≠ operationWrite ∧ request.operation ≠ operationClear := by
    rw [hop]
    decide
  have hlong : ∀ record ∈ store, sizeofCperHeader ≤ record.2.length := by
    intro record hrecord
    obtain ⟨logs, hsync, rfl, _⟩ := hidle.sync
    obtain ⟨block, hblock, front, entry, back, hlog, hlive, rfl⟩ := Logs.mem_contents hrecord
    show sizeofCperHeader ≤ (normalize entry.bytes).length
    unfold normalize
    rw [length_persist]
    exact (hsync.stored.inside hblock hlog).1
  have hfailed : ∀ acpiStatus, acpiStatus ≠ acpiSuccess →
      (∀ record ∈ store, ¬ request.recordOffset + record.2.length ≤ config.errorLogLength) →
        wpIn S (pure ⟨acpiStatus, .success, request.recordID, request.errorLog⟩ : ErstM Result)
          (fun result driver' m' => S.cut m' ∧ Done config store driver.ids request result driver' m' ∧
            Delivered config store request result.status result.errorLog) driver m := by
    intro acpiStatus hne hnone
    have hstatus := (@Result.status_of_ne ⟨acpiStatus, .success, request.recordID,
      request.errorLog⟩ hne).trans_ne hne
    refine wpIn_pure.mpr ⟨hcut, hcut, hidle.done rfl fun _ => hread, ?_, ?_⟩
    · intro hsuccess
      exact absurd hsuccess hstatus
    · intro record hrecord _ _ hfits
      exact absurd hfits (hnone record hrecord)
  unfold handleRead
  rw [wpIn_get_bind]
  dsimp only
  split
  · next hempty =>
    apply hfailed acpiRecordStoreEmpty (by decide)
    rw [hidle.recordCount, Multiset.card_eq_zero] at hempty
    rw [hempty]
    intro record hrecord
    exact absurd hrecord (Multiset.notMem_zero record)
  split
  · next hoffset =>
    apply hfailed acpiNotEnoughSpace (by decide)
    intro record hrecord hfits
    have := hlong record hrecord
    omega
  next hoffset =>
  have hbuffer : config.errorLogLength - request.recordOffset =
      (request.errorLog.drop request.recordOffset).length := by
    rw [List.length_drop, herrorLog]
  rw [hbuffer]
  apply wpIn_bind
  apply erstReadRecord_wp hsound hreliable hidle hcut
  intro efiStatus cper hsuccessful hpresent
  have hdrop : (request.errorLog.take request.recordOffset ++ cper).drop request.recordOffset =
      cper := by
    apply List.drop_left'
    rw [List.length_take]
    omega
  refine wpIn_pure.mpr ⟨hcut, hcut, hidle.done rfl fun _ => hread, ?_, ?_⟩
  · intro hstatus
    obtain ⟨record, hrecord, hid, hcontents⟩ := hsuccessful (Result.status_eq hstatus)
    refine ⟨record, hrecord, ?_, ?_⟩
    · intro hne
      rwa [if_neg hne] at hid
    · rw [hdrop]
      exact hcontents
  · intro record hrecord hid hne hfits
    rw [hdrop]
    apply hpresent record hrecord
    · rw [if_neg hne]
      exact hid
    · rw [← hbuffer]
      omega

/-! Any request. -/

/-- What an operation comes to, before it is reported. -/
def Operated (config : Config) (store : Store) (order : List Nat) (request : Request)
    (result : Result) (driver' : Driver) (m' : Memory) : Prop :=
  Done config store order request result driver' m' ∧ (request.operation = operationRead →
    Delivered config store request result.status result.errorLog)

theorem handleOperation_wp (hsound : config.Sound) (hreliable : ¬ S.Faulty) (hstops : S.stops)
    {fuel : Nat} {request : Request} {ids : Set Nat} (hidle : Idle config driver m store)
    (hproper : request.Proper config ids) (hids : ∀ record ∈ store, record.1 ∈ ids)
    (hcut : ∀ image, Preserved config image store ∨ Preserved config image (store.after request) →
      S.cut image) :
    wpIn S (handleOperation config fuel request)
      (fun result driver' m' => S.cut m' ∧ Operated config store driver.ids request result driver' m') driver m := by
  unfold handleOperation
  split
  · next hop =>
    have hdummy : request.operation = if true then operationDummyWrite else operationWrite := hop
    apply wpIn_mono (handleWrite_wp hsound hreliable hstops hidle hproper hids hdummy hcut)
    rintro result driver' m' ⟨hcut', hdone⟩
    exact ⟨hcut', hdone, fun hread => absurd (hread.symm.trans hop) (by decide)⟩
  split
  · next hop =>
    have hwrite : request.operation = if false then operationDummyWrite else operationWrite := hop
    apply wpIn_mono (handleWrite_wp hsound hreliable hstops hidle hproper hids hwrite hcut)
    rintro result driver' m' ⟨hcut', hdone⟩
    exact ⟨hcut', hdone, fun hread => absurd (hread.symm.trans hop) (by decide)⟩
  split
  · next hop =>
    apply wpIn_mono (handleRead_wp hsound hreliable hidle hop hproper.errorLog
      (hcut _ (.inl hidle.preserved)))
    rintro result driver' m' ⟨hcut', hdone, hdelivered⟩
    exact ⟨hcut', hdone, fun _ => hdelivered⟩
  split
  · next hop =>
    apply wpIn_mono (handleClear_wp hsound hreliable hidle hop hcut)
    rintro result driver' m' ⟨hcut', hdone⟩
    exact ⟨hcut', hdone, fun hread => absurd (hread.symm.trans hop) (by decide)⟩
  · next hwrite hread hclear =>
    have hcut' := hcut _ (.inl hidle.preserved)
    refine wpIn_pure.mpr ⟨hcut', hcut', hidle.done rfl fun hsuccess => ?_, fun hop => absurd hop hread⟩
    have hstatus : acpiFailed = acpiSuccess := hsuccess
    exact absurd hstatus (by decide)

structure Answered (config : Config) (store : Store) (request : Request) (response : Response) :
    Prop where
  recordCount : response.recordCount = (store.answered request response.status).card
  read : request.operation = operationRead →
    Delivered config store request response.status response.errorLog

/-- A request to an idle driver leaves it idle, with the effect it is reported to have. -/
theorem errorSerializationEventHandler_wp (hsound : config.Sound) (hreliable : ¬ S.Faulty)
    (hstops : S.stops) (fuel : Nat) {request : Request} {ids : Set Nat}
    (hidle : Idle config driver m store) (hproper : request.Proper config ids)
    (hids : ∀ record ∈ store, record.1 ∈ ids)
    (hcut : ∀ image, Preserved config image store ∨ Preserved config image (store.after request) →
      S.cut image) :
    wpIn S (errorSerializationEventHandler config fuel request)
      (fun response driver' m' => S.cut m' ∧
        Idle config driver' m' (store.answered request response.status) ∧
          Answered config store request response ∧
            driver'.ids = orderAnswered driver.ids request response.status) driver m := by
  obtain ⟨logs, hsync, _⟩ := hidle.sync
  unfold errorSerializationEventHandler
  rw [wpIn_get_bind]
  dsimp only
  rw [if_neg (by rw [hidle.initStatus]; decide),
    if_neg (by rw [hidle.unsynced, hsync.tables.incoming, hsync.tables.outgoing]; simp)]
  apply wpIn_bind
  apply wpIn_mono (handleOperation_wp hsound hreliable hstops hidle hproper hids hcut)
  rintro result driver' m' ⟨hcut', hdone, hdelivered⟩
  unfold report
  rw [wpIn_get_bind, wpIn_pure]
  exact ⟨hcut', hcut', hdone.idle, ⟨hdone.idle.recordCount, hdelivered⟩, hdone.order⟩

end Serve

end Erst
