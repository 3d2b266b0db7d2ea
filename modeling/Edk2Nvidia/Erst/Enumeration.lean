import Edk2Nvidia.Erst.Service

/-! The enumeration of the store: a read of the first record, and then always a read of the record
whose id the last one has left. It comes to every record once, and back to the first. -/
namespace Erst
open Flash

/-- A record of the tables as it stands on the flash. -/
def Config.recordAt (config : Config) (m : Memory) (info : CperInfo) : Nat × List UInt8 :=
  (info.recordId, normalize (slice m (config.norErstOffset + info.recordOffset) info.recordLength))

/-- The records in the order of the tables. -/
def Driver.records (config : Config) (driver : Driver) (m : Memory) : List (Nat × List UInt8) :=
  driver.cperInfo.map (config.recordAt m)

theorem Request.length_contents (request : Request) :
    request.contents.length ≤ request.errorLog.length := by
  unfold Request.contents Request.cper normalize
  rw [length_persist, List.length_take, List.length_drop]
  omega

theorem Config.length_recordAt (config : Config) (m : Memory) (info : CperInfo) :
    (config.recordAt m info).2.length = info.recordLength := by
  show (normalize _).length = _
  unfold normalize
  rw [length_persist, length_slice]

section Records
variable {config : Config} {driver : Driver} {m : Memory} {logs : Logs} {store : Store}

theorem Log.map_recordAt (log : Log) (offset : Nat)
    (h : Holds m (config.norErstOffset + offset) log.bytes) :
    ((log.infos offset).map (config.recordAt m) : Multiset (Nat × List UInt8)) = log.contents := by
  induction log generalizing offset with
  | nil => rfl
  | cons entry rest ih =>
    rw [Log.bytes_cons, holds_append] at h
    have hrest := ih (offset + entry.size) (by rw [← Nat.add_assoc]; exact h.2)
    rw [Log.infos, List.map_append, ← Multiset.coe_add, hrest]
    by_cases hlive : entry.live
    · have hentry : config.recordAt m (entry.info offset) = entry.contents :=
        congrArg (fun bytes => (entry.id, normalize bytes)) h.1
      rw [if_pos hlive, Log.contents_cons hlive, List.map_singleton, hentry]
      rfl
    · rw [if_neg hlive, Log.contents_cons_dead (Bool.eq_false_iff.mpr hlive)]
      exact zero_add _

theorem InSync.records (hsync : InSync config driver m logs) :
    (driver.records config m : Multiset (Nat × List UInt8)) = logs.contents config := by
  unfold Driver.records
  rw [← Multiset.map_coe, hsync.tables.infos]
  unfold Logs.infos Logs.contents
  rw [← Multiset.coe_mapAddMonoidHom, map_sum]
  apply Finset.sum_congr rfl
  intro b hb
  exact Log.map_recordAt (logs b) _ (hsync.stored.written b (Finset.mem_range.mp hb))

theorem Idle.records (hidle : Idle config driver m store) :
    (driver.records config m : Multiset (Nat × List UInt8)) = store := by
  obtain ⟨logs, hsync, rfl, _⟩ := hidle.sync
  exact hsync.records

theorem Idle.nodup (hidle : Idle config driver m store) :
    driver.ids.Nodup := by
  obtain ⟨logs, hsync, rfl, _⟩ := hidle.sync
  have hdistinct : (Multiset.map Prod.fst (logs.contents config)).Nodup := hidle.distinct
  rw [← hsync.ids, Multiset.coe_nodup] at hdistinct
  exact hdistinct

theorem Idle.index_eq (hidle : Idle config driver m store) {j k : Nat} (hj : j < driver.recordCount)
    (hk : k < driver.recordCount) (h : (driver.info j).recordId = (driver.info k).recordId) :
    j = k := by
  rw [← Driver.getElem_ids hj, ← Driver.getElem_ids hk] at h
  exact Fin.val_eq_of_eq (hidle.nodup.injective_get h)

theorem Idle.erstFindRecord (hidle : Idle config driver m store) {k : Nat}
    (hk : k < driver.recordCount) :
    driver.erstFindRecord (driver.info k).recordId = some k := by
  obtain ⟨logs, hsync, rfl, _⟩ := hidle.sync
  cases hfind : driver.erstFindRecord (driver.info k).recordId with
  | some j =>
    obtain ⟨hj, hid⟩ := erstFindRecord_some hfind
    rw [hidle.index_eq hj hk hid]
  | none =>
    have hnone := erstFindRecord_none hsync hfind
    obtain ⟨block, hblock, front, entry, back, hlog, hlive, hinfo⟩ := hsync.tables.entry hk
    have hs : Source config driver logs k block front entry back :=
      ⟨hk, hblock, hlog, hlive, hinfo⟩
    exact absurd (by rw [hinfo]; rfl) (hnone _ hs.mem_contents)

/-- The next id is that of the next entry, and behind the last comes the first. -/
theorem Idle.erstGetNextRecordID (hidle : Idle config driver m store) {k : Nat}
    (hk : k < driver.recordCount) :
    driver.erstGetNextRecordID (driver.info k).recordId =
      (driver.info ((k + 1) % driver.recordCount)).recordId := by
  unfold Driver.erstGetNextRecordID
  rw [if_neg (by omega)]
  cases hfind : (List.range (driver.recordCount - 1)).find? fun index =>
      decide ((driver.info index).recordId = (driver.info k).recordId) with
  | some j =>
    have hj := List.mem_range.mp (List.mem_of_find?_eq_some hfind)
    have hid := List.find?_some hfind
    rw [decide_eq_true_iff] at hid
    obtain rfl := hidle.index_eq (by omega) hk hid
    dsimp only
    rw [Nat.mod_eq_of_lt (by omega)]
  | none =>
    have hlast : k + 1 = driver.recordCount := by
      by_contra hne
      have hnone := List.find?_eq_none.mp hfind k (List.mem_range.mpr (by omega))
      exact hnone (decide_eq_true rfl)
    dsimp only
    rw [hlast, Nat.mod_self]

end Records

/-! One read. -/

section Read
variable {config : Config} {S : Setting EfiCode} {driver : Driver} {m : Memory} {store : Store}
  {fuel : Nat}

/-- What stands on the flash for an entry of the tables is a record with its id. -/
theorem Idle.entry (hidle : Idle config driver m store) {k : Nat} (hk : k < driver.recordCount) :
    ∃ bytes, slice m (config.norErstOffset + (driver.info k).recordOffset)
        (driver.info k).recordLength = bytes ∧
      (driver.info k).recordOffset + (driver.info k).recordLength ≤ config.partitionSize ∧
      sizeofCperHeader ≤ bytes.length ∧ bytes.length = (driver.info k).recordLength ∧
      erstValidateCperHeader bytes (driver.info k).recordLength = .success ∧
      (driver.info k).recordId ≠ erstFirstRecordId := by
  obtain ⟨logs, hsync, _, hheaded⟩ := hidle.sync
  obtain ⟨block, hblock, front, entry, back, hlog, hlive, hinfo⟩ := hsync.tables.entry hk
  obtain ⟨hlong, hfront, hfits⟩ := hsync.stored.inside hblock hlog
  have hentry := hheaded block hblock entry (by simp [hlog])
  have hpart := Config.le_partitionSize hblock
    (show front.size + entry.size ≤ config.blockSize by omega)
  have hvalid : erstValidateCperHeader entry.bytes entry.size = .success := by
    have herror := hentry.valid
    rcases erstValidateCperHeader_cases entry.bytes entry.size with h | h | h
    · exact h
    · rw [h] at herror
      exact absurd herror (by decide)
    · rw [h] at herror
      exact absurd herror (by decide)
  rw [hinfo]
  refine ⟨entry.bytes, ?_, ?_, hlong, rfl, hvalid, ?_⟩
  · have hholds := hsync.stored.entry hblock hlog
    unfold Config.place at hholds
    rw [Nat.add_assoc] at hholds
    exact hholds
  · show block * config.blockSize + front.size + entry.size ≤ _
    omega
  · intro hfirst
    have hid : cperRecordID entry.bytes = erstFirstRecordId := hentry.id.trans hfirst
    unfold erstValidateCperHeader at hvalid
    split at hvalid
    · exact absurd hvalid (by decide)
    · rw [if_pos (.inl hid)] at hvalid
      exact absurd hvalid (by decide)

/-- A read of a record that fits succeeds, and leaves the id of the next. -/
theorem errorSerializationEventHandler_read_wp (hsound : config.Sound) (hreliable : ¬ S.Faulty)
    {request : Request} {k : Nat} {Q : Response → Driver → Memory → Prop}
    (hidle : Idle config driver m store) (hk : k < driver.recordCount)
    (hop : request.operation = operationRead)
    (herrorLog : request.errorLog.length = config.errorLogLength)
    (hid : request.recordID = (driver.info k).recordId ∨
      k = 0 ∧ request.recordID = erstFirstRecordId)
    (hfits : request.recordOffset + (driver.info k).recordLength ≤ config.errorLogLength)
    (hcut : S.cut m)
    (h : ∀ response, response.status = acpiSuccess →
      response.recordID = (driver.info ((k + 1) % driver.recordCount)).recordId →
      normalize ((response.errorLog.drop request.recordOffset).take (driver.info k).recordLength) =
        (config.recordAt m (driver.info k)).2 → Q response driver m) :
    wpIn S (errorSerializationEventHandler config fuel request) Q driver m := by
  obtain ⟨bytes, hbytes, hinside, hlong, hlength, hvalid, hnotFirst⟩ := hidle.entry hk
  obtain ⟨logs, hsync, _⟩ := hidle.sync
  have hpart := hsound.partition_lt
  have hread : request.operation ≠ operationDummyWrite ∧ request.operation ≠ operationWrite := by
    rw [hop]
    decide
  have hwanted : (if request.recordID = erstFirstRecordId then (driver.info 0).recordId
      else request.recordID) = (driver.info k).recordId := by
    rcases hid with hid | ⟨rfl, hid⟩
    · rw [hid, if_neg hnotFirst]
    · rw [if_pos hid]
  have hbuffer : (request.errorLog.drop request.recordOffset).length =
      config.errorLogLength - request.recordOffset := by
    rw [List.length_drop, herrorLog]
  have hdrop : ∀ cper : List UInt8,
      (request.errorLog.take request.recordOffset ++ cper).drop request.recordOffset = cper := by
    intro cper
    apply List.drop_left'
    rw [List.length_take]
    omega
  unfold errorSerializationEventHandler
  rw [wpIn_get_bind]
  dsimp only
  rw [if_neg (by rw [hidle.initStatus]; decide),
    if_neg (by rw [hidle.unsynced, hsync.tables.incoming, hsync.tables.outgoing]; simp)]
  apply wpIn_bind
  unfold handleOperation
  rw [if_neg hread.1, if_neg hread.2, if_pos hop]
  unfold handleRead
  rw [wpIn_get_bind]
  dsimp only
  rw [if_neg (by omega), if_neg (by omega), hwanted]
  apply wpIn_bind
  unfold erstReadRecord
  rw [wpIn_get_bind, hidle.erstFindRecord hk]
  dsimp only
  rw [if_neg (by omega)]
  apply wpIn_bind
  apply erstReadSpiNor_wp hsound (.of_reliable hreliable) hinside hsync.mirrors hcut
  swap
  · intro _ status effect hending
    exact absurd ⟨_, status, effect, hending⟩ hreliable
  rw [hbytes]
  have htake : ∀ buffer, (received bytes buffer).take (driver.info k).recordLength = bytes := by
    intro buffer
    rw [← hlength]
    exact List.take_left
  have hheader : erstValidateCperHeader
      (received bytes (request.errorLog.drop request.recordOffset))
      (driver.info k).recordLength = .success := by
    have hheaderTake := erstValidateCperHeader_take
      (received bytes (request.errorLog.drop request.recordOffset)) (hlength ▸ hlong)
      (driver.info k).recordLength
    rw [htake, hvalid] at hheaderTake
    exact hheaderTake.symm
  dsimp only
  rw [if_neg (by decide), hheader, wpIn_pure]
  refine ⟨hcut, ?_⟩
  dsimp only
  rw [wpIn_pure]
  refine ⟨hcut, ?_⟩
  unfold report
  rw [wpIn_get_bind, wpIn_pure]
  refine ⟨hcut, h _ rfl ?_ ?_⟩
  · have hsuccess : EfiCode.isError (EfiCode.throughUint32 .success) = false := by decide
    simp only [hsuccess, Bool.not_false, if_true]
    exact hidle.erstGetNextRecordID hk
  · dsimp only
    rw [hdrop, htake, ← hbytes]
    rfl

/-! The reads one after the other. -/

/-- `count` reads, each of the id the one before has left, and the id the last one leaves. -/
def enumerate (config : Config) (fuel : Nat) (errorLog : List UInt8) :
    Nat → Nat → ErstM (List Response × Nat)
  | 0, recordID => pure ([], recordID)
  | count + 1, recordID => do
    let response ← errorSerializationEventHandler config fuel
      ⟨operationRead, 0, recordID, errorLog, false⟩
    let (responses, last) ← enumerate config fuel errorLog count response.recordID
    pure (response :: responses, last)

def Response.Delivers (response : Response) (record : Nat × List UInt8) : Prop :=
  response.status = acpiSuccess ∧ normalize (response.errorLog.take record.2.length) = record.2

theorem enumerate_wp (hsound : config.Sound) (hreliable : ¬ S.Faulty) {errorLog : List UInt8}
    {k count recordID : Nat} (hidle : Idle config driver m store)
    (hcount : k + count = driver.recordCount) (herrorLog : errorLog.length = config.errorLogLength)
    (hfits : ∀ j < driver.recordCount, (driver.info j).recordLength ≤ config.errorLogLength)
    (hid : recordID = (driver.info (k % driver.recordCount)).recordId ∨
      k = 0 ∧ recordID = erstFirstRecordId) (hcut : S.cut m) :
    wpIn S (enumerate config fuel errorLog count recordID) (fun r driver' m' =>
      List.Forall₂ Response.Delivers r.1 ((driver.records config m).drop k) ∧
        r.2 = (if count = 0 then recordID else (driver.info 0).recordId) ∧
          driver' = driver ∧ m' = m) driver m := by
  induction count generalizing k recordID with
  | zero =>
    rw [enumerate, wpIn_pure]
    have hnil : (driver.records config m).drop k = [] := by
      apply List.drop_eq_nil_of_le
      unfold Driver.records
      rw [List.length_map]
      exact Nat.le_of_eq hcount.symm
    rw [hnil]
    exact ⟨hcut, .nil, rfl, rfl, rfl⟩
  | succ count ih =>
    have hk : k < driver.recordCount := by omega
    rw [Nat.mod_eq_of_lt hk] at hid
    rw [enumerate]
    apply wpIn_bind
    refine errorSerializationEventHandler_read_wp hsound hreliable hidle hk rfl herrorLog hid ?_
      hcut ?_
    · show 0 + _ ≤ _
      rw [Nat.zero_add]
      exact hfits k hk
    intro response hstatus hnext hcontents
    apply wpIn_bind
    apply wpIn_mono (ih (by omega) (.inl hnext))
    rintro ⟨responses, last⟩ driver' m' ⟨hdelivers, hlast, rfl, rfl⟩
    rw [wpIn_pure]
    have hrecord : (driver'.records config m').drop k =
        config.recordAt m' (driver'.info k) :: (driver'.records config m').drop (k + 1) := by
      unfold Driver.records Driver.info
      rw [← List.map_drop, ← List.map_drop, List.drop_eq_getElem_cons hk, List.map_cons,
        List.getD_eq_getElem _ _ hk]
    rw [hrecord]
    refine ⟨hcut, .cons ⟨hstatus, ?_⟩ hdelivers, ?_, rfl, rfl⟩
    · rw [Config.length_recordAt]
      exact hcontents
    · rw [if_neg (Nat.succ_ne_zero count), hlast]
      split
      · next hdone =>
        have hwrap : k + 1 = driver'.recordCount := by omega
        rw [hnext, hwrap, Nat.mod_self]
      · rfl

end Read

namespace Store

/-- The records fit into the error log buffer. -/
def Fits (config : Config) (store : Store) : Prop :=
  ∀ record ∈ store, record.2.length ≤ config.errorLogLength

theorem Fits.answered {config : Config} {store : Store} {request : Request} {ids : Set Nat}
    (h : store.Fits config) (hproper : request.Proper config ids) (status : Nat) :
    (store.answered request status).Fits config := by
  intro record hrecord
  unfold Store.answered Store.after at hrecord
  split at hrecord
  · split at hrecord
    · rcases Multiset.mem_add.mp hrecord with hold | hnew
      · exact h record (Multiset.mem_filter.mp hold).1
      · rw [Multiset.mem_singleton.mp hnew, ← hproper.errorLog]
        exact request.length_contents
    split at hrecord
    · exact h record (Multiset.mem_filter.mp hrecord).1
    · exact h record hrecord
  · exact h record hrecord

theorem Fits.run {config : Config} {store : Store} {requests : List Request} {ids : Set Nat}
    (h : store.Fits config) (hproper : ∀ request ∈ requests, request.Proper config ids)
    (responses : List Response) : (store.run requests responses).Fits config := by
  induction requests generalizing store responses with
  | nil => exact h
  | cons request requests ih =>
    cases responses with
    | nil => exact h
    | cons response responses =>
      have hfirst := hproper request (List.mem_cons_self ..)
      exact ih (h.answered hfirst response.status)
        (fun request' hmem => hproper request' (List.mem_cons_of_mem _ hmem)) responses

end Store

section Read
variable {config : Config} {driver driver' : Driver} {m m' : Memory} {store : Store} {fuel : Nat}

/-- After any run of requests an enumeration delivers every record of the store once, in an order in
which a record keeps its place while it is there, and ends where it has begun. -/
theorem serve_enumerates {requests : List Request}
    {responses : List Response} {ids : Set Nat} {errorLog : List UInt8} (hsound : config.Sound)
    (hidle : Idle config driver m store) (hids : ∀ record ∈ store, record.1 ∈ ids)
    (hproper : ∀ request ∈ requests, request.Proper config ids)
    (hrun : (serve config fuel requests driver).run m = (some (responses, driver'), m'))
    (herrorLog : errorLog.length = config.errorLogLength)
    (hfits : store.Fits config) :
    ∃ (reads : List Response) (last : Nat) (records : List (Nat × List UInt8)),
      (enumerate config fuel errorLog (store.run requests responses).card erstFirstRecordId
        driver').run m' = (some ((reads, last), driver'), m') ∧
      (records : Multiset (Nat × List UInt8)) = store.run requests responses ∧
      records.map Prod.fst = Store.order driver.ids requests responses ∧
      List.Forall₂ Response.Delivers reads records ∧ ∀ first ∈ records.head?, last = first.1 := by
  obtain ⟨hidle', _, _, horder⟩ := hidle.serve hsound hids hproper hrun
  have hcount := hidle'.recordCount
  have hrecords := hidle'.records
  have hlengths : ∀ j < driver'.recordCount,
      (driver'.info j).recordLength ≤ config.errorLogLength := by
    intro j hj
    have hmem : config.recordAt m' (driver'.info j) ∈ store.run requests responses := by
      rw [← hrecords, Multiset.mem_coe]
      unfold Driver.records Driver.info
      rw [List.getD_eq_getElem _ _ hj]
      exact List.mem_map_of_mem (List.getElem_mem hj)
    have hlength := hfits.run hproper responses _ hmem
    rwa [Config.length_recordAt] at hlength
  have henumerate := @enumerate_wp config (Setting.faultFree False) driver' m'
    (store.run requests responses) fuel hsound (Setting.not_faulty_faultFree _) errorLog 0
    driver'.recordCount erstFirstRecordId hidle' (Nat.zero_add _) herrorLog hlengths
    (.inr ⟨rfl, rfl⟩) trivial
  obtain ⟨⟨reads, last⟩, driver'', m'', hreads, hdelivers, hlast, rfl, rfl⟩ :=
    wpIn_total_faultFree henumerate
  rw [hcount] at hreads
  refine ⟨reads, last, driver''.records config m'', hreads, hrecords, ?_, ?_, ?_⟩
  · rw [← horder]
    unfold Driver.records Driver.ids
    rw [List.map_map]
    rfl
  · rwa [List.drop_zero] at hdelivers
  · intro first hfirst
    have hpos : driver''.cperInfo ≠ [] := by
      intro hnil
      unfold Driver.records at hfirst
      rw [hnil] at hfirst
      cases hfirst
    obtain ⟨info, rest, hinfo⟩ := List.exists_cons_of_ne_nil hpos
    have hzero : driver''.info 0 = info := by
      unfold Driver.info
      rw [hinfo]
      rfl
    have hne : driver''.recordCount ≠ 0 := by
      unfold Driver.recordCount
      rw [hinfo]
      exact Nat.succ_ne_zero _
    unfold Driver.records at hfirst
    rw [hinfo] at hfirst
    obtain rfl := (Option.some.inj hfirst).symm
    dsimp only at hlast
    rw [hlast, if_neg hne, hzero]
    rfl

end Read

theorem serve_enumerates_writes : ∃ (responses : List Response) (driver' : Driver) (m' : Memory)
    (reads : List Response) (last : Nat) (records : List (Nat × List UInt8)),
      Store.run 0 writes responses = twoRecords ∧ Store.order [] writes responses = [7, 9] ∧
      (enumerate twoBlocks 1 (List.replicate sizeofCperHeader 0)
        (Store.run 0 writes responses).card erstFirstRecordId driver').run m' =
          (some ((reads, last), driver'), m') ∧
      (records : Multiset (Nat × List UInt8)) = Store.run 0 writes responses ∧
      records.map Prod.fst = Store.order emptyDriver.ids writes responses ∧
      List.Forall₂ Response.Delivers reads records ∧ ∀ first ∈ records.head?, last = first.1 := by
  obtain ⟨responses, driver', m', hrun, hstore, horder, -⟩ := serve_writes
  obtain ⟨reads, last, records, hreads⟩ := @serve_enumerates _ _ _ _ _ _ 1 _ _ _ _ twoBlocks_sound
    emptyDriver_idle noRecord_ids writes_proper hrun List.length_replicate
    (fun record hrecord => absurd hrecord (Multiset.notMem_zero record))
  exact ⟨responses, driver', m', reads, last, records, hstore, horder, hreads⟩

end Erst
