import Edk2Nvidia.Erst.Handler

/-! Reading a record back while the flash may refuse the read. The status of the read goes through
a `UINT32`, in which no status is an error any more. -/
namespace Erst
open Flash

section Read
variable (config : Config) (driver : Driver) (request : Request) (ending : Ending EfiCode)
  (m : Memory)

/-- The record that is asked for; the first one has the number 0 too. -/
def Driver.osRecordID : Nat :=
  if request.recordID = erstFirstRecordId then (driver.info 0).recordId else request.recordID

/-- The record a read looks up on the flash: the one found, if it fits into the buffer. -/
def Driver.readTarget : Option CperInfo :=
  if driver.recordCount = 0 ∨ request.recordOffset > config.errorLogLength - sizeofCperHeader then
    none
  else
    ((driver.erstFindRecord (driver.osRecordID request)).map driver.info).filter fun record =>
      record.recordLength ≤ config.errorLogLength - request.recordOffset

/-- What `ErstReadSpiNor` returns when the flash answers with `ending`. -/
def Driver.spiNorRead (record : CperInfo) : EfiCode × List UInt8 :=
  if u32 (record.recordOffset + record.recordLength) > config.partitionSize then
    (.invalidParameter, [])
  else
    match driver.shadowFlash with
    | some shadow => (.success, slice shadow record.recordOffset record.recordLength)
    | none => (ending.status,
        ending.data m (u32 (record.recordOffset + config.norErstOffset)) record.recordLength)

def Driver.readCper (record : CperInfo) : List UInt8 :=
  received (driver.spiNorRead config ending m record).2
    (request.errorLog.drop request.recordOffset)

/-- The flash has answered the read, with a header that passes its checks. -/
def Driver.Genuine (record : CperInfo) : Prop :=
  (driver.spiNorRead config ending m record).1 = .success ∧
    erstValidateCperHeader (driver.readCper config request ending m record)
      record.recordLength = .success

/-- The report of a read: success only for a genuine record, and otherwise an error, with the
register left on the record or as it was. -/
def Honest (response : Response) : Prop :=
  (response.status = acpiSuccess →
    ∃ record ∈ driver.readTarget config request, driver.Genuine config request ending m record) ∧
  ∀ record ∈ driver.readTarget config request, ¬ driver.Genuine config request ending m record →
    response.status ≠ acpiSuccess ∧
      (response.recordID = request.recordID ∨ response.recordID = driver.osRecordID request)

/-- The stale header betrays itself, and the next record is no other one. -/
def Driver.Detected (record : CperInfo) : Prop :=
  erstValidateCperHeader (driver.readCper config request ending m record)
      record.recordLength ≠ .success ∧
    (driver.erstGetNextRecordID (driver.osRecordID request) = request.recordID ∨
      driver.erstGetNextRecordID (driver.osRecordID request) = driver.osRecordID request)

end Read

section Reports
variable (config : Config) (driver : Driver) (request : Request) (tape : Nat → Ending EfiCode)
  (m : Memory)

theorem erstReadSpiNor_runFaults (record : CperInfo) :
    (erstReadSpiNor config record.recordOffset record.recordLength driver).runFaults tape m =
      (some (driver.spiNorRead config (tape 0) m record, driver), m) := by
  show Prog.runFaults ((if u32 (record.recordOffset + record.recordLength) >
      config.partitionSize then pure (.invalidParameter, [])
    else match driver.shadowFlash with
      | some shadow => pure (.success, slice shadow record.recordOffset record.recordLength)
      | none => readFlash (u32 (record.recordOffset + config.norErstOffset))
          record.recordLength : ErstM _) driver) tape m = _
  unfold Driver.spiNorRead
  split
  · rfl
  · cases driver.shadowFlash <;> rfl

theorem erstReadRecord_runFaults {recordID index maxLength : Nat}
    (hfind : driver.erstFindRecord recordID = some index)
    (hfits : (driver.info index).recordLength ≤ maxLength) :
    (erstReadRecord config recordID (request.errorLog.drop request.recordOffset) maxLength
        driver).runFaults tape m =
      (some ((EfiCode.throughUint32 (erstValidateCperHeader
          (driver.readCper config request (tape 0) m (driver.info index))
          (driver.info index).recordLength),
        driver.readCper config request (tape 0) m (driver.info index)), driver), m) := by
  unfold erstReadRecord
  simp only [get_bind, hfind, if_neg (Nat.not_lt.mpr hfits)]
  apply runFaults_bind (erstReadSpiNor_runFaults config driver tape m (driver.info index))
  intro rest
  simp only [EfiCode.isError_throughUint32, Bool.false_eq_true, if_false]
  rfl

theorem erstReadRecord_notFound {recordID : Nat} (hfind : driver.erstFindRecord recordID = none)
    (maxLength : Nat) (buffer : List UInt8) :
    (erstReadRecord config recordID buffer maxLength driver).runFaults tape m =
      (some ((.notFound, buffer), driver), m) := by
  unfold erstReadRecord
  simp only [get_bind, hfind]
  rfl

theorem erstReadRecord_tooLong {recordID index maxLength : Nat}
    (hfind : driver.erstFindRecord recordID = some index)
    (hfits : ¬ (driver.info index).recordLength ≤ maxLength) (buffer : List UInt8) :
    (erstReadRecord config recordID buffer maxLength driver).runFaults tape m =
      (some ((.outOfResources, buffer), driver), m) := by
  unfold erstReadRecord
  simp only [get_bind, hfind, if_pos (Nat.lt_of_not_le hfits)]
  rfl

/-! What the register shows, from the status of the read. -/

/-- The errors of a header are no success in a `UINT32` either, and nothing the driver knows. -/
theorem acpi_throughUint32 (cper : List UInt8) (maxRecordLength : Nat) :
    erstEfiStatusToAcpiStatus
        (EfiCode.throughUint32 (erstValidateCperHeader cper maxRecordLength)) = acpiSuccess ↔
      erstValidateCperHeader cper maxRecordLength = .success := by
  rcases erstValidateCperHeader_cases cper maxRecordLength with h | h | h <;> rw [h] <;> decide

/-- What a read of a target comes to: its status is that of the header alone. -/
def Driver.readResult (config : Config) (driver : Driver) (request : Request)
    (ending : Ending EfiCode) (m : Memory) (record : CperInfo) : Result where
  acpiStatus := acpiSuccess
  efiStatus := EfiCode.throughUint32 (erstValidateCperHeader
    (driver.readCper config request ending m record) record.recordLength)
  recordID := driver.erstGetNextRecordID (driver.osRecordID request)
  errorLog := request.errorLog.take request.recordOffset ++
    driver.readCper config request ending m record

theorem handleRead_target {record : CperInfo} (h : record ∈ driver.readTarget config request) :
    (handleRead config request driver).runFaults tape m =
      (some (driver.readResult config request (tape 0) m record, driver), m) := by
  unfold Driver.readTarget at h
  split at h
  · simp at h
  · next hbuffer =>
    rw [not_or] at hbuffer
    obtain ⟨hsome, hfits⟩ := Option.filter_eq_some_iff.mp h
    obtain ⟨index, hfind, rfl⟩ := Option.map_eq_some_iff.mp hsome
    have hread := erstReadRecord_runFaults config driver request tape m hfind (by simpa using hfits)
    unfold handleRead
    simp only [get_bind, if_neg hbuffer.1, if_neg hbuffer.2]
    apply runFaults_bind hread
    intro rest
    simp only [EfiCode.isError_throughUint32]
    rfl

/-- Without a target the flash is not asked, and an error is reported. -/
theorem handleRead_noTarget (h : driver.readTarget config request = none) :
    ∃ result : Result, (handleRead config request driver).runFaults tape m =
        (some (result, driver), m) ∧
      (result.acpiStatus ≠ acpiSuccess ∨
        erstEfiStatusToAcpiStatus result.efiStatus ≠ acpiSuccess) := by
  unfold Driver.readTarget at h
  unfold handleRead
  simp only [get_bind]
  by_cases hempty : driver.recordCount = 0
  · have hstatus : acpiRecordStoreEmpty ≠ acpiSuccess := by decide
    rw [if_pos hempty]
    exact ⟨_, rfl, .inl hstatus⟩
  · by_cases hbuffer : request.recordOffset > config.errorLogLength - sizeofCperHeader
    · have hstatus : acpiNotEnoughSpace ≠ acpiSuccess := by decide
      rw [if_neg hempty, if_pos hbuffer]
      exact ⟨_, rfl, .inl hstatus⟩
    · rw [if_neg (not_or.mpr ⟨hempty, hbuffer⟩)] at h
      rw [if_neg hempty, if_neg hbuffer]
      cases hfind : driver.erstFindRecord (driver.osRecordID request) with
      | none =>
        have hread := erstReadRecord_notFound config driver tape m hfind
          (config.errorLogLength - request.recordOffset)
          (request.errorLog.drop request.recordOffset)
        have hstatus : erstEfiStatusToAcpiStatus .notFound ≠ acpiSuccess := by decide
        exact ⟨_, runFaults_bind hread fun rest => rfl, .inr hstatus⟩
      | some index =>
        have hfits : ¬ (driver.info index).recordLength ≤
            config.errorLogLength - request.recordOffset := by
          simpa [hfind, Option.filter_eq_none_iff] using h
        have hread := erstReadRecord_tooLong config driver tape m hfind hfits
          (request.errorLog.drop request.recordOffset)
        have hstatus : erstEfiStatusToAcpiStatus .outOfResources ≠ acpiSuccess := by decide
        exact ⟨_, runFaults_bind hread fun rest => rfl, .inr hstatus⟩

theorem report_runFaults (result : Result) :
    (report result driver).runFaults tape m = (some ({
      status := if result.acpiStatus = acpiSuccess then
          erstEfiStatusToAcpiStatus result.efiStatus else result.acpiStatus
      recordCount := driver.recordCount
      recordID := result.recordID
      errorLog := result.errorLog }, driver), m) := rfl

/-- For every state of the driver, every read and every answer of the flash: the report is honest
if and only if the flash has answered with a header that passes its checks, or what stands in the
buffer instead is no such header and there is no other record to go on to. -/
theorem read_honest_iff (config : Config) (driver : Driver) (fuel : Nat) (request : Request)
    (tape : Nat → Ending EfiCode) (m : Memory) :
    ∃ response, ((handleOperation config fuel { request with operation := operationRead } >>=
        report) driver).runFaults tape m = (some (response, driver), m) ∧
      (Honest config driver request (tape 0) m response ↔
        ∀ record ∈ driver.readTarget config request,
          driver.Genuine config request (tape 0) m record ∨
            driver.Detected config request (tape 0) m record) := by
  have hop : handleOperation config fuel { request with operation := operationRead } =
      handleRead config request := rfl
  rw [hop]
  cases htarget : driver.readTarget config request with
  | none =>
    obtain ⟨result, hrun, hstatus⟩ := handleRead_noTarget config driver request tape m htarget
    refine ⟨_, runFaults_bind hrun fun rest => report_runFaults driver rest m result, ?_⟩
    have herror : (if result.acpiStatus = acpiSuccess then
        erstEfiStatusToAcpiStatus result.efiStatus else result.acpiStatus) ≠ acpiSuccess := by
      split
      · next hacpi => exact hstatus.resolve_left fun h => h hacpi
      · next hacpi => exact hacpi
    simp [Honest, htarget, herror]
  | some record =>
    have hrun := handleRead_target config driver request tape m htarget
    refine ⟨_, runFaults_bind hrun fun rest => report_runFaults driver rest m _, ?_⟩
    have hstatus := acpi_throughUint32 (driver.readCper config request (tape 0) m record)
      record.recordLength
    simp only [Honest, htarget, Option.mem_def, Option.some.injEq, forall_eq', exists_eq_left',
      Driver.readResult, if_true, hstatus, ne_eq]
    constructor
    · intro h
      by_cases hgenuine : driver.Genuine config request (tape 0) m record
      · exact .inl hgenuine
      · exact .inr (h.2 hgenuine)
    · rintro (hgenuine | hdetected)
      · exact ⟨fun _ => hgenuine, fun h => absurd hgenuine h⟩
      · exact ⟨fun h => absurd h hdetected.1, fun _ => hdetected⟩

/-! A read that the flash refuses. -/

/-- The header of a record that was read before. -/
def staleCper : List UInt8 :=
  persist ([0x43, 0x50, 0x45, 0x52, 1, 1, 0xFF, 0xFF, 0xFF, 0xFF] ++ List.replicate 10 0 ++
    [128, 0, 0, 0] ++ List.replicate 72 0 ++ [7] ++ List.replicate 31 0) statusValid

def sampleConfig : Config where
  norErstOffset := 0
  memoryDensity := 4 * erstMinBlockSize
  norBlockSize := erstMinBlockSize
  blockSize := erstMinBlockSize
  numBlocks := 4
  maxRecords := 6144
  errorLogLength := 4096

/-- Two records of one block are tracked; the pools hold nothing yet. -/
def trackingDriver : Driver where
  blockInfo i := if i = 0 then ⟨2, 256, 0, 0⟩ else ⟨0, 0, 0, i * erstMinBlockSize⟩
  cperInfo := [⟨7, 128, 0⟩, ⟨8, 128, 128⟩]
  incomingCperInfo := none
  outgoingCperInfo := none
  mostRecentBlock := 0
  unsyncedSpinorChanges := 0
  shadowFlash := none
  recordPools := fun _ => ⟨List.replicate 4096 0, false⟩
  initStatus := .success
  allocated := true

def staleRequest : Request := ⟨operationRead, 0, 8, staleCper, true⟩

def refused : Ending EfiCode := .failed ⟨.deviceError, by decide⟩ 0

/-- The flash refuses to read record 8; the buffer still has record 7, and the report is success,
with the register on the next record. -/
theorem stale_read :
    ∃ response, ((handleOperation sampleConfig 0 staleRequest >>= report)
        trackingDriver).runFaults (fun _ => refused) (fun _ => erasedByte) =
          (some (response, trackingDriver), fun _ => erasedByte) ∧
      response.status = acpiSuccess ∧ response.recordID = 7 ∧
      ¬ Honest sampleConfig trackingDriver staleRequest refused (fun _ => erasedByte) response := by
  have htarget : trackingDriver.readTarget sampleConfig staleRequest = some ⟨8, 128, 128⟩ := by
    decide
  have hrun := handleRead_target sampleConfig trackingDriver staleRequest (fun _ => refused)
    (fun _ => erasedByte) htarget
  refine ⟨_, runFaults_bind hrun fun rest => report_runFaults trackingDriver rest _ _, ?_, ?_, ?_⟩
  · decide
  · decide
  · intro h
    obtain ⟨record, hrecord, hgenuine⟩ := h.1 (by decide)
    cases htarget.symm.trans hrecord
    have hrefused : (trackingDriver.spiNorRead sampleConfig refused (fun _ => erasedByte)
        ⟨8, 128, 128⟩).1 ≠ .success := by decide
    exact hrefused hgenuine.1

end Reports

end Erst
