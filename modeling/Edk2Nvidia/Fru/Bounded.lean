import Edk2Nvidia.Fru.Inventory

/-! How many requests the collection of the inventory takes, and where it stores what it gets. -/
namespace Fru
open Transition

variable (environment : Environment)

/-- The request the `n`-th pass over the device list begins with: a pass takes one request, or two
when its record locates a device. -/
def Environment.sdrRequest : Nat → Nat
  | 0 => 0
  | n + 1 =>
    sdrRequest n + if (environment.reply (sdrRequest n)).any isLocator then 2 else 1

/-- The devices found before the `n`-th pass. -/
def Environment.devicesBefore (n : Nat) : Nat := environment.sdrRequest n - n

/-- The `n`-th pass meets an error, the last record, or the last device there is room for. -/
def Environment.EndsAt (n : Nat) : Prop :=
  match environment.reply (environment.sdrRequest n) with
  | none => True
  | some response =>
    if isLocator response then
      match environment.reply (environment.sdrRequest n + 1) with
      | none => True
      | some response =>
        environment.allocates (environment.sdrRequest n + 2) = false ∨
          nextRecordId response = endOfSdrRecords ∨
          maxNumberOfFruDeviceIds ≤ environment.devicesBefore n + 1
    else nextRecordId response = endOfSdrRecords

/-- What holds of the device list before the `n`-th pass. -/
structure DeviceList.At (n : Nat) (list : DeviceList) : Prop where
  requests : list.requests.length = environment.sdrRequest n
  devices : list.devices.length + n = environment.sdrRequest n
  room : list.devices.length < maxNumberOfFruDeviceIds
  slots : list.slots = List.range list.devices.length

structure DeviceList.Left (n : Nat) (list : DeviceList) : Prop where
  requests : list.requests.length ≤ environment.sdrRequest n + 2
  slots : ∀ slot ∈ list.slots, slot < maxNumberOfFruDeviceIds

variable {environment}

theorem DeviceList.advance_cases {list : DeviceList} {response : Response} :
    (nextRecordId response ≠ endOfSdrRecords ∧ list.devices.length < maxNumberOfFruDeviceIds ∧
        list.advance response =
          .next { list with request := { list.request with recordId := nextRecordId response } }) ∨
      (nextRecordId response = endOfSdrRecords ∨ maxNumberOfFruDeviceIds ≤ list.devices.length) ∧
        ∃ list', list.advance response = .stop list' ∧ list'.requests = list.requests ∧
          list'.slots = list.slots := by
  unfold DeviceList.advance
  by_cases h : nextRecordId response ≠ endOfSdrRecords ∧
      list.devices.length < maxNumberOfFruDeviceIds
  · exact .inl ⟨h.1, h.2, if_pos h⟩
  · refine .inr ⟨?_, _, if_neg h, rfl, rfl⟩
    by_contra hnot
    exact h ⟨fun hend => hnot (.inl hend), Nat.lt_of_not_le fun hfull => hnot (.inr hfull)⟩

theorem DeviceList.At.pass {n : Nat} {list : DeviceList} (h : list.At environment n) :
    (environment.EndsAt n → ∃ list', list.pass environment = .stop list' ∧
        list'.Left environment n) ∧
      (¬ environment.EndsAt n → ∃ list', list.pass environment = .next list' ∧
        list'.At environment (n + 1)) := by
  have hrequests := h.requests
  have hdevices := h.devices
  have hroom := h.room
  have hslots : ∀ slot ∈ list.slots, slot < maxNumberOfFruDeviceIds := fun slot hslot => by
    rw [h.slots, List.mem_range] at hslot
    omega
  have hwritten : ∀ slot ∈ list.slots ++ [list.devices.length],
      slot < maxNumberOfFruDeviceIds := fun slot hslot => by
    rcases List.mem_append.mp hslot with hslot | hslot
    · exact hslots slot hslot
    · rw [List.mem_singleton.mp hslot]
      exact hroom
  unfold Environment.EndsAt DeviceList.pass
  rw [hrequests]
  cases hreply : environment.reply (environment.sdrRequest n) with
  | none =>
    refine ⟨fun _ => ⟨_, rfl, ?_, hslots⟩, fun hnot => absurd trivial hnot⟩
    simp [asked, hrequests]
  | some response =>
    dsimp only
    by_cases hlocator : isLocator response = true
    · have hnext : environment.sdrRequest (n + 1) = environment.sdrRequest n + 2 := by
        simp [Environment.sdrRequest, hreply, hlocator]
      have hasked : list.asked.requests.length = environment.sdrRequest n + 1 := by
        simp [asked, hrequests]
      simp only [if_pos hlocator, hasked]
      cases hlocated : environment.reply (environment.sdrRequest n + 1) with
      | none =>
        refine ⟨fun _ => ⟨_, rfl, ?_, hslots⟩, fun hnot => absurd trivial hnot⟩
        simp [asked, hrequests]
      | some located =>
        have htwice : (list.asked.requests ++ [(⟨sdrRecordId response, 32⟩ : GetSdrRequest)]).length =
            environment.sdrRequest n + 2 := by
          simp [hasked]
        simp only [asked] at htwice ⊢
        simp only [htwice]
        cases hallocates : environment.allocates (environment.sdrRequest n + 2) with
        | false =>
          refine ⟨fun _ => ⟨_, if_neg Bool.false_ne_true, ?_, hwritten⟩,
            fun hnot => absurd (.inl rfl) hnot⟩
          exact Nat.le_of_eq htwice
        | true =>
          simp only [if_true, Bool.true_eq_false, false_or]
          have hbefore : environment.devicesBefore n = list.devices.length := by
            unfold Environment.devicesBefore
            omega
          rw [hbefore]
          rcases @DeviceList.advance_cases
            { list with
              request := ⟨sdrRecordId response, 32⟩
              requests := list.requests ++ [list.request] ++ [⟨sdrRecordId response, 32⟩]
              devices := list.devices ++ [fruDevice located]
              slots := list.slots ++ [list.devices.length] } located with
            ⟨hmore, hfree, hadvance⟩ | ⟨hlast, list', hadvance, hsame, hsame'⟩
          · rw [hadvance]
            simp only [List.length_append, List.length_singleton] at hfree
            refine ⟨fun hends => absurd hends (by omega), fun _ => ⟨_, rfl, ?_, ?_, ?_, ?_⟩⟩
            · rw [hnext]
              exact htwice
            · simp
              omega
            · simpa using hfree
            · simp [h.slots, List.range_succ]
          · rw [hadvance]
            simp only [List.length_append, List.length_singleton] at hlast
            refine ⟨fun _ => ⟨list', rfl, ?_, ?_⟩, fun hnot => absurd hlast hnot⟩
            · rw [hsame]
              exact Nat.le_of_eq htwice
            · rw [hsame']
              exact hwritten
    · have hnext : environment.sdrRequest (n + 1) = environment.sdrRequest n + 1 := by
        simp [Environment.sdrRequest, hreply, hlocator]
      simp only [if_neg hlocator]
      rcases @DeviceList.advance_cases list.asked response with
        ⟨hmore, hfree, hadvance⟩ | ⟨hlast, list', hadvance, hsame, hsame'⟩
      · rw [hadvance]
        refine ⟨fun hends => absurd hends hmore, fun _ => ⟨_, rfl, ?_, ?_, hroom, h.slots⟩⟩
        · simp [asked, hrequests, hnext]
        · simp [asked]
          omega
      · have hlast := hlast.resolve_right (Nat.not_le.mpr hroom)
        rw [hadvance]
        refine ⟨fun _ => ⟨list', rfl, ?_, ?_⟩, fun hnot => absurd hlast hnot⟩
        · rw [hsame]
          simp [asked, hrequests]
        · rw [hsame']
          exact hslots

theorem DeviceList.counted :
    Counted (DeviceList.pass environment) (DeviceList.At environment) environment.EndsAt where
  stop _ _ h hends :=
    let ⟨list', hpass, _⟩ := h.pass.1 hends
    ⟨list', hpass⟩
  next _ _ h hends := h.pass.2 hends

theorem DeviceList.start_at : DeviceList.start.At environment 0 :=
  ⟨rfl, rfl, by decide, rfl⟩

theorem sdrRequest_le (n : Nat) : environment.sdrRequest n ≤ 2 * n := by
  induction n with
  | zero => exact le_rfl
  | succ n ih =>
    unfold Environment.sdrRequest
    split <;> omega

variable (environment) in
/-- So many passes are enough, with two requests each, and every device has its place. -/
def DevicesCollected (passes : Nat) : Prop :=
  ∃ final, updateFruDeviceIdList environment passes = some final ∧
    final.requests.length ≤ 2 * passes ∧ ∀ slot ∈ final.slots, slot < maxNumberOfFruDeviceIds

theorem devicesCollected_iff (passes : Nat) :
    DevicesCollected environment passes ↔ ∃ n < passes, environment.EndsAt n := by
  have hiff := DeviceList.counted.iterate_iff passes (@DeviceList.start_at environment)
  constructor
  · rintro ⟨final, hrun, -⟩
    obtain ⟨n, -, hlt, hends⟩ := hiff.mp ⟨final, hrun⟩
    exact ⟨n, by omega, hends⟩
  · rintro ⟨n, hlt, hends⟩
    obtain ⟨final, hrun⟩ := hiff.mpr ⟨n, Nat.zero_le n, by omega, hends⟩
    obtain ⟨last, list, -, hlast, hat, hend, hstop, -⟩ :=
      DeviceList.counted.iterate_some DeviceList.start_at hrun
    obtain ⟨list', hpass, hleft⟩ := hat.pass.1 hend
    rw [hstop] at hpass
    cases hpass
    refine ⟨final, hrun, ?_, hleft.slots⟩
    have hrequests := hleft.requests
    have hle := @sdrRequest_le environment last
    omega

variable (environment)

/-- The `n`-th multi-record: every record takes two requests. -/
def Environment.record (n : Nat) : Option MultiRecord :=
  match environment.reply (2 * n), environment.reply (2 * n + 1) with
  | some header, some data =>
    some ⟨multiRecordHeader header, data.bytes 2 (multiRecordHeader header).length.toNat⟩
  | _, _ => none

/-- Where the `n`-th multi-record begins. -/
def Environment.recordOffset (offset : Nat) : Nat → Nat
  | 0 => offset
  | n + 1 =>
    recordOffset offset n + 5 +
      match environment.record n with
      | some record => record.header.length.toNat
      | none => 0

/-- The `n`-th multi-record is one to store. -/
def Environment.Stores (offset n : Nat) : Prop :=
  ∃ record, environment.record n = some record ∧
    record.header.accepted (environment.recordOffset offset n) = true ∧
    environment.allocates (2 * n + 1) = true ∧
    calculateSum8 record.data + record.header.recordChecksum = 0

def Environment.Follows (offset n : Nat) : Prop :=
  environment.Stores offset n ∧ environment.allocates (2 * n + 2) = true ∧
    ∀ record, environment.record n = some record → record.header.endOfList = false

/-- What is stored are the records as they came; their data were read from the FRU. -/
structure MultiRecordArea.Kept (area : MultiRecordArea) : Prop where
  records : ∀ i record, area.records[i]? = some record → environment.record i = some record
  inside : ∀ i request, area.requests[2 * i + 1]? = some request →
    request.inventoryOffset + request.countToRead ≤ maxFruSize

structure MultiRecordArea.At (offset n : Nat) (area : MultiRecordArea) : Prop where
  offset : area.offset = environment.recordOffset offset n
  requests : area.requests.length = 2 * n
  records : area.records.length = n
  slots : area.slots = List.range n
  kept : area.Kept environment

structure MultiRecordArea.Left (offset n : Nat) (area : MultiRecordArea) : Prop where
  requests : area.requests.length ≤ 2 * n + 2
  slots : ∀ slot, slot ∈ area.slots ↔ slot < n ∨ slot = n ∧ environment.Stores offset n
  kept : area.Kept environment

variable {environment}

theorem MultiRecordArea.Kept.ask_header {area : MultiRecordArea} (h : area.Kept environment)
    {n : Nat} (hrequests : area.requests.length = 2 * n) (offset count : Nat) :
    (area.asked offset count).Kept environment where
  records := h.records
  inside i request hrequest := by
    unfold asked at hrequest
    rw [List.getElem?_append] at hrequest
    split at hrequest
    · exact h.inside i request hrequest
    · rw [List.getElem?_singleton] at hrequest
      split at hrequest
      · omega
      · cases hrequest

theorem MultiRecordArea.Kept.ask_data {area : MultiRecordArea} (h : area.Kept environment)
    {offset count : Nat} (hinside : offset + count ≤ maxFruSize) :
    (area.asked offset count).Kept environment where
  records := h.records
  inside i request hrequest := by
    unfold asked at hrequest
    rw [List.getElem?_append] at hrequest
    split at hrequest
    · exact h.inside i request hrequest
    · rw [List.getElem?_singleton] at hrequest
      split at hrequest
      · cases hrequest
        exact hinside
      · cases hrequest

theorem accepted_inside {header : MultiRecordHeader} {offset : Nat}
    (h : header.accepted offset = true) : offset + 5 + header.length.toNat ≤ maxFruSize := by
  have hlength := header.length.toNat_lt
  unfold MultiRecordHeader.accepted maxFruSize at h
  unfold maxFruSize
  obtain ⟨-, -, hoffset⟩ := of_decide_eq_true h
  omega

theorem Environment.stores_iff (offset : Nat) {n : Nat} {header data : Response}
    (hheader : environment.reply (2 * n) = some header)
    (hdata : environment.reply (2 * n + 1) = some data) :
    environment.Stores offset n ↔
      (multiRecordHeader header).accepted (environment.recordOffset offset n) = true ∧
        environment.allocates (2 * n + 1) = true ∧
        calculateSum8 (data.bytes 2 (multiRecordHeader header).length.toNat) +
          (multiRecordHeader header).recordChecksum = 0 := by
  simp [Environment.Stores, Environment.record, hheader, hdata]

theorem MultiRecordArea.At.left {offset n : Nat} {area area' : MultiRecordArea}
    (h : area.At environment offset n) (hrequests : area'.requests.length ≤ 2 * n + 2)
    (hslots : area'.slots = area.slots) (hkept : area'.Kept environment)
    (hstores : ¬ environment.Stores offset n) : area'.Left environment offset n where
  requests := hrequests
  slots slot := by
    rw [hslots, h.slots, List.mem_range]
    exact ⟨.inl, fun hslot => hslot.resolve_right fun hlast => hstores hlast.2⟩
  kept := hkept

theorem MultiRecordArea.store_cases (read : MultiRecordArea) {offset n : Nat} {record : MultiRecord}
    (hoffset : read.offset = environment.recordOffset offset n)
    (hrequests : read.requests.length = 2 * n + 2) (hrecords : read.records.length = n)
    (hslots : read.slots = List.range n) (hkept : read.Kept environment)
    (hstores : environment.Stores offset n) (hrecord : environment.record n = some record) :
    (¬ environment.Follows offset n → ∃ area',
      (if ¬ environment.allocates (2 * n + 2) = true then
          Pass.stop { read with slots := read.slots ++ [read.records.length] }
        else if record.header.endOfList = true then
          .stop { read with
            slots := read.slots ++ [read.records.length]
            records := read.records ++ [record]
            offset := read.offset + 5 + record.header.length.toNat }
        else .next { read with
          slots := read.slots ++ [read.records.length]
          records := read.records ++ [record]
          offset := read.offset + 5 + record.header.length.toNat }) = .stop area' ∧
        area'.Left environment offset n) ∧
    (environment.Follows offset n → ∃ area',
      (if ¬ environment.allocates (2 * n + 2) = true then
          Pass.stop { read with slots := read.slots ++ [read.records.length] }
        else if record.header.endOfList = true then
          .stop { read with
            slots := read.slots ++ [read.records.length]
            records := read.records ++ [record]
            offset := read.offset + 5 + record.header.length.toNat }
        else .next { read with
          slots := read.slots ++ [read.records.length]
          records := read.records ++ [record]
          offset := read.offset + 5 + record.header.length.toNat }) = .next area' ∧
        area'.At environment offset (n + 1)) := by
  have hwritten : read.slots ++ [read.records.length] = List.range (n + 1) := by
    rw [hslots, hrecords, List.range_succ]
  have hmem : ∀ slot, slot ∈ read.slots ++ [read.records.length] ↔
      slot < n ∨ slot = n ∧ environment.Stores offset n := fun slot => by
    rw [hwritten, List.mem_range, and_iff_left hstores]
    omega
  have hstored : ∀ i stored, (read.records ++ [record])[i]? = some stored →
      environment.record i = some stored := fun i stored hi => by
    rw [List.getElem?_append] at hi
    split at hi
    · exact hkept.records i stored hi
    · next hlt =>
      rw [List.getElem?_singleton] at hi
      split at hi
      · cases hi
        rw [show i = n by omega]
        exact hrecord
      · cases hi
  by_cases hallocates : environment.allocates (2 * n + 2) = true
  · simp only [if_neg (not_not.mpr hallocates)]
    cases hend : record.header.endOfList with
    | true =>
      have hlast : ¬ environment.Follows offset n := fun hf => by
        have hfollows := hf.2.2 record hrecord
        rw [hend] at hfollows
        cases hfollows
      exact ⟨fun _ => ⟨_, if_pos rfl, ⟨Nat.le_of_eq hrequests, hmem, ⟨hstored, hkept.inside⟩⟩⟩,
        fun hf => absurd hf hlast⟩
    | false =>
      have hfollows : environment.Follows offset n := ⟨hstores, hallocates, fun other hother => by
        rw [hrecord] at hother
        cases hother
        exact hend⟩
      refine ⟨fun hlast => absurd hfollows hlast,
        fun _ => ⟨_, if_neg Bool.false_ne_true, ?_, ?_, ?_, hwritten, ⟨hstored, hkept.inside⟩⟩⟩
      · simp only [Environment.recordOffset, hrecord, hoffset]
      · simp only [hrequests]
        omega
      · simp only [List.length_append, hrecords, List.length_singleton]
  · simp only [if_pos hallocates]
    exact ⟨fun _ => ⟨_, rfl, ⟨Nat.le_of_eq hrequests, hmem, ⟨hkept.records, hkept.inside⟩⟩⟩,
      fun hf => absurd hf.2.1 hallocates⟩

theorem MultiRecordArea.At.pass {offset n : Nat} {area : MultiRecordArea}
    (h : area.At environment offset n) :
    (¬ environment.Follows offset n → ∃ area', area.pass environment = .stop area' ∧
        area'.Left environment offset n) ∧
      (environment.Follows offset n → ∃ area', area.pass environment = .next area' ∧
        area'.At environment offset (n + 1)) := by
  have hrequests := h.requests
  have hasked : (area.asked area.offset 5).requests.length = 2 * n + 1 := by
    simp [asked, hrequests]
  have hkept := h.kept.ask_header hrequests area.offset 5
  unfold MultiRecordArea.pass
  simp only [hrequests, hasked]
  cases hheader : environment.reply (2 * n) with
  | none =>
    have hnone : ¬ environment.Stores offset n := by
      rintro ⟨record, hrecord, -⟩
      simp [Environment.record, hheader] at hrecord
    exact ⟨fun _ => ⟨_, rfl, h.left (by omega) rfl hkept hnone⟩, fun hf => absurd hf.1 hnone⟩
  | some header =>
    dsimp only
    by_cases haccepted : (multiRecordHeader header).accepted area.offset = true
    · rw [if_neg (not_not.mpr haccepted)]
      have hinside := accepted_inside haccepted
      by_cases hallocates : environment.allocates (2 * n + 1) = true
      · rw [if_neg (not_not.mpr hallocates)]
        have hkept := hkept.ask_data hinside
        have hasked' : ((area.asked area.offset 5).asked (area.offset + 5)
            (multiRecordHeader header).length.toNat).requests.length = 2 * n + 2 := by
          simp [asked, hrequests]
        cases hdata : environment.reply (2 * n + 1) with
        | none =>
          have hnone : ¬ environment.Stores offset n := by
            rintro ⟨record, hrecord, -⟩
            simp [Environment.record, hheader, hdata] at hrecord
          exact ⟨fun _ => ⟨_, rfl, h.left (by omega) rfl hkept hnone⟩,
            fun hf => absurd hf.1 hnone⟩
        | some data =>
          have hiff := Environment.stores_iff offset hheader hdata
          rw [← h.offset] at hiff
          dsimp only
          by_cases hsum : calculateSum8 (data.bytes 2 (multiRecordHeader header).length.toNat) +
              (multiRecordHeader header).recordChecksum = 0
          · rw [if_neg (not_not.mpr hsum)]
            have hstores := hiff.mpr ⟨haccepted, hallocates, hsum⟩
            have hrecord : environment.record n = some ⟨multiRecordHeader header,
                data.bytes 2 (multiRecordHeader header).length.toNat⟩ := by
              simp only [Environment.record, hheader, hdata]
            simp only [hasked']
            exact MultiRecordArea.store_cases ((area.asked area.offset 5).asked (area.offset + 5)
              (multiRecordHeader header).length.toNat) h.offset hasked' h.records h.slots hkept
              hstores hrecord
          · rw [if_pos hsum]
            have hnone : ¬ environment.Stores offset n := fun hstores => hsum (hiff.mp hstores).2.2
            exact ⟨fun _ => ⟨_, rfl, h.left (by omega) rfl hkept hnone⟩,
              fun hf => absurd hf.1 hnone⟩
      · rw [if_pos hallocates]
        have hnone : ¬ environment.Stores offset n := by
          rintro ⟨record, -, -, hallocated, -⟩
          exact hallocates hallocated
        exact ⟨fun _ => ⟨_, rfl, h.left (by omega) rfl hkept hnone⟩, fun hf => absurd hf.1 hnone⟩
    · rw [if_pos haccepted]
      have hnone : ¬ environment.Stores offset n := by
        rintro ⟨record, hrecord, haccepted', -⟩
        cases hdata : environment.reply (2 * n + 1) with
        | none => simp [Environment.record, hheader, hdata] at hrecord
        | some data =>
          simp only [Environment.record, hheader, hdata, Option.some.injEq] at hrecord
          rw [← hrecord, ← h.offset] at haccepted'
          exact haccepted haccepted'
      exact ⟨fun _ => ⟨_, rfl, h.left (by omega) rfl hkept hnone⟩, fun hf => absurd hf.1 hnone⟩

theorem MultiRecordArea.counted (environment : Environment) (offset : Nat) :
    Counted (MultiRecordArea.pass environment) (MultiRecordArea.At environment offset)
      fun n => ¬ environment.Follows offset n where
  stop _ _ h hends :=
    let ⟨area', hpass, _⟩ := h.pass.1 hends
    ⟨area', hpass⟩
  next _ _ h hends := h.pass.2 (not_not.mp hends)

theorem MultiRecordArea.start_at (environment : Environment) (offset : Nat) :
    (⟨offset, [], [], []⟩ : MultiRecordArea).At environment offset 0 :=
  ⟨rfl, rfl, rfl, rfl, ⟨fun i record h => by simp at h, fun i request h => by simp at h⟩⟩

/-- A record that is stored lies inside the FRU, so the next one begins further on. -/
theorem Environment.Follows.offset {offset n : Nat} (h : environment.Follows offset n) :
    environment.recordOffset offset n + 5 ≤ environment.recordOffset offset (n + 1) ∧
      environment.recordOffset offset (n + 1) ≤ maxFruSize := by
  obtain ⟨record, hrecord, haccepted, -⟩ := h.1
  have hinside := accepted_inside haccepted
  simp only [Environment.recordOffset, hrecord]
  omega

theorem not_follows_820 (offset : Nat) : ∃ n < 820, ¬ environment.Follows offset n := by
  by_contra hnot
  have hall : ∀ n < 820, environment.Follows offset n := fun n hn => by
    by_contra hf
    exact hnot ⟨n, hn, hf⟩
  have hgrow : ∀ n ≤ 820, 5 * n ≤ environment.recordOffset offset n := fun n hn => by
    induction n with
    | zero => exact Nat.zero_le _
    | succ n ih =>
      have hnext := (hall n (by omega)).offset.1
      have hbefore := ih (by omega)
      omega
  have hlast : environment.recordOffset offset 820 ≤ maxFruSize := (hall 819 (by decide)).offset.2
  have hgrown := hgrow 820 le_rfl
  unfold maxFruSize at hlast
  omega

variable (environment) in
/-- The multi-records of a device are read within a bounded number of requests inside the FRU, and
the records read are stored in order in the places there are. -/
def RecordsCollected (offset : Nat) : Prop :=
  ∃ final, readFruMultiRecordArea environment offset 820 = some final ∧
    final.requests.length ≤ 2 * 820 ∧ (∀ slot ∈ final.slots, slot < maxFruMultiRecords) ∧
    final.Kept environment

theorem recordsCollected_iff (offset : Nat) :
    RecordsCollected environment offset ↔
      ¬ ((∀ n < maxFruMultiRecords, environment.Follows offset n) ∧
        environment.Stores offset maxFruMultiRecords) := by
  obtain ⟨n, hn, hends⟩ := @not_follows_820 environment offset
  obtain ⟨final, hrun⟩ := ((MultiRecordArea.counted environment offset).iterate_iff 820
    (MultiRecordArea.start_at environment offset)).mpr ⟨n, Nat.zero_le n, by omega, hends⟩
  obtain ⟨last, area, -, hlast, hat, hend, hstop, hbefore⟩ :=
    (MultiRecordArea.counted environment offset).iterate_some
      (MultiRecordArea.start_at environment offset) hrun
  obtain ⟨area', hpass, hleft⟩ := hat.pass.1 hend
  rw [hstop] at hpass
  cases hpass
  have hfollows : ∀ k < last, environment.Follows offset k := fun k hk =>
    not_not.mp (hbefore k (Nat.zero_le k) hk)
  constructor
  · rintro ⟨final', hrun', -, hslots, -⟩ ⟨hall, hninth⟩
    unfold readFruMultiRecordArea at hrun'
    rw [hrun] at hrun'
    cases hrun'
    have hle : maxFruMultiRecords ≤ last := by
      by_contra hlt
      exact hend (hall last (by omega))
    have hslot := hslots maxFruMultiRecords ((hleft.slots _).mpr ?_)
    · exact Nat.lt_irrefl _ hslot
    · rcases Nat.eq_or_lt_of_le hle with heq | hlt
      · exact .inr ⟨heq, heq ▸ hninth⟩
      · exact .inl hlt
  · intro hroom
    have hrequests := hleft.requests
    refine ⟨final, hrun, by omega, fun slot hslot => ?_, hleft.kept⟩
    by_contra hge
    apply hroom
    rcases (hleft.slots slot).mp hslot with hlt | ⟨rfl, hstores⟩
    · exact ⟨fun k hk => hfollows k (by omega), (hfollows maxFruMultiRecords (by omega)).1⟩
    · refine ⟨fun k hk => hfollows k (by omega), ?_⟩
      rcases Nat.eq_or_lt_of_le (Nat.not_lt.mp hge) with heq | hlt
      · rw [heq]
        exact hstores
      · exact (hfollows maxFruMultiRecords hlt).1

/-- The collection of both, with at most one pass over the device list for each record id. -/
theorem collected_iff (sdr fru : Environment) (offset : Nat) :
    DevicesCollected sdr (2 ^ 16) ∧ RecordsCollected fru offset ↔
      (∃ n < 2 ^ 16, sdr.EndsAt n) ∧
        ¬ ((∀ n < maxFruMultiRecords, fru.Follows offset n) ∧
          fru.Stores offset maxFruMultiRecords) :=
  and_congr (devicesCollected_iff _) (recordsCollected_iff _)

/-- A BMC whose records are no locators, each followed by record 0. -/
def cycle : Environment := ⟨fun _ => some fun _ => 0, fun _ => true⟩

/-- A BMC whose multi-records are empty and never the last one. -/
def emptyRecords : Environment where
  answer _ := some fun
    | 3 => 2
    | 6 => 0xFE
    | _ => 0
  allocates _ := true

theorem cycle_not_endsAt (n : Nat) : ¬ cycle.EndsAt n := by
  intro h
  change (0 : Nat) = endOfSdrRecords at h
  exact absurd h (by decide)

theorem emptyRecords_offset (n : Nat) : emptyRecords.recordOffset 0 n = 5 * n := by
  induction n with
  | zero => rfl
  | succ n ih =>
    change emptyRecords.recordOffset 0 n + 5 + 0 = 5 * (n + 1)
    omega

theorem emptyRecords_stores {n : Nat} (hn : n < 9) : emptyRecords.Stores 0 n := by
  have haccepted : ∀ n < 9, (⟨0, 2, 0, 0, 0xFE⟩ : MultiRecordHeader).accepted (5 * n) = true := by
    decide
  refine ⟨⟨⟨0, 2, 0, 0, 0xFE⟩, []⟩, rfl, ?_, rfl, rfl⟩
  rw [emptyRecords_offset]
  exact haccepted n hn

/-- The walk along the device list never ends, and the ninth multi-record is stored too. -/
theorem not_collected : ¬ (∃ passes, DevicesCollected cycle passes) ∧
    ¬ RecordsCollected emptyRecords 0 := by
  refine ⟨fun ⟨passes, hpasses⟩ => ?_, fun hrecords => ?_⟩
  · obtain ⟨n, -, hends⟩ := (devicesCollected_iff passes).mp hpasses
    exact cycle_not_endsAt n hends
  · refine (recordsCollected_iff 0).mp hrecords ⟨fun n hn => ?_, emptyRecords_stores (by decide)⟩
    refine ⟨emptyRecords_stores (Nat.lt_succ_of_lt hn), rfl, fun record hrecord => ?_⟩
    cases hrecord
    rfl

end Fru
