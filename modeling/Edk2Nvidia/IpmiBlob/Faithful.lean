import Edk2Nvidia.IpmiBlob.Exchange

/-! Which operations hand the BMC exactly their arguments and stay inside their buffers. -/
namespace IpmiBlob
open Flash Parse

/-- An operation with its arguments. `metadata` and `pointers` say that the pointers to the
results are given. -/
inductive Operation where
  | getCount
  | enumerate (blobIndex : UInt32)
  | open (blobId : CString) (flags : UInt16)
  | read (sessionId : UInt16) (offset requestedSize : UInt32)
  | write (sessionId : UInt16) (offset : UInt32) (data : Data 32)
  | commit (sessionId : UInt16) (commitData : Data 8)
  | close (sessionId : UInt16)
  | delete (blobId : CString)
  | stat (blobId : CString) (metadata : Bool)
  | sessionStat (sessionId : UInt16) (pointers : Bool)
  | writeMeta (sessionId : UInt16) (offset : UInt32) (data : Data 32)

/-- A name in a field of a whole packet. -/
def blobIdField (blobId : CString) : List UInt8 :=
  blobId.terminated ++ List.replicate (maxDataPerPacket - blobId.size) 0

namespace Operation

def sub : Operation → SubCommand
  | getCount => .getCount
  | enumerate _ => .enumerate
  | .open _ _ => .open
  | read _ _ _ => .read
  | write _ _ _ => .write
  | commit _ _ => .commit
  | close _ => .close
  | delete _ => .delete
  | stat _ _ => .stat
  | sessionStat _ _ => .sessionStat
  | writeMeta _ _ _ => .writeMeta

/-- The arguments in the layout of the request structures; `none` when they do not fit. -/
def arguments : Operation → Option (List UInt8)
  | getCount => some []
  | enumerate blobIndex => some (toLittleEndian 4 blobIndex.toNat)
  | .open blobId flags =>
    if blobId.size ≤ maxDataPerPacket then some (toLittleEndian 2 flags.toNat ++ blobId.terminated)
    else none
  | read sessionId offset requestedSize =>
    some (toLittleEndian 2 sessionId.toNat ++ toLittleEndian 4 offset.toNat ++
      toLittleEndian 4 requestedSize.toNat)
  | write sessionId offset data =>
    if data.bytes.length + 12 < 2 ^ 32 then
      some (toLittleEndian 2 sessionId.toNat ++ toLittleEndian 4 offset.toNat ++ data.bytes)
    else none
  | commit sessionId commitData =>
    some (toLittleEndian 2 sessionId.toNat ++ [UInt8.ofNat commitData.bytes.length] ++
      commitData.bytes)
  | close sessionId => some (toLittleEndian 2 sessionId.toNat)
  | delete blobId =>
    if blobId.size ≤ maxDataPerPacket then some (blobIdField blobId) else none
  | stat blobId _ =>
    if blobId.size ≤ maxDataPerPacket then some (blobIdField blobId) else none
  | sessionStat sessionId _ => some (toLittleEndian 2 sessionId.toNat)
  | writeMeta sessionId offset data =>
    if data.bytes.length ≤ maxDataPerPacket then
      some (toLittleEndian 2 sessionId.toNat ++ toLittleEndian 4 offset.toNat ++ data.bytes)
    else none

/-- What looks for a name before it is opened. -/
def Searches : Operation → List UInt8 → Prop
  | .open _ _, bytes =>
    bytes = frame .getCount [] ∨
      ∃ blobIndex : UInt32, bytes = frame .enumerate (toLittleEndian 4 blobIndex.toNat)
  | _, _ => False

/-- The bytes are a request of this operation. -/
def Sends (op : Operation) (bytes : List UInt8) : Prop :=
  (∃ arguments ∈ op.arguments, bytes = frame op.sub arguments) ∨ op.Searches bytes

section
variable (environments : Nat → Environment) (fuel : Nat)

def perform : Operation → Call (Option Status)
  | getCount => do
    let (status, _) ← ipmiBlobTransferGetCount (environments 0)
    return some status
  | enumerate blobIndex => do
    let (status, _) ← ipmiBlobTransferEnumerate (environments 0) blobIndex
    return some status
  | .open blobId flags => do
    let result ← ipmiBlobTransferOpen environments fuel blobId flags
    return result.map Prod.fst
  | read sessionId offset requestedSize => do
    let (status, _) ← ipmiBlobTransferRead (environments 0) sessionId offset requestedSize
    return some status
  | write sessionId offset data => do
    let status ← ipmiBlobTransferWrite (environments 0) sessionId offset data
    return some status
  | commit sessionId commitData => do
    let status ← ipmiBlobTransferCommit (environments 0) sessionId commitData
    return some status
  | close sessionId => do
    let status ← ipmiBlobTransferClose (environments 0) sessionId
    return some status
  | delete blobId => do
    let status ← ipmiBlobTransferDelete (environments 0) blobId
    return some status
  | stat blobId metadata => do
    let (status, _) ← ipmiBlobTransferStat (environments 0) blobId metadata
    return some status
  | sessionStat sessionId pointers => do
    let (status, _) ← ipmiBlobTransferSessionStat (environments 0) sessionId pointers
    return some status
  | writeMeta sessionId offset data => do
    let status ← ipmiBlobTransferWriteMeta (environments 0) sessionId offset data
    return some status

/-- Only requests of this operation go out, no buffer is left, and arguments that do not fit
are refused. -/
structure Faithful (op : Operation) : Prop where
  sends : (op.perform environments fuel).Only fun e => op.Sends e.bytes
  inBounds : (op.perform environments fuel).InBounds
  refused : op.arguments = none → (op.perform environments fuel).value ≠ some .success

end

/-- What the arguments, the pool and the BMC have to be like for an operation that goes wrong
otherwise. -/
def Served (environment : Environment) : Operation → Prop
  | write _ _ data =>
    environment.refuses .request = false →
      data.bytes.length + 6 < 2 ^ 32 ∧
        (environment.refuses .ipmiRequest = false → data.bytes.length + 12 < 2 ^ 32)
  | delete blobId => Handed environment [.request] → blobId.chars = []
  | stat blobId metadata =>
    metadata = true → Handed environment [.response, .request] →
      blobId.size ≤ maxDataPerPacket ∧ ¬ Accepted 71 environment.answer
  | sessionStat _ pointers =>
    pointers = true → Handed environment [.response, .request] → ¬ Accepted 71 environment.answer
  | writeMeta _ _ data =>
    environment.refuses .request = false →
      data.bytes.length ≤ maxDataPerPacket ∧
        (Handed environment [.request] → data.bytes.length = maxDataPerPacket)
  | _ => True

end Operation

section
variable {environment : Environment} {sub : SubCommand} {data : List UInt8}
  {responseDataSize size : Nat} {fields : List (List UInt8)} {allocations : List Allocation}

theorem frame_injective {first second : List UInt8} (hfirst : first ≠ []) (hsecond : second ≠ [])
    (h : frame sub first = frame sub second) : first = second := by
  unfold frame at h
  rw [if_neg hfirst, if_neg hsecond] at h
  have hrest := List.append_cancel_left h
  exact (List.append_inj hrest (by simp)).2

theorem requestBytes_ne_nil (h : 0 < size) (fields : List (List UInt8)) :
    requestBytes size fields ≠ [] := by
  intro hnil
  have hlength := length_requestBytes size fields
  rw [hnil] at hlength
  exact absurd hlength (Nat.ne_of_lt h)

theorem requestBytes_blobId {blobId : CString} (h : blobId.size ≤ maxDataPerPacket) :
    requestBytes maxDataPerPacket [blobId.terminated] = blobIdField blobId := by
  unfold requestBytes blobIdField
  rw [List.flatten_singleton, List.take_append, List.take_of_length_le (by simpa using h),
    List.take_replicate, CString.length_terminated, Nat.min_eq_left (Nat.sub_le _ _)]

/-- An exchange whose fields fit, and whose request is right, stays inside its buffers exactly
when the response is framed. -/
theorem exchange_faithful (environment : Environment) (allocations : List Allocation)
    (sub : SubCommand) (responseDataSize : Nat) (P : List UInt8 → Prop)
    (hfields : fields.flatten.length ≤ size) (hsize : size + 6 < 2 ^ 32)
    (hsends : Handed environment allocations → P (frame sub (requestBytes size fields))) :
    (exchange environment allocations sub size fields responseDataSize).Only (fun e => P e.bytes) ∧
      ((exchange environment allocations sub size fields responseDataSize).InBounds ↔
        (exchange environment allocations sub size fields responseDataSize).Only
          Exchange.Framed) := by
  by_cases h : Handed environment allocations
  · obtain ⟨hbounds, honly, -⟩ :=
      exchange_of_handed environment sub responseDataSize hfields hsize h
    exact ⟨(honly _).mpr (hsends h), hbounds.trans (honly Exchange.Framed).symm⟩
  · obtain ⟨hbounds, honly, -⟩ :=
      exchange_of_refused environment sub responseDataSize hfields (fun _ => hsize) h
    exact ⟨honly _, iff_of_true hbounds (honly _)⟩

theorem length_exchange (hfields : fields.flatten.length ≤ size) (hsize : size + 6 < 2 ^ 32)
    (h : (exchange environment allocations sub size fields responseDataSize).InBounds) :
    (exchange environment allocations sub size fields responseDataSize).value.2.length ≤
      responseDataSize := by
  by_cases hhanded : Handed environment allocations
  · obtain ⟨hbounds, -, hvalue⟩ :=
      exchange_of_handed environment sub responseDataSize hfields hsize hhanded
    rw [hvalue]
    exact length_answered (hbounds.mp h)
  · obtain ⟨-, -, hvalue⟩ :=
      exchange_of_refused environment sub responseDataSize hfields (fun _ => hsize) hhanded
    rw [hvalue]
    exact Nat.zero_le _

end

theorem copyBlobId_inBounds {status : Status} {response : List UInt8}
    (h : response.length ≤ maxDataPerPacket) : (copyBlobId status response).InBounds := by
  unfold copyBlobId
  split
  · exact Logged.inBounds_pure _
  · rename_i name hname
    have hsize : name.size ≤ response.length := by
      split at hname
      · unfold asciiStrCpyS at hname
        split at hname
        · cases hname
          assumption
        · cases hname
      · cases hname
    simp only [Logged.inBounds_bind, Logged.inBounds_access, Logged.inBounds_pure, and_true]
    omega

theorem copyBlobId_only (P : Exchange → Prop) (status : Status) (response : List UInt8) :
    (copyBlobId status response).Only P := by
  unfold copyBlobId
  split <;> simp

theorem copyBlobId_fits {status : Status} {response : List UInt8}
    (h : (copyBlobId status response).InBounds) :
    ∀ name ∈ (copyBlobId status response).value.2, name.size ≤ maxDataPerPacket := by
  revert h
  unfold copyBlobId
  split
  · exact fun _ => nofun
  · rename_i name _
    intro h found hfound
    cases hfound
    simpa using h

theorem copyStatistics_inBounds (status : Status) (response : List UInt8) :
    (copyStatistics status response).InBounds ↔ status ≠ .success := by
  unfold copyStatistics
  split
  · rename_i h
    exact iff_of_false (by simp [maxDataPerPacket]) fun hne => hne h
  · rename_i h
    exact iff_of_true (Logged.inBounds_pure _) h

theorem copyStatistics_only (P : Exchange → Prop) (status : Status) (response : List UInt8) :
    (copyStatistics status response).Only P := by
  unfold copyStatistics
  split <;> simp

namespace Operation

variable {environments : Nat → Environment} {fuel : Nat} {op : Operation}

theorem arguments_ne_nil (hop : op.sub ≠ .getCount) : op.arguments ≠ some [] := by
  cases op with
  | getCount => exact absurd rfl hop
  | enumerate blobIndex => simp [arguments, toLittleEndian]
  | «open» blobId flags => simp [arguments, toLittleEndian]
  | read sessionId offset requestedSize => simp [arguments, toLittleEndian]
  | write sessionId offset data => simp [arguments, toLittleEndian]
  | commit sessionId commitData => simp [arguments, toLittleEndian]
  | close sessionId => simp [arguments, toLittleEndian]
  | delete blobId => simp [arguments, blobIdField, CString.terminated]
  | stat blobId metadata => simp [arguments, blobIdField, CString.terminated]
  | sessionStat sessionId pointers => simp [arguments, toLittleEndian]
  | writeMeta sessionId offset data => simp [arguments, toLittleEndian]

theorem Sends.arguments_eq {data : List UInt8} (h : op.Sends (frame op.sub data))
    (hsearch : ∀ bytes, ¬ op.Searches bytes) (hsome : op.arguments ≠ some []) (hne : data ≠ []) :
    op.arguments = some data := by
  rcases h with ⟨arguments, harguments, heq⟩ | h
  · have hnonempty : arguments ≠ [] := fun hnil => hsome (hnil ▸ harguments)
    rw [frame_injective hne hnonempty heq]
    exact harguments
  · exact absurd h (hsearch _)

section
variable (allocations : List Allocation) (size : Nat) (fields : List (List UInt8))
  (responseDataSize : Nat) (rest : Status × List UInt8 → Call (Option Status))
  (hperform : op.perform environments fuel =
    exchange (environments 0) allocations op.sub size fields responseDataSize >>= rest)
include hperform

theorem faithful_of_refused (hrest : (rest (.outOfResources, [])).InBounds)
    (hgivesUp : (rest (.outOfResources, [])).value = some .outOfResources)
    (honly : ∀ P answer, (rest answer).Only P) (hfields : fields.flatten.length ≤ size)
    (hsize : (environments 0).refuses .ipmiRequest = false → size + 6 < 2 ^ 32)
    (h : ¬ Handed (environments 0) allocations) :
    op.Faithful environments fuel ∧ (op.perform environments fuel).Only Exchange.Framed := by
  obtain ⟨hbounds, hevents, hvalue⟩ :=
    exchange_of_refused (environments 0) op.sub responseDataSize hfields hsize h
  have hall : ∀ P, (op.perform environments fuel).Only P := by
    intro P
    rw [hperform, Logged.only_bind]
    exact ⟨hevents P, honly P _⟩
  refine ⟨⟨hall _, ?_, fun _ => ?_⟩, hall _⟩
  · rw [hperform, Logged.inBounds_bind, hvalue]
    exact ⟨hbounds, hrest⟩
  · rw [hperform, Logged.value_bind, hvalue, hgivesUp]
    exact nofun

theorem framed_of_only (hfields : fields.flatten.length ≤ size) (hsize : size + 6 < 2 ^ 32)
    (hframed : (op.perform environments fuel).Only Exchange.Framed)
    (h : Handed (environments 0) allocations) :
    Framed responseDataSize (environments 0).answer := by
  rw [hperform, Logged.only_bind] at hframed
  exact ((exchange_of_handed (environments 0) op.sub responseDataSize hfields hsize h).2.1 _).mp
    hframed.1

/-- An operation of one exchange whose fields fit: all depends on what goes out and what is
done with the answer. -/
theorem faithful_iff_of_exchange (hrest : (rest (.outOfResources, [])).InBounds)
    (hgivesUp : (rest (.outOfResources, [])).value = some .outOfResources)
    (honly : ∀ P answer, (rest answer).Only P) (hfields : fields.flatten.length ≤ size)
    (hsize : size + 6 < 2 ^ 32) :
    op.Faithful environments fuel ↔
      (op.perform environments fuel).Only Exchange.Framed ∧
        (Handed (environments 0) allocations →
          op.Sends (frame op.sub (requestBytes size fields)) ∧
            (rest (answered responseDataSize (environments 0).answer)).InBounds ∧
            (op.arguments = none →
              (rest (answered responseDataSize (environments 0).answer)).value ≠
                some .success)) := by
  by_cases h : Handed (environments 0) allocations
  · obtain ⟨hbounds, hevents, hvalue⟩ :=
      exchange_of_handed (environments 0) op.sub responseDataSize hfields hsize h
    have hperformOnly : ∀ P, (op.perform environments fuel).Only P ↔
        P ⟨frame op.sub (requestBytes size fields), responseDataSize, environments 0⟩ := by
      intro P
      rw [hperform, Logged.only_bind, hevents]
      exact and_iff_left (honly P _)
    constructor
    · rintro ⟨hsends, hin, hrefused⟩
      rw [hperform, Logged.inBounds_bind, hbounds, hvalue] at hin
      rw [hperform, Logged.value_bind, hvalue] at hrefused
      exact ⟨(hperformOnly _).mpr hin.1, fun _ => ⟨(hperformOnly _).mp hsends, hin.2, hrefused⟩⟩
    · rintro ⟨hframed, hgood⟩
      have hframed : Framed responseDataSize (environments 0).answer := (hperformOnly _).mp hframed
      obtain ⟨hsends, hin, hrefused⟩ := hgood h
      refine ⟨(hperformOnly _).mpr hsends, ?_, fun hnone => ?_⟩
      · rw [hperform, Logged.inBounds_bind, hbounds, hvalue]
        exact ⟨hframed, hin⟩
      · rw [hperform, Logged.value_bind, hvalue]
        exact hrefused hnone
  · obtain ⟨hfaithful, hframed⟩ := faithful_of_refused allocations size fields responseDataSize
      rest hperform hrest hgivesUp honly hfields (fun _ => hsize) h
    exact iff_of_true hfaithful ⟨hframed, fun hhanded => absurd hhanded h⟩

/-- An operation that sends its arguments and does no more with the response than the
response has room for. -/
theorem faithful_of_exchange
    (hgivesUp : (rest (.outOfResources, [])).value = some .outOfResources)
    (hbounds : ∀ answer, answer.2.length ≤ responseDataSize → (rest answer).InBounds)
    (honly : ∀ P answer, (rest answer).Only P) (hfields : fields.flatten.length = size)
    (hsize : size + 6 < 2 ^ 32) (harguments : op.arguments = some fields.flatten) :
    op.Faithful environments fuel ↔ (op.perform environments fuel).Only Exchange.Framed := by
  rw [faithful_iff_of_exchange allocations size fields responseDataSize rest hperform
    (hbounds _ (Nat.zero_le _)) hgivesUp honly (Nat.le_of_eq hfields) hsize]
  refine and_iff_left_of_imp fun hframed hhanded => ⟨.inl ⟨_, harguments, ?_⟩, ?_, fun hnone => ?_⟩
  · rw [requestBytes_eq hfields]
  · exact hbounds _ (length_answered (framed_of_only allocations size fields responseDataSize rest
      hperform (Nat.le_of_eq hfields) hsize hframed hhanded))
  · rw [harguments] at hnone
    cases hnone

theorem not_faithful_of_overflow
    (hgranted : allocations.any (environments 0).refuses = false)
    (hfields : size < fields.flatten.length) :
    ¬ op.Faithful environments fuel := by
  intro h
  have hb := h.inBounds
  rw [hperform, exchange, hgranted] at hb
  simp only [Bool.false_eq_true, if_false, Logged.inBounds_bind, fillRequest_inBounds] at hb
  rcases hb.1.1 with hnil | hle
  · rw [hnil] at hfields
    simp at hfields
  · omega

theorem not_faithful_of_wrap
    (hgranted : (Allocation.ipmiRequest :: allocations).any (environments 0).refuses = false)
    (hsize : 2 ^ 32 ≤ size + 6) :
    ¬ op.Faithful environments fuel := by
  rw [List.any_cons, Bool.or_eq_false_iff] at hgranted
  intro h
  have hb := h.inBounds
  rw [hperform, exchange, hgranted.2, ipmiBlobTransferSendIpmi, hgranted.1] at hb
  simp only [Bool.false_eq_true, if_false, Logged.inBounds_bind] at hb
  have hpacket := hb.1.2.1
  rw [← length_requestBytes size fields] at hsize
  exact packet_overflow hsize hpacket

end

theorem faithful_of_pure {status : Status}
    (hperform : op.perform environments fuel = pure (some status)) (hstatus : status ≠ .success) :
    op.Faithful environments fuel ∧ (op.perform environments fuel).Only Exchange.Framed := by
  refine ⟨⟨?_, ?_, fun _ => ?_⟩, ?_⟩
  · rw [hperform]
    exact Logged.only_pure _ _
  · rw [hperform]
    exact Logged.inBounds_pure _
  · rw [hperform]
    exact fun h => hstatus (Option.some.inj h)
  · rw [hperform]
    exact Logged.only_pure _ _

theorem getCount_faithful :
    getCount.Faithful environments fuel ↔
      (getCount.perform environments fuel).Only Exchange.Framed :=
  faithful_of_exchange [.response] 0 [] 4 (fun answer => pure (some answer.1))
    (by simp [perform, ipmiBlobTransferGetCount, sub]) rfl (fun _ _ => Logged.inBounds_pure _)
    (fun P _ => Logged.only_pure P _) rfl (by decide) rfl

theorem enumerate_faithful (blobIndex : UInt32) :
    (enumerate blobIndex).Faithful environments fuel ↔
      ((enumerate blobIndex).perform environments fuel).Only Exchange.Framed :=
  faithful_of_exchange [.response, .request] 4 [toLittleEndian 4 blobIndex.toNat] maxDataPerPacket
    (fun answer => do
      let (status, _) ← copyBlobId answer.1 answer.2
      return some status)
    (by simp [perform, ipmiBlobTransferEnumerate, sub])
    rfl (fun _ h => by simp [copyBlobId_inBounds h]) (fun P _ => by simp [copyBlobId_only])
    (by simp) (by decide) (by simp [arguments])

theorem read_faithful (sessionId : UInt16) (offset requestedSize : UInt32) :
    (read sessionId offset requestedSize).Faithful environments fuel ↔
      ((read sessionId offset requestedSize).perform environments fuel).Only Exchange.Framed :=
  faithful_of_exchange [.response, .request] 10
    [toLittleEndian 2 sessionId.toNat, toLittleEndian 4 offset.toNat,
      toLittleEndian 4 requestedSize.toNat] requestedSize.toNat
    (fun answer => do
      .access 0 answer.2.length requestedSize.toNat
      return some answer.1)
    (by simp [perform, ipmiBlobTransferRead, sub]) rfl (fun _ h => by simp [h])
    (fun P _ => by simp) (by simp) (by decide) (by simp [arguments])

theorem commit_faithful (sessionId : UInt16) (commitData : Data 8) :
    (commit sessionId commitData).Faithful environments fuel ↔
      ((commit sessionId commitData).perform environments fuel).Only Exchange.Framed := by
  have hlength := commitData.length_lt
  exact faithful_of_exchange [.request] (3 + commitData.bytes.length)
    [toLittleEndian 2 sessionId.toNat, [UInt8.ofNat commitData.bytes.length], commitData.bytes] 0
    (fun answer => pure (some answer.1)) (by simp [perform, ipmiBlobTransferCommit, sub])
    rfl (fun _ _ => Logged.inBounds_pure _) (fun P _ => Logged.only_pure P _)
    (by simp; omega) (by omega) (by simp [arguments])

theorem close_faithful (sessionId : UInt16) :
    (close sessionId).Faithful environments fuel ↔
      ((close sessionId).perform environments fuel).Only Exchange.Framed :=
  faithful_of_exchange [.request] 2 [toLittleEndian 2 sessionId.toNat] 0
    (fun answer => pure (some answer.1)) (by simp [perform, ipmiBlobTransferClose, sub])
    rfl (fun _ _ => Logged.inBounds_pure _) (fun P _ => Logged.only_pure P _) (by simp) (by decide)
    (by simp [arguments])

theorem write_faithful (sessionId : UInt16) (offset : UInt32) (data : Data 32) :
    (write sessionId offset data).Faithful environments fuel ↔
      ((write sessionId offset data).perform environments fuel).Only Exchange.Framed ∧
        (write sessionId offset data).Served (environments 0) := by
  have hperform : (write sessionId offset data).perform environments fuel =
      exchange (environments 0) [.request] .write ((6 + data.bytes.length) % 2 ^ 32)
        [toLittleEndian 2 sessionId.toNat, toLittleEndian 4 offset.toNat, data.bytes] 0 >>=
      fun answer => pure (some answer.1) := by
    simp [perform, ipmiBlobTransferWrite]
  by_cases hfits : data.bytes.length + 12 < 2 ^ 32
  · rw [Nat.mod_eq_of_lt (by omega)] at hperform
    have hserved : (write sessionId offset data).Served (environments 0) :=
      fun _ => ⟨by omega, fun _ => hfits⟩
    rw [and_iff_left hserved]
    exact faithful_of_exchange [.request] (6 + data.bytes.length) _ 0
      (fun answer => pure (some answer.1)) hperform
      rfl (fun _ _ => Logged.inBounds_pure _) (fun P _ => Logged.only_pure P _)
      (by simp; omega) (by omega) (by rw [arguments, if_pos hfits]; simp)
  · cases hrequest : (environments 0).refuses .request with
    | true =>
      have hgiveUp : (write sessionId offset data).perform environments fuel =
          pure (some .outOfResources) := by
        rw [hperform]
        simp [exchange, hrequest]
      obtain ⟨hfaithful, hframed⟩ := faithful_of_pure hgiveUp nofun
      exact iff_of_true hfaithful ⟨hframed, fun h => by rw [hrequest] at h; cases h⟩
    | false =>
      have hgranted : [Allocation.request].any (environments 0).refuses = false := by
        simp [hrequest]
      by_cases hwrap : data.bytes.length + 6 < 2 ^ 32
      · rw [Nat.mod_eq_of_lt (by omega)] at hperform
        cases hipmi : (environments 0).refuses .ipmiRequest with
        | true =>
          have hhanded : ¬ Handed (environments 0) [.request] := fun h => by
            rw [h .ipmiRequest (by decide)] at hipmi
            cases hipmi
          obtain ⟨hfaithful, hframed⟩ := faithful_of_refused [.request] _ _ 0 _ hperform
            (Logged.inBounds_pure _) rfl (fun P _ => Logged.only_pure P _) (by simp; omega) (fun h => by rw [hipmi] at h; cases h) hhanded
          exact iff_of_true hfaithful
            ⟨hframed, fun _ => ⟨hwrap, fun h => by rw [hipmi] at h; cases h⟩⟩
        | false =>
          refine iff_of_false (not_faithful_of_wrap [.request] _ _ 0 _ hperform ?_ (by omega))
            fun h => hfits ((h.2 hrequest).2 hipmi)
          simp [hrequest, hipmi]
      · refine iff_of_false (not_faithful_of_overflow [.request] _ _ 0 _ hperform hgranted ?_)
          fun h => hwrap (h.2 hrequest).1
        simp
        omega

/-- What goes out is a whole packet, whatever the length of the data. -/
theorem writeMeta_faithful (sessionId : UInt16) (offset : UInt32) (data : Data 32) :
    (writeMeta sessionId offset data).Faithful environments fuel ↔
      ((writeMeta sessionId offset data).perform environments fuel).Only Exchange.Framed ∧
        (writeMeta sessionId offset data).Served (environments 0) := by
  have hperform : (writeMeta sessionId offset data).perform environments fuel =
      exchange (environments 0) [.request] .writeMeta (6 + maxDataPerPacket)
        [toLittleEndian 2 sessionId.toNat, toLittleEndian 4 offset.toNat, data.bytes] 0 >>=
      fun answer => pure (some answer.1) := by
    simp [perform, ipmiBlobTransferWriteMeta]
  cases hrequest : (environments 0).refuses .request with
  | true =>
    have hgiveUp : (writeMeta sessionId offset data).perform environments fuel =
        pure (some .outOfResources) := by
      rw [hperform]
      simp [exchange, hrequest]
    obtain ⟨hfaithful, hframed⟩ := faithful_of_pure hgiveUp nofun
    exact iff_of_true hfaithful ⟨hframed, fun h => by rw [hrequest] at h; cases h⟩
  | false =>
    by_cases hlength : data.bytes.length ≤ maxDataPerPacket
    · rw [faithful_iff_of_exchange [.request] _ _ 0 _ hperform (Logged.inBounds_pure _) rfl
        (fun P _ => Logged.only_pure P _) (by simp; omega) (by decide)]
      refine and_congr_right fun _ => ⟨fun h _ => ⟨hlength, fun hhanded => ?_⟩, fun h hhanded => ?_⟩
      · obtain ⟨hsends, -, -⟩ := h hhanded
        have harguments := hsends.arguments_eq (fun _ => id) (arguments_ne_nil nofun)
          (requestBytes_ne_nil (by decide) _)
        rw [arguments, if_pos hlength] at harguments
        have hsize := congrArg List.length (Option.some.inj harguments)
        simp at hsize
        omega
      · have heq := (h hrequest).2 hhanded
        refine ⟨.inl ⟨_, if_pos hlength, ?_⟩, Logged.inBounds_pure _, fun hnone => ?_⟩
        · rw [requestBytes_eq (by simp; omega)]
          simp
        · rw [arguments, if_pos hlength] at hnone
          cases hnone
    · refine iff_of_false (not_faithful_of_overflow [.request] _ _ 0 _ hperform
        (by simp [hrequest]) ?_) fun h => hlength (h.2 hrequest).1
      simp
      omega

/-- The name is never copied: its destination is said to be too small. -/
theorem delete_faithful (blobId : CString) :
    (delete blobId).Faithful environments fuel ↔
      ((delete blobId).perform environments fuel).Only Exchange.Framed ∧
        (delete blobId).Served (environments 0) := by
  have hnone : asciiStrCpyS blobId.chars.length blobId = none := if_neg (Nat.not_succ_le_self _)
  have hperform : (delete blobId).perform environments fuel =
      exchange (environments 0) [.request] .delete maxDataPerPacket [] 0 >>=
      fun answer => pure (some answer.1) := by
    simp [perform, ipmiBlobTransferDelete, hnone]
  rw [faithful_iff_of_exchange [.request] _ _ 0 _ hperform (Logged.inBounds_pure _) rfl
    (fun P _ => Logged.only_pure P _) (by simp) (by decide)]
  refine and_congr_right fun _ => forall_congr' fun _ => ?_
  constructor
  · rintro ⟨hsends, -, -⟩
    have harguments := hsends.arguments_eq (fun _ => id) (arguments_ne_nil nofun)
      (requestBytes_ne_nil (by decide) _)
    rw [arguments] at harguments
    split at harguments
    · have heq := Option.some.inj harguments
      cases hchars : blobId.chars with
      | nil => rfl
      | cons c rest =>
        have hzero : c = 0 := by
          simpa [blobIdField, CString.terminated, hchars, requestBytes, maxDataPerPacket]
            using congrArg List.head? heq
        exact absurd hzero (blobId.nonzero c (by simp [hchars]))
    · cases harguments
  · intro hempty
    have hfits : blobId.size ≤ maxDataPerPacket := by simp [CString.size, hempty, maxDataPerPacket]
    refine ⟨.inl ⟨_, if_pos hfits, ?_⟩, Logged.inBounds_pure _, fun hnone => ?_⟩
    · simp [blobIdField, CString.terminated, CString.size, hempty, requestBytes]
      rfl
    · rw [arguments, if_pos hfits] at hnone
      cases hnone

theorem sessionStat_faithful (sessionId : UInt16) (pointers : Bool) :
    (sessionStat sessionId pointers).Faithful environments fuel ↔
      ((sessionStat sessionId pointers).perform environments fuel).Only Exchange.Framed ∧
        (sessionStat sessionId pointers).Served (environments 0) := by
  cases pointers with
  | false =>
    have hperform : (sessionStat sessionId false).perform environments fuel =
        pure (some .aborted) := rfl
    obtain ⟨hfaithful, hframed⟩ := faithful_of_pure hperform nofun
    exact iff_of_true hfaithful ⟨hframed, nofun⟩
  | true =>
    have hperform : (sessionStat sessionId true).perform environments fuel =
        exchange (environments 0) [.response, .request] .sessionStat 2
          [toLittleEndian 2 sessionId.toNat] 71 >>=
        fun answer => do
          let (status, _) ← copyStatistics answer.1 answer.2
          return some status := by
      simp [perform, ipmiBlobTransferSessionStat]
    rw [faithful_iff_of_exchange [.response, .request] _ _ 71 _ hperform (Logged.inBounds_pure _)
      rfl (fun P _ => by simp [copyStatistics_only]) (by simp) (by decide)]
    refine and_congr_right fun hframed => ?_
    have haccepted : Handed (environments 0) [.response, .request] →
        ((answered 71 (environments 0).answer).1 = .success ↔
          Accepted 71 (environments 0).answer) := fun hhanded =>
      answered_success (framed_of_only [.response, .request] _ _ 71 _ hperform (by simp)
        (by decide) hframed hhanded)
    constructor
    · intro h _ hhanded
      obtain ⟨-, hbounds, -⟩ := h hhanded
      simpa [copyStatistics_inBounds, haccepted hhanded] using hbounds
    · intro h hhanded
      refine ⟨.inl ⟨_, rfl, ?_⟩, ?_, nofun⟩
      · rw [requestBytes_eq (by simp)]
        simp
      · simpa [copyStatistics_inBounds, haccepted hhanded] using h rfl hhanded

theorem stat_faithful (blobId : CString) (metadata : Bool) :
    (stat blobId metadata).Faithful environments fuel ↔
      ((stat blobId metadata).perform environments fuel).Only Exchange.Framed ∧
        (stat blobId metadata).Served (environments 0) := by
  cases metadata with
  | false =>
    have hperform : (stat blobId false).perform environments fuel = pure (some .aborted) := rfl
    obtain ⟨hfaithful, hframed⟩ := faithful_of_pure hperform nofun
    exact iff_of_true hfaithful ⟨hframed, nofun⟩
  | true =>
    have hperform : (stat blobId true).perform environments fuel =
        exchange (environments 0) [.response, .request] .stat maxDataPerPacket
          ((asciiStrCpyS maxDataPerPacket blobId).toList.map CString.terminated) 71 >>=
        fun answer => do
          let (status, _) ← copyStatistics answer.1 answer.2
          return some status := by
      simp [perform, ipmiBlobTransferStat]
    have hfields : ((asciiStrCpyS maxDataPerPacket blobId).toList.map
        CString.terminated).flatten.length ≤ maxDataPerPacket := by
      unfold asciiStrCpyS
      split <;> simp [*]
    rw [faithful_iff_of_exchange [.response, .request] _ _ 71 _ hperform (Logged.inBounds_pure _)
      rfl (fun P _ => by simp [copyStatistics_only]) hfields (by decide)]
    refine and_congr_right fun hframed => ?_
    have haccepted : Handed (environments 0) [.response, .request] →
        ((answered 71 (environments 0).answer).1 = .success ↔
          Accepted 71 (environments 0).answer) := fun hhanded =>
      answered_success (framed_of_only [.response, .request] _ _ 71 _ hperform hfields
        (by decide) hframed hhanded)
    constructor
    · intro h _ hhanded
      obtain ⟨hsends, hbounds, -⟩ := h hhanded
      have harguments := hsends.arguments_eq (fun _ => id) (arguments_ne_nil nofun)
        (requestBytes_ne_nil (by decide) _)
      refine ⟨?_, by simpa [copyStatistics_inBounds, haccepted hhanded] using hbounds⟩
      by_contra hlong
      rw [arguments, if_neg hlong] at harguments
      cases harguments
    · intro h hhanded
      obtain ⟨hfits, hnot⟩ := h rfl hhanded
      refine ⟨.inl ⟨_, if_pos hfits, ?_⟩, ?_, fun hnone => ?_⟩
      · rw [asciiStrCpyS, if_pos hfits, Option.toList_some, List.map_singleton,
          requestBytes_blobId hfits]
      · simpa [copyStatistics_inBounds, haccepted hhanded] using hnot
      · rw [arguments, if_pos hfits] at hnone
        cases hnone

section
variable (blobId : CString) (flags : UInt16)

theorem getCount_search (environment : Environment) :
    (ipmiBlobTransferGetCount environment).Only
        (fun e => (Operation.open blobId flags).Sends e.bytes) ∧
      ((ipmiBlobTransferGetCount environment).InBounds ↔
        (ipmiBlobTransferGetCount environment).Only Exchange.Framed) := by
  have hfields : ([] : List (List UInt8)).flatten.length ≤ 0 := Nat.le_refl 0
  have h := exchange_faithful environment [.response] .getCount 4
    (Operation.open blobId flags).Sends hfields (by decide) fun _ => .inr (.inl rfl)
  simpa [ipmiBlobTransferGetCount] using h

theorem enumerate_search (environment : Environment) (blobIndex : UInt32) :
    (ipmiBlobTransferEnumerate environment blobIndex).Only
        (fun e => (Operation.open blobId flags).Sends e.bytes) ∧
      ((ipmiBlobTransferEnumerate environment blobIndex).InBounds ↔
        (ipmiBlobTransferEnumerate environment blobIndex).Only Exchange.Framed) ∧
      ((ipmiBlobTransferEnumerate environment blobIndex).InBounds →
        ∀ name ∈ (ipmiBlobTransferEnumerate environment blobIndex).value.2,
          name.size ≤ maxDataPerPacket) := by
  have hfields : [toLittleEndian 4 blobIndex.toNat].flatten.length ≤ 4 := by simp
  obtain ⟨hsends, hbounds⟩ := exchange_faithful environment [.response, .request] .enumerate
    maxDataPerPacket (Operation.open blobId flags).Sends hfields (by decide) fun _ =>
      .inr (.inr ⟨blobIndex, by rw [requestBytes_eq (by simp), List.flatten_singleton]⟩)
  unfold ipmiBlobTransferEnumerate
  simp only [Logged.only_bind, Logged.inBounds_bind, Logged.value_bind, copyBlobId_only, and_true]
  refine ⟨hsends, ⟨fun h => hbounds.mp h.1, fun h => ?_⟩, fun h => copyBlobId_fits h.2⟩
  have hexchange := hbounds.mpr h
  exact ⟨hexchange, copyBlobId_inBounds (length_exchange hfields (by decide) hexchange)⟩

theorem getD_fits {name : Option CString} {blobSearch : CString}
    (hfits : blobSearch.size ≤ maxDataPerPacket)
    (hname : ∀ n ∈ name, n.size ≤ maxDataPerPacket) :
    (name.getD blobSearch).size ≤ maxDataPerPacket := by
  cases name with
  | none => exact hfits
  | some n => exact hname n rfl

theorem searchBlob_search (environments : Nat → Environment) (numBlobs fuel : Nat)
    (index : UInt16) (k : Nat) (blobSearch : CString) :
    (searchBlob environments blobId numBlobs fuel index k blobSearch).Only
        (fun e => (Operation.open blobId flags).Sends e.bytes) ∧
      ((searchBlob environments blobId numBlobs fuel index k blobSearch).InBounds ↔
        (searchBlob environments blobId numBlobs fuel index k blobSearch).Only Exchange.Framed) ∧
      (blobSearch.size ≤ maxDataPerPacket →
        (searchBlob environments blobId numBlobs fuel index k blobSearch).InBounds →
        ∀ k', (searchBlob environments blobId numBlobs fuel index k blobSearch).value =
          some (true, k') → blobId.size ≤ maxDataPerPacket) := by
  induction fuel generalizing index k blobSearch with
  | zero =>
    exact ⟨Logged.only_pure _ _, iff_of_true (Logged.inBounds_pure _) (Logged.only_pure _ _),
      fun _ _ _ => (by intros; contradiction)⟩
  | succ fuel ih =>
    unfold searchBlob
    split
    · obtain ⟨hsends, hbounds, hname⟩ :=
        enumerate_search blobId flags (environments k) (UInt32.ofNat index.toNat)
      simp only [Logged.only_bind, Logged.inBounds_bind, Logged.value_bind]
      split
      · rename_i hfound
        refine ⟨⟨hsends, Logged.only_pure _ _⟩, ?_, fun hfits h _ _ => ?_⟩
        · simp only [Logged.inBounds_pure, Logged.only_pure, and_true, hbounds]
        · rw [← hfound.2]
          exact getD_fits hfits (hname h.1)
      · obtain ⟨hrestSends, hrestBounds, hrestFits⟩ := ih (index + 1) (k + 1)
          ((ipmiBlobTransferEnumerate (environments k)
            (UInt32.ofNat index.toNat)).value.2.getD blobSearch)
        exact ⟨⟨hsends, hrestSends⟩, and_congr hbounds hrestBounds,
          fun hfits h => hrestFits (getD_fits hfits (hname h.1)) h.2⟩
    · exact ⟨Logged.only_pure _ _, iff_of_true (Logged.inBounds_pure _) (Logged.only_pure _ _),
        fun _ _ _ => (by rintro ⟨⟩)⟩

theorem openFound_search (environment : Environment) (hfits : blobId.size ≤ maxDataPerPacket) :
    (exchange environment [.response, .request] .open (2 + blobId.chars.length + 1)
        [toLittleEndian 2 flags.toNat, blobId.terminated] 2).Only
        (fun e => (Operation.open blobId flags).Sends e.bytes) ∧
      ((exchange environment [.response, .request] .open (2 + blobId.chars.length + 1)
          [toLittleEndian 2 flags.toNat, blobId.terminated] 2).InBounds ↔
        (exchange environment [.response, .request] .open (2 + blobId.chars.length + 1)
          [toLittleEndian 2 flags.toNat, blobId.terminated] 2).Only Exchange.Framed) := by
  have hlength : [toLittleEndian 2 flags.toNat, blobId.terminated].flatten.length =
      2 + blobId.chars.length + 1 := by
    simp [CString.size]
    omega
  have hsize : 2 + blobId.chars.length + 1 + 6 < 2 ^ 32 := by
    have : blobId.chars.length + 1 ≤ 64 := hfits
    omega
  refine exchange_faithful environment _ _ 2 _ (Nat.le_of_eq hlength) hsize fun _ =>
    .inl ⟨_, if_pos hfits, ?_⟩
  rw [requestBytes_eq hlength]
  simp
  rfl

/-- The whole operation: nothing is opened before a name that fits has been found. -/
theorem ipmiBlobTransferOpen_search (environments : Nat → Environment) (fuel : Nat) :
    ((ipmiBlobTransferOpen environments fuel blobId flags).InBounds ↔
        (ipmiBlobTransferOpen environments fuel blobId flags).Only Exchange.Framed) ∧
      ((ipmiBlobTransferOpen environments fuel blobId flags).InBounds →
        (ipmiBlobTransferOpen environments fuel blobId flags).Only
            (fun e => (Operation.open blobId flags).Sends e.bytes) ∧
          (maxDataPerPacket < blobId.size →
            (ipmiBlobTransferOpen environments fuel blobId flags).value.map Prod.fst ≠
              some .success)) := by
  obtain ⟨hcountSends, hcountBounds⟩ := getCount_search blobId flags (environments 0)
  unfold ipmiBlobTransferOpen
  simp only [Logged.only_bind, Logged.inBounds_bind, Logged.value_bind]
  split
  · simp only [Logged.inBounds_pure, Logged.only_pure, and_true, Logged.value_pure]
    refine ⟨hcountBounds, fun _ => ⟨hcountSends, fun _ => ?_⟩⟩
    split <;> (rintro ⟨⟩)
  · split
    · simp only [Logged.inBounds_pure, Logged.only_pure, and_true, Logged.value_pure]
      exact ⟨hcountBounds, fun _ => ⟨hcountSends, fun _ => by rintro ⟨⟩⟩⟩
    · obtain ⟨hsearchSends, hsearchBounds, hsearchFits⟩ := searchBlob_search blobId flags
        environments (ipmiBlobTransferGetCount (environments 0)).value.2 fuel 0 1
        ⟨[], by intros; contradiction⟩
      simp only [Logged.only_bind, Logged.inBounds_bind, Logged.value_bind]
      split
      · simp only [Logged.inBounds_pure, Logged.only_pure, and_true, Logged.value_pure]
        exact ⟨and_congr hcountBounds hsearchBounds,
          fun _ => ⟨⟨hcountSends, hsearchSends⟩, fun _ => (by rintro ⟨⟩)⟩⟩
      · simp only [Logged.inBounds_pure, Logged.only_pure, and_true, Logged.value_pure]
        exact ⟨and_congr hcountBounds hsearchBounds,
          fun _ => ⟨⟨hcountSends, hsearchSends⟩, fun _ => (by rintro ⟨⟩)⟩⟩
      · rename_i k hfound
        have hfits := fun h => hsearchFits (by decide) h k hfound
        simp only [Logged.only_bind, Logged.inBounds_bind, Logged.value_bind,
          Logged.inBounds_pure, Logged.only_pure, and_true, Logged.value_pure]
        refine ⟨and_congr hcountBounds ?_, fun h => ⟨⟨hcountSends, hsearchSends, ?_⟩, fun hlong => ?_⟩⟩
        · constructor
          · rintro ⟨hsearch, hopen⟩
            exact ⟨hsearchBounds.mp hsearch,
              (openFound_search blobId flags _ (hfits hsearch)).2.mp hopen⟩
          · rintro ⟨hsearch, hopen⟩
            have hsearch := hsearchBounds.mpr hsearch
            exact ⟨hsearch, (openFound_search blobId flags _ (hfits hsearch)).2.mpr hopen⟩
        · exact (openFound_search blobId flags _ (hfits h.2.1)).1
        · exact absurd (hfits h.2.1) (Nat.not_le.mpr hlong)

theorem open_faithful :
    (Operation.open blobId flags).Faithful environments fuel ↔
      ((Operation.open blobId flags).perform environments fuel).Only Exchange.Framed := by
  obtain ⟨hbounds, hgood⟩ := ipmiBlobTransferOpen_search blobId flags environments fuel
  have hperform : (Operation.open blobId flags).perform environments fuel =
      (Option.map Prod.fst) <$> ipmiBlobTransferOpen environments fuel blobId flags := by
    simp [perform]
  rw [hperform, Logged.only_map]
  constructor
  · intro h
    have hin := h.inBounds
    rw [hperform, Logged.inBounds_map] at hin
    exact hbounds.mp hin
  · intro h
    obtain ⟨hsends, hrefused⟩ := hgood (hbounds.mpr h)
    refine ⟨?_, ?_, fun hnone => ?_⟩
    · rw [hperform, Logged.only_map]
      exact hsends
    · rw [hperform, Logged.inBounds_map]
      exact hbounds.mpr h
    · rw [hperform, Logged.value_map]
      refine hrefused (Nat.lt_of_not_le fun hfits => ?_)
      rw [arguments, if_pos hfits] at hnone
      cases hnone

end

/-- An operation hands over exactly its arguments and stays inside its buffers exactly when the
BMC's responses can be taken apart and the operation is served. -/
theorem faithful_iff (op : Operation) (environments : Nat → Environment) (fuel : Nat) :
    op.Faithful environments fuel ↔
      (op.perform environments fuel).Only Exchange.Framed ∧ op.Served (environments 0) := by
  cases op with
  | getCount => exact getCount_faithful.trans (and_iff_left trivial).symm
  | enumerate blobIndex => exact (enumerate_faithful blobIndex).trans (and_iff_left trivial).symm
  | «open» blobId flags => exact (open_faithful blobId flags).trans (and_iff_left trivial).symm
  | read sessionId offset requestedSize =>
    exact (read_faithful sessionId offset requestedSize).trans (and_iff_left trivial).symm
  | write sessionId offset data => exact write_faithful sessionId offset data
  | commit sessionId commitData =>
    exact (commit_faithful sessionId commitData).trans (and_iff_left trivial).symm
  | close sessionId => exact (close_faithful sessionId).trans (and_iff_left trivial).symm
  | delete blobId => exact delete_faithful blobId
  | stat blobId metadata => exact stat_faithful blobId metadata
  | sessionStat sessionId pointers => exact sessionStat_faithful sessionId pointers
  | writeMeta sessionId offset data => exact writeMeta_faithful sessionId offset data

def smbios : CString := ⟨[0x2F, 0x73, 0x6D, 0x62, 0x69, 0x6F, 0x73], by simp⟩

/-- The pool has what is asked for, and the BMC answers with one byte of metadata. -/
def oneByteOfMetadata : Environment where
  refuses := fun _ => false
  answer :=
    let body := [0x01, 0x00, 0x10, 0x00, 0x00, 0x00, 0x01, 0x41]
    .ok ([0x00] ++ openBmcOen ++ toLittleEndian 2 (calculateCrc16 body).toNat ++ body)

theorem stat_overwrites :
    ¬ (stat smbios true).Faithful (fun _ => oneByteOfMetadata) 0 := by
  intro h
  have hin := h.inBounds
  revert hin
  decide +kernel

end Operation

end IpmiBlob
