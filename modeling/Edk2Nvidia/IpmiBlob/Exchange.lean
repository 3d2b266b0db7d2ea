import Edk2Nvidia.IpmiBlob.Transfer

/-! One exchange with the BMC: when it stays inside its buffers, what goes out and what comes
back. -/
namespace IpmiBlob
open Flash Parse

section
variable (responseDataSize : Nat) (answer : Except Failure (List UInt8))

def answerBuffer (bytes : List UInt8) : List UInt8 :=
  responseBuffer (ipmiResponseDataSize responseDataSize) bytes

/-- A normal completion code and the right OEN. -/
def Addressed (bytes : List UInt8) : Prop :=
  (answerBuffer responseDataSize bytes).getD 0 0 = 0 ∧
    ((answerBuffer responseDataSize bytes).drop 1).take 3 = openBmcOen

instance (bytes : List UInt8) : Decidable (Addressed responseDataSize bytes) :=
  inferInstanceAs (Decidable (_ ∧ _))

def answerLength (bytes : List UInt8) : Nat :=
  (bytes.take (ipmiResponseDataSize responseDataSize)).length

/-- An answer that can be taken apart: it does not break off inside OEN or CRC, and what is
looked at is there. -/
def Framed : Prop :=
  match answer with
  | .error _ => True
  | .ok bytes =>
    1 ≤ ipmiResponseDataSize responseDataSize ∧
      ((answerBuffer responseDataSize bytes).getD 0 0 = 0 →
        4 ≤ ipmiResponseDataSize responseDataSize) ∧
      (Addressed responseDataSize bytes →
        answerLength responseDataSize bytes = 4 ∨ 6 ≤ answerLength responseDataSize bytes)

instance : Decidable (Framed responseDataSize answer) :=
  match answer with
  | .error _ => isTrue trivial
  | .ok _ => inferInstanceAs (Decidable (_ ∧ _ ∧ _))

/-- The BMC reports success: with an empty body, or with one that has its CRC. -/
def Accepted : Prop :=
  match answer with
  | .error _ => False
  | .ok bytes =>
    Addressed responseDataSize bytes ∧
      (answerLength responseDataSize bytes = 4 ∨
        fromLittleEndian (((answerBuffer responseDataSize bytes).drop 4).take 2) =
          (calculateCrc16 (((answerBuffer responseDataSize bytes).drop 6).take
            (answerLength responseDataSize bytes - 6))).toNat)

instance : Decidable (Accepted responseDataSize answer) :=
  match answer with
  | .error _ => isFalse id
  | .ok _ => inferInstanceAs (Decidable (_ ∧ _))

end

def Exchange.Framed (e : Exchange) : Prop := IpmiBlob.Framed e.responseDataSize e.environment.answer

section
variable {environment : Environment} {sub : SubCommand} {data : List UInt8}
  {responseDataSize : Nat}

theorem ipmiResponseDataSize_le (responseDataSize : Nat) :
    ipmiResponseDataSize responseDataSize ≤ responseDataSize + 6 := by
  unfold ipmiResponseDataSize
  refine Nat.le_trans (Nat.mod_le _ _) ?_
  split <;> omega

theorem ipmiResponseDataSize_lt (responseDataSize : Nat) :
    ipmiResponseDataSize responseDataSize < 2 ^ 32 := Nat.mod_lt _ (by decide)

theorem decrease_frame {length : Nat} (hlength : length < 2 ^ 32) :
    decrease (decrease (decrease length 1) 3) 2 = (length + 2 ^ 32 - 6) % 2 ^ 32 := by
  unfold decrease
  omega

/-- A response is taken apart inside its buffers exactly when it is framed. -/
theorem readResponse_inBounds (bytes : List UInt8) :
    (readResponse (ipmiResponseDataSize responseDataSize) responseDataSize bytes).InBounds ↔
      Framed responseDataSize (.ok bytes) := by
  have hlt := ipmiResponseDataSize_lt responseDataSize
  have hle := ipmiResponseDataSize_le responseDataSize
  have hzero : responseDataSize = 0 → ipmiResponseDataSize responseDataSize = 4 := by
    rintro rfl
    rfl
  have hlength : answerLength responseDataSize bytes ≤ ipmiResponseDataSize responseDataSize := by
    unfold answerLength
    rw [List.length_take]
    exact Nat.min_le_left _ _
  unfold readResponse Framed Addressed
  simp only [Logged.inBounds_bind, Logged.inBounds_access, Logged.inBounds_ite,
    Logged.inBounds_pure, ← answerBuffer.eq_1, ← answerLength.eq_1]
  generalize answerLength responseDataSize bytes = length at hlength ⊢
  generalize ipmiResponseDataSize responseDataSize = capacity at hlt hle hzero hlength ⊢
  rw [decrease_frame (by omega)]
  have hsize : decrease length 1 = 3 ↔ length = 4 := by
    unfold decrease
    omega
  simp only [hsize, ne_eq, Decidable.not_not]
  by_cases hcode : (answerBuffer responseDataSize bytes).getD 0 0 = 0
  · by_cases hoen : ((answerBuffer responseDataSize bytes).drop 1).take 3 = openBmcOen
    · simp only [hcode, hoen, not_true_eq_false, false_implies, true_implies, true_and, and_self]
      constructor
      · rintro ⟨hone, hfour, hrest⟩
        refine ⟨by omega, by omega, ?_⟩
        by_contra hbad
        obtain ⟨-, hsix, -⟩ := hrest.2 (by omega)
        omega
      · rintro ⟨hone, hfour, hlen⟩
        refine ⟨by omega, by omega, fun _ => trivial, fun hne => ?_⟩
        have hmod : (length + 2 ^ 32 - 6) % 2 ^ 32 = length - 6 := by omega
        rw [hmod]
        refine ⟨by omega, by omega, fun _ => trivial, fun _ => ?_⟩
        exact ⟨by omega, trivial⟩
    · simp only [hcode, hoen, true_implies, and_false, false_implies, not_false_eq_true, and_true,
        not_true_eq_false, true_and, Nat.zero_add, Nat.reduceAdd]
  · simp only [hcode, false_implies, not_false_eq_true, false_and, and_true, implies_true,
      Nat.zero_add]

theorem readResponse_only (P : Exchange → Prop) (capacity : Nat) (bytes : List UInt8) :
    (readResponse capacity responseDataSize bytes).Only P := by
  unfold readResponse
  simp [Logged.only_ite]

theorem length_readResponse {capacity : Nat} {bytes : List UInt8}
    (h : (readResponse capacity responseDataSize bytes).InBounds) :
    (readResponse capacity responseDataSize bytes).value.2.length ≤ responseDataSize := by
  revert h
  unfold readResponse
  simp only [Logged.inBounds_bind, Logged.inBounds_access, Logged.inBounds_ite,
    Logged.inBounds_pure, Logged.value_bind]
  intro h
  split
  · exact Nat.zero_le _
  · rename_i hcode
    have h := h.2.2 hcode
    simp only [Logged.value_bind]
    split
    · exact Nat.zero_le _
    · rename_i hoen
      have h := h.2.2 hoen
      split
      · exact Nat.zero_le _
      · rename_i hsize
        have h := h.2 hsize
        simp only [Logged.value_bind]
        split
        · exact Nat.zero_le _
        · rename_i hcrc
          have h := (h.2.2.2 hcrc).1
          generalize decrease (decrease (decrease (bytes.take capacity).length 1) 3) 2 = size at h ⊢
          simp only [Logged.value_bind, Logged.value_pure, List.length_take]
          omega

/-- A framed response counts as success exactly when the BMC reports it. -/
theorem readResponse_success {bytes : List UInt8} (h : Framed responseDataSize (.ok bytes)) :
    (readResponse (ipmiResponseDataSize responseDataSize) responseDataSize bytes).value.1 =
        .success ↔ Accepted responseDataSize (.ok bytes) := by
  have hlt := ipmiResponseDataSize_lt responseDataSize
  have hlength : answerLength responseDataSize bytes ≤ ipmiResponseDataSize responseDataSize :=
    List.length_take_le _ _
  obtain ⟨-, -, hbody⟩ := h
  unfold readResponse Accepted
  simp only [Logged.value_bind, ← answerBuffer.eq_1, ← answerLength.eq_1]
  unfold Addressed at hbody ⊢
  generalize answerLength responseDataSize bytes = length at hlength hbody ⊢
  rw [decrease_frame (by omega)]
  have hsize : decrease length 1 = 3 ↔ length = 4 := by
    unfold decrease
    omega
  split
  · rename_i hcode
    exact iff_of_false nofun fun h => hcode h.1.1
  · rename_i hcode
    simp only [Logged.value_bind]
    split
    · rename_i hoen
      exact iff_of_false nofun fun h => hoen h.1.2
    · rename_i hoen
      have hbody := hbody ⟨not_not.mp hcode, not_not.mp hoen⟩
      split
      · rename_i hfour
        exact iff_of_true rfl ⟨⟨not_not.mp hcode, not_not.mp hoen⟩, .inl (hsize.mp hfour)⟩
      · rename_i hfour
        have hne : length ≠ 4 := fun h => hfour (hsize.mpr h)
        have hmod : (length + 2 ^ 32 - 6) % 2 ^ 32 = length - 6 := by omega
        simp only [Logged.value_bind, hmod]
        split
        · rename_i hcrc
          exact iff_of_false nofun fun h => h.2.elim hne hcrc
        · rename_i hcrc
          exact iff_of_true rfl ⟨⟨not_not.mp hcode, not_not.mp hoen⟩, .inr (not_not.mp hcrc)⟩

/-- No buffer is refused, so the request goes out. -/
def Handed (environment : Environment) (allocations : List Allocation) : Prop :=
  ∀ a ∈ allocations ++ [.ipmiRequest, .ipmiResponse], environment.refuses a = false

instance (environment : Environment) (allocations : List Allocation) :
    Decidable (Handed environment allocations) :=
  inferInstanceAs (Decidable (∀ a ∈ _, _))

theorem fillRequest_inBounds (size offset : Nat) (fields : List (List UInt8)) :
    (fillRequest size offset fields).InBounds ↔
      fields = [] ∨ offset + fields.flatten.length ≤ size := by
  induction fields generalizing offset with
  | nil => simp [fillRequest]
  | cons field rest ih =>
    simp only [fillRequest, Logged.inBounds_bind, Logged.inBounds_access, ih,
      List.flatten_cons, List.length_append, reduceCtorEq, false_or]
    constructor
    · rintro ⟨hfield, rfl | hrest⟩
      · simpa using hfield
      · omega
    · intro h
      exact ⟨by omega, .inr (by omega)⟩

@[simp] theorem fillRequest_only (P : Exchange → Prop) (size offset : Nat)
    (fields : List (List UInt8)) : (fillRequest size offset fields).Only P := by
  induction fields generalizing offset with
  | nil => exact Logged.only_pure P _
  | cons field rest ih => simp [fillRequest, ih]

@[simp] theorem length_requestBytes (size : Nat) (fields : List (List UInt8)) :
    (requestBytes size fields).length = size := by
  simp [requestBytes]

theorem requestBytes_eq {size : Nat} {fields : List (List UInt8)}
    (h : fields.flatten.length = size) : requestBytes size fields = fields.flatten :=
  take_front _ h

/-- Header and sub-command, then CRC and arguments unless there are none. -/
def frame (sub : SubCommand) (data : List UInt8) : List UInt8 :=
  openBmcOen ++ [sub.code] ++
    if data = [] then [] else toLittleEndian 2 (calculateCrc16 data).toNat ++ data

theorem flatten_packet (sub : SubCommand) (data : List UInt8) :
    (packet sub data).flatten = frame sub data := by
  unfold packet frame
  split <;> simp

theorem length_frame (sub : SubCommand) (data : List UInt8) :
    (frame sub data).length = 4 + if data.length = 0 then 0 else 2 + data.length := by
  unfold frame
  cases data with
  | nil => rfl
  | cons byte data =>
    simp [openBmcOen]
    omega

/-- The packet fills its buffer, as long as its size is a `UINT32`. -/
theorem length_packet {data : List UInt8} (h : data.length + 6 < 2 ^ 32) :
    (packet sub data).flatten.length = ipmiSendDataSize data.length := by
  rw [flatten_packet, length_frame, ipmiSendDataSize, Nat.mod_eq_of_lt]
  split <;> omega

theorem packet_overflow {data : List UInt8} (h : 2 ^ 32 ≤ data.length + 6) :
    ¬ (fillRequest (ipmiSendDataSize data.length) 0 (packet sub data)).InBounds := by
  rw [fillRequest_inBounds, flatten_packet, length_frame, if_neg (by omega)]
  have hlt : ipmiSendDataSize data.length < 2 ^ 32 := Nat.mod_lt _ (by decide)
  rintro (hnil | hle)
  · cases hnil
  · omega

/-- How the BMC's answer comes back to an operation. -/
def answered (responseDataSize : Nat) : Except Failure (List UInt8) → Status × List UInt8
  | .error failure => (failure.val, [])
  | .ok bytes =>
    (readResponse (ipmiResponseDataSize responseDataSize) responseDataSize bytes).value

theorem answered_success {answer : Except Failure (List UInt8)}
    (h : Framed responseDataSize answer) :
    (answered responseDataSize answer).1 = .success ↔ Accepted responseDataSize answer := by
  cases answer with
  | error failure => exact iff_of_false failure.property id
  | ok bytes => exact readResponse_success h

theorem length_answered {answer : Except Failure (List UInt8)}
    (h : Framed responseDataSize answer) :
    (answered responseDataSize answer).2.length ≤ responseDataSize := by
  cases answer with
  | error status => exact Nat.zero_le _
  | ok bytes => exact length_readResponse ((readResponse_inBounds bytes).mpr h)

section
variable (environment sub responseDataSize)

theorem packet_inBounds (hdata : data.length + 6 < 2 ^ 32) :
    (fillRequest (ipmiSendDataSize data.length) 0 (packet sub data)).InBounds :=
  (fillRequest_inBounds _ _ _).mpr (.inr (Nat.le_of_eq (by rw [length_packet hdata, Nat.zero_add])))

theorem ipmiBlobTransferSendIpmi_of_refused
    (hdata : environment.refuses .ipmiRequest = false → data.length + 6 < 2 ^ 32)
    (h : ¬ Handed environment []) :
    (ipmiBlobTransferSendIpmi environment sub data responseDataSize).InBounds ∧
      (∀ P, (ipmiBlobTransferSendIpmi environment sub data responseDataSize).Only P) ∧
      (ipmiBlobTransferSendIpmi environment sub data responseDataSize).value =
        (.outOfResources, []) := by
  unfold ipmiBlobTransferSendIpmi
  split
  · exact ⟨Logged.inBounds_pure _, fun P => Logged.only_pure P _, rfl⟩
  · rename_i hrequest
    have hframe := packet_inBounds sub (hdata (by simpa using hrequest))
    have hresponse : environment.refuses .ipmiResponse = true := by
      by_contra hresponse
      exact h (by simp [Handed, hrequest, hresponse])
    simp [hresponse, hframe]

theorem ipmiBlobTransferSendIpmi_of_handed (hdata : data.length + 6 < 2 ^ 32)
    (h : Handed environment []) :
    ((ipmiBlobTransferSendIpmi environment sub data responseDataSize).InBounds ↔
        Framed responseDataSize environment.answer) ∧
      (∀ P, (ipmiBlobTransferSendIpmi environment sub data responseDataSize).Only P ↔
        P ⟨frame sub data, responseDataSize, environment⟩) ∧
      (ipmiBlobTransferSendIpmi environment sub data responseDataSize).value =
        answered responseDataSize environment.answer := by
  have hframe := packet_inBounds sub hdata
  have hrequest := h .ipmiRequest (by decide)
  have hresponse := h .ipmiResponse (by decide)
  unfold ipmiBlobTransferSendIpmi
  dsimp only
  rw [requestBytes_eq (length_packet hdata), flatten_packet]
  cases hanswer : environment.answer with
  | error status =>
    simp [hrequest, hresponse, hframe, answered, Framed]
  | ok bytes =>
    simp [hrequest, hresponse, hframe, answered, readResponse_inBounds, readResponse_only]

end

variable {allocations : List Allocation} {size : Nat} {fields : List (List UInt8)}

theorem Handed.send (h : Handed environment allocations) : Handed environment [] :=
  fun a ha => h a (List.mem_append_right _ ha)

theorem Handed.granted (h : Handed environment allocations) :
    allocations.any environment.refuses = false := by
  rw [List.any_eq_false]
  exact fun a ha => by simp [h a (List.mem_append_left _ ha)]

theorem Handed.of_granted (h : Handed environment [])
    (hgranted : allocations.any environment.refuses = false) : Handed environment allocations := by
  intro a ha
  rcases List.mem_append.mp ha with ha | ha
  · simpa using List.any_eq_false.mp hgranted a ha
  · exact h a (List.mem_append_right _ ha)

section
variable (environment sub responseDataSize) (hfields : fields.flatten.length ≤ size)
include hfields

theorem exchange_of_refused
    (hsize : environment.refuses .ipmiRequest = false → size + 6 < 2 ^ 32)
    (h : ¬ Handed environment allocations) :
    (exchange environment allocations sub size fields responseDataSize).InBounds ∧
      (∀ P, (exchange environment allocations sub size fields responseDataSize).Only P) ∧
      (exchange environment allocations sub size fields responseDataSize).value =
        (.outOfResources, []) := by
  unfold exchange
  split
  · exact ⟨Logged.inBounds_pure _, fun P => Logged.only_pure P _, rfl⟩
  · rename_i hgranted
    have hsend : ¬ Handed environment [] := fun hsend => h (hsend.of_granted (by simpa using hgranted))
    obtain ⟨hbounds, honly, hvalue⟩ := ipmiBlobTransferSendIpmi_of_refused
      environment sub responseDataSize (length_requestBytes size fields ▸ hsize) hsend
    have hfill : (fillRequest size 0 fields).InBounds :=
      (fillRequest_inBounds _ _ _).mpr (.inr (by omega))
    simp [hbounds, honly, hvalue, hfill]

theorem exchange_of_handed (hsize : size + 6 < 2 ^ 32) (h : Handed environment allocations) :
    ((exchange environment allocations sub size fields responseDataSize).InBounds ↔
        Framed responseDataSize environment.answer) ∧
      (∀ P, (exchange environment allocations sub size fields responseDataSize).Only P ↔
        P ⟨frame sub (requestBytes size fields), responseDataSize, environment⟩) ∧
      (exchange environment allocations sub size fields responseDataSize).value =
        answered responseDataSize environment.answer := by
  obtain ⟨hbounds, honly, hvalue⟩ := ipmiBlobTransferSendIpmi_of_handed
    environment sub responseDataSize (length_requestBytes size fields ▸ hsize) h.send
  have hfill : (fillRequest size 0 fields).InBounds :=
    (fillRequest_inBounds _ _ _).mpr (.inr (by omega))
  unfold exchange
  simp [h.granted, hbounds, honly, hvalue, hfill]

end
end

end IpmiBlob
