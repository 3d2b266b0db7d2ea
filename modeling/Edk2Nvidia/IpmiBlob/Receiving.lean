import Edk2Nvidia.IpmiBlob.Exchange
import Edk2Nvidia.Parse.ShiftRegister

/-! What one exchange makes of the BMC's answer: when it succeeds, what it returns, and which
transmission errors it notices. -/
namespace IpmiBlob
open Flash Parse Parse.ShiftRegister

/-- The bits of bytes as the CRC takes them, the highest first. -/
def bitsOf (bytes : List UInt8) : List Bool :=
  bytes.flatMap fun byte =>
    (List.range 8).map fun bit => byte &&& (1 <<< UInt8.ofNat (7 - bit)) != 0

theorem add_one_eq_xor (c : BitVec 16) : (c <<< 1) + 1#16 = (c <<< 1) ^^^ 1#16 := by
  have hand : (c <<< 1) &&& 1#16 = 0#16 := by
    refine BitVec.eq_of_getLsbD_eq fun i _ => ?_
    cases i <;> simp
  rw [BitVec.add_eq_or_of_and_eq_zero _ _ hand]
  refine BitVec.eq_of_getLsbD_eq fun i _ => ?_
  cases i <;> simp

theorem and_high_ne_zero (crc : UInt16) : crc &&& 0x8000 ≠ 0 ↔ crc.toBitVec.msb = true := by
  have hand : (crc &&& 0x8000).toBitVec =
      if crc.toBitVec.getLsbD 15 then BitVec.twoPow 16 15 else 0#16 := by
    rw [← BitVec.and_twoPow]
    rfl
  rw [BitVec.msb_eq_getLsbD_last, ne_eq, ← UInt16.toBitVec_inj, hand]
  cases crc.toBitVec.getLsbD 15 <;> decide

theorem crcBit_toBitVec (crc : UInt16) (bit : Bool) :
    (crcBit crc bit).toBitVec = feed 0x1021#16 crc.toBitVec bit := by
  have hshifted : ((crc <<< 1) + if bit then 1 else 0).toBitVec =
      (crc.toBitVec <<< 1) ^^^ if bit then 1#16 else 0#16 := by
    cases bit
    · simp
    · simpa using add_one_eq_xor crc.toBitVec
  unfold crcBit feed
  by_cases hmsb : crc.toBitVec.msb = true
  · simp only [if_pos ((and_high_ne_zero crc).mpr hmsb), if_pos hmsb, UInt16.toBitVec_xor, hshifted]
    rfl
  · simp only [if_neg (mt (and_high_ne_zero crc).mp hmsb), if_neg hmsb, hshifted, BitVec.xor_zero]

theorem foldl_crcBit (bits : List Bool) (crc : UInt16) :
    (bits.foldl crcBit crc).toBitVec = bits.foldl (feed 0x1021#16) crc.toBitVec := by
  induction bits generalizing crc with
  | nil => rfl
  | cons bit bits ih => rw [List.foldl_cons, List.foldl_cons, ih, crcBit_toBitVec]

theorem foldl_crcByte (bytes : List UInt8) (crc : UInt16) :
    bytes.foldl crcByte crc = (bitsOf bytes).foldl crcBit crc := by
  unfold bitsOf
  rw [List.foldl_flatMap]
  refine congrArg (fun f => bytes.foldl f crc) (funext fun crc => funext fun byte => ?_)
  rw [crcByte, List.foldl_map]

/-- No burst of 16 bits leaves the CRC of a body as it is. -/
theorem calculateCrc16_ne {body body' : List UInt8}
    (h : Burst 16 (bitsOf body) (bitsOf body')) : calculateCrc16 body ≠ calculateCrc16 body' := by
  intro heq
  have hcrc := congrArg UInt16.toBitVec heq
  unfold calculateCrc16 at hcrc
  rw [foldl_crcByte, foldl_crcByte, foldl_crcBit, foldl_crcBit, bitsOf, bitsOf,
    List.flatMap_append, List.flatMap_append] at hcrc
  exact (h.append (bitsOf [0, 0])).detected rfl _ hcrc

section
variable (responseDataSize : Nat)

/-- What the BMC sent, as far as there was room for it. -/
def received (bytes : List UInt8) : List UInt8 := bytes.take (ipmiResponseDataSize responseDataSize)

def payload (bytes : List UInt8) : List UInt8 := (received responseDataSize bytes).drop 6

/-- `bytes'` is `bytes` with an error that leaves length and header alone: a burst of at most 16
bits in the payload, or any error in the CRC. -/
structure Corrupts (bytes bytes' : List UInt8) : Prop where
  length : (received responseDataSize bytes').length = (received responseDataSize bytes).length
  header : (received responseDataSize bytes').take 4 = (received responseDataSize bytes).take 4
  error : ((received responseDataSize bytes').drop 4).take 2 =
        ((received responseDataSize bytes).drop 4).take 2 ∧
      Burst 16 (bitsOf (payload responseDataSize bytes)) (bitsOf (payload responseDataSize bytes')) ∨
    ((received responseDataSize bytes').drop 4).take 2 ≠
        ((received responseDataSize bytes).drop 4).take 2 ∧
      payload responseDataSize bytes' = payload responseDataSize bytes

/-- What the code that sends a request can rely on. -/
structure Receives (environment : Environment) (sub : SubCommand) (sendData : List UInt8) :
    Prop where
  inside : ∀ bytes, environment.answer = .ok bytes →
    (readResponse (ipmiResponseDataSize responseDataSize) responseDataSize bytes).InBounds
  failed : ∀ failure, environment.answer = .error failure →
    (ipmiBlobTransferSendIpmi environment sub sendData responseDataSize).value =
        (failure.val, []) ∨
      (ipmiBlobTransferSendIpmi environment sub sendData responseDataSize).value =
        (.outOfResources, [])
  success : ∀ bytes, environment.answer = .ok bytes →
    (ipmiBlobTransferSendIpmi environment sub sendData responseDataSize).value.1 = .success →
      Accepted responseDataSize (.ok bytes) ∧
        (ipmiBlobTransferSendIpmi environment sub sendData responseDataSize).value.2 =
          payload responseDataSize bytes
  error : ∀ bytes bytes', environment.answer = .ok bytes' → Accepted responseDataSize (.ok bytes) →
    6 < answerLength responseDataSize bytes → Corrupts responseDataSize bytes bytes' →
    (ipmiBlobTransferSendIpmi environment sub sendData responseDataSize).value.1 ≠ .success

end

variable {environment : Environment} {sub : SubCommand} {sendData : List UInt8}
  {responseDataSize : Nat}

theorem ipmiBlobTransferSendIpmi_value :
    (ipmiBlobTransferSendIpmi environment sub sendData responseDataSize).value =
        (.outOfResources, []) ∨
      (ipmiBlobTransferSendIpmi environment sub sendData responseDataSize).value =
        answered responseDataSize environment.answer := by
  unfold ipmiBlobTransferSendIpmi
  split
  · exact .inl rfl
  · simp only [Logged.value_bind]
    split
    · exact .inl rfl
    · simp only [Logged.value_bind]
      cases environment.answer with
      | error status => exact .inr rfl
      | ok bytes => exact .inr rfl

theorem answerBuffer_slice {bytes : List UInt8} {offset size : Nat}
    (h : offset + size ≤ answerLength responseDataSize bytes) :
    ((answerBuffer responseDataSize bytes).drop offset).take size =
      ((received responseDataSize bytes).drop offset).take size := by
  have hreceived : (answerBuffer responseDataSize bytes).take (answerLength responseDataSize bytes) =
      received responseDataSize bytes := by
    unfold answerBuffer responseBuffer answerLength received
    rw [List.take_take, Nat.min_eq_left (List.length_take_le _ _), List.length_take,
      List.take_append_of_le_length (Nat.min_le_right _ _), List.take_eq_take_iff]
    omega
  rw [← hreceived, List.drop_take, List.take_take, Nat.min_eq_left (by omega)]

theorem readResponse_payload {bytes : List UInt8} (h : Framed responseDataSize (.ok bytes))
    (hsuccess : (readResponse (ipmiResponseDataSize responseDataSize) responseDataSize bytes).value.1 =
      .success) :
    (readResponse (ipmiResponseDataSize responseDataSize) responseDataSize bytes).value.2 =
      payload responseDataSize bytes := by
  have hlt := ipmiResponseDataSize_lt responseDataSize
  have hlength : answerLength responseDataSize bytes ≤ ipmiResponseDataSize responseDataSize :=
    List.length_take_le _ _
  have hreceived : (received responseDataSize bytes).length =
    answerLength responseDataSize bytes := rfl
  have hslice := fun offset size => @answerBuffer_slice responseDataSize bytes offset size
  obtain ⟨-, -, hbody⟩ := h
  revert hsuccess
  unfold readResponse payload
  simp only [Logged.value_bind, ← answerBuffer.eq_1, ← answerLength.eq_1]
  unfold Addressed at hbody
  generalize answerLength responseDataSize bytes = length at hlength hbody hreceived hslice ⊢
  rw [decrease_frame (by omega)]
  have hsize : decrease length 1 = 3 ↔ length = 4 := by
    unfold decrease
    omega
  split
  · intro hstatus
    cases hstatus
  · rename_i hcode
    simp only [Logged.value_bind]
    split
    · intro hstatus
      cases hstatus
    · rename_i hoen
      have hbody := hbody ⟨not_not.mp hcode, not_not.mp hoen⟩
      split
      · rename_i hfour
        intro _
        exact (List.drop_eq_nil_of_le (by rw [hreceived, hsize.mp hfour]; decide)).symm
      · rename_i hfour
        have hne : length ≠ 4 := fun h => hfour (hsize.mpr h)
        have hmod : (length + 2 ^ 32 - 6) % 2 ^ 32 = length - 6 := by omega
        simp only [Logged.value_bind, hmod]
        split
        · intro hstatus
          cases hstatus
        · intro _
          simp only [Logged.value_bind, Logged.value_pure]
          rw [hslice 6 (length - 6) (by omega), List.take_of_length_le]
          rw [List.length_drop, hreceived]

theorem fromLittleEndian_inj {a b : List UInt8} (hlength : a.length = b.length)
    (h : fromLittleEndian a = fromLittleEndian b) : a = b := by
  induction a generalizing b with
  | nil => exact (List.length_eq_zero_iff.mp hlength.symm).symm
  | cons x a ih =>
    cases b with
    | nil => cases hlength
    | cons y b =>
      have hx := x.toNat_lt
      have hy := y.toNat_lt
      unfold fromLittleEndian at h
      rw [ih (Nat.succ.inj hlength) (by omega), UInt8.toNat_inj.mp (by omega : x.toNat = y.toNat)]

theorem length_slice {bytes : List UInt8} (h : 6 ≤ answerLength responseDataSize bytes) :
    (((received responseDataSize bytes).drop 4).take 2).length = 2 := by
  have hreceived : (received responseDataSize bytes).length =
    answerLength responseDataSize bytes := rfl
  rw [List.length_take, List.length_drop, hreceived]
  omega

theorem Accepted.crc {bytes : List UInt8} (h : Accepted responseDataSize (.ok bytes))
    (hlength : 6 < answerLength responseDataSize bytes) :
    fromLittleEndian (((received responseDataSize bytes).drop 4).take 2) =
      (calculateCrc16 (payload responseDataSize bytes)).toNat := by
  have hreceived : (received responseDataSize bytes).length =
    answerLength responseDataSize bytes := rfl
  have hcrc := h.2.resolve_left (by omega)
  have hall : ((received responseDataSize bytes).drop 6).take
      (answerLength responseDataSize bytes - 6) = payload responseDataSize bytes :=
    List.take_of_length_le (by rw [List.length_drop, hreceived])
  rw [answerBuffer_slice (by omega), answerBuffer_slice (by omega), hall] at hcrc
  exact hcrc

/-- An error in payload or CRC makes the one disagree with the other. -/
theorem Corrupts.rejected {bytes bytes' : List UInt8} (h : Corrupts responseDataSize bytes bytes')
    (haccepted : Accepted responseDataSize (.ok bytes))
    (hlength : 6 < answerLength responseDataSize bytes) :
    ¬ Accepted responseDataSize (.ok bytes') := by
  intro haccepted'
  have hlength' : 6 < answerLength responseDataSize bytes' := Nat.lt_of_lt_of_eq hlength h.length.symm
  have hcrc := haccepted.crc hlength
  have hcrc' := haccepted'.crc hlength'
  rcases h.error with ⟨hsame, hburst⟩ | ⟨hdiffers, hsame⟩
  · rw [hsame, hcrc] at hcrc'
    exact calculateCrc16_ne hburst (UInt16.toNat_inj.mp hcrc')
  · rw [hsame, ← hcrc] at hcrc'
    refine hdiffers (fromLittleEndian_inj ?_ hcrc')
    rw [length_slice (by omega), length_slice (by omega)]

/-- One exchange, whatever the BMC answers, as long as a response does not break off inside OEN
or CRC. -/
theorem receives (environment : Environment) (sub : SubCommand) (sendData : List UInt8)
    (responseDataSize : Nat) (hframed : Framed responseDataSize environment.answer) :
    Receives responseDataSize environment sub sendData := by
  have hvalue := @ipmiBlobTransferSendIpmi_value environment sub sendData responseDataSize
  have hsucceeded : ∀ bytes, environment.answer = .ok bytes →
      (ipmiBlobTransferSendIpmi environment sub sendData responseDataSize).value.1 = .success →
        Accepted responseDataSize (.ok bytes) ∧
          (ipmiBlobTransferSendIpmi environment sub sendData responseDataSize).value.2 =
            payload responseDataSize bytes := by
    intro bytes hanswer hsuccess
    rw [hanswer] at hframed hvalue
    rcases hvalue with hvalue | hvalue
    · rw [hvalue] at hsuccess
      cases hsuccess
    · rw [hvalue] at hsuccess ⊢
      exact ⟨(answered_success hframed).mp hsuccess, readResponse_payload hframed hsuccess⟩
  refine ⟨fun bytes hanswer => ?_, fun status hanswer => ?_, hsucceeded,
    fun bytes bytes' hanswer haccepted hlength hcorrupts hsuccess => ?_⟩
  · rw [hanswer] at hframed
    exact (readResponse_inBounds bytes).mpr hframed
  · rw [hanswer] at hvalue
    exact hvalue.symm
  · exact hcorrupts.rejected haccepted hlength (hsucceeded bytes' hanswer hsuccess).1

def goodResponse : List UInt8 := [0, 0xCF, 0xC2, 0x00, 0x06, 0x97, 0x12, 0x34]

/-- The same with the last byte of the CRC and the first of the payload changed. -/
def badResponse : List UInt8 := [0, 0xCF, 0xC2, 0x00, 0x06, 0x36, 0x9B, 0x34]

theorem receives_goodResponse :
    Receives 2 ⟨fun _ => false, .ok goodResponse⟩ .getCount [] :=
  receives _ _ _ _ (by decide)

/-- The CRC goes before what it protects, so an error across the two is no burst to it. -/
theorem undetected_burst :
    Accepted 2 (.ok goodResponse) ∧ badResponse.take 4 = goodResponse.take 4 ∧
      Burst 16 (bitsOf (goodResponse.drop 4)) (bitsOf (badResponse.drop 4)) ∧
      (ipmiBlobTransferSendIpmi ⟨fun _ => false, .ok badResponse⟩ .getCount [] 2).value =
        (.success, [0x9B, 0x34]) := by
  refine ⟨by decide +kernel, rfl, ⟨by decide +kernel, 8, [true, false, true, false, false, false,
    false, true, true, false, false, false, true, false, false, true], 8, by decide, by decide,
    by decide +kernel⟩, by decide +kernel⟩

end IpmiBlob
