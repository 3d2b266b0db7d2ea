import Edk2Nvidia.ErotQspi.Packet
import Edk2Nvidia.Segment.Assembly
import Mathlib.Data.UInt

/-! What is sent is received, and nothing is received that was not put together from the
packets of one message. -/
namespace ErotQspi
open Flash Segmentation

/-- What a packet says of the message it belongs to. -/
def segmentOf (bytes : List UInt8) : Segment UInt8 UInt8 :=
  let control := bytes.getD 7 0
  { tag := control &&& Transport.messageTagMask
    seq := (control >>> Transport.packetSequenceShift &&& Transport.packetSequenceMask).toNat
    first := control &&& Transport.som != 0
    last := control &&& Transport.eom != 0
    data := bytes.drop headerSize }

/-- The packet is one of MCTP, and as long as its medium header says. -/
def isMctp (bytes : List UInt8) : Bool :=
  bytes.getD 0 0 == msgTypeMctp && (bytes.getD 1 0).toNat + mediumHeaderSize == bytes.length

def Arrival.segment (arrival : Arrival) : Option (Segment UInt8 UInt8) :=
  match arrival.fetch with
  | .failed _ _ => none
  | .packet bytes _ => if isMctp bytes then some (segmentOf bytes) else none

/-! The caller's buffer. -/

/-- The copies lie in the first bytes of the buffer, and leave `front` there. -/
structure Laid (copies : List (Nat × List UInt8)) (front : List UInt8) : Prop where
  inside : ∀ copy ∈ copies, copy.1 + copy.2.length ≤ front.length
  holds : ∀ buffer, slice (written buffer copies) 0 front.length = front

theorem laid_nil : Laid [] [] := ⟨nofun, fun _ => rfl⟩

theorem Laid.append {copies : List (Nat × List UInt8)} {front : List UInt8} (h : Laid copies front)
    (payload : List UInt8) : Laid (copies ++ [(front.length, payload)]) (front ++ payload) where
  inside := by
    intro copy hcopy
    rw [List.length_append]
    rcases List.mem_append.mp hcopy with hold | hnew
    · exact Nat.le_add_right_of_le (h.inside copy hold)
    · rw [List.mem_singleton.mp hnew]
  holds := by
    intro buffer
    have hwritten : written buffer (copies ++ [(front.length, payload)]) =
        overwrite (written buffer copies) front.length payload := by
      rw [written, List.foldl_append]
      rfl
    rw [hwritten, List.length_append, slice_add, Nat.zero_add]
    congr 1
    · have hfront : slice (overwrite (written buffer copies) front.length payload) 0 front.length =
          slice (written buffer copies) 0 front.length :=
        slice_congr fun a _ ha => overwrite_outside _ _ _ _ (.inl (by omega))
      exact hfront.trans (h.holds buffer)
    · exact holds_overwrite _ _ _

/-! One packet. -/

theorem toNat_nextSeq (pktSeq : UInt8) :
    ((pktSeq + 1) &&& Transport.packetSequenceMask).toNat = (pktSeq.toNat + 1) % 4 := by
  have hmask : (Transport.packetSequenceMask).toNat = 2 ^ 2 - 1 := rfl
  rw [UInt8.toNat_and, hmask, Nat.and_two_pow_sub_one_eq_mod, UInt8.toNat_add]
  change (pktSeq.toNat + 1) % 256 % 4 = (pktSeq.toNat + 1) % 4
  omega

theorem packet_byte {buffer : Memory} {bytes : List UInt8} {i : Nat} (hi : i < bytes.length) :
    overwrite buffer 0 bytes i = bytes.getD i 0 := by
  have hbyte := overwrite_inside buffer 0 bytes i hi 0
  rwa [Nat.zero_add] at hbyte

theorem packet_payload {buffer : Memory} {bytes : List UInt8} (h : headerSize ≤ bytes.length) :
    slice (overwrite buffer 0 bytes) headerSize (bytes.length - headerSize) = bytes.drop headerSize := by
  have hholds : slice (overwrite buffer 0 bytes) 0 bytes.length = bytes := holds_overwrite _ _ _
  have hdrop := drop_slice (overwrite buffer 0 bytes) 0 bytes.length headerSize h
  rw [hholds, Nat.zero_add] at hdrop
  exact hdrop.symm

/-- A packet is dropped by what it says of itself, whatever it is read over. -/
theorem dropped_iff (buffer : Memory) (bytes : List UInt8) :
    (overwrite buffer 0 bytes 0 ≠ msgTypeMctp ∨
      (overwrite buffer 0 bytes 1).toNat + mediumHeaderSize ≠ bytes.length) ↔ isMctp bytes = false := by
  by_cases hlength : 4 ≤ bytes.length
  · rw [packet_byte (by omega), packet_byte (by omega), isMctp, Bool.and_eq_false_iff]
    simp
  · -- the length field of a shorter packet is never right
    have hlong : ∀ b : UInt8, b.toNat + mediumHeaderSize ≠ bytes.length := by
      intro b
      have : mediumHeaderSize = 4 := rfl
      omega
    refine ⟨fun _ => ?_, fun _ => .inr (hlong _)⟩
    rw [isMctp, Bool.and_eq_false_iff]
    exact .inr (beq_eq_false_iff_ne.mpr (hlong _))

theorem recvTurn_packet {length : Nat} {arrival : Arrival} {r : Reassembly} {bytes : List UInt8}
    {fits : bytes.length < 256} (hfetch : arrival.fetch = .packet bytes fits)
    (hfits : bytes.length ≤ headerSize + packetSize)
    (hinterrupt : ¬ (r.startOfMsg = false ∧ arrival.interrupt = false)) :
    recvTurn length arrival r =
      let s := segmentOf bytes
      let r := { r with packet := overwrite r.packet 0 bytes }
      if isMctp bytes = false then
        (none, r)
      else if bytes.length < headerSize then
        (some .protocolError, r)
      else if length - r.msgLength < s.data.length then
        (some .bufferTooSmall, r)
      else
        match checkTransport (bytes.getD 7 0) s.data.length r with
        | none => (some .protocolError, r)
        | some r =>
          (if s.last then some .success else none,
            { r with
              copies := r.copies ++ [(r.msgLength, s.data)]
              nextSeq := ((bytes.getD 7 0 >>> Transport.packetSequenceShift &&&
                Transport.packetSequenceMask) + 1) &&& Transport.packetSequenceMask
              msgLength := r.msgLength + s.data.length }) := by
  have hrecv : recvPacket r.packet arrival.fetch = .ok (overwrite r.packet 0 bytes, bytes.length) := by
    rw [hfetch, recvPacket, if_neg (Nat.not_lt.mpr hfits)]
  have hdata : (segmentOf bytes).data.length = bytes.length - headerSize := List.length_drop
  have hlast : (segmentOf bytes).last = (bytes.getD 7 0 &&& Transport.eom != 0) := rfl
  rw [recvTurn, if_neg hinterrupt, hrecv]
  simp only [dropped_iff]
  split
  · rfl
  · split
    · rfl
    · rename_i hheader
      have hcontrol : overwrite r.packet 0 bytes 7 = bytes.getD 7 0 := packet_byte (by
        have : headerSize = 8 := rfl
        omega)
      rw [hcontrol, packet_payload (Nat.le_of_not_lt hheader), hdata]
      split
      · rfl
      · rw [hlast]
        generalize checkTransport _ _ _ = begun
        cases begun with
        | none => rfl
        | some r =>
          simp only [bne_iff_ne, ne_eq, ite_not]
          rfl

theorem checkTransport_some {bytes : List UInt8} {payloadLength : Nat} {r r' : Reassembly}
    (h : checkTransport (bytes.getD 7 0) payloadLength r = some r') :
    (r.startOfMsg = true ∧ (segmentOf bytes).first = true ∧ r' =
      { r with
        msgTag := (segmentOf bytes).tag, firstPayloadLength := payloadLength, startOfMsg := false }) ∨
    (r.startOfMsg = false ∧ (segmentOf bytes).tag = r.msgTag ∧
      (segmentOf bytes).seq = r.nextSeq.toNat ∧ r' = r) := by
  unfold checkTransport at h
  dsimp only at h
  cases hstart : r.startOfMsg with
  | true =>
    rw [hstart, if_pos rfl] at h
    split at h
    · cases h
    · rename_i hsom
      cases h
      exact .inl ⟨rfl, bne_iff_ne.mpr hsom, rfl⟩
  | false =>
    rw [hstart, if_neg Bool.false_ne_true] at h
    split at h
    · cases h
    · rename_i hmatch
      split at h
      · cases h
      · cases h
        rw [not_or, not_not, not_not] at hmatch
        exact .inr ⟨rfl, hmatch.1, congrArg UInt8.toNat hmatch.2, rfl⟩

/-! The loop. -/

/-- The segments that have arrived are the beginning of a message, and `front`, what they carry,
is in the caller's buffer. -/
structure Midway (length : Nat) (segments : List (Segment UInt8 UInt8)) (r : Reassembly)
    (front : List UInt8) : Prop where
  begun : if r.startOfMsg then segments = [] ∧ front = [] else
    Opens 4 segments r.msgTag r.nextSeq.toNat r.firstPayloadLength front
  laid : Laid r.copies front
  msgLength : r.msgLength = front.length
  fits : front.length ≤ length

/-- They are a message, and it is in the caller's buffer. -/
structure Whole (length : Nat) (segments : List (Segment UInt8 UInt8)) (r : Reassembly)
    (message : List UInt8) : Prop where
  assembles : Assembles 4 segments r.msgTag message
  laid : Laid r.copies message
  msgLength : r.msgLength = message.length
  fits : message.length ≤ length

/-- Nothing is copied behind the end of the caller's buffer. -/
def Inside (length : Nat) (copies : List (Nat × List UInt8)) : Prop :=
  ∀ copy ∈ copies, copy.1 + copy.2.length ≤ length

theorem Laid.inside_of_le {copies : List (Nat × List UInt8)} {front : List UInt8} {length : Nat}
    (h : Laid copies front) (hfits : front.length ≤ length) : Inside length copies :=
  fun copy hcopy => Nat.le_trans (h.inside copy hcopy) hfits

section
variable {length : Nat} {segments : List (Segment UInt8 UInt8)} {r : Reassembly} {front : List UInt8}
  {arrival : Arrival}

def Turned (length : Nat) (segments : List (Segment UInt8 UInt8)) (turn : Option EfiStatus × Reassembly) :
    Prop :=
  match turn.1 with
  | none => ∃ front, Midway length segments turn.2 front
  | some status => Inside length turn.2.copies ∧
    (status = .success → ∃ message, Whole length segments turn.2 message)

theorem turned_error (midway : Midway length segments r front) (status : EfiStatus) {r' : Reassembly}
    (hstatus : status.isError = true) (hcopies : r'.copies = r.copies)
    (segments' : List (Segment UInt8 UInt8)) : Turned length segments' (some status, r') := by
  refine ⟨?_, fun hok => ?_⟩
  · rw [hcopies]
    exact midway.laid.inside_of_le midway.fits
  · rw [hok] at hstatus
    cases hstatus

theorem turned_accepted (midway : Midway length segments r front) {bytes : List UInt8}
    {r' : Reassembly} (packet : Memory)
    (hfits : ¬ length - r.msgLength < (segmentOf bytes).data.length)
    (hcheck : checkTransport (bytes.getD 7 0) (segmentOf bytes).data.length { r with packet } = some r') :
    Turned length (segments ++ [segmentOf bytes])
      (if (segmentOf bytes).last then some .success else none,
        { r' with
          copies := r'.copies ++ [(r'.msgLength, (segmentOf bytes).data)]
          nextSeq := ((bytes.getD 7 0 >>> Transport.packetSequenceShift &&&
            Transport.packetSequenceMask) + 1) &&& Transport.packetSequenceMask
          msgLength := r'.msgLength + (segmentOf bytes).data.length }) := by
  have hlaid := midway.laid.append (segmentOf bytes).data
  rw [← midway.msgLength] at hlaid
  have hlength : r.msgLength + (segmentOf bytes).data.length = (front ++ (segmentOf bytes).data).length := by
    rw [List.length_append, midway.msgLength]
  have hle : (front ++ (segmentOf bytes).data).length ≤ length := by
    have := midway.fits
    have := midway.msgLength
    omega
  have hbegun := midway.begun
  have hnext := toNat_nextSeq (bytes.getD 7 0 >>> Transport.packetSequenceShift &&&
    Transport.packetSequenceMask)
  rcases checkTransport_some hcheck with ⟨hstart, hfirst, rfl⟩ | ⟨hstart, htag, hseq, rfl⟩
  · have hstart : r.startOfMsg = true := hstart
    rw [hstart, if_pos rfl] at hbegun
    obtain ⟨rfl, rfl⟩ := hbegun
    cases hlast : (segmentOf bytes).last with
    | true =>
      exact ⟨hlaid.inside_of_le hle, fun _ => ⟨_, Assembles.single hfirst hlast, hlaid, hlength, hle⟩⟩
    | false =>
      refine ⟨_, ?_, hlaid, hlength, hle⟩
      rw [if_neg Bool.false_ne_true, hnext]
      exact Opens.single hfirst hlast
  · have hstart : r.startOfMsg = false := hstart
    rw [hstart, if_neg Bool.false_ne_true] at hbegun
    cases hlast : (segmentOf bytes).last with
    | true =>
      exact ⟨hlaid.inside_of_le hle, fun _ => ⟨_, hbegun.close htag hseq hlast, hlaid, hlength, hle⟩⟩
    | false =>
      refine ⟨_, ?_, hlaid, hlength, hle⟩
      rw [hstart, if_neg Bool.false_ne_true, hnext]
      exact hbegun.snoc htag hseq hlast

theorem recvTurn_turned (midway : Midway length segments r front) :
    Turned length (segments ++ arrival.segment.toList) (recvTurn length arrival r) := by
  by_cases hinterrupt : r.startOfMsg = false ∧ arrival.interrupt = false
  · rw [recvTurn, if_pos hinterrupt]
    exact turned_error midway .timeout rfl (by rfl) _
  · cases hfetch : arrival.fetch with
    | failed status isError =>
      rw [recvTurn, if_neg hinterrupt, hfetch]
      exact turned_error midway status isError rfl _
    | packet bytes fits =>
      by_cases hlong : bytes.length > headerSize + packetSize
      · have hrecv : recvPacket r.packet arrival.fetch = .error .unsupported := by
          rw [hfetch]
          exact if_pos hlong
        rw [recvTurn, if_neg hinterrupt, hrecv]
        exact turned_error midway .unsupported rfl (by rfl) _
      · rw [recvTurn_packet hfetch (Nat.le_of_not_lt hlong) hinterrupt]
        dsimp only
        cases hmctp : isMctp bytes with
        | false =>
          have hsegment : arrival.segment = none := by
            rw [Arrival.segment, hfetch]
            exact if_neg (by rw [hmctp]; exact Bool.false_ne_true)
          rw [if_pos rfl, hsegment, Option.toList_none, List.append_nil]
          exact ⟨front, midway.begun, midway.laid, midway.msgLength, midway.fits⟩
        | true =>
          have hsegment : arrival.segment = some (segmentOf bytes) := by
            rw [Arrival.segment, hfetch]
            exact if_pos hmctp
          rw [if_neg (Ne.symm Bool.false_ne_true), hsegment, Option.toList_some]
          split
          · exact turned_error midway .protocolError rfl (by rfl) _
          · split
            · exact turned_error midway .bufferTooSmall rfl (by rfl) _
            · rename_i hfits
              cases hcheck : checkTransport (bytes.getD 7 0) (segmentOf bytes).data.length
                  { r with packet := overwrite r.packet 0 bytes } with
              | none => exact turned_error midway .protocolError rfl (by rfl) _
              | some r' => exact turned_accepted midway _ hfits hcheck

/-- Whatever arrives, what is copied fits the buffer, and what is returned is a message. -/
theorem recvLoop_turned (arrivals : List Arrival) (midway : Midway length segments r front) :
    Inside length (recvLoop length arrivals r).2.copies ∧
      ((recvLoop length arrivals r).1 = some .success → ∃ n message,
        Whole length (segments ++ (arrivals.take n).filterMap Arrival.segment)
          (recvLoop length arrivals r).2 message) := by
  induction arrivals generalizing segments r front with
  | nil => exact ⟨midway.laid.inside_of_le midway.fits, nofun⟩
  | cons arrival arrivals ih =>
    have hturned : Turned length (segments ++ arrival.segment.toList) (recvTurn length arrival r) :=
      recvTurn_turned midway
    have hheard : ∀ n, segments ++ arrival.segment.toList ++ (arrivals.take n).filterMap Arrival.segment =
        segments ++ ((arrival :: arrivals).take (n + 1)).filterMap Arrival.segment := by
      intro n
      rw [List.take_succ_cons, List.append_assoc]
      cases harrival : arrival.segment with
      | none => rw [List.filterMap_cons_none harrival, Option.toList_none, List.nil_append]
      | some s =>
        rw [List.filterMap_cons_some harrival, Option.toList_some]
        rfl
    rw [recvLoop]
    cases hturn : recvTurn length arrival r with
    | mk status r' =>
      rw [hturn] at hturned
      cases status with
      | none =>
        obtain ⟨front', midway'⟩ := hturned
        obtain ⟨hinside, hwhole⟩ := ih midway'
        refine ⟨hinside, fun hok => ?_⟩
        obtain ⟨n, message, whole⟩ := hwhole hok
        exact ⟨n + 1, message, hheard n ▸ whole⟩
      | some status =>
        refine ⟨hturned.1, fun hok => ?_⟩
        obtain ⟨message, whole⟩ := hturned.2 (Option.some.inj hok)
        refine ⟨1, message, ?_⟩
        rw [← hheard 0, List.take_zero, List.filterMap_nil, List.append_nil]
        exact whole

end

/-! The packets that are sent. -/

theorem mem_sequence (x : UInt8) : x &&& Transport.packetSequenceMask ∈ ([0, 1, 2, 3] : List UInt8) := by
  obtain ⟨x⟩ := x
  revert x
  decide

theorem mem_tags (x : UInt8) :
    x &&& Transport.messageTagMask ∈ ([0, 1, 2, 3, 4, 5, 6, 7] : List UInt8) := by
  obtain ⟨x⟩ := x
  revert x
  decide

/-- The fields of a control byte do not get into each other's way. -/
theorem control_fields (s : UInt8) (hs : s ∈ ([0, 1, 2, 3] : List UInt8)) (t : UInt8)
    (ht : t ∈ ([0, 1, 2, 3, 4, 5, 6, 7] : List UInt8)) (request start last : Bool) :
    let control := s <<< Transport.packetSequenceShift ||| (if request then Transport.tagOwner else 0) |||
      t ||| (if start then Transport.som else 0) ||| (if last then Transport.eom else 0)
    control &&& Transport.messageTagMask = t ∧
      control >>> Transport.packetSequenceShift &&& Transport.packetSequenceMask = s ∧
        (control &&& Transport.som = 0 ↔ start = false) ∧ (control &&& Transport.eom = 0 ↔ last = false) := by
  revert s t request start last
  decide +kernel

section
variable (erot : Private) (isRequest : Bool) (msgTag pktSeq : UInt8) (start last : Bool)
  (payload : List UInt8)

theorem packetFor_control :
    let control := (packetFor erot isRequest msgTag pktSeq start last payload).getD 7 0
    control &&& Transport.messageTagMask = msgTag &&& Transport.messageTagMask ∧
      control >>> Transport.packetSequenceShift &&& Transport.packetSequenceMask =
        pktSeq &&& Transport.packetSequenceMask ∧
      (control &&& Transport.som = 0 ↔ start = false) ∧ (control &&& Transport.eom = 0 ↔ last = false) :=
  control_fields _ (mem_sequence pktSeq) _ (mem_tags msgTag) isRequest start last

theorem length_packetFor :
    (packetFor erot isRequest msgTag pktSeq start last payload).length = headerSize + payload.length := by
  rw [packetFor, List.length_append]
  rfl

theorem segmentOf_packetFor_data :
    (segmentOf (packetFor erot isRequest msgTag pktSeq start last payload)).data = payload := rfl

theorem segmentOf_packetFor_last :
    (segmentOf (packetFor erot isRequest msgTag pktSeq start last payload)).last = last := by
  obtain ⟨-, -, -, heom⟩ := packetFor_control erot isRequest msgTag pktSeq start last payload
  change ((packetFor erot isRequest msgTag pktSeq start last payload).getD 7 0 &&& Transport.eom != 0) = last
  cases last with
  | true => exact bne_iff_ne.mpr fun h => absurd (heom.mp h) nofun
  | false => exact bne_eq_false_iff_eq.mpr (heom.mpr rfl)

theorem isMctp_packetFor (h : payload.length ≤ packetSize) :
    isMctp (packetFor erot isRequest msgTag pktSeq start last payload) = true := by
  have hlength := length_packetFor erot isRequest msgTag pktSeq start last payload
  have hbyte : (UInt8.ofNat (payload.length + transportHeaderSize)).toNat = payload.length + 4 := by
    rw [UInt8.toNat_ofNat']
    change (payload.length + 4) % 256 = payload.length + 4
    have : packetSize = 64 := rfl
    omega
  rw [isMctp, Bool.and_eq_true, beq_iff_eq, beq_iff_eq, hlength]
  refine ⟨rfl, ?_⟩
  change (UInt8.ofNat (payload.length + transportHeaderSize)).toNat + 4 = 8 + payload.length
  omega

end

/-! What is sent is received. -/

def Deliver (packets : List (List UInt8)) (arrivals : List Arrival) : Prop :=
  List.Forall₂ (fun packet arrival => arrival.interrupt = true ∧
    ∃ fits, arrival.fetch = .packet packet fits) packets arrivals

/-- The receiver is about to take this packet of the message. -/
def Awaits (r : Reassembly) (msgTag pktSeq : UInt8) (start : Bool) : Prop :=
  r.startOfMsg = start ∧ (start = false → r.msgTag = msgTag &&& Transport.messageTagMask ∧
    r.nextSeq = pktSeq &&& Transport.packetSequenceMask ∧ r.firstPayloadLength = packetSize)

section
variable {erot : Private} {isRequest : Bool} {msgTag pktSeq : UInt8} {start : Bool}
  {length : Nat} {r : Reassembly} {payload : List UInt8} {arrival : Arrival}

theorem Awaits.over (awaits : Awaits r msgTag pktSeq start) (packet : Memory) :
    Awaits { r with packet } msgTag pktSeq start :=
  awaits

variable (erot isRequest) in
theorem checkTransport_awaited {last : Bool} (awaits : Awaits r msgTag pktSeq start)
    (hsize : last = true ∨ payload.length = packetSize) :
    checkTransport ((packetFor erot isRequest msgTag pktSeq start last payload).getD 7 0) payload.length r =
      some { r with
        msgTag := msgTag &&& Transport.messageTagMask, startOfMsg := false
        firstPayloadLength := if start then payload.length else packetSize } := by
  obtain ⟨htag, hseq, hsom, heom⟩ := packetFor_control erot isRequest msgTag pktSeq start last payload
  obtain ⟨hstart, hlater⟩ := awaits
  unfold checkTransport
  dsimp only
  rw [htag, hseq]
  cases start with
  | true =>
    rw [hstart, if_pos rfl, if_neg fun h => absurd (hsom.mp h) nofun]
    rfl
  | false =>
    obtain ⟨hmsgTag, hnext, hfirst⟩ := hlater rfl
    rw [hstart, if_neg Bool.false_ne_true, if_neg (not_or.mpr ⟨fun h => h hmsgTag.symm,
      fun h => h hnext.symm⟩), if_neg fun h => ?_]
    · rw [← hmsgTag, ← hstart, if_neg (hstart ▸ Bool.false_ne_true), ← hfirst]
    · have hnot : last = false := heom.mp h.1
      rcases hsize with hlast | hsize
      · exact absurd (hnot.symm.trans hlast) nofun
      · exact h.2 (hsize.trans hfirst.symm)

variable (length) in
theorem recvTurn_awaited {last : Bool} {fits : _}
    (awaits : Awaits r msgTag pktSeq start) (hinterrupt : arrival.interrupt = true)
    (hfetch : arrival.fetch =
      .packet (packetFor erot isRequest msgTag pktSeq start last payload) fits)
    (hpayload : payload.length ≤ packetSize) (hsize : last = true ∨ payload.length = packetSize)
    (hroom : r.msgLength + payload.length ≤ length) :
    ∃ r', recvTurn length arrival r = (if last then some .success else none, r') ∧
      (last = false → Awaits r' msgTag (pktSeq + 1) false) ∧
        r'.msgTag = msgTag &&& Transport.messageTagMask ∧ r'.msgLength = r.msgLength + payload.length ∧
          r'.copies = r.copies ++ [(r.msgLength, payload)] := by
  have hlength := length_packetFor erot isRequest msgTag pktSeq start last payload
  have hmctp := isMctp_packetFor erot isRequest msgTag pktSeq start last payload hpayload
  have hlast := segmentOf_packetFor_last erot isRequest msgTag pktSeq start last payload
  have hseq := (packetFor_control erot isRequest msgTag pktSeq start last payload).2.1
  have hcheck := checkTransport_awaited erot isRequest (awaits.over
    (overwrite r.packet 0 (packetFor erot isRequest msgTag pktSeq start last payload))) hsize
  rw [recvTurn_packet hfetch (by omega) fun h => absurd (h.2.symm.trans hinterrupt) nofun]
  dsimp only
  rw [hmctp, if_neg (Ne.symm Bool.false_ne_true), if_neg (by omega), segmentOf_packetFor_data,
    if_neg (by omega), hcheck, hlast]
  refine ⟨_, rfl, fun hmore => ⟨rfl, fun _ => ⟨rfl, ?_, ?_⟩⟩, rfl, rfl, rfl⟩
  · rw [hseq]
    refine UInt8.toNat_inj.mp ?_
    rw [toNat_nextSeq, UInt8.toNat_and, UInt8.toNat_and, UInt8.toNat_add]
    change (Nat.land pktSeq.toNat (2 ^ 2 - 1) + 1) % 4 = Nat.land ((pktSeq.toNat + 1) % 256) (2 ^ 2 - 1)
    have hmod : ∀ n : Nat, Nat.land n (2 ^ 2 - 1) = n % 4 := fun n => Nat.and_two_pow_sub_one_eq_mod n 2
    rw [hmod, hmod]
    omega
  · cases start with
    | true => exact hsize.resolve_left (by rw [hmore]; exact nofun)
    | false => rfl

end

section
variable {erot : Private} {isRequest : Bool} {msgTag : UInt8} {sendPacket : List UInt8 → EfiStatus}
  {length : Nat}

theorem sendLoop_success (hsend : ∀ packet, (sendPacket packet).isError = false) (start : Bool)
    (pktSeq : UInt8) (message : List UInt8) :
    (sendLoop erot isRequest msgTag sendPacket start pktSeq message).1 = .success := by
  fun_induction sendLoop with
  | case1 => rfl
  | case2 _ _ _ _ _ _ _ hfailed => exact absurd ((hsend _).symm.trans hfailed) nofun
  | case3 _ _ _ _ _ _ _ _ _ ih => exact ih

/-- From the awaited packet on, the packets of the rest of the message are taken. -/
theorem recvLoop_sendLoop (hsend : ∀ packet, (sendPacket packet).isError = false) {start : Bool}
    {pktSeq : UInt8} {message front : List UInt8} (hmessage : message ≠ []) {r : Reassembly}
    (awaits : Awaits r msgTag pktSeq start) (laid : Laid r.copies front)
    (hlength : r.msgLength = front.length) (hroom : front.length + message.length ≤ length)
    {arrivals : List Arrival}
    (deliver : Deliver (sendLoop erot isRequest msgTag sendPacket start pktSeq message).2 arrivals) :
    ∃ r', recvLoop length arrivals r = (some .success, r') ∧
      r'.msgTag = msgTag &&& Transport.messageTagMask ∧ r'.msgLength = front.length + message.length ∧
        Laid r'.copies (front ++ message) := by
  induction hn : message.length using Nat.strongRecOn generalizing start pktSeq message front r arrivals with
  | _ n ih =>
    subst hn
    have hsize : packetSize = 64 := rfl
    have hpos := List.length_pos_iff.mpr hmessage
    have htake : (message.take packetSize).length = min packetSize message.length := List.length_take
    have hfail : ∀ packet, ¬ (sendPacket packet).isError = true := fun packet h =>
      absurd ((hsend packet).symm.trans h) nofun
    rw [sendLoop, dif_neg hmessage] at deliver
    dsimp only at deliver
    rw [if_neg (hfail _)] at deliver
    cases deliver with
    | cons harrival deliver =>
      rename_i arrival arrivals
      obtain ⟨hinterrupt, fits, hfetch⟩ := harrival
      by_cases hend : message.length ≤ packetSize
      · -- the last packet
        have hall : message.take packetSize = message := List.take_of_length_le hend
        have hlast : (message.length == (message.take packetSize).length) = true := by
          rw [hall]
          exact beq_self_eq_true _
        obtain ⟨r', hturn, -, htag, hlength', hcopies⟩ := recvTurn_awaited length awaits hinterrupt
          hfetch (by omega) (.inl hlast) (by omega)
        rw [hlast, if_pos rfl] at hturn
        refine ⟨r', ?_, htag, ?_, ?_⟩
        · rw [recvLoop, hturn]
        · rw [hlength', hall, hlength]
        · rw [hcopies, hall, hlength]
          exact laid.append message
      · -- a packet that is full, and not the last one
        have hfull : (message.take packetSize).length = packetSize := by omega
        have hlast : (message.length == (message.take packetSize).length) = false := by
          rw [beq_eq_false_iff_ne]
          omega
        obtain ⟨r', hturn, hawaits, -, hlength', hcopies⟩ := recvTurn_awaited length awaits hinterrupt
          hfetch (by omega) (.inr hfull) (by omega)
        rw [hlast, if_neg Bool.false_ne_true] at hturn
        have hlaid := laid.append (message.take packetSize)
        rw [← hlength, ← hcopies] at hlaid
        rw [hfull] at deliver
        have hdrop : (message.drop packetSize).length = message.length - packetSize := List.length_drop
        have happend : (front ++ message.take packetSize).length = front.length + packetSize := by
          rw [List.length_append, hfull]
        obtain ⟨r'', hloop, htag, hlength'', hlaid'⟩ := ih (message.drop packetSize).length (by omega)
          (List.length_pos_iff.mp (by omega)) (hawaits hlast) hlaid (by omega) (by omega) deliver rfl
        refine ⟨r'', ?_, htag, by omega, ?_⟩
        · rw [recvLoop, hturn]
          exact hloop
        · rw [List.append_assoc, List.take_append_drop] at hlaid'
          exact hlaid'

end

/-! Both sides. -/

structure Returns (received : Receiving) (message : List UInt8) : Prop where
  status : received.status = some .success
  length : received.length = message.length
  message : ∀ buffer, slice (written buffer received.copies) 0 message.length = message

/-- All packets of a message are sent, and when they arrive in this order, the message and its tag
are returned. -/
def RoundTrip (sent : Sending) (message : List UInt8) (initErot : Private → EfiStatus × Private) : Prop :=
  sent.status = .success ∧ ∀ arrivals later receiver length oldTag, Deliver sent.packets arrivals →
    (initErot receiver).1.isError = false → message.length ≤ length →
      let received := recv initErot true (arrivals ++ later) receiver length oldTag
      Returns received message ∧ received.msgTag = sent.msgTag &&& Transport.messageTagMask

/-- Nothing is written behind the buffer, and what is returned is a message that the first of the
packets are the segments of. -/
def ReceivesMessages (initErot : Private → EfiStatus × Private) : Prop :=
  ∀ interrupt arrivals receiver length oldTag,
    let received := recv initErot interrupt arrivals receiver length oldTag
    Inside length received.copies ∧ (received.status = some .success → ∃ n message,
      Assembles 4 ((arrivals.take n).filterMap Arrival.segment) received.msgTag message ∧
        Returns received message)

theorem receivesMessages (initErot : Private → EfiStatus × Private) : ReceivesMessages initErot := by
  intro interrupt arrivals receiver length oldTag
  unfold recv
  cases hinit : initErot receiver with
  | mk status erot =>
    dsimp only
    cases hstatus : status.isError with
    | true =>
      rw [if_pos rfl]
      refine ⟨nofun, fun hok => ?_⟩
      rw [Option.some.inj hok] at hstatus
      cases hstatus
    | false =>
      rw [if_neg Bool.false_ne_true]
      cases interrupt with
      | false => exact ⟨nofun, nofun⟩
      | true =>
        have midway : Midway length [] { packet := erot.packet, msgTag := oldTag } [] :=
          ⟨⟨rfl, rfl⟩, laid_nil, rfl, Nat.zero_le _⟩
        obtain ⟨hinside, hwhole⟩ := recvLoop_turned arrivals midway
        rw [if_neg (Ne.symm Bool.false_ne_true)]
        refine ⟨hinside, fun hok => ?_⟩
        obtain ⟨n, message, whole⟩ := hwhole hok
        refine ⟨n, message, whole.assembles, hok, ?_, whole.laid.holds⟩
        exact (if_pos hok).trans whole.msgLength

theorem recvLoop_append {length : Nat} {arrivals : List Arrival} {r r' : Reassembly} {status : EfiStatus}
    (h : recvLoop length arrivals r = (some status, r')) (later : List Arrival) :
    recvLoop length (arrivals ++ later) r = (some status, r') := by
  induction arrivals generalizing r with
  | nil => cases h
  | cons arrival arrivals ih =>
    rw [List.cons_append, recvLoop]
    rw [recvLoop] at h
    cases hturn : recvTurn length arrival r with
    | mk done r₁ =>
      rw [hturn] at h
      cases done with
      | none => exact ih h
      | some status => exact h

theorem roundTrip_sendLoop (initErot : Private → EfiStatus × Private) {sendPacket : List UInt8 → EfiStatus}
    (hsend : ∀ packet, (sendPacket packet).isError = false) (erot after : Private) (isRequest : Bool)
    (msgTag : UInt8) {message : List UInt8} (hmessage : message ≠ []) :
    RoundTrip
      { status := (sendLoop erot isRequest msgTag sendPacket true 0 message).1, erot := after, msgTag
        packets := (sendLoop erot isRequest msgTag sendPacket true 0 message).2 } message initErot := by
  refine ⟨sendLoop_success hsend true 0 message, ?_⟩
  intro arrivals later receiver length oldTag deliver hinit hroom
  cases hreceiver : initErot receiver with
  | mk status erot' =>
    rw [hreceiver] at hinit
    have awaits : Awaits { packet := erot'.packet, msgTag := oldTag } msgTag 0 true := ⟨rfl, nofun⟩
    have hfits : ([] : List UInt8).length + message.length ≤ length := by
      rw [List.length_nil]
      omega
    obtain ⟨r, hloop, htag, hlength, hlaid⟩ :=
      recvLoop_sendLoop hsend hmessage awaits laid_nil rfl hfits deliver
    unfold recv
    rw [hreceiver]
    dsimp only
    rw [hinit, if_neg Bool.false_ne_true, if_neg (Ne.symm Bool.false_ne_true),
      recvLoop_append hloop later]
    refine ⟨⟨rfl, ?_, hlaid.holds⟩, htag⟩
    change (if some EfiStatus.success = some .success then r.msgLength else length) = message.length
    rw [if_pos rfl, hlength, List.length_nil, Nat.zero_add]

/-- Every message is transferred, with its tag; and whatever arrives, what is returned is one
message. -/
theorem mctp_transfer (initErot : Private → EfiStatus × Private) (sendPacket : List UInt8 → EfiStatus)
    (sender : Private) (isRequest : Bool) (message : List UInt8) (msgTag : UInt8) :
    (message ≠ [] → (initErot sender).1.isError = false →
      (∀ packet, (sendPacket packet).isError = false) →
        let sent := send initErot sendPacket sender isRequest message msgTag
        RoundTrip sent message initErot ∧
          (isRequest = true ∨ msgTag &&& Transport.messageTagMask = msgTag →
            sent.msgTag &&& Transport.messageTagMask = sent.msgTag)) ∧
      ReceivesMessages initErot := by
  refine ⟨fun hmessage hinit hsend => ?_, receivesMessages initErot⟩
  have hpos : ¬ message.length = 0 := fun h => hmessage (List.eq_nil_of_length_eq_zero h)
  unfold send
  rw [if_neg hpos]
  cases hsender : initErot sender with
  | mk status erot =>
    rw [hsender] at hinit
    dsimp only
    rw [hinit, if_neg Bool.false_ne_true]
    cases isRequest with
    | true =>
      refine ⟨roundTrip_sendLoop initErot hsend _ _ true _ hmessage, fun _ => ?_⟩
      exact (UInt8.and_assoc _ _ _).trans (congrArg _ UInt8.and_self)
    | false =>
      exact ⟨roundTrip_sendLoop initErot hsend _ _ false _ hmessage, fun h => h.resolve_left nofun⟩

/-- Five packets of a request, and the last one is full. -/
theorem mctp_transfer_sample :
    RoundTrip (send (fun erot => (.success, erot)) (fun _ => .success) ⟨0x27, 0x18, 9, fun _ => 0⟩ true
      (List.replicate 320 0xA5) 0) (List.replicate 320 0xA5) (fun erot => (.success, erot)) :=
  ((mctp_transfer (fun erot => (.success, erot)) (fun _ => .success) ⟨0x27, 0x18, 9, fun _ => 0⟩ true
    (List.replicate 320 0xA5) 0).1 (by decide) rfl (fun _ => rfl)).1

end ErotQspi
