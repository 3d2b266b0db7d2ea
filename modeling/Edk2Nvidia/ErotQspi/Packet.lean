import Edk2Nvidia.NorFlash

/-! MCTP messages over the QSPI interface of an ERoT: how they are split into packets, and
put together again. -/
namespace ErotQspi
open Flash

/-- `EROT_QSPI_PACKET_SIZE`, the payload of a packet. -/
abbrev packetSize : Nat := 64
abbrev mediumHeaderSize : Nat := 4
abbrev transportHeaderSize : Nat := 4

/-- `OFFSET_OF (EROT_QSPI_PACKET, Payload)`. -/
abbrev headerSize : Nat := mediumHeaderSize + transportHeaderSize

abbrev msgTypeMctp : UInt8 := 0x02

abbrev transportHeaderVersion : UInt8 := 1

/-! The control byte of a transport header. -/
namespace Transport
abbrev som : UInt8 := 0x80
abbrev eom : UInt8 := 0x40
abbrev packetSequenceMask : UInt8 := 0x3
abbrev packetSequenceShift : UInt8 := 4
/-- `MCTP_TRANSPORT_TO`. -/
abbrev tagOwner : UInt8 := 0x08
abbrev messageTagMask : UInt8 := 0x7
end Transport

/-- The transport part of `EROT_QSPI_PRIVATE_DATA`. -/
structure Private where
  myEID : UInt8
  erotEID : UInt8
  msgTag : UInt8
  packet : Memory

/-! Sending. -/

def fillMediumHeader (payloadLength : Nat) : List UInt8 :=
  [msgTypeMctp, UInt8.ofNat (payloadLength + transportHeaderSize), 0, 0]

/-- The control byte `ErotQspiFillTransportHeader` fills in. -/
def transportControl (pktSeq : UInt8) (request : Bool) (tag : UInt8) : UInt8 :=
  (pktSeq &&& Transport.packetSequenceMask) <<< Transport.packetSequenceShift |||
    (if request then Transport.tagOwner else 0) ||| tag &&& Transport.messageTagMask

/-- `ErotQspiFillTransportHeader`, with what the sender adds to the control byte. -/
def fillTransportHeader (dstEID srcEID control : UInt8) : List UInt8 :=
  [transportHeaderVersion, dstEID, srcEID, control]

/-- The packet that carries `payload`. -/
def packetFor (erot : Private) (isRequest : Bool) (msgTag pktSeq : UInt8) (startMessage endMessage : Bool)
    (payload : List UInt8) : List UInt8 :=
  let control := transportControl pktSeq isRequest msgTag |||
    (if startMessage then Transport.som else 0) ||| (if endMessage then Transport.eom else 0)
  fillMediumHeader payload.length ++ fillTransportHeader erot.erotEID erot.myEID control ++ payload

/-- The loop of `ErotQspiSend`, with the packets it sends. `sendPacket` says what
`ErotQspiSendPacket` comes back with. -/
def sendLoop (erot : Private) (isRequest : Bool) (msgTag : UInt8) (sendPacket : List UInt8 → EfiStatus)
    (startMessage : Bool) (pktSeq : UInt8) (message : List UInt8) : EfiStatus × List (List UInt8) :=
  if h : message = [] then
    (.success, [])
  else
    let payload := message.take packetSize
    let packet := packetFor erot isRequest msgTag pktSeq startMessage
      (message.length == payload.length) payload
    let status := sendPacket packet
    if status.isError then
      (status, [packet])
    else
      let rest := sendLoop erot isRequest msgTag sendPacket false (pktSeq + 1)
        (message.drop payload.length)
      (rest.1, packet :: rest.2)
termination_by message.length
decreasing_by
  have hpos := List.length_pos_iff.mpr h
  simp only [packetSize, List.length_drop, List.length_take]
  omega

structure Sending where
  status : EfiStatus
  erot : Private
  msgTag : UInt8
  packets : List (List UInt8) := []

/-- `ErotQspiSend`. `initErot` says what `ErotQspiInitErot` does. -/
def send (initErot : Private → EfiStatus × Private) (sendPacket : List UInt8 → EfiStatus) (erot : Private)
    (isRequest : Bool) (message : List UInt8) (msgTag : UInt8) : Sending :=
  if message.length = 0 then
    { status := .invalidParameter, erot, msgTag }
  else
    let (status, erot) := initErot erot
    if status.isError then
      { status, erot, msgTag }
    else
      let (msgTag, erot) :=
        if isRequest then
          (erot.msgTag &&& Transport.messageTagMask, { erot with msgTag := erot.msgTag + 1 })
        else
          (msgTag, erot)
      let (status, packets) := sendLoop erot isRequest msgTag sendPacket true 0 message
      { status, erot, msgTag, packets }

/-! Receiving. -/

/-- What the ERoT has in its mailbox and its memory when `ErotQspiRecvPacket` is called. The
length of a packet is a byte. -/
inductive Fetch where
  | failed (status : EfiStatus) (isError : status.isError = true)
  | packet (bytes : List UInt8) (fits : bytes.length < 256)

/-- `ErotQspiRecvPacket`, into the packet buffer. -/
def recvPacket (buffer : Memory) : Fetch → Except EfiStatus (Memory × Nat)
  | .failed status _ => .error status
  | .packet bytes _ =>
    if bytes.length > headerSize + packetSize then
      .error .unsupported
    else
      .ok (overwrite buffer 0 bytes, bytes.length)

/-- What the ERoT does in one turn of the receive loop. -/
structure Arrival where
  interrupt : Bool := true
  fetch : Fetch

/-- The variables of the receive loop, and what has been copied into the caller's buffer. -/
structure Reassembly where
  packet : Memory
  msgTag : UInt8
  startOfMsg : Bool := true
  nextSeq : UInt8 := 0
  firstPayloadLength : Nat := 0
  msgLength : Nat := 0
  copies : List (Nat × List UInt8) := []

/-- The checks on the control byte of a packet with `payloadLength` bytes of payload. -/
def checkTransport (control : UInt8) (payloadLength : Nat) (r : Reassembly) : Option Reassembly :=
  let pktTag := control &&& Transport.messageTagMask
  let pktSeq := control >>> Transport.packetSequenceShift &&& Transport.packetSequenceMask
  if r.startOfMsg then
    if control &&& Transport.som = 0 then
      none
    else
      some { r with msgTag := pktTag, firstPayloadLength := payloadLength, startOfMsg := false }
  else if pktTag ≠ r.msgTag ∨ pktSeq ≠ r.nextSeq then
    none
  else if control &&& Transport.eom = 0 ∧ payloadLength ≠ r.firstPayloadLength then
    none
  else
    some r

/-- One turn of the loop of `ErotQspiRecv`: whether it returns, and with what. -/
def recvTurn (length : Nat) (arrival : Arrival) (r : Reassembly) : Option EfiStatus × Reassembly :=
  if r.startOfMsg = false ∧ arrival.interrupt = false then
    (some .timeout, r)
  else
    match recvPacket r.packet arrival.fetch with
    | .error status => (some status, r)
    | .ok (packet, packetLength) =>
      let r := { r with packet }
      if packet 0 ≠ msgTypeMctp ∨ (packet 1).toNat + mediumHeaderSize ≠ packetLength then
        -- the packet is dropped
        (none, r)
      else if packetLength < headerSize then
        (some .protocolError, r)
      else
        let payloadLength := packetLength - headerSize
        let control := packet 7
        if length - r.msgLength < payloadLength then
          (some .bufferTooSmall, r)
        else
          match checkTransport control payloadLength r with
          | none => (some .protocolError, r)
          | some r =>
            let pktSeq := control >>> Transport.packetSequenceShift &&& Transport.packetSequenceMask
            (if control &&& Transport.eom = 0 then none else some .success,
              { r with
                copies := r.copies ++ [(r.msgLength, slice packet headerSize payloadLength)]
                nextSeq := (pktSeq + 1) &&& Transport.packetSequenceMask
                msgLength := r.msgLength + payloadLength })

/-- The loop of `ErotQspiRecv`. It waits as long as nothing arrives. -/
def recvLoop (length : Nat) : List Arrival → Reassembly → Option EfiStatus × Reassembly
  | [], r => (none, r)
  | arrival :: arrivals, r =>
    match recvTurn length arrival r with
    | (some status, r) => (some status, r)
    | (none, r) => recvLoop length arrivals r

/-- What `ErotQspiRecv` returns, and what it has written to the caller's buffer. -/
structure Receiving where
  status : Option EfiStatus
  length : Nat
  msgTag : UInt8
  copies : List (Nat × List UInt8) := []

/-- `ErotQspiRecv`, with a buffer of `length` bytes. `interrupt` tells whether the ERoT asks to
be heard before the timeout. -/
def recv (initErot : Private → EfiStatus × Private) (interrupt : Bool) (arrivals : List Arrival)
    (erot : Private) (length : Nat) (msgTag : UInt8) : Receiving :=
  let (status, erot) := initErot erot
  if status.isError then
    { status := some status, length, msgTag }
  else if interrupt = false then
    { status := some .timeout, length, msgTag }
  else
    let (status, r) := recvLoop length arrivals { packet := erot.packet, msgTag }
    { status, msgTag := r.msgTag, copies := r.copies
      length := if status = some .success then r.msgLength else length }

def written (buffer : Memory) (copies : List (Nat × List UInt8)) : Memory :=
  copies.foldl (fun buffer copy => overwrite buffer copy.1 copy.2) buffer

end ErotQspi
