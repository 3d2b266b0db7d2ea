import Edk2Nvidia.Parse.Packed
import Edk2Nvidia.Parse.Logged

/-! The blob transfer protocol over IPMI: eleven operations that pack their arguments into
a request, hand it to the BMC and copy out of the response. -/
namespace IpmiBlob
open Flash Parse

inductive Status where
  | success
  | outOfResources
  | protocolError
  | crcError
  | aborted
  | notFound
  | unsupported
  /-- Any other status of `IpmiSubmitCommand`. -/
  | ipmi
deriving DecidableEq, Repr

def maxDataPerPacket : Nat := 64

/-- The next bit goes in at the low end. -/
def crcBit (crc : UInt16) (bit : Bool) : UInt16 :=
  let shifted := (crc <<< 1) + (if bit then 1 else 0)
  if crc &&& 0x8000 ≠ 0 then shifted ^^^ 0x1021 else shifted

def crcByte (crc : UInt16) (byte : UInt8) : UInt16 :=
  (List.range 8).foldl (fun crc bit => crcBit crc (byte &&& (1 <<< UInt8.ofNat (7 - bit)) != 0)) crc

/-- Two zero bytes flush the register behind the data. -/
def calculateCrc16 (data : List UInt8) : UInt16 := (data ++ [0, 0]).foldl crcByte 0xFFFF

example : calculateCrc16 [0x12, 0x34, 0x56, 0x78, 0x90] = 0xB928 := by decide +kernel

def openBmcOen : List UInt8 := [0xCF, 0xC2, 0x00]

inductive SubCommand where
  | getCount
  | enumerate
  | open
  | read
  | write
  | commit
  | close
  | delete
  | stat
  | sessionStat
  | writeMeta
deriving DecidableEq, Repr

def SubCommand.code : SubCommand → UInt8
  | getCount => 0
  | enumerate => 1
  | .open => 2
  | read => 3
  | write => 4
  | commit => 5
  | close => 6
  | delete => 7
  | stat => 8
  | sessionStat => 9
  | writeMeta => 10

/-- What `AllocateZeroPool` is asked for in the course of one exchange. -/
inductive Allocation where
  | response
  | request
  | ipmiRequest
  | ipmiResponse
  | search
deriving DecidableEq, Repr

abbrev Failure : Type := { status : Status // status ≠ .success }

/-- What the pool refuses, and how `IpmiSubmitCommand` comes back: an error, or bytes. -/
structure Environment where
  refuses : Allocation → Bool
  answer : Except Failure (List UInt8)

/-- One call of `IpmiSubmitCommand`. -/
structure Exchange where
  bytes : List UInt8
  responseDataSize : Nat
  environment : Environment

abbrev Call := Logged Exchange

/-- Packed fields from the start of a zeroed buffer on; a field may be longer than the room
that is left. -/
def fillRequest (size : Nat) : Nat → List (List UInt8) → Call Unit
  | _, [] => pure ()
  | offset, field :: rest => do
    .access offset field.length size
    fillRequest size (offset + field.length) rest

def requestBytes (size : Nat) (fields : List (List UInt8)) : List UInt8 :=
  (fields.flatten ++ List.replicate size 0).take size

/-- The size of the request with its header, a `UINT32`. -/
def ipmiSendDataSize (sendDataSize : Nat) : Nat :=
  (4 + if sendDataSize = 0 then 0 else 2 + sendDataSize) % 2 ^ 32

/-- Room for completion code and OEN, and for the CRC where data is expected. -/
def ipmiResponseDataSize (responseDataSize : Nat) : Nat :=
  (responseDataSize + 4 + if responseDataSize = 0 then 0 else 2) % 2 ^ 32

/-- Header and sub-command, then CRC and arguments unless there are none. -/
def packet (sub : SubCommand) (sendData : List UInt8) : List (List UInt8) :=
  (openBmcOen ++ [sub.code]) ::
    if sendData = [] then [] else [toLittleEndian 2 (calculateCrc16 sendData).toNat, sendData]

/-- The response buffer: zeroed, then written by the BMC as far as it is long. -/
def responseBuffer (capacity : Nat) (bytes : List UInt8) : List UInt8 :=
  (bytes ++ List.replicate capacity 0).take capacity

def decrease (size by' : Nat) : Nat := (size + 2 ^ 32 - by') % 2 ^ 32

/-- Takes the response apart: the body, as far as `ResponseDataSize` counts it. -/
def readResponse (capacity responseDataSize : Nat) (bytes : List UInt8) :
    Call (Status × List UInt8) := do
  let buffer := responseBuffer capacity bytes
  .access 0 1 capacity
  if buffer.getD 0 0 ≠ 0 then pure (.protocolError, [])
  else do
    let size := decrease (bytes.take capacity).length 1
    .access 1 3 capacity
    if (buffer.drop 1).take 3 ≠ openBmcOen then pure (.protocolError, [])
    else if size = 3 then pure (.success, [])
    else do
      let size := decrease size 3
      .access 4 2 capacity
      let crc := fromLittleEndian ((buffer.drop 4).take 2)
      let size := decrease size 2
      .access 6 size capacity
      let body := (buffer.drop 6).take size
      if crc ≠ (calculateCrc16 body).toNat then pure (.crcError, [])
      else do
        .access 0 size responseDataSize
        return (.success, body)

def ipmiBlobTransferSendIpmi (environment : Environment) (sub : SubCommand)
    (sendData : List UInt8) (responseDataSize : Nat) : Call (Status × List UInt8) :=
  if environment.refuses .ipmiRequest then pure (.outOfResources, [])
  else do
    let sendSize := ipmiSendDataSize sendData.length
    fillRequest sendSize 0 (packet sub sendData)
    if environment.refuses .ipmiResponse then pure (.outOfResources, [])
    else do
      .event ⟨requestBytes sendSize (packet sub sendData), responseDataSize, environment⟩
      match environment.answer with
      | .error failure => pure (failure.val, [])
      | .ok bytes => readResponse (ipmiResponseDataSize responseDataSize) responseDataSize bytes

/-- Each operation allocates its buffers, fills the request and sends it. -/
def exchange (environment : Environment) (allocations : List Allocation) (sub : SubCommand)
    (sendDataSize : Nat) (fields : List (List UInt8)) (responseDataSize : Nat) :
    Call (Status × List UInt8) :=
  if allocations.any environment.refuses then pure (.outOfResources, [])
  else do
    fillRequest sendDataSize 0 fields
    ipmiBlobTransferSendIpmi environment sub (requestBytes sendDataSize fields) responseDataSize

/-- `AsciiStrCpyS` copies nothing when the string and its terminator do not fit. -/
def asciiStrCpyS (destMax : Nat) (source : CString) : Option CString :=
  if source.size ≤ destMax then some source else none

/-- A buffer whose size is given in `bits` bits. -/
structure Data (bits : Nat) where
  bytes : List UInt8
  length_lt : bytes.length < 2 ^ bits

/-- What both `Stat` operations copy out in front of the metadata. -/
structure Statistics where
  blobState : Nat
  size : Nat
  metadataLength : Nat
deriving DecidableEq, Repr

section
variable (environment : Environment)

def ipmiBlobTransferGetCount : Call (Status × Nat) := do
  let (status, response) ← exchange environment [.response] .getCount 0 [] 4
  return (status, fromLittleEndian response)

/-- The name copied out, unless it does not end inside the response. -/
def copyBlobId (status : Status) (response : List UInt8) : Call (Status × Option CString) :=
  match (if status = .success then asciiStrCpyS response.length
      (CString.first (response ++ List.replicate maxDataPerPacket 0)) else none) with
  | none => pure (status, none)
  | some name => do
    .access 0 name.size maxDataPerPacket
    return (status, some name)

def ipmiBlobTransferEnumerate (blobIndex : UInt32) : Call (Status × Option CString) := do
  let (status, response) ← exchange environment [.response, .request] .enumerate 4
    [toLittleEndian 4 blobIndex.toNat] maxDataPerPacket
  copyBlobId status response

def ipmiBlobTransferRead (sessionId : UInt16) (offset requestedSize : UInt32) :
    Call (Status × List UInt8) := do
  let (status, response) ← exchange environment [.response, .request] .read 10
    [toLittleEndian 2 sessionId.toNat, toLittleEndian 4 offset.toNat,
      toLittleEndian 4 requestedSize.toNat] requestedSize.toNat
  .access 0 response.length requestedSize.toNat
  return (status, response)

def ipmiBlobTransferWrite (sessionId : UInt16) (offset : UInt32) (data : Data 32) :
    Call Status := do
  let (status, _) ← exchange environment [.request] .write ((6 + data.bytes.length) % 2 ^ 32)
    [toLittleEndian 2 sessionId.toNat, toLittleEndian 4 offset.toNat, data.bytes] 0
  return status

def ipmiBlobTransferCommit (sessionId : UInt16) (commitData : Data 8) : Call Status := do
  let (status, _) ← exchange environment [.request] .commit (3 + commitData.bytes.length)
    [toLittleEndian 2 sessionId.toNat, [UInt8.ofNat commitData.bytes.length], commitData.bytes] 0
  return status

def ipmiBlobTransferClose (sessionId : UInt16) : Call Status := do
  let (status, _) ← exchange environment [.request] .close 2 [toLittleEndian 2 sessionId.toNat] 0
  return status

/-- The destination is said to have room for the characters only. -/
def ipmiBlobTransferDelete (blobId : CString) : Call Status := do
  let (status, _) ← exchange environment [.request] .delete maxDataPerPacket
    ((asciiStrCpyS blobId.chars.length blobId).toList.map CString.terminated) 0
  return status

/-- The metadata is copied over the pointer that should lead to its destination. -/
def copyStatistics (status : Status) (response : List UInt8) :
    Call (Status × Option Statistics) :=
  if status = .success then do
    .access 0 maxDataPerPacket 8
    return (status, some ⟨field response 0 2, field response 2 4, field response 6 1⟩)
  else pure (status, none)

def ipmiBlobTransferStat (blobId : CString) (metadata : Bool) :
    Call (Status × Option Statistics) :=
  if metadata then do
    let (status, response) ← exchange environment [.response, .request] .stat maxDataPerPacket
      ((asciiStrCpyS maxDataPerPacket blobId).toList.map CString.terminated) 71
    copyStatistics status response
  else pure (.aborted, none)

def ipmiBlobTransferSessionStat (sessionId : UInt16) (pointers : Bool) :
    Call (Status × Option Statistics) :=
  if pointers then do
    let (status, response) ← exchange environment [.response, .request] .sessionStat 2
      [toLittleEndian 2 sessionId.toNat] 71
    copyStatistics status response
  else pure (.aborted, none)

def ipmiBlobTransferWriteMeta (sessionId : UInt16) (offset : UInt32) (data : Data 32) :
    Call Status := do
  let (status, _) ← exchange environment [.request] .writeMeta (6 + maxDataPerPacket)
    [toLittleEndian 2 sessionId.toNat, toLittleEndian 4 offset.toNat, data.bytes] 0
  return status

end

/-- Goes through the names until one is `blobId`; `none` when the search has not come to an
end within `fuel` steps. Exchange `k` is the next one. -/
def searchBlob (environments : Nat → Environment) (blobId : CString) (numBlobs : Nat) :
    Nat → UInt16 → Nat → CString → Call (Option (Bool × Nat))
  | 0, _, _, _ => pure none
  | fuel + 1, index, k, blobSearch =>
    if index.toNat < numBlobs then do
      let (status, name) ← ipmiBlobTransferEnumerate (environments k) (UInt32.ofNat index.toNat)
      if status = .success ∧ name.getD blobSearch = blobId then pure (some (true, k + 1))
      else searchBlob environments blobId numBlobs fuel (index + 1) (k + 1) (name.getD blobSearch)
    else pure (some (false, k))

/-- The status and the session; `none` while the search goes on. -/
def ipmiBlobTransferOpen (environments : Nat → Environment) (fuel : Nat) (blobId : CString)
    (flags : UInt16) : Call (Option (Status × Nat)) := do
  let (status, numBlobs) ← ipmiBlobTransferGetCount (environments 0)
  if status ≠ .success ∨ numBlobs = 0 then
    pure (some (if status = .unsupported then .unsupported else .notFound, 0))
  else if (environments 0).refuses .search then pure (some (.outOfResources, 0))
  else do
    match ← searchBlob environments blobId numBlobs fuel 0 1 ⟨[], nofun⟩ with
    | none => pure none
    | some (false, _) => pure (some (.notFound, 0))
    | some (true, k) => do
      let (status, response) ← exchange (environments k) [.response, .request] .open
        (2 + blobId.chars.length + 1) [toLittleEndian 2 flags.toNat, blobId.terminated] 2
      return some (status, fromLittleEndian response)

end IpmiBlob
