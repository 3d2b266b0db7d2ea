import Mathlib.Algebra.Order.Ring.Nat
import Mathlib.Algebra.BigOperators.Group.List.Basic
import Mathlib.Data.List.Nodup
import Mathlib.Data.UInt
import Mathlib.Tactic.Common

/-! The queries about the enabled cores and the walk over the enabled sockets. Each query scans
the whole list of processor ids again, so that they agree is a theorem. -/
namespace MpCoreInfo

inductive EfiStatus
  | invalidParameter
  | notFound
  | deviceError
  deriving DecidableEq, Repr

/-- The processor ids of the HOB. The length of a HOB is a `UINT16`. -/
structure CoreHob where
  mpidrs : List UInt64
  length_lt : mpidrs.length < 2 ^ 16

def getMpidrAff0 (mpId : UInt64) : UInt64 := mpId &&& 0xFF
def getMpidrAff1 (mpId : UInt64) : UInt64 := (mpId &&& ((0xFF : UInt64) <<< 8)) >>> 8
def getMpidrAff2 (mpId : UInt64) : UInt64 := (mpId &&& ((0xFF : UInt64) <<< 16)) >>> 16
def getMpidrAff3 (mpId : UInt64) : UInt64 := (mpId &&& ((0xFF : UInt64) <<< 32)) >>> 32

structure Location where
  socket : UInt32
  cluster : UInt32
  core : UInt32
  thread : UInt32
  deriving DecidableEq, Repr

def getProcessorLocation (processorId : UInt64) : Location where
  socket := (getMpidrAff3 processorId).toUInt32
  cluster := (getMpidrAff2 processorId).toUInt32
  core := (getMpidrAff1 processorId).toUInt32
  thread := (getMpidrAff0 processorId).toUInt32

/-- What `MpCoreInfoGetInfoCommon` is asked for. -/
structure Query where
  isSocketSpecified : Bool
  socketToMatch : UInt32
  isClusterSpecified : Bool
  clusterToMatch : UInt32
  deriving DecidableEq, Repr

def Query.accepts (query : Query) (processorId : UInt64) : Bool :=
  let location := getProcessorLocation processorId
  !(query.isSocketSpecified && location.socket != query.socketToMatch) &&
    !(query.isClusterSpecified && location.cluster != query.clusterToMatch)

structure Info where
  numEnabledCores : UInt32
  maxSocket : UInt32
  maxCluster : UInt32
  maxCore : UInt32
  maxThread : UInt32
  firstCoreId : UInt64
  deriving DecidableEq, Repr

def raise (value current : UInt32) : UInt32 := if value > current then value else current

def Info.count (info : Info) (processorId : UInt64) : Info :=
  let location := getProcessorLocation processorId
  { firstCoreId := if info.numEnabledCores = 0 then processorId else info.firstCoreId
    maxSocket := raise location.socket info.maxSocket
    maxCluster := raise location.cluster info.maxCluster
    maxCore := raise location.core info.maxCore
    maxThread := raise location.thread info.maxThread
    numEnabledCores := info.numEnabledCores + 1 }

def Info.zero : Info := ⟨0, 0, 0, 0, 0, 0⟩

namespace CoreHob

variable (hob : CoreHob)

def coresPresent : UInt32 := .ofNat hob.mpidrs.length

theorem coresPresent_toNat : hob.coresPresent.toNat = hob.mpidrs.length := by
  have hlength := hob.length_lt
  rw [coresPresent, UInt32.toNat_ofNat_of_lt']
  exact Nat.lt_trans hlength (by decide)

variable {hob} in
theorem toNat_lt {index : UInt32} (h : index < hob.coresPresent) :
    index.toNat < hob.mpidrs.length := by
  rw [← coresPresent_toNat]
  exact h

def getProcessorIdFromIndex (index : UInt32) : Except EfiStatus UInt64 :=
  if h : index < hob.coresPresent then .ok (hob.mpidrs.get ⟨index.toNat, toNat_lt h⟩)
  else .error .notFound

variable {hob} in
theorem lt_of_ok {index : UInt32} {processorId : UInt64}
    (h : hob.getProcessorIdFromIndex index = .ok processorId) : index < hob.coresPresent := by
  unfold getProcessorIdFromIndex at h
  split at h
  · assumption
  · cases h

/-- The loop of `MpCoreInfoGetInfoCommon`. -/
def getInfoLoop (query : Query) (index : UInt32) (info : Info) : Info :=
  match h : hob.getProcessorIdFromIndex index with
  | .error _ => info
  | .ok processorId =>
    getInfoLoop query (index + 1)
      (if query.accepts processorId then info.count processorId else info)
termination_by hob.coresPresent.toNat - index.toNat
decreasing_by
  have hlt : index.toNat < hob.coresPresent.toNat := lt_of_ok h
  have hbound := hob.coresPresent.toNat_lt
  rw [UInt32.toNat_add]
  simp only [UInt32.reduceToNat]
  omega

def getInfoCommon (query : Query) : Except EfiStatus Info :=
  if query.isClusterSpecified && !query.isSocketSpecified then .error .invalidParameter
  else
    let info := hob.getInfoLoop query 0 .zero
    if info.numEnabledCores = 0 then .error .notFound else .ok info

/-- `MaxSocket` and the others are the outputs the caller asks for. -/
def getPlatformInfo : Except EfiStatus Info := hob.getInfoCommon ⟨false, 0, false, 0⟩

def getSocketInfo (socket : UInt32) : Except EfiStatus Info :=
  hob.getInfoCommon ⟨true, socket, false, 0⟩

def getSocketClusterInfo (socket cluster : UInt32) : Except EfiStatus Info :=
  hob.getInfoCommon ⟨true, socket, true, cluster⟩

/-- The loops over the sockets, with the sockets that are left. -/
def searchSockets : Nat → UInt32 → Option UInt32
  | 0, _ => none
  | left + 1, socketId =>
    match hob.getSocketInfo socketId with
    | .ok _ => some socketId
    | .error _ => searchSockets left (socketId + 1)

def getFirstEnabledSocket : UInt32 :=
  match hob.getPlatformInfo with
  | .error _ => 0
  | .ok info => (hob.searchSockets (info.maxSocket.toNat + 1) 0).getD 0

/-- The new `*SocketId`; it is `MAX_UINT32` with every error. -/
def getNextEnabledSocket (socketId : UInt32) : Except EfiStatus UInt32 :=
  match hob.getPlatformInfo with
  | .error _ => .error .deviceError
  | .ok info =>
    match hob.searchSockets (info.maxSocket.toNat + 1 - (socketId + 1).toNat) (socketId + 1) with
    | some next => .ok next
    | none => .error .notFound

end CoreHob
end MpCoreInfo
