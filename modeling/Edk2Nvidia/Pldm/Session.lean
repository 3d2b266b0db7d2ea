import Edk2Nvidia.Pldm.Task
import Edk2Nvidia.Pldm.PackageSafety
import Edk2Nvidia.Transition.Run

/-! A task together with what has passed between it and its device so far, and what that
says about the components. -/
namespace Pldm
open Flash Parse Transition

inductive Entry where
  | sent (sent : Sent)
  | received (message : List UInt8)
deriving DecidableEq, Repr

structure Session where
  task : Task
  log : List Entry := []

def heard (input : Input) (task : Task) : List Entry :=
  match task.taskState, input.recv with
  | .receive, .message bytes _ _ => [.received bytes]
  | _, _ => []

/-- The task, in the state it goes to. -/
def Outcome.result (outcome : Outcome) : Task := { outcome.task with taskState := outcome.next }

def Session.after (s : Session) (input : Input) (outcome : Outcome) : Session where
  task := outcome.result
  log := s.log ++ (heard input s.task ++ outcome.sent.map .sent)

/-- One call of the handler of the task's state. -/
def Session.step (input : Input) (globals : Globals) (s : Session) : Option (Session × Globals) := do
  let outcome ← handler s.task.taskState input globals s.task
  return (s.after input outcome, outcome.globals)

/-- The state machine loop as one task sees it: other tasks may do anything to the shared
variables between its steps, and a completed task is left alone. -/
def Session.advance (event : Input × Globals) (s : Session) : Option Session :=
  if s.task.complete then some s else (s.step event.1 event.2).map Prod.fst

/-- A task as `PldmFwUpdateTaskCreate` leaves it. -/
def Session.create (pkgHdr : Memory) (pkgLen : Nat) : Session := { task := { pkgHdr, pkgLen } }

/-! What there is to update: the package, the record of the device and the parameter table
it reported. -/

structure Plan where
  pkg : Memory
  record : Nat
  response : Memory

namespace Plan

def imageCount (plan : Plan) : Nat := images plan.pkg

/-- Where the info of image `i` is. -/
def info (plan : Plan) (i : Nat) : Nat := imageInfoAt plan.pkg (imageArea plan.pkg) i

def applicable (plan : Plan) (i : Nat) : Bool := (componentIsApplicable i plan.record).value plan.pkg

def componentCount (plan : Plan) : Nat := FwParams.componentCount plan.response

/-- Component `k` of the device has the classification and id of image `i`. -/
def compatible (plan : Plan) (i k : Nat) : Bool :=
  componentMatches plan.response (imageClassification plan.pkg (plan.info i))
    (imageId plan.pkg (plan.info i)) k

/-- Image `i` is to be installed on component `k`. -/
structure IsPair (plan : Plan) (i k : Nat) : Prop where
  image : i < plan.imageCount
  applicable : plan.applicable i = true
  component : k < plan.componentCount
  compatible : plan.compatible i k = true

instance (plan : Plan) (i k : Nat) : Decidable (plan.IsPair i k) :=
  decidable_of_iff (i < plan.imageCount ∧ plan.applicable i = true ∧ k < plan.componentCount ∧
      plan.compatible i k = true)
    ⟨fun h => ⟨h.1, h.2.1, h.2.2.1, h.2.2.2⟩,
      fun h => ⟨h.image, h.applicable, h.component, h.compatible⟩⟩

def updateRequest (plan : Plan) (i k : Nat) : List UInt8 :=
  updateComponentRequest plan.pkg plan.response (plan.info i) k

end Plan

/-- Where a task stands in its package and in the parameter table of its device. -/
structure Cursor where
  pkgHdr : Memory
  deviceIdRecord : Option Nat
  getFwParamsResponse : Option Memory
  imageInfoArea : Option Nat
  imageInfo : Option Nat
  componentImageIndex : Nat
  fwParamsComponentIndex : Nat

def Task.cursor (task : Task) : Cursor where
  pkgHdr := task.pkgHdr
  deviceIdRecord := task.deviceIdRecord
  getFwParamsResponse := task.getFwParamsResponse
  imageInfoArea := task.imageInfoArea
  imageInfo := task.imageInfo
  componentImageIndex := task.componentImageIndex
  fwParamsComponentIndex := task.fwParamsComponentIndex

/-- The task has found its device in the package and has the device's parameter table. -/
structure Planned (plan : Plan) (cursor : Cursor) : Prop where
  pkg : cursor.pkgHdr = plan.pkg
  record : cursor.deviceIdRecord = some plan.record
  response : cursor.getFwParamsResponse = some plan.response

/-- The component information is set up, at an image of the package. -/
structure SetUp (plan : Plan) (cursor : Cursor) : Prop where
  planned : Planned plan cursor
  area : cursor.imageInfoArea = some (imageArea plan.pkg)
  info : cursor.imageInfo = some (plan.info cursor.componentImageIndex)
  image : cursor.componentImageIndex < plan.imageCount

/-- The plan of a task, once it has one. -/
def Cursor.plan (cursor : Cursor) : Option Plan := do
  return ⟨cursor.pkgHdr, ← cursor.deviceIdRecord, ← cursor.getFwParamsResponse⟩

theorem Planned.plan {plan : Plan} {cursor : Cursor} (h : Planned plan cursor) :
    cursor.plan = some plan := by
  obtain ⟨hpkg, hrecord, hresponse⟩ := h
  simp only [Cursor.plan, hpkg, hrecord, hresponse, Option.bind_eq_bind, Option.bind_some,
    Option.pure_def]

/-! Messages. -/

def commandOf (message : List UInt8) : UInt8 := message.getD 3 0

/-- The request bit of the header is set. -/
def IsRequest (message : List UInt8) : Prop := message.getD 1 0 &&& pldmRq ≠ 0

/-- A PLDM message, and one of firmware update. -/
structure Genuine (message : List UInt8) : Prop where
  mctpType : message.getD 0 0 = mctpTypePldm
  pldmType : message.getD 2 0 = pldmTypeFwUpdate

/-- The device's request `command`, as far as the result it carries. -/
structure Reports (command : UInt8) (message : List UInt8) : Prop where
  genuine : Genuine message
  request : IsRequest message
  command : commandOf message = command
  length : 4 < message.length

/-- The device's answer to the request `command`, as far as the completion code. -/
structure Answers (command : UInt8) (message : List UInt8) : Prop where
  genuine : Genuine message
  response : ¬ IsRequest message
  command : commandOf message = command
  length : 4 < message.length

def ReportsSuccess (command : UInt8) (message : List UInt8) : Prop :=
  Reports command message ∧ message.getD 4 0 = 0

def ReportsApplied (message : List UInt8) : Prop :=
  Reports Command.applyComplete message ∧
    (message.getD 4 0 = applyResultSuccess ∨ message.getD 4 0 = applyResultSuccessNewActivation)

def AnswersSuccess (command : UInt8) (message : List UInt8) : Prop :=
  Answers command message ∧ message.getD 4 0 = Completion.success

def AcceptsUpdate (message : List UInt8) : Prop :=
  AnswersSuccess Command.updateComponent message ∧ message.getD 5 0 = 0

/-! What the log says of a component. -/

/-- This side made another component the current one. -/
def IsUpdateRequest : Entry → Prop
  | .sent sent => sent.isRequest = true ∧ commandOf sent.message = Command.updateComponent
  | .received _ => False

/-- A message the device sent that satisfies `P`. -/
def Receives (P : List UInt8 → Prop) : Entry → Prop
  | .sent _ => False
  | .received message => P message

instance (P : List UInt8 → Prop) [DecidablePred P] : DecidablePred (Receives P)
  | .sent _ => inferInstanceAs (Decidable False)
  | .received message => inferInstanceAs (Decidable (P message))

/-- The device was last asked to update component `k` with image `i`. -/
def Offered (plan : Plan) (i k : Nat) : List Entry → Prop :=
  Since IsUpdateRequest (fun entry => ∃ instanceId, entry = .sent
    ⟨true, fwFillCommon true instanceId Command.updateComponent ++ plan.updateRequest i k⟩)
    (fun _ => True)

/-- It accepted, and has not been asked for another component since. -/
def Accepted (plan : Plan) (i k : Nat) : List Entry → Prop :=
  Since IsUpdateRequest (Receives AcceptsUpdate) (Offered plan i k)

def Transferred (plan : Plan) (i k : Nat) : List Entry → Prop :=
  Since IsUpdateRequest (Receives (ReportsSuccess Command.transferComplete)) (Accepted plan i k)

def Verified (plan : Plan) (i k : Nat) : List Entry → Prop :=
  Since IsUpdateRequest (Receives (ReportsSuccess Command.verifyComplete)) (Transferred plan i k)

/-- At some time the device accepted image `i` for component `k` and then, with no other
component in between, reported it transferred, verified and applied. -/
def Installed (plan : Plan) (i k : Nat) : List Entry → Prop :=
  Since (fun _ => False) (Receives ReportsApplied) (Verified plan i k)

/-- The image has been installed on every component it is for. -/
def Covered (plan : Plan) (i : Nat) (log : List Entry) : Prop :=
  ∀ k, plan.IsPair i k → Installed plan i k log

def AllCovered (plan : Plan) (log : List Entry) : Prop := ∀ i, Covered plan i log

/-- `ActivateFirmware` goes out. -/
def IsActivateRequest : Entry → Prop
  | .sent sent => sent.isRequest = true ∧ commandOf sent.message = Command.activateFw
  | .received _ => False

/-- An entry after which the current component is still the current one, and nothing has
been activated. -/
def Harmless (entry : Entry) : Prop := ¬ IsUpdateRequest entry ∧ ¬ IsActivateRequest entry

section
variable {plan : Plan} {i k : Nat} {log later : List Entry}

theorem Offered.accepted {message : List UInt8} (h : Offered plan i k log)
    (hmessage : AcceptsUpdate message) : Accepted plan i k (log ++ [.received message]) :=
  Since.intro h hmessage

theorem Accepted.transferred {message : List UInt8} (h : Accepted plan i k log)
    (hmessage : ReportsSuccess Command.transferComplete message) :
    Transferred plan i k (log ++ [.received message]) :=
  Since.intro h hmessage

theorem Transferred.verified {message : List UInt8} (h : Transferred plan i k log)
    (hmessage : ReportsSuccess Command.verifyComplete message) :
    Verified plan i k (log ++ [.received message]) :=
  Since.intro h hmessage

theorem Verified.installed {message : List UInt8} (h : Verified plan i k log)
    (hmessage : ReportsApplied message) : Installed plan i k (log ++ [.received message]) :=
  Since.intro h hmessage

theorem Installed.append (h : Installed plan i k log) (later : List Entry) :
    Installed plan i k (log ++ later) :=
  Since.append h fun _ _ => not_false

theorem Covered.append (h : Covered plan i log) (later : List Entry) :
    Covered plan i (log ++ later) :=
  fun k hpair => (h k hpair).append later

theorem AllCovered.append (h : AllCovered plan log) (later : List Entry) :
    AllCovered plan (log ++ later) :=
  fun i => (h i).append later

theorem harmless_received (message : List UInt8) : Harmless (.received message) :=
  ⟨not_false, not_false⟩

end

end Pldm
