import Edk2Nvidia.VarInt.Check

/-! A variable update as the system runs it: the pre callback, the update of the
variable store, the post callback; and where power can be lost on the way. -/
namespace VarInt
open Flash

section
variable {Store : Type}

def varPreSetCallback (this : Protocol Store) (store : Store) (update : VariableUpdate) :
    VarIntM EfiStatus := do
  if (← get).bootstrapDeferred then
    pure .success
  else
    let status ← varIntComputeMeasurement this store (some update)
    if status.isError then
      modify fun s => { s with measurementDirty := false }
      pure status
    else if (← get).measurementDirty then
      let status ← varIntWriteMeasurement this
      if status.isError then
        modify fun s => { s with measurementDirty := false }
        pure status
      else
        pure .success
    else
      pure .success

/-- What the post callback does with a measurement written before the update: the status
the cleanup gets. -/
def commitMeasurement (this : Protocol Store) (store : Store) (setVarStatus : EfiStatus) :
    VarIntM EfiStatus := do
  if (← get).measurementDirty && !setVarStatus.isError then
    let status ← varIntComputeMeasurement this store none
    if status.isError then
      pure .aborted
    else
      let status ← varIntWriteMeasurement this
      if status.isError then
        pure .aborted
      else
        pure setVarStatus
  else
    pure setVarStatus

def varPostSetCallback (this : Protocol Store) (store : Store) (update : VariableUpdate)
    (setVarStatus : EfiStatus) : VarIntM EfiStatus := do
  if (← get).bootstrapDeferred then
    let _ ← varIntMarkDirty this update setVarStatus
    pure .success
  else
    let cleanupStatus ← commitMeasurement this store setVarStatus
    let status ← varIntInvalidateLast this update cleanupStatus
    modify fun s => { s with measurementDirty := false }
    pure status

/-- What `FvbWrite` does to the protocol when the variable driver writes its store. -/
def fvbWrite (s : Driver) : Driver :=
  if s.curMeasurement.header = fvbErasedByte ∧ s.bootstrapDeferred = false then
    { s with measurementDirty := true }
  else
    s

/-- One `SetVariable`: its arguments, the status the variable driver ends with, and the
store it leaves if that is success. -/
structure SetOp (Store : Type) where
  update : VariableUpdate
  status : EfiStatus
  result : Store

/-- A failed update leaves the store as it was. -/
def SetOp.next (op : SetOp Store) (store : Store) : Store :=
  if op.status.isError then store else op.result

def finishSetVariable (this : Protocol Store) (store : Store) (op : SetOp Store) :
    VarIntM EfiStatus := do
  modify fvbWrite
  varPostSetCallback this (op.next store) op.update op.status

/-- A whole `SetVariable`, with the status of its two callbacks; the variable driver gives
up when the pre callback fails. -/
def setVariable (this : Protocol Store) (store : Store) (op : SetOp Store) :
    VarIntM (EfiStatus × Store) := do
  let status ← varPreSetCallback this store op.update
  if status.isError then
    pure (status, store)
  else
    let status ← finishSetVariable this store op
    pure (status, op.next store)

/-- A sequence of updates; the result is the store behind them. -/
def setVariables (this : Protocol Store) : Store → List (SetOp Store) → VarIntM Store
  | store, [] => pure store
  | store, op :: ops => do
    let (_, store) ← setVariable this store op
    setVariables this store ops

/-- What a power loss during one `SetVariable` leaves: the flash of the measurement
partition and the store. The update of the store itself is atomic. -/
inductive Interrupted (this : Protocol Store) (s : Driver) (m : Memory) (store : Store)
    (op : SetOp Store) : Memory → Store → Prop
  | pre {image : Memory} (cut : (varPreSetCallback this store op.update s).PowerLoss m image) :
      Interrupted this s m store op image store
  | post {s' : Driver} {m' image : Memory}
      (done : (varPreSetCallback this store op.update s).run m = (some (.success, s'), m'))
      (cut : (finishSetVariable this store op s').PowerLoss m' image) :
      Interrupted this s m store op image (op.next store)

/-- The next boot: the protocol is set up anew and the measurements are checked. -/
def boot (this : Protocol Store) (store : Store) : VarIntM EfiStatus := do
  let status ← varIntInit this
  if status.isError then
    pure status
  else
    varIntValidate this store

end

end VarInt
