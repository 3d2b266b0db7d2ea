import Edk2Nvidia.NorFlash
import Edk2Nvidia.Flash.Setting

/-! The firmware volume block driver: a partition of the NOR flash in blocks, with a copy in memory
where the partition is the one of the variables. A call changes the copy first and the flash behind
it, and reads back what the flash has refused. -/
namespace Fvb
open Flash

/-- What `NVIDIA_FVB_PRIVATE_DATA` says of the flash and the partition. -/
structure Private where
  flash : NorFlash
  partitionOffset : Nat
  partitionSize : Nat

/-- What a write looks at in `NVIDIA_VAR_INT_PROTOCOL`. -/
structure VarInt where
  /-- `CurMeasurement[0]`. -/
  curMeasurement : UInt8
  /-- What `IsDeferred` answers, where there is one. -/
  isDeferred : Option Bool
  measurementDirty : Bool
deriving DecidableEq, Repr

/-- `PartitionData`, and `VarInt` where the integrity of the variables is checked. -/
structure State where
  partitionData : Option Memory
  varInt : Option VarInt

abbrev FvbM := FlashM EfiStatus State

def maxUint64 : Nat := 2 ^ 64 - 1

def lbaListTerminator : Nat := 2 ^ 64 - 1

def VarInt.touch (varInt : VarInt) : VarInt :=
  if varInt.curMeasurement = erasedByte ∧ (varInt.isDeferred = none ∨ varInt.isDeferred = some false)
  then { varInt with measurementDirty := true }
  else varInt

def State.update (state : State) (f : Memory → Memory) : State :=
  { state with partitionData := state.partitionData.map f }

namespace Private
variable (this : Private)

/-- `LastBlock`; the block count is a `UINT32`. -/
def lastBlock : Nat := u32 (this.partitionSize / this.flash.blockSize + (2 ^ 32 - 1))

def fvbOffset (lba offset : Nat) : Nat := lba * this.flash.blockSize + offset

/-- The checks of a range of a block: how many bytes there are, and whether the boundary would be
crossed; or what is left in `NumBytes`. -/
def blockRange (lba offset numBytes : Nat) : Except Nat (Nat × Bool) :=
  if lba > this.lastBlock then .error 0
  else if numBytes = 0 then .error numBytes
  else if offset ≥ this.flash.blockSize then .error 0
  else if offset + numBytes > this.flash.blockSize then
    .ok (this.flash.blockSize - offset, true)
  else .ok (numBytes, false)

/-- `FvbRead`: the status, `NumBytes` and what has come into the buffer. -/
def fvbRead (lba offset numBytes : Nat) : FvbM (EfiStatus × Nat × List UInt8) :=
  if offset > maxUint64 - numBytes ∨ numBytes > maxUint64 - offset then
    pure (.invalidParameter, numBytes, [])
  else
    match this.blockRange lba offset numBytes with
    | .error numBytes => pure (.badBufferSize, numBytes, [])
    | .ok (numBytes, lbaBoundaryCrossed) => do
      let state ← get
      let (status, data) ←
        match state.partitionData with
        | some partitionData =>
          pure (.success, slice partitionData (this.fvbOffset lba offset) numBytes)
        | none => this.flash.read (this.fvbOffset lba offset + this.partitionOffset) numBytes
      pure (if lbaBoundaryCrossed then .badBufferSize else status, numBytes, data)

/-- The copy is read again where the flash has failed. -/
def reread (fvbOffset size : Nat) : FvbM Unit := do
  let state ← get
  match state.partitionData with
  | none => pure ()
  | some _ => do
    let (_, data) ← this.flash.read (fvbOffset + this.partitionOffset) size
    modify fun state => state.update fun partitionData => overwrite partitionData fvbOffset data

/-- `FvbWrite` of a buffer of `NumBytes`: the status and what is left there. -/
def fvbWrite (lba offset : Nat) (buffer : List UInt8) : FvbM (EfiStatus × Nat) := do
  if offset > maxUint64 - buffer.length ∨ buffer.length > maxUint64 - offset then
    pure (.invalidParameter, buffer.length)
  else
    modify fun state => { state with varInt := state.varInt.map VarInt.touch }
    match this.blockRange lba offset buffer.length with
    | .error numBytes => pure (.badBufferSize, numBytes)
    | .ok (numBytes, lbaBoundaryCrossed) => do
      let fvbOffset := this.fvbOffset lba offset
      let data := buffer.take numBytes
      modify fun state => state.update fun partitionData => overwrite partitionData fvbOffset data
      let status ← this.flash.write (fvbOffset + this.partitionOffset) data
      if status.isError then do
        this.reread fvbOffset numBytes
        pure (.deviceError, numBytes)
      else pure (if lbaBoundaryCrossed then .badBufferSize else status, numBytes)

/-- The blocks from `StartingLba` on are there. -/
def validRange (startingLba numOfLba : Nat) : Bool :=
  !(numOfLba = 0 ∨ startingLba > maxUint64 - numOfLba ∨ numOfLba > maxUint64 - startingLba ∨
    startingLba + numOfLba - 1 > this.lastBlock)

/-- The second loop of `FvbEraseBlocks`, with the status so far. -/
def eraseRanges (status : EfiStatus) : List (Nat × Nat) → FvbM EfiStatus
  | [] => pure status
  | (startingLba, numOfLba) :: ranges => do
    let fvbOffset := this.fvbOffset startingLba 0
    let fvbBufferSize := numOfLba * this.flash.blockSize
    modify fun state => state.update fun partitionData =>
      Flash.erase partitionData fvbOffset fvbBufferSize
    let status ←
      this.flash.erase ((fvbOffset + this.partitionOffset) / this.flash.blockSize) numOfLba
    if status.isError then do
      this.reread fvbOffset fvbBufferSize
      pure .deviceError
    else eraseRanges status ranges

/-- The ranges of blocks before the end of the argument list. -/
def listed (args : List (Nat × Nat)) : List (Nat × Nat) :=
  args.takeWhile fun range => range.1 ≠ lbaListTerminator

/-- All the blocks that are to be erased are there. -/
def erasable (args : List (Nat × Nat)) : Bool :=
  (listed args).all fun range => this.validRange range.1 range.2

def fvbEraseBlocks (args : List (Nat × Nat)) : FvbM EfiStatus :=
  if this.erasable args then
    this.eraseRanges .invalidParameter (listed args)
  else pure .invalidParameter

end Private

/-! The calls of the protocol. -/

inductive Call where
  | read (lba offset numBytes : Nat)
  | write (lba offset : Nat) (buffer : List UInt8)
  | erase (args : List (Nat × Nat))
deriving DecidableEq, Repr

structure Reply where
  status : EfiStatus
  numBytes : Nat
  data : List UInt8
deriving DecidableEq, Repr

def Private.serve (this : Private) : Call → FvbM Reply
  | .read lba offset numBytes => do
    let (status, numBytes, data) ← this.fvbRead lba offset numBytes
    pure ⟨status, numBytes, data⟩
  | .write lba offset buffer => do
    let (status, numBytes) ← this.fvbWrite lba offset buffer
    pure ⟨status, numBytes, []⟩
  | .erase args => do
    let status ← this.fvbEraseBlocks args
    pure ⟨status, 0, []⟩

end Fvb
