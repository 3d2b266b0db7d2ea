import Edk2Nvidia.FwPartition.Device

/-! The update of one firmware image from a package: the image is compared with what its partition
holds, and the write is left out when nothing would change. -/
namespace FwImage
open Flash FwPartition

inductive Part where
  | a
  | b
deriving DecidableEq, Repr

def forcePartitionA : Nat := 2
def forcePartitionB : Nat := 4
def readInactiveImage : Nat := 1
def fmpWriteLoopSize : Nat := 32768

/-- `FW_IMAGE_ATTRIBUTES`, the sizes of the blocks. -/
structure Attributes where
  blockSize : Nat
  eraseBlockSize : Nat
deriving DecidableEq, Repr

/-- A firmware image: which of its partitions there are, which boot chain is active, the size of a
partition, the blocks of the store the partitions lie on, and what fails. -/
structure Protocol where
  imageName : Name
  present : Part → Bool
  bImageIsActive : Bool
  bytes : Part → Nat
  attributes : Attributes
  getAttributesFails : Bool
  /-- The reads that fail, by their number. -/
  readFails : Nat → Bool
  /-- A partition refuses every write, as the active one can. -/
  refusesWrite : Part → Bool

/-- What the partitions hold; how often `Read` was called, and whether it ever returned an error. -/
structure State where
  storage : Part → Memory
  reads : Nat
  readProblem : Bool

variable (this : Protocol)

def fwImageCheckOffsetAndBytes (maxOffset offset bytes : Nat) : EfiStatus :=
  fwPartitionCheckOffsetAndBytes maxOffset offset bytes

def writePartition (flags : Nat) : Option Part :=
  let partition :=
    if flags &&& (forcePartitionA ||| forcePartitionB) ≠ 0 then
      if flags &&& forcePartitionA ≠ 0 then Part.a else .b
    else if this.present .a ∧ this.present .b then
      if this.bImageIsActive then .a else .b
    else .a
  if this.present partition then some partition else none

def readPartition (flags : Nat) : Option Part :=
  let partition :=
    if flags &&& (forcePartitionA ||| forcePartitionB) ≠ 0 then
      if flags &&& forcePartitionA ≠ 0 then Part.a else .b
    else if this.present .a ∧ this.present .b then
      if flags &&& readInactiveImage ≠ 0 then
        if this.bImageIsActive then .a else .b
      else
        if this.bImageIsActive then .b else .a
    else .a
  if this.present partition then some partition else none

def fwImageRead (offset bytes flags : Nat) (state : State) : Option (List UInt8) × State :=
  let failed : Option (List UInt8) × State :=
    (none, { state with reads := state.reads + 1, readProblem := true })
  match readPartition this flags with
  | none => failed
  | some partition =>
    if (fwImageCheckOffsetAndBytes (this.bytes partition) offset bytes).isError then failed
    else if this.readFails state.reads then failed
    else (some (slice (state.storage partition) offset bytes), { state with reads := state.reads + 1 })

/-- A write of the store: the whole erase blocks from the offset on are erased when a block starts
there, and the data is programmed. -/
def storeWrite (m : Memory) (offset : Nat) (data : List UInt8) : Memory :=
  let eraseBlock := this.attributes.eraseBlockSize
  let erased :=
    if offset % eraseBlock = 0 then
      erase m offset ((data.length + eraseBlock - 1) / eraseBlock * eraseBlock)
    else m
  program erased offset data

def fwImageWrite (offset : Nat) (data : List UInt8) (flags : Nat) (storage : Part → Memory) :
    EfiStatus × (Part → Memory) :=
  match writePartition this flags with
  | none => (.notFound, storage)
  | some partition =>
    let status := fwImageCheckOffsetAndBytes (this.bytes partition) offset data.length
    if status.isError then (status, storage)
    else if this.refusesWrite partition then (.accessDenied, storage)
    else
      (.success, fun p => if p = partition then storeWrite this (storage p) offset data else storage p)

/-- `ALIGN_VALUE` of a `UINTN` to a `UINT32`. -/
def alignValue (value alignment : Nat) : Nat :=
  value + ((2 ^ 64 + alignment - value) % 2 ^ 64 &&& (alignment + (2 ^ 32 - 1)) % 2 ^ 32)

theorem le_alignValue (value alignment : Nat) : value ≤ alignValue value alignment :=
  Nat.le_add_right _ _

/-- The loop of `CheckLastBlockTailAllFf` with `remaining` bytes left from `readOffset` on: what it
returns, if it returns. -/
def tailLoop (bufferSize blockSize endOfLastBlock readFlags : Nat) :
    Nat → Nat → Nat → State → Option ((EfiStatus × Bool) × State)
  | 0, _, _, _ => none
  | fuel + 1, remaining, readOffset, state =>
    if remaining > 0 then
      let compareSize := if remaining > bufferSize then bufferSize else remaining
      let readSize := alignValue compareSize blockSize
      if readSize > bufferSize then
        some ((.unsupported, false), state)
      else if readSize > endOfLastBlock ∨ readOffset > endOfLastBlock - readSize then
        some ((.unsupported, false), state)
      else
        match fwImageRead this readOffset readSize readFlags state with
        | (none, state) => some ((.deviceError, false), state)
        | (some buffer, state) =>
          if isErased (buffer.take compareSize) then
            tailLoop bufferSize blockSize endOfLastBlock readFlags fuel (remaining - compareSize)
              (readOffset + compareSize) state
          else
            some ((.success, false), state)
    else
      some ((.success, true), state)

def checkLastBlockTailAllFf (bufferSize fuel imageBytes readFlags : Nat) (state : State) :
    Option ((EfiStatus × Bool) × State) :=
  if this.getAttributesFails then
    some ((.deviceError, false), state)
  else if this.attributes.eraseBlockSize = 0 then
    some ((.unsupported, false), state)
  else if imageBytes > 2 ^ 64 - 1 - this.attributes.eraseBlockSize + 1 then
    some ((.invalidParameter, false), state)
  else
    let endOfLastBlock := alignValue imageBytes this.attributes.eraseBlockSize
    let tailInLastBlockBytes := endOfLastBlock - imageBytes
    if tailInLastBlockBytes = 0 then
      some ((.success, true), state)
    else
      tailLoop this bufferSize this.attributes.blockSize endOfLastBlock readFlags fuel
        tailInLastBlockBytes imageBytes state

/-- The loop of `CompareImageToBuffer` with `dataBuffer` left to compare from `compareOffset` on. -/
def compareLoop (bufferSize blockSize readFlags : Nat) :
    Nat → Nat → List UInt8 → State → Option ((EfiStatus × Bool) × State)
  | 0, _, _, _ => none
  | fuel + 1, compareOffset, dataBuffer, state =>
    if dataBuffer.length > 0 then
      let compareSize := if dataBuffer.length > bufferSize then bufferSize else dataBuffer.length
      let readSize := alignValue compareSize blockSize
      if readSize > bufferSize then
        some ((.unsupported, false), state)
      else
        match fwImageRead this compareOffset readSize readFlags state with
        | (none, state) => some ((.deviceError, false), state)
        | (some buffer, state) =>
          if buffer.take compareSize = dataBuffer.take compareSize then
            compareLoop bufferSize blockSize readFlags fuel (compareOffset + compareSize)
              (dataBuffer.drop compareSize) state
          else
            some ((.success, false), state)
    else
      some ((.success, true), state)

def compareImageToBuffer (bufferSize fuel : Nat) (dataBuffer : List UInt8) (readFlags : Nat)
    (state : State) : Option ((EfiStatus × Bool) × State) :=
  if this.getAttributesFails then
    some ((.deviceError, false), state)
  else
    compareLoop this bufferSize this.attributes.blockSize readFlags fuel 0 dataBuffer state

/-- The loop of `WriteImageFromBuffer` with `dataBuffer` left to write from `writeOffset` on. -/
def writeLoop (flags writeOffset : Nat) (dataBuffer : List UInt8) (storage : Part → Memory) :
    EfiStatus × (Part → Memory) :=
  if _h : dataBuffer = [] then
    (.success, storage)
  else
    let (status, storage) :=
      fwImageWrite this writeOffset (dataBuffer.take fmpWriteLoopSize) flags storage
    if status.isError then (status, storage)
    else
      writeLoop flags (writeOffset + (dataBuffer.take fmpWriteLoopSize).length)
        (dataBuffer.drop fmpWriteLoopSize) storage
termination_by dataBuffer.length
decreasing_by
  have hpos := List.length_pos_iff.mpr _h
  rw [List.length_drop, fmpWriteLoopSize]
  omega

def writeImageFromBuffer (dataBuffer : List UInt8) (flags : Nat) (storage : Part → Memory) :
    EfiStatus × (Part → Memory) :=
  writeLoop this flags 0 dataBuffer storage

/-- The images that are compared before they are written. -/
def isRegular (imageName : Name) : Bool :=
  imageName != nameOf "update_inactive_partitions" && imageName != nameOf "GPT" && imageName != nameOf "mb1"

/-- The flags of the reads that go where a write with `flags` goes. -/
def readFlagsOf (flags : Nat) : Nat :=
  if flags &&& (forcePartitionA ||| forcePartitionB) ≠ 0 then
    flags &&& (forcePartitionA ||| forcePartitionB)
  else readInactiveImage

/-- Whether the write is left out, of a regular image. -/
def skipsWrite (bufferSize fuel : Nat) (dataBuffer : List UInt8) (flags : Nat) (state : State) :
    Option (Bool × State) :=
  match compareImageToBuffer this bufferSize fuel dataBuffer (readFlagsOf flags) state with
  | none => none
  | some ((status, matches'), state) =>
    if !status.isError && matches' then
      match checkLastBlockTailAllFf this bufferSize fuel dataBuffer.length (readFlagsOf flags) state with
      | none => none
      | some ((status, tailAllFf), state) => some (!status.isError && tailAllFf, state)
    else
      some (false, state)

/-- `WriteImage` once the image and its data are found: `bufferSize` is the size of the scratch
buffer. It returns when the loops do with so much fuel. -/
def writeImage (bufferSize fuel : Nat) (dataBuffer : List UInt8) (flags : Nat) (state : State) :
    Option (EfiStatus × State) :=
  let written (state : State) : EfiStatus × State :=
    let (status, storage) := writeImageFromBuffer this dataBuffer flags state.storage
    (status, { state with storage := storage })
  if isRegular this.imageName then
    match skipsWrite this bufferSize fuel dataBuffer flags state with
    | none => none
    | some (skips, state) => if skips then some (.success, state) else some (written state)
  else
    some (written state)

end FwImage
