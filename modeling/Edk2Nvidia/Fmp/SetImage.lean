import Edk2Nvidia.FwImage.AssemblyLaw
import Edk2Nvidia.FwImage.ReadBeforeWrite

/-! The installation of a firmware package: every image of it is written to the boot chain that does
not run, read back, and only then is the boot BCT changed to that chain. -/
namespace TegraFmp
open Flash (Memory slice isErased)
open FwPartition (Name nameOf)
open FwImage (alignValue readFlagsOf)
open FwImageDxe

/-- The calls that leave the update code and the images. -/
inductive Command where
  | partitionRead (partition : Partition) (offset bytes : Nat)
  | partitionWrite (partition : Partition) (offset : Nat) (data : List UInt8)
  | setInactiveBootChainStatus (good : Bool)
  | updateBackupPartition (data : List UInt8)
  | updateFwChain (chain : BootChain)
  | getSinglePartitionChain
  | deleteSinglePartitionChain

/-- How a call is answered: its status, the value of a variable, and what a call that writes makes
of the content of its partition. -/
structure Answer where
  status : EfiStatus
  value : UInt8
  image : Memory → Memory

structure System where
  storage : Name → Memory
  inactiveChainGood : Bool
  /-- The chain that the boot BCT was last changed to. -/
  bctChain : Option BootChain

/-- The system with another content of a partition. -/
def System.replaced (system : System) (name : Name) (image : Memory) : System :=
  { system with storage := fun n => if n = name then image else system.storage n }

/-- The data of a write that succeeds is in the partition; everything else is as the environment has
it, in the whole partition. -/
def written (status : EfiStatus) (offset : Nat) (data : List UInt8) (image : Memory) : Memory :=
  if status.isError then image
  else fun a =>
    if offset ≤ a ∧ a < offset + data.length then data.getD (a - offset) 0 else image a

def exec (command : Command) (answer : Answer) (system : System) :
    (EfiStatus × List UInt8) × System :=
  match command with
  | .partitionRead partition offset bytes =>
    ((answer.status, slice (system.storage partition.partitionName) offset bytes), system)
  | .partitionWrite partition offset data =>
    ((answer.status, []),
      system.replaced partition.partitionName
        (written answer.status offset data
          (answer.image (system.storage partition.partitionName))))
  | .setInactiveBootChainStatus good =>
    ((answer.status, []),
      if answer.status.isError then system else { system with inactiveChainGood := good })
  | .updateBackupPartition _ =>
    ((answer.status, []), system.replaced brBctBackupPartitionName
      (answer.image (system.storage brBctBackupPartitionName)))
  | .updateFwChain chain =>
    ((answer.status, []),
      { system.replaced bctPartition (answer.image (system.storage bctPartition)) with
        bctChain := some chain })
  | .getSinglePartitionChain => ((answer.status, [answer.value]), system)
  | .deleteSinglePartitionChain => ((answer.status, []), system)

abbrev Program := Effect.Prog Command (EfiStatus × List UInt8)

/-- The images with their table, and the settings. -/
structure Fmp where
  platform : Platform
  images : List Private
  fwImagesRequired : List Name
  pcdFmpWriteVerifyImage : Bool
  pcdFmpSingleImageUpdate : Bool
  pcdFmpMultiImageMinimalUpdate : Bool
  mFmpLibInitialized : Bool

/-- `FW_PACKAGE_HEADER`: how many images it has, and what the selection of one by its name and the
specs of the platform finds, the data of the image or an error. -/
structure Package where
  imageCount : Nat
  select : Name → Except EfiStatus (List UInt8)
  select_isError : ∀ name status, select name = .error status → status.isError = true

/-- The `LAS_ERROR_` codes of an installation, and `LAST_ATTEMPT_STATUS_SUCCESS`. -/
inductive LastAttemptStatus where
  | success
  | badImagePointer
  | fmpLibUninitialized
  | setSingleImageFailed
  | setInactiveBootChainBadFailed
  | gptVerifyFailed
  | gptInvalidateFailed
  | mb1InvalidateError
  | writeImagesFailed
  | mb1WriteError
  | gptWriteFailed
  | verifyImagesFailed
  | updateBctBackupPartitionFailed
  | bctUpdateFailed
  | setInactiveBootChainGoodFailed
deriving DecidableEq, Repr

def fmpDataBufferSize : Nat := 4 * 1024
def fmpWriteLoopSize : Nat := 32 * 1024

def gpt : Name := nameOf "GPT"
def mb1 : Name := nameOf "mb1"

def specialImageNames : List Name := [gpt, mb1, updateInactivePartitions, brBctBackupPartitionName]
def noVerifyPartitionNames : List Name :=
  [bctPartition, updateInactivePartitions, brBctBackupPartitionName]
def minimalUnsupportedImageNames : List Name :=
  [gpt, updateInactivePartitions, brBctBackupPartitionName]

def otherBootChain (chain : BootChain) : BootChain := chain.other

def RwStatus.efiStatus : RwStatus → EfiStatus
  | .notFound => .notFound
  | .invalidParameter => .invalidParameter

/-- The status, and the one for the next boot. -/
abbrev Result := EfiStatus × LastAttemptStatus

namespace Fmp
variable (fmp : Fmp)

/-! The images. -/

def fwImageFindProtocol (name : Name) : Option Private :=
  fmp.images.find? fun image => image.name == name

/-- `Read` of an image. -/
def read (image : Private) (offset bytes flags : Nat) : Program (EfiStatus × List UInt8) :=
  match fwImageRead fmp.platform image offset bytes flags with
  | .error status => pure (RwStatus.efiStatus status, [])
  | .ok (partition, offset, bytes) =>
    Effect.Prog.perform (.partitionRead partition offset bytes)

/-- `Write` of an image. -/
def write (image : Private) (offset : Nat) (data : List UInt8) (flags : Nat) :
    Program EfiStatus :=
  match fwImageWrite fmp.platform image offset data.length flags with
  | .error status => pure (RwStatus.efiStatus status)
  | .ok (partition, offset, _) => do
    let (status, _) ← Effect.Prog.perform (.partitionWrite partition offset data)
    pure status

/-! The package. -/

def getPackageImageName (name : Name) : Name :=
  if name = gpt ∨ name = updateInactivePartitions then
    match otherBootChain fmp.platform.mBootChain with
    | .a => nameOf "secondary_gpt"
    | .b => nameOf "secondary_gpt_backup"
  else name

/-- `GetPackageImageIndex`, with the data of the image in place of its index. -/
def getPackageImage (header : Package) (name : Name) : Except EfiStatus (List UInt8) :=
  header.select (fmp.getPackageImageName name)

/-! One image. The loops go over the bytes that are left. -/

/-- The loop of `CheckLastBlockTailAllFf`. -/
def tailLoop (image : Private) (endOfLastBlock readFlags remaining readOffset : Nat) :
    Program (EfiStatus × Bool) :=
  if _h : remaining = 0 then pure (.success, true)
  else
    let compareSize := min remaining fmpDataBufferSize
    let readSize := alignValue compareSize image.blockSize
    if readSize > fmpDataBufferSize then pure (.unsupported, false)
    else if readSize > endOfLastBlock ∨ readOffset > endOfLastBlock - readSize then
      pure (.unsupported, false)
    else do
      let (status, buffer) ← fmp.read image readOffset readSize readFlags
      if status.isError then pure (status, false)
      else if ¬ isErased (buffer.take compareSize) then pure (.success, false)
      else
        tailLoop image endOfLastBlock readFlags (remaining - compareSize) (readOffset + compareSize)
termination_by remaining
decreasing_by
  have hpos : 0 < fmpDataBufferSize := by decide
  omega

def checkLastBlockTailAllFf (image : Private) (imageBytes readFlags : Nat) :
    Program (EfiStatus × Bool) :=
  if image.eraseBlockSize = 0 then pure (.unsupported, false)
  else if imageBytes > 2 ^ 64 - 1 - image.eraseBlockSize + 1 then pure (.invalidParameter, false)
  else
    let endOfLastBlock := alignValue imageBytes image.eraseBlockSize
    fmp.tailLoop image endOfLastBlock readFlags (endOfLastBlock - imageBytes) imageBytes

/-- The loop of `CompareImageToBuffer`. -/
def compareLoop (image : Private) (readFlags compareOffset : Nat) (dataBuffer : List UInt8) :
    Program (EfiStatus × Bool) :=
  if _h : dataBuffer = [] then pure (.success, true)
  else
    let compareSize := min dataBuffer.length fmpDataBufferSize
    let readSize := alignValue compareSize image.blockSize
    if readSize > fmpDataBufferSize then pure (.unsupported, false)
    else do
      let (status, buffer) ← fmp.read image compareOffset readSize readFlags
      if status.isError then pure (status, false)
      else if buffer.take compareSize ≠ dataBuffer.take compareSize then pure (.success, false)
      else
        compareLoop image readFlags (compareOffset + compareSize) (dataBuffer.drop compareSize)
termination_by dataBuffer.length
decreasing_by
  have hbuffer : 0 < fmpDataBufferSize := by decide
  have hpos := List.length_pos_iff.mpr _h
  rw [List.length_drop]
  omega

def compareImageToBuffer (image : Private) (dataBuffer : List UInt8) (readFlags : Nat) :
    Program (EfiStatus × Bool) :=
  fmp.compareLoop image readFlags 0 dataBuffer

/-- The loop of `WriteImageFromBuffer`. -/
def writeLoop (image : Private) (flags writeOffset : Nat) (dataBuffer : List UInt8) :
    Program EfiStatus :=
  if _h : dataBuffer = [] then pure .success
  else do
    let status ← fmp.write image writeOffset (dataBuffer.take fmpWriteLoopSize) flags
    if status.isError then pure status
    else
      writeLoop image flags (writeOffset + (dataBuffer.take fmpWriteLoopSize).length)
        (dataBuffer.drop fmpWriteLoopSize)
termination_by dataBuffer.length
decreasing_by
  have hpos := List.length_pos_iff.mpr _h
  have hloop : 0 < fmpWriteLoopSize := by decide
  rw [List.length_drop]
  omega

def writeImageFromBuffer (image : Private) (dataBuffer : List UInt8) (flags : Nat) :
    Program EfiStatus :=
  fmp.writeLoop image flags 0 dataBuffer

/-- Whether the write of a regular image is left out. -/
def skipsWrite (image : Private) (dataBuffer : List UInt8) (flags : Nat) : Program Bool :=
  if image.name ≠ updateInactivePartitions ∧ image.name ≠ gpt ∧ image.name ≠ mb1 then do
    let (status, same) ← fmp.compareImageToBuffer image dataBuffer (readFlagsOf flags)
    if !status.isError && same then do
      let (status, tailAllFf) ←
        fmp.checkLastBlockTailAllFf image dataBuffer.length (readFlagsOf flags)
      pure (!status.isError && tailAllFf)
    else pure false
  else pure false

def writeImage (header : Package) (name : Name) (flags : Nat) : Program EfiStatus :=
  match fmp.fwImageFindProtocol name with
  | none => pure .notFound
  | some image =>
    match fmp.getPackageImage header name with
    | .error status => pure status
    | .ok dataBuffer => do
      if ← fmp.skipsWrite image dataBuffer flags then pure .success
      else fmp.writeImageFromBuffer image dataBuffer flags

def verifyLoop (image : Private) (flags verifyOffset : Nat) (dataBuffer : List UInt8) :
    Program EfiStatus :=
  if _h : dataBuffer = [] then pure .success
  else do
    let verifySize := min dataBuffer.length fmpDataBufferSize
    let (status, buffer) ←
      fmp.read image verifyOffset (alignValue verifySize image.blockSize) flags
    if status.isError then pure status
    else if buffer.take verifySize ≠ dataBuffer.take verifySize then pure .volumeCorrupted
    else verifyLoop image flags (verifyOffset + verifySize) (dataBuffer.drop verifySize)
termination_by dataBuffer.length
decreasing_by
  have hbuffer : 0 < fmpDataBufferSize := by decide
  have hpos := List.length_pos_iff.mpr _h
  rw [List.length_drop]
  omega

def verifyImage (header : Package) (name : Name) (flags : Nat) : Program EfiStatus :=
  if fmp.pcdFmpWriteVerifyImage then
    match fmp.fwImageFindProtocol name with
    | none => pure .notFound
    | some image =>
      match fmp.getPackageImage header name with
      | .error status => pure status
      | .ok dataBuffer => fmp.verifyLoop image flags 0 dataBuffer
  else pure .success

def invalidateImage (name : Name) (flags : Nat) : Program EfiStatus :=
  match fmp.fwImageFindProtocol name with
  | none => pure .notFound
  | some image =>
    fmp.writeImageFromBuffer image
      (List.replicate (min image.writeBytes fmpDataBufferSize) 0xFF) flags

/-! All images. -/

/-- The loops of `WriteRegularImages` and `VerifyAllImages` over the images that are left: the
images that are skipped, and what is done with the others. -/
def forImages (header : Package) (minimalUpdate : Bool) (skips : Name → Bool)
    (action : Name → Program EfiStatus) : List Private → Program EfiStatus
  | [] => pure .success
  | image :: rest =>
    if skips image.name then forImages header minimalUpdate skips action rest
    else
      match fmp.getPackageImage header image.name with
      | .error status =>
        if !minimalUpdate && fmp.fwImagesRequired.contains image.name then pure status
        else forImages header minimalUpdate skips action rest
      | .ok _ => do
        let status ← action image.name
        if status.isError then pure status
        else forImages header minimalUpdate skips action rest

def writeRegularImages (header : Package) (minimalUpdate : Bool) (flags : Nat) :
    Program EfiStatus :=
  fmp.forImages header minimalUpdate
    (fun name => !minimalUpdate && specialImageNames.contains name ||
      minimalUpdate && minimalUnsupportedImageNames.contains name)
    (fun name => fmp.writeImage header name flags) fmp.images

def verifyAllImages (header : Package) (minimalUpdate : Bool) (flags : Nat) :
    Program EfiStatus :=
  if fmp.pcdFmpWriteVerifyImage then
    fmp.forImages header minimalUpdate
      (fun name => noVerifyPartitionNames.contains name ||
        minimalUpdate && minimalUnsupportedImageNames.contains name)
      (fun name => fmp.verifyImage header name flags) fmp.images
  else pure .success

/-! The update. -/

def updateBctBackupPartition (header : Package) : Program EfiStatus :=
  match fmp.getPackageImage header brBctBackupPartitionName with
  | .error _ => pure .success
  | .ok dataBuffer => do
    let (status, _) ← Effect.Prog.perform (.updateBackupPartition dataBuffer)
    pure status

/-- The flag of a write to the chain of the variable. -/
def writeFlag : List UInt8 → Option Nat
  | [0] => some forcePartitionA
  | [1] => some forcePartitionB
  | _ => none

/-- `FmpTegraSetMinimalImages` once the chain is known. -/
def setMinimalImages (header : Package) (flag : Nat) : Program EfiStatus := do
  let status ← fmp.writeRegularImages header true flag
  if status.isError then pure status
  else do
    let status ← fmp.verifyAllImages header true flag
    if status.isError then pure status
    else do
      let _ ← Effect.Prog.perform .deleteSinglePartitionChain
      pure .success

def fmpTegraSetMinimalImages (header : Package) : Program EfiStatus := do
  let (status, bootChain) ← Effect.Prog.perform .getSinglePartitionChain
  if status.isError then pure status
  else
    match writeFlag bootChain with
    | none => pure .unsupported
    | some flag => fmp.setMinimalImages header flag

/-- Whether there is a new GPT in the package; the error of its check otherwise. -/
def gptUpdate (header : Package) : Program (Except EfiStatus Bool) :=
  match fmp.fwImageFindProtocol updateInactivePartitions, fmp.getPackageImage header gpt with
  | some _, .ok _ => do
    let status ← fmp.verifyImage header gpt readInactiveImage
    if status ≠ .volumeCorrupted ∧ status ≠ .success then pure (.error status)
    else pure (.ok (status ≠ .success))
  | _, _ => pure (.ok false)

/-- A step of the update, which ends with the code of the step when it fails. -/
def step (lastAttemptStatus : LastAttemptStatus) (program : Program EfiStatus)
    (rest : Program Result) : Program Result := do
  let status ← program
  if status.isError then pure (.aborted, lastAttemptStatus) else rest

def setInactiveBootChainStatus (good : Bool) : Program EfiStatus := do
  let (status, _) ← Effect.Prog.perform (.setInactiveBootChainStatus good)
  pure status

def updateFwChain : Program EfiStatus := do
  let (status, _) ←
    Effect.Prog.perform (.updateFwChain (otherBootChain fmp.platform.mBootChain))
  pure status

/-- The full update behind the check of the GPT. -/
def installImages (header : Package) (update : Bool) : Program Result :=
  step .gptInvalidateFailed (if update then fmp.invalidateImage gpt 0 else pure .success) <|
  step .mb1InvalidateError (fmp.invalidateImage mb1 0) <|
  step .writeImagesFailed (fmp.writeRegularImages header false 0) <|
  step .mb1WriteError (fmp.writeImage header mb1 0) <|
  step .gptWriteFailed (if update then fmp.writeImage header gpt 0 else pure .success) <|
  step .verifyImagesFailed (fmp.verifyAllImages header false readInactiveImage) <|
  step .updateBctBackupPartitionFailed (fmp.updateBctBackupPartition header) <|
  step .bctUpdateFailed fmp.updateFwChain <|
  step .setInactiveBootChainGoodFailed (setInactiveBootChainStatus true) <|
  pure (.success, .success)

def isMinimal (header : Package) : Bool :=
  header.imageCount == 1 && fmp.pcdFmpSingleImageUpdate || fmp.pcdFmpMultiImageMinimalUpdate

def fmpTegraSetImage (image : Option Package) : Program Result :=
  match image with
  | none => pure (.invalidParameter, .badImagePointer)
  | some header =>
    if ¬ fmp.mFmpLibInitialized then pure (.notReady, .fmpLibUninitialized)
    else if fmp.isMinimal header then
      step .setSingleImageFailed (fmp.fmpTegraSetMinimalImages header) (pure (.success, .success))
    else
      step .setInactiveBootChainBadFailed (setInactiveBootChainStatus false) <| do
        match ← fmp.gptUpdate header with
        | .error _ => pure (.aborted, .gptVerifyFailed)
        | .ok update => fmp.installImages header update

end Fmp
end TegraFmp
