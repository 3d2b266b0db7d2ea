import Edk2Nvidia.Effect.Program
import Edk2Nvidia.NorFlash

/-! Firmware partitions and the devices they lie on: the protocol a partition offers over the
calls of its device, what such a call can change, and the NOR flash driver as a device. -/
namespace FwPartition
open Flash (Memory FlashM slice)

def u64 (n : Nat) : Nat := n % 2 ^ 64

def alignValue (value alignment : Nat) : Nat :=
  value + ((2 ^ 64 + alignment - value) % 2 ^ 64 &&& (alignment - 1))

theorem le_alignValue (value alignment : Nat) : value ≤ alignValue value alignment :=
  Nat.le_add_right _ _

/-- The bytes `[start, stop)`. -/
structure Span where
  start : Nat
  stop : Nat
deriving DecidableEq, Repr

def Span.Contains (span : Span) (a : Nat) : Prop := span.start ≤ a ∧ a < span.stop

instance (span : Span) (a : Nat) : Decidable (span.Contains a) :=
  inferInstanceAs (Decidable (_ ∧ _))

def Span.Apart (span other : Span) : Prop := span.stop ≤ other.start ∨ other.stop ≤ span.start

instance (span other : Span) : Decidable (span.Apart other) :=
  inferInstanceAs (Decidable (_ ∨ _))

/-- What is left of `m` by something that can only change the bytes of `span`. -/
def patch (m : Memory) (span : Span) (image : Memory) : Memory := fun a =>
  if span.Contains a then image a else m a

theorem patch_outside (m : Memory) (span : Span) (image : Memory) {a : Nat}
    (h : ¬ span.Contains a) : patch m span image a = m a := by
  simp [patch, h]

/-- An image that differs in the span only is what a call can leave. -/
theorem patch_eq {m image : Memory} {span : Span} (h : ∀ a, ¬ span.Contains a → image a = m a) :
    patch m span image = image := by
  funext a
  unfold patch
  split
  · rfl
  next hout => exact (h a hout).symm

/-- `FW_PARTITION_DEVICE_INFO`: the storage it stands for, and the bytes of it that `DeviceWrite`
can change at an offset with so many bytes. -/
structure DeviceInfo where
  number : Nat
  blockSize : Nat
  touched : Nat → Nat → Span

abbrev Name := List UInt16

def nameOf (text : String) : Name := text.toList.map fun c => c.toNat.toUInt16

structure PartitionInfo where
  name : Name
  bytes : Nat
  offset : Nat
  isActivePartition : Bool
deriving DecidableEq, Repr

structure PrivateData where
  info : PartitionInfo
  device : DeviceInfo

def fwPartitionFindByName (partitions : List PrivateData) (name : Name) : Option PrivateData :=
  partitions.find? fun partition => partition.info.name == name

def fwPartitionCheckOffsetAndBytes (maxOffset offset bytes : Nat) : EfiStatus :=
  if offset > maxOffset ∨ bytes > maxOffset ∨ u64 (offset + bytes) > maxOffset then
    .invalidParameter
  else .success

inductive Command where
  | deviceRead (device : DeviceInfo) (offset bytes : Nat)
  | deviceWrite (device : DeviceInfo) (offset : Nat) (buffer : List UInt8)
  | setNextBootChain (chain : Nat)

/-- How the device answers: a status, and what a write leaves where it can change something. -/
structure Answer where
  status : EfiStatus
  image : Memory

structure System where
  storage : Nat → Memory
  nextBootChain : Option Nat

/-- The storage with `image` in the span of one device. -/
def System.patched (system : System) (number : Nat) (span : Span) (image : Memory) : System :=
  { system with
    storage := fun n =>
      if n = number then patch (system.storage n) span image else system.storage n }

def exec (command : Command) (answer : Answer) (system : System) :
    (EfiStatus × List UInt8) × System :=
  match command with
  | .deviceRead device offset bytes =>
    ((answer.status, slice (system.storage device.number) offset bytes), system)
  | .deviceWrite device offset buffer =>
    ((answer.status, []),
      system.patched device.number (device.touched offset buffer.length) answer.image)
  | .setNextBootChain chain =>
    ((answer.status, []), { system with nextBootChain := some chain })

abbrev Program := Effect.Prog Command (EfiStatus × List UInt8)

def fwPartitionRead (partition : PrivateData) (offset bytes : Nat) :
    Program (EfiStatus × List UInt8) :=
  let status := fwPartitionCheckOffsetAndBytes partition.info.bytes offset bytes
  if status.isError then pure (status, [])
  else Effect.Prog.perform
    (.deviceRead partition.device (u64 (offset + partition.info.offset)) bytes)

/-- `NVIDIA_FW_PARTITION_PROTOCOL.Write`, with `mOverwriteActiveFwPartition`. -/
def fwPartitionWrite (overwriteActiveFwPartition : Bool) (partition : PrivateData) (offset : Nat)
    (buffer : List UInt8) : Program EfiStatus := do
  let status := fwPartitionCheckOffsetAndBytes partition.info.bytes offset buffer.length
  if status.isError then pure status
  else if partition.info.isActivePartition && !overwriteActiveFwPartition then
    pure .writeProtected
  else
    let (status, _) ← Effect.Prog.perform
      (.deviceWrite partition.device (u64 (offset + partition.info.offset)) buffer)
    pure status

/-- What can be left when power is lost as `command` is due or while it is carried out. -/
def Image (command : Command) (system image : System) : Prop :=
  image = system ∨ ∃ answer, image = (exec command answer system).2

/-! The NOR flash as a device. -/

/-- `FW_PARTITION_NOR_FLASH_INFO`. `Bytes` is the memory density. -/
structure NorFlashInfo where
  attributes : NorFlash
  unalignedGptStart : Nat

namespace NorFlashInfo
variable (info : NorFlashInfo)

def lbaCount (bytes : Nat) : Nat :=
  alignValue bytes info.attributes.blockSize / info.attributes.blockSize

def fpNorFlashErase (offset bytes : Nat) : FlashM EfiStatus Unit EfiStatus :=
  let status := fwPartitionCheckOffsetAndBytes info.attributes.memoryDensity offset bytes
  if status.isError then pure status
  else if offset % info.attributes.blockSize ≠ 0 then pure .invalidParameter
  else info.attributes.erase (offset / info.attributes.blockSize) (info.lbaCount bytes)

def fpNorFlashWrite (offset : Nat) (buffer : List UInt8) : FlashM EfiStatus Unit EfiStatus := do
  let status :=
    fwPartitionCheckOffsetAndBytes info.attributes.memoryDensity offset buffer.length
  if status.isError then pure status
  else
    let unaligned := offset % info.attributes.blockSize
    if unaligned = 0 then
      let status ← info.fpNorFlashErase offset buffer.length
      if status.isError then pure status
      else info.attributes.write offset buffer
    else if offset = info.unalignedGptStart then
      let status ← info.fpNorFlashErase (offset - unaligned) (buffer.length + unaligned)
      if status.isError then pure status
      else info.attributes.write offset buffer
    else info.attributes.write offset buffer

/-- The blocks an erase of so many bytes covers, and the bytes themselves. -/
def erasedSpan (start bytes : Nat) : Span :=
  ⟨start, start + max bytes (info.lbaCount bytes * info.attributes.blockSize)⟩

def touched (offset bytes : Nat) : Span :=
  let unaligned := offset % info.attributes.blockSize
  if unaligned = 0 then info.erasedSpan offset bytes
  else if offset = info.unalignedGptStart then
    info.erasedSpan (offset - unaligned) (bytes + unaligned)
  else ⟨offset, offset + bytes⟩

def deviceInfo (number : Nat) : DeviceInfo := ⟨number, info.attributes.blockSize, info.touched⟩

end NorFlashInfo

/-- `image` differs from `m` in the span only. -/
def Within (m : Memory) (span : Span) (image : Memory) : Prop :=
  ∀ a, ¬ span.Contains a → image a = m a

theorem Within.refl (m : Memory) (span : Span) : Within m span m := fun _ _ => rfl

theorem Within.program {m image : Memory} {span : Span} (h : Within m span image) {offset : Nat}
    {data : List UInt8} (hlo : span.start ≤ offset) (hhi : offset + data.length ≤ span.stop) :
    Within m span (Flash.program image offset data) := by
  intro a ha
  rw [Flash.program_outside image offset data a, h a ha]
  unfold Span.Contains at ha
  omega

theorem Within.erase {m image : Memory} {span : Span} (h : Within m span image)
    {offset size : Nat} (hlo : span.start ≤ offset) (hhi : offset + size ≤ span.stop) :
    Within m span (Flash.erase image offset size) := by
  intro a ha
  rw [Flash.erase_outside image offset size a, h a ha]
  unfold Span.Contains at ha
  omega

section NorFlash
variable {nor : NorFlash} {m image : Memory} {span : Span} {offset bytes : Nat}

theorem wp_norWrite (h : Within m span image) (ho : offset < 2 ^ 32) {buffer : List UInt8}
    (hlo : span.start ≤ offset) (hhi : offset + buffer.length ≤ span.stop) :
    Flash.wp false (nor.write offset buffer) (fun _ _ left => Within m span left)
      (Within m span) () image := by
  have hcut : ∀ j, Within m span (Flash.program image offset (buffer.take j)) := by
    intro j
    apply h.program hlo
    have hlength : (buffer.take j).length ≤ buffer.length := List.length_take_le' _ _
    omega
  unfold NorFlash.write
  rw [u32_of_lt ho]
  dsimp only
  split
  · exact Flash.wp_pure.mpr ⟨h, h⟩
  · rw [Flash.wp_writeFlash]
    refine ⟨fun j => ?_, hcut _, hcut _⟩
    rw [List.take_take]
    exact hcut _

theorem wp_norErase (h : Within m span image) {block count : Nat}
    (hblock : block * nor.blockSize < 2 ^ 32) (hpos : 0 < nor.blockSize)
    (hlo : span.start ≤ block * nor.blockSize)
    (hhi : block * nor.blockSize + count * nor.blockSize ≤ span.stop) :
    Flash.wp false (nor.erase block count) (fun _ _ left => Within m span left)
      (Within m span) () image := by
  have hb : block < 2 ^ 32 := Nat.lt_of_le_of_lt (Nat.le_mul_of_pos_right block hpos) hblock
  have hcount : u32 count * nor.blockSize ≤ count * nor.blockSize :=
    Nat.mul_le_mul_right _ (Nat.mod_le _ _)
  unfold NorFlash.erase
  rw [u32_of_lt hb]
  dsimp only
  split
  · exact Flash.wp_pure.mpr ⟨h, h⟩
  · rw [Flash.wp_eraseFlash]
    have herased := @Within.erase _ _ _ h _ (u32 count * nor.blockSize) hlo (by omega)
    exact ⟨h, herased, herased⟩

end NorFlash

theorem check_success {maxOffset offset bytes : Nat}
    (h : (fwPartitionCheckOffsetAndBytes maxOffset offset bytes).isError = false) :
    offset ≤ maxOffset ∧ bytes ≤ maxOffset ∧ u64 (offset + bytes) ≤ maxOffset := by
  unfold fwPartitionCheckOffsetAndBytes at h
  split at h
  · cases h
  · omega

namespace NorFlashInfo
variable {info : NorFlashInfo} {m image : Memory} {span : Span} {offset bytes : Nat}

theorem wp_fpNorFlashErase (hdensity : info.attributes.memoryDensity < 2 ^ 32)
    (hpos : 0 < info.attributes.blockSize) (h : Within m span image)
    (hlo : span.start ≤ offset)
    (hhi : offset + info.lbaCount bytes * info.attributes.blockSize ≤ span.stop) :
    Flash.wp false (info.fpNorFlashErase offset bytes) (fun _ _ left => Within m span left)
      (Within m span) () image := by
  unfold fpNorFlashErase
  dsimp only
  split
  · exact Flash.wp_pure.mpr ⟨h, h⟩
  next hcheck =>
    split
    · exact Flash.wp_pure.mpr ⟨h, h⟩
    next haligned =>
      have hin := (check_success (Bool.eq_false_iff.mpr hcheck)).1
      have hstart : offset / info.attributes.blockSize * info.attributes.blockSize = offset :=
        Nat.div_mul_cancel (Nat.dvd_of_mod_eq_zero (Classical.not_not.mp haligned))
      exact wp_norErase h (by omega) hpos (by omega) (by omega)

/-- Whatever a write does, returns or leaves behind at a power loss, it stays in its span. -/
theorem wp_fpNorFlashWrite (hdensity : info.attributes.memoryDensity < 2 ^ 32)
    (hpos : 0 < info.attributes.blockSize) (buffer : List UInt8) (m : Memory) :
    Flash.wp false (info.fpNorFlashWrite offset buffer)
      (fun _ _ left => Within m (info.touched offset buffer.length) left)
      (Within m (info.touched offset buffer.length)) () m := by
  unfold fpNorFlashWrite
  dsimp only
  split
  · exact Flash.wp_pure.mpr ⟨Within.refl m _, Within.refl m _⟩
  next hcheck =>
    have hin := (check_success (Bool.eq_false_iff.mpr hcheck)).1
    unfold touched
    dsimp only
    split
    next haligned =>
      apply Flash.wp_bind
      refine Flash.wp_post (wp_fpNorFlashErase hdensity hpos (Within.refl m _) ?_ ?_) ?_
      · exact Nat.le_refl _
      · exact Nat.add_le_add_left (Nat.le_max_right _ _) _
      · intro status _ left hleft
        split
        · exact Flash.wp_pure.mpr ⟨hleft, hleft⟩
        · exact wp_norWrite hleft (by omega) (Nat.le_refl _)
            (Nat.add_le_add_left (Nat.le_max_left _ _) _)
    next hunaligned =>
      have hmod : offset % info.attributes.blockSize ≤ offset := Nat.mod_le _ _
      split
      next hgpt =>
        apply Flash.wp_bind
        refine Flash.wp_post (wp_fpNorFlashErase hdensity hpos (Within.refl m _) ?_ ?_) ?_
        · exact Nat.le_refl _
        · exact Nat.add_le_add_left (Nat.le_max_right _ _) _
        · intro status _ left hleft
          split
          · exact Flash.wp_pure.mpr ⟨hleft, hleft⟩
          · apply wp_norWrite hleft (by omega)
            · exact Nat.sub_le _ _
            · unfold erasedSpan
              dsimp only
              omega
      next hother =>
        exact wp_norWrite (Within.refl m _) (by omega) (Nat.le_refl _) (Nat.le_refl _)

/-- A write of the flash driver, completed or torn, is an answer of its device. -/
theorem exec_norWrite (hdensity : info.attributes.memoryDensity < 2 ^ 32)
    (hpos : 0 < info.attributes.blockSize) (number : Nat) (buffer : List UInt8) (system : System) :
    (∀ status left, (info.fpNorFlashWrite offset buffer ()).run (system.storage number) =
        (some (status, ()), left) →
      exec (.deviceWrite (info.deviceInfo number) offset buffer) ⟨status, left⟩ system =
        ((status, []), { system with storage := Function.update system.storage number left })) ∧
    ∀ left, (info.fpNorFlashWrite offset buffer ()).PowerLoss (system.storage number) left →
      Image (.deviceWrite (info.deviceInfo number) offset buffer) system
        { system with storage := Function.update system.storage number left } := by
  have hwrite := @wp_fpNorFlashWrite info offset hdensity hpos buffer (system.storage number)
  have hpatched : ∀ left,
      Within (system.storage number) (info.touched offset buffer.length) left →
      system.patched number (info.touched offset buffer.length) left =
        { system with storage := Function.update system.storage number left } := by
    intro left hwithin
    unfold System.patched
    congr 1
    funext n
    by_cases hn : n = number
    · subst hn
      rw [if_pos rfl, Function.update_self, patch_eq hwithin]
    · rw [if_neg hn, Function.update_of_ne hn]
  constructor
  · intro status left hrun
    have hwithin := Flash.wp_run hwrite hrun
    exact Prod.ext rfl (hpatched left hwithin)
  · intro left hlost
    have hwithin := Flash.wp_powerLoss hwrite hlost
    exact .inr ⟨⟨.deviceError, left⟩, (hpatched left hwithin).symm⟩

end NorFlashInfo

end FwPartition
