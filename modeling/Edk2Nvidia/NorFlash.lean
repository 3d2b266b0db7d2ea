import Edk2Nvidia.Flash.Program

/-! The NOR flash protocol the drivers call: the range checks of the device in
front of the commands, with status codes. -/

inductive EfiStatus where
  | success
  | invalidParameter
  | unsupported
  | bufferTooSmall
  | deviceError
  | volumeCorrupted
  | outOfResources
  | notFound
  | accessDenied
  | aborted
  | compromisedData
  | noMedia
  | notReady
  | timeout
  | protocolError
  | crcError
  | badBufferSize
  | securityViolation
  | alreadyStarted
  | writeProtected
deriving DecidableEq, Repr

namespace EfiStatus

/-- `EFI_ERROR`. -/
def isError (status : EfiStatus) : Bool := status != success

instance : Flash.Status EfiStatus := ⟨success⟩

@[simp] theorem ok_eq : (Flash.Status.ok : EfiStatus) = success := rfl
@[simp] theorem isError_success : success.isError = false := rfl

end EfiStatus

def u32 (n : Nat) : Nat := n % 2 ^ 32

@[simp] theorem u32_eq_iff {n : Nat} : u32 n = n ↔ n < 2 ^ 32 := by
  unfold u32
  omega

theorem u32_of_lt {n : Nat} (h : n < 2 ^ 32) : u32 n = n := u32_eq_iff.mpr h

structure NorFlash where
  memoryDensity : Nat
  blockSize : Nat
deriving DecidableEq, Repr

namespace NorFlash
open Flash

def read (nor : NorFlash) (offset size : Nat) : FlashM EfiStatus σ (EfiStatus × List UInt8) :=
  let offset := u32 offset
  let size := u32 size
  let flashDensity := u32 nor.memoryDensity
  if size = 0 ∨ offset > u32 (flashDensity + (2 ^ 32 - 1)) ∨ u32 (offset + size) > flashDensity then
    pure (.invalidParameter, [])
  else
    readFlash offset size

def write (nor : NorFlash) (offset : Nat) (data : List UInt8) : FlashM EfiStatus σ EfiStatus :=
  let offset := u32 offset
  let size := u32 data.length
  let flashDensity := u32 nor.memoryDensity
  if size = 0 ∨ offset > u32 (flashDensity + (2 ^ 32 - 1)) ∨ u32 (offset + size) > flashDensity then
    pure .invalidParameter
  else
    writeFlash offset (data.take size)

/-- `NorFlashErase` of the uniform blocks. -/
def erase (nor : NorFlash) (lba numLba : Nat) : FlashM EfiStatus σ EfiStatus :=
  let lba := u32 lba
  let numLba := u32 numLba
  let lastBlock := u32 (nor.memoryDensity / nor.blockSize + (2 ^ 32 - 1))
  if numLba = 0 ∨ lba > lastBlock ∨ u32 (lba + numLba + (2 ^ 32 - 1)) > lastBlock then
    pure .invalidParameter
  else
    eraseFlash (lba * nor.blockSize) (numLba * nor.blockSize)

/-- `[offset, offset + size)` is a range of the device. -/
structure Covers (nor : NorFlash) (offset size : Nat) : Prop where
  nonempty : 0 < size
  inside : offset + size ≤ nor.memoryDensity
  addressable : nor.memoryDensity < 2 ^ 32

variable {nor : NorFlash} {offset size : Nat} {σ : Type}

theorem Covers.sub (h : nor.Covers offset size) {offset' size' : Nat} (nonempty : 0 < size')
    (inside : offset' + size' ≤ offset + size) : nor.Covers offset' size' :=
  ⟨nonempty, Nat.le_trans inside h.inside, h.addressable⟩

theorem read_eq (h : nor.Covers offset size) :
    (nor.read offset size : FlashM EfiStatus σ _) = readFlash offset size := by
  obtain ⟨h0, hin, hlt⟩ := h
  unfold read
  simp only [u32_of_lt hlt, u32_of_lt (show offset < 2 ^ 32 by omega),
    u32_of_lt (show size < 2 ^ 32 by omega), u32_of_lt (show offset + size < 2 ^ 32 by omega)]
  rw [if_neg]
  unfold u32
  omega

theorem write_eq {data : List UInt8} (h : nor.Covers offset data.length) :
    (nor.write offset data : FlashM EfiStatus σ _) = writeFlash offset data := by
  obtain ⟨h0, hin, hlt⟩ := h
  unfold write
  simp only [u32_of_lt hlt, u32_of_lt (show offset < 2 ^ 32 by omega),
    u32_of_lt (show data.length < 2 ^ 32 by omega),
    u32_of_lt (show offset + data.length < 2 ^ 32 by omega), List.take_length]
  rw [if_neg]
  unfold u32
  omega

theorem erase_eq (k n : Nat) (hn : 0 < n) (hb : 0 < nor.blockSize)
    (h : nor.Covers (k * nor.blockSize) (n * nor.blockSize)) :
    (nor.erase k n : FlashM EfiStatus σ _) =
      eraseFlash (k * nor.blockSize) (n * nor.blockSize) := by
  obtain ⟨-, hin, hlt⟩ := h
  have hkn : k + n ≤ nor.memoryDensity / nor.blockSize := by
    rw [Nat.le_div_iff_mul_le hb, Nat.add_mul]
    exact hin
  have hd : nor.memoryDensity / nor.blockSize ≤ nor.memoryDensity := Nat.div_le_self _ _
  unfold erase
  simp only [u32_of_lt (show k < 2 ^ 32 by omega), u32_of_lt (show n < 2 ^ 32 by omega)]
  rw [if_neg]
  unfold u32
  omega

theorem returns_read {s : σ} {m : Memory} (h : nor.Covers offset size) :
    Returns (nor.read offset size : FlashM EfiStatus σ _) (.success, slice m offset size) s m := by
  rw [read_eq h]
  exact returns_readFlash offset size

theorem returns_read_or_refuse {m : Memory} (ho : offset < 2 ^ 32) (hs : size < 2 ^ 32) :
    (∀ s : σ, Returns (nor.read offset size) (EfiStatus.success, slice m offset size) s m) ∨
      ∀ s : σ, Returns (nor.read offset size) (EfiStatus.invalidParameter, []) s m := by
  unfold read
  simp only [u32_of_lt ho, u32_of_lt hs]
  split
  next => exact .inr fun _ => returns_pure _
  next => exact .inl fun _ => returns_readFlash offset size

end NorFlash
