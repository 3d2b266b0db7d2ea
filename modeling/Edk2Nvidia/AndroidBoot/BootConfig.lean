import Edk2Nvidia.Parse.Packed
import Edk2Nvidia.FwPartition.Device

/-! The section of the boot configuration: parameters, and a trailer with their size, their checksum
and a magic, that is looked for in front of the section's end. -/
namespace AndroidBootDxe
open Flash (Memory Holds overwrite slice toLittleEndian)
open FwPartition (u64)

def bootConfigMagic : List UInt8 :=
  [0x23, 0x42, 0x4F, 0x4F, 0x54, 0x43, 0x4F, 0x4E, 0x46, 0x49, 0x47, 0x0A]

def bootConfigMagicSize : Nat := 12
def bootConfigSizeSize : Nat := 4
def bootConfigChecksumSize : Nat := 4
def bootConfigTrailerSize : Nat :=
  bootConfigMagicSize + bootConfigSizeSize + bootConfigChecksumSize

/-- `CheckSum`; a character is unsigned. -/
def checkSum (buffer : List UInt8) : Nat := buffer.foldl (fun sum byte => u32 (sum + byte.toNat)) 0

/-- `AsciiStrnCmp`: whether the characters from an address on are those of a text. -/
def asciiStrnCmp (m : Memory) : Nat → List UInt8 → Nat → Bool
  | _, _, 0 => true
  | first, second, length + 1 =>
    let c := m (u64 first)
    if c ≠ 0 ∧ second.headD 0 ≠ 0 ∧ c = second.headD 0 ∧ 0 < length then
      asciiStrnCmp m (first + 1) second.tail length
    else c = second.headD 0

def isTrailerPresent (m : Memory) (bootConfigEndAddr : Nat) : Bool :=
  asciiStrnCmp m (u64 (bootConfigEndAddr + (2 ^ 64 - bootConfigMagicSize))) bootConfigMagic
    bootConfigMagicSize

/-- The memory, and the size of the trailer that was added. -/
def addBootConfigTrailer (m : Memory) (bootConfigStartAddr bootConfigSize : Nat) :
    Except EfiStatus (Memory × Nat) :=
  if bootConfigStartAddr = 0 then .error .invalidParameter
  else if bootConfigSize = 0 then .ok (m, 0)
  else
    let stop := u64 (bootConfigStartAddr + bootConfigSize)
    if isTrailerPresent m stop then .ok (m, 0)
    else
      let sized := overwrite m stop (toLittleEndian bootConfigSizeSize bootConfigSize)
      let sum := checkSum (slice sized bootConfigStartAddr bootConfigSize)
      let summed := overwrite sized (stop + bootConfigSizeSize)
        (toLittleEndian bootConfigChecksumSize sum)
      .ok (overwrite summed (stop + bootConfigSizeSize + bootConfigChecksumSize) bootConfigMagic,
        bootConfigTrailerSize)

/-- The memory and `AppliedBytes`; that the trailer could not be added is only logged. -/
def addBootConfigParameters (params : List UInt8) (m : Memory)
    (bootConfigStartAddr bootConfigSize : Nat) : Except EfiStatus (Memory × Nat) :=
  if bootConfigStartAddr = 0 ∨ params.length = 0 then .error .invalidParameter
  else
    let stop := u64 (bootConfigStartAddr + bootConfigSize)
    let present := isTrailerPresent m stop
    let paramsAddr := if present then u64 (stop + (2 ^ 64 - bootConfigTrailerSize)) else stop
    let removed := if present then u32 (2 ^ 32 - bootConfigTrailerSize) else 0
    let copied := overwrite m paramsAddr params
    let applied := u32 (removed + params.length)
    match addBootConfigTrailer copied bootConfigStartAddr (u32 (bootConfigSize + applied)) with
    | .error _ => .ok (copied, u32 (applied + applied))
    | .ok (result, trailerSize) => .ok (result, u32 (applied + trailerSize))

/-! What the section is. -/

def trailer (text : List UInt8) : List UInt8 :=
  toLittleEndian bootConfigSizeSize text.length ++
    (toLittleEndian bootConfigChecksumSize (checkSum text) ++ bootConfigMagic)

def sectionOf (text : List UInt8) : List UInt8 := text ++ trailer text

structure Initial where
  text : List UInt8
  withTrailer : Bool

def Initial.bytes (initial : Initial) : List UInt8 :=
  if initial.withTrailer then sectionOf initial.text else initial.text

/-- The parameters are appended one after the other, and each time the section is all the parameters
so far with their trailer, and has grown by as many bytes as were said to be applied. -/
def Appends (start : Nat) : Memory → List UInt8 → List UInt8 → List (List UInt8) → Prop
  | _, _, _, [] => True
  | m, bytes, text, params :: rest =>
    ∃ m' applied, addBootConfigParameters params m start bytes.length = .ok (m', applied) ∧
      Holds m' start (sectionOf (text ++ params)) ∧
      bytes.length + applied = (sectionOf (text ++ params)).length ∧
      Appends start m' (sectionOf (text ++ params)) (text ++ params) rest

/-- The parameters are appended so wherever the section lies, and whatever lies around it. -/
def AppendLaw (initial : Initial) (params : List (List UInt8)) : Prop :=
  ∀ start m, start ≠ 0 → start + (sectionOf (initial.text ++ params.flatten)).length ≤ 2 ^ 64 →
    Holds m start initial.bytes → Appends start m initial.bytes initial.text params

/-- Where the trailer is looked for behind parameters, these are no end of the magic. -/
structure Told (initial : Initial) (params : List (List UInt8)) : Prop where
  initially : initial.withTrailer = false → params ≠ [] → ¬ initial.text <:+ bootConfigMagic
  appended : ∀ front, front <+: params → front ≠ [] →
    ¬ initial.text ++ front.flatten <:+ bootConfigMagic

end AndroidBootDxe
