import Edk2Nvidia.NorFlash
import Mathlib.Data.List.Basic
import Mathlib.Logic.Function.Basic

/-! The command field of the bootloader message on the misc partition: what is read from it, set in
it and cleaned out of it, over boots that each start with nothing cached. -/
namespace MiscPartition

def commandBytes : Nat := 32

structure BootloaderMessage where
  command : Vector UInt8 commandBytes
  status : Vector UInt8 32
  recovery : Vector UInt8 768
  stage : Vector UInt8 32
  reserved : Vector UInt8 1184

inductive MiscCmdType where
  | recovery
  | fastbootUserspace
  | fastbootBootloader
  | bootQuiescent
  | invalid
  | max
deriving DecidableEq, Repr

/-- The commands that ask for one boot only. -/
def MiscCmdType.BootOnce (type : MiscCmdType) : Prop :=
  type = .fastbootBootloader ∨ type = .bootQuiescent

instance (type : MiscCmdType) : Decidable type.BootOnce :=
  inferInstanceAs (Decidable (_ ∨ _))

def charBytes (text : String) : List UInt8 := text.toList.map fun c => UInt8.ofNat c.toNat

def msgCommandBootRecovery : List UInt8 := charBytes "boot-recovery"
def msgCommandBootQuiescent : List UInt8 := charBytes "boot-quiescent"
def msgCommandBootFastbootUserspace : List UInt8 := charBytes "boot-fastboot"
def msgCommandBootFastbootBootloader : List UInt8 := charBytes "bootonce-bootloader"

/-- `AsciiStrCmp`, or nothing when it would read past the end of the first field. -/
def asciiStrCmp : List UInt8 → List UInt8 → Option Int
  | first :: firsts, second :: seconds =>
    if first ≠ 0 ∧ first = second then asciiStrCmp firsts seconds
    else some ((first.toNat : Int) - second.toNat)
  | _, _ => none

/-- `COMPARE_MSG_COMMAND`; a literal ends with its terminator. -/
def compareMsgCommand (message : BootloaderMessage) (target : List UInt8) : Option Int :=
  asciiStrCmp message.command.toList (target ++ [0])

/-- The chain of comparisons of `GetCmdFromMiscPartition`. -/
def miscCmdType (message : BootloaderMessage) : Option MiscCmdType := do
  if (← compareMsgCommand message msgCommandBootRecovery) = 0 then return .recovery
  if (← compareMsgCommand message msgCommandBootFastbootUserspace) = 0 then
    return .fastbootUserspace
  if (← compareMsgCommand message msgCommandBootQuiescent) = 0 then return .bootQuiescent
  if (← compareMsgCommand message msgCommandBootFastbootBootloader) = 0 then
    return .fastbootBootloader
  return .invalid

/-- What the firmware answers in one call. A read or a write that fails moves no byte. -/
structure Device where
  getMiscIoProtocolFromHandle : EfiStatus
  readDisk : EfiStatus
  writeDisk : EfiStatus

/-- What a call leaves: its status, `*Type` where it was set, the cache and the message area. -/
structure Reply where
  status : EfiStatus
  type : Option MiscCmdType
  cacheCmdType : MiscCmdType
  disk : BootloaderMessage

def writeDisk (device : Device) (disk message : BootloaderMessage) : BootloaderMessage :=
  if device.writeDisk.isError then disk else message

/-- The message that `ClearCmdFromMiscPartition` writes: only the command of its local is set, the
other bytes are what the stack holds. -/
def clearedMessage (stack : BootloaderMessage) : BootloaderMessage :=
  { stack with command := Vector.replicate commandBytes 0 }

def getCmdFromMiscPartition (stack : BootloaderMessage) (device : Device)
    (typeGiven cleanBootOnceCmd : Bool) (cacheCmdType : MiscCmdType) (disk : BootloaderMessage) :
    Option Reply :=
  if !typeGiven then some ⟨.invalidParameter, none, cacheCmdType, disk⟩
  else if cacheCmdType ≠ .max then some ⟨.success, some cacheCmdType, cacheCmdType, disk⟩
  else if device.getMiscIoProtocolFromHandle.isError then
    some ⟨device.getMiscIoProtocolFromHandle, none, cacheCmdType, disk⟩
  else if device.readDisk.isError then some ⟨device.readDisk, none, cacheCmdType, disk⟩
  else do
    let type ← miscCmdType disk
    if type.BootOnce ∧ cleanBootOnceCmd then
      let after := writeDisk device disk (clearedMessage stack)
      if device.writeDisk.isError then
        return ⟨device.writeDisk, some type, cacheCmdType, after⟩
      return ⟨.success, some type, type, after⟩
    return ⟨.success, some type, type, disk⟩

/-- The zeroed field with a text copied to its start, as `AsciiStrCpyS` leaves it. -/
def commandField (text : List UInt8) : Vector UInt8 commandBytes :=
  Vector.ofFn fun i => text.getD i 0

/-- The text that `SetCmdToMiscPartition` stores; the bootloader sets no other command. -/
def commandText : MiscCmdType → Option (List UInt8)
  | .recovery => some msgCommandBootRecovery
  | .fastbootUserspace => some msgCommandBootFastbootUserspace
  | _ => none

def setCmdToMiscPartition (device : Device) (type cacheCmdType : MiscCmdType)
    (disk : BootloaderMessage) : Reply :=
  if device.getMiscIoProtocolFromHandle.isError then
    ⟨device.getMiscIoProtocolFromHandle, none, cacheCmdType, disk⟩
  else if device.readDisk.isError then ⟨device.readDisk, none, cacheCmdType, disk⟩
  else
    match commandText type with
    | none => ⟨.invalidParameter, none, cacheCmdType, disk⟩
    | some text =>
      let after := writeDisk device disk { disk with command := commandField text }
      if device.writeDisk.isError then ⟨device.writeDisk, none, cacheCmdType, after⟩
      else ⟨.success, none, type, after⟩

/-- A call, made by one of the modules that link the library, each with its own cache. -/
inductive Call where
  | get (module : Nat) (typeGiven cleanBootOnceCmd : Bool) (stack : BootloaderMessage)
      (device : Device)
  | set (module : Nat) (type : MiscCmdType) (device : Device)

structure System where
  disk : BootloaderMessage
  cacheCmdType : Nat → MiscCmdType

/-- A boot finds the message area as the one before left it, and no cache. -/
def System.boot (disk : BootloaderMessage) : System := ⟨disk, fun _ => .max⟩

structure Event where
  call : Call
  status : EfiStatus
  type : Option MiscCmdType
  disk : BootloaderMessage

/-- The module whose copy of the library is called. -/
def Call.module : Call → Nat
  | .get n .. => n
  | .set n .. => n

def System.reply (system : System) : Call → Option Reply
  | .get n typeGiven clean stack device =>
    getCmdFromMiscPartition stack device typeGiven clean (system.cacheCmdType n) system.disk
  | .set n type device =>
    some (setCmdToMiscPartition device type (system.cacheCmdType n) system.disk)

def System.after (system : System) (n : Nat) (reply : Reply) : System :=
  ⟨reply.disk, Function.update system.cacheCmdType n reply.cacheCmdType⟩

def System.run (system : System) : List Call → Option (List Event × System)
  | [] => some ([], system)
  | call :: calls => do
    let reply ← system.reply call
    let (events, last) ← (system.after call.module reply).run calls
    return (⟨call, reply.status, reply.type, reply.disk⟩ :: events, last)

/-- What happened in one boot, with the message area that it found. -/
structure Boot where
  disk : BootloaderMessage
  events : List Event

def history (disk : BootloaderMessage) : List (List Call) → Option (List Boot)
  | [] => some []
  | calls :: boots => do
    let (events, last) ← (System.boot disk).run calls
    let later ← history last.disk boots
    return ⟨disk, events⟩ :: later

end MiscPartition
