import Edk2Nvidia.NorFlash
import Edk2Nvidia.Parse.Packed
import Edk2Nvidia.Wildcard.Search

/-! The boot arguments of Android, searched for in the command line and handed on one by one. -/
namespace AndroidBootDxe
open Parse (CString)

def androidBootArgPrefix : List UInt8 :=
  [0x61, 0x6E, 0x64, 0x72, 0x6F, 0x69, 0x64, 0x62, 0x6F, 0x6F, 0x74, 0x2E]

def maxAndroidBootArgSize : Nat := 32
def maxAndroidBootValSize : Nat := 256

def equals : UInt8 := 0x3D
def blank : UInt8 := 0x20

/-- `AsciiStrStr`: the text from the first occurrence on. -/
def asciiStrStr (string searchString : List UInt8) : Option (List UInt8) :=
  Wildcard.search searchString string

abbrev BootArg := List UInt8 × List UInt8

/-- How the protocol is found, and how it answers an update with what it was handed so far, that
argument included. -/
structure BootConfigUpdate where
  getProtocol : EfiStatus
  updateBootConfigs : List BootArg → EfiStatus

/-- The loop over the rest of the command line, with what was handed on before. -/
def copyLoop (protocol : BootConfigUpdate) :
    Nat → List UInt8 → List BootArg → Option (EfiStatus × List BootArg)
  | 0, _, _ => none
  | fuel + 1, remainingCmdline, handed =>
    match asciiStrStr remainingCmdline androidBootArgPrefix with
    | none => some (.success, handed)
    | some found =>
      let androidBootArg := found.drop androidBootArgPrefix.length
      match asciiStrStr androidBootArg [equals] with
      | none => some (.invalidParameter, handed)
      | some tokenEnd =>
        let arg := (androidBootArg.take (androidBootArg.length - tokenEnd.length)).take
          (maxAndroidBootArgSize - 1)
        let androidBootValue := tokenEnd.drop 1
        let valueEnd := (asciiStrStr androidBootValue [blank]).getD []
        let argValue := (androidBootValue.take (androidBootValue.length - valueEnd.length)).take
          (maxAndroidBootValSize - 1)
        let handed := handed ++ [(arg, argValue)]
        if protocol.updateBootConfigs handed ≠ .success then
          some (protocol.updateBootConfigs handed, handed)
        else if valueEnd = [] then some (.success, handed)
        else copyLoop protocol fuel valueEnd handed

/-- The status, and what was handed to `UpdateBootConfigs`. -/
def copyAndroidBootArgsToBootConfig (protocol : BootConfigUpdate) (cmdline : Option CString)
    (fuel : Nat) : Option (EfiStatus × List BootArg) :=
  match cmdline with
  | none => some (.success, [])
  | some cmdline =>
    if protocol.getProtocol ≠ .success then some (protocol.getProtocol, [])
    else copyLoop protocol fuel cmdline.chars []

/-! What is to be handed on. -/

def tokens (cmdline : CString) : List (List UInt8) := cmdline.chars.splitOn blank

/-- What stands in front of the first equals sign, and behind it. -/
def nameOfArg (text : List UInt8) : List UInt8 := text.takeWhile (· ≠ equals)
def valueOfArg (text : List UInt8) : List UInt8 := (text.dropWhile (· ≠ equals)).drop 1

/-- The argument of a token of the form `androidboot.NAME=VALUE`. -/
def bootArg? (token : List UInt8) : Option BootArg :=
  if androidBootArgPrefix <+: token ∧ equals ∈ token then
    some (nameOfArg (token.drop androidBootArgPrefix.length),
      valueOfArg (token.drop androidBootArgPrefix.length))
  else none

/-- `androidboot.NAME` without an equals sign. -/
def Unfinished (token : List UInt8) : Prop := androidBootArgPrefix <+: token ∧ equals ∉ token

instance : DecidablePred Unfinished := fun token =>
  inferInstanceAs (Decidable (androidBootArgPrefix <+: token ∧ equals ∉ token))

/-- The arguments in front of the first unfinished one. -/
def argsBefore (tokens : List (List UInt8)) : List BootArg :=
  (tokens.takeWhile fun token => ¬ Unfinished token).filterMap bootArg?

/-- The transfer ends. Success means that the arguments of all tokens were handed on and no token is
unfinished; and nothing else than the arguments in front of an unfinished one is handed on, in
their order, whatever it ends with. -/
def Transfers (cmdline : CString) : Prop :=
  ∀ protocol, ∃ status handed,
    (∃ enough, ∀ fuel, enough ≤ fuel →
      copyAndroidBootArgsToBootConfig protocol (some cmdline) fuel = some (status, handed)) ∧
    (status = .success →
      handed = (tokens cmdline).filterMap bootArg? ∧ ∀ token ∈ tokens cmdline, ¬ Unfinished token) ∧
    handed <+: argsBefore (tokens cmdline)

/-- The token in front of whose equals sign the search for one comes to an end, from a token without
one on. -/
def closing (tokens : List (List UInt8)) : List (List UInt8) :=
  tokens.dropWhile fun token => equals ∉ token

/-- Each token with the prefix is a boot argument whose name and value fit. If the text behind the
prefix in it has no equals sign, then no later token has one either; or the token is not an
unfinished one, nor is any between, its text is cut off at the size of a name, and the token with
the next equals sign happens to be a boot argument of just this name. -/
def Plain : List (List UInt8) → Prop
  | [] => True
  | token :: rest =>
    match asciiStrStr token androidBootArgPrefix with
    | none => Plain rest
    | some found =>
      let text := found.drop androidBootArgPrefix.length
      if equals ∈ text then
        androidBootArgPrefix <+: token ∧ (nameOfArg text).length < maxAndroidBootArgSize ∧
          (valueOfArg text).length < maxAndroidBootValSize ∧ Plain rest
      else
        match h : closing rest with
        | [] => True
        | last :: behind =>
          have : behind.length < rest.length := by
            have := (List.dropWhile_suffix (l := rest) fun token => equals ∉ token).length_le
            rw [show rest.dropWhile _ = last :: behind from h, List.length_cons] at this
            exact this
          ¬ androidBootArgPrefix <+: token ∧
            (∀ between ∈ rest.takeWhile fun token => equals ∉ token, ¬ Unfinished between) ∧
            maxAndroidBootArgSize - 1 ≤ text.length ∧
            (∃ value, bootArg? last = some (text.take (maxAndroidBootArgSize - 1), value) ∧
              value.length < maxAndroidBootValSize) ∧ Plain behind
  termination_by tokens => tokens.length

end AndroidBootDxe
