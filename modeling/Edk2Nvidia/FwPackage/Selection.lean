import Edk2Nvidia.Parse.Packed

/-! How the image of a firmware package is selected by name, fuse and TnSpec. -/
namespace FwPackage
open Parse

inductive EfiStatus where
  | success
  | invalidParameter
  | notFound
deriving DecidableEq, Repr

def fwPackageTnSpecLength : Nat := 128

def fwPackageUpdateModeAlways : UInt32 := 0
def fwPackageUpdateModeNonProduction : UInt32 := 1
def fwPackageUpdateModeProduction : UInt32 := 2

/-- `tnSpec` is the string that begins at the field `TnSpec`, which nothing requires to end there. -/
structure ImageInfo where
  name : CString
  updateMode : UInt32
  tnSpec : CString
deriving DecidableEq

def fwPackageUpdateModeIsOk (imageInfo : ImageInfo) (isProductionFused : Bool) : Bool :=
  if imageInfo.updateMode ≠ fwPackageUpdateModeAlways then
    ¬ (isProductionFused ∧ imageInfo.updateMode ≠ fwPackageUpdateModeProduction ∨
      ¬ isProductionFused ∧ imageInfo.updateMode ≠ fwPackageUpdateModeNonProduction)
  else true

/-- The token in front of the first delimiter, and what is behind it. -/
def asciiStrSep (delimiter : UInt8) : List UInt8 → List UInt8 × Option (List UInt8)
  | [] => ([], none)
  | c :: rest =>
    if c = delimiter then ([], some rest)
    else (c :: (asciiStrSep delimiter rest).1, (asciiStrSep delimiter rest).2)

def dash : UInt8 := 0x2D

/-- The loops over `AsciiStrSep`: every string takes one pass more than it has characters at most. -/
def tokens : Nat → Option (List UInt8) → List (List UInt8)
  | 0, _ => []
  | _, none => []
  | passes + 1, some string =>
    (asciiStrSep dash string).1 :: tokens passes (asciiStrSep dash string).2

/-- What `Spec1` and `Spec2` hold before they are written. -/
structure Stack where
  spec1 : List UInt8
  spec2 : List UInt8

/-- The string in a buffer after `AsciiStrCpyS`, which leaves the buffer alone when the source does
not fit; without a terminator the buffer is left behind. -/
def copied (buffer : List UInt8) (source : CString) : Option (List UInt8) :=
  if source.chars.length < fwPackageTnSpecLength then some source.chars
  else if 0 ∈ buffer.take fwPackageTnSpecLength then
    some (CString.first (buffer.take fwPackageTnSpecLength)).chars
  else none

/-- The tokens of a string and the `NULL` behind them have to fit into the array. -/
def specTokens (buffer : List UInt8) (source : CString) : Option (List (List UInt8)) := do
  let string ← copied buffer source
  let found := tokens (string.length + 1) (some string)
  if found.length < fwPackageTnSpecLength / 2 then some found else none

def compareTokens : List (List UInt8) → List (List UInt8) → EfiStatus
  | token1 :: rest1, token2 :: rest2 =>
    if token1 = [] ∨ token2 = [] then compareTokens rest1 rest2
    else if token1 ≠ token2 then .notFound
    else compareTokens rest1 rest2
  | _, _ => .success

/-- Nothing is returned when the matcher leaves its buffers. -/
def fwPackageCheckTnSpec (stack : Stack) (s1 s2 : CString) : Option EfiStatus := do
  let spec1Tokens ← specTokens stack.spec1 s1
  let spec2Tokens ← specTokens stack.spec2 s2
  if spec1Tokens.length ≠ spec2Tokens.length then some .invalidParameter
  else some (compareTokens spec1Tokens spec2Tokens)

/-- What an image is selected by; `name` is already in ASCII. -/
structure Request where
  name : CString
  isProductionFused : Bool
  compatSpec : Option CString
  fullSpec : Option CString

/-- The comparison with a full spec that is not given does not succeed. -/
def checkFullSpec (stack : Stack) (request : Request) (imageInfo : ImageInfo) : Option EfiStatus :=
  match request.fullSpec with
  | some fullSpec => fwPackageCheckTnSpec stack fullSpec imageInfo.tnSpec
  | none => some .notFound

/-- A compat spec that is not given is not compared. -/
def checkCompatSpec (stack : Stack) (request : Request) (imageInfo : ImageInfo) :
    Option EfiStatus :=
  match request.compatSpec with
  | some compatSpec => fwPackageCheckTnSpec stack compatSpec imageInfo.tnSpec
  | none => some .success

def getImageIndexLoop (stack : Stack) (request : Request) :
    List ImageInfo → Nat → Option Nat → Option (Option Nat)
  | [], _, found => some found
  | imageInfo :: rest, index, found =>
    if request.name ≠ imageInfo.name then getImageIndexLoop stack request rest (index + 1) found
    else if ¬ fwPackageUpdateModeIsOk imageInfo request.isProductionFused then
      getImageIndexLoop stack request rest (index + 1) found
    else if 0 < imageInfo.tnSpec.chars.length then do
      let full ← checkFullSpec stack request imageInfo
      if full = .success then some (some index)
      else do
        let compat ← checkCompatSpec stack request imageInfo
        if compat ≠ .success then getImageIndexLoop stack request rest (index + 1) found
        else getImageIndexLoop stack request rest (index + 1) (found.or (some index))
    else getImageIndexLoop stack request rest (index + 1) (found.or (some index))

/-- The image infos are those of the package. -/
def fwPackageGetImageIndex (stack : Stack) (request : Request) (imageInfos : List ImageInfo) :
    Option (Except EfiStatus Nat) :=
  (getImageIndexLoop stack request imageInfos 0 none).map fun
    | some index => .ok index
    | none => .error .notFound

theorem splitOn_asciiStrSep (delimiter : UInt8) (string : List UInt8) :
    string.splitOn delimiter = (asciiStrSep delimiter string).1 ::
      match (asciiStrSep delimiter string).2 with
      | none => []
      | some rest => rest.splitOn delimiter := by
  induction string with
  | nil => rfl
  | cons c rest ih =>
    rw [List.splitOn, List.splitOnP_cons_eq_if_modifyHead, ← List.splitOn]
    unfold asciiStrSep
    by_cases hc : c = delimiter
    · simp [hc]
    · simp [hc, ih]

theorem asciiStrSep_length {delimiter : UInt8} {string rest : List UInt8}
    (h : (asciiStrSep delimiter string).2 = some rest) : rest.length < string.length := by
  induction string with
  | nil => cases h
  | cons c string ih =>
    unfold asciiStrSep at h
    split at h
    · cases h
      exact Nat.lt_succ_self _
    · exact Nat.lt_succ_of_lt (ih h)

theorem tokens_eq {passes : Nat} {string : List UInt8} (h : string.length < passes) :
    tokens passes (some string) = string.splitOn dash := by
  induction passes generalizing string with
  | zero => omega
  | succ passes ih =>
    rw [splitOn_asciiStrSep, tokens]
    cases hnext : (asciiStrSep dash string).2 with
    | none => cases passes <;> rfl
    | some rest =>
      have hlength := asciiStrSep_length hnext
      rw [ih (by omega)]

theorem length_splitOn (delimiter : UInt8) (string : List UInt8) :
    (string.splitOn delimiter).length = string.count delimiter + 1 := by
  induction string with
  | nil => rfl
  | cons c rest ih =>
    rw [List.splitOn, List.splitOnP_cons_eq_if_modifyHead, ← List.splitOn, List.count_cons]
    by_cases hc : c = delimiter <;> simp [hc, ih]

end FwPackage
