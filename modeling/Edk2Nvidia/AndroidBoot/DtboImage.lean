import Edk2Nvidia.FwPartition.Device
import Edk2Nvidia.Parse.Packed

/-! The overlays of an image: the entries are chosen by the board, and the overlays are then walked
by their sizes from the first one on. An address is relative to the image. -/
namespace AndroidBootDxe
open Flash (Memory overwrite slice)
open FwPartition (u64)

def dtbImageMagic : Nat := 0xd7b7ab1e
def maxAndroidBootDtboIdx : Nat := 10

def swapBytes32 (m : Memory) (a : Nat) : Nat := Parse.fromBigEndian (slice m a 4)

/-! `DTB_IMG_HEADER` and `DTB_IMG_ENTRY`. -/

def dtbImgMagic (m : Memory) : Nat := swapBytes32 m 0
def dtEntryCount (m : Memory) : Nat := swapBytes32 m 16
def dtEntriesOffset (m : Memory) : Nat := swapBytes32 m 20
def dtbImgEntry (m : Memory) (i : Nat) : Nat := dtEntriesOffset m + 32 * i
def dtOffset (m : Memory) (i : Nat) : Nat := swapBytes32 m (dtbImgEntry m i + 4)
def dtId (m : Memory) (i : Nat) : Nat := swapBytes32 m (dtbImgEntry m i + 8)
def dtRev (m : Memory) (i : Nat) : Nat := swapBytes32 m (dtbImgEntry m i + 12)
def dtCustom0 (m : Memory) (i : Nat) : Nat := swapBytes32 m (dtbImgEntry m i + 16)

/-- What `GetNctBoardInfo` gives of the board. -/
structure ProcBoard where
  procBoardId : Nat
  procFab : Nat
  procSku : Nat

def matchDtEntry (m : Memory) (board : ProcBoard) (i : Nat) : Bool :=
  dtId m i = board.procBoardId ∧ dtRev m i = board.procFab ∧ dtCustom0 m i = board.procSku

/-- The entries from `count` on: the first that matches, and how many match without a gap. -/
def matchLoop (hit : Nat → Bool) : Nat → Nat → Nat → Nat → Nat × Nat
  | 0, _, firstMatch, matchCount => (firstMatch, matchCount)
  | left + 1, count, firstMatch, matchCount =>
    if hit count then
      matchLoop hit left (count + 1) (if matchCount = 0 then count else firstMatch) (matchCount + 1)
    else if matchCount ≠ 0 then (firstMatch, matchCount)
    else matchLoop hit left (count + 1) firstMatch matchCount

/-- What the platform is: whether it runs under a hypervisor, and what is known of the board. -/
structure DtboPlatform where
  hypervisorMode : Bool
  boardInfo : Option ProcBoard

/-- The result of `ExtractDtbofromDtboImg`. -/
structure DtboRange where
  dtbo : Nat
  dtboCount : Nat
  dtboStartIdx : Nat

def extractDtbofromDtboImg (platform : DtboPlatform) (m : Memory) : Except EfiStatus DtboRange :=
  if dtbImgMagic m ≠ dtbImageMagic then .error .notFound
  else
    let count := dtEntryCount m
    if count = 0 then .error .unsupported
    else if count = 1 then .ok ⟨dtOffset m 0, 1, 0⟩
    else if platform.hypervisorMode then .ok ⟨dtOffset m 0, count, 0⟩
    else match platform.boardInfo with
      | none => .ok ⟨dtOffset m 0, count, 0⟩
      | some board =>
        let (firstMatch, matchCount) := matchLoop (matchDtEntry m board) count 0 count 0
        if matchCount = 0 then .error .notFound
        else .ok ⟨dtOffset m firstMatch, matchCount, firstMatch⟩

def fdtTotalSize (m : Memory) (a : Nat) : Nat := swapBytes32 m (a + 4)

/-- The flattened tree library. An overlay is applied to a tree of its own memory, in the size the
tree says it has, and may change the image it is taken from. -/
structure FdtLib where
  fdtCheckHeader : Memory → Nat → Int
  fdtOverlayApply : Memory → Memory → Nat → Int × Memory × Memory
  confined : ∀ dtb image a x, fdtTotalSize dtb 0 ≤ x → (fdtOverlayApply dtb image a).2.1 x = dtb x

/-- A pass over an overlay: the tree before and after it, and the image after it. -/
structure Try where
  address : Nat
  before : Memory
  after : Memory
  image : Memory
  applied : Bool

def tryOverlay (lib : FdtLib) (allocated : Bool) (dtb image : Memory) (fdtNext : Nat) : Try :=
  if lib.fdtCheckHeader image fdtNext ≠ 0 ∨ allocated = false then
    ⟨fdtNext, dtb, dtb, image, false⟩
  else
    let dtbBackup := slice dtb 0 (fdtTotalSize dtb 0)
    let (status, dtb', image') := lib.fdtOverlayApply dtb image fdtNext
    if status ≠ 0 then ⟨fdtNext, dtb, overwrite dtb' 0 dtbBackup, image', false⟩
    else ⟨fdtNext, dtb, dtb', image', true⟩

def Try.next (t : Try) : Nat :=
  if t.applied then u64 (t.address + fdtTotalSize t.image t.address) else t.address

/-- `'0' + CurrentIdx` as a character. -/
def idxChar (currentIdx : Nat) : UInt8 := UInt8.ofNat (0x30 + currentIdx)

/-- `AndroidbootDtboIdx` with one more index, unless it overflows. -/
def recordIdx (text : List UInt8) (currentIdx : Nat) : Option (List UInt8) :=
  if text.length = 0 then some [idxChar currentIdx]
  else if text.length + 2 < maxAndroidBootDtboIdx then some (text ++ [0x2C, idxChar currentIdx])
  else none

def Try.record (t : Try) (text : List UInt8) (currentIdx : Nat) : Option (List UInt8) :=
  if t.applied then recordIdx text currentIdx else some text

/-- The loop of `AndroidApplyOverlays`. -/
def applyLoop (lib : FdtLib) (allocatePool : Nat → Bool) :
    Nat → Nat → Nat → Memory → Memory → List UInt8 → List Try × List UInt8
  | 0, _, _, _, _, text => ([], text)
  | left + 1, currentIdx, fdtNext, dtb, image, text =>
    let t := tryOverlay lib (allocatePool currentIdx) dtb image fdtNext
    match t.record text currentIdx with
    -- The overlay stays applied, but the index did not fit.
    | none => ([t], text)
    | some text' =>
      let rest := applyLoop lib allocatePool left (currentIdx + 1) t.next t.after t.image text'
      (t :: rest.1, rest.2)

/-- `AndroidApplyOverlays`: what was tried, and the text given to `BootConfigSetDtboIdx`. -/
def androidApplyOverlays (lib : FdtLib) (allocatePool : Nat → Bool) (dtb image : Memory)
    (range : DtboRange) : List Try × List UInt8 :=
  let (log, text) :=
    applyLoop lib allocatePool range.dtboCount range.dtboStartIdx range.dtbo dtb image []
  (log, text.takeWhile (· ≠ 0))

/-- The overlays of the image on the tree; without any that are chosen nothing is handed on. -/
def applyDtboImg (lib : FdtLib) (allocatePool : Nat → Bool) (platform : DtboPlatform)
    (dtb image : Memory) : List Try × Option (List UInt8) :=
  match extractDtbofromDtboImg platform image with
  | .error _ => ([], none)
  | .ok range =>
    let (log, text) := androidApplyOverlays lib allocatePool dtb image range
    (log, some text)

/-! What the overlays of an image are. -/

/-- The entries of an image that are to be used: those that match the board, and all of them when
there is only one, under a hypervisor and when the board is not known. -/
def selected (platform : DtboPlatform) (m : Memory) : List Nat :=
  if dtbImgMagic m ≠ dtbImageMagic then []
  else
    let all := List.range (dtEntryCount m)
    if dtEntryCount m = 1 ∨ platform.hypervisorMode then all
    else match platform.boardInfo with
      | none => all
      | some board => all.filter (matchDtEntry m board)

def decimal (n : Nat) : List UInt8 :=
  if n < 10 then [UInt8.ofNat (0x30 + n)]
  else decimal (n / 10) ++ [UInt8.ofNat (0x30 + n % 10)]

def dtboIdx : List Nat → List UInt8
  | [] => []
  | i :: rest => decimal i ++ rest.flatMap fun j => 0x2C :: decimal j

/-- The entries that were applied, where each in turn is what was tried. -/
def appliedOf (indices : List Nat) (log : List Try) : List Nat :=
  ((indices.zip log).filter (·.2.applied)).map (·.1)

/-- The chosen overlays are tried at their offsets, each once and in order; one that is not applied
leaves the tree as it was; and the indices handed on are those of the applied ones. -/
structure AppliesSelected (lib : FdtLib) (allocatePool : Nat → Bool) (platform : DtboPlatform)
    (dtb image : Memory) : Prop where
  tried : (applyDtboImg lib allocatePool platform dtb image).1.map (·.address) =
    (selected platform image).map (dtOffset image)
  restored : ∀ t ∈ (applyDtboImg lib allocatePool platform dtb image).1,
    t.applied = false → t.after = t.before
  handed : ∀ text ∈ (applyDtboImg lib allocatePool platform dtb image).2,
    text = dtboIdx (appliedOf (selected platform image)
      (applyDtboImg lib allocatePool platform dtb image).1)

/-- The overlays at these addresses, each tried on what the one before it leaves. -/
def triesAt (lib : FdtLib) (allocatePool : Nat → Bool) :
    List (Nat × Nat) → Memory → Memory → List Try
  | [], _, _ => []
  | (i, a) :: rest, dtb, image =>
    let t := tryOverlay lib (allocatePool i) dtb image a
    t :: triesAt lib allocatePool rest t.after t.image

def selectedTries (lib : FdtLib) (allocatePool : Nat → Bool) (platform : DtboPlatform)
    (dtb image : Memory) : List Try :=
  let indices := selected platform image
  triesAt lib allocatePool (indices.zip (indices.map (dtOffset image))) dtb image

def Consecutive (indices : List Nat) : Prop :=
  ∃ first, indices = List.range' first indices.length

/-- When the walk meets the chosen overlays: their entries follow one another, each overlay lies
where the one before it ends, or where it lies itself when it is not applied, and at most five are
applied, of the first ten. -/
structure Walkable (lib : FdtLib) (allocatePool : Nat → Bool) (platform : DtboPlatform)
    (dtb image : Memory) : Prop where
  consecutive : Consecutive (selected platform image)
  packed : (selectedTries lib allocatePool platform dtb image).IsChain
    fun t t' => t'.address = t.next
  few : (appliedOf (selected platform image)
    (selectedTries lib allocatePool platform dtb image)).length ≤ 5
  single : ∀ i ∈ appliedOf (selected platform image)
    (selectedTries lib allocatePool platform dtb image), i < 10

end AndroidBootDxe
