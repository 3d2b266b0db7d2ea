import Edk2Nvidia.Pldm.Task
import Edk2Nvidia.Pldm.PackageCheck

/-! The firmware data service: what a device gets for a `RequestFirmwareData`, whatever the
request says and whatever state the device is in. -/
namespace Pldm
open Flash Parse Reader

abbrev responseSize : Nat := 4 * 1024

namespace FwDataRequest
def offset (task : Task) : Nat := le32 task.recvBuffer 4
def length (task : Task) : Nat := le32 task.recvBuffer 8
end FwDataRequest

/-- What the package is read for when a request is answered: the fields of the image info, and
the data that is copied. -/
def readFwData (task : Task) (info offset length : Nat) : Reader (UInt8 × List UInt8) := do
  if task.recvLength < 12 then
    return (Completion.invalidLength, [])
  else do
    let code := requestFwDataCompletion task offset length (← ImageInfo.size info)
    let offset := (← ImageInfo.locationOffset info) + offset
    if code = Completion.success then
      return (code, ← bytes offset length)
    else
      return (code, [])

/-- The image that is being transferred lies in the package. -/
structure ImageInside (task : Task) (info : Nat) : Prop where
  current : task.imageInfo = some info
  described : info + 22 ≤ task.pkgLen
  image : (ImageInfo.locationOffset info).value task.pkgHdr + (ImageInfo.size info).value task.pkgHdr ≤
    task.pkgLen

/-- The request is one that the device may make: it is downloading, the message is complete, and
no more is asked for than the largest transfer. -/
structure Proper (task : Task) : Prop where
  download : task.fdState = .download
  complete : 12 ≤ task.recvLength
  length : FwDataRequest.length task ≤ maxTransferSize

/-- The response in the task and the deadline of the next request, in place of those of `before`. -/
def Task.answered (before after : Task) : Task :=
  { before with
    response := after.response
    responseLength := after.responseLength
    requestFwDataTimer := after.requestFwDataTimer }

/-- A request answered with this code and this data. -/
structure Served (task : Task) (info : Nat) (outcome : Outcome) (code : UInt8) (data : List UInt8) :
    Prop where
  response : slice outcome.task.response 0 outcome.task.responseLength =
    slice task.recvBuffer 0 Common.size ++ [code] ++ data
  fits : outcome.task.responseLength ≤ responseSize
  copied : code = Completion.success → data =
    slice task.pkgHdr ((ImageInfo.locationOffset info).value task.pkgHdr + FwDataRequest.offset task)
      (FwDataRequest.length task)
  inside : task.fdState = .download →
    (readFwData task info (FwDataRequest.offset task) (FwDataRequest.length task)).Within task.pkgHdr
      task.pkgLen
  served : code = Completion.success ↔ Proper task ∧
    FwDataRequest.offset task + FwDataRequest.length task ≤
      (ImageInfo.size info).value task.pkgHdr + baselineTransferSize
  refused : code ≠ Completion.success → data = [] ∧ outcome.task = task.answered outcome.task

/-- What the service promises of one message. The global cancel request leaves it unanswered. -/
def Serves (input : Input) (globals : Globals) (task : Task) (info : Nat) : Prop :=
  ∃ outcome, requestFwDataHandleReq input globals task = some outcome ∧
    if globals.cancelAllUpdates then
      outcome.task = task ∧ outcome.sent = []
    else
      ∃ code data, Served task info outcome code data

/-- The requests that are served right. One that has to be served must not carry the response out
of its buffer or the data out of the package, and the padding must not carry the size over 32 bits;
one that has to be refused must leave the position where it was. -/
def ServedRight (task : Task) (info : Nat) : Prop :=
  let offset := FwDataRequest.offset task
  let length := FwDataRequest.length task
  let size := (ImageInfo.size info).value task.pkgHdr
  (Proper task ∧ offset + length ≤ size + baselineTransferSize →
    offset + length ≤ u32 (size + baselineTransferSize) ∧
      Common.size + 1 + length ≤ responseSize ∧
      (ImageInfo.locationOffset info).value task.pkgHdr + offset + length ≤ task.pkgLen) ∧
  (¬ (Proper task ∧ offset + length ≤ size + baselineTransferSize) →
    u32 (offset + length) = task.lastFwDataRequested)

/-- What is answered, with the image info at hand. -/
def fwDataAnswer (task : Task) (info : Nat) : UInt8 × List UInt8 :=
  if task.fdState ≠ .download then
    (Completion.commandNotExpected, [])
  else
    (readFwData task info (FwDataRequest.offset task) (FwDataRequest.length task)).value task.pkgHdr

def fwDataMessage (task : Task) (info : Nat) : List UInt8 :=
  slice task.recvBuffer 0 Common.size ++ [(fwDataAnswer task info).1] ++ (fwDataAnswer task info).2

def Task.afterFwData (input : Input) (task : Task) (info : Nat) : Task :=
  { task with
    lastFwDataRequested := u32 (FwDataRequest.offset task + FwDataRequest.length task)
    response := overwrite task.response 0 (fwDataMessage task info)
    responseLength := (fwDataMessage task info).length
    requestFwDataTimer := startTimer input.nowNs pldmFwUaT2MsMax }

section
variable {input : Input} {globals : Globals} {task : Task} {info : Nat}

theorem requestFwDataCompletion_success {offset length size : Nat} :
    requestFwDataCompletion task offset length size = Completion.success ↔
      12 ≤ task.recvLength ∧ length ≤ maxTransferSize ∧
        offset + length ≤ u32 (size + baselineTransferSize) := by
  unfold requestFwDataCompletion
  split
  · exact iff_of_false (by decide) (by omega)
  · split
    · exact iff_of_false (by decide) (by omega)
    · split
      · exact iff_of_false (by decide) (by omega)
      · simp only [true_iff]
        omega

theorem value_readFwData {offset length : Nat} :
    (readFwData task info offset length).value task.pkgHdr =
      let code := requestFwDataCompletion task offset length ((ImageInfo.size info).value task.pkgHdr)
      if code = Completion.success then
        (code, slice task.pkgHdr ((ImageInfo.locationOffset info).value task.pkgHdr + offset) length)
      else
        (code, []) := by
  unfold readFwData
  by_cases hlength : task.recvLength < 12
  · have hcode : ∀ size, requestFwDataCompletion task offset length size = Completion.invalidLength := by
      intro size
      rw [requestFwDataCompletion, if_pos hlength]
    rw [if_pos hlength]
    simp only [hcode]
    rfl
  · rw [if_neg hlength]
    simp only [value_bind, value_ite]
    rfl

theorem requestFwDataAnswer_eq (current : task.imageInfo = some info) :
    requestFwDataAnswer task (FwDataRequest.offset task) (FwDataRequest.length task) =
      some (fwDataAnswer task info) := by
  unfold requestFwDataAnswer fwDataAnswer
  by_cases hstate : task.fdState ≠ .download
  · rw [if_pos hstate, if_pos hstate]
  · rw [if_neg hstate, if_neg hstate, current, value_readFwData]
    simp only [Option.bind_eq_bind, Option.bind_some]
    split
    · rfl
    · rfl

variable (task info) in
/-- What is asked for is served when it is proper and ends in the padding, as 32 bits have it. -/
theorem fwDataAnswer_success :
    (fwDataAnswer task info).1 = Completion.success ↔ Proper task ∧
      FwDataRequest.offset task + FwDataRequest.length task ≤
        u32 ((ImageInfo.size info).value task.pkgHdr + baselineTransferSize) := by
  unfold fwDataAnswer
  by_cases hstate : task.fdState ≠ .download
  · rw [if_pos hstate]
    exact ⟨nofun, fun h => absurd h.1.download hstate⟩
  · rw [if_neg hstate, value_readFwData]
    have hdownload := Decidable.of_not_not hstate
    dsimp only
    split
    · rename_i hcode
      obtain ⟨hcomplete, hlength, hend⟩ := requestFwDataCompletion_success.mp hcode
      exact ⟨fun _ => ⟨⟨hdownload, hcomplete, hlength⟩, hend⟩, fun _ => hcode⟩
    · rename_i hcode
      refine ⟨fun h => absurd h hcode, ?_⟩
      rintro ⟨proper, hend⟩
      exact requestFwDataCompletion_success.mpr ⟨proper.complete, proper.length, hend⟩

variable (task info) in
theorem fwDataAnswer_data :
    (fwDataAnswer task info).2 = if (fwDataAnswer task info).1 = Completion.success then
      slice task.pkgHdr ((ImageInfo.locationOffset info).value task.pkgHdr + FwDataRequest.offset task)
        (FwDataRequest.length task)
    else [] := by
  unfold fwDataAnswer
  by_cases hstate : task.fdState ≠ .download
  · rw [if_pos hstate]
    rfl
  · rw [if_neg hstate, value_readFwData]
    dsimp only
    split
    · rfl
    · rfl

theorem within_readFwData (inside : ImageInside task info) (hstate : task.fdState = .download) :
    (readFwData task info (FwDataRequest.offset task) (FwDataRequest.length task)).Within task.pkgHdr
        task.pkgLen ↔
      ((fwDataAnswer task info).1 = Completion.success →
        (ImageInfo.locationOffset info).value task.pkgHdr + FwDataRequest.offset task +
          FwDataRequest.length task ≤ task.pkgLen) := by
  have hdescribed := inside.described
  have hanswer : (fwDataAnswer task info).1 = requestFwDataCompletion task (FwDataRequest.offset task)
      (FwDataRequest.length task) ((ImageInfo.size info).value task.pkgHdr) := by
    rw [fwDataAnswer, if_neg (not_not.mpr hstate), value_readFwData]
    dsimp only
    split <;> rfl
  rw [hanswer]
  unfold readFwData
  by_cases hlength : task.recvLength < 12
  · rw [if_pos hlength, requestFwDataCompletion, if_pos hlength]
    exact ⟨fun _ => nofun, fun _ => within_pure _⟩
  · have hfields : (ImageInfo.size info).Within task.pkgHdr task.pkgLen ∧
        (ImageInfo.locationOffset info).Within task.pkgHdr task.pkgLen := by
      simp only [ImageInfo.size, ImageInfo.locationOffset, within_uint]
      omega
    rw [if_neg hlength]
    simp only [within_bind, within_ite, within_bytes, within_pure, hfields, true_and, and_true,
      implies_true]

variable (input) in
theorem requestFwDataHandleReq_eq (hc : globals.cancelAllUpdates = false)
    (current : task.imageInfo = some info) :
    requestFwDataHandleReq input globals task =
      some { next := .waitForRequests, globals, task := task.afterFwData input info
             sent := if input.sendStatus.isError then [] else [⟨false, fwDataMessage task info⟩] } := by
  have hanswer : requestFwDataAnswer
      { task with lastFwDataRequested := u32 (FwDataRequest.offset task + FwDataRequest.length task) }
      (FwDataRequest.offset task) (FwDataRequest.length task) = some (fwDataAnswer task info) :=
    requestFwDataAnswer_eq current
  rw [requestFwDataHandleReq, unlessCancelled, hc, if_neg Bool.false_ne_true]
  exact Option.bind_eq_some_iff.mpr ⟨_, hanswer, rfl⟩

/-- The bytes of an answer are its header, its code and its data. -/
theorem answer_inj {head data data' : List UInt8} {code code' : UInt8}
    (h : head ++ [code] ++ data = head ++ [code'] ++ data') : code = code' ∧ data = data' := by
  rw [List.append_assoc, List.append_assoc] at h
  exact List.cons.inj (List.append_cancel_left h)

theorem served_iff (inside : ImageInside task info) {outcome : Outcome}
    (htask : outcome.task = task.afterFwData input info) :
    (∃ code data, Served task info outcome code data) ↔ ServedRight task info := by
  have hresponse : slice outcome.task.response 0 outcome.task.responseLength = fwDataMessage task info := by
    rw [htask]
    exact holds_overwrite task.response 0 (fwDataMessage task info)
  have hlength : outcome.task.responseLength = Common.size + 1 + (fwDataAnswer task info).2.length := by
    rw [htask]
    simp only [Task.afterFwData, fwDataMessage, List.length_append, length_slice, List.length_singleton]
  have hdata := fwDataAnswer_data task info
  have hsuccess := fwDataAnswer_success task info
  have hwrap : u32 ((ImageInfo.size info).value task.pkgHdr + baselineTransferSize) ≤
      (ImageInfo.size info).value task.pkgHdr + baselineTransferSize := Nat.mod_le _ _
  constructor
  · rintro ⟨code, data, served⟩
    obtain ⟨hcode, hsent⟩ := answer_inj (served.response.symm.trans hresponse)
    subst hcode hsent
    refine ⟨fun hproper => ?_, fun hproper => ?_⟩
    · have hcode := served.served.mpr hproper
      have hfits := served.fits
      rw [hlength, hdata, if_pos hcode, length_slice] at hfits
      refine ⟨(hsuccess.mp hcode).2, hfits, ?_⟩
      have hdownload := hproper.1.download
      exact (within_readFwData inside hdownload).mp (served.inside hdownload) hcode
    · have hcode := mt served.served.mp hproper
      have hsame := congrArg Task.lastFwDataRequested (served.refused hcode).2
      rw [htask] at hsame
      exact hsame
  · rintro ⟨hserve, hrefuse⟩
    refine ⟨_, _, hresponse, ?_, ?_, ?_, ?_, ?_⟩
    · rw [hlength, hdata]
      split
      · rename_i hcode
        obtain ⟨hproper, hend⟩ := hsuccess.mp hcode
        rw [length_slice]
        exact (hserve ⟨hproper, by omega⟩).2.1
      · decide
    · intro hcode
      rw [hdata, if_pos hcode]
    · intro hdownload
      refine (within_readFwData inside hdownload).mpr fun hcode => ?_
      obtain ⟨hproper, hend⟩ := hsuccess.mp hcode
      exact (hserve ⟨hproper, by omega⟩).2.2
    · rw [hsuccess]
      refine and_congr_right fun hproper => ⟨fun hend => by omega, fun hend => ?_⟩
      exact (hserve ⟨hproper, hend⟩).1
    · intro hcode
      refine ⟨by rw [hdata, if_neg hcode], ?_⟩
      have hnot : ¬ (Proper task ∧ FwDataRequest.offset task + FwDataRequest.length task ≤
          (ImageInfo.size info).value task.pkgHdr + baselineTransferSize) := by
        intro hproper
        exact hcode (hsuccess.mpr ⟨hproper.1, (hserve hproper).1⟩)
      rw [Task.answered, htask, Task.afterFwData, hrefuse hnot]

/-- One message, in whatever state the device is. -/
theorem serves_iff (inside : ImageInside task info) :
    Serves input globals task info ↔ globals.cancelAllUpdates = true ∨ ServedRight task info := by
  unfold Serves
  cases hc : globals.cancelAllUpdates with
  | true =>
    simp only [if_true, true_or, iff_true]
    refine ⟨{ next := .cancelUpdateComponentSetupReq, task, globals }, ?_, rfl, rfl⟩
    rw [requestFwDataHandleReq, unlessCancelled, if_pos hc]
  | false =>
    have hrun := requestFwDataHandleReq_eq input hc inside.current
    simp only [Bool.false_eq_true, if_false, false_or]
    constructor
    · rintro ⟨outcome, houtcome, hserved⟩
      cases hrun.symm.trans houtcome
      exact (served_iff inside rfl).mp hserved
    · intro hserved
      exact ⟨_, hrun, (served_iff inside rfl).mpr hserved⟩

end

/-- A package whose only image is its last byte. -/
def imageAtEnd : List UInt8 :=
  uuidV1_0 ++ [1, 65, 0] ++ List.replicate 17 0 ++
    -- no device records, one image of one byte at offset 65
    [0] ++ [1, 0] ++ [10, 0, 1, 0, 0, 0, 0, 0, 0, 0, 0, 0] ++ [65, 0, 0, 0] ++ [1, 0, 0, 0] ++ [1, 0] ++
    -- the checksum and the image
    [0x00, 0x61, 0xE1, 0xD3] ++ [0xAA]

/-- A device downloads that image and asks for `length` bytes at `offset`. -/
def downloading (offset length : Nat) : Task :=
  { fdState := .download
    recvBuffer := memoryOf (fwFillCommon true 0 Command.requestFwData ++ toLittleEndian 4 offset ++
      toLittleEndian 4 length)
    recvLength := 12
    pkgHdr := memoryOf imageAtEnd
    pkgLen := 66
    imageInfo := some 39 }

theorem imageInside_downloading (offset length : Nat) : ImageInside (downloading offset length) 39 :=
  ⟨rfl, (by decide : 39 + 22 ≤ 66), (by decide : (ImageInfo.locationOffset 39).value
    (memoryOf imageAtEnd) + (ImageInfo.size 39).value (memoryOf imageAtEnd) ≤ 66)⟩

theorem serves_whole_image : Serves {} {} (downloading 0 1) 39 :=
  (serves_iff (imageInside_downloading 0 1)).mpr
    (.inr ⟨fun _ => by decide, fun h => absurd ⟨⟨rfl, by decide, by decide⟩, by decide⟩ h⟩)

/-- The padding behind the last image of a package is read from behind the package. -/
theorem padding_outside :
    (hdrValidate crc32 66).value (memoryOf imageAtEnd) = .success ∧
      ImageInside (downloading 1 32) 39 ∧ ¬ Serves {} {} (downloading 1 32) 39 := by
  refine ⟨by decide +kernel, imageInside_downloading 1 32, ?_⟩
  rintro ⟨outcome, -, code, data, served⟩
  exact absurd (served.inside rfl) (by decide)

end Pldm
