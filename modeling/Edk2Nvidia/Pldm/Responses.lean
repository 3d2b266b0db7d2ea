import Edk2Nvidia.Pldm.PackageCheck
import Edk2Nvidia.Pldm.Task

/-! What is read of a response from the moment it is checked, and how long the requests are that
follow it. -/
namespace Pldm
open Flash Parse Reader

/-- `PldmFwCheckRspCompletion`. -/
def readRspCompletion : Reader EfiStatus := do
  if (← bytes 4 1) ≠ [Completion.success] then
    return .deviceError
  else
    return .success

/-! `QueryDeviceIdentifiers`. -/
namespace QueryDeviceIds

/-- `PldmFwPrintQueryDeviceIdsRsp`. -/
def printRsp : Reader Unit := do
  forChain descNext printFwDesc (← uint 9 1) descriptors

/-- `PldmFwQueryDeviceIdsCheckRsp`, with what it reads. -/
def readCheckRsp (rspLength : Nat) : Reader EfiStatus := do
  let status ← readRspCompletion
  if status.isError then
    return status
  else if rspLength ≠ descriptors + (← uint 5 4) then
    return .deviceError
  else do
    printRsp
    return .success

/-- `PldmFwDescriptorIsInList`, as it reads the list for a descriptor of the package. -/
def searchList (type length : Nat) (data : List UInt8) : Nat → Nat → Reader Bool
  | 0, _ => pure false
  | count + 1, listDescriptor => do
    if type = (← Descriptor.type listDescriptor) then do
      if length = (← Descriptor.length listDescriptor) then do
        if data = (← bytes (Descriptor.data listDescriptor) length) then
          return true
        else do
          searchList type length data count (← descNext listDescriptor)
      else do
        searchList type length data count (← descNext listDescriptor)
    else do
      searchList type length data count (← descNext listDescriptor)

/-- The check, and every search among the descriptors once it accepts, read the message only. -/
structure StaysInside (rsp : Memory) (rspLength : Nat) : Prop where
  check : (readCheckRsp rspLength).Within rsp rspLength
  search : (readCheckRsp rspLength).value rsp = .success → ∀ type length data,
    (searchList type length data (count rsp) descriptors).Within rsp rspLength

def listEnd (rsp : Memory) : Nat := chain nextDescriptor rsp descriptors (count rsp)

end QueryDeviceIds

/-! `GetFirmwareParameters`. -/
namespace FwParams

/-- `PldmFwGetFwParamsComponentTableOffset`. -/
def readTableOffset : Reader Nat := do
  return 15 + (← uint 12 1) + (← uint 14 1)

/-- The size of an entry with its version strings. -/
def readEntrySize (entry : Nat) : Reader Nat := do
  return 39 + (← uint (entry + 10) 1) + (← uint (entry + 24) 1)

/-- `PldmFwGetFwParamsComponent`. -/
def readComponent : Nat → Reader Nat
  | 0 => readTableOffset
  | componentIndex + 1 => do
    let entry ← readComponent componentIndex
    return entry + (← readEntrySize entry)

/-- The first loop of `PldmFwGetFwParamsCheckRsp`. -/
def addEntrySizes : Nat → Nat → Nat → Reader Nat
  | 0, _, length => pure length
  | count + 1, index, length => do
    let entry ← readComponent index
    addEntrySizes count (index + 1) (length + (← readEntrySize entry))

def printComponentEntry (entry : Nat) : Reader Unit := do
  let _ ← bytes entry 4
  let _ ← bytes (entry + 5) 4
  let _ ← bytes (entry + 39) (← uint (entry + 10) 1)
  let _ ← bytes (entry + 11) 8
  pure ()

/-- The second loop of `PldmFwGetFwParamsCheckRsp`. -/
def printComponents : Nat → Nat → Reader Unit
  | 0, _ => pure ()
  | count + 1, index => do
    printComponentEntry (← readComponent index)
    printComponents count (index + 1)

/-- `PldmFwGetFwParamsCheckRsp`, with what it reads. -/
def readCheckRsp (rspLength : Nat) : Reader EfiStatus := do
  let status ← readRspCompletion
  if status.isError then
    return status
  else do
    let length ← readTableOffset
    let count ← uint 9 2
    if rspLength ≠ (← addEntrySizes count 0 length) then
      return .deviceError
    else do
      printComponents count 0
      return .success

/-- An entry is looked up by its index and read as a whole. -/
def readEntry (index : Nat) : Reader (List UInt8) := do
  let entry ← readComponent index
  bytes entry (← readEntrySize entry)

/-- The check, and every access to an entry once it accepts, read the message only. -/
structure StaysInside (rsp : Memory) (rspLength : Nat) : Prop where
  check : (readCheckRsp rspLength).Within rsp rspLength
  access : (readCheckRsp rspLength).value rsp = .success → ∀ index < componentCount rsp,
    (readEntry index).Within rsp rspLength

end FwParams

abbrev requestSize : Nat := 128

/-- The requests with a version string of the package fit the request buffer. -/
structure RequestsFit (pkg response : Memory) (record numUpdateComponents info fwParamsComponentIndex : Nat)
    (flag : UInt8) : Prop where
  requestUpdate : Common.size + (requestUpdateRequest pkg record numUpdateComponents).length ≤ requestSize
  passComponentTable : Common.size +
    (passComponentTableRequest pkg response info fwParamsComponentIndex flag).length ≤ requestSize
  updateComponent : Common.size +
    (updateComponentRequest pkg response info fwParamsComponentIndex).length ≤ requestSize

section
variable {rsp : Memory} {rspLength : Nat}

/-! The reads are those of the checks as the task makes them. -/

theorem slice_one (m : Memory) (offset : Nat) : slice m offset 1 = [m offset] := rfl

theorem readRspCompletion_value : readRspCompletion.value rsp = fwCheckRspCompletion rsp := by
  simp only [readRspCompletion, fwCheckRspCompletion, value_bind, value_bytes, slice_one, ne_eq,
    List.cons.injEq, and_true]
  exact value_ite _ _ _

theorem le8_eq (m : Memory) (offset : Nat) : (uint offset 1).value m = le8 m offset := by
  simp [le8, slice_one, fromLittleEndian]

theorem QueryDeviceIds.readCheckRsp_value :
    (QueryDeviceIds.readCheckRsp rspLength).value rsp = fwQueryDeviceIdsCheckRsp rsp rspLength := by
  simp only [QueryDeviceIds.readCheckRsp, fwQueryDeviceIdsCheckRsp, value_bind, value_ite, value_pure,
    readRspCompletion_value]
  rfl

theorem FwParams.readEntrySize_value (entry : Nat) :
    (FwParams.readEntrySize entry).value rsp = FwParamsComponent.size rsp entry := by
  simp only [FwParams.readEntrySize, value_bind, value_pure, le8_eq]
  rfl

theorem FwParams.readTableOffset_value :
    FwParams.readTableOffset.value rsp = fwGetFwParamsComponentTableOffset rsp := by
  simp only [FwParams.readTableOffset, value_bind, value_pure, le8_eq]
  rfl

theorem FwParams.readComponent_value (index : Nat) :
    (FwParams.readComponent index).value rsp = fwGetFwParamsComponent rsp index := by
  induction index with
  | zero => exact FwParams.readTableOffset_value
  | succ index ih =>
    simp only [FwParams.readComponent, value_bind, value_pure, ih, FwParams.readEntrySize_value]
    rfl

theorem within_readRspCompletion : readRspCompletion.Within rsp rspLength ↔ 5 ≤ rspLength := by
  simp only [readRspCompletion, within_bind, within_bytes, within_ite, within_pure, implies_true, and_true]

theorem isError_fwCheckRspCompletion :
    (fwCheckRspCompletion rsp).isError = true ↔ completionCode rsp ≠ Completion.success := by
  unfold fwCheckRspCompletion
  by_cases h : completionCode rsp = Completion.success
  · simp [h, EfiStatus.isError]
  · simp [h, EfiStatus.isError]

/-! The descriptors. -/

theorem within_descNext (desc : Nat) : (descNext desc).Within rsp rspLength ↔ desc + 4 ≤ rspLength := by
  simp only [descNext, Descriptor.length, within_bind, within_uint, within_pure, and_true]

theorem within_descriptors (count first : Nat) :
    (forChain descNext printFwDesc count first).Within rsp rspLength ∧ first ≤ rspLength ↔
      chain nextDescriptor rsp first count ≤ rspLength := by
  induction count generalizing first with
  | zero =>
    simp only [forChain, within_pure, true_and]
    rfl
  | succ count ih =>
    have hnext := nextDescriptor_eq rsp first
    simp only [forChain, within_bind, within_printFwDesc, within_descNext]
    rw [show chain nextDescriptor rsp first (count + 1) =
      chain nextDescriptor rsp (nextDescriptor rsp first) count from rfl, ← ih]
    constructor
    · rintro ⟨⟨hprinted, -, hrest⟩, -⟩
      exact ⟨hrest, hprinted⟩
    · rintro ⟨hrest, hprinted⟩
      exact ⟨⟨hprinted, by omega, hrest⟩, by omega⟩

theorem QueryDeviceIds.within_printRsp :
    QueryDeviceIds.printRsp.Within rsp rspLength ↔
      QueryDeviceIds.descriptors ≤ rspLength ∧ QueryDeviceIds.listEnd rsp ≤ rspLength := by
  simp only [QueryDeviceIds.printRsp, within_bind, within_uint, le8_eq]
  rw [QueryDeviceIds.listEnd, ← within_descriptors]
  constructor
  · rintro ⟨hcount, hrest⟩
    exact ⟨hcount, hrest, hcount⟩
  · rintro ⟨hcount, hrest, -⟩
    exact ⟨hcount, hrest⟩

theorem QueryDeviceIds.within_readCheckRsp :
    (QueryDeviceIds.readCheckRsp rspLength).Within rsp rspLength ↔
      5 ≤ rspLength ∧ (completionCode rsp = Completion.success → 9 ≤ rspLength ∧
        (rspLength = QueryDeviceIds.descriptors + QueryDeviceIds.length rsp →
          QueryDeviceIds.listEnd rsp ≤ rspLength)) := by
  simp only [QueryDeviceIds.readCheckRsp, within_bind, within_readRspCompletion, within_ite, within_uint,
    within_pure, readRspCompletion_value, isError_fwCheckRspCompletion, implies_true, true_and, and_true,
    not_not, QueryDeviceIds.within_printRsp]
  refine and_congr_right fun _ => forall_congr' fun _ => and_congr_right fun _ => ?_
  refine forall_congr' fun hlength => ⟨And.right, fun hend => ⟨?_, hend⟩⟩
  rw [hlength]
  exact Nat.le_add_right _ _

theorem QueryDeviceIds.within_searchList (type length : Nat) (data : List UInt8) (count first : Nat)
    (h : chain nextDescriptor rsp first count ≤ rspLength) :
    (QueryDeviceIds.searchList type length data count first).Within rsp rspLength := by
  induction count generalizing first with
  | zero => exact within_pure _
  | succ count ih =>
    have hrest := ih (nextDescriptor rsp first) h
    have hle : nextDescriptor rsp first ≤ rspLength :=
      Nat.le_trans (chain_le (le_nextDescriptor rsp) _ (Nat.zero_le count)) h
    have hnext := nextDescriptor_eq rsp first
    have hvalue : (uint (first + 2) 2).value rsp = (Descriptor.length first).value rsp := rfl
    have hwalk : (do searchList type length data count (← descNext first) : Reader Bool).Within rsp
        rspLength := (within_bind _ _).mpr ⟨(within_descNext first).mpr (by omega), hrest⟩
    simp only [QueryDeviceIds.searchList, Descriptor.type, Descriptor.length, Descriptor.data, within_bind,
      within_ite, within_uint, within_bytes, within_pure]
    refine ⟨by omega, fun _ => ⟨by omega, fun hlength => ⟨?_, fun _ => trivial, fun _ => ?_⟩, fun _ => ?_⟩,
      fun _ => ?_⟩
    · rw [hlength, hvalue]
      omega
    · exact (within_bind _ _).mp hwalk
    · exact (within_bind _ _).mp hwalk
    · exact (within_bind _ _).mp hwalk

theorem QueryDeviceIds.staysInside_iff :
    QueryDeviceIds.StaysInside rsp rspLength ↔
      5 ≤ rspLength ∧ (completionCode rsp = Completion.success → 9 ≤ rspLength ∧
        (rspLength = QueryDeviceIds.descriptors + QueryDeviceIds.length rsp →
          QueryDeviceIds.listEnd rsp ≤ rspLength)) := by
  rw [← QueryDeviceIds.within_readCheckRsp]
  refine ⟨StaysInside.check, fun check => ⟨check, fun accepted type length data => ?_⟩⟩
  apply QueryDeviceIds.within_searchList
  rw [QueryDeviceIds.readCheckRsp_value, fwQueryDeviceIdsCheckRsp] at accepted
  obtain ⟨-, hcheck⟩ := QueryDeviceIds.within_readCheckRsp.mp check
  by_cases hcode : completionCode rsp = Completion.success
  · have herror : (fwCheckRspCompletion rsp).isError = false := by
      rw [Bool.eq_false_iff]
      exact fun h => isError_fwCheckRspCompletion.mp h hcode
    simp only [herror, Bool.false_eq_true, if_false] at accepted
    by_cases hlength : rspLength = QueryDeviceIds.descriptors + QueryDeviceIds.length rsp
    · exact (hcheck hcode).2 hlength
    · rw [if_pos hlength] at accepted
      cases accepted
  · have herror := isError_fwCheckRspCompletion.mpr hcode
    simp only [herror, if_true] at accepted
    rw [accepted] at herror
    cases herror

/-! The component parameter entries. -/

theorem FwParams.within_readTableOffset :
    FwParams.readTableOffset.Within rsp rspLength ↔ 15 ≤ rspLength := by
  simp only [FwParams.readTableOffset, within_bind, within_uint, within_pure, and_true]
  omega

theorem FwParams.within_readEntrySize (entry : Nat) :
    (FwParams.readEntrySize entry).Within rsp rspLength ↔ entry + 25 ≤ rspLength := by
  simp only [FwParams.readEntrySize, within_bind, within_uint, within_pure, and_true]
  omega

/-- An entry is found over the lengths of those in front of it. -/
theorem FwParams.within_readComponent (index : Nat) :
    (FwParams.readComponent index).Within rsp rspLength ↔
      15 ≤ rspLength ∧ ∀ i < index, fwGetFwParamsComponent rsp i + 25 ≤ rspLength := by
  induction index with
  | zero =>
    simp only [FwParams.readComponent, FwParams.within_readTableOffset, Nat.not_lt_zero, false_implies,
      implies_true, and_true]
  | succ index ih =>
    simp only [FwParams.readComponent, within_bind, within_pure, and_true, ih, FwParams.readComponent_value,
      FwParams.within_readEntrySize, Nat.lt_succ_iff_lt_or_eq]
    constructor
    · rintro ⟨⟨hoffset, hearlier⟩, hlast⟩
      refine ⟨hoffset, ?_⟩
      rintro i (hi | rfl)
      · exact hearlier i hi
      · exact hlast
    · rintro ⟨hoffset, hall⟩
      exact ⟨⟨hoffset, fun i hi => hall i (.inl hi)⟩, hall index (.inr rfl)⟩

variable (rsp) in
theorem FwParams.within_addEntrySizes (count index length : Nat) (hoffset : 15 ≤ rspLength)
    (hearlier : ∀ i < index, fwGetFwParamsComponent rsp i + 25 ≤ rspLength) :
    (FwParams.addEntrySizes count index length).Within rsp rspLength ↔
      ∀ i < index + count, fwGetFwParamsComponent rsp i + 25 ≤ rspLength := by
  induction count generalizing index length with
  | zero => exact ⟨fun _ => hearlier, fun _ => within_pure _⟩
  | succ count ih =>
    have hfound := (FwParams.within_readComponent index).mpr ⟨hoffset, hearlier⟩
    simp only [FwParams.addEntrySizes, within_bind, hfound, true_and, FwParams.readComponent_value,
      FwParams.within_readEntrySize]
    rw [show index + (count + 1) = index + 1 + count by omega]
    constructor
    · rintro ⟨hthis, hrest⟩
      refine (ih (index + 1) _ ?_).mp hrest
      intro i hi
      rcases Nat.lt_succ_iff_lt_or_eq.mp hi with hi | rfl
      · exact hearlier i hi
      · exact hthis
    · intro hall
      refine ⟨hall index (by omega), (ih (index + 1) _ ?_).mpr hall⟩
      intro i hi
      exact hall i (by omega)

variable (rsp) in
theorem FwParams.addEntrySizes_value (count index : Nat) :
    (FwParams.addEntrySizes count index (fwGetFwParamsComponent rsp index)).value rsp =
      fwGetFwParamsComponent rsp (index + count) := by
  induction count generalizing index with
  | zero => rfl
  | succ count ih =>
    simp only [FwParams.addEntrySizes, value_bind, FwParams.readComponent_value, FwParams.readEntrySize_value]
    rw [show index + (count + 1) = index + 1 + count by omega]
    exact ih (index + 1)

theorem FwParams.component_le {i j : Nat} (h : i ≤ j) :
    fwGetFwParamsComponent rsp i ≤ fwGetFwParamsComponent rsp j := by
  induction h with
  | refl => exact Nat.le_refl _
  | step _ ih => exact Nat.le_trans ih (Nat.le_add_right _ _)

variable (rsp) in
theorem FwParams.entry_end {index count : Nat} (h : index < count) :
    fwGetFwParamsComponent rsp index + FwParamsComponent.size rsp (fwGetFwParamsComponent rsp index) ≤
      fwGetFwParamsComponent rsp count := FwParams.component_le h

theorem FwParams.within_printComponents {count : Nat} (hoffset : 15 ≤ rspLength)
    (hend : fwGetFwParamsComponent rsp count ≤ rspLength) (remaining index : Nat)
    (hcount : index + remaining = count) :
    (FwParams.printComponents remaining index).Within rsp rspLength := by
  induction remaining generalizing index with
  | zero => exact within_pure _
  | succ remaining ih =>
    have hsize : ∀ i < count, fwGetFwParamsComponent rsp i + 39 +
        le8 rsp (fwGetFwParamsComponent rsp i + 10) ≤ rspLength := by
      intro i hi
      have hentry := FwParams.entry_end rsp hi
      rw [FwParamsComponent.size, FwParamsComponent.activeVersionStringLength] at hentry
      omega
    have hfound : (FwParams.readComponent index).Within rsp rspLength := (FwParams.within_readComponent index).mpr
      ⟨hoffset, fun i hi => Nat.le_trans (by omega) (hsize i (by omega))⟩
    have hthis := hsize index (by omega)
    simp only [FwParams.printComponents, FwParams.printComponentEntry, within_bind, within_bytes, within_uint,
      within_pure, FwParams.readComponent_value, le8_eq, hfound, true_and]
    exact ⟨⟨by omega, by omega, by omega, by omega, by omega, trivial⟩, ih (index + 1) (by omega)⟩

theorem FwParams.within_readCheckRsp :
    (FwParams.readCheckRsp rspLength).Within rsp rspLength ↔
      5 ≤ rspLength ∧ (completionCode rsp = Completion.success → 15 ≤ rspLength ∧
        ∀ i < FwParams.componentCount rsp, fwGetFwParamsComponent rsp i + 25 ≤ rspLength) := by
  have hvalue := FwParams.addEntrySizes_value rsp (FwParams.componentCount rsp) 0
  rw [Nat.zero_add] at hvalue
  have hcount : (uint 9 2).value rsp = FwParams.componentCount rsp := rfl
  simp only [FwParams.readCheckRsp, within_bind, within_readRspCompletion, within_ite, within_uint,
    within_pure, readRspCompletion_value, isError_fwCheckRspCompletion, implies_true, true_and, and_true,
    not_not, FwParams.within_readTableOffset, FwParams.readTableOffset_value, hcount]
  refine and_congr_right fun _ => forall_congr' fun _ => and_congr_right fun hoffset => ?_
  have hwithin := FwParams.within_addEntrySizes rsp (FwParams.componentCount rsp) 0
    (fwGetFwParamsComponentTableOffset rsp) hoffset (fun i hi => absurd hi (Nat.not_lt_zero i))
  rw [Nat.zero_add] at hwithin
  rw [hwithin]
  constructor
  · rintro ⟨-, hentries, -⟩
    exact hentries
  · intro hentries
    refine ⟨by omega, hentries, fun hlength => ?_⟩
    refine FwParams.within_printComponents hoffset ?_ _ 0 (Nat.zero_add _)
    rw [hlength]
    exact Nat.le_of_eq hvalue.symm

theorem FwParams.within_readEntry {index count : Nat} (hoffset : 15 ≤ rspLength) (hindex : index < count)
    (hend : fwGetFwParamsComponent rsp count ≤ rspLength) :
    (FwParams.readEntry index).Within rsp rspLength := by
  have hsize : ∀ i < count, fwGetFwParamsComponent rsp i +
      FwParamsComponent.size rsp (fwGetFwParamsComponent rsp i) ≤ rspLength := by
    intro i hi
    exact Nat.le_trans (FwParams.entry_end rsp hi) hend
  have hlengths : ∀ i < count, fwGetFwParamsComponent rsp i + 25 ≤ rspLength := by
    intro i hi
    have hentry := hsize i hi
    rw [FwParamsComponent.size] at hentry
    omega
  simp only [FwParams.readEntry, within_bind, within_bytes, FwParams.readComponent_value,
    FwParams.readEntrySize_value, FwParams.within_readComponent, FwParams.within_readEntrySize]
  exact ⟨⟨hoffset, fun i hi => hlengths i (by omega)⟩, hlengths index hindex, hsize index hindex⟩

variable (rsp) in
/-- The length that the check adds up is where the table ends. -/
theorem FwParams.foldl_sizes (count : Nat) :
    (List.range count).foldl
      (fun length index => length + FwParamsComponent.size rsp (fwGetFwParamsComponent rsp index))
      (fwGetFwParamsComponentTableOffset rsp) = fwGetFwParamsComponent rsp count := by
  induction count with
  | zero => rfl
  | succ count ih =>
    rw [List.range_succ, List.foldl_append, ih]
    rfl

theorem FwParams.readCheckRsp_value :
    (FwParams.readCheckRsp rspLength).value rsp = fwGetFwParamsCheckRsp rsp rspLength := by
  have hvalue := FwParams.addEntrySizes_value rsp (FwParams.componentCount rsp) 0
  rw [Nat.zero_add] at hvalue
  have hcount : (uint 9 2).value rsp = FwParams.componentCount rsp := rfl
  have htable : fwGetFwParamsComponentTableOffset rsp = fwGetFwParamsComponent rsp 0 := rfl
  simp only [FwParams.readCheckRsp, fwGetFwParamsCheckRsp, value_bind, value_ite, value_pure,
    readRspCompletion_value, FwParams.readTableOffset_value, hcount, FwParams.foldl_sizes]
  rw [htable, hvalue]

theorem FwParams.readCheckRsp_accepts (h : (FwParams.readCheckRsp rspLength).value rsp = .success) :
    completionCode rsp = Completion.success ∧
      rspLength = fwGetFwParamsComponent rsp (FwParams.componentCount rsp) := by
  rw [FwParams.readCheckRsp_value, fwGetFwParamsCheckRsp] at h
  simp only [FwParams.foldl_sizes] at h
  by_cases hcode : completionCode rsp = Completion.success
  · refine ⟨hcode, ?_⟩
    rw [if_neg (fun herror => isError_fwCheckRspCompletion.mp herror hcode)] at h
    by_cases hlength : rspLength = fwGetFwParamsComponent rsp (FwParams.componentCount rsp)
    · exact hlength
    · rw [if_pos hlength] at h
      cases h
  · have herror := isError_fwCheckRspCompletion.mpr hcode
    rw [if_pos herror] at h
    rw [h] at herror
    cases herror

theorem FwParams.staysInside_iff :
    FwParams.StaysInside rsp rspLength ↔
      5 ≤ rspLength ∧ (completionCode rsp = Completion.success → 15 ≤ rspLength ∧
        ∀ i < FwParams.componentCount rsp, fwGetFwParamsComponent rsp i + 25 ≤ rspLength) := by
  rw [← FwParams.within_readCheckRsp]
  refine ⟨StaysInside.check, fun check => ⟨check, fun accepted index hindex => ?_⟩⟩
  obtain ⟨hcode, hlength⟩ := FwParams.readCheckRsp_accepts accepted
  obtain ⟨-, hcheck⟩ := FwParams.within_readCheckRsp.mp check
  exact FwParams.within_readEntry (hcheck hcode).1 hindex (Nat.le_of_eq hlength.symm)

end

/-! The requests. -/

theorem requestsFit_iff {pkg response : Memory} {record numUpdateComponents info fwParamsComponentIndex : Nat}
    {flag : UInt8} :
    RequestsFit pkg response record numUpdateComponents info fwParamsComponentIndex flag ↔
      (DeviceIdRecord.imageSetVersionStringLength record).value pkg ≤ 113 ∧
        (ImageInfo.versionStringLength info).value pkg ≤ 105 := by
  have hrequest : (requestUpdateRequest pkg record numUpdateComponents).length =
      11 + (DeviceIdRecord.imageSetVersionStringLength record).value pkg := by
    simp only [requestUpdateRequest, List.length_append, length_toLittleEndian, List.length_singleton,
      length_slice]
  have hversion : (versionFields pkg info).length = 2 + (ImageInfo.versionStringLength info).value pkg := by
    simp only [versionFields, List.length_append, length_toLittleEndian, length_slice]
  have hfields : (componentFields pkg response info fwParamsComponentIndex).length = 9 := by
    simp only [componentFields, List.length_append, length_toLittleEndian, List.length_singleton]
  have hpass : (passComponentTableRequest pkg response info fwParamsComponentIndex flag).length =
      12 + (ImageInfo.versionStringLength info).value pkg := by
    simp only [passComponentTableRequest, List.length_append, List.length_singleton, hfields, hversion]
    omega
  have hupdate : (updateComponentRequest pkg response info fwParamsComponentIndex).length =
      19 + (ImageInfo.versionStringLength info).value pkg := by
    simp only [updateComponentRequest, List.length_append, length_toLittleEndian, hfields, hversion]
    omega
  have hsize : requestSize = 128 := rfl
  have hcommon : Common.size = 4 := rfl
  constructor
  · rintro ⟨hfirst, -, hlast⟩
    omega
  · rintro ⟨hfirst, hlast⟩
    exact ⟨by omega, by omega, by omega⟩

/-- What is read of a response of any length and contents, and the requests built from any package. -/
theorem received_inside_iff (rsp : Memory) (rspLength : Nat) (pkg response : Memory)
    (record numUpdateComponents info fwParamsComponentIndex : Nat) (flag : UInt8) :
    (QueryDeviceIds.StaysInside rsp rspLength ↔
      5 ≤ rspLength ∧ (completionCode rsp = Completion.success → 9 ≤ rspLength ∧
        (rspLength = QueryDeviceIds.descriptors + QueryDeviceIds.length rsp →
          QueryDeviceIds.listEnd rsp ≤ rspLength))) ∧
    (FwParams.StaysInside rsp rspLength ↔
      5 ≤ rspLength ∧ (completionCode rsp = Completion.success → 15 ≤ rspLength ∧
        ∀ i < FwParams.componentCount rsp, fwGetFwParamsComponent rsp i + 25 ≤ rspLength)) ∧
    (RequestsFit pkg response record numUpdateComponents info fwParamsComponentIndex flag ↔
      (DeviceIdRecord.imageSetVersionStringLength record).value pkg ≤ 113 ∧
        (ImageInfo.versionStringLength info).value pkg ≤ 105) :=
  ⟨QueryDeviceIds.staysInside_iff, FwParams.staysInside_iff, requestsFit_iff⟩

/-- A response that announces one descriptor and ends in front of it. -/
def descriptorMissing : List UInt8 := fwFillCommon false 0 Command.queryDeviceIds ++ [0] ++ [0, 0, 0, 0] ++ [1]

/-- A response that announces one component and ends in front of it. -/
def componentMissing : List UInt8 :=
  fwFillCommon false 0 Command.getFwParams ++ [0] ++ [0, 0, 0, 0] ++ [1, 0] ++ [1, 0] ++ [1, 0]

/-- An image with a version string of 106 bytes. -/
def longVersion : List UInt8 := List.replicate 21 0 ++ [106] ++ List.replicate 106 65

theorem received_outside :
    ¬ QueryDeviceIds.StaysInside (memoryOf descriptorMissing) 10 ∧
      ¬ FwParams.StaysInside (memoryOf componentMissing) 15 ∧
        ¬ RequestsFit (memoryOf longVersion) (memoryOf componentMissing) 0 1 0 0 transferFlagStart := by
  refine ⟨fun h => ?_, fun h => ?_, fun h => ?_⟩
  · exact absurd h.check (by decide)
  · exact absurd h.check (by decide)
  · exact absurd h.updateComponent (by decide +kernel)

end Pldm
