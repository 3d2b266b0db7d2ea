import Edk2Nvidia.Pldm.Package

/-! What the header check reads, and what a package it accepts lets the accessors read. -/
namespace Pldm
open Flash Parse Reader

variable {m : Memory} {length : Nat}

/-! Where the records and infos of a package lie. -/

def nextRecord (m : Memory) (record : Nat) : Nat := (getNextDeviceIdRecord record).value m

def nextImageInfo (m : Memory) (info : Nat) : Nat := (getNextComponentImage info).value m

def nextDescriptor (m : Memory) (desc : Nat) : Nat := (descNext desc).value m

def recordAt (m : Memory) (area i : Nat) : Nat := chain nextRecord m (records area) i

def imageInfoAt (m : Memory) (area i : Nat) : Nat := chain nextImageInfo m (imageInfos area) i

def descriptorsEnd (m : Memory) (record : Nat) : Nat :=
  chain nextDescriptor m ((getFwDeviceIdRecordDescriptors record).value m)
    ((DeviceIdRecord.descriptorCount record).value m)

def fwArea (m : Memory) : Nat := getFwDeviceIdArea.value m

def areaEnd (m : Memory) (area : Nat) : Nat := recordAt m area ((recordCount area).value m)

def imageArea (m : Memory) : Nat := getComponentImageInfoArea.value m

def images (m : Memory) : Nat := (imageCount (imageArea m)).value m

/-- The bytes of all images, by the sizes the infos state. -/
def imageBytes (m : Memory) : Nat → Nat → Nat
  | 0, _ => 0
  | count + 1, info => (ImageInfo.size info).value m + imageBytes m count (nextImageInfo m info)

theorem nextImageInfo_eq (m : Memory) (info : Nat) :
    nextImageInfo m info = info + 22 + (ImageInfo.versionStringLength info).value m :=
  (Nat.add_assoc _ _ _).symm

theorem le_nextImageInfo (m : Memory) (info : Nat) : info ≤ nextImageInfo m info :=
  Nat.le_add_right _ _

theorem nextDescriptor_eq (m : Memory) (desc : Nat) :
    nextDescriptor m desc = desc + 4 + (Descriptor.length desc).value m := by
  change desc + ((Descriptor.length desc).value m + 4) = _
  omega

theorem le_nextDescriptor (m : Memory) (desc : Nat) : desc ≤ nextDescriptor m desc :=
  Nat.le_add_right _ _

theorem descriptors_eq (m : Memory) (record : Nat) :
    (getFwDeviceIdRecordDescriptors record).value m =
      record + 11 + PkgHdr.componentBitmapBitLength.value m / 8 +
        (DeviceIdRecord.imageSetVersionStringLength record).value m := rfl

/-! The area walks. -/

theorem value_addRecordLengths (count record areaSize : Nat) :
    record + (addRecordLengths count record areaSize).value m =
      areaSize + chain nextRecord m record count := by
  induction count generalizing record areaSize with
  | zero => exact Nat.add_comm _ _
  | succ count ih =>
    have hnext := ih (nextRecord m record) (areaSize + (DeviceIdRecord.length record).value m)
    have hstep : nextRecord m record = record + (DeviceIdRecord.length record).value m := rfl
    change record + (addRecordLengths count (nextRecord m record) _).value m =
      areaSize + chain nextRecord m (nextRecord m record) count
    omega

theorem value_getDeviceIdAreaSize (area : Nat) :
    area + (getDeviceIdAreaSize area).value m = areaEnd m area := by
  have h := value_addRecordLengths (m := m) ((recordCount area).value m) (records area) 1
  change area + (addRecordLengths _ (records area) 1).value m =
    chain nextRecord m (records area) _
  have hfirst : records area = area + 1 := rfl
  omega

theorem within_addRecordLengths (count record areaSize : Nat) :
    (addRecordLengths count record areaSize).Within m length ↔
      ∀ i < count, chain nextRecord m record i + 2 ≤ length := by
  induction count generalizing record areaSize with
  | zero => simp [addRecordLengths]
  | succ count ih =>
    simp only [addRecordLengths, getNextDeviceIdRecord, DeviceIdRecord.length, within_bind,
      within_uint, within_pure, ih, and_true]
    constructor
    · rintro ⟨hfirst, -, hrest⟩ i hi
      cases i with
      | zero => exact hfirst
      | succ i => exact hrest i (by omega)
    · intro h
      exact ⟨h 0 (by omega), h 0 (by omega), fun i hi => h (i + 1) (by omega)⟩

/-- The count of a device id area and the length of each of its records are inside. -/
def DeviceIdAreaInside (m : Memory) (length area : Nat) : Prop :=
  area + 1 ≤ length ∧ ∀ i < (recordCount area).value m, recordAt m area i + 2 ≤ length

theorem within_getDeviceIdAreaSize (area : Nat) :
    (getDeviceIdAreaSize area).Within m length ↔ DeviceIdAreaInside m length area := by
  simp only [getDeviceIdAreaSize, recordCount, within_bind, within_uint, within_addRecordLengths]
  rfl

theorem value_addImageInfoSizes (count info areaSize : Nat) :
    info + (addImageInfoSizes count info areaSize).value m =
      areaSize + chain nextImageInfo m info count := by
  induction count generalizing info areaSize with
  | zero => exact Nat.add_comm _ _
  | succ count ih =>
    have hnext := ih (nextImageInfo m info) (areaSize + (getComponentImageInfoSize info).value m)
    have hstep : nextImageInfo m info = info + (getComponentImageInfoSize info).value m := rfl
    change info + (addImageInfoSizes count (nextImageInfo m info) _).value m =
      areaSize + chain nextImageInfo m (nextImageInfo m info) count
    omega

theorem value_getComponentImageInfoAreaSize (area : Nat) :
    area + (getComponentImageInfoAreaSize area).value m =
      imageInfoAt m area ((imageCount area).value m) := by
  have h := value_addImageInfoSizes (m := m) ((imageCount area).value m) (imageInfos area) 2
  change area + (addImageInfoSizes _ (imageInfos area) 2).value m =
    chain nextImageInfo m (imageInfos area) _
  have hfirst : imageInfos area = area + 2 := rfl
  omega

theorem within_addImageInfoSizes (count info areaSize : Nat) :
    (addImageInfoSizes count info areaSize).Within m length ↔
      ∀ i < count, chain nextImageInfo m info i + 22 ≤ length := by
  induction count generalizing info areaSize with
  | zero => simp [addImageInfoSizes]
  | succ count ih =>
    simp only [addImageInfoSizes, getNextComponentImage, getComponentImageInfoSize,
      ImageInfo.versionStringLength, within_bind, within_uint, within_pure, ih, and_true]
    constructor
    · rintro ⟨hfirst, -, hrest⟩ i hi
      cases i with
      | zero => exact hfirst
      | succ i => exact hrest i (by omega)
    · intro h
      exact ⟨h 0 (by omega), h 0 (by omega), fun i hi => h (i + 1) (by omega)⟩

theorem value_addImageSizes (count info pkgLength : Nat) :
    (addImageSizes count info pkgLength).value m = pkgLength + imageBytes m count info := by
  induction count generalizing info pkgLength with
  | zero => rfl
  | succ count ih => exact (ih _ _).trans (Nat.add_assoc _ _ _)

theorem within_addImageSizes (count info pkgLength : Nat)
    (inside : ∀ i < count, chain nextImageInfo m info i + 22 ≤ length) :
    (addImageSizes count info pkgLength).Within m length := by
  induction count generalizing info pkgLength with
  | zero => exact within_pure _
  | succ count ih =>
    have hfirst : info + 22 ≤ length := inside 0 (by omega)
    have hrest := ih (nextImageInfo m info) (pkgLength + (ImageInfo.size info).value m)
      (fun i hi => inside (i + 1) (by omega))
    simp only [addImageSizes, getNextComponentImage, getComponentImageInfoSize, ImageInfo.size,
      ImageInfo.versionStringLength, within_bind, within_uint, within_pure, and_true]
    exact ⟨by omega, by omega, hrest⟩

/-- Every record header and image info the counts announce is inside. -/
structure AreasInside (m : Memory) (length : Nat) : Prop where
  records : DeviceIdAreaInside m length (fwArea m)
  downstream : 2 ≤ PkgHdr.formatRevision.value m → DeviceIdAreaInside m length (areaEnd m (fwArea m))
  imageCount : imageArea m + 2 ≤ length
  imageInfos : ∀ i < images m, imageInfoAt m (imageArea m) i + 22 ≤ length

theorem value_getDownstreamDeviceIdArea :
    getDownstreamDeviceIdArea.value m =
      if PkgHdr.formatRevision.value m < 2 then none else some (areaEnd m (fwArea m)) := by
  simp only [getDownstreamDeviceIdArea, value_bind, value_ite, value_pure]
  split
  · rfl
  · exact congrArg some (value_getDeviceIdAreaSize (fwArea m))

theorem within_getFwDeviceIdArea (h : 37 ≤ length) : getFwDeviceIdArea.Within m length := by
  simp only [getFwDeviceIdArea, PkgHdr.versionStringLength, within_bind, within_uint, within_pure,
    and_true]
  omega

theorem within_getDownstreamDeviceIdArea (h : 37 ≤ length)
    (inside : DeviceIdAreaInside m length (fwArea m)) :
    getDownstreamDeviceIdArea.Within m length := by
  simp only [getDownstreamDeviceIdArea, PkgHdr.formatRevision, within_bind, within_ite, within_uint,
    within_pure, within_getFwDeviceIdArea h, implies_true, true_and, and_true]
  exact ⟨by omega, fun _ => (within_getDeviceIdAreaSize _).mpr inside⟩

theorem value_imageArea :
    imageArea m = if PkgHdr.formatRevision.value m < 2 then areaEnd m (fwArea m)
      else areaEnd m (areaEnd m (fwArea m)) := by
  simp only [imageArea, getComponentImageInfoArea, value_bind, value_getDownstreamDeviceIdArea]
  split
  · exact value_getDeviceIdAreaSize (fwArea m)
  · exact value_getDeviceIdAreaSize _

theorem within_getComponentImageInfoArea (h : 37 ≤ length) (areas : AreasInside m length) :
    getComponentImageInfoArea.Within m length := by
  simp only [getComponentImageInfoArea, within_bind, within_pure, and_true,
    value_getDownstreamDeviceIdArea, within_getDownstreamDeviceIdArea h areas.records, true_and]
  by_cases hrev : PkgHdr.formatRevision.value m < 2
  · simp only [if_pos hrev, Option.elim]
    exact ⟨within_getFwDeviceIdArea h, (within_getDeviceIdAreaSize _).mpr areas.records⟩
  · simp only [if_neg hrev, Option.elim]
    exact ⟨within_pure _, (within_getDeviceIdAreaSize _).mpr (areas.downstream (by omega))⟩

theorem within_lengthsValidate (h : 37 ≤ length) :
    (lengthsValidate length).Within m length ↔ AreasInside m length := by
  constructor
  · intro hwithin
    simp only [lengthsValidate, within_bind] at hwithin
    obtain ⟨-, -, hfw, -, hdown, himage, -, hsizes, -⟩ := hwithin
    have hrecords := (within_getDeviceIdAreaSize _).mp hfw
    simp only [getComponentImageInfoAreaSize, imageCount, within_bind, within_uint,
      within_addImageInfoSizes] at hsizes
    refine ⟨hrecords, fun hrev => ?_, hsizes.1, hsizes.2⟩
    rw [value_getDownstreamDeviceIdArea, if_neg (by omega)] at hdown
    exact (within_getDeviceIdAreaSize _).mp hdown
  · intro areas
    have hsize : PkgHdr.size.Within m length := by
      rw [PkgHdr.size, within_uint]
      omega
    have hcount : (imageCount (imageArea m)).Within m length :=
      (within_uint _ _).mpr areas.imageCount
    have hsizes : (getComponentImageInfoAreaSize (imageArea m)).Within m length :=
      (within_bind _ _).mpr ⟨hcount, (within_addImageInfoSizes _ _ _).mpr areas.imageInfos⟩
    have hdown : (((getDownstreamDeviceIdArea.value m).elim (pure 0) getDeviceIdAreaSize).Within
        m length) := by
      rw [value_getDownstreamDeviceIdArea]
      split
      · exact within_pure _
      · exact (within_getDeviceIdAreaSize _).mpr (areas.downstream (by omega))
    have hversion : PkgHdr.versionStringLength.Within m length := by
      rw [PkgHdr.versionStringLength, within_uint]
      omega
    simp only [lengthsValidate, within_bind, within_ite, within_pure, implies_true, true_and,
      and_true]
    refine ⟨hsize, within_getFwDeviceIdArea h, (within_getDeviceIdAreaSize _).mpr areas.records,
      within_getDownstreamDeviceIdArea h areas.records, hdown,
      within_getComponentImageInfoArea h areas, hversion, hsizes, fun _ => ⟨hcount, ?_⟩⟩
    exact within_addImageSizes _ _ _ areas.imageInfos

/-- The areas end where the header's checksum begins, and the images fill the rest. -/
structure LengthsAddUp (m : Memory) (length : Nat) : Prop where
  header : imageInfoAt m (imageArea m) (images m) + 4 = PkgHdr.size.value m
  package : PkgHdr.size.value m + imageBytes m (images m) (imageInfos (imageArea m)) = length

theorem areaSizes_eq (m : Memory) :
    PkgHdr.versionString + PkgHdr.versionStringLength.value m +
      (getDeviceIdAreaSize (fwArea m)).value m +
      ((getDownstreamDeviceIdArea.value m).elim (pure 0) getDeviceIdAreaSize).value m +
      (getComponentImageInfoAreaSize (imageArea m)).value m =
        imageInfoAt m (imageArea m) (images m) := by
  have hfw := value_getDeviceIdAreaSize (m := m) (fwArea m)
  have hend : imageArea m + _ = imageInfoAt m (imageArea m) (images m) :=
    value_getComponentImageInfoAreaSize (m := m) (imageArea m)
  have hstart : PkgHdr.versionString + PkgHdr.versionStringLength.value m = fwArea m := rfl
  rw [value_getDownstreamDeviceIdArea]
  have himage := value_imageArea (m := m)
  by_cases hrev : PkgHdr.formatRevision.value m < 2
  · rw [if_pos hrev] at himage ⊢
    simp only [Option.elim, value_pure]
    omega
  · rw [if_neg hrev] at himage ⊢
    simp only [Option.elim]
    have hdown := value_getDeviceIdAreaSize (m := m) (areaEnd m (fwArea m))
    omega

theorem value_lengthsValidate :
    (lengthsValidate length).value m = .success ↔ LengthsAddUp m length := by
  have hsizes := areaSizes_eq m
  simp only [lengthsValidate, value_bind, value_ite, value_pure, value_addImageSizes]
  change (if _ + (getComponentImageInfoAreaSize (imageArea m)).value m + 4 ≠ _ then _ else
    if _ + (getComponentImageInfoAreaSize (imageArea m)).value m + 4 +
      imageBytes m (images m) (imageInfos (imageArea m)) ≠ _ then _ else _) = _ ↔ _
  have hsum : PkgHdr.versionString + PkgHdr.versionStringLength.value m +
      (getDeviceIdAreaSize (getFwDeviceIdArea.value m)).value m +
      ((getDownstreamDeviceIdArea.value m).elim (pure 0) getDeviceIdAreaSize).value m +
      (getComponentImageInfoAreaSize (imageArea m)).value m + 4 =
        imageInfoAt m (imageArea m) (images m) + 4 := congrArg (· + 4) hsizes
  rw [hsum]
  constructor
  · intro hvalue
    split at hvalue
    · cases hvalue
    · rename_i hheader
      split at hvalue
      · cases hvalue
      · rename_i hpackage
        have hheader := Decidable.not_not.mp hheader
        have hpackage := Decidable.not_not.mp hpackage
        exact ⟨hheader, by omega⟩
  · rintro ⟨hheader, hpackage⟩
    rw [if_neg (by omega), if_neg (by omega)]

end Pldm
