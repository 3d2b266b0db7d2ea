import Edk2Nvidia.Pldm.PackageSafety

/-! When the header check keeps its promise: it stays inside the buffer, and so does
every accessor on a package it accepted. -/
namespace Pldm
open Flash Parse Reader

variable {m : Memory} {length : Nat}

/-! Going over a package the way its users do. -/

/-- A device id record with its version string and its descriptors. -/
def readRecord (record : Nat) : Reader Unit := do
  let _ ← bytes record 11
  let _ ← bytes (← getDeviceIdRecordImageSetVersionString record)
    (← DeviceIdRecord.imageSetVersionStringLength record)
  forChain descNext printFwDesc (← DeviceIdRecord.descriptorCount record)
    (← getFwDeviceIdRecordDescriptors record)

def readRecords : Reader Unit := do
  let area ← getFwDeviceIdArea
  forChain getNextDeviceIdRecord readRecord (← recordCount area) (records area)

/-- A component image info with its version string. -/
def readImageInfo (info : Nat) : Reader Unit := do
  let _ ← bytes info 22
  let _ ← bytes (ImageInfo.versionString info) (← ImageInfo.versionStringLength info)
  pure ()

def readImageInfos : Reader Unit := do
  let area ← getComponentImageInfoArea
  forChain getNextComponentImage readImageInfo (← imageCount area) (imageInfos area)

/-- The image itself, where its info says it is. -/
def readImage (info : Nat) : Reader (List UInt8) := do
  bytes (← ImageInfo.locationOffset info) (← ImageInfo.size info)

structure AccessorsInside (m : Memory) (length : Nat) : Prop where
  records : readRecords.Within m length
  matching : ∀ descriptorCount fwDescriptors first,
    (matchesFD descriptorCount fwDescriptors first).Within m length
  imageInfos : readImageInfos.Within m length
  applicability : ∀ i < images m, ∀ r < (recordCount (fwArea m)).value m,
    (componentIsApplicable i (recordAt m (fwArea m) r)).Within m length
  images : ∀ i < images m, (readImage (imageInfoAt m (imageArea m) i)).Within m length

def Sound (calculateCrc32 : List UInt8 → Nat) (m : Memory) (length : Nat) : Prop :=
  (hdrValidate calculateCrc32 length).Within m length ∧
    ((hdrValidate calculateCrc32 length).value m = .success → AccessorsInside m length)

/-! The condition. -/

/-- The fixed header is there and of a known format. -/
structure HeaderKnown (m : Memory) (length : Nat) : Prop where
  fixed : hdrSize ≤ length
  size : PkgHdr.size.value m ≤ length
  identifier : pldmGuid (PkgHdr.formatRevision.value m) = some (PkgHdr.identifier.value m)

/-- The checksum and the bitmap length are right. -/
structure HeaderIntact (calculateCrc32 : List UInt8 → Nat) (m : Memory) : Prop where
  crc : fromLittleEndian (slice m (PkgHdr.size.value m - 4) 4) =
    calculateCrc32 (slice m 0 (PkgHdr.size.value m - 4))
  bitmap : PkgHdr.componentBitmapBitLength.value m % 8 = 0

/-- What the records and infos refer to is inside: descriptors, bitmap bytes, images. -/
structure ReferencesInside (m : Memory) (length : Nat) : Prop where
  descriptors : ∀ r < (recordCount (fwArea m)).value m,
    descriptorsEnd m (recordAt m (fwArea m) r) ≤ length
  bitmaps : ∀ r < (recordCount (fwArea m)).value m, ∀ i < images m,
    recordAt m (fwArea m) r + 11 + i / 8 < length
  images : ∀ i < images m, (ImageInfo.locationOffset (imageInfoAt m (imageArea m) i)).value m +
    (ImageInfo.size (imageInfoAt m (imageArea m) i)).value m ≤ length

/-- The packages on which the header check is sound: if the identifier is known, the size
leaves room for the checksum; if the checksum is right, the announced headers are inside;
and if the lengths add up, so is what they refer to. -/
def WellFormed (calculateCrc32 : List UInt8 → Nat) (m : Memory) (length : Nat) : Prop :=
  HeaderKnown m length → 4 ≤ PkgHdr.size.value m ∧
    (HeaderIntact calculateCrc32 m → AreasInside m length ∧
      (LengthsAddUp m length → ReferencesInside m length))

/-! The accessors. -/

theorem within_printFwDesc (desc : Nat) :
    (printFwDesc desc).Within m length ↔ nextDescriptor m desc ≤ length := by
  rw [nextDescriptor_eq]
  simp only [printFwDesc, Descriptor.type, Descriptor.length, Descriptor.data, within_bind,
    within_uint, within_bytes, within_pure, and_true, value_uint]
  omega

theorem within_readRecord (h : 37 ≤ length) (record : Nat) :
    (readRecord record).Within m length ↔ descriptorsEnd m record ≤ length := by
  have hfirst := descriptors_eq m record
  have hbitmap : PkgHdr.componentBitmapBitLength.Within m length := by
    rw [PkgHdr.componentBitmapBitLength, within_uint]
    omega
  have hdescNext : ∀ desc, (descNext desc).Within m length ↔ desc + 2 + 2 ≤ length := by
    intro desc
    simp only [descNext, Descriptor.length, within_bind, within_uint, within_pure, and_true]
  simp only [readRecord, within_bind, within_bytes, DeviceIdRecord.imageSetVersionStringLength,
    DeviceIdRecord.descriptorCount, getFwDeviceIdRecordDescriptors,
    getDeviceIdRecordImageSetVersionString, within_uint, within_pure, within_forChain,
    within_printFwDesc, hdescNext, hbitmap, true_and, and_true]
  change (record + 11 ≤ length ∧ _ ∧ record + 11 + PkgHdr.componentBitmapBitLength.value m / 8 +
    (DeviceIdRecord.imageSetVersionStringLength record).value m ≤ length ∧ _ ∧ _ ∧
    ∀ i < (DeviceIdRecord.descriptorCount record).value m,
      nextDescriptor m (chain nextDescriptor m ((getFwDeviceIdRecordDescriptors record).value m) i) ≤
        length ∧ chain nextDescriptor m ((getFwDeviceIdRecordDescriptors record).value m) i + 2 + 2 ≤
          length) ↔ _
  rw [← hfirst]
  constructor
  · rintro ⟨-, -, hstring, -, -, hdescs⟩
    cases hcount : (DeviceIdRecord.descriptorCount record).value m with
    | zero => rwa [descriptorsEnd, hcount]
    | succ count =>
      rw [descriptorsEnd, hcount, chain_succ]
      exact (hdescs count (by omega)).1
  · intro hend
    have hle : ∀ {i j : Nat}, i ≤ j → _ := fun {_ _} =>
      chain_le (le_nextDescriptor m) ((getFwDeviceIdRecordDescriptors record).value m)
    have hstart : _ ≤ descriptorsEnd m record := hle (Nat.zero_le _)
    change (getFwDeviceIdRecordDescriptors record).value m ≤ _ at hstart
    refine ⟨by omega, by omega, by omega, by omega, by omega, fun i hi => ?_⟩
    have hnext : chain nextDescriptor m _ (i + 1) ≤ descriptorsEnd m record := hle hi
    rw [chain_succ] at hnext
    have hdesc := nextDescriptor_eq m
      (chain nextDescriptor m ((getFwDeviceIdRecordDescriptors record).value m) i)
    exact ⟨by omega, by omega⟩

theorem within_readRecords (h : 37 ≤ length) (area : DeviceIdAreaInside m length (fwArea m)) :
    readRecords.Within m length ↔ ∀ r < (recordCount (fwArea m)).value m,
      descriptorsEnd m (recordAt m (fwArea m) r) ≤ length := by
  have hcount : (recordCount (fwArea m)).Within m length := (within_uint _ _).mpr area.1
  have hnext : ∀ r < (recordCount (fwArea m)).value m,
      (getNextDeviceIdRecord (recordAt m (fwArea m) r)).Within m length := by
    intro r hr
    simp only [getNextDeviceIdRecord, DeviceIdRecord.length, within_bind, within_uint, within_pure,
      and_true]
    exact area.2 r hr
  simp only [readRecords, within_bind, within_getFwDeviceIdArea h, within_forChain,
    within_readRecord h, true_and]
  exact ⟨fun hall r hr => (hall.2 r hr).1, fun hall => ⟨hcount, fun r hr => ⟨hall r hr, hnext r hr⟩⟩⟩

theorem within_descriptorIsInList (list : Memory) (count : Nat) {desc first : Nat}
    (inside : nextDescriptor m desc ≤ length) :
    (descriptorIsInList desc list count first).Within m length := by
  rw [nextDescriptor_eq] at inside
  have hlength : (Descriptor.length desc).value m = fromLittleEndian (slice m (desc + 2) 2) := rfl
  induction count generalizing first with
  | zero => exact within_pure _
  | succ count ih =>
    rw [descriptorIsInList, within_bind, within_bind, within_ite, within_bind, within_ite]
    simp only [within_uint, within_bytes, within_pure, ih, implies_true, and_true]
    exact ⟨by omega, by omega, fun _ => by omega⟩

theorem within_descriptorsMatch (fwDescriptors : Memory) (first descriptorCount : Nat)
    {count desc : Nat} (inside : chain nextDescriptor m desc count ≤ length) :
    (descriptorsMatch fwDescriptors first descriptorCount count desc).Within m length := by
  induction count generalizing desc with
  | zero => exact within_pure _
  | succ count ih =>
    have hfirst : nextDescriptor m desc ≤ length :=
      Nat.le_trans (chain_le (le_nextDescriptor m) (nextDescriptor m desc) (Nat.zero_le count)) inside
    have hnext : (descNext desc).Within m length := by
      rw [nextDescriptor_eq] at hfirst
      simp only [descNext, Descriptor.length, within_bind, within_uint, within_pure, and_true]
      omega
    simp only [descriptorsMatch, within_bind, within_ite, within_pure, implies_true, and_true]
    exact ⟨(within_printFwDesc desc).mpr hfirst, within_descriptorIsInList _ _ hfirst,
      fun _ => ⟨hnext, ih inside⟩⟩

theorem within_matchRecords (h : 37 ≤ length) (fwDescriptors : Memory) (first descriptorCount : Nat)
    {count record : Nat}
    (inside : ∀ r < count, descriptorsEnd m (chain nextRecord m record r) ≤ length) :
    (matchRecords fwDescriptors first descriptorCount count record).Within m length := by
  induction count generalizing record with
  | zero => exact within_pure _
  | succ count ih =>
    have hend : descriptorsEnd m record ≤ length := inside 0 (by omega)
    have hstart : (getFwDeviceIdRecordDescriptors record).value m ≤ length :=
      Nat.le_trans (chain_le (le_nextDescriptor m) _ (Nat.zero_le _)) hend
    rw [descriptors_eq] at hstart
    have hmatch := within_descriptorsMatch fwDescriptors first descriptorCount hend
    simp only [matchRecords, within_bind, within_ite, within_pure, implies_true, true_and,
      getFwDeviceIdRecordDescriptors, getDeviceIdRecordImageSetVersionString,
      DeviceIdRecord.imageSetVersionStringLength, DeviceIdRecord.descriptorCount,
      PkgHdr.componentBitmapBitLength, getNextDeviceIdRecord, DeviceIdRecord.length, within_uint,
      and_true]
    exact ⟨⟨by omega, by omega⟩, by omega, hmatch, fun _ => ⟨by omega,
      ih fun r hr => inside (r + 1) (by omega)⟩⟩

theorem within_matchesFD (h : 37 ≤ length) (area : DeviceIdAreaInside m length (fwArea m))
    (inside : ∀ r < (recordCount (fwArea m)).value m,
      descriptorsEnd m (recordAt m (fwArea m) r) ≤ length)
    (descriptorCount : Nat) (fwDescriptors : Memory) (first : Nat) :
    (matchesFD descriptorCount fwDescriptors first).Within m length := by
  simp only [matchesFD, within_bind, within_getFwDeviceIdArea h, true_and]
  exact ⟨(within_uint _ _).mpr area.1, within_matchRecords h _ _ _ inside⟩

theorem within_readImageInfo (info : Nat) :
    (readImageInfo info).Within m length ↔ nextImageInfo m info ≤ length := by
  rw [nextImageInfo_eq]
  simp only [readImageInfo, ImageInfo.versionStringLength, ImageInfo.versionString, within_bind,
    within_bytes, within_uint, within_pure, and_true, value_uint]
  omega

theorem within_readImageInfos (h : 37 ≤ length) (areas : AreasInside m length)
    (lengths : LengthsAddUp m length) (hsize : PkgHdr.size.value m ≤ length) :
    readImageInfos.Within m length := by
  simp only [readImageInfos, within_bind, within_getComponentImageInfoArea h areas, within_forChain,
    within_readImageInfo, true_and]
  refine ⟨(within_uint _ _).mpr areas.imageCount, fun i hi => ?_⟩
  have hend : imageInfoAt m (imageArea m) (i + 1) ≤ imageInfoAt m (imageArea m) (images m) :=
    chain_le (le_nextImageInfo m) _ hi
  have hnext : imageInfoAt m (imageArea m) (i + 1) =
      nextImageInfo m (imageInfoAt m (imageArea m) i) := chain_succ _ _ _ _
  have hheader := lengths.header
  change nextImageInfo m (imageInfoAt m (imageArea m) i) ≤ length ∧
    (getNextComponentImage (imageInfoAt m (imageArea m) i)).Within m length
  have hinfo := nextImageInfo_eq m (imageInfoAt m (imageArea m) i)
  simp only [getNextComponentImage, getComponentImageInfoSize, ImageInfo.versionStringLength,
    within_bind, within_uint, within_pure, and_true]
  exact ⟨by omega, by omega⟩

theorem within_readImage {info : Nat} (hinfo : info + 22 ≤ length) :
    (readImage info).Within m length ↔
      (ImageInfo.locationOffset info).value m + (ImageInfo.size info).value m ≤ length := by
  simp only [readImage, ImageInfo.locationOffset, ImageInfo.size, within_bind, within_uint,
    within_bytes, value_uint]
  omega

theorem within_componentIsApplicable (i record : Nat) :
    (componentIsApplicable i record).Within m length ↔ record + 11 + i / 8 < length := by
  simp only [componentIsApplicable, DeviceIdRecord.applicableComponents, within_bind, within_uint,
    within_pure, and_true]
  omega

/-- On a package with all headers inside, the accessors stay inside exactly if what they
follow does. -/
theorem accessorsInside_iff (h : 37 ≤ length) (areas : AreasInside m length)
    (lengths : LengthsAddUp m length) (hsize : PkgHdr.size.value m ≤ length) :
    AccessorsInside m length ↔ ReferencesInside m length := by
  have himages : ∀ i < images m, (readImage (imageInfoAt m (imageArea m) i)).Within m length ↔ _ :=
    fun i hi => within_readImage (areas.imageInfos i hi)
  constructor
  · intro inside
    refine ⟨(within_readRecords h areas.records).mp inside.records, fun r hr i hi => ?_,
      fun i hi => (himages i hi).mp (inside.images i hi)⟩
    exact (within_componentIsApplicable _ _).mp (inside.applicability i hi r hr)
  · intro refs
    refine ⟨(within_readRecords h areas.records).mpr refs.descriptors,
      within_matchesFD h areas.records refs.descriptors,
      within_readImageInfos h areas lengths hsize, fun i hi r hr => ?_,
      fun i hi => (himages i hi).mpr (refs.images i hi)⟩
    exact (within_componentIsApplicable _ _).mpr (refs.bitmaps r hr i hi)

/-! The header check. -/

section
variable {calculateCrc32 : List UInt8 → Nat}

theorem pkgHdr_size_lt (m : Memory) : PkgHdr.size.value m < 2 ^ 16 := by
  have h := fromLittleEndian_lt (slice m 17 2)
  rwa [length_slice] at h

theorem crcOffset_eq (h : 4 ≤ PkgHdr.size.value m) :
    (PkgHdr.size.value m + (2 ^ 64 - 4)) % 2 ^ 64 = PkgHdr.size.value m - 4 := by
  have hsize := pkgHdr_size_lt m
  omega

/-- A header that is not known is rejected before anything behind it is read. -/
theorem hdrValidate_unknown (unknown : ¬ HeaderKnown m length) :
    (hdrValidate calculateCrc32 length).Within m length ∧
      (hdrValidate calculateCrc32 length).value m ≠ .success := by
  unfold hdrValidate
  by_cases hfixed : length < hdrSize
  · rw [if_pos hfixed]
    exact ⟨within_pure _, by rintro ⟨⟩⟩
  rw [if_neg hfixed]
  have hlen : 37 ≤ length := Nat.le_of_not_lt hfixed
  simp only [within_bind, value_bind, within_uint]
  by_cases hsize : length < PkgHdr.size.value m
  · rw [if_pos hsize]
    exact ⟨⟨by omega, within_pure _⟩, by rintro ⟨⟩⟩
  rw [if_neg hsize]
  simp only [within_bind, value_bind, within_uint]
  cases hguid : pldmGuid (PkgHdr.formatRevision.value m) with
  | none => exact ⟨⟨by omega, by omega, within_pure _⟩, by rintro ⟨⟩⟩
  | some guid =>
    have hid : PkgHdr.identifier.value m ≠ guid := fun heq =>
      unknown ⟨hlen, Nat.le_of_not_lt hsize, hguid.trans (congrArg some heq.symm)⟩
    simp only [within_bind, value_bind, within_bytes]
    rw [if_pos hid]
    exact ⟨⟨by omega, by omega, by omega, within_pure _⟩, by rintro ⟨⟩⟩

theorem hdrValidate_known (hbound : length < 2 ^ 64) (known : HeaderKnown m length) :
    ((hdrValidate calculateCrc32 length).Within m length ↔ 4 ≤ PkgHdr.size.value m ∧
      (HeaderIntact calculateCrc32 m → (lengthsValidate length).Within m length)) ∧
    (4 ≤ PkgHdr.size.value m → ((hdrValidate calculateCrc32 length).value m = .success ↔
      HeaderIntact calculateCrc32 m ∧ (lengthsValidate length).value m = .success)) := by
  obtain ⟨hfixed, hsize, hid⟩ := known
  have hlen : 37 ≤ length := hfixed
  unfold hdrValidate
  rw [if_neg (by omega)]
  simp only [within_bind, value_bind, within_uint]
  rw [if_neg (by omega)]
  simp only [within_bind, value_bind, within_uint, hid, within_bytes, ne_eq, not_true_eq_false,
    if_false]
  have hlt := pkgHdr_size_lt m
  by_cases hfour : 4 ≤ PkgHdr.size.value m
  · rw [crcOffset_eq hfour]
    by_cases hcrc : (uint (PkgHdr.size.value m - 4) 4).value m =
        calculateCrc32 ((bytes 0 (PkgHdr.size.value m - 4)).value m)
    · rw [if_neg (not_not.mpr hcrc)]
      simp only [within_bind, value_bind, within_uint]
      by_cases hbits : PkgHdr.componentBitmapBitLength.value m % 8 = 0
      · rw [if_neg (not_not.mpr hbits)]
        constructor
        · constructor
          · rintro ⟨-, -, -, -, -, -, hlengths⟩
            exact ⟨hfour, fun _ => hlengths⟩
          · rintro ⟨-, hlengths⟩
            exact ⟨by omega, by omega, by omega, by omega, by omega, by omega, hlengths ⟨hcrc, hbits⟩⟩
        · exact fun _ => ⟨fun hvalue => ⟨⟨hcrc, hbits⟩, hvalue⟩, fun hvalue => hvalue.2⟩
      · rw [if_pos hbits]
        constructor
        · exact ⟨fun _ => ⟨hfour, fun intact => absurd intact.bitmap hbits⟩,
            fun _ => ⟨by omega, by omega, by omega, by omega, by omega, by omega, within_pure _⟩⟩
        · exact fun _ => ⟨by intros; contradiction, fun hvalue => absurd hvalue.1.bitmap hbits⟩
    · rw [if_pos hcrc]
      constructor
      · exact ⟨fun _ => ⟨hfour, fun intact => absurd intact.crc hcrc⟩,
          fun _ => ⟨by omega, by omega, by omega, by omega, by omega, within_pure _⟩⟩
      · exact fun _ => ⟨by intros; contradiction, fun hvalue => absurd hvalue.1.crc hcrc⟩
  · constructor
    · constructor
      · rintro ⟨-, -, -, hcrc, -⟩
        omega
      · exact fun h => absurd h.1 hfour
    · exact fun h => absurd h hfour

/-- The header check is sound on the well-formed packages and on no others. -/
theorem hdrValidate_sound_iff (calculateCrc32 : List UInt8 → Nat) (m : Memory) (length : UInt64) :
    Sound calculateCrc32 m length.toNat ↔ WellFormed calculateCrc32 m length.toNat := by
  by_cases known : HeaderKnown m length.toNat
  · obtain ⟨hwithin, hvalue⟩ : _ ∧ (_ → ((hdrValidate calculateCrc32 _).value m = _ ↔ _)) :=
      hdrValidate_known length.toNat_lt known
    have hlen : 37 ≤ length.toNat := known.fixed
    rw [within_lengthsValidate hlen] at hwithin
    rw [value_lengthsValidate] at hvalue
    unfold Sound WellFormed
    rw [hwithin]
    constructor
    · rintro ⟨⟨hfour, hareas⟩, haccessors⟩ -
      refine ⟨hfour, fun intact => ⟨hareas intact, fun lengths => ?_⟩⟩
      have accepted := (hvalue hfour).mpr ⟨intact, lengths⟩
      exact (accessorsInside_iff hlen (hareas intact) lengths known.size).mp (haccessors accepted)
    · intro wellFormed
      obtain ⟨hfour, hrest⟩ := wellFormed known
      refine ⟨⟨hfour, fun intact => (hrest intact).1⟩, fun accepted => ?_⟩
      obtain ⟨intact, lengths⟩ := (hvalue hfour).mp accepted
      obtain ⟨hareas, hrefs⟩ := hrest intact
      exact (accessorsInside_iff hlen hareas lengths known.size).mpr (hrefs lengths)
  · obtain ⟨hwithin, hvalue⟩ : (hdrValidate calculateCrc32 _).Within m _ ∧ _ :=
      hdrValidate_unknown known
    exact ⟨fun _ h => absurd h known, fun _ => ⟨hwithin, fun h => absurd h hvalue⟩⟩

end

/-- CRC-32 with the reflected polynomial, a bit at a time. -/
def crc32 (data : List UInt8) : Nat :=
  data.foldl (fun crc b => (List.range 8).foldl
    (fun crc _ => if crc % 2 = 1 then (crc / 2) ^^^ 0xEDB88320 else crc / 2) (crc ^^^ b.toNat))
    0xFFFFFFFF ^^^ 0xFFFFFFFF

/-- A fixed header of known format whose size leaves no room for the checksum. -/
def undersizedHeader : List UInt8 :=
  uuidV1_0 ++ [1, 3, 0] ++ List.replicate 18 0

/-- A package without devices whose only image is said to lie behind the end. -/
def strayImage : List UInt8 :=
  uuidV1_0 ++ [1, 65, 0] ++ List.replicate 17 0 ++
    -- no device records, one image of one byte at offset 66
    [0] ++ [1, 0] ++ [10, 0, 1, 0, 0, 0, 0, 0, 0, 0, 0, 0] ++ [66, 0, 0, 0] ++ [1, 0, 0, 0] ++ [1, 0] ++
    -- the checksum and the image
    [0x03, 0xDA, 0xD6, 0x38] ++ [0xAA]

theorem hdrValidate_unsound :
    ¬ Sound crc32 (memoryOf undersizedHeader) 37 ∧
      ¬ Sound crc32 (memoryOf strayImage) 66 := by
  constructor
  · have known : HeaderKnown (memoryOf undersizedHeader) 37 :=
      ⟨by decide, by decide, by decide⟩
    intro sound
    have hfour := ((hdrValidate_known (by decide) known).1.mp sound.1).1
    exact absurd hfour (by decide)
  · intro sound
    have accepted : (hdrValidate crc32 66).value (memoryOf strayImage) = .success := by
      decide +kernel
    have himage := (sound.2 accepted).images 0 (by decide)
    exact absurd himage (by decide)

end Pldm
