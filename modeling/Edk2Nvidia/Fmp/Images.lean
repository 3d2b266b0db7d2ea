import Edk2Nvidia.Fmp.Loops

/-! The images an update writes and reads back, with their partitions in the two chains. -/
namespace TegraFmp
open Flash (Memory slice Holds)
open FwPartition (Name nameOf)
open FwImageDxe
open Effect

/-- Every image once, with its two partitions where they belong. -/
structure Fmp.Sound (fmp : Fmp) : Prop where
  enabled : fmp.platform.enableBPartitions = true
  once : (fmp.images.map Private.name).Nodup
  complete : ∀ image ∈ fmp.images, fwImageIsReadyToInstall fmp.platform image = true
  places : ∀ image ∈ fmp.images, ∀ chain partition, image.partition chain = some partition →
    bootChain partition = chain ∧ baseName partition = image.name ∧ builds partition = true
  sizes : ∀ image ∈ fmp.images, ∀ running idle,
    image.partition fmp.platform.mBootChain = some running →
    image.partition fmp.platform.mBootChain.other = some idle → image.writeBytes = idle.bytes

def Fmp.target (fmp : Fmp) : BootChain := otherBootChain fmp.platform.mBootChain

/-- The image of the package is in its partition of the chain. -/
def Fmp.Holding (fmp : Fmp) (header : Package) (chain : BootChain) (s : System)
    (image : Private) : Prop :=
  ∃ data partition, fmp.getPackageImage header image.name = .ok data ∧
    image.partition chain = some partition ∧ Holds (s.storage partition.partitionName) 0 data

section Sound
variable {fmp : Fmp} {header : Package} {s : System} {image : Private}

theorem bootChain_congr {p q : Partition} (h : p.partitionName = q.partitionName) :
    bootChain p = bootChain q := by
  unfold bootChain
  rw [h]

theorem baseName_congr {p q : Partition} (h : p.partitionName = q.partitionName) :
    baseName p = baseName q := by
  unfold baseName
  rw [h]

theorem Fmp.target_ne (fmp : Fmp) : fmp.target ≠ fmp.platform.mBootChain := by
  unfold Fmp.target otherBootChain
  cases fmp.platform.mBootChain with
  | a => decide
  | b => decide

theorem Fmp.Sound.find (hsound : fmp.Sound) (himage : image ∈ fmp.images) :
    fmp.fwImageFindProtocol image.name = some image := by
  have hlookup : FwImageDxe.images.lookup fmp.images image.name = some image :=
    Keyed.lookup_of_mem hsound.once himage
  unfold Fmp.fwImageFindProtocol
  simp only [beq_eq_decide]
  exact hlookup

theorem Fmp.mem_of_find {name : Name} (h : fmp.fwImageFindProtocol name = some image) :
    image ∈ fmp.images ∧ image.name = name :=
  ⟨List.mem_of_find?_eq_some h, by simpa using List.find?_some h⟩

theorem Fmp.Sound.place (hsound : fmp.Sound) (himage : image ∈ fmp.images)
    (hbackup : fwImageHasNoBackup image = false) (chain : BootChain) :
    ∃ partition, image.partition chain = some partition ∧ bootChain partition = chain ∧
      baseName partition = image.name := by
  have hready := hsound.complete image himage
  unfold fwImageIsReadyToInstall at hready
  rw [hsound.enabled, hbackup] at hready
  have hboth : image.fwPartitionA.isSome = true ∧ image.fwPartitionB.isSome = true := by
    simp_all
  have hsome : ∃ partition, image.partition chain = some partition := by
    unfold Private.partition
    cases chain with
    | a => exact Option.isSome_iff_exists.mp hboth.1
    | b => exact Option.isSome_iff_exists.mp hboth.2
  obtain ⟨partition, hpartition⟩ := hsome
  obtain ⟨hchain, hname, _⟩ := hsound.places image himage _ partition hpartition
  exact ⟨partition, hpartition, hchain, hname⟩

/-- The flags of a write, which goes to this chain. -/
def Fmp.Writes (fmp : Fmp) (flags : Nat) (chain : BootChain) : Prop :=
  ∀ image ∈ fmp.images, fwImageHasNoBackup image = false →
    fmp.writeTarget image flags = image.partition chain

/-- The flags of a read, which goes to this chain. -/
def Fmp.Reads (fmp : Fmp) (flags : Nat) (chain : BootChain) : Prop :=
  ∀ image ∈ fmp.images, fwImageHasNoBackup image = false →
    fmp.readTarget image flags =
      image.partition chain

/-- Without flags that force a partition a write goes to the chain that does not run. -/
theorem Fmp.Sound.writes (hsound : fmp.Sound) : fmp.Writes 0 fmp.target := by
  intro image himage hbackup
  obtain ⟨running, hrunning, _⟩ := hsound.place himage hbackup fmp.platform.mBootChain
  obtain ⟨idle, hidle, _⟩ := hsound.place himage hbackup fmp.target
  unfold Fmp.writeTarget
  rw [selectPartition_eq hrunning hidle (Nat.zero_and _), inactiveImagePartition_eq]
  rfl

theorem Fmp.Sound.reads (hsound : fmp.Sound) : fmp.Reads readInactiveImage fmp.target := by
  intro image himage hbackup
  obtain ⟨running, hrunning, _⟩ := hsound.place himage hbackup fmp.platform.mBootChain
  obtain ⟨idle, hidle, _⟩ := hsound.place himage hbackup fmp.target
  unfold Fmp.readTarget
  rw [selectPartition_eq hrunning hidle (by decide), if_pos (by decide),
    inactiveImagePartition_eq]
  rfl

theorem noBackup_eq (image : Private) : fwImageHasNoBackup image =
    (image.name == brBctBackupPartitionName || image.name == updateInactivePartitions) := rfl

theorem special_false {name : Name} (h : specialImageNames.contains name = false) :
    name ≠ gpt ∧ name ≠ mb1 ∧ name ≠ updateInactivePartitions ∧
      name ≠ brBctBackupPartitionName := by
  unfold specialImageNames at h
  simpa using h

theorem noVerify_false {name : Name} (h : noVerifyPartitionNames.contains name = false) :
    name ≠ bctPartition ∧ name ≠ updateInactivePartitions ∧ name ≠ brBctBackupPartitionName := by
  unfold noVerifyPartitionNames at h
  simpa using h

theorem Fmp.Sound.verifyImage_wp {lost : Command → System → Prop} {flags : Nat}
    {chain : BootChain} (hsound : fmp.Sound) (hverify : fmp.pcdFmpWriteVerifyImage = true)
    (hflags : fmp.Reads flags chain) (himage : image ∈ fmp.images)
    (hbackup : fwImageHasNoBackup image = false) (hreads : ReadsIn lost s) :
    wp lost (fun status s' => s' = s ∧ (status = .success → fmp.Holding header chain s image))
      (fmp.verifyImage header image.name flags) s := by
  obtain ⟨partition, hpartition, _⟩ := hsound.place himage hbackup chain
  unfold Fmp.verifyImage
  rw [if_pos hverify, hsound.find himage]
  cases hpackage : fmp.getPackageImage header image.name with
  | error status =>
    have herror := header.select_isError _ _ hpackage
    exact ⟨rfl, fun hsuccess => absurd hsuccess (ne_success_of_isError herror)⟩
  | ok data =>
    have hselect := (hflags image himage hbackup).trans hpartition
    refine Prog.wp_mono (verifyLoop_wp hselect hreads 0 data)
      (fun _ _ h => h) ?_
    rintro status s' ⟨rfl, hholds⟩
    exact ⟨rfl, fun hsuccess => ⟨data, partition, hpackage, hpartition, hholds hsuccess⟩⟩

theorem Fmp.Sound.verifyAllImages_wp {lost : Command → System → Prop} {flags : Nat}
    {chain : BootChain} (hsound : fmp.Sound) (hverify : fmp.pcdFmpWriteVerifyImage = true)
    (hflags : fmp.Reads flags chain) (hreads : ReadsIn lost s) (minimalUpdate : Bool) :
    wp lost (fun status s' => s' = s ∧ (status = .success →
        ∀ image ∈ fmp.images, noVerifyPartitionNames.contains image.name = false →
          (minimalUpdate && minimalUnsupportedImageNames.contains image.name) = false →
            fmp.Handled header minimalUpdate (fmp.Holding header chain s) image))
      (fmp.verifyAllImages header minimalUpdate flags) s := by
  unfold Fmp.verifyAllImages
  rw [if_pos hverify]
  refine Prog.wp_mono (forImages_wp (I := fun s' => s' = s)
    (G := fmp.Holding header chain s) ?_ rfl) (fun _ _ h => h) ?_
  · rintro image himage hskips s' rfl
    have hverified : noVerifyPartitionNames.contains image.name = false :=
      (Bool.or_eq_false_iff.mp hskips).1
    obtain ⟨_, hpseudo, hbackup⟩ := noVerify_false hverified
    refine hsound.verifyImage_wp hverify hflags himage ?_ hreads
    rw [noBackup_eq]
    simp [hbackup, hpseudo]
  · rintro status s' ⟨rfl, hall⟩
    exact ⟨rfl, fun hsuccess image himage hno hsupported =>
      hall hsuccess image himage (Bool.or_eq_false_iff.mpr ⟨hno, hsupported⟩)⟩

end Sound

/-! The images that are assembled out of the partitions. -/

/-- The partitions of an image lie where they belong. -/
def Placed (image : Private) : Prop :=
  ∀ chain partition, image.partition chain = some partition →
    bootChain partition = chain ∧ baseName partition = image.name ∧ builds partition = true

theorem Placed.addPartition {platform : Platform} {image : Private} {partition : Partition}
    (h : Placed image) (hbuilds : builds partition = true)
    (hname : image.name = baseName partition) :
    Placed (addPartition platform (bootChain partition) partition image) := by
  rw [addPartition_eq]
  obtain ⟨hname', hA, hB⟩ :=
    settle_alike platform (place platform (bootChain partition) partition image)
  have hplace : Placed (place platform (bootChain partition) partition image) := by
    unfold place
    cases hchain : bootChain partition with
    | a =>
      intro chain partition' hpartition
      cases chain with
      | a =>
        obtain rfl := Option.some.inj hpartition
        exact ⟨hchain, hname.symm, hbuilds⟩
      | b => exact h .b partition' hpartition
    | b =>
      dsimp only
      split
      · intro chain partition' hpartition
        cases chain with
        | a => exact h .a partition' hpartition
        | b =>
          obtain rfl := Option.some.inj hpartition
          exact ⟨hchain, hname.symm, hbuilds⟩
      · exact h
  intro chain partition' hpartition
  rw [hname']
  refine hplace chain partition' ?_
  cases chain with
  | a => exact hA.symm.trans hpartition
  | b => exact hB.symm.trans hpartition

theorem callbacks_placed (platform : Platform) (groups : List (Name × List Partition)) :
    ∀ image ∈ callbacks platform groups, Placed image := by
  rw [callbacks_eq]
  refine Keyed.forall_foldl_of_key (arrivals platform) fwImageMaxImages _ ?_ ?_ [] (by simp)
  · intro partition hpartition image hkey hplaced
    exact hplaced.addPartition (List.mem_filter.mp hpartition).2 hkey
  · intro partition _ chain partition' hnone
    cases chain with
    | a => cases hnone
    | b => cases hnone

theorem settle_writeBytes {platform : Platform} {image : Private} {running idle : Partition}
    (hready : fwImageIsReadyToInstall platform image = true)
    (hrunning : image.partition platform.mBootChain = some running)
    (hidle : image.partition platform.mBootChain.other = some idle) :
    (settle platform image).writeBytes = idle.bytes := by
  rw [settle, if_pos hready]
  unfold fwImageGetPartitionAttributes
  rw [activeImagePartition_eq, hrunning, inactiveImagePartition_eq, hidle]

/-- An installed image tells the size of the partition that it writes. -/
def Sized (platform : Platform) (image : Private) : Prop :=
  image.installed = true → fwImageIsReadyToInstall platform image = true ∧
    ∀ running idle, image.partition platform.mBootChain = some running →
      image.partition platform.mBootChain.other = some idle → image.writeBytes = idle.bytes

theorem Sized.addPartition {platform : Platform} {image : Private} (h : Sized platform image)
    (chain : BootChain) (partition : Partition) :
    Sized platform (addPartition platform chain partition image) := by
  rw [addPartition_eq]
  intro hinstalled
  have halike := settle_alike platform (place platform chain partition image)
  have hready : fwImageIsReadyToInstall platform (place platform chain partition image) = true := by
    by_contra hno
    rw [settle, if_neg hno] at hinstalled
    refine hno (ready_place (h ?_).1 chain partition)
    unfold place at hinstalled
    cases chain with
    | a => exact hinstalled
    | b =>
      dsimp only at hinstalled
      split at hinstalled
      · exact hinstalled
      · exact hinstalled
  have hsettled := halike.ready.trans hready
  obtain ⟨_, hA, hB⟩ := halike
  have hsame : ∀ chain', (settle platform (place platform chain partition image)).partition chain' =
      (place platform chain partition image).partition chain' := by
    intro chain'
    cases chain' with
    | a => exact hA
    | b => exact hB
  refine ⟨hsettled, fun running idle hrunning hidle => ?_⟩
  rw [hsame] at hrunning hidle
  exact settle_writeBytes hready hrunning hidle

theorem callbacks_sized (platform : Platform) (groups : List (Name × List Partition)) :
    ∀ image ∈ callbacks platform groups, Sized platform image := by
  rw [callbacks_eq]
  exact Keyed.forall_foldl (arrivals platform) fwImageMaxImages
    (fun partition image h => h.addPartition (bootChain partition) partition) _
    (fun _ _ hno => by cases hno) [] (by simp)

theorem Fmp.sound {fmp : Fmp} (groups : List (Name × List Partition))
    (henabled : fmp.platform.enableBPartitions = true)
    (himages : fmp.images.Perm ((callbacks fmp.platform groups).filter (·.installed))) :
    fmp.Sound := by
  refine ⟨henabled, ?_, ?_, ?_, ?_⟩
  · rw [(himages.map Private.name).nodup_iff]
    exact (callbacks_nodup groups).sublist (List.filter_sublist.map _)
  · intro image himage
    obtain ⟨hbuilt, hinstalled⟩ := List.mem_filter.mp (himages.mem_iff.mp himage)
    exact (callbacks_installed_iff groups image hbuilt).mp hinstalled
  · intro image himage
    exact callbacks_placed _ groups image (List.mem_filter.mp (himages.mem_iff.mp himage)).1
  · intro image himage
    obtain ⟨hbuilt, hinstalled⟩ := List.mem_filter.mp (himages.mem_iff.mp himage)
    exact (callbacks_sized _ groups image hbuilt hinstalled).2

end TegraFmp
