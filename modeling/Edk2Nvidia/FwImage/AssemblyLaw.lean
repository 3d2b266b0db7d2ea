import Edk2Nvidia.FwImage.Assembly
import Edk2Nvidia.FwImage.ReadBeforeWrite

/-! The order in which partitions come up does not matter to the images, when no two partitions are
for the same place of one image. -/
namespace FwImageDxe
open FwPartition (Name nameOf u64 fwPartitionCheckOffsetAndBytes)

/-- The base name and the boot chain that a partition is taken for. -/
def baseName (partition : Partition) : Name :=
  (getPartitionBaseNameAndBootChainAny partition.partitionName []).1

def bootChain (partition : Partition) : BootChain :=
  (getPartitionBaseNameAndBootChainAny partition.partitionName []).2

def builds (partition : Partition) : Bool := partition.partitionName ≠ bctPartition

/-- The boot chain has a place in the images. -/
def Used (platform : Platform) (chain : BootChain) : Prop :=
  chain = .a ∨ platform.enableBPartitions = true

/-- No two partitions are for the same place. -/
def Distinct (platform : Platform) (partitions : List Partition) : Prop :=
  ∀ p ∈ partitions, ∀ q ∈ partitions, builds p = true → builds q = true →
    Used platform (bootChain p) → baseName p = baseName q → bootChain p = bootChain q → p = q

def BootChain.other : BootChain → BootChain
  | .a => .b
  | .b => .a

def Private.partition (image : Private) : BootChain → Option Partition
  | .a => image.fwPartitionA
  | .b => image.fwPartitionB

/-- The partition is the one that an image of this name has for the chain. -/
structure Belongs (platform : Platform) (partitions : List Partition) (name : Name)
    (chain : BootChain) (partition : Partition) : Prop where
  came : partition ∈ partitions
  built : builds partition = true
  used : Used platform chain
  baseName_eq : baseName partition = name
  bootChain_eq : bootChain partition = chain

/-- All partitions that an image of this name needs have come up. -/
def Complete (platform : Platform) (partitions : List Partition) (name : Name) : Prop :=
  (∃ partition, Belongs platform partitions name .a partition) ∧
    (platform.enableBPartitions = true → fwImageHasNoBackup (newPrivate name) = false →
      ∃ partition, Belongs platform partitions name .b partition)

/-- What a table of images has to be, by the partitions that came up: every image once, under a name
that fits, installed exactly when it is complete and with the partition of each chain in its place;
without flags, an image with both partitions is written where the running chain is not and read where
it is, inside the partition. -/
structure Sound (platform : Platform) (partitions : List Partition) (installed : List Private) :
    Prop where
  once : (installed.map Private.name).Nodup
  complete : ∀ name, (∃ image ∈ installed, image.name = name) ↔ Complete platform partitions name
  placed : ∀ image ∈ installed, ∀ chain partition, image.partition chain = some partition ↔
    Belongs platform partitions image.name chain partition
  ready : ∀ image ∈ installed, fwImageIsReadyToInstall platform image = true
  fits : ∀ image ∈ installed, image.name.length < nameLength
  write : ∀ image ∈ installed, ∀ running idle,
    image.partition platform.mBootChain = some running →
    image.partition platform.mBootChain.other = some idle → idle.bytes < 2 ^ 63 →
    ∀ offset bytes flags, flags &&& (forcePartitionA ||| forcePartitionB) = 0 →
      fwImageWrite platform image offset bytes flags =
        if offset + bytes ≤ idle.bytes then .ok (idle, offset, bytes)
        else .error .invalidParameter
  read : ∀ image ∈ installed, ∀ running idle,
    image.partition platform.mBootChain = some running →
    image.partition platform.mBootChain.other = some idle → running.bytes < 2 ^ 63 →
    ∀ offset bytes, fwImageRead platform image offset bytes 0 =
      if offset + bytes ≤ running.bytes then .ok (running, offset, bytes)
      else .error .invalidParameter

section Names

theorem strCpyS_fits {destMax : Nat} {source : Name} (h : source.length < destMax)
    (destination : Name) : strCpyS destMax destination source = source := if_pos h

/-- The buffer of base names never shows: every part of a name fits. -/
theorem getPartitionBaseName_eq (partition : Partition) (buffer : Name) :
    getPartitionBaseNameAndBootChainAny partition.partitionName buffer =
      (baseName partition, bootChain partition) := by
  have h := partition.name_lt
  have hdrop : (partition.partitionName.drop partitionPrefixLength).length < nameLength := by
    rw [List.length_drop]
    omega
  have htake : (partition.partitionName.take
      (partition.partitionName.length - partitionSuffixLength)).length < nameLength := by
    rw [List.length_take]
    omega
  unfold baseName bootChain getPartitionBaseNameAndBootChainAny
  simp only [strCpyS_fits h, strCpyS_fits hdrop, strCpyS_fits htake]

theorem length_baseName (partition : Partition) : (baseName partition).length < nameLength := by
  have h := partition.name_lt
  unfold baseName getPartitionBaseNameAndBootChainAny strCpyS
  repeat' split
  all_goals first
    | assumption
    | exact Nat.succ_pos _

end Names

section Images
variable {platform : Platform}

/-- The images agree in what decides about them. -/
def Alike (image other : Private) : Prop :=
  image.name = other.name ∧ image.fwPartitionA = other.fwPartitionA ∧
    image.fwPartitionB = other.fwPartitionB

theorem Alike.ready {image other : Private} (h : Alike image other) :
    fwImageIsReadyToInstall platform image = fwImageIsReadyToInstall platform other := by
  unfold fwImageIsReadyToInstall fwImageHasNoBackup
  rw [h.1, h.2.1, h.2.2]

/-- The end of a pass for an image. -/
def settle (platform : Platform) (image : Private) : Private :=
  if fwImageIsReadyToInstall platform image then
    { fwImageGetPartitionAttributes platform image with installed := true }
  else image

theorem addPartition_eq (chain : BootChain) (partition : Partition) (image : Private) :
    addPartition platform chain partition image =
      settle platform (place platform chain partition image) := rfl

theorem Alike.partition {image other : Private} (h : Alike image other) (chain : BootChain) :
    image.partition chain = other.partition chain := by
  cases chain with
  | a => exact h.2.1
  | b => exact h.2.2

/-- The attributes of an image that is ready are all taken anew. -/
theorem Alike.settle {image other : Private} (h : Alike image other)
    (hready : fwImageIsReadyToInstall platform image = true) :
    settle platform image = settle platform other := by
  have hready' := hready
  rw [h.ready] at hready'
  have hpartition : image.fwPartitionA.isSome = true := by
    unfold fwImageIsReadyToInstall at hready
    exact (Bool.and_eq_true_iff.mp hready).1
  rw [FwImageDxe.settle, if_pos hready, FwImageDxe.settle, if_pos hready']
  obtain ⟨name, r, w, b, e, a, b', i⟩ := image
  obtain ⟨name', r', w', b'', e', a', b''', i'⟩ := other
  obtain ⟨rfl, rfl, rfl⟩ := h
  obtain ⟨partition, rfl⟩ := Option.isSome_iff_exists.mp hpartition
  unfold fwImageGetPartitionAttributes activeImagePartition inactiveImagePartition
  cases platform.mBootChain <;> cases b' <;> rfl

theorem settle_alike (platform : Platform) (image : Private) :
    Alike (settle platform image) image := by
  unfold settle fwImageGetPartitionAttributes
  split
  · split <;> exact ⟨rfl, rfl, rfl⟩
  · exact ⟨rfl, rfl, rfl⟩

theorem Alike.place (platform : Platform) {image other : Private} (h : Alike image other)
    (chain : BootChain) (partition : Partition) :
    Alike (place platform chain partition image) (place platform chain partition other) := by
  cases chain with
  | a => exact ⟨h.1, rfl, h.2.2⟩
  | b =>
    unfold FwImageDxe.place
    simp only
    split
    · exact ⟨h.1, h.2.1, rfl⟩
    · exact h

theorem partition_place (chain chain' : BootChain) (partition : Partition) (image : Private) :
    (place platform chain partition image).partition chain' =
      if chain' = chain ∧ (chain = .a ∨ platform.enableBPartitions = true) then some partition
      else image.partition chain' := by
  unfold place
  cases chain with
  | a => cases chain' <;> simp [Private.partition]
  | b =>
    by_cases henabled : platform.enableBPartitions = true
    · cases chain' <;> simp [Private.partition, henabled]
    · cases chain' <;> simp [Private.partition, henabled]

theorem partition_addPartition (chain chain' : BootChain) (partition : Partition)
    (image : Private) :
    (addPartition platform chain partition image).partition chain' =
      if chain' = chain ∧ (chain = .a ∨ platform.enableBPartitions = true) then some partition
      else image.partition chain' := by
  rw [addPartition_eq, (settle_alike _ _).partition, partition_place]

theorem installed_addPartition (chain : BootChain) (partition : Partition) (image : Private)
    (hready : fwImageIsReadyToInstall platform (addPartition platform chain partition image) = true) :
    (addPartition platform chain partition image).installed = true := by
  rw [addPartition_eq] at hready ⊢
  rw [(settle_alike _ _).ready] at hready
  rw [settle, if_pos hready]

theorem ready_place {image : Private} (h : fwImageIsReadyToInstall platform image = true)
    (chain : BootChain) (partition : Partition) :
    fwImageIsReadyToInstall platform (place platform chain partition image) = true := by
  unfold fwImageIsReadyToInstall fwImageHasNoBackup place at *
  cases chain with
  | a => grind
  | b => grind

theorem settle_place_settle (chain : BootChain) (partition : Partition) (image : Private) :
    settle platform (place platform chain partition (settle platform image)) =
      settle platform (place platform chain partition image) := by
  by_cases h : fwImageIsReadyToInstall platform image = true
  · have halike := (settle_alike platform image).place platform chain partition
    refine halike.settle ?_
    rw [halike.ready]
    exact ready_place h chain partition
  · have hsame : settle platform image = image := if_neg h
    rw [hsame]

theorem place_comm {chain chain' : BootChain} (h : chain ≠ chain') (p q : Partition)
    (image : Private) :
    place platform chain' q (place platform chain p image) =
      place platform chain p (place platform chain' q image) := by
  unfold place
  cases chain <;> cases chain' <;> first
    | exact absurd rfl h
    | (simp only; split <;> rfl)

theorem addPartition_comm {chain chain' : BootChain} {p q : Partition}
    (h : ∀ image, place platform chain' q (place platform chain p image) =
      place platform chain p (place platform chain' q image)) (image : Private) :
    addPartition platform chain' q (addPartition platform chain p image) =
      addPartition platform chain p (addPartition platform chain' q image) := by
  simp only [addPartition_eq, settle_place_settle, h]

theorem name_addPartition (chain : BootChain) (partition : Partition) (image : Private) :
    (addPartition platform chain partition image).name = image.name := by
  rw [addPartition_eq, (settle_alike _ _).1]
  unfold place
  cases chain with
  | a => rfl
  | b =>
    simp only
    split <;> rfl

theorem complete_addPartition (chain : BootChain) (partition : Partition) {image : Private}
    (h : image.installed = true → fwImageIsReadyToInstall platform image = true)
    (hinstalled : (addPartition platform chain partition image).installed = true) :
    fwImageIsReadyToInstall platform (addPartition platform chain partition image) = true := by
  rw [addPartition_eq] at hinstalled ⊢
  rw [(settle_alike _ _).ready]
  by_contra hready
  rw [settle, if_neg hready] at hinstalled
  refine hready (ready_place (h ?_) chain partition)
  unfold place at hinstalled
  cases chain with
  | a => exact hinstalled
  | b =>
    simp only at hinstalled
    split at hinstalled
    · exact hinstalled
    · exact hinstalled

end Images

section Callback
variable (platform : Platform)

/-- A partition as an event of the table of images. -/
def arrivals : Keyed.Events images Partition where
  keyOf := baseName
  act partition := addPartition platform (bootChain partition) partition
  key_act partition := name_addPartition (bootChain partition) partition

theorem callbackPass_eq (mPrivate : List Private) (buffer : Name) (partition : Partition) :
    (callbackPass platform (mPrivate, buffer) partition).1 =
      if builds partition = true then
        (arrivals platform).arrive fwImageMaxImages mPrivate partition
      else mPrivate := by
  unfold callbackPass builds
  by_cases hbct : partition.partitionName = bctPartition
  · simp [hbct]
  · simp only [if_neg hbct, getPartitionBaseName_eq]
    simp only [ne_eq, hbct, not_false_eq_true, decide_true, if_true]
    rfl

theorem fwImageProtocolCallback_eq (mPrivate : List Private) (buffer : Name)
    (partitions : List Partition) :
    fwImageProtocolCallback platform mPrivate buffer partitions =
      (partitions.filter builds).foldl ((arrivals platform).arrive fwImageMaxImages) mPrivate := by
  unfold fwImageProtocolCallback
  induction partitions generalizing mPrivate buffer with
  | nil => rfl
  | cons partition partitions ih =>
    have hpass := callbackPass_eq platform mPrivate buffer partition
    rw [List.foldl_cons, ← Prod.mk.eta (p := callbackPass platform (mPrivate, buffer) partition),
      ih, hpass]
    by_cases hbuilds : builds partition = true
    · rw [if_pos hbuilds, List.filter_cons_of_pos hbuilds, List.foldl_cons]
    · rw [if_neg hbuilds, List.filter_cons_of_neg hbuilds]

theorem callbacks_eq (groups : List (Name × List Partition)) :
    callbacks platform groups = ((groups.flatMap Prod.snd).filter builds).foldl
      ((arrivals platform).arrive fwImageMaxImages) [] := by
  unfold callbacks
  generalize ([] : List Private) = mPrivate
  induction groups generalizing mPrivate with
  | nil => rfl
  | cons group groups ih =>
    rw [List.foldl_cons, ih, fwImageProtocolCallback_eq, List.flatMap_cons, List.filter_append,
      List.foldl_append]

variable {platform}

theorem arrivals_comm {partitions : List Partition} (h : Distinct platform partitions)
    {p q : Partition} (hp : p ∈ partitions.filter builds) (hq : q ∈ partitions.filter builds)
    (hsame : baseName p = baseName q) (image : Private) :
    (arrivals platform).act q ((arrivals platform).act p image) =
      (arrivals platform).act p ((arrivals platform).act q image) := by
  obtain ⟨hp, hbp⟩ := List.mem_filter.mp hp
  obtain ⟨hq, hbq⟩ := List.mem_filter.mp hq
  refine addPartition_comm (fun image => ?_) image
  by_cases hchain : bootChain p = bootChain q
  · by_cases hused : Used platform (bootChain p)
    · rw [h p hp q hq hbp hbq hused hsame hchain]
    · -- a partition of the chain B is not placed at all
      obtain ⟨hnot, hdisabled⟩ := not_or.mp hused
      have hb : bootChain p = .b := by
        cases hcase : bootChain p with
        | a => exact absurd hcase hnot
        | b => rfl
      rw [← hchain, hb]
      unfold place
      simp only [if_neg hdisabled]
  · exact place_comm hchain p q image

/-- Below half of the address space the sum of offset and bytes does not wrap around. -/
theorem checkOffsetAndBytes_eq {size : Nat} (h : size < 2 ^ 63) (offset bytes : Nat) :
    fwPartitionCheckOffsetAndBytes size offset bytes =
      if offset + bytes ≤ size then .success else .invalidParameter := by
  unfold fwPartitionCheckOffsetAndBytes u64
  by_cases hin : offset + bytes ≤ size
  · rw [if_pos hin, if_neg (by omega)]
  · rw [if_neg hin, if_pos (by omega)]

theorem access_eq {partition : Partition} (h : partition.bytes < 2 ^ 63) (offset bytes : Nat) :
    access (some partition) offset bytes =
      if offset + bytes ≤ partition.bytes then .ok (partition, offset, bytes)
      else .error .invalidParameter := by
  simp only [access, checkOffsetAndBytes_eq h]
  by_cases hin : offset + bytes ≤ partition.bytes
  · rw [if_pos hin, if_pos hin]
    rfl
  · rw [if_neg hin, if_neg hin]
    rfl

theorem selectPartition_eq {image : Private} {running idle : Partition}
    (hrunning : image.partition platform.mBootChain = some running)
    (hidle : image.partition platform.mBootChain.other = some idle) {flags : Nat}
    (hflags : flags &&& (forcePartitionA ||| forcePartitionB) = 0) (otherwise : Option Partition) :
    selectPartition image flags otherwise = otherwise := by
  have hboth : image.fwPartitionA.isSome = true ∧ image.fwPartitionB.isSome = true := by
    cases hchain : platform.mBootChain <;> rw [hchain] at hrunning hidle <;>
      simp_all [Private.partition, BootChain.other]
  rw [selectPartition, if_neg (by simp [hflags]), if_pos hboth]

theorem activeImagePartition_eq (image : Private) :
    activeImagePartition platform image = image.partition platform.mBootChain := by
  unfold activeImagePartition
  cases platform.mBootChain <;> rfl

theorem inactiveImagePartition_eq (image : Private) :
    inactiveImagePartition platform image = image.partition platform.mBootChain.other := by
  unfold inactiveImagePartition
  cases platform.mBootChain <;> rfl

/-! An image as its update sees it: the accesses go to the same partition. -/

def partPartition (image : Private) : FwImage.Part → Option Partition
  | .a => image.fwPartitionA
  | .b => image.fwPartitionB

/-- What the update of an image goes by is the image. -/
structure Presents (platform : Platform) (image : Private) (this : FwImage.Protocol) : Prop where
  present : ∀ part, this.present part = (partPartition image part).isSome
  active : this.bImageIsActive = decide (platform.mBootChain = .b)
  bytes : ∀ part partition, partPartition image part = some partition →
    this.bytes part = partition.bytes

theorem Presents.chosen {image : Private} {this : FwImage.Protocol}
    (h : Presents platform image this) (part : FwImage.Part) :
    (if this.present part then some part else none).bind (partPartition image) =
      partPartition image part := by
  rw [h.present]
  cases hpart : partPartition image part with
  | none => rfl
  | some partition => exact hpart

theorem Presents.writePartition {image : Private} {this : FwImage.Protocol}
    (h : Presents platform image this) (flags : Nat) :
    (FwImage.writePartition this flags).bind (partPartition image) =
      selectPartition image flags (inactiveImagePartition platform image) := by
  unfold FwImage.writePartition inactiveImagePartition
  dsimp only
  rw [h.chosen, selectPartition]
  simp only [apply_ite (partPartition image), h.present, h.active]
  cases platform.mBootChain <;> rfl

theorem Presents.readPartition {image : Private} {this : FwImage.Protocol}
    (h : Presents platform image this) (flags : Nat) :
    (FwImage.readPartition this flags).bind (partPartition image) =
      selectPartition image flags
        (if flags &&& readInactiveImage ≠ 0 then inactiveImagePartition platform image
          else activeImagePartition platform image) := by
  unfold FwImage.readPartition inactiveImagePartition activeImagePartition
  dsimp only
  rw [h.chosen, selectPartition]
  simp only [apply_ite (partPartition image), h.present, h.active]
  cases platform.mBootChain <;> rfl

/-- A write of the update that is carried out is one that the image passes on to that partition. -/
theorem Presents.fwImageWrite {image : Private} {this : FwImage.Protocol}
    (h : Presents platform image this) {offset flags : Nat} {data : List UInt8}
    {storage : FwImage.Part → Flash.Memory}
    (hwrite : (FwImage.fwImageWrite this offset data flags storage).1 = .success) :
    ∃ part partition, partPartition image part = some partition ∧
      fwImageWrite platform image offset data.length flags = .ok (partition, offset, data.length) ∧
        ∀ other ≠ part,
          (FwImage.fwImageWrite this offset data flags storage).2 other = storage other := by
  have hsame := h.writePartition flags
  unfold FwImage.fwImageWrite at hwrite ⊢
  cases hchosen : FwImage.writePartition this flags with
  | none =>
    rw [hchosen] at hwrite
    cases hwrite
  | some part =>
    rw [hchosen, Option.bind_some] at hsame
    rw [hchosen] at hwrite
    obtain ⟨partition, hpart⟩ : ∃ partition, partPartition image part = some partition := by
      have hpresent : this.present part = true := by
        unfold FwImage.writePartition at hchosen
        obtain ⟨hpresent, hpart⟩ := Option.ite_none_right_eq_some.mp hchosen
        exact Option.some.inj hpart ▸ hpresent
      exact Option.isSome_iff_exists.mp (h.present part ▸ hpresent)
    dsimp only at hwrite ⊢
    have hbytes := h.bytes part partition hpart
    unfold FwImage.fwImageCheckOffsetAndBytes at hwrite ⊢
    rw [hbytes] at hwrite ⊢
    by_cases herror :
        (fwPartitionCheckOffsetAndBytes partition.bytes offset data.length).isError = true
    · rw [if_pos herror] at hwrite
      rw [show fwPartitionCheckOffsetAndBytes partition.bytes offset data.length = .success from hwrite]
        at herror
      cases herror
    · refine ⟨part, partition, hpart, ?_, fun other hother => ?_⟩
      · rw [FwImageDxe.fwImageWrite, ← hsame, hpart, access, if_neg herror]
      · rw [if_neg herror]
        split
        · rfl
        · exact if_neg hother

theorem callbacks_nodup (groups : List (Name × List Partition)) :
    ((callbacks platform groups).map Private.name).Nodup := by
  rw [callbacks_eq]
  exact Keyed.nodup_foldl (arrivals platform) fwImageMaxImages _ [] List.nodup_nil

theorem callbacks_installed_iff (groups : List (Name × List Partition)) :
    ∀ image ∈ callbacks platform groups,
      image.installed = true ↔ fwImageIsReadyToInstall platform image = true := by
  rw [callbacks_eq]
  apply Keyed.forall_foldl (arrivals platform) fwImageMaxImages
    (P := fun image => image.installed = true ↔ fwImageIsReadyToInstall platform image = true)
  · intro partition image h
    exact ⟨complete_addPartition _ _ h.mp, installed_addPartition _ _ _⟩
  · intro partition _
    exact ⟨fun h => absurd h Bool.false_ne_true, fun h => absurd h Bool.false_ne_true⟩
  · simp

theorem Belongs.append {partitions : List Partition} {name : Name} {chain : BootChain}
    {p q : Partition} (h : ¬ (name = baseName q ∧ chain = bootChain q ∧ Used platform (bootChain q))) :
    Belongs platform (partitions ++ [q]) name chain p ↔ Belongs platform partitions name chain p := by
  constructor
  · rintro ⟨hcame, hbuilt, hused, rfl, rfl⟩
    rcases List.mem_append.mp hcame with hcame | hcame
    · exact ⟨hcame, hbuilt, hused, rfl, rfl⟩
    · obtain rfl := List.mem_singleton.mp hcame
      exact absurd ⟨rfl, rfl, hused⟩ h
  · rintro ⟨hcame, hbuilt, hused, hname, hchain⟩
    exact ⟨List.mem_append_left _ hcame, hbuilt, hused, hname, hchain⟩

/-- The places of an image hold the partitions that came up for them. -/
theorem arrivals_partition {partitions : List Partition} (hdistinct : Distinct platform partitions)
    (hbuilds : ∀ p ∈ partitions, builds p = true) (name : Name) (chain : BootChain) (p : Partition) :
    ((partitions.foldl (arrivals platform).apply (images.lookup []) name).getD
        (newPrivate name)).partition chain = some p ↔ Belongs platform partitions name chain p := by
  induction partitions using List.reverseRecOn with
  | nil =>
    constructor
    · intro h
      cases chain <;> cases h
    · intro h
      exact absurd h.came List.not_mem_nil
  | append_singleton partitions q ih =>
    have hmem : q ∈ partitions ++ [q] := List.mem_append_right _ (List.mem_singleton_self q)
    have ih := ih (fun p hp q hq => hdistinct p (List.mem_append_left _ hp) q
      (List.mem_append_left _ hq)) fun p hp => hbuilds p (List.mem_append_left _ hp)
    have hkey : (arrivals platform).keyOf q = baseName q := rfl
    rw [List.foldl_append, List.foldl_cons, List.foldl_nil, Keyed.Events.apply, hkey]
    by_cases hname : name = baseName q
    · subst hname
      rw [if_pos rfl, Option.getD_some]
      rw [show ∀ image, (arrivals platform).act q image = addPartition platform (bootChain q) q image
        from fun _ => rfl, partition_addPartition]
      split_ifs with hplace
      · obtain ⟨rfl, hused⟩ := hplace
        constructor
        · intro heq
          obtain rfl := Option.some.inj heq
          exact ⟨hmem, hbuilds q hmem, hused, rfl, rfl⟩
        · intro h
          exact congrArg some (hdistinct q hmem p h.came (hbuilds q hmem) h.built hused
            h.baseName_eq.symm h.bootChain_eq.symm)
      · rw [Belongs.append fun h => hplace h.2]
        exact ih
    · rw [if_neg hname, Belongs.append fun h => hname h.1]
      exact ih

theorem belongs_filter {partitions : List Partition} {name : Name} {chain : BootChain}
    {p : Partition} : Belongs platform (partitions.filter builds) name chain p ↔
      Belongs platform partitions name chain p := by
  constructor
  · rintro ⟨hcame, hbuilt, hused, hname, hchain⟩
    exact ⟨(List.mem_filter.mp hcame).1, hbuilt, hused, hname, hchain⟩
  · rintro ⟨hcame, hbuilt, hused, hname, hchain⟩
    exact ⟨List.mem_filter.mpr ⟨hcame, hbuilt⟩, hbuilt, hused, hname, hchain⟩

theorem callbacks_partition {groups : List (Name × List Partition)}
    (hdistinct : Distinct platform (groups.flatMap Prod.snd))
    (hmax : (((groups.flatMap Prod.snd).filter builds).map baseName).toFinset.card ≤
      fwImageMaxImages) (name : Name) (chain : BootChain) (p : Partition) :
    ((images.lookup (callbacks platform groups) name).getD (newPrivate name)).partition chain =
      some p ↔ Belongs platform (groups.flatMap Prod.snd) name chain p := by
  have hsub : Distinct platform ((groups.flatMap Prod.snd).filter builds) := fun p hp q hq =>
    hdistinct p (List.mem_filter.mp hp).1 q (List.mem_filter.mp hq).1
  have hnodup : (([] : List Private).map images.key).Nodup := List.nodup_nil
  rw [callbacks_eq, Keyed.lookup_foldl (arrivals platform) fwImageMaxImages hmax _
      (fun partition h => List.mem_toFinset.mpr (List.mem_map_of_mem h)) hnodup (by simp),
    arrivals_partition hsub fun p hp => (List.mem_filter.mp hp).2]
  exact belongs_filter

theorem callbacks_complete_iff {groups : List (Name × List Partition)}
    (hdistinct : Distinct platform (groups.flatMap Prod.snd))
    (hmax : (((groups.flatMap Prod.snd).filter builds).map baseName).toFinset.card ≤
      fwImageMaxImages) (name : Name) :
    (∃ image ∈ (callbacks platform groups).filter (·.installed), image.name = name) ↔
      Complete platform (groups.flatMap Prod.snd) name := by
  have hplaces := callbacks_partition hdistinct hmax name
  constructor
  · rintro ⟨image, himage, rfl⟩
    obtain ⟨himage, hinstalled⟩ := List.mem_filter.mp himage
    have hready := (callbacks_installed_iff groups image himage).mp hinstalled
    have hlookup : images.lookup (callbacks platform groups) image.name = some image :=
      Keyed.lookup_of_mem (callbacks_nodup groups) himage
    rw [hlookup, Option.getD_some] at hplaces
    unfold fwImageIsReadyToInstall at hready
    obtain ⟨hfirst, hsecond⟩ := Bool.and_eq_true_iff.mp hready
    refine ⟨?_, ?_⟩
    · obtain ⟨p, hp⟩ := Option.isSome_iff_exists.mp hfirst
      exact ⟨p, (hplaces .a p).mp hp⟩
    · intro henabled hbackup
      have hbackup' : fwImageHasNoBackup image = false := hbackup
      rw [henabled, hbackup'] at hsecond
      obtain ⟨p, hp⟩ := Option.isSome_iff_exists.mp (by simpa using hsecond)
      exact ⟨p, (hplaces .b p).mp hp⟩
  · rintro ⟨⟨p, hp⟩, hother⟩
    have hfirst := (hplaces .a p).mpr hp
    cases hlookup : images.lookup (callbacks platform groups) name with
    | none =>
      rw [hlookup] at hfirst
      cases hfirst
    | some image =>
      rw [hlookup, Option.getD_some] at hplaces hfirst
      obtain ⟨himage, hname⟩ := Keyed.mem_of_lookup hlookup
      have hname : image.name = name := hname
      refine ⟨image, List.mem_filter.mpr ⟨himage, ?_⟩, hname⟩
      have hfirst : image.fwPartitionA = some p := hfirst
      refine (callbacks_installed_iff groups image himage).mpr ?_
      unfold fwImageIsReadyToInstall
      rw [hfirst]
      by_cases hneeds : platform.enableBPartitions = true ∧ fwImageHasNoBackup image = false
      · obtain ⟨q, hq⟩ := hother hneeds.1 (by rw [← hneeds.2, ← hname]; rfl)
        have hsecond : image.fwPartitionB = some q := (hplaces .b q).mpr hq
        rw [hsecond, hneeds.1]
        rfl
      · cases henabled : platform.enableBPartitions with
        | false => simp
        | true =>
          cases hbackup : fwImageHasNoBackup image with
          | false => exact absurd ⟨henabled, hbackup⟩ hneeds
          | true => simp

theorem callbacks_sound {groups : List (Name × List Partition)}
    (hdistinct : Distinct platform (groups.flatMap Prod.snd))
    (hmax : (((groups.flatMap Prod.snd).filter builds).map baseName).toFinset.card ≤
      fwImageMaxImages) :
    Sound platform (groups.flatMap Prod.snd) ((callbacks platform groups).filter (·.installed)) := by
  refine ⟨?_, callbacks_complete_iff hdistinct hmax, ?_, ?_, ?_, ?_, ?_⟩
  · exact (callbacks_nodup groups).sublist (List.filter_sublist.map _)
  · intro image himage chain p
    have hlookup : images.lookup (callbacks platform groups) image.name = some image :=
      Keyed.lookup_of_mem (callbacks_nodup groups) (List.mem_filter.mp himage).1
    have hplaces := callbacks_partition hdistinct hmax image.name chain p
    rwa [hlookup, Option.getD_some] at hplaces
  · intro image himage
    obtain ⟨himage, hinstalled⟩ := List.mem_filter.mp himage
    exact (callbacks_installed_iff groups image himage).mp hinstalled
  · intro image himage
    have himage := (List.mem_filter.mp himage).1
    rw [callbacks_eq] at himage
    exact Keyed.forall_foldl (arrivals platform) fwImageMaxImages
      (P := fun image => image.name.length < nameLength)
      (fun partition image h => (name_addPartition _ _ image).symm ▸ h) _
      (fun partition _ => length_baseName partition) [] (by simp) image himage
  · intro image _ running idle hrunning hidle hbytes offset bytes flags hflags
    rw [fwImageWrite, selectPartition_eq hrunning hidle hflags, inactiveImagePartition_eq, hidle,
      access_eq hbytes]
  · intro image _ running idle hrunning hidle hbytes offset bytes
    rw [fwImageRead, selectPartition_eq hrunning hidle (Nat.zero_and _),
      if_neg (by simp [Nat.zero_and]), activeImagePartition_eq, hrunning, access_eq hbytes]

/-- The partitions that come up in two orders and groupings, no two of them for the same place and
of no more base names than there is room for, give the same installed images. -/
theorem assembly_order_free (platform : Platform) (groups groups' : List (Name × List Partition))
    (hperm : (groups.flatMap Prod.snd).Perm (groups'.flatMap Prod.snd))
    (hdistinct : Distinct platform (groups.flatMap Prod.snd))
    (hmax : (((groups.flatMap Prod.snd).filter builds).map baseName).toFinset.card ≤
      fwImageMaxImages) :
    ((callbacks platform groups).filter (·.installed)).Perm
        ((callbacks platform groups').filter (·.installed)) ∧
      Sound platform (groups.flatMap Prod.snd)
        ((callbacks platform groups).filter (·.installed)) := by
  refine ⟨List.Perm.filter _ ?_, callbacks_sound hdistinct hmax⟩
  rw [callbacks_eq, callbacks_eq]
  have hlookup := Keyed.lookup_foldl_perm (arrivals platform) fwImageMaxImages hmax
    (hperm.filter builds)
    (fun partition h => List.mem_toFinset.mpr (List.mem_map_of_mem h))
    (fun p hp q hq hsame image => arrivals_comm hdistinct hp hq hsame image)
  exact Keyed.perm_of_lookup (Keyed.nodup_foldl _ _ _ [] List.nodup_nil)
    (Keyed.nodup_foldl _ _ _ [] List.nodup_nil) hlookup

end Callback

def partitionOf (name : String) (bytes : Nat) (h : (nameOf name).length < nameLength) : Partition :=
  ⟨nameOf name, bytes, 512, 4096, h⟩

def fooA : Partition := partitionOf "A_foo" 1000 (by decide)
def fooB : Partition := partitionOf "B_foo" 1000 (by decide)
def foo : Partition := partitionOf "foo" 2000 (by decide)

/-- The chain A runs, and images have both partitions. -/
def chainA : Platform := ⟨true, .a⟩

/-- An image that stays without its second partition. -/
def barA : Partition := partitionOf "A_bar" 1000 (by decide)

theorem assembly_order_free_sample :
    ((callbacks chainA [([], [fooA, barA, fooB])]).filter (·.installed)).Perm
        ((callbacks chainA [([], [fooB, barA]), ([], [fooA])]).filter (·.installed)) ∧
      Sound chainA [fooA, barA, fooB]
        ((callbacks chainA [([], [fooA, barA, fooB])]).filter (·.installed)) :=
  assembly_order_free chainA [([], [fooA, barA, fooB])] [([], [fooB, barA]), ([], [fooA])]
    (by decide) (by unfold Distinct Used; decide) (by decide)

/-- Three partitions with distinct names, two of them for the same place of one image: which one the
image gets is decided by the order. And a partition of nearly the whole address space is accessed
outside of it. -/
theorem assembly_order_shows :
    ([fooA, fooB, foo].map Partition.partitionName).Nodup ∧
    ¬ ((callbacks chainA [([], [fooA, fooB, foo])]).filter (·.installed)).Perm
      ((callbacks chainA [([], [foo, fooA, fooB])]).filter (·.installed)) ∧
    ∃ image ∈ callbacks chainA [([], [partitionOf "A_foo" (2 ^ 64 - 1) (by decide), fooB])],
      image.installed = true ∧
        fwImageRead chainA image (2 ^ 64 - 1) 1 0 =
          .ok (partitionOf "A_foo" (2 ^ 64 - 1) (by decide), 2 ^ 64 - 1, 1) := by
  refine ⟨by decide, by decide, ?_⟩
  refine ⟨(callbacks chainA [([], [partitionOf "A_foo" (2 ^ 64 - 1) (by decide), fooB])]).headD
    (newPrivate []), ?_, ?_, ?_⟩
  · decide
  · decide
  · decide

end FwImageDxe
