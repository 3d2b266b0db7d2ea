import Edk2Nvidia.Fmp.FullUpdate

/-! On devices that do not fail a package that fits is installed. -/
namespace TegraFmp
open Flash (Memory slice Holds)
open FwPartition (Name nameOf)
open FwImage (alignValue)
open FwImageDxe
open Effect

/-- What is read back in whole blocks lies within the partition. -/
def ReadsFit (blockSize size offset length : Nat) : Prop :=
  ∀ k, k * fmpDataBufferSize < length →
    offset + k * fmpDataBufferSize +
      alignValue (min (length - k * fmpDataBufferSize) fmpDataBufferSize) blockSize ≤ size

theorem ReadsFit.first {blockSize size offset length : Nat}
    (h : ReadsFit blockSize size offset length) (hpos : 0 < length) :
    offset + alignValue (min length fmpDataBufferSize) blockSize ≤ size := by
  have hzero := h 0 (by omega)
  simpa using hzero

theorem ReadsFit.next {blockSize size offset length : Nat}
    (h : ReadsFit blockSize size offset length) :
    ReadsFit blockSize size (offset + min length fmpDataBufferSize)
      (length - min length fmpDataBufferSize) := by
  intro k hk
  have hbuffer : 0 < fmpDataBufferSize := by decide
  have hfull : min length fmpDataBufferSize = fmpDataBufferSize := by
    by_contra hne
    have hshort : min length fmpDataBufferSize = length := by omega
    rw [hshort, Nat.sub_self] at hk
    exact absurd hk (Nat.not_lt_zero _)
  rw [hfull] at hk ⊢
  have hstep := h (k + 1) (by rw [Nat.succ_mul]; omega)
  rw [Nat.succ_mul] at hstep
  have hlength : length - (k * fmpDataBufferSize + fmpDataBufferSize) =
      length - fmpDataBufferSize - k * fmpDataBufferSize := by omega
  rw [hlength] at hstep
  omega

section Systems
variable {s : System} {name : Name} {m m' : Memory}

end Systems

section Calls
variable {fmp : Fmp} {s : System} {image : Private} {partition : Partition} {flags offset : Nat}

end Calls

/-- The package fits: mb1 and every required image are in it, the GPT only together with the image
that tells of its update, and every image of it has room in its partition. -/
structure Fmp.Fits (fmp : Fmp) (header : Package) : Prop where
  starts : ∃ image data, fmp.fwImageFindProtocol mb1 = some image ∧
    fmp.getPackageImage header mb1 = .ok data
  required : ∀ image ∈ fmp.images, fmp.fwImagesRequired.contains image.name = true →
    ∃ data, fmp.getPackageImage header image.name = .ok data
  updates : ∀ data, fmp.getPackageImage header gpt = .ok data →
    ((fmp.fwImageFindProtocol gpt).isSome ↔
      (fmp.fwImageFindProtocol updateInactivePartitions).isSome)
  small : ∀ image ∈ fmp.images, ∀ partition, image.partition fmp.target = some partition →
    partition.bytes < 2 ^ 63
  room : ∀ image ∈ fmp.images, ∀ data partition,
    fmp.getPackageImage header image.name = .ok data →
    image.partition fmp.target = some partition → data.length ≤ partition.bytes ∧
      ReadsFit image.blockSize partition.bytes 0 data.length

/-- Only partitions of images with such names are changed. -/
def Only (P : Name → Prop) (s s' : System) : Prop :=
  ∀ partition, ¬ P (baseName partition) →
    s'.storage partition.partitionName = s.storage partition.partitionName

section Images
variable {fmp : Fmp} {header : Package} {s s' s'' : System} {image : Private}

theorem Only.refl (P : Name → Prop) (s : System) : Only P s s := fun _ _ => rfl

theorem Only.trans {P : Name → Prop} (h : Only P s s') (h' : Only P s' s'') : Only P s s'' :=
  fun partition hno => (h' partition hno).trans (h partition hno)

theorem Only.mono {P Q : Name → Prop} (h : Only P s s') (hPQ : ∀ name, P name → Q name) :
    Only Q s s' := fun partition hno => h partition fun hP => hno (hPQ _ hP)

theorem Only.replaced {P : Name → Prop} (partition : Partition) (h : P (baseName partition))
    (m : Memory) : Only P s (s.replaced partition.partitionName m) := by
  intro other hother
  refine if_neg fun hsame => hother ?_
  rw [baseName_congr hsame]
  exact h

end Images

end TegraFmp
