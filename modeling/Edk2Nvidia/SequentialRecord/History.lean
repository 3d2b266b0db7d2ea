import Edk2Nvidia.SequentialRecord.Access

/-! Histories of writes to an erased partition: the flash represents the log of
the history, and the readers answer from its records. -/
namespace SequentialRecord
open Flash Crc8

/-- A call that answers `a` and leaves the flash alone. -/
def Answers (call : SeqM α) (a : α) (m : Memory) : Prop := (call ()).run m = (some (a, ()), m)

section
variable {this : Protocol} {socketNum : Nat} {nor : NorFlash} {m : Memory} {log : Log}
  {payloads : List (List UInt8)}

end

section
variable {this : Protocol} {socketNum : Nat} {nor : NorFlash} {m : Memory} {log : Log}
  {payloads : List (List UInt8)}

end

/-! A partition of two blocks. -/

def sampleNorFlash : NorFlash := ⟨67108864, 65536⟩

def sampleProtocol : Protocol where
  partitionInfo := ⟨65536, 131072⟩
  norFlashProtocol := fun _ => some sampleNorFlash
  norFlashAttributes := sampleNorFlash
  allocateZeroPool := fun size => decide (size ≤ 1048576)

def erasedFlash : Memory := fun _ => erasedByte

theorem ready_sample : Ready sampleProtocol 0 sampleNorFlash where
  socket := by decide
  present := rfl
  accepted := by simp [validatePartitionInfo, sampleProtocol, seqBlockSize, minPartitionBlocks]
  onDevice := by decide
  addressable := by simp [sampleNorFlash, seqBlockSize]
  attributes := rfl
  eraseBlock := by simp [sampleNorFlash, seqBlockSize]
  pool := by
    intro size h
    rw [seqBlockSize_eq] at h
    simp only [sampleProtocol, decide_eq_true_eq]
    omega

end SequentialRecord
