import Edk2Nvidia.VarInt.Update

/-! Sequences of `SetVariable` on a flash that answers every command: the journal
follows the store. -/
namespace VarInt
open Flash

/-- When the pre callback has nothing to write, a successful update leaves the measurement
of the store as it was. -/
def Tracks {Store : Type} (this : Protocol Store) (store : Store) (op : SetOp Store) : Prop :=
  op.status.isError = false →
    (isSkipped this store op.update = true ∨
      signedMeasurement this .v1 store (some op.update) = signedMeasurement this .v1 store none) →
    signedMeasurement this .v1 op.result none = signedMeasurement this .v1 store none

def after {Store : Type} (store : Store) (ops : List (SetOp Store)) : Store :=
  ops.foldl (fun store op => op.next store) store

/-- A condition on each update and the store it starts from. -/
def Along {Store : Type} (P : Store → SetOp Store → Prop) : Store → List (SetOp Store) → Prop
  | _, [] => True
  | store, op :: ops => P store op ∧ Along P (op.next store) ops

section
variable {Store : Type} {this : Protocol Store} {s : Driver} {m : Memory} {store : Store}
  {p : Nat}

@[simp] theorem after_nil (store : Store) : after store [] = store := rfl

@[simp] theorem after_cons (store : Store) (op : SetOp Store) (ops : List (SetOp Store)) :
    after store (op :: ops) = after (op.next store) ops := rfl

theorem Along.mono {P P' : Store → SetOp Store → Prop} (hP : ∀ store op, P store op → P' store op)
    {ops : List (SetOp Store)} (h : Along P store ops) : Along P' store ops := by
  induction ops generalizing store with
  | nil => trivial
  | cons op ops ih => exact ⟨hP _ _ h.1, ih h.2⟩

theorem along_append {P : Store → SetOp Store → Prop} {front back : List (SetOp Store)} :
    Along P store (front ++ back) ↔ Along P store front ∧ Along P (after store front) back := by
  induction front generalizing store with
  | nil => simp only [List.nil_append, after_nil, Along, true_and]
  | cons op front ih =>
    rw [List.cons_append, after_cons]
    simp only [Along, ih, and_assoc]

theorem Unchanged.same {op : SetOp Store} (h : Unchanged this op.update s m store p)
    (tracks : Tracks this store op) :
    signedMeasurement this .v1 (op.next store) none = signedMeasurement this .v1 store none := by
  rw [SetOp.next]
  cases hstatus : op.status.isError with
  | true => rfl
  | false =>
    rw [if_neg (by decide)]
    exact tracks hstatus h.why

/-- One `SetVariable`: the journal follows the store, and never holds a third live
record. -/
theorem wp_setVariable (ready : Ready this) (measures : Measures this)
    (hblocks : 2 ≤ this.slots.blockCount) (h : Idle this s m store p) {op : SetOp Store}
    (tracks : Tracks this store op) :
    wp true (setVariable this store op)
      (fun r s' m' => r = (.success, op.next store) ∧ ∃ p', Idle this s' m' (op.next store) p')
      (fun image => (liveOffsets this image).length ≤ maxValidRecords) s m := by
  unfold setVariable
  apply wp_bind
  refine wp_post (wp_varPreSetCallback ready measures hblocks h fun image hkeeps =>
    hkeeps.sound.few) ?_
  rintro status s' m' ⟨rfl, hcase⟩
  rw [EfiStatus.isError_success, if_neg (by decide)]
  apply wp_bind
  rcases hcase with hunchanged | ⟨q, hwritten⟩
  · have hfew : (liveOffsets this m').length ≤ maxValidRecords := by
      rw [hunchanged.idle.settled.live]
      exact Nat.le_succ 1
    refine wp_post (wp_finish_unchanged hunchanged (hunchanged.same tracks) hfew) ?_
    rintro status s'' m'' ⟨rfl, p', hidle⟩
    rw [wp_pure, hidle.settled.live]
    exact ⟨Nat.le_succ 1, rfl, p', hidle⟩
  · refine wp_mono (wp_finish_written ready measures hblocks hwritten) ?_ fun image himage =>
      himage.sound.few
    rintro status s'' m'' ⟨rfl, p', hidle⟩
    rw [wp_pure, hidle.settled.live]
    exact ⟨Nat.le_succ 1, rfl, p', hidle⟩

theorem wp_setVariables (ready : Ready this) (measures : Measures this)
    (hblocks : 2 ≤ this.slots.blockCount) {ops : List (SetOp Store)} (h : Idle this s m store p)
    (tracked : Along (Tracks this) store ops) :
    wp true (setVariables this store ops)
      (fun store' s' m' => store' = after store ops ∧ ∃ p', Idle this s' m' store' p')
      (fun image => (liveOffsets this image).length ≤ maxValidRecords) s m := by
  induction ops generalizing store s m p with
  | nil =>
    rw [setVariables, wp_pure, h.settled.live]
    exact ⟨Nat.le_succ 1, rfl, p, h⟩
  | cons op ops ih =>
    rw [setVariables]
    apply wp_bind
    refine wp_post (wp_setVariable ready measures hblocks h tracked.1) ?_
    rintro _ s' m' ⟨rfl, p', hidle⟩
    exact ih hidle tracked.2

/-- A store with another measurement is refused by the check at boot. -/
theorem boot_rejects (ready : Ready this) (measures : Measures this) (h : Settled this m store p)
    {older : Store}
    (hdiffers : signedMeasurement this .v1 older none ≠ signedMeasurement this .v1 store none)
    (s : Driver) :
    ∃ s' m', (boot this older s).run m = (some (.deviceError, s'), m') := by
  have hboot : wp true (boot this older) (fun status _ m' => status = .deviceError ∧ m' = m)
      (fun _ => True) s m := by
    unfold boot
    apply wp_bind
    apply wp_varIntInit ready trivial
    intro s' hsync
    rw [EfiStatus.isError_success, if_neg (by decide)]
    exact wp_varIntValidate_rejects ready measures hsync h.live h.header
      (h.payload_eq ▸ hdiffers.symm)
  obtain ⟨status, s', m', hrun, rfl, -⟩ := wp_total hboot
  exact ⟨s', m', hrun⟩

structure JournalInvariant (this : Protocol Store) (s : Driver) (m : Memory) (store : Store)
    (ops : List (SetOp Store)) : Prop where
  /-- The run ends with one live record, a valid one that is the measurement of the store, and
  another store does not pass the check at the next boot. -/
  settled : ∃ s' m' p', (setVariables this store ops s).run m =
      (some (after store ops, s'), m') ∧ Settled this m' (after store ops) p' ∧
    ∀ older, signedMeasurement this .v1 older none ≠
        signedMeasurement this .v1 (after store ops) none →
      ∀ s, ∃ s'' m'', (boot this older s).run m' = (some (.deviceError, s''), m'')
  few : ∀ image, (setVariables this store ops s).PowerLoss m image →
    (liveOffsets this image).length ≤ maxValidRecords

theorem journal_invariant (ready : Ready this) (measures : Measures this)
    (hblocks : 2 ≤ this.slots.blockCount) (start : Idle this s m store p)
    (ops : List (SetOp Store)) (tracked : Along (Tracks this) store ops) :
    JournalInvariant this s m store ops := by
  have hops := wp_setVariables ready measures hblocks start tracked
  obtain ⟨_, s', m', hrun, rfl, p', hidle⟩ := wp_total hops
  refine ⟨⟨s', m', p', hrun, hidle.settled, ?_⟩, fun image hcut => wp_powerLoss hops hcut⟩
  intro older hdiffers s
  exact boot_rejects ready measures hidle.settled hdiffers s

end

/-! A partition of 128-byte blocks with room for three records each; the store is one
variable of one byte. -/

def sampleProtocol (blockCount : Nat) : Protocol UInt8 where
  partitionByteOffset := 128
  partitionSize := blockCount * 128
  measurementSize := 33
  norFlashProtocol := ⟨4096, 128⟩
  isOpteePresent := true
  sign := fun meas => meas
  allocatePool := fun _ => true
  excludedVars := []
  smmGetVariable := fun store _ _ => some (0x07, [store])
  computeVarMeasurement := fun _ store update =>
    .ok (List.replicate 32 ((update.map fun u => u.data.headD 0).getD store))

def sampleOp (value : UInt8) (status : EfiStatus) : SetOp UInt8 :=
  ⟨⟨"Sample", 1, 0x07, [value]⟩, status, value⟩

/-- Slots with their header and the byte their payload is made of. -/
def sampleFlash (records : List (Nat × UInt8 × UInt8)) : Memory := fun a =>
  match records.find? fun record => decide (record.1 ≤ a ∧ a < record.1 + 33) with
  | some (w, header, value) => if a = w then header else value
  | none => fvbErasedByte

def sampleDriver (m : Memory) : Driver :=
  ⟨fun i => m (128 + i), .zeroMem 33, .zeroMem 33, .zeroMem 33, false, false, false, false, false,
    false⟩

/-- The result of one update of the value 1, and the flash behind it. -/
def sampleRun (blockCount : Nat) (m : Memory) (op : SetOp UInt8) : Option UInt8 × Memory :=
  let result := (setVariables (sampleProtocol blockCount) 1 [op] (sampleDriver m)).run m
  (result.1.map (·.1), result.2)

theorem ready_sample {blockCount : Nat} (hpos : blockCount ≠ 0) (hle : blockCount ≤ 31) :
    Ready (sampleProtocol blockCount) where
  offset_ne := by simp [sampleProtocol]
  size_ne := Nat.mul_ne_zero hpos (by decide)
  offset_mod := by simp [sampleProtocol, Protocol.blockSize]
  size_mod := by simp [sampleProtocol, Protocol.blockSize]
  inside := by
    simp only [sampleProtocol]
    omega
  density_lt := by simp [sampleProtocol]
  size_ge := by simp [sampleProtocol]
  pool := fun _ => rfl

theorem measures_sample (blockCount : Nat) : Measures (sampleProtocol blockCount) where
  computes := fun _ _ _ => ⟨_, rfl, List.length_replicate⟩
  sign_length := fun _ => rfl

theorem idle_sample :
    Idle (sampleProtocol 2) (sampleDriver (sampleFlash [(128, varIntV1Valid, 1)]))
      (sampleFlash [(128, varIntV1Valid, 1)]) 1 128 := by
  have hblank : ∀ w ∈ (sampleProtocol 2).slots.offsets,
      sampleFlash [(128, varIntV1Valid, 1)] w = fvbErasedByte →
        isErased (slice (sampleFlash [(128, varIntV1Valid, 1)]) w 33) = true := by
    decide +kernel
  refine ⟨fun i _ => rfl, rfl, ⟨?_, by decide +kernel⟩, by decide +kernel, rfl, by decide +kernel⟩
  intro w hw herased
  exact (isErased_slice _ _ _).mp (hblank w hw herased)

/-- An update to another value, then one that fails. -/
theorem journal_invariant_sample :
    JournalInvariant (sampleProtocol 2) (sampleDriver (sampleFlash [(128, varIntV1Valid, 1)]))
      (sampleFlash [(128, varIntV1Valid, 1)]) 1 [sampleOp 2 .success, sampleOp 3 .deviceError] :=
  journal_invariant (ready_sample (by decide) (by decide)) (measures_sample 2) (by decide)
    idle_sample _ ⟨fun _ h => absurd h (by decide +kernel), fun h => absurd h (by decide), trivial⟩

/-- Journals the invariant does not hold of: a single block without a free slot is erased for
the record of an update that fails, and so is a block with a free first slot behind which
the live record stands; a slot that only looks erased spoils the record written to it. -/
theorem journal_lost :
    (Settled (sampleProtocol 1) (sampleFlash
        [(128, varIntV1Valid, 1), (161, varIntV1Invalid, 0), (194, varIntV1Invalid, 0)]) 1 128 ∧
      (sampleRun 1 (sampleFlash
        [(128, varIntV1Valid, 1), (161, varIntV1Invalid, 0), (194, varIntV1Invalid, 0)])
        (sampleOp 2 .deviceError)).1 = some 1 ∧
      liveOffsets (sampleProtocol 1) (sampleRun 1 (sampleFlash
        [(128, varIntV1Valid, 1), (161, varIntV1Invalid, 0), (194, varIntV1Invalid, 0)])
        (sampleOp 2 .deviceError)).2 = []) ∧
    (Settled (sampleProtocol 2) (sampleFlash [(161, varIntV1Valid, 1)]) 1 161 ∧
      (sampleRun 2 (sampleFlash [(161, varIntV1Valid, 1)]) (sampleOp 2 .deviceError)).1 =
        some 1 ∧
      liveOffsets (sampleProtocol 2)
        (sampleRun 2 (sampleFlash [(161, varIntV1Valid, 1)]) (sampleOp 2 .deviceError)).2 = []) ∧
    (Settled (sampleProtocol 2)
        (sampleFlash [(128, varIntV1Valid, 1), (161, fvbErasedByte, 0)]) 1 128 ∧
      (sampleRun 2 (sampleFlash [(128, varIntV1Valid, 1), (161, fvbErasedByte, 0)])
        (sampleOp 2 .success)).1 = some 2 ∧
      liveOffsets (sampleProtocol 2)
        (sampleRun 2 (sampleFlash [(128, varIntV1Valid, 1), (161, fvbErasedByte, 0)])
          (sampleOp 2 .success)).2 = [161] ∧
      payloadAt (sampleProtocol 2)
        (sampleRun 2 (sampleFlash [(128, varIntV1Valid, 1), (161, fvbErasedByte, 0)])
          (sampleOp 2 .success)).2 161 ≠ signedMeasurement (sampleProtocol 2) .v1 2 none) :=
  ⟨⟨⟨by decide +kernel, rfl, by decide +kernel⟩, by decide +kernel, by decide +kernel⟩,
    ⟨⟨by decide +kernel, rfl, by decide +kernel⟩, by decide +kernel, by decide +kernel⟩,
    ⟨by decide +kernel, rfl, by decide +kernel⟩, by decide +kernel, by decide +kernel,
    by decide +kernel⟩

end VarInt
