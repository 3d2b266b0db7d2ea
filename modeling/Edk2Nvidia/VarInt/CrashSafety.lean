import Edk2Nvidia.VarInt.History

/-! Power losses during a `SetVariable`: at every point of it the next boot finds the
measurement of the store as it then is. -/
namespace VarInt
open Flash

/-- The measurement computed before a successful update is the one of the store behind
it; an update that is not measured leaves it as it was. -/
structure Predicted {Store : Type} (this : Protocol Store) (store : Store) (op : SetOp Store) :
    Prop where
  measured : op.status.isError = false → isSkipped this store op.update = false →
    signedMeasurement this .v1 store (some op.update) = signedMeasurement this .v1 op.result none
  skipped : op.status.isError = false → isSkipped this store op.update = true →
    signedMeasurement this .v1 op.result none = signedMeasurement this .v1 store none

section
variable {Store : Type} {this : Protocol Store} {s : Driver} {m image : Memory}
  {store store' : Store} {p : Nat} {op : SetOp Store}

theorem Predicted.tracks (h : Predicted this store op) : Tracks this store op := by
  intro hstatus hwhy
  cases hskip : isSkipped this store op.update with
  | true => exact h.skipped hstatus hskip
  | false =>
    have hequal := hwhy.resolve_left (by rw [hskip]; decide)
    exact (h.measured hstatus hskip).symm.trans hequal

theorem Settled.sound (h : Settled this m store p) (shaped : Shaped this m) : Sound this m :=
  ⟨h.recoverable.few, shaped⟩

/-- A cut of the pre callback leaves the record of the store. -/
theorem Keeps.recoverable (ready : Ready this) (h : Keeps this m p image)
    (settled : Settled this m store p) : Recoverable this store image := by
  have hsize := ready.size_ge
  have hheader : image p = varIntV1Valid := by
    rw [h.same p (Nat.le_refl _) (by omega)]
    exact settled.header
  have hslot : p ∈ this.slots.offsets :=
    (mem_liveOffsets.mp (settled.live ▸ List.mem_singleton_self p)).1
  refine ⟨h.sound.few, p, mem_liveOffsets.mpr ⟨hslot, ?_⟩, ?_, ?_⟩
  · rw [hheader]
    decide
  · rw [hheader]
    decide
  · rw [payloadAt_congr ready h.same]
    exact settled.payload_eq

/-- Every interruption of a `SetVariable` leaves a journal in which the boot finds the record
of the store. -/
theorem interrupted_recoverable (ready : Ready this) (measures : Measures this)
    (hblocks : 2 ≤ this.slots.blockCount) (h : Idle this s m store p)
    (predicted : Predicted this store op) (cut : Interrupted this s m store op image store') :
    Sound this image ∧ Recoverable this store' image := by
  have hpre := wp_varPreSetCallback ready measures hblocks (u := op.update) h fun _ hkeeps => hkeeps
  cases cut with
  | pre cut =>
    have hkeeps := wp_powerLoss hpre cut
    exact ⟨hkeeps.sound, hkeeps.recoverable ready h.settled⟩
  | post done cut =>
    obtain ⟨-, hunchanged | ⟨q, hwritten⟩⟩ := wp_run hpre done
    · have hsame := hunchanged.same predicted.tracks
      have himage := wp_powerLoss
        (wp_finish_unchanged (C := fun image => image = _) hunchanged hsame rfl) cut
      have hold := hunchanged.idle.settled
      have hsettled : Settled this _ (op.next store) p :=
        ⟨hold.live, hold.header, hold.payload_eq.trans hsame.symm⟩
      rw [himage]
      exact ⟨hsettled.sound hunchanged.idle.shaped, hsettled.recoverable⟩
    · have himage := wp_powerLoss (wp_finish_written ready measures hblocks hwritten) cut
      exact ⟨himage.sound,
        himage.recoverable fun hstatus => predicted.measured hstatus hwritten.measured⟩

theorem interrupted_end
    (hpre : ((varPreSetCallback this store op.update s).run m).1.map (·.1) = some .success) :
    Interrupted this s m store op ((setVariable this store op s).run m).2 (op.next store) := by
  obtain ⟨⟨status, s'⟩, hsome, rfl⟩ := Option.map_eq_some_iff.mp hpre
  have hdone : (varPreSetCallback this store op.update s).run m =
      (some (.success, s'), ((varPreSetCallback this store op.update s).run m).2) :=
    Prod.ext hsome rfl
  have hrun : ((setVariable this store op s).run m).2 = ((finishSetVariable this store op s').run
      ((varPreSetCallback this store op.update s).run m).2).2 := by
    unfold setVariable
    rw [run_bind hdone, EfiStatus.isError_success, if_neg (by decide)]
    exact run_bind_pure _ _
  rw [hrun]
  exact .post hdone (Prog.powerLoss_end _ _)

/-- Power is lost during the last update of a sequence: the next boot accepts the store as it
then is, and the journal is as between two updates. -/
def CrashSafe (this : Protocol Store) (s : Driver) (m : Memory) (store : Store)
    (ops : List (SetOp Store)) (op : SetOp Store) : Prop :=
  ∃ s' m', (setVariables this store ops s).run m = (some (after store ops, s'), m') ∧
    ∀ image store', Interrupted this s' m' (after store ops) op image store' →
      ∀ s, ∃ s'' m'' p, (boot this store' s).run image = (some (.success, s''), m'') ∧
        Idle this s'' m'' store' p

theorem measurement_crash_safe (ready : Ready this) (measures : Measures this)
    (hblocks : 2 ≤ this.slots.blockCount) (start : Idle this s m store p)
    (ops : List (SetOp Store)) (op : SetOp Store)
    (predicted : Along (Predicted this) store (ops ++ [op])) :
    CrashSafe this s m store ops op := by
  obtain ⟨hfront, hlast, -⟩ := along_append.mp predicted
  have hops := wp_setVariables ready measures hblocks start
    (hfront.mono fun _ _ h => h.tracks)
  obtain ⟨_, s', m', hrun, rfl, p', hidle⟩ := wp_total hops
  refine ⟨s', m', hrun, fun image store' cut s => ?_⟩
  obtain ⟨hsound, hrecoverable⟩ := interrupted_recoverable ready measures hblocks hidle hlast cut
  obtain ⟨_, s'', m'', hboot, rfl, hdeferred, hsync, hshaped, p'', hsettled⟩ :=
    wp_total (wp_boot (s := s) ready measures hrecoverable)
  exact ⟨s'', m'', p'', hboot, hsync, hdeferred, hshaped hsound.shaped, hsettled⟩

end

theorem measurement_crash_safe_sample :
    CrashSafe (sampleProtocol 2) (sampleDriver (sampleFlash [(128, varIntV1Valid, 1)]))
      (sampleFlash [(128, varIntV1Valid, 1)]) 1 [sampleOp 2 .success] (sampleOp 3 .success) :=
  measurement_crash_safe (ready_sample (by decide) (by decide)) (measures_sample 2) (by decide) idle_sample
    [sampleOp 2 .success] (sampleOp 3 .success)
    ⟨⟨fun _ _ => rfl, fun _ h => absurd h (by decide +kernel)⟩,
      ⟨fun _ _ => rfl, fun _ h => absurd h (by decide +kernel)⟩, trivial⟩

/-- Journals a power loss makes unreadable: the block of the live record is erased for the next
one, since its first slot is free, and the old store has no record left; a slot that only
looks erased spoils the record of the new store. -/
theorem boot_fails :
    (Settled (sampleProtocol 2) (sampleFlash [(161, varIntV1Valid, 1)]) 1 161 ∧
      Along (Predicted (sampleProtocol 2)) 1 [sampleOp 2 .success] ∧
      ∃ image, Interrupted (sampleProtocol 2)
          (sampleDriver (sampleFlash [(161, varIntV1Valid, 1)]))
          (sampleFlash [(161, varIntV1Valid, 1)]) 1 (sampleOp 2 .success) image 1 ∧
        ((boot (sampleProtocol 2) 1 (sampleDriver image)).run image).1.map (·.1) =
          some .deviceError) ∧
    (Settled (sampleProtocol 2)
        (sampleFlash [(128, varIntV1Valid, 1), (161, fvbErasedByte, 0)]) 1 128 ∧
      Along (Predicted (sampleProtocol 2)) 1 [sampleOp 2 .success] ∧
      ∃ image, Interrupted (sampleProtocol 2)
          (sampleDriver (sampleFlash [(128, varIntV1Valid, 1), (161, fvbErasedByte, 0)]))
          (sampleFlash [(128, varIntV1Valid, 1), (161, fvbErasedByte, 0)]) 1
          (sampleOp 2 .success) image 2 ∧
        ((boot (sampleProtocol 2) 2 (sampleDriver image)).run image).1.map (·.1) =
          some .deviceError) := by
  have hpredicted : Along (Predicted (sampleProtocol 2)) 1 [sampleOp 2 .success] :=
    ⟨⟨fun _ _ => rfl, fun _ h => absurd h (by decide +kernel)⟩, trivial⟩
  refine ⟨⟨⟨by decide +kernel, rfl, by decide +kernel⟩, hpredicted, _,
    .pre (Prog.powerLoss_end _ _), by decide +kernel⟩,
    ⟨by decide +kernel, rfl, by decide +kernel⟩, hpredicted, _,
    interrupted_end (by decide +kernel), by decide +kernel⟩

end VarInt
