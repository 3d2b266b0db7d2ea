import Edk2Nvidia.Fvb.Coherence

/-! Runs of calls to the firmware volume block driver. -/
namespace Fvb
open Flash

/-- Flash that can be read; a write or an erase may fail and leave a part of its effect. -/
def readableFlash : Setting EfiStatus where
  ends
    | .read _ _, ending => ending = .ok
    | _, _ => True
  stops := False
  cut _ := True

theorem readableFlash_reads : Readable readableFlash := by
  rintro offset size status effect ⟨⟩

/-- The states that calls lead to, whatever the flash refuses to write or to erase. -/
inductive Reaches (this : Private) (state : State) (m : Memory) : State → Memory → Prop
  | start : Reaches this state m state m
  | call {state' state'' : State} {m' m'' : Memory} {call : Call} {tape : Nat → Ending EfiStatus}
      {reply : Reply} (reached : Reaches this state m state' m')
      (permitted : this.Permitted (this.volume m') call)
      (meets : (this.serve call state').Meets readableFlash tape m')
      (run : (this.serve call state').runFaults tape m' = (some (reply, state''), m'')) :
      Reaches this state m state'' m''

section Runs
variable {this : Private} {state state' : State} {m m' : Memory}

theorem Reaches.kept (hsound : this.Sound) (hcoherent : this.Coherent state m)
    (h : Reaches this state m state' m') : Kept this state m state' m' := by
  induction h with
  | start => exact .refl hcoherent
  | @call state' state'' m' m'' call tape reply _ permitted meets run ih =>
    have hserve : wpIn readableFlash (this.serve call)
        (fun _ state'' m'' => Kept this state' m' state'' m'') state' m' :=
      serve_wp hsound readableFlash_reads (fun _ => trivial) ih.coherent permitted
        (fun _ _ hkept _ => hkept) fun _ _ _ _ hkept => hkept
    have hkept := wpIn_run hserve meets run
    exact ih.trans hkept

/-- Whatever fails, the copy is what stands on the flash, and nothing outside the partition has
changed. -/
theorem reaches_coherent (hsound : this.Sound) (hcoherent : this.Coherent state m)
    (h : Reaches this state m state' m') :
    this.Coherent state' m' ∧ this.Confined m m' ∧
      state'.partitionData.isSome = state.partitionData.isSome := by
  obtain ⟨hcoherent', hconfined, hcached⟩ := h.kept hsound hcoherent
  exact ⟨hcoherent', hconfined, hcached⟩

theorem Private.Coherent.read (hcoherent : this.Coherent state m) (hsound : this.Sound)
    (lba offset numBytes : Nat) :
    (this.serve (.read lba offset numBytes) state).run m =
      (some (this.answer (this.volume m) (.read lba offset numBytes), state), m) := by
  have hread : wpIn (.faultFree False) (this.serve (.read lba offset numBytes))
      (fun reply state' m' => reply = this.answer (this.volume m) (.read lba offset numBytes) ∧
        state' = state ∧ m' = m) state m := by
    unfold Private.serve
    apply wpIn_bind
    apply fvbRead_wp hsound (by rintro offset size status effect ⟨⟩) trivial hcoherent
    exact wpIn_pure.mpr ⟨trivial, rfl, rfl, rfl⟩
  obtain ⟨reply, state', m', hrun, rfl, rfl, rfl⟩ := wpIn_total_faultFree hread
  exact hrun

/-- In every state that is reached a read from the copy answers what a read from the flash does. -/
theorem reaches_read (hsound : this.Sound) (hcoherent : this.Coherent state m)
    (h : Reaches this state m state' m') (lba offset numBytes : Nat) :
    (this.serve (.read lba offset numBytes) state').run m' =
      (some (this.answer (this.volume m') (.read lba offset numBytes), state'), m') ∧
    (this.serve (.read lba offset numBytes) { state' with partitionData := none }).run m' =
      (some (this.answer (this.volume m') (.read lba offset numBytes),
        { state' with partitionData := none }), m') := by
  have hcoherent' := (h.kept hsound hcoherent).coherent
  have hplain : this.Coherent { state' with partitionData := none } m' := by
    rintro partitionData ⟨⟩
  exact ⟨hcoherent'.read hsound lba offset numBytes, hplain.read hsound lba offset numBytes⟩

/-! Where nothing fails. -/

def Private.serveAll (this : Private) : List Call → FvbM (List Reply)
  | [] => pure []
  | call :: calls => do
    let reply ← this.serve call
    let replies ← this.serveAll calls
    pure (reply :: replies)

/-- What the calls do to an array of bytes. -/
def Private.applyAll (this : Private) (volume : Memory) (calls : List Call) : Memory :=
  calls.foldl this.apply volume

def Private.answerAll (this : Private) : Memory → List Call → List Reply
  | _, [] => []
  | volume, call :: calls =>
    this.answer volume call :: this.answerAll (this.apply volume call) calls

def Private.PermittedAll (this : Private) : Memory → List Call → Prop
  | _, [] => True
  | volume, call :: calls =>
    this.Permitted volume call ∧ this.PermittedAll (this.apply volume call) calls

theorem serveAll_wp {S : Setting EfiStatus} (hsound : this.Sound) (hreliable : ¬ S.Faulty)
    (hcut : ∀ image, S.cut image) (hcoherent : this.Coherent state m) {calls : List Call}
    (hpermitted : this.PermittedAll (this.volume m) calls) :
    wpIn S (this.serveAll calls) (fun replies state' m' =>
      replies = this.answerAll (this.volume m) calls ∧
        this.volume m' = this.applyAll (this.volume m) calls ∧ Kept this state m state' m')
      state m := by
  have hreads : Readable S := fun _ _ status effect h => hreliable ⟨_, status, effect, h⟩
  induction calls generalizing state m with
  | nil =>
    rw [Private.serveAll]
    exact wpIn_pure.mpr ⟨hcut m, rfl, rfl, .refl hcoherent⟩
  | cons call calls ih =>
    rw [Private.serveAll]
    apply wpIn_bind
    apply serve_wp hsound hreads hcut hcoherent hpermitted.1
    · intro state' m' hkept hvolume
      apply wpIn_bind
      have hrest := hpermitted.2
      rw [← hvolume] at hrest
      apply wpIn_mono (ih hkept.coherent hrest)
      rintro replies state'' m'' ⟨hreplies, hvolume', hkept'⟩
      refine wpIn_pure.mpr ⟨hcut m'', ?_, ?_, hkept.trans hkept'⟩
      · rw [hreplies, hvolume]
        rfl
      · rw [hvolume', hvolume]
        rfl
    · intro hfaulty
      exact absurd hfaulty hreliable

/-- The driver is an array of bytes: a run of calls answers and leaves what the array does. -/
theorem serveAll_refines (hsound : this.Sound) (hcoherent : this.Coherent state m)
    {calls : List Call} (hpermitted : this.PermittedAll (this.volume m) calls) :
    ∃ state' m', (this.serveAll calls state).run m =
        (some (this.answerAll (this.volume m) calls, state'), m') ∧
      this.volume m' = this.applyAll (this.volume m) calls ∧
        this.Coherent state' m' ∧ this.Confined m m' := by
  have hserve := serveAll_wp (S := .faultFree False) hsound (Setting.not_faulty_faultFree False)
    (fun _ => trivial) hcoherent hpermitted
  obtain ⟨replies, state', m', hrun, rfl, hvolume, hkept⟩ := wpIn_total_faultFree hserve
  exact ⟨state', m', hrun, hvolume, hkept.coherent, hkept.confined⟩

end Runs

/-! A small partition. -/

def smallPartition : Private where
  flash := ⟨64, 8⟩
  partitionOffset := 16
  partitionSize := 32

theorem smallPartition_sound : smallPartition.Sound := by
  constructor <;> decide

/-- The copy of a partition that is erased. -/
def erasedState : State := ⟨some fun _ => erasedByte, none⟩

def erasedFlash : Memory := fun _ => erasedByte

theorem erasedState_coherent : smallPartition.Coherent erasedState erasedFlash := by
  intro partitionData hdata a _
  cases hdata
  rfl

/-- A write across the end of block 1. -/
def acrossBlock : Call := .write 1 6 [1, 2, 3]

theorem acrossBlock_permitted (volume : Memory) (h : ∀ a, 14 ≤ a → volume a = erasedByte) :
    smallPartition.Permitted volume acrossBlock := by
  intro numBytes crossed _ i hi
  have hplace : smallPartition.fvbOffset 1 6 = 14 := by decide
  rw [hplace, h _ (Nat.le_add_right _ _), erasedByte_and]

/-- A write of one byte to block 0. -/
def firstByte : Call := .write 0 0 [7]

def bothBlocks : Call := .erase [(0, 2)]

/-- The first command of a call fails, with so much of its effect. -/
def stopsAfter (effect : Nat) : Nat → Ending EfiStatus
  | 0 => .failed ⟨.deviceError, by decide⟩ effect
  | _ => .ok

/-- The flash after the write to block 0, a write to block 1 that is refused after one byte, and an
erase of both blocks that stops behind the first. -/
theorem torn_reaches : ∃ state' m', Reaches smallPartition erasedState erasedFlash state' m' ∧
    m' 16 = erasedByte ∧ m' 30 = 1 ∧ m' 31 = erasedByte := by
  obtain ⟨reply₁, state₁, m₁, hrun₁, himage₁⟩ : ∃ reply state' m',
      (smallPartition.serve firstByte erasedState).runFaults (fun _ => .ok) erasedFlash =
        (some (reply, state'), m') ∧ m' = program erasedFlash 16 [7] ∧
          ∃ copy, state' = ⟨some copy, none⟩ := ⟨_, _, _, rfl, rfl, _, rfl⟩
  obtain ⟨rfl, copy₁, rfl⟩ := himage₁
  obtain ⟨reply₂, state₂, m₂, hrun₂, himage₂⟩ : ∃ reply state' m',
      (smallPartition.serve acrossBlock ⟨some copy₁, none⟩).runFaults (stopsAfter 1)
        (program erasedFlash 16 [7]) = (some (reply, state'), m') ∧
          m' = program (program erasedFlash 16 [7]) 30 [1] ∧
            ∃ copy, state' = ⟨some copy, none⟩ := ⟨_, _, _, rfl, rfl, _, rfl⟩
  obtain ⟨rfl, copy₂, rfl⟩ := himage₂
  obtain ⟨reply₃, state₃, m₃, hrun₃, himage₃⟩ : ∃ reply state' m',
      (smallPartition.serve bothBlocks ⟨some copy₂, none⟩).runFaults (stopsAfter 8)
        (program (program erasedFlash 16 [7]) 30 [1]) = (some (reply, state'), m') ∧
          m' = erase (program (program erasedFlash 16 [7]) 30 [1]) 16 8 := ⟨_, _, _, rfl, rfl⟩
  have hfirst : smallPartition.Permitted (smallPartition.volume erasedFlash) firstByte :=
    fun _ _ _ _ _ => erasedByte_and _
  have hsecond : smallPartition.Permitted
      (smallPartition.volume (program erasedFlash 16 [7])) acrossBlock := by
    apply acrossBlock_permitted
    intro a ha
    have hoffset : smallPartition.partitionOffset = 16 := rfl
    exact program_outside _ _ _ _ (.inr (by rw [List.length_singleton]; omega))
  have hmeets₁ : (smallPartition.serve firstByte erasedState).Meets readableFlash (fun _ => .ok)
      erasedFlash := ⟨trivial, trivial⟩
  have hmeets₂ : (smallPartition.serve acrossBlock ⟨some copy₁, none⟩).Meets readableFlash
      (stopsAfter 1) (program erasedFlash 16 [7]) := ⟨trivial, rfl, trivial⟩
  have hmeets₃ : (smallPartition.serve bothBlocks ⟨some copy₂, none⟩).Meets readableFlash
      (stopsAfter 8) (program (program erasedFlash 16 [7]) 30 [1]) := ⟨trivial, rfl, trivial⟩
  have hwritten := (Reaches.start.call hfirst hmeets₁ hrun₁).call hsecond hmeets₂ hrun₂
  have hthird : smallPartition.Permitted
      (smallPartition.volume (program (program erasedFlash 16 [7]) 30 [1])) bothBlocks := trivial
  refine ⟨state₃, m₃, hwritten.call hthird hmeets₃ hrun₃, ?_⟩
  rw [himage₃]
  decide

/-- The copy holds what is left. -/
theorem reaches_coherent_torn : ∃ state' m', (m' 16 = erasedByte ∧ m' 30 = 1 ∧ m' 31 = erasedByte) ∧
    (smallPartition.Coherent state' m' ∧ smallPartition.Confined erasedFlash m' ∧
      state'.partitionData.isSome = erasedState.partitionData.isSome) := by
  obtain ⟨state', m', hreaches, hbytes⟩ := torn_reaches
  exact ⟨state', m', hbytes,
    reaches_coherent smallPartition_sound erasedState_coherent hreaches⟩

theorem reaches_read_torn : ∃ state' m', (m' 16 = erasedByte ∧ m' 30 = 1 ∧ m' 31 = erasedByte) ∧
    ((smallPartition.serve (.read 1 6 4) state').run m' =
      (some (smallPartition.answer (smallPartition.volume m') (.read 1 6 4), state'), m') ∧
    (smallPartition.serve (.read 1 6 4) { state' with partitionData := none }).run m' =
      (some (smallPartition.answer (smallPartition.volume m') (.read 1 6 4),
        { state' with partitionData := none }), m')) := by
  obtain ⟨state', m', hreaches, hbytes⟩ := torn_reaches
  exact ⟨state', m', hbytes,
    reaches_read smallPartition_sound erasedState_coherent hreaches 1 6 4⟩

/-- A write, a read of what is written and an erase. -/
theorem serveAll_refines_across : ∃ state' m',
    (smallPartition.serveAll [acrossBlock, .read 1 4 4, .erase [(1, 2)]] erasedState).run
      erasedFlash = (some (smallPartition.answerAll (smallPartition.volume erasedFlash)
        [acrossBlock, .read 1 4 4, .erase [(1, 2)]], state'), m') ∧
    smallPartition.volume m' = smallPartition.applyAll (smallPartition.volume erasedFlash)
      [acrossBlock, .read 1 4 4, .erase [(1, 2)]] ∧
    smallPartition.Coherent state' m' ∧ smallPartition.Confined erasedFlash m' :=
  serveAll_refines smallPartition_sound erasedState_coherent
    ⟨acrossBlock_permitted _ fun _ _ => rfl, trivial, trivial, trivial⟩

end Fvb
