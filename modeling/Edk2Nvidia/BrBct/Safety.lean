import Edk2Nvidia.BrBct.Update

/-! An update of the slots, cut by a power loss anywhere: the slots that are done hold the new
BCT, the others are as they were, and only the slot being written is neither. -/
namespace BrBct
open FwPartition Effect

namespace Config
variable {config : Config} {newFwChain : Nat} {system start : System}

/-- A write of one slot stays away from all others. -/
def Separate (config : Config) (newFwChain : Nat) : Prop :=
  ∀ slot < config.bctPartitionSlots, config.slotShouldBeUpdated slot newFwChain = true →
    ∀ other < config.bctPartitionSlots, other ≠ slot →
      (config.writeSpan slot).Apart (config.slotSpan other)

instance (config : Config) (newFwChain : Nat) : Decidable (config.Separate newFwChain) :=
  inferInstanceAs (Decidable (∀ slot < _, _ → ∀ other < _, _ → _))

/-- The lowest slot that is not invalidated is one of those to be updated. -/
def Reached (config : Config) (newFwChain : Nat) : Prop :=
  ∃ slot < config.bctPartitionSlots, config.slotShouldBeUpdated slot newFwChain = true ∧
    config.slotShouldBeInvalidated slot newFwChain = false ∧
    ∀ lower < slot, config.slotShouldBeInvalidated lower newFwChain = true

/-- The slot that is written before all others. -/
def FirstWritten (config : Config) (newFwChain slot : Nat) : Prop :=
  slot < config.bctPartitionSlots ∧ config.slotShouldBeUpdated slot newFwChain = true ∧
    ∀ higher < config.bctPartitionSlots, slot < higher →
      config.slotShouldBeUpdated higher newFwChain = false

/-- All bytes of a slot are as they were. -/
def SlotKept (config : Config) (system image : System) (slot : Nat) : Prop :=
  ∀ a, (config.slotSpan slot).Contains a →
    image.storage config.brBctPartition.device.number a =
      system.storage config.brBctPartition.device.number a

theorem SlotKept.slotData {image : System} {slot : Nat} (h : config.SlotKept system image slot) :
    config.slotData image slot = config.slotData system slot := by
  apply Flash.slice_congr
  intro a hlo hhi
  have hmax := Nat.le_max_right config.slotSize config.brBctDataSize
  exact h a ⟨hlo, by dsimp only [slotSpan]; omega⟩

theorem slotKept_written {slot other : Nat} (image : Flash.Memory)
    (h : (config.writeSpan slot).Apart (config.slotSpan other)) :
    config.SlotKept system (config.written slot image system) other := by
  intro a ha
  simp only [written, System.patched, if_true]
  apply patch_outside
  unfold Span.Apart at h
  unfold Span.Contains at ha ⊢
  omega

theorem slotData_written (hseparate : config.Separate newFwChain) {slot other : Nat}
    (hslot : slot < config.bctPartitionSlots)
    (hupdated : config.slotShouldBeUpdated slot newFwChain = true)
    (hother : other < config.bctPartitionSlots) (hne : other ≠ slot) (image : Flash.Memory) :
    config.slotData (config.written slot image system) other = config.slotData system other :=
  (slotKept_written image (hseparate slot hslot hupdated other hother hne)).slotData

theorem slotShouldBeInvalidated_zero {slot : Nat}
    (h : config.slotShouldBeInvalidated slot newFwChain = true) : slot = 0 := by
  simp only [slotShouldBeInvalidated, Bool.and_eq_true, beq_iff_eq] at h
  exact h.2

theorem slotShouldBeInvalidated_pos {slot : Nat} (h : 0 < slot) :
    config.slotShouldBeInvalidated slot newFwChain = false := by
  apply Bool.eq_false_iff.mpr
  intro hinvalid
  have hzero := slotShouldBeInvalidated_zero hinvalid
  omega

/-- The loop is about to go on with the slots below `slots`. -/
structure Progress (config : Config) (newFwChain : Nat) (start : System) (slots : Nat)
    (system : System) : Prop where
  /-- The slots behind hold the new BCT, except an invalidated one. -/
  updated : ∀ slot, slots ≤ slot → slot < config.bctPartitionSlots →
    config.slotShouldBeUpdated slot newFwChain = true →
    config.slotShouldBeInvalidated slot newFwChain = false →
    config.slotData system slot = config.backupData start newFwChain
  /-- As long as there is none behind, nothing has been written. -/
  untouched : (∃ slot, slots ≤ slot ∧ slot < config.bctPartitionSlots ∧
      config.slotShouldBeUpdated slot newFwChain = true) ∨
    ∀ slot, config.slotData system slot = config.slotData start slot

theorem progress_start : config.Progress newFwChain start config.bctPartitionSlots start where
  updated slot hle hlt := by omega
  untouched := .inr fun _ => rfl

theorem Progress.skip {slot : Nat} (h : config.Progress newFwChain start (slot + 1) system)
    (hskip : config.slotShouldBeUpdated slot newFwChain = false) :
    config.Progress newFwChain start slot system where
  updated other hle hlt hupdated hvalid := by
    by_cases heq : other = slot
    · rw [heq, hskip] at hupdated
      cases hupdated
    · exact h.updated other (by omega) hlt hupdated hvalid
  untouched := by
    rcases h.untouched with ⟨other, hle, hlt, hupdated⟩ | hsame
    · exact .inl ⟨other, by omega, hlt, hupdated⟩
    · exact .inr hsame

/-- The slot got its data, and the slots behind it are as they were. -/
theorem Progress.update {slot : Nat} {image : System}
    (h : config.Progress newFwChain start (slot + 1) system)
    (hslot : slot < config.bctPartitionSlots)
    (hupdated : config.slotShouldBeUpdated slot newFwChain = true)
    (hdata : config.slotShouldBeInvalidated slot newFwChain = false →
      config.slotData image slot = config.backupData start newFwChain)
    (hkept : ∀ other < config.bctPartitionSlots, other ≠ slot →
      config.slotData image other = config.slotData system other) :
    config.Progress newFwChain start slot image where
  updated other hle hlt hother hvalid := by
    by_cases heq : other = slot
    · rw [heq] at hvalid ⊢
      exact hdata hvalid
    · rw [hkept other hlt heq]
      exact h.updated other (by omega) hlt hother hvalid
  untouched := .inl ⟨slot, Nat.le_refl _, hslot, hupdated⟩

/-- The states of an update: between two slots, or with one slot in any state. -/
inductive Cut (config : Config) (newFwChain : Nat) (start : System) : System → Prop where
  | between (slots : Nat) (system : System)
      (hprogress : config.Progress newFwChain start slots system) : Cut config newFwChain start system
  | within (slot : Nat) (system : System) (image : Flash.Memory)
      (hslot : slot < config.bctPartitionSlots)
      (hupdated : config.slotShouldBeUpdated slot newFwChain = true)
      (hprogress : config.Progress newFwChain start (slot + 1) system) :
      Cut config newFwChain start (config.written slot image system)

/-- What is due in an update: reads, and the writes of the slots in their order. -/
structure Due (config : Config) (newFwChain : Nat) (start : System) (command : Command)
    (system : System) : Prop where
  cut : config.Cut newFwChain start system
  write : ∀ device offset buffer, command = .deviceWrite device offset buffer →
    ∃ slot, slot < config.bctPartitionSlots ∧
      config.slotShouldBeUpdated slot newFwChain = true ∧
      config.Progress newFwChain start (slot + 1) system ∧
      device = config.brBctPartition.device ∧ offset = config.address slot ∧
      buffer.length = config.brBctDataSize

structure Done (config : Config) (newFwChain : Nat) (start : System) (status : EfiStatus)
    (system : System) : Prop where
  cut : config.Cut newFwChain start system
  complete : status = .success → config.Progress newFwChain start 0 system

/-! The parts of the update, for any device. -/

section
variable {lost : Command → System → Prop} {ok : Answer → Prop}

theorem isError_eq_false {status : EfiStatus} (h : status.isError = false) :
    status = .success := by
  simpa [EfiStatus.isError] using h

theorem wp_fwPartitionRead {Q : EfiStatus × List UInt8 → System → Prop} {partition : PrivateData}
    {offset bytes : Nat}
    (hlost : ∀ device offset bytes, lost (.deviceRead device offset bytes) system)
    (hrefused : ∀ status, status.isError = true → Q (status, []) system)
    (hread : ∀ status, Q (status, Flash.slice (system.storage partition.device.number)
      (u64 (offset + partition.info.offset)) bytes) system) :
    Prog.wp exec ok lost Q (fwPartitionRead partition offset bytes) system := by
  unfold fwPartitionRead
  dsimp only
  split
  next herror => exact (Prog.wp_pure _).mpr (hrefused _ herror)
  next => exact (Prog.wp_perform _).mpr ⟨hlost _ _ _, fun answer _ => hread answer.status⟩

theorem wp_brBctVerifySlot {Q : EfiStatus → System → Prop} {slot : Nat} {buffer : List UInt8}
    (hlength : buffer.length = config.brBctDataSize)
    (hlost : ∀ device offset bytes, lost (.deviceRead device offset bytes) system)
    (hQ : ∀ status, (status = .success → config.slotData system slot = buffer) →
      Q status system) :
    Prog.wp exec ok lost Q (config.brBctVerifySlot config.brBctPartition slot
      config.brBctDataSize buffer) system := by
  unfold brBctVerifySlot
  dsimp only
  split
  · exact (Prog.wp_pure _).mpr (hQ _ (fun h => by cases h))
  next hfits =>
    have hbytes : alignValue config.brBctDataSize config.brBctPartition.device.blockSize =
        config.brBctDataSize :=
      Nat.le_antisymm (Nat.le_of_not_lt hfits) (le_alignValue _ _)
    rw [hbytes, Prog.wp_bind]
    apply wp_fwPartitionRead hlost
    · intro status herror
      rw [if_pos herror]
      refine (Prog.wp_pure _).mpr (hQ status fun h => ?_)
      rw [h] at herror
      cases herror
    · intro status
      split
      next herror =>
        refine (Prog.wp_pure _).mpr (hQ _ fun h => ?_)
        rw [h] at herror
        cases herror
      next =>
        split
        next => exact (Prog.wp_pure _).mpr (hQ _ fun h => by cases h)
        next hsame =>
          refine (Prog.wp_pure _).mpr (hQ _ fun _ => ?_)
          have htake := Classical.not_not.mp hsame
          rw [← hlength, List.take_length, hlength,
            List.take_of_length_le (Nat.le_of_eq (Flash.length_slice _ _ _))] at htake
          exact htake

theorem wp_brBctWriteSlot {Q : EfiStatus → System → Prop} {slot : Nat} {buffer : List UInt8}
    (hlength : buffer.length = config.brBctDataSize)
    (hlost : lost (.deviceWrite config.brBctPartition.device (config.address slot) buffer) system)
    (hrefused : ∀ status, status.isError = true → Q status system)
    (hwritten : ∀ status image, Q status (config.written slot image system)) :
    Prog.wp exec ok lost Q (config.brBctWriteSlot config.brBctPartition slot
      config.brBctDataSize buffer) system := by
  unfold brBctWriteSlot fwPartitionWrite
  rw [← hlength, List.take_length]
  dsimp only
  split
  next herror => exact (Prog.wp_pure _).mpr (hrefused _ herror)
  split
  next => exact (Prog.wp_pure _).mpr (hrefused _ rfl)
  next =>
    rw [Prog.wp_bind]
    refine (Prog.wp_perform _).mpr ⟨hlost, fun answer _ => ?_⟩
    have hwrite := hwritten answer.status answer.image
    unfold written writeSpan at hwrite
    rw [← hlength] at hwrite
    exact hwrite

theorem wp_brBctWriteAndVerifySlot {Q : EfiStatus → System → Prop} {slot : Nat}
    {buffer : List UInt8} (hlength : buffer.length = config.brBctDataSize)
    (hlost : lost (.deviceWrite config.brBctPartition.device (config.address slot) buffer) system)
    (hread : ∀ device offset bytes, lost (.deviceRead device offset bytes) system)
    (hreadBack : ∀ image device offset bytes,
      lost (.deviceRead device offset bytes) (config.written slot image system))
    (hskipped : ∀ status, (status = .success → config.slotData system slot = buffer) →
      Q status system)
    (hwritten : ∀ status image, (status = .success →
      config.slotData (config.written slot image system) slot = buffer) →
      Q status (config.written slot image system)) :
    Prog.wp exec ok lost Q (config.brBctWriteAndVerifySlot config.brBctPartition slot
      config.brBctDataSize buffer) system := by
  have hwrite : Prog.wp exec ok lost Q (do
      let status ← config.brBctWriteSlot config.brBctPartition slot config.brBctDataSize buffer
      if status.isError then pure status
      else config.brBctVerifySlot config.brBctPartition slot config.brBctDataSize buffer)
      system := by
    rw [Prog.wp_bind]
    apply wp_brBctWriteSlot hlength hlost
    · intro status herror
      rw [if_pos herror]
      refine (Prog.wp_pure _).mpr (hskipped _ fun h => ?_)
      rw [h] at herror
      cases herror
    · intro status image
      split
      next herror =>
        refine (Prog.wp_pure _).mpr (hwritten _ _ fun h => ?_)
        rw [h] at herror
        cases herror
      next => exact wp_brBctVerifySlot hlength (hreadBack image) fun status => hwritten status image
  unfold brBctWriteAndVerifySlot
  dsimp only
  split
  next =>
    rw [Prog.wp_bind]
    apply wp_brBctVerifySlot hlength hread
    intro status hstatus
    split
    next => exact (Prog.wp_pure _).mpr (hskipped _ hstatus)
    next => exact hwrite
  next => exact hwrite

end

/-! The whole update. -/

theorem not_success {status : EfiStatus} (h : status.isError = true) : status ≠ .success := by
  intro heq
  rw [heq] at h
  cases h

theorem wp_updateSlots (hseparate : config.Separate newFwChain) {ok : Answer → Prop}
    (slots : Nat) (hslots : slots ≤ config.bctPartitionSlots) {system : System}
    (hprogress : config.Progress newFwChain start slots system) :
    Prog.wp exec ok (config.Due newFwChain start) (config.Done newFwChain start)
      (config.updateSlots config.brBctDataSize newFwChain slots
        (config.backupData start newFwChain) .success) system := by
  induction slots generalizing system with
  | zero => exact (Prog.wp_pure _).mpr ⟨.between 0 system hprogress, fun _ => hprogress⟩
  | succ slot ih =>
    unfold updateSlots
    split
    next hupdated =>
      -- the buffer is exchanged for slot 0 only, and no slot is left then
      have hrest : ∀ image, config.Progress newFwChain start slot image →
          Prog.wp exec ok (config.Due newFwChain start) (config.Done newFwChain start)
            (config.updateSlots config.brBctDataSize newFwChain slot
              (if config.slotShouldBeInvalidated slot newFwChain then config.invalidateBuffer
                else config.backupData start newFwChain) .success) image := by
        intro image hnext
        split
        next hinvalid =>
          cases slotShouldBeInvalidated_zero hinvalid
          exact (Prog.wp_pure _).mpr ⟨.between 0 image hnext, fun _ => hnext⟩
        next => exact ih (by omega) hnext
      have hwithin := fun image =>
        Cut.within slot system image hslots hupdated hprogress
      dsimp only
      rw [Prog.wp_bind]
      apply wp_brBctWriteAndVerifySlot
      · split <;> simp
      · refine ⟨.between _ _ hprogress, fun device offset buffer heq => ?_⟩
        cases heq
        refine ⟨slot, hslots, hupdated, hprogress, rfl, rfl, ?_⟩
        split <;> simp
      · exact fun _ _ _ => ⟨.between _ _ hprogress, nofun⟩
      · exact fun image _ _ _ => ⟨hwithin image, nofun⟩
      · intro status hstatus
        split
        next herror =>
          exact (Prog.wp_pure _).mpr
            ⟨.between _ _ hprogress, fun h => absurd h (not_success herror)⟩
        next hsuccess =>
          have heq := isError_eq_false (Bool.eq_false_iff.mpr hsuccess)
          rw [heq] at hstatus ⊢
          refine hrest _ (hprogress.update hslots hupdated (fun hvalid => ?_) fun _ _ _ => rfl)
          rw [hstatus rfl, hvalid]
          rfl
      · intro status image hstatus
        split
        next herror =>
          exact (Prog.wp_pure _).mpr ⟨hwithin image, fun h => absurd h (not_success herror)⟩
        next hsuccess =>
          have heq := isError_eq_false (Bool.eq_false_iff.mpr hsuccess)
          rw [heq] at hstatus ⊢
          refine hrest _ (hprogress.update hslots hupdated (fun hvalid => ?_)
            fun other hother hne => slotData_written hseparate hslots hupdated hother hne image)
          rw [hstatus rfl, hvalid]
          rfl
    next hskip =>
      exact ih (by omega) (hprogress.skip (Bool.eq_false_iff.mpr hskip))

theorem wp_brBctUpdateFwChain (hseparate : config.Separate newFwChain) {ok : Answer → Prop} :
    Prog.wp exec ok (config.Due newFwChain start) (config.Done newFwChain start)
      (config.brBctUpdateFwChain newFwChain) start := by
  have hstart : config.Cut newFwChain start start := .between _ _ progress_start
  unfold brBctUpdateFwChain brBctReadSlot
  dsimp only
  rw [Prog.wp_bind]
  apply wp_fwPartitionRead
  · exact fun _ _ _ => ⟨hstart, nofun⟩
  · intro status herror
    rw [if_pos herror]
    exact (Prog.wp_pure _).mpr ⟨hstart, fun h => absurd h (not_success herror)⟩
  · intro status
    split
    next herror =>
      exact (Prog.wp_pure _).mpr ⟨hstart, fun h => absurd h (not_success herror)⟩
    next =>
      rw [Prog.wp_bind]
      refine Prog.wp_mono (wp_updateSlots hseparate _ (Nat.le_refl _) progress_start)
        (fun _ _ h => h) ?_
      intro status system hdone
      split
      next => exact (Prog.wp_pure _).mpr hdone
      next hsuccess =>
        have heq := isError_eq_false (Bool.eq_false_iff.mpr hsuccess)
        have hprogress := hdone.complete heq
        rw [Prog.wp_bind]
        refine (Prog.wp_perform _).mpr ⟨⟨hdone.cut, nofun⟩, fun answer _ => ?_⟩
        have hnext : config.Progress newFwChain start 0
            (exec (.setNextBootChain newFwChain) answer system).2 :=
          ⟨hprogress.updated, hprogress.untouched⟩
        exact (Prog.wp_pure _).mpr ⟨.between 0 _ hnext, fun _ => hnext⟩

/-- Some slot holds a complete BCT, of the old chain or of the new one. -/
def Complete (config : Config) (newFwChain : Nat) (old : List UInt8) (start system : System) :
    Prop :=
  ∃ slot < config.bctPartitionSlots,
    config.slotData system slot = old ∨
      config.slotData system slot = config.backupData start newFwChain

/-- Before the first write another slot than the one to be written first is complete. -/
def Spare (config : Config) (newFwChain : Nat) (old : List UInt8) (start : System) : Prop :=
  ∃ slot < config.bctPartitionSlots, ¬ config.FirstWritten newFwChain slot ∧
    (config.slotData start slot = old ∨
      config.slotData start slot = config.backupData start newFwChain)

theorem Progress.complete {slots : Nat} {old : List UInt8} (hreached : config.Reached newFwChain)
    (hspare : config.Spare newFwChain old start)
    (h : config.Progress newFwChain start slots system) :
    config.Complete newFwChain old start system := by
  rcases h.untouched with ⟨slot, hle, hlt, hupdated⟩ | hsame
  · cases hinvalid : config.slotShouldBeInvalidated slot newFwChain with
    | false => exact ⟨slot, hlt, .inr (h.updated slot hle hlt hupdated hinvalid)⟩
    | true =>
      have hzero := slotShouldBeInvalidated_zero hinvalid
      obtain ⟨lowest, hlowest, hlowestUpdated, hvalid, -⟩ := hreached
      exact ⟨lowest, hlowest, .inr (h.updated lowest (by omega) hlowest hlowestUpdated hvalid)⟩
  · obtain ⟨slot, hslot, -, hdata⟩ := hspare
    exact ⟨slot, hslot, by rwa [hsame slot]⟩

theorem Cut.complete {old : List UInt8} (hseparate : config.Separate newFwChain)
    (hreached : config.Reached newFwChain) (hspare : config.Spare newFwChain old start)
    (h : config.Cut newFwChain start system) : config.Complete newFwChain old start system := by
  cases h with
  | between slots system hprogress => exact hprogress.complete hreached hspare
  | within slot system image hslot hupdated hprogress =>
    have hother := fun other (hlt : other < config.bctPartitionSlots) (hne : other ≠ slot) =>
      @slotData_written _ _ system hseparate _ _ hslot hupdated hlt hne image
    by_cases hbehind : ∃ other, slot + 1 ≤ other ∧ other < config.bctPartitionSlots ∧
        config.slotShouldBeUpdated other newFwChain = true
    · obtain ⟨other, hle, hlt, hdone⟩ := hbehind
      refine ⟨other, hlt, .inr ?_⟩
      rw [hother other hlt (by omega)]
      exact hprogress.updated other hle hlt hdone (slotShouldBeInvalidated_pos (by omega))
    · -- this is the first write, so the spare slot is another one
      have hsame := hprogress.untouched.resolve_left hbehind
      obtain ⟨spare, hlt, hfirst, hdata⟩ := hspare
      have hne : spare ≠ slot := by
        rintro rfl
        refine hfirst ⟨hslot, hupdated, fun higher hhigher hgt => ?_⟩
        apply Bool.eq_false_iff.mpr
        intro hdone
        exact hbehind ⟨higher, hgt, hhigher, hdone⟩
      refine ⟨spare, hlt, ?_⟩
      rw [hother spare hlt hne, hsame spare]
      exact hdata

theorem Progress.next {slots : Nat} (h : config.Progress newFwChain start slots system)
    (chain : Option Nat) :
    config.Progress newFwChain start slots { system with nextBootChain := chain } :=
  ⟨h.updated, h.untouched⟩

theorem Cut.next (h : config.Cut newFwChain start system) (chain : Option Nat) :
    config.Cut newFwChain start { system with nextBootChain := chain } := by
  cases h with
  | between slots system hprogress => exact .between slots _ (hprogress.next chain)
  | within slot system image hslot hupdated hprogress =>
    exact .within slot _ image hslot hupdated (hprogress.next chain)

/-- Whatever is left of a command of the update is a state of the update. -/
theorem Due.image {command : Command} {image : System}
    (h : config.Due newFwChain start command system) (himage : Image command system image) :
    config.Cut newFwChain start image := by
  rcases himage with rfl | ⟨answer, rfl⟩
  · exact h.cut
  · cases command with
    | deviceRead device offset bytes => exact h.cut
    | deviceWrite device offset buffer =>
      obtain ⟨slot, hslot, hupdated, hprogress, rfl, rfl, hlength⟩ := h.write _ _ _ rfl
      have hwithin := Cut.within slot system answer.image hslot hupdated hprogress
      unfold written writeSpan at hwithin
      rw [← hlength] at hwithin
      exact hwithin
    | setNextBootChain chain => exact h.cut.next _

theorem Due.kept {device : DeviceInfo} {offset : Nat} {buffer : List UInt8}
    (hseparate : config.Separate newFwChain)
    (h : config.Due newFwChain start (.deviceWrite device offset buffer) system) :
    ∃ slot < config.bctPartitionSlots,
      device = config.brBctPartition.device ∧ offset = config.address slot ∧
        ∀ image, Image (.deviceWrite device offset buffer) system image →
          ∀ other < config.bctPartitionSlots, other ≠ slot →
            config.SlotKept system image other := by
  obtain ⟨slot, hslot, hupdated, -, rfl, rfl, hlength⟩ := h.write _ _ _ rfl
  refine ⟨slot, hslot, rfl, rfl, fun image himage other hother hne => ?_⟩
  rcases himage with rfl | ⟨answer, rfl⟩
  · exact fun _ _ => rfl
  · have hkept := @slotKept_written _ system _ _ answer.image
      (hseparate slot hslot hupdated other hother hne)
    unfold written writeSpan at hkept
    rw [← hlength] at hkept
    exact hkept

/-- What an update of the slots has to do, however it ends. -/
structure UpdateLaw (config : Config) (newFwChain : Nat) (old : List UInt8) (start : System)
    (outcome : Outcome Command System EfiStatus) : Prop where
  /-- After success the lowest slot that is not invalidated holds the BCT of the new chain. -/
  success : ∀ system, outcome = .done .success system →
    ∃ slot < config.bctPartitionSlots,
      config.slotShouldBeInvalidated slot newFwChain = false ∧
      (∀ lower < slot, config.slotShouldBeInvalidated lower newFwChain = true) ∧
      config.slotData system slot = config.backupData start newFwChain
  /-- A write, completed or cut, is a write of one slot and leaves all others alone. -/
  apart : ∀ device offset buffer system,
    outcome = .lost (.deviceWrite device offset buffer) system →
    ∃ slot < config.bctPartitionSlots,
      device = config.brBctPartition.device ∧ offset = config.address slot ∧
        ∀ image, Image (.deviceWrite device offset buffer) system image →
          ∀ other < config.bctPartitionSlots, other ≠ slot → config.SlotKept system image other
  /-- With two slots or more one of them is always complete. -/
  complete : 2 ≤ config.bctPartitionSlots →
    (∀ status system, outcome = .done status system →
      config.Complete newFwChain old start system) ∧
    ∀ command system image, outcome = .lost command system → Image command system image →
      config.Complete newFwChain old start image

/-- The geometry and the slots an update can rely on. -/
structure Updatable (config : Config) (newFwChain : Nat) (old : List UInt8) (start : System) :
    Prop where
  /-- Slot 0 alone cannot be invalidated. -/
  markerSlots : config.bootChainIsMarkerBased = true → newFwChain = bootChainB →
    2 ≤ config.bctPartitionSlots
  separate : config.Separate newFwChain
  spare : 2 ≤ config.bctPartitionSlots → config.Spare newFwChain old start

theorem reached (hslots : 1 ≤ config.bctPartitionSlots) (hchain : newFwChain < bootChainCount)
    (hmarker : config.bootChainIsMarkerBased = true → newFwChain = bootChainB →
      2 ≤ config.bctPartitionSlots) : config.Reached newFwChain := by
  unfold Reached slotShouldBeUpdated slotShouldBeInvalidated
  cases hbased : config.bootChainIsMarkerBased with
  | false => exact ⟨0, hslots, by simp⟩
  | true =>
    unfold bootChainCount at hchain
    rcases (show newFwChain = 0 ∨ newFwChain = 1 by omega) with rfl | rfl
    · exact ⟨0, hslots, by decide⟩
    · exact ⟨1, hmarker hbased rfl, by decide⟩

end Config

theorem clamp_pos {slots maximum : Nat} (h : 1 ≤ maximum) :
    1 ≤ if slots = 0 then 1 else if slots > maximum then maximum else slots := by
  split
  · exact Nat.le_refl 1
  · split <;> omega

theorem slots_pos {pcds : Pcds} {partitions : List PrivateData} {eraseBlockSize : Nat}
    {config : Config}
    (h : brBctUpdateDeviceLibInit pcds partitions eraseBlockSize = .ok config) :
    1 ≤ config.bctPartitionSlots := by
  unfold brBctUpdateDeviceLibInit at h
  dsimp only at h
  split at h
  next =>
    split at h
    · cases h
    · split at h
      · cases h
      · cases h
        apply clamp_pos
        split <;> decide
  next => cases h

/-- Whatever the device answers and wherever power is lost, an update that can rely on its
slots keeps the law. -/
theorem Config.Updatable.updateLaw {pcds : Pcds} {partitions : List PrivateData}
    {eraseBlockSize : Nat} {config : Config} {newFwChain : Nat} {old : List UInt8} {start : System}
    (hinit : brBctUpdateDeviceLibInit pcds partitions eraseBlockSize = .ok config)
    (hchain : newFwChain < bootChainCount) (h : config.Updatable newFwChain old start)
    (answers : List Answer) :
    config.UpdateLaw newFwChain old start
      (Prog.run exec (config.brBctUpdateFwChain newFwChain) answers start) := by
  have hreached := Config.reached (slots_pos hinit) hchain h.markerSlots
  have hwp := @Config.wp_brBctUpdateFwChain _ _ start h.separate (fun _ => True)
  have hok : ∀ answer ∈ answers, True := fun _ _ => trivial
  constructor
  · intro system hrun
    have hdone := Prog.wp_done hwp hok hrun
    obtain ⟨slot, hslot, hupdated, hvalid, hlower⟩ := hreached
    exact ⟨slot, hslot, hvalid, hlower,
      (hdone.complete rfl).updated slot (Nat.zero_le _) hslot hupdated hvalid⟩
  · intro device offset buffer system hrun
    exact (Prog.wp_lost hwp hok hrun).kept h.separate
  · intro htwo
    constructor
    · intro status system hrun
      exact (Prog.wp_done hwp hok hrun).cut.complete h.separate hreached (h.spare htwo)
    · intro command system image hrun himage
      exact ((Prog.wp_lost hwp hok hrun).image himage).complete h.separate hreached (h.spare htwo)

/-! A NOR flash with the BCT partition in front and the backup partition behind it. -/

def sampleFlash : NorFlashInfo := ⟨⟨65536, 4⟩, 1⟩

def samplePartitions (bctBytes : Nat) : List PrivateData :=
  [⟨⟨nameOf "BCT", bctBytes, 0, false⟩, sampleFlash.deviceInfo 0⟩,
    ⟨⟨nameOf "BCT-boot-chain_backup", 32768, 32768, false⟩, sampleFlash.deviceInfo 0⟩]

/-- The slots hold ones, the backup partition twos. -/
def sampleSystem : System := ⟨fun _ a => if a < 32768 then 1 else 2, none⟩

/-- Every command succeeds, and a write leaves `byte`. -/
def sampleAnswer (byte : UInt8) : Answer := ⟨.success, fun _ => byte⟩

/-- With two slots the update goes through: slot 1 gets the BCT of chain B, slot 0 is
invalidated. -/
theorem two_slots_updated :
    ∃ config, brBctUpdateDeviceLibInit ⟨4, 0, true, true, false⟩ (samplePartitions 8) 4 = .ok config ∧
      config.bctPartitionSlots = 2 ∧
      config.UpdateLaw bootChainB [1, 1, 1, 1] sampleSystem
        (Prog.run exec (config.brBctUpdateFwChain bootChainB)
          ([0, 0, 2, 0, 0, 0xFF, 0, 0].map sampleAnswer) sampleSystem) := by
  refine ⟨_, rfl, rfl, @Config.Updatable.updateLaw ⟨4, 0, true, true, false⟩ (samplePartitions 8) 4 _ _ _
    _ rfl (by decide) ⟨fun _ _ => by decide, ?_, ?_⟩ _⟩
  · decide
  · intro _
    refine ⟨0, by decide, ?_, .inl rfl⟩
    rintro ⟨-, -, hhigher⟩
    cases hhigher 1 (by decide) (by decide)

/-- With one slot the update succeeds and leaves no BCT at all. -/
theorem single_slot_invalidated :
    ∃ config, brBctUpdateDeviceLibInit ⟨4, 0, true, true, false⟩ (samplePartitions 4) 4 = .ok config ∧
      ∃ system, Prog.run exec (config.brBctUpdateFwChain bootChainB)
          ([0, 0, 0xFF, 0, 0].map sampleAnswer) sampleSystem = .done .success system ∧
        ∀ slot < config.bctPartitionSlots,
          config.slotData system slot = [0xFF, 0xFF, 0xFF, 0xFF] ∧
            config.slotData system slot ≠ config.backupData sampleSystem bootChainB := by
  refine ⟨_, rfl, _, rfl, ?_⟩
  decide

end BrBct
