import Edk2Nvidia.Fvb.Block

/-! The copy in memory is the partition on the flash, after every call and whatever the flash refuses
to write or to erase, and no call leaves the partition. Where nothing fails the driver is an array
of bytes. -/
namespace Fvb
open Flash

/-- The partition is whole blocks of the flash. -/
structure Private.Sound (this : Private) : Prop where
  blockSize : 0 < this.flash.blockSize
  aligned : this.flash.blockSize ∣ this.partitionOffset
  divides : this.flash.blockSize ∣ this.partitionSize
  nonempty : 0 < this.partitionSize
  inside : this.partitionOffset + this.partitionSize ≤ this.flash.memoryDensity
  density : this.flash.memoryDensity < 2 ^ 32

namespace Private
variable (this : Private)

def volume (m : Memory) : Memory := fun a => m (this.partitionOffset + a)

/-- The copy, where there is one, is the volume. -/
def Coherent (state : State) (m : Memory) : Prop :=
  ∀ partitionData ∈ state.partitionData, ∀ a < this.partitionSize,
    partitionData a = this.volume m a

def Confined (m m' : Memory) : Prop :=
  ∀ a, a < this.partitionOffset ∨ this.partitionOffset + this.partitionSize ≤ a → m' a = m a

/-- The bytes a read or a write comes to, and whether the boundary of the block is in its way. -/
def accepted (lba offset numBytes : Nat) : Option (Nat × Bool) :=
  if offset > maxUint64 - numBytes ∨ numBytes > maxUint64 - offset then none
  else (this.blockRange lba offset numBytes).toOption

def readReply (volume : Memory) (lba offset numBytes : Nat) : EfiStatus × Nat × List UInt8 :=
  if offset > maxUint64 - numBytes ∨ numBytes > maxUint64 - offset then
    (.invalidParameter, numBytes, [])
  else
    match this.blockRange lba offset numBytes with
    | .error numBytes => (.badBufferSize, numBytes, [])
    | .ok (numBytes, lbaBoundaryCrossed) =>
      (if lbaBoundaryCrossed then .badBufferSize else .success, numBytes,
        slice volume (this.fvbOffset lba offset) numBytes)

def writeReply (lba offset numBytes : Nat) : EfiStatus × Nat :=
  if offset > maxUint64 - numBytes ∨ numBytes > maxUint64 - offset then
    (.invalidParameter, numBytes)
  else
    match this.blockRange lba offset numBytes with
    | .error numBytes => (.badBufferSize, numBytes)
    | .ok (numBytes, lbaBoundaryCrossed) =>
      (if lbaBoundaryCrossed then .badBufferSize else .success, numBytes)

/-- The volume without the blocks of a range. -/
def eraseRange (volume : Memory) (range : Nat × Nat) : Memory :=
  Flash.erase volume (this.fvbOffset range.1 0) (range.2 * this.flash.blockSize)

/-- What a call does to the volume, as an array of bytes. -/
def apply (volume : Memory) : Call → Memory
  | .read _ _ _ => volume
  | .write lba offset buffer =>
    match this.accepted lba offset buffer.length with
    | some (numBytes, _) => overwrite volume (this.fvbOffset lba offset) (buffer.take numBytes)
    | none => volume
  | .erase args => if this.erasable args then (listed args).foldl this.eraseRange volume else volume

/-- What a call answers from the bytes of the volume. -/
def answer (volume : Memory) : Call → Reply
  | .read lba offset numBytes =>
    let (status, numBytes, data) := this.readReply volume lba offset numBytes
    ⟨status, numBytes, data⟩
  | .write lba offset buffer =>
    let (status, numBytes) := this.writeReply lba offset buffer.length
    ⟨status, numBytes, []⟩
  | .erase args =>
    ⟨if this.erasable args ∧ listed args ≠ [] then .success else .invalidParameter, 0, []⟩

def Permitted (volume : Memory) : Call → Prop
  | .write lba offset buffer => ∀ numBytes crossed,
      this.accepted lba offset buffer.length = some (numBytes, crossed) →
        Permits volume (this.fvbOffset lba offset) (buffer.take numBytes)
  | _ => True

end Private

section Volume
variable {this : Private} {state : State} {m m' : Memory} {lba offset numBytes : Nat} {crossed : Bool}

theorem Private.Sound.lastBlock (hsound : this.Sound) :
    this.lastBlock + 1 = this.partitionSize / this.flash.blockSize := by
  have hpos := Nat.div_pos (Nat.le_of_dvd hsound.nonempty hsound.divides) hsound.blockSize
  have hle := Nat.div_le_self this.partitionSize this.flash.blockSize
  have hin := hsound.inside
  have hlt := hsound.density
  unfold Private.lastBlock u32
  omega

theorem Private.Sound.block (hsound : this.Sound) {n : Nat} (h : n ≤ this.lastBlock + 1) :
    n * this.flash.blockSize ≤ this.partitionSize := by
  rw [hsound.lastBlock] at h
  exact (Nat.mul_le_mul_right _ h).trans (Nat.div_mul_le_self _ _)

theorem Private.Sound.accepted (hsound : this.Sound)
    (h : this.accepted lba offset numBytes = some (n, crossed)) :
    0 < n ∧ n ≤ numBytes ∧ offset + n ≤ this.flash.blockSize ∧
      this.fvbOffset lba offset + n ≤ this.partitionSize := by
  unfold Private.accepted at h
  split at h
  · cases h
  unfold Private.blockRange at h
  split at h
  · cases h
  next hlba =>
  have hblock := hsound.block (n := lba + 1) (by omega)
  rw [Nat.succ_mul] at hblock
  unfold Private.fvbOffset
  split at h
  · cases h
  split at h
  · cases h
  split at h
  · cases h
    omega
  · cases h
    omega

theorem Private.Sound.covers (hsound : this.Sound) {o n : Nat} (hn : 0 < n)
    (h : o + n ≤ this.partitionSize) : this.flash.Covers (o + this.partitionOffset) n where
  nonempty := hn
  inside := by
    have := hsound.inside
    omega
  addressable := hsound.density

theorem Private.volume_overwrite (m : Memory) (o : Nat) (data : List UInt8) :
    this.volume (overwrite m (o + this.partitionOffset) data) = overwrite (this.volume m) o data := by
  funext a
  unfold Private.volume overwrite
  by_cases h : a < o
  · rw [if_pos h, if_pos (by omega)]
  · rw [if_neg h, if_neg (by omega)]
    congr 1
    omega

theorem Private.volume_erase (m : Memory) (o n : Nat) :
    this.volume (Flash.erase m (o + this.partitionOffset) n) = Flash.erase (this.volume m) o n := by
  funext a
  unfold Private.volume
  by_cases h : a < o ∨ o + n ≤ a
  · rw [erase_outside _ _ _ _ h, erase_outside _ _ _ _ (by omega)]
  · rw [erase_inside _ _ _ _ (by omega) (by omega), erase_inside _ _ _ _ (by omega) (by omega)]

theorem Private.permits_volume {o : Nat} {data : List UInt8} (h : Permits (this.volume m) o data) :
    Permits m (o + this.partitionOffset) data := by
  intro i hi
  have hbits := h i hi
  unfold Private.volume at hbits
  rwa [show this.partitionOffset + (o + i) = o + this.partitionOffset + i by omega] at hbits

theorem Private.slice_volume (m : Memory) (o n : Nat) :
    slice (this.volume m) o n = slice m (o + this.partitionOffset) n := by
  apply List.ext_getElem (by simp)
  intro i hi hi'
  rw [getElem_slice, getElem_slice]
  unfold Private.volume
  congr 1
  omega

theorem Private.Coherent.change (h : this.Coherent state m) {f : Memory → Memory}
    (hf : ∀ partitionData a, a < this.partitionSize →
      (∀ b < this.partitionSize, partitionData b = this.volume m b) →
        f partitionData a = this.volume m' a) : this.Coherent (state.update f) m' := by
  intro changed hchanged a ha
  obtain ⟨partitionData, hdata, rfl⟩ := Option.mem_map.mp hchanged
  exact hf partitionData a ha (h partitionData hdata)

theorem overwrite_congr {m₁ m₂ : Memory} {o a : Nat} {data : List UInt8} (h : m₁ a = m₂ a) :
    overwrite m₁ o data a = overwrite m₂ o data a := by
  unfold overwrite
  split
  · exact h
  · by_cases hi : a - o < data.length
    · rw [List.getD_eq_getElem _ _ hi, List.getD_eq_getElem _ _ hi]
    · rw [List.getD_eq_default _ _ (by omega), List.getD_eq_default _ _ (by omega), h]

theorem erase_congr {m₁ m₂ : Memory} {o n a : Nat} (h : m₁ a = m₂ a) :
    Flash.erase m₁ o n a = Flash.erase m₂ o n a := by
  by_cases hout : a < o ∨ o + n ≤ a
  · rw [erase_outside _ _ _ _ hout, erase_outside _ _ _ _ hout, h]
  · rw [erase_inside _ _ _ _ (by omega) (by omega), erase_inside _ _ _ _ (by omega) (by omega)]

theorem Private.Coherent.overwrite (h : this.Coherent state m) {o : Nat} {data : List UInt8}
    (hpermits : Permits m (o + this.partitionOffset) data) :
    this.Coherent (state.update fun partitionData => overwrite partitionData o data)
      (program m (o + this.partitionOffset) data) := by
  rw [← hpermits.overwrite_eq]
  apply h.change
  intro partitionData a ha hdata
  rw [Private.volume_overwrite]
  exact overwrite_congr (hdata a ha)

theorem Private.Coherent.erase (h : this.Coherent state m) (o n : Nat) :
    this.Coherent (state.update fun partitionData => Flash.erase partitionData o n)
      (Flash.erase m (o + this.partitionOffset) n) := by
  apply h.change
  intro partitionData a ha hdata
  rw [Private.volume_erase]
  exact erase_congr (hdata a ha)

/-- What is read again makes up for whatever has happened to the range. -/
theorem Private.Coherent.reread (h : this.Coherent state m) {o n : Nat} {f : Memory → Memory}
    (hf : ∀ partitionData a, a < o ∨ o + n ≤ a → f partitionData a = partitionData a)
    (hm : ∀ a, a < o + this.partitionOffset ∨ o + this.partitionOffset + n ≤ a → m' a = m a) :
    this.Coherent ((state.update f).update fun partitionData =>
      Flash.overwrite partitionData o (slice m' (o + this.partitionOffset) n)) m' := by
  have hupdate : (state.update f).update (fun partitionData =>
      Flash.overwrite partitionData o (slice m' (o + this.partitionOffset) n)) =
        state.update fun partitionData =>
          Flash.overwrite (f partitionData) o (slice m' (o + this.partitionOffset) n) := by
    unfold State.update
    simp only [Option.map_map, Function.comp_def]
  rw [hupdate]
  apply h.change
  intro partitionData a ha hdata
  by_cases hout : a < o ∨ o + n ≤ a
  · rw [overwrite_outside _ _ _ _ (by rw [length_slice]; exact hout), hf _ _ hout, hdata a ha]
    exact (hm _ (by omega)).symm
  · have hinside := overwrite_inside (f partitionData) o (slice m' (o + this.partitionOffset) n)
      (a - o) (by rw [length_slice]; omega) 0
    rw [Nat.add_sub_cancel' (by omega), getD_slice _ _ _ _ _ (by omega)] at hinside
    rw [hinside]
    unfold Private.volume
    congr 1
    omega

theorem Private.Confined.refl (m : Memory) : this.Confined m m := fun _ _ => rfl

theorem Private.Confined.trans {m'' : Memory} (h : this.Confined m m') (h' : this.Confined m' m'') :
    this.Confined m m'' := fun a ha => (h' a ha).trans (h a ha)

theorem Private.Confined.program {o : Nat} {data : List UInt8}
    (h : o + data.length ≤ this.partitionSize) :
    this.Confined m (program m (o + this.partitionOffset) data) := by
  intro a ha
  exact program_outside _ _ _ _ (by omega)

theorem Private.Confined.erase {o n : Nat} (h : o + n ≤ this.partitionSize) :
    this.Confined m (Flash.erase m (o + this.partitionOffset) n) := by
  intro a ha
  exact erase_outside _ _ _ _ (by omega)

end Volume

/-! The calls. -/

section Calls
variable {this : Private} {S : Setting EfiStatus} {state : State} {m : Memory}
  {lba offset : Nat}

def Readable (S : Setting EfiStatus) : Prop :=
  ∀ offset size status effect, ¬ S.ends (.read offset size) (.failed status effect)

theorem reread_wp (hsound : this.Sound) (hreads : Readable S) (hcut : S.cut m) {o n : Nat}
    (hn : 0 < n) (hfits : o + n ≤ this.partitionSize) {Q : Unit → State → Memory → Prop}
    (h : Q () (state.update fun partitionData =>
      overwrite partitionData o (slice m (o + this.partitionOffset) n)) m) :
    wpIn S (this.reread o n) Q state m := by
  unfold Private.reread
  rw [wpIn_get_bind]
  cases hdata : state.partitionData with
  | none =>
    have hnone : (state.update fun partitionData =>
        overwrite partitionData o (slice m (o + this.partitionOffset) n)) = state := by
      unfold State.update
      rw [hdata, Option.map_none, ← hdata]
    rw [hnone] at h
    exact wpIn_pure.mpr ⟨hcut, h⟩
  | some partitionData =>
    dsimp only
    rw [NorFlash.read_eq (hsound.covers hn hfits)]
    apply wpIn_bind
    apply wpIn_read hcut
    · exact wpIn_modify.mpr ⟨hcut, h⟩
    · intro status effect hending
      exact absurd hending (hreads _ _ status effect)

/-- A read changes nothing. What it returns comes from the volume, whether there is a copy or not. -/
theorem fvbRead_wp (hsound : this.Sound) (hreads : Readable S) (hcut : S.cut m)
    (hcoherent : this.Coherent state m) {numBytes : Nat}
    {Q : EfiStatus × Nat × List UInt8 → State → Memory → Prop}
    (h : Q (this.readReply (this.volume m) lba offset numBytes) state m) :
    wpIn S (this.fvbRead lba offset numBytes) Q state m := by
  unfold Private.fvbRead
  unfold Private.readReply at h
  split
  · next hover =>
    rw [if_pos hover] at h
    exact wpIn_pure.mpr ⟨hcut, h⟩
  next hover =>
  rw [if_neg hover] at h
  cases hrange : this.blockRange lba offset numBytes with
  | error n =>
    rw [hrange] at h
    exact wpIn_pure.mpr ⟨hcut, h⟩
  | ok range =>
    obtain ⟨n, crossed⟩ := range
    rw [hrange] at h
    have haccepted : this.accepted lba offset numBytes = some (n, crossed) := by
      unfold Private.accepted
      rw [if_neg hover, hrange]
      rfl
    obtain ⟨hn, _, _, hfits⟩ := hsound.accepted haccepted
    dsimp only at h ⊢
    rw [wpIn_get_bind]
    cases hdata : state.partitionData with
    | none =>
      dsimp only
      rw [NorFlash.read_eq (hsound.covers hn hfits)]
      apply wpIn_bind
      apply wpIn_read hcut
      · rw [Private.slice_volume] at h
        exact wpIn_pure.mpr ⟨hcut, h⟩
      · intro status effect hending
        exact absurd hending (hreads _ _ status effect)
    | some partitionData =>
      have hslice : slice partitionData (this.fvbOffset lba offset) n =
          slice (this.volume m) (this.fvbOffset lba offset) n := by
        apply slice_congr
        intro a _ ha
        exact hcoherent partitionData hdata a (by omega)
      dsimp only
      rw [wpIn_pure_bind, hslice]
      exact wpIn_pure.mpr ⟨hcut, h⟩

/-- The driver behind a call: the copy is the volume, and all else is as it was. -/
structure Kept (this : Private) (state : State) (m : Memory) (state' : State) (m' : Memory) :
    Prop where
  coherent : this.Coherent state' m'
  confined : this.Confined m m'
  cached : state'.partitionData.isSome = state.partitionData.isSome

theorem Kept.refl (h : this.Coherent state m) : Kept this state m state m :=
  ⟨h, .refl m, rfl⟩

theorem Kept.trans {state' state'' : State} {m' m'' : Memory} (h : Kept this state m state' m')
    (h' : Kept this state' m' state'' m'') : Kept this state m state'' m'' :=
  ⟨h'.coherent, h.confined.trans h'.confined, h'.cached.trans h.cached⟩

theorem isSome_update (state : State) (f : Memory → Memory) :
    (state.update f).partitionData.isSome = state.partitionData.isSome := by
  unfold State.update
  exact Option.isSome_map

/-- A write that is refused changes nothing, one that is served changes both the copy and the flash,
and one that fails leaves the copy what the flash has become. -/
theorem fvbWrite_wp (hsound : this.Sound) (hreads : Readable S) (hcut : ∀ image, S.cut image)
    (hcoherent : this.Coherent state m) {buffer : List UInt8}
    (hpermitted : this.Permitted (this.volume m) (.write lba offset buffer))
    {Q : EfiStatus × Nat → State → Memory → Prop}
    (refused : ∀ state', this.accepted lba offset buffer.length = none →
      Kept this state m state' m → Q (this.writeReply lba offset buffer.length) state' m)
    (served : ∀ n crossed state', this.accepted lba offset buffer.length = some (n, crossed) →
      Kept this state m state' (program m (this.fvbOffset lba offset + this.partitionOffset)
        (buffer.take n)) →
      Q (this.writeReply lba offset buffer.length) state'
        (program m (this.fvbOffset lba offset + this.partitionOffset) (buffer.take n)))
    (failed : S.Faulty → ∀ n state' m', Kept this state m state' m' →
      Q (.deviceError, n) state' m') :
    wpIn S (this.fvbWrite lba offset buffer) Q state m := by
  unfold Private.fvbWrite
  unfold Private.writeReply at refused served
  unfold Private.accepted at refused served
  by_cases hover : offset > maxUint64 - buffer.length ∨ buffer.length > maxUint64 - offset
  · rw [if_pos hover, if_pos hover] at refused
    rw [if_pos hover]
    exact wpIn_pure.mpr ⟨hcut m, refused state rfl (.refl hcoherent)⟩
  rw [if_neg hover, if_neg hover] at refused
  rw [if_neg hover] at served
  rw [if_neg hover, wpIn_modify_bind]
  have htouched : Kept this state m { state with varInt := state.varInt.map VarInt.touch } m :=
    ⟨hcoherent, .refl m, rfl⟩
  cases hrange : this.blockRange lba offset buffer.length with
  | error n =>
    rw [hrange] at refused
    exact wpIn_pure.mpr ⟨hcut m, refused _ rfl htouched⟩
  | ok range =>
    obtain ⟨n, crossed⟩ := range
    rw [hrange] at served
    have haccepted : this.accepted lba offset buffer.length = some (n, crossed) := by
      unfold Private.accepted
      rw [if_neg hover, hrange]
      rfl
    obtain ⟨hn, hle, _, hfits⟩ := hsound.accepted haccepted
    have hlength : (buffer.take n).length = n := by
      rw [List.length_take]
      omega
    have hpermits := Private.permits_volume (hpermitted n crossed haccepted)
    dsimp only at served ⊢
    rw [wpIn_modify_bind, NorFlash.write_eq (by rw [hlength]; exact hsound.covers hn hfits)]
    apply wpIn_bind
    apply wpIn_write
    · intro j
      exact hcut _
    · rw [EfiStatus.ok_eq, EfiStatus.isError_success, if_neg (by decide)]
      refine wpIn_pure.mpr ⟨hcut _, ?_⟩
      rw [if_neg hover] at served
      apply served n crossed _ rfl
      refine htouched.trans ⟨htouched.coherent.overwrite hpermits, ?_, isSome_update _ _⟩
      exact Private.Confined.program (by rw [hlength]; exact hfits)
    · intro status effect hending
      have herror : status.val.isError = true := by
        unfold EfiStatus.isError
        rw [bne_iff_ne]
        exact status.property
      rw [if_pos herror]
      apply wpIn_bind
      apply reread_wp hsound hreads (hcut _) hn hfits
      have htorn : ((buffer.take n).take effect).length ≤ n := by
        rw [List.length_take, hlength]
        exact Nat.min_le_right _ _
      refine wpIn_pure.mpr ⟨hcut _, failed ⟨_, status, effect, hending⟩ n _ _ (htouched.trans
        ⟨htouched.coherent.reread ?_ ?_, ?_, ?_⟩)⟩
      · intro partitionData a ha
        exact overwrite_outside _ _ _ _ (by rw [hlength]; exact ha)
      · intro a ha
        exact program_outside _ _ _ _ (by omega)
      · exact Private.Confined.program (by omega)
      · rw [isSome_update, isSome_update]

theorem Private.Sound.validRange (hsound : this.Sound) {startingLba numOfLba : Nat}
    (h : this.validRange startingLba numOfLba = true) :
    0 < numOfLba * this.flash.blockSize ∧ 0 < numOfLba ∧
      this.fvbOffset startingLba 0 + numOfLba * this.flash.blockSize ≤ this.partitionSize := by
  unfold Private.validRange at h
  simp only [Bool.not_eq_true', decide_eq_false_iff_not] at h
  have hnum : 0 < numOfLba := by omega
  have hblock := hsound.block (n := startingLba + numOfLba) (by omega)
  rw [Nat.add_mul] at hblock
  exact ⟨Nat.mul_pos hnum hsound.blockSize, hnum, hblock⟩

theorem eraseRanges_wp (hsound : this.Sound) (hreads : Readable S) (hcut : ∀ image, S.cut image)
    {ranges : List (Nat × Nat)} {status : EfiStatus}
    (hvalid : ∀ range ∈ ranges, this.validRange range.1 range.2 = true)
    (hcoherent : this.Coherent state m) {Q : EfiStatus → State → Memory → Prop}
    (served : ∀ state' m', Kept this state m state' m' →
      this.volume m' = ranges.foldl this.eraseRange (this.volume m) →
        Q (if ranges = [] then status else .success) state' m')
    (failed : S.Faulty → ∀ state' m', Kept this state m state' m' → Q .deviceError state' m') :
    wpIn S (this.eraseRanges status ranges) Q state m := by
  induction ranges generalizing status state m with
  | nil =>
    rw [Private.eraseRanges]
    exact wpIn_pure.mpr ⟨hcut m, served state m (.refl hcoherent) rfl⟩
  | cons range ranges ih =>
    obtain ⟨startingLba, numOfLba⟩ := range
    obtain ⟨hsize, hnum, hfits⟩ := hsound.validRange (hvalid _ (List.mem_cons_self ..))
    have hdvd : this.flash.blockSize ∣ this.fvbOffset startingLba 0 + this.partitionOffset :=
      Nat.dvd_add (Nat.dvd_add (Nat.dvd_mul_left ..) (Nat.dvd_zero _)) hsound.aligned
    have hplace := Nat.div_mul_cancel hdvd
    have hcovers := hsound.covers hsize hfits
    rw [Private.eraseRanges, wpIn_modify_bind,
      NorFlash.erase_eq _ _ hnum hsound.blockSize (by rw [hplace]; exact hcovers), hplace]
    have herased : Kept this state m (state.update fun partitionData => Flash.erase partitionData
        (this.fvbOffset startingLba 0) (numOfLba * this.flash.blockSize))
          (Flash.erase m (this.fvbOffset startingLba 0 + this.partitionOffset)
            (numOfLba * this.flash.blockSize)) :=
      ⟨hcoherent.erase _ _, .erase hfits, isSome_update _ _⟩
    apply wpIn_bind
    apply wpIn_erase (hcut _) (hcut _)
    · rw [EfiStatus.ok_eq, EfiStatus.isError_success, if_neg (by decide)]
      apply ih (fun range hmem => hvalid range (List.mem_cons_of_mem _ hmem)) herased.coherent
      · intro state' m' hkept hvolume
        rw [ite_self]
        apply served state' m' (herased.trans hkept)
        rw [hvolume, Private.volume_erase]
        rfl
      · intro hfaulty state' m' hkept
        exact failed hfaulty state' m' (herased.trans hkept)
    · intro status' effect hending
      have herror : status'.val.isError = true := by
        unfold EfiStatus.isError
        rw [bne_iff_ne]
        exact status'.property
      rw [if_pos herror]
      -- the flash may have erased some of the blocks, and what there is now is read again
      refine ⟨hcut _, ?_⟩
      have hpart : min effect (numOfLba * this.flash.blockSize) ≤ numOfLba * this.flash.blockSize :=
        Nat.min_le_right _ _
      apply wpIn_bind
      apply reread_wp hsound hreads (hcut _) hsize hfits
      refine wpIn_pure.mpr ⟨hcut _, failed ⟨_, status', effect, hending⟩ _ _
        ⟨hcoherent.reread ?_ ?_, .erase (Nat.le_trans (Nat.add_le_add_left hpart _) hfits), ?_⟩⟩
      · intro partitionData a ha
        exact erase_outside _ _ _ _ ha
      · intro a ha
        exact erase_outside _ _ _ _ (ha.imp_right (Nat.le_trans (Nat.add_le_add_left hpart _)))
      · rw [isSome_update, isSome_update]

theorem serve_wp (hsound : this.Sound) (hreads : Readable S) (hcut : ∀ image, S.cut image)
    (hcoherent : this.Coherent state m) {call : Call} (hpermitted : this.Permitted (this.volume m) call)
    {Q : Reply → State → Memory → Prop}
    (served : ∀ state' m', Kept this state m state' m' →
      this.volume m' = this.apply (this.volume m) call →
        Q (this.answer (this.volume m) call) state' m')
    (failed : S.Faulty → ∀ reply state' m', Kept this state m state' m' → Q reply state' m') :
    wpIn S (this.serve call) Q state m := by
  cases call with
  | read lba offset numBytes =>
    unfold Private.serve
    apply wpIn_bind
    apply fvbRead_wp hsound hreads (hcut m) hcoherent
    exact wpIn_pure.mpr ⟨hcut m, served state m (.refl hcoherent) rfl⟩
  | write lba offset buffer =>
    unfold Private.serve
    apply wpIn_bind
    apply fvbWrite_wp hsound hreads hcut hcoherent hpermitted
    · intro state' hrefused hkept
      refine wpIn_pure.mpr ⟨hcut m, served state' m hkept ?_⟩
      simp only [Private.apply, hrefused]
    · intro n crossed state' haccepted hkept
      refine wpIn_pure.mpr ⟨hcut _, served state' _ hkept ?_⟩
      have hpermits := Private.permits_volume (hpermitted n crossed haccepted)
      rw [← hpermits.overwrite_eq, Private.volume_overwrite]
      simp only [Private.apply, haccepted]
    · intro hfaulty n state' m' hkept
      exact wpIn_pure.mpr ⟨hcut m', failed hfaulty _ state' m' hkept⟩
  | erase args =>
    unfold Private.serve
    apply wpIn_bind
    unfold Private.fvbEraseBlocks
    have hreply : this.answer (this.volume m) (.erase args) =
        ⟨if this.erasable args ∧ Private.listed args ≠ [] then .success else .invalidParameter, 0,
          []⟩ := rfl
    rw [hreply] at served
    by_cases herasable : this.erasable args = true
    · rw [if_pos herasable]
      apply eraseRanges_wp hsound hreads hcut (List.all_eq_true.mp herasable) hcoherent
      · intro state' m' hkept hvolume
        have hserved := served state' m' hkept (by simp only [Private.apply, if_pos herasable, hvolume])
        refine wpIn_pure.mpr ⟨hcut m', ?_⟩
        by_cases hempty : Private.listed args = []
        · rw [if_neg fun h => h.2 hempty] at hserved
          rw [if_pos hempty]
          exact hserved
        · rw [if_pos ⟨herasable, hempty⟩] at hserved
          rw [if_neg hempty]
          exact hserved
      · intro hfaulty state' m' hkept
        exact wpIn_pure.mpr ⟨hcut m', failed hfaulty _ state' m' hkept⟩
    · rw [if_neg herasable]
      have hserved := served state m (.refl hcoherent) (by simp only [Private.apply, if_neg herasable])
      rw [if_neg fun h => herasable h.1] at hserved
      exact wpIn_pure.mpr ⟨hcut m, wpIn_pure.mpr ⟨hcut m, hserved⟩⟩

end Calls

end Fvb
