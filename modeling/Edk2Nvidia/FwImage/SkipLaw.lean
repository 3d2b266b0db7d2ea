import Edk2Nvidia.FwImage.ReadBeforeWrite

/-! Leaving the write out leaves what the write would leave. -/
namespace FwImage
open Flash FwPartition

section
variable {this : Protocol} {bufferSize blockSize endOfLastBlock flags : Nat} {state state' : State}
  {status : EfiStatus} {outcome : Bool}

/-! What the reads find. -/

theorem fwImageRead_storage (this : Protocol) (offset bytes flags : Nat) (state : State) :
    (fwImageRead this offset bytes flags state).2.storage = state.storage := by
  unfold fwImageRead
  split
  · rfl
  · split
    · rfl
    · split
      · rfl
      · rfl

theorem fwImageRead_some {offset bytes : Nat} {buffer : List UInt8}
    (h : fwImageRead this offset bytes flags state = (some buffer, state')) :
    ∃ partition, readPartition this flags = some partition ∧
      buffer = slice (state.storage partition) offset bytes ∧
      (fwImageCheckOffsetAndBytes (this.bytes partition) offset bytes).isError = false ∧
      state'.readProblem = state.readProblem := by
  unfold fwImageRead at h
  split at h
  next => cases h
  next partition hpartition =>
    split at h
    next => cases h
    next hcheck =>
      split at h
      next => cases h
      next =>
        cases h
        exact ⟨partition, hpartition, rfl, by simpa using hcheck, rfl⟩

theorem inside_of_check {maxOffset offset bytes : Nat}
    (h : (fwImageCheckOffsetAndBytes maxOffset offset bytes).isError = false)
    (hlt : offset + bytes < 2 ^ 64) : offset + bytes ≤ maxOffset := by
  unfold fwImageCheckOffsetAndBytes fwPartitionCheckOffsetAndBytes at h
  split at h
  next => cases h
  next hno =>
    rw [u64, Nat.mod_eq_of_lt hlt] at hno
    omega

/-- What a check of the reads' results tells when it returns. -/
structure Told (state state' : State) (status : EfiStatus) (outcome : Bool) (found : Prop) : Prop where
  storage : state'.storage = state.storage
  problem : state'.readProblem = true → state.readProblem = true ∨ status.isError = true
  found : outcome = true → status = .success ∧ found

theorem compareLoop_told (fuel offset : Nat) (data : List UInt8) (hspace : data.length + offset + bufferSize ≤ 2 ^ 64)
    (h : compareLoop this bufferSize blockSize flags fuel offset data state =
      some ((status, outcome), state')) :
    Told state state' status outcome (data = [] ∨ ∃ partition,
      readPartition this flags = some partition ∧ Holds (state.storage partition) offset data ∧
        offset + data.length ≤ this.bytes partition) := by
  induction fuel generalizing offset data state with
  | zero => cases h
  | succ fuel ih =>
    unfold compareLoop at h
    split at h
    next hpos =>
      simp only at h
      generalize hcs : (if data.length > bufferSize then bufferSize else data.length) = cs at h
      have hcs' : cs ≤ data.length := by
        rw [← hcs]
        split
        · omega
        · omega
      split at h
      next =>
        cases h
        exact ⟨rfl, .inl, fun hf => by cases hf⟩
      next hfits =>
        have hstorage := fwImageRead_storage this offset (alignValue cs blockSize) flags state
        have hcover := le_alignValue cs blockSize
        split at h
        next state₁ hread =>
          rw [hread] at hstorage
          cases h
          exact ⟨hstorage, fun _ => .inr rfl, fun hf => by cases hf⟩
        next buffer state₁ hread =>
          rw [hread] at hstorage
          obtain ⟨partition, hpartition, hbuffer, hcheck, hproblem⟩ := fwImageRead_some hread
          split at h
          next hsame =>
            have hlow : slice (state.storage partition) offset cs = data.take cs := by
              rw [← hsame, hbuffer, take_slice _ _ _ _ hcover]
            have htake : (data.take cs).length = cs := by
              rw [List.length_take, Nat.min_eq_left hcs']
            have hdrop : (data.drop cs).length = data.length - cs := List.length_drop
            obtain ⟨hrest, hproblem', hfound⟩ := ih (offset + cs) (data.drop cs) (by omega) h
            refine ⟨hrest.trans hstorage, fun hp => (hproblem' hp).imp_left fun h₁ => hproblem ▸ h₁, fun ho => ?_⟩
            obtain ⟨hsuccess, hfound⟩ := hfound ho
            refine ⟨hsuccess, .inr ⟨partition, hpartition, ?_, ?_⟩⟩
            · rw [← List.take_append_drop cs data, holds_append, htake]
              refine ⟨by rw [Holds, htake, hlow], ?_⟩
              obtain hnil | ⟨p, hp, hholds, -⟩ := hfound
              · rw [hnil]
                exact holds_nil _ _
              · rw [hpartition] at hp
                cases hp
                rwa [hstorage] at hholds
            · obtain hnil | ⟨p, hp, -, hin⟩ := hfound
              · rw [hnil, List.length_nil] at hdrop
                have hin := inside_of_check hcheck (by omega)
                omega
              · rw [hpartition] at hp
                cases hp
                omega
          next =>
            cases h
            exact ⟨hstorage, fun hp => .inl (hproblem ▸ hp), fun hf => by cases hf⟩
    next hnil =>
      cases h
      exact ⟨rfl, .inl, fun _ => ⟨rfl, .inl (List.eq_nil_of_length_eq_zero (by omega))⟩⟩

theorem tailLoop_told (fuel remaining offset : Nat)
    (h : tailLoop this bufferSize blockSize endOfLastBlock flags fuel remaining offset state =
      some ((status, outcome), state')) :
    Told state state' status outcome (∀ partition, readPartition this flags = some partition →
      Blank (state.storage partition) offset remaining) := by
  induction fuel generalizing offset remaining state with
  | zero => cases h
  | succ fuel ih =>
    unfold tailLoop at h
    split at h
    next hpos =>
      simp only at h
      generalize hcs : (if remaining > bufferSize then bufferSize else remaining) = cs at h
      have hcs' : cs ≤ remaining := by
        rw [← hcs]
        split
        · omega
        · omega
      split at h
      next =>
        cases h
        exact ⟨rfl, .inl, fun hf => by cases hf⟩
      next =>
        split at h
        next =>
          cases h
          exact ⟨rfl, .inl, fun hf => by cases hf⟩
        next =>
          have hstorage := fwImageRead_storage this offset (alignValue cs blockSize) flags state
          have hcover := le_alignValue cs blockSize
          split at h
          next state₁ hread =>
            rw [hread] at hstorage
            cases h
            exact ⟨hstorage, fun _ => .inr rfl, fun hf => by cases hf⟩
          next buffer state₁ hread =>
            rw [hread] at hstorage
            obtain ⟨partition, hpartition, hbuffer, -, hproblem⟩ := fwImageRead_some hread
            split at h
            next hblank =>
              obtain ⟨hrest, hproblem', hfound⟩ := ih (remaining - cs) (offset + cs) h
              refine ⟨hrest.trans hstorage, fun hp => (hproblem' hp).imp_left fun h₁ => hproblem ▸ h₁,
                fun ho => ?_⟩
              obtain ⟨hsuccess, hfound⟩ := hfound ho
              refine ⟨hsuccess, fun p hp => ?_⟩
              rw [hpartition] at hp
              cases hp
              rw [hbuffer, take_slice _ _ _ _ hcover, isErased_slice] at hblank
              have hbehind := hfound partition hpartition
              rw [hstorage] at hbehind
              intro a ha hlt
              by_cases hnear : a < offset + cs
              · exact hblank a ha hnear
              · exact hbehind a (by omega) (by omega)
            next =>
              cases h
              exact ⟨hstorage, fun hp => .inl (hproblem ▸ hp), fun hf => by cases hf⟩
    next =>
      cases h
      refine ⟨rfl, .inl, fun _ => ⟨rfl, fun p hp a ha hlt => ?_⟩⟩
      omega

/-! The loops return. -/

theorem compareLoop_returns (hbuffer : 0 < bufferSize) (fuel offset : Nat) (data : List UInt8)
    (hfuel : data.length < fuel) :
    (compareLoop this bufferSize blockSize flags fuel offset data state).isSome := by
  induction fuel generalizing offset data state with
  | zero => omega
  | succ fuel ih =>
    unfold compareLoop
    split
    next hpos =>
      simp only
      generalize hcs : (if data.length > bufferSize then bufferSize else data.length) = cs
      have hcs' : 0 < cs := by
        rw [← hcs]
        split
        · exact hbuffer
        · exact hpos
      split
      next => rfl
      next =>
        split
        next => rfl
        next =>
          split
          next =>
            apply ih
            rw [List.length_drop]
            omega
          next => rfl
    next => rfl

theorem tailLoop_returns (hbuffer : 0 < bufferSize) (fuel remaining offset : Nat)
    (hfuel : remaining < fuel) :
    (tailLoop this bufferSize blockSize endOfLastBlock flags fuel remaining offset state).isSome := by
  induction fuel generalizing offset remaining state with
  | zero => omega
  | succ fuel ih =>
    unfold tailLoop
    split
    next hpos =>
      simp only
      generalize hcs : (if remaining > bufferSize then bufferSize else remaining) = cs
      have hcs' : 0 < cs := by
        rw [← hcs]
        split
        · exact hbuffer
        · exact hpos
      split
      next => rfl
      next =>
        split
        next => rfl
        next =>
          split
          next => rfl
          next =>
            split
            next =>
              apply ih
              omega
            next => rfl
    next => rfl

/-! The reads look at the partition the write goes to. -/

theorem readPartition_eq (this : Protocol) (flags : Nat) :
    readPartition this (readFlagsOf flags) = writePartition this flags := by
  unfold readPartition writePartition readFlagsOf
  by_cases hforce : flags &&& (forcePartitionA ||| forcePartitionB) ≠ 0
  · have hall : flags &&& (forcePartitionA ||| forcePartitionB) &&&
        (forcePartitionA ||| forcePartitionB) = flags &&& (forcePartitionA ||| forcePartitionB) := by
      rw [Nat.and_assoc, Nat.and_self]
    have hone : flags &&& (forcePartitionA ||| forcePartitionB) &&& forcePartitionA =
        flags &&& forcePartitionA := by
      rw [Nat.and_assoc]
      rfl
    rw [if_pos hforce, hall, hone, if_pos hforce, if_pos hforce]
  · have hread : ¬ readInactiveImage &&& (forcePartitionA ||| forcePartitionB) ≠ 0 := by decide
    have hinactive : readInactiveImage &&& readInactiveImage ≠ 0 := by decide
    rw [if_neg hforce, if_neg hread, if_neg hforce, if_pos hinactive]

/-! The blocks. -/

theorem dvd_alignValue {value k : Nat} (hk : k < 32) (hvalue : value ≤ 2 ^ 64) :
    2 ^ k ∣ alignValue value (2 ^ k) := by
  have hle : 2 ^ k ≤ 2 ^ 31 := Nat.pow_le_pow_right (by decide) (by omega)
  have hpos : 0 < 2 ^ k := Nat.two_pow_pos k
  have hmask : (2 ^ k + (2 ^ 32 - 1)) % 2 ^ 32 = 2 ^ k - 1 := by omega
  have hwide : (2 ^ k : Nat) ∣ 2 ^ 64 := Nat.pow_dvd_pow 2 (by omega)
  unfold alignValue
  rw [hmask, Nat.and_two_pow_sub_one_eq_mod, Nat.mod_mod_of_dvd _ hwide]
  refine Nat.dvd_of_mod_eq_zero ?_
  rw [Nat.add_mod_mod, ← Nat.add_sub_assoc (by omega), Nat.add_sub_cancel_left, Nat.add_mod_right]
  exact Nat.mod_eq_zero_of_dvd hwide

/-- The whole blocks from a block's start on end with the last block. -/
theorem blocks_le {block length start stop : Nat} (hblock : 0 < block) (hstart : block ∣ start)
    (hstop : block ∣ stop) (hle : start + length ≤ stop) :
    start + (length + block - 1) / block * block ≤ stop := by
  obtain ⟨i, rfl⟩ := hstart
  obtain ⟨j, rfl⟩ := hstop
  have hlen : length ≤ block * (j - i) := by
    rw [Nat.mul_sub]
    omega
  have hij : i ≤ j := Nat.le_of_mul_le_mul_left (Nat.le_trans (Nat.le_add_right _ _) hle) hblock
  have hdiv : (length + block - 1) / block ≤ j - i := by
    have hlt : (length + block - 1) / block < j - i + 1 := by
      rw [Nat.div_lt_iff_lt_mul hblock, Nat.add_mul, Nat.one_mul, Nat.mul_comm (j - i)]
      omega
    omega
  have hmul := Nat.mul_le_mul_right block hdiv
  rw [Nat.mul_comm (j - i), Nat.mul_sub] at hmul
  have hle' := Nat.mul_le_mul_left block hij
  omega

/-! Writing what is there. -/

/-- Behind a write of what is there up to `offset`: only what is to come, up to the end of the last
block, can be erased. -/
def Settled (m₀ : Memory) (offset stop : Nat) (m : Memory) : Prop :=
  ∀ a, m a = m₀ a ∨ offset ≤ a ∧ a < stop ∧ m a = erasedByte

theorem Settled.refl (m₀ : Memory) (offset stop : Nat) : Settled m₀ offset stop m₀ := fun _ => .inl rfl

theorem Settled.storeWrite {m₀ m : Memory} {offset stop : Nat} {data : List UInt8}
    (h : Settled m₀ offset stop m) (hblock : 0 < this.attributes.eraseBlockSize)
    (hstop : this.attributes.eraseBlockSize ∣ stop) (hle : offset + data.length ≤ stop)
    (hholds : Holds m₀ offset data) :
    Settled m₀ (offset + data.length) stop (storeWrite this m offset data) := by
  have herased : Settled m₀ offset stop (if offset % this.attributes.eraseBlockSize = 0 then
      erase m offset ((data.length + this.attributes.eraseBlockSize - 1) /
        this.attributes.eraseBlockSize * this.attributes.eraseBlockSize)
      else m) := by
    split
    next hmod =>
      have hend := blocks_le hblock (Nat.dvd_of_mod_eq_zero hmod) hstop hle
      intro a
      unfold erase
      split
      next hin => exact .inr ⟨hin.1, by omega, rfl⟩
      next => exact h a
    next => exact h
  unfold FwImage.storeWrite
  simp only
  intro a
  by_cases hin : offset ≤ a ∧ a < offset + data.length
  · left
    obtain ⟨i, rfl⟩ := Nat.exists_eq_add_of_le hin.1
    have hi : i < data.length := by omega
    have hbyte := (holds_iff _ _ _).mp hholds i hi
    rw [program_inside _ _ _ i hi, ← hbyte]
    obtain heq | ⟨-, -, heq⟩ := herased (offset + i)
    · rw [heq, UInt8.and_self]
    · rw [heq, erasedByte_and]
  · rw [program_outside _ _ _ a (by omega)]
    obtain heq | ⟨hlo, hhi, heq⟩ := herased a
    · exact .inl heq
    · exact .inr ⟨by omega, hhi, heq⟩

theorem fwImageWrite_eq {partition : Part} {offset : Nat} {data : List UInt8}
    {storage : Part → Memory} (hwrite : writePartition this flags = some partition)
    (hin : offset + data.length ≤ this.bytes partition) (hlt : offset + data.length < 2 ^ 64)
    (hallowed : this.refusesWrite partition = false) :
    fwImageWrite this offset data flags storage = (.success, fun p =>
      if p = partition then storeWrite this (storage p) offset data else storage p) := by
  have hcheck : fwImageCheckOffsetAndBytes (this.bytes partition) offset data.length = .success := by
    unfold fwImageCheckOffsetAndBytes fwPartitionCheckOffsetAndBytes
    rw [u64, Nat.mod_eq_of_lt hlt, if_neg (by omega)]
  unfold fwImageWrite
  rw [hwrite]
  simp only [hcheck, EfiStatus.isError_success, Bool.false_eq_true, if_false, hallowed]

theorem writeLoop_settled {partition : Part} {m₀ : Memory} {stop offset : Nat} {data : List UInt8}
    {storage : Part → Memory} (hwrite : writePartition this flags = some partition)
    (hblock : 0 < this.attributes.eraseBlockSize) (hstop : this.attributes.eraseBlockSize ∣ stop)
    (hle : offset + data.length ≤ stop) (hin : offset + data.length ≤ this.bytes partition)
    (hlt : offset + data.length < 2 ^ 64) (hholds : Holds m₀ offset data)
    (hallowed : this.refusesWrite partition = false)
    (h : Settled m₀ offset stop (storage partition)) :
    Settled m₀ (offset + data.length) stop
        ((writeLoop this flags offset data storage).2 partition) ∧
      ∀ p, p ≠ partition → (writeLoop this flags offset data storage).2 p = storage p := by
  fun_induction writeLoop this flags offset data storage with
  | case1 offset storage => exact ⟨h, fun p hp => rfl⟩
  | case2 offset data storage hne status storage' hwritten herror =>
    have hlen : (data.take fmpWriteLoopSize).length ≤ data.length := List.length_take_le' _ _
    rw [fwImageWrite_eq hwrite (by omega) (by omega) hallowed] at hwritten
    cases hwritten
    cases herror
  | case3 offset data storage hne status storage' hwritten herror ih =>
    have hlen : (data.take fmpWriteLoopSize).length ≤ data.length := List.length_take_le' _ _
    have hsum : (data.take fmpWriteLoopSize).length + (data.drop fmpWriteLoopSize).length = data.length := by
      rw [← List.length_append, List.take_append_drop]
    rw [fwImageWrite_eq hwrite (by omega) (by omega) hallowed] at hwritten
    cases hwritten
    rw [← List.take_append_drop fmpWriteLoopSize data, holds_append] at hholds
    have hstep := h.storeWrite hblock hstop (by omega) hholds.1
    obtain ⟨hpartition, hothers⟩ := ih (by omega) (by omega) (by omega) hholds.2
      (by simpa only [if_true] using hstep)
    rw [Nat.add_assoc, hsum] at hpartition
    refine ⟨hpartition, fun p hp => ?_⟩
    rw [hothers p hp]
    exact if_neg hp

/-- A write that the partition refuses, or that there is no partition for, changes nothing. -/
theorem writeLoop_refused (hrefused : ∀ partition, writePartition this flags = some partition →
      this.refusesWrite partition = true) (offset : Nat) (data : List UInt8)
    (storage : Part → Memory) : (writeLoop this flags offset data storage).2 = storage := by
  have hnone : ∀ (offset : Nat) (data : List UInt8),
      (fwImageWrite this offset data flags storage).2 = storage ∧
        (fwImageWrite this offset data flags storage).1.isError = true := by
    intro offset data
    unfold fwImageWrite
    split
    next => exact ⟨rfl, rfl⟩
    next partition hpartition =>
      simp only
      split
      next herror => exact ⟨rfl, herror⟩
      next =>
        rw [if_pos (hrefused partition hpartition)]
        exact ⟨rfl, rfl⟩
  rw [writeLoop]
  split
  next => rfl
  next =>
    simp only
    rw [if_pos (hnone _ _).2]
    exact (hnone _ _).1

/-! The decision. -/

/-- The erase blocks are of a size `ALIGN_VALUE` aligns to, or there are none. -/
def Blocks (this : Protocol) : Prop :=
  this.attributes.eraseBlockSize = 0 ∨ ∃ k < 32, this.attributes.eraseBlockSize = 2 ^ k

theorem compareImageToBuffer_told {fuel : Nat} {data : List UInt8}
    (hspace : data.length + bufferSize ≤ 2 ^ 64)
    (h : compareImageToBuffer this bufferSize fuel data flags state = some ((status, outcome), state')) :
    Told state state' status outcome (data = [] ∨ ∃ partition,
      readPartition this flags = some partition ∧ Holds (state.storage partition) 0 data ∧
        0 + data.length ≤ this.bytes partition) := by
  unfold compareImageToBuffer at h
  split at h
  next =>
    cases h
    exact ⟨rfl, .inl, fun hf => by cases hf⟩
  next => exact compareLoop_told fuel 0 data hspace h

theorem checkLastBlockTailAllFf_told {fuel imageBytes : Nat}
    (h : checkLastBlockTailAllFf this bufferSize fuel imageBytes flags state =
      some ((status, outcome), state')) :
    Told state state' status outcome (this.attributes.eraseBlockSize ≠ 0 ∧ imageBytes ≤ 2 ^ 64 ∧
      ∀ partition, readPartition this flags = some partition →
        Blank (state.storage partition) imageBytes
          (alignValue imageBytes this.attributes.eraseBlockSize - imageBytes)) := by
  unfold checkLastBlockTailAllFf at h
  split at h
  next =>
    cases h
    exact ⟨rfl, .inl, fun hf => by cases hf⟩
  next =>
    split at h
    next =>
      cases h
      exact ⟨rfl, .inl, fun hf => by cases hf⟩
    next hblock =>
      split at h
      next =>
        cases h
        exact ⟨rfl, .inl, fun hf => by cases hf⟩
      next hguard =>
        simp only at h
        split at h
        next hzero =>
          cases h
          refine ⟨rfl, .inl, fun _ => ⟨rfl, hblock, by omega, fun p hp a ha hlt => ?_⟩⟩
          omega
        next =>
          obtain ⟨hstorage, hproblem, hfound⟩ := tailLoop_told fuel _ _ h
          exact ⟨hstorage, hproblem, fun ho => ⟨(hfound ho).1, hblock, by omega, (hfound ho).2⟩⟩

/-- What is known when the decision is made: nothing was written, a problem with a read leaves the
write in, and when it is left out it would change nothing. -/
theorem skipsWrite_told {fuel : Nat} {data : List UInt8} {skips : Bool} (hblocks : Blocks this)
    (hbuffer : 0 < bufferSize) (hspace : data.length + bufferSize ≤ 2 ^ 64)
    (h : skipsWrite this bufferSize fuel data flags state = some (skips, state')) :
    state'.storage = state.storage ∧
      (state'.readProblem = true → state.readProblem = true ∨ skips = false) ∧
      (skips = true → (writeImageFromBuffer this data flags state.storage).2 = state.storage) := by
  unfold skipsWrite at h
  split at h
  next => cases h
  next status₁ matches₁ state₁ hcompare =>
    obtain ⟨hstorage, hproblem, hfound⟩ := compareImageToBuffer_told hspace hcompare
    split at h
    next hmatch =>
      rw [Bool.and_eq_true, Bool.not_eq_true'] at hmatch
      split at h
      next => cases h
      next status₂ tail₂ state₂ htail =>
        cases h
        obtain ⟨hstorage', hproblem', hfound'⟩ := checkLastBlockTailAllFf_told htail
        refine ⟨hstorage'.trans hstorage, fun hp => ?_, fun hskips => ?_⟩
        · cases hproblem' hp with
          | inl hp =>
            cases hproblem hp with
            | inl hp => exact .inl hp
            | inr herror =>
              rw [hmatch.1] at herror
              cases herror
          | inr herror =>
            rw [herror]
            exact .inr rfl
        · rw [Bool.and_eq_true] at hskips
          obtain ⟨-, hne, hsize, hblank⟩ := hfound' hskips.2
          obtain ⟨k, hk, hpow⟩ := hblocks.resolve_left hne
          cases (hfound hmatch.2).2 with
          | inl hnil =>
            rw [hnil, writeImageFromBuffer, writeLoop, dif_pos rfl]
          | inr hthere =>
            obtain ⟨partition, hpartition, hholds, hin⟩ := hthere
            have hwrite : writePartition this flags = some partition := by
              rw [← readPartition_eq, hpartition]
            cases hallowed : this.refusesWrite partition with
            | true =>
              refine writeLoop_refused (fun p hp => ?_) 0 data state.storage
              rw [hwrite] at hp
              cases hp
              exact hallowed
            | false =>
              have hdvd : this.attributes.eraseBlockSize ∣
                  alignValue data.length this.attributes.eraseBlockSize := by
                rw [hpow]
                exact dvd_alignValue hk hsize
              have hle := le_alignValue data.length this.attributes.eraseBlockSize
              obtain ⟨hsettled, hothers⟩ := writeLoop_settled hwrite (Nat.pos_of_ne_zero hne) hdvd
                (by omega) hin (by omega) hholds hallowed (.refl _ 0 _)
              have htailBlank := hblank partition hpartition
              rw [hstorage] at htailBlank
              funext p
              by_cases hp : p = partition
              · subst hp
                funext a
                obtain heq | ⟨hlo, hhi, heq⟩ := hsettled a
                · exact heq
                · exact heq.trans (htailBlank a (by omega) (by omega)).symm
              · exact hothers p hp
    next =>
      cases h
      exact ⟨hstorage, fun hp => (hproblem hp).imp_right fun _ => rfl, fun hf => by cases hf⟩

theorem skipsWrite_returns (this : Protocol) (data : List UInt8) (flags : Nat) (state : State)
    {fuel : Nat} (hbuffer : 0 < bufferSize)
    (hfuel : data.length + 2 ^ 32 ≤ fuel) :
    ∃ skips state', skipsWrite this bufferSize fuel data flags state = some (skips, state') := by
  have hcompare : (compareImageToBuffer this bufferSize fuel data (readFlagsOf flags) state).isSome := by
    unfold compareImageToBuffer
    split
    next => rfl
    next => exact compareLoop_returns hbuffer fuel 0 data (by omega)
  have htail : ∀ state, (checkLastBlockTailAllFf this bufferSize fuel data.length (readFlagsOf flags)
      state).isSome := by
    intro state
    unfold checkLastBlockTailAllFf
    split
    next => rfl
    next =>
      split
      next => rfl
      next =>
        split
        next => rfl
        next =>
          simp only
          split
          next => rfl
          next =>
            refine tailLoop_returns hbuffer fuel _ _ ?_
            have hmask : (2 ^ 64 + this.attributes.eraseBlockSize - data.length) % 2 ^ 64 &&&
                (this.attributes.eraseBlockSize + (2 ^ 32 - 1)) % 2 ^ 32 < 2 ^ 32 :=
              Nat.lt_of_le_of_lt Nat.and_le_right (Nat.mod_lt _ (by decide))
            rw [alignValue, Nat.add_sub_cancel_left]
            omega
  obtain ⟨⟨⟨status, outcome⟩, state₁⟩, heq⟩ := Option.isSome_iff_exists.mp hcompare
  unfold skipsWrite
  rw [heq]
  simp only
  split
  next =>
    obtain ⟨⟨⟨status₂, outcome₂⟩, state₂⟩, heq₂⟩ := Option.isSome_iff_exists.mp (htail state₁)
    rw [heq₂]
    exact ⟨_, _, rfl⟩
  next => exact ⟨_, _, rfl⟩

/-- The update of an image returns and leaves the partitions as the unconditional write does. -/
def LeavesTheSame (this : Protocol) (bufferSize : Nat) (dataBuffer : List UInt8) (flags : Nat)
    (state : State) : Prop :=
  ∃ fuel status state', writeImage this bufferSize fuel dataBuffer flags state = some (status, state') ∧
    state'.storage = (writeImageFromBuffer this dataBuffer flags state.storage).2

/-- A read that returned an error in front of the decision leaves the write in, and the write is
left out only where it would change nothing. -/
def SkipsOnlyThen (this : Protocol) (bufferSize : Nat) (dataBuffer : List UInt8) (flags : Nat)
    (state : State) : Prop :=
  ∀ fuel state', skipsWrite this bufferSize fuel dataBuffer flags state = some (true, state') →
    (state'.readProblem = true → state.readProblem = true) ∧
      (writeImageFromBuffer this dataBuffer flags state.storage).2 = state.storage

/-- The comparison in front of a write does not show in what the write leaves. -/
theorem writeImage_unconditional (this : Protocol) (bufferSize : Nat) (dataBuffer : List UInt8)
    (flags : Nat) (state : State) (hblocks : Blocks this) (hbuffer : 0 < bufferSize)
    (hspace : dataBuffer.length + bufferSize ≤ 2 ^ 64) :
    LeavesTheSame this bufferSize dataBuffer flags state ∧
      SkipsOnlyThen this bufferSize dataBuffer flags state := by
  refine ⟨⟨dataBuffer.length + 2 ^ 32, ?_⟩, fun fuel state' hskips => ?_⟩
  · unfold writeImage
    split
    next =>
      obtain ⟨skips, state', heq⟩ := skipsWrite_returns this dataBuffer flags state hbuffer
        (Nat.le_refl _)
      obtain ⟨hstorage, -, hsame⟩ := skipsWrite_told hblocks hbuffer hspace heq
      rw [heq]
      cases skips with
      | true => exact ⟨_, _, rfl, hstorage.trans (hsame rfl).symm⟩
      | false =>
        refine ⟨_, _, rfl, ?_⟩
        rw [← hstorage]
        rfl
    next => exact ⟨_, _, rfl, rfl⟩
  · obtain ⟨-, hproblem, hsame⟩ := skipsWrite_told hblocks hbuffer hspace hskips
    exact ⟨fun hp => (hproblem hp).resolve_right (by decide), hsame rfl⟩

end

/-- One partition of 65536 bytes; no read fails. -/
def sampleImage (blockSize eraseBlockSize : Nat) : Protocol where
  imageName := nameOf "A_bct"
  present p := p == .a
  bImageIsActive := false
  bytes _ := 65536
  attributes := ⟨blockSize, eraseBlockSize⟩
  getAttributesFails := false
  readFails _ := false
  refusesWrite _ := false

def sampleState : State := ⟨fun _ _ => 0, 0, false⟩

theorem writeImage_sample : LeavesTheSame (sampleImage 1 4096) 4096 [0, 0] 0 sampleState ∧
    SkipsOnlyThen (sampleImage 1 4096) 4096 [0, 0] 0 sampleState :=
  writeImage_unconditional (sampleImage 1 4096) 4096 [0, 0] 0 sampleState
    (.inr ⟨12, by decide, rfl⟩) (by decide) (by decide)

theorem compareLoop_empty_buffer (fuel : Nat) (state : State) :
    compareLoop (sampleImage 1 4096) 0 1 readInactiveImage fuel 0 [0] state = none := by
  induction fuel generalizing state with
  | zero => rfl
  | succ fuel ih =>
    -- a pass of no byte: it reads nothing and leaves all of the data to compare
    have hpass : compareLoop (sampleImage 1 4096) 0 1 readInactiveImage (fuel + 1) 0 [0] state =
        compareLoop (sampleImage 1 4096) 0 1 readInactiveImage fuel 0 [0]
          { state with reads := state.reads + 1 } := rfl
    exact hpass.trans (ih { state with reads := state.reads + 1 })

/-- Blocks of three bytes, of which an image of two ends with the first one: the tail is taken for
empty, and what stands there stays. -/
theorem skips_short_tail (fuel : Nat) :
    (writeImage (sampleImage 1 3) 4096 fuel [0, 0] 0 sampleState).all fun r =>
      r.2.storage .a 2 = 0 := by
  match fuel with
  | 0 => rfl
  | 1 => rfl
  | fuel + 2 => rfl

theorem writes_tail : (writeImageFromBuffer (sampleImage 1 3) [0, 0] 0 sampleState.storage).2 .a 2 =
    0xFF := by
  have hwrite : fwImageWrite (sampleImage 1 3) 0 ([0, 0].take fmpWriteLoopSize) 0 sampleState.storage =
      (.success, fun p => if p = .a then storeWrite (sampleImage 1 3) (sampleState.storage p) 0
        ([0, 0].take fmpWriteLoopSize) else sampleState.storage p) :=
    fwImageWrite_eq rfl (by decide) (by decide) rfl
  rw [writeImageFromBuffer, writeLoop, dif_neg (by decide), hwrite]
  simp only [EfiStatus.isError_success, Bool.false_eq_true, if_false]
  rw [writeLoop, dif_pos (by decide)]
  decide

/-- Neither every block size of the store nor every scratch buffer will do. -/
theorem not_always_the_same :
    ¬ LeavesTheSame (sampleImage 1 3) 4096 [0, 0] 0 sampleState ∧
      ¬ LeavesTheSame (sampleImage 1 4096) 0 [0] 0 sampleState := by
  constructor
  · rintro ⟨fuel, status, state', hrun, hsame⟩
    have hshort := skips_short_tail fuel
    rw [hrun, Option.all_some, decide_eq_true_iff, hsame, writes_tail] at hshort
    exact absurd hshort (by decide)
  · rintro ⟨fuel, status, state', hrun, -⟩
    have hnone : writeImage (sampleImage 1 4096) 0 fuel [0] 0 sampleState = none := by
      have hregular : isRegular (sampleImage 1 4096).imageName = true := by decide
      have hcompare : compareImageToBuffer (sampleImage 1 4096) 0 fuel [0] (readFlagsOf 0) sampleState =
          none := compareLoop_empty_buffer fuel sampleState
      unfold writeImage skipsWrite
      rw [if_pos hregular, hcompare]
    rw [hnone] at hrun
    cases hrun

end FwImage
