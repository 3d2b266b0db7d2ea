import Edk2Nvidia.SequentialRecord.CmetStorage

/-! What a power loss during a write of the CMET record leaves of its two copies. -/
namespace CmetRecord
open Flash SequentialRecord

section
variable {m m' image : Memory} {this : Protocol} {partition : PartitionInfo}

abbrev Protocol.primary (this : Protocol) : Nat := this.cmetRecordReadOffset 1
abbrev Protocol.secondary (this : Protocol) : Nat := this.cmetRecordReadOffset 0

/-- How far behind the start of an erase block the copies stand. -/
def Protocol.skew (this : Protocol) : Nat := this.primary % this.norFlashAttributes.blockSize

theorem Protocol.secondary_eq (this : Protocol) :
    this.secondary = u32 (this.primary + cmetBlockSize) := by
  unfold Protocol.secondary Protocol.primary Protocol.cmetRecordReadOffset
  rw [if_pos rfl, if_neg Nat.one_ne_zero]

theorem Protocol.offset_lt (this : Protocol) (primaryRecord : Nat) :
    this.cmetRecordReadOffset primaryRecord < 2 ^ 32 := by
  unfold Protocol.cmetRecordReadOffset
  split
  · exact Nat.mod_lt _ (by decide)
  · exact Nat.mod_lt _ (by decide)

/-- Where the copies and the blocks erased for them lie. -/
structure Placed (this : Protocol) : Prop where
  primary_lt : this.primary < 2 ^ 32
  secondary : this.secondary = this.primary + 65536 ∨
    this.secondary + 2 ^ 32 = this.primary + 65536
  skew_lt : this.skew < 65536
  skew_le : this.skew ≤ this.primary
  skew_le' : this.skew ≤ this.secondary
  erase_primary : eraseStart this.norFlashAttributes this.primary = this.primary - this.skew
  erase_secondary : eraseStart this.norFlashAttributes this.secondary = this.secondary - this.skew

theorem eraseStart_eq (nor : NorFlash) (offset : Nat) :
    eraseStart nor offset = offset - offset % nor.blockSize := by
  have hsum := Nat.div_add_mod' offset nor.blockSize
  unfold eraseStart
  omega

theorem placed (valid : validatePartitionInfo this.norFlashAttributes partition = .success) :
    Placed this := by
  obtain ⟨hpos, hdvd⟩ := blockSize_dvd valid
  have hsize := cmetBlockSize_eq
  have hlt : this.primary < 2 ^ 32 := this.offset_lt 1
  have hsecond : this.secondary = this.primary + 65536 ∨
      this.secondary + 2 ^ 32 = this.primary + 65536 := by
    rw [this.secondary_eq, u32, hsize]
    omega
  have hmod : this.secondary % this.norFlashAttributes.blockSize = this.skew := by
    rw [hsize] at hdvd
    have hwrap : this.norFlashAttributes.blockSize ∣ 2 ^ 32 := hdvd.trans (by decide)
    have hstep : (this.primary + 65536) % this.norFlashAttributes.blockSize = this.skew := by
      rw [Nat.add_mod, Nat.mod_eq_zero_of_dvd hdvd, Nat.add_zero, Nat.mod_mod, Protocol.skew]
    cases hsecond with
    | inl h => rw [h, hstep]
    | inr h =>
      rw [← hstep, ← h, Nat.add_mod, Nat.mod_eq_zero_of_dvd hwrap, Nat.add_zero, Nat.mod_mod]
  have hskew : this.skew < this.norFlashAttributes.blockSize := Nat.mod_lt _ hpos
  have hle : this.norFlashAttributes.blockSize ≤ 65536 := by
    rw [← hsize]
    exact Nat.le_of_dvd (by omega) hdvd
  refine ⟨hlt, hsecond, by omega, Nat.mod_le _ _, ?_, eraseStart_eq _ _, ?_⟩
  · rw [← hmod]
    exact Nat.mod_le _ _
  · rw [eraseStart_eq, hmod]

theorem length_take_u32 (data : List UInt8) : (data.take (u32 data.length)).length = u32 data.length := by
  rw [List.length_take, Nat.min_eq_left]
  exact Nat.mod_le _ _

/-- The flash behind a pass that went through. -/
def copied (this : Protocol) (inBuf : List UInt8) (offset : Nat) (m : Memory) : Memory :=
  program (Flash.erase m (eraseStart this.norFlashAttributes offset) cmetBlockSize) offset
    (inBuf.take (u32 inBuf.length))

/-- The device takes the erase and the program of a pass. -/
def Writes (this : Protocol) (offset size : Nat) : Prop :=
  Erases this.norFlashAttributes offset ∧ Serves this.norFlashAttributes offset size

theorem wp_writeCopy {inBuf : List UInt8} {offset : Nat} {Q : EfiStatus → Unit → Memory → Prop}
    {C : Memory → Prop} (valid : validatePartitionInfo this.norFlashAttributes partition = .success)
    (hlt : offset < 2 ^ 32) (now : C m)
    (erased : Erases this.norFlashAttributes offset →
      C (Flash.erase m (eraseStart this.norFlashAttributes offset) cmetBlockSize))
    (cut : Writes this offset inBuf.length → ∀ j,
      C (program (Flash.erase m (eraseStart this.norFlashAttributes offset) cmetBlockSize) offset
        ((inBuf.take (u32 inBuf.length)).take j)))
    (done : Writes this offset inBuf.length →
      C (copied this inBuf offset m) ∧ Q .success () (copied this inBuf offset m))
    (failed : ∀ m', C m' → Q .invalidParameter () m') :
    wp true (writeCopy this this.norFlashAttributes inBuf 1 offset) Q C () m := by
  obtain ⟨-, hdvd⟩ := blockSize_dvd valid
  have herr : EfiStatus.invalidParameter.isError = true := rfl
  unfold writeCopy
  rw [if_pos rfl, eraseRecord_eq_ite hdvd hlt, write_eq_ite hlt]
  apply wp_bind
  split
  next he =>
    refine wp_eraseFlash.mpr ⟨now, erased he, ?_⟩
    simp only [EfiStatus.ok_eq, EfiStatus.isError_success, Bool.false_eq_true, if_false]
    split
    next hs =>
      exact wp_writeFlash.mpr ⟨cut ⟨he, hs⟩, (done ⟨he, hs⟩).1, (done ⟨he, hs⟩).2⟩
    next => exact wp_pure.mpr ⟨erased he, failed _ (erased he)⟩
  next =>
    refine wp_pure.mpr ⟨now, ?_⟩
    simp only [herr, if_true]
    exact wp_pure.mpr ⟨now, failed _ now⟩

/-- The copy is read as `record`. -/
def ReadsBack (this : Protocol) (socketNum primaryRecord : Nat) (m : Memory)
    (record : List UInt8) : Prop :=
  (cmetReadRecord this socketNum record.length primaryRecord ()).run m =
    (some ((.success, record), ()), m)

theorem readsBack_iff {socketNum primaryRecord : Nat} {record : List UInt8} {nor : NorFlash}
    (h : this.flash socketNum = some nor) :
    ReadsBack this socketNum primaryRecord m record ↔
      record.length ≤ 65536 ∧
      Serves this.norFlashAttributes (this.cmetRecordReadOffset primaryRecord) record.length ∧
      Holds m (this.cmetRecordReadOffset primaryRecord) record := by
  obtain ⟨hsocket, hsome, rfl⟩ := Protocol.flash_eq h
  have hlt := this.offset_lt primaryRecord
  unfold ReadsBack cmetReadRecord
  rw [cmetBlockSize_eq, if_neg hsocket]
  split
  next hsize =>
    refine ⟨fun hrun => ?_, fun hread => by omega⟩
    cases hrun
  next hsize =>
    simp only [hsome, read_eq_ite hlt]
    rw [u32_of_lt (show record.length < 2 ^ 32 by omega)]
    split
    next hs =>
      constructor
      · intro hrun
        have hslice : slice m (this.cmetRecordReadOffset primaryRecord) record.length = record := by
          simpa [readFlash, Prog.run] using hrun
        exact ⟨by omega, hs, hslice⟩
      · intro hread
        show (some ((EfiStatus.success, slice m _ record.length), ()), m) = _
        rw [hread.2.2]
    next hs =>
      refine ⟨fun hrun => ?_, fun hread => absurd hread.2.1 hs⟩
      cases hrun

theorem ReadsBack.congr {socketNum primaryRecord : Nat} {record : List UInt8} {nor : NorFlash}
    (h : this.flash socketNum = some nor) (hread : ReadsBack this socketNum primaryRecord m record)
    (same : ∀ a, this.cmetRecordReadOffset primaryRecord ≤ a →
      a < this.cmetRecordReadOffset primaryRecord + record.length → m' a = m a) :
    ReadsBack this socketNum primaryRecord m' record := by
  rw [readsBack_iff h] at hread ⊢
  exact ⟨hread.1, hread.2.1, hread.2.2.congr same⟩

/-- The request the handler passes on as a write with an erase. -/
def eraseAndWrite (this : Protocol) (socketNum : Nat) (inBuf : List UInt8) :
    CmetM (EfiStatus × List UInt8) :=
  cmetMsgHandler (some this) true ⟨writeNextRecordFunction, socketNum, 1, inBuf⟩

/-- When both copies are read as `old`, one of them is read as `old` or as what the request
writes, wherever power is lost. -/
def KeepsACopy (this : Protocol) (socketNum bufSize : Nat) : Prop :=
  ∀ (old inBuf : List UInt8) (m image : Memory), inBuf.length = bufSize →
    ReadsBack this socketNum 1 m old → ReadsBack this socketNum 0 m old →
    (eraseAndWrite this socketNum inBuf ()).PowerLoss m image →
    ∃ primaryRecord, ReadsBack this socketNum primaryRecord image old ∨
      ReadsBack this socketNum primaryRecord image inBuf

/-- Every program goes to one of the copies and stays in its 64 KB. -/
def StaysInside (this : Protocol) (socketNum bufSize : Nat) : Prop :=
  ∀ (inBuf : List UInt8) (m : Memory) (offset : Nat) (data : List UInt8), inBuf.length = bufSize →
    .write offset data ∈ commands (eraseAndWrite this socketNum inBuf) () m →
    ∃ primaryRecord, offset = this.cmetRecordReadOffset primaryRecord ∧
      data.length ≤ cmetBlockSize

/-- The size of a request leaves both copies apart: it is refused behind the first erase at the
latest, or what the flash takes of it fits into 64 KB and does not reach over the end of the
blocks erased for the primary copy, where the erase for the secondary one starts. -/
def SizeFits (this : Protocol) (bufSize : Nat) : Prop :=
  ¬ Writes this this.primary bufSize ∨
    u32 bufSize ≤ cmetBlockSize ∧
      (bufSize + this.skew ≤ cmetBlockSize ∨ ¬ Erases this.norFlashAttributes this.secondary ∨
        ∀ size ≤ cmetBlockSize, ¬ (Serves this.norFlashAttributes this.primary size ∧
          Serves this.norFlashAttributes this.secondary size))

theorem eraseAndWrite_eq {socketNum : Nat} {inBuf : List UInt8} {nor : NorFlash}
    (h : this.flash socketNum = some nor) :
    eraseAndWrite this socketNum inBuf =
      writeCopies this this.norFlashAttributes inBuf 1 2 this.primary >>= fun status =>
        pure (status, inBuf) := by
  obtain ⟨hsocket, hsome, rfl⟩ := Protocol.flash_eq h
  have hfun : ¬ writeNextRecordFunction = readLastRecordFunction := by decide
  unfold eraseAndWrite cmetMsgHandler cmetWriteRecord Protocol.primary Protocol.cmetRecordReadOffset
  simp only [if_true, hfun, if_false, if_neg hsocket, hsome, numCmetRecords, one_ne_zero]

theorem eraseAndWrite_none {socketNum : Nat} (inBuf : List UInt8)
    (h : this.flash socketNum = none) :
    ∃ status, eraseAndWrite this socketNum inBuf = pure (status, inBuf) := by
  have hfun : ¬ writeNextRecordFunction = readLastRecordFunction := by decide
  unfold Protocol.flash at h
  unfold eraseAndWrite cmetMsgHandler cmetWriteRecord
  simp only [if_true, hfun, if_false]
  split at h
  next hlt =>
    rw [if_neg (Nat.not_le.mpr hlt), h]
    exact ⟨_, rfl⟩
  next hge =>
    rw [if_pos (Nat.not_lt.mp hge)]
    exact ⟨_, rfl⟩

theorem writeCopies_succ (inBuf : List UInt8) (records offset : Nat) :
    writeCopies this this.norFlashAttributes inBuf 1 (records + 1) offset =
      writeCopy this this.norFlashAttributes inBuf 1 offset >>= fun status =>
        if status.isError then pure status
        else writeCopies this this.norFlashAttributes inBuf 1 records
          (u32 (offset + cmetBlockSize)) := rfl

theorem writeCopy_writes {inBuf : List UInt8} {offset : Nat}
    (valid : validatePartitionInfo this.norFlashAttributes partition = .success)
    (hlt : offset < 2 ^ 32) (h : Writes this offset inBuf.length) :
    (writeCopy this this.norFlashAttributes inBuf 1 offset ()).run m =
        (some (.success, ()), copied this inBuf offset m) ∧
      commands (writeCopy this this.norFlashAttributes inBuf 1 offset) () m =
        [.erase (eraseStart this.norFlashAttributes offset) cmetBlockSize,
          .write offset (inBuf.take (u32 inBuf.length))] := by
  obtain ⟨-, hdvd⟩ := blockSize_dvd valid
  unfold writeCopy
  rw [if_pos rfl, eraseRecord_eq_ite hdvd hlt, if_pos h.1, write_eq_ite hlt, if_pos h.2]
  exact ⟨rfl, rfl⟩

theorem writeCopy_refused {inBuf : List UInt8} {offset : Nat}
    (valid : validatePartitionInfo this.norFlashAttributes partition = .success)
    (hlt : offset < 2 ^ 32) (h : ¬ Writes this offset inBuf.length) :
    ∃ m', (writeCopy this this.norFlashAttributes inBuf 1 offset ()).run m =
        (some (.invalidParameter, ()), m') ∧
      ∀ at' data, .write at' data ∉
        commands (writeCopy this this.norFlashAttributes inBuf 1 offset) () m := by
  obtain ⟨-, hdvd⟩ := blockSize_dvd valid
  unfold writeCopy
  rw [if_pos rfl, eraseRecord_eq_ite hdvd hlt]
  split
  next he =>
    rw [write_eq_ite hlt, if_neg fun hs => h ⟨he, hs⟩]
    refine ⟨_, rfl, fun at' data hmem => ?_⟩
    have hone : .write at' data ∈ [Command.erase (eraseStart this.norFlashAttributes offset)
        cmetBlockSize] := hmem
    cases List.mem_singleton.mp hone
  next =>
    refine ⟨m, rfl, fun at' data hmem => ?_⟩
    cases hmem

/-- The programs of a request: none when the pass of the primary copy is refused. -/
theorem mem_commands {socketNum : Nat} (inBuf : List UInt8) (m : Memory) {nor : NorFlash}
    (valid : validatePartitionInfo this.norFlashAttributes partition = .success)
    (h : this.flash socketNum = some nor) :
    (Writes this this.primary inBuf.length →
      .write this.primary (inBuf.take (u32 inBuf.length)) ∈
        commands (eraseAndWrite this socketNum inBuf) () m) ∧
    ∀ offset data, .write offset data ∈ commands (eraseAndWrite this socketNum inBuf) () m →
      Writes this this.primary inBuf.length ∧ data = inBuf.take (u32 inBuf.length) ∧
        (offset = this.primary ∨ offset = this.secondary) := by
  rw [eraseAndWrite_eq h, commands_bind_pure, writeCopies_succ, ← this.secondary_eq]
  by_cases hw : Writes this this.primary inBuf.length
  · obtain ⟨hrun, hcommands⟩ := writeCopy_writes (m := m) valid (this.offset_lt 1) hw
    rw [commands_bind_some hrun, hcommands]
    refine ⟨fun _ => by simp, fun offset data hmem => ⟨hw, ?_⟩⟩
    simp only [EfiStatus.isError_success, Bool.false_eq_true, if_false, writeCopies_succ,
      List.mem_append, List.mem_cons, reduceCtorEq, Command.write.injEq, List.not_mem_nil, or_false,
      false_or] at hmem
    rcases hmem with ⟨rfl, rfl⟩ | hmem
    · exact ⟨rfl, .inl rfl⟩
    by_cases hs : Writes this this.secondary inBuf.length
    · obtain ⟨hrun, hcommands⟩ := writeCopy_writes (m := copied this inBuf this.primary m) valid
        (this.offset_lt 0) hs
      rw [commands_bind_some hrun, hcommands] at hmem
      simp only [EfiStatus.isError_success, Bool.false_eq_true, if_false, writeCopies,
        commands_pure, List.append_nil, List.mem_cons, reduceCtorEq, Command.write.injEq,
        List.not_mem_nil, or_false, false_or] at hmem
      exact ⟨hmem.2, .inr hmem.1⟩
    · obtain ⟨m', hrun, hnone⟩ := writeCopy_refused (m := copied this inBuf this.primary m) valid
        (this.offset_lt 0) hs
      rw [commands_bind_some hrun, List.mem_append] at hmem
      cases hmem with
      | inl hmem => exact absurd hmem (hnone offset data)
      | inr hmem => cases hmem
  · obtain ⟨m', hrun, hnone⟩ := writeCopy_refused (m := m) valid (this.offset_lt 1) hw
    rw [commands_bind_some hrun]
    refine ⟨fun h => absurd h hw, fun offset data hmem => ?_⟩
    cases List.mem_append.mp hmem with
    | inl hmem => exact absurd hmem (hnone offset data)
    | inr hmem => cases hmem

theorem keepsACopy_of_sizeFits {socketNum bufSize : Nat} {nor : NorFlash}
    (valid : validatePartitionInfo this.norFlashAttributes partition = .success)
    (h : this.flash socketNum = some nor) (fits : SizeFits this bufSize) :
    KeepsACopy this socketNum bufSize := by
  intro old inBuf m image hlen hprimary hsecondary hlost
  subst hlen
  obtain ⟨hplt, hsecond, hskew, -, -, hep, hes⟩ := placed valid
  have hsize := cmetBlockSize_eq
  obtain ⟨hold, hps, -⟩ := (readsBack_iff h).mp hprimary
  obtain ⟨-, hss, -⟩ := (readsBack_iff h).mp hsecondary
  -- what leaves the secondary copy alone
  have secondaryOld : ∀ m', (∀ a, this.secondary ≤ a → a < this.secondary + 65536 → m' a = m a) →
      ∃ primaryRecord, ReadsBack this socketNum primaryRecord m' old ∨
        ReadsBack this socketNum primaryRecord m' inBuf := fun m' same =>
    ⟨0, .inl (hsecondary.congr h fun a ha hb => same a ha
      (Nat.lt_of_lt_of_le hb (Nat.add_le_add_left hold _)))⟩
  have erasedSame : ∀ a, this.secondary ≤ a → a < this.secondary + 65536 →
      Flash.erase m (eraseStart this.norFlashAttributes this.primary) cmetBlockSize a = m a := by
    intro a ha hb
    rw [hep, hsize]
    exact erase_outside _ _ _ _ (by omega)
  have hfit : Writes this this.primary inBuf.length → u32 inBuf.length ≤ 65536 ∧
      (inBuf.length + this.skew ≤ 65536 ∨ ¬ Erases this.norFlashAttributes this.secondary) := by
    intro hw
    rw [SizeFits, hsize] at fits
    obtain hno | ⟨hlen, hbehind⟩ := fits
    · exact absurd hw hno
    · refine ⟨hlen, ?_⟩
      rcases hbehind with hbehind | hbehind | hnone
      · exact .inl hbehind
      · exact .inr hbehind
      · exact absurd ⟨hps, hss⟩ (hnone old.length hold)
  have programSame : ∀ data : List UInt8, data.length ≤ 65536 → ∀ a, this.secondary ≤ a →
      a < this.secondary + 65536 →
      program (Flash.erase m (eraseStart this.norFlashAttributes this.primary) cmetBlockSize)
        this.primary data a = m a := by
    intro data hdata a ha hb
    rw [program_outside _ _ _ _ (by omega), erasedSame a ha hb]
  have htake := length_take_u32 inBuf
  rw [eraseAndWrite_eq h] at hlost
  suffices hwp : wp true (writeCopies this this.norFlashAttributes inBuf 1 2 this.primary >>=
      fun status => pure (status, inBuf)) (fun _ _ _ => True)
      (fun image => ∃ primaryRecord, ReadsBack this socketNum primaryRecord image old ∨
        ReadsBack this socketNum primaryRecord image inBuf) () m from wp_powerLoss hwp hlost
  refine wp_bind ?_
  rw [writeCopies_succ, ← this.secondary_eq]
  refine wp_bind (wp_writeCopy valid hplt (secondaryOld m fun _ _ _ => rfl)
    (fun _ => secondaryOld _ erasedSame) ?_ ?_ ?_)
  · intro hw j
    refine secondaryOld _ (programSame _ ?_)
    rw [List.length_take]
    have := (hfit hw).1
    omega
  · intro hw
    have hcopied := secondaryOld _ (programSame (inBuf.take (u32 inBuf.length))
      (by rw [htake]; exact (hfit hw).1))
    refine ⟨hcopied, ?_⟩
    simp only [EfiStatus.isError_success, Bool.false_eq_true, if_false, writeCopies_succ]
    -- from here on the primary copy is new
    have primaryNew : inBuf.length + this.skew ≤ 65536 → ∀ m',
        (∀ a, this.primary ≤ a → a < this.primary + inBuf.length →
          m' a = copied this inBuf this.primary m a) →
        ∃ primaryRecord, ReadsBack this socketNum primaryRecord m' old ∨
          ReadsBack this socketNum primaryRecord m' inBuf := by
      intro hle m' same
      have hwhole : inBuf.take (u32 inBuf.length) = inBuf := by
        rw [u32_of_lt (by omega), List.take_length]
      refine ⟨1, .inr ((readsBack_iff h).mpr ⟨by omega, hw.2, ?_⟩)⟩
      refine Holds.congr ?_ same
      unfold copied
      rw [hwhole]
      refine holds_program (Blank.permits ((blank_erase _ _ _).sub ?_ ?_))
      · rw [hep]
        omega
      · rw [hep, hsize]
        omega
    have apart : Erases this.norFlashAttributes this.secondary →
        inBuf.length + this.skew ≤ 65536 := fun he => (hfit hw).2.resolve_right (not_not_intro he)
    have erasedNew : inBuf.length + this.skew ≤ 65536 → ∀ a, this.primary ≤ a →
        a < this.primary + inBuf.length →
        Flash.erase (copied this inBuf this.primary m)
          (eraseStart this.norFlashAttributes this.secondary) cmetBlockSize a =
          copied this inBuf this.primary m a := by
      intro hle a ha hb
      rw [hes, hsize]
      exact erase_outside _ _ _ _ (by omega)
    have programNew : inBuf.length + this.skew ≤ 65536 → ∀ data : List UInt8,
        data.length ≤ 65536 → ∀ a, this.primary ≤ a → a < this.primary + inBuf.length →
        program (Flash.erase (copied this inBuf this.primary m)
          (eraseStart this.norFlashAttributes this.secondary) cmetBlockSize) this.secondary data a =
          copied this inBuf this.primary m a := by
      intro hle data hdata a ha hb
      rw [program_outside _ _ _ _ (by omega), erasedNew hle a ha hb]
    refine wp_bind (wp_writeCopy valid (this.offset_lt 0) hcopied
      (fun he => primaryNew (apart he) _ (erasedNew (apart he))) ?_ ?_ ?_)
    · intro hs j
      refine primaryNew (apart hs.1) _ (programNew (apart hs.1) _ ?_)
      rw [List.length_take]
      have := (hfit hw).1
      omega
    · intro hs
      have hdone := primaryNew (apart hs.1) _ (programNew (apart hs.1)
        (inBuf.take (u32 inBuf.length)) (by rw [htake]; exact (hfit hw).1))
      exact ⟨hdone, wp_pure.mpr ⟨hdone, wp_pure.mpr ⟨hdone, trivial⟩⟩⟩
    · intro m' hm'
      exact wp_pure.mpr ⟨hm', wp_pure.mpr ⟨hm', trivial⟩⟩
  · intro m' hm'
    exact wp_pure.mpr ⟨hm', wp_pure.mpr ⟨hm', trivial⟩⟩

/-- A request that reaches over the blocks erased for the primary copy: the erase for the
secondary one leaves neither copy readable. -/
theorem not_keepsACopy {socketNum size : Nat} {nor : NorFlash} {bufSize : Nat}
    (valid : validatePartitionInfo this.norFlashAttributes partition = .success)
    (h : this.flash socketNum = some nor) (hw : Writes this this.primary bufSize)
    (hover : 65536 < bufSize + this.skew) (he : Erases this.norFlashAttributes this.secondary)
    (hsize : size ≤ 65536) (hp : Serves this.norFlashAttributes this.primary size)
    (hs : Serves this.norFlashAttributes this.secondary size) :
    ¬ KeepsACopy this socketNum bufSize := by
  intro keeps
  obtain ⟨hplt, hsecond, hskew, hle, hle', hep, hes⟩ := placed valid
  have hblock := cmetBlockSize_eq
  have hlen : (List.replicate bufSize (1 : UInt8)).length = bufSize := List.length_replicate
  have hpos : 0 < size := by
    refine Nat.pos_of_ne_zero fun hzero => hp (.inl ?_)
    rw [hzero]
    rfl
  have hbuf : 0 < u32 bufSize := Nat.pos_of_ne_zero fun hzero => hw.2 (.inl hzero)
  have hbuf' : u32 bufSize ≤ bufSize := Nat.mod_le _ _
  have hold : ∀ primaryRecord, Serves this.norFlashAttributes (this.cmetRecordReadOffset primaryRecord) size →
      ReadsBack this socketNum primaryRecord (fun _ => 0) (List.replicate size 0) := by
    intro primaryRecord hserve
    rw [readsBack_iff h, List.length_replicate]
    refine ⟨hsize, hserve, ?_⟩
    rw [holds_iff]
    intro i hi
    rw [List.getElem_replicate]
  rw [← hlen] at hw
  have hlost : (eraseAndWrite this socketNum (List.replicate bufSize 1) ()).PowerLoss (fun _ => 0)
      (Flash.erase (copied this (List.replicate bufSize 1) this.primary fun _ => 0)
        (eraseStart this.norFlashAttributes this.secondary) cmetBlockSize) := by
    rw [eraseAndWrite_eq h, writeCopies_succ]
    refine powerLoss_bind_left (powerLoss_bind_right (writeCopy_writes valid hplt hw).1 ?_)
    simp only [EfiStatus.isError_success, Bool.false_eq_true, writeCopies_succ,
      ← this.secondary_eq]
    refine powerLoss_bind_left ?_
    obtain ⟨-, hdvd⟩ := blockSize_dvd valid
    unfold writeCopy
    rw [if_pos rfl, eraseRecord_eq_ite hdvd (this.offset_lt 0), if_pos he]
    exact powerLoss_eraseFlash_bind (Prog.powerLoss_now _ _)
  -- the three bytes that tell: the first one of each copy, and the first one behind the erase
  have hfirst : copied this (List.replicate bufSize 1) this.primary (fun _ => 0) this.primary = 1 := by
    have hlt : 0 < ((List.replicate bufSize (1 : UInt8)).take
        (u32 (List.replicate bufSize (1 : UInt8)).length)).length := by
      rw [length_take_u32, hlen]
      exact hbuf
    have hbyte := program_inside (Flash.erase (fun _ => 0)
      (eraseStart this.norFlashAttributes this.primary) cmetBlockSize) this.primary _ 0 hlt
    rw [Nat.add_zero, List.getElem_take, List.getElem_replicate,
      erase_inside _ _ _ _ (by omega) (by omega), erasedByte_and] at hbyte
    exact hbyte
  have hbehind : copied this (List.replicate bufSize 1) this.primary (fun _ => 0)
      (this.primary + (65536 - this.skew)) = 0 := by
    unfold copied program
    rw [if_neg (by omega), erase_outside _ _ _ _ (by omega)]
    exact UInt8.zero_and
  have hfirst' : ∀ {m'}, m' = Flash.erase (copied this (List.replicate bufSize 1) this.primary
        fun _ => 0) (eraseStart this.norFlashAttributes this.secondary) cmetBlockSize →
      m' this.primary ≠ 0 ∧ m' (this.primary + (65536 - this.skew)) ≠ 1 ∧
        m' this.secondary = 0xFF := by
    intro m' hm'
    subst hm'
    refine ⟨?_, ?_, erase_inside _ _ _ _ (by omega) (by omega)⟩
    · unfold Flash.erase
      split
      next => decide
      next =>
        rw [hfirst]
        decide
    · unfold Flash.erase
      split
      next => decide
      next =>
        rw [hbehind]
        decide
  obtain ⟨hone, htwo, hthree⟩ := hfirst' rfl
  obtain ⟨primaryRecord, hread⟩ := keeps _ _ _ _ hlen (hold 1 hp) (hold 0 hs) hlost
  have hoffset : this.cmetRecordReadOffset primaryRecord = this.primary ∨
      this.cmetRecordReadOffset primaryRecord = this.secondary := by
    by_cases hzero : primaryRecord = 0
    · exact .inr (congrArg this.cmetRecordReadOffset hzero)
    · refine .inl ?_
      unfold Protocol.primary Protocol.cmetRecordReadOffset
      rw [if_neg hzero, if_neg Nat.one_ne_zero]
  rw [readsBack_iff h, readsBack_iff h, hlen, holds_iff, holds_iff] at hread
  rcases hread with ⟨-, -, hread⟩ | ⟨hfits, -, hread⟩
  · have hbyte := hread 0 (by rw [List.length_replicate]; exact hpos)
    rw [Nat.add_zero, List.getElem_replicate] at hbyte
    cases hoffset with
    | inl hat => exact hone (hat ▸ hbyte)
    | inr hat =>
      rw [hat, hthree] at hbyte
      exact absurd hbyte (by decide)
  · cases hoffset with
    | inl hat =>
      have hbyte := hread (65536 - this.skew) (by rw [hlen]; omega)
      rw [List.getElem_replicate, hat] at hbyte
      exact htwo hbyte
    | inr hat =>
      have hbyte := hread 0 (by rw [hlen]; omega)
      rw [Nat.add_zero, List.getElem_replicate, hat, hthree] at hbyte
      exact absurd hbyte (by decide)

/-- A request keeps a copy whatever happens to the power, and programs only the copies, exactly
when its size fits. -/
theorem erased_and_written_iff {socketNum bufSize : Nat}
    (valid : validatePartitionInfo this.norFlashAttributes this.partitionInfo = .success) :
    KeepsACopy this socketNum bufSize ∧ StaysInside this socketNum bufSize ↔
      ((this.flash socketNum).isSome → SizeFits this bufSize) := by
  cases h : this.flash socketNum with
  | none =>
    refine iff_of_true ⟨?_, ?_⟩ fun hsome => by cases hsome
    · intro old inBuf m image _ hprimary _ hlost
      obtain ⟨status, heq⟩ := eraseAndWrite_none inBuf h
      rw [heq] at hlost
      have himage : image = m := hlost
      rw [himage]
      exact ⟨1, .inl hprimary⟩
    · intro inBuf m offset data _ hmem
      obtain ⟨status, heq⟩ := eraseAndWrite_none inBuf h
      rw [heq] at hmem
      cases hmem
  | some nor =>
    refine ⟨fun ⟨keeps, inside⟩ _ => ?_, fun fits => ⟨keepsACopy_of_sizeFits valid h (fits rfl), ?_⟩⟩
    · by_cases hw : Writes this this.primary bufSize
      · refine .inr ⟨?_, ?_⟩
        · have hlen : (List.replicate bufSize (1 : UInt8)).length = bufSize := List.length_replicate
          have hmem := (mem_commands (List.replicate bufSize 1) (fun _ => 0) valid h).1
            (by rw [hlen]; exact hw)
          obtain ⟨-, -, hle⟩ := inside _ _ _ _ hlen hmem
          rwa [length_take_u32, hlen] at hle
        · by_contra hno
          rw [not_or, not_or, not_not, Nat.not_le] at hno
          obtain ⟨hover, he, hserves⟩ := hno
          push Not at hserves
          obtain ⟨size, hsize, hp, hs⟩ := hserves
          rw [cmetBlockSize_eq] at hover hsize
          exact not_keepsACopy valid h hw hover he hsize hp hs keeps
      · exact .inl hw
    · intro inBuf m offset data hlen hmem
      obtain ⟨hw, rfl, hat⟩ := (mem_commands inBuf m valid h).2 offset data hmem
      rw [hlen] at hw
      have hle := ((fits rfl).resolve_left (not_not_intro hw)).1
      rw [length_take_u32, hlen]
      cases hat with
      | inl hat => exact ⟨1, hat, hle⟩
      | inr hat => exact ⟨0, hat, hle⟩

end

/-- Two blocks of 64 KB at the start of a 1 MB flash. -/
def sampleFlash : NorFlash := ⟨1048576, 65536⟩

def sampleProtocol : Protocol where
  partitionInfo := ⟨0, 131072⟩
  norFlashProtocol _ := some sampleFlash
  norFlashAttributes := sampleFlash
  same := by
    intro _ nor h
    exact (Option.some.inj h).symm

theorem valid_sample : validatePartitionInfo sampleProtocol.norFlashAttributes
    sampleProtocol.partitionInfo = .success := by
  rw [validatePartitionInfo, cmetBlockSize_eq]
  decide

theorem erased_and_written_sample :
    KeepsACopy sampleProtocol 0 65536 ∧ StaysInside sampleProtocol 0 65536 := by
  refine (erased_and_written_iff valid_sample).mpr fun _ => .inr ⟨?_, .inl ?_⟩
  · rw [cmetBlockSize_eq]
    decide
  · rw [cmetBlockSize_eq]
    decide

/-- One byte more than a copy holds is passed on, and both copies can be lost. -/
theorem oversized_record : ¬ (KeepsACopy sampleProtocol 0 65537 ∧
    StaysInside sampleProtocol 0 65537) := by
  have hprimary : sampleProtocol.primary = 0 := by decide
  have hsecondary : sampleProtocol.secondary = 65536 := by
    rw [Protocol.secondary_eq, hprimary, cmetBlockSize_eq]
    decide
  have herases : ∀ offset ∈ [0, 65536], Erases sampleProtocol.norFlashAttributes offset := by
    unfold Erases
    rw [cmetBlockSize_eq]
    decide
  have hover : 65536 < 65537 + sampleProtocol.skew := by omega
  have hserve : Serves sampleProtocol.norFlashAttributes sampleProtocol.secondary 1 := by
    rw [hsecondary]
    decide
  refine fun h => not_keepsACopy valid_sample rfl ⟨?_, by decide⟩ hover ?_ (by decide) (by decide)
    hserve h.1
  · rw [hprimary]
    exact herases 0 (by decide)
  · rw [hsecondary]
    exact herases 65536 (by decide)

end CmetRecord
