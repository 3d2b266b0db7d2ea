import Edk2Nvidia.ErotQspi.Mailbox
import Mathlib.Tactic.IntervalCases

/-! What `ErotQspiSendPacket` has delivered when it reports success, and what is read back from the
memory it wrote. -/
namespace ErotQspi

/-! The pieces `ErotQspiWriteMem` cuts its data into. -/

def singles (offset : Nat) : List UInt8 → List (Nat × List UInt8)
  | [] => []
  | byte :: payload => (offset, [byte]) :: singles (offset + 1) payload

def pieces (offset : Nat) (payload : List UInt8) : List (Nat × List UInt8) :=
  if memBlockSize ≤ payload.length then
    let xferBytes := blockBytes payload.length
    (offset, payload.take xferBytes) :: pieces (offset + xferBytes) (payload.drop xferBytes)
  else
    singles offset payload
termination_by payload.length
decreasing_by
  rename_i h
  have := blockBytes_pos h
  rw [List.length_drop]
  unfold memBlockSize at h
  omega

def writeTx (piece : Nat × List UInt8) : List UInt8 :=
  if memBlockSize ≤ piece.2.length then writeBlocksTx piece.1 piece.2
  else writeByteTx piece.1 (piece.2.getD 0 0)

/-- What a memory write command has the ERoT store, and from which address on. -/
def stored : List UInt8 → Option (Nat × List UInt8)
  | cmd :: high :: low :: data =>
    if cmd = cmdMemW8 ∧ data.length = 1 then
      some (high.toNat * 256 + low.toNat, data)
    else if cmdMemBlkW1 ≤ cmd ∧ data.length = memBlockSize * ((cmd - cmdMemBlkW1).toNat + 1) then
      some (high.toNat * 256 + low.toNat, reverseBlocks data)
    else
      none
  | _ => none

/-- A single byte, or up to eight blocks. -/
def IsPiece (payload : List UInt8) : Prop :=
  payload.length = 1 ∨
    payload.length % memBlockSize = 0 ∧ 0 < payload.length ∧ payload.length ≤ memMaxBytesPerXfer

@[simp] theorem length_reverseBlocks (payload : List UInt8) :
    (reverseBlocks payload).length = payload.length := by
  fun_induction reverseBlocks payload with
  | case1 a b c d rest ih => simp [ih]
  | case2 => rfl

@[simp] theorem reverseBlocks_reverseBlocks (payload : List UInt8) :
    reverseBlocks (reverseBlocks payload) = payload := by
  fun_induction reverseBlocks payload with
  | case1 a b c d rest ih => simp [reverseBlocks, ih]
  | case2 rest h => rw [reverseBlocks]; exact h

theorem stored_writeTx {piece : Nat × List UInt8} (h : IsPiece piece.2) :
    stored (writeTx piece) = some (piece.1 % 65536, piece.2) := by
  obtain ⟨offset, payload⟩ := piece
  have haddress : (UInt8.ofNat (offset / 256)).toNat * 256 + (UInt8.ofNat offset).toNat = offset % 65536 := by
    simp only [UInt8.toNat_ofNat']
    omega
  unfold IsPiece memBlockSize memMaxBytesPerXfer at h
  dsimp only at h
  rcases h with hone | ⟨hblocks, hpos, hmax⟩
  · obtain ⟨byte, rfl⟩ := List.length_eq_one_iff.mp hone
    rw [writeTx, if_neg (by simp [memBlockSize])]
    simp only [writeByteTx, uint16ToBEBuffer, List.cons_append, List.nil_append, stored, haddress,
      List.length_singleton, List.getD_cons_zero, and_self, if_true]
  · rw [writeTx, if_pos (by unfold memBlockSize; dsimp only; omega)]
    simp only [writeBlocksTx, uint16ToBEBuffer, List.cons_append, List.nil_append, stored,
      length_reverseBlocks, reverseBlocks_reverseBlocks, haddress, blockCmd, cmdMemBlkW1, cmdMemW8,
      memBlockSize]
    have hk : payload.length / 4 - 1 < 8 := by omega
    have hlength : payload.length = 4 * (payload.length / 4 - 1 + 1) := by omega
    generalize payload.length / 4 - 1 = k at hk hlength
    rw [hlength]
    interval_cases k <;> simp +decide

/-- The pieces lie end to end from `offset` on, each of them one that a command can carry. -/
inductive Covers : Nat → List UInt8 → List (Nat × List UInt8) → Prop where
  | nil (offset : Nat) : Covers offset [] []
  | cons {offset : Nat} {piece payload : List UInt8} {rest : List (Nat × List UInt8)}
      (valid : IsPiece piece) (tail : Covers (offset + piece.length) payload rest) :
      Covers offset (piece ++ payload) ((offset, piece) :: rest)

theorem covers_singles (offset : Nat) (payload : List UInt8) :
    Covers offset payload (singles offset payload) := by
  induction payload generalizing offset with
  | nil => exact .nil offset
  | cons byte payload ih => exact .cons (show IsPiece [byte] from .inl rfl) (ih (offset + 1))

theorem isPiece_take {payload : List UInt8} (h : memBlockSize ≤ payload.length) :
    IsPiece (payload.take (blockBytes payload.length)) := by
  have hpos := blockBytes_pos h
  have hle := blockBytes_le payload.length
  right
  rw [List.length_take, Nat.min_eq_left hle]
  unfold blockBytes memBlockSize memMaxBytesPerXfer at *
  omega

theorem covers_pieces (offset : Nat) (payload : List UInt8) :
    Covers offset payload (pieces offset payload) := by
  fun_induction pieces offset payload with
  | case1 offset payload h xferBytes ih =>
    have hlength : (payload.take xferBytes).length = xferBytes := by
      rw [List.length_take, Nat.min_eq_left (blockBytes_le _)]
    have htail : Covers (offset + (payload.take xferBytes).length) (payload.drop xferBytes)
        (pieces (offset + xferBytes) (payload.drop xferBytes)) := by
      rw [hlength]
      exact ih
    have hcovers := Covers.cons (isPiece_take h) htail
    rwa [List.take_append_drop] at hcovers
  | case2 offset payload => exact covers_singles offset payload

section
variable {offset : Nat} {payload : List UInt8} {list : List (Nat × List UInt8)}
  {piece piece' : Nat × List UInt8}

theorem IsPiece.length_pos {payload : List UInt8} (h : IsPiece payload) : 0 < payload.length := by
  rcases h with h | ⟨-, h, -⟩
  · omega
  · exact h

theorem Covers.valid (h : Covers offset payload list) (hmem : piece ∈ list) : IsPiece piece.2 := by
  induction h with
  | nil => cases hmem
  | cons valid tail ih =>
    rcases List.mem_cons.mp hmem with rfl | hmem
    · exact valid
    · exact ih hmem

theorem Covers.inside (h : Covers offset payload list) (hmem : piece ∈ list) :
    offset ≤ piece.1 ∧ piece.1 + piece.2.length ≤ offset + payload.length := by
  induction h with
  | nil => cases hmem
  | cons valid tail ih =>
    rw [List.length_append]
    rcases List.mem_cons.mp hmem with rfl | hmem
    · exact ⟨Nat.le_refl _, by dsimp only; omega⟩
    · have := ih hmem
      omega

theorem Covers.exists_piece (h : Covers offset payload list) {i : Nat} {byte : UInt8}
    (hbyte : payload[i]? = some byte) :
    ∃ piece ∈ list, ∃ j, piece.2[j]? = some byte ∧ piece.1 + j = offset + i := by
  induction h generalizing i with
  | nil => cases hbyte
  | @cons offset piece payload rest valid tail ih =>
    by_cases hi : i < piece.length
    · rw [List.getElem?_append_left hi] at hbyte
      exact ⟨_, List.mem_cons_self, i, hbyte, rfl⟩
    · rw [List.getElem?_append_right (Nat.le_of_not_lt hi)] at hbyte
      obtain ⟨found, hmem, j, hj, hat⟩ := ih hbyte
      exact ⟨found, List.mem_cons_of_mem _ hmem, j, hj, by omega⟩

theorem Covers.getElem? (h : Covers offset payload list) (hmem : piece ∈ list) {j : Nat} (hj : j < piece.2.length) :
    payload[piece.1 - offset + j]? = piece.2[j]? := by
  induction h with
  | nil => cases hmem
  | @cons offset first payload rest valid tail ih =>
    rcases List.mem_cons.mp hmem with rfl | hmem
    · simp only [Nat.sub_self, Nat.zero_add]
      exact List.getElem?_append_left hj
    · have hinside := tail.inside hmem
      rw [← ih hmem, List.getElem?_append_right (by omega)]
      congr 1
      omega

theorem Covers.eq_of_overlap (h : Covers offset payload list) (hmem : piece ∈ list) (hmem' : piece' ∈ list)
    {j j' : Nat} (hj : j < piece.2.length) (hj' : j' < piece'.2.length)
    (hplace : piece.1 + j = piece'.1 + j') : piece = piece' := by
  induction h with
  | nil => cases hmem
  | cons valid tail ih =>
    rcases List.mem_cons.mp hmem with rfl | hmem
    · rcases List.mem_cons.mp hmem' with rfl | hmem'
      · rfl
      · have := tail.inside hmem'
        dsimp only at hj hplace
        omega
    · rcases List.mem_cons.mp hmem' with rfl | hmem'
      · have := tail.inside hmem
        dsimp only at hj' hplace
        omega
      · exact ih hmem hmem'

theorem Covers.nodup (h : Covers offset payload list) : list.Nodup := by
  induction h with
  | nil => exact List.nodup_nil
  | cons valid tail ih =>
    refine List.nodup_cons.mpr ⟨fun hmem => ?_, ih⟩
    have := tail.inside hmem
    have := valid.length_pos
    dsimp only at *
    omega

/-- Within the 16 bits of an address, a command belongs to one piece. -/
theorem Covers.writeTx_injOn (h : Covers offset payload list) (hfits : payload.length ≤ 65536)
    (hmem : piece ∈ list) (hmem' : piece' ∈ list) (htx : writeTx piece = writeTx piece') :
    piece = piece' := by
  have hstored := stored_writeTx (h.valid hmem)
  rw [htx, stored_writeTx (h.valid hmem')] at hstored
  obtain ⟨haddress, hpayload⟩ := Prod.mk.inj (Option.some.inj hstored)
  have hinside := h.inside hmem
  have hinside' := h.inside hmem'
  have hpos := (h.valid hmem).length_pos
  have hpos' := (h.valid hmem').length_pos
  exact h.eq_of_overlap hmem hmem' hpos hpos' (by omega)

end

/-! Runs. -/

section
variable {D : Type} {α β : Type}

theorem run_bind_iff {x : QspiM D α} {f : α → QspiM D β} {w w' : World D} {b : β} :
    (x >>= f) w = some (b, w') ↔ ∃ a w₁, x w = some (a, w₁) ∧ f a w₁ = some (b, w') := by
  show (x w).bind (fun r => f r.1 r.2) = some (b, w') ↔ _
  rw [Option.bind_eq_some_iff]
  constructor
  · rintro ⟨⟨a, w₁⟩, hx, hf⟩
    exact ⟨a, w₁, hx, hf⟩
  · rintro ⟨a, w₁, hx, hf⟩
    exact ⟨(a, w₁), hx, hf⟩

theorem run_bind {x : QspiM D α} {f : α → QspiM D β} {w w₁ : World D} {a : α} (h : x w = some (a, w₁)) :
    (x >>= f) w = f a w₁ := by
  show (x w).bind (fun r => f r.1 r.2) = _
  rw [h]
  rfl

@[simp] theorem run_pure_iff {a b : α} {w w' : World D} :
    (pure a : QspiM D α) w = some (b, w') ↔ a = b ∧ w = w' := by
  show some (a, w) = some (b, w') ↔ _
  simp

def Logs (P : Transfer → Prop) (x : QspiM D α) : Prop :=
  ∀ w a w', x w = some (a, w') → ∃ l, w'.log = w.log ++ l ∧ ∀ t ∈ l, P t

namespace Logs
variable {P : Transfer → Prop} {x : QspiM D α}

theorem pure (a : α) : Logs P (Pure.pure a : QspiM D α) := by
  intro w b w' h
  obtain ⟨-, rfl⟩ := run_pure_iff.mp h
  exact ⟨[], by simp, nofun⟩

theorem bind {f : α → QspiM D β} (hx : Logs P x) (hf : ∀ a, Logs P (f a)) : Logs P (x >>= f) := by
  intro w b w' h
  obtain ⟨a, w₁, hrun, hrest⟩ := run_bind_iff.mp h
  obtain ⟨l, hl, hP⟩ := hx w a w₁ hrun
  obtain ⟨l', hl', hP'⟩ := hf a w₁ b w' hrest
  refine ⟨l ++ l', by rw [hl', hl, List.append_assoc], fun t ht => ?_⟩
  rcases List.mem_append.mp ht with ht | ht
  · exact hP t ht
  · exact hP' t ht

theorem ite {c : Prop} [Decidable c] {y : QspiM D α} (hx : Logs P x) (hy : Logs P y) :
    Logs P (if c then x else y) := by
  split
  · exact hx
  · exact hy

theorem failure : Logs P (failure : QspiM D α) := nofun

theorem mono {Q : Transfer → Prop} (h : Logs P x) (hPQ : ∀ t, P t → Q t) : Logs Q x := by
  intro w a w' hrun
  obtain ⟨l, hl, hP⟩ := h w a w' hrun
  exact ⟨l, hl, fun t ht => hPQ t (hP t ht)⟩

/-- What reads or writes neither the log nor the bus leaves the log as it is. -/
theorem of_log_eq (h : ∀ w a w', x w = some (a, w') → w'.log = w.log) : Logs P x := by
  intro w a w' hrun
  exact ⟨[], by rw [h w a w' hrun, List.append_nil], nofun⟩

end Logs

def Quiet (t : Transfer) : Prop := stored t.tx = none

variable (bus : Bus D)

theorem erotQspiXfer_logs {P : Transfer → Prop} (tx : List UInt8) (rxLength : Nat)
    (h : ∀ status, P ⟨tx, status⟩) : Logs P (erotQspiXfer bus tx rxLength) := by
  intro w a w' hrun
  cases hrun
  exact ⟨_, rfl, by simpa using h _⟩

theorem erotQspiNsCounter_logs {P : Transfer → Prop} : Logs P (erotQspiNsCounter bus) :=
  .of_log_eq fun w a w' hrun => by
    cases hrun
    rfl

theorem erotQspiGpioIsAsserted_logs {P : Transfer → Prop} : Logs P (erotQspiGpioIsAsserted bus) :=
  .of_log_eq fun w a w' hrun => by
    cases hrun
    rfl

theorem pollForStatusLoop_quiet (statusBitMask pollWhile endNs fuel : Nat) :
    Logs Quiet (pollForStatusLoop bus statusBitMask pollWhile endNs fuel) := by
  induction fuel with
  | zero => exact .failure
  | succ fuel ih =>
    refine .bind ?_ fun reg => .ite (.bind (erotQspiNsCounter_logs bus) fun now => .ite (.pure _) ih) (.pure _)
    exact .bind (erotQspiXfer_logs bus _ _ fun _ => rfl) fun r => .ite (.pure _) (.pure _)

variable (fuel : Nat)

theorem erotQspiPollForStatus_quiet (statusBitMask pollWhile timeoutMs : Nat) :
    Logs Quiet (erotQspiPollForStatus bus fuel statusBitMask pollWhile timeoutMs) :=
  .bind (erotQspiNsCounter_logs bus) fun _ => pollForStatusLoop_quiet bus _ _ _ _

theorem sregWrite_quiet (cmd : UInt8) (addr : Nat) (data : List UInt8)
    (h : cmd ≠ cmdMemW8 ∧ ¬ cmdMemBlkW1 ≤ cmd) : Logs Quiet (sregWrite bus fuel cmd addr data) := by
  refine .bind (erotQspiPollForStatus_quiet bus fuel _ _ _) fun status => .ite (.pure _) ?_
  refine .bind (erotQspiXfer_logs bus _ _ fun _ => ?_) fun r => .ite (.pure _) (.pure _)
  simp [Quiet, stored, uint16ToBEBuffer, h.1, h.2]

theorem erotQspiWriteErotMbox_quiet (value : Nat) : Logs Quiet (erotQspiWriteErotMbox bus fuel value) :=
  sregWrite_quiet bus fuel _ _ _ (by decide)

theorem erotQspiSregRead32_quiet (addr : Nat) : Logs Quiet (erotQspiSregRead32 bus fuel addr) := by
  refine .bind (erotQspiPollForStatus_quiet bus fuel _ _ _) fun status => .ite (.pure _) ?_
  exact .bind (erotQspiXfer_logs bus _ _ fun _ => rfl) fun r => .ite (.pure _) (.pure _)

theorem pollHostMboxLoop_quiet (pollLengthField : Bool) (cmd endNs rounds : Nat) :
    Logs Quiet (pollHostMboxLoop bus fuel pollLengthField cmd endNs rounds) := by
  induction rounds with
  | zero => exact .failure
  | succ rounds ih =>
    have again : Logs Quiet (do
        let now ← erotQspiNsCounter bus
        if now < endNs then pollHostMboxLoop bus fuel pollLengthField cmd endNs rounds
        else pure (.timeout, 0) : QspiM D (EfiStatus × Nat)) :=
      .bind (erotQspiNsCounter_logs bus) fun now => .ite ih (.pure _)
    refine .bind (erotQspiGpioIsAsserted_logs bus) fun asserted => .ite again ?_
    refine .bind (erotQspiSregRead32_quiet bus fuel _) fun r => .ite again ?_
    refine .bind (.of_log_eq fun w a w' hrun => by cases hrun; rfl) fun _ => ?_
    dsimp only
    split
    · exact .pure _
    · exact again

theorem erotQspiPollHostMbox_quiet (pollLengthField : Bool) (cmd : Nat) :
    Logs Quiet (erotQspiPollHostMbox bus fuel pollLengthField cmd) :=
  .bind (erotQspiNsCounter_logs bus) fun _ => pollHostMboxLoop_quiet bus fuel _ _ _ _

end

/-! What is sent. -/

section
variable {D : Type} (bus : Bus D) (fuel : Nat)

/-- The poll in front of a memory write. -/
def pollWritable : QspiM D EfiStatus :=
  erotQspiPollForStatus bus fuel (pollAllMemWriteBusy ||| pollAllRxFifoEmpty) 0 memBusyTimeoutMs

/-- From here, the ERoT gets ready for a memory write in time, and the transaction succeeds. -/
def Sent (tx : List UInt8) (w : World D) : Prop :=
  ∃ w₁, pollWritable bus fuel w = some (.success, w₁) ∧
    (bus.performTransaction tx 0 w₁.device).1 = .success

/-- Nothing goes wrong from here on with any of the pieces. -/
def Unhindered : List (Nat × List UInt8) → World D → Prop
  | [], _ => True
  | piece :: rest, w => Sent bus fuel (writeTx piece) w ∧
      ∀ status w', erotQspiDoWriteMemCommand bus fuel (writeTx piece) w = some (status, w') →
        Unhindered rest w'

def writePieces : List (Nat × List UInt8) → QspiM D Unit
  | [] => pure ()
  | piece :: rest => do
    let _ ← erotQspiDoWriteMemCommand bus fuel (writeTx piece)
    writePieces rest

theorem writeBytes_eq (addr : Nat) (payload : List UInt8) :
    writeBytes bus fuel addr payload = writePieces bus fuel (singles addr payload) := by
  induction payload generalizing addr with
  | nil => rfl
  | cons byte payload ih =>
    rw [writeBytes, singles, writePieces, ih]
    rfl

theorem writeMemLoop_eq (addr : Nat) (payload : List UInt8) :
    writeMemLoop bus fuel addr payload = writePieces bus fuel (pieces addr payload) := by
  fun_induction pieces addr payload with
  | case1 addr payload h xferBytes ih =>
    have hblock : memBlockSize ≤ (payload.take xferBytes).length := by
      have hle := blockBytes_le payload.length
      rw [List.length_take, Nat.min_eq_left hle]
      unfold xferBytes blockBytes memBlockSize memMaxBytesPerXfer at *
      omega
    rw [writeMemLoop, if_pos h, writePieces, ← ih, writeTx, if_pos hblock]
  | case2 addr payload h => rw [writeMemLoop, if_neg h, writeBytes_eq]

theorem erotQspiDoWriteMemCommand_log {tx : List UInt8} {w w' : World D} {status : EfiStatus}
    (hrun : erotQspiDoWriteMemCommand bus fuel tx w = some (status, w')) (hstored : stored tx ≠ none) :
    ∃ l, w'.log = w.log ++ l ∧ (∀ t ∈ l, t.tx = tx ∨ Quiet t) ∧ (⟨tx, .success⟩ ∈ l ↔ Sent bus fuel tx w) := by
  have hloud : ∀ l : List Transfer, (∀ t ∈ l, Quiet t) → ∀ status, ⟨tx, status⟩ ∉ l :=
    fun l hl status hmem => hstored (hl _ hmem)
  obtain ⟨ready, w₁, hpoll, hrest⟩ := run_bind_iff.mp hrun
  obtain ⟨l₁, hl₁, hquiet₁⟩ := erotQspiPollForStatus_quiet bus fuel _ _ _ w ready w₁ hpoll
  split at hrest
  · rename_i herror
    obtain ⟨rfl, rfl⟩ := run_pure_iff.mp hrest
    refine ⟨l₁, hl₁, fun t ht => .inr (hquiet₁ t ht), fun hmem => absurd hmem (hloud l₁ hquiet₁ _), ?_⟩
    rintro ⟨w₂, hready, -⟩
    cases hpoll.symm.trans hready
    cases herror
  · rename_i hready
    have hsuccess : ready = .success := by simpa [EfiStatus.isError] using hready
    subst hsuccess
    obtain ⟨r, w₂, hxfer, hdone⟩ := run_bind_iff.mp hrest
    have hsent : (bus.performTransaction tx 0 w₁.device).1 = .success ↔ Sent bus fuel tx w := by
      constructor
      · exact fun h => ⟨w₁, hpoll, h⟩
      · rintro ⟨w₃, hpoll', h⟩
        cases hpoll.symm.trans hpoll'
        exact h
    have hw₂ : r.1 = (bus.performTransaction tx 0 w₁.device).1 ∧ w₂.log = w₁.log ++ [⟨tx, r.1⟩] := by
      cases hxfer
      exact ⟨rfl, rfl⟩
    have hend : ∃ l₃, w'.log = w₂.log ++ l₃ ∧ ∀ t ∈ l₃, Quiet t := by
      dsimp only at hdone
      split at hdone
      · obtain ⟨-, rfl⟩ := run_pure_iff.mp hdone
        exact ⟨[], by simp, nofun⟩
      · exact sregWrite_quiet bus fuel _ _ _ (by decide) _ _ _ hdone
    obtain ⟨l₃, hl₃, hquiet₃⟩ := hend
    refine ⟨l₁ ++ ⟨tx, r.1⟩ :: l₃, by simp [hl₃, hw₂.2, hl₁], fun t ht => ?_, ?_⟩
    · rcases List.mem_append.mp ht with ht | ht
      · exact .inr (hquiet₁ t ht)
      · rcases List.mem_cons.mp ht with rfl | ht
        · exact .inl rfl
        · exact .inr (hquiet₃ t ht)
    · rw [← hsent, ← hw₂.1]
      simp only [List.mem_append, List.mem_cons, Transfer.mk.injEq, true_and, hloud l₁ hquiet₁,
        hloud l₃ hquiet₃, false_or, or_false, eq_comm]

/-- What the log says of the pieces, and of each of them where no two have the same command. -/
theorem writePieces_log {list : List (Nat × List UInt8)} (hvalid : ∀ piece ∈ list, IsPiece piece.2)
    {w w' : World D} {u : Unit} (hrun : writePieces bus fuel list w = some (u, w')) :
    ∃ l, w'.log = w.log ++ l ∧ (∀ t ∈ l, (∃ piece ∈ list, t.tx = writeTx piece) ∨ Quiet t) ∧
      (Unhindered bus fuel list w → ∀ piece ∈ list, ⟨writeTx piece, .success⟩ ∈ l) ∧
      ((list.map writeTx).Nodup →
        (∀ piece ∈ list, ⟨writeTx piece, .success⟩ ∈ l) → Unhindered bus fuel list w) := by
  induction list generalizing w with
  | nil =>
    obtain ⟨-, rfl⟩ := run_pure_iff.mp hrun
    exact ⟨[], by simp, nofun, fun _ => nofun, fun _ _ => trivial⟩
  | cons piece rest ih =>
    obtain ⟨status, w₁, hfirst, hrest⟩ := run_bind_iff.mp hrun
    have hpiece := stored_writeTx (hvalid piece List.mem_cons_self)
    have hloud : stored (writeTx piece) ≠ none := by
      rw [hpiece]
      exact Option.some_ne_none _
    obtain ⟨l₁, hl₁, htx₁, hsent⟩ := erotQspiDoWriteMemCommand_log bus fuel hfirst hloud
    obtain ⟨l₂, hl₂, htx₂, hall, hunhindered⟩ :=
      ih (fun piece hmem => hvalid piece (List.mem_cons_of_mem _ hmem)) hrest
    refine ⟨l₁ ++ l₂, by rw [hl₂, hl₁, List.append_assoc], fun t ht => ?_, fun h other hmem => ?_,
      fun hnodup hlogged => ?_⟩
    · rcases List.mem_append.mp ht with ht | ht
      · exact (htx₁ t ht).imp_left fun h => ⟨piece, List.mem_cons_self, h⟩
      · exact (htx₂ t ht).imp_left fun ⟨other, hmem, h⟩ => ⟨other, List.mem_cons_of_mem _ hmem, h⟩
    · rcases List.mem_cons.mp hmem with rfl | hmem
      · exact List.mem_append_left _ (hsent.mpr h.1)
      · exact List.mem_append_right _ (hall (h.2 status w₁ hfirst) other hmem)
    · rw [List.map_cons, List.nodup_cons] at hnodup
      have hother : ∀ other ∈ rest, writeTx other ≠ writeTx piece := fun other hmem heq =>
        hnodup.1 (heq ▸ List.mem_map_of_mem hmem)
      refine ⟨hsent.mp ?_, fun status' w₁' hfirst' => ?_⟩
      · -- the command of this piece is none of the later ones
        refine (List.mem_append.mp (hlogged piece List.mem_cons_self)).resolve_right fun hmem => ?_
        rcases htx₂ _ hmem with ⟨other, hother', heq⟩ | hquiet
        · exact hother other hother' heq.symm
        · exact hloud hquiet
      · cases hfirst.symm.trans hfirst'
        refine hunhindered hnodup.2 fun other hmem => ?_
        refine (List.mem_append.mp (hlogged other (List.mem_cons_of_mem _ hmem))).resolve_left fun hlate => ?_
        rcases htx₁ _ hlate with heq | hquiet
        · exact hother other hmem heq
        · have := stored_writeTx (hvalid other (List.mem_cons_of_mem _ hmem))
          rw [show stored (writeTx other) = none from hquiet] at this
          cases this

/-- Each byte of the packet has been carried to its place in the mailbox by a transaction that
succeeded. -/
def Delivered (packet : List UInt8) (log : List Transfer) : Prop :=
  ∀ i byte, packet[i]? = some byte →
    ∃ t ∈ log, t.status = .success ∧ ∃ addr bytes, stored t.tx = some (addr, bytes) ∧
      ∃ j, bytes[j]? = some byte ∧ (addr + j) % 65536 = (rxMemStart + i) % 65536

variable {packet : List UInt8} {log : List Transfer}

theorem delivered_of_pieces (h : ∀ piece ∈ pieces rxMemStart packet, ⟨writeTx piece, .success⟩ ∈ log) :
    Delivered packet log := by
  intro i byte hbyte
  have hcovers := covers_pieces rxMemStart packet
  obtain ⟨piece, hmem, j, hj, hplace⟩ := hcovers.exists_piece hbyte
  refine ⟨_, h piece hmem, rfl, _, _, stored_writeTx (hcovers.valid hmem), j, hj, ?_⟩
  rw [← hplace, Nat.mod_add_mod]

theorem pieces_of_delivered (hfits : packet.length ≤ 65536)
    (hlog : ∀ t ∈ log, (∃ piece ∈ pieces rxMemStart packet, t.tx = writeTx piece) ∨ Quiet t)
    (h : Delivered packet log) {piece : Nat × List UInt8} (hmem : piece ∈ pieces rxMemStart packet) :
    ⟨writeTx piece, .success⟩ ∈ log := by
  have hcovers := covers_pieces rxMemStart packet
  have hpos := (hcovers.valid hmem).length_pos
  have hinside := hcovers.inside hmem
  have hbyte := hcovers.getElem? hmem hpos
  rw [List.getElem?_eq_getElem hpos, Nat.add_zero] at hbyte
  obtain ⟨t, ht, hstatus, addr, bytes, hstored, j, hj, hplace⟩ := h _ _ hbyte
  rcases hlog t ht with ⟨other, hother, htx⟩ | hquiet
  · rw [htx, stored_writeTx (hcovers.valid hother)] at hstored
    cases hstored
    have hj' : j < other.2.length := (List.getElem?_eq_some_iff.mp hj).choose
    have hinside' := hcovers.inside hother
    have heq : other = piece := hcovers.eq_of_overlap hother hmem hj' hpos (by
      unfold rxMemStart at *
      omega)
    subst heq
    rwa [show t = ⟨writeTx other, .success⟩ from by cases t; simp_all] at ht
  · rw [show stored t.tx = none from hquiet] at hstored
    cases hstored

end

section
variable {D : Type} (bus : Bus D) (fuel : Nat)

/-- The part of `ErotQspiSendPacket` in front of the memory write. -/
def requestWrite : QspiM D EfiStatus := do
  let status ← erotQspiWriteErotMbox bus fuel mboxCmdRequestWrite
  if status.isError then
    pure status
  else
    let (status, _) ← erotQspiPollHostMbox bus fuel false hostMboxCmdAck
    pure status

/-- Once the ERoT has acknowledged the request, nothing goes wrong with any piece of the packet. -/
def Undisturbed (packet : List UInt8) (w : World D) : Prop :=
  ∀ w₁, requestWrite bus fuel w = some (.success, w₁) →
    Unhindered bus fuel (pieces rxMemStart packet) w₁

variable {packet : List UInt8} {w w' : World D}

theorem requestWrite_quiet : Logs Quiet (requestWrite bus fuel) :=
  .bind (erotQspiWriteErotMbox_quiet bus fuel _) fun _ =>
    .ite (.pure _) (.bind (erotQspiPollHostMbox_quiet bus fuel _ _) fun _ => .pure _)

theorem not_isError_iff {status : EfiStatus} : ¬ status.isError = true ↔ status = .success := by
  simp [EfiStatus.isError]

/-- A call that reports success has had its request acknowledged, and has gone through the memory
write. -/
theorem erotQspiSendPacket_success
    (hrun : erotQspiSendPacket bus fuel packet w = some (.success, w')) :
    ∃ w₁ w₂, requestWrite bus fuel w = some (.success, w₁) ∧
      writePieces bus fuel (pieces rxMemStart (packet.take (u32 packet.length))) w₁ = some ((), w₂) ∧
      ∃ l, w'.log = w₂.log ++ l ∧ ∀ t ∈ l, Quiet t := by
  obtain ⟨status, wa, hmbox, hrest⟩ := run_bind_iff.mp hrun
  split at hrest
  · rename_i herror
    obtain ⟨rfl, -⟩ := run_pure_iff.mp hrest
    cases herror
  · rename_i hok
    obtain ⟨⟨acked, length⟩, w₁, hpoll, hrest⟩ := run_bind_iff.mp hrest
    dsimp only at hrest
    split at hrest
    · rename_i herror
      obtain ⟨rfl, -⟩ := run_pure_iff.mp hrest
      cases herror
    · rename_i hacked
      obtain ⟨written, w₂, hwrite, hrest⟩ := run_bind_iff.mp hrest
      obtain ⟨u, w₂', hloop, hwritten⟩ := run_bind_iff.mp hwrite
      obtain ⟨rfl, rfl⟩ := run_pure_iff.mp hwritten
      rw [writeMemLoop_eq] at hloop
      refine ⟨w₁, w₂', ?_, hloop, ?_⟩
      · rw [requestWrite, run_bind hmbox, if_neg hok, run_bind hpoll]
        exact run_pure_iff.mpr ⟨not_isError_iff.mp hacked, rfl⟩
      · have hquiet : Logs Quiet (do
            let status ← erotQspiWriteErotMbox bus fuel packet.length
            if status.isError then pure status
            else
              let (status, _) ← erotQspiPollHostMbox bus fuel false hostMboxCmdAck
              pure status : QspiM D EfiStatus) :=
          .bind (erotQspiWriteErotMbox_quiet bus fuel _) fun _ =>
            .ite (.pure _) (.bind (erotQspiPollHostMbox_quiet bus fuel _ _) fun _ => .pure _)
        exact hquiet _ _ _ hrest

theorem take_u32 (h : packet.length < 2 ^ 32) : packet.take (u32 packet.length) = packet := by
  rw [u32_of_lt h, List.take_length]

/-- A packet for which nothing goes wrong is delivered; within the 16 bits of an address, no
other is. -/
theorem erotQspiSendPacket_delivered (hrun : erotQspiSendPacket bus fuel packet w = some (.success, w')) :
    ∃ log, w'.log = w.log ++ log ∧
      (packet.length < 2 ^ 32 → Undisturbed bus fuel packet w → Delivered packet log) ∧
      (packet.length ≤ 65536 → Delivered packet log → Undisturbed bus fuel packet w) := by
  obtain ⟨w₁, w₂, hrequest, hwrite, l₃, hl₃, hquiet₃⟩ := erotQspiSendPacket_success bus fuel hrun
  obtain ⟨l₁, hl₁, hquiet₁⟩ := requestWrite_quiet bus fuel _ _ _ hrequest
  obtain ⟨l₂, hl₂, htx, hall, hunhindered⟩ :=
    writePieces_log bus fuel (fun piece hmem => (covers_pieces _ _).valid hmem) hwrite
  refine ⟨l₁ ++ l₂ ++ l₃, by simp [hl₃, hl₂, hl₁], fun hlength undisturbed => ?_,
    fun hlength delivered => ?_⟩
  · rw [take_u32 hlength] at hall
    exact delivered_of_pieces fun piece hmem => List.mem_append_left _
      (List.mem_append_right _ (hall (undisturbed w₁ hrequest) piece hmem))
  · intro w₁' hrequest'
    cases hrequest.symm.trans hrequest'
    rw [take_u32 (by omega)] at htx hunhindered
    have hlog : ∀ t ∈ l₁ ++ l₂ ++ l₃, (∃ piece ∈ pieces rxMemStart packet, t.tx = writeTx piece) ∨ Quiet t := by
      intro t ht
      rw [List.mem_append, List.mem_append] at ht
      rcases ht with (ht | ht) | ht
      · exact .inr (hquiet₁ t ht)
      · exact htx t ht
      · exact .inr (hquiet₃ t ht)
    have hcovers := covers_pieces rxMemStart packet
    refine hunhindered ?_ fun piece hmem => ?_
    · refine List.Nodup.map_on (fun piece hmem other hmem' htx => ?_) hcovers.nodup
      exact hcovers.writeTx_injOn hlength hmem hmem' htx
    · have hsent := pieces_of_delivered hlength hlog delivered hmem
      have hloud : ∀ l : List Transfer, (∀ t ∈ l, Quiet t) → ⟨writeTx piece, .success⟩ ∉ l := by
        intro l hquiet hmem'
        have hstored := stored_writeTx (hcovers.valid hmem)
        rw [show stored (writeTx piece) = none from hquiet _ hmem'] at hstored
        cases hstored
      rw [List.mem_append, List.mem_append] at hsent
      rcases hsent with (hsent | hsent) | hsent
      · exact absurd hsent (hloud l₁ hquiet₁)
      · exact hsent
      · exact absurd hsent (hloud l₃ hquiet₃)

end

end ErotQspi
