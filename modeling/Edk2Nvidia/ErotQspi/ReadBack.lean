import Edk2Nvidia.ErotQspi.Delivery

/-! What `ErotQspiReadMem` reads where `ErotQspiWriteMem` has written. -/
namespace ErotQspi

/-! A memory with addresses of 16 bits. -/

def store (m : Nat → UInt8) (addr : Nat) : List UInt8 → Nat → UInt8
  | [] => m
  | byte :: bytes => store (Function.update m (addr % 65536) byte) (addr + 1) bytes

def load (m : Nat → UInt8) (addr bytes : Nat) : List UInt8 :=
  (List.range bytes).map fun i => m ((addr + i) % 65536)

@[simp] theorem length_load (m : Nat → UInt8) (addr bytes : Nat) : (load m addr bytes).length = bytes := by
  simp [load]

theorem load_add (m : Nat → UInt8) (addr a b : Nat) :
    load m addr (a + b) = load m addr a ++ load m (addr + a) b := by
  simp only [load, List.range_add, List.map_append, List.map_map]
  congr 1
  apply List.map_congr_left
  intro i _
  rw [Function.comp_apply, Nat.add_assoc]

theorem store_append (m : Nat → UInt8) (addr : Nat) (front back : List UInt8) :
    store m addr (front ++ back) = store (store m addr front) (addr + front.length) back := by
  induction front generalizing m addr with
  | nil => rfl
  | cons byte front ih =>
    rw [List.cons_append, store, ih, List.length_cons, store]
    congr 1
    omega

theorem store_congr (m : Nat → UInt8) {addr addr' : Nat} (h : addr % 65536 = addr' % 65536)
    (bytes : List UInt8) : store m addr bytes = store m addr' bytes := by
  induction bytes generalizing m addr addr' with
  | nil => rfl
  | cons byte bytes ih =>
    rw [store, store, h]
    exact ih _ (by omega)

theorem load_congr (m : Nat → UInt8) {addr addr' : Nat} (h : addr % 65536 = addr' % 65536)
    (bytes : Nat) : load m addr bytes = load m addr' bytes := by
  apply List.map_congr_left
  intro i _
  congr 1
  omega

theorem store_outside (m : Nat → UInt8) (addr : Nat) (bytes : List UInt8) {x : Nat}
    (h : ∀ i < bytes.length, (addr + i) % 65536 ≠ x) : store m addr bytes x = m x := by
  induction bytes generalizing m addr with
  | nil => rfl
  | cons byte bytes ih =>
    have hrest : ∀ i < bytes.length, (addr + 1 + i) % 65536 ≠ x := by
      intro i hi
      rw [Nat.add_assoc, Nat.add_comm 1]
      exact h (i + 1) (Nat.succ_lt_succ hi)
    rw [store, ih _ _ hrest, Function.update_of_ne]
    exact (h 0 (Nat.zero_lt_succ _)).symm

theorem load_store (m : Nat → UInt8) (addr : Nat) {bytes : List UInt8} (h : bytes.length ≤ 65536) :
    load (store m addr bytes) addr bytes.length = bytes := by
  induction bytes generalizing m addr with
  | nil => rfl
  | cons byte bytes ih =>
    rw [List.length_cons] at h
    rw [List.length_cons, Nat.add_comm, load_add, store, ih _ _ (by omega)]
    have hfirst : store (Function.update m (addr % 65536) byte) (addr + 1) bytes (addr % 65536) = byte := by
      rw [store_outside _ _ _ (fun i hi => by omega), Function.update_self]
    simp [load, hfirst]

theorem store_replicate (m : Nat → UInt8) (addr k : Nat) (byte : UInt8) :
    store m addr (List.replicate (k + 1) byte) (addr % 65536) = byte := by
  have hkeep : ∀ (k addr' : Nat) (m : Nat → UInt8), m (addr % 65536) = byte →
      store m addr' (List.replicate k byte) (addr % 65536) = byte := by
    intro k
    induction k with
    | zero => exact fun _ _ h => h
    | succ k ih =>
      intro addr' m h
      rw [List.replicate_succ, store]
      apply ih
      by_cases heq : addr % 65536 = addr' % 65536
      · rw [heq, Function.update_self]
      · rw [Function.update_of_ne heq, h]
  rw [List.replicate_succ, store]
  exact hkeep k _ _ (Function.update_self _ _ _)

variable {D : Type}

/-- The ERoT on the other side, with all its answers in time: its memory, and what waits to be read.
A block travels with its last byte first, a single byte behind three others. -/
structure Mailbox (bus : Bus D) where
  memory : D → Nat → UInt8
  fifo : D → List UInt8
  poll : ∀ d, let r := bus.performTransaction [cmdGetPollAll] 4 d
    r.1 = .success ∧ beBufferToUint32 r.2.1 &&& (pollAllMemWriteBusy ||| pollAllRxFifoEmpty) ≠ 0 ∧
      beBufferToUint32 r.2.1 &&& pollAllSregBusy = 0 ∧ beBufferToUint32 r.2.1 &&& pollAllTxFifoNotEmpty = 0 ∧
      memory r.2.2 = memory d ∧ fifo r.2.2 = fifo d
  sregWrite : ∀ d cmd addr data, cmd = cmdSregW8 ∨ cmd = cmdSregW32 →
    let r := bus.performTransaction (cmd :: uint16ToBEBuffer addr ++ data) 2 d
    r.1 = .success ∧ memory r.2.2 = memory d
  writeMem : ∀ d tx addr bytes, stored tx = some (addr, bytes) → let r := bus.performTransaction tx 0 d
    r.1 = .success ∧ memory r.2.2 = store (memory d) addr bytes
  readBlocks : ∀ d addr k, k < 8 →
    let r := bus.performTransaction ((cmdMemBlkR1 + UInt8.ofNat k) :: uint16ToBEBuffer addr) 0 d
    r.1 = .success ∧ memory r.2.2 = memory d ∧
      fifo r.2.2 = reverseBlocks (load (memory d) addr (memBlockSize * (k + 1)))
  readByte : ∀ d addr, let r := bus.performTransaction (cmdMemR8 :: uint16ToBEBuffer addr) 0 d
    r.1 = .success ∧ memory r.2.2 = memory d ∧
      ∃ a b c, fifo r.2.2 = [a, b, c, memory d (addr % 65536)]
  readFifo : ∀ d cmd, cmd = cmdRdSnglFifo8Fsr ∨ cmdBlkRdFifoFsr ≤ cmd →
    let r := bus.performTransaction [cmd] (2 + (fifo d).length) d
    r.1 = .success ∧ memory r.2.2 = memory d ∧ ∃ high low, r.2.1 = high :: low :: fifo d
  nsCounter : ∀ d, memory (bus.nsCounter d).2 = memory d ∧ fifo (bus.nsCounter d).2 = fifo d

section
variable {bus : Bus D} (mailbox : Mailbox bus) (fuel : Nat)

/-- The run ends with a result for which `Q` holds. -/
def Yields {α : Type} (x : QspiM D α) (w : World D) (Q : α → World D → Prop) : Prop :=
  ∃ a w', x w = some (a, w') ∧ Q a w'

theorem Yields.bind {α β : Type} {x : QspiM D α} {f : α → QspiM D β} {w : World D}
    {Q : β → World D → Prop} (h : Yields x w fun a w₁ => Yields (f a) w₁ Q) : Yields (x >>= f) w Q := by
  obtain ⟨a, w₁, hx, b, w', hf, hQ⟩ := h
  exact ⟨b, w', by rw [run_bind hx, hf], hQ⟩

theorem Yields.mono {α : Type} {x : QspiM D α} {w : World D} {Q R : α → World D → Prop}
    (h : Yields x w Q) (hQR : ∀ a w', Q a w' → R a w') : Yields x w R := by
  obtain ⟨a, w', hx, hQ⟩ := h
  exact ⟨a, w', hx, hQR a w' hQ⟩

theorem yields_pure {α : Type} {a : α} {w : World D} {Q : α → World D → Prop} (h : Q a w) :
    Yields (pure a) w Q := ⟨a, w, rfl, h⟩

theorem yields_xfer {tx : List UInt8} {rxLength : Nat} {w : World D}
    {Q : EfiStatus × List UInt8 → World D → Prop}
    (h : let r := bus.performTransaction tx rxLength w.device
      Q (r.1, r.2.1) { w with device := r.2.2, log := w.log ++ [⟨tx, r.1⟩] }) :
    Yields (erotQspiXfer bus tx rxLength) w Q := ⟨_, _, rfl, h⟩

/-- The memory and what waits to be read are as before. -/
def Mailbox.Same (w w' : World D) : Prop :=
  mailbox.memory w'.device = mailbox.memory w.device ∧ mailbox.fifo w'.device = mailbox.fifo w.device

/-- A poll for something the ERoT is ready for ends at once. -/
theorem yields_poll {mask value timeoutMs : Nat} {w : World D}
    (hready : ∀ d, beBufferToUint32 (bus.performTransaction [cmdGetPollAll] 4 d).2.1 &&& mask ≠ value) :
    Yields (erotQspiPollForStatus bus (fuel + 1) mask value timeoutMs) w fun status w' =>
      status = .success ∧ mailbox.Same w w' := by
  obtain ⟨hcounter, hcounter'⟩ := mailbox.nsCounter w.device
  refine .bind ⟨_, _, rfl, ?_⟩
  obtain ⟨hok, -, -, -, hmemory, hfifo⟩ := mailbox.poll (bus.nsCounter w.device).2
  refine .bind (.bind (yields_xfer ?_))
  dsimp only
  rw [hok, if_neg (by decide)]
  refine yields_pure ?_
  rw [if_neg (hready _)]
  exact yields_pure ⟨rfl, hmemory.trans hcounter, hfifo.trans hcounter'⟩

theorem yields_sregWrite {cmd : UInt8} (addr : Nat) (data : List UInt8) {w : World D}
    (hcmd : cmd = cmdSregW8 ∨ cmd = cmdSregW32) :
    Yields (sregWrite bus (fuel + 1) cmd addr data) w fun status w' =>
      status = .success ∧ mailbox.memory w'.device = mailbox.memory w.device := by
  refine .bind ((yields_poll mailbox fuel fun d => ?_).mono ?_)
  · rw [(mailbox.poll d).2.2.1]
    decide
  · rintro _ w₁ ⟨rfl, hmemory, -⟩
    obtain ⟨hok, hmemory'⟩ := mailbox.sregWrite w₁.device cmd addr data hcmd
    rw [if_neg (by decide)]
    refine .bind (yields_xfer ?_)
    dsimp only
    rw [hok, if_neg (by decide)]
    exact yields_pure ⟨rfl, hmemory'.trans hmemory⟩

theorem yields_doWriteMemCommand {tx : List UInt8} {addr : Nat} {bytes : List UInt8} {w : World D}
    (hstored : stored tx = some (addr, bytes)) :
    Yields (erotQspiDoWriteMemCommand bus (fuel + 1) tx) w fun _ w' =>
      mailbox.memory w'.device = store (mailbox.memory w.device) addr bytes := by
  refine .bind ((yields_poll mailbox fuel fun d => (mailbox.poll d).2.1).mono ?_)
  rintro _ w₁ ⟨rfl, hmemory, -⟩
  obtain ⟨hok, hwrite⟩ := mailbox.writeMem w₁.device tx addr bytes hstored
  rw [if_neg (by decide)]
  refine .bind (yields_xfer ?_)
  dsimp only
  rw [hok, if_neg (by decide)]
  refine (yields_sregWrite mailbox fuel _ _ (.inl rfl)).mono ?_
  rintro _ w₂ ⟨-, hmemory'⟩
  rw [hmemory', ← hmemory]
  exact hwrite

theorem yields_writePieces {offset : Nat} {payload : List UInt8} {list : List (Nat × List UInt8)}
    (h : Covers offset payload list) (w : World D) :
    Yields (writePieces bus (fuel + 1) list) w fun _ w' =>
      mailbox.memory w'.device = store (mailbox.memory w.device) offset payload := by
  induction h generalizing w with
  | nil => exact yields_pure rfl
  | @cons offset piece payload rest valid tail ih =>
    have hstored := stored_writeTx (show IsPiece (offset, piece).2 from valid)
    refine .bind ((yields_doWriteMemCommand mailbox fuel hstored).mono ?_)
    intro _ w₁ hfirst
    refine (ih w₁).mono ?_
    intro _ w' hrest
    rw [hrest, hfirst, store_append, store_congr _ (Nat.mod_mod offset 65536)]

include mailbox in
/-- A memory that can be written takes each piece of a packet. -/
theorem sent_mailbox {tx : List UInt8} {addr : Nat} {bytes : List UInt8} (w : World D)
    (hstored : stored tx = some (addr, bytes)) : Sent bus (fuel + 1) tx w := by
  obtain ⟨_, w₁, hpoll, rfl, -⟩ :=
    yields_poll (w := w) mailbox fuel fun d => (mailbox.poll d).2.1
  exact ⟨w₁, hpoll, (mailbox.writeMem w₁.device tx addr bytes hstored).1⟩

include mailbox in
theorem unhindered_mailbox {list : List (Nat × List UInt8)}
    (hvalid : ∀ piece ∈ list, IsPiece piece.2) (w : World D) :
    Unhindered bus (fuel + 1) list w := by
  induction list generalizing w with
  | nil => trivial
  | cons piece rest ih =>
    exact ⟨sent_mailbox mailbox fuel w (stored_writeTx (hvalid piece List.mem_cons_self)),
      fun _ w' _ => ih (fun other hmem => hvalid other (List.mem_cons_of_mem _ hmem)) w'⟩

include mailbox in
theorem undisturbed_mailbox (packet : List UInt8) (w : World D) :
    Undisturbed bus (fuel + 1) packet w := fun w₁ _ =>
  unhindered_mailbox mailbox fuel (fun _ hmem => (covers_pieces rxMemStart packet).valid hmem) w₁

theorem yields_writeMem (offset : Nat) (data : List UInt8) (w : World D) :
    Yields (erotQspiWriteMem bus (fuel + 1) offset data) w fun status w' => status = .success ∧
      mailbox.memory w'.device = store (mailbox.memory w.device) offset (data.take (u32 data.length)) := by
  refine .bind ?_
  rw [writeMemLoop_eq]
  refine (yields_writePieces mailbox fuel (covers_pieces _ _) w).mono ?_
  intro _ w' hmemory
  exact yields_pure ⟨rfl, hmemory⟩

theorem yields_readFifo {cmd1 cmd2 : UInt8} {addr bytes : Nat} {waiting : List UInt8} {w : World D}
    (hread : let r := bus.performTransaction (cmd1 :: uint16ToBEBuffer addr) 0 w.device
      r.1 = .success ∧ mailbox.memory r.2.2 = mailbox.memory w.device ∧ mailbox.fifo r.2.2 = waiting)
    (hcmd : cmd2 = cmdRdSnglFifo8Fsr ∨ cmdBlkRdFifoFsr ≤ cmd2) (hlength : waiting.length = bytes) :
    Yields (erotQspiDoReadMemCommand bus (fuel + 1) cmd1 cmd2 addr bytes) w fun r w' =>
      r = (.success, waiting) ∧ mailbox.memory w'.device = mailbox.memory w.device := by
  obtain ⟨hok, hmemory, hfifo⟩ := hread
  refine .bind (yields_xfer ?_)
  dsimp only
  rw [hok, if_neg (by decide)]
  refine .bind ((yields_poll mailbox fuel fun d => ?_).mono ?_)
  · rw [(mailbox.poll d).2.2.2.1]
    decide
  · rintro _ w₁ ⟨rfl, hmemory₁, hfifo₁⟩
    have hwaiting : mailbox.fifo w₁.device = waiting := hfifo₁.trans hfifo
    obtain ⟨hok', hmemory', high, low, hrx⟩ := mailbox.readFifo w₁.device cmd2 hcmd
    rw [hwaiting, hlength] at hok' hmemory' hrx
    rw [if_neg (by decide)]
    refine .bind (yields_xfer ?_)
    dsimp only
    rw [hok', if_neg (by decide), hrx]
    refine .bind ((yields_sregWrite mailbox fuel _ _ (.inr rfl)).mono ?_)
    rintro _ w₂ ⟨rfl, hmemory₂⟩
    refine yields_pure ⟨?_, ?_⟩
    · rw [List.drop_succ_cons, List.drop_succ_cons, List.drop_zero, ← hlength, List.take_length]
    · rw [hmemory₂, ← hmemory, ← hmemory₁]
      exact hmemory'

theorem yields_readBytes (addr bytes : Nat) (data : List UInt8) (w : World D) :
    Yields (readBytes bus (fuel + 1) addr bytes data) w fun r w' =>
      r = (.success, data ++ load (mailbox.memory w.device) addr bytes) ∧
        mailbox.memory w'.device = mailbox.memory w.device := by
  induction bytes generalizing addr data w with
  | zero => exact yields_pure ⟨by simp [load], rfl⟩
  | succ bytes ih =>
    obtain ⟨hok, hmemory, a, b, c, hfifo⟩ := mailbox.readByte w.device addr
    refine .bind ((yields_readFifo mailbox fuel ⟨hok, hmemory, hfifo⟩ (.inl rfl) rfl).mono ?_)
    rintro _ w₁ ⟨rfl, hmemory₁⟩
    dsimp only
    rw [if_neg (by decide)]
    refine (ih _ _ w₁).mono ?_
    rintro _ w' ⟨rfl, hmemory'⟩
    refine ⟨?_, hmemory'.trans hmemory₁⟩
    rw [hmemory₁, Nat.add_comm bytes 1, load_add, List.append_assoc]
    simp [load, memBytesPerSingleRead]

theorem yields_readMemLoop (addr bytes : Nat) (data : List UInt8) (w : World D) :
    Yields (readMemLoop bus (fuel + 1) addr bytes data) w fun r w' =>
      r = (.success, data ++ load (mailbox.memory w.device) addr bytes) ∧
        mailbox.memory w'.device = mailbox.memory w.device := by
  induction bytes using Nat.strong_induction_on generalizing addr data w with
  | _ bytes ih =>
    rw [readMemLoop]
    by_cases h : memBlockSize ≤ bytes
    · have hpos := blockBytes_pos h
      have hle := blockBytes_le bytes
      have hblocks : blockBytes bytes = memBlockSize * (blockBytes bytes / memBlockSize - 1 + 1) ∧
          blockBytes bytes / memBlockSize - 1 < 8 := by
        unfold blockBytes memBlockSize memMaxBytesPerXfer at *
        omega
      obtain ⟨hok, hmemory, hfifo⟩ := mailbox.readBlocks w.device addr _ hblocks.2
      rw [← hblocks.1] at hfifo
      have hcmd : cmdBlkRdFifoFsr ≤ blockCmd cmdBlkRdFifoFsr (blockBytes bytes) := by
        have hk := hblocks.2
        rw [blockCmd]
        generalize blockBytes bytes / memBlockSize - 1 = k at hk
        interval_cases k <;> decide
      rw [if_pos h]
      refine .bind ((yields_readFifo mailbox fuel ⟨hok, hmemory, hfifo⟩ (.inr hcmd) (by simp)).mono ?_)
      rintro _ w₁ ⟨rfl, hmemory₁⟩
      dsimp only
      rw [if_neg (by decide), reverseBlocks_reverseBlocks]
      refine (ih _ (by omega) _ _ w₁).mono ?_
      rintro _ w' ⟨rfl, hmemory'⟩
      refine ⟨?_, hmemory'.trans hmemory₁⟩
      rw [hmemory₁, List.append_assoc, ← load_add, Nat.add_sub_cancel' hle]
    · rw [if_neg h]
      exact yields_readBytes mailbox fuel addr bytes data w

/-- The data are written, and read back as they were. -/
def ReadBack (bus : Bus D) (fuel offset : Nat) (data : List UInt8) (w : World D) : Prop :=
  Yields (erotQspiWriteMem bus fuel offset data) w fun status w₁ => status = .success ∧
    Yields (erotQspiReadMem bus fuel offset data.length) w₁ fun r _ => r = (.success, data)

theorem roundTrip_iff (offset : Nat) (data : List UInt8) (w : World D) :
    ReadBack bus (fuel + 1) offset data w ↔
      load (store (mailbox.memory w.device) offset (data.take (u32 data.length))) offset (u32 data.length) =
        data := by
  obtain ⟨_, w₁, hwrite, rfl, hmemory⟩ := yields_writeMem mailbox fuel offset data w
  obtain ⟨_, w₂, hread, rfl, -⟩ := yields_readMemLoop mailbox fuel offset (u32 data.length) [] w₁
  rw [hmemory, List.nil_append] at hread
  constructor
  · rintro ⟨_, _, hwrite', rfl, r, w₃, hread', hr⟩
    cases hwrite.symm.trans hwrite'
    rw [erotQspiReadMem, hread, hr] at hread'
    exact congrArg (fun r => r.1.2) (Option.some.inj hread')
  · intro h
    rw [h] at hread
    exact ⟨_, _, hwrite, rfl, _, _, hread, rfl⟩

include mailbox in
/-- Data are read back as they were written whatever they are, just if the 16 bits of an address
are enough for them. -/
theorem roundTrip_all_iff (offset bytes : Nat) (w : World D) :
    (∀ data : List UInt8, data.length = bytes → ReadBack bus (fuel + 1) offset data w) ↔ bytes ≤ 65536 := by
  constructor
  · intro h
    by_contra hlong
    obtain ⟨k, rfl⟩ : ∃ k, bytes = 65536 + (k + 1) := ⟨bytes - 65537, by omega⟩
    obtain ⟨data, hdata⟩ : ∃ data : List UInt8, data = List.replicate 65536 0 ++ List.replicate (k + 1) 1 :=
      ⟨_, rfl⟩
    have hlength : data.length = 65536 + (k + 1) := by
      rw [hdata, List.length_append, List.length_replicate, List.length_replicate]
    have hback := (roundTrip_iff mailbox fuel offset data w).mp (h data hlength)
    have hshort : u32 data.length = data.length := by
      have := congrArg List.length hback
      rwa [length_load] at this
    rw [hshort, List.take_length, hlength] at hback
    -- the byte behind the last address is written over the first
    have hfirst : store (mailbox.memory w.device) offset data (offset % 65536) = 1 := by
      have hplace : offset % 65536 = (offset + (List.replicate 65536 (0 : UInt8)).length) % 65536 := by
        rw [List.length_replicate]
        omega
      rw [hdata, store_append, hplace]
      exact store_replicate _ _ _ _
    have hzero : data[0]? = some 0 := by
      rw [hdata, List.getElem?_append_left (by rw [List.length_replicate]; omega), List.getElem?_replicate,
        if_pos (by decide)]
    rw [← hback, load, List.getElem?_map, List.getElem?_range (by omega), Option.map_some, Nat.add_zero,
      hfirst] at hzero
    exact absurd hzero (by decide)
  · rintro hfits data rfl
    rw [roundTrip_iff mailbox fuel, u32_of_lt (by omega), List.take_length, load_store _ _ hfits]

end

/-- A packet that is reported sent has been delivered just if nothing went wrong with any of its
pieces; on an ERoT that answers, what has been written is read back, up to the length that 16 bits of
address allow. -/
theorem erotQspi_transfer (bus : Bus D) (fuel : Nat) :
    (∀ packet w w', erotQspiSendPacket bus fuel packet w = some (.success, w') →
      ∃ log, w'.log = w.log ++ log ∧
        (packet.length < 2 ^ 32 → Undisturbed bus fuel packet w → Delivered packet log) ∧
        (packet.length ≤ 65536 → Delivered packet log → Undisturbed bus fuel packet w)) ∧
    (0 < fuel → Mailbox bus → ∀ offset bytes w,
      (∀ data : List UInt8, data.length = bytes → ReadBack bus fuel offset data w) ↔ bytes ≤ 65536) := by
  constructor
  · intro packet w w' hrun
    exact erotQspiSendPacket_delivered bus fuel hrun
  · intro hfuel mailbox offset bytes w
    obtain ⟨fuel, rfl⟩ : ∃ n, fuel = n + 1 := ⟨fuel - 1, by omega⟩
    exact roundTrip_all_iff mailbox fuel offset bytes w

/-- An ERoT with the memory of a mailbox. -/
structure Loopback where
  memory : Nat → UInt8
  fifo : List UInt8

def Loopback.perform (tx : List UInt8) (d : Loopback) : List UInt8 × Loopback :=
  match stored tx with
  | some (addr, bytes) => ([], { d with memory := store d.memory addr bytes })
  | none =>
    match tx with
    | [cmd] => if cmd = cmdGetPollAll then ([0, 0, 1, 0], d) else (0 :: 0 :: d.fifo, d)
    | [cmd, high, low] =>
      let addr := high.toNat * 256 + low.toNat
      if cmd = cmdMemR8 then
        ([], { d with fifo := [0, 0, 0, d.memory addr] })
      else if cmdMemBlkR1 ≤ cmd then
        ([], { d with fifo := reverseBlocks (load d.memory addr (memBlockSize * ((cmd - cmdMemBlkR1).toNat + 1))) })
      else
        -- the mailbox register: acknowledged
        ([0, 0, 1, 0, 0, 0], d)
    | _ => ([0, 0], d)

def loopback : Bus Loopback where
  performTransaction := fun tx _ d => (.success, d.perform tx)
  gpioIsAsserted := fun d => (true, d)
  nsCounter := fun d => (0, d)

theorem uint16_bytes (addr : Nat) : addr / 256 % 256 * 256 + addr % 256 = addr % 65536 := by omega

def loopbackMailbox : Mailbox loopback where
  memory := Loopback.memory
  fifo := Loopback.fifo
  poll := by
    intro d
    have hrx : loopback.performTransaction [cmdGetPollAll] 4 d = (.success, [0, 0, 1, 0], d) := rfl
    rw [hrx]
    dsimp only
    exact ⟨rfl, by decide, by decide, by decide, rfl, rfl⟩
  sregWrite := by
    rintro d cmd addr data (rfl | rfl) <;> refine ⟨rfl, ?_⟩
    all_goals
      simp only [loopback, Loopback.perform, uint16ToBEBuffer, List.cons_append, List.nil_append]
      cases data <;> simp [stored, cmdSregW8, cmdSregW32, cmdMemW8, cmdMemBlkW1, cmdMemR8, cmdMemBlkR1]
  writeMem := by
    intro d tx addr bytes h
    simp [loopback, Loopback.perform, h]
  readBlocks := by
    intro d addr k hk
    have hload := load_congr d.memory (Nat.mod_mod addr 65536)
    interval_cases k <;>
      simp [loopback, Loopback.perform, stored, uint16ToBEBuffer, cmdMemBlkR1, cmdMemW8, cmdMemR8,
        memBlockSize, uint16_bytes, hload]
  readByte := by
    intro d addr
    simp [loopback, Loopback.perform, stored, uint16ToBEBuffer, cmdMemR8, cmdMemW8, cmdMemBlkW1, uint16_bytes]
  readFifo := by
    intro d cmd h
    have hpoll : cmd ≠ cmdGetPollAll := by
      rintro rfl
      revert h
      decide
    simp [loopback, Loopback.perform, stored, hpoll]
  nsCounter := fun _ => ⟨rfl, rfl⟩

/-- A packet of a header and one byte. -/
def samplePacket : List UInt8 := [0x02, 5, 0, 0, 1, 9, 8, 0xC8, 0x7E]

theorem writeMemLoop_samplePacket (bus : Bus D) (fuel : Nat) :
    writeMemLoop bus fuel 0 samplePacket =
      (do
        let _ ← erotQspiDoWriteMemCommand bus fuel (writeBlocksTx 0 (samplePacket.take 8))
        writeBytes bus fuel 8 [0x7E]) := by
  rw [writeMemLoop, if_pos (by decide)]
  apply bind_congr
  intro _
  rw [writeMemLoop, if_neg (by decide)]
  rfl

theorem exists_run {α : Type} {x : QspiM D α} {w : World D} {a : α} {f : World D → Bool}
    (h : (x w).map (fun r => (r.1, f r.2)) = some (a, true)) : ∃ w', x w = some (a, w') ∧ f w' = true := by
  obtain ⟨⟨b, w'⟩, hrun, hb⟩ := Option.map_eq_some_iff.mp h
  obtain ⟨rfl, hf⟩ := Prod.mk.inj hb
  exact ⟨w', hrun, hf⟩

theorem erotQspi_transfer_loopback :
    (∃ w', erotQspiSendPacket loopback 1 samplePacket ⟨⟨fun _ => 0, []⟩, false, []⟩ = some (.success, w') ∧
      Delivered samplePacket w'.log) ∧
    ∀ data : List UInt8, data.length = 9 → ReadBack loopback 1 0x100 data ⟨⟨fun _ => 0, []⟩, false, []⟩ := by
  constructor
  · have hrun : ∃ w', erotQspiSendPacket loopback 1 samplePacket ⟨⟨fun _ => 0, []⟩, false, []⟩ =
        some (.success, w') ∧ (fun _ => true) w' = true := by
      apply exists_run
      simp only [erotQspiSendPacket, erotQspiWriteMem, rxMemStart,
        show samplePacket.take (u32 samplePacket.length) = samplePacket from rfl,
        writeMemLoop_samplePacket]
      decide +kernel
    obtain ⟨w', hrun, -⟩ := hrun
    refine ⟨w', hrun, ?_⟩
    obtain ⟨log, hlog, hdelivered, -⟩ := (erotQspi_transfer loopback 1).1 _ _ _ hrun
    rw [hlog]
    exact hdelivered (by decide) (undisturbed_mailbox loopbackMailbox 0 samplePacket _)
  · exact ((erotQspi_transfer loopback 1).2 (by decide) loopbackMailbox 0x100 9 _).mpr (by decide)

def deaf : Bus Unit where
  performTransaction := fun tx _ _ =>
    (if (stored tx).isSome then .deviceError else .success, [0, 0, 1, 0, 0, 0], ())
  gpioIsAsserted := fun _ => (true, ())
  nsCounter := fun _ => (0, ())

theorem sendPacket_success_undelivered :
    ∃ w', erotQspiSendPacket deaf 1 samplePacket ⟨(), false, []⟩ = some (.success, w') ∧
      ¬ Delivered samplePacket w'.log := by
  have hrun : ∃ w', erotQspiSendPacket deaf 1 samplePacket ⟨(), false, []⟩ = some (.success, w') ∧
      w'.log.all (fun t => t.status != .success || (stored t.tx).isNone) = true := by
    apply exists_run
    simp only [erotQspiSendPacket, erotQspiWriteMem, rxMemStart,
      show samplePacket.take (u32 samplePacket.length) = samplePacket from rfl,
      writeMemLoop_samplePacket]
    decide +kernel
  obtain ⟨w', hrun, hquiet⟩ := hrun
  refine ⟨w', hrun, fun delivered => ?_⟩
  obtain ⟨t, ht, hok, addr, bytes, hstored, -⟩ := delivered 0 _ rfl
  have := List.all_eq_true.mp hquiet t ht
  simp [hok, hstored] at this

end ErotQspi
