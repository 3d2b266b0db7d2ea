import Edk2Nvidia.NorFlash
import Mathlib.Data.UInt

/-! The QSPI transactions below the packets: registers, polls, and the memory of the mailbox. What
the controller, the interrupt pin and the counter answer is the `Bus`; a loop that never sees its
time run out has no result. -/
namespace ErotQspi

structure Bus (D : Type) where
  performTransaction : List UInt8 → Nat → D → EfiStatus × List UInt8 × D
  gpioIsAsserted : D → Bool × D
  nsCounter : D → Nat × D

structure Transfer where
  tx : List UInt8
  status : EfiStatus
deriving DecidableEq, Repr

structure World (D : Type) where
  device : D
  hasMessageAvailable : Bool
  log : List Transfer

abbrev QspiM (D : Type) := StateT (World D) Option

/-! Commands. -/

def cmdSregW8 : UInt8 := 0x09
def cmdSregW32 : UInt8 := 0x0b
def cmdSregR32 : UInt8 := 0x0f
def cmdMemW8 : UInt8 := 0x21
def cmdMemR8 : UInt8 := 0x25
def cmdMemBlkW1 : UInt8 := 0x80
def cmdMemBlkR1 : UInt8 := 0xA0
def cmdBlkRdFifoFsr : UInt8 := 0xE0
def cmdRdSnglFifo8Fsr : UInt8 := 0x68
def cmdGetPollAll : UInt8 := 0x2F

/-! Registers and their values. -/

def regSpiStatus : Nat := 0x04
def regErotMbox : Nat := 0x44
def regHostMbox : Nat := 0x48
def spiStatusMemWriteDone : UInt8 := 0x01
def spiStatusMemReadDone : Nat := 0x02
def hostMboxLengthMask : Nat := 0x000000ff
def hostMboxCmdMask : Nat := 0x0f000000
def hostMboxMsgAvailable : Nat := 0x10000000
def hostMboxCmdAck : Nat := 0x01000000
def mboxCmdRequestWrite : Nat := 0x02000000
def pollAllMemWriteBusy : Nat := 0x0008
def pollAllSregBusy : Nat := 0x0010
def pollAllTxFifoNotEmpty : Nat := 0x0400
def pollAllRxFifoEmpty : Nat := 0x0100
def rxMemStart : Nat := 0x0000

def memMaxBytesPerXfer : Nat := 32
def memBytesPerSingleRead : Nat := 4
def memBlockSize : Nat := 4

def hostMboxPollMsgTimeoutMs : Nat := 0
def hostMboxPollDefaultTimeoutMs : Nat := 100
def hostMboxPollLengthTimeoutMs : Nat := 100
def sregBusyTimeoutMs : Nat := 100
def memBusyTimeoutMs : Nat := 100

def msToNs (ms : Nat) : Nat := ms * 1000 * 1000

/-- `MctpUint16ToBEBuffer`; the value is cast to 16 bits. -/
def uint16ToBEBuffer (value : Nat) : List UInt8 := [UInt8.ofNat (value / 256), UInt8.ofNat value]

def uint32ToBEBuffer (value : Nat) : List UInt8 :=
  [UInt8.ofNat (value / 256 ^ 3), UInt8.ofNat (value / 256 ^ 2), UInt8.ofNat (value / 256), UInt8.ofNat value]

def beBufferToUint32 (buffer : List UInt8) : Nat :=
  (((buffer.getD 0 0).toNat * 256 + (buffer.getD 1 0).toNat) * 256 + (buffer.getD 2 0).toNat) * 256 +
    (buffer.getD 3 0).toNat

/-- `ErotQSpiCopyAndReverseBuffer` over each block of the data. -/
def reverseBlocks : List UInt8 → List UInt8
  | a :: b :: c :: d :: rest => d :: c :: b :: a :: reverseBlocks rest
  | rest => rest

variable {D : Type} (bus : Bus D)

def erotQspiXfer (tx : List UInt8) (rxLength : Nat) : QspiM D (EfiStatus × List UInt8) := fun w =>
  let (status, rx, device) := bus.performTransaction tx rxLength w.device
  some ((status, rx), { w with device, log := w.log ++ [⟨tx, status⟩] })

def erotQspiGpioIsAsserted : QspiM D Bool := fun w =>
  let (asserted, device) := bus.gpioIsAsserted w.device
  some (asserted, { w with device })

def erotQspiNsCounter : QspiM D Nat := fun w =>
  let (now, device) := bus.nsCounter w.device
  some (now, { w with device })

def erotQspiGetPollAll : QspiM D Nat := do
  let (status, rx) ← erotQspiXfer bus [cmdGetPollAll] 4
  if status.isError then
    pure 0
  else
    pure (beBufferToUint32 rx)

def pollForStatusLoop (statusBitMask pollWhile endNs : Nat) : Nat → QspiM D EfiStatus
  | 0 => failure
  | fuel + 1 => do
    let reg ← erotQspiGetPollAll bus
    if reg &&& statusBitMask = pollWhile then
      let now ← erotQspiNsCounter bus
      if endNs ≤ now then
        pure .timeout
      else
        pollForStatusLoop statusBitMask pollWhile endNs fuel
    else
      pure .success

variable (fuel : Nat)

def erotQspiPollForStatus (statusBitMask pollWhile timeoutMs : Nat) : QspiM D EfiStatus := do
  let now ← erotQspiNsCounter bus
  pollForStatusLoop bus statusBitMask pollWhile (now + msToNs timeoutMs) fuel

/-- `ErotQspiSregWrite8` and `ErotQspiSregWrite32`, by command and data;
`ErotQspiSregCheckStatus` accepts every status. -/
def sregWrite (cmd : UInt8) (addr : Nat) (data : List UInt8) : QspiM D EfiStatus := do
  let status ← erotQspiPollForStatus bus fuel pollAllSregBusy pollAllSregBusy sregBusyTimeoutMs
  if status.isError then
    pure status
  else
    let (status, _) ← erotQspiXfer bus (cmd :: uint16ToBEBuffer addr ++ data) 2
    if status.isError then
      pure status
    else
      pure .success

def erotQspiSregWrite8 (addr : Nat) (value : UInt8) : QspiM D EfiStatus :=
  sregWrite bus fuel cmdSregW8 addr [value]

def erotQspiSregWrite32 (addr value : Nat) : QspiM D EfiStatus :=
  sregWrite bus fuel cmdSregW32 addr (uint32ToBEBuffer value)

def erotQspiSregRead32 (addr : Nat) : QspiM D (EfiStatus × Nat) := do
  let status ← erotQspiPollForStatus bus fuel pollAllSregBusy pollAllSregBusy sregBusyTimeoutMs
  if status.isError then
    pure (status, 0)
  else
    let (status, rx) ← erotQspiXfer bus (cmdSregR32 :: uint16ToBEBuffer addr) 6
    if status.isError then
      pure (status, 0)
    else
      pure (.success, beBufferToUint32 (rx.drop 2))

def erotQspiWriteErotMbox (value : Nat) : QspiM D EfiStatus :=
  erotQspiSregWrite32 bus fuel regErotMbox value

/-- What a turn of `ErotQspiPollHostMbox` makes of the mailbox: whether it is done, with the
length, and whether it has seen that a message is available. -/
def hostMboxTurn (pollLengthField : Bool) (cmd mbox : Nat) : Option Nat × Bool :=
  let msgAvailable := mbox &&& hostMboxMsgAvailable ≠ 0
  let mask := if pollLengthField then hostMboxLengthMask else hostMboxCmdMask
  let masked := mbox &&& mask
  if msgAvailable ∧ cmd = hostMboxMsgAvailable then
    (some 0, false)
  else if msgAvailable ∧ cmd = hostMboxCmdAck then
    -- a message that is available serves as the acknowledgement
    (some 0, true)
  else if pollLengthField then
    (if masked ≠ 0 then some masked else none, msgAvailable)
  else
    (if masked = cmd then some 0 else none, msgAvailable)

def pollHostMboxLoop (pollLengthField : Bool) (cmd endNs : Nat) : Nat → QspiM D (EfiStatus × Nat)
  | 0 => failure
  | rounds + 1 => do
    let again : QspiM D (EfiStatus × Nat) := do
      let now ← erotQspiNsCounter bus
      if now < endNs then
        pollHostMboxLoop pollLengthField cmd endNs rounds
      else
        pure (.timeout, 0)
    let asserted ← erotQspiGpioIsAsserted bus
    if asserted = false then
      again
    else
      let (status, mbox) ← erotQspiSregRead32 bus fuel regHostMbox
      if status.isError then
        again
      else
        let (done, seen) := hostMboxTurn pollLengthField cmd mbox
        modify fun w => { w with hasMessageAvailable := w.hasMessageAvailable || seen }
        match done with
        | some length => pure (.success, length)
        | none => again

def erotQspiPollHostMbox (pollLengthField : Bool) (cmd : Nat) : QspiM D (EfiStatus × Nat) := do
  let pollMs :=
    if pollLengthField then hostMboxPollLengthTimeoutMs
    else if cmd = hostMboxMsgAvailable then hostMboxPollMsgTimeoutMs
    else hostMboxPollDefaultTimeoutMs
  let now ← erotQspiNsCounter bus
  pollHostMboxLoop bus fuel pollLengthField cmd (now + msToNs pollMs) fuel

/-! The memory of the mailbox. -/

def erotQspiDoWriteMemCommand (tx : List UInt8) : QspiM D EfiStatus := do
  let status ← erotQspiPollForStatus bus fuel (pollAllMemWriteBusy ||| pollAllRxFifoEmpty) 0 memBusyTimeoutMs
  if status.isError then
    pure status
  else
    let (status, _) ← erotQspiXfer bus tx 0
    if status.isError then
      pure status
    else
      erotQspiSregWrite8 bus fuel regSpiStatus spiStatusMemWriteDone

/-- The command byte of a transfer of so many bytes, from the one for a single block. -/
def blockCmd (first : UInt8) (bytes : Nat) : UInt8 := first + UInt8.ofNat (bytes / memBlockSize - 1)

/-- `EROT_QSPI_WRITE_MEM_TX` for whole blocks. -/
def writeBlocksTx (addr : Nat) (payload : List UInt8) : List UInt8 :=
  blockCmd cmdMemBlkW1 payload.length :: uint16ToBEBuffer addr ++ reverseBlocks payload

def writeByteTx (addr : Nat) (byte : UInt8) : List UInt8 :=
  cmdMemW8 :: uint16ToBEBuffer addr ++ [byte]

def writeBytes (addr : Nat) : List UInt8 → QspiM D Unit
  | [] => pure ()
  | byte :: payload => do
    let _ ← erotQspiDoWriteMemCommand bus fuel (writeByteTx addr byte)
    writeBytes (addr + 1) payload

/-- `XferBytes` for whole blocks. -/
def blockBytes (bytes : Nat) : Nat :=
  min bytes memMaxBytesPerXfer - min bytes memMaxBytesPerXfer % memBlockSize

theorem blockBytes_pos {bytes : Nat} (h : memBlockSize ≤ bytes) : 0 < blockBytes bytes := by
  unfold blockBytes memBlockSize memMaxBytesPerXfer at *
  omega

theorem blockBytes_le (bytes : Nat) : blockBytes bytes ≤ bytes := by
  unfold blockBytes
  omega

/-- The loop of `ErotQspiWriteMem`. What `ErotQspiDoWriteMemCommand` returns is dropped. -/
def writeMemLoop (addr : Nat) (payload : List UInt8) : QspiM D Unit :=
  if memBlockSize ≤ payload.length then do
    let xferBytes := blockBytes payload.length
    let _ ← erotQspiDoWriteMemCommand bus fuel (writeBlocksTx addr (payload.take xferBytes))
    writeMemLoop (addr + xferBytes) (payload.drop xferBytes)
  else
    writeBytes bus fuel addr payload
termination_by payload.length
decreasing_by
  rename_i h
  have := blockBytes_pos h
  rw [List.length_drop]
  unfold memBlockSize at h
  omega

/-- `Bytes` is a `UINT32`. -/
def erotQspiWriteMem (offset : Nat) (data : List UInt8) : QspiM D EfiStatus := do
  writeMemLoop bus fuel offset (data.take (u32 data.length))
  pure .success

def erotQspiDoReadMemCommand (cmd1 cmd2 : UInt8) (addr bytes : Nat) :
    QspiM D (EfiStatus × List UInt8) := do
  let (status, _) ← erotQspiXfer bus (cmd1 :: uint16ToBEBuffer addr) 0
  if status.isError then
    pure (status, [])
  else
    let status ← erotQspiPollForStatus bus fuel pollAllTxFifoNotEmpty pollAllTxFifoNotEmpty memBusyTimeoutMs
    if status.isError then
      pure (status, [])
    else
      let (status, rx) ← erotQspiXfer bus [cmd2] (2 + bytes)
      if status.isError then
        pure (status, [])
      else
        let status ← erotQspiSregWrite32 bus fuel regSpiStatus spiStatusMemReadDone
        pure (status, (rx.drop 2).take bytes)

/-- The single bytes behind the blocks, appended to what has been read. -/
def readBytes (addr : Nat) : Nat → List UInt8 → QspiM D (EfiStatus × List UInt8)
  | 0, data => pure (.success, data)
  | bytes + 1, data => do
    let (status, buffer) ← erotQspiDoReadMemCommand bus fuel cmdMemR8 cmdRdSnglFifo8Fsr addr memBytesPerSingleRead
    if status.isError then
      pure (status, data)
    else
      readBytes (addr + 1) bytes (data ++ [buffer.getD (memBytesPerSingleRead - 1) 0])

def readMemLoop (addr bytes : Nat) (data : List UInt8) : QspiM D (EfiStatus × List UInt8) :=
  if memBlockSize ≤ bytes then do
    let xferBytes := blockBytes bytes
    let (status, buffer) ← erotQspiDoReadMemCommand bus fuel (blockCmd cmdMemBlkR1 xferBytes)
      (blockCmd cmdBlkRdFifoFsr xferBytes) addr xferBytes
    if status.isError then
      pure (status, data)
    else
      readMemLoop (addr + xferBytes) (bytes - xferBytes) (data ++ reverseBlocks buffer)
  else
    readBytes bus fuel addr bytes data
termination_by bytes
decreasing_by
  rename_i h
  have := blockBytes_pos h
  unfold memBlockSize at h
  omega

def erotQspiReadMem (offset bytes : Nat) : QspiM D (EfiStatus × List UInt8) :=
  readMemLoop bus fuel offset (u32 bytes) []

/-- `ErotQspiSendPacket`, for the first `Length` bytes of the packet buffer. -/
def erotQspiSendPacket (packet : List UInt8) : QspiM D EfiStatus := do
  let status ← erotQspiWriteErotMbox bus fuel mboxCmdRequestWrite
  if status.isError then
    pure status
  else
    let (status, _) ← erotQspiPollHostMbox bus fuel false hostMboxCmdAck
    if status.isError then
      pure status
    else
      let status ← erotQspiWriteMem bus fuel rxMemStart packet
      if status.isError then
        pure status
      else
        let status ← erotQspiWriteErotMbox bus fuel packet.length
        if status.isError then
          pure status
        else
          let (status, _) ← erotQspiPollHostMbox bus fuel false hostMboxCmdAck
          pure status

end ErotQspi
