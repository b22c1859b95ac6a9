/-
The SPI interface to the SPI master of the subsystem: `ss_spi_master.c`.

The driver below calls `ss_spi_master_tx_cb` and `ss_spi_master_rx_cb` from its idle interrupt
routine, and these call back to the user.  So the routine is given here as a whole, with what is
left of it behind a callback of the user as an `SsSpiRest`.

The size pointers passed to the driver below point to fields of `xfer`; they are not written
through, since the sizes of a two-way transfer are equal.  The blocking calls and the error
interrupt are left out.
-/
import Embarc.DesignWare.SpiPort
import Embarc.Lib.Reentry
import Embarc.Subsystem.SpiMaster

namespace Embarc

open Reentry (Task)

/-- The device, and the clock it runs on. -/
structure SsSpiMasterHw extends SsSpiHw where
  busFreq : Word

/-- A transfer, and what was sent and received up to some point of it. -/
structure SsSpiMark where
  xfer : DevSpiTransfer
  logXferSize : Nat
  sent : List Word
  got : List Word
  mem : Word → Byte

/-- A callback of the user, and the point at which it was made. -/
structure SsSpiCall extends SsSpiMark where
  cbrtn : SpiCbrtn

/-- `SS_SPI_MASTER_DEV_CONTEXT` and `DEV_SPI_INFO`, with the device below. -/
structure SsSpi where
  io : SsSpiInfo
  opnCnt : BitVec 8
  status : Word
  freq : Word
  slave : Byte
  dfs : Byte
  flags : Word
  xfer : DevSpiTransfer
  cbs : DevSpiCbs
  /-- `int_rx_cb`, `int_tx_cb` and `int_err_cb`: the functions that lead to `ss_spi_master_rx_cb`
  and the other two. -/
  intCbs : DevCbs
  /-- The interrupts are enabled at the processor. -/
  irq : Bool
  /-- The callbacks made so far. -/
  calls : List SsSpiCall

/-- What the idle interrupt routine still has to do behind a callback of the user. -/
inductive SsSpiRest where
  | idleTx
  | idleRx
  /-- The receive was part of an `SPI_CMD_TRANSFER_INT`. -/
  | idleXfer
deriving DecidableEq, Repr

abbrev SsSpiTask := Task SsSpi SsSpiRest

/-- As `dfss_spi_0_install` leaves the device. -/
def SsSpi.installed (hw : SsSpiMasterHw) (intCbs : DevCbs) : SsSpi where
  io := .fresh hw.toSsSpiHw
  opnCnt := 0
  status := 0
  freq := 1000000
  slave := spiSlaveNotSelected
  dfs := 8
  flags := 0
  xfer := { txBuf := 0, txOfs := 0, txLen := 0, rxBuf := 0, rxOfs := 0, rxLen := 0 }
  cbs := .cleared
  intCbs := intCbs
  irq := false
  calls := []

def ssSpiTxReady : Word := 0x1#32
def ssSpiRxReady : Word := 0x2#32
def ssSpiBusy : Word := 0x4#32
def ssSpiTxRx : Word := 0x8#32

namespace SsSpi

def setFlags (s : SsSpi) (bits : Word) : SsSpi := { s with flags := s.flags ||| bits }

def clearFlags (s : SsSpi) (bits : Word) : SsSpi := { s with flags := s.flags &&& ~~~bits }

def mark (s : SsSpi) : SsSpiMark where
  xfer := s.xfer
  logXferSize := s.io.logXferSize
  sent := s.io.sent
  got := s.io.got
  mem := s.io.mem

def call (s : SsSpi) (cbrtn : SpiCbrtn) : SsSpi :=
  { s with calls := s.calls ++ [{ s.mark with cbrtn }] }

/-- A callback is called if there is one, and `behind` is what follows if there is none. -/
def callback (s : SsSpi) (cbrtn : SpiCbrtn) (rest : SsSpiRest) (behind : SsSpi → SsSpiTask) :
    SsSpiTask :=
  if s.cbs.of cbrtn ≠ 0 then .calls (s.call cbrtn) rest else behind s

end SsSpi

section Device

variable (hw : SsSpiMasterHw)

/-! ### Open and close -/

namespace SsSpi

def ioctl (s : SsSpi) (cmd : SpiMstIoctl) : Except SsSpiStop SsSpi :=
  (ioSpiMasterIoctl hw.toSsSpiHw s.io cmd).map fun io => { s with io }

/-- Commands for the device below, one after the other. -/
def ioctls (s : SsSpi) (cmds : List SpiMstIoctl) : Except SsSpiStop SsSpi := cmds.foldlM (ioctl hw) s

/-- The frequency is noted and set, by an open and by `SPI_CMD_MST_SET_FREQ`. -/
def setFreq (s : SsSpi) (freq : Word) : Except SsSpiStop SsSpi :=
  if freq = 0 then .error .divZero
  else { s with freq }.ioctl hw (.setBaud (hw.busFreq / freq))

variable {hw} in
theorem ioctl_of_setFreq {s s' : SsSpi} {freq : Word} (h : s.setFreq hw freq = .ok s') :
    { s with freq }.ioctl hw (.setBaud (hw.busFreq / freq)) = .ok s' := by
  rw [setFreq] at h
  split_ifs at h
  exact h

end SsSpi

def ssSpiMasterOpen (s : SsSpi) (mode param : Word) : Except SsSpiStop (Int × SsSpi) :=
  if mode ≠ 0 then .ok (ePar, s)
  else if s.opnCnt > 0 then .ok (if param ≠ s.freq then eOpned else eOk, s)
  else
    let (err, io) := ioSpiMasterOpen hw.toSsSpiHw s.io
    let s := { s with io }
    if err ≠ 0 then .ok (eSys, s)
    else do
      let s ← s.ioctls hw [.setCb (.ofDir .rx) s.intCbs.rxCb, .setCb (.ofDir .tx) s.intCbs.txCb,
        .setCb .err s.intCbs.errCb, .setDfs (s.dfs.setWidth 32), .setPacking 1]
      let s ← s.setFreq hw param
      return (eOk, { s with opnCnt := s.opnCnt + 1, flags := 0, irq := true })

def ssSpiMasterClose (s : SsSpi) : Except SsSpiStop (Int × SsSpi) :=
  let s := { s with opnCnt := s.opnCnt - 1 }
  if s.opnCnt = 0 then do
    let io ← ioSpiMasterClose s.io
    return (eOk, { s with io, irq := false, status := 0, flags := 0 })
  else .ok (eOpned, s)

/-! ### Transfers -/

def SsSpi.startWrite (s : SsSpi) (mode data size txflr : Word) : Except SsSpiStop SsSpi := do
  let s ← s.ioctl hw (.setTransferMode mode)
  let io ← ioSpiMasterWrite hw.toSsSpiHw s.io data size txflr
  return { s with io }

def SsSpi.startRead (s : SsSpi) (mode data size : Word) : Except SsSpiStop SsSpi := do
  let s ← s.ioctl hw (.setTransferMode mode)
  let io ← ioSpiMasterRead s.io data size 0
  return { s with io }

/-- A transfer mode is set, and a read and then a write are started. -/
def SsSpi.startBoth (s : SsSpi) (mode rxBuf rxSize txBuf txSize txflr : Word) :
    Except SsSpiStop SsSpi := do
  let s ← s.startRead hw mode rxBuf rxSize
  let io ← ioSpiMasterWrite hw.toSsSpiHw s.io txBuf txSize txflr
  return { s with io }

/-- `SPI_CMD_TRANSFER_INT`, for a device that is not busy. -/
def ssSpiTransferInt (s : SsSpi) (x : DevSpiTransfer) (txflr : Word) :
    Except SsSpiStop (Int × SsSpi) :=
  let s := { s with flags := ssSpiBusy ||| ssSpiTxRx, xfer := x }
  if x.rxLen = 0 then do
    let s ← (s.setFlags ssSpiTxReady).startWrite hw spiTransmitOnlyMode x.txBuf x.txLen txflr
    return (eOk, s)
  else if x.txLen = 0 then do
    let s ← (s.setFlags ssSpiRxReady).startRead hw spiReceiveOnlyMode x.rxBuf x.rxLen
    return (eOk, s)
  else if x.rxOfs = x.txLen ∧ x.txOfs = 0 then do
    let s ← (s.setFlags (ssSpiRxReady ||| ssSpiTxReady)).startBoth hw spiReceiveAfterTransmitMode
      x.rxBuf x.rxLen x.txBuf x.txLen txflr
    return (eOk, s)
  else if x.txOfs ≠ 0 ∨ x.rxOfs ≠ 0 then .ok (eNospt, s)
  else do
    let totLen := BitVec.ofNat 32 x.totLen
    let s ← (s.setFlags (ssSpiRxReady ||| ssSpiTxReady)).startBoth hw spiTransmitReceiveMode
      x.rxBuf totLen x.txBuf totLen txflr
    return (eOk, s)

/-- The commands of `ss_spi_master_control`.  A null pointer is `none`; `txflr` is the level of the
transmit FIFO where one is filled, and `polled` what a polled transfer has made of the device. -/
inductive SsSpiCtrl where
  | setTxintBuf (buf : Option DevBuffer)
  | setTxint (val txflr : Word)
  | setRxintBuf (buf : Option DevBuffer)
  | setRxint (val : Word)
  | transferInt (xfer : Option DevSpiTransfer) (txflr : Word)
  | transferPolling (xfer : List DevSpiTransfer) (sent got : List Word) (mem : Word → Byte)
  | setCb (which : SpiCb) (param : Word)
  | setClkMode (val : Word)
  | setDfs (val : Word)
  | mstSetFreq (val : Word)
  | mstSelDev (val : Word)
  | mstDselDev (val : Word)
  | other

namespace SsSpi

/-- What `SPI_CMD_SET_CLK_MODE` sends to the device below. -/
def clkModeIoctls (val : Word) : List SpiMstIoctl :=
  if val = 0 then [.setScpl 0, .setScph 0]
  else if val = 1 then [.setScpl 0, .setScph 1]
  else if val = 2 then [.setScpl 1, .setScph 0]
  else if val = 3 then [.setScpl 1, .setScph 1]
  else []

/-- A command that is answered with `E_OK`. -/
def ok (s : Except SsSpiStop SsSpi) : Except SsSpiStop (Int × SsSpi) := s.map fun s => (eOk, s)

end SsSpi

def ssSpiMasterControl (s : SsSpi) : SsSpiCtrl → Except SsSpiStop (Int × SsSpi)
  | .setTxintBuf (some buf) =>
    if hasFlag s.flags ssSpiBusy then .ok (eNospt, s)
    else
      let xfer := { s.xfer with txBuf := buf.buf, txOfs := buf.ofs, txLen := buf.len }
      .ok (eOk, { s with xfer }.setFlags ssSpiTxReady)
  | .setTxint val txflr =>
    if val ≠ 0 ∧ hasFlag s.flags ssSpiTxReady = true ∧ hasFlag s.flags ssSpiBusy = false then
      SsSpi.ok <| (s.setFlags ssSpiBusy).startWrite hw spiTransmitOnlyMode
        (s.xfer.txBuf + s.xfer.txOfs) s.xfer.txLen txflr
    else .ok (eSys, s)
  | .setRxintBuf (some buf) =>
    if hasFlag s.flags ssSpiBusy then .ok (eNospt, s)
    else
      let xfer := { s.xfer with rxBuf := buf.buf, rxOfs := buf.ofs, rxLen := buf.len }
      .ok (eOk, { s with xfer }.setFlags ssSpiRxReady)
  | .setRxint val =>
    if val ≠ 0 ∧ hasFlag s.flags ssSpiRxReady = true ∧ hasFlag s.flags ssSpiBusy = false then
      SsSpi.ok <| (s.setFlags ssSpiBusy).startRead hw spiReceiveOnlyMode
        (s.xfer.rxBuf + s.xfer.rxOfs) s.xfer.rxLen
    else .ok (eSys, s)
  | .transferInt (some x) txflr =>
    if hasFlag s.flags ssSpiBusy then .ok (eNospt, s) else ssSpiTransferInt hw s x txflr
  | .transferPolling (_ :: _) sent got mem =>
    if hasFlag s.flags ssSpiBusy then .ok (eNospt, s)
    else if s.io.handle then
      let regs := { s.io.regs with spien := 1 }
      .ok (eOk, { s with
        flags := 0
        io := { s.io with regs, sent := s.io.sent ++ sent, got := s.io.got ++ got, mem } })
    else .error .nullHandle
  | .setTxintBuf none | .setRxintBuf none | .transferInt none _ | .transferPolling [] _ _ _ =>
    .ok (eNospt, s)
  | .setCb which param => .ok (eOk, { s with cbs := s.cbs.set which param })
  | .setClkMode val => SsSpi.ok (s.ioctls hw (SsSpi.clkModeIoctls val))
  | .setDfs val => SsSpi.ok (s.ioctl hw (.setDfs val))
  | .mstSetFreq val => SsSpi.ok (s.setFreq hw val)
  | .mstSelDev val =>
    SsSpi.ok ({ s with slave := val.setWidth 8 }.ioctl hw (.setSe (shl1 val.toNat)))
  | .mstDselDev val =>
    let se := s.slave.setWidth 32 &&& ~~~shl1 val.toNat
    SsSpi.ok ({ s with slave := spiSlaveNotSelected }.ioctl hw (.setSe se))
  | .other => .ok (eNospt, s)

/-! ### The idle interrupt -/

/-- `spi_mst_idle_ISR_proc` behind `ss_spi_master_rx_cb`. -/
def spiMstIdleRxEnd (s : SsSpi) : SsSpi := { s with io := s.io.mask (rSpiRxFull ||| rSpiIdle) }

/-- `ss_spi_master_rx_cb` behind its callback. -/
def ssSpiMasterRxCbEnd (s : SsSpi) : SsSpi := s.clearFlags (ssSpiRxReady ||| ssSpiBusy)

/-- The same for a transfer. -/
def ssSpiMasterXferCbEnd (s : SsSpi) : SsSpi :=
  s.clearFlags (ssSpiRxReady ||| ssSpiTxReady ||| ssSpiBusy ||| ssSpiTxRx)

def ssSpiMasterRxCb (s : SsSpi) : SsSpiTask :=
  if hasFlag s.flags ssSpiTxRx then
    let behind := fun s => .done (spiMstIdleRxEnd (ssSpiMasterXferCbEnd s))
    if hasFlag s.flags ssSpiRxReady then s.callback .xfer .idleXfer behind else behind s
  else
    let behind := fun s => .done (spiMstIdleRxEnd (ssSpiMasterRxCbEnd s))
    if hasFlag s.flags ssSpiRxReady then s.callback .rcv .idleRx behind else behind s

/-- The second half of `spi_mst_idle_ISR_proc`. -/
def spiMstIdleRx (s : SsSpi) (frames : List Word) : SsSpiTask :=
  if s.io.handlingRx then
    let s := { s with io := ssRetrieveRxfifo { s.io with handlingRx := false } frames }
    if s.io.cbs.get (.ofDir .rx) ≠ 0 then ssSpiMasterRxCb s else .done (spiMstIdleRxEnd s)
  else .done s

/-- Behind `ss_spi_master_tx_cb`. -/
def spiMstIdleTxEnd (s : SsSpi) (frames : List Word) : SsSpiTask :=
  spiMstIdleRx { s with io := s.io.mask (rSpiTxEmpty ||| rSpiIdle) } frames

/-- `ss_spi_master_tx_cb` behind its callback. -/
def ssSpiMasterTxCbEnd (s : SsSpi) : SsSpi := s.clearFlags (ssSpiTxReady ||| ssSpiBusy)

def ssSpiMasterTxCb (s : SsSpi) (frames : List Word) : SsSpiTask :=
  let behind := fun s => spiMstIdleTxEnd (ssSpiMasterTxCbEnd s) frames
  if hasFlag s.flags ssSpiTxRx then
    if s.xfer.rxLen = 0 then
      let s := s.clearFlags ssSpiTxRx
      if hasFlag s.flags ssSpiTxReady then s.callback .xfer .idleTx behind else behind s
    else behind s
  else if hasFlag s.flags ssSpiTxReady then s.callback .snd .idleTx behind
  else behind s

/-- `frames` is what the receive FIFO holds where it is emptied. -/
def spiMstIdleIsr (s : SsSpi) (frames : List Word) : SsSpiTask :=
  if s.io.handlingTx then
    let s := { s with io := { s.io with handlingTx := false } }
    if s.io.cbs.get (.ofDir .tx) ≠ 0 then ssSpiMasterTxCb s frames else spiMstIdleTxEnd s frames
  else spiMstIdleRx s frames

def ssSpiResume (rest : SsSpiRest) (frames : List Word) (s : SsSpi) : Except SsSpiStop SsSpiTask :=
  match rest with
  | .idleTx => .ok (spiMstIdleTxEnd (ssSpiMasterTxCbEnd s) frames)
  | .idleRx => .ok (.done (spiMstIdleRxEnd (ssSpiMasterRxCbEnd s)))
  | .idleXfer => .ok (.done (spiMstIdleRxEnd (ssSpiMasterXferCbEnd s)))

/-- Calls, made by a thread or by a callback, and interrupts. -/
inductive SsSpiOp where
  | control (cmd : SsSpiCtrl)
  | rxIsr (frames : List Word)
  | txIsr (txflr : Word)
  | idleIsr (frames : List Word)

/-- An interrupt routine follows the handle first. -/
def SsSpi.serve (s : SsSpi) (t : SsSpiTask) : Except SsSpiStop SsSpiTask :=
  if s.io.handle then .ok t else .error .nullHandle

def ssSpiEnter (s : SsSpi) : SsSpiOp → Except SsSpiStop SsSpiTask
  | .control cmd => (ssSpiMasterControl hw s cmd).map fun r => .done r.2
  | .rxIsr frames => s.serve (.done { s with io := spiMstRxIsr s.io frames })
  | .txIsr txflr => s.serve (.done { s with io := spiMstTxIsr hw.toSsSpiHw s.io txflr })
  | .idleIsr frames => s.serve (spiMstIdleIsr s frames)

abbrev ssSpiStep := Reentry.step (ssSpiEnter hw) ssSpiResume

end Device

end Embarc
