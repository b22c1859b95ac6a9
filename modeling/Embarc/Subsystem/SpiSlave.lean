/-
The SPI slave of the sensor and control subsystem: `spi_slave.c`, built without DMA.

A transfer in each direction may be outstanding at the same time.  The interrupts for the two FIFOs
move the frames, and the idle interrupt, which the two directions share, ends a transfer and calls
back.  What the routine does behind a callback is a `SpiSlvRest`.

A call or an interrupt routine is not itself interrupted; only a callback is.  Closing, the
interrupt vectors and the error interrupt are left out.
-/
import Embarc.Lib.Reentry
import Embarc.Subsystem.I2cMaster
import Embarc.Subsystem.SpiInfo

namespace Embarc

open Reentry (Task)

/-- What `spi_slv_idle_ISR_proc` still has to do behind a callback. -/
inductive SpiSlvRest where
  | idleTx
  | idleRx
deriving DecidableEq, Repr

abbrev SpiSlvTask := Task SsSpiInfo SpiSlvRest

/-- A callback is called if there is one, and `behind` is what follows if there is none. -/
def SsSpiInfo.callback (s : SsSpiInfo) (which : DevCb) (rest : SpiSlvRest)
    (behind : SsSpiInfo → SpiSlvTask) : SpiSlvTask :=
  if s.cbs.get which ≠ 0 then .calls (s.call which) rest else behind s

/-! ### Open and settings -/

section Device

variable (hw : SsSpiHw)

def ioSpiSlaveOpen (s : SsSpiInfo) : Word × SsSpiInfo :=
  if hw.present = false ∨ s.handle = true then (1, s)
  else
    let s := { s with
      handle := true
      logXferSize := hw.maxLog
      regs := { s.regs with
        clkEna := 1
        ctrl0 := if hw.maxXferSize = 16 then regWriteBits 0 15 4 0 else regWriteBits 0 31 5 16
        imr := ~~~(rSpiTxEmpty ||| rSpiRxFull ||| rSpiTxUnder) } }
    let s := { s with handlingRx := false, handlingTx := false }
    (0, { s with regs := { s.regs with spien := 1 } })

/-- The commands of `io_spi_slave_ioctl`, with what `arg` points to. -/
inductive SpiSlvIoctl where
  | setCb (which : DevCb) (cb : Word)
  | setRxThreshold (arg : Word)
  | setTxThreshold (arg : Word)
  | setPacking (arg : Word)
  | setTransferMode (arg : Word)
  | setScph (arg : Word)
  | setScpl (arg : Word)
  | setSrlMode (arg : Word)
  | setOutputEnable (arg : Word)
  | setDfs (arg : Word)
  | other

/-- What a command does to CTRL0, with the controller off. -/
def spiSlvCtrl0 (log : Nat) (ctrl0 : Word) : SpiSlvIoctl → Word
  | .setTransferMode arg => regWriteBits ctrl0 arg 2 8
  | .setScph arg => regWriteBits ctrl0 arg 1 6
  | .setScpl arg => regWriteBits ctrl0 arg 1 7
  | .setSrlMode arg => regWriteBits ctrl0 arg 1 11
  | .setOutputEnable arg => regWriteBits ctrl0 arg 1 10
  | .setDfs arg => regWriteBits ctrl0 (arg - 1) (3 + log) (spiDfsPos log)
  | _ => ctrl0

/-- How many bytes a frame of the set size is packed into. -/
def spiSlvPacked (ctrl0 : Word) : Nat :=
  if hw.maxXferSize = 32 then
    let dfs := ctrl0 >>> 16 &&& 0x1f#32
    if dfs = 15 then 1 else if dfs = 7 then 0 else hw.maxLog
  else if ctrl0 &&& 0xf#32 = 7 then 0 else hw.maxLog

def ioSpiSlaveIoctl (s : SsSpiInfo) : SpiSlvIoctl → SsSpiInfo
  | .setCb which cb => { s with cbs := s.cbs.set which cb }
  | .setRxThreshold arg => { s with regs := { s.regs with rxftlr := arg } }
  | .setTxThreshold arg => { s with regs := { s.regs with txftlr := arg } }
  | .setPacking arg =>
    { s with
      logXferSize := if arg = 0 then hw.maxLog else spiSlvPacked hw s.regs.ctrl0 }
  | cmd =>
    { s with regs := { s.regs with
      spien := 1
      ctrl0 := spiSlvCtrl0 s.logXferSize s.regs.ctrl0 cmd } }

/-! ### Requests -/

/-- What follows the handle, which is null unless the device is open. -/
def SsSpiInfo.opened (s : SsSpiInfo) (t : SpiSlvTask) : Except SsSpiStop SpiSlvTask :=
  if s.handle then .ok t else .error .nullHandle

namespace SsSpiInfo

/-- `size` is what `pSize` points to. -/
def slaveRead (s : SsSpiInfo) (data size pSize : Word) : SsSpiInfo :=
  let s := { s with rxSize := size, pRxsize := pSize, rxCount := 0, rxBuff := data }
  { s with handlingRx := true }.unmask (rSpiRxFull ||| rSpiIdle)

def slaveWrite (s : SsSpiInfo) (data size txflr : Word) : SsSpiInfo :=
  let s := { s with txSize := size, txCount := 0, txBuff := data }
  let s := ssFillTxfifo hw { s with handlingTx := true } txflr
  if s.transferMode = spiTransmitOnlyMode then s.unmask (rSpiTxEmpty ||| rSpiIdle)
  else s.unmask (rSpiTxEmpty ||| rSpiIdle ||| rSpiRxFull)

end SsSpiInfo

def ioSpiSlaveRead (s : SsSpiInfo) (data size pSize : Word) : Except SsSpiStop SpiSlvTask :=
  s.opened (.done (s.slaveRead data size pSize))

def ioSpiSlaveWrite (s : SsSpiInfo) (data size txflr : Word) : Except SsSpiStop SpiSlvTask :=
  s.opened (.done (s.slaveWrite hw data size txflr))

/-! ### Interrupts -/

def spiSlvRxIsr (s : SsSpiInfo) (frames : List Word) : SsSpiInfo :=
  let s := ssRetrieveRxfifo s frames
  if s.rxDone then s.mask rSpiRxFull else s

def spiSlvTxIsr (s : SsSpiInfo) (txflr : Word) : SsSpiInfo :=
  if s.txDone then s.mask rSpiTxEmpty else ssFillTxfifo hw s txflr

/-- `spi_slv_idle_ISR_proc` behind its second callback. -/
def spiSlvIdleRxEnd (s : SsSpiInfo) : SsSpiInfo := s.mask (rSpiRxFull ||| rSpiIdle)

/-- The second half of `spi_slv_idle_ISR_proc`. -/
def spiSlvIdleRx (s : SsSpiInfo) (frames : List Word) : SpiSlvTask :=
  if s.handlingRx then
    let s := ssRetrieveRxfifo s frames
    if s.rxDone then
      { s with handlingRx := false }.callback (.ofDir .rx) .idleRx fun s => .done (spiSlvIdleRxEnd s)
    else .done s
  else .done s

/-- Behind its first callback. -/
def spiSlvIdleTxEnd (s : SsSpiInfo) (frames : List Word) : SpiSlvTask :=
  spiSlvIdleRx (s.mask (rSpiTxEmpty ||| rSpiIdle)) frames

def spiSlvIdleIsr (s : SsSpiInfo) (frames : List Word) : SpiSlvTask :=
  if s.handlingTx = true ∧ s.txDone = true then
    { s with handlingTx := false }.callback (.ofDir .tx) .idleTx fun s => spiSlvIdleTxEnd s frames
  else spiSlvIdleRx s frames

/-! ### The driver over a run -/

/-- Requests, made by a thread or by a callback, and interrupts. -/
inductive SpiSlvOp where
  | read (data size pSize : Word)
  | write (data size txflr : Word)
  | rxIsr (frames : List Word)
  | txIsr (txflr : Word)
  | idleIsr (frames : List Word)

def spiSlvEnter (s : SsSpiInfo) : SpiSlvOp → Except SsSpiStop SpiSlvTask
  | .read data size pSize => ioSpiSlaveRead s data size pSize
  | .write data size txflr => ioSpiSlaveWrite hw s data size txflr
  | .rxIsr frames => s.opened (.done (spiSlvRxIsr s frames))
  | .txIsr txflr => s.opened (.done (spiSlvTxIsr hw s txflr))
  | .idleIsr frames => s.opened (spiSlvIdleIsr s frames)

/-- A callback has returned, and `frames` is what the receive FIFO holds then. -/
def spiSlvResume (rest : SpiSlvRest) (frames : List Word) (s : SsSpiInfo) :
    Except SsSpiStop SpiSlvTask :=
  match rest with
  | .idleTx => .ok (spiSlvIdleTxEnd s frames)
  | .idleRx => .ok (.done (spiSlvIdleRxEnd s))

abbrev spiSlvStep := Reentry.step (spiSlvEnter hw) spiSlvResume

end Device

end Embarc
