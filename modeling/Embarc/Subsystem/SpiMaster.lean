/-
The SPI master of the sensor and control subsystem: `spi_master.c`, built without DMA.

Requests, settings and the two interrupt routines that move frames are functions on the device.
`spi_mst_idle_ISR_proc`, which ends a transfer, calls back into the layer above and is given there.
The polled transfer is given as the turns of its loop.

The wait loops for the controller to be off and the interrupt vectors are left out, and so is the
error interrupt.
-/
import Embarc.DesignWare.Spi
import Embarc.Subsystem.I2cMaster
import Embarc.Subsystem.SpiInfo

namespace Embarc

section Device

variable (hw : SsSpiHw)

/-! ### Open and close -/

def ioSpiMasterOpen (s : SsSpiInfo) : Word × SsSpiInfo :=
  if hw.present = false ∨ s.handle = true then (1, s)
  else
    let s := { s with
      handle := true
      regs := { s.regs with
        clkEna := 1
        ctrl0 := if s.logXferSize = 1 then regWriteBits 0 15 4 0 else regWriteBits 0 31 5 16
        imr := ~~~(rSpiTxEmpty ||| rSpiRxFull ||| rSpiIdle) } }
    let s := { s with handlingRx := false, handlingTx := false }
    (0, { s with regs := { s.regs with spien := 1 } })

/-- What closing does to a device that is open. -/
def SsSpiInfo.masterClosed (s : SsSpiInfo) : SsSpiInfo :=
  { s with
    regs :=
      { ctrl0 := 7, ctrl1 := 0, spien := 0, ser := 0, baudr := 0, txftlr := 0, rxftlr := 0
        imr := 0xff, clkEna := 0, rxSampleDly := 0 }
    cbs := .cleared
    handle := false }

def ioSpiMasterClose (s : SsSpiInfo) : Except SsSpiStop SsSpiInfo :=
  if s.handle then .ok s.masterClosed else .error .nullHandle

/-! ### Settings -/

/-- The commands of `io_spi_master_ioctl`, with what `arg` points to. -/
inductive SpiMstIoctl where
  | setCb (which : DevCb) (cb : Word)
  | setSe (arg : Word)
  | setRxThreshold (arg : Word)
  | setTxThreshold (arg : Word)
  | getXferSize
  | setPacking (arg : Word)
  | setBaud (arg : Word)
  | setRxDelay (arg : Word)
  | setTransferMode (arg : Word)
  | setScph (arg : Word)
  | setScpl (arg : Word)
  | setSrlMode (arg : Word)
  | setDfs (arg : Word)
  | other

/-- What a command does to the registers, with the controller off. -/
def SsSpiRegs.set (log : Nat) (regs : SsSpiRegs) : SpiMstIoctl → SsSpiRegs
  | .setBaud arg => { regs with baudr := arg }
  | .setRxDelay arg => { regs with rxSampleDly := arg }
  | .setTransferMode arg => { regs with ctrl0 := regWriteBits regs.ctrl0 arg 2 8 }
  | .setScph arg => { regs with ctrl0 := regWriteBits regs.ctrl0 arg 1 6 }
  | .setScpl arg => { regs with ctrl0 := regWriteBits regs.ctrl0 arg 1 7 }
  | .setSrlMode arg => { regs with ctrl0 := regWriteBits regs.ctrl0 arg 1 11 }
  | .setDfs arg => { regs with ctrl0 := regWriteBits regs.ctrl0 (arg - 1) (3 + log) (spiDfsPos log) }
  | _ => regs

/-- How many bytes a frame of the set size is packed into. -/
def spiMstPacked (ctrl0 : Word) : Nat :=
  if hw.maxXferSize = 32 then
    let dfs := ctrl0 >>> 16 &&& 0x1f#32
    if dfs = 15 then 1 else if dfs = 7 then 0 else 2
  else if ctrl0 &&& 0xf#32 = 7 then 0 else 1

def SsSpiInfo.masterIoctl (s : SsSpiInfo) : SpiMstIoctl → SsSpiInfo
  | .setCb which cb => { s with cbs := s.cbs.set which cb }
  | .setSe arg => { s with regs := { s.regs with ser := arg } }
  | .setRxThreshold arg => { s with regs := { s.regs with rxftlr := arg } }
  | .setTxThreshold arg => { s with regs := { s.regs with txftlr := arg } }
  | .getXferSize => s
  | .setPacking arg =>
    { s with logXferSize := if arg = 0 then hw.maxLog else spiMstPacked hw s.regs.ctrl0 }
  | cmd => { s with regs := { s.regs.set s.logXferSize cmd with spien := 1 } }

def ioSpiMasterIoctl (s : SsSpiInfo) (cmd : SpiMstIoctl) : Except SsSpiStop SsSpiInfo :=
  if s.handle then .ok (s.masterIoctl hw cmd) else .error .nullHandle

/-! ### Requests -/

namespace SsSpiInfo

/-- The number of frames to be received, less one, as it is written to CTRL1. -/
def rxFrames (s : SsSpiInfo) : Word :=
  (s.rxSize + BitVec.ofNat 32 (2 * s.logXferSize) - 1) >>> s.logXferSize - 1

/-- `size` is what `pSize` points to. -/
def masterRead (s : SsSpiInfo) (data size pSize : Word) : SsSpiInfo :=
  let s := { s with rxSize := size, pRxsize := pSize, rxCount := 0, rxBuff := data }
  let s := { s with handlingRx := true }
  let s := { s with regs := { s.regs with ctrl1 := s.rxFrames, spien := 1 } }
  if s.transferMode = spiReceiveOnlyMode then
    { s with sent := s.sent ++ [0xdeadbeef] }.unmask (rSpiRxFull ||| rSpiIdle)
  else s

def masterWrite (s : SsSpiInfo) (data size txflr : Word) : SsSpiInfo :=
  let s := { s with txSize := size, txCount := 0, txBuff := data }
  let s :=
    if s.transferMode = spiTransmitReceiveMode ∧ s.rxSize > s.txSize then
      { s with rxSize := s.txSize, sizes := Function.update s.sizes s.pRxsize s.txSize }
    else s
  let s := ssFillTxfifo hw { s with handlingTx := true } txflr
  if s.transferMode = spiTransmitOnlyMode then s.unmask (rSpiTxEmpty ||| rSpiIdle)
  else s.unmask (rSpiTxEmpty ||| rSpiIdle ||| rSpiRxFull)

end SsSpiInfo

def ioSpiMasterRead (s : SsSpiInfo) (data size pSize : Word) : Except SsSpiStop SsSpiInfo :=
  if s.handle then .ok (s.masterRead data size pSize) else .error .nullHandle

def ioSpiMasterWrite (s : SsSpiInfo) (data size txflr : Word) : Except SsSpiStop SsSpiInfo :=
  if s.handle then .ok (s.masterWrite hw data size txflr) else .error .nullHandle

/-! ### Interrupts -/

def spiMstRxIsr (s : SsSpiInfo) (frames : List Word) : SsSpiInfo :=
  let s := ssRetrieveRxfifo s frames
  if s.rxDone then s.mask rSpiRxFull else s

def spiMstTxIsr (s : SsSpiInfo) (txflr : Word) : SsSpiInfo :=
  if s.txDone then s.mask rSpiTxEmpty else ssFillTxfifo hw s txflr

/-! ### Polling -/

/-- A transfer in the loop of `io_spi_master_polling`. -/
structure SpiPoll where
  xfer : DevSpiTransfer
  txIdx : Nat
  rxIdx : Nat

namespace SpiPoll

/-- `DEV_SPI_XFER_INIT` -/
def init (xfer : DevSpiTransfer) : SpiPoll := { xfer, txIdx := 0, rxIdx := 0 }

def goesOn (x : SpiPoll) : Bool := x.txIdx < x.xfer.totLen || x.rxIdx < x.xfer.totLen

end SpiPoll

/-- The frame at an index: what the buffer holds there, or the dummy. -/
def ssPollFrame (ram : Word → Byte) (xfer : DevSpiTransfer) (idx : Nat) : Word :=
  if xfer.txOfs.toNat ≤ idx ∧ idx < xfer.txTotlen then
    (ram (xfer.txBuf + BitVec.ofNat 32 idx)).setWidth 32
  else 0xFF

/-- The frame at an index is stored, if it has a place in the buffer. -/
def ssPollStore (xfer : DevSpiTransfer) (mem : Word → Byte) (x : Word × Nat) : Word → Byte :=
  if xfer.rxOfs.toNat ≤ x.2 ∧ x.2 < xfer.rxTotlen then
    Function.update mem (xfer.rxBuf + BitVec.ofNat 32 (x.2 - xfer.rxOfs.toNat)) (x.1.setWidth 8)
  else mem

/-- The first half of a turn: the frames pushed, with `txflr` in the transmit FIFO. -/
def ssPollWrite (ram : Word → Byte) (x : SpiPoll) (txflr : Nat) : List Word × SpiPoll :=
  let free := min (hw.fifoDepth.toNat - txflr) (x.xfer.totLen - x.txIdx)
  ((List.range' x.txIdx free).map (ssPollFrame ram x.xfer), { x with txIdx := x.txIdx + free })

/-- The second half: how many of the frames in the receive FIFO are read, and the memory after. -/
def ssPollRead (mem : Word → Byte) (x : SpiPoll) (frames : List Word) :
    Nat × (Word → Byte) × SpiPoll :=
  let avail := min frames.length (x.xfer.totLen - x.rxIdx)
  (avail, ((frames.take avail).zipIdx x.rxIdx).foldl (ssPollStore x.xfer) mem,
    { x with rxIdx := x.rxIdx + avail })

end Device

end Embarc
