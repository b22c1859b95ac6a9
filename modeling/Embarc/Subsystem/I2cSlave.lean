/-
The I2C slave of the sensor and control subsystem: `i2c_slave.c`, built without DMA.

A buffer is handed over by `io_i2c_slave_read` or `io_i2c_slave_write`, and the interrupt routines
fill or empty it.  Five of the routines call back, and the callback may hand over the next buffer:
so each of them ends where it calls, and what it does behind the call is an `I2cSlvRest`.  What the
hardware shows is an argument: the level of the transmit FIFO, and the bytes in the receive FIFO.

A call or an interrupt routine is not itself interrupted; only a callback is.  Closing and the
interrupt vectors are left out, and so is the wait for the controller to be off.
-/
import Embarc.Lib.Reentry
import Embarc.Subsystem.I2cMaster

namespace Embarc

open Reentry (Task)

structure I2cSlvRegs where
  con : Word
  sar : Word
  intrMask : Word
  rxTl : Word
  txTl : Word
  enable : Word
  sdaHold : Word
  sdaSetup : Word
  fsSpklen : Word
  clken : Word
deriving DecidableEq, Repr

/-- `i2c_info_t`, with the registers and the memory of the buffers. -/
structure I2cSlvDev where
  /-- `i2c_handles` has an entry for the device. -/
  handle : Bool
  txData : Word
  txSize : Word
  txCount : Word
  pTxsize : Word
  rxData : Word
  rxSize : Word
  rxCount : Word
  pRxsize : Word
  handlingTx : Bool
  handlingRx : Bool
  stopDetected : Bool
  rdReqDetected : Bool
  cbs : DevCbs
  regs : I2cSlvRegs
  mem : Word → Byte
  /-- What the size pointers point to. -/
  sizes : Word → Word
  /-- What was written to I2C_DATA_CMD. -/
  sent : List Word
  /-- The callbacks made so far. -/
  calls : List DevCb

/-- What a routine still has to do behind its callback. -/
inductive I2cSlvRest where
  | read
  | write
  | err
  | rxAvail
  | txReq
  | stopRx
  | stopTx
  | rdReq
deriving DecidableEq, Repr

abbrev I2cSlvTask := Task I2cSlvDev I2cSlvRest

def rRdReq : Word := 0x20#32

namespace I2cSlvDev

def writeMask (s : I2cSlvDev) (val : Word) : I2cSlvDev :=
  { s with regs := { s.regs with intrMask := val } }

/-- Bits of the interrupt mask are cleared: the interrupts are masked. -/
def mask (s : I2cSlvDev) (bits : Word) : I2cSlvDev := s.writeMask (s.regs.intrMask &&& ~~~bits)

def unmask (s : I2cSlvDev) (bits : Word) : I2cSlvDev := s.writeMask (s.regs.intrMask ||| bits)

/-- A callback is called if there is one, and `behind` is what follows if there is none. -/
def callback (s : I2cSlvDev) (which : DevCb) (rest : I2cSlvRest)
    (behind : I2cSlvDev → I2cSlvTask) : I2cSlvTask :=
  if s.cbs.get which ≠ 0 then .calls { s with calls := s.calls ++ [which] } rest else behind s

/-- `cnt` bytes are read from the receive FIFO. -/
def retrieve (s : I2cSlvDev) (frames : List Byte) (cnt : Word) : I2cSlvDev :=
  { s with
    mem := (frames.take cnt.toNat).zipIdx.foldl (fun mem x =>
      Function.update mem (s.rxData + s.rxCount + BitVec.ofNat 32 x.2) x.1) s.mem
    rxCount := s.rxCount + cnt }

/-- `cnt` bytes are written to the transmit FIFO. -/
def fill (s : I2cSlvDev) (cnt : Word) : I2cSlvDev :=
  let bytes := (List.range cnt.toNat).map fun h =>
    (s.mem (s.txData + (s.txCount + BitVec.ofNat 32 h))).setWidth 32
  { s with sent := s.sent ++ bytes, txCount := s.txCount + cnt }

/-- The size variable is told how much of the buffer was filled. -/
def tellRxsize (s : I2cSlvDev) : I2cSlvDev :=
  if s.handlingRx = false ∧ s.rxSize ≠ s.rxCount then
    { s with sizes := Function.update s.sizes s.pRxsize s.rxCount }
  else s

end I2cSlvDev

/-! ### Open and close -/

def ioI2cSlaveOpen (devId : Word) (s : I2cSlvDev) : Word × I2cSlvDev :=
  if s.handle = true ∨ devId ≠ 0 then (1, s)
  else
    let s := { s with handle := true, regs := { s.regs with clken := 1, intrMask := 0 } }
    let s := { s with regs := { s.regs with con := s.regs.con ||| 0x80#32 } }
    let s := { s with handlingTx := false, handlingRx := false, txData := 0, rxData := 0 }
    let s := { s with regs := { s.regs with enable := 1 } }
    (0, s.writeMask (rStopDet ||| rRdReq ||| rRxOver ||| rTxAbrt))

/-- Out of reset the registers are as `io_i2c_slave_close` leaves them. -/
def I2cSlvDev.fresh : I2cSlvDev where
  handle := false
  txData := 0
  txSize := 0
  txCount := 0
  pTxsize := 0
  rxData := 0
  rxSize := 0
  rxCount := 0
  pRxsize := 0
  handlingTx := false
  handlingRx := false
  stopDetected := false
  rdReqDetected := false
  cbs := .cleared
  regs :=
    { con := 0x4, sar := 0, intrMask := 0, rxTl := 0, txTl := 0, enable := 0, sdaHold := 1
      sdaSetup := 0x64, fsSpklen := 1, clken := 0 }
  mem := fun _ => 0
  sizes := fun _ => 0
  sent := []
  calls := []

/-! ### Settings -/

/-- The commands of `io_i2c_slave_ioctl`, with what `arg` points to. -/
inductive I2cSlvIoctl where
  | setCb (which : DevCb) (cb : Word)
  | setHoldTimeRx (arg : Word)
  | setHoldTimeTx (arg : Word)
  | set10BitAddr (arg : Word)
  | setSetupTime (arg : Word)
  | setSpklen (arg : Word)
  | setAddr (arg : Word)
  | setRxThreshold (arg : Word)
  | setTxThreshold (arg : Word)
  | other

/-- What a command does to the registers, with the controller off. -/
def I2cSlvRegs.set (regs : I2cSlvRegs) : I2cSlvIoctl → I2cSlvRegs
  | .setHoldTimeRx arg => { regs with sdaHold := regWriteBits regs.sdaHold arg 8 16 }
  | .setHoldTimeTx arg => { regs with sdaHold := regWriteBits regs.sdaHold arg 16 0 }
  | .set10BitAddr arg => { regs with con := regWriteBits regs.con arg 1 3 }
  | .setSetupTime arg => { regs with sdaSetup := arg }
  | .setSpklen arg => { regs with fsSpklen := arg }
  | .setAddr arg => { regs with sar := arg }
  | .setRxThreshold arg => { regs with rxTl := arg }
  | .setTxThreshold arg => { regs with txTl := arg }
  | .setCb _ _ | .other => regs

def I2cSlvDev.ioctl (s : I2cSlvDev) (cmd : I2cSlvIoctl) : I2cSlvDev :=
  match cmd with
  | .setCb which cb => { s with cbs := s.cbs.set which cb }
  | cmd =>
    let regs := { s.regs with enable := s.regs.enable &&& ~~~1 }
    let regs := regs.set cmd
    { s with regs := { regs with enable := regs.enable ||| 1 } }

/-! ### Requests -/

section Device

variable (hw : I2cHw)

namespace I2cSlvDev

/-- `io_i2c_slave_read` behind its callback, and where it needs none. -/
def readEnd (s : I2cSlvDev) : I2cSlvDev := s.unmask rStopDet

/-- `io_i2c_slave_write` behind its callback. -/
def writeEnd (s : I2cSlvDev) : I2cSlvDev := (s.unmask rTxEmpty).unmask rRdReq

/-- Of a buffer handed over behind a stop condition, what the FIFO still holds is read at once. -/
def readRest (s : I2cSlvDev) (frames : List Byte) : I2cSlvTask :=
  let cnt := s.rxSize - s.rxCount
  let avail := BitVec.ofNat 32 frames.length
  let s := if cnt ≥ avail then { s with handlingRx := false } else s
  let cnt := if cnt ≥ avail then avail else cnt
  let s := (s.retrieve frames cnt).tellRxsize
  { s with rxData := 0 }.callback (.ofDir .rx) .read fun s => .done s.readEnd

/-- `size` is what `pSize` points to. -/
def read (s : I2cSlvDev) (data size pSize : Word) (frames : List Byte) : I2cSlvTask :=
  let s := { s with rxData := data, rxSize := size, rxCount := 0, pRxsize := pSize }
  let s := s.mask rStopDet
  if s.handlingRx = false then
    let s := { s with handlingRx := true, stopDetected := false }
    .done (s.unmask rRxFull).readEnd
  else if s.stopDetected = false then .done (s.unmask rRxFull).readEnd
  else s.readRest frames

/-- A buffer handed over behind a read request goes into the FIFO at once. -/
def writeRest (s : I2cSlvDev) (txflr : Word) : I2cSlvTask :=
  let cnt := s.txSize - s.txCount
  let free := hw.fifoDepth - txflr
  let s := s.fill (capped cnt free)
  if s.txSize = s.txCount then
    { s with txData := 0 }.callback (.ofDir .tx) .write fun s => .done s.writeEnd
  else .done s.writeEnd

def write (s : I2cSlvDev) (data size pSize txflr : Word) : I2cSlvTask :=
  let s := { s with txData := data, txSize := size, txCount := 0, pTxsize := pSize }
  let s := s.mask rRdReq
  if s.handlingTx = false then
    .done ({ s with handlingTx := true, rdReqDetected := false }.unmask rRdReq)
  else if s.rdReqDetected then s.writeRest hw txflr
  else .done (s.unmask rRdReq)

end I2cSlvDev

/-- What follows the handle, which is null unless the device is open. -/
def I2cSlvDev.opened (s : I2cSlvDev) (t : I2cSlvTask) : Except I2cStop I2cSlvTask :=
  if s.handle then .ok t else .error .nullHandle

def ioI2cSlaveIoctl (s : I2cSlvDev) (cmd : I2cSlvIoctl) : Except I2cStop I2cSlvTask :=
  s.opened (.done (s.ioctl cmd))

def ioI2cSlaveRead (s : I2cSlvDev) (data size pSize : Word) (frames : List Byte) :
    Except I2cStop I2cSlvTask :=
  s.opened (s.read data size pSize frames)

def ioI2cSlaveWrite (s : I2cSlvDev) (data size pSize txflr : Word) : Except I2cStop I2cSlvTask :=
  s.opened (s.write hw data size pSize txflr)

/-! ### Interrupts -/

/-- `rxOver` is what reading I2C_CLR_RX_OVER yields.  A transmit abort is cleared and no more. -/
def i2cSlvErrIsr (s : I2cSlvDev) (rxOver : Bool) : I2cSlvTask :=
  if rxOver then s.callback .err .err .done else .done s

/-- `i2c_slv0_rx_avail_ISR` behind its callback. -/
def i2cSlvRxAvailEnd (s : I2cSlvDev) : I2cSlvDev := s.mask rRxFull

def i2cSlvRxAvailIsr (s : I2cSlvDev) (frames : List Byte) : I2cSlvTask :=
  let cnt := s.rxSize - s.rxCount
  let avail := BitVec.ofNat 32 frames.length
  let s := s.retrieve frames (capped cnt avail)
  if s.rxSize = s.rxCount then
    { s with rxData := 0 }.callback (.ofDir .rx) .rxAvail fun s => .done (i2cSlvRxAvailEnd s)
  else .done s

/-- `i2c_slv0_tx_req_ISR` behind its callback. -/
def i2cSlvTxReqEnd (s : I2cSlvDev) : I2cSlvDev := s.mask rTxEmpty

def i2cSlvTxReqIsr (s : I2cSlvDev) (txflr : Word) : I2cSlvTask :=
  let cnt := s.txSize - s.txCount
  let free := hw.fifoDepth - txflr
  let s := s.fill (capped cnt free)
  if s.txSize = s.txCount then
    { s with txData := 0 }.callback (.ofDir .tx) .txReq fun s => .done (i2cSlvTxReqEnd s)
  else .done s

/-- The second half of `i2c_slv0_stop_det_ISR`.  The callback it makes is the one for reading. -/
def i2cSlvStopDetTx (s : I2cSlvDev) (txflr : Word) : I2cSlvTask :=
  if s.handlingTx then
    let s := { s with handlingTx := false }
    if s.txData ≠ 0 then
      let s := { s with sizes := Function.update s.sizes s.pTxsize (s.txCount - txflr) }
      { s with txData := 0 }.callback (.ofDir .rx) .stopTx .done
    else .done s
  else .done s

/-- `i2c_slv0_stop_det_ISR` behind its first callback. -/
def i2cSlvStopDetEnd (s : I2cSlvDev) (txflr : Word) : I2cSlvTask :=
  i2cSlvStopDetTx (s.mask rRxFull) txflr

/-- What the FIFO still holds is read into a buffer that is outstanding. -/
def i2cSlvStopDetRx (s : I2cSlvDev) (frames : List Byte) : I2cSlvDev :=
  let avail := BitVec.ofNat 32 frames.length
  let cnt := s.rxSize - s.rxCount
  let s :=
    if cnt < avail then { s with stopDetected := true } else { s with handlingRx := false }
  let cnt := if cnt < avail then cnt else avail
  { (s.retrieve frames cnt).tellRxsize with rxData := 0 }

def i2cSlvStopDetIsr (s : I2cSlvDev) (frames : List Byte) (txflr : Word) : I2cSlvTask :=
  if s.handlingRx then
    if s.rxData = 0 then
      let avail := BitVec.ofNat 32 frames.length
      let s := if avail = 0 then { s with handlingRx := false } else { s with stopDetected := true }
      i2cSlvStopDetEnd s txflr
    else
      (i2cSlvStopDetRx s frames).callback (.ofDir .rx) .stopRx fun s => i2cSlvStopDetEnd s txflr
  else i2cSlvStopDetTx s txflr

def i2cSlvRdReqIsr (s : I2cSlvDev) : I2cSlvTask :=
  if s.txData ≠ 0 then
    let s := { s with rdReqDetected := true }
    let cnt := s.txSize - s.txCount
    let s := s.fill (capped cnt hw.fifoDepth)
    if s.txSize = s.txCount then { s with txData := 0 }.callback (.ofDir .tx) .rdReq .done
    else .done (s.unmask rTxEmpty)
  else .done { s with sent := s.sent ++ [0xff] }

/-! ### The driver over a run -/

/-- Settings and requests, made by a thread or by a callback, and interrupts. -/
inductive I2cSlvOp where
  | ioctl (cmd : I2cSlvIoctl)
  | read (data size pSize : Word) (frames : List Byte)
  | write (data size pSize txflr : Word)
  | errIsr (rxOver : Bool)
  | rxAvailIsr (frames : List Byte)
  | txReqIsr (txflr : Word)
  | stopDetIsr (frames : List Byte) (txflr : Word)
  | rdReqIsr

def i2cSlvEnter (s : I2cSlvDev) : I2cSlvOp → Except I2cStop I2cSlvTask
  | .ioctl cmd => ioI2cSlaveIoctl s cmd
  | .read data size pSize frames => ioI2cSlaveRead s data size pSize frames
  | .write data size pSize txflr => ioI2cSlaveWrite hw s data size pSize txflr
  | .errIsr rxOver => s.opened (i2cSlvErrIsr s rxOver)
  | .rxAvailIsr frames => s.opened (i2cSlvRxAvailIsr s frames)
  | .txReqIsr txflr => s.opened (i2cSlvTxReqIsr hw s txflr)
  | .stopDetIsr frames txflr => s.opened (i2cSlvStopDetIsr s frames txflr)
  | .rdReqIsr => s.opened (i2cSlvRdReqIsr hw s)

def i2cSlvResume (rest : I2cSlvRest) (txflr : Word) (s : I2cSlvDev) : Except I2cStop I2cSlvTask :=
  match rest with
  | .read => .ok (.done s.readEnd)
  | .write => .ok (.done s.writeEnd)
  | .rxAvail => .ok (.done (i2cSlvRxAvailEnd s))
  | .txReq => .ok (.done (i2cSlvTxReqEnd s))
  | .stopRx => .ok (i2cSlvStopDetEnd s txflr)
  | .err | .stopTx | .rdReq => .ok (.done s)

abbrev i2cSlvStep := Reentry.step (i2cSlvEnter hw) i2cSlvResume

end Device

end Embarc
