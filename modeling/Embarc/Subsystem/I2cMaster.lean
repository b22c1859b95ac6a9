/-
The I2C master of the sensor and control subsystem: `i2c_master.c`, built without DMA.

A transfer is started by `io_i2c_master_read` or `io_i2c_master_write` and goes on in the interrupt
routines.  There is one of each direction at most: a request that comes while the other direction
is busy is only noted.  What the hardware shows is an argument: the level of the transmit FIFO, and
the bytes in the receive FIFO.

A callback is called at the very end of `i2c_mst_rx_avail_ISR_proc`, and in the middle of
`i2c_mst_tx_req_ISR_proc`, which is cut there into two steps.  `i2c_mst_stop_det_ISR_proc` is given
as a whole; what its callbacks do is `env`.

The wait loops of the driver, for the end of an abort or for the controller to be off, are left
out, and so are the interrupt vectors.
-/
import Embarc.DesignWare.DevCommon

namespace Embarc

/-- The device of one number. -/
structure I2cHw where
  /-- It is part of the design. -/
  present : Bool
  fifoDepth : Word

structure I2cRegs where
  con : Word
  tar : Word
  ssSclHcnt : Word
  ssSclLcnt : Word
  fsSclHcnt : Word
  fsSclLcnt : Word
  intrMask : Word
  rxTl : Word
  txTl : Word
  enable : Word
  sdaHold : Word
  fsSpklen : Word
  clken : Word
deriving DecidableEq, Repr

/-- `i2c_info_t`, with the registers and the memory of the buffers. -/
structure I2cDev where
  /-- `i2c_handles` has an entry for the device. -/
  handle : Bool
  txData : Word
  txSize : Word
  txCount : Word
  rxData : Word
  rxSize : Word
  rxCount : Word
  rxReqCount : Word
  handlingTx : Bool
  handlingRx : Bool
  nextCond : BitVec 16
  cbs : DevCbs
  regs : I2cRegs
  ram : Word → Byte
  mem : Word → Byte
  /-- What was written to I2C_DATA_CMD. -/
  sent : List Word
  /-- The callbacks made so far. -/
  calls : List DevCb

inductive I2cStop where
  /-- The entry of `i2c_handles` is followed, and is null. -/
  | nullHandle
deriving DecidableEq, Repr

def rStopDet : Word := 0x200#32
def rTxAbrt : Word := 0x40#32
def rTxEmpty : Word := 0x10#32
def rRxFull : Word := 0x4#32
def rRxOver : Word := 0x2#32

def i2cRestartCmd : Word := 0x400#32
def i2cStopCmd : Word := 0x200#32
def i2cReadCmd : Word := 0x100#32

namespace I2cDev

def writeMask (s : I2cDev) (val : Word) : I2cDev :=
  { s with regs := { s.regs with intrMask := val } }

def writeEnable (s : I2cDev) (val : Word) : I2cDev :=
  { s with regs := { s.regs with enable := val } }

def call (s : I2cDev) (which : DevCb) : I2cDev :=
  if s.cbs.get which ≠ 0 then { s with calls := s.calls ++ [which] } else s

end I2cDev

/-- `REG_WRITE_BITS`: `len` bits of `y` at `pos`. -/
def regWriteBits (x y : Word) (len pos : Nat) : Word :=
  let field : Word := ~~~(0xffffffff#32 <<< len) <<< pos
  x &&& ~~~field ||| y <<< pos &&& field

/-! ### Open and close -/

def ioI2cMasterOpen (hw : I2cHw) (s : I2cDev) : Word × I2cDev :=
  if hw.present = false ∨ s.handle = true then (1, s)
  else
    let s := { s with handle := true, regs := { s.regs with clken := 1, intrMask := 0 } }
    let s := { s with
      handlingTx := false, handlingRx := false, txData := 0, rxData := 0, nextCond := 0x200#16 }
    let s := s.writeEnable 1
    (0, s.writeMask (rTxAbrt ||| rRxOver))

/-- What closing does to a device that is open. -/
def I2cDev.closed (s : I2cDev) : I2cDev :=
  let s := { s with regs := { s.regs with
    intrMask := 0, enable := 0, con := 0x65, tar := 0x55, ssSclHcnt := 0x30, ssSclLcnt := 0x38
    fsSclHcnt := 0, fsSclLcnt := 0, rxTl := 0, txTl := 0, sdaHold := 1, fsSpklen := 1
    clken := 0 } }
  { s with cbs := .cleared, handle := false }

def ioI2cMasterClose (s : I2cDev) : Except I2cStop I2cDev :=
  if s.handle then .ok s.closed else .error .nullHandle

/-- Out of reset the registers are as closing leaves them. -/
def I2cDev.fresh : I2cDev where
  handle := false
  txData := 0
  txSize := 0
  txCount := 0
  rxData := 0
  rxSize := 0
  rxCount := 0
  rxReqCount := 0
  handlingTx := false
  handlingRx := false
  nextCond := 0
  cbs := .cleared
  regs :=
    { con := 0x65, tar := 0x55, ssSclHcnt := 0x30, ssSclLcnt := 0x38, fsSclHcnt := 0
      fsSclLcnt := 0, intrMask := 0, rxTl := 0, txTl := 0, enable := 0, sdaHold := 1
      fsSpklen := 1, clken := 0 }
  ram := fun _ => 0
  mem := fun _ => 0
  sent := []
  calls := []

/-! ### Settings -/

/-- The commands of `io_i2c_master_ioctl`, with what `arg` points to. -/
inductive I2cIoctl where
  | setCb (which : DevCb) (cb : Word)
  | setNextCond (arg : Word)
  | setHoldTimeRx (arg : Word)
  | setHoldTimeTx (arg : Word)
  | setSpeed (arg : Word)
  | set10BitAddr (arg : Word)
  | setSpklen (arg : Word)
  | setTargetAddr (arg : Word)
  | setSsSclHcnt (arg : Word)
  | setSsSclLcnt (arg : Word)
  | setFsSclHcnt (arg : Word)
  | setFsSclLcnt (arg : Word)
  | setRxThreshold (arg : Word)
  | setTxThreshold (arg : Word)
  | other

/-- What a command does to the registers, with the controller off. -/
def I2cRegs.set (regs : I2cRegs) : I2cIoctl → I2cRegs
  | .setHoldTimeRx arg => { regs with sdaHold := regWriteBits regs.sdaHold arg 8 16 }
  | .setHoldTimeTx arg => { regs with sdaHold := regWriteBits regs.sdaHold arg 16 0 }
  | .setSpeed arg => { regs with con := regWriteBits regs.con arg 2 1 }
  | .set10BitAddr arg => { regs with con := regWriteBits regs.con arg 1 3 }
  | .setSpklen arg => { regs with fsSpklen := arg }
  | .setTargetAddr arg => { regs with tar := arg }
  | .setSsSclHcnt arg => { regs with ssSclHcnt := arg }
  | .setSsSclLcnt arg => { regs with ssSclLcnt := arg }
  | .setFsSclHcnt arg => { regs with fsSclHcnt := arg }
  | .setFsSclLcnt arg => { regs with fsSclLcnt := arg }
  | .setRxThreshold arg => { regs with rxTl := arg }
  | .setTxThreshold arg => { regs with txTl := arg }
  | .setCb _ _ | .setNextCond _ | .other => regs

def I2cDev.ioctl (s : I2cDev) (cmd : I2cIoctl) : I2cDev :=
  match cmd with
  | .setCb which cb => { s with cbs := s.cbs.set which cb }
  | .setNextCond arg => { s with nextCond := arg.setWidth 16 }
  | cmd =>
    let s := s.writeEnable (s.regs.enable &&& ~~~1)
    let s := { s with regs := s.regs.set cmd }
    s.writeEnable (s.regs.enable ||| 1)

def ioI2cMasterIoctl (s : I2cDev) (cmd : I2cIoctl) : Except I2cStop I2cDev :=
  if s.handle then .ok (s.ioctl cmd) else .error .nullHandle

/-! ### Transfers -/

section Device

variable (hw : I2cHw)

/-- The FIFO is given `cnt` bytes.  The loop gives it one less and compares with `!=`, so that for
none it goes through all the numbers; the byte behind the loop makes it none again. -/
def fillTxfifo (s : I2cDev) (txflr : Word) : I2cDev :=
  let cnt := s.txSize - s.txCount
  let free := hw.fifoDepth - txflr
  let cnt := if cnt > free then free else cnt
  let byte := fun i : Word => (s.ram (s.txData + i)).setWidth 32
  let looped := (List.range (cnt - 1).toNat).map fun h => byte (s.txCount + BitVec.ofNat 32 h)
  let txCount := s.txCount + (cnt - 1)
  let last :=
    if s.txSize - 1 = txCount then byte txCount ||| s.nextCond.setWidth 32 else byte txCount
  { s with txCount := txCount + 1, sent := s.sent ++ looped ++ [last] }

def fillTxfifoForRx (s : I2cDev) (txflr : Word) : I2cDev :=
  let cnt := s.rxSize - s.rxReqCount
  let free := hw.fifoDepth - txflr
  let cnt := if cnt > free then free else cnt
  let looped := List.replicate (cnt - 1).toNat i2cReadCmd
  let s := { s with rxReqCount := s.rxReqCount + cnt }
  let last :=
    if s.rxSize = s.rxReqCount then i2cReadCmd ||| s.nextCond.setWidth 32 else i2cReadCmd
  { s with sent := s.sent ++ looped ++ [last] }

/-- `frames` is what the receive FIFO holds. -/
def retrieveRxfifo (s : I2cDev) (frames : List Byte) : I2cDev :=
  let cnt := s.rxSize - s.rxCount
  let avail := BitVec.ofNat 32 frames.length
  let cnt := if cnt > avail then avail else cnt
  { s with
    mem := (frames.take cnt.toNat).zipIdx.foldl (fun mem x =>
      Function.update mem (s.rxData + s.rxCount + BitVec.ofNat 32 x.2) x.1) s.mem
    rxCount := s.rxCount + cnt }

namespace I2cDev

def startRx (s : I2cDev) (txflr : Word) : I2cDev :=
  let s := { s with handlingRx := true }
  let s := fillTxfifoForRx hw s txflr
  s.writeMask (s.regs.intrMask ||| rTxEmpty ||| rRxFull)

def startTx (s : I2cDev) (txflr : Word) : I2cDev :=
  let s := { s with handlingTx := true }
  let s := fillTxfifo hw s txflr
  s.writeMask (s.regs.intrMask ||| rTxEmpty)

/-- A read of an open device is noted, and started if no write is in progress. -/
def read (s : I2cDev) (data size txflr : Word) : I2cDev :=
  let s := { s with rxSize := size, rxCount := 0, rxReqCount := 0, rxData := data }
  if s.handlingTx = false then s.startRx hw txflr else s

def write (s : I2cDev) (data size txflr : Word) : I2cDev :=
  let s := { s with txSize := size, txCount := 0, txData := data }
  if s.handlingRx = false then s.startTx hw txflr else s

end I2cDev

def ioI2cMasterRead (s : I2cDev) (data size txflr : Word) : Except I2cStop I2cDev :=
  if s.handle then .ok (s.read hw data size txflr) else .error .nullHandle

def ioI2cMasterWrite (s : I2cDev) (data size txflr : Word) : Except I2cStop I2cDev :=
  if s.handle then .ok (s.write hw data size txflr) else .error .nullHandle

/-! ### Interrupts -/

/-- `txAbrt` and `rxOver` are what reading I2C_CLR_TX_ABRT and I2C_CLR_RX_OVER yields. -/
def i2cMstErrIsr (s : I2cDev) (txAbrt rxOver : Bool) : I2cDev :=
  let s := if txAbrt then s.call .err else s
  if rxOver then s.call .err else s

def i2cMstRxAvailIsr (s : I2cDev) (frames : List Byte) : I2cDev :=
  let s := retrieveRxfifo s frames
  if s.rxSize = s.rxCount then
    let s := s.writeMask (s.regs.intrMask &&& ~~~rRxFull)
    let s := { s with handlingRx := false, rxData := 0 }
    s.call (.ofDir .rx)
  else s

/-- `i2c_mst_tx_req_ISR_proc` up to the callback. -/
def i2cMstTxReqIsrTx (s : I2cDev) (txflr : Word) : I2cDev :=
  if s.handlingTx then
    if s.txSize = s.txCount then
      let s := s.writeMask (s.regs.intrMask &&& ~~~rTxEmpty)
      let s := { s with handlingTx := false, txData := 0 }
      s.call (.ofDir .tx)
    else fillTxfifo hw s txflr
  else s

/-- Behind it. -/
def i2cMstTxReqIsrRx (s : I2cDev) (txflr : Word) : I2cDev :=
  if s.handlingRx then
    if s.rxSize = s.rxReqCount then s.writeMask (s.regs.intrMask &&& ~~~rTxEmpty)
    else fillTxfifoForRx hw s txflr
  else s

/-- The transfer is over, and one that was noted meanwhile is started. -/
def i2cMstStopDetIsr (env : Word → I2cDev → I2cDev) (s : I2cDev) (txflr : Word)
    (frames : List Byte) : I2cDev :=
  let callback := fun (s : I2cDev) (which : DevCb) =>
    if s.cbs.get which ≠ 0 then env (s.cbs.get which) (s.call which) else s
  let done := fun s : I2cDev => s.writeMask (s.regs.intrMask &&& ~~~rTxEmpty &&& ~~~rRxFull)
  if s.handlingTx then
    let s := callback { s with handlingTx := false, txData := 0 } (.ofDir .tx)
    if s.rxData ≠ 0 then s.startRx hw txflr else done s
  else if s.handlingRx then
    let s := retrieveRxfifo s frames
    let s := callback { s with handlingRx := false, rxData := 0 } (.ofDir .rx)
    if s.txData ≠ 0 then s.startTx hw txflr else done s
  else s

/-! ### The driver over a run -/

/-- Requests, made by a thread or by a callback, and interrupts. -/
inductive I2cOp where
  | read (data size txflr : Word)
  | write (data size txflr : Word)
  | errIsr (txAbrt rxOver : Bool)
  | rxAvailIsr (frames : List Byte)
  | txReqIsrTx (txflr : Word)
  | txReqIsrRx (txflr : Word)
  | stopDetIsr (txflr : Word) (frames : List Byte)

def i2cStep (env : Word → I2cDev → I2cDev) (s : I2cDev) : I2cOp → Except I2cStop I2cDev
  | .read data size txflr => ioI2cMasterRead hw s data size txflr
  | .write data size txflr => ioI2cMasterWrite hw s data size txflr
  | .errIsr txAbrt rxOver => .ok (i2cMstErrIsr s txAbrt rxOver)
  | .rxAvailIsr frames => .ok (i2cMstRxAvailIsr s frames)
  | .txReqIsrTx txflr => .ok (i2cMstTxReqIsrTx hw s txflr)
  | .txReqIsrRx txflr => .ok (i2cMstTxReqIsrRx hw s txflr)
  | .stopDetIsr txflr frames => .ok (i2cMstStopDetIsr hw env s txflr frames)

end Device

end Embarc
