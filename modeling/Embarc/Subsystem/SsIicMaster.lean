/-
The IIC interface to the I2C master of the subsystem: `ss_iic_master_open`, `ss_iic_master_close`
and `ss_iic_master_control` in `ss_i2c_master.c`.

The device information holds a copy of the target address, and the register is written only if the
address asked for differs from the copy.  Opening, closing and resetting go through
`io_i2c_master_open` and `io_i2c_master_close`, which know nothing of the copy.

Left out are the states of the information that are written and never read, and the flags of the
blocking calls.
-/
import Embarc.Subsystem.I2cMaster

namespace Embarc

/-- The device, and whether all of its four interrupts can be enabled. -/
structure SsIicHw extends I2cHw where
  intEnable : Bool

/-- `DEV_IIC_INFO`, with the device below. -/
structure SsIic where
  io : I2cDev
  opnCnt : Nat
  status : Word
  speedMode : Word
  addrMode : Word
  tarAddr : Word
  /-- `int_rx_cb`, `int_tx_cb` and `int_err_cb` of the context. -/
  intCbs : DevCbs

def iicSpeedStandard : Word := 0#32
def iicSpeedFast : Word := 1#32

namespace SsIic

/-- An address, cut down to the addressing mode. -/
def addr (p : SsIic) (val : Word) : Word :=
  if p.addrMode = iic7BitAddress then val &&& iic7BitAddressMask else val &&& iic10BitAddressMask

def ioctl (p : SsIic) (cmd : I2cIoctl) : Except I2cStop SsIic :=
  (ioI2cMasterIoctl p.io cmd).map fun io => { p with io }

/-- The same for opening and for `IIC_CMD_MST_SET_SPEED_MODE`. -/
def setSpeed (p : SsIic) (val : Word) : Except I2cStop SsIic :=
  if val = iicSpeedStandard then
    (p.ioctl (.setSpeed 1)).map fun p => { p with speedMode := iicSpeedStandard }
  else (p.ioctl (.setSpeed 2)).map fun p => { p with speedMode := iicSpeedFast }

end SsIic

def ssIicMasterEnableDevice (p : SsIic) : SsIic :=
  if p.io.regs.enable &&& 1 &&& devEnabled = 0 then
    { p with io := p.io.writeEnable (p.io.regs.enable ||| 1), status := p.status ||| devEnabled }
  else p

def ssIicMasterDisableDevice (p : SsIic) : SsIic :=
  { p with io := p.io.writeEnable (p.io.regs.enable &&& ~~~1) }

/-- The interrupts of a direction are masked. -/
def ssIicMasterDisCbr (p : SsIic) (cbrtn : Dir) : SsIic :=
  let mask := match cbrtn with
    | .tx => rTxEmpty
    | .rx => rTxEmpty ||| rRxFull
  { p with io := p.io.writeMask (p.io.regs.intrMask &&& ~~~mask) }

section Device

variable (hw : SsIicHw)

/-- What `io_i2c_master_open` returns is ignored. -/
def ssIicMasterResetDevice (p : SsIic) : Except I2cStop SsIic :=
  (ioI2cMasterClose p.io).map fun io => { p with io := (ioI2cMasterOpen hw.toI2cHw io).2 }

/-- `param` is the speed. -/
def ssIicMasterOpen (p : SsIic) (param : Word) : Except I2cStop (Int × SsIic) :=
  if param > iicSpeedFast then .ok (ePar, p)
  else if p.opnCnt = 0 then
    let (ret, io) := ioI2cMasterOpen hw.toI2cHw p.io
    if ret ≠ 0 then .ok (eSys, { p with io })
    else do
      let p ← { p with io }.setSpeed param
      let p ← p.ioctl (.setCb (.ofDir .rx) p.intCbs.rxCb)
      let p ← p.ioctl (.setCb (.ofDir .tx) p.intCbs.txCb)
      let p ← p.ioctl (.setCb .err p.intCbs.errCb)
      let p := { p with
        opnCnt := p.opnCnt + 1, addrMode := iic7BitAddress
        tarAddr := p.tarAddr &&& iic7BitAddressMask }
      return (if hw.intEnable then eOk else ePar, p)
  else .ok (eOpned, p)

def ssIicMasterClose (p : SsIic) : Except I2cStop (Int × SsIic) :=
  if p.opnCnt > 0 then (ioI2cMasterClose p.io).map fun io => (eOk, { p with io, opnCnt := 0 })
  else .ok (eClsed, p)

/-! ### Commands -/

/-- `level` is what I2C_TXFLR or I2C_RXFLR shows. -/
inductive SsIicCmd where
  | getStatus (param : Word)
  | enaDev
  | disDev
  | reset
  | flushTx
  | flushRx
  | setAddrMode (val : Word)
  | getRxavail (param level : Word)
  | getTxavail (param level : Word)
  | setCb (which : DevCb) (param : Word)
  | abort (d : Dir)
  | setInt (d : Dir) (val : Word)
  | setIntBuf (d : Dir)
  | setSpeedMode (val : Word)
  | setTarAddr (val : Word)
  | setNextCond (val : Word)
  | unknown

def icTxRxFifoSize : Word := 16#32

/-- Whether the device is open is not checked. -/
def ssIicMasterControl (p : SsIic) (cmd : SsIicCmd) : Except I2cStop (DevAnswer × SsIic) :=
  match cmd with
  | .getStatus param => .ok (.read param p.status, p)
  | .enaDev => .ok (.code eOk, ssIicMasterEnableDevice p)
  | .disDev => .ok (.code eOk, ssIicMasterDisableDevice p)
  | .reset => (ssIicMasterResetDevice hw p).map fun p => (.code eOk, p)
  | .flushTx => .ok (.code eOk, p)
  | .flushRx => .ok (.code eOk, p)
  | .setAddrMode val =>
    if val = iic7BitAddress ∨ val = iic10BitAddress then
      (p.ioctl (.set10BitAddr (if val = iic10BitAddress then 1 else 0))).map fun p =>
        (.code eOk, { p with addrMode := val })
    else .ok (.code ePar, p)
  | .getRxavail param level => .ok (.read param level, p)
  | .getTxavail param level => .ok (.read param (icTxRxFifoSize - level), p)
  | .setCb which param =>
    if param.toNat % 4 ≠ 0 then .ok (.code ePar, p)
    else (p.ioctl (.setCb which param)).map fun p => (.code eOk, p)
  | .abort _ => .ok (.code eNospt, p)
  -- the interrupts are masked whatever is asked for
  | .setInt d _ => .ok (.code eOk, ssIicMasterDisCbr p d)
  | .setIntBuf _ => .ok (.code eNospt, p)
  | .setSpeedMode val =>
    if val > iicSpeedFast then .ok (.code ePar, p)
    else (p.setSpeed val).map fun p => (.code eOk, p)
  | .setTarAddr val =>
    if p.addr val ≠ p.tarAddr then
      (p.ioctl (.setTargetAddr (p.addr val))).map fun p' =>
        (.code eOk, { p' with tarAddr := p.addr val })
    else .ok (.code eOk, p)
  | .setNextCond val =>
    let arg := if val = 0 then i2cStopCmd else if val = 1 then i2cRestartCmd else 0
    (p.ioctl (.setNextCond arg)).map fun p => (.code eOk, p)
  | .unknown => .ok (.code eNospt, p)

/-! ### The driver over a run -/

inductive SsIicOp where
  | opened (param : Word)
  | close
  | control (cmd : SsIicCmd)

def ssIicStep (p : SsIic) : SsIicOp → Except I2cStop SsIic
  | .opened param => (ssIicMasterOpen hw p param).map (·.2)
  | .close => (ssIicMasterClose p).map (·.2)
  | .control cmd => (ssIicMasterControl hw p cmd).map (·.2)

end Device

end Embarc
