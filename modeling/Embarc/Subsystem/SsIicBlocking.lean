/-
The blocking calls of the IIC interface to the I2C master of the subsystem: `ss_iic_master_write`
and `ss_iic_master_read` in `ss_i2c_master.c`, and the callbacks they wait for.

A call is given by its two ends: what it does before it waits for its flag to be cleared, and what
it returns then.  The driver below calls `ss_iic_master_tx_cb` and the others where its log of
callbacks grows.  The callbacks of the user that these would call are never set, since setting a
callback replaces that of the driver below; they are left out.
-/
import Embarc.Subsystem.I2cMaster

namespace Embarc

/-- The flags of the context, and the device below. -/
structure SsIicCtx where
  io : I2cDev
  flags : Word

def ssIicFlagTx : Word := 0x1#32
def ssIicFlagRx : Word := 0x2#32
def ssIicFlagError : Word := 0x10#32

def Dir.ssIicFlag : Dir → Word
  | .tx => ssIicFlagTx
  | .rx => ssIicFlagRx

/-- `ss_iic_master_tx_cb`, `ss_iic_master_rx_cb` and `ss_iic_master_err_cb`. -/
def ssIicCb (flags : Word) : DevCb → Word
  | .ofDir d => if hasFlag flags d.ssIicFlag then flags &&& ~~~d.ssIicFlag else flags
  | .err => flags ||| ssIicFlagError

/-- The device below has got somewhere, and has made its callbacks. -/
def SsIicCtx.after (p : SsIicCtx) (io : I2cDev) : SsIicCtx where
  io := io
  flags := (io.calls.drop p.io.calls.length).foldl ssIicCb p.flags

section Device

variable (hw : I2cHw)

/-! ### The calls -/

/-- A call that returns at once, or waits. -/
inductive SsIicCall where
  | returns (ercd : Int)
  | waits (p : SsIicCtx)

/-- The same for both calls: `start` is the request to the driver below, and `locked` is what
`arc_locked` returns. -/
def ssIicMasterStart (p : SsIicCtx) (d : Dir) (locked : Bool)
    (start : I2cDev → Except I2cStop I2cDev) : Except I2cStop SsIicCall :=
  if p.flags ≠ 0 then .ok (.returns eNores)
  else if locked then .ok (.returns eSys)
  else (start p.io).map fun io => .waits { io, flags := d.ssIicFlag }

/-- `txflr` is the level of the transmit FIFO. -/
def ssIicMasterWrite (p : SsIicCtx) (data len txflr : Word) (locked : Bool) :
    Except I2cStop SsIicCall :=
  ssIicMasterStart p .tx locked fun io => ioI2cMasterWrite hw io data len txflr

def ssIicMasterRead (p : SsIicCtx) (data len txflr : Word) (locked : Bool) :
    Except I2cStop SsIicCall :=
  ssIicMasterStart p .rx locked fun io => ioI2cMasterRead hw io data len txflr

def SsIicCtx.waits (p : SsIicCtx) (d : Dir) : Bool := hasFlag p.flags d.ssIicFlag

/-- What a call returns when it waits no more. -/
def ssIicMasterEnd (p : SsIicCtx) (len : Word) : Int × SsIicCtx :=
  (if hasFlag p.flags ssIicFlagError then eSys else len.toInt, { p with flags := 0 })

/-! ### Interrupts -/

inductive SsIicIrq where
  /-- The two levels are those found where the one and where the other direction is served. -/
  | txReq (txflr txflr' : Word)
  | rxAvail (frames : List Byte)
  | err (txAbrt rxOver : Bool)
deriving DecidableEq

def ssIicServe (p : SsIicCtx) : SsIicIrq → Except I2cStop SsIicCtx
  | .txReq txflr txflr' =>
    .ok (p.after (i2cMstTxReqIsrRx hw (i2cMstTxReqIsrTx hw p.io txflr) txflr'))
  | .rxAvail frames => .ok (p.after (i2cMstRxAvailIsr p.io frames))
  | .err txAbrt rxOver => .ok (p.after (i2cMstErrIsr p.io txAbrt rxOver))

end Device

end Embarc
