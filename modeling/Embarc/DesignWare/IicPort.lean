/-
The DesignWare IIC driver with its registers: `dw_iic_open`, `dw_iic_close` and `dw_iic_control`
in `dw_iic.c`.

The driver keeps the target address, the slave's own address, the addressing mode and the speed
twice: in the device information and in the registers IC_CON, IC_TAR and IC_SAR.  Where the ten
bit mode of the master is kept, and whether a ten bit mode exists, is decided when the driver is
built.  IC_ENABLE is left out: the driver turns the controller off before it writes one of the
registers that cannot be written otherwise, and never reads it.  So are the counts for the clock,
which are written once and depend on nothing but the clock.

As for the UART the abort commands and the interrupt routines are given in parts, with the
callbacks between them.
-/
import Embarc.DesignWare.IicMaster

namespace Embarc

structure IicRegs where
  con : Word
  tar : Word
  sar : Word
deriving DecidableEq, Repr

/-- The controller, and how the driver was built: `DW_IIC_DYNAMIC_TAR_UPDATE_SUPPORT`,
`DW_IIC_MST_10_BIT_ADDR_SUPPORT`, `DW_IIC_SLV_10_BIT_ADDR_SUPPORT`, `DW_IIC_ALLOW_RESTART` and
`DW_IIC_SPECIAL_START_BYTE`. -/
structure IicHw where
  icClkhz : Word
  supportModes : Word
  hasIntno : Bool
  compParam1 : Word
  dynamicTar : Bool
  mst10Bit : Bool
  slv10Bit : Bool
  allowRestart : Bool
  specialStartByte : Bool

/-- An IIC controller: its transfers and what it reports, what the driver records of its settings,
and its registers. -/
structure IicPort extends IicMst where
  mode : DevMode
  speedMode : Word
  addrMode : Word
  tarAddr : Word
  slvAddr : Word
  txFifoLen : Word
  rxFifoLen : Word
  regs : IicRegs
  /-- The interrupt is enabled at the processor. -/
  irq : Bool
  /-- The callbacks made so far. -/
  calls : List IicCall

inductive IicStop where
  /-- `dw_iic_calc_spklen` divides by the clock in kHz. -/
  | divZero
deriving DecidableEq, Repr

/-! ### Registers -/

def iicSpeedUltra : Word := 4#32

def icConSpeedMask : Word := 0x6#32
def icConEnaMasterMode : Word := 0x41#32

/-- The ten bit modes, where the hardware has them: of the master in IC_CON and in IC_TAR, and of
the slave in IC_CON. -/
def icConMst10Bit : Word := 0x10#32
def icTarMst10Bit : Word := 0x1000#32
def icConSlv10Bit : Word := 0x8#32

namespace IicHw

def mst10BitAddrMode (hw : IicHw) : Word := if hw.mst10Bit then icConMst10Bit else 0

def ic10BitAddrMaster (hw : IicHw) : Word := if hw.mst10Bit then icTarMst10Bit else 0

def slv10BitAddrMode (hw : IicHw) : Word := if hw.slv10Bit then icConSlv10Bit else 0

def icConRestartEn (hw : IicHw) : Word := if hw.allowRestart then 0x20#32 else 0

/-- `IC_TAR_SPECIAL | IC_TAR_GC_OR_START` -/
def icTarSpecial (hw : IicHw) : Word := if hw.specialStartByte then 0xC00#32 else 0

def supports (hw : IicHw) (mode : DevMode) : Bool := hasFlag hw.supportModes mode.supported

end IicHw

namespace IicPort

def writeCon (p : IicPort) (val : Word) : IicPort := { p with regs := { p.regs with con := val } }

def writeTar (p : IicPort) (val : Word) : IicPort := { p with regs := { p.regs with tar := val } }

def writeSar (p : IicPort) (val : Word) : IicPort := { p with regs := { p.regs with sar := val } }

def withStatus (p : IicPort) (status : Word) : IicPort :=
  { p with dev := { p.dev with status } }

end IicPort

section Device

variable (hw : IicHw)

def dwIicSetMstaddrMode (p : IicPort) (mode : Word) : IicPort :=
  if hw.dynamicTar then
    if mode = iic7BitAddress then p.writeTar (p.regs.tar &&& ~~~hw.ic10BitAddrMaster)
    else p.writeTar (p.regs.tar ||| hw.ic10BitAddrMaster)
  else
    if mode = iic7BitAddress then p.writeCon (p.regs.con &&& ~~~hw.mst10BitAddrMode)
    else p.writeCon (p.regs.con ||| hw.mst10BitAddrMode)

def dwIicSetSlvaddrMode (p : IicPort) (mode : Word) : IicPort :=
  if mode = iic7BitAddress then p.writeCon (p.regs.con &&& ~~~hw.slv10BitAddrMode)
  else p.writeCon (p.regs.con ||| hw.slv10BitAddrMode)

def dwIicSetTaraddr (p : IicPort) (address : Word) : IicPort :=
  let p := p.writeTar (p.regs.tar &&& ~~~iic10BitAddressMask)
  p.writeTar (p.regs.tar ||| iic10BitAddressMask &&& address)

def dwIicSetSlvaddr (p : IicPort) (address : Word) : IicPort :=
  let p := p.writeSar (p.regs.sar &&& ~~~iic10BitAddressMask)
  p.writeSar (p.regs.sar ||| iic10BitAddressMask &&& address)

/-- Standard, fast and fast plus, and everything above. -/
def dwIicSelectSpeedmode (speedmode : Word) : Word :=
  if speedmode = 0 then 0x2#32 else if speedmode = 1 ∨ speedmode = 2 then 0x4#32 else 0x6#32

def dwIicSetSpeedmode (p : IicPort) (speedmode : Word) : IicPort :=
  p.writeCon (p.regs.con &&& ~~~icConSpeedMask ||| dwIicSelectSpeedmode speedmode)

/-- With a dynamic target address the bit for the ten bit mode in IC_CON is written to IC_TAR. -/
def dwIicMasterInit (p : IicPort) (speedMode addrMode tarAddr : Word) : IicPort :=
  let p := { p with dev := { p.dev with mask := 0 } }
  let p := p.writeTar (tarAddr &&& iic10BitAddressMask ||| hw.icTarSpecial)
  let icConVal := dwIicSelectSpeedmode speedMode ||| icConEnaMasterMode ||| hw.icConRestartEn
  if hw.dynamicTar then
    let p :=
      if addrMode = iic10BitAddress then p.writeTar (p.regs.tar ||| hw.mst10BitAddrMode) else p
    p.writeCon icConVal
  else
    p.writeCon (if addrMode = iic10BitAddress then icConVal ||| hw.mst10BitAddrMode else icConVal)

def dwIicSlaveInit (p : IicPort) (addrMode slvAddr : Word) : IicPort :=
  let p := { p with dev := { p.dev with mask := 0 } }
  let p := p.writeSar (slvAddr &&& iic10BitAddressMask)
  p.writeCon (if addrMode = iic10BitAddress then hw.slv10BitAddrMode else 0)

/-! ### Interrupts on and off -/

/-- `IC_INT_MST_TX_ENABLE`, `IC_INT_MST_RX_ENABLE`, `IC_INT_SLV_TX_ENABLE` and
`IC_INT_SLV_RX_ENABLE` -/
def DevMode.icInt : DevMode → Dir → Word
  | .master, cbrtn => cbrtn.icInt
  | .slave, .tx => 0x60#32
  | .slave, .rx => 0x07#32

/-- `DW_IIC_TXINT_ENABLE` or `DW_IIC_RXINT_ENABLE` is set in `int_status`. -/
def IicDev.int (s : IicDev) : Dir → Bool
  | .tx => s.txInt
  | .rx => s.rxInt

def IicDev.withInt (s : IicDev) (d : Dir) (on : Bool) : IicDev :=
  match d with
  | .tx => { s with txInt := on }
  | .rx => { s with rxInt := on }

namespace IicPort

/-- `dw_iic_dis_cbr` -/
def disCbr (p : IicPort) (cbrtn : Dir) : IicPort :=
  let p := { p with dev := { p.dev with mask := p.dev.mask &&& ~~~p.mode.icInt cbrtn } }
  let p := { p with dev := p.dev.withInt cbrtn false }
  if p.dev.gint && !p.dev.txInt && !p.dev.rxInt then
    { p with dev := { p.dev with gint := false }, irq := p.irq && !hw.hasIntno }
  else p

/-- `dw_iic_ena_cbr` -/
def enaCbr (p : IicPort) (cbrtn : Dir) : IicPort :=
  let p := { p with dev := p.dev.withInt cbrtn true }
  let p := { p with dev := { p.dev with mask := p.dev.mask ||| p.mode.icInt cbrtn } }
  if !p.dev.gint then
    { p with dev := { p.dev with gint := true }, irq := p.irq || hw.hasIntno }
  else p

end IicPort

def dwIicDisableInterrupt (p : IicPort) : IicPort :=
  let p := p.disCbr hw .tx
  let p := p.disCbr hw .rx
  { p with
    dev := { p.dev with gint := false, txInt := false, rxInt := false }
    irq := p.irq && !hw.hasIntno }

/-! ### The device on and off -/

def dwIicEnableDevice (p : IicPort) : IicPort :=
  if p.dev.status &&& devEnabled = 0 then p.withStatus (p.dev.status ||| devEnabled) else p

def dwIicDisableDevice (p : IicPort) : IicPort := p.withStatus (p.dev.status &&& ~~~devEnabled)

def dwIicResetDevice (p : IicPort) : IicPort :=
  let p := dwIicDisableDevice p
  let p := { p with
    dev := { p.dev with stop := true, curState := .free }
    errState := .none, txOver := 0, rxOver := 0 }
  dwIicEnableDevice p

def IicPort.call (p : IicPort) (which : DevCb) : IicPort :=
  { p with calls := p.calls ++ p.callOf which }

/-- `dw_iic_abort_tx` and `dw_iic_abort_rx` up to the callback, once the transfer is found to be
in progress. -/
def dwIicAbortBegin (p : IicPort) (d : Dir) : IicPort :=
  let p := p.disCbr hw d
  let p := p.withStatus (p.dev.status ||| d.abrt)
  p.call (.ofDir d)

/-- What they do behind the callback. -/
def dwIicAbortEnd (p : IicPort) (d : Dir) : IicPort :=
  p.withStatus (p.dev.status &&& ~~~d.abrt)

def dwIicAbort (env : Word → IicPort → IicPort) (p : IicPort) (d : Dir) : IicPort :=
  if p.dev.int d then
    let p := dwIicAbortBegin hw p d
    dwIicAbortEnd (if p.cbs.of d ≠ 0 then env (p.cbs.of d) p else p) d
  else p

/-- The abort commands free the bus themselves. -/
def IicPort.freed (p : IicPort) (d : Dir) : IicPort :=
  if p.mode = .master ∧ p.dev.curState = d.iicState then
    { p with dev := { p.dev with curState := .free } }
  else p

/-! ### Open and close -/

/-- The addresses are cut down to the addressing mode, which is seven bits or ten. -/
def IicPort.maskAddrs (p : IicPort) : IicPort :=
  if p.addrMode = iic7BitAddress then
    { p with
      tarAddr := p.tarAddr &&& iic7BitAddressMask, slvAddr := p.slvAddr &&& iic7BitAddressMask }
  else
    { p with
      addrMode := iic10BitAddress
      tarAddr := p.tarAddr &&& iic10BitAddressMask, slvAddr := p.slvAddr &&& iic10BitAddressMask }

/-- `dw_iic_open` up to the initialisation of the registers. -/
def IicPort.openBegin (p : IicPort) (mode : DevMode) : IicPort :=
  let p := { p with dev := { p.dev with opnCnt := (p.dev.opnCnt + 1) % 2 ^ 32 }, mode }
  let p := p.maskAddrs
  dwIicDisableDevice { p with
    txFifoLen := (hw.compParam1 >>> 16 &&& 0xff) + 1
    rxFifoLen := (hw.compParam1 >>> 8 &&& 0xff) + 1 }

/-- Behind it. -/
def IicPort.openEnd (p : IicPort) : IicPort :=
  let p := { p with
    dev := { p.dev with
      status := devEnabled, curState := .free, stop := true
      gint := false, txInt := false, rxInt := false, cmdOfs := 0, cmdLen := 0 }
    errState := .none, txOver := 0, rxOver := 0 }
  let p := dwIicDisableInterrupt hw p
  { p with dev := { p.dev with txBuf := .cleared, rxBuf := .cleared }, cbs := .cleared }

/-- The part of `dw_iic_open` for a device that is closed. -/
def dwIicFirstOpen (p : IicPort) (mode : DevMode) (param : Word) : IicPort :=
  let p := p.openBegin hw mode
  let p := match mode with
    | .master =>
      let p := { p with speedMode := param }
      dwIicMasterInit hw p param p.addrMode p.tarAddr
    | .slave =>
      let p := { p with slvAddr := param }
      dwIicSlaveInit hw p p.addrMode param
  p.openEnd hw

/-- The mode and its parameter are ones that the device can be opened with. -/
def IicHw.accepts (hw : IicHw) (mode : DevMode) (param : Word) : Except Int Unit :=
  if mode = .master ∧ param > iicSpeedUltra then .error ePar
  else if hw.supports mode then .ok () else .error eNospt

/-- `param` is the speed for a master, and the address for a slave. -/
def dwIicOpen (p : IicPort) (mode param : Word) : Except IicStop (Int × IicPort) :=
  match DevMode.ofWord mode with
  | none => .ok (ePar, p)
  | some mode =>
    match hw.accepts mode param with
    | .error ercd => .ok (ercd, p)
    | .ok () =>
      if p.dev.opnCnt > 0 then
        if mode ≠ p.mode then .ok (eSys, p)
        else
          let param2check := match mode with
            | .master => p.speedMode
            | .slave => p.slvAddr
          .ok (if param ≠ param2check then eOpned else eOk,
            { p with dev := { p.dev with opnCnt := (p.dev.opnCnt + 1) % 2 ^ 32 } })
      else if hw.icClkhz / 1000 = 0 then .error .divZero
      else .ok (eOk, dwIicFirstOpen hw p mode param)

def dwIicClose (env : Word → IicPort → IicPort) (p : IicPort) : Int × IicPort :=
  if p.dev.opnCnt = 0 then (eOk, p)
  else
    let p := { p with dev := { p.dev with opnCnt := p.dev.opnCnt - 1 } }
    if p.dev.opnCnt = 0 then
      let p := dwIicDisableInterrupt hw p
      let p := dwIicAbort hw env p .tx
      let p := dwIicAbort hw env p .rx
      let p := { p with
        dev := { p.dev with txBuf := .cleared, rxBuf := .cleared }, cbs := .cleared }
      let p := dwIicDisableDevice p
      (eOk, { p with dev := { p.dev with status := 0, stop := true } })
    else (eOpned, p)

/-! ### Commands -/

/-- The commands that call nothing back.  `ready` is what `dw_iic_putready` or `dw_iic_getready`
say, `level` is what IC_TXFLR or IC_RXFLR shows, and `state` is what `dw_iic_get_slv_state` makes
of the interrupt flags. -/
inductive IicCtrl where
  | getStatus (param : Word)
  | enaDev
  | disDev
  | reset
  | flushTx
  | flushRx
  | setAddrMode (val : Word)
  | getRxavail (param : Word) (ready : Bool) (level : Word)
  | getTxavail (param : Word) (ready : Bool) (level : Word)
  | setCb (which : DevCb) (param : Word)
  | transfer (cmd : IicCmd)
  | setSpeedMode (val : Word)
  | setTarAddr (val : Word)
  | setNextCond (val : Word)
  | setSlvAddr (val : Word)
  | getSlvState (param state : Word)
  | unknown

def IicCtrl.whenDisabled : IicCtrl → Bool
  | .enaDev | .disDev | .getStatus _ | .reset => true
  | _ => false

/-- An address, cut down to the addressing mode. -/
def IicPort.addr (p : IicPort) (val : Word) : Word :=
  if p.addrMode = iic7BitAddress then val &&& iic7BitAddressMask else val &&& iic10BitAddressMask

/-- `dw_iic_control` for these commands. -/
def dwIicCommand (p : IicPort) (cmd : IicCtrl) : DevAnswer × IicPort :=
  if p.dev.opnCnt = 0 then (.code eClsed, p)
  else if p.dev.status &&& devEnabled = 0 ∧ cmd.whenDisabled = false then (.code eSys, p)
  else
    match cmd with
    | .getStatus param => (.read param p.dev.status, p)
    | .enaDev => (.code eOk, dwIicEnableDevice p)
    | .disDev => (.code eOk, dwIicDisableDevice p)
    | .reset => (.code eOk, dwIicResetDevice p)
    | .flushTx => (.code eOk, p)
    | .flushRx => (.code eOk, p)
    | .setAddrMode val =>
      if val = iic7BitAddress ∨ val = iic10BitAddress then
        let p := match p.mode with
          | .master => dwIicSetMstaddrMode hw p val
          | .slave => dwIicSetSlvaddrMode hw p val
        (.code eOk, { p with addrMode := val })
      else (.code ePar, p)
    | .getRxavail param ready level => (.read param (fifoAvail p.rxFifoLen ready level), p)
    | .getTxavail param ready level =>
      (.read param (fifoAvail p.txFifoLen ready (p.txFifoLen - level)), p)
    | .setCb which param =>
      if param.toNat % 4 ≠ 0 then (.code ePar, p)
      else (.code eOk, { p with cbs := p.cbs.set which param })
    | .transfer (.setInt d val) =>
      if p.mode = .master ∧ p.dev.curState ≠ .free ∧ p.dev.curState ≠ d.iicState then
        (.code eCtx, p)
      else if val = 0 then
        let p := p.disCbr hw d
        (.code eOk, { p with dev := { p.dev with curState := .free } })
      else
        let p := p.enaCbr hw d
        (.code eOk, { p with dev := { p.dev with curState := d.iicState } })
    | .transfer (.setIntBuf d param devbuf) =>
      if p.mode = .master ∧ p.dev.curState = d.iicState then (.code eCtx, p)
      else if param.toNat % 4 ≠ 0 then (.code ePar, p)
      else (.code eOk, { p with dev := p.dev.withBuf d (intBuf param devbuf) })
    | .setSpeedMode val =>
      if p.mode ≠ .master then (.code eNospt, p)
      else if val > iicSpeedUltra then (.code ePar, p)
      else (.code eOk, { dwIicSetSpeedmode p val with speedMode := val })
    | .setTarAddr val =>
      if p.mode ≠ .master then (.code eNospt, p)
      else if p.addr val ≠ p.tarAddr then
        (.code eOk, { dwIicSetTaraddr p (p.addr val) with tarAddr := p.addr val })
      else (.code eOk, p)
    | .setNextCond val =>
      if p.mode ≠ .master then (.code eNospt, p)
      else if val = 0 ∨ val = 1 then
        (.code eOk, { p with dev := { p.dev with stop := decide (val = 0) } })
      else (.code ePar, p)
    | .setSlvAddr val =>
      if p.mode ≠ .slave then (.code eNospt, p)
      else (.code eOk, { dwIicSetSlvaddr p (p.addr val) with slvAddr := p.addr val })
    | .getSlvState param state =>
      if p.mode ≠ .slave then (.code eNospt, p) else (.read param state, p)
    | .unknown => (.code eNospt, p)

/-! ### Interrupts -/

namespace IicPort

/-- The part of the port that the master's routines change.  They turn the interrupt off at the
processor together with `DW_IIC_GINT_ENABLE`. -/
def withMst (p : IicPort) (mst : IicMst) : IicPort :=
  { p with
    toIicMst := mst
    irq := if p.dev.gint && !mst.dev.gint then p.irq && !hw.hasIntno else p.irq }

/-- `dw_iic_isr` in master mode up to the callback of the transfer. -/
def mstServe (p : IicPort) (ev : IicIsrEvent) : IicPort :=
  let d := p.dev.serves
  if (p.dev.buf d).buf ≠ 0 then
    let (_, complete, mst) := p.toIicMst.serve d ev
    let p := p.withMst hw mst
    if complete then p.call (.ofDir d) else p
  else p.withMst hw { p.toIicMst with dev := p.dev.through d }

/-- Up to the error callback. -/
def mstCheck (p : IicPort) (d : Dir) (ev : IicIsrEvent) (complete : Bool) : IicPort :=
  let p := p.withMst hw (p.toIicMst.served d ev.status complete)
  let (err, mst) := p.toIicMst.check d ev
  let p := p.withMst hw mst
  if err then p.call .err else p

/-- Behind it. -/
def mstEnd (p : IicPort) (d : Dir) : IicPort := p.withMst hw (p.toIicMst.checked d true)

/-- `dw_iic_slv_int_process` on a request from the bus: `IC_INTR_STAT_RD_REQ` to send, or
`IC_INTR_STAT_RX_FULL` to receive. -/
def slvRequest (p : IicPort) (d : Dir) : IicPort :=
  if p.cbs.of d ≠ 0 then p.call (.ofDir d) else p.disCbr hw d

/-- `IIC_SLV_ABRT_LOST_BUS` -/
def slvAbrtLostBus : Word := 0x5000#32

/-- `IC_TX_ABRT_SLVFLUSH_TXFIFO` -/
def slvAbrtFlushTxfifo : Word := 0x2000#32

/-- `dw_iic_slv_chkerr` -/
def slvChkerr (p : IicPort) (ev : IicIsrEvent) : IicErr × IicPort :=
  if hasFlag ev.raw icIntrTxAbrt then
    if hasFlag ev.source slvAbrtLostBus then (.lostBus, p)
    else if hasFlag ev.source slvAbrtFlushTxfifo then (.none, p)
    else (.undef, p)
  else
    let (_, mst) := p.toIicMst.chkerr ev
    (.none, p.withMst hw mst)

/-- `dw_iic_slv_int_process` behind the requests: overruns are counted and errors are reported. -/
def slvCheck (p : IicPort) (ev : IicIsrEvent) : IicPort :=
  let p := if hasFlag ev.status icIntrTxOver then { p with txOver := p.txOver + 1 } else p
  let p := if hasFlag ev.status (icIntrRxOver ||| icIntrRxUnder) then
    { p with rxOver := p.rxOver + 1 } else p
  if hasFlag ev.status icIntrTxAbrt then
    let (errState, p) := p.slvChkerr hw ev
    let p := { p with errState }
    if errState ≠ .none then p.call .err else p
  else p

end IicPort

/-! ### The driver over a run -/

/-- Calls of the driver, and interrupts.  What a routine does behind a callback is a step of its
own, and the master's routine is cut at both of its callbacks. -/
inductive IicOp where
  | opened (mode param : Word)
  | close
  | control (cmd : IicCtrl)
  | abortBegin (d : Dir)
  | abortEnd (d : Dir)
  | abortNothing (d : Dir)
  | mstServe (ev : IicIsrEvent)
  | mstCheck (d : Dir) (ev : IicIsrEvent) (complete : Bool)
  | mstEnd (d : Dir)
  | slvRequest (d : Dir)
  | slvCheck (ev : IicIsrEvent)

def IicPort.Ready (p : IicPort) : Prop := p.dev.opnCnt ≠ 0 ∧ p.dev.status &&& devEnabled ≠ 0

instance IicPort.decidableReady (p : IicPort) : Decidable p.Ready :=
  inferInstanceAs (Decidable (_ ∧ _))

def iicPortStep (env : Word → IicPort → IicPort) (p : IicPort) : IicOp → Except IicStop IicPort
  | .opened mode param => (dwIicOpen hw p mode param).map (·.2)
  | .close => .ok (dwIicClose hw env p).2
  | .control cmd => .ok (dwIicCommand hw p cmd).2
  | .abortBegin d => .ok (if p.Ready ∧ p.dev.int d = true then dwIicAbortBegin hw p d else p)
  | .abortEnd d => .ok ((dwIicAbortEnd p d).freed d)
  | .abortNothing d => .ok (if p.Ready ∧ p.dev.int d = false then p.freed d else p)
  | .mstServe ev => .ok (if p.mode = .master then p.mstServe hw ev else p)
  | .mstCheck d ev complete => .ok (if p.mode = .master then p.mstCheck hw d ev complete else p)
  | .mstEnd d => .ok (p.mstEnd hw d)
  | .slvRequest d => .ok (if p.mode = .slave then p.slvRequest hw d else p)
  | .slvCheck ev => .ok (if p.mode = .slave then p.slvCheck hw ev else p)

/-- Before the first open: closed, and the interrupt off at the processor.  Registers and everything
else are arbitrary. -/
structure IicPort.Closed (p : IicPort) : Prop where
  opnCnt : p.dev.opnCnt = 0
  irq : p.irq = false

end Device

end Embarc
