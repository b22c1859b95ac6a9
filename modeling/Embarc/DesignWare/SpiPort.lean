/-
The DesignWare SPI driver with its registers: `dw_spi_open`, `dw_spi_close` and `dw_spi_control` in
`dw_spi.c`.

The driver keeps the clock mode, the frame size and the frequency twice: in the device information
and in the registers CTRLR0 and BAUDR.  SSIENR is left out: the driver turns the controller off
while it writes one of them, and never reads it.  So are the FIFO thresholds and the sample delay,
which are written once.

As for the UART the abort commands, the polling transfer and the interrupt routine are given in
parts, with the callbacks and the interrupts between them.  A quad read is told what it finds in
the receive FIFO at each turn of its loop.
-/
import Embarc.DesignWare.Spi

namespace Embarc

structure SpiRegs where
  ctrlr0 : Word
  ctrlr1 : Word
  spiCtrlr0 : Word
  ser : Word
  baudr : Word
deriving DecidableEq, Repr

/-- The controller.  The lengths of the FIFOs are what `dw_spi_get_txfifo_len` and
`dw_spi_get_rxfifo_len` find. -/
structure SpiHw where
  dwApbBusFreq : Word
  supportModes : Word
  hasIntno : Bool
  txFifoLen : Word
  rxFifoLen : Word

/-- `DEV_SPI_CBS`: the addresses of the callbacks, 0 for none. -/
structure DevSpiCbs where
  txCb : Word
  rxCb : Word
  xferCb : Word
  errCb : Word
deriving DecidableEq, Repr

inductive SpiCb where
  | ofCbrtn (cbrtn : SpiCbrtn)
  | err
deriving DecidableEq, Repr

namespace DevSpiCbs

def cleared : DevSpiCbs := { txCb := 0, rxCb := 0, xferCb := 0, errCb := 0 }

/-- The callback of a transfer state. -/
def of (cbs : DevSpiCbs) : SpiCbrtn → Word
  | .snd => cbs.txCb
  | .rcv => cbs.rxCb
  | .xfer => cbs.xferCb

def set (cbs : DevSpiCbs) (which : SpiCb) (param : Word) : DevSpiCbs :=
  match which with
  | .ofCbrtn .snd => { cbs with txCb := param }
  | .ofCbrtn .rcv => { cbs with rxCb := param }
  | .ofCbrtn .xfer => { cbs with xferCb := param }
  | .err => { cbs with errCb := param }

end DevSpiCbs

/-- `DEV_IN_TX_ABRT`, `DEV_IN_RX_ABRT` and `DEV_IN_XFER_ABRT` -/
def SpiCbrtn.abrt : SpiCbrtn → Word
  | .snd => 0x10#32
  | .rcv => 0x20#32
  | .xfer => 0x40#32

/-- An SPI controller: its transfers, what the driver records of its settings, and its
registers. -/
structure SpiPort where
  dev : SpiDev
  mode : DevMode
  clkMode : Word
  freq : Word
  slave : Byte
  txFifoLen : Word
  rxFifoLen : Word
  cbs : DevSpiCbs
  regs : SpiRegs
  /-- The interrupt is enabled at the processor. -/
  irq : Bool
  /-- The callbacks made so far. -/
  calls : List (DevCall SpiCbrtn)

/-! ### Settings -/

def spiClkModeDefault : Word := 0#32
def spiCpol1Cpha1 : Word := 3#32
def spiDfsDefault : Word := 8#32
def spiSlaveNotSelected : Byte := 0xFF#8

def dwSpiCtrlr0DfsMask : Word := 0xf#32
def dwSpiCtrlr0ScMask : Word := 0xC0#32

def dwSpiFreq2Dv (perifreq spifreq : Word) : Word := perifreq / spifreq

def dwSpiSelectClockmode (clkMode : Word) : Word := clkMode <<< 6

namespace SpiPort

def writeCtrlr0 (p : SpiPort) (val : Word) : SpiPort :=
  { p with regs := { p.regs with ctrlr0 := val } }

def withStatus (p : SpiPort) (status : Word) : SpiPort :=
  { p with dev := { p.dev with status } }

end SpiPort

def dwSpiSetFreq (hw : SpiHw) (p : SpiPort) (freq : Word) : SpiPort :=
  { p with regs := { p.regs with baudr := dwSpiFreq2Dv hw.dwApbBusFreq freq } }

def dwSpiSetDfs (p : SpiPort) (dfs : Word) : Int × SpiPort :=
  if dfs ≤ 3 ∨ dfs > 16 then (-1, p)
  else (0, p.writeCtrlr0 (p.regs.ctrlr0 &&& ~~~dwSpiCtrlr0DfsMask ||| (dfs - 1)))

def dwSpiSetClockmode (p : SpiPort) (clkMode : Word) : Int × SpiPort :=
  if clkMode > spiCpol1Cpha1 then (-1, p)
  else
    let p := p.writeCtrlr0 (p.regs.ctrlr0 &&& ~~~dwSpiCtrlr0ScMask)
    (0, p.writeCtrlr0 (p.regs.ctrlr0 ||| dwSpiSelectClockmode clkMode))

/-- `busy` is what `dw_spi_busy` says.  The processor shifts by the low five bits. -/
def dwSpiSelectSlave (p : SpiPort) (slvLine : Word) (busy : Bool) : Int × SpiPort :=
  if busy then (-1, p)
  else (0, { p with regs := { p.regs with ser := 1 <<< (slvLine.toNat % 32) } })

def dwSpiDeselectSlave (p : SpiPort) (busy : Bool) : Int × SpiPort :=
  if busy then (-1, p) else (0, { p with regs := { p.regs with ser := 0 } })

/-- Frame format, transfer mode and slave output enable are all 0. -/
def dwSpiHwInit (p : SpiPort) (clkMode dfs : Word) : SpiPort :=
  { p with
    dev := { p.dev with imr := 0 }
    regs := { p.regs with
      ctrlr0 := dwSpiSelectClockmode clkMode ||| (dfs - 1), ctrlr1 := 0, ser := 0 } }

/-! ### Quad reads -/

/-- `DEV_SPI_PAK`, without the command and the address that are sent. -/
structure DevSpiPak where
  dataPtr : Word
  dataLen : Word

def dwSpiQuadEnable (p : SpiPort) (len : Word) : SpiPort :=
  { p with regs := { p.regs with
      ctrlr0 := p.regs.ctrlr0 ||| 0x400200#32, spiCtrlr0 := 0x4218#32, ctrlr1 := len } }

def dwSpiQuadDisable (p : SpiPort) : SpiPort :=
  let p := p.writeCtrlr0 (p.regs.ctrlr0 &&& ~~~0x600300#32)
  { p with regs := { p.regs with ctrlr1 := 0, ctrlr0 := 0 } }

/-- The receive FIFO is read until it is empty or everything is there. -/
def dwSpiQuadTake (pak : DevSpiPak) : List Word → Word → (Word → Byte) → Word × (Word → Byte)
  | [], len, mem => (len, mem)
  | w :: frames, len, mem =>
    let mem := Function.update mem (pak.dataPtr + len) (w.setWidth 8)
    if len + 1 = pak.dataLen then (len + 1, mem) else dwSpiQuadTake pak frames (len + 1) mem

/-- The loop, counted in `i` with eight bits.  `turns` is what is in the receive FIFO at each turn;
`none` if the loop is still going after them. -/
def dwSpiQuadLoop (pak : DevSpiPak) :
    List (List Word) → Byte → Word → (Word → Byte) → Option (Word × (Word → Byte))
  | [], i, len, mem => if i.toNat < pak.dataLen.toNat then none else some (len, mem)
  | frames :: turns, i, len, mem =>
    if i.toNat < pak.dataLen.toNat then
      let (len, mem) := dwSpiQuadTake pak frames len mem
      if len = pak.dataLen then some (len, mem) else dwSpiQuadLoop pak turns (i + 1) len mem
    else some (len, mem)

/-- The number of bytes read, once all is done, and the device. -/
def dwSpiQuadReceive (p : SpiPort) (pak : DevSpiPak) (turns : List (List Word)) :
    Option Word × SpiPort :=
  let p := p.withStatus (p.dev.status ||| devInXfer)
  let p := dwSpiQuadEnable p (pak.dataLen - 1)
  match dwSpiQuadLoop pak turns 0 0 p.dev.mem with
  | none => (none, p)
  | some (len, mem) =>
    let p := dwSpiQuadDisable { p with dev := { p.dev with mem } }
    (some len, p.withStatus (p.dev.status &&& ~~~devInXfer))

section Device

variable (hw : SpiHw)

/-! ### Interrupts on and off -/

namespace SpiPort

/-- The part of the port that `dw_spi_dis_cbr` and `dw_spi_ena_cbr` change.  They turn the
interrupt off and on at the processor together with `DW_SPI_GINT_ENABLE`. -/
def withDev (p : SpiPort) (dev : SpiDev) : SpiPort :=
  { p with
    dev
    irq :=
      if p.dev.gint && !dev.gint then p.irq && !hw.hasIntno
      else if !p.dev.gint && dev.gint then p.irq || hw.hasIntno
      else p.irq }

/-- `dw_spi_dis_cbr` -/
def disCbr (p : SpiPort) (cbrtn : SpiCbrtn) : SpiPort := p.withDev hw (dwSpiDisCbr p.dev cbrtn).2

/-- `dw_spi_disable_interrupt` -/
def disableInterrupt (p : SpiPort) : SpiPort :=
  { p with dev := dwSpiDisableInterrupt p.dev, irq := p.irq && !hw.hasIntno }

def call (p : SpiPort) (cbrtn : SpiCbrtn) : SpiPort :=
  if p.cbs.of cbrtn ≠ 0 then { p with calls := p.calls ++ [⟨cbrtn, p.dev.status⟩] } else p

/-- A transfer of this kind is in progress. -/
def InXfer (p : SpiPort) (cbrtn : SpiCbrtn) : Prop := p.dev.status &&& dwSpiInXfer = cbrtn.state

instance decidableInXfer (p : SpiPort) (cbrtn : SpiCbrtn) : Decidable (p.InXfer cbrtn) :=
  inferInstanceAs (Decidable (_ = _))

end SpiPort

/-! ### The device on and off -/

def dwSpiEnableDevice (p : SpiPort) : SpiPort :=
  if p.dev.status &&& devEnabled = 0 then p.withStatus (p.dev.status ||| devEnabled) else p

def dwSpiDisableDevice (p : SpiPort) : SpiPort := p.withStatus (p.dev.status &&& ~~~devEnabled)

def dwSpiResetDevice (p : SpiPort) : SpiPort :=
  dwSpiEnableDevice ((dwSpiDisableDevice p).disableInterrupt hw)

/-- `dw_spi_abort_tx`, `dw_spi_abort_rx` and `dw_spi_abort_xfer` up to the callback, once the
transfer is found to be in progress. -/
def dwSpiAbortBegin (p : SpiPort) (cbrtn : SpiCbrtn) : SpiPort :=
  let p := p.disCbr hw cbrtn
  let p := p.withStatus (p.dev.status ||| cbrtn.abrt)
  p.call cbrtn

/-- What they do behind the callback. -/
def dwSpiAbortEnd (p : SpiPort) (cbrtn : SpiCbrtn) : SpiPort :=
  p.withStatus (p.dev.status &&& ~~~cbrtn.abrt)

def dwSpiAbort (env : Word → SpiPort → SpiPort) (p : SpiPort) (cbrtn : SpiCbrtn) : Int × SpiPort :=
  if p.dev.status &&& dwSpiInXfer = 0 then (eOk, p)
  else if ¬p.InXfer cbrtn then (eCtx, p)
  else
    let p := dwSpiAbortBegin hw p cbrtn
    (eOk, dwSpiAbortEnd (if p.cbs.of cbrtn ≠ 0 then env (p.cbs.of cbrtn) p else p) cbrtn)

/-! ### Open and close -/

/-- `opn_cnt` has eight bits. -/
def SpiPort.countOpen (p : SpiPort) : SpiPort :=
  { p with dev := { p.dev with opnCnt := (p.dev.opnCnt + 1) % 2 ^ 8 } }

/-- The part of `dw_spi_open` for a device that is closed.  A master deselects all slaves, which
`dw_spi_hw_init` has done. -/
def dwSpiFirstOpen (p : SpiPort) (mode : DevMode) (param : Word) : SpiPort :=
  let p := { p.countOpen with txFifoLen := hw.txFifoLen, rxFifoLen := hw.rxFifoLen, mode }
  let clkMode := match mode with
    | .master => spiClkModeDefault
    | .slave => param
  let p := { p with dev := { p.dev with dfs := spiDfsDefault.toNat }, clkMode }
  let p := dwSpiHwInit p clkMode spiDfsDefault
  let p := match mode with
    | .master => { dwSpiSetFreq hw p param with freq := param }
    | .slave => p
  let p := { p with
    dev := { p.dev with
      status := devEnabled, dummy := 0xff, gint := false
      xfer := dwSpiInitTransfer [] p.dev.dfs }
    slave := spiSlaveNotSelected }
  { p.disableInterrupt hw with cbs := .cleared }

/-- The mode and its parameter are ones that the device can be opened with. -/
def SpiHw.accepts (mode : DevMode) (param : Word) : Except Int Unit :=
  if mode = .slave ∧ param > spiCpol1Cpha1 ∨ mode = .master ∧ param = 0 then .error ePar
  else if hasFlag hw.supportModes mode.supported then .ok () else .error eNospt

/-- `param` is the frequency for a master, and the clock mode for a slave. -/
def dwSpiOpen (p : SpiPort) (mode param : Word) : Int × SpiPort :=
  match DevMode.ofWord mode with
  | none => (ePar, p)
  | some mode =>
    match hw.accepts mode param with
    | .error ercd => (ercd, p)
    | .ok () =>
      if p.dev.opnCnt > 0 then
        if mode ≠ p.mode then (eSys, p)
        else
          let param2check := match mode with
            | .master => p.freq
            | .slave => p.clkMode
          (if param ≠ param2check then eOpned else eOk, p.countOpen)
      else (eOk, dwSpiFirstOpen hw p mode param)

/-- The transfer of `SPI_CMD_TRANSFER_INT` is not aborted. -/
def dwSpiClose (env : Word → SpiPort → SpiPort) (p : SpiPort) : Int × SpiPort :=
  if p.dev.opnCnt = 0 then (eOk, p)
  else
    let p := { p with dev := { p.dev with opnCnt := p.dev.opnCnt - 1 } }
    if p.dev.opnCnt = 0 then
      let p := p.disableInterrupt hw
      let p := (dwSpiAbort hw env p .snd).2
      let p := (dwSpiAbort hw env p .rcv).2
      let p := { p with dev := { p.dev with xfer := .cleared }, cbs := .cleared }
      let p := dwSpiDisableDevice p
      (eOk, p.withStatus 0)
    else (eOpned, p)

/-! ### Commands -/

/-- The commands that call nothing back and do not wait.  `ready` is what `dw_spi_putready` or
`dw_spi_getready` say, `level` is what TXFLR or RXFLR shows, and `busy` what `dw_spi_busy` says. -/
inductive SpiCtrl where
  | getStatus (param : Word)
  | setClkMode (val : Word)
  | enaDev
  | disDev
  | reset
  | flushTx
  | flushRx
  | setDfs (val : Word)
  | setDummyData (val : Word)
  | getRxavail (param : Word) (ready : Bool) (level : Word)
  | getTxavail (param : Word) (ready : Bool) (level : Word)
  | setCb (which : SpiCb) (param : Word)
  | transfer (cmd : SpiCmd)
  | setFreq (val : Word)
  | selDev (val : Word) (busy : Bool)
  | dselDev (busy : Bool)
  | unknown

def SpiCtrl.whenDisabled : SpiCtrl → Bool
  | .enaDev | .disDev | .getStatus _ | .reset => true
  | _ => false

/-- FIFO entries as bytes. -/
def SpiPort.bytes (p : SpiPort) (avail : Word) : Word :=
  avail * BitVec.ofNat 32 (dwSpiNbytes p.dev.dfs)

/-- `dw_spi_control` for these commands. -/
def dwSpiCommand (p : SpiPort) (cmd : SpiCtrl) : DevAnswer × SpiPort :=
  if p.dev.opnCnt = 0 then (.code eClsed, p)
  else if p.dev.status &&& devEnabled = 0 ∧ cmd.whenDisabled = false then (.code eSys, p)
  else
    match cmd with
    | .getStatus param => (.read param p.dev.status, p)
    | .setClkMode val =>
      if p.dev.status &&& devInXfer ≠ 0 then (.code eCtx, p)
      else if val > spiCpol1Cpha1 then (.code ePar, p)
      else
        let (ret, p) := dwSpiSetClockmode p val
        if ret = 0 then (.code eOk, { p with clkMode := val }) else (.code eSys, p)
    | .enaDev => (.code eOk, dwSpiEnableDevice p)
    | .disDev => (.code eOk, dwSpiDisableDevice p)
    | .reset => (.code eOk, dwSpiResetDevice hw p)
    | .flushTx => (.code (if p.dev.status &&& devInXfer ≠ 0 then eCtx else eOk), p)
    | .flushRx => (.code (if p.dev.status &&& devInXfer ≠ 0 then eCtx else eOk), p)
    | .setDfs val =>
      if p.dev.status &&& devInXfer ≠ 0 then (.code eCtx, p)
      else if val = 0 then (.code ePar, p)
      else
        let (ret, p) := dwSpiSetDfs p val
        if ret = 0 then (.code eOk, { p with dev := { p.dev with dfs := val.toNat } })
        else (.code eSys, p)
    | .setDummyData val => (.code eOk, { p with dev := { p.dev with dummy := val } })
    | .getRxavail param ready level =>
      (.read param (p.bytes (fifoAvail p.rxFifoLen ready level)), p)
    | .getTxavail param ready level =>
      (.read param (p.bytes (fifoAvail p.txFifoLen ready (p.txFifoLen - level))), p)
    | .setCb which param =>
      if param.toNat % 4 ≠ 0 then (.code ePar, p)
      else (.code eOk, { p with cbs := p.cbs.set which param })
    | .transfer cmd =>
      let (ercd, dev) := dwSpiControl p.dev cmd
      (.code ercd, p.withDev hw dev)
    | .setFreq val =>
      if p.mode ≠ .master then (.code eNospt, p)
      else if p.dev.status &&& devInXfer ≠ 0 then (.code eCtx, p)
      else if val = 0 then (.code ePar, p)
      else (.code eOk, { dwSpiSetFreq hw p val with freq := val })
    | .selDev val busy =>
      if p.mode ≠ .master then (.code eNospt, p)
      else if p.dev.status &&& devInXfer ≠ 0 then (.code eCtx, p)
      else
        let (ret, p) := dwSpiSelectSlave p val busy
        if ret = 0 then (.code eOk, { p with slave := val.setWidth 8 }) else (.code eSys, p)
    | .dselDev busy =>
      if p.mode ≠ .master then (.code eNospt, p)
      else if p.dev.status &&& devInXfer ≠ 0 then (.code eCtx, p)
      else
        let (ret, p) := dwSpiDeselectSlave p busy
        if ret = 0 then (.code eOk, { p with slave := spiSlaveNotSelected }) else (.code eSys, p)
    | .unknown => (.code eNospt, p)

def SpiPort.Ready (p : SpiPort) : Prop := p.dev.opnCnt ≠ 0 ∧ p.dev.status &&& devEnabled ≠ 0

instance SpiPort.decidableReady (p : SpiPort) : Decidable p.Ready :=
  inferInstanceAs (Decidable (_ ∧ _))

/-- `SPI_CMD_QUAD_READ`, which checks nothing but that the device is open and enabled. -/
def dwSpiQuadRead (p : SpiPort) (pak : DevSpiPak) (turns : List (List Word)) :
    DevAnswer × SpiPort :=
  if p.dev.opnCnt = 0 then (.code eClsed, p)
  else if p.dev.status &&& devEnabled = 0 then (.code eSys, p)
  else (.code eOk, (dwSpiQuadReceive p pak turns).2)

/-! ### Polling and interrupts -/

namespace SpiPort

/-- One turn of the loop in `dw_spi_poll_transfer`. -/
def pollTurn (p : SpiPort) (room : Nat) (frames : List Word) : SpiPort :=
  if dwSpiXferEnd p.dev.xfer then p
  else { p with dev := (dwSpiReader (dwSpiWriter p.dev room).2 frames).2 }

/-- `dw_spi_isr` up to and with the reader. -/
def isrRead (p : SpiPort) (isrStatus : Word) (frames : List Word) : Except SpiStop SpiPort :=
  if isrStatus ≠ 0 ∧ p.dev.xfer.xferLen = 0 then .ok (p.disableInterrupt hw)
  else (dwSpiIsrRead p.dev isrStatus frames).map fun r => { p with dev := r.2 }

/-- The transfer that has come to its end. -/
def ended (p : SpiPort) : Option SpiCbrtn :=
  if p.InXfer .snd then some .snd
  else if p.InXfer .rcv then some .rcv
  else if p.InXfer .xfer then some .xfer
  else none

def written (p : SpiPort) (isrStatus : Word) (room : Nat) : SpiPort :=
  if hasFlag isrStatus dwSpiImrTxeim then { p with dev := (dwSpiWriter p.dev room).2 } else p

/-- The end of a transfer up to the callback. -/
def complete (p : SpiPort) : SpiPort :=
  match p.ended with
  | some cbrtn => (p.disCbr hw cbrtn).call cbrtn
  | none => p.disableInterrupt hw

/-- From the writer up to the callback. -/
def isrWrite (p : SpiPort) (isrStatus : Word) (room : Nat) : SpiPort :=
  let p := p.written isrStatus room
  if dwSpiXferEnd p.dev.xfer then p.complete hw else p

/-- Behind it. -/
def isrEnd (p : SpiPort) : SpiPort := { p with dev := { p.dev with xfer := .cleared } }

/-! The routine in one piece, with the divisions of `dw_spi_rx_max` and `dw_spi_tx_max`. -/

/-- The reader, which divides by `nbytes` before it looks at its pointer. -/
def readChecked (p : SpiPort) (frames : List Word) : Except SpiStop SpiPort :=
  if p.dev.xfer.nbytes = 0 then .error .divZero
  else .ok { p with dev := (dwSpiReader p.dev frames).2 }

/-- The writer, which does so too. -/
def writeChecked (p : SpiPort) (room : Nat) : Except SpiStop SpiPort :=
  if p.dev.xfer.nbytes = 0 then .error .divZero
  else .ok { p with dev := (dwSpiWriter p.dev room).2 }

/-- An overflow or an underflow. -/
def isrError (env : Word → SpiPort → SpiPort) (p : SpiPort) : SpiPort :=
  let p := p.disableInterrupt hw
  let p := if p.cbs.errCb ≠ 0 then env p.cbs.errCb p else p
  { p with dev := { p.dev with xfer := .cleared } }

/-- The end of a transfer, with the callback. -/
def isrDone (env : Word → SpiPort → SpiPort) (p : SpiPort) : SpiPort :=
  let cb := p.ended.elim 0 p.cbs.of
  let p := p.complete hw
  (if cb ≠ 0 then env cb p else p).isrEnd

end SpiPort

/-- `dw_spi_isr`.  `frames` are in the receive FIFO and `room` is in the transmit FIFO when it looks;
`env` is what the callbacks do. -/
def dwSpiIsr (env : Word → SpiPort → SpiPort) (p : SpiPort) (isrStatus : Word) (frames : List Word)
    (room : Nat) : Except SpiStop SpiPort :=
  if isrStatus = 0 then .ok p
  else if p.dev.xfer.xferLen = 0 then .ok (p.disableInterrupt hw)
  else do
    let p := if hasFlag isrStatus dwSpiImrErr then p.isrError hw env else p
    let p ← p.readChecked frames
    let p ← if hasFlag isrStatus dwSpiImrTxeim then p.writeChecked room else .ok p
    return if dwSpiXferEnd p.dev.xfer then p.isrDone hw env else p

/-! ### The driver over a run -/

/-- Calls of the driver, and interrupts.  What a routine does behind a callback is a step of its
own. -/
inductive SpiOp where
  | opened (mode param : Word)
  | close
  | control (cmd : SpiCtrl)
  | abortBegin (cbrtn : SpiCbrtn)
  | abortEnd (cbrtn : SpiCbrtn)
  | quadRead (pak : DevSpiPak) (turns : List (List Word))
  | pollBegin (param : Word) (xfer : List DevSpiTransfer)
  | pollTurn (room : Nat) (frames : List Word)
  | pollEnd
  | isrRead (isrStatus : Word) (frames : List Word)
  | isrWrite (isrStatus : Word) (room : Nat)
  | isrEnd

def spiPortStep (env : Word → SpiPort → SpiPort) (p : SpiPort) : SpiOp → Except SpiStop SpiPort
  | .opened mode param => .ok (dwSpiOpen hw p mode param).2
  | .close => .ok (dwSpiClose hw env p).2
  | .control cmd => .ok (dwSpiCommand hw p cmd).2
  | .abortBegin cbrtn => .ok (if p.Ready ∧ p.InXfer cbrtn then dwSpiAbortBegin hw p cbrtn else p)
  | .abortEnd cbrtn => .ok (dwSpiAbortEnd p cbrtn)
  | .quadRead pak turns => .ok (dwSpiQuadRead p pak turns).2
  | .pollBegin param xfer => .ok { p with dev := (dwSpiTransferPolling p.dev param xfer).2 }
  | .pollTurn room frames => .ok (p.pollTurn room frames)
  | .pollEnd => .ok (p.withStatus (p.dev.status &&& ~~~devInXfer))
  | .isrRead isrStatus frames => p.isrRead hw isrStatus frames
  | .isrWrite isrStatus room => .ok (p.isrWrite hw isrStatus room)
  | .isrEnd => .ok p.isrEnd

/-- Before the first open: closed, and the interrupt off at the processor.  Registers and everything
else are arbitrary. -/
structure SpiPort.Closed (p : SpiPort) : Prop where
  opnCnt : p.dev.opnCnt = 0
  irq : p.irq = false

end Device

end Embarc
