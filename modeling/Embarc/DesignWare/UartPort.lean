/-
The DesignWare UART driver with its registers: `dw_uart_open`, `dw_uart_close` and
`dw_uart_control` in `dw_uart.c`.

The divisor latch shares its addresses with the data register and the interrupt enable register;
the DLAB bit of the line control register says which of them is seen.  All accesses to the two
addresses go through this window.

A callback may call the driver again.  Where the routine it is called from has something left to
do, the routine is given in two parts, and over a run whatever comes between the two parts is the
callback's doing.  What the functions at the callbacks' addresses do is `env`.
-/
import Embarc.DesignWare.Uart
import Embarc.Lib.Run

namespace Embarc

/-- `UART_DPS_FORMAT` -/
structure UartDps where
  databits : Word
  parity : Word
  stopbits : Word
deriving DecidableEq, Repr

/-- `dps_format_default` -/
def UartDps.default : UartDps := { databits := 8, parity := 0, stopbits := 0 }

/-- The registers besides the interrupt enable register, which is `UartDev.ier`. -/
structure UartRegs where
  lcr : Word
  mcr : Word
  fcr : Word
  dll : Byte
  dlh : Byte
deriving DecidableEq, Repr

/-- What belongs to the device and its place on the chip: the frequency of the bus, whether there
is an interrupt number, the component parameter register, and what a software reset leaves. -/
structure UartHw where
  dwApbBusFreq : Word
  hasIntno : Bool
  cpr : Word
  resetRegs : UartRegs
  resetIer : Word

/-- A UART: its transfers, what the driver records of its settings, and its registers. -/
structure UartPort where
  dev : UartDev
  baudrate : Word
  dpsFormat : UartDps
  hwfc : Word
  cbs : DevCbs
  txFifoLen : Word
  rxFifoLen : Word
  regs : UartRegs
  /-- What was written to the transmit holding register. -/
  sent : List Byte
  /-- The interrupt is enabled at the processor. -/
  irq : Bool
  /-- The callbacks made so far. -/
  calls : List (DevCall Dir)

inductive UartStop where
  /-- `DW_UART_BAUD2DIV` divides by `baud * 16`, which is computed in 32 bits. -/
  | divZero
deriving DecidableEq, Repr

/-! ### Registers -/

def dwUartLcrDlab : Word := 0x80#32
def dwUartLcrBreak : Word := 0x40#32
def dwUartLcrDpsMask : Word := 0x3F#32
def dwUartMcrRts : Word := 0x02#32
def dwUartMcrAfce : Word := 0x20#32
def dwUartCprFifoStat : Word := 0x400#32
def dwUartCprFifoMode : Word := 0xFF0000#32

namespace UartPort

def dlab (p : UartPort) : Bool := hasFlag p.regs.lcr dwUartLcrDlab

def writeLcr (p : UartPort) (val : Word) : UartPort := { p with regs := { p.regs with lcr := val } }

def writeMcr (p : UartPort) (val : Word) : UartPort := { p with regs := { p.regs with mcr := val } }

/-- DATA, or DLL -/
def writeData (p : UartPort) (val : Word) : UartPort :=
  if p.dlab then { p with regs := { p.regs with dll := val.setWidth 8 } }
  else { p with sent := p.sent ++ [val.setWidth 8] }

/-- IER, or DLH -/
def readIer (p : UartPort) : Word := if p.dlab then p.regs.dlh.setWidth 32 else p.dev.ier

def writeIer (p : UartPort) (val : Word) : UartPort :=
  if p.dlab then { p with regs := { p.regs with dlh := val.setWidth 8 } }
  else { p with dev := { p.dev with ier := val } }

def divisor (p : UartPort) : BitVec 16 := p.regs.dlh ++ p.regs.dll

def withStatus (p : UartPort) (status : Word) : UartPort :=
  { p with dev := { p.dev with status } }

end UartPort

/-! ### Settings -/

def dwUartBaud2Div (perifreq baud : Word) : Word := perifreq / (baud * 16)

def dwUartDatabits : List Word := [0x00, 0x01, 0x02, 0x03]
/-- The entry for mark parity is `DW_UART_LCR_PARITY_MASK`. -/
def dwUartParity : List Word := [0x00, 0x08, 0x18, 0x38, 0x38]
def dwUartStopbits : List Word := [0x00, 0x04, 0x04]

def dwUartSetDps (p : UartPort) (dps : UartDps) : Int × UartPort :=
  if dps.databits < 5 ∨ dps.databits > 8 then (-1, p)
  else if dps.stopbits > 2 then (-1, p)
  else if dps.parity > 4 then (-1, p)
  else
    let dpsValue := dwUartDatabits.getD (dps.databits - 5).toNat 0 |||
      dwUartStopbits.getD dps.stopbits.toNat 0 ||| dwUartParity.getD dps.parity.toNat 0
    (0, p.writeLcr (p.regs.lcr &&& ~~~dwUartLcrDpsMask ||| dpsValue))

def dwUartSetBaud (p : UartPort) (baudDivisor : Word) : UartPort :=
  let p := p.writeLcr (p.regs.lcr ||| dwUartLcrDlab)
  let p := p.writeData (baudDivisor &&& 0xff)
  let p := p.writeIer (baudDivisor >>> 8 &&& 0xff)
  p.writeLcr (p.regs.lcr &&& ~~~dwUartLcrDlab)

def dwUartSetHwfc (p : UartPort) (hwfc : Word) : UartPort :=
  let p :=
    if hwfc = 0 then p.writeMcr (p.regs.mcr &&& ~~~(dwUartMcrAfce ||| dwUartMcrRts)) else p
  let p :=
    if hwfc = 1 ∨ hwfc = 3 then p.writeMcr (p.regs.mcr ||| (dwUartMcrAfce ||| dwUartMcrRts)) else p
  if hwfc = 2 ∨ hwfc = 3 then p.writeMcr (p.regs.mcr ||| dwUartMcrAfce) else p

/-- What is left of the transmit buffer is sent by polling. -/
def dwUartFlushOutput (p : UartPort) : UartPort :=
  if p.dev.txBuf.buf ≠ 0 then
    let chars := (List.range' p.dev.txBuf.ofs.toNat
      (p.dev.txBuf.len.toNat - p.dev.txBuf.ofs.toNat)).map fun i =>
        p.dev.ram (p.dev.txBuf.buf + BitVec.ofNat 32 i)
    let p := chars.foldl (fun p c => p.writeData (c.signExtend 32)) p
    { p with dev := { p.dev with txBuf := .cleared } }
  else p

section Device

variable (hw : UartHw)

def dwUartSoftwareReset (p : UartPort) : UartPort :=
  { p with regs := hw.resetRegs, dev := { p.dev with ier := hw.resetIer } }

def dwUartInit (p : UartPort) (baudDivisor : Word) : UartPort :=
  let p := dwUartSoftwareReset hw p
  let p := dwUartSetHwfc p p.hwfc
  let p := (dwUartSetDps p p.dpsFormat).2
  let p := dwUartSetBaud p baudDivisor
  let p := { p with regs := { p.regs with fcr := 0x1 } }
  p.writeIer 0x0

/-- The same for both FIFOs. -/
def dwUartGetFifoLen : Word :=
  if hasFlag hw.cpr dwUartCprFifoStat then (hw.cpr &&& dwUartCprFifoMode) >>> 16 <<< 4 else 0

/-! ### Interrupts on and off -/

def Dir.uartIer : Dir → Word
  | .tx => dwUartIerXmitEmpty
  | .rx => dwUartIerDataAvail

/-- `DW_UART_TXINT_ENABLE` or `DW_UART_RXINT_ENABLE` is set in `int_status`. -/
def UartDev.int (s : UartDev) : Dir → Bool
  | .tx => s.txInt
  | .rx => s.rxInt

def UartDev.withInt (s : UartDev) (d : Dir) (on : Bool) : UartDev :=
  match d with
  | .tx => { s with txInt := on }
  | .rx => { s with rxInt := on }

namespace UartPort

/-- `dw_uart_dis_cbr` -/
def disCbr (p : UartPort) (cbrtn : Dir) : UartPort :=
  let p := p.writeIer (p.readIer &&& ~~~cbrtn.uartIer)
  let p := { p with dev := p.dev.withInt cbrtn false }
  if p.dev.gint && !p.dev.txInt && !p.dev.rxInt then
    { p with dev := { p.dev with gint := false }, irq := p.irq && !hw.hasIntno }
  else p

/-- `dw_uart_ena_cbr` -/
def enaCbr (p : UartPort) (cbrtn : Dir) : UartPort :=
  let p := { p with dev := p.dev.withInt cbrtn true }
  let p := p.writeIer (p.readIer ||| cbrtn.uartIer)
  if !p.dev.gint then
    { p with dev := { p.dev with gint := true }, irq := p.irq || hw.hasIntno }
  else p

end UartPort

def dwUartDisableInterrupt (p : UartPort) : UartPort :=
  let p := p.disCbr hw .tx
  let p := p.disCbr hw .rx
  { p with
    dev := { p.dev with gint := false, txInt := false, rxInt := false }
    irq := p.irq && !hw.hasIntno }

/-! ### The device on and off -/

def dwUartEnableDevice (p : UartPort) : UartPort :=
  if p.dev.status &&& devEnabled = 0 then
    (dwUartSetBaud p p.baudrate).withStatus (p.dev.status ||| devEnabled)
  else p

def dwUartDisableDevice (p : UartPort) : UartPort :=
  if p.dev.status &&& devEnabled = devEnabled then
    (dwUartSetBaud p 0).withStatus (p.dev.status &&& ~~~devEnabled)
  else p

def UartPort.call (p : UartPort) (d : Dir) : UartPort :=
  if p.cbs.of d ≠ 0 then { p with calls := p.calls ++ [⟨d, p.dev.status⟩] } else p

/-- `dw_uart_abort_tx` and `dw_uart_abort_rx` up to the callback, once the transfer is found to be
in progress. -/
def dwUartAbortBegin (p : UartPort) (d : Dir) : UartPort :=
  let p := p.disCbr hw d
  let p := p.withStatus (p.dev.status ||| d.abrt)
  p.call d

/-- What they do behind the callback. -/
def dwUartAbortEnd (p : UartPort) (d : Dir) : UartPort :=
  p.withStatus (p.dev.status &&& ~~~d.abrt)

def dwUartAbort (env : Word → UartPort → UartPort) (p : UartPort) (d : Dir) : UartPort :=
  if p.dev.int d then
    let p := dwUartAbortBegin hw p d
    dwUartAbortEnd (if p.cbs.of d ≠ 0 then env (p.cbs.of d) p else p) d
  else p

/-! ### Open and close -/

def dwUartOpen (p : UartPort) (baud : Word) : Except UartStop (Int × UartPort) :=
  if baud = 0 then .ok (ePar, p)
  else
    let p := { p with dev := { p.dev with opnCnt := (p.dev.opnCnt + 1) % 2 ^ 32 } }
    if p.dev.opnCnt > 1 then .ok (if baud = p.baudrate then eOk else eOpned, p)
    else if baud * 16 = 0 then .error .divZero
    else
      let p := { p with
        txFifoLen := dwUartGetFifoLen hw, rxFifoLen := dwUartGetFifoLen hw
        baudrate := baud, dpsFormat := .default, hwfc := 0 }
      let p := dwUartInit hw p (dwUartBaud2Div hw.dwApbBusFreq baud)
      let p := p.withStatus devEnabled
      let p := dwUartDisableInterrupt hw p
      .ok (eOk, { p with
        dev := { p.dev with txBuf := .cleared, rxBuf := .cleared }, cbs := .cleared })

def dwUartClose (env : Word → UartPort → UartPort) (p : UartPort) : Int × UartPort :=
  if p.dev.opnCnt = 0 then (eOk, p)
  else
    let p := { p with dev := { p.dev with opnCnt := p.dev.opnCnt - 1 } }
    if p.dev.opnCnt = 0 then
      let p := dwUartDisableInterrupt hw p
      let p := dwUartAbort hw env p .tx
      let p := dwUartAbort hw env p .rx
      let p := dwUartFlushOutput p
      let p := { p with
        dev := { p.dev with txBuf := .cleared, rxBuf := .cleared }, cbs := .cleared }
      let p := dwUartDisableDevice p
      (eOk, p.withStatus 0)
    else (eOpned, p)

/-! ### Commands -/

/-- The commands that call nothing back.  `ready` is what `dw_uart_putready` or `dw_uart_getready`
say, `level` is what the TFL or RFL register shows. -/
inductive UartCtrl where
  | setBaud (val : Word)
  | getStatus (param : Word)
  | enaDev
  | disDev
  | flushOutput
  | getRxavail (param : Word) (ready : Bool) (level : Word)
  | getTxavail (param : Word) (ready : Bool) (level : Word)
  | breakSet
  | breakClr
  | setDpsFormat (param : Word) (dps : UartDps)
  | setHwfc (val : Word)
  | setCb (which : DevCb) (param : Word)
  | transfer (cmd : UartCmd)
  | unknown

def UartCtrl.whenDisabled : UartCtrl → Bool
  | .enaDev | .disDev | .getStatus _ => true
  | _ => false

/-- `dw_uart_control` for these commands. -/
def dwUartCommand (p : UartPort) (cmd : UartCtrl) : Except UartStop (DevAnswer × UartPort) :=
  if p.dev.opnCnt = 0 then .ok (.code eClsed, p)
  else if p.dev.status &&& devEnabled = 0 ∧ cmd.whenDisabled = false then .ok (.code eSys, p)
  else
    match cmd with
    | .setBaud val =>
      if val = 0 then .ok (.code ePar, p)
      else if val = p.baudrate then .ok (.code eOk, p)
      else if val * 16 = 0 then .error .divZero
      else
        let p := dwUartSetBaud p (dwUartBaud2Div hw.dwApbBusFreq val)
        .ok (.code eOk, { p with baudrate := val })
    | .getStatus param => .ok (.read param p.dev.status, p)
    | .enaDev => .ok (.code eOk, dwUartEnableDevice p)
    | .disDev => .ok (.code eOk, dwUartDisableDevice p)
    | .flushOutput => .ok (.code eOk, dwUartFlushOutput p)
    | .getRxavail param ready level => .ok (.read param (fifoAvail p.rxFifoLen ready level), p)
    | .getTxavail param ready level =>
      .ok (.read param (fifoAvail p.txFifoLen ready (p.txFifoLen - level)), p)
    | .breakSet => .ok (.code eOk, p.writeLcr (p.regs.lcr ||| dwUartLcrBreak))
    | .breakClr => .ok (.code eOk, p.writeLcr (p.regs.lcr &&& ~~~dwUartLcrBreak))
    | .setDpsFormat param dps =>
      if param = 0 then .ok (.code ePar, p)
      else
        let (set, p) := dwUartSetDps p dps
        if set = 0 then .ok (.code eOk, { p with dpsFormat := dps }) else .ok (.code ePar, p)
    | .setHwfc val =>
      if val > 3 then .ok (.code ePar, p)
      else .ok (.code eOk, { dwUartSetHwfc p val with hwfc := val })
    | .setCb which param =>
      if param.toNat % 4 ≠ 0 then .ok (.code ePar, p)
      else .ok (.code eOk, { p with cbs := p.cbs.set which param })
    | .transfer (.setInt d val) =>
      .ok (.code eOk, if val = 0 then p.disCbr hw d else p.enaCbr hw d)
    | .transfer (.setIntBuf d param devbuf) =>
      if param.toNat % 4 ≠ 0 then .ok (.code ePar, p)
      else .ok (.code eOk, { p with dev := p.dev.withBuf d (intBuf param devbuf) })
    | .unknown => .ok (.code eNospt, p)

/-! ### The driver over a run -/

/-- Calls of the driver, and interrupts.  The second parts of the abort commands and of the
interrupt routine are steps of their own. -/
inductive UartOp where
  | opened (baud : Word)
  | close
  | control (cmd : UartCtrl)
  | abortBegin (d : Dir)
  | abortEnd (d : Dir)
  | isr (iir : UartIir) (room : Nat) (chars : List Byte)
  | isrEnd (d : Dir)

/-- `dw_uart_isr` up to its callback. -/
def UartPort.isr (p : UartPort) (iir : UartIir) (room : Nat) (chars : List Byte) : UartPort :=
  let (sent, due, dev) := dwUartServe p.dev iir room chars
  let p := { p with
    dev, sent := p.sent ++ sent
    irq := if p.dev.gint && !dev.gint then p.irq && !hw.hasIntno else p.irq }
  match due with
  | .nothing => p
  | .complete d => p.call d
  | .noBuffer d => p.call d

def uartStep (env : Word → UartPort → UartPort) (p : UartPort) : UartOp → Except UartStop UartPort
  | .opened baud => (dwUartOpen hw p baud).map (·.2)
  | .close => .ok (dwUartClose hw env p).2
  | .control cmd => (dwUartCommand hw p cmd).map (·.2)
  | .abortBegin d =>
    if p.dev.opnCnt ≠ 0 ∧ p.dev.status &&& devEnabled ≠ 0 ∧ p.dev.int d = true then
      .ok (dwUartAbortBegin hw p d)
    else .ok p
  | .abortEnd d => .ok (dwUartAbortEnd p d)
  | .isr iir room chars => .ok (p.isr hw iir room chars)
  | .isrEnd d => .ok { p with dev := p.dev.withBuf d .cleared }

/-- Before the first open: closed, not enabled, and the interrupt off at the processor.  Registers
and everything else are arbitrary. -/
structure UartPort.Closed (p : UartPort) : Prop where
  opnCnt : p.dev.opnCnt = 0
  status : p.dev.status = 0
  irq : p.irq = false

end Device

end Embarc
