/-
The UART interface to the UART of the subsystem: `ss_uart.c`.

The driver below calls `ss_uart_tx_cb`, `ss_uart_rx_cb` and `ss_uart_err_cb` from its interrupt
routine, and these call back to the user.  So a turn of the routine is given here as a whole, with
what is left of it behind a callback of the user as an `SsUartRest`.  Other calls can be made
between two turns of one interrupt as between two interrupts.

A blocking call is given by its two ends: what it does before it waits for its flag to be cleared,
and what it returns then.  In an interrupt or with interrupts locked a polled call is made instead.
Left out are the buffers in the device information, which are never read.
-/
import Embarc.DesignWare.UartPort
import Embarc.Lib.Reentry
import Embarc.Subsystem.Uart

namespace Embarc

open Reentry (Task)

/-- The device, and the clock it runs on. -/
structure SsUartPortHw extends SsUartHw where
  busFreq : Word

/-- `SS_UART_DEV_CONTEXT` and `DEV_UART_INFO`, with the device below. -/
structure SsUart where
  io : SsUartInfo
  opnCnt : Word
  baudrate : Word
  flags : Word
  cbs : DevCbs
  /-- `tx_cb`, `rx_cb` and `err_cb` of the context: the functions that lead to `ss_uart_tx_cb` and
  the other two. -/
  intCbs : DevCbs
  /-- The interrupt is enabled at the processor. -/
  irq : Bool
  /-- The callbacks made so far. -/
  calls : List DevCb

/-- What a turn of the interrupt routine still has to do behind a callback of the user. -/
inductive SsUartRest where
  | nothing
  /-- `tx_size` is cleared. -/
  | txEnd
deriving DecidableEq, Repr

abbrev SsUartTask := Task SsUart SsUartRest

/-- As `dfss_uart_0_install` leaves the device. -/
def SsUart.installed (intCbs : DevCbs) : SsUart where
  io := .fresh
  opnCnt := 0
  baudrate := 115200
  flags := 0
  cbs := .cleared
  intCbs := intCbs
  irq := false
  calls := []

def ssUartFlagTx : Word := 0x1#32
def ssUartFlagRx : Word := 0x2#32
def ssUartFlagError : Word := 0x10#32

def Dir.ssUartFlag : Dir → Word
  | .tx => ssUartFlagTx
  | .rx => ssUartFlagRx

section Device

variable (hw : SsUartPortHw)

/-! ### Settings -/

def SsUart.ioctl (s : SsUart) (cmd : SsUartIoctl) : Except SsUartStop SsUart :=
  (ioUartIoctl hw.toSsUartHw s.io cmd).map fun io => { s with io }

/-- What is written to UART_LCR for a format; `none` if it is not supported. -/
def dpsLcr (format : UartDps) : Option Word := do
  let data ← match format.databits.toNat with
    | 6 => some 0x1#32
    | 7 => some 0x2#32
    | 8 => some 0x3#32
    | _ => none
  let stop ←
    if format.stopbits = 0 then some 0
    else if format.stopbits = 1 ∧ format.databits = 5 then some 0x4#32
    else none
  let parity : Word :=
    if format.parity = 0 then 0
    else if format.parity = 2 then 0x18
    else if format.parity = 3 then 0x28
    else if format.parity = 4 then 0x38
    else 0x8
  return data ||| stop ||| parity

def setDps (s : SsUart) (format : UartDps) : Except SsUartStop (Int × SsUart) :=
  match dpsLcr format with
  | some lcr => (s.ioctl hw (.setLcr lcr)).map fun s => (eOk, s)
  | none => .ok (eNospt, s)

def setBaud (s : SsUart) (baud : Word) : Except SsUartStop SsUart :=
  if baud * 16 = 0 then .error .divZero
  else (s.ioctl hw (.setDlx (hw.busFreq / (baud * 16) + 1))).map fun s => { s with baudrate := baud }

/-! ### Open and close -/

/-- `msr` is what reading UART_MSR yields. -/
def ssUartOpen (s : SsUart) (baud msr : Word) : Except SsUartStop (Int × SsUart) :=
  let s := { s with opnCnt := s.opnCnt + 1 }
  if s.opnCnt > 1 then .ok (if baud = s.baudrate then eOk else eOpned, s)
  else
    let (err, io) := ioUartOpen hw.toSsUartHw s.io msr
    let s := { s with io }
    if err ≠ 0 then .ok (eSys, s)
    else do
      let s ← s.ioctl hw (.setCb (.ofDir .tx) s.intCbs.txCb)
      let s ← s.ioctl hw (.setCb (.ofDir .rx) s.intCbs.rxCb)
      let s ← s.ioctl hw (.setCb .err s.intCbs.errCb)
      let (_, s) ← setDps hw s .default
      let s ← s.ioctl hw (.setFlowControl 0 msr)
      let s ← setBaud hw s baud
      return (eOk, { s with flags := 0, baudrate := baud, irq := true })

def ssUartClose (s : SsUart) : Except SsUartStop (Int × SsUart) :=
  let s := { s with opnCnt := s.opnCnt - 1 }
  if s.opnCnt = 0 then
    (ioUartClose hw.toSsUartHw s.io).map fun io => (eOk, { s with io, baudrate := 0, irq := false })
  else .ok (eOk, s)

/-! ### Commands -/

/-- The commands of `ss_uart_control`.  A null pointer is `none`; `pLen` is where the length of a
buffer stands, and `msr` what reading UART_MSR yields.  What `getAvail` tells is left out. -/
inductive SsUartCtrl where
  | setBaud (baud : Word)
  | setHwfc (arg msr : Word)
  | setDpsFormat (format : UartDps)
  | getAvail (d : Dir)
  | setCb (which : DevCb) (param : Word)
  | setInt (d : Dir) (val : Word)
  | setTxintBuf (buf : Option DevBuffer)
  | setRxintBuf (buf : Option DevBuffer) (pLen : Word)
  | other

/-- The interrupts that `io_uart_tx_int` and `io_uart_rx_int` turn on and off. -/
def Dir.ssUartIer : Dir → Word
  | .tx => ierTx
  | .rx => ierRxAvail

namespace SsUart

/-- A command for the device below that is answered with `E_OK`. -/
def ok (s : SsUart) (io : Except SsUartStop SsUartInfo) : Except SsUartStop (Int × SsUart) :=
  io.map fun io => (eOk, { s with io })

end SsUart

def ssUartControl (s : SsUart) : SsUartCtrl → Except SsUartStop (Int × SsUart)
  | .setBaud baud => (setBaud hw s baud).map fun s => (eOk, s)
  | .setHwfc arg msr => s.ok (ioUartIoctl hw.toSsUartHw s.io (.setFlowControl arg msr))
  | .setDpsFormat format => setDps hw s format
  | .getAvail _ => .ok (eOk, s)
  | .setCb which param => .ok (eOk, { s with cbs := s.cbs.set which param })
  | .setInt d val =>
    .ok (eOk, { s with
      io := if val ≠ 0 then s.io.enable d.ssUartIer else s.io.disable d.ssUartIer })
  | .setTxintBuf (some buf) => s.ok (ioUartWrite hw.toSsUartHw s.io buf.buf buf.len)
  | .setTxintBuf none => s.ok (ioUartWrite hw.toSsUartHw s.io 0 0)
  | .setRxintBuf (some buf) pLen => s.ok (ioUartRead hw.toSsUartHw s.io buf.buf buf.len pLen)
  | .setRxintBuf none pLen => s.ok (ioUartRead hw.toSsUartHw s.io 0 0 pLen)
  | .other => .ok (eNospt, s)

/-! ### Blocking calls -/

/-- `ss_uart_write` until it waits. -/
def ssUartWriteStart (s : SsUart) (data len : Word) : Except SsUartStop SsUart :=
  (ioUartWrite hw.toSsUartHw s.io data len).map fun io => { s with flags := ssUartFlagTx, io }

/-- `ss_uart_read` until it waits.  `pLen` is the address of its variable `len`. -/
def ssUartReadStart (s : SsUart) (data len pLen : Word) : Except SsUartStop SsUart :=
  let io := { s.io with sizes := Function.update s.io.sizes pLen len }
  (ioUartRead hw.toSsUartHw io data len pLen).map fun io => { s with flags := ssUartFlagRx, io }

def SsUart.waits (s : SsUart) (d : Dir) : Bool := hasFlag s.flags d.ssUartFlag

/-- What a blocking call returns when it waits no more. -/
def ssUartEnd (s : SsUart) (len : Word) : Int × SsUart :=
  (if hasFlag s.flags ssUartFlagError then eSys else len.toInt, { s with flags := 0 })

/-- The same for `ss_uart_read`, whose length a line break may have changed. -/
def ssUartReadEnd (s : SsUart) (pLen : Word) : Int × SsUart := ssUartEnd s (s.io.sizes pLen)

/-! ### Polled calls -/

/-- The device below, with the interrupts disabled and the transmit threshold in use for the time
being. -/
def SsUartInfo.polling (s : SsUartInfo) (f : SsUartInfo → SsUartInfo) : SsUartInfo :=
  (f (s.writeIer ierThreshold)).writeIer s.regs.ier

/-- Every byte waits for the FIFO not to be full. -/
def ioUartPollWrite (s : SsUart) (data len : Word) : SsUart :=
  { s with io := s.io.polling fun io =>
    { io with
      sent := io.sent ++ (List.range len.toNat).map fun i => io.ram (data + BitVec.ofNat 32 i) } }

/-- `rbr` is what reading UART_RBR yields, each time when something is there. -/
def ioUartPollRead (s : SsUart) (data len : Word) (rbr : Nat → Byte) : SsUart :=
  { s with io := s.io.polling fun io =>
    { io with mem := (List.range len.toNat).foldl (fun mem i =>
        Function.update mem (data + BitVec.ofNat 32 i) (rbr i)) io.mem } }

/-! ### The interrupt routine -/

/-- What the routine does behind the callback. -/
def SsUartRest.run (rest : SsUartRest) (s : SsUart) : SsUart :=
  match rest with
  | .nothing => s
  | .txEnd => { s with io := { s.io with txSize := 0 } }

namespace SsUart

/-- A callback of the user is called if there is one. -/
def callback (s : SsUart) (which : DevCb) (rest : SsUartRest) : SsUartTask :=
  if s.cbs.get which ≠ 0 then .calls { s with calls := s.calls ++ [which] } rest
  else .done (rest.run s)

/-- `ss_uart_tx_cb` and `ss_uart_rx_cb`. -/
def dirCb (s : SsUart) (d : Dir) (rest : SsUartRest) : SsUartTask :=
  if hasFlag s.flags d.ssUartFlag then
    .done (rest.run { s with flags := s.flags &&& ~~~d.ssUartFlag })
  else s.callback (.ofDir d) rest

end SsUart

def ssUartErrCb (s : SsUart) : SsUartTask :=
  { s with flags := ssUartFlagError }.callback .err .nothing

/-- The function below is called if there is one. -/
def SsUart.ioCb (s : SsUart) (d : Dir) (rest : SsUartRest) : SsUartTask :=
  if s.io.cbs.get (.ofDir d) ≠ 0 then s.dirCb d rest else .done (rest.run s)

/-- What the hardware shows in a turn. -/
structure SsUartIrq where
  iir : Word
  msr : Word
  lsr : Word
  /-- What reading UART_RBR again and again yields. -/
  rbr : Nat → Byte

/-- The transmitter wants to be fed. -/
def uartIsrTx (s : SsUart) : SsUartTask :=
  if s.io.txData = 0 then
    if s.io.cbs.get (.ofDir .tx) ≠ 0 then s.dirCb .tx .nothing
    else .done { s with io := s.io.disable ierTx }
  else if s.io.txCount = s.io.txSize then { s with io := s.io.disable ierTx }.ioCb .tx .txEnd
  else .done { s with io := s.io.refill hw.toSsUartHw }

/-- Something was received. -/
def uartIsrRx (s : SsUart) (rbr : Nat → Byte) : SsUartTask :=
  if s.io.rxData = 0 then s.ioCb .rx .nothing
  else
    let s := { s with io := s.io.retrieve hw.toSsUartHw rbr }
    if s.io.rxCount = s.io.rxSize then
      { s with io := s.io.rxEnd hw.toSsUartHw }.ioCb .rx .nothing
    else .done s

def uartIsrBreak (s : SsUart) : SsUartTask :=
  { s with io := s.io.breakEnd hw.toSsUartHw }.ioCb .rx .nothing

/-- A turn of `uart_isr_proc`.  With 1 in UART_IIR the routine was entered and nothing is pending;
at the end of the loop nothing is done, and there is no turn for it. -/
def uartIsrTurn (s : SsUart) (q : SsUartIrq) : SsUartTask :=
  let intid := q.iir &&& 0x0f
  if intid = 0x1 then uartIsrBreak hw s
  else if intid = 0x2 then uartIsrTx hw s
  else if intid = 0x4 then uartIsrRx hw s q.rbr
  else if intid = 0x0 then .done { s with io := s.io.modem q.msr }
  else if intid = 0x6 then if hasFlag q.lsr 0x10 then uartIsrBreak hw s else .done s
  else if intid = 0x7 then .done s
  else
    let s := { s with io := s.io.writeIer 0 }
    if s.io.cbs.get .err ≠ 0 then ssUartErrCb s else .done s

/-! ### The driver over a run -/

/-- Calls, made by a thread or by a callback, and turns of the interrupt routine. -/
inductive SsUartOp where
  | control (cmd : SsUartCtrl)
  | ioctl (cmd : SsUartIoctl)
  | isr (q : SsUartIrq)

def ssUartEnter (s : SsUart) : SsUartOp → Except SsUartStop SsUartTask
  | .control cmd => (ssUartControl hw s cmd).map fun r => .done r.2
  | .ioctl cmd => (s.ioctl hw cmd).map .done
  | .isr q => if s.io.handle then .ok (uartIsrTurn hw s q) else .error .nullHandle

def ssUartResume (rest : SsUartRest) (_ : Unit) (s : SsUart) : Except SsUartStop SsUartTask :=
  .ok (.done (rest.run s))

abbrev ssUartStep := Reentry.step (ssUartEnter hw) ssUartResume

end Device

end Embarc
