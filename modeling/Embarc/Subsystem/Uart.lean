/-
The UART of the sensor and control subsystem: `uart.c`, built without DMA.

A buffer is handed over by `io_uart_write` or `io_uart_read`, and the interrupt routine empties or
fills it.  The routine reads UART_IIR until nothing is pending; a turn of its loop for one of the
interrupts is a function here, up to the callback that it may make.  What the hardware shows is an
argument: the status registers, and what reading UART_RBR again and again yields.

The interrupt vectors are left out.
-/
import Embarc.DesignWare.DevCommon

namespace Embarc

/-- The device of one number. -/
structure SsUartHw where
  /-- It is part of the design. -/
  present : Bool
  fifoDepth : Word

structure SsUartRegs where
  ier : Word
  fcr : Word
  lcr : Word
  dll : Word
  dlh : Word
  clken : Word
deriving DecidableEq, Repr

/-- `uart_info_t`, with the registers and the memory of the buffers. -/
structure SsUartInfo where
  /-- `uart_handles` has an entry for the device. -/
  handle : Bool
  txData : Word
  txSize : Word
  txCount : Word
  rxData : Word
  rxSize : Word
  pRxsize : Word
  rxCount : Word
  cbs : DevCbs
  rxThreshold : Word
  txThreshold : Word
  fcrMirror : Byte
  flowControl : Bool
  /-- `nCTS_state` is `nCTS_LOW`. -/
  nctsLow : Bool
  regs : SsUartRegs
  ram : Word → Byte
  mem : Word → Byte
  /-- What the size pointers point to. -/
  sizes : Word → Word
  /-- What was written to UART_THR. -/
  sent : List Byte

inductive SsUartStop where
  /-- The entry of `uart_handles` is followed, and is null. -/
  | nullHandle
  /-- The processor divides by zero. -/
  | divZero
deriving DecidableEq, Repr

/-- Out of reset, with the variables of the driver as it is loaded. -/
def SsUartInfo.fresh : SsUartInfo where
  handle := false
  txData := 0
  txSize := 0
  txCount := 0
  rxData := 0
  rxSize := 0
  pRxsize := 0
  rxCount := 0
  cbs := .cleared
  rxThreshold := 0
  txThreshold := 0
  fcrMirror := 0
  flowControl := false
  nctsLow := true
  regs := { ier := 0, fcr := 0, lcr := 0, dll := 0, dlh := 0, clken := 0 }
  ram := fun _ => 0
  mem := fun _ => 0
  sizes := fun _ => 0
  sent := []

/-! ### Registers -/

/-- ETBEI and the use of the transmit threshold. -/
def ierTx : Word := 0x82#32
/-- ERBFI and ELSI. -/
def ierRx : Word := 0x5#32
/-- ETBEI. -/
def ierThrEmpty : Word := 0x2#32
/-- ERBFI. -/
def ierRxAvail : Word := 0x1#32
/-- The transmit threshold is to be used. -/
def ierThreshold : Word := 0x80#32
/-- EDSSI. -/
def ierModem : Word := 0x8#32

namespace SsUartInfo

def writeIer (s : SsUartInfo) (val : Word) : SsUartInfo :=
  { s with regs := { s.regs with ier := val } }

def writeFcr (s : SsUartInfo) (val : Word) : SsUartInfo :=
  { s with regs := { s.regs with fcr := val } }

def enable (s : SsUartInfo) (bits : Word) : SsUartInfo := s.writeIer (s.regs.ier ||| bits)

def disable (s : SsUartInfo) (bits : Word) : SsUartInfo := s.writeIer (s.regs.ier &&& ~~~bits)

/-- The thresholds are as the user has set them. -/
def restoreFcr (s : SsUartInfo) : SsUartInfo := s.writeFcr (s.fcrMirror.setWidth 32 <<< 4 ||| 0x01)

/-- The receive threshold is one for the time being. -/
def resetRxThreshold (s : SsUartInfo) : SsUartInfo :=
  s.writeFcr ((s.fcrMirror.setWidth 32 &&& ~~~0xC#32) <<< 4 ||| 0x01)

end SsUartInfo

section Device

variable (hw : SsUartHw)

/-! ### Open and close -/

/-- `msr` is what reading UART_MSR yields. -/
def ioUartOpen (s : SsUartInfo) (msr : Word) : Word × SsUartInfo :=
  if hw.present = false ∨ s.handle = true then (1, s)
  else
    let s := { s with handle := true, regs := { s.regs with clken := 1, ier := 0 } }
    let s :=
      if hw.fifoDepth ≠ 0 then
        { s.writeFcr 0x07 with fcrMirror := 0, rxThreshold := 1, txThreshold := 0 }
      else s
    (0, { s with nctsLow := hasFlag msr 0x10 })

/-- What closing does to a device that is open. -/
def SsUartInfo.closed (s : SsUartInfo) : SsUartInfo :=
  let s := if hw.fifoDepth ≠ 0 then s.writeFcr 0x07 else s
  let s := { s with regs := { s.regs with ier := 0, clken := 0 } }
  { s with cbs := .cleared, handle := false }

def ioUartClose (s : SsUartInfo) : Except SsUartStop SsUartInfo :=
  if s.handle then .ok (s.closed hw) else .error .nullHandle

/-! ### Requests -/

namespace SsUartInfo

/-- A read of an open device.  `size` is what `pSize` points to. -/
def read (s : SsUartInfo) (data size pSize : Word) : SsUartInfo :=
  let s := { s with rxData := data, rxSize := size, pRxsize := pSize, rxCount := 0 }
  if s.rxSize > 0 then
    let s := if hw.fifoDepth ≠ 0 ∧ s.rxSize < s.rxThreshold then s.resetRxThreshold else s
    s.enable ierRx
  else s

/-- The next `cnt` bytes are written to UART_THR. -/
def put (s : SsUartInfo) (cnt : Word) : SsUartInfo :=
  let bytes := (List.range cnt.toNat).map fun h =>
    s.ram (s.txData + (s.txCount + BitVec.ofNat 32 h))
  { s with sent := s.sent ++ bytes, txCount := s.txCount + cnt }

/-- As many of the bytes left as the FIFO has places. -/
def load (s : SsUartInfo) : Word :=
  if hw.fifoDepth = 0 then 1 else capped (s.txSize - s.txCount) hw.fifoDepth

/-- The beginning of a buffer is sent. -/
def begin (s : SsUartInfo) : SsUartInfo :=
  if s.flowControl = false ∨ s.nctsLow = true then
    if s.txSize - s.txCount > 0 then (s.put (s.load hw)).enable ierTx else s
  else s

def write (s : SsUartInfo) (data size : Word) : SsUartInfo :=
  begin hw { s with txData := data, txSize := size, txCount := 0 }

end SsUartInfo

def ioUartRead (s : SsUartInfo) (data size pSize : Word) : Except SsUartStop SsUartInfo :=
  if s.handle then .ok (s.read hw data size pSize) else .error .nullHandle

def ioUartWrite (s : SsUartInfo) (data size : Word) : Except SsUartStop SsUartInfo :=
  if s.handle then .ok (s.write hw data size) else .error .nullHandle

/-! ### Settings -/

/-- The commands of `io_uart_ioctl`, with what `arg` points to.  Those that only read a register
back are `other`; `msr` is what reading UART_MSR yields. -/
inductive SsUartIoctl where
  | setCb (which : DevCb) (cb : Word)
  | setLcr (arg : Word)
  | setDlx (arg : Word)
  | setRxThreshold (arg : Word)
  | setTxThreshold (arg : Word)
  | setFlowControl (arg msr : Word)
  | other

def rxThresholdOf (old val : Word) : Word :=
  if val = 0 then 1
  else if val = 1 then hw.fifoDepth >>> 2
  else if val = 2 then hw.fifoDepth >>> 1
  else if val = 3 then hw.fifoDepth - 2
  else old

def txThresholdOf (old val : Word) : Word :=
  if val = 0 then 0
  else if val = 1 then 2
  else if val = 2 then hw.fifoDepth >>> 2
  else if val = 3 then hw.fifoDepth >>> 1
  else old

def SsUartInfo.ioctl (s : SsUartInfo) : SsUartIoctl → SsUartInfo
  | .setCb which cb => { s with cbs := s.cbs.set which cb }
  | .setLcr arg => { s with regs := { s.regs with lcr := arg &&& 0x7f } }
  | .setDlx arg =>
    { s with regs := { s.regs with dll := arg &&& 0x00ff, dlh := (arg &&& 0xff00) >>> 8 } }
  | .setRxThreshold arg =>
    let mirror := s.fcrMirror.setWidth 32 &&& ~~~0xC#32 ||| arg <<< 2
    let s := { s with fcrMirror := mirror.setWidth 8 }
    { s.restoreFcr with rxThreshold := rxThresholdOf hw s.rxThreshold arg }
  | .setTxThreshold arg =>
    let mirror := s.fcrMirror.setWidth 32 &&& ~~~0x3#32 ||| arg
    let s := { s with fcrMirror := mirror.setWidth 8 }
    { s.restoreFcr with txThreshold := txThresholdOf hw s.txThreshold arg }
  | .setFlowControl arg msr =>
    if arg = 1 then { s.enable ierModem with flowControl := true, nctsLow := hasFlag msr 0x10 }
    else { s.disable ierModem with flowControl := false }
  | .other => s

def ioUartIoctl (s : SsUartInfo) (cmd : SsUartIoctl) : Except SsUartStop SsUartInfo :=
  if s.handle then .ok (s.ioctl hw cmd) else .error .nullHandle

/-! ### Turns of the interrupt routine -/

namespace SsUartInfo

/-- The next bytes are written, fewer than the FIFO has places if the threshold is in use. -/
def refill (s : SsUartInfo) : SsUartInfo :=
  let cnt := s.load hw
  let cnt :=
    if s.regs.ier &&& ierThreshold ≠ 0 then capped cnt (hw.fifoDepth - s.txThreshold) else cnt
  s.put cnt

/-- `cnt` bytes are read from UART_RBR. -/
def get (s : SsUartInfo) (rbr : Nat → Byte) (cnt : Word) : SsUartInfo :=
  { s with
    mem := (List.range cnt.toNat).foldl (fun mem h =>
      Function.update mem (s.rxData + (s.rxCount + BitVec.ofNat 32 h)) (rbr h)) s.mem
    rxCount := s.rxCount + cnt }

/-- What is there is read: one byte, or as many as the threshold says. -/
def retrieve (s : SsUartInfo) (rbr : Nat → Byte) : SsUartInfo :=
  if hw.fifoDepth = 0 then s.get rbr 1
  else
    let cnt := s.rxSize - s.rxCount
    if cnt < s.rxThreshold then s.get rbr 1
    else
      let s := s.get rbr s.rxThreshold
      if cnt - s.rxThreshold < s.rxThreshold then s.resetRxThreshold else s

/-- The end of a read, up to the callback. -/
def rxEnd (s : SsUartInfo) : SsUartInfo :=
  let s := s.disable ierRx
  if hw.fifoDepth ≠ 0 then s.restoreFcr else s

/-- A line break ends a read, with what was received so far. -/
def breakEnd (s : SsUartInfo) : SsUartInfo :=
  { s with sizes := Function.update s.sizes s.pRxsize s.rxCount }.rxEnd hw

/-- The modem status has changed. -/
def modem (s : SsUartInfo) (msr : Word) : SsUartInfo :=
  if hasFlag msr 0x10 then
    let s := { s with nctsLow := true }
    if s.txSize > 0 then s.enable ierThrEmpty else s
  else { s with nctsLow := false }

end SsUartInfo

end Device

end Embarc
