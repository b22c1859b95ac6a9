/-
Interrupt transfers of the DesignWare UART driver: `dw_uart_isr` in `dw_uart.c`, and the commands
that set buffers and turn interrupts on.

The routine is split where it calls a completion callback.  Up to there it is `dwUartServe`, which
says what is to be called; the callback and the clearing of the buffer behind it are the rest.
`room` is how often `dw_uart_putready` says yes, and `chars` is what `dw_uart_getready` finds.
-/
import Embarc.DesignWare.DevCommon

namespace Embarc

/-- `DEV_UART_INFO` and `DW_UART_CTRL`, with the memory of the buffers. -/
structure UartDev where
  opnCnt : Nat
  status : Word
  txBuf : DevBuffer
  rxBuf : DevBuffer
  ier : Word
  /-- The bits of `int_status`. -/
  txInt : Bool
  rxInt : Bool
  gint : Bool
  ram : Word → Byte
  mem : Word → Byte

namespace UartDev

def withBuf (s : UartDev) (d : Dir) (b : DevBuffer) : UartDev :=
  match d with
  | .tx => { s with txBuf := b }
  | .rx => { s with rxBuf := b }

end UartDev

/-! ### Commands -/

def dwUartIerXmitEmpty : Word := 0x02#32
def dwUartIerDataAvail : Word := 0x01#32

def dwUartDisCbr (s : UartDev) (cbrtn : Dir) : UartDev :=
  let s := match cbrtn with
    | .tx => { s with ier := s.ier &&& ~~~dwUartIerXmitEmpty, txInt := false }
    | .rx => { s with ier := s.ier &&& ~~~dwUartIerDataAvail, rxInt := false }
  if s.gint && !s.txInt && !s.rxInt then { s with gint := false } else s

def dwUartEnaCbr (s : UartDev) (cbrtn : Dir) : UartDev :=
  match cbrtn with
  | .tx => { s with ier := s.ier ||| dwUartIerXmitEmpty, txInt := true, gint := true }
  | .rx => { s with ier := s.ier ||| dwUartIerDataAvail, rxInt := true, gint := true }

/-- `UART_CMD_SET_TXINT`, `UART_CMD_SET_RXINT`, `UART_CMD_SET_TXINT_BUF` and
`UART_CMD_SET_RXINT_BUF`. -/
inductive UartCmd where
  | setInt (d : Dir) (val : Word)
  | setIntBuf (d : Dir) (param : Word) (devbuf : DevBuffer)

def dwUartControl (s : UartDev) (cmd : UartCmd) : Int × UartDev :=
  if s.opnCnt = 0 then (eClsed, s)
  else if s.status &&& devEnabled = 0 then (eSys, s)
  else
    match cmd with
    | .setInt d val => (eOk, if val = 0 then dwUartDisCbr s d else dwUartEnaCbr s d)
    | .setIntBuf d param devbuf =>
      if param.toNat % 4 ≠ 0 then (ePar, s) else (eOk, s.withBuf d (intBuf param devbuf))

variable {s : UartDev} {d : Dir}

theorem dwUartControl_setInt_ok {val : Word} (h : (dwUartControl s (.setInt d val)).1 = eOk) :
    (dwUartControl s (.setInt d val)).2 =
      if val = 0 then dwUartDisCbr s d else dwUartEnaCbr s d := by
  simp only [dwUartControl] at h ⊢
  rw [ready_ok h]

theorem dwUartControl_setIntBuf_ok {param : Word} {devbuf : DevBuffer}
    (h : (dwUartControl s (.setIntBuf d param devbuf)).1 = eOk) :
    (dwUartControl s (.setIntBuf d param devbuf)).2 = s.withBuf d (intBuf param devbuf) := by
  simp only [dwUartControl] at h ⊢
  have hready := ready_ok h
  rw [hready] at h ⊢
  obtain ⟨-, heq⟩ := check_ok (by decide) h
  rw [heq]

/-! ### The interrupt routine -/

/-- The interrupts `dw_uart_isr` tells apart. -/
inductive UartIir where
  | mdmStatus
  | lineStatus
  | xmitEmpty
  | rxTimeout
  | dataAvail
  | other
deriving DecidableEq, Repr

/-- What is called at the end: nothing, the callback of a buffer that is through, or the callback
for lack of a buffer. -/
inductive UartDue where
  | nothing
  | complete (d : Dir)
  | noBuffer (d : Dir)
deriving DecidableEq, Repr

/-- The loop that sends: the characters sent, and whether the buffer is through. -/
def dwUartSend : Nat → UartDev → List Byte × UartDue × UartDev
  | 0, s => ([], .nothing, s)
  | room + 1, s =>
    let c := s.ram (s.txBuf.buf + s.txBuf.ofs)
    let s := { s with txBuf := { s.txBuf with ofs := s.txBuf.ofs + 1 } }
    if s.txBuf.ofs ≥ s.txBuf.len then ([c], .complete .tx, dwUartDisCbr s .tx)
    else
      let (chars, due, s) := dwUartSend room s
      (c :: chars, due, s)

/-- The loop that receives; whether the buffer is through. -/
def dwUartReceive : List Byte → UartDev → UartDue × UartDev
  | [], s => (.nothing, s)
  | c :: chars, s =>
    let s := { s with
      mem := Function.update s.mem (s.rxBuf.buf + s.rxBuf.ofs) c
      rxBuf := { s.rxBuf with ofs := s.rxBuf.ofs + 1 } }
    if s.rxBuf.ofs ≥ s.rxBuf.len then (.complete .rx, dwUartDisCbr s .rx)
    else dwUartReceive chars s

/-- What the loop that receives takes out of the FIFO, and what it leaves there. -/
def dwUartTake : List Byte → DevBuffer → List Byte × List Byte
  | [], _ => ([], [])
  | c :: chars, b =>
    let b := { b with ofs := b.ofs + 1 }
    if b.ofs ≥ b.len then ([c], chars)
    else
      let (taken, left) := dwUartTake chars b
      (c :: taken, left)

/-- What `dw_uart_isr` takes out of the FIFO, and what it leaves there.  A read of the empty FIFO
takes nothing. -/
def dwUartIsrTake (s : UartDev) (iir : UartIir) (chars : List Byte) : List Byte × List Byte :=
  match iir with
  | .rxTimeout => (chars.take 1, chars.drop 1)
  | .dataAvail => if s.rxBuf.buf ≠ 0 then dwUartTake chars s.rxBuf else ([], chars)
  | _ => ([], chars)

/-- Up to the callback: the characters sent, what is due, and the device. -/
def dwUartServe (s : UartDev) (iir : UartIir) (room : Nat) (chars : List Byte) :
    List Byte × UartDue × UartDev :=
  match iir with
  | .xmitEmpty => if s.txBuf.buf ≠ 0 then dwUartSend room s else ([], .noBuffer .tx, s)
  | .dataAvail => ([], if s.rxBuf.buf ≠ 0 then dwUartReceive chars s else (.noBuffer .rx, s))
  | _ => ([], .nothing, s)

/-- The callbacks, as what they do to the device; `id` for the null pointer. -/
structure UartCbs where
  cb : Dir → UartDev → UartDev
  errCb : UartDev → UartDev

def dwUartIsr (cbs : UartCbs) (s : UartDev) (iir : UartIir) (room : Nat) (chars : List Byte) :
    List Byte × UartDev :=
  let s := if iir = .lineStatus then cbs.errCb s else s
  match dwUartServe s iir room chars with
  | (sent, .nothing, s) => (sent, s)
  | (sent, .complete d, s) => (sent, (cbs.cb d s).withBuf d .cleared)
  | (sent, .noBuffer d, s) => (sent, cbs.cb d s)

end Embarc
