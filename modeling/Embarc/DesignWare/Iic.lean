/-
Interrupt transfers of the DesignWare IIC driver in master mode: `dw_iic_mst_int_write` and
`dw_iic_mst_int_read` in `dw_iic.c`, and the commands that set buffers and turn interrupts on.

To receive, the master writes a read command to the transmit FIFO for every byte; `dw_iic_rxbuf`
counts the commands and `rx_buf` the bytes.  As for the UART the routines are split where they
call a completion callback, `room` is how often `dw_iic_putready` says yes, `bytes` is what
`dw_iic_getready` finds, and `err` is whether `dw_iic_mst_chkerr` finds an error.
-/
import Embarc.DesignWare.DevCommon

namespace Embarc

/-- `IIC_WORKING_STATE` -/
inductive IicState where
  | free
  | inTx
  | inRx
deriving DecidableEq, Repr

/-- `DEV_IIC_INFO` and `DW_IIC_CTRL`, with the memory of the buffers. -/
structure IicDev where
  opnCnt : Nat
  status : Word
  curState : IicState
  /-- `next_cond` is `IIC_MODE_STOP`. -/
  stop : Bool
  txBuf : DevBuffer
  rxBuf : DevBuffer
  /-- `ofs` and `len` of `dw_iic_rxbuf`. -/
  cmdOfs : Word
  cmdLen : Word
  mask : Word
  /-- The bits of `int_status`. -/
  txInt : Bool
  rxInt : Bool
  gint : Bool
  ram : Word → Byte
  mem : Word → Byte

namespace IicDev

def buf (s : IicDev) : Dir → DevBuffer
  | .tx => s.txBuf
  | .rx => s.rxBuf

/-- The buffer is set, and with a receive buffer the count of commands. -/
def withBuf (s : IicDev) (d : Dir) (b : DevBuffer) : IicDev :=
  match d with
  | .tx => { s with txBuf := b }
  | .rx => { s with rxBuf := b, cmdOfs := 0, cmdLen := b.len }

end IicDev

def Dir.iicState : Dir → IicState
  | .tx => .inTx
  | .rx => .inRx

/-! ### Commands -/

def icIntrTxAbrt : Word := 0x40#32
def icIntrTxEmpty : Word := 0x10#32
def icIntrRxFull : Word := 0x04#32

/-- `IC_INT_MST_TX_ENABLE` and `IC_INT_MST_RX_ENABLE` -/
def Dir.icInt : Dir → Word
  | .tx => 0x58#32
  | .rx => 0x57#32

def dwIicDisCbr (s : IicDev) (cbrtn : Dir) : IicDev :=
  let s := { s with mask := s.mask &&& ~~~cbrtn.icInt }
  let s := match cbrtn with
    | .tx => { s with txInt := false }
    | .rx => { s with rxInt := false }
  if s.gint && !s.txInt && !s.rxInt then { s with gint := false } else s

def dwIicEnaCbr (s : IicDev) (cbrtn : Dir) : IicDev :=
  let s := { s with mask := s.mask ||| cbrtn.icInt, gint := true }
  match cbrtn with
  | .tx => { s with txInt := true }
  | .rx => { s with rxInt := true }

/-- `IIC_CMD_SET_TXINT`, `IIC_CMD_SET_RXINT`, `IIC_CMD_SET_TXINT_BUF` and
`IIC_CMD_SET_RXINT_BUF`. -/
inductive IicCmd where
  | setInt (d : Dir) (val : Word)
  | setIntBuf (d : Dir) (param : Word) (devbuf : DevBuffer)

/-- Interrupts are not turned on or off against a transfer in the other direction, and a buffer
is not replaced during the transfer it is in. -/
def dwIicControl (s : IicDev) (cmd : IicCmd) : Int × IicDev :=
  if s.opnCnt = 0 then (eClsed, s)
  else if s.status &&& devEnabled = 0 then (eSys, s)
  else
    match cmd with
    | .setInt d val =>
      if s.curState ≠ .free ∧ s.curState ≠ d.iicState then (eCtx, s)
      else if val = 0 then (eOk, { dwIicDisCbr s d with curState := .free })
      else (eOk, { dwIicEnaCbr s d with curState := d.iicState })
    | .setIntBuf d param devbuf =>
      if s.curState = d.iicState then (eCtx, s)
      else if param.toNat % 4 ≠ 0 then (ePar, s)
      else (eOk, s.withBuf d (intBuf param devbuf))

variable {s : IicDev} {d : Dir}

theorem dwIicControl_setInt_ok {val : Word} (h : (dwIicControl s (.setInt d val)).1 = eOk) :
    (s.curState = .free ∨ s.curState = d.iicState) ∧
      (dwIicControl s (.setInt d val)).2 =
        if val = 0 then { dwIicDisCbr s d with curState := .free }
        else { dwIicEnaCbr s d with curState := d.iicState } := by
  simp only [dwIicControl] at h ⊢
  have hready := ready_ok h
  rw [hready] at h ⊢
  obtain ⟨hstate, heq⟩ := check_ok (by decide) h
  rw [heq]
  refine ⟨?_, ?_⟩
  · by_contra hother
    exact hstate (not_or.mp hother)
  · split <;> rfl

theorem dwIicControl_setIntBuf_ok {param : Word} {devbuf : DevBuffer}
    (h : (dwIicControl s (.setIntBuf d param devbuf)).1 = eOk) :
    (dwIicControl s (.setIntBuf d param devbuf)).2 = s.withBuf d (intBuf param devbuf) := by
  simp only [dwIicControl] at h ⊢
  have hready := ready_ok h
  rw [hready] at h ⊢
  obtain ⟨-, heq⟩ := check_ok (by decide) h
  rw [heq] at h ⊢
  obtain ⟨-, heq⟩ := check_ok (by decide) h
  rw [heq]

/-! ### The interrupt routines -/

/-- `IC_DATA_CMD_STOP` or `IC_DATA_CMD_RESTART`, with the last command of a transfer. -/
def IicDev.lastCond (s : IicDev) : Word := if s.stop then 0x200#32 else 0x400#32

/-- The transfer is through: interrupts off, and the bus free for the callback. -/
def IicDev.through (s : IicDev) (d : Dir) : IicDev := { dwIicDisCbr s d with curState := .free }

/-- The loop of `dw_iic_mst_int_write`; the commands, and whether the buffer is through. -/
def dwIicSend : Nat → IicDev → List Word × Bool × IicDev
  | 0, s => ([], false, s)
  | room + 1, s =>
    let xmitData := (s.ram (s.txBuf.buf + s.txBuf.ofs)).setWidth 32
    let xmitEnd : Bool := s.txBuf.ofs = s.txBuf.len - 1
    let s := { s with txBuf := { s.txBuf with ofs := s.txBuf.ofs + 1 } }
    if xmitEnd then ([xmitData ||| s.lastCond], true, s.through .tx)
    else
      let (cmds, complete, s) := dwIicSend room s
      (xmitData :: cmds, complete, s)

/-- One turn of the first loop of `dw_iic_mst_int_read`: the command written, if one is left. -/
def dwIicIssue (s : IicDev) : Option Word × IicDev :=
  if s.cmdOfs ≥ s.cmdLen then (none, { s with mask := s.mask &&& ~~~icIntrTxEmpty })
  else
    let xmitData := if s.cmdOfs = s.cmdLen - 1 then 0x100#32 ||| s.lastCond else 0x100#32
    (some xmitData, { s with cmdOfs := s.cmdOfs + 1 })

def dwIicIssueLoop : Nat → IicDev → List Word × IicDev
  | 0, s => ([], s)
  | room + 1, s =>
    match dwIicIssue s with
    | (none, s) => ([], s)
    | (some cmd, s) =>
      let (cmds, s) := dwIicIssueLoop room s
      (cmd :: cmds, s)

/-- One turn of the second loop: whether the buffer is through. -/
def dwIicStore (s : IicDev) (byte : Byte) : Bool × IicDev :=
  let s := { s with
    mem := Function.update s.mem (s.rxBuf.buf + s.rxBuf.ofs) byte
    rxBuf := { s.rxBuf with ofs := s.rxBuf.ofs + 1 } }
  if s.rxBuf.ofs ≥ s.rxBuf.len then (true, s.through .rx) else (false, s)

def dwIicStoreLoop : List Byte → IicDev → Bool × IicDev
  | [], s => (false, s)
  | byte :: bytes, s =>
    match dwIicStore s byte with
    | (true, s) => (true, s)
    | (false, s) => dwIicStoreLoop bytes s

/-- The callbacks, as what they do to the device; `id` for the null pointer. -/
structure IicCbs where
  cb : Dir → IicDev → IicDev
  errCb : IicDev → IicDev

/-- The completion callback, and what is cleared behind it. -/
def IicDev.finish (cbs : IicCbs) (d : Dir) (complete : Bool) (s : IicDev) : IicDev :=
  if complete then (cbs.cb d s).withBuf d .cleared else s

/-- The end of both routines. -/
def dwIicAbrt (cbs : IicCbs) (d : Dir) (status : Word) (err : Bool) (s : IicDev) : IicDev :=
  if hasFlag status icIntrTxAbrt && err then (cbs.errCb (s.through d)).withBuf d .cleared else s

/-- Up to the completion callback of `dw_iic_mst_int_write`. -/
def dwIicServeTx (s : IicDev) (status : Word) (room : Nat) : List Word × Bool × IicDev :=
  if hasFlag status icIntrTxEmpty then dwIicSend room s else ([], false, s)

/-- Up to the completion callback of `dw_iic_mst_int_read`. -/
def dwIicServeRx (s : IicDev) (status : Word) (room : Nat) (bytes : List Byte) :
    List Word × Bool × IicDev :=
  let (cmds, s) := if hasFlag status icIntrTxEmpty then dwIicIssueLoop room s else ([], s)
  let (complete, s) := if hasFlag status icIntrRxFull then dwIicStoreLoop bytes s else (false, s)
  (cmds, complete, s)

/-- What the routine that is called for the current state has served. -/
def dwIicServe (s : IicDev) (d : Dir) (status : Word) (room : Nat) (bytes : List Byte) :
    List Word × Bool × IicDev :=
  match d with
  | .tx => dwIicServeTx s status room
  | .rx => dwIicServeRx s status room bytes

/-- `dw_iic_mst_int_write` and `dw_iic_mst_int_read`: the commands written, and the device. -/
def dwIicMstInt (cbs : IicCbs) (d : Dir) (s : IicDev) (status : Word) (room : Nat)
    (bytes : List Byte) (err : Bool) : List Word × IicDev :=
  if (s.buf d).buf ≠ 0 then
    let (cmds, complete, s) := dwIicServe s d status room bytes
    (cmds, dwIicAbrt cbs d status err (s.finish cbs d complete))
  else ([], s.through d)

/-- The direction `dw_iic_isr` takes an interrupt to be for. -/
def IicDev.serves (s : IicDev) : Dir := if s.curState = .inTx then .tx else .rx

/-- `dw_iic_isr` in master mode. -/
def dwIicIsr (cbs : IicCbs) (s : IicDev) (status : Word) (room : Nat) (bytes : List Byte)
    (err : Bool) : List Word × IicDev :=
  dwIicMstInt cbs s.serves s status room bytes err

end Embarc
