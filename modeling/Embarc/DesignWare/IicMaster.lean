/-
How the DesignWare IIC driver ends an interrupt transfer in master mode: `err_state`, the abort
sources that `dw_iic_mst_chkerr` looks up, and the callbacks that `dw_iic_mst_int_write` and
`dw_iic_mst_int_read` make; and `dw_iic_write`, which polls.

The interrupt routines do the same in four parts: they serve the FIFOs, and if the buffer is
through its callback runs; they give the buffer up and count the overruns; they look up a transmit
abort, and if there was one the error callback runs; they give the buffer up once more.  The parts
are definitions of their own.  `dwIicMstIsr` strings them together with the callbacks between them,
and `iicBusStep` lets the hardware raise an abort between any two accesses to its registers.
-/
import Embarc.Lib.Run
import Embarc.DesignWare.Iic

namespace Embarc

/-! ### Errors -/

/-- `IIC_ERROR_STATE` -/
inductive IicErr where
  | none
  | lostBus
  | addrNoack
  | dataNoack
  | timeout
  | mststop
  | undef
deriving DecidableEq, Repr

def icIntrRxUnder : Word := 0x01#32
def icIntrRxOver : Word := 0x02#32
def icIntrTxOver : Word := 0x08#32

/-- `IIC_MST_ABRT_LOST_BUS`: the arbitration was lost. -/
def iicMstAbrtLostBus : Word := 0x1000#32

/-- `IIC_MST_ABRT_ADDR_NOACK`: the seven bit address, or the first byte of a ten bit one. -/
def iicMstAbrtAddrNoack : Word := 0x3#32

def iicMstAbrtDataNoack : Word := 0x8#32

/-- The error for a value of `IC_TX_ABRT_SOURCE`. -/
def iicAbrtErr (source : Word) : IicErr :=
  if hasFlag source iicMstAbrtLostBus then .lostBus
  else if hasFlag source iicMstAbrtAddrNoack then .addrNoack
  else if hasFlag source iicMstAbrtDataNoack then .dataNoack
  else .undef

theorem iicAbrtErr_ne_none (source : Word) : iicAbrtErr source ≠ .none := by
  simp only [iicAbrtErr]
  split
  · exact IicErr.noConfusion
  · split
    · exact IicErr.noConfusion
    · split <;> exact IicErr.noConfusion

/-! ### The parts of the interrupt routines -/

/-- What the routines of the master change: the device, and what it reports. -/
structure IicMst where
  dev : IicDev
  errState : IicErr
  cbs : DevCbs
  /-- `iic_tx_over` and `iic_rx_over` -/
  txOver : Word
  rxOver : Word

/-- A callback that is made, and what it finds in `status` and `err_state`. -/
structure IicCall where
  cbrtn : DevCb
  status : Word
  err : IicErr
deriving DecidableEq, Repr

/-- What the hardware answers during one execution of an interrupt routine: `IC_INTR_STAT`, how
often the transmit FIFO has room, the bytes in the receive FIFO, and, if a transmit abort is
looked up, `IC_RAW_INTR_STAT`, `IC_TX_ABRT_SOURCE` and `IC_CLR_TX_OVER`. -/
structure IicIsrEvent where
  status : Word
  room : Nat
  bytes : List Byte
  raw : Word
  source : Word
  clrTxOver : Word
deriving DecidableEq, Repr

/-- A transmit abort is seen and looked up. -/
def IicIsrEvent.aborts (ev : IicIsrEvent) : Bool :=
  hasFlag ev.status icIntrTxAbrt && hasFlag ev.raw icIntrTxAbrt

namespace IicMst

/-- The calls that are made when a routine gets to a callback: none if it is not set. -/
def callOf (m : IicMst) (which : DevCb) : List IicCall :=
  if m.cbs.get which ≠ 0 then [{ cbrtn := which, status := m.dev.status, err := m.errState }]
  else []

theorem callOf_set {m : IicMst} {which : DevCb} (h : m.cbs.get which ≠ 0) :
    m.callOf which = [{ cbrtn := which, status := m.dev.status, err := m.errState }] :=
  if_pos h

/-- The callback is run, if it is set; `env` says what the function at an address does. -/
def callback (env : Word → IicMst → IicMst) (m : IicMst) (which : DevCb) : IicMst :=
  if m.cbs.get which ≠ 0 then env (m.cbs.get which) m else m

/-- `dw_iic_mst_chkerr`.  If a transmit overrun was pending, the receive overruns are looked for
in what `IC_CLR_TX_OVER` was read as. -/
def chkerr (m : IicMst) (ev : IicIsrEvent) : IicErr × IicMst :=
  if hasFlag ev.raw icIntrTxAbrt then (iicAbrtErr ev.source, m)
  else
    let (status, m) :=
      if hasFlag ev.raw icIntrTxOver then (ev.clrTxOver, { m with txOver := m.txOver + 1 })
      else (ev.raw, m)
    if hasFlag status (icIntrRxOver ||| icIntrRxUnder) then
      (.none, { m with rxOver := m.rxOver + 1 })
    else (.none, m)

/-- The FIFOs are served: the commands written, and whether the buffer is through. -/
def serve (m : IicMst) (d : Dir) (ev : IicIsrEvent) : List Word × Bool × IicMst :=
  let (cmds, complete, dev) := dwIicServe m.dev d ev.status ev.room ev.bytes
  (cmds, complete, { m with dev })

/-- Behind the callback of a buffer that is through. -/
def served (m : IicMst) (d : Dir) (status : Word) (complete : Bool) : IicMst :=
  let m := if complete then { m with dev := m.dev.withBuf d .cleared } else m
  match d with
  | .tx => if hasFlag status icIntrTxOver then { m with txOver := m.txOver + 1 } else m
  | .rx =>
    if hasFlag status (icIntrRxOver ||| icIntrRxUnder) then { m with rxOver := m.rxOver + 1 }
    else m

/-- A transmit abort is looked up; whether there was one. -/
def check (m : IicMst) (d : Dir) (ev : IicIsrEvent) : Bool × IicMst :=
  if hasFlag ev.status icIntrTxAbrt then
    let (errState, m) := m.chkerr ev
    let m := { m with errState }
    if errState ≠ .none then (true, { m with dev := m.dev.through d }) else (false, m)
  else (false, m)

/-- Behind the error callback. -/
def checked (m : IicMst) (d : Dir) (err : Bool) : IicMst :=
  if err then { m with dev := m.dev.withBuf d .cleared } else m

end IicMst

/-- What an execution of an interrupt routine has done: the commands written, the callbacks made,
whether it found an error, and the master it leaves. -/
structure IicIsrResult where
  cmds : List Word
  calls : List IicCall
  err : Bool
  mst : IicMst

/-- `dw_iic_mst_int_write` and `dw_iic_mst_int_read` -/
def IicMst.int (env : Word → IicMst → IicMst) (m : IicMst) (d : Dir) (ev : IicIsrEvent) :
    IicIsrResult :=
  if (m.dev.buf d).buf ≠ 0 then
    let (cmds, complete, m) := m.serve d ev
    let calls := if complete then m.callOf (.ofDir d) else []
    let m := if complete then m.callback env (.ofDir d) else m
    let m := m.served d ev.status complete
    let (err, m) := m.check d ev
    let calls' := if err then m.callOf .err else []
    let m := if err then m.callback env .err else m
    { cmds, calls := calls ++ calls', err, mst := m.checked d err }
  else { cmds := [], calls := [], err := false, mst := { m with dev := m.dev.through d } }

/-- `dw_iic_isr` in master mode. -/
def dwIicMstIsr (env : Word → IicMst → IicMst) (m : IicMst) (ev : IicIsrEvent) : IicIsrResult :=
  m.int env m.dev.serves ev

/-! ### Polled transmission -/

/-- What the hardware answers while `dw_iic_mst_write_data` waits: the transmit FIFO has room, or it
is full and the registers are read that `dw_iic_mst_chkerr` looks at. -/
inductive IicPoll where
  | room
  | full (raw source clrTxOver : Word)
deriving DecidableEq, Repr

/-- `dw_iic_mst_write_data`, from the `i`-th turn of its loop on: the error, the command written,
what is left of the answers, and the master.  Nothing is returned while it waits. -/
def dwIicMstWriteData (retryCnt data nextCond : Word) :
    Word → List IicPoll → IicMst → Option (IicErr × List Word × List IicPoll × IicMst)
  | _, [], _ => none
  | _, .room :: polls, m => some (.none, [data ||| nextCond], polls, m)
  | i, .full raw source clrTxOver :: polls, m =>
    if i > retryCnt then some (.timeout, [], polls, m)
    else
      let (ercd, m) := m.chkerr
        { status := 0, room := 0, bytes := [], raw, source, clrTxOver }
      if ercd ≠ .none then some (ercd, [], polls, m)
      else dwIicMstWriteData retryCnt data nextCond (i + 1) polls m

/-- The loop of `dw_iic_write`, with `left` turns to go: the error, `i`, the commands written, what
is left of the answers, and the master. -/
def dwIicMstWriteLoop (retryCnt data : Word) :
    Nat → Word → List IicPoll → IicMst → Option (IicErr × Word × List Word × List IicPoll × IicMst)
  | 0, i, polls, m => some (.none, i, [], polls, m)
  | left + 1, i, polls, m =>
    match dwIicMstWriteData retryCnt ((m.dev.ram (data + i)).setWidth 32) 0 0 polls m with
    | none => none
    | some (.none, cmds, polls, m) =>
      (dwIicMstWriteLoop retryCnt data left (i + 1) polls m).map fun (err, i, cmds', r) =>
        (err, i, cmds ++ cmds', r)
    | some (err, cmds, polls, m) => some (err, i, cmds, polls, m)

/-- `dw_iic_write` in master mode: what is returned, the commands written, and the master. -/
def dwIicWrite (retryCnt : Word) (m : IicMst) (data len : Word) (polls : List IicPoll) :
    Option (Int × List Word × IicMst) :=
  if m.dev.opnCnt = 0 then some (eClsed, [], m)
  else if m.dev.status &&& devEnabled = 0 then some (eSys, [], m)
  else if data = 0 then some (ePar, [], m)
  else if len = 0 then some (ePar, [], m)
  else
    let lastCond := m.dev.lastCond
    let len := len - 1
    match dwIicMstWriteLoop retryCnt data len.toNat 0 polls m with
    | none => none
    | some (.none, i, cmds, polls, m) =>
      (dwIicMstWriteData retryCnt ((m.dev.ram (data + len)).setWidth 32) lastCond 0 polls m).map
        fun (errState, cmds', _, m) =>
          ((if errState = .none then i + 1 else i).toInt, cmds ++ cmds', { m with errState })
    | some (errState, i, cmds, _, m) => some (i.toInt, cmds, { m with errState })

/-! ### The hardware at any instant

Where an execution of the interrupt routine has got to.  A callback runs in `served _ _ true` and
in `failed`, and thread code in `idle`. -/

inductive IicIsrPc where
  | idle
  /-- `IC_INTR_STAT` was read and there is a buffer. -/
  | entered (d : Dir) (status : Word)
  /-- The FIFOs were served. -/
  | served (d : Dir) (status : Word) (complete : Bool)
  /-- Up to the test for a transmit abort. -/
  | counted (d : Dir) (status : Word)
  /-- `IC_RAW_INTR_STAT` was read with a transmit abort in it. -/
  | aborted (d : Dir)
  /-- `IC_TX_ABRT_SOURCE` was read. -/
  | sourced (d : Dir) (err : IicErr)
  /-- `IC_CLR_TX_ABRT` was read and the error reported. -/
  | failed (d : Dir)
  /-- Only `IC_CLR_INTR` is left to be read. -/
  | closing
deriving DecidableEq, Repr

/-- Callbacks and threads can call the driver here. -/
def IicIsrPc.calls : IicIsrPc → Bool
  | .idle => true
  | .served _ _ complete => complete
  | .failed _ => true
  | _ => false

/-- The master together with the abort flag of the hardware.  `unreported` and `lost` are not in
the source: an abort was raised during a transfer and has not been reported yet, and such an abort
was cleared. -/
structure IicBus where
  mst : IicMst
  pc : IicIsrPc
  /-- `IC_TX_ABRT_SOURCE` while the abort is pending. -/
  abrt : Option Word
  calls : List IicCall
  unreported : Bool
  lost : Bool

/-- What happens next: a call of the driver, an abort raised by the hardware, or the next access
of the interrupt routine to the registers, with what it finds there besides the abort flag. -/
inductive IicBusOp where
  | command (cmd : IicCmd)
  /-- `IIC_CMD_FLUSH_TX` -/
  | flushTx
  /-- `IIC_CMD_RESET` -/
  | reset
  /-- A polled read or write calls `dw_iic_mst_chkerr` while it waits. -/
  | poll (raw clrTxOver : Word)
  /-- Any other call, which leaves the interrupt flags alone, whatever it makes of the master. -/
  | call (mst : IicMst)
  | abort (source : Word)
  | enter (status : Word)
  | serve (room : Nat) (bytes : List Byte)
  | leave
  | readRaw (raw clrTxOver : Word)
  | readSource
  | clrTxAbrt
  | leaveErr
  | clrIntr

namespace IicBus

/-- An interrupt transfer is under way. -/
def Live (s : IicBus) : Prop :=
  s.mst.dev.curState ≠ .free ∧ (s.mst.dev.buf s.mst.dev.serves).buf ≠ 0

instance (s : IicBus) : Decidable s.Live := inferInstanceAs (Decidable (_ ∧ _))

/-- A register of interrupt flags, with the abort flag as it stands. -/
def flags (s : IicBus) (others : Word) : Word :=
  if s.abrt.isSome then others ||| icIntrTxAbrt else others &&& ~~~icIntrTxAbrt

/-- The abort flag is cleared, and the interrupt routine does not hear of it. -/
def clear (s : IicBus) (mst : IicMst) : IicBus :=
  { s with mst, abrt := none, unreported := false, lost := s.lost || s.unreported }

/-- `dw_iic_control` takes a command that needs an enabled device. -/
def Takes (s : IicBus) : Prop := s.mst.dev.opnCnt ≠ 0 ∧ s.mst.dev.status &&& devEnabled ≠ 0

instance (s : IicBus) : Decidable s.Takes := inferInstanceAs (Decidable (_ ∧ _))

end IicBus

/-- `dw_iic_reset_device`, without the interrupt flags. -/
def IicMst.reset (m : IicMst) : IicMst :=
  { m with
    dev := { m.dev with status := m.dev.status ||| devEnabled, stop := true, curState := .free }
    errState := .none, txOver := 0, rxOver := 0 }

/-- The bits of `IC_INTR_STAT` are those of `IC_RAW_INTR_STAT` that are not masked.  The transmit
FIFO is kept flushed while an abort is pending, so that no second one can come up. -/
def iicBusStep (s : IicBus) : IicBusOp → Except Unit IicBus
  | .command cmd =>
    if s.pc.calls then
      .ok { s with mst := { s.mst with dev := (dwIicControl s.mst.dev cmd).2 } }
    else .error ()
  | .flushTx =>
    if s.pc.calls then .ok (if s.Takes then s.clear s.mst else s) else .error ()
  | .reset =>
    if s.pc.calls then .ok (if s.mst.dev.opnCnt ≠ 0 then s.clear s.mst.reset else s) else .error ()
  | .poll raw clrTxOver =>
    if s.pc.calls then
      match s.abrt with
      | some source => .ok (s.clear { s.mst with errState := iicAbrtErr source })
      | none =>
        .ok { s with mst := (s.mst.chkerr
          { status := 0, room := 0, bytes := [], raw := s.flags raw, source := 0, clrTxOver }).2 }
    else .error ()
  | .call mst => if s.pc.calls then .ok { s with mst } else .error ()
  | .abort source =>
    if s.abrt.isSome then .ok s
    else .ok { s with abrt := some source, unreported := s.unreported || decide s.Live }
  | .enter status =>
    if s.pc = .idle then
      let d := s.mst.dev.serves
      let status := s.flags status &&& s.mst.dev.mask
      if (s.mst.dev.buf d).buf ≠ 0 then .ok { s with pc := .entered d status }
      else .ok { s with mst := { s.mst with dev := s.mst.dev.through d }, pc := .closing }
    else .error ()
  | .serve room bytes =>
    match s.pc with
    | .entered d status =>
      let (_, complete, mst) := s.mst.serve d
        { status, room, bytes, raw := 0, source := 0, clrTxOver := 0 }
      .ok { s with mst, pc := .served d status complete,
                   calls := s.calls ++ if complete then mst.callOf (.ofDir d) else [] }
    | _ => .error ()
  | .leave =>
    match s.pc with
    | .served d status complete =>
      .ok { s with mst := s.mst.served d status complete, pc := .counted d status }
    | _ => .error ()
  | .readRaw raw clrTxOver =>
    match s.pc with
    | .counted d status =>
      if hasFlag status icIntrTxAbrt then
        if s.abrt.isSome then .ok { s with pc := .aborted d }
        else
          let (errState, mst) := s.mst.chkerr
            { status, room := 0, bytes := [], raw := s.flags raw, source := 0, clrTxOver }
          .ok { s with mst := { mst with errState }, pc := .closing }
      else .ok { s with pc := .closing }
    | _ => .error ()
  | .readSource =>
    match s.pc, s.abrt with
    | .aborted d, some source => .ok { s with pc := .sourced d (iicAbrtErr source) }
    | _, _ => .error ()
  | .clrTxAbrt =>
    match s.pc with
    | .sourced d errState =>
      let mst := { s.mst with errState, dev := s.mst.dev.through d }
      .ok { s with mst, pc := .failed d, abrt := none, unreported := false,
                   calls := s.calls ++ mst.callOf .err }
    | _ => .error ()
  | .leaveErr =>
    match s.pc with
    | .failed d => .ok { s with mst := s.mst.checked d true, pc := .closing }
    | _ => .error ()
  | .clrIntr =>
    if s.pc = .closing then
      .ok { s with pc := .idle, abrt := none, unreported := false,
                   lost := s.lost || s.unreported }
    else .error ()

end Embarc
