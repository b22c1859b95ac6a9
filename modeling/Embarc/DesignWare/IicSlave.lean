/-
What a DesignWare IIC slave reports: `dw_iic_get_slv_state` in `dw_iic.c`.

The controller shows its events in IC_RAW_INTR_STAT.  Reading the register that clears an event
returns the event in bit 0.
-/
import Embarc.DesignWare.IicPort

namespace Embarc

/-- The events of a slave, as they are reported. -/
inductive SlvEvent where
  | gcReq
  | wrReq
  | rdReq
  | rdDone
  | start
  | stop
  | error
deriving DecidableEq, Repr

namespace SlvEvent

/-- The bits of `IC_INTR_STAT_*` that are tested. -/
def stat : SlvEvent → Word
  | gcReq => 0x800#32
  | wrReq => icIntrRxFull
  | rdReq => 0x20#32
  | rdDone => 0x80#32
  | start => 0x400#32
  | stop => 0x200#32
  | error => icIntrTxAbrt ||| icIntrTxOver ||| icIntrRxOver ||| icIntrRxUnder

/-- `IIC_SLAVE_STATE_*` -/
def state : SlvEvent → Word
  | gcReq => 0x40#32
  | wrReq => 0x20#32
  | rdReq => 0x8#32
  | rdDone => 0x10#32
  | start => 0x2#32
  | stop => 0x4#32
  | error => 0x80#32

end SlvEvent

/-- The variables of `dw_iic_get_slv_state`, with IC_RAW_INTR_STAT. -/
structure SlvRead where
  raw : Word
  status : Word
  slvState : Word
deriving DecidableEq, Repr

namespace SlvRead

/-- `status` is read from the register that clears `bit`. -/
def readClr (r : SlvRead) (bit : Word) : SlvRead :=
  { r with status := if hasFlag r.raw bit then 1 else 0, raw := r.raw &&& ~~~bit }

/-- The event is reported if `status` has it, and then the registers for `clrs` are read. -/
def report (r : SlvRead) (e : SlvEvent) (clrs : List Word) : SlvRead :=
  if hasFlag r.status e.stat then
    clrs.foldl readClr { r with slvState := r.slvState ||| e.state }
  else r

end SlvRead

/-- `raw` is IC_RAW_INTR_STAT before. -/
def dwIicGetSlvState (raw : Word) : SlvRead :=
  let r : SlvRead := { raw, status := raw, slvState := 0 }
  let r := r.report .gcReq []
  let r := r.report .wrReq []
  let r := r.report .rdReq []
  let r := r.report .rdDone [SlvEvent.rdDone.stat]
  let r := r.report .start [SlvEvent.start.stat]
  let r := r.report .stop [SlvEvent.stop.stat]
  r.report .error [icIntrTxAbrt, icIntrTxOver, icIntrRxOver, icIntrRxUnder]

/-- What happens to a slave: its events change, or it is asked for its state. -/
inductive SlvOp where
  | events (raw : Word)
  | poll
deriving DecidableEq, Repr

/-- IC_RAW_INTR_STAT, and what was in it at each poll, with the result of the poll. -/
structure SlvLine where
  raw : Word
  polls : List (Word × SlvRead)
deriving DecidableEq, Repr

def slvStep (s : SlvLine) : SlvOp → Except Empty SlvLine
  | .events raw => .ok { s with raw }
  | .poll =>
    let r := dwIicGetSlvState s.raw
    .ok { raw := r.raw, polls := s.polls ++ [(s.raw, r)] }

end Embarc
