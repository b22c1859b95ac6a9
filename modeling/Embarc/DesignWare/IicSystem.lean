/-
The IIC driver receiving by interrupts, and its controller.

The controller takes a read command from the transmit FIFO, carries it out on the bus, and puts
the byte into the receive FIFO.  It does so while the routine is running too, so every turn of a
loop of `dw_iic_mst_int_read` is a step of its own: each looks at a FIFO once.
-/
import Embarc.Lib.Link
import Embarc.Lib.Run
import Embarc.DesignWare.Iic

namespace Embarc

inductive IicPc where
  | idle
  /-- In the loop that writes commands, with the status read at the beginning. -/
  | issue (status : Word) (err : Bool)
  /-- In the loop that reads bytes. -/
  | store (status : Word) (err : Bool)
deriving DecidableEq

/-- The device, the link, and all read commands written and bytes read. -/
structure IicSys where
  dev : IicDev
  link : Link Word
  pc : IicPc
  pushed : List Word
  got : List Word

inductive IicEvent where
  | load
  | shift
  | drive
  | irq (status : Word) (err : Bool)

/-- The rest of `dw_iic_mst_int_read` behind its loops. -/
def IicSys.leave (cbs : IicCbs) (sys : IicSys) (status : Word) (err complete : Bool) : IicSys :=
  { sys with dev := dwIicAbrt cbs .rx status err (sys.dev.finish cbs .rx complete), pc := .idle }

def iicDrive (hw : DwHw) (cbs : IicCbs) (sys : IicSys) : IicSys :=
  match sys.pc with
  | .idle => sys
  | .issue status err =>
    if hasFlag status icIntrTxEmpty ∧ sys.link.tx.length < hw.txDepth then
      match dwIicIssue sys.dev with
      | (some cmd, dev) =>
        { sys with dev := dev, link := sys.link.push [cmd], pushed := sys.pushed ++ [cmd] }
      | (none, dev) => { sys with dev := dev, pc := .store status err }
    else { sys with pc := .store status err }
  | .store status err =>
    match sys.link.rx with
    | w :: _ =>
      if hasFlag status icIntrRxFull then
        let (complete, dev) := dwIicStore sys.dev (w.setWidth 8)
        let sys := { sys with dev := dev, link := sys.link.take 1, got := sys.got ++ [w] }
        if complete then sys.leave cbs status err true else sys
      else sys.leave cbs status err false
    | [] => sys.leave cbs status err false

/-- An interrupt, as `dw_iic_isr` takes it; those of a transmit transfer are not followed. -/
def iicIrq (sys : IicSys) (status : Word) (err : Bool) : IicSys :=
  match sys.pc, sys.dev.serves with
  | .idle, .rx =>
    if sys.dev.rxBuf.buf ≠ 0 then { sys with pc := .issue status err }
    else { sys with dev := sys.dev.through .rx }
  | _, _ => sys

def iicStep (hw : DwHw) (cbs : IicCbs) (sys : IicSys) : IicEvent → Except Empty IicSys
  | .load => .ok { sys with link := sys.link.load }
  | .shift => .ok { sys with link := sys.link.shift hw.rxDepth hw.reply }
  | .drive => .ok (iicDrive hw cbs sys)
  | .irq status err => .ok (iicIrq sys status err)

/-- Nothing is in the FIFOs. -/
def IicSys.start (dev : IicDev) : IicSys :=
  { dev := dev, link := .empty, pc := .idle, pushed := [], got := [] }

end Embarc
