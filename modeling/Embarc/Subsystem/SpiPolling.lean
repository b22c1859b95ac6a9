/-
A polled transfer of the SPI master of the subsystem and its controller at work:
`SPI_CMD_TRANSFER_POLLING` in `ss_spi_master.c` and `io_spi_master_polling`.

As for the other SPI driver a step is one of the controller's or a piece of the program with one
look at the hardware: the transmit half or the receive half of a turn, or the way to the next
transfer of the list.  There the controller is turned off and on again, which empties its FIFOs.
-/
import Embarc.Lib.Link
import Embarc.Lib.Run
import Embarc.Subsystem.SpiMaster

namespace Embarc

/-- The device, and the one at the other end of the line. -/
structure SsPollHw extends SsSpiHw where
  reply : List Word → Word

inductive SsPollPc where
  /-- In `io_spi_master_polling`, before the test of the loop. -/
  | write
  /-- In the loop, before the receive half. -/
  | read
  /-- Behind `io_spi_master_polling`. -/
  | next
  /-- The list is through. -/
  | done
deriving DecidableEq

structure SsPollSys where
  /-- The transfer that is made, and those behind it in the list. -/
  cur : SpiPoll
  rest : List DevSpiTransfer
  ram : Word → Byte
  mem : Word → Byte
  link : Link Word
  pc : SsPollPc
  /-- All frames that were pushed and read. -/
  pushed : List Word
  got : List Word

inductive SsPollEvent where
  | load
  | shift
  | drive

/-- The controller is turned off and on again. -/
def ssPollReset (link : Link Word) : Link Word := { link with tx := [], line := none, rx := [] }

def ssPollDrive (hw : SsPollHw) (s : SsPollSys) : SsPollSys :=
  match s.pc with
  | .write =>
    if s.cur.goesOn then
      let (frames, cur) := ssPollWrite hw.toSsSpiHw s.ram s.cur s.link.tx.length
      { s with cur, link := s.link.push frames, pushed := s.pushed ++ frames, pc := .read }
    else { s with pc := .next }
  | .read =>
    let (count, mem, cur) := ssPollRead s.mem s.cur s.link.rx
    { s with
      cur, mem, link := s.link.take count, got := s.got ++ s.link.rx.take count, pc := .write }
  | .next =>
    match s.rest with
    | [] => { s with pc := .done }
    | x :: rest => { s with cur := .init x, rest, link := ssPollReset s.link, pc := .write }
  | .done => s

def ssPollStep (hw : SsPollHw) (s : SsPollSys) : SsPollEvent → Except SsSpiStop SsPollSys
  | .load => .ok { s with link := s.link.load }
  | .shift => .ok { s with link := s.link.shift hw.fifoDepth.toNat hw.reply }
  | .drive => .ok (ssPollDrive hw s)

/-- A list of at least one transfer is begun. -/
def SsPollSys.start (ram mem : Word → Byte) (x : DevSpiTransfer) (rest : List DevSpiTransfer) :
    SsPollSys where
  cur := .init x
  rest := rest
  ram := ram
  mem := mem
  link := .empty
  pc := .write
  pushed := []
  got := []

end Embarc
