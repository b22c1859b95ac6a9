/-
The SPI driver and its controller at work.

The driver looks at the FIFOs at separate instants and the controller goes on in between, so a
step is either one of the controller's (a frame is loaded, a frame is exchanged on the line) or a
piece of the driver's program with one look at the hardware: a call of the writer or of the
reader in the loop of `dw_spi_poll_transfer`, or the two parts of `dw_spi_isr`.  Interrupts may
come at any time at which the routine is not running, with any status.
-/
import Embarc.Lib.Link
import Embarc.Lib.Run
import Embarc.DesignWare.Spi

namespace Embarc

inductive SpiPc where
  /-- In `dw_spi_poll_transfer`, before the test of the loop. -/
  | write
  /-- In `dw_spi_poll_transfer`, before the reader. -/
  | read
  /-- The loop is left. -/
  | done
  /-- No interrupt is served. -/
  | idle
  /-- In `dw_spi_isr`, behind the reader. -/
  | isr (status : Word)
deriving DecidableEq

/-- The device, the link, and all frames that were pushed and read. -/
structure SpiSys where
  dev : SpiDev
  link : Link Word
  pc : SpiPc
  pushed : List Word
  got : List Word

inductive SpiEvent where
  | load
  | shift
  | drive
  | irq (status : Word)

def dwSpiGetTxavail (hw : DwHw) (link : Link Word) : Nat := hw.txDepth - link.tx.length

namespace SpiSys

def push (s : SpiSys) (dev : SpiDev) (frames : List Word) : SpiSys :=
  { s with dev := dev, link := s.link.push frames, pushed := s.pushed ++ frames }

def take (s : SpiSys) (dev : SpiDev) (count : Nat) : SpiSys :=
  { s with dev := dev, link := s.link.take count, got := s.got ++ s.link.rx.take count }

def write (hw : DwHw) (s : SpiSys) : SpiSys :=
  let (frames, dev) := dwSpiWriter s.dev (dwSpiGetTxavail hw s.link)
  s.push dev frames

def read (s : SpiSys) : SpiSys :=
  let (count, dev) := dwSpiReader s.dev s.link.rx
  s.take dev count

end SpiSys

def spiDrive (hw : DwHw) (cbs : SpiCbs) (s : SpiSys) : SpiSys :=
  match s.pc with
  | .write =>
    if dwSpiXferEnd s.dev.xfer then
      { s with dev := { s.dev with status := s.dev.status &&& ~~~devInXfer }, pc := .done }
    else { s.write hw with pc := .read }
  | .read => { s.read with pc := .write }
  | .isr status =>
    let (frames, dev) := dwSpiIsrWrite cbs s.dev status (dwSpiGetTxavail hw s.link)
    { s.push dev frames with pc := .idle }
  | .done | .idle => s

def spiIrq (s : SpiSys) (status : Word) : Except SpiStop SpiSys :=
  match s.pc with
  | .idle => do
      match ← dwSpiIsrRead s.dev status s.link.rx with
      | (none, dev) => return { s with dev := dev }
      | (some count, dev) => return { s.take dev count with pc := .isr status }
  | _ => return s

def spiStep (hw : DwHw) (cbs : SpiCbs) (s : SpiSys) : SpiEvent → Except SpiStop SpiSys
  | .load => return { s with link := s.link.load }
  | .shift => return { s with link := s.link.shift hw.rxDepth hw.reply }
  | .drive => return spiDrive hw cbs s
  | .irq status => spiIrq s status

/-- The transfer is started, with nothing in the FIFOs. -/
def SpiSys.start (dev : SpiDev) (pc : SpiPc) : SpiSys :=
  { dev := dev, link := .empty, pc := pc, pushed := [], got := [] }

end Embarc
