/-
What the SPI master and the SPI slave of the sensor and control subsystem have in common:
`spi_info_t` of `spi_priv.h`, and the functions that fill and empty the FIFOs, which `spi_master.c`
and `spi_slave.c` both have.  The drivers are built without DMA.

A frame takes one, two or four bytes of a buffer; the last one may be cut short.  As in the other
SPI driver, transmit buffers are read from `ram` and receive buffers written in `mem`, and what the
hardware shows is an argument: the level of the transmit FIFO, and the frames in the receive FIFO.
-/
import Embarc.DesignWare.DevCommon

namespace Embarc

/-- The device of one number. -/
structure SsSpiHw where
  /-- It is part of the design. -/
  present : Bool
  maxXferSize : Nat
  fifoDepth : BitVec 16
  size_ok : maxXferSize = 16 ∨ maxXferSize = 32

theorem SsSpiHw.small_ok : 16 = 16 ∨ 16 = 32 := .inl rfl

theorem SsSpiHw.large_ok : 32 = 16 ∨ 32 = 32 := .inr rfl

/-- `max_xfer_size >> 4` -/
def SsSpiHw.maxLog (hw : SsSpiHw) : Nat := hw.maxXferSize / 16

structure SsSpiRegs where
  ctrl0 : Word
  ctrl1 : Word
  spien : Word
  ser : Word
  baudr : Word
  txftlr : Word
  rxftlr : Word
  imr : Word
  clkEna : Word
  rxSampleDly : Word
deriving DecidableEq, Repr

/-- `spi_info_t`, with the registers and the memory of the buffers. -/
structure SsSpiInfo where
  /-- `spi_handles` has an entry for the device. -/
  handle : Bool
  rxSize : Word
  pRxsize : Word
  rxCount : Word
  rxBuff : Word
  txSize : Word
  txCount : Word
  txBuff : Word
  handlingRx : Bool
  handlingTx : Bool
  logXferSize : Nat
  cbs : DevCbs
  regs : SsSpiRegs
  ram : Word → Byte
  mem : Word → Byte
  /-- What `p_rxsize` points to. -/
  sizes : Word → Word
  /-- What was written to DR, and what was read from it. -/
  sent : List Word
  got : List Word
  /-- The callbacks made so far. -/
  calls : List DevCb

inductive SsSpiStop where
  /-- The entry of `spi_handles` is followed, and is null. -/
  | nullHandle
  /-- The processor divides by zero. -/
  | divZero
deriving DecidableEq, Repr

def rSpiIdle : Word := 0x40#32
def rSpiTxUnder : Word := 0x20#32
def rSpiRxFull : Word := 0x10#32
def rSpiTxEmpty : Word := 0x1#32

/-- `SPI_TRANSMIT_RECEIVE_MODE`, `SPI_TRANSMIT_ONLY_MODE`, `SPI_RECEIVE_ONLY_MODE`,
`SPI_RECEIVE_AFTER_TRANSMIT_MODE`: the values of the mode field of CTRL0. -/
def spiTransmitReceiveMode : Word := 0#32
def spiTransmitOnlyMode : Word := 1#32
def spiReceiveOnlyMode : Word := 2#32
def spiReceiveAfterTransmitMode : Word := 3#32

/-- Where the frame size lies in CTRL0.  The source shifts by `(log_xfer_size - 1) << 4`, which is
negative for frames of one byte; the shifter looks at the low five bits. -/
def spiDfsPos (log : Nat) : Nat := 16 * (log + 1) % 32

/-! ### Frames -/

def frameBytes (log : Nat) : Nat := if log = 0 then 1 else if log = 1 then 2 else 4

/-- How many bytes each frame takes, for `cnt` bytes. -/
def frameSizes (log cnt : Nat) : List Nat :=
  List.replicate (cnt / frameBytes log) (frameBytes log) ++
    if cnt % frameBytes log ≠ 0 then [cnt % frameBytes log] else []

/-- The low `n` bytes of the frame at `a`, the others zero. -/
def loadFrame (ram : Word → Byte) (a : Word) : Nat → Word
  | 0 => 0
  | n + 1 => loadFrame ram a n ||| (ram (a + BitVec.ofNat 32 n)).setWidth 32 <<< (8 * n)

/-- The low `n` bytes of a frame go to `a`. -/
def storeFrame (mem : Word → Byte) (a val : Word) : Nat → Word → Byte
  | 0 => mem
  | n + 1 =>
    Function.update (storeFrame mem a val n) (a + BitVec.ofNat 32 n)
      ((val >>> (8 * n)).setWidth 8)

namespace SsSpiInfo

def writeImr (s : SsSpiInfo) (val : Word) : SsSpiInfo := { s with regs := { s.regs with imr := val } }

/-- Interrupts are masked: their bits in IMR are cleared. -/
def mask (s : SsSpiInfo) (bits : Word) : SsSpiInfo := s.writeImr (s.regs.imr &&& ~~~bits)

def unmask (s : SsSpiInfo) (bits : Word) : SsSpiInfo := s.writeImr (s.regs.imr ||| bits)

def transferMode (s : SsSpiInfo) : Word := s.regs.ctrl0 >>> 8 &&& 0x3#32

/-- The bytes that went into the FIFO, whole frames each. -/
def txBytes (s : SsSpiInfo) : Word := s.txCount <<< s.logXferSize

def rxBytes (s : SsSpiInfo) : Word := s.rxCount <<< s.logXferSize

def txDone (s : SsSpiInfo) : Bool := s.txSize ≤ s.txBytes

def rxDone (s : SsSpiInfo) : Bool := s.rxSize ≤ s.rxBytes

end SsSpiInfo

def frameAddr (log : Nat) (buff : Word) (num : Nat) : Word :=
  buff + BitVec.ofNat 32 (frameBytes log * num)

/-- The frames of a buffer from number `first` on, of these sizes. -/
def loadFrames (log : Nat) (ram : Word → Byte) (buff : Word) (sizes : List Nat) (first : Nat) :
    List Word :=
  (sizes.zipIdx first).map fun x => loadFrame ram (frameAddr log buff x.2) x.1

/-- Frames go to a buffer, as number `first` and the following. -/
def storeFrames (log : Nat) (mem : Word → Byte) (buff : Word) (frames : List (Word × Nat))
    (first : Nat) : Word → Byte :=
  (frames.zipIdx first).foldl
    (fun mem x => storeFrame mem (frameAddr log buff x.2) x.1.1 x.1.2) mem

def ssFillTxfifo (hw : SsSpiHw) (s : SsSpiInfo) (txflr : Word) : SsSpiInfo :=
  let cnt := s.txSize - s.txBytes
  let free := (hw.fifoDepth.setWidth 32 - txflr) <<< s.logXferSize
  let sizes := frameSizes s.logXferSize (capped cnt free).toNat
  { s with
    sent := s.sent ++ loadFrames s.logXferSize s.ram s.txBuff sizes s.txCount.toNat
    txCount := s.txCount + BitVec.ofNat 32 sizes.length }

def ssRetrieveRxfifo (s : SsSpiInfo) (frames : List Word) : SsSpiInfo :=
  let cnt := s.rxSize - s.rxBytes
  let avail := BitVec.ofNat 32 frames.length <<< s.logXferSize
  let sizes := frameSizes s.logXferSize (capped cnt avail).toNat
  { s with
    mem := storeFrames s.logXferSize s.mem s.rxBuff (frames.zip sizes) s.rxCount.toNat
    got := s.got ++ frames.take sizes.length
    rxCount := s.rxCount + BitVec.ofNat 32 sizes.length }

/-! ### Callbacks -/

def SsSpiInfo.call (s : SsSpiInfo) (which : DevCb) : SsSpiInfo :=
  { s with calls := s.calls ++ [which] }

/-- Out of reset the registers are as closing leaves them. -/
def SsSpiInfo.fresh (hw : SsSpiHw) : SsSpiInfo where
  handle := false
  rxSize := 0
  pRxsize := 0
  rxCount := 0
  rxBuff := 0
  txSize := 0
  txCount := 0
  txBuff := 0
  handlingRx := false
  handlingTx := false
  logXferSize := hw.maxLog
  cbs := .cleared
  regs :=
    { ctrl0 := 7, ctrl1 := 0, spien := 0, ser := 0, baudr := 0, txftlr := 0, rxftlr := 0
      imr := 0xff, clkEna := 0, rxSampleDly := 0 }
  ram := fun _ => 0
  mem := fun _ => 0
  sizes := fun _ => 0
  sent := []
  got := []
  calls := []

end Embarc
