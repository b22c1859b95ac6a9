/-
The DesignWare SPI driver: `dw_spi.c`, and the transfer lists of `dev_spi.h`.

A transfer list is walked twice, by `dw_spi_writer` and by `dw_spi_reader`.  Each has its own
pointer into the list and touches only its own fields of a transfer, so the two pointers are
two lists of what is left, `[]` being the null pointer.  The loops of the two are one loop,
`spiWalk`, that says at each turn which address of the buffer the frame belongs to, if any.

What the hardware shows at a query is an argument: the room of the transmit FIFO, and the frames
in the receive FIFO.  Transmit buffers are read from `ram` and receive buffers written in `mem`;
they do not overlap.
-/
import Embarc.DesignWare.DevCommon

namespace Embarc

/-! ### Transfer lists -/

/-- `DEV_SPI_TRANSFER`, as far as the user sets it. -/
structure DevSpiTransfer where
  txBuf : Word
  txOfs : Word
  txLen : Word
  rxBuf : Word
  rxOfs : Word
  rxLen : Word
deriving DecidableEq, Repr

/-- One direction of a transfer: `buf`, `ofs`, `totlen` and `idx` are its `tx_` or its `rx_`
fields, `tot` is `tot_len`. -/
structure SpiSide where
  buf : Word
  ofs : Nat
  totlen : Nat
  idx : Nat
  tot : Nat
deriving DecidableEq, Repr

namespace DevSpiTransfer

/-! `DEV_SPI_XFER_INIT` -/

def txTotlen (x : DevSpiTransfer) : Nat := u32 (x.txLen.toNat + x.txOfs.toNat)

def rxTotlen (x : DevSpiTransfer) : Nat := u32 (x.rxLen.toNat + x.rxOfs.toNat)

/-- `DEV_SPI_XFER_CALC_TOTLEN` -/
def totLen (x : DevSpiTransfer) : Nat :=
  if x.txTotlen > x.rxTotlen then x.txTotlen else x.rxTotlen

def txSide (x : DevSpiTransfer) : SpiSide :=
  { buf := x.txBuf, ofs := x.txOfs.toNat, totlen := x.txTotlen, idx := 0, tot := x.totLen }

def rxSide (x : DevSpiTransfer) : SpiSide :=
  { buf := x.rxBuf, ofs := x.rxOfs.toNat, totlen := x.rxTotlen, idx := 0, tot := x.totLen }

/-- What `dw_spi_chk_xfer_aligned` asks of one transfer. -/
def aligned (alignBytes : Nat) (x : DevSpiTransfer) : Bool :=
  (x.txLen.toNat == 0 ||
    (x.txLen.toNat % alignBytes == 0 && x.txOfs.toNat % alignBytes == 0 &&
      x.txBuf.toNat % alignBytes == 0)) &&
  (x.rxLen.toNat == 0 ||
    (x.rxLen.toNat % alignBytes == 0 && x.rxOfs.toNat % alignBytes == 0 &&
      x.rxBuf.toNat % alignBytes == 0))

end DevSpiTransfer

/-- 0 for aligned, -1 for not aligned. -/
def dwSpiChkXferAligned (xfer : List DevSpiTransfer) (dfs : Nat) : Int :=
  if xfer = [] then -1
  else if dfs > 8 then if xfer.all (·.aligned 2) then 0 else -1
  else 0

structure DwSpiTransfer where
  xferLen : Nat
  txIdx : Nat
  rxIdx : Nat
  nbytes : Nat
  txXfer : List SpiSide
  rxXfer : List SpiSide
  /-- How many transfers the list has.  A pointer with as many left points to the first of them, which
  is `spi_info->xfer`. -/
  count : Nat
deriving DecidableEq, Repr

/-- All zero, as `memset` leaves it. -/
def DwSpiTransfer.cleared : DwSpiTransfer :=
  { xferLen := 0, txIdx := 0, rxIdx := 0, nbytes := 0, txXfer := [], rxXfer := [], count := 0 }

def dwSpiNbytes (dfs : Nat) : Nat := if dfs > 8 then 2 else 1

def dwSpiInitTransfer (xfer : List DevSpiTransfer) (dfs : Nat) : DwSpiTransfer where
  xferLen := u32 (xfer.map (·.totLen)).sum
  txIdx := 0
  rxIdx := 0
  nbytes := dwSpiNbytes dfs
  txXfer := xfer.map (·.txSide)
  rxXfer := xfer.map (·.rxSide)
  count := xfer.length

/-! ### The loops of the writer and the reader -/

/-- Where the frame at `idx` has its place in the buffer. -/
def SpiSide.addr (x : SpiSide) : Option Word :=
  if x.ofs ≤ x.idx ∧ x.idx < x.totlen then some x.buf else none

def SpiSide.advance (nbytes : Nat) (x : SpiSide) : SpiSide :=
  { x with
    buf := if x.ofs ≤ x.idx ∧ x.idx < x.totlen then x.buf + BitVec.ofNat 32 nbytes else x.buf
    idx := u32 (x.idx + nbytes) }

/-- A transfer that is through is left for the next one, once. -/
def spiCursor : List SpiSide → List SpiSide
  | [] => []
  | x :: rest => if x.idx ≥ x.tot then rest else x :: rest

/-- `count` turns of the loop, fewer if the list ends; where each frame belongs, and the pointer
afterwards. -/
def spiWalk (nbytes : Nat) : Nat → List SpiSide → List (Option Word) × List SpiSide
  | 0, xfer => ([], xfer)
  | count + 1, xfer =>
    match spiCursor xfer with
    | [] => ([], [])
    | x :: rest =>
      let (addrs, xfer) := spiWalk nbytes count (x.advance nbytes :: rest)
      (x.addr :: addrs, xfer)

/-- The frame pushed for an address: the byte or half-word there, or the dummy. -/
def txFrame (nbytes : Nat) (ram : Word → Byte) (dummy : Word) : Option Word → Word
  | some a => if nbytes = 1 then (ram a).signExtend 32 else (ram (a + 1) ++ ram a).signExtend 32
  | none => dummy

/-- The frame is stored at its address, if it has one. -/
def rxStore (nbytes : Nat) (mem : Word → Byte) : Option Word × Word → (Word → Byte)
  | (some a, w) =>
    if nbytes = 1 then Function.update mem a (w.setWidth 8)
    else Function.update (Function.update mem a (w.setWidth 8)) (a + 1) ((w >>> 8).setWidth 8)
  | (none, _) => mem

/-! ### The device -/

/-- `DW_SPI_RDY_SND`, `DW_SPI_RDY_RCV`, `DW_SPI_RDY_XFER` -/
inductive SpiCbrtn where
  | snd
  | rcv
  | xfer
deriving DecidableEq, Repr

/-- `DEV_SPI_INFO` and `DW_SPI_CTRL`, with the memory of the buffers. -/
structure SpiDev where
  opnCnt : Nat
  status : Word
  dfs : Nat
  dummy : Word
  /-- `dw_xfer` -/
  xfer : DwSpiTransfer
  /-- The interrupt mask register, and `DW_SPI_GINT_ENABLE` with the interrupt line. -/
  imr : Word
  gint : Bool
  ram : Word → Byte
  mem : Word → Byte
  /-- The completion callbacks made so far. -/
  calls : List SpiCbrtn

/-- `room` is what `dw_spi_get_txavail` reports. -/
def dwSpiTxMax (xfer : DwSpiTransfer) (room : Nat) : Nat :=
  min ((xfer.xferLen - xfer.txIdx) / xfer.nbytes) room

/-- `room` is what `dw_spi_get_rxavail` reports. -/
def dwSpiRxMax (xfer : DwSpiTransfer) (room : Nat) : Nat :=
  min ((xfer.xferLen - xfer.rxIdx) / xfer.nbytes) room

/-- 1 for end, 0 for not end. -/
def dwSpiXferEnd (xfer : DwSpiTransfer) : Bool :=
  xfer.txIdx ≥ xfer.xferLen && xfer.rxIdx ≥ xfer.xferLen

/-- The frames pushed, and the device after. -/
def dwSpiWriter (s : SpiDev) (room : Nat) : List Word × SpiDev :=
  let (addrs, xfer) := spiWalk s.xfer.nbytes (dwSpiTxMax s.xfer room) s.xfer.txXfer
  (addrs.map (txFrame s.xfer.nbytes s.ram s.dummy),
    { s with xfer := { s.xfer with
        txXfer := xfer, txIdx := u32 (s.xfer.txIdx + s.xfer.nbytes * addrs.length) } })

/-- The number of frames taken out of the receive FIFO, and the device after. -/
def dwSpiReader (s : SpiDev) (frames : List Word) : Nat × SpiDev :=
  let (addrs, xfer) := spiWalk s.xfer.nbytes (dwSpiRxMax s.xfer frames.length) s.xfer.rxXfer
  (addrs.length,
    { s with
      xfer := { s.xfer with
        rxXfer := xfer, rxIdx := u32 (s.xfer.rxIdx + s.xfer.nbytes * addrs.length) }
      mem := (addrs.zip frames).foldl (rxStore s.xfer.nbytes) s.mem })

/-! ### Interrupts on and off -/

def devInXfer : Word := 0x08#32
def dwSpiInXfer : Word := 0x0E#32
def dwSpiInTx : Word := 0x0A#32
def dwSpiInRx : Word := 0x0C#32

def dwSpiImrTxeim : Word := 0x01#32
/-- Transmit overflow, receive overflow and receive underflow. -/
def dwSpiImrErr : Word := 0x0E#32
def dwSpiImrXfer : Word := 0x1F#32

/-- The transfer state a callback routine stands for. -/
def SpiCbrtn.state : SpiCbrtn → Word
  | .snd => dwSpiInTx
  | .rcv => dwSpiInRx
  | .xfer => dwSpiInXfer

def dwSpiDisCbr (s : SpiDev) (cbrtn : SpiCbrtn) : Int × SpiDev :=
  if s.status &&& dwSpiInXfer ≠ 0 ∧ s.status &&& dwSpiInXfer ≠ cbrtn.state then (eCtx, s)
  else
    (eOk, { s with
      status := if s.status &&& dwSpiInXfer ≠ 0 then s.status &&& ~~~cbrtn.state else s.status
      imr := s.imr &&& ~~~dwSpiImrXfer
      gint := false })

def dwSpiEnaCbr (s : SpiDev) (cbrtn : SpiCbrtn) : Int × SpiDev :=
  if s.status &&& dwSpiInXfer = 0 then
    (eOk, { s with
      status := s.status ||| cbrtn.state, imr := s.imr ||| dwSpiImrXfer, gint := true })
  else (eCtx, s)

/-- Only the callback routine of the transfer in progress is disabled by the first three calls;
the results are ignored. -/
def dwSpiDisableInterrupt (s : SpiDev) : SpiDev :=
  let s := (dwSpiDisCbr s .snd).2
  let s := (dwSpiDisCbr s .rcv).2
  let s := (dwSpiDisCbr s .xfer).2
  { s with
    imr := s.imr &&& ~~~dwSpiImrXfer, status := s.status &&& ~~~dwSpiInXfer, gint := false }

/-! ### Commands -/

/-- The commands that start a transfer; `param` is the address a parameter is passed at. -/
inductive SpiCmd where
  | setTxint (val : Word)
  | setRxint (val : Word)
  | setTxintBuf (param buf len : Word)
  | setRxintBuf (param buf len : Word)
  | transferInt (param : Word) (xfer : List DevSpiTransfer)

/-- `spi_info->xfer` is overwritten under a pointer to it, all but its `tot_len`. -/
def DwSpiTransfer.overwritten (dw : DwSpiTransfer) (new : SpiSide) : List SpiSide → List SpiSide
  | [] => []
  | old :: rest =>
    if rest.length + 1 = dw.count then [{ new with tot := old.tot }] else old :: rest

/-- `SPI_CMD_SET_TXINT_BUF` and `SPI_CMD_SET_RXINT_BUF`, which set the one transfer `xfer`.  It is
written to `spi_info->xfer` before it is checked. -/
def dwSpiSetIntBuf (s : SpiDev) (param : Word) (xfer : DevSpiTransfer) : Int × SpiDev :=
  if param.toNat % 4 ≠ 0 then (ePar, s)
  else if s.status &&& devInXfer ≠ 0 then (eCtx, s)
  else if param ≠ 0 then
    if dwSpiChkXferAligned [xfer] s.dfs ≠ 0 then
      (ePar, { s with xfer := { s.xfer with
        txXfer := s.xfer.overwritten xfer.txSide s.xfer.txXfer
        rxXfer := s.xfer.overwritten xfer.rxSide s.xfer.rxXfer } })
    else (eOk, { s with xfer := dwSpiInitTransfer [xfer] s.dfs })
  else (eOk, { s with xfer := dwSpiInitTransfer [] s.dfs })

/-- `SPI_CMD_TRANSFER_INT` -/
def dwSpiTransferInt (s : SpiDev) (param : Word) (xfer : List DevSpiTransfer) : Int × SpiDev :=
  if param.toNat % 4 ≠ 0 then (ePar, s)
  else if param ≠ 0 then
    if s.status &&& devInXfer ≠ 0 then (eCtx, s)
    else if dwSpiChkXferAligned xfer s.dfs ≠ 0 then (ePar, s)
    else dwSpiEnaCbr { s with xfer := dwSpiInitTransfer xfer s.dfs } .xfer
  else dwSpiDisCbr s .xfer

def dwSpiControl (s : SpiDev) (cmd : SpiCmd) : Int × SpiDev :=
  if s.opnCnt = 0 then (eClsed, s)
  else if s.status &&& devEnabled = 0 then (eSys, s)
  else
    match cmd with
    | .setTxint val => if val = 0 then dwSpiDisCbr s .snd else dwSpiEnaCbr s .snd
    | .setRxint val => if val = 0 then dwSpiDisCbr s .rcv else dwSpiEnaCbr s .rcv
    | .setTxintBuf param buf len =>
      dwSpiSetIntBuf s param
        { txBuf := buf, txOfs := 0, txLen := len, rxBuf := 0, rxOfs := len, rxLen := 0 }
    | .setRxintBuf param buf len =>
      dwSpiSetIntBuf s param
        { txBuf := 0, txOfs := len, txLen := 0, rxBuf := buf, rxOfs := 0, rxLen := len }
    | .transferInt param xfer => dwSpiTransferInt s param xfer

/-- `SPI_CMD_TRANSFER_POLLING` up to the loop of `dw_spi_poll_transfer`. -/
def dwSpiTransferPolling (s : SpiDev) (param : Word) (xfer : List DevSpiTransfer) : Int × SpiDev :=
  if s.opnCnt = 0 then (eClsed, s)
  else if s.status &&& devEnabled = 0 then (eSys, s)
  else if param.toNat % 4 ≠ 0 then (ePar, s)
  else if s.status &&& devInXfer ≠ 0 then (eCtx, s)
  else if param ≠ 0 then
    if dwSpiChkXferAligned xfer s.dfs ≠ 0 then (ePar, s)
    else
      (eOk, { s with xfer := dwSpiInitTransfer xfer s.dfs, status := s.status ||| devInXfer })
  else (ePar, s)

/-! ### The interrupt routine

It looks at the hardware twice, in the reader and then in the writer, and the hardware goes on
in between; so it comes in two parts. -/

/-- The completion callbacks, as what they do to the device; `none` is the null pointer. -/
structure SpiCbs where
  txCb : Option (SpiDev → SpiDev)
  rxCb : Option (SpiDev → SpiDev)
  xferCb : Option (SpiDev → SpiDev)

def SpiDev.callback (s : SpiDev) (cbrtn : SpiCbrtn) (cb : Option (SpiDev → SpiDev)) : SpiDev :=
  cb.elim s fun f => f { s with calls := s.calls ++ [cbrtn] }

inductive SpiStop where
  /-- `dw_spi_reader` divides by `nbytes`, which the error branch has just cleared. -/
  | divZero
deriving DecidableEq, Repr

/-- Up to and with the reader.  The number is how many frames were taken, if the routine goes
on. -/
def dwSpiIsrRead (s : SpiDev) (isrStatus : Word) (frames : List Word) :
    Except SpiStop (Option Nat × SpiDev) :=
  if isrStatus = 0 then .ok (none, s)
  else if s.xfer.xferLen = 0 then .ok (none, dwSpiDisableInterrupt s)
  else if hasFlag isrStatus dwSpiImrErr then .error .divZero
  else
    let (count, s) := dwSpiReader s frames
    .ok (some count, s)

/-- The end of a transfer. -/
def dwSpiIsrEnd (cbs : SpiCbs) (s : SpiDev) : SpiDev :=
  let s :=
    if s.status &&& dwSpiInXfer = dwSpiInTx then (dwSpiDisCbr s .snd).2.callback .snd cbs.txCb
    else if s.status &&& dwSpiInXfer = dwSpiInRx then (dwSpiDisCbr s .rcv).2.callback .rcv cbs.rxCb
    else if s.status &&& dwSpiInXfer = dwSpiInXfer then
      (dwSpiDisCbr s .xfer).2.callback .xfer cbs.xferCb
    else dwSpiDisableInterrupt s
  { s with xfer := .cleared }

/-- From the writer on: the frames pushed, and the device after. -/
def dwSpiIsrWrite (cbs : SpiCbs) (s : SpiDev) (isrStatus : Word) (room : Nat) :
    List Word × SpiDev :=
  let (frames, s) := if hasFlag isrStatus dwSpiImrTxeim then dwSpiWriter s room else ([], s)
  (frames, if dwSpiXferEnd s.xfer then dwSpiIsrEnd cbs s else s)

end Embarc
