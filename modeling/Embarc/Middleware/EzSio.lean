/-
Buffered serial output and input: `ez_sio.c`.

Output goes to the UART at once while nothing waits, and into the transmit ring buffer
otherwise; the transmit callback moves it on.  Input is moved from the UART into the receive
ring buffer by the receive callback, through a local buffer of `BUFSZ_LOCAL` bytes.

The UART is what its driver shows of it: the room it reports at each query, the bytes
written to it, and a receive FIFO into which the line delivers.  How often a callback goes
round depends on its ring buffer only, which is where the bound on its loop comes from.
-/
import Embarc.Lib.Run
import Embarc.Middleware.RingBuffer

namespace Embarc

def bufszLocal : Nat := 32

/-- `EZ_SIO`; the ring buffers are reached by address, which is never null. -/
structure EzSio where
  sndRb : Option RingBuffer
  rcvRb : Option RingBuffer

/-- The serial object, its UART, and what has passed through them. -/
structure SioState where
  sio : EzSio
  /-- The interrupts that are enabled. -/
  txInt : Bool
  rxInt : Bool
  /-- What was handed to the UART. -/
  sent : List Byte
  /-- What waits in the receive FIFO, and all that the line delivered. -/
  fifo : List Byte
  delivered : List Byte
  /-- What `ez_sio_write` reported as accepted, and what `ez_sio_read` returned. -/
  accepted : List Byte
  taken : List Byte

namespace SioState

def uartWrite (s : SioState) (data : List Byte) : SioState := { s with sent := s.sent ++ data }

/-- The line delivers into the receive FIFO. -/
def arrive (s : SioState) (data : List Byte) : SioState :=
  { s with fifo := s.fifo ++ data, delivered := s.delivered ++ data }

def withSndRb (s : SioState) (rb : Option RingBuffer) : SioState :=
  { s with sio := { s.sio with sndRb := rb } }

def withRcvRb (s : SioState) (rb : Option RingBuffer) : SioState :=
  { s with sio := { s.sio with rcvRb := rb } }

end SioState

/-- Both results of `rb_init` are ignored.  `uart` says whether the UART could be opened, and
`sio` and `ptr` are the memory `malloc` found, as it was.  The buffers are apart, which takes
that the sum of their sizes fits a word. -/
def ezSioOpen (uart : Bool) (sio : Option (RingBuffer × RingBuffer)) (ptr : Option (Nat → Byte))
    (txBufsz rxBufsz : Word) : Option SioState :=
  let bufsz := txBufsz + rxBufsz
  if bufsz = 0 then none
  else if !uart then none
  else
    match sio, ptr with
    | some (sndRb, rcvRb), some ptr =>
      some {
        sio := {
          sndRb := (rbInit (some sndRb) (some ptr) txBufsz).2
          rcvRb := (rbInit (some rcvRb) (some fun i => ptr (txBufsz.toNat + i)) rxBufsz).2 }
        txInt := false, rxInt := true
        sent := [], fifo := [], delivered := [], accepted := [], taken := [] }
    | _, _ => none

/-- How much of what is available goes through the local buffer in one round. -/
def localCnt (avail : Nat) : Nat := if avail < bufszLocal then avail else bufszLocal

/-- One round of the loop of `sio_tx_callback`, and whether another query is made. -/
def sioTxRound (s : SioState) (wrAvail : Nat) : Bool × SioState :=
  if wrAvail > 0 then
    let wrCnt := localCnt wrAvail
    let (rbbuf, rb) := rbPop s.sio.sndRb wrCnt
    let s := s.withSndRb rb
    (rbbuf.length = wrCnt,
      if rbbuf.length > 0 then s.uartWrite rbbuf else { s with txInt := false })
  else (false, s)

/-- How many items wait to be sent. -/
def SioState.sndCount (s : SioState) : Nat := s.sio.sndRb.elim 0 fun rb => rb.size - rb.avail

/-- `rooms` is what the queries report.  Each round but the last takes an item out of the ring
buffer. -/
def sioTxCallback (s : SioState) (rooms : Nat → Word) : SioState :=
  Trace.loop (fun s room => sioTxRound s room.toNat) s rooms (s.sndCount + 1)

/-- One round of the loop of `sio_rx_callback`, and whether another query is made. -/
def sioRxRound (s : SioState) : Bool × SioState :=
  let rdAvail := s.fifo.length
  if rdAvail > 0 then
    let rdCnt := localCnt rdAvail
    if rbIsfull s.sio.rcvRb = 0 then
      let (pushedCnt, rb) := rbPush s.sio.rcvRb (s.fifo.take rdCnt)
      (pushedCnt = rdCnt, { s.withRcvRb rb with fifo := s.fifo.drop rdCnt })
    else (0 = rdCnt, s)
  else (false, s)

/-- How many received items there is room for. -/
def SioState.rcvRoom (s : SioState) : Nat := s.sio.rcvRb.elim 0 (·.avail)

/-- `arrivals` is what the line delivers before each query.  Each round but the last puts an item
into the ring buffer. -/
def sioRxCallback (s : SioState) (arrivals : Nat → List Byte) : SioState :=
  Trace.loop (fun s data => sioRxRound (s.arrive data)) s arrivals (s.rcvRoom + 1)

/-- The result, the items stored for the caller, and the state after. -/
def ezSioRead (s : SioState) (cnt : Nat) : Int × List Byte × SioState :=
  let (items, rb) := rbPop s.sio.rcvRb cnt
  (i32 items.length, items, s.withRcvRb rb)

/-- What is written past the ring buffer while it is empty: how much, how much is left, and the
state after. -/
def ezSioWriteDirect (s : SioState) (buf : List Byte) (room : Word) : Nat × Nat × SioState :=
  let cnt := buf.length
  if rbIsempty s.sio.sndRb = 1 ∧ cnt > 0 then
    -- the room is read into a signed variable, and compared with `cnt` as an unsigned one
    if room.toInt > 0 then
      let wrCnt := if room.toNat > cnt then cnt else room.toNat
      (wrCnt, if room.toNat > cnt then 0 else cnt - room.toNat, s.uartWrite (buf.take wrCnt))
    else (0, cnt, s)
  else (0, cnt, s)

/-- `buf` is the data its count covers, and `room` what the query reports if it is made. -/
def ezSioWrite (s : SioState) (buf : List Byte) (room : Word) : Int × SioState :=
  let (wrCnt, cnt, s) := ezSioWriteDirect s buf room
  if cnt > 0 then
    let (pushed, rb) := rbPush s.sio.sndRb ((buf.drop wrCnt).take cnt)
    (i32 (wrCnt + pushed), { s.withSndRb rb with txInt := true })
  else (i32 wrCnt, s)

/-! ### Everything that can happen to an open serial object -/

inductive SioEvent
  | write (buf : List Byte) (room : Word)
  | txReady (rooms : Nat → Word)
  | arrive (data : List Byte)
  | rxReady (arrivals : Nat → List Byte)
  | read (cnt : Nat)

/-- What a caller is told was accepted or returned is the count in the result. -/
def sioStep (s : SioState) : SioEvent → SioState
  | .write buf room =>
    let (ret, s) := ezSioWrite s buf room
    { s with accepted := s.accepted ++ buf.take ret.toNat }
  | .txReady rooms => sioTxCallback s rooms
  | .arrive data => s.arrive data
  | .rxReady arrivals => sioRxCallback s arrivals
  | .read cnt =>
    let (ret, items, s) := ezSioRead s cnt
    { s with taken := s.taken ++ items.take ret.toNat }

end Embarc
