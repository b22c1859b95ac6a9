/-
The radio behind SPI: `device/peripheral/802_15_4/mrf24j40/mrf24j40.c`, as far as packets and keys
go.

A message begins with the address, of a short register in one byte or of the long address space in
two, and with a bit that says whether the bytes behind it are written or read.  Bytes of the long
address space are written and read one after the other from the address on.
-/
import Mathlib.Logic.Function.Basic
import Embarc.Arc.Types

namespace Embarc

structure Mrf24j40Chip where
  short : Byte → Byte
  long : Nat → Byte

/-- What a message does, and the `n` bytes that are read behind it.  A byte that follows the value
of a short register is not looked at. -/
def Mrf24j40Chip.transfer (r : Mrf24j40Chip) (n : Nat) : List Byte → List Byte × Mrf24j40Chip
  | [] => ([], r)
  | b₀ :: msg =>
    if b₀.getLsbD 7 then
      let addr := (b₀ &&& 0x7f).toNat * 8 + (msg.headD 0 >>> 5).toNat
      let data := msg.tail
      if (msg.headD 0).getLsbD 4 then
        ([], { r with long := fun a =>
          if addr ≤ a ∧ a < addr + data.length then data.getD (a - addr) 0 else r.long a })
      else ((List.range n).map fun i => r.long (addr + i), r)
    else
      let addr := b₀ >>> 1
      if b₀.getLsbD 0 then ([], { r with short := Function.update r.short addr (msg.headD 0) })
      else (List.replicate n (r.short addr), r)

/-- The SPI bus: whether there is one, and which of its transactions go through. -/
structure MrfBus where
  dev : Bool
  ok : Nat → Bool

def MrfBus.errorFree : MrfBus := ⟨true, fun _ => true⟩

/-- `MRF24J40_DEF`, with the radio, the messages sent to it, and where LQI and RSSI are reported. -/
structure Mrf24j40 where
  chip : Mrf24j40Chip
  /-- `rx_buf`, and behind its 144 bytes `tx_buf` -/
  buf : Nat → Byte
  sent : List (List Byte)
  lqi : Byte
  rssi : Byte

/-- A function that returns an error code or goes on. -/
abbrev MrfM := EStateM Int Mrf24j40

/-- `MRF_CHECK_EXP` -/
def mrfCheck (c : Bool) (ercd : Int) : MrfM Unit := if c then pure () else throw ercd

/-- `MRF_CHECK_EXP(call == E_OK, ercd)` -/
def mrfCall {α : Type} (call : MrfM α) (ercd : Int) : MrfM α := tryCatch call fun _ => throw ercd

variable (bus : MrfBus)

/-- The radio is selected, the message sent with `n` bytes read behind it, and deselected. -/
def mrfTransfer (msg : List Byte) (n : Nat) : MrfM (List Byte) := fun s =>
  let s' := { s with sent := s.sent ++ [msg] }
  if bus.ok s.sent.length then
    let (answer, chip) := s.chip.transfer n msg
    .ok answer { s' with chip }
  else .error eSys s'

def spiCheckObj : MrfM Unit := mrfCheck bus.dev eObj

def mrfLongHeader (addr : BitVec 16) (write : Bool) : List Byte :=
  [((addr >>> 3 &&& 0x7f) ||| 0x80).setWidth 8,
    ((addr <<< 5 &&& 0xe0) ||| (if write then 0x10 else 0)).setWidth 8]

def mrf24j40ReadLongCtrlReg (addr : BitVec 16) : MrfM Byte := do
  mrfCall (spiCheckObj bus) eObj
  let answer ← mrfTransfer bus (mrfLongHeader addr false) 1
  return answer.headD 0

def mrf24j40ReadShortCtrlReg (addr : Byte) : MrfM Byte := do
  mrfCall (spiCheckObj bus) eObj
  let answer ← mrfTransfer bus [addr <<< 1 &&& 0x7e] 1
  return answer.headD 0

def mrf24j40WriteShortCtrlReg (addr value : Byte) : MrfM Unit := do
  mrfCall (spiCheckObj bus) eObj
  let _ ← mrfTransfer bus [(addr <<< 1 &&& 0x7e) ||| 1, value, 0] 0

/-! ### Keys -/

/-- Every byte is the first byte of the key. -/
def mrf24j40SetKey (addr : BitVec 16) (key : Nat → Byte) : MrfM Unit := do
  let _ ← mrfTransfer bus (mrfLongHeader addr true ++ (List.range 16).map fun _ => key 0) 0

def mrf24j40SecktxnFifo : BitVec 16 := 0x280
def mrf24j40SeckrxFifo : BitVec 16 := 0x2b0

def mrf24j40SetTxKey (key : Option (Nat → Byte)) : MrfM Unit := do
  match key with
  | none => throw ePar
  | some key =>
    mrfCall (spiCheckObj bus) eObj
    mrfCall (mrf24j40SetKey bus mrf24j40SecktxnFifo key) eSys

def mrf24j40SetRxKey (key : Option (Nat → Byte)) : MrfM Unit := do
  match key with
  | none => throw ePar
  | some key =>
    mrfCall (spiCheckObj bus) eObj
    mrfCall (mrf24j40SetKey bus mrf24j40SeckrxFifo key) eSys

/-! ### Packets -/

def mrf24j40Txncon : Byte := 0x1b
def mrf24j40TxnFifo : BitVec 16 := 0
def mrf24j40Txnackreq : Byte := 4
def mrf24j40Txnsecen : Byte := 2
def mrf24j40Txntrig : Byte := 1

def ieeeHasSec (x : Byte) : Bool := x >>> 3 &&& 1 != 0
def ieeeWantsAck (x : Byte) : Bool := x >>> 5 &&& 1 != 0

def mrf24j40TxpktFrameWrite (addr : BitVec 16) (frame : Nat → Byte) (hdrLen frameLen : Byte) :
    MrfM Unit := do
  let _ ← mrfTransfer bus (mrfLongHeader addr true ++ hdrLen :: frameLen ::
    (List.range frameLen.toNat).map frame) 0

/-- The packet is taken from `rx_buf`. -/
def mrf24j40Txpkt : MrfM Unit := do
  let s ← get
  let frame := fun i => s.buf (2 + i)
  mrfCall (spiCheckObj bus) eObj
  let retval ← mrfCall (mrf24j40ReadShortCtrlReg bus mrf24j40Txncon) eSys
  let retval := retval &&& ~~~mrf24j40Txnsecen
  let retval := if ieeeHasSec (frame 0) then retval ||| mrf24j40Txnsecen else retval
  let retval := if ieeeWantsAck (frame 0) then retval ||| mrf24j40Txnackreq else retval
  mrfCall (mrf24j40TxpktFrameWrite bus mrf24j40TxnFifo frame (s.buf 0) (s.buf 1)) eSys
  mrfCall (mrf24j40WriteShortCtrlReg bus mrf24j40Txncon (retval ||| mrf24j40Txntrig)) eSys

def mrf24j40Bbreg1 : Byte := 0x39
def mrf24j40Rxdecinv : Byte := 4
def mrf24j40Rxflush : Byte := 0x0d
def mrf24j40RxFifo : BitVec 16 := 0x300
def mrf24j40RxFifoSize : Nat := 144

def mrf24j40RxfifoFlush : MrfM Unit := do
  let retval ← mrfCall (mrf24j40ReadShortCtrlReg bus mrf24j40Rxflush) eSys
  mrfCall (mrf24j40WriteShortCtrlReg bus mrf24j40Rxflush (retval ||| 1)) eSys

/-- The bytes go to `rx_buf[1]` and on. -/
def mrf24j40RxpktFrameWrite (length : Byte) : MrfM Unit := do
  let answer ← mrfTransfer bus (mrfLongHeader (mrf24j40RxFifo + 1) false) length.toNat
  modify fun s => { s with buf := fun i =>
    if 1 ≤ i ∧ i < 1 + answer.length then answer.getD (i - 1) 0 else s.buf i }

/-- `lqi` and `rssi` say whether a place is given for each. -/
def mrf24j40Rxpkt (lqi rssi : Bool) : MrfM Unit := do
  mrfCall (spiCheckObj bus) eObj
  let retval ← mrfCall (mrf24j40ReadShortCtrlReg bus mrf24j40Bbreg1) eSys
  mrfCall (mrf24j40WriteShortCtrlReg bus mrf24j40Bbreg1 (retval ||| mrf24j40Rxdecinv)) eSys
  let len ← mrfCall (mrf24j40ReadLongCtrlReg bus mrf24j40RxFifo) eSys
  modify fun s => { s with buf := Function.update s.buf 0 len }
  mrfCheck (len.toNat + 3 ≤ mrf24j40RxFifoSize) ePar
  mrfCall (mrf24j40RxpktFrameWrite bus (len + 2)) eSys
  if lqi then modify fun s => { s with lqi := s.buf (len.toNat + 1) }
  if rssi then modify fun s => { s with rssi := s.buf (len.toNat + 2) }
  mrfCall (mrf24j40RxfifoFlush bus) eSys
  let retval ← mrfCall (mrf24j40ReadShortCtrlReg bus mrf24j40Bbreg1) eSys
  mrfCall (mrf24j40WriteShortCtrlReg bus mrf24j40Bbreg1 (retval &&& ~~~mrf24j40Rxdecinv)) eSys

end Embarc
