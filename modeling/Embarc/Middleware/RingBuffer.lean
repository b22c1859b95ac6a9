/-
The ring buffer of `ringbuffer.c`.

Indices are reduced when they are used, not when they are advanced, so an index may be as
large as the size; how full the buffer is, a counter says.  A pointer that may be null is an
`Option`.
-/
import Embarc.Arc.Types

namespace Embarc

/-- `RINGBUFFER`, of bytes (`rb_buftype`); `avail` is how many items there is room for. -/
structure RingBuffer where
  buf : Nat → Byte
  wridx : Nat
  rdidx : Nat
  avail : Nat
  size : Nat

def rbInit (rb : Option RingBuffer) (buf : Option (Nat → Byte)) (itemCnt : Word) :
    Int × Option RingBuffer :=
  match rb, buf with
  | some _, some buf =>
    if itemCnt = 0 then (-1, rb)
    else (0, some { buf, size := itemCnt.toNat, avail := itemCnt.toNat, wridx := 0, rdidx := 0 })
  | _, _ => (-1, rb)

def rbIsfull : Option RingBuffer → Int
  | none => -1
  | some rb => if rb.avail = 0 then 1 else 0

def rbIsempty : Option RingBuffer → Int
  | none => -1
  | some rb => if rb.avail = rb.size then 1 else 0

/-- The item goes where the reduced write index points. -/
def RingBuffer.put (rb : RingBuffer) (item : Byte) : RingBuffer :=
  let wridx := rb.wridx % rb.size
  { rb with
    buf := Function.update rb.buf wridx item
    wridx := u32 (wridx + 1)
    avail := rb.avail - 1 }

/-- What the reduced read index points to. -/
def RingBuffer.head (rb : RingBuffer) : Byte := rb.buf (rb.rdidx % rb.size)

def RingBuffer.skip (rb : RingBuffer) : RingBuffer :=
  { rb with rdidx := u32 (rb.rdidx % rb.size + 1), avail := u32 (rb.avail + 1) }

def rbAdd (rb : Option RingBuffer) (item : Byte) : Int × Option RingBuffer :=
  let ercd := rbIsfull rb
  if ercd = -1 then (-1, rb)
  else if ercd = 1 then (-2, rb)
  else if ercd = 0 then (0, rb.map (·.put item))
  else (ercd, rb)

/-- The item is stored through a pointer, unless that is null. -/
def rbRemove (rb : Option RingBuffer) (item : Bool) : Int × Option Byte × Option RingBuffer :=
  let ercd := rbIsempty rb
  if ercd = -1 then (-1, none, rb)
  else if ercd = 1 then (-2, none, rb)
  else if ercd = 0 then
    if item then (0, rb.map (·.head), rb.map (·.skip)) else (-3, none, rb)
  else (ercd, none, rb)

/-- The items are those the count covers. -/
def rbPush (rb : Option RingBuffer) : List Byte → Nat × Option RingBuffer
  | [] => (0, rb)
  | item :: items =>
    let (ercd, rb) := rbAdd rb item
    if ercd = 0 then
      let (wricnt, rb) := rbPush rb items
      (wricnt + 1, rb)
    else (0, rb)

/-- The items that are stored, and the ring buffer after; their number is the result. -/
def rbPop (rb : Option RingBuffer) : Nat → List Byte × Option RingBuffer
  | 0 => ([], rb)
  | cnt + 1 =>
    match rbRemove rb true with
    | (0, some item, rb) =>
      let (items, rb) := rbPop rb cnt
      (item :: items, rb)
    | (_, _, rb) => ([], rb)

/-! ### Calls on an initialised ring buffer -/

inductive RbCall
  | add (item : Byte)
  | remove (item : Bool)
  | push (items : List Byte)
  | pop (cnt : Nat)
  | isfull
  | isempty

/-- What a call returns and the items it stores for its caller. -/
structure RbAnswer where
  ret : Int
  items : List Byte
  deriving DecidableEq

def rbCall (rb : Option RingBuffer) : RbCall → RbAnswer × Option RingBuffer
  | .add item =>
    let (ercd, rb) := rbAdd rb item
    (⟨ercd, []⟩, rb)
  | .remove item =>
    let (ercd, item, rb) := rbRemove rb item
    (⟨ercd, item.toList⟩, rb)
  | .push items =>
    let (wricnt, rb) := rbPush rb items
    (⟨wricnt, []⟩, rb)
  | .pop cnt =>
    let (items, rb) := rbPop rb cnt
    (⟨items.length, items⟩, rb)
  | .isfull => (⟨rbIsfull rb, []⟩, rb)
  | .isempty => (⟨rbIsempty rb, []⟩, rb)

end Embarc
