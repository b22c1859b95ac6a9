/-
The channel table of the uDMA driver: `arc_udma.c`.

A channel is owned through a channel object, which the application allocates.  The driver keeps
the owner of each channel in `dma_chns`, and the object keeps the number of its channel.  Objects
are named by their address, `0` being the null pointer; what is at an address before
`dmac_init_channel` is arbitrary.

What is written to the controller does not come back into the table and is left out, except that
for version 1 of the controller a start is refused when the descriptor is linked; whether it is
linked is an argument.
-/
import Embarc.Arc.Types
import Embarc.Lib.Run

namespace Embarc

/-- `dma_status_t` -/
inductive DmaStatus where
  | idle
  | busy
  | error
  | stop
deriving DecidableEq, Repr

/-- `dma_channel_t` -/
structure DmaChannel where
  channel : Word
  priority : BitVec 16
  /-- `int_enable` is `DMA_INT_ENABLE`. -/
  intEnable : Bool
  source : Word
  desc : Word
  status : DmaStatus
  callback : Word
deriving DecidableEq, Repr

/-- What the header configures: `DMA_ALL_CHANNEL_NUM`, `DMA_REGISTER_CHANNEL_NUM` and
`CORE_DMAC_INTERNAL_VERSION`.  Channel numbers are of type `int32_t`. -/
structure UdmaBuild where
  channels : Nat
  registers : Nat
  version : Nat
  channels_lt : channels < 2 ^ 31

/-- `g_dmac->dma_chns`, and the channel objects. -/
structure Dmac (b : UdmaBuild) where
  chns : Fin b.channels → Word
  objs : Word → DmaChannel

variable {b : UdmaBuild}

namespace Dmac

/-- Slot `i` belongs to the object at `c`. -/
def Holds (s : Dmac b) (i : Fin b.channels) (c : Word) : Prop := c ≠ 0 ∧ s.chns i = c

instance (s : Dmac b) (i : Fin b.channels) (c : Word) : Decidable (s.Holds i c) :=
  inferInstanceAs (Decidable (_ ∧ _))

/-- The object at `c` is in no slot. -/
def Absent (s : Dmac b) (c : Word) : Prop := ∀ i, s.chns i ≠ c

instance (s : Dmac b) (c : Word) : Decidable (s.Absent c) :=
  inferInstanceAs (Decidable (∀ i, s.chns i ≠ c))

def modify (s : Dmac b) (chn : Word) (f : DmaChannel → DmaChannel) : Dmac b :=
  { s with objs := Function.update s.objs chn (f (s.objs chn)) }

end Dmac

def dmaChnAny : Word := -1
def dmaChnInvalid : Word := -2
def dmaReqSoft : Word := 0

def dmacInitChannel (s : Dmac b) (dmaChn : Word) : Int × Dmac b :=
  if dmaChn = 0 then (-1, s)
  else
    (0, s.modify dmaChn fun c => { c with
      desc := 0, source := dmaReqSoft, callback := 0, status := .idle, channel := dmaChnInvalid })

def dmacConfigChannel (s : Dmac b) (dmaChn desc : Word) : Int × Dmac b :=
  if dmaChn = 0 then (-1, s)
  else (0, s.modify dmaChn fun c => { c with desc })

def dmaClaimChannel (s : Dmac b) (channel : Fin b.channels) (dmaChn source : Word) : Dmac b :=
  let s := { s with chns := Function.update s.chns channel dmaChn }
  s.modify dmaChn fun c => { c with
    source, callback := 0, status := .idle, channel := BitVec.ofNat 32 channel }

/-- The number of the channel, or `DMA_CHN_INVALID`. -/
def dmacReserveChannel (s : Dmac b) (channel dmaChn source : Word) : Int × Dmac b :=
  if dmaChn = 0 then (dmaChnInvalid.toInt, s)
  else if channel = dmaChnAny then
    match (List.finRange b.channels).find? fun i => s.chns i = 0 with
    | some i => (i, dmaClaimChannel s i dmaChn source)
    | none => (dmaChnInvalid.toInt, s)
  else if h : channel.toNat < b.channels then
    if s.chns ⟨channel.toNat, h⟩ = 0 then
      (channel.toInt, dmaClaimChannel s ⟨channel.toNat, h⟩ dmaChn source)
    else (dmaChnInvalid.toInt, s)
  else (dmaChnInvalid.toInt, s)

/-- What the functions below check: the object, its descriptor, and the range of its channel. -/
def Dmac.usable (s : Dmac b) (dmaChn : Word) : Bool :=
  dmaChn ≠ 0 && (s.objs dmaChn).desc ≠ 0 && (s.objs dmaChn).channel.toNat < b.channels

/-- `DMA_CHECK_REGISTER` -/
def UdmaBuild.checkRegister (b : UdmaBuild) (channel : Word) : Bool :=
  channel.toNat ≥ b.channels - b.registers

def dmacValidChannel (b : UdmaBuild) (channel : Word) (linked : Bool) : Int :=
  if b.version = 1 ∧ b.checkRegister channel ∧ linked then -1 else 0

def dmacStartChannel (s : Dmac b) (dmaChn callback priority : Word) (linked : Bool) :
    Int × Dmac b :=
  if !s.usable dmaChn then (-1, s)
  else if (s.objs dmaChn).status = .busy then (-1, s)
  else if dmacValidChannel b (s.objs dmaChn).channel linked ≠ 0 then (-2, s)
  else
    (0, s.modify dmaChn fun c => { c with
      callback, priority := priority.setWidth 16, intEnable := callback ≠ 0, status := .busy })

def dmacStopChannel (s : Dmac b) (dmaChn : Word) : Int × Dmac b :=
  if !s.usable dmaChn then (-1, s)
  else
    (0, s.modify dmaChn fun c => { c with
      status := if c.status = .busy then .stop else c.status })

def dmacClearChannel (s : Dmac b) (dmaChn : Word) : Int × Dmac b :=
  if !s.usable dmaChn then (-1, s)
  else (0, s.modify dmaChn fun c => { c with status := .idle })

def dmacReleaseChannel (s : Dmac b) (dmaChn : Word) : Int × Dmac b :=
  if dmaChn = 0 then (-1, s)
  else if (s.objs dmaChn).desc = 0 then (-1, s)
  else if h : (s.objs dmaChn).channel.toNat < b.channels then
    let s := { s with chns := Function.update s.chns ⟨(s.objs dmaChn).channel.toNat, h⟩ 0 }
    (0, s.modify dmaChn fun c => { c with channel := dmaChnInvalid })
  else (-1, s)

inductive UdmaStop where
  /-- The handler of an interrupt finds no object in the slot. -/
  | nullChannel
deriving DecidableEq, Repr

/-- `dmac_interrupt_completed_channel` and `_dmac_interrupt_error_channel`, which differ in the
status they leave.  What the callback does are the calls that come next. -/
def dmacInterruptChannel (s : Dmac b) (channel : Nat) (status : DmaStatus) :
    Except UdmaStop (Dmac b) :=
  if h : channel < b.channels then
    if s.chns ⟨channel, h⟩ = 0 then .error .nullChannel
    else .ok (s.modify (s.chns ⟨channel, h⟩) fun c => { c with status })
  else .ok s

/-! ### The driver over a run -/

inductive UdmaOp where
  | init (dmaChn : Word)
  | config (dmaChn desc : Word)
  | reserve (channel dmaChn source : Word)
  | start (dmaChn callback priority : Word) (linked : Bool)
  | stop (dmaChn : Word)
  | clear (dmaChn : Word)
  | release (dmaChn : Word)
  | completed (channel : Nat)
  | failed (channel : Nat)

def udmaStep (s : Dmac b) : UdmaOp → Except UdmaStop (Dmac b)
  | .init dmaChn => .ok (dmacInitChannel s dmaChn).2
  | .config dmaChn desc => .ok (dmacConfigChannel s dmaChn desc).2
  | .reserve channel dmaChn source => .ok (dmacReserveChannel s channel dmaChn source).2
  | .start dmaChn callback priority linked =>
    .ok (dmacStartChannel s dmaChn callback priority linked).2
  | .stop dmaChn => .ok (dmacStopChannel s dmaChn).2
  | .clear dmaChn => .ok (dmacClearChannel s dmaChn).2
  | .release dmaChn => .ok (dmacReleaseChannel s dmaChn).2
  | .completed channel => dmacInterruptChannel s channel .idle
  | .failed channel => dmacInterruptChannel s channel .error

/-- What `dmac_init` leaves: no channel is owned. -/
def Dmac.Fresh (s : Dmac b) : Prop := ∀ i, s.chns i = 0

end Embarc
