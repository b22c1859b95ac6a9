/-
Version 1: container calls by trap (`v1/secureshield_trap.c`), and how interrupts
are delivered and returned from (`secureshield_int.c`).

Each handler gets the address of the frame the entry code has pushed and returns
the stack pointer to continue at, or 0 to return to where the processor came from.
-/
import Embarc.SecureShield.Vmpu
import Embarc.SecureShield.ContainerStack

namespace Embarc

/-! ### Calls -/

/-- What a call goes to: the function, the container and the number of arguments, a byte. -/
structure CallTarget where
  dstFn : Word
  dstId : Nat
  args : Nat

/-- The checks of a container call, up to the interface table. -/
def callTarget (b : Build) (s : State) (c : ContainerCall) (r0 : Word) :
    Except Halt CallTarget := do
  containerCallCheckMagic b c
  let dstId ← containerCallGetDstId b s c
  haltIf (s.stackCurrId = dstId) (.sameContainerCall dstId)
  let args := r0.toNat % 256
  let iface ← vmpuFindInterface s dstId c.dstFn (BitVec.ofNat 32 args)
  haltIf (iface = 0) (.interfaceNotFound c.dstFn dstId)
  return ⟨c.dstFn, dstId, args⟩

/-- The registers of the processor frame a call creates for its destination, without the
arguments. -/
def createCallRegs (b : Build) (s : State) (srcFrame dstFrame : Addr) (t : CallTarget) : State :=
  let exc := dstFrame + arcCalleeFrameSize b
  let s := match b.version with
    | .v1 => s.setExc b exc .erbta 0
    | .v2 => s.setExc b exc .blink t.dstFn
  let s := s.setExc b exc .ret t.dstFn
  let s := s.setExc b exc .status32 (s.context t.dstId).cpuStatus
  let s := match b.version with
    | .v1 => s.setExc b exc .blink b.secureCallContainerOut
    | .v2 => s
  if b.smallData then s.setExc b exc .gp (s.exc b srcFrame .gp) else s

/-- The processor frame of a call, at its destination's `cur_sp`.  `srcArgs` is where the
caller's arguments are. -/
def createCallFrame (b : Build) (s : State) (srcFrame dstFrame srcArgs : Addr)
    (t : CallTarget) : State :=
  let s := createCallRegs b s srcFrame dstFrame t
  let args := dstFrame + arcCalleeFrameSize b + excOfs b .r0
  { s with mem := copyWords t.args srcArgs args s.mem }

def trapContainerCallIn (b : Build) (s : State) (srcFrame : Addr) : Except Halt (Addr × State) :=
  if arcIntActive s.hw then return (0, s)
  else do
    let srcId := s.stackCurrId
    let t ← callTarget b s (s.call (s.exc b srcFrame .ret - 2)) (s.exc b srcFrame .r0)
    let s ← containerStackPush s srcId (srcFrame - arcCalleeFrameSize b)
      (arcAuxRead s.hw auxUserSp) (s.exc b srcFrame .status32) t.dstId
    let dstFrame := (s.context t.dstId).curSp
    let s := createCallFrame b s srcFrame dstFrame (srcFrame + excOfs b .r1) t
    let s ← vmpuSwitch b s t.dstId
    return (dstFrame, s)

def trapContainerCallOut (b : Build) (s : State) (dstFrame : Addr) : Except Halt (Addr × State) := do
  let s ← containerStackPop s s.stackCurrId (dstFrame - arcCalleeFrameSize b)
    (arcAuxRead s.hw auxUserSp) (s.exc b dstFrame .status32)
  let src := s.stack s.stackPtr
  let s := s.setExc b (src.srcSp + arcCalleeFrameSize b) .r0 (s.exc b dstFrame .r0)
  let s ← vmpuSwitch b s src.srcId
  return (src.srcSp, s)

/-! ### Interrupts -/

/-- A software trigger is taken back when the interrupt arrives. -/
def clearHint (hw : Hw) (cause : Word) : Hw :=
  if cause = arcAuxRead hw auxIrqHint then arcAuxWrite hw auxIrqHint 0 else hw

/-- Leave the interrupted container for the owner of the interrupt: the part of
`secureshield_interrupt_handle` behind its checks. -/
def interruptDeliver (b : Build) (s : State) (srcFrame : Addr) (dstId : Nat) (handler : Word) :
    Except Halt (Addr × State) :=
  let srcId := s.stackCurrId
  let s := s.setExc b srcFrame .erbta 0
  let status := s.exc b srcFrame .status32
  let userSp := arcAuxRead s.hw auxUserSp
  if srcId ≠ dstId then do
    let s ← vmpuSwitch b s dstId
    let s ← containerStackPush s srcId (srcFrame - arcCalleeFrameSize b) userSp status dstId
    let dstUserSp := if containerIsSecure s dstId then 0 else (s.context dstId).normalSp
    let hw := arcAuxWrite s.hw auxErret handler
    let hw := arcAuxWrite hw auxErstatus (s.context dstId).cpuStatus
    return ((s.context dstId).curSp, { s with hw := hw, dstContainerUserSp := dstUserSp })
  else if containerIsSecure s srcId then
    -- the handler is called right here, as a function of the interrupted container
    return (0, { s with hw := arcAuxWrite s.hw auxMpuEn 0x40000000 })
  else do
    let s ← containerStackPush s srcId (srcFrame - arcCalleeFrameSize b) userSp status dstId
    let hw := arcAuxWrite s.hw auxErret handler
    let hw := arcAuxWrite hw auxErstatus status
    return ((s.context dstId).curSp, { s with hw := hw, dstContainerUserSp := userSp })

/-- The version 1 `secureshield_interrupt_handle`. -/
def secureshieldInterruptHandle (b : Build) (s : State) (srcFrame : Addr) :
    Except Halt (Addr × State) :=
  let cause := arcAuxRead s.hw auxIrqCause
  let s := { s with hw := clearHint s.hw cause }
  if !secureIntDefaultCheck b cause || (s.irq b cause).handler == 0 then
    return (0, { s with hw := arcIntDisable s.hw cause })
  else interruptDeliver b s srcFrame (s.irq b cause).id (s.irq b cause).handler

/-- Clear the lowest set bit and the U bit of `AUX_IRQ_ACT`. -/
def irqActQuit (hw : Hw) : Hw :=
  let act := arcAuxRead hw auxIrqAct
  arcAuxWrite hw auxIrqAct (act &&& (act - 1) &&& 0x7fffffff)

def secureshieldIntReturn (b : Build) (s : State) (dstFrame : Addr) : Except Halt (Addr × State) := do
  let dstId := s.stackCurrId
  let s ← containerStackPop s dstId (dstFrame + arcExcFrameSize b) (arcAuxRead s.hw auxUserSp)
    (s.exc b dstFrame .status32)
  let src := s.stack s.stackPtr
  let s ← if src.srcId ≠ dstId then vmpuSwitch b s src.srcId else .ok s
  return (src.srcSp, { s with hw := irqActQuit s.hw })

/-! ### The trap handler -/

/-- The trap ids of `secureshield_secure_call_exports.h`. -/
inductive TrapId
  | sys | containerIn | containerOut | intOut | intExc
  deriving DecidableEq

def TrapId.ofWord (id : Word) : Option TrapId :=
  [TrapId.sys, .containerIn, .containerOut, .intOut, .intExc][id.toNat]?

/-- What a trap id asks for. -/
def trapDispatch (b : Build) (s : State) (frame : Addr) : Option TrapId → Except Halt (Addr × State)
  | some .sys => return (0, secureshieldSysOps b s frame)
  | some .containerIn => trapContainerCallIn b s frame
  | some .containerOut => trapContainerCallOut b s frame
  | some .intOut => secureshieldIntReturn b s frame
  | some .intExc => return (0, secureshieldIntOpsFrame b s frame)
  | none => return (0, s)

/-- The trap id the processor reports: `AUX_ECR & SECURESHIELD_TRAP_ID_MASK`. -/
def trapIdOf (hw : Hw) : Option TrapId := TrapId.ofWord (arcAuxRead hw auxEcr &&& 0x3F)

def secureshieldTrapHandler (b : Build) (s : State) (frame : Addr) : Except Halt (Addr × State) :=
  trapDispatch b s frame (trapIdOf s.hw)

end Embarc
