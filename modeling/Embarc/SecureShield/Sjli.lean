/-
Version 2: container calls by `sjli` (`v2/secureshield_sjli.c`), and the interrupt
handling of `secureshield_int.c` for it.

A call goes the same way as in version 1.  What differs is where its target is named,
that the background container's stack pointer in the normal world is kept in its
context, and that a container returns to the runtime by an ordinary return instead of a
trap, with its whole processor frame pushed before the handler runs.
-/
import Embarc.SecureShield.Trap

namespace Embarc

/-! ### Calls -/

def sjliInstructionLength : Word := 4

/-- The checks of a call when the SID mechanism is compiled in: the target is passed in
registers, and the container id is a byte. -/
def callTargetSid (b : Build) (s : State) (dstFn cfgPtr r0 : Word) : Except Halt CallTarget := do
  let dstId := (cfgIndex b cfgPtr).toNat % 256
  haltIf (dstId = 0 ∨ s.containerCount ≤ dstId) (.containerOutOfRange dstId)
  haltIf (s.stackCurrId = dstId) (.sameContainerCall dstId)
  let args := r0.toNat % 256
  let iface ← vmpuFindInterface s dstId dstFn (BitVec.ofNat 32 args)
  haltIf (iface = 0) (.interfaceNotFound dstFn dstId)
  return ⟨dstFn, dstId, args⟩

/-- The target of a call, found through the frame of the caller. -/
def sjliTarget (b : Build) (s : State) (srcFrame : Addr) : Except Halt CallTarget :=
  if b.sid then
    callTargetSid b s (s.exc b srcFrame .r2) (s.exc b srcFrame .r1) (s.exc b srcFrame .r0)
  else
    callTarget b s (s.call (s.exc b srcFrame .blink - sjliInstructionLength))
      (s.exc b srcFrame .r0)

/-- Leaving a secure container, the normal world's stack pointer is the background
container's. -/
def keepNormalSp (s : State) (srcId : Nat) : State :=
  if containerIsSecure s srcId then
    setContext s 0 fun c => { c with normalSp := arcAuxRead s.hw auxKernelSp }
  else s

def sjliArgs (b : Build) : ExcReg := if b.sid then .r3 else .r1

def containerCallIn (b : Build) (s : State) (srcFrame : Addr) : Except Halt (Addr × State) :=
  if arcIntActive s.hw then return (0, s)
  else do
    let srcId := s.stackCurrId
    let t ← sjliTarget b s srcFrame
    let s ← containerStackPush s srcId (srcFrame - arcCalleeFrameSize b)
      (arcAuxRead s.hw auxKernelSp) (s.exc b srcFrame .status32) t.dstId
    let s := keepNormalSp s srcId
    let dstFrame := (s.context t.dstId).curSp
    let s := createCallFrame b s srcFrame dstFrame (srcFrame + excOfs b (sjliArgs b)) t
    let s ← vmpuSwitch b s t.dstId
    let s := if containerIsSecure s t.dstId then
        s.setCallee b dstFrame .kernelSp (s.context 0).normalSp
      else s
    return (dstFrame, s)

/-- `container_call_out`, on the processor frame of the container that returns. -/
def containerCallOut (b : Build) (s : State) (dst : Addr) : Except Halt (Addr × State) := do
  let s ← containerStackPop s s.stackCurrId dst (arcAuxRead s.hw auxKernelSp)
    (arcAuxRead s.hw auxStatus32)
  let src := s.stack s.stackPtr
  let s := s.setExc b (src.srcSp + arcCalleeFrameSize b) .r0
    (s.exc b (dst + arcCalleeFrameSize b) .r0)
  let s ← vmpuSwitch b s src.srcId
  return (src.srcSp, s)

/-! ### Interrupts -/

def intHandlerCallFrameSize : Nat := 4

/-- The `INT_HANDLER_CALL_FRAME` a handler is called with. -/
def createHandlerFrame (s : State) (dstFrame : Addr) (dstId : Nat) (handler : Word) : State :=
  let secureSp := addrWord (s.context dstId).curSp
  let normalSp := if containerIsSecure s dstId then (s.context 0).normalSp
    else (s.context dstId).normalSp
  let mem := Function.update s.mem dstFrame secureSp
  let mem := Function.update mem (dstFrame + 1) normalSp
  let mem := Function.update mem (dstFrame + 2) handler
  { s with mem := Function.update mem (dstFrame + 3) (s.context dstId).cpuStatus }

/-- The part of the version 2 `secureshield_interrupt_handle` behind its checks. -/
def sjliInterruptDeliver (b : Build) (s : State) (sp : Addr) (dstId : Nat) (handler : Word) :
    Except Halt (Addr × State) :=
  let srcId := s.stackCurrId
  if srcId ≠ dstId then do
    let s ← vmpuSwitch b s dstId
    let s ← containerStackPush s srcId (sp - arcCalleeFrameSize b) (arcAuxRead s.hw auxKernelSp)
      (arcAuxRead s.hw auxStatus32) dstId
    let s := keepNormalSp s srcId
    let dstFrame := (s.context dstId).curSp - intHandlerCallFrameSize
    return (dstFrame, createHandlerFrame s dstFrame dstId handler)
  else
    -- the handler is called right here
    return (0, { s with hw := arcAuxWrite s.hw auxMpuEn 0 })

/-- The version 2 `secureshield_interrupt_handle`. -/
def sjliInterruptHandle (b : Build) (s : State) (sp : Addr) : Except Halt (Addr × State) :=
  let cause := arcAuxRead s.hw auxIrqCause
  let s := { s with hw := clearHint s.hw cause }
  if !secureIntDefaultCheck b cause || (s.irq b cause).handler == 0 then
    return (0, { s with hw := arcIntDisable s.hw cause })
  else sjliInterruptDeliver b s sp (s.irq b cause).id (s.irq b cause).handler

def secureshieldInterruptHandleReturn (b : Build) (s : State) (sp : Addr) :
    Except Halt (Addr × State) := do
  let s ← containerStackPop s s.stackCurrId sp (arcAuxRead s.hw auxKernelSp)
    (arcAuxRead s.hw auxStatus32)
  let src := s.stack s.stackPtr
  let s ← vmpuSwitch b s src.srcId
  return (src.srcSp, s)

end Embarc
