/-
The runtime as a machine: the entry code of `secureshield_entry.s` and the start-up of
`secureshield_startup.s`, with the macros of `arc_asm_common.h`, around the handlers.

The entry code saves the registers of the container it interrupts on that container's
stack, asks the handler, and loads registers from the stack the handler names.  Between
two entries a container executes; it may do what it likes to registers and memory, and the
hardware may change its registers.  `sp` is the stack pointer the entry code begins with: of
a container that runs in user mode the one the processor takes when it enters the runtime.
-/
import Embarc.Lib.Block
import Embarc.Lib.Nest
import Embarc.SecureShield.Sjli

namespace Embarc

/-- The registers of the processor that frames hold. -/
structure Cpu where
  sp : Addr
  exc : ExcReg → Word
  callee : CalleeReg → Word

/-- The runtime, the processor, and for the proofs a record of how the running activation and
those on the container stack have begun. -/
structure Machine where
  st : State
  cpu : Cpu
  act : Nest.Act
  susp : Nat → Nest.Act

/-! ### Saving and loading registers -/

/-- `EXCEPTION_PROLOGUE` and `INTERRUPT_PROLOGUE`, which pass over some registers. -/
def saveExc (b : Build) (skip : ExcReg → Bool) (s : State) (cpu : Cpu) (frame : Addr) : State :=
  let regs := (intExcFrame b).map fun r => if skip r then none else some (cpu.exc r)
  { s with mem := Block.store s.mem frame regs }

/-- `EXCEPTION_EPILOGUE` and `INTERRUPT_EPILOGUE` -/
def restoreExc (b : Build) (skip : ExcReg → Bool) (s : State) (cpu : Cpu) (frame : Addr) : Cpu :=
  { cpu with
    sp := frame + arcExcFrameSize b
    exc := fun r => if r ∈ intExcFrame b ∧ skip r = false then s.exc b frame r else cpu.exc r }

/-- The exception prologue of version 1 saves every register. -/
def skipNone : ExcReg → Bool := fun _ => false

/-- The interrupt prologue has a slot for the branch target, and does not fill it. -/
def skipBta : ExcReg → Bool := (· == .erbta)

/-- The exception prologue of version 2 has a slot for `SEC_STAT`, and does not fill it. -/
def skipSecStat : ExcReg → Bool := (· == .secStat)

/-- The callee registers that are auxiliary registers. -/
def calleeAux : CalleeReg → Option Word
  | .userSp => some auxUserSp
  | .kernelSp => some auxKernelSp
  | .secureKernelSp => some auxSecKSp
  | _ => none

def calleeValue (hw : Hw) (cpu : Cpu) (r : CalleeReg) : Word :=
  match calleeAux r with
  | some reg => arcAuxRead hw reg
  | none => cpu.callee r

/-- `SAVE_CALLEE_REGS` -/
def saveCallee (b : Build) (s : State) (cpu : Cpu) (frame : Addr) : State :=
  let regs := (calleeFrame b).map fun r => some (calleeValue s.hw cpu r)
  { s with mem := Block.store s.mem frame regs }

/-- A register of the callee frame at an address. -/
def State.calleeAt (s : State) (b : Build) (frame : Addr) (r : CalleeReg) : Word :=
  s.mem (frame + calleeOfs b r)

/-- `RESTORE_CALLEE_REGS` -/
def restoreCallee (b : Build) (s : State) (cpu : Cpu) (frame : Addr) : State × Cpu :=
  let hw := match b.version with
    | .v1 => arcAuxWrite s.hw auxUserSp (s.calleeAt b frame .userSp)
    | .v2 => arcAuxWrite (arcAuxWrite s.hw auxSecKSp (s.calleeAt b frame .secureKernelSp))
        auxKernelSp (s.calleeAt b frame .kernelSp)
  ({ s with hw := hw },
    { cpu with callee := fun r => if r ∈ calleeFrame b then s.calleeAt b frame r else cpu.callee r })

def restoreProcessor (b : Build) (skip : ExcReg → Bool) (s : State) (cpu : Cpu) (target : Addr) :
    State × Cpu :=
  let (s, cpu) := restoreCallee b s cpu target
  (s, restoreExc b skip s cpu (target + arcCalleeFrameSize b))

/-- Where the entry code leaves the exception frame. -/
def Machine.frame (b : Build) (m : Machine) : Addr := m.cpu.sp - arcExcFrameSize b

/-- The next state of the machine, with the record of activations kept up. -/
def Machine.next (m : Machine) (kind : Nest.Kind) (st : State) (cpu : Cpu) : Machine :=
  if m.st.stackPtr < st.stackPtr then
    { st, cpu, act := ⟨kind, cpu.sp⟩, susp := Function.update m.susp m.st.stackPtr m.act }
  else if st.stackPtr < m.st.stackPtr then
    { st, cpu, act := m.susp st.stackPtr, susp := m.susp }
  else { m with st, cpu }

/-! ### Version 1 -/

/-- `secureshield_exc_entry_cpu`, with the handler of the exception. -/
def excEntryCpu (b : Build) (m : Machine) (handler : State → Addr → Except Halt (Addr × State)) :
    Except Halt Machine := do
  let (target, s) ← handler (saveExc b skipNone m.st m.cpu (m.frame b)) (m.frame b)
  if target = 0 then
    return m.next .call s (restoreExc b skipNone s m.cpu (m.frame b))
  else
    let s := saveCallee b s m.cpu (m.frame b - arcCalleeFrameSize b)
    let (s, cpu) := restoreProcessor b skipNone s m.cpu target
    return m.next .call s cpu

/-- The registers a container's interrupt handler begins with: most are cleared, r0 holds the
stack pointer, and the exception return sets the program counter and the status. -/
def handlerCpu (b : Build) (s : State) (cpu : Cpu) (target : Addr) : Cpu where
  sp := target
  callee := fun _ => 0
  exc := fun r => match r with
    | .ret => arcAuxRead s.hw auxErret
    | .status32 => arcAuxRead s.hw auxErstatus
    | .blink => b.secureCallIntOut
    | .r0 => addrWord target
    | .gp | .lpEnd | .lpStart | .lpCount | .ei | .ldi | .jli | .erbta | .secStat => cpu.exc r
    | _ => 0

/-- The version 1 `secureshield_exc_entry_int`.  When the handler is called right away, what
the handler does is an execution that follows. -/
def excEntryInt (b : Build) (m : Machine) : Except Halt Machine := do
  let (target, s) ← secureshieldInterruptHandle b (saveExc b skipBta m.st m.cpu (m.frame b))
    (m.frame b)
  if target = 0 then
    return m.next .irq s (restoreExc b skipBta s m.cpu (m.frame b))
  else
    let s := saveCallee b s m.cpu (m.frame b - arcCalleeFrameSize b)
    let cpu := handlerCpu b s m.cpu target
    return m.next .irq { s with hw := arcAuxWrite s.hw auxUserSp s.dstContainerUserSp } cpu

/-! ### Version 2 -/

def seti (hw : Hw) : Hw := arcAuxWrite hw auxStatus32 (arcAuxRead hw auxStatus32 ||| auxStatusMaskIe)

def clri (hw : Hw) : Hw :=
  arcAuxWrite hw auxStatus32 (arcAuxRead hw auxStatus32 &&& ~~~auxStatusMaskIe)

/-- `sjli_container_call_in`, up to the jump into the container. -/
def sjliContainerCallIn (b : Build) (m : Machine) : Except Halt Machine := do
  let (target, s) ← containerCallIn b (saveExc b skipSecStat m.st m.cpu (m.frame b)) (m.frame b)
  if target = 0 then
    return m.next .call s (restoreExc b skipSecStat s m.cpu (m.frame b))
  else
    let s := saveCallee b s m.cpu (m.frame b - arcCalleeFrameSize b)
    let (s, cpu) := restoreProcessor b skipSecStat s m.cpu target
    return m.next .call { s with hw := seti s.hw }
      { cpu with exc := Function.update cpu.exc .blink b.retContainerCallOut }

/-- `_ret_container_call_out`: what `sjli_container_call_in` does when the container returns. -/
def retContainerCallOut (b : Build) (m : Machine) : Except Halt Machine := do
  let dst := m.frame b - arcCalleeFrameSize b
  let s := saveCallee b (saveExc b skipSecStat m.st m.cpu (m.frame b)) m.cpu dst
  let (target, s) ← containerCallOut b { s with hw := clri s.hw } dst
  let (s, cpu) := restoreProcessor b skipSecStat s m.cpu target
  return m.next .call s cpu

/-! ### Steps -/

def Machine.exec (m : Machine) (cpu : Cpu) (hw : Hw) (mem : Addr → Word)
    (call : Word → ContainerCall) : Machine :=
  { m with cpu := cpu, st := { m.st with hw := hw, mem := mem, call := call } }

/-- The machine of container calls, of either version. -/
inductive CallEvent
  | exec (cpu : Cpu) (hw : Hw) (mem : Addr → Word) (call : Word → ContainerCall)
  | callIn
  | callOut

def callStep (b : Build) (m : Machine) : CallEvent → Except Halt Machine
  | .exec cpu hw mem call => .ok (m.exec cpu hw mem call)
  | .callIn => match b.version with
      | .v1 => excEntryCpu b m (trapContainerCallIn b)
      | .v2 => sjliContainerCallIn b m
  | .callOut => match b.version with
      | .v1 => excEntryCpu b m (trapContainerCallOut b)
      | .v2 => retContainerCallOut b m

/-- The machine of version 1, with all its traps and with interrupts.  Which trap or interrupt
it is, the processor reports in its registers. -/
inductive TrapEvent
  | exec (cpu : Cpu) (hw : Hw) (mem : Addr → Word) (call : Word → ContainerCall)
  | trap
  | irq

def trapStep (b : Build) (m : Machine) : TrapEvent → Except Halt Machine
  | .exec cpu hw mem call => .ok (m.exec cpu hw mem call)
  | .trap => excEntryCpu b m (secureshieldTrapHandler b)
  | .irq => excEntryInt b m

/-- Start-up ends with a return into the background container, on its secure stack. -/
def startup (b : Build) (hw : Hw) (mem : Addr → Word) (call : Word → ContainerCall)
    (cfgtbl : List ContainerConfig) (cpu : Cpu) : Except Halt Machine := do
  let s ← vmpuInitPost b (State.reset hw mem call) cfgtbl
  let sp := match (s.context 0).cfg with
    | some cfg => cfg.stackSecure
    | none => 0
  return {
    st := s
    cpu := { cpu with
      sp := sp
      exc := Function.update cpu.exc .status32 (arcAuxRead s.hw auxErstatus) }
    act := ⟨.call, sp⟩
    susp := fun _ => ⟨.call, sp⟩ }

end Embarc
