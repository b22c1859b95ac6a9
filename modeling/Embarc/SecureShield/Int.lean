/-
Interrupts as a resource: the first half of `secureshield_int.c`.

Every interrupt has a handler and an owner.  Configuration hands interrupts to
containers (`vmpuAcIrq`); at run time a container asks for one of the operations of
`secureshield_int_ops`, and two checks decide.  Installing a handler is up to the
owner alone; everything else is allowed to a secure container as well.  An
interrupt owned by container 0 is nobody's in particular.
-/
import Embarc.SecureShield.State

namespace Embarc

def Build.numExcAll (b : Build) : Nat := b.numExcCpu + b.numExcInt

def intIndex (b : Build) (intno : Word) : Nat := intno.toNat - b.numExcCpu

def State.irq (s : State) (b : Build) (intno : Word) : IntHandler := s.intHandler (intIndex b intno)

def State.setIrq (s : State) (b : Build) (intno : Word) (h : IntHandler) : State :=
  { s with intHandler := Function.update s.intHandler (intIndex b intno) h }

/-! ### Checks -/

/-- `secure_int_default_check`.  The entry table is a constant with the same entry for every
interrupt, so only the range is left to check. -/
def secureIntDefaultCheck (b : Build) (intno : Word) : Bool :=
  decide (b.numExcCpu ≤ intno.toNat) && decide (intno.toNat < b.numExcAll)

/-- The interrupt belongs to the active container or to container 0. -/
def State.ownsIrq (s : State) (b : Build) (intno : Word) : Bool :=
  (s.irq b intno).id == s.activeContainer || (s.irq b intno).id == 0

def secureIntAcCheck (b : Build) (s : State) (intno : Word) : Bool :=
  secureIntDefaultCheck b intno && (s.irq b intno).handler != 0 &&
    (containerIsSecure s s.activeContainer || s.ownsIrq b intno)

/-! ### Operations -/

def retOk : Word := 0
def retFailed : Word := 0xffffffff

def secureIntHandlerInstall (b : Build) (s : State) (intno handler : Word) : Word × State :=
  if !secureIntDefaultCheck b intno then (retFailed, s)
  else if !s.ownsIrq b intno then (retFailed, s)
  else
    let id := if handler ≠ 0 then s.activeContainer else 0
    (retOk, s.setIrq b intno { s.irq b intno with handler := handler, id := id })

/-- An operation that is carried out once the access check has passed. -/
def withAcCheck (b : Build) (s : State) (intno : Word) (failed : Word) (op : Word × State) :
    Word × State :=
  if secureIntAcCheck b s intno then op else (failed, s)

def secureIntHandlerGet (b : Build) (s : State) (intno : Word) : Word × State :=
  withAcCheck b s intno 0 ((s.irq b intno).handler, s)

def secureIntDisable (b : Build) (s : State) (intno : Word) : Word × State :=
  withAcCheck b s intno retFailed
    (retOk, { s with hw := arcIntDisable s.hw intno }.setIrq b intno
      { s.irq b intno with enabled := false })

def secureIntEnable (b : Build) (s : State) (intno : Word) : Word × State :=
  withAcCheck b s intno retFailed
    (retOk, { s with hw := arcIntEnable s.hw intno }.setIrq b intno
      { s.irq b intno with enabled := true })

def secureIntEnabled (b : Build) (s : State) (intno : Word) : Word × State :=
  let hw := arcAuxWrite s.hw auxIrqSelect intno
  withAcCheck b s intno retFailed (arcAuxRead hw auxIrqEnable, { s with hw := hw })

def secureIntPriSet (b : Build) (s : State) (intno intpri : Word) : Word × State :=
  withAcCheck b s intno retFailed
    (retOk, { s with hw := arcIntPriSet s.hw intno (intpri - BitVec.ofInt 32 b.intPriMin) })

def secureIntPriGet (b : Build) (s : State) (intno : Word) : Word × State :=
  let (hw, pri) := arcIntPriGet s.hw intno
  withAcCheck b s intno 0 (pri + BitVec.ofInt 32 b.intPriMin, { s with hw := hw })

def secureIntSwTrigger (b : Build) (s : State) (intno : Word) : Word × State :=
  withAcCheck b s intno retFailed (retOk, { s with hw := arcIntSwTrigger s.hw intno })

def secureIntProbe (b : Build) (s : State) (intno : Word) : Word × State :=
  let (hw, pending) := arcIntProbe s.hw intno
  withAcCheck b s intno retFailed (pending, { s with hw := hw })

def secureIntLevelConfig (b : Build) (s : State) (intno level : Word) : Word × State :=
  withAcCheck b s intno retFailed (retOk, { s with hw := arcIntLevelConfig s.hw intno level })

/-- The interrupt with an index in the handler table. -/
def intnoOf (b : Build) (i : Nat) : Word := BitVec.ofNat 32 (i + b.numExcCpu)

/-- The interrupts the lock and unlock loops act on. -/
def State.lockable (s : State) (i : Nat) : Bool :=
  ((s.intHandler i).id == s.activeContainer || (s.intHandler i).id == 0) &&
    (s.intHandler i).handler != 0

/-- One loop over all interrupts that applies an operation to those selected. -/
def overIrqs (b : Build) (sel : Nat → Bool) (op : Hw → Word → Hw) (hw : Hw) : Hw :=
  (List.range b.numExcInt).foldl (fun hw i => if sel i then op hw (intnoOf b i) else hw) hw

def secureCpuLock (b : Build) (s : State) : State :=
  { s with hw := overIrqs b s.lockable arcIntDisable s.hw }

def secureCpuUnlock (b : Build) (s : State) : State :=
  { s with hw := overIrqs b (fun i => s.lockable i && (s.intHandler i).enabled) arcIntEnable s.hw }

/-! ### The interrupt service -/

/-- The operation codes `SECURESHIELD_INT_EXC_GET` and on. -/
inductive IntOp
  | get | install | enable | enabled | disable | priGet | priSet | probe | levelConfig | swTrig
  | cpuLock | cpuUnlock
  deriving DecidableEq

def IntOp.ofWord (ops : Word) : Option IntOp :=
  [IntOp.get, .install, .enable, .enabled, .disable, .priGet, .priSet, .probe, .levelConfig,
    .swTrig, .cpuLock, .cpuUnlock][ops.toNat]?

/-- The switch of `secureshield_int_ops`; the versions differ in what a lock returns. -/
def secureIntOp (b : Build) (s : State) (op : IntOp) (par1 par2 : Word) : Word × State :=
  let lockRet := match b.version with
    | .v1 => retOk
    | .v2 => retFailed
  match op with
  | .get => secureIntHandlerGet b s par1
  | .install => secureIntHandlerInstall b s par1 par2
  | .enable => secureIntEnable b s par1
  | .enabled => secureIntEnabled b s par1
  | .disable => secureIntDisable b s par1
  | .priSet => secureIntPriSet b s par1 par2
  | .priGet => secureIntPriGet b s par1
  | .probe => secureIntProbe b s par1
  | .levelConfig => secureIntLevelConfig b s par1 par2
  | .swTrig => secureIntSwTrigger b s par1
  | .cpuLock => (lockRet, secureCpuLock b s)
  | .cpuUnlock => (lockRet, secureCpuUnlock b s)

/-- `secureshield_int_ops` without its frame: the result and the state. -/
def secureshieldIntOps (b : Build) (s : State) (ops par1 par2 : Word) : Word × State :=
  match IntOp.ofWord ops with
  | some op => secureIntOp b s op par1 par2
  | none => (retFailed, s)

/-- The version 1 `secureshield_int_ops`, on a trap frame. -/
def secureshieldIntOpsFrame (b : Build) (s : State) (frame : Addr) : State :=
  let (ret, s') := secureshieldIntOps b s (s.exc b frame .r0) (s.exc b frame .r1)
    (s.exc b frame .r2)
  s'.setExc b frame .r0 ret

/-! ### Configuration -/

/-- `secureshield_int_init` for one interrupt: disabled, of the lowest priority, and secure in
version 2. -/
def intReset (b : Build) (hw : Hw) (intno : Word) : Hw :=
  let lowest := BitVec.ofInt 32 (-1 - b.intPriMin)
  let priority := match b.version with
    | .v1 => lowest
    | .v2 => lowest ||| auxIrqPriorityMaskS
  let hw := arcAuxWrite (arcAuxWrite hw auxIrqSelect intno) auxIrqEnable 0
  arcAuxWrite (arcAuxWrite hw auxIrqTrigger 0) auxIrqPriority priority

/-- `secureshield_int_init`.  The vector base, the priority mask and the control of what is saved
are left out. -/
def secureshieldIntInit (b : Build) (s : State) : State :=
  { s with hw := overIrqs b (fun _ => true) (intReset b) s.hw }

def vmpuAcIrq (b : Build) (s : State) (containerId : Nat) (handler intno : Word) : Int × State :=
  if !secureIntDefaultCheck b intno then (-1, s)
  else if (s.irq b intno).id ≠ 0 then (-1, s)
  else
    let s := s.setIrq b intno ⟨handler, containerId, false⟩
    match b.version with
    | .v1 => (0, s)
    | .v2 => (0, { s with hw := arcIntSecureSet s.hw intno (containerId != 0) })

end Embarc
