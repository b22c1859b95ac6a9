/-
Auxiliary registers, the interrupt unit and exception frames, after `arc.h`,
`arc_builtin.h` and `arc_exception.h`.

Most auxiliary registers hold what was last written to them.  The interrupt
enable, priority, trigger and pending registers are banked: they are those of the
interrupt `AUX_IRQ_SELECT` names.  `AUX_IRQ_HINT` is one register for all
interrupts; the interrupt whose number it holds is pending, which is why the
handlers write 0 to it when they take that interrupt.
-/
import Embarc.Arc.Mpu

namespace Embarc

/-! ### Register numbers -/

def auxUserSp : Word := 0xd
def auxStatus32 : Word := 0xa
def auxKernelSp : Word := 0x38
def auxSecKSp : Word := 0x3a
def auxIrqAct : Word := 0x43
def auxIrqHint : Word := 0x201
def auxIrqPriority : Word := 0x206
def auxErret : Word := 0x400
def auxErstatus : Word := 0x402
def auxEcr : Word := 0x403
def auxMpuEn : Word := 0x409
def auxIrqCause : Word := 0x40a
def auxIrqSelect : Word := 0x40b
def auxIrqEnable : Word := 0x40c
def auxIrqTrigger : Word := 0x40d
def auxIrqPending : Word := 0x416

/-- `1 << AUX_IRQ_PRIORITY_BIT_S` -/
def auxIrqPriorityMaskS : Word := 0x100

def auxStatusMaskU : Word := 0x80
def auxStatusMaskIe : Word := 0x80000000
def auxStatusMaskUs : Word := 0x100000
def auxStatusMaskAd : Word := 0x80000

def status32ResetValue (b : Build) : Word :=
  if b.unaligned then auxStatusMaskAd ||| auxStatusMaskUs else auxStatusMaskUs

/-! ### The hardware the runtime programs -/

/-- The banked registers of one interrupt, and the request line of its peripheral. -/
structure IrqRegs where
  enable : Word
  priority : Word
  trigger : Word
  line : Bool

structure Hw where
  aux : Word → Word
  irq : Word → IrqRegs
  mpu : Nat → MpuSlot

/-- An interrupt is pending when its line or the hint register asks for it. -/
def Hw.pending (hw : Hw) (intno : Word) : Bool :=
  (hw.irq intno).line || hw.aux auxIrqHint == intno

def arcAuxRead (hw : Hw) (reg : Word) : Word :=
  let sel := hw.aux auxIrqSelect
  if reg = auxIrqEnable then (hw.irq sel).enable
  else if reg = auxIrqPriority then (hw.irq sel).priority
  else if reg = auxIrqTrigger then (hw.irq sel).trigger
  else if reg = auxIrqPending then (if hw.pending sel then 1 else 0)
  else hw.aux reg

def arcAuxWrite (hw : Hw) (reg val : Word) : Hw :=
  let sel := hw.aux auxIrqSelect
  let regs := hw.irq sel
  if reg = auxIrqEnable then
    { hw with irq := Function.update hw.irq sel { regs with enable := val } }
  else if reg = auxIrqPriority then
    { hw with irq := Function.update hw.irq sel { regs with priority := val } }
  else if reg = auxIrqTrigger then
    { hw with irq := Function.update hw.irq sel { regs with trigger := val } }
  else { hw with aux := Function.update hw.aux reg val }

/-! ### The interrupt operations of the HAL -/

def arcIntDisable (hw : Hw) (intno : Word) : Hw :=
  arcAuxWrite (arcAuxWrite hw auxIrqSelect intno) auxIrqEnable 0

def arcIntEnable (hw : Hw) (intno : Word) : Hw :=
  arcAuxWrite (arcAuxWrite hw auxIrqSelect intno) auxIrqEnable 1

def arcIntPriGet (hw : Hw) (intno : Word) : Hw × Word :=
  let hw := arcAuxWrite hw auxIrqSelect intno
  (hw, arcAuxRead hw auxIrqPriority &&& 0xf)

def arcIntPriSet (hw : Hw) (intno intpri : Word) : Hw :=
  let hw := arcAuxWrite hw auxIrqSelect intno
  arcAuxWrite hw auxIrqPriority (intpri ||| (arcAuxRead hw auxIrqPriority &&& 0xfffffff0))

def arcIntSecureSet (hw : Hw) (intno : Word) (secure : Bool) : Hw :=
  let hw := arcAuxWrite hw auxIrqSelect intno
  if secure then arcAuxWrite hw auxIrqPriority (arcAuxRead hw auxIrqPriority ||| auxIrqPriorityMaskS)
  else arcAuxWrite hw auxIrqPriority (arcAuxRead hw auxIrqPriority &&& 0xf)

def arcIntProbe (hw : Hw) (intno : Word) : Hw × Word :=
  let hw := arcAuxWrite hw auxIrqSelect intno
  (hw, arcAuxRead hw auxIrqPending)

def arcIntSwTrigger (hw : Hw) (intno : Word) : Hw :=
  arcAuxWrite hw auxIrqHint intno

def arcIntLevelConfig (hw : Hw) (intno level : Word) : Hw :=
  arcAuxWrite (arcAuxWrite hw auxIrqSelect intno) auxIrqTrigger level

def arcIntActive (hw : Hw) : Bool := arcAuxRead hw auxIrqAct != 0

/-! ### Frames

The entry code pushes the registers of `INT_EXC_FRAME_T` when an exception or an
interrupt is taken, and those of `CALLEE_FRAME_T` right below them when the runtime
asks for another container.  The two structures are lists of fields, and a field's
offset is its position.
-/

inductive ExcReg
  | erbta | r30 | ilink | fp | gp | r59 | r58 | r12
  | r0 | r1 | r2 | r3 | r4 | r5 | r6 | r7 | r8 | r9 | r10 | r11
  | blink | lpEnd | lpStart | lpCount | ei | ldi | jli
  | ret | secStat | status32
  deriving DecidableEq

inductive CalleeReg
  | ext (i : Nat)
  | secureKernelSp | kernelSp | userSp
  | r25 | r24 | r23 | r22 | r21 | r20 | r19 | r18 | r17 | r16
  | r15 | r14 | r13
  deriving DecidableEq

/-- r0 to r11, without r4 to r9 in a register file of sixteen. -/
def gprFields (b : Build) : List ExcReg :=
  if b.rf16 then [.r0, .r1, .r2, .r3, .r10, .r11]
  else [.r0, .r1, .r2, .r3, .r4, .r5, .r6, .r7, .r8, .r9, .r10, .r11]

def loopFields (b : Build) : List ExcReg :=
  if b.codeDensity then [.lpEnd, .lpStart, .lpCount, .ei, .ldi, .jli]
  else [.lpEnd, .lpStart, .lpCount]

/-- The registers the prologue pushes last, at the bottom of the frame. -/
def lowFields (b : Build) : List ExcReg :=
  if b.accRegs then [.erbta, .r30, .ilink, .fp, .gp, .r59, .r58, .r12]
  else [.erbta, .r30, .ilink, .fp, .gp, .r12]

/-- `INT_EXC_FRAME_T`; the layout with `sec_stat` is the one of `ARC_FEATURE_SEC_PRESENT`,
which SecureShield version 2 needs. -/
def intExcFrame (b : Build) : List ExcReg :=
  match b.version with
  | .v1 => lowFields b ++ (gprFields b ++ .blink :: (loopFields b ++ [.ret, .status32]))
  | .v2 => lowFields b ++ (loopFields b ++ (gprFields b ++ [.blink, .ret, .secStat, .status32]))

/-- r25 to r13, without r25 to r16 in a register file of sixteen. -/
def savedFields (b : Build) : List CalleeReg :=
  if b.rf16 then [.r15, .r14, .r13]
  else [.r25, .r24, .r23, .r22, .r21, .r20, .r19, .r18, .r17, .r16, .r15, .r14, .r13]

/-- `CALLEE_FRAME_T`, with the extra stack pointers `ARC_ENABLE_EXTRA_CALLEE` adds. -/
def calleeFrame (b : Build) : List CalleeReg :=
  match b.version with
  | .v1 => (List.range b.extWords).map .ext ++ .userSp :: savedFields b
  | .v2 => (List.range b.extWords).map .ext ++ .secureKernelSp :: .kernelSp :: savedFields b

/-- The offset of a register in `INT_EXC_FRAME_T`. -/
def excOfs (b : Build) (r : ExcReg) : Nat := (intExcFrame b).idxOf r

/-- The offset of a register in `CALLEE_FRAME_T`. -/
def calleeOfs (b : Build) (r : CalleeReg) : Nat := (calleeFrame b).idxOf r

/-- `ARC_EXC_FRAME_T_SIZE` -/
def arcExcFrameSize (b : Build) : Nat := (intExcFrame b).length

/-- `ARC_CALLEE_FRAME_T_SIZE` -/
def arcCalleeFrameSize (b : Build) : Nat := (calleeFrame b).length

/-- `ARC_PROCESSOR_FRAME_T_SIZE`: the callee registers, then the exception frame. -/
def arcProcessorFrameSize (b : Build) : Nat := arcCalleeFrameSize b + arcExcFrameSize b

end Embarc
