/-
The container stack and the call structure: `secureshield_container_stack.h` and
`secureshield_container_call.h`.

Calls and interrupts push the container they leave onto one stack, together with
the stack pointer it left at; a return pops.  A push also files the left
container's stack pointers and status in its context, a pop those of the container
that returns.
-/
import Embarc.SecureShield.State

namespace Embarc

def containerStackPush (s : State) (srcId : Nat) (srcSp : Addr) (normalSp status : Word)
    (dstId : Nat) : Except Halt State := do
  haltIf (s.stackPtr = containerStackMaxDepth) .stateStackOverflow
  return { s with
    stack := Function.update s.stack s.stackPtr ⟨srcId, srcSp⟩
    stackPtr := s.stackPtr + 1
    context := Function.update s.context srcId
      { s.context srcId with curSp := srcSp, normalSp := normalSp, cpuStatus := status }
    stackCurrId := dstId }

def containerStackPop (s : State) (dstId : Nat) (dstSp : Addr) (normalSp status : Word) :
    Except Halt State := do
  haltIf (s.stackPtr = 0) .stateStackUnderflow
  return { s with
    stackPtr := s.stackPtr - 1
    context := Function.update s.context dstId
      { s.context dstId with curSp := dstSp, normalSp := normalSp, cpuStatus := status }
    stackCurrId := (s.stack (s.stackPtr - 1)).srcId }

/-- `SECURESHIELD_CONTAINER_CALL_OPCODE`: the 16-bit `trap_s`, or `sjli`. -/
def containerCallOpcode : Version → Word
  | .v1 => 0x783E
  | .v2 => 0x804028a0

def containerCallMagic : Word := 0x12345678

def containerCallCheckMagic (b : Build) (c : ContainerCall) : Except Halt Unit := do
  haltIf (c.opcode ≠ containerCallOpcode b.version) (.containerCallOpcodeInvalid c.opcode)
  haltIf (c.magic ≠ containerCallMagic) (.containerCallMagicInvalid c.magic)

/-- The position of a pointer in the table of container configurations. -/
def cfgIndex (b : Build) (cfgPtr : Word) : Word := (cfgPtr - b.cfgtblPtrStart).sshiftRight 2

def containerCallGetDstId (b : Build) (s : State) (c : ContainerCall) : Except Halt Nat := do
  let container := (cfgIndex b c.cfgPtr).toNat
  haltIf (container = 0 ∨ s.containerCount ≤ container) (.containerOutOfRange container)
  return container

/-- `while(args--) *dst++ = *src++`: one word after the other, so an overlap is seen. -/
def copyWords : Nat → Addr → Addr → (Addr → Word) → Addr → Word
  | 0, _, _, mem => mem
  | n + 1, src, dst, mem => copyWords n (src + 1) (dst + 1) (Function.update mem dst (mem src))

end Embarc
