/-
What the build decides.

The sources are compiled once per board, and the preprocessor picks their branches
from the board's feature macros.  `Build` holds the ones the modelled code looks
at, with the defaults the headers give; the halts are the places where the code
prints a message and stops in `_exit_loop`.
-/
import Embarc.Arc.Toolchain

namespace Embarc

/-- `SECURESHIELD_VERSION`. -/
inductive Version
  | v1
  | v2
  deriving DecidableEq

/-- `ARC_FEATURE_MPU_VERSION`. -/
inductive MpuVersion
  | v2
  | v3
  | v4
  deriving DecidableEq

structure Build where
  version : Version
  mpuVersion : MpuVersion
  /-- `ARC_FEATURE_MPU_REGIONS` -/
  mpuRegions : Nat
  /-- `ARC_FEATURE_MPU_BUILD_S == 1 && SECURESHIELD_USE_MPU_SID == 1` -/
  useMpuSid : Bool := false
  /-- `MPU_REGION_COUNT` -/
  mpuRegionCount : Nat := 32
  /-- `CONTAINER_INTERFACE_COUNT` -/
  containerInterfaceCount : Nat := 10
  /-- `CONTAINER_AUX_COUNT` -/
  containerAuxCount : Nat := 8
  /-- `NUM_EXC_CPU` -/
  numExcCpu : Nat := 16
  /-- `NUM_EXC_INT` -/
  numExcInt : Nat := 9
  /-- An interrupt number is a word. -/
  excFits : numExcCpu + numExcInt ≤ 0x100000000 := by decide
  /-- `INT_PRI_MIN`; `INT_PRI_MAX` is -1 -/
  intPriMin : Int := -2
  secureRomStart : Word := 0x20000
  secureRomSize : Word := 0x20000
  secureRamStart : Word := 0x80010000
  secureRomEnd : Word := 0x40000
  secureRamEnd : Word := 0x80020000
  /-- `__secureshield_config.cfgtbl_ptr_start` -/
  cfgtblPtrStart : Word := 0x30000
  /-- the address of `secureshield_secure_call_container_out` -/
  secureCallContainerOut : Word := 0x20100
  /-- the address of `secureshield_secure_call_int_out` -/
  secureCallIntOut : Word := 0x20104
  /-- the address of `_ret_container_call_out` -/
  retContainerCallOut : Word := 0x20200
  /-- the accumulator registers r58 and r59 are part of a frame -/
  accRegs : Bool := false
  /-- `ARC_FEATURE_RF16`: no r4 to r9 and no r16 to r25 -/
  rf16 : Bool := false
  /-- `ARC_FEATURE_CODE_DENSITY` -/
  codeDensity : Bool := true
  /-- words of the FPU and DSP context in the callee frame -/
  extWords : Nat := 0
  /-- gp is shared: not (`__MW__` with `_NO_SMALL_DATA_`) -/
  smallData : Bool := true
  /-- `ARC_FEATURE_UNALIGNED` -/
  unaligned : Bool := false

/-- Version 1 on an MPU of version 2 with sixteen regions. -/
def Build.v1Mpu2 : Build where
  version := .v1
  mpuVersion := .v2
  mpuRegions := 16

/-- Version 2 on an MPU of version 4 with sixteen regions, without the SID mechanism. -/
def Build.v2Mpu4 : Build where
  version := .v2
  mpuVersion := .v4
  mpuRegions := 16

/-- The SID mechanism is compiled in; only the version 2 makefile turns it on. -/
def Build.sid (b : Build) : Bool := b.version == .v2 && b.useMpuSid

def secureshieldMaxContainers : Nat := 5

/-- `SECURESHIELD_CONTAINER_STACK_MAX_DEPTH` -/
def containerStackMaxDepth : Nat := 16

def arcMpuReservedRegions : Nat := 2

/-- Where the code stops with `SECURESHIELD_HALT`. -/
inductive Halt
  | sharedMemoryWithSid
  | inferredAcMismatch (inferred expected : Word)
  | sizeNotRounded (size rounded : Word)
  | cannotRoundDown (size : Word)
  | baseSizeInconsistent (base size : Word)
  | startNotAligned (base : Word)
  | sizeNotAligned (size : Word)
  | noMoreSids
  | tooManyRegionsForSid (count : Nat)
  | dstContainerOutOfRange (dst : Nat)
  | onlyBackgroundLoads
  | ranOutOfRegions
  | memoryRegionAddressError
  | unorderedRegionAllocation
  | unsupportedContainerType
  | backgroundInterface
  | noPlaceForInterface
  | backgroundHasNoInterfaces
  | cfgNotInRom (addr : Word)
  | invalidContainerMagic (id : Nat)
  | containerNumberOverflow
  | containerCallOpcodeInvalid (opcode : Word)
  | containerCallMagicInvalid (magic : Word)
  | containerOutOfRange (id : Nat)
  | sameContainerCall (id : Nat)
  | interfaceNotFound (func : Word) (id : Nat)
  | stateStackOverflow
  | stateStackUnderflow
  deriving DecidableEq

/-- `if (c) SECURESHIELD_HALT(h)`. -/
def haltIf (c : Prop) [Decidable c] (h : Halt) : Except Halt Unit :=
  if c then .error h else .ok ()

@[simp] theorem haltIf_eq_ok {c : Prop} [Decidable c] {h : Halt} {u : Unit} :
    haltIf c h = .ok u ↔ ¬ c := by
  unfold haltIf
  by_cases hc : c <;> simp [hc]

end Embarc
