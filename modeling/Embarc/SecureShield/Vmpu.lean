/-
Setting the containers up: `secureshield_vmpu.c`, and `vmpu_ac_container` with it.

The linker collects pointers to all container configurations in a table in ROM.
Set-up walks the table once: each configuration gets the next container id, its
sections become MPU regions, and its access control list is handed to the module
that owns the resource.  Copying the initialised data and clearing the bss of a
container touches nothing the runtime looks at and is left out.
-/
import Embarc.SecureShield.VmpuArc
import Embarc.SecureShield.Sys
import Embarc.SecureShield.Int

namespace Embarc

def vmpuRegionSize (p1 p2 : Word) : Word := if p2 ≤ p1 then 0 else p2 - p1

def secureContainerDefaultStatus (b : Build) : Word :=
  auxStatusMaskIe ||| ((BitVec.ofInt 32 (-1 - b.intPriMin) <<< 1) &&& 0x1e) |||
    status32ResetValue b

def normalContainerDefaultStatus (b : Build) : Word :=
  secureContainerDefaultStatus b ||| auxStatusMaskU

/-! ### Sections -/

/-- A section becomes a region unless it is empty. -/
def vmpuAcSection (b : Build) (s : State) (containerId : Nat) (start stop ac : Word) :
    Except Halt State :=
  if vmpuRegionSize start stop ≠ 0 then
    vmpuAcMem b s containerId start (vmpuRegionSize start stop) ac
  else
    return s

/-- The sections of a container, each with the access rights its type gives it.  Version 1
has one region for the code and the constants behind it. -/
def containerSections (b : Build) (cfg : ContainerConfig) : List (Word × Word × Word) :=
  match b.version with
  | .v1 =>
    if cfg.type = secureshieldContainerSecure then
      [(cfg.textStart, cfg.rodataEnd, acdefKtext), (cfg.dataStart, cfg.bssEnd, acdefKram)]
    else
      [(cfg.textStart, cfg.rodataEnd, acdefUtext), (cfg.dataStart, cfg.bssEnd, acdefUram)]
  | .v2 =>
    let secure := if cfg.type = secureshieldContainerSecure then acSecure else acNormal
    [(cfg.textStart, cfg.textEnd, acdefUtext ||| secure),
      (cfg.rodataStart, cfg.rodataEnd, acdefUrom ||| secure),
      (cfg.dataStart, cfg.bssEnd, acdefUram ||| secure)]

def vmpuAcSections (b : Build) (containerId : Nat) :
    List (Word × Word × Word) → State → Except Halt State
  | [], s => .ok s
  | (start, stop, ac) :: rest, s =>
    vmpuAcSection b s containerId start stop ac >>= vmpuAcSections b containerId rest

/-! ### Stacks

A container other than the background container starts with a processor frame at
the top of its stack, the one its first call fills in.
-/

def setContext (s : State) (containerId : Nat) (f : ContainerContext → ContainerContext) : State :=
  { s with context := Function.update s.context containerId (f (s.context containerId)) }

/-- The end of `vmpu_ac_container` in version 1. -/
def vmpuAcStackV1 (b : Build) (s : State) (containerId : Nat) (cfg : ContainerConfig) : State :=
  if containerId = 0 then
    let hw := arcAuxWrite s.hw auxUserSp (addrWord cfg.stackSecure)
    { s with hw := arcAuxWrite hw auxErstatus (s.context 0).cpuStatus }
  else if cfg.type = secureshieldContainerSecure then
    setContext s containerId fun c => { c with curSp := cfg.stackArea - arcProcessorFrameSize b }
  else
    let context := cfg.stackSecure - arcProcessorFrameSize b
    setContext (s.setCallee b context .userSp (addrWord cfg.stackArea)) containerId fun c =>
      { c with curSp := context, normalSp := addrWord cfg.stackArea }

/-- The end of `vmpu_ac_container` in version 2. -/
def vmpuAcStackV2 (b : Build) (s : State) (containerId : Nat) (cfg : ContainerConfig) : State :=
  if containerId = 0 then
    { s with hw := arcAuxWrite s.hw auxSecKSp (addrWord cfg.stackSecure) }
  else if cfg.type = secureshieldContainerSecure then
    let context := cfg.stackArea - arcProcessorFrameSize b
    setContext (s.setCallee b context .secureKernelSp (addrWord cfg.stackArea)) containerId fun c =>
      { c with curSp := context }
  else
    let context := cfg.stackSecure - arcProcessorFrameSize b
    let s := s.setCallee b context .kernelSp (addrWord cfg.stackArea)
    let s := s.setCallee b context .secureKernelSp (addrWord cfg.stackSecure)
    setContext s containerId fun c =>
      { c with curSp := context, normalSp := addrWord cfg.stackArea }

/-! ### Containers -/

/-- The status a container of a type starts with; version 2 leaves it alone. -/
def vmpuAcStatus (b : Build) (s : State) (containerId : Nat) (cfg : ContainerConfig) : State :=
  match b.version with
  | .v1 =>
    let status := if cfg.type = secureshieldContainerSecure then secureContainerDefaultStatus b
      else normalContainerDefaultStatus b
    setContext s containerId fun c => { c with cpuStatus := status }
  | .v2 => s

def vmpuAcContainer (b : Build) (s : State) (containerId : Nat) (cfg : ContainerConfig) :
    Except Halt State := do
  haltIf (cfg.type ≠ secureshieldContainerSecure ∧ cfg.type ≠ secureshieldContainerNormal)
    .unsupportedContainerType
  let s := vmpuAcStatus b s containerId cfg
  let s := setContext s containerId fun c => { c with cfg := some cfg }
  let s ← vmpuAcSections b containerId (containerSections b cfg) s
  match b.version with
  | .v1 => return vmpuAcStackV1 b s containerId cfg
  | .v2 => return vmpuAcStackV2 b s containerId cfg

/-- One item of the access control list.  The modules that turn a request down without
a halt are not asked again. -/
def vmpuAcItem (b : Build) (s : State) (containerId : Nat) (item : ContainerAcItem) :
    Except Halt State :=
  if hasFlag item.ac acIrq then
    return (vmpuAcIrq b s containerId item.param1 item.param2).2
  else if hasFlag item.ac acInterface then
    vmpuAcInterface b s containerId item.param1 item.param2
  else if hasFlag item.ac acAux then
    return (vmpuAcAux b s containerId item.param1 item.param2).2
  else
    vmpuAcMem b s containerId item.param1 item.param2 item.ac

def vmpuAcItems (b : Build) (containerId : Nat) :
    List ContainerAcItem → State → Except Halt State
  | [], s => .ok s
  | item :: rest, s => vmpuAcItem b s containerId item >>= vmpuAcItems b containerId rest

def vmpuSecureRomAddr (b : Build) (addr : Word) : Bool :=
  let mask := ~~~(b.secureRomSize - 1)
  mask &&& addr == b.secureRomStart &&& mask

/-- The body of the loop of `vmpu_setup_containers`. -/
def vmpuSetupContainer (b : Build) (s : State) (cfg : ContainerConfig) : Except Halt State := do
  haltIf ((vmpuSecureRomAddr b cfg.addr &&
    vmpuSecureRomAddr b (cfg.addr + (containerConfigSize - 1))) = false) (.cfgNotInRom cfg.addr)
  haltIf (cfg.magic ≠ secureshieldContainerMagic) (.invalidContainerMagic s.containerCount)
  let containerId := s.containerCount
  let s := { s with containerCount := s.containerCount + 1 }
  haltIf (secureshieldMaxContainers ≤ containerId) .containerNumberOverflow
  let s ← vmpuAcContainer b s containerId cfg
  vmpuAcItems b containerId (cfg.acTable.getD []) s

def vmpuSetupLoop (b : Build) : List ContainerConfig → State → Except Halt State
  | [], s => .ok s
  | cfg :: rest, s => vmpuSetupContainer b s cfg >>= vmpuSetupLoop b rest

/-- `vmpu_setup_containers` over the table of configurations. -/
def vmpuSetupContainers (b : Build) (s : State) (cfgtbl : List ContainerConfig) :
    Except Halt State :=
  vmpuSetupLoop b cfgtbl { s with containerCount := 0 }

def vmpuInitPost (b : Build) (s : State) (cfgtbl : List ContainerConfig) : Except Halt State := do
  let s ← vmpuArchInit b s
  let s ← vmpuSetupContainers b s cfgtbl
  vmpuLoadContainer b s 0

end Embarc
