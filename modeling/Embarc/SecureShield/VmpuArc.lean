/-
The MPU side of the runtime: `secureshield_vmpu_arc.c`.

Configuration time fills the region table (`vmpuAcMem`) and the interface table
(`vmpuAcInterface`); run time loads the regions of a container into the MPU
(`vmpuSwitch`) and brings one more in on a protection fault
(`vmpuFaultRecoveryMpu`).  The C file has one set of `#if` branches for the SID
mechanism and one for the SecureShield version; both are branches on `Build` here.
-/
import Embarc.Lib.Run
import Embarc.SecureShield.State

namespace Embarc

/-! ### Faults -/

/-- The range test of the region walk, in 32-bit arithmetic. -/
def MpuRegion.hit (addr : Word) (r : MpuRegion) : Bool :=
  decide (r.base ≤ addr) && decide (addr < r.base + r.size)

def vmpuFaultFindContainerRegion (s : State) (addr : Word) (id : Nat) : Option MpuRegion :=
  (s.mpu.slice id).find? (MpuRegion.hit addr)

/-- The walk over all normal containers that a fault of a secure container starts. -/
def vmpuFaultFindNormal (s : State) (addr : Word) : Option MpuRegion :=
  (List.range s.containerCount).findSome? fun i =>
    if containerIsSecure s i then none else vmpuFaultFindContainerRegion s addr i

def vmpuFaultFindRegion (s : State) (addr : Word) : Option MpuRegion :=
  let own :=
    if s.activeContainer ≠ 0 then vmpuFaultFindContainerRegion s addr s.activeContainer else none
  match own with
  | some region => some region
  | none =>
    if containerIsSecure s s.activeContainer then vmpuFaultFindNormal s addr
    else vmpuFaultFindContainerRegion s addr 0

/-- Where the slot cursor goes back to when it runs past the last slot. -/
def mpuSlotRestart (b : Build) : Nat :=
  match b.version with
  | .v1 => arcMpuReservedRegions + 2
  | .v2 => arcMpuReservedRegions + 3

/-- `vmpu_fault_recovery_mpu`: 0 when a region was found, -1 otherwise. -/
def vmpuFaultRecoveryMpu (b : Build) (s : State) (addr : Word) : Int × State :=
  match vmpuFaultFindRegion s addr with
  | none => (-1, s)
  | some r =>
    let mpu := arcMpuRegionConfig b s.hw.mpu s.mpuSlot r.base r.size r.attr
    let slot := s.mpuSlot + 1
    let slot := if b.mpuRegions ≤ slot then mpuSlotRestart b else slot
    (0, { s with hw := { s.hw with mpu := mpu }, mpuSlot := slot })

/-! ### Checks and attributes of a region -/

/-- The three-way overlap test against one recorded region, in 32-bit arithmetic. -/
def regionConflict (start stop ac : Word) (r : MpuRegion) : Bool :=
  ((decide (r.base ≤ start) && decide (start < r.base + r.size)) ||
    (decide (r.base ≤ stop) && decide (stop < r.base + r.size)) ||
    (decide (start < r.base) && decide (r.base + r.size ≤ stop))) &&
  !(hasFlag r.ac acShared && hasFlag ac acShared)

def memRegionChecks (b : Build) (s : State) (start stop ac : Word) : Except Halt Bool := do
  haltIf (b.sid ∧ hasFlag ac acShared) .sharedMemoryWithSid
  return (List.range s.mpu.used).any fun i => regionConflict start stop ac (s.mpu.list i)

/-- The read and write rights an access control word gets, and the flags they imply. -/
def vmpuMapRw (ac : Word) : Word × Word :=
  if hasFlag ac acUwrite then
    (acUread ||| acUwrite ||| acKread ||| acKwrite,
      auxMpuAttrUr ||| auxMpuAttrUw ||| auxMpuAttrKr ||| auxMpuAttrKw)
  else if hasFlag ac acUread then
    if hasFlag ac acKwrite then
      (acUread ||| acKread ||| acKwrite, auxMpuAttrUr ||| auxMpuAttrKr ||| auxMpuAttrKw)
    else
      (acUread ||| acKread, auxMpuAttrUr ||| auxMpuAttrKr)
  else if hasFlag ac acKwrite then
    (acKread ||| acKwrite, auxMpuAttrKr ||| auxMpuAttrKw)
  else if hasFlag ac acKread then
    (acKread, auxMpuAttrKr)
  else
    (0, 0)

/-- Add one more right to a pair of access control word and MPU flags. -/
def vmpuMapAdd (ac acFlag attr : Word) (res : Word × Word) : Word × Word :=
  if hasFlag ac acFlag then (res.1 ||| acFlag, res.2 ||| attr) else res

/-- The access control word inferred from `ac`, and the MPU flags for it. -/
def vmpuMapInferred (b : Build) (ac : Word) : Word × Word :=
  let res := vmpuMapAdd ac acUexecute auxMpuAttrUe (vmpuMapRw ac)
  let res := vmpuMapAdd ac acKexecute auxMpuAttrKe res
  match b.version with
  | .v1 => res
  | .v2 => vmpuMapAdd ac acSecure auxMpuAttrS res

def vmpuMapAc (b : Build) (ac : Word) : Except Halt Word := do
  let (acRes, flags) := vmpuMapInferred b ac
  haltIf (acRes ≠ ac &&& acAccess) (.inferredAcMismatch acRes (ac &&& acAccess))
  return flags

/-- `SECURESHIELD_MPU_SID_BITS` and the fixed SIDs. -/
def mpuSidBits : Nat := 8
def mpuSidRuntime : Word := 0x1
def mpuSidBackgroundContainer : Word := 0x2
def mpuSidAll : Word := 0xFF

/-- The SID of a region, and the mask of the secure containers' SIDs afterwards. -/
def regionSid (b : Build) (s : State) (containerId : Nat) (ac : Word) :
    Except Halt (Word × Word) :=
  if b.sid then do
    haltIf (mpuSidBits - 2 < containerId) .noMoreSids
    if containerId = 0 then
      if hasFlag ac acSecure then return (mpuSidRuntime, s.secureSidMask)
      else if hasFlag ac acExecute then return (mpuSidBackgroundContainer, s.secureSidMask)
      else return (mpuSidAll, s.secureSidMask)
    else
      let sid : Word := 1#32 <<< (containerId + 1)
      let mask := if containerIsSecure s containerId then s.secureSidMask ||| sid
        else s.secureSidMask
      let sid := if hasFlag ac acExecute then sid else sid ||| mpuSidRuntime
      return (sid, mask)
  else
    return (1, s.secureSidMask)

/-- The size version 1 stores: a power of two, if the flags allow to round. -/
def sizeRounded (b : Build) (size ac : Word) : Except Halt Word := do
  let rounded := embarcPow2Ceil size
  if rounded ≠ size then
    haltIf (hasFlag ac (acSizeRoundUp ||| acSizeRoundDown) = false) (.sizeNotRounded size rounded)
    if hasFlag ac acSizeRoundDown then
      haltIf (rounded >>> 1 < arcFeatureMpuAlignment b.mpuVersion) (.cannotRoundDown size)
      return rounded >>> 1
    else
      return rounded
  else
    return rounded

/-- `vmpu_ac_update_container_region`: the region, and the SID mask afterwards. -/
def vmpuAcUpdateContainerRegion (b : Build) (s : State) (containerId : Nat)
    (base size ac : Word) : Except Halt (MpuRegion × Word) :=
  match b.version with
  | .v1 => do
      let rounded ← sizeRounded b size ac
      haltIf (base &&& (rounded - 1) ≠ 0) (.baseSizeInconsistent base size)
      let attr ← vmpuMapAc b ac
      return (⟨base, attr, rounded, ac⟩, s.secureSidMask)
  | .v2 => do
      haltIf (base &&& arcFeatureMpuAlignmentMask b.mpuVersion ≠ 0) (.startNotAligned base)
      haltIf (size &&& arcFeatureMpuAlignmentMask b.mpuVersion ≠ 0) (.sizeNotAligned size)
      let flags ← vmpuMapAc b ac
      let (sid, mask) ← regionSid b s containerId ac
      return (⟨base, flags ||| (sid <<< auxMpuAttrSidOffset), size, ac⟩, mask)

/-! ### Configuration -/

def vmpuAcMem (b : Build) (s : State) (containerId : Nat) (addr size ac : Word) :
    Except Halt State := do
  haltIf (b.mpuRegionCount ≤ s.mpu.used) .ranOutOfRegions
  let conflict ← memRegionChecks b s addr (addr + size - 1) ac
  haltIf (conflict = true) .memoryRegionAddressError
  let mpu := s.mpu.assign containerId
  haltIf ((mpu.list (mpu.next containerId)).attr ≠ 0) .unorderedRegionAllocation
  let (region, mask) ← vmpuAcUpdateContainerRegion b s containerId addr size ac
  return { s with mpu := s.mpu.add containerId region, secureSidMask := mask }

/-- `vmpu_ac_static_region`: the size of the region that was loaded, 0 for none. -/
def vmpuAcStaticRegion (b : Build) (s : State) (region : Nat) (base size ac : Word) :
    Except Halt (Word × State) :=
  if b.mpuRegions ≤ region then
    return (0, s)
  else do
    let (res, mask) ← vmpuAcUpdateContainerRegion b s 0 base size ac
    let mpu := arcMpuRegionConfig b s.hw.mpu region res.base res.size res.attr
    return (res.size, { s with hw := { s.hw with mpu := mpu }, secureSidMask := mask })

def vmpuAcInterface (b : Build) (s : State) (containerId : Nat) (func argsNum : Word) :
    Except Halt State := do
  haltIf (containerId = 0) .backgroundInterface
  haltIf (b.containerInterfaceCount ≤ s.iface.used) .noPlaceForInterface
  return { s with iface := s.iface.add containerId ⟨func, argsNum⟩ }

/-- `vmpu_find_interface`: the function itself, or a null pointer. -/
def vmpuFindInterface (s : State) (containerId : Nat) (func argsNum : Word) :
    Except Halt Word := do
  haltIf (containerId = 0) .backgroundHasNoInterfaces
  if (s.iface.slice containerId).any fun i => i.func == func && i.argsNum == argsNum then
    return func
  else
    return 0

/-! ### Loading the MPU -/

/-- Load regions into consecutive slots until the slots run out. -/
def loadRegions (b : Build) : List MpuRegion → Nat → (Nat → MpuSlot) → Nat × (Nat → MpuSlot)
  | [], slot, mpu => (slot, mpu)
  | r :: rs, slot, mpu =>
    if b.mpuRegions ≤ slot then (slot, mpu)
    else loadRegions b rs (slot + 1) (arcMpuRegionConfig b mpu slot r.base r.size r.attr)

/-- Clear `n` slots from `slot` on. -/
def clearSlots (b : Build) : Nat → Nat → (Nat → MpuSlot) → Nat → MpuSlot
  | 0, _, mpu => mpu
  | n + 1, slot, mpu => clearSlots b n (slot + 1) (arcMpuRegionConfig b mpu slot 0 0 0)

/-- The attribute the SID build gives a region when it loads the MPU once and for all. -/
def sidLoadAttr (mask : Word) (r : MpuRegion) : MpuRegion :=
  if hasFlag r.attr (auxMpuAttrS ||| auxMpuAttrKe ||| auxMpuAttrUe) then r
  else { r with attr := r.attr ||| (mask <<< 16) }

/-- The SID branch of `vmpu_switch`: every region stays loaded from the first switch on. -/
def vmpuSwitchSid (b : Build) (s : State) (dstId : Nat) : Except Halt State :=
  let s := { s with activeContainer := dstId }
  if s.vmpuLoad then
    return s
  else do
    haltIf (arcMpuReservedRegions ≤ b.mpuRegions ∧
      b.mpuRegions - arcMpuReservedRegions < s.mpu.used)
      (.tooManyRegionsForSid (s.mpu.used + arcMpuReservedRegions))
    let list := fun i =>
      if i < s.mpu.used then sidLoadAttr s.secureSidMask (s.mpu.list i) else s.mpu.list i
    let load := fun mpu i =>
      arcMpuRegionConfig b mpu (i + arcMpuReservedRegions) (list i).base (list i).size (list i).attr
    let mpu := (List.range s.mpu.used).foldl load s.hw.mpu
    return { s with mpu := { s.mpu with list := list }, hw := { s.hw with mpu := mpu },
                    vmpuLoad := true }

/-- The slots after the target container's regions, then the background container's. -/
def vmpuLoadSlots (b : Build) (s : State) (dstId : Nat) : Nat × (Nat → MpuSlot) :=
  let target := if dstId ≠ 0 then s.mpu.slice dstId else []
  let (slot, mpu) := loadRegions b target arcMpuReservedRegions s.hw.mpu
  loadRegions b (s.mpu.slice 0) slot mpu

def vmpuSwitch (b : Build) (s : State) (dstId : Nat) : Except Halt State :=
  if b.sid then vmpuSwitchSid b s dstId
  else do
    haltIf (s.mpu.used = 0 ∨ secureshieldMaxContainers ≤ dstId) (.dstContainerOutOfRange dstId)
    let (slot, mpu) := vmpuLoadSlots b s dstId
    let mpu := clearSlots b (b.mpuRegions - slot) slot mpu
    return { s with activeContainer := dstId, mpuSlot := slot, hw := { s.hw with mpu := mpu } }

def vmpuLoadContainer (b : Build) (s : State) (containerId : Nat) : Except Halt State := do
  haltIf (containerId ≠ 0) .onlyBackgroundLoads
  vmpuSwitch b s 0

/-! ### Initialisation -/

def secureRomAttr (b : Build) : Word :=
  match b.version with
  | .v1 => acdefKrom ||| acExecute
  | .v2 => acdefUtext ||| acSecure

def secureRamAttr (b : Build) : Word :=
  match b.version with
  | .v1 => acdefKram
  | .v2 => acdefUram ||| acSecure

/-- `vmpu_arch_init`, as far as the MPU goes. -/
def vmpuArchInit (b : Build) (s : State) : Except Halt State := do
  let s := { s with mpuSlot := arcMpuReservedRegions }
  let (_, s) ← vmpuAcStaticRegion b s 0 b.secureRomStart (b.secureRomEnd - b.secureRomStart)
    (secureRomAttr b)
  let (_, s) ← vmpuAcStaticRegion b s 1 b.secureRamStart (b.secureRamEnd - b.secureRamStart)
    (secureRamAttr b)
  return s

end Embarc
