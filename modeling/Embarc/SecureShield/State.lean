/-
The data of the SecureShield runtime.

The runtime keeps its state in globals: the container count, the active container
and the container stack (`secureshield_vmpu.c`), the region and interface tables
(`secureshield_vmpu_arc.c`), the aux table (`secureshield_sys.c`) and the interrupt
table (`secureshield_int.c`).  `State` holds them together with the hardware and
the memory the stacks live in.  Globals start out zeroed, which is `State.reset`.
-/
import Embarc.Arc.Exception
import Embarc.Lib.Slab

namespace Embarc

/-! ### Access control flags of `secureshield_vmpu_exports.h` -/

def acUexecute : Word := 0x0001
def acUwrite : Word := 0x0002
def acUread : Word := 0x0004
def acKexecute : Word := 0x0008
def acKwrite : Word := 0x0010
def acKread : Word := 0x0020
def acExecute : Word := acUexecute ||| acKexecute
def acMemory : Word := 0x0100
def acInterface : Word := 0x0800
def acIrq : Word := 0x1000
def acAux : Word := 0x2000
def acSizeRoundUp : Word := 0x10000000
def acSizeRoundDown : Word := 0x20000000
def acShared : Word := 0x40000000
def acSecure : Word := 0x80000000
def acNormal : Word := 0
def acAccess : Word :=
  acUread ||| acUwrite ||| acUexecute ||| acKread ||| acKwrite ||| acKexecute ||| acSecure

def acdefUrom : Word := acMemory ||| acUread ||| acKread
def acdefUram : Word := acMemory ||| acUread ||| acUwrite ||| acKread ||| acKwrite
def acdefUtext : Word := acdefUrom ||| acExecute
def acdefKrom : Word := acMemory ||| acKread
def acdefKram : Word := acMemory ||| acKread ||| acKwrite
def acdefKtext : Word := acdefKrom ||| acKexecute

def secureshieldContainerMagic : Word := 0x42CFB66F
def secureshieldContainerSecure : Word := 1
def secureshieldContainerNormal : Word := 0

/-! ### Container configuration -/

structure ContainerAcItem where
  param1 : Word
  param2 : Word
  ac : Word
  deriving DecidableEq

/-- `CONTAINER_CONFIG`, together with the address the structure is at.  The access
control table is null, or an array whose length is `ac_count`. -/
structure ContainerConfig where
  addr : Word
  magic : Word := secureshieldContainerMagic
  type : Word
  stackSecure : Addr
  stackArea : Addr
  acTable : Option (List ContainerAcItem)
  textStart : Word := 0
  textEnd : Word := 0
  rodataStart : Word := 0
  rodataEnd : Word := 0
  dataStart : Word := 0
  bssEnd : Word := 0

/-- The size of `CONTAINER_CONFIG`: seventeen words. -/
def containerConfigSize : Word := 68

/-! ### Tables -/

structure MpuRegion where
  base : Word
  attr : Word
  size : Word
  ac : Word
  deriving DecidableEq

structure ContainerInterface where
  func : Word
  argsNum : Word

structure ContainerAux where
  start : Word
  stop : Word

/-- `SECURESHIELD_INT_HANDLER`; a null handler is 0 -/
structure IntHandler where
  handler : Word
  id : Nat
  enabled : Bool

structure ContainerStackItem where
  srcId : Nat
  srcSp : Addr

structure ContainerContext where
  curSp : Addr
  normalSp : Word
  cpuStatus : Word
  cfg : Option ContainerConfig

/-- What a container call leaves behind the trap instruction: `CONTAINER_CALL`. -/
structure ContainerCall where
  opcode : Word
  magic : Word
  dstFn : Word
  cfgPtr : Word

structure State where
  /-- `g_vmpu_container_count` -/
  containerCount : Nat
  /-- `g_active_container` -/
  activeContainer : Nat
  /-- `g_container_stack`, `g_container_stack_ptr`, `g_container_stack_curr_id` -/
  stack : Nat → ContainerStackItem
  stackPtr : Nat
  stackCurrId : Nat
  /-- `g_container_context` -/
  context : Nat → ContainerContext
  /-- `g_mpu_slot` -/
  mpuSlot : Nat
  /-- `g_mpu_region_count`, `g_mpu_list`, `g_mpu_container` -/
  mpu : Slab MpuRegion
  /-- `g_interface_count`, `g_interface_list`, `g_interface_container` -/
  iface : Slab ContainerInterface
  /-- `g_aux_count`, `g_aux_list`, `g_aux_container` -/
  aux : Slab ContainerAux
  /-- `g_secure_sid_mask` -/
  secureSidMask : Word
  /-- the static `vmpu_load` of `vmpu_switch` -/
  vmpuLoad : Bool
  /-- `secureshield_int_handler_table`, indexed from the first interrupt -/
  intHandler : Nat → IntHandler
  /-- `dst_container_user_sp` -/
  dstContainerUserSp : Word
  hw : Hw
  mem : Addr → Word
  /-- the call structure memory holds behind a trap at an address -/
  call : Word → ContainerCall

/-- Zeroed globals over some hardware and memory. -/
def State.reset (hw : Hw) (mem : Addr → Word) (call : Word → ContainerCall) : State where
  containerCount := 0
  activeContainer := 0
  stack := fun _ => ⟨0, 0⟩
  stackPtr := 0
  stackCurrId := 0
  context := fun _ => ⟨0, 0, 0, none⟩
  mpuSlot := 0
  mpu := Slab.empty ⟨0, 0, 0, 0⟩
  iface := Slab.empty ⟨0, 0⟩
  aux := Slab.empty ⟨0, 0⟩
  secureSidMask := 0
  vmpuLoad := false
  intHandler := fun _ => ⟨0, 0, false⟩
  dstContainerUserSp := 0
  hw := hw
  mem := mem
  call := call

/-- The state before initialisation on hardware and memory that are all zero. -/
def State.blank : State :=
  State.reset ⟨fun _ => 0, fun _ => ⟨0, 0, 0, false⟩, fun _ => .rdb 0 0⟩ (fun _ => 0)
    (fun _ => ⟨0, 0, 0, 0⟩)

/-- `cfg->type`.  The pointer is null until the container is set up, and then the
field is the word at byte address 8. -/
def containerType (s : State) (id : Nat) : Word :=
  match (s.context id).cfg with
  | some cfg => cfg.type
  | none => s.mem 2

def containerIsSecure (s : State) (id : Nat) : Bool := containerType s id != 0

/-! ### Frames in memory -/

/-- A register of the exception frame at an address. -/
def State.exc (s : State) (b : Build) (frame : Addr) (r : ExcReg) : Word :=
  s.mem (frame + excOfs b r)

def State.setExc (s : State) (b : Build) (frame : Addr) (r : ExcReg) (val : Word) : State :=
  { s with mem := Function.update s.mem (frame + excOfs b r) val }

/-- A register of the callee frame at an address. -/
def State.setCallee (s : State) (b : Build) (frame : Addr) (r : CalleeReg) (val : Word) : State :=
  { s with mem := Function.update s.mem (frame + calleeOfs b r) val }

end Embarc
