/-
Auxiliary registers as a resource: `secureshield_sys.c`.

A container may read and write the auxiliary registers in the ranges its access
control table lists, and those listed for the background container.
-/
import Embarc.SecureShield.State

namespace Embarc

/-- `vmpu_ac_aux`: a full table turns the request down without a halt. -/
def vmpuAcAux (b : Build) (s : State) (containerId : Nat) (start size : Word) : Int × State :=
  if b.containerAuxCount ≤ s.aux.used then (-1, s)
  else if secureshieldMaxContainers ≤ containerId then (-1, s)
  else (0, { s with aux := s.aux.add containerId ⟨start, start + size⟩ })

/-- Some range of the container holds the address. -/
def auxListed (s : State) (containerId : Nat) (addr : Word) : Bool :=
  (s.aux.slice containerId).any fun a => decide (a.start ≤ addr) && decide (addr < a.stop)

def secureshieldAuxCheck (s : State) (containerId : Nat) (addr : Word) : Int :=
  if secureshieldMaxContainers ≤ containerId then -1
  else if auxListed s containerId addr then 0
  else if (s.aux.owner 0).ptr.isNone then -1
  else if auxListed s 0 addr then 0
  else -1

def secureArcLrReg (s : State) (addr : Word) : Word :=
  if secureshieldAuxCheck s s.activeContainer addr ≠ 0 then 0xffffffff
  else arcAuxRead s.hw addr

def secureArcSrReg (s : State) (addr val : Word) : State :=
  if secureshieldAuxCheck s s.activeContainer addr = 0 then
    { s with hw := arcAuxWrite s.hw addr val }
  else s

/-- `secure_container_id_caller`: -1 with nothing on the stack. -/
def secureContainerIdCaller (s : State) : Word :=
  if s.stackPtr < 1 then 0xffffffff else BitVec.ofNat 32 (s.stack (s.stackPtr - 1)).srcId

/-! ### The system service

Version 1 takes its arguments from the registers of a trap frame and leaves the
result there; version 2 is called with them.
-/

def secureshieldSysLr : Word := 0
def secureshieldSysSr : Word := 1
def secureshieldSysContainerIdSelf : Word := 2
def secureshieldSysContainerIdCaller : Word := 3

/-- The version 1 `secureshield_sys_ops`: a write and an unknown operation leave r0 alone. -/
def secureshieldSysOps (b : Build) (s : State) (frame : Addr) : State :=
  let op := s.exc b frame .r0
  if op = secureshieldSysLr then
    s.setExc b frame .r0 (secureArcLrReg s (s.exc b frame .r1))
  else if op = secureshieldSysSr then
    secureArcSrReg s (s.exc b frame .r1) (s.exc b frame .r2)
  else if op = secureshieldSysContainerIdSelf then
    s.setExc b frame .r0 (BitVec.ofNat 32 s.activeContainer)
  else if op = secureshieldSysContainerIdCaller then
    s.setExc b frame .r0 (secureContainerIdCaller s)
  else s

end Embarc
