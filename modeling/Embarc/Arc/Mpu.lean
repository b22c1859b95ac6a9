/-
The memory protection unit, after `arc_mpu.c` and `arc_mpu.h`.

Versions 2 and 3 have a base and a permission register for each region; version 4
has start, end and permission registers, reached through an index register.  A
region's registers are one `MpuSlot`, and what `arc_mpu_region_config` writes into
them is `mpuSlotOf`, a function of its arguments alone.
-/
import Embarc.Arc.Build
import Mathlib.Logic.Function.Basic

namespace Embarc

/-! ### Masks and attributes -/

def auxMpuValidMask : Word := 0x1
def auxMpuRdpSizeMask : Word := 0xE03
def auxMpuRperAttrMask : Word := 0x1FF

def auxMpuAttrMask : MpuVersion → Word
  | .v2 => 0xFFB
  | .v3 => 0x1F8
  | .v4 => 0xFF81F9

def arcFeatureMpuAlignmentBits : MpuVersion → Nat
  | .v2 => 11
  | .v3 => 5
  | .v4 => 5

def arcFeatureMpuAlignment (v : MpuVersion) : Word := 1#32 <<< arcFeatureMpuAlignmentBits v

def arcFeatureMpuAlignmentMask (v : MpuVersion) : Word := arcFeatureMpuAlignment v - 1

def auxMpuAttrUe : Word := 0x008
def auxMpuAttrUw : Word := 0x010
def auxMpuAttrUr : Word := 0x020
def auxMpuAttrKe : Word := 0x040
def auxMpuAttrKw : Word := 0x080
def auxMpuAttrKr : Word := 0x100
def auxMpuAttrS : Word := 0x8000
def auxMpuAttrSidOffset : Nat := 16

/-! ### The registers of a region -/

/-- One region's registers: `RDB`/`RDP` in versions 2 and 3, `RSTART`/`REND`/`RPER`
in version 4. -/
inductive MpuSlot
  | rdb (base perm : Word)
  | rper (start stop perm : Word)
  deriving DecidableEq

/-- The valid bit: in the base register, or in the permission register of version 4. -/
def MpuSlot.valid : MpuSlot → Bool
  | .rdb base _ => hasFlag base auxMpuValidMask
  | .rper _ _ perm => hasFlag perm auxMpuValidMask

/-- `arc_find_msb`: the most significant bit set, counted from 1; 0 for zero. -/
def arcFindMsb (x : Word) : Nat := embarcBits x

/-- `AUX_MPU_RDP_REGION_SIZE(bits)` -/
def auxMpuRdpRegionSize (bits : Nat) : Word :=
  (BitVec.ofNat 32 (bits - 1) &&& 0x3) ||| ((BitVec.ofNat 32 (bits - 1) &&& 0x1C) <<< 7)

/-- The size exponent versions 2 and 3 encode: at least the granule, rounded up. -/
def mpuRegionBits (v : MpuVersion) (size : Word) : Nat :=
  let bits := max (arcFindMsb size - 1) (arcFeatureMpuAlignmentBits v)
  if shl1 bits < size then bits + 1 else bits

def calcRegionEndAddr (v : MpuVersion) (start size : Word) : Word :=
  start + size - arcFeatureMpuAlignment v

/-- What `arc_mpu_region_config` writes for a region, attributes already masked. -/
def mpuSlotOfMasked (v : MpuVersion) (base size attr : Word) : MpuSlot :=
  match v with
  | .v4 =>
    let size := if size < arcFeatureMpuAlignment v then arcFeatureMpuAlignment v else size
    let perm := if attr ≠ 0 then (attr &&& auxMpuRperAttrMask) ||| auxMpuValidMask else attr
    .rper base (calcRegionEndAddr v base size) perm
  | _ =>
    if 0 < size then
      .rdb (base ||| auxMpuValidMask)
        ((attr &&& ~~~auxMpuRdpSizeMask) ||| auxMpuRdpRegionSize (mpuRegionBits v size))
    else
      .rdb 0 attr

/-- What `arc_mpu_region_config` writes for a region. -/
def mpuSlotOf (v : MpuVersion) (base size attr : Word) : MpuSlot :=
  mpuSlotOfMasked v base size (attr &&& auxMpuAttrMask v)

/-- `arc_mpu_region_config`: an index beyond the last region is ignored. -/
def arcMpuRegionConfig (b : Build) (mpu : Nat → MpuSlot) (index : Nat)
    (base size attr : Word) : Nat → MpuSlot :=
  if b.mpuRegions ≤ index then mpu
  else Function.update mpu index (mpuSlotOf b.mpuVersion base size attr)

variable {b : Build} {i : Nat}

theorem arcMpuRegionConfig_self (mpu : Nat → MpuSlot) (h : i < b.mpuRegions)
    (base size attr : Word) :
    arcMpuRegionConfig b mpu i base size attr i = mpuSlotOf b.mpuVersion base size attr := by
  rw [arcMpuRegionConfig, if_neg (Nat.not_le.mpr h)]
  exact Function.update_self ..

theorem arcMpuRegionConfig_ne (mpu : Nat → MpuSlot) {j : Nat} (h : j ≠ i) (base size attr : Word) :
    arcMpuRegionConfig b mpu i base size attr j = mpu j := by
  unfold arcMpuRegionConfig
  split
  · rfl
  · exact Function.update_of_ne h ..

theorem arcMpuRegionConfig_of_le (mpu : Nat → MpuSlot) (h : b.mpuRegions ≤ i)
    (base size attr : Word) : arcMpuRegionConfig b mpu i base size attr = mpu := by
  rw [arcMpuRegionConfig, if_pos h]

/-! ### Looking up an address -/

def auxMpuIndexDefault : Word := 0x80000000
def auxMpuIndexMult : Word := 0x40000000

/-- The base register, `RDB` or `RSTART`. -/
def MpuSlot.base : MpuSlot → Word
  | .rdb base _ => base
  | .rper start _ _ => start

/-- The permission register, `RDP` or `RPER`. -/
def MpuSlot.perm : MpuSlot → Word
  | .rdb _ perm => perm
  | .rper _ _ perm => perm

/-- The size field of a permission register, as `arc_mpu_in_region` puts it together. -/
def mpuSizeField (v : MpuVersion) (perm : Word) : Nat :=
  let attr := perm &&& auxMpuAttrMask v
  ((attr &&& 0x3) ||| ((attr >>> 7) &&& 0x1C)).toNat

/-- The hardware's test of version 4; the end register names the last granule. -/
def MpuSlot.matches (addr : Word) : MpuSlot → Bool
  | .rper start stop perm => hasFlag perm auxMpuValidMask && decide (start ≤ addr) &&
      decide (addr.toNat < stop.toNat + 32)
  | .rdb _ _ => false

/-- What version 4 has in `AUX_MPU_INDEX` after a write to `AUX_MPU_PROBE`. -/
def mpuProbeIndex (b : Build) (mpu : Nat → MpuSlot) (addr : Word) : Word :=
  match (List.range b.mpuRegions).filter fun i => (mpu i).matches addr with
  | [] => auxMpuIndexDefault
  | [i] => BitVec.ofNat 32 i
  | _ => auxMpuIndexMult

/-- The version 4 branch of `arc_mpu_probe`. -/
def arcMpuProbeIndexed (b : Build) (mpu : Nat → MpuSlot) (addr : Word) : Int :=
  let index := mpuProbeIndex b mpu addr
  if hasFlag index (auxMpuIndexDefault ||| auxMpuIndexMult) then -1 else index.toInt

def arcMpuInRegion (b : Build) (mpu : Nat → MpuSlot) (index : Nat) (start size : Word) : Bool :=
  match b.mpuVersion with
  | .v4 =>
    BitVec.ofNat 32 index == BitVec.ofInt 32 (arcMpuProbeIndexed b mpu start) &&
      BitVec.ofNat 32 index == BitVec.ofInt 32 (arcMpuProbeIndexed b mpu (start + size))
  | v =>
    let rAddrStart := (mpu index).base &&& ~~~auxMpuValidMask
    let rAddrEnd := rAddrStart + shl1 (mpuSizeField v (mpu index).perm + 1)
    decide (rAddrStart ≤ start) && decide (start + size < rAddrEnd)

def arcMpuProbe (b : Build) (mpu : Nat → MpuSlot) (addr : Word) : Int :=
  match b.mpuVersion with
  | .v4 => arcMpuProbeIndexed b mpu addr
  | _ =>
    match (List.range b.mpuRegions).find? fun index => arcMpuInRegion b mpu index addr 0 with
    | some index => index
    | none => -1

theorem mpuSlotOf_zero_valid (v : MpuVersion) : (mpuSlotOf v 0 0 0).valid = false := by
  cases v <;> decide

end Embarc
