/-
The integer types of the C sources, and the error codes of `embARC_error.h`.

A count that is stored in a variable is reduced to the variable's width there; everything
else about it is a natural number.
-/
import Embarc.Arc.Toolchain

namespace Embarc

abbrev Byte := BitVec 8

/-- A `uint16_t` as it is stored. -/
def u16 (n : Nat) : Nat := n % 2 ^ 16

/-- A `uint32_t` or `unsigned int` as it is stored. -/
def u32 (n : Nat) : Nat := n % 2 ^ 32

/-- A count stored in an `int32_t`. -/
def i32 (n : Nat) : Int := (BitVec.ofNat 32 n).toInt

variable {n : Nat}

theorem u16_of_lt (h : n < 2 ^ 16) : u16 n = n := Nat.mod_eq_of_lt h

theorem u32_of_lt (h : n < 2 ^ 32) : u32 n = n := Nat.mod_eq_of_lt h

theorem i32_toNat (h : n < 2 ^ 31) : (i32 n).toNat = n := by
  have hword : (BitVec.ofNat 32 n).toNat = n := by
    rw [BitVec.toNat_ofNat]
    omega
  rw [i32, BitVec.toInt_eq_toNat_of_lt (by omega), hword]
  rfl

/-- A larger count is stored as a negative number. -/
theorem i32_toNat_eq_zero (h : 2 ^ 31 ≤ n) (hword : n < 2 ^ 32) : (i32 n).toNat = 0 := by
  have htoNat : (BitVec.ofNat 32 n).toNat = n := by
    rw [BitVec.toNat_ofNat]
    omega
  rw [i32, BitVec.toInt_eq_toNat_cond, htoNat]
  split <;> omega

/-! ### Error codes -/

def eOk : Int := 0
def eSys : Int := -5
def eOpned : Int := -6
def eClsed : Int := -7
def eNospt : Int := -9
def ePar : Int := -17
def eCtx : Int := -25
def eNomem : Int := -33
def eNores : Int := -35
def eObj : Int := -41
def eTmout : Int := -50

/-- A call that returned no error has passed its checks. -/
theorem check_ok {σ : Type} {c : Prop} [Decidable c] {ercd : Int} {a : σ} {r : Int × σ}
    (hercd : ercd ≠ eOk) (h : (if c then (ercd, a) else r).1 = eOk) :
    ¬c ∧ (if c then (ercd, a) else r) = r := by
  by_cases hc : c
  · rw [if_pos hc] at h
    exact absurd h hercd
  · exact ⟨hc, if_neg hc⟩

end Embarc
