/-
Registers with fields.

A field of a register is named by its mask.  Reading it is `x &&& m`; writing it is the usual
read-modify-write, which clears the field and then sets the bits of a value that lies within the
mask.  What is written to one field is not seen in a field with a disjoint mask.
-/
import Mathlib.Tactic.Common

namespace Field

variable {w : Nat} {x v m f : BitVec w}

/-- The field `m` of `x` is replaced by `v`. -/
def set (x m v : BitVec w) : BitVec w := x &&& ~~~m ||| v

theorem clear_get_self (x m : BitVec w) : x &&& ~~~m &&& m = 0 := by
  rw [BitVec.and_assoc, BitVec.and_comm (~~~m), BitVec.and_not_self]
  simp

theorem clear_get_of_disjoint (h : m &&& f = 0) : x &&& ~~~m &&& f = x &&& f := by
  ext i hi
  have hbit : (m &&& f)[i] = (0 : BitVec w)[i] := by rw [h]
  simp only [BitVec.getElem_and, BitVec.ofNat_eq_ofNat, BitVec.getElem_zero] at hbit
  cases hm : m[i] <;> simp_all

theorem or_get_of_disjoint (h : v &&& f = 0) : (x ||| v) &&& f = x &&& f := by
  rw [BitVec.and_or_distrib_right, h]
  simp

theorem or_get_self (h : v &&& m = v) (hx : x &&& m = 0) : (x ||| v) &&& m = v := by
  rw [BitVec.and_or_distrib_right, hx, h]
  simp

/-- Clearing bits of a register that lies within `m` leaves it there. -/
theorem clear_within (h : x &&& ~~~m = 0) (f : BitVec w) : x &&& ~~~f &&& ~~~m = 0 := by
  rw [BitVec.and_assoc, BitVec.and_comm (~~~f), ← BitVec.and_assoc, h]
  simp

theorem set_get_self (h : v &&& m = v) : set x m v &&& m = v :=
  or_get_self h (clear_get_self x m)

theorem set_get_of_disjoint (hv : v &&& m = v) (h : m &&& f = 0) : set x m v &&& f = x &&& f := by
  have hvf : v &&& f = 0 := by
    rw [← hv, BitVec.and_assoc, h]
    simp
  rw [set, or_get_of_disjoint hvf, clear_get_of_disjoint h]

end Field
