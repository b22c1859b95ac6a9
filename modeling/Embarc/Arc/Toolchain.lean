/-
Words, and the bit macros of `embARC_toolchain.h`.

All registers, addresses and flags of the processor are 32-bit words.  The shift
in `EMBARC_POW2_CEIL` can be asked for a count outside the word (its argument must
be positive, says its comment, and nothing checks); the processor's shifter looks
at the low five bits of the count only, and so does `shl1`.
-/
import Mathlib.Tactic.NormNum

namespace Embarc

/-- A machine word. -/
abbrev Word := BitVec 32

/-- A stack address, counted in words. -/
abbrev Addr := Nat

/-- The word a stack address is stored as. -/
def addrWord (a : Addr) : Word := BitVec.ofNat 32 (4 * a)

/-- `x & f` used as a condition. -/
def hasFlag (x f : Word) : Bool := x &&& f != 0

theorem hasFlag_or (x y f : Word) : hasFlag (x ||| y) f = (hasFlag x f || hasFlag y f) := by
  unfold hasFlag
  rw [BitVec.and_comm, BitVec.and_or_distrib_left, BitVec.and_comm f x, BitVec.and_comm f y]
  rw [Bool.eq_iff_iff, Bool.or_eq_true, bne_iff_ne, bne_iff_ne, bne_iff_ne, ← not_and_or]
  exact not_congr BitVec.or_eq_zero_iff

/-- `EMBARC_CLZ`: leading zeros, 32 for zero. -/
def embarcClz (x : Word) : Nat := if x = 0 then 32 else 31 - Nat.log2 x.toNat

def embarcBits (x : Word) : Nat := 32 - embarcClz x

/-- `1 << n`, the count reduced as the shifter reduces it. -/
def shl1 (n : Int) : Word := 1#32 <<< (n % 32).toNat

def embarcPow2Ceil (x : Word) : Word :=
  if shl1 (31 - embarcClz x) < x then shl1 (31 - embarcClz x + 1) else shl1 (31 - embarcClz x)

end Embarc
