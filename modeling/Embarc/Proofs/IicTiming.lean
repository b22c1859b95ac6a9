/-
The counts of the DesignWare IIC last as long as the bus demands.

A number of periods is long enough if it takes the time in question or more; with a clock in kHz
and a time in nanoseconds this is a comparison of products.  Up to 1 GHz the period is rounded
down and the count up, so both roundings are on the safe side.  Above, the period is rounded to
zero, and only the least counts of the controller remain.
-/
import Embarc.DesignWare.IicTiming

namespace Embarc

/-- `cnt` periods of the clock take `ns` or longer. -/
def Lasts (clkKhz ns cnt : Word) : Prop := ns.toNat * clkKhz.toNat ≤ cnt.toNat * 1000000

/-- Every count is long enough, and is not below what the controller needs for the spikes. -/
structure DwIicSclCnt.Holds (clkKhz caploading : Word) (sp : DwIicSpklen) (c : DwIicSclCnt) :
    Prop where
  fsSpike : Lasts clkKhz dwIicFsSpklenNs sp.fsSpklen
  hsSpike : Lasts clkKhz dwIicHsSpklenNs sp.hsSpklen
  ssHigh : Lasts clkKhz minDwIicSsHighTimeNs c.ssSclHcnt
  ssLow : Lasts clkKhz minDwIicSsLowTimeNs c.ssSclLcnt
  fsHigh : Lasts clkKhz minDwIicFsHighTimeNs c.fsSclHcnt
  fsLow : Lasts clkKhz minDwIicFsLowTimeNs c.fsSclLcnt
  hsHigh : Lasts clkKhz (minDwIicHsHighTimeNs caploading) c.hsSclHcnt
  hsLow : Lasts clkKhz (minDwIicHsLowTimeNs caploading) c.hsSclLcnt
  high : minDwIicSclHcnt sp.fsSpklen ≤ c.ssSclHcnt ∧ minDwIicSclHcnt sp.fsSpklen ≤ c.fsSclHcnt ∧
    minDwIicSclHcnt sp.hsSpklen ≤ c.hsSclHcnt
  low : minDwIicSclLcnt sp.fsSpklen ≤ c.ssSclLcnt ∧ minDwIicSclLcnt sp.fsSpklen ≤ c.fsSclLcnt ∧
    minDwIicSclLcnt sp.hsSpklen ≤ c.hsSclLcnt

theorem le_roundedUp {ns clkNs : Word} (hpos : 0 < clkNs.toNat) (hns : ns.toNat < 2 ^ 31) :
    ns.toNat ≤ (roundedUp ns clkNs).toNat * clkNs.toNat := by
  have hdiv := Nat.div_add_mod ns.toNat clkNs.toNat
  have hmod := Nat.mod_lt ns.toNat hpos
  have hle := Nat.div_le_self ns.toNat clkNs.toNat
  rw [Nat.mul_comm] at hdiv
  unfold roundedUp
  split
  · have hsucc : (ns / clkNs + 1).toNat = ns.toNat / clkNs.toNat + 1 := by
      rw [BitVec.toNat_add, BitVec.toNat_udiv]
      exact Nat.mod_eq_of_lt (by simp; omega)
    rw [hsucc, Nat.succ_mul]
    omega
  case isFalse hzero =>
    have hzero : ns.toNat % clkNs.toNat = 0 := by
      rw [← BitVec.toNat_umod, not_not.mp hzero]
      rfl
    rw [BitVec.toNat_udiv]
    omega

variable {clkKhz : Word}

/-- Rounded up against a period that is rounded down. -/
theorem lasts_roundedUp {ns : Word} (hclk : clkKhz ≠ 0) (hslow : clkKhz ≤ 1000000)
    (hns : ns.toNat < 2 ^ 31) : Lasts clkKhz ns (roundedUp ns (1000000 / clkKhz)) := by
  have hpos : 0 < clkKhz.toNat := by bv_omega
  have hle : clkKhz.toNat ≤ 1000000 := hslow
  have hns' := @le_roundedUp ns (1000000 / clkKhz) (Nat.div_pos hle hpos) hns
  calc ns.toNat * clkKhz.toNat
      ≤ (roundedUp ns (1000000 / clkKhz)).toNat * (1000000 / clkKhz.toNat) * clkKhz.toNat :=
        Nat.mul_le_mul_right _ hns'
    _ = (roundedUp ns (1000000 / clkKhz)).toNat * (1000000 / clkKhz.toNat * clkKhz.toNat) :=
        Nat.mul_assoc ..
    _ ≤ _ := Nat.mul_le_mul_left _ (Nat.div_mul_le_self ..)

theorem Lasts.mono {ns cnt cnt' : Word} (h : Lasts clkKhz ns cnt) (hle : cnt ≤ cnt') :
    Lasts clkKhz ns cnt' :=
  Nat.le_trans h (Nat.mul_le_mul_right _ hle)

theorem le_sclCnt (clkKhz ns minCnt : Word) : minCnt ≤ sclCnt clkKhz ns minCnt := by
  unfold sclCnt
  dsimp only
  generalize (if clkKhz ≤ 1000000 then _ else _ : Word) = cnt
  split <;> bv_omega

theorem lasts_sclCnt {ns : Word} (minCnt : Word) (hclk : clkKhz ≠ 0) (hslow : clkKhz ≤ 1000000)
    (hns : ns.toNat < 2 ^ 31) : Lasts clkKhz ns (sclCnt clkKhz ns minCnt) := by
  refine (lasts_roundedUp hclk hslow hns).mono ?_
  unfold sclCnt
  dsimp only
  rw [if_pos hslow]
  split <;> bv_omega

/-- Above 1 GHz what is left is the least count for the spikes, about an eightieth of what the
standard speed needs. -/
theorem not_lasts_ssHigh (hfast : ¬ clkKhz ≤ 1000000) :
    ¬ Lasts clkKhz minDwIicSsHighTimeNs (sclCnt clkKhz minDwIicSsHighTimeNs
      (minDwIicSclHcnt (dwIicCalcSpklen clkKhz).fsSpklen)) := by
  have hlt : 1000000 < clkKhz.toNat := by bv_omega
  have hzero : (1000000 / clkKhz : Word) = 0 :=
    BitVec.eq_of_toNat_eq (Nat.div_eq_of_lt hlt)
  have hspk : (minDwIicSclHcnt (dwIicFsSpklenNs * (clkKhz / 1000000))).toNat =
      50 * (clkKhz.toNat / 1000000) + 5 := by
    simp only [minDwIicSclHcnt, dwIicFsSpklenNs, BitVec.toNat_add, BitVec.toNat_mul,
      BitVec.toNat_udiv, BitVec.ofNat_eq_ofNat, BitVec.toNat_ofNat, Nat.reducePow, Nat.reduceMod]
    omega
  simp only [Lasts, sclCnt, dwIicCalcSpklen, if_neg hfast, hzero]
  split
  · rw [hspk]
    show ¬ 4000 * clkKhz.toNat ≤ _
    omega
  · show ¬ 4000 * clkKhz.toNat ≤ 0
    omega

/-- **The counts hold what the bus demands exactly up to 1 GHz.** -/
theorem iic_timing_iff (clkKhz caploading : Word) (hclk : clkKhz ≠ 0) :
    DwIicSclCnt.Holds clkKhz caploading (dwIicCalcSpklen clkKhz)
      (dwIicCalcSclcnt clkKhz caploading (dwIicCalcSpklen clkKhz)) ↔ clkKhz ≤ 1000000 := by
  constructor
  · intro h
    by_contra hfast
    exact not_lasts_ssHigh hfast h.ssHigh
  · intro hslow
    have hhigh : (minDwIicHsHighTimeNs caploading).toNat < 2 ^ 31 := by
      unfold minDwIicHsHighTimeNs
      split <;> decide
    have hlow : (minDwIicHsLowTimeNs caploading).toNat < 2 ^ 31 := by
      unfold minDwIicHsLowTimeNs
      split <;> decide
    have hspk : dwIicCalcSpklen clkKhz = _ := if_pos hslow
    exact
      { fsSpike := by
          rw [hspk]
          exact lasts_roundedUp hclk hslow (by decide)
        hsSpike := by
          rw [hspk]
          exact lasts_roundedUp hclk hslow (by decide)
        ssHigh := lasts_sclCnt _ hclk hslow (by decide)
        ssLow := lasts_sclCnt _ hclk hslow (by decide)
        fsHigh := lasts_sclCnt _ hclk hslow (by decide)
        fsLow := lasts_sclCnt _ hclk hslow (by decide)
        hsHigh := lasts_sclCnt _ hclk hslow hhigh
        hsLow := lasts_sclCnt _ hclk hslow hlow
        high := ⟨le_sclCnt .., le_sclCnt .., le_sclCnt ..⟩
        low := ⟨le_sclCnt .., le_sclCnt .., le_sclCnt ..⟩ }

theorem iic_timing_100mhz :
    DwIicSclCnt.Holds 100000 dwIicCapLoading100pf (dwIicCalcSpklen 100000)
      (dwIicCalcSclcnt 100000 dwIicCapLoading100pf (dwIicCalcSpklen 100000)) :=
  (iic_timing_iff 100000 dwIicCapLoading100pf (by decide)).mpr (by decide)

/-- At 2 GHz the high period of the standard speed is to last 4000 ns, and lasts 52.5. -/
theorem iic_timing_short :
    (dwIicCalcSclcnt 2000000 dwIicCapLoading100pf (dwIicCalcSpklen 2000000)).ssSclHcnt = 105 ∧
      ¬ DwIicSclCnt.Holds 2000000 dwIicCapLoading100pf (dwIicCalcSpklen 2000000)
        (dwIicCalcSclcnt 2000000 dwIicCapLoading100pf (dwIicCalcSpklen 2000000)) :=
  ⟨by decide, fun h => not_lasts_ssHigh (by decide) h.ssHigh⟩

end Embarc
