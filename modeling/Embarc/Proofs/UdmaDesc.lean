/-
What the descriptors of the uDMA controller say.

The size is put into its field without a check, so a size of more than 8192 bytes runs over into the
arbitration size.  Within the field, the gap between the first and the last item is computed from
the size less one by shifts and masks; for a size of whole items this is the number of items less
one, times the increment.
-/
import Embarc.Arc.UdmaDesc

namespace Embarc

namespace DmaDwinc

def width : DmaDwinc → Nat
  | dw1inc1 | dw1inc2 | dw1inc4 => 1
  | dw2inc2 | dw2inc4 => 2
  | dw4inc4 | clr => 4
  | dw8inc8 => 8

/-- The distance of items in memory. -/
def inc : DmaDwinc → Nat
  | dw1inc1 => 1
  | dw1inc2 | dw2inc2 => 2
  | dw1inc4 | dw2inc4 | dw4inc4 | clr => 4
  | dw8inc8 => 8

end DmaDwinc

/-- The address of the last of `n` bytes from `addr` on: it is that of the first item if the address
is not incremented, and in memory and in auxiliary registers the items have different distances. -/
structure EndsAt (am dtt ctrl addr : Word) (n : Nat) (last : Word) : Prop where
  fixed : hasFlag ctrl am = false → last = addr
  memory : hasFlag ctrl am → hasFlag ctrl dtt = false →
    last = addr + BitVec.ofNat 32 ((n / (dmacDwinc ctrl).width - 1) * (dmacDwinc ctrl).inc)
  aux : hasFlag ctrl am → hasFlag ctrl dtt → (dmacDwinc ctrl).width ≠ 8 →
    last = addr + BitVec.ofNat 32 (n / (dmacDwinc ctrl).width - 1)

structure DmaDesc.Says (src dst ctrl : Word) (n : Nat) (d : DmaDesc) : Prop where
  size : (dmacSize d.dmactrl).toNat + 1 = n
  others : d.dmactrl &&& ~~~dmactrlSizeMask = ctrl &&& ~~~dmactrlSizeMask
  src : EndsAt (1#32 <<< 30) (2#32 <<< 3) ctrl src n d.dmasar
  dst : EndsAt (2#32 <<< 30) (1#32 <<< 3) ctrl dst n d.dmadar

theorem dmacSize_lt (mode : Word) : (dmacSize mode).toNat < 2 ^ 13 := by
  have hle : (mode &&& dmactrlSizeMask).toNat ≤ 0x1FFF00 := by
    rw [BitVec.toNat_and]
    exact Nat.and_le_right
  rw [dmacSize, BitVec.toNat_ushiftRight, Nat.shiftRight_eq_div_pow]
  omega

theorem dmacSize_set (mode : Word) {s : Word} (hs : s.toNat < 2 ^ 13) :
    dmacSize (Field.set mode dmactrlSizeMask (s <<< 8)) = s ∧
      ∀ f, dmactrlSizeMask &&& f = 0 →
        Field.set mode dmactrlSizeMask (s <<< 8) &&& f = mode &&& f := by
  have hmask : s &&& 0x1FFF#32 = s :=
    BitVec.eq_of_toNat_eq ((BitVec.toNat_and ..).trans (Nat.and_two_pow_sub_one_of_lt_two_pow hs))
  have hfit : s <<< 8 &&& dmactrlSizeMask = s <<< 8 := by
    rw [dmactrlSizeMask, ← BitVec.shiftLeft_and_distrib, hmask]
  refine ⟨?_, fun f hf => Field.set_get_of_disjoint hfit hf⟩
  rw [dmacSize, Field.set_get_self hfit]
  bv_omega

variable {mode : Word} {n : Nat}

section
variable (hsize : (dmacSize mode).toNat + 1 = n) (hcopy : dmacDwinc mode ≠ .clr)
  (hwhole : (dmacDwinc mode).width ∣ n)
include hsize hcopy hwhole

theorem memoryAddrGap_eq :
    dmacMemoryAddrGap mode =
      BitVec.ofNat 32 ((n / (dmacDwinc mode).width - 1) * (dmacDwinc mode).inc) := by
  -- clearing low bits rounds down to whole items
  have hround : ∀ k, dmacSize mode &&& BitVec.allOnes 32 <<< k = dmacSize mode >>> k <<< k :=
    fun _ => BitVec.shiftLeft_ushiftRight.symm
  have h₂ : dmacSize mode &&& ~~~0x1#32 = dmacSize mode >>> 1 <<< 1 := hround 1
  have h₄ : dmacSize mode &&& ~~~0x3#32 = dmacSize mode >>> 2 <<< 2 := hround 2
  have h₈ : dmacSize mode &&& ~~~0x7#32 = dmacSize mode >>> 3 <<< 3 := hround 3
  apply BitVec.eq_of_toNat_eq
  cases hd : dmacDwinc mode with
  | clr => exact absurd hd hcopy
  | _ =>
    simp only [dmacMemoryAddrGap, hd, DmaDwinc.width, DmaDwinc.inc, h₂, h₄, h₈,
      BitVec.toNat_shiftLeft, BitVec.toNat_ushiftRight, Nat.shiftLeft_eq,
      Nat.shiftRight_eq_div_pow, BitVec.toNat_ofNat] at hwhole ⊢
    omega

theorem auxAddrGap_eq (hwidth : (dmacDwinc mode).width ≠ 8) :
    dmacAuxAddrGap mode = BitVec.ofNat 32 (n / (dmacDwinc mode).width - 1) := by
  apply BitVec.eq_of_toNat_eq
  cases hd : dmacDwinc mode with
  | clr => exact absurd hd hcopy
  | dw8inc8 => exact absurd (congrArg DmaDwinc.width hd) hwidth
  | _ =>
    simp only [dmacAuxAddrGap, hd, DmaDwinc.width, BitVec.toNat_ushiftRight,
      Nat.shiftRight_eq_div_pow, BitVec.toNat_ofNat] at hwhole ⊢
    omega

end

theorem calcEndaddr_endsAt {ctrl : Word} (am dtt addr : Word)
    (hsize : (dmacSize mode).toNat + 1 = n) (hcopy : dmacDwinc ctrl ≠ .clr)
    (hwhole : (dmacDwinc ctrl).width ∣ n)
    (hsame : ∀ f, dmactrlSizeMask &&& f = 0 → mode &&& f = ctrl &&& f)
    (ham : dmactrlSizeMask &&& am = 0) (hdtt : dmactrlSizeMask &&& dtt = 0) :
    EndsAt am dtt ctrl addr n (dmacCalcEndaddr am dtt addr mode) := by
  have hdw : dmacDwinc mode = dmacDwinc ctrl := by
    unfold dmacDwinc
    rw [hsame dmactrlDwincMask (by decide)]
  rw [← hdw] at hcopy hwhole
  have hflag : ∀ {f}, dmactrlSizeMask &&& f = 0 → hasFlag mode f = hasFlag ctrl f := by
    intro f hf
    unfold hasFlag
    rw [hsame f hf]
  have hinc : mode &&& am = 0 ↔ hasFlag ctrl am = false := by
    rw [← hflag ham]
    simp [hasFlag]
  unfold dmacCalcEndaddr
  constructor
  · intro hfixed
    rw [if_pos (hinc.mpr hfixed)]
  · intro hmoves hmem
    rw [if_neg fun h => by simp [hinc.mp h] at hmoves, hflag hdtt, if_neg (by simp [hmem]), ← hdw,
      memoryAddrGap_eq hsize hcopy hwhole]
  · intro hmoves haux hwidth
    rw [← hdw] at hwidth
    rw [if_neg fun h => by simp [hinc.mp h] at hmoves, hflag hdtt, if_pos haux, ← hdw,
      auxAddrGap_eq hsize hcopy hwhole hwidth]

/-- **A descriptor for a whole number of items says what was asked for if and only if** it is for at
most 8192 bytes. -/
theorem udma_desc_iff {desc src dst size ctrl : Word} (hdesc : desc ≠ 0) (hsize : size ≠ 0)
    (hcopy : dmacDwinc ctrl ≠ .clr) (hwhole : (dmacDwinc ctrl).width ∣ size.toNat) :
    ∃ d, dmacConfigDesc desc src dst size ctrl = (0, some d) ∧
      (d.Says src dst ctrl size.toNat ↔ size.toNat ≤ 8192) := by
  refine ⟨_, if_neg hdesc, ?_⟩
  constructor
  · intro h
    have := dmacSize_lt (dmacSetDesc src dst size ctrl).dmactrl
    have := h.size
    omega
  · intro hle
    obtain ⟨hback, hsame⟩ := dmacSize_set ctrl (show (size - 1).toNat < 2 ^ 13 by bv_omega)
    have hread : (dmacSize (Field.set ctrl dmactrlSizeMask ((size - 1) <<< 8))).toNat + 1 =
        size.toNat := by
      bv_omega
    exact ⟨hread, hsame _ (by decide),
      calcEndaddr_endsAt _ _ src hread hcopy hwhole hsame (by decide) (by decide),
      calcEndaddr_endsAt _ _ dst hread hcopy hwhole hsame (by decide) (by decide)⟩

theorem udma_desc_words :
    ∃ d, dmacConfigDesc 4 0x80000000 0x90000000 64 0xC00000A1 = (0, some d) ∧
      d.Says 0x80000000 0x90000000 0xC00000A1 64 := by
  obtain ⟨d, hd, h⟩ := @udma_desc_iff 4 0x80000000 0x90000000 64 0xC00000A1 (by decide) (by decide)
    (by decide) (by decide)
  exact ⟨d, hd, h.mpr (by decide)⟩

/-- A size of 8193 bytes is kept as one byte, and the arbitration size has changed. -/
theorem udma_desc_runs_over :
    ∃ d, dmacConfigDesc 4 0x80000000 0x90000000 8193 0xC0000001 = (0, some d) ∧
      (dmacSize d.dmactrl).toNat + 1 = 1 ∧ d.dmactrl = 0xC0200001 :=
  ⟨_, rfl, by decide, by decide⟩

end Embarc
