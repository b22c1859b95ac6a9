/-
The MPU region table.

`vmpuAcMem` tests a request against every recorded region before it records it, and
the table is meant to hold regions that do not overlap unless they are shared.  The
test looks at the requested size and adds in 32-bit arithmetic; the region that is
recorded has the size `sizeRounded` makes of it.  So the table is kept apart as long
as rounding never grows a region and no sum runs past the end of the address space,
which is what `MemRequestFits` says of a request in the state it is made in.
-/
import Embarc.SecureShield.VmpuArc

namespace Embarc

open Trace

/-! ### Address ranges -/

/-- The address lies in the range of the region, taken without wrap-around. -/
def MpuRegion.contains (r : MpuRegion) (addr : Nat) : Prop :=
  r.base.toNat ≤ addr ∧ addr < r.base.toNat + r.size.toNat

instance (r : MpuRegion) (addr : Nat) : Decidable (r.contains addr) :=
  inferInstanceAs (Decidable (_ ∧ _))

/-- The end of the range, taken without wrap-around. -/
def MpuRegion.stop (r : MpuRegion) : Nat := r.base.toNat + r.size.toNat

def bothShared (ac ac' : Word) : Bool := hasFlag ac acShared && hasFlag ac' acShared

variable {size ac x mask : Word} {r : MpuRegion} {k c : Nat} {b : Build} {s : State}

/-- What the overlap test of a request finds, as long as nothing wraps. -/
theorem regionConflict_eq_false {addr : Word} (hreq : addr.toNat + size.toNat ≤ 2 ^ 32)
    (hr : r.stop < 2 ^ 32)
    (hshared : bothShared r.ac ac = false) (h : regionConflict addr (addr + size - 1) ac r = false)
    (a : Nat) (ha : addr.toNat ≤ a ∧ a < addr.toNat + size.toNat) : ¬ r.contains a := by
  have hstop : (addr + size - 1).toNat = addr.toNat + size.toNat - 1 := by bv_omega
  have hend : (r.base + r.size).toNat = r.base.toNat + r.size.toNat := by
    unfold MpuRegion.stop at hr
    bv_omega
  unfold bothShared at hshared
  simp only [regionConflict, hshared, Bool.not_false, Bool.and_true, Bool.or_eq_false_iff,
    Bool.and_eq_false_iff, decide_eq_false_iff_not, BitVec.le_def, BitVec.lt_def, hstop, hend] at h
  unfold MpuRegion.contains
  omega

/-! ### Rounding -/

theorem embarcClz_of_ne_zero (hx : x ≠ 0) : (31 - embarcClz x : Int) = Nat.log2 x.toNat := by
  have hlt : Nat.log2 x.toNat < 32 :=
    (Nat.log2_lt (by simpa [← BitVec.toNat_inj] using hx)).mpr x.isLt
  rw [embarcClz, if_neg hx]
  omega

theorem shl1_toNat (hk : k < 32) : (shl1 k).toNat = 2 ^ k := by
  have hmod : ((k : Int) % 32).toNat = k := by omega
  have hlt : 2 ^ k < 2 ^ 32 := Nat.pow_lt_pow_right (by decide) hk
  rw [shl1, hmod, BitVec.toNat_shiftLeft, BitVec.toNat_ofNat, Nat.shiftLeft_eq]
  norm_num
  exact hlt

theorem embarcPow2Ceil_pow2 (hk : x.toNat = 2 ^ k) : embarcPow2Ceil x = x := by
  have hx : x ≠ 0 := by
    rintro rfl
    have := Nat.two_pow_pos k
    simp at hk
    omega
  have hlt : k < 32 := (Nat.pow_lt_pow_iff_right (by decide)).mp (hk ▸ x.isLt)
  have hlog : Nat.log2 x.toNat = k := by rw [hk, Nat.log2_two_pow]
  have hshl : shl1 (31 - embarcClz x) = x := by
    rw [embarcClz_of_ne_zero hx, hlog]
    exact BitVec.eq_of_toNat_eq (by rw [shl1_toNat hlt, hk])
  rw [embarcPow2Ceil, hshl, if_neg (BitVec.lt_irrefl x)]

/-- Half the ceiling of a size that needs rounding is not more than the size. -/
theorem embarcPow2Ceil_half_le (hx : x ≠ 0) : (embarcPow2Ceil x >>> 1).toNat ≤ x.toNat := by
  have hne : x.toNat ≠ 0 := by simpa [← BitVec.toNat_inj] using hx
  have hlog : Nat.log2 x.toNat < 32 := (Nat.log2_lt hne).mpr x.isLt
  have hle : 2 ^ Nat.log2 x.toNat ≤ x.toNat := Nat.log2_self_le hne
  rw [embarcPow2Ceil, embarcClz_of_ne_zero hx, BitVec.toNat_ushiftRight, Nat.shiftRight_one]
  split
  · by_cases h31 : Nat.log2 x.toNat = 31
    · -- the shifter has lost the bit: one, and half of it is nothing
      rw [h31]
      exact Nat.zero_le _
    · have hshl := shl1_toNat (k := Nat.log2 x.toNat + 1) (by omega)
      push_cast at hshl
      omega
  · rw [shl1_toNat hlog]
    omega

/-! ### What is recorded -/

theorem sizeRounded_ok {rounded : Word} (h : sizeRounded b size ac = .ok rounded) :
    (rounded = embarcPow2Ceil size ∧
        (embarcPow2Ceil size = size ∨ hasFlag ac acSizeRoundDown = false)) ∨
      (rounded = embarcPow2Ceil size >>> 1 ∧ hasFlag ac acSizeRoundDown = true ∧
        ¬ embarcPow2Ceil size >>> 1 < arcFeatureMpuAlignment b.mpuVersion) := by
  unfold sizeRounded at h
  by_cases hpow : embarcPow2Ceil size ≠ size
  · cases hdown : hasFlag ac acSizeRoundDown with
    | true =>
      simp only [if_pos hpow, hdown, if_true, Except.bind_eq_ok_iff, haltIf_eq_ok] at h
      obtain ⟨_, -, _, halign, h⟩ := h
      exact Or.inr ⟨(Except.ok.inj h).symm, rfl, halign⟩
    | false =>
      simp only [if_pos hpow, hdown, Bool.false_eq_true, if_false, Except.bind_eq_ok_iff,
        haltIf_eq_ok] at h
      obtain ⟨_, -, h⟩ := h
      exact Or.inl ⟨(Except.ok.inj h).symm, Or.inr rfl⟩
  · rw [if_neg hpow] at h
    exact Or.inl ⟨(Except.ok.inj h).symm, Or.inl (not_not.mp hpow)⟩

/-- Rounding does not grow a size that is a power of two or is rounded down. -/
theorem sizeRounded_le {rounded : Word} (hsize : size ≠ 0)
    (hfit : (∃ k, size.toNat = 2 ^ k) ∨ hasFlag ac acSizeRoundDown = true)
    (h : sizeRounded b size ac = .ok rounded) : rounded.toNat ≤ size.toNat := by
  rcases sizeRounded_ok h with ⟨rfl, hsame⟩ | ⟨rfl, -, -⟩
  · have hpow : embarcPow2Ceil size = size := by
      rcases hfit with ⟨k, hk⟩ | hdown
      · exact embarcPow2Ceil_pow2 hk
      · exact hsame.resolve_right (by simp [hdown])
    rw [hpow]
  · exact embarcPow2Ceil_half_le hsize

theorem vmpuAcUpdateContainerRegion_fields {base : Word}
    (h : vmpuAcUpdateContainerRegion b s c base size ac = .ok (r, mask)) :
    r.base = base ∧ r.ac = ac := by
  unfold vmpuAcUpdateContainerRegion at h
  split at h <;> simp only [Except.bind_eq_ok_iff] at h
  · obtain ⟨_, -, _, -, _, -, h⟩ := h
    cases h
    exact ⟨rfl, rfl⟩
  · obtain ⟨_, -, _, -, _, -, _, -, h⟩ := h
    cases h
    exact ⟨rfl, rfl⟩

theorem vmpuAcUpdateContainerRegion_size_v1 {base : Word} (hv : b.version = .v1)
    (h : vmpuAcUpdateContainerRegion b s c base size ac = .ok (r, mask)) :
    sizeRounded b size ac = .ok r.size := by
  unfold vmpuAcUpdateContainerRegion at h
  simp only [hv, Except.bind_eq_ok_iff] at h
  obtain ⟨rounded, hround, _, -, _, -, h⟩ := h
  cases h
  exact hround

theorem vmpuAcUpdateContainerRegion_size_v2 {base : Word} (hv : b.version = .v2)
    (h : vmpuAcUpdateContainerRegion b s c base size ac = .ok (r, mask)) : r.size = size := by
  unfold vmpuAcUpdateContainerRegion at h
  simp only [hv, Except.bind_eq_ok_iff] at h
  obtain ⟨_, -, _, -, _, -, _, -, h⟩ := h
  cases h
  rfl

/-- What an accepted `vmpuAcMem` has checked and what it has changed. -/
theorem vmpuAcMem_ok {s' : State} {addr : Word} (h : vmpuAcMem b s c addr size ac = .ok s') :
    ∃ r mask, (∀ i < s.mpu.used, regionConflict addr (addr + size - 1) ac (s.mpu.list i) = false) ∧
      vmpuAcUpdateContainerRegion b s c addr size ac = .ok (r, mask) ∧
      s' = { s with mpu := s.mpu.add c r, secureSidMask := mask } := by
  simp only [vmpuAcMem, memRegionChecks, Except.bind_eq_ok_iff, haltIf_eq_ok] at h
  obtain ⟨_, -, conflict, ⟨_, -, hconf⟩, _, hno, _, -, ⟨r, mask⟩, hr, hs⟩ := h
  refine ⟨r, mask, ?_, hr, (Except.ok.inj hs).symm⟩
  intro i hi
  cases hconf
  simp only [List.any_eq_true, List.mem_range, not_exists, not_and] at hno
  simpa using hno i hi

/-! ### Regions stay apart -/

/-- One `vmpu_ac_mem` call. -/
structure MemRequest where
  containerId : Nat
  addr : Word
  size : Word
  ac : Word

variable {q : MemRequest}

def memStep (b : Build) (s : State) (q : MemRequest) : Except Halt State :=
  vmpuAcMem b s q.containerId q.addr q.size q.ac

/-- The request and the recorded regions it is tested against end within the address
space, and rounding does not grow the request. -/
structure MemRequestFits (b : Build) (s : State) (q : MemRequest) : Prop where
  request : q.addr.toNat + q.size.toNat ≤ 2 ^ 32
  recorded : ∀ i < s.mpu.used, bothShared (s.mpu.list i).ac q.ac = false →
    (s.mpu.list i).stop < 2 ^ 32
  rounding : b.version = .v1 →
    q.size ≠ 0 ∧ ((∃ k, q.size.toNat = 2 ^ k) ∨ hasFlag q.ac acSizeRoundDown = true)

/-- No address lies in two recorded regions unless both are shared. -/
def RegionsApart (s : State) : Prop :=
  ∀ i j, i < s.mpu.used → j < s.mpu.used → i ≠ j →
    bothShared (s.mpu.list i).ac (s.mpu.list j).ac = false →
    ∀ a, (s.mpu.list i).contains a → ¬ (s.mpu.list j).contains a

/-- The region table as `vmpuAcMem` leaves it, whatever the order of the containers. -/
structure RegionTableOK (s : State) : Prop where
  apart : RegionsApart s
  /-- Behind the used part the table is still blank. -/
  blank : ∀ i, s.mpu.used ≤ i → (s.mpu.list i).size = 0
  null : ∀ c, (s.mpu.owner c).ptr = none → (s.mpu.owner c).count = 0
  /-- No container writes behind the first free entry. -/
  next : ∀ c, (s.mpu.assign c).next c ≤ s.mpu.used

theorem bothShared_comm (ac ac' : Word) : bothShared ac ac' = bothShared ac' ac := by
  simp only [bothShared, Bool.and_comm]

section
variable (hr : vmpuAcUpdateContainerRegion b s q.containerId q.addr q.size q.ac = .ok (r, mask))
include hr

/-- The recorded size of a request that fits is at most the size that was tested. -/
theorem MemRequestFits.size_le (hfit : MemRequestFits b s q) :
    r.size.toNat ≤ q.size.toNat := by
  cases hv : b.version with
  | v1 =>
    obtain ⟨hne, hround⟩ := hfit.rounding hv
    exact sizeRounded_le hne hround (vmpuAcUpdateContainerRegion_size_v1 hv hr)
  | v2 => rw [vmpuAcUpdateContainerRegion_size_v2 hv hr]

theorem MemRequestFits.new_apart (hfit : MemRequestFits b s q) {i : Nat} (hi : i < s.mpu.used)
    (hconf : regionConflict q.addr (q.addr + q.size - 1) q.ac (s.mpu.list i) = false)
    (hshared : bothShared (s.mpu.list i).ac q.ac = false) {a : Nat} (ha : r.contains a) :
    ¬ (s.mpu.list i).contains a := by
  have hsize := hfit.size_le hr
  have hbase := (vmpuAcUpdateContainerRegion_fields hr).1
  have hin : q.addr.toNat ≤ a ∧ a < q.addr.toNat + q.size.toNat := by
    unfold MpuRegion.contains at ha
    rw [hbase] at ha
    omega
  exact regionConflict_eq_false hfit.request (hfit.recorded i hi hshared) hshared hconf a hin

end

theorem contains_of_size_zero (h : r.size = 0) (a : Nat) : ¬ r.contains a := by
  intro ha
  unfold MpuRegion.contains at ha
  simp [h] at ha
  omega

theorem RegionTableOK.memStep {s' : State} (hs : RegionTableOK s) (hfit : MemRequestFits b s q)
    (h : memStep b s q = .ok s') : RegionTableOK s' := by
  obtain ⟨r, mask, hconf, hr, rfl⟩ := vmpuAcMem_ok h
  have hnext := hs.next q.containerId
  have hac := (vmpuAcUpdateContainerRegion_fields hr).2
  -- every other entry of the new table is clear of the new region
  have hnew : ∀ i, i ≠ (s.mpu.assign q.containerId).next q.containerId →
      bothShared (s.mpu.list i).ac r.ac = false → ∀ a, r.contains a →
      ¬ (s.mpu.list i).contains a := by
    intro i _ hshared a ha
    by_cases hi : i < s.mpu.used
    · exact hfit.new_apart hr hi (hconf i hi) (hac ▸ hshared) ha
    · exact contains_of_size_zero (hs.blank i (by omega)) a
  refine ⟨?_, ?_, ?_, ?_⟩
  · intro i j hi hj hij hshared a
    simp only [Slab.add_used, Slab.add_list] at hi hj hshared ⊢
    by_cases hin : i = (s.mpu.assign q.containerId).next q.containerId
    · have hjn : j ≠ (s.mpu.assign q.containerId).next q.containerId := by omega
      rw [hin, Function.update_self, Function.update_of_ne hjn] at hshared ⊢
      exact hnew j hjn (bothShared_comm _ _ ▸ hshared) a
    · rw [Function.update_of_ne hin] at hshared ⊢
      by_cases hjn : j = (s.mpu.assign q.containerId).next q.containerId
      · rw [hjn, Function.update_self] at hshared ⊢
        exact fun hi' hr' => hnew i hin hshared a hr' hi'
      · rw [Function.update_of_ne hjn] at hshared ⊢
        by_cases hiu : i < s.mpu.used
        · by_cases hju : j < s.mpu.used
          · exact hs.apart i j hiu hju hij hshared a
          · exact fun _ => contains_of_size_zero (hs.blank j (by omega)) a
        · exact fun hi' => absurd hi' (contains_of_size_zero (hs.blank i (by omega)) a)
  · intro i hi
    simp only [Slab.add_used, Slab.add_list] at hi ⊢
    rw [Function.update_of_ne (by omega)]
    exact hs.blank i (by omega)
  · intro c hc
    by_cases hcq : c = q.containerId
    · subst hcq
      simp [Slab.add_owner_self] at hc
    · simp only [Slab.add_owner_ne _ _ hcq] at hc ⊢
      exact hs.null c hc
  · intro c
    by_cases hcq : c = q.containerId
    · subst hcq
      rw [Slab.assign_next] at hnext ⊢
      simp only [Slab.add_owner_self, Slab.add_used, Option.getD_some]
      omega
    · have hc := hs.next c
      rw [Slab.assign_next] at hc ⊢
      simp only [Slab.add_owner_ne _ _ hcq, Slab.add_used]
      cases hptr : (s.mpu.owner c).ptr with
      | none => simp [hs.null c hptr]
      | some p =>
        simp only [hptr, Option.getD_some] at hc ⊢
        omega

theorem RegionTableOK.empty (hs : s.mpu = Slab.empty ⟨0, 0, 0, 0⟩) : RegionTableOK s := by
  constructor <;> simp [RegionsApart, hs, Slab.empty, Slab.assign_next]

/-- **Recorded regions are disjoint unless both are shared**, after every run of
accepted calls that fit. -/
theorem regions_apart {b : Build} {s₀ s : State} {qs : List MemRequest}
    (hs₀ : s₀.mpu = Slab.empty ⟨0, 0, 0, 0⟩)
    (hrun : Runs (memStep b) (MemRequestFits b) s₀ qs s) : RegionsApart s :=
  (hrun.invariant (fun _ _ _ hs hfit h => RegionTableOK.memStep hs hfit h)
    (RegionTableOK.empty hs₀)).apart

theorem regions_apart_neighbours :
    ∃ s, Runs (memStep .v1Mpu2) (MemRequestFits .v1Mpu2) State.blank
      [⟨1, 0x1000, 0x1000, acdefUrom⟩, ⟨2, 0x2000, 0x800, acdefUram⟩] s ∧ RegionsApart s := by
  have hrun : Runs (memStep .v1Mpu2) (MemRequestFits .v1Mpu2) State.blank
      [⟨1, 0x1000, 0x1000, acdefUrom⟩, ⟨2, 0x2000, 0x800, acdefUram⟩] _ :=
    .cons ⟨by decide, by decide, fun _ => ⟨by decide, Or.inl ⟨12, by decide⟩⟩⟩ rfl
      (.cons ⟨by decide, by decide, fun _ => ⟨by decide, Or.inl ⟨11, by decide⟩⟩⟩ rfl (.nil _))
  exact ⟨_, hrun, regions_apart rfl hrun⟩

/-- A size that is rounded up swallows its neighbour, and a region that ends with the
address space is recorded twice. -/
theorem regions_overlap :
    (∃ s, Runs (memStep .v1Mpu2) (fun _ _ => True) State.blank
      [⟨1, 0x1C00, 0x400, acdefUrom⟩, ⟨2, 0x1000, 0x801, acdefUrom ||| acSizeRoundUp⟩] s ∧
      ¬ RegionsApart s) ∧
    (∃ s, Runs (memStep .v2Mpu4) (fun _ _ => True) State.blank
      [⟨1, 0xFFFFF000, 0x1000, acdefUrom⟩, ⟨2, 0xFFFFF000, 0x1000, acdefUram⟩] s ∧
      ¬ RegionsApart s) := by
  refine ⟨?_, ?_⟩
  · refine ⟨_, Runs.of_follow rfl, ?_⟩
    intro h
    exact h 0 1 (by decide) (by decide) (by decide) (by decide) 0x1C00 ⟨by decide, by decide⟩
      ⟨by decide, by decide⟩
  · refine ⟨_, Runs.of_follow rfl, ?_⟩
    intro h
    exact h 0 1 (by decide) (by decide) (by decide) (by decide) 0xFFFFF000 ⟨by decide, by decide⟩
      ⟨by decide, by decide⟩

end Embarc
