/-
Looking up an address in an MPU of version 2 or 3.

`arc_mpu_region_config` puts the size of a region into two fields of the permission register,
and `arc_mpu_in_region` puts them together again to get the end of the region.  The lookup
should name the lowest region whose range has the address.  It does for an MPU of version 2
unless the range reaches the top of the address space, where the end wraps to zero, or an empty
slot comes first: the valid bit is not looked at, so that an empty slot passes for a region at
address zero.  For version 3 the reader's mask leaves nothing of the size, and a region is found
by its first two bytes only.
-/
import Embarc.Proofs.RegionTable
import Mathlib.Data.List.Induction
import Mathlib.Tactic.IntervalCases

namespace Embarc

/-! ### Calls and what they configure -/

/-- The arguments of an `arc_mpu_region_config`. -/
structure MpuCall where
  index : Nat
  base : Word
  size : Word
  attr : Word

/-- The size is none, or a power of two of a granule at least with the base a multiple of it. -/
def MpuCall.Proper (v : MpuVersion) (c : MpuCall) : Prop :=
  c.size = 0 ∨ ∃ k, arcFeatureMpuAlignmentBits v ≤ k ∧ c.size.toNat = 2 ^ k ∧
    2 ^ k ∣ c.base.toNat

/-- The address is in the range the call asks for. -/
def MpuCall.Has (c : MpuCall) (a : Word) : Prop :=
  c.base.toNat ≤ a.toNat ∧ a.toNat < c.base.toNat + c.size.toNat

instance MpuCall.decidableHas (c : MpuCall) (a : Word) : Decidable (c.Has a) :=
  inferInstanceAs (Decidable (_ ∧ _))

/-- The registers of the regions after a sequence of calls, from reset. -/
def mpuAfter (b : Build) (calls : List MpuCall) : Nat → MpuSlot :=
  calls.foldl (fun mpu c => arcMpuRegionConfig b mpu c.index c.base c.size c.attr)
    fun _ => .rdb 0 0

/-- The last call for a region.  Without one it is as after a call that clears it. -/
def lastCall (calls : List MpuCall) (i : Nat) : MpuCall :=
  (calls.reverse.find? fun c => c.index == i).getD ⟨i, 0, 0, 0⟩

/-- The lowest region whose last configured range has the address, and -1 if there is none. -/
def mpuLookup (b : Build) (calls : List MpuCall) (a : Word) : Int :=
  match (List.range b.mpuRegions).find? fun i => decide ((lastCall calls i).Has a) with
  | some i => i
  | none => -1

variable {b : Build} {i k : Nat} {v : MpuVersion} {base : Word}

/-- A region's registers are what the last call for it has written. -/
theorem mpuAfter_eq (hv : b.mpuVersion ≠ .v4) (calls : List MpuCall) (hi : i < b.mpuRegions) :
    mpuAfter b calls i = mpuSlotOf b.mpuVersion (lastCall calls i).base (lastCall calls i).size
      (lastCall calls i).attr := by
  -- by induction on the calls, the last one outermost
  induction calls using List.reverseRecOn with
  | nil =>
    show MpuSlot.rdb 0 0 = mpuSlotOf b.mpuVersion 0 0 0
    cases hver : b.mpuVersion with
    | v2 => decide
    | v3 => decide
    | v4 => exact absurd hver hv
  | append_singleton calls c ih =>
    have hstep : mpuAfter b (calls ++ [c]) =
        arcMpuRegionConfig b (mpuAfter b calls) c.index c.base c.size c.attr := by
      unfold mpuAfter
      rw [List.foldl_append]
      rfl
    rw [hstep]
    by_cases heq : c.index = i
    · have hlast : lastCall (calls ++ [c]) i = c := by simp [lastCall, heq]
      rw [hlast, ← heq]
      exact arcMpuRegionConfig_self _ (heq ▸ hi) ..
    · have hlast : lastCall (calls ++ [c]) i = lastCall calls i := by simp [lastCall, heq]
      rw [hlast, arcMpuRegionConfig_ne _ (Ne.symm heq)]
      exact ih

theorem lastCall_proper {calls : List MpuCall} (h : ∀ c ∈ calls, c.Proper v) (i : Nat) :
    (lastCall calls i).Proper v := by
  unfold lastCall
  cases hfind : calls.reverse.find? fun c => c.index == i with
  | none => exact Or.inl rfl
  | some c => exact h c (List.mem_reverse.mp (List.mem_of_find?_eq_some hfind))

/-! ### The size field -/

theorem mpuRegionBits_pow2 {size : Word} (hk : size.toNat = 2 ^ k)
    (hgranule : arcFeatureMpuAlignmentBits v ≤ k) : mpuRegionBits v size = k := by
  have hne : size ≠ 0 := by
    rintro rfl
    have := Nat.two_pow_pos k
    simp at hk
    omega
  have hlt : k < 32 := (Nat.pow_lt_pow_iff_right (by decide)).mp (hk ▸ size.isLt)
  have hmsb : arcFindMsb size - 1 = k := by
    rw [arcFindMsb, embarcBits, embarcClz, if_neg hne, hk, Nat.log2_two_pow]
    omega
  have hshl : shl1 k = size := BitVec.eq_of_toNat_eq ((shl1_toNat hlt).trans hk.symm)
  have hmax : max (arcFindMsb size - 1) (arcFeatureMpuAlignmentBits v) = k := by
    rw [hmsb, Nat.max_eq_left hgranule]
  simp only [mpuRegionBits, hmax, hshl]
  exact if_neg (BitVec.lt_irrefl size)

/-- The reader of version 2 finds the field the writer has put in, whatever the attributes. -/
theorem mpuSizeField_or (attr field : Word) :
    mpuSizeField .v2 ((attr &&& ~~~auxMpuRdpSizeMask) ||| field) = mpuSizeField .v2 field := by
  unfold mpuSizeField auxMpuRdpSizeMask auxMpuAttrMask
  refine congrArg BitVec.toNat ?_
  ext i hi
  interval_cases i <;> simp

theorem mpuSizeField_regionSize (hk : k < 32) :
    mpuSizeField .v2 (auxMpuRdpRegionSize k) = k - 1 := by
  have hall : ∀ k < 32, mpuSizeField .v2 (auxMpuRdpRegionSize k) = k - 1 := by decide
  exact hall k hk

/-- The mask of version 3 leaves nothing of the size. -/
theorem mpuSizeField_v3 (perm : Word) : mpuSizeField .v3 perm = 0 := by
  have hzero : (perm &&& 0x1F8 &&& 0x3) ||| ((perm &&& 0x1F8) >>> 7 &&& 0x1C) = 0 := by
    ext i hi
    interval_cases i <;> simp
  exact congrArg BitVec.toNat hzero

theorem mpuSizeField_masked (v : MpuVersion) (attr : Word) :
    mpuSizeField v (attr &&& auxMpuAttrMask v) = mpuSizeField v attr := by
  unfold mpuSizeField
  rw [BitVec.and_assoc, BitVec.and_self]

/-! ### One region -/

/-- The end the reader computes is right for the address: the range ends below the top of the
address space, or in version 3 the address is one of the first two. -/
def MpuCall.EndSeen (v : MpuVersion) (c : MpuCall) (a : Word) : Prop :=
  match v with
  | .v3 => a.toNat < c.base.toNat + 2
  | _ => c.base.toNat + c.size.toNat < 2 ^ 32

/-- The region is empty, and the address is below the end that is read from its registers: the
attributes it was cleared with still have a size. -/
def MpuCall.EmptySeen (v : MpuVersion) (c : MpuCall) (a : Word) : Prop :=
  c.size = 0 ∧ a < shl1 (mpuSizeField v c.attr + 1)

instance MpuCall.decidableEndSeen (c : MpuCall) (a : Word) :
    (v : MpuVersion) → Decidable (c.EndSeen v a)
  | .v2 => inferInstanceAs (Decidable (_ < _))
  | .v3 => inferInstanceAs (Decidable (_ < _))
  | .v4 => inferInstanceAs (Decidable (_ < _))

instance MpuCall.decidableEmptySeen (v : MpuVersion) (c : MpuCall) (a : Word) :
    Decidable (c.EmptySeen v a) :=
  inferInstanceAs (Decidable (_ ∧ _))

theorem MpuCall.not_has {c : MpuCall} {a : Word} (hempty : c.size = 0) : ¬ c.Has a := by
  rintro ⟨hlo, hhi⟩
  rw [hempty] at hhi
  exact absurd hlo (Nat.not_le.mpr hhi)

theorem inRegion_slot (hv : b.mpuVersion ≠ .v4) {mpu : Nat → MpuSlot} {perm : Word}
    (hslot : mpu i = .rdb base perm) (a : Word) :
    arcMpuInRegion b mpu i a 0 = true ↔ base &&& ~~~auxMpuValidMask ≤ a ∧
      a < (base &&& ~~~auxMpuValidMask) + shl1 (mpuSizeField b.mpuVersion perm + 1) := by
  unfold arcMpuInRegion
  cases hver : b.mpuVersion with
  | v4 => exact absurd hver hv
  | v2 => simp [hslot, MpuSlot.base, MpuSlot.perm]
  | v3 => simp [hslot, MpuSlot.base, MpuSlot.perm]

theorem or_valid_and (h : 2 ∣ base.toNat) :
    (base ||| auxMpuValidMask) &&& ~~~auxMpuValidMask = base := by
  have hbit : base[0] = false := by
    rw [← BitVec.getLsbD_eq_getElem, BitVec.getLsbD, Nat.testBit_zero]
    simpa using Nat.dvd_iff_mod_eq_zero.mp h
  unfold auxMpuValidMask
  ext i hi
  interval_cases i <;> simp [hbit]

section
variable {b : Build} (hv : b.mpuVersion ≠ .v4) {mpu : Nat → MpuSlot} {i : Nat} {c : MpuCall}
  (hslot : mpu i = mpuSlotOf b.mpuVersion c.base c.size c.attr) (a : Word)
include hv hslot

/-- The base of an empty region is zero, and its attributes are as they were given. -/
theorem inRegion_empty (hempty : c.size = 0) :
    arcMpuInRegion b mpu i a 0 = true ↔ c.EmptySeen b.mpuVersion a := by
  have hslot : mpu i = .rdb 0 (c.attr &&& auxMpuAttrMask b.mpuVersion) := by
    rw [hslot, hempty]
    unfold mpuSlotOf mpuSlotOfMasked
    split
    case h_1 hver => exact absurd hver hv
    case h_2 => exact if_neg (by decide)
  have hbase : (0 : Word) &&& ~~~auxMpuValidMask = 0#32 := by decide
  rw [inRegion_slot hv hslot, mpuSizeField_masked, hbase, BitVec.zero_add]
  exact ⟨fun h => ⟨hempty, h.2⟩, fun h => ⟨Nat.zero_le _, h.2⟩⟩

theorem inRegion_range (hgranule : arcFeatureMpuAlignmentBits b.mpuVersion ≤ k)
    (hk : c.size.toNat = 2 ^ k) (hdvd : 2 ^ k ∣ c.base.toNat) :
    arcMpuInRegion b mpu i a 0 = true ↔ c.Has a ∧ c.EndSeen b.mpuVersion a := by
  have hlt : k < 32 := (Nat.pow_lt_pow_iff_right (by decide)).mp (hk ▸ c.size.isLt)
  have hpos : 0 < c.size.toNat := hk ▸ Nat.two_pow_pos k
  have hfive : 5 ≤ k := Nat.le_trans (by cases b.mpuVersion <;> decide) hgranule
  have hdvd32 : 32 ∣ c.base.toNat := Nat.dvd_trans (Nat.pow_dvd_pow 2 hfive) hdvd
  have h32 : 2 ^ 5 ≤ 2 ^ k := Nat.pow_le_pow_right (by decide) hfive
  have hslot : mpu i = .rdb (c.base ||| auxMpuValidMask)
      ((c.attr &&& auxMpuAttrMask b.mpuVersion &&& ~~~auxMpuRdpSizeMask) |||
        auxMpuRdpRegionSize k) := by
    rw [hslot]
    unfold mpuSlotOf mpuSlotOfMasked
    split
    case h_1 hver => exact absurd hver hv
    case h_2 =>
      rw [mpuRegionBits_pow2 hk hgranule]
      exact if_pos hpos
  rw [inRegion_slot hv hslot, or_valid_and (Nat.dvd_trans (by decide) hdvd32)]
  unfold MpuCall.Has MpuCall.EndSeen
  cases hver : b.mpuVersion with
  | v4 => exact absurd hver hv
  | v2 =>
    have hshl : shl1 ((k - 1 : Nat) + 1) = c.size := by
      refine BitVec.eq_of_toNat_eq (Eq.trans ?_ hk.symm)
      rw [← shl1_toNat hlt]
      congr 2
      omega
    rw [mpuSizeField_or, mpuSizeField_regionSize hlt, hshl, BitVec.le_def, BitVec.lt_def,
      BitVec.toNat_add]
    show _ ↔ _ ∧ c.base.toNat + c.size.toNat < 2 ^ 32
    omega
  | v3 =>
    have hshl : (shl1 ((0 : Nat) + 1)).toNat = 2 := by decide
    rw [mpuSizeField_v3, BitVec.le_def, BitVec.lt_def, BitVec.toNat_add, hshl]
    show _ ↔ _ ∧ a.toNat < c.base.toNat + 2
    omega

/-- **A region is found for the addresses of its range whose end is seen, and an empty one for those
below the end its attributes have.** -/
theorem inRegion_iff (hc : c.Proper b.mpuVersion) :
    arcMpuInRegion b mpu i a 0 = true ↔
      (c.Has a ∧ c.EndSeen b.mpuVersion a) ∨ c.EmptySeen b.mpuVersion a := by
  rcases hc with hempty | ⟨k, hgranule, hk, hdvd⟩
  · rw [inRegion_empty hv hslot a hempty]
    exact ⟨Or.inr, fun h => h.resolve_left fun h => MpuCall.not_has hempty h.1⟩
  · have hsize : c.size ≠ 0 := by
      intro h
      have hpos := Nat.two_pow_pos k
      rw [← hk, h] at hpos
      exact absurd hpos (by decide)
    rw [inRegion_range hv hslot a hgranule hk hdvd]
    exact ⟨Or.inl, fun h => h.resolve_right fun h => hsize h.1⟩

end

/-! ### The lookup -/

/-- Two scans stop at the same place exactly when the second stops where the first does, and nowhere
before the first. -/
theorem find_range_eq_iff {p q : Nat → Bool} {n : Nat} :
    (List.range n).find? q = (List.range n).find? p ↔
      (∀ i < n, p i = true → (∀ j < i, p j = false) → q i = true) ∧
        ∀ i < n, q i = true → ∃ j ≤ i, p j = true := by
  constructor
  · intro h
    refine ⟨?_, ?_⟩
    · intro i hi hpi hbelow
      have hp : (List.range n).find? p = some i :=
        List.find?_range_eq_some.mpr ⟨hpi, List.mem_range.mpr hi, fun j hj => by rw [hbelow j hj]; rfl⟩
      rw [hp] at h
      exact (List.find?_range_eq_some.mp h).1
    · intro i hi hqi
      cases hq : (List.range n).find? q with
      | none =>
        have := List.find?_range_eq_none.mp hq i hi
        rw [hqi] at this
        cases this
      | some j =>
        obtain ⟨-, -, hbelow⟩ := List.find?_range_eq_some.mp hq
        rw [hq] at h
        refine ⟨j, ?_, (List.find?_range_eq_some.mp h.symm).1⟩
        by_contra hlt
        have := hbelow i (Nat.lt_of_not_le hlt)
        rw [hqi] at this
        cases this
  · rintro ⟨hstop, hbefore⟩
    cases hp : (List.range n).find? p with
    | none =>
      have hnone := List.find?_range_eq_none.mp hp
      rw [List.find?_range_eq_none]
      intro i hi
      by_contra hqi
      obtain ⟨j, hj, hpj⟩ := hbefore i hi (by simpa using hqi)
      have := hnone j (Nat.lt_of_le_of_lt hj hi)
      rw [hpj] at this
      cases this
    | some i =>
      obtain ⟨hpi, hi, hbelow⟩ := List.find?_range_eq_some.mp hp
      have hi := List.mem_range.mp hi
      have hfalse : ∀ j < i, p j = false := fun j hj => by simpa using hbelow j hj
      rw [List.find?_range_eq_some]
      refine ⟨hstop i hi hpi hfalse, List.mem_range.mpr hi, ?_⟩
      intro j hj
      by_contra hqj
      obtain ⟨l, hl, hpl⟩ := hbefore j (Nat.lt_trans hj hi) (by simpa using hqj)
      rw [hfalse l (Nat.lt_of_le_of_lt hl hj)] at hpl
      cases hpl

/-- The lookup of an address goes by the calls made so far: the lowest region with the address in its
range has an end that is seen, and an empty region that is taken for one with the address does not
come before it. -/
structure LookupOK (b : Build) (calls : List MpuCall) (a : Word) : Prop where
  found : ∀ i < b.mpuRegions, (lastCall calls i).Has a → (∀ j < i, ¬ (lastCall calls j).Has a) →
    (lastCall calls i).EndSeen b.mpuVersion a
  empty : ∀ i < b.mpuRegions, (lastCall calls i).EmptySeen b.mpuVersion a →
    ∃ j < i, (lastCall calls j).Has a

/-- The number that is returned says which region was found, and whether one was. -/
theorem index_or_none_inj {x y : Option Nat} :
    (match x with | some i => (i : Int) | none => -1) =
      (match y with | some i => (i : Int) | none => -1) ↔ x = y := by
  cases x with
  | none =>
    cases y with
    | none => simp
    | some j => simp only [reduceCtorEq]
  | some i =>
    cases y with
    | none => simp only [reduceCtorEq]
    | some j => simp

theorem probe_eq_lookup_iff (hv : b.mpuVersion ≠ .v4) (calls : List MpuCall) (a : Word) :
    arcMpuProbe b (mpuAfter b calls) a = mpuLookup b calls a ↔
      (List.range b.mpuRegions).find? (fun i => arcMpuInRegion b (mpuAfter b calls) i a 0) =
        (List.range b.mpuRegions).find? fun i => decide ((lastCall calls i).Has a) := by
  unfold arcMpuProbe
  split
  case h_1 hver => exact absurd hver hv
  case h_2 => exact index_or_none_inj

/-- **The lookup.**  After any sequence of calls `arc_mpu_probe` names the lowest region whose last
configured range has the address, exactly for the addresses that meet the condition. -/
theorem mpu_lookup_iff {b : Build} (hv : b.mpuVersion ≠ .v4) {calls : List MpuCall}
    (hcalls : ∀ c ∈ calls, c.Proper b.mpuVersion) (a : Word) :
    arcMpuProbe b (mpuAfter b calls) a = mpuLookup b calls a ↔ LookupOK b calls a := by
  have hin : ∀ i < b.mpuRegions, arcMpuInRegion b (mpuAfter b calls) i a 0 = true ↔
      ((lastCall calls i).Has a ∧ (lastCall calls i).EndSeen b.mpuVersion a) ∨
        (lastCall calls i).EmptySeen b.mpuVersion a :=
    fun i hi => inRegion_iff hv (mpuAfter_eq hv calls hi) a (lastCall_proper hcalls i)
  rw [probe_eq_lookup_iff hv, find_range_eq_iff]
  simp only [decide_eq_true_iff, decide_eq_false_iff_not]
  constructor
  · rintro ⟨hstop, hbefore⟩
    refine ⟨?_, ?_⟩
    · intro i hi hhas hbelow
      rcases (hin i hi).mp (hstop i hi hhas hbelow) with hseen | hempty
      · exact hseen.2
      · exact absurd hhas (MpuCall.not_has hempty.1)
    · intro i hi hempty
      obtain ⟨j, hj, hhas⟩ := hbefore i hi ((hin i hi).mpr (Or.inr hempty))
      rcases Nat.eq_or_lt_of_le hj with heq | hlt
      · exact absurd (heq ▸ hhas) (MpuCall.not_has hempty.1)
      · exact ⟨j, hlt, hhas⟩
  · rintro ⟨hfound, hempty⟩
    refine ⟨?_, ?_⟩
    · intro i hi hhas hbelow
      exact (hin i hi).mpr (Or.inl ⟨hhas, hfound i hi hhas hbelow⟩)
    · intro i hi hseen
      rcases (hin i hi).mp hseen with hhas | hnone
      · exact ⟨i, Nat.le_refl i, hhas.1⟩
      · obtain ⟨j, hj, hhas⟩ := hempty i hi hnone
        exact ⟨j, Nat.le_of_lt hj, hhas⟩

/-! ### A region that is found, and three that are not -/

def Build.v1Mpu3 : Build := { Build.v1Mpu2 with mpuVersion := .v3 }

def oneRegion : List MpuCall := [⟨1, 0x4000, 0x1000, auxMpuAttrUr⟩]

def upperHalf : List MpuCall := [⟨0, 0x80000000, 0x80000000, auxMpuAttrUr⟩]

def clearedRegion : List MpuCall := [⟨0, 0x4000, 0x1000, auxMpuAttrUr⟩, ⟨0, 0, 0, 0⟩]

/-- An MPU of version 2 finds the region by an address in the middle. -/
theorem mpu_lookup_middle :
    arcMpuProbe .v1Mpu2 (mpuAfter .v1Mpu2 oneRegion) 0x4800 = 1 := by
  have hcalls : ∀ c ∈ oneRegion, c.Proper Build.v1Mpu2.mpuVersion := by
    intro c hc
    rw [List.mem_singleton.mp hc]
    exact Or.inr ⟨12, by decide, by decide, by decide⟩
  have hok : LookupOK .v1Mpu2 oneRegion 0x4800 := ⟨by decide, by decide⟩
  exact ((mpu_lookup_iff (by decide) hcalls 0x4800).mpr hok).trans (by decide)

/-- A range up to the top is not found; a cleared region is found for address zero; and an MPU of
version 3 finds nothing in the middle of a range. -/
theorem mpu_lookup_misses :
    (mpuLookup .v1Mpu2 upperHalf 0x90000000 = 0 ∧
      arcMpuProbe .v1Mpu2 (mpuAfter .v1Mpu2 upperHalf) 0x90000000 = -1) ∧
    (mpuLookup .v1Mpu2 clearedRegion 0 = -1 ∧
      arcMpuProbe .v1Mpu2 (mpuAfter .v1Mpu2 clearedRegion) 0 = 0) ∧
    (mpuLookup .v1Mpu3 oneRegion 0x4800 = 1 ∧
      arcMpuProbe .v1Mpu3 (mpuAfter .v1Mpu3 oneRegion) 0x4800 = -1) := by
  decide

end Embarc
