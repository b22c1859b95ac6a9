/-
What the registers of a version 4 MPU say about the region they were written for.

Version 4 has a start, an end and a permission register.  `MpuSlot.decode` reads them
the way the hardware does: the end register names the last granule of the region, and
the permission register holds the attributes next to the valid bit.  A region is encoded
well if decoding gives its range and its attributes back.

The second mask of `arc_mpu_region_config` is narrower than the first: it keeps the
access rights only, and drops the secure bit and the SID field that SecureShield
version 2 puts into every region.  So only version 1 regions come back, those with some
access right and of a granule at least.
-/
import Embarc.Proofs.MpuLoad
import Mathlib.Tactic.IntervalCases

namespace Embarc

open Trace

/-! ### Decoding -/

/-- The range and the attributes the registers of version 4 stand for; an invalid slot
stands for nothing, and the registers of the other versions are not there. -/
def MpuSlot.decode : MpuSlot → Option (Nat × Nat × Word)
  | .rper start stop perm =>
    if hasFlag perm auxMpuValidMask then
      some (start.toNat, stop.toNat + 32, perm &&& ~~~auxMpuValidMask)
    else none
  | .rdb _ _ => none

/-- The access rights: UE, UW, UR, KE, KW and KR. -/
def rightsMask : Word := 0x1F8

/-- What a region without wrap-around should decode to. -/
def MpuRegion.encoding (r : MpuRegion) : Nat × Nat × Word :=
  (r.base.toNat, r.base.toNat + r.size.toNat, r.attr)

theorem masked_rights (attr : Word) :
    ((attr &&& auxMpuAttrMask .v4 &&& auxMpuRperAttrMask) ||| auxMpuValidMask) &&&
      ~~~auxMpuValidMask = attr &&& rightsMask := by
  unfold auxMpuAttrMask auxMpuRperAttrMask auxMpuValidMask rightsMask
  ext i hi
  interval_cases i <;> simp

theorem valid_flag (attr : Word) : hasFlag (attr ||| auxMpuValidMask) auxMpuValidMask = true := by
  rw [hasFlag_or]
  exact Bool.or_eq_true_iff.mpr (Or.inr (by decide))

theorem decode_mpuSlotOf (base size attr : Word) :
    (mpuSlotOf .v4 base size attr).decode =
      if attr &&& auxMpuAttrMask .v4 = 0 then none
      else some (base.toNat,
        (base + (if size < 32 then 32 else size) - 32).toNat + 32, attr &&& rightsMask) := by
  have hgranule : arcFeatureMpuAlignment .v4 = 32 := by decide
  unfold mpuSlotOf mpuSlotOfMasked calcRegionEndAddr
  simp only [hgranule]
  by_cases hattr : attr &&& auxMpuAttrMask .v4 = 0
  · simp [MpuSlot.decode, hattr, hasFlag]
  · simp only [MpuSlot.decode, ne_eq, hattr, not_false_eq_true, if_true, if_false, valid_flag,
      masked_rights]

variable {x ac attr base size : Word} {res : Word × Word} {c : Nat} {t : Slab MpuRegion}

/-! ### What SecureShield stores -/

section
variable {b : Build} {s s' : State} {r : MpuRegion}

theorem or_and_of_and {y m : Word} (hx : x &&& m = x) (hy : y &&& m = y) :
    (x ||| y) &&& m = x ||| y := by
  rw [BitVec.and_comm, BitVec.and_or_distrib_left, BitVec.and_comm m x, BitVec.and_comm m y, hx,
    hy]

theorem vmpuMapAdd_rights {flag : Word} (hattr : attr &&& rightsMask = attr)
    (h : res.2 &&& rightsMask = res.2) :
    (vmpuMapAdd ac flag attr res).2 &&& rightsMask = (vmpuMapAdd ac flag attr res).2 := by
  unfold vmpuMapAdd
  split_ifs
  · exact or_and_of_and h hattr
  · exact h

theorem vmpuMapAc_rights {flags : Word} (hv : b.version = .v1) (h : vmpuMapAc b ac = .ok flags) :
    flags &&& rightsMask = flags := by
  have hrw : (vmpuMapRw ac).2 &&& rightsMask = (vmpuMapRw ac).2 := by
    unfold vmpuMapRw
    split_ifs <;> decide
  simp only [vmpuMapAc, vmpuMapInferred, hv, Except.bind_eq_ok_iff, haltIf_eq_ok] at h
  obtain ⟨_, -, h⟩ := h
  cases h
  exact vmpuMapAdd_rights (by decide) (vmpuMapAdd_rights (by decide) hrw)

/-- A power of two that a base is a multiple of does not run over the end of memory. -/
theorem stop_le_of_aligned {k : Nat} (hk : size.toNat = 2 ^ k) (h : base &&& (size - 1) = 0) :
    base.toNat + size.toNat ≤ 2 ^ 32 := by
  have hk32 : k < 32 := (Nat.pow_lt_pow_iff_right (by decide)).mp (hk ▸ size.isLt)
  have hpos : 0 < 2 ^ k := Nat.two_pow_pos k
  have hmask : (size - 1).toNat = 2 ^ k - 1 := by
    bv_omega
  have hmod : base.toNat % 2 ^ k = 0 := by
    rw [← Nat.and_two_pow_sub_one_eq_mod, ← hmask, ← BitVec.toNat_and, h]
    rfl
  obtain ⟨q, hq⟩ := Nat.dvd_of_mod_eq_zero hmod
  have hsplit : 2 ^ 32 = 2 ^ k * 2 ^ (32 - k) := by
    rw [← Nat.pow_add, Nat.add_sub_cancel' (Nat.le_of_lt hk32)]
  have hlt : q < 2 ^ (32 - k) := by
    have := base.isLt
    rw [hq, hsplit] at this
    exact Nat.lt_of_mul_lt_mul_left this
  rw [hq, hk, hsplit, ← Nat.mul_succ]
  exact Nat.mul_le_mul_left _ hlt

theorem shl1_pow2 (n : Int) : ∃ k, k < 32 ∧ (shl1 n).toNat = 2 ^ k := by
  refine ⟨(n % 32).toNat, by omega, ?_⟩
  have hk : (n % 32).toNat < 32 := by omega
  have hshl : shl1 n = shl1 ((n % 32).toNat : Int) := by
    unfold shl1
    congr 1
    omega
  rw [hshl]
  exact shl1_toNat hk

theorem embarcPow2Ceil_exists (x : Word) : ∃ k, k < 32 ∧ (embarcPow2Ceil x).toNat = 2 ^ k := by
  unfold embarcPow2Ceil
  split <;> exact shl1_pow2 _

/-- A size of a granule or more that version 1 stores is a power of two. -/
theorem sizeRounded_pow2 {rounded : Word} (h : sizeRounded b size ac = .ok rounded)
    (hsize : 32 ≤ rounded.toNat) : ∃ k, rounded.toNat = 2 ^ k := by
  obtain ⟨k, -, hk⟩ := embarcPow2Ceil_exists size
  rcases sizeRounded_ok h with ⟨rfl, -⟩ | ⟨rfl, -, -⟩
  · exact ⟨k, hk⟩
  · rw [BitVec.toNat_ushiftRight, Nat.shiftRight_one, hk] at hsize ⊢
    cases k with
    | zero => simp at hsize
    | succ k => exact ⟨k, by rw [Nat.pow_succ]; omega⟩

/-- An attribute word with a bit that is no access right; no right at all is fine too. -/
def BeyondRights (attr : Word) : Prop := attr = 0 ∨ attr &&& rightsMask ≠ attr

/-- What the encoding can rely on about an entry of the region table. -/
structure Encoded (b : Build) (r : MpuRegion) : Prop where
  rights : b.version = .v1 → r.attr &&& rightsMask = r.attr
  fits : b.version = .v1 → 32 ≤ r.size.toNat → r.base.toNat + r.size.toNat ≤ 2 ^ 32
  beyond : b.version = .v2 → BeyondRights r.attr

theorem shift_and_rights (x : Word) : (x <<< 16) &&& rightsMask = 0 := by
  unfold rightsMask
  ext i hi
  interval_cases i <;> simp

theorem beyondRights_or_shift {y : Word} (h : BeyondRights x ∨ y <<< 16 ≠ 0) :
    BeyondRights (x ||| y <<< 16) := by
  by_cases hy : y <<< 16 = 0
  · have hx := h.resolve_right (not_not.mpr hy)
    rw [hy]
    simpa using hx
  · refine Or.inr ?_
    intro heq
    refine hy ?_
    have habs : y <<< 16 &&& (x ||| y <<< 16) = y <<< 16 := by
      ext i hi
      simp only [BitVec.getElem_and, BitVec.getElem_or]
      cases x[i] <;> simp
    calc y <<< 16 = y <<< 16 &&& ((x ||| y <<< 16) &&& rightsMask) := by rw [heq, habs]
      _ = y <<< 16 &&& rightsMask := by rw [← BitVec.and_assoc, habs]
      _ = 0 := shift_and_rights y

/-- Version 2 gives every region a SID. -/
theorem regionSid_ne_zero {sid mask : Word} (h : regionSid b s c ac = .ok (sid, mask)) :
    sid <<< 16 ≠ 0 := by
  unfold regionSid at h
  by_cases hsid : b.sid = true
  · simp only [hsid, if_true, Except.bind_eq_ok_iff, haltIf_eq_ok] at h
    obtain ⟨_, hc, h⟩ := h
    have hc' : c ≤ 6 := by simpa [mpuSidBits] using hc
    -- the fixed SIDs, and the bit of the container with or without that of the runtime
    split_ifs at h <;> cases h
    · decide
    · decide
    · decide
    all_goals interval_cases c <;> decide
  · simp only [hsid] at h
    cases h
    decide

theorem Stored.encoded (h : Stored b r) : Encoded b r := by
  obtain ⟨s, c, base, size, ac, mask, h⟩ := h
  unfold vmpuAcUpdateContainerRegion at h
  cases hv : b.version with
  | v1 =>
    simp only [hv, Except.bind_eq_ok_iff, haltIf_eq_ok, not_not] at h
    obtain ⟨rounded, hround, _, halign, attr, hattr, h⟩ := h
    cases h
    refine ⟨fun _ => vmpuMapAc_rights hv hattr, ?_, fun h2 => by simp [hv] at h2⟩
    intro _ hsize
    obtain ⟨k, hk⟩ := sizeRounded_pow2 hround hsize
    exact stop_le_of_aligned hk halign
  | v2 =>
    simp only [hv, Except.bind_eq_ok_iff] at h
    obtain ⟨_, -, _, -, flags, -, ⟨sid, mask'⟩, hsid, h⟩ := h
    cases h
    refine ⟨fun h1 => by simp [hv] at h1, fun h1 => by simp [hv] at h1, fun _ => ?_⟩
    exact beyondRights_or_shift (Or.inr (regionSid_ne_zero hsid))

/-! ### When the registers say what was stored -/

/-- A region that comes back from its registers as it went in. -/
def Encodable (b : Build) (r : MpuRegion) : Prop :=
  b.version = .v1 ∧ r.attr ≠ 0 ∧ 32 ≤ r.size.toNat

/-- The same, of the request a region is stored for. -/
def EncodableRequest (b : Build) (size ac : Word) : Prop :=
  b.version = .v1 ∧ ac &&& acAccess ≠ 0 ∧ (size = 0 ∨ 16 < size.toNat ∧ size.toNat ≤ 2 ^ 31)

theorem and_attrMask_of_rights (h : attr &&& rightsMask = attr) :
    attr &&& auxMpuAttrMask .v4 = attr := by
  have hmask : rightsMask &&& auxMpuAttrMask .v4 = rightsMask := by decide
  calc attr &&& auxMpuAttrMask .v4 = attr &&& rightsMask &&& auxMpuAttrMask .v4 := by rw [h]
    _ = attr &&& rightsMask := by rw [BitVec.and_assoc, hmask]
    _ = attr := h

theorem regionEnd_eq (hfits : 32 ≤ size.toNat → base.toNat + size.toNat ≤ 2 ^ 32) :
    (base + (if size < 32 then 32 else size) - 32).toNat + 32 = base.toNat + size.toNat ↔
      32 ≤ size.toNat := by
  split_ifs
  · bv_omega
  · have hle : 32 ≤ size.toNat := by bv_omega
    have := hfits hle
    bv_omega

theorem Encoded.decode_iff (hmpu : b.mpuVersion = .v4) (h : Encoded b r) :
    (r.slot b).decode = some r.encoding ↔ Encodable b r := by
  unfold MpuRegion.slot MpuRegion.encoding Encodable
  rw [hmpu, decode_mpuSlotOf]
  cases hv : b.version with
  | v1 =>
    rw [and_attrMask_of_rights (h.rights hv), h.rights hv]
    by_cases hattr : r.attr = 0
    · simp [hattr]
    · simp only [hattr, if_false, Option.some.injEq, Prod.mk.injEq, true_and, and_true,
        regionEnd_eq (h.fits hv), ne_eq, not_false_eq_true]
  | v2 =>
    refine iff_of_false ?_ (by simp)
    rcases h.beyond hv with hzero | hbeyond
    · simp [hzero]
    · split
      · simp
      · simp [hbeyond]

/-! ### In terms of the request -/

/-- Rounding up gets to a granule from half a granule on; it also does from zero, and from
beyond half of the memory the shifter takes it back to one. -/
theorem granule_le_pow2Ceil :
    32 ≤ (embarcPow2Ceil x).toNat ↔ x = 0 ∨ 16 < x.toNat ∧ x.toNat ≤ 2 ^ 31 := by
  by_cases hx : x = 0
  · subst hx
    exact iff_of_true (by decide) (Or.inl rfl)
  have hne : x.toNat ≠ 0 := by simpa [← BitVec.toNat_inj] using hx
  have hlog : Nat.log2 x.toNat < 32 := (Nat.log2_lt hne).mpr x.isLt
  have hle : 2 ^ Nat.log2 x.toNat ≤ x.toNat := Nat.log2_self_le hne
  have hlt : x.toNat < 2 ^ (Nat.log2 x.toNat + 1) := Nat.lt_log2_self
  have hmono : ∀ {m n : Nat}, m ≤ n → 2 ^ m ≤ 2 ^ n := fun h => Nat.pow_le_pow_right (by decide) h
  rw [embarcPow2Ceil, embarcClz_of_ne_zero hx]
  simp only [hx, false_or]
  generalize hk : Nat.log2 x.toNat = k at *
  have hshl : (shl1 k).toNat = 2 ^ k := shl1_toNat hlog
  split
  · next hbig =>
    rw [BitVec.lt_def, hshl] at hbig
    by_cases h31 : k = 31
    · subst h31
      refine iff_of_false (by decide) ?_
      omega
    · have hshl' : (shl1 ((k : Int) + 1)).toNat = 2 ^ (k + 1) := by
        exact_mod_cast shl1_toNat (k := k + 1) (by omega)
      have htop : 2 ^ (k + 1) ≤ 2 ^ 31 := hmono (by omega)
      rw [hshl']
      rcases Nat.lt_or_ge k 4 with hk4 | hk4
      · have : 2 ^ (k + 1) ≤ 2 ^ 4 := hmono (by omega)
        omega
      · have h4 : 2 ^ 4 ≤ 2 ^ k := hmono hk4
        omega
  · next hsmall =>
    rw [BitVec.lt_def, hshl] at hsmall
    have htop : 2 ^ k ≤ 2 ^ 31 := hmono (by omega)
    rw [hshl]
    rcases Nat.lt_or_ge k 5 with hk5 | hk5
    · have : 2 ^ k ≤ 2 ^ 4 := hmono (by omega)
      omega
    · have : 2 ^ 5 ≤ 2 ^ k := hmono hk5
      omega

theorem granule_le_rounded (hmpu : b.mpuVersion = .v4) {rounded : Word}
    (h : sizeRounded b size ac = .ok rounded) :
    32 ≤ rounded.toNat ↔ size = 0 ∨ 16 < size.toNat ∧ size.toNat ≤ 2 ^ 31 := by
  rcases sizeRounded_ok h with ⟨rfl, -⟩ | ⟨rfl, -, hgranule⟩
  · exact granule_le_pow2Ceil
  · -- rounding down is refused below a granule
    have hhalf : 32 ≤ (embarcPow2Ceil size >>> 1).toNat := by
      have halign : arcFeatureMpuAlignment b.mpuVersion = 32 := by rw [hmpu]; decide
      bv_omega
    refine iff_of_true hhalf (granule_le_pow2Ceil.mp ?_)
    rw [BitVec.toNat_ushiftRight, Nat.shiftRight_one] at hhalf
    omega

theorem vmpuMapAdd_eq_zero {flag : Word} (hflag : flag ≠ 0) (hattr : attr ≠ 0)
    (h : res.1 = 0 ↔ res.2 = 0) :
    (vmpuMapAdd ac flag attr res).1 = 0 ↔ (vmpuMapAdd ac flag attr res).2 = 0 := by
  unfold vmpuMapAdd
  split_ifs
  · refine iff_of_false ?_ ?_
    · exact fun h0 => hflag (BitVec.or_eq_zero_iff.mp h0).2
    · exact fun h0 => hattr (BitVec.or_eq_zero_iff.mp h0).2
  · exact h

theorem vmpuMapAc_eq_zero {flags : Word} (hv : b.version = .v1) (h : vmpuMapAc b ac = .ok flags) :
    flags = 0 ↔ ac &&& acAccess = 0 := by
  have hrw : (vmpuMapRw ac).1 = 0 ↔ (vmpuMapRw ac).2 = 0 := by
    unfold vmpuMapRw
    split_ifs <;> decide
  simp only [vmpuMapAc, vmpuMapInferred, hv, Except.bind_eq_ok_iff, haltIf_eq_ok, not_not] at h
  obtain ⟨_, haccess, h⟩ := h
  cases h
  rw [← haccess]
  exact (vmpuMapAdd_eq_zero (by decide) (by decide)
    (vmpuMapAdd_eq_zero (by decide) (by decide) hrw)).symm

theorem encodable_iff_request (hmpu : b.mpuVersion = .v4) {mask : Word}
    (h : vmpuAcUpdateContainerRegion b s c base size ac = .ok (r, mask)) :
    Encodable b r ↔ EncodableRequest b size ac := by
  refine and_congr_right ?_
  intro hv
  simp only [vmpuAcUpdateContainerRegion, hv, Except.bind_eq_ok_iff] at h
  obtain ⟨rounded, hround, _, -, attr, hattr, h⟩ := h
  cases h
  exact and_congr (not_congr (vmpuMapAc_eq_zero hv hattr)) (granule_le_rounded hmpu hround)

/-! ### The region table over runs -/

/-- Every entry of the region table is as the encoding needs it. -/
def TableEncoded (b : Build) (t : Slab MpuRegion) : Prop := ∀ i, Encoded b (t.list i)

theorem TableEncoded.empty : TableEncoded b (Slab.empty ⟨0, 0, 0, 0⟩) := by
  intro i
  exact ⟨fun _ => by simp [Slab.empty], fun _ h => by simp [Slab.empty] at h, fun _ => Or.inl rfl⟩

theorem TableEncoded.add (ht : TableEncoded b t) (c : Nat) (hr : Stored b r) :
    TableEncoded b (t.add c r) := by
  intro i
  rw [Slab.add_list]
  by_cases hi : i = (t.assign c).next c
  · rw [hi, Function.update_self]
    exact hr.encoded
  · rw [Function.update_of_ne hi]
    exact ht i

theorem TableEncoded.slice (ht : TableEncoded b t) (hr : r ∈ t.slice c) : Encoded b r := by
  obtain ⟨i, -, rfl⟩ := List.mem_map.mp hr
  exact ht _

/-- Adding SIDs to a region keeps what the encoding needs. -/
theorem Encoded.sidLoadAttr (hv : b.version = .v2) (h : Encoded b r) (mask : Word) :
    Encoded b (sidLoadAttr mask r) := by
  unfold Embarc.sidLoadAttr
  split_ifs
  · exact h
  · refine ⟨fun h1 => by simp [hv] at h1, fun h1 => by simp [hv] at h1, fun _ => ?_⟩
    exact beyondRights_or_shift (Or.inl (h.beyond hv))

theorem Build.version_of_sid (hsid : b.sid = true) : b.version = .v2 := by
  simp only [Build.sid, Bool.and_eq_true, beq_iff_eq] at hsid
  exact hsid.1

theorem foldl_config_slot (b : Build) (list : Nat → MpuRegion) (mpu : Nat → MpuSlot) {n j : Nat}
    (hj : j < n) (hslots : j + arcMpuReservedRegions < b.mpuRegions) :
    (List.range n).foldl (fun mpu i => arcMpuRegionConfig b mpu (i + arcMpuReservedRegions)
      (list i).base (list i).size (list i).attr) mpu (j + arcMpuReservedRegions) =
      (list j).slot b := by
  induction n with
  | zero => exact absurd hj (Nat.not_lt_zero j)
  | succ n ih =>
    rw [List.range_succ, List.foldl_append, List.foldl_cons, List.foldl_nil]
    by_cases hlast : j = n
    · subst hlast
      exact arcMpuRegionConfig_self _ hslots ..
    · rw [arcMpuRegionConfig_ne _ (by omega)]
      exact ih (by omega)

/-- What a switch of the SID build does: nothing to the MPU after the first time. -/
theorem vmpuSwitchSid_ok {dst : Nat} (hsid : b.sid = true) (h : vmpuSwitch b s dst = .ok s') :
    (s.vmpuLoad = true ∧ s'.mpu = s.mpu) ∨
      (s.vmpuLoad = false ∧
        s'.mpu = { s.mpu with list := fun i =>
          if i < s.mpu.used then sidLoadAttr s.secureSidMask (s.mpu.list i) else s.mpu.list i } ∧
        ∀ j < s.mpu.used, j + arcMpuReservedRegions < b.mpuRegions →
          s'.hw.mpu (j + arcMpuReservedRegions) = (s'.mpu.list j).slot b) := by
  rw [vmpuSwitch, if_pos hsid] at h
  unfold vmpuSwitchSid at h
  cases hload : s.vmpuLoad with
  | true =>
    simp only [hload, if_true] at h
    cases h
    exact Or.inl ⟨rfl, rfl⟩
  | false =>
    simp only [hload, Bool.false_eq_true, if_false] at h
    obtain ⟨_, -, h⟩ := Except.bind_eq_ok_iff.mp h
    cases h
    refine Or.inr ⟨rfl, rfl, ?_⟩
    intro j hj hslots
    exact foldl_config_slot b _ _ hj hslots

theorem TableEncoded.step {e : MpuEvent} (hs : TableEncoded b s.mpu)
    (h : mpuStep b s e = .ok s') : TableEncoded b s'.mpu := by
  cases e with
  | switch dst =>
    cases hsid : b.sid with
    | false =>
      obtain ⟨-, rfl⟩ := vmpuSwitch_ok hsid h
      exact hs
    | true =>
      rcases vmpuSwitchSid_ok hsid h with ⟨-, hmpu⟩ | ⟨-, hmpu, -⟩
      · rw [hmpu]
        exact hs
      · intro i
        simp only [hmpu]
        split_ifs
        · exact (hs i).sidLoadAttr (Build.version_of_sid hsid) _
        · exact hs i
  | fault addr =>
    cases h
    cases hfind : vmpuFaultFindRegion s addr with
    | none => rw [vmpuFaultRecoveryMpu_none hfind]; exact hs
    | some r => rw [vmpuFaultRecoveryMpu_some hfind]; exact hs

theorem MpuReachable.tableEncoded {hw : Hw} {s₁ : State} (h : MpuReachable b hw s₁ s) :
    TableEncoded b s.mpu := by
  obtain ⟨mem, call, cfgtbl, s₂, es, hinit, hsetup, hrun⟩ := h.exists_run
  obtain ⟨mpu, mask, rfl, -⟩ := vmpuArchInit_ok hinit
  refine hrun.invariant (I := fun s => TableEncoded b s.mpu) (fun _ _ _ hs _ h => hs.step h) ?_
  exact vmpuSetupLoop_mpu (P := TableEncoded b) (fun t c r hr ht => ht.add c hr) cfgtbl hsetup
    TableEncoded.empty

/-! ### The two ways into a slot -/

/-- The registers of a slot say what was stored as a region. -/
def SlotFaithful (s : State) (i : Nat) (r : MpuRegion) : Prop :=
  (s.hw.mpu i).decode = some r.encoding

theorem vmpuAcStaticRegion_slot {region : Nat} {ret : Word} (hregion : region < b.mpuRegions)
    (h : vmpuAcStaticRegion b s region base size ac = .ok (ret, s')) :
    ∃ r mask, vmpuAcUpdateContainerRegion b s 0 base size ac = .ok (r, mask) ∧
      s'.hw.mpu region = r.slot b := by
  rw [vmpuAcStaticRegion, if_neg (Nat.not_le.mpr hregion)] at h
  obtain ⟨⟨r, mask⟩, hr, h⟩ := Except.bind_eq_ok_iff.mp h
  cases h
  exact ⟨r, mask, hr, arcMpuRegionConfig_self s.hw.mpu hregion r.base r.size r.attr⟩

/-- **The registers decode to the region that was stored if and only if** it is a version 1
region with an access right and a granule of memory: for a static region, for a region a
switch loads, and for one the first switch of the SID build loads. -/
theorem encoding_faithful_iff (hmpu : b.mpuVersion = .v4) :
    (∀ s region base size ac ret s', region < b.mpuRegions →
      vmpuAcStaticRegion b s region base size ac = .ok (ret, s') →
      ∃ r mask, vmpuAcUpdateContainerRegion b s 0 base size ac = .ok (r, mask) ∧
        (SlotFaithful s' region r ↔ EncodableRequest b size ac)) ∧
    (∀ hw s₁ s dst s', MpuReachable b hw s₁ s → vmpuSwitch b s dst = .ok s' →
      (b.sid = false → ∀ j r, (switchRegions s dst)[j]? = some r →
        arcMpuReservedRegions + j < b.mpuRegions →
        (SlotFaithful s' (arcMpuReservedRegions + j) r ↔ Encodable b r)) ∧
      (b.sid = true → s.vmpuLoad = false → ∀ j < s.mpu.used,
        j + arcMpuReservedRegions < b.mpuRegions →
        (SlotFaithful s' (j + arcMpuReservedRegions) (s'.mpu.list j) ↔
          Encodable b (s.mpu.list j)))) := by
  refine ⟨?_, ?_⟩
  · intro s region base size ac ret s' hregion h
    obtain ⟨r, mask, hr, hslot⟩ := vmpuAcStaticRegion_slot hregion h
    have hstored : Stored b r := ⟨_, _, _, _, _, _, hr⟩
    refine ⟨r, mask, hr, ?_⟩
    rw [SlotFaithful, hslot, ← encodable_iff_request hmpu hr]
    exact hstored.encoded.decode_iff hmpu
  · intro hw s₁ s dst s' hreach h
    have htable := hreach.tableEncoded
    refine ⟨?_, ?_⟩
    · intro hsid j r hr hj
      obtain ⟨-, rfl⟩ := vmpuSwitch_ok hsid h
      rw [SlotFaithful, switched_each b s dst hr hj]
      rcases mem_switchRegions (List.mem_of_getElem? hr) with hmem | hmem
      · exact (htable.slice hmem).decode_iff hmpu
      · exact (htable.slice hmem).decode_iff hmpu
    · intro hsid hload j hj hslots
      have hv := Build.version_of_sid hsid
      have htable' : TableEncoded b s'.mpu := TableEncoded.step (e := .switch dst) htable h
      rcases vmpuSwitchSid_ok hsid h with ⟨hloaded, -⟩ | ⟨-, -, hslot⟩
      · rw [hload] at hloaded
        cases hloaded
      · rw [SlotFaithful, hslot j hj hslots, (htable' j).decode_iff hmpu]
        simp [Encodable, hv]

def Build.v1Mpu4 : Build := { Build.v1Mpu2 with mpuVersion := .v4 }

/-- A region of version 1 comes back from its registers, loaded either way. -/
theorem encoding_faithful_region :
    (∃ s', vmpuAcStaticRegion .v1Mpu4 State.blank 0 0x8000 0x800 acdefUram = .ok (0x800, s') ∧
      (s'.hw.mpu 0).decode = some (0x8000, 0x8800, 0x1B0)) ∧
    (∃ s₁ s s' r, MpuReachable .v1Mpu4 State.blank.hw s₁ s ∧ vmpuSwitch .v1Mpu4 s 1 = .ok s' ∧
      (switchRegions s 1)[1]? = some r ∧ SlotFaithful s' 3 r) := by
  obtain ⟨hstatic, hswitch⟩ := encoding_faithful_iff (b := .v1Mpu4) rfl
  refine ⟨?_, ?_⟩
  · obtain ⟨s', hs'⟩ : ∃ s', vmpuAcStaticRegion .v1Mpu4 State.blank 0 0x8000 0x800 acdefUram =
        .ok (0x800, s') := ⟨_, rfl⟩
    obtain ⟨r, mask, hr, hfaithful⟩ := hstatic _ _ _ _ _ _ _ (by decide) hs'
    cases hr
    exact ⟨s', hs', hfaithful.mpr ⟨rfl, by decide, Or.inr ⟨by decide, by decide⟩⟩⟩
  · obtain ⟨s₁, s, s', r, hreach, hs', hr, henc⟩ : ∃ s₁ s s' r,
        MpuReachable .v1Mpu4 State.blank.hw s₁ s ∧ vmpuSwitch .v1Mpu4 s 1 = .ok s' ∧
          (switchRegions s 1)[1]? = some r ∧ Encodable .v1Mpu4 r :=
      ⟨_, _, _, _, ⟨State.blank.mem, State.blank.call, sampleTable, _, [], rfl, rfl, Runs.nil _⟩,
        rfl, rfl, rfl, by decide, by decide⟩
    exact ⟨s₁, s, s', r, hreach, hs', hr,
      ((hswitch _ _ _ _ _ hreach hs').1 rfl 1 r hr (by decide)).mpr henc⟩

/-- The secure bit and the SID of a version 2 region do not reach the permission register. -/
theorem encoding_drops_secure :
    ∃ s' r mask, vmpuAcStaticRegion .v2Mpu4 State.blank 0 0x8000 0x800 (acdefUram ||| acSecure) =
        .ok (0x800, s') ∧
      vmpuAcUpdateContainerRegion .v2Mpu4 State.blank 0 0x8000 0x800 (acdefUram ||| acSecure) =
        .ok (r, mask) ∧ r.attr = 0x181B0 ∧
      (s'.hw.mpu 0).decode = some (0x8000, 0x8800, 0x1B0) ∧ ¬ SlotFaithful s' 0 r :=
  ⟨_, _, _, rfl, rfl, rfl, by decide, by unfold SlotFaithful; decide⟩

end

end Embarc
