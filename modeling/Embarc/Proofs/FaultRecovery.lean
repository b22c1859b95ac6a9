/-
What a protection fault recovers from.

A fault is meant to be recovered from exactly when the address lies in a region the
active container may use, and the region is then to be in the MPU.  Two things stand in
the way.  The walk over the regions adds base and size in 32-bit arithmetic, so it never
finds a region that ends with the address space, and it looks through container 0 only
as a normal container.  And a switch that fills every slot leaves the cursor behind the
last one, where `arcMpuRegionConfig` ignores the write.

`FaultCovered` is what is left: the states and addresses a fault is handled well in.
-/
import Embarc.Proofs.MpuLoad

namespace Embarc

open Trace

section
variable {b : Build} {s : State} {addr : Word}

/-! ### The walk -/

/-- The 32-bit range test misses exactly the regions that end at or behind 2^32. -/
theorem MpuRegion.hit_iff (r : MpuRegion) (addr : Word) :
    r.hit addr = true ↔ r.contains addr.toNat ∧ r.stop < 2 ^ 32 := by
  unfold MpuRegion.hit MpuRegion.contains MpuRegion.stop
  simp only [Bool.and_eq_true, decide_eq_true_eq]
  bv_omega

/-- The address lies in a region the active container may use. -/
def InUsable (s : State) (addr : Word) : Prop :=
  ∃ c, MayUse s c ∧ ∃ r ∈ s.mpu.slice c, r.contains addr.toNat

/-- The address lies in a region that the walk can find. -/
def InSearchable (s : State) (addr : Word) : Prop :=
  ∃ c, Searched s c ∧ ∃ r ∈ s.mpu.slice c, r.contains addr.toNat ∧ r.stop < 2 ^ 32

theorem InSearchable.inUsable (h : InSearchable s addr) : InUsable s addr := by
  obtain ⟨c, hc, r, hr, hin, -⟩ := h
  exact ⟨c, hc.mayUse, r, hr, hin⟩

theorem vmpuFaultFindRegion_isSome :
    (∃ r, vmpuFaultFindRegion s addr = some r) ↔ InSearchable s addr := by
  constructor
  · rintro ⟨r, h⟩
    obtain ⟨c, hc, hr, hhit⟩ := vmpuFaultFindRegion_some h
    exact ⟨c, hc, r, hr, (r.hit_iff addr).mp hhit⟩
  · rintro ⟨c, hc, r, hr, hin⟩
    cases hfind : vmpuFaultFindRegion s addr with
    | some r' => exact ⟨r', rfl⟩
    | none =>
      exact absurd ⟨hr, (r.hit_iff addr).mpr hin⟩ (vmpuFaultFindRegion_none hfind hc r)

/-! ### The slots afterwards -/

/-- Some slot behind the reserved ones holds a recorded region that contains the address. -/
def InSlot (b : Build) (s : State) (addr : Word) : Prop :=
  ∃ i, arcMpuReservedRegions ≤ i ∧ i < b.mpuRegions ∧
    ∃ c, ∃ r ∈ s.mpu.slice c, r.contains addr.toNat ∧ s.hw.mpu i = r.slot b

/-- A fault is recovered from if and only if the address is in a usable region, and the
region is then in a slot. -/
def FaultHandled (b : Build) (s : State) (addr : Word) : Prop :=
  ((vmpuFaultRecoveryMpu b s addr).1 = 0 ↔ InUsable s addr) ∧
  ((vmpuFaultRecoveryMpu b s addr).1 = 0 → InSlot b (vmpuFaultRecoveryMpu b s addr).2 addr)

/-- An address in a usable region is in one the walk can find, and the cursor is on a slot
or the address is covered already. -/
def FaultCovered (b : Build) (s : State) (addr : Word) : Prop :=
  InUsable s addr →
    InSearchable s addr ∧ (s.mpuSlot < b.mpuRegions ∨ InSlot b s addr)

/-- A slot with a region that holds the address is there after a recovery if and only if
the write went to a slot or there was one before. -/
theorem inSlot_recovered {r : MpuRegion} (hcursor : arcMpuReservedRegions ≤ s.mpuSlot)
    (hfind : vmpuFaultFindRegion s addr = some r) :
    InSlot b (recovered b s r) addr ↔ (s.mpuSlot < b.mpuRegions ∨ InSlot b s addr) := by
  obtain ⟨c, -, hr, hhit⟩ := vmpuFaultFindRegion_some hfind
  have hin := ((r.hit_iff addr).mp hhit).1
  by_cases hslot : s.mpuSlot < b.mpuRegions
  · exact ⟨fun _ => Or.inl hslot, fun _ =>
      ⟨s.mpuSlot, hcursor, hslot, c, r, hr, hin, recovered_slot_self hslot⟩⟩
  · have hsame : (recovered b s r).hw.mpu = s.hw.mpu :=
      arcMpuRegionConfig_of_le s.hw.mpu (Nat.le_of_not_lt hslot) r.base r.size r.attr
    have hiff : InSlot b (recovered b s r) addr ↔ InSlot b s addr := by
      unfold InSlot
      rw [hsame]
      exact Iff.rfl
    rw [hiff]
    exact ⟨Or.inr, fun h => h.resolve_left hslot⟩

/-- **A fault is handled well exactly where `FaultCovered` says so**, in every state that
switches and faults reach. -/
theorem fault_recovery_iff (hsid : b.sid = false) {hw : Hw} {s₁ : State}
    (h : MpuReachable b hw s₁ s) (addr : Word) :
    FaultHandled b s addr ↔ FaultCovered b s addr := by
  have hcursor := (h.mpuOK hsid).cursor
  unfold FaultHandled FaultCovered
  cases hfind : vmpuFaultFindRegion s addr with
  | none =>
    -- nothing is found: right unless there is something to find
    have hnot : ¬ InSearchable s addr := by
      rw [← vmpuFaultFindRegion_isSome, hfind]
      simp
    rw [vmpuFaultRecoveryMpu_none hfind]
    simp only [Int.reduceNeg, Int.neg_eq_zero, one_ne_zero, false_iff, false_implies, and_true]
    exact ⟨fun hnone husable => absurd husable hnone, fun hcov husable => hnot (hcov husable).1⟩
  | some r =>
    have hsearch : InSearchable s addr := vmpuFaultFindRegion_isSome.mp ⟨r, hfind⟩
    have husable := hsearch.inUsable
    rw [vmpuFaultRecoveryMpu_some hfind]
    simp only [husable, forall_const, true_and, hsearch]
    exact inSlot_recovered hcursor hfind

end

theorem fault_recovery_iff_sample :
    ∃ s₁ s, MpuReachable .v1Mpu2 State.blank.hw s₁ s ∧ FaultCovered .v1Mpu2 s 0x8004 ∧
      FaultHandled .v1Mpu2 s 0x8004 := by
  have hreach : ∃ s₁ s, MpuReachable .v1Mpu2 State.blank.hw s₁ s ∧
      FaultCovered .v1Mpu2 s 0x8004 :=
    ⟨_, _, ⟨State.blank.mem, State.blank.call, sampleTable, _, [.switch 1], rfl, rfl,
      Runs.cons trivial rfl (Runs.nil _)⟩, fun _ =>
      ⟨⟨1, Or.inl ⟨rfl, by decide⟩, ⟨0x8000, 0x1b0, 0x800, acdefUram⟩, by decide,
        ⟨by decide, by decide⟩, by decide⟩, Or.inl (by decide)⟩⟩
  obtain ⟨s₁, s, hs, hcovered⟩ := hreach
  exact ⟨s₁, s, hs, hcovered, (fault_recovery_iff rfl hs 0x8004).mpr hcovered⟩

/-- Version 1 on an MPU with eight regions: six behind the reserved ones. -/
def Build.v1Mpu2Small : Build := { Build.v1Mpu2 with mpuRegions := 8 }

def fullTable : List ContainerConfig :=
  [{ addr := 0x30000, type := secureshieldContainerNormal, stackSecure := 0x1000, stackArea := 0,
     acTable := none, dataStart := 0x10000, bssEnd := 0x10800 },
   { addr := 0x30100, type := secureshieldContainerNormal, stackSecure := 0x2000,
     stackArea := 0x3000,
     acTable := some [⟨0x4000, 0x800, acdefUram⟩, ⟨0x5000, 0x800, acdefUram⟩,
       ⟨0x6000, 0x800, acdefUram⟩, ⟨0x7000, 0x800, acdefUram⟩, ⟨0x8000, 0x800, acdefUram⟩,
       ⟨0x9000, 0x800, acdefUram⟩] }]

def lastTable : List ContainerConfig :=
  [fullTable.head (by decide),
   { addr := 0x30100, type := secureshieldContainerNormal, stackSecure := 0x2000,
     stackArea := 0x3000, acTable := some [⟨0xFFFFF000, 0x1000, acdefUram⟩] }]

/-- After a switch that fills every slot, a fault on the background container's region
returns 0 and loads nothing; a fault in a region that ends with the address space is not
recovered from. -/
theorem fault_unhandled :
    (∃ s₁ s, MpuReachable .v1Mpu2Small State.blank.hw s₁ s ∧
      ¬ FaultHandled .v1Mpu2Small s 0x10004) ∧
    (∃ s₁ s, MpuReachable .v1Mpu2 State.blank.hw s₁ s ∧
      ¬ FaultHandled .v1Mpu2 s 0xFFFFF004) := by
  refine ⟨⟨_, _, ⟨State.blank.mem, State.blank.call, fullTable, _, [.switch 1], rfl, rfl,
      Runs.cons trivial rfl (Runs.nil _)⟩, ?_⟩, ⟨_, _, ⟨State.blank.mem, State.blank.call,
      lastTable, _, [.switch 1], rfl, rfl, Runs.cons trivial rfl (Runs.nil _)⟩, ?_⟩⟩
  · rintro ⟨-, hslot⟩
    obtain ⟨i, hi, hregions, c, r, hr, hin, heq⟩ := hslot (by decide)
    rcases c with _ | _ | c
    · -- the background region holds the address, and no slot holds the background region
      obtain rfl := List.mem_singleton.mp hr
      revert heq
      revert hi
      revert i
      decide
    · clear heq
      revert hin
      revert hr
      revert r
      decide
    · have hnone : r ∈ ([] : List MpuRegion) := hr
      simp at hnone
  · rintro ⟨hret, -⟩
    exact absurd (hret.mpr ⟨1, Or.inl rfl, ⟨0xFFFFF000, 0x1b0, 0x1000, acdefUram⟩, by decide,
      by decide⟩) (by decide)

end Embarc
