/-
What is in the MPU while containers run.

A switch rewrites every slot behind the reserved ones: the regions of the target, then
those of the background container, then nothing.  A fault brings one more region in at
the cursor the switch left behind.  So the slots never hold a region that the active
container has no business with, and that is an invariant of switches and faults in any
order (`MpuOK`).

Without the SID mechanism, that is; with it the MPU is loaded once and for all.
-/
import Embarc.Proofs.Setup

namespace Embarc

open Trace

/-- The registers a region is loaded into a slot as. -/
def MpuRegion.slot (b : Build) (r : MpuRegion) : MpuSlot :=
  mpuSlotOf b.mpuVersion r.base r.size r.attr

/-! ### The loops of a switch -/

/-- What loading a list of regions into consecutive slots does. -/
structure Loaded (b : Build) (rs : List MpuRegion) (slot slot' : Nat) (mpu mpu' : Nat → MpuSlot) :
    Prop where
  le : slot ≤ slot'
  filled : ∀ i, slot ≤ i → i < slot' → ∃ r ∈ rs, mpu' i = r.slot b
  below : ∀ i, i < slot → mpu' i = mpu i
  /-- All of them are loaded, or there are no slots left. -/
  stop : slot' = slot + rs.length ∨ (b.mpuRegions ≤ slot' ∧ slot' ≤ slot + rs.length)
  /-- The slots go to the regions in order. -/
  each : ∀ j r, rs[j]? = some r → slot + j < b.mpuRegions → mpu' (slot + j) = r.slot b

theorem loadRegions_loaded (b : Build) : ∀ (rs : List MpuRegion) (slot : Nat)
    (mpu : Nat → MpuSlot),
    Loaded b rs slot (loadRegions b rs slot mpu).1 mpu (loadRegions b rs slot mpu).2 := by
  intro rs
  induction rs with
  | nil =>
    intro slot mpu
    exact ⟨Nat.le_refl _, fun i hi hi' => absurd hi' (Nat.not_lt.mpr hi), fun _ _ => rfl,
      Or.inl rfl, fun j r hr => by simp at hr⟩
  | cons r rest ih =>
    intro slot mpu
    unfold loadRegions
    split_ifs with hfull
    · exact ⟨Nat.le_refl _, fun i hi hi' => absurd hi' (Nat.not_lt.mpr hi), fun _ _ => rfl,
        Or.inr ⟨hfull, Nat.le_add_right _ _⟩, fun j _ _ hj => by omega⟩
    · obtain ⟨hle, hfilled, hbelow, hstop, heach⟩ := ih (slot + 1)
        (arcMpuRegionConfig b mpu slot r.base r.size r.attr)
      have hfirst : (loadRegions b rest (slot + 1)
          (arcMpuRegionConfig b mpu slot r.base r.size r.attr)).2 slot = r.slot b := by
        rw [hbelow slot (Nat.lt_succ_self slot),
          arcMpuRegionConfig_self mpu (Nat.lt_of_not_le hfull)]
        rfl
      refine ⟨by omega, ?_, ?_, by rw [List.length_cons]; omega, ?_⟩
      · intro i hi hi'
        by_cases hslot : i = slot
        · subst hslot
          exact ⟨r, by simp, hfirst⟩
        · obtain ⟨r', hr', heq⟩ := hfilled i (by omega) hi'
          exact ⟨r', by simp [hr'], heq⟩
      · intro i hi
        rw [hbelow i (by omega), arcMpuRegionConfig_ne mpu (by omega)]
      · intro j r' hj hslots
        cases j with
        | zero =>
          obtain rfl := Option.some.inj hj
          exact hfirst
        | succ j =>
          rw [← Nat.add_assoc, Nat.add_right_comm] at hslots ⊢
          exact heach j r' hj hslots

/-- Clearing leaves the slots below alone and makes the ones it covers invalid. -/
theorem clearSlots_spec (b : Build) : ∀ (n slot : Nat) (mpu : Nat → MpuSlot),
    (∀ i, i < slot → clearSlots b n slot mpu i = mpu i) ∧
    (∀ i, slot ≤ i → i < slot + n → i < b.mpuRegions →
      (clearSlots b n slot mpu i).valid = false) := by
  intro n
  induction n with
  | zero => intro slot mpu; exact ⟨fun _ _ => rfl, fun i hi hi' => absurd hi' (Nat.not_lt.mpr hi)⟩
  | succ n ih =>
    intro slot mpu
    obtain ⟨hbelow, hclear⟩ := ih (slot + 1) (arcMpuRegionConfig b mpu slot 0 0 0)
    refine ⟨?_, ?_⟩
    · intro i hi
      unfold clearSlots
      rw [hbelow i (by omega), arcMpuRegionConfig_ne mpu (by omega)]
    · intro i hi hi' hregions
      unfold clearSlots
      by_cases hslot : i = slot
      · subst hslot
        rw [hbelow i (Nat.lt_succ_self i), arcMpuRegionConfig_self mpu hregions]
        exact mpuSlotOf_zero_valid _
      · exact hclear i (by omega) (by omega) hregions

variable {dst i c : Nat} {r : MpuRegion} {addr : Word} {hw : Hw} {s₁ : State}

/-! ### A switch -/

section
variable {b : Build} {s s' : State}

/-- The slot a region of a container is in. -/
def HoldsRegionOf (b : Build) (s : State) (c i : Nat) : Prop :=
  ∃ r ∈ s.mpu.slice c, s.hw.mpu i = r.slot b

/-- The regions a switch loads: the target's, then the background container's. -/
def switchRegions (s : State) (dst : Nat) : List MpuRegion :=
  (if dst ≠ 0 then s.mpu.slice dst else []) ++ s.mpu.slice 0

theorem mem_switchRegions (h : r ∈ switchRegions s dst) :
    r ∈ s.mpu.slice dst ∨ r ∈ s.mpu.slice 0 := by
  rcases List.mem_append.mp h with hdst | hbg
  · split_ifs at hdst
    · exact Or.inl hdst
    · simp at hdst
  · exact Or.inr hbg

theorem Loaded.append {rs rs' : List MpuRegion} {j k : Nat} {mpu mpu' mpu'' : Nat → MpuSlot}
    (h : Loaded b rs i j mpu mpu') (h' : Loaded b rs' j k mpu' mpu'') :
    Loaded b (rs ++ rs') i k mpu mpu'' := by
  have hle := h.le
  have hle' := h'.le
  have hstop := h.stop
  have hstop' := h'.stop
  refine ⟨Nat.le_trans hle hle', ?_, ?_, by rw [List.length_append]; omega, ?_⟩
  · intro n hn hn'
    rcases Nat.lt_or_ge n j with hlt | hge
    · obtain ⟨r, hr, heq⟩ := h.filled n hn hlt
      exact ⟨r, List.mem_append_left _ hr, (h'.below n hlt).trans heq⟩
    · obtain ⟨r, hr, heq⟩ := h'.filled n hge hn'
      exact ⟨r, List.mem_append_right _ hr, heq⟩
  · intro n hn
    exact (h'.below n (Nat.lt_of_lt_of_le hn hle)).trans (h.below n hn)
  · intro n r hn hslots
    rcases Nat.lt_or_ge n rs.length with hlt | hge
    · rw [List.getElem?_append_left hlt] at hn
      exact (h'.below (i + n) (by omega)).trans (h.each n r hn hslots)
    · rw [List.getElem?_append_right hge] at hn
      have hj : i + n = j + (n - rs.length) := by omega
      rw [hj]
      exact h'.each _ r hn (by omega)

/-- The two lists a switch loads end up behind the reserved slots, one after the other. -/
theorem vmpuLoadSlots_loaded (b : Build) (s : State) (dst : Nat) :
    Loaded b (switchRegions s dst) arcMpuReservedRegions (vmpuLoadSlots b s dst).1
      s.hw.mpu (vmpuLoadSlots b s dst).2 :=
  (loadRegions_loaded b _ _ _).append (loadRegions_loaded b _ _ _)

def switched (b : Build) (s : State) (dst : Nat) : State :=
  { s with
    activeContainer := dst
    mpuSlot := (vmpuLoadSlots b s dst).1
    hw := { s.hw with
      mpu := clearSlots b (b.mpuRegions - (vmpuLoadSlots b s dst).1) (vmpuLoadSlots b s dst).1
        (vmpuLoadSlots b s dst).2 } }

theorem vmpuSwitch_ok (hsid : b.sid = false) (h : vmpuSwitch b s dst = .ok s') :
    dst < secureshieldMaxContainers ∧ s' = switched b s dst := by
  simp only [vmpuSwitch, hsid, Bool.false_eq_true, if_false, Except.bind_eq_ok_iff,
    haltIf_eq_ok] at h
  obtain ⟨_, hdst, h⟩ := h
  exact ⟨by omega, (Except.ok.inj h).symm⟩

theorem switched_slot (b : Build) (s : State) (dst i : Nat) :
    (i < arcMpuReservedRegions → (switched b s dst).hw.mpu i = s.hw.mpu i) ∧
    (arcMpuReservedRegions ≤ i → i < (switched b s dst).mpuSlot →
      ∃ r ∈ switchRegions s dst, (switched b s dst).hw.mpu i = r.slot b) ∧
    ((switched b s dst).mpuSlot ≤ i → i < b.mpuRegions →
      ((switched b s dst).hw.mpu i).valid = false) := by
  have hload := vmpuLoadSlots_loaded b s dst
  obtain ⟨hkeep, hclear⟩ := clearSlots_spec b (b.mpuRegions - (vmpuLoadSlots b s dst).1)
    (vmpuLoadSlots b s dst).1 (vmpuLoadSlots b s dst).2
  refine ⟨?_, ?_, ?_⟩
  · intro hi
    exact (hkeep i (Nat.lt_of_lt_of_le hi hload.le)).trans (hload.below i hi)
  · intro hi hi'
    obtain ⟨r, hr, heq⟩ := hload.filled i hi hi'
    exact ⟨r, hr, (hkeep i hi').trans heq⟩
  · intro hi hregions
    have hi' : (vmpuLoadSlots b s dst).1 ≤ i := hi
    exact hclear i hi (by omega) hregions

theorem switched_each (b : Build) (s : State) (dst : Nat) {j : Nat}
    (hr : (switchRegions s dst)[j]? = some r) (hj : arcMpuReservedRegions + j < b.mpuRegions) :
    (switched b s dst).hw.mpu (arcMpuReservedRegions + j) = r.slot b := by
  have hload := vmpuLoadSlots_loaded b s dst
  have hstop := hload.stop
  have hlen : j < (switchRegions s dst).length := (List.getElem?_eq_some_iff.mp hr).1
  have hkeep := (clearSlots_spec b (b.mpuRegions - (vmpuLoadSlots b s dst).1)
    (vmpuLoadSlots b s dst).1 (vmpuLoadSlots b s dst).2).1 (arcMpuReservedRegions + j) (by omega)
  exact hkeep.trans (hload.each j r hr hj)

/-! ### A fault -/

/-- A container whose regions the active container may use: itself, the background
container, and a normal container if the active one is secure. -/
def MayUse (s : State) (c : Nat) : Prop :=
  c = s.activeContainer ∨ c = 0 ∨
    (containerIsSecure s s.activeContainer = true ∧ c < s.containerCount ∧
      containerIsSecure s c = false)

def Searched (s : State) (c : Nat) : Prop :=
  (c = s.activeContainer ∧ c ≠ 0) ∨
    (containerIsSecure s s.activeContainer = true ∧ c < s.containerCount ∧
      containerIsSecure s c = false) ∨
    (containerIsSecure s s.activeContainer = false ∧ c = 0)

theorem Searched.mayUse (h : Searched s c) : MayUse s c := by
  rcases h with ⟨h, -⟩ | h | ⟨-, h⟩
  · exact Or.inl h
  · exact Or.inr (Or.inr h)
  · exact Or.inr (Or.inl h)

/-- A container has a region that the walk takes the address to be in. -/
def HitIn (s : State) (addr : Word) (c : Nat) (r : MpuRegion) : Prop :=
  r ∈ s.mpu.slice c ∧ r.hit addr = true

theorem findContainerRegion_some (h : vmpuFaultFindContainerRegion s addr c = some r) :
    HitIn s addr c r :=
  ⟨List.mem_of_find?_eq_some h, List.find?_some h⟩

theorem findContainerRegion_none (h : vmpuFaultFindContainerRegion s addr c = none)
    (r : MpuRegion) : ¬ HitIn s addr c r := by
  rintro ⟨hr, hhit⟩
  exact absurd hhit (by simpa using List.find?_eq_none.mp h r hr)

theorem findNormal_some (h : vmpuFaultFindNormal s addr = some r) :
    ∃ c, c < s.containerCount ∧ containerIsSecure s c = false ∧ HitIn s addr c r := by
  obtain ⟨c, hc, hfind⟩ := List.exists_of_findSome?_eq_some h
  split_ifs at hfind with hsec
  exact ⟨c, List.mem_range.mp hc, by simpa using hsec, findContainerRegion_some hfind⟩

theorem findNormal_none (h : vmpuFaultFindNormal s addr = none) (hc : c < s.containerCount)
    (hsec : containerIsSecure s c = false) (r : MpuRegion) : ¬ HitIn s addr c r := by
  have hnone := List.findSome?_eq_none_iff.mp h c (List.mem_range.mpr hc)
  rw [hsec, if_neg Bool.false_ne_true] at hnone
  exact findContainerRegion_none hnone r

/-- What a fault finds is a hit in a container it looks through. -/
theorem vmpuFaultFindRegion_some (h : vmpuFaultFindRegion s addr = some r) :
    ∃ c, Searched s c ∧ HitIn s addr c r := by
  unfold vmpuFaultFindRegion at h
  simp only at h
  split at h
  · next own hown =>
    obtain rfl := Option.some.inj h
    split_ifs at hown with h0
    exact ⟨_, Or.inl ⟨rfl, h0⟩, findContainerRegion_some hown⟩
  · split_ifs at h with hsec
    · obtain ⟨c, hc, hnormal, hhit⟩ := findNormal_some h
      exact ⟨c, Or.inr (Or.inl ⟨hsec, hc, hnormal⟩), hhit⟩
    · exact ⟨0, Or.inr (Or.inr ⟨by simpa using hsec, rfl⟩), findContainerRegion_some h⟩

theorem vmpuFaultFindRegion_none (h : vmpuFaultFindRegion s addr = none) (hc : Searched s c)
    (r : MpuRegion) : ¬ HitIn s addr c r := by
  unfold vmpuFaultFindRegion at h
  simp only at h
  split at h
  · simp at h
  · next hown =>
    rcases hc with ⟨rfl, h0⟩ | ⟨hsec, hlt, hnormal⟩ | ⟨hsec, rfl⟩
    · rw [if_pos h0] at hown
      exact findContainerRegion_none hown r
    · rw [if_pos hsec] at h
      exact findNormal_none h hlt hnormal r
    · rw [hsec, if_neg Bool.false_ne_true] at h
      exact findContainerRegion_none h r

theorem vmpuFaultRecoveryMpu_none (h : vmpuFaultFindRegion s addr = none) :
    vmpuFaultRecoveryMpu b s addr = (-1, s) := by
  simp only [vmpuFaultRecoveryMpu, h]

/-- Where the cursor is after a fault that was recovered from. -/
def nextSlot (b : Build) (s : State) : Nat :=
  if b.mpuRegions ≤ s.mpuSlot + 1 then mpuSlotRestart b else s.mpuSlot + 1

def recovered (b : Build) (s : State) (r : MpuRegion) : State :=
  { s with
    mpuSlot := nextSlot b s
    hw := { s.hw with mpu := arcMpuRegionConfig b s.hw.mpu s.mpuSlot r.base r.size r.attr } }

theorem vmpuFaultRecoveryMpu_some (h : vmpuFaultFindRegion s addr = some r) :
    vmpuFaultRecoveryMpu b s addr = (0, recovered b s r) := by
  simp only [vmpuFaultRecoveryMpu, h]
  rfl

theorem recovered_slot_self (h : s.mpuSlot < b.mpuRegions) :
    (recovered b s r).hw.mpu s.mpuSlot = r.slot b :=
  arcMpuRegionConfig_self s.hw.mpu h r.base r.size r.attr

theorem recovered_slot_ne (h : i ≠ s.mpuSlot) : (recovered b s r).hw.mpu i = s.hw.mpu i :=
  arcMpuRegionConfig_ne s.hw.mpu h r.base r.size r.attr

theorem reserved_le_nextSlot (h : arcMpuReservedRegions ≤ s.mpuSlot) :
    arcMpuReservedRegions ≤ nextSlot b s := by
  unfold nextSlot mpuSlotRestart
  split_ifs
  · cases b.version <;> simp
  · omega

end

/-! ### Isolation -/

/-- What happens to the MPU while containers run. -/
inductive MpuEvent
  | switch (dst : Nat)
  | fault (addr : Word)

def mpuStep (b : Build) (s : State) : MpuEvent → Except Halt State
  | .switch dst => vmpuSwitch b s dst
  | .fault addr => .ok (vmpuFaultRecoveryMpu b s addr).2

/-- The invariant of switches and faults; `s₀` is the state before the first of them.  A slot
is as it was, invalid, or holds a region the active container may use. -/
structure MpuOK (b : Build) (s₀ s : State) : Prop where
  cursor : arcMpuReservedRegions ≤ s.mpuSlot
  isolated : ∀ i, arcMpuReservedRegions ≤ i → i < b.mpuRegions → (s.hw.mpu i).valid = true →
    s.hw.mpu i = s₀.hw.mpu i ∨ ∃ c, MayUse s c ∧ HoldsRegionOf b s c i
  reserved : ∀ i, i < arcMpuReservedRegions → s.hw.mpu i = s₀.hw.mpu i

section
variable {b : Build} {s₀ s s' : State}

theorem MpuOK.switch (hsid : b.sid = false) (hs : MpuOK b s₀ s) (h : vmpuSwitch b s dst = .ok s') :
    MpuOK b s₀ s' := by
  obtain ⟨-, rfl⟩ := vmpuSwitch_ok hsid h
  refine ⟨(vmpuLoadSlots_loaded b s dst).le, ?_, ?_⟩
  · intro i hi hregions hvalid
    obtain ⟨-, hloaded, hcleared⟩ := switched_slot b s dst i
    by_cases hin : i < (switched b s dst).mpuSlot
    · obtain ⟨r, hr, hslot⟩ := hloaded hi hin
      rcases mem_switchRegions hr with hdst | hbg
      · exact Or.inr ⟨dst, Or.inl rfl, r, hdst, hslot⟩
      · exact Or.inr ⟨0, Or.inr (Or.inl rfl), r, hbg, hslot⟩
    · rw [hcleared (Nat.le_of_not_lt hin) hregions] at hvalid
      cases hvalid
  · intro i hi
    exact ((switched_slot b s dst i).1 hi).trans (hs.reserved i hi)

theorem MpuOK.fault (hs : MpuOK b s₀ s) : MpuOK b s₀ (vmpuFaultRecoveryMpu b s addr).2 := by
  cases hfind : vmpuFaultFindRegion s addr with
  | none =>
    rw [vmpuFaultRecoveryMpu_none hfind]
    exact hs
  | some r =>
    obtain ⟨c, hc, hr, -⟩ := vmpuFaultFindRegion_some hfind
    have hcursor := hs.cursor
    rw [vmpuFaultRecoveryMpu_some hfind]
    refine ⟨reserved_le_nextSlot hcursor, ?_, ?_⟩
    · intro i hi hregions hvalid
      by_cases hslot : i = s.mpuSlot
      · subst hslot
        exact Or.inr ⟨c, hc.mayUse, r, hr, recovered_slot_self hregions⟩
      · have hkeep : (recovered b s r).hw.mpu i = s.hw.mpu i := recovered_slot_ne hslot
        rw [hkeep] at hvalid
        rcases hs.isolated i hi hregions hvalid with hold | ⟨d, hd, r', hr', hold⟩
        · exact Or.inl (hkeep.trans hold)
        · exact Or.inr ⟨d, hd, r', hr', hkeep.trans hold⟩
    · intro i hi
      exact (recovered_slot_ne (by omega)).trans (hs.reserved i hi)

theorem MpuOK.step (hsid : b.sid = false) {e : MpuEvent} (hs : MpuOK b s₀ s)
    (h : mpuStep b s e = .ok s') : MpuOK b s₀ s' := by
  cases e with
  | switch dst => exact hs.switch hsid h
  | fault addr =>
    cases h
    exact hs.fault

end

/-! ### From initialisation on -/

section
variable {b : Build} {s s' : State}

theorem vmpuAcStaticRegion_ok {region : Nat} {base size ac ret : Word}
    (h : vmpuAcStaticRegion b s region base size ac = .ok (ret, s')) :
    ∃ mpu mask, s' = { s with hw := { s.hw with mpu := mpu }, secureSidMask := mask } ∧
      ∀ i, i ≠ region → mpu i = s.hw.mpu i := by
  unfold vmpuAcStaticRegion at h
  split_ifs at h
  · cases h
    exact ⟨s.hw.mpu, s.secureSidMask, rfl, fun _ _ => rfl⟩
  · obtain ⟨⟨r, mask⟩, -, h⟩ := Except.bind_eq_ok_iff.mp h
    cases h
    exact ⟨_, mask, rfl, fun i hi => arcMpuRegionConfig_ne s.hw.mpu hi r.base r.size r.attr⟩

theorem vmpuArchInit_ok (h : vmpuArchInit b s = .ok s') :
    ∃ mpu mask, s' = { s with mpuSlot := arcMpuReservedRegions, hw := { s.hw with mpu := mpu },
                              secureSidMask := mask } ∧
      ∀ i, arcMpuReservedRegions ≤ i → mpu i = s.hw.mpu i := by
  simp only [vmpuArchInit, Except.bind_eq_ok_iff] at h
  obtain ⟨⟨ret₁, s₁⟩, h₁, ⟨ret₂, s₂⟩, h₂, h⟩ := h
  cases h
  obtain ⟨mpu₁, mask₁, rfl, hmpu₁⟩ := vmpuAcStaticRegion_ok h₁
  obtain ⟨mpu₂, mask₂, rfl, hmpu₂⟩ := vmpuAcStaticRegion_ok h₂
  refine ⟨mpu₂, mask₂, rfl, ?_⟩
  intro i hi
  unfold arcMpuReservedRegions at hi
  exact (hmpu₂ i (by omega)).trans (hmpu₁ i (by omega))

/-- A state that switches and faults reach after an accepted configuration; `s₁` is the
state initialisation leaves and `hw` the hardware it starts on. -/
structure MpuReachable (b : Build) (hw : Hw) (s₁ s : State) : Prop where
  exists_run : ∃ mem call cfgtbl s₂ es,
    vmpuArchInit b (State.reset hw mem call) = .ok s₁ ∧
    vmpuSetupContainers b s₁ cfgtbl = .ok s₂ ∧
    Runs (mpuStep b) (fun _ _ => True) s₂ es s

theorem MpuReachable.mpuOK (hsid : b.sid = false) (h : MpuReachable b hw s₁ s) : MpuOK b s₁ s := by
  obtain ⟨mem, call, cfgtbl, s₂, es, hinit, hsetup, hrun⟩ := h.exists_run
  obtain ⟨mpu, mask, rfl, -⟩ := vmpuArchInit_ok hinit
  obtain ⟨-, -, hframe⟩ := vmpuSetupLoop_frame cfgtbl hsetup
  refine hrun.invariant (fun _ _ _ hs _ h => MpuOK.step hsid hs h) ⟨?_, ?_, ?_⟩
  · exact Nat.le_of_eq hframe.cursor.symm
  · intro i _ _ _
    exact Or.inl (by rw [hframe.slots])
  · intro i _
    rw [hframe.slots]

/-- Initialisation leaves the slots behind the reserved ones as they come out of reset. -/
theorem MpuReachable.unloaded (h : MpuReachable b hw s₁ s) (hi : arcMpuReservedRegions ≤ i) :
    s₁.hw.mpu i = hw.mpu i := by
  obtain ⟨mem, call, cfgtbl, s₂, es, hinit, -, -⟩ := h.exists_run
  obtain ⟨mpu, mask, rfl, hmpu⟩ := vmpuArchInit_ok hinit
  exact hmpu i hi

/-- **The MPU never holds a region the active container may not use**, and the slots of
the runtime itself are never rewritten.  The slots behind them are taken to be invalid
when the processor comes out of reset. -/
theorem mpu_isolation (hsid : b.sid = false) {hw : Hw} {s₁ : State}
    (hreset : ∀ i, arcMpuReservedRegions ≤ i → (hw.mpu i).valid = false)
    (h : MpuReachable b hw s₁ s) :
    (∀ i, arcMpuReservedRegions ≤ i → i < b.mpuRegions → (s.hw.mpu i).valid = true →
      ∃ c, MayUse s c ∧ HoldsRegionOf b s c i) ∧
    (∀ i, i < arcMpuReservedRegions → s.hw.mpu i = s₁.hw.mpu i) := by
  refine ⟨?_, (h.mpuOK hsid).reserved⟩
  intro i hi hregions hvalid
  rcases (h.mpuOK hsid).isolated i hi hregions hvalid with hold | hmay
  · rw [hold, h.unloaded hi, hreset i hi] at hvalid
    cases hvalid
  · exact hmay

/-- The container of the sample table takes over and faults on its own memory range, which
is then in a slot once more. -/
theorem mpu_isolation_sample :
    ∃ s₁ s, MpuReachable .v1Mpu2 State.blank.hw s₁ s ∧ s.activeContainer = 1 ∧
      (s.hw.mpu 4).valid = true ∧ (∃ c, MayUse s c ∧ HoldsRegionOf .v1Mpu2 s c 4) ∧
      s.hw.mpu 0 = s₁.hw.mpu 0 := by
  have hreach : ∃ s₁ s, MpuReachable .v1Mpu2 State.blank.hw s₁ s ∧ s.activeContainer = 1 ∧
      (s.hw.mpu 4).valid = true :=
    ⟨_, _, ⟨State.blank.mem, State.blank.call, sampleTable, _, [.switch 1, .fault 0x8004], rfl, rfl,
      Runs.of_follow rfl⟩, rfl, by decide⟩
  obtain ⟨s₁, s, hs, hactive, hvalid⟩ := hreach
  obtain ⟨hslots, hreserved⟩ := mpu_isolation rfl (fun _ _ => rfl) hs
  exact ⟨s₁, s, hs, hactive, hvalid, hslots 4 (by decide) (by decide) hvalid,
    hreserved 0 (by decide)⟩

end

end Embarc
