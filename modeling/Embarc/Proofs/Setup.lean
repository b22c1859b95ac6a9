/-
What setting up the containers changes and what it leaves alone.

Set-up goes through the table of configurations once.  Every function on the way
either adds one entry to one of the shared tables, or writes contexts, stacks and
registers; none loads the MPU or enters a container.  The lemmas here say that once
for each function, and take the accepted calls apart for the proofs about the tables
and about what runs afterwards.
-/
import Embarc.Proofs.RegionTable
import Embarc.SecureShield.Vmpu

namespace Embarc

/-! ### Items of the access control list

An item counts once, by the first flag that matches.
-/

inductive AcKind
  | irq
  | interface
  | aux
  | memory
  deriving DecidableEq

def ContainerAcItem.kind (i : ContainerAcItem) : AcKind :=
  if hasFlag i.ac acIrq then .irq
  else if hasFlag i.ac acInterface then .interface
  else if hasFlag i.ac acAux then .aux
  else .memory

def ContainerConfig.acItems (cfg : ContainerConfig) : List ContainerAcItem := cfg.acTable.getD []

/-! ### What the set-up leaves alone

Set-up writes tables, contexts, stacks and interrupt registers.  It does not load the
MPU and does not enter a container.  Adding to a table does not touch the contexts
either.
-/

structure SetupFrame (s s' : State) : Prop where
  slots : s'.hw.mpu = s.hw.mpu
  cursor : s'.mpuSlot = s.mpuSlot
  active : s'.activeContainer = s.activeContainer
  ptr : s'.stackPtr = s.stackPtr
  currId : s'.stackCurrId = s.stackCurrId

theorem SetupFrame.refl (s : State) : SetupFrame s s := ⟨rfl, rfl, rfl, rfl, rfl⟩

theorem SetupFrame.trans {s s' s'' : State} (h : SetupFrame s s') (h' : SetupFrame s' s'') :
    SetupFrame s s'' :=
  ⟨h'.slots.trans h.slots, h'.cursor.trans h.cursor, h'.active.trans h.active, h'.ptr.trans h.ptr,
    h'.currId.trans h.currId⟩

/-- A step that adds to the tables. -/
structure KeepsContext (s s' : State) : Prop where
  context : s'.context = s.context
  count : s'.containerCount = s.containerCount
  frame : SetupFrame s s'

theorem KeepsContext.refl (s : State) : KeepsContext s s := ⟨rfl, rfl, SetupFrame.refl s⟩

theorem KeepsContext.trans {s s' s'' : State} (h : KeepsContext s s') (h' : KeepsContext s' s'') :
    KeepsContext s s'' :=
  ⟨h'.context.trans h.context, h'.count.trans h.count, h.frame.trans h'.frame⟩

/-- A step that only touches contexts, stacks and registers. -/
structure KeepsTables (s s' : State) : Prop where
  mpu : s'.mpu = s.mpu
  iface : s'.iface = s.iface
  aux : s'.aux = s.aux
  count : s'.containerCount = s.containerCount
  frame : SetupFrame s s'

theorem KeepsTables.trans {s s' s'' : State} (h : KeepsTables s s') (h' : KeepsTables s' s'') :
    KeepsTables s s'' :=
  ⟨h'.mpu.trans h.mpu, h'.iface.trans h.iface, h'.aux.trans h.aux, h'.count.trans h.count,
    h.frame.trans h'.frame⟩

theorem arcAuxWrite_mpu (hw : Hw) (reg val : Word) : (arcAuxWrite hw reg val).mpu = hw.mpu := by
  unfold arcAuxWrite
  split_ifs <;> rfl

variable {p : State → Prop} {item : ContainerAcItem}

theorem arcIntSecureSet_mpu (hw : Hw) (intno : Word) (secure : Bool) :
    (arcIntSecureSet hw intno secure).mpu = hw.mpu := by
  unfold arcIntSecureSet
  cases secure <;> simp [arcAuxWrite_mpu]

section
variable {b : Build} {s s' : State} {k : Nat}

theorem vmpuAcMem_keeps {addr size ac : Word} (h : vmpuAcMem b s k addr size ac = .ok s') :
    KeepsContext s s' := by
  obtain ⟨r, mask, -, -, rfl⟩ := vmpuAcMem_ok h
  exact ⟨rfl, rfl, ⟨rfl, rfl, rfl, rfl, rfl⟩⟩

theorem vmpuAcInterface_ok {func argsNum : Word} (h : vmpuAcInterface b s k func argsNum = .ok s') :
    k ≠ 0 ∧ s' = { s with iface := s.iface.add k ⟨func, argsNum⟩ } := by
  simp only [vmpuAcInterface, Except.bind_eq_ok_iff, haltIf_eq_ok] at h
  obtain ⟨_, hk, _, -, h⟩ := h
  exact ⟨hk, (Except.ok.inj h).symm⟩

theorem vmpuAcAux_keeps (b : Build) (s : State) (k : Nat) (start size : Word) :
    KeepsContext s (vmpuAcAux b s k start size).2 := by
  unfold vmpuAcAux
  split_ifs <;> exact ⟨rfl, rfl, ⟨rfl, rfl, rfl, rfl, rfl⟩⟩

theorem vmpuAcIrq_keeps (b : Build) (s : State) (c : Nat) (handler intno : Word) :
    KeepsContext s (vmpuAcIrq b s c handler intno).2 ∧
      KeepsTables s (vmpuAcIrq b s c handler intno).2 := by
  have hframe : SetupFrame s (vmpuAcIrq b s c handler intno).2 := by
    unfold vmpuAcIrq
    split_ifs
    · exact SetupFrame.refl s
    · exact SetupFrame.refl s
    · cases b.version
      · exact ⟨rfl, rfl, rfl, rfl, rfl⟩
      · exact ⟨arcIntSecureSet_mpu .., rfl, rfl, rfl, rfl⟩
  refine ⟨⟨?_, ?_, hframe⟩, ⟨?_, ?_, ?_, ?_, hframe⟩⟩ <;>
    (unfold vmpuAcIrq; split_ifs <;> cases b.version <;> rfl)

/-- What holds when memory is handed out holds when the sections of a container are. -/
theorem vmpuAcSections_induct
    (hmem : ∀ {s s' : State} {addr size ac : Word},
      vmpuAcMem b s k addr size ac = .ok s' → p s → p s') :
    ∀ (sections : List (Word × Word × Word)) {s : State},
      vmpuAcSections b k sections s = .ok s' → p s → p s' := by
  intro sections
  induction sections with
  | nil =>
    intro s h hp
    cases h
    exact hp
  | cons sec rest ih =>
    intro s h hp
    obtain ⟨s₁, h₁, hrest⟩ := Except.bind_eq_ok_iff.mp h
    unfold vmpuAcSection at h₁
    split_ifs at h₁ with hsize
    · exact ih hrest (hmem h₁ hp)
    · cases h₁
      exact ih hrest hp

theorem vmpuAcItems_induct
    (hitem : ∀ {s s' : State} {item : ContainerAcItem},
      vmpuAcItem b s k item = .ok s' → p s → p s') :
    ∀ (items : List ContainerAcItem) {s : State},
      vmpuAcItems b k items s = .ok s' → p s → p s' := by
  intro items
  induction items with
  | nil =>
    intro s h hp
    cases h
    exact hp
  | cons item rest ih =>
    intro s h hp
    obtain ⟨s₁, h₁, hrest⟩ := Except.bind_eq_ok_iff.mp h
    exact ih hrest (hitem h₁ hp)

theorem vmpuAcSections_keeps (sections : List (Word × Word × Word))
    (h : vmpuAcSections b k sections s = .ok s') : KeepsContext s s' := by
  apply vmpuAcSections_induct (p := KeepsContext s) _ sections h (KeepsContext.refl s)
  exact fun hmem hp => hp.trans (vmpuAcMem_keeps hmem)

theorem vmpuAcItem_eq (b : Build) (s : State) (k : Nat) (item : ContainerAcItem) :
    vmpuAcItem b s k item = match item.kind with
      | .irq => .ok (vmpuAcIrq b s k item.param1 item.param2).2
      | .interface => vmpuAcInterface b s k item.param1 item.param2
      | .aux => .ok (vmpuAcAux b s k item.param1 item.param2).2
      | .memory => vmpuAcMem b s k item.param1 item.param2 item.ac := by
  unfold vmpuAcItem ContainerAcItem.kind
  split_ifs <;> rfl

theorem vmpuAcItem_keeps (h : vmpuAcItem b s k item = .ok s') : KeepsContext s s' := by
  rw [vmpuAcItem_eq] at h
  cases hkind : item.kind <;> simp only [hkind] at h
  · cases h
    exact (vmpuAcIrq_keeps b s k item.param1 item.param2).1
  · obtain ⟨-, rfl⟩ := vmpuAcInterface_ok h
    exact ⟨rfl, rfl, ⟨rfl, rfl, rfl, rfl, rfl⟩⟩
  · cases h
    exact vmpuAcAux_keeps b s k item.param1 item.param2
  · exact vmpuAcMem_keeps h

theorem vmpuAcItems_keeps (items : List ContainerAcItem)
    (h : vmpuAcItems b k items s = .ok s') : KeepsContext s s' := by
  apply vmpuAcItems_induct (p := KeepsContext s) _ items h (KeepsContext.refl s)
  exact fun hitem hp => hp.trans (vmpuAcItem_keeps hitem)

end

/-! ### One container -/

section
variable {b : Build} {s s' : State} {k : Nat} {cfg : ContainerConfig}

section
variable (b : Build) (s : State) (c : Nat) (cfg : ContainerConfig)

theorem vmpuAcStack_keeps :
    KeepsTables s (vmpuAcStackV1 b s c cfg) ∧ KeepsTables s (vmpuAcStackV2 b s c cfg) := by
  unfold vmpuAcStackV1 vmpuAcStackV2
  constructor <;> split_ifs <;> refine ⟨rfl, rfl, rfl, rfl, ⟨?_, rfl, rfl, rfl, rfl⟩⟩ <;>
    simp [setContext, State.setCallee, arcAuxWrite_mpu]

theorem vmpuAcStatus_keeps : KeepsTables s (vmpuAcStatus b s c cfg) := by
  unfold vmpuAcStatus
  cases b.version <;> exact ⟨rfl, rfl, rfl, rfl, ⟨rfl, rfl, rfl, rfl, rfl⟩⟩

/-- The state a container's sections are added in. -/
def withConfig (b : Build) (s : State) (c : Nat) (cfg : ContainerConfig) : State :=
  setContext (vmpuAcStatus b s c cfg) c fun x => { x with cfg := some cfg }

theorem withConfig_keeps : KeepsTables s (withConfig b s c cfg) :=
  (vmpuAcStatus_keeps b s c cfg).trans ⟨rfl, rfl, rfl, rfl, ⟨rfl, rfl, rfl, rfl, rfl⟩⟩

theorem withConfig_cfg : ((withConfig b s c cfg).context c).cfg = some cfg := by
  simp [withConfig, setContext]

/-- The state the access control list is gone through in. -/
def withStack (b : Build) (s : State) (c : Nat) (cfg : ContainerConfig) : State :=
  match b.version with
  | .v1 => vmpuAcStackV1 b s c cfg
  | .v2 => vmpuAcStackV2 b s c cfg

theorem withStack_keeps : KeepsTables s (withStack b s c cfg) := by
  unfold withStack
  cases b.version
  · exact (vmpuAcStack_keeps b s c cfg).1
  · exact (vmpuAcStack_keeps b s c cfg).2

theorem withStack_kept (d : Nat) :
    ((withStack b s c cfg).context d).cfg = (s.context d).cfg ∧
      ((withStack b s c cfg).context d).cpuStatus = (s.context d).cpuStatus := by
  unfold withStack vmpuAcStackV1 vmpuAcStackV2
  cases b.version <;> simp only <;> split_ifs <;> simp only [setContext, State.setCallee] <;>
    by_cases hd : d = c <;> simp [hd]

end

/-- What an accepted `vmpuAcContainer` has done. -/
theorem vmpuAcContainer_ok (h : vmpuAcContainer b s k cfg = .ok s') :
    (cfg.type = secureshieldContainerSecure ∨ cfg.type = secureshieldContainerNormal) ∧
      ∃ s₁, vmpuAcSections b k (containerSections b cfg) (withConfig b s k cfg) = .ok s₁ ∧
        s' = withStack b s₁ k cfg := by
  simp only [vmpuAcContainer, Except.bind_eq_ok_iff, haltIf_eq_ok] at h
  obtain ⟨_, htype, s₁, hsec, h⟩ := h
  refine ⟨by tauto, s₁, hsec, ?_⟩
  unfold withStack
  cases hv : b.version <;> rw [hv] at h <;> exact (Except.ok.inj h).symm

theorem vmpuSetupContainer_ok (h : vmpuSetupContainer b s cfg = .ok s') :
    s.containerCount < secureshieldMaxContainers ∧
      ∃ s₁, vmpuAcContainer b { s with containerCount := s.containerCount + 1 } s.containerCount cfg
          = .ok s₁ ∧ vmpuAcItems b s.containerCount cfg.acItems s₁ = .ok s' := by
  simp only [vmpuSetupContainer, Except.bind_eq_ok_iff, haltIf_eq_ok] at h
  obtain ⟨_, -, _, -, _, hcount, s₁, h₁, h⟩ := h
  exact ⟨Nat.lt_of_not_le hcount, s₁, h₁, h⟩

/-- A round of the loop takes the next id and touches no other container's context. -/
theorem vmpuSetupContainer_frame (h : vmpuSetupContainer b s cfg = .ok s') :
    s'.containerCount = s.containerCount + 1 ∧ SetupFrame s s' := by
  obtain ⟨-, s₁, h₁, hitems⟩ := vmpuSetupContainer_ok h
  obtain ⟨-, s₂, hsec, rfl⟩ := vmpuAcContainer_ok h₁
  have hkeep := withConfig_keeps b { s with containerCount := s.containerCount + 1 }
    s.containerCount cfg
  have hkeep₂ := vmpuAcSections_keeps _ hsec
  have hstack := withStack_keeps b s₂ s.containerCount cfg
  have hkeep' := vmpuAcItems_keeps _ hitems
  have hframe : SetupFrame s { s with containerCount := s.containerCount + 1 } :=
    ⟨rfl, rfl, rfl, rfl, rfl⟩
  refine ⟨?_, ?_⟩
  · rw [hkeep'.count, hstack.count, hkeep₂.count, hkeep.count]
  · exact hframe.trans (hkeep.frame.trans (hkeep₂.frame.trans
      (hstack.frame.trans hkeep'.frame)))

theorem vmpuSetupLoop_frame : ∀ (cfgtbl : List ContainerConfig) {s : State},
    vmpuSetupLoop b cfgtbl s = .ok s' →
    s'.containerCount = s.containerCount + cfgtbl.length ∧
      (s.containerCount ≤ secureshieldMaxContainers →
        s'.containerCount ≤ secureshieldMaxContainers) ∧ SetupFrame s s' := by
  intro cfgtbl
  induction cfgtbl with
  | nil =>
    intro s h
    obtain rfl := Except.ok.inj h
    exact ⟨rfl, fun hle => hle, SetupFrame.refl s⟩
  | cons cfg rest ih =>
    intro s h
    obtain ⟨s₁, h₁, hrest⟩ := Except.bind_eq_ok_iff.mp h
    have hlt := (vmpuSetupContainer_ok h₁).1
    obtain ⟨hcount₁, hframe₁⟩ := vmpuSetupContainer_frame h₁
    obtain ⟨hcount', hmax', hframe'⟩ := ih hrest
    refine ⟨?_, fun _ => hmax' (by omega), hframe₁.trans hframe'⟩
    rw [hcount', hcount₁, List.length_cons]
    omega

end

/-! ### What goes into the region table

Set-up changes the region table only by recording regions it has made for a request, so a
property of the table that recording keeps holds of the table set-up leaves.
-/

/-- A region that some accepted request is stored as. -/
def Stored (b : Build) (r : MpuRegion) : Prop :=
  ∃ s c base size ac mask, vmpuAcUpdateContainerRegion b s c base size ac = .ok (r, mask)

section
variable {b : Build} {s s' : State} {k : Nat} {cfg : ContainerConfig} {P : Slab MpuRegion → Prop}

variable (hadd : ∀ t c r, Stored b r → P t → P (t.add c r))
include hadd

theorem vmpuAcMem_mpu {addr size ac : Word} (h : vmpuAcMem b s k addr size ac = .ok s')
    (hP : P s.mpu) : P s'.mpu := by
  obtain ⟨r, mask, -, hr, rfl⟩ := vmpuAcMem_ok h
  exact hadd _ _ _ ⟨_, _, _, _, _, _, hr⟩ hP

theorem vmpuAcItem_mpu (h : vmpuAcItem b s k item = .ok s') (hP : P s.mpu) : P s'.mpu := by
  rw [vmpuAcItem_eq] at h
  cases hkind : item.kind <;> simp only [hkind] at h
  · cases h
    rw [(vmpuAcIrq_keeps b s k item.param1 item.param2).2.mpu]
    exact hP
  · obtain ⟨-, rfl⟩ := vmpuAcInterface_ok h
    exact hP
  · cases h
    unfold vmpuAcAux
    split_ifs <;> exact hP
  · exact vmpuAcMem_mpu hadd h hP

theorem vmpuSetupLoop_mpu :
    ∀ (cfgtbl : List ContainerConfig) {s : State}, vmpuSetupLoop b cfgtbl s = .ok s' → P s.mpu →
      P s'.mpu := by
  intro cfgtbl
  induction cfgtbl with
  | nil =>
    intro s h hP
    cases h
    exact hP
  | cons cfg rest ih =>
    intro s h hP
    obtain ⟨s₃, h₃, hrest⟩ := Except.bind_eq_ok_iff.mp h
    obtain ⟨-, s₁, h₁, hitems⟩ := vmpuSetupContainer_ok h₃
    obtain ⟨-, s₂, hsec, rfl⟩ := vmpuAcContainer_ok h₁
    refine ih hrest (vmpuAcItems_induct (p := fun s => P s.mpu) (vmpuAcItem_mpu hadd) _ hitems ?_)
    rw [(withStack_keeps b s₂ s.containerCount cfg).mpu]
    refine vmpuAcSections_induct (p := fun s => P s.mpu) (vmpuAcMem_mpu hadd) _ hsec ?_
    rw [(withConfig_keeps b _ s.containerCount cfg).mpu]
    exact hP

end

/-- A background container with code, and a normal container with an access table. -/
def sampleHost : ContainerConfig where
  addr := 0x30000
  type := secureshieldContainerNormal
  stackSecure := 0x1000
  stackArea := 0
  textStart := 0x4000
  rodataEnd := 0x5000
  acTable := none

def sampleGuest (acTable : List ContainerAcItem) : ContainerConfig where
  addr := 0x30100
  type := secureshieldContainerNormal
  stackSecure := 0x2000
  stackArea := 0x3000
  acTable := some acTable

/-- A background container with an aux range, and a container with a section, a memory
range, an interface and no aux range of its own. -/
def sampleTable : List ContainerConfig :=
  [{ addr := 0x30000, type := secureshieldContainerNormal, stackSecure := 0x1000, stackArea := 0,
     acTable := some [⟨0x200, 0x10, acAux⟩] },
   { addr := 0x30100, type := secureshieldContainerNormal, stackSecure := 0x2000,
     stackArea := 0x3000, textStart := 0x4000, rodataEnd := 0x5000,
     acTable := some [⟨0x8000, 0x800, acdefUram⟩, ⟨0x4010, 2, acInterface⟩] }]

end Embarc
