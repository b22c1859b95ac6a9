/-
The machine as start-up leaves it.

Set-up gives every container its context: the configuration, a place to rest one frame below
the top of its stack, and in version 1 a status for its type.  So the ledger of activations
begins in order, with the background container running at the top of its secure stack.
-/
import Embarc.Proofs.Entry
import Embarc.Proofs.MpuLoad

namespace Embarc

/-! ### Interrupts during set-up -/

/-- Adding to the tables for container `k` hands interrupts out to `k` only, and does not touch
the status the processor will return with. -/
structure IrqSetup (k : Nat) (s s' : State) : Prop where
  erstatus : s'.hw.aux auxErstatus = s.hw.aux auxErstatus
  owners : ∀ i, (s'.intHandler i).id = (s.intHandler i).id ∨ (s'.intHandler i).id = k

section
variable {b : Build} {s s' s'' : State} {k : Nat}

theorem IrqSetup.of_eq (hhw : s'.hw = s.hw) (htable : s'.intHandler = s.intHandler) :
    IrqSetup k s s' :=
  ⟨by rw [hhw], fun i => Or.inl (by rw [htable])⟩

theorem IrqSetup.trans (h : IrqSetup k s s') (h' : IrqSetup k s' s'') : IrqSetup k s s'' := by
  refine ⟨h'.erstatus.trans h.erstatus, ?_⟩
  intro i
  rcases h'.owners i with hi | hi
  · rw [hi]
    exact h.owners i
  · exact Or.inr hi

theorem vmpuAcMem_irqSetup {addr size ac : Word} (h : vmpuAcMem b s k addr size ac = .ok s') :
    IrqSetup k s s' := by
  obtain ⟨r, mask, -, -, rfl⟩ := vmpuAcMem_ok h
  exact .of_eq rfl rfl

theorem arcIntSecureSet_erstatus (hw : Hw) (intno : Word) (secure : Bool) :
    (arcIntSecureSet hw intno secure).aux auxErstatus = hw.aux auxErstatus := by
  have hne : auxErstatus ≠ auxIrqSelect := by decide
  cases secure <;> exact Function.update_of_ne hne intno hw.aux

/-- An interrupt is handed out to the container, or refused. -/
theorem vmpuAcIrq_irqSetup (b : Build) (s : State) (k : Nat) (handler intno : Word) :
    IrqSetup k s (vmpuAcIrq b s k handler intno).2 := by
  have howners : ∀ i, ((s.setIrq b intno ⟨handler, k, false⟩).intHandler i).id =
      (s.intHandler i).id ∨ ((s.setIrq b intno ⟨handler, k, false⟩).intHandler i).id = k := by
    intro i
    unfold State.setIrq
    simp only [Function.update_apply]
    split_ifs
    · exact Or.inr rfl
    · exact Or.inl rfl
  unfold vmpuAcIrq
  split_ifs
  · exact .of_eq rfl rfl
  · exact .of_eq rfl rfl
  · cases b.version
    · exact ⟨rfl, howners⟩
    · exact ⟨arcIntSecureSet_erstatus .., howners⟩

theorem vmpuAcSections_irqSetup (sections : List (Word × Word × Word))
    (h : vmpuAcSections b k sections s = .ok s') : IrqSetup k s s' := by
  apply vmpuAcSections_induct (p := IrqSetup k s) _ sections h (.of_eq rfl rfl)
  exact fun hmem hp => hp.trans (vmpuAcMem_irqSetup hmem)

/-- Of the items of an access table only interrupts change the table. -/
theorem vmpuAcItem_irqSetup {item : ContainerAcItem} (h : vmpuAcItem b s k item = .ok s') :
    IrqSetup k s s' := by
  rw [vmpuAcItem_eq] at h
  cases hkind : item.kind <;> simp only [hkind] at h
  · cases h
    exact vmpuAcIrq_irqSetup ..
  · obtain ⟨-, rfl⟩ := vmpuAcInterface_ok h
    exact .of_eq rfl rfl
  · cases h
    unfold vmpuAcAux
    split_ifs <;> exact .of_eq rfl rfl
  · exact vmpuAcMem_irqSetup h

theorem vmpuAcItems_irqSetup (items : List ContainerAcItem)
    (h : vmpuAcItems b k items s = .ok s') : IrqSetup k s s' := by
  apply vmpuAcItems_induct (p := IrqSetup k s) _ items h (.of_eq rfl rfl)
  exact fun hitem hp => hp.trans (vmpuAcItem_irqSetup hitem)

end

/-! ### The context of a container -/

/-- Where the stack begins that the runtime sets up. -/
def ContainerConfig.stackTop (cfg : ContainerConfig) : Addr :=
  if cfg.type = secureshieldContainerSecure then cfg.stackArea else cfg.stackSecure

def ContainerConfig.defaultStatus (b : Build) (cfg : ContainerConfig) : Word :=
  if cfg.type = secureshieldContainerSecure then secureContainerDefaultStatus b
  else normalContainerDefaultStatus b

variable {d c : Nat}

/-- The context of container `d` is as its configuration says. -/
structure ContextReady (b : Build) (s : State) (d : Nat) (cfg : ContainerConfig) : Prop where
  type : cfg.type = secureshieldContainerSecure ∨ cfg.type = secureshieldContainerNormal
  config : (s.context d).cfg = some cfg
  curSp : d ≠ 0 → (s.context d).curSp = cfg.stackTop - arcProcessorFrameSize b
  cpuStatus : b.version = .v1 → (s.context d).cpuStatus = cfg.defaultStatus b
  erstatus : d = 0 → b.version = .v1 → s.hw.aux auxErstatus = (s.context 0).cpuStatus

section
variable {b : Build} {s s' : State} {cfg : ContainerConfig}

theorem withStack_context (hd : d ≠ c) : (withStack b s c cfg).context d = s.context d := by
  unfold withStack vmpuAcStackV1 vmpuAcStackV2
  cases b.version <;> simp only <;> split_ifs <;> simp [setContext, State.setCallee, hd]

theorem withStack_curSp (hc : c ≠ 0) :
    ((withStack b s c cfg).context c).curSp = cfg.stackTop - arcProcessorFrameSize b := by
  unfold withStack vmpuAcStackV1 vmpuAcStackV2 ContainerConfig.stackTop
  cases b.version <;> simp only [hc, if_false] <;> split_ifs <;> simp [setContext, State.setCallee]

theorem withStack_intHandler : (withStack b s c cfg).intHandler = s.intHandler := by
  unfold withStack vmpuAcStackV1 vmpuAcStackV2
  cases b.version <;> simp only <;> split_ifs <;> rfl

theorem withStack_hw (hc : c ≠ 0) : (withStack b s c cfg).hw = s.hw := by
  unfold withStack vmpuAcStackV1 vmpuAcStackV2
  cases b.version <;> simp only [hc, if_false] <;> split_ifs <;> rfl

theorem withStack_erstatus (hv : b.version = .v1) :
    (withStack b s 0 cfg).hw.aux auxErstatus = ((withStack b s 0 cfg).context 0).cpuStatus := by
  have hreg : Unbanked auxErstatus := by decide
  rw [(withStack_kept ..).2]
  unfold withStack
  simp only [hv, vmpuAcStackV1, if_true]
  exact arcAuxRead_write_self _ _ hreg

theorem withConfig_context (hd : d ≠ c) : (withConfig b s c cfg).context d = s.context d := by
  unfold withConfig vmpuAcStatus
  cases b.version <;> simp [setContext, hd]

theorem withConfig_cpuStatus (hv : b.version = .v1) :
    ((withConfig b s c cfg).context c).cpuStatus = cfg.defaultStatus b := by
  unfold withConfig vmpuAcStatus
  simp [hv, setContext, ContainerConfig.defaultStatus]

/-- Setting a container up touches no other context. -/
theorem vmpuSetupContainer_context (h : vmpuSetupContainer b s cfg = .ok s') :
    (∀ d ≠ s.containerCount, s'.context d = s.context d) ∧
    (s.containerCount ≠ 0 → s'.hw.aux auxErstatus = s.hw.aux auxErstatus) ∧
    (∀ i, (s'.intHandler i).id = (s.intHandler i).id ∨ (s'.intHandler i).id = s.containerCount) ∧
    ContextReady b s' s.containerCount cfg := by
  obtain ⟨-, s₁, h₁, hitems⟩ := vmpuSetupContainer_ok h
  obtain ⟨htype, s₂, hsec, rfl⟩ := vmpuAcContainer_ok h₁
  have hcontext₂ := (vmpuAcSections_keeps _ hsec).context
  have hcontext := (vmpuAcItems_keeps _ hitems).context
  have hirq₂ := vmpuAcSections_irqSetup _ hsec
  have hirq := vmpuAcItems_irqSetup _ hitems
  have hhw : (withConfig b { s with containerCount := s.containerCount + 1 } s.containerCount
      cfg).hw = s.hw := by
    unfold withConfig vmpuAcStatus
    cases b.version <;> rfl
  have htable : (withConfig b { s with containerCount := s.containerCount + 1 } s.containerCount
      cfg).intHandler = s.intHandler := by
    unfold withConfig vmpuAcStatus
    cases b.version <;> rfl
  refine ⟨?_, ?_, ?_, htype, ?_, ?_, ?_, ?_⟩
  · intro d hd
    rw [hcontext, withStack_context hd, hcontext₂, withConfig_context hd]
  · intro hc
    rw [hirq.erstatus, withStack_hw hc, hirq₂.erstatus, hhw]
  · intro i
    rcases hirq.owners i with hi | hi
    · rw [hi, withStack_intHandler]
      have := hirq₂.owners i
      rwa [htable] at this
    · exact Or.inr hi
  · rw [hcontext, (withStack_kept ..).1, hcontext₂]
    exact withConfig_cfg ..
  · intro hc
    rw [hcontext, withStack_curSp hc]
  · intro hv
    rw [hcontext, (withStack_kept ..).2, hcontext₂, withConfig_cpuStatus hv]
  · intro hc hv
    rw [hirq.erstatus, hcontext, hc]
    exact withStack_erstatus hv

/-- So at the end every container of the table is ready. -/
theorem vmpuSetupLoop_context : ∀ (cfgtbl : List ContainerConfig) {s : State},
    vmpuSetupLoop b cfgtbl s = .ok s' →
    (∀ d < s.containerCount, s'.context d = s.context d) ∧
    (s.containerCount ≠ 0 → s'.hw.aux auxErstatus = s.hw.aux auxErstatus) ∧
    (∀ i, (s'.intHandler i).id = (s.intHandler i).id ∨ (s'.intHandler i).id < s'.containerCount) ∧
    ∀ i cfg, cfgtbl[i]? = some cfg → ContextReady b s' (s.containerCount + i) cfg := by
  intro cfgtbl
  induction cfgtbl with
  | nil =>
    intro s h
    cases h
    refine ⟨fun _ _ => rfl, fun _ => rfl, fun _ => Or.inl rfl, ?_⟩
    intro i cfg hi
    simp at hi
  | cons cfg rest ih =>
    intro s h
    obtain ⟨s₁, h₁, hrest⟩ := Except.bind_eq_ok_iff.mp h
    have hcount₁ := (vmpuSetupContainer_frame h₁).1
    have hcount := (vmpuSetupLoop_frame rest hrest).1
    obtain ⟨hcontext₁, hstatus₁, howners₁, hready₁⟩ := vmpuSetupContainer_context h₁
    obtain ⟨hcontext, hstatus, howners, hready⟩ := ih hrest
    refine ⟨?_, ?_, ?_, ?_⟩
    · intro d hd
      rw [hcontext d (by omega), hcontext₁ d (by omega)]
    · intro hc
      rw [hstatus (by omega), hstatus₁ hc]
    · intro i
      rcases howners i with hi | hi
      · rw [hi]
        rcases howners₁ i with hi' | hi'
        · exact Or.inl hi'
        · exact Or.inr (by rw [hi']; omega)
      · exact Or.inr hi
    · intro i cfg' hi
      cases i with
      | zero =>
        obtain rfl : cfg = cfg' := by simpa using hi
        have hsame := hcontext s.containerCount (by omega)
        refine ⟨hready₁.type, ?_, ?_, ?_, ?_⟩
        · rw [Nat.add_zero, hsame]
          exact hready₁.config
        · rw [Nat.add_zero, hsame]
          exact hready₁.curSp
        · rw [Nat.add_zero, hsame]
          exact hready₁.cpuStatus
        · intro h0 hv
          rw [hstatus (by omega), hready₁.erstatus h0 hv, ← hcontext 0 (by omega)]
      | succ i =>
        have hi' : rest[i]? = some cfg' := by simpa using hi
        have := hready i cfg' hi'
        rwa [hcount₁, Nat.add_assoc, Nat.add_comm 1 i] at this

end

/-! ### Stack areas

Where a stack ends is not known to the runtime; the linker reserves it.  A layout says so:
each configured container has an area that ends at the top of its stack, there is room for a
frame in it, and no two areas meet.
-/

/-- The top of the stack of a container; the background container starts on its secure one. -/
def stackTop (cfgtbl : List ContainerConfig) (d : Nat) : Addr :=
  match cfgtbl[d]? with
  | some cfg => if d = 0 then cfg.stackSecure else cfg.stackTop
  | none => 0

structure StackLayout (b : Build) (cfgtbl : List ContainerConfig) where
  lo : Nat → Addr
  background : 0 < cfgtbl.length
  pos : ∀ c, c < cfgtbl.length → 0 < lo c
  room : ∀ c, c < cfgtbl.length → lo c + arcProcessorFrameSize b ≤ stackTop cfgtbl c
  disjoint : ∀ c d, c < cfgtbl.length → d < cfgtbl.length → c ≠ d →
    stackTop cfgtbl c ≤ lo d ∨ stackTop cfgtbl d ≤ lo c

def StackLayout.layout {b : Build} {cfgtbl : List ContainerConfig} (L : StackLayout b cfgtbl) :
    Nest.Layout Nat where
  size := arcProcessorFrameSize b
  lo := L.lo
  hi := stackTop cfgtbl
  known := (· < cfgtbl.length)
  pos := L.pos
  disjoint := L.disjoint

/-! ### The first state -/

/-- Nothing is on the container stack, and the background container runs. -/
structure Started (b : Build) (cfgtbl : List ContainerConfig) (m : Machine) : Prop where
  ptr : m.st.stackPtr = 0
  curr : m.st.stackCurrId = 0
  active : m.st.activeContainer = 0
  count : m.st.containerCount = cfgtbl.length
  ready : ∀ d cfg, cfgtbl[d]? = some cfg → ContextReady b m.st d cfg
  owners : ∀ i, (m.st.intHandler i).id = 0 ∨ (m.st.intHandler i).id < cfgtbl.length
  sp : ∀ cfg, cfgtbl[0]? = some cfg → m.cpu.sp = cfg.stackSecure
  act : m.act = ⟨.call, m.cpu.sp⟩
  status : m.cpu.exc .status32 = m.st.hw.aux auxErstatus

section
variable {b : Build} {hw : Hw} {mem : Addr → Word} {call : Word → ContainerCall}
  {cfgtbl : List ContainerConfig} {cpu : Cpu} {m : Machine}

theorem startup_started (h : startup b hw mem call cfgtbl cpu = .ok m) : Started b cfgtbl m := by
  obtain ⟨s, hinit, h⟩ := Except.bind_eq_ok_iff.mp h
  simp only [vmpuInitPost, vmpuLoadContainer, Except.bind_eq_ok_iff] at hinit
  obtain ⟨s₁, harch, s₂, hsetup, _, -, hswitch⟩ := hinit
  obtain ⟨mpu, mask, rfl, -⟩ := vmpuArchInit_ok harch
  obtain ⟨hcount, -, hframe⟩ := vmpuSetupLoop_frame cfgtbl hsetup
  obtain ⟨-, -, howners, hready⟩ := vmpuSetupLoop_context cfgtbl hsetup
  obtain ⟨hactive, hsame, -, haux⟩ := vmpuSwitch_same hswitch
  have hcount : s₂.containerCount = cfgtbl.length := hcount.trans (Nat.zero_add _)
  have hready : ∀ d cfg, cfgtbl[d]? = some cfg → ContextReady b s d cfg := by
    intro d cfg hd
    have hd := hready d cfg hd
    have h0 : (0 : Nat) + d = d := Nat.zero_add d
    refine ⟨hd.type, ?_, ?_, ?_, ?_⟩
    · rw [hsame.cfg, ← h0]
      exact hd.config
    · rw [hsame.curSp]
      exact fun hne => h0 ▸ hd.curSp (h0.symm ▸ hne)
    · rw [hsame.cpuStatus, ← h0]
      exact hd.cpuStatus
    · rw [haux, hsame.cpuStatus]
      exact fun h => hd.erstatus (h0.trans h)
  cases h
  refine ⟨?_, ?_, hactive, ?_, hready, ?_, ?_, rfl, ?_⟩
  · exact hsame.ptr.trans hframe.ptr
  · exact hsame.curr.trans hframe.currId
  · exact hsame.count.trans hcount
  · intro i
    rw [hsame.intHandler, ← hcount]
    exact howners i
  · intro cfg hcfg
    have hconfig := (hready 0 cfg hcfg).config
    simp only [hconfig]
  · simp only [Function.update_self]
    rfl

theorem stackTop_of_ne {cfg : ContainerConfig} (hd : cfgtbl[d]? = some cfg) (hne : d ≠ 0) :
    stackTop cfgtbl d = cfg.stackTop := by
  simp [stackTop, hd, hne]

/-- The background container runs at the top of its stack, and the others rest one frame below
theirs. -/
theorem Started.sp_top (h : Started b cfgtbl m) (L : StackLayout b cfgtbl) :
    m.cpu.sp = stackTop cfgtbl 0 := by
  have hcfg := List.getElem?_eq_getElem L.background
  rw [h.sp _ hcfg]
  simp [stackTop, hcfg]

theorem Started.rest_top (h : Started b cfgtbl m) (hd : d < cfgtbl.length) (hne : d ≠ 0) :
    (m.st.context d).curSp = stackTop cfgtbl d - arcProcessorFrameSize b := by
  have hcfg := List.getElem?_eq_getElem hd
  rw [stackTop_of_ne hcfg hne]
  exact (h.ready d _ hcfg).curSp hne

/-- **The ledger begins in order.** -/
theorem Started.ledger_ok (h : Started b cfgtbl m) (L : StackLayout b cfgtbl)
    (strict : Nat → Prop) : m.ledger.OK L.layout strict := by
  have hdepth : ∀ q, ¬ q < m.ledger.depth := by
    intro q hq
    have : q < m.st.stackPtr := hq
    rw [h.ptr] at this
    omega
  have hcur : m.ledger.cur = 0 := h.curr
  have hact : m.ledger.act = ⟨.call, m.cpu.sp⟩ := h.act
  have hrest : ∀ d, d < cfgtbl.length → d ≠ m.ledger.cur →
      L.lo d + arcProcessorFrameSize b ≤ stackTop cfgtbl d ∧
        m.ledger.rest d = stackTop cfgtbl d - arcProcessorFrameSize b := by
    intro d hd hne
    rw [hcur] at hne
    exact ⟨L.room d hd, h.rest_top hd hne⟩
  refine ⟨?_, ?_, ?_, ?_, ?_, ?_, ?_, ?_, ?_, ?_, ?_, ?_⟩
  · rw [hcur]
    exact L.background
  · exact fun q hq => absurd hq (hdepth q)
  · rw [hact]
    exact Nat.le_refl _
  · rw [hact, hcur]
    exact Nat.le_of_eq (h.sp_top L)
  · exact fun q hq => absurd hq (hdepth q)
  · exact fun q hq => absurd hq (hdepth q)
  · exact fun q hq => absurd hq (hdepth q)
  · intro d hd hne
    obtain ⟨hroom, hrest⟩ := hrest d hd hne
    rw [hrest]
    exact Nat.le_sub_of_add_le hroom
  · intro d hd hne
    obtain ⟨hroom, hrest⟩ := hrest d hd hne
    rw [hrest]
    exact Nat.le_of_eq (Nat.sub_add_cancel (Nat.le_trans (Nat.le_add_left _ _) hroom))
  · exact fun q r _ hr => absurd hr (hdepth r)
  · exact fun q hq => absurd hq (hdepth q)
  · exact fun q hq => absurd hq (hdepth q)

end

end Embarc
