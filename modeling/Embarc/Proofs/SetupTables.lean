/-
Setting up the containers fills three shared tables.

Regions, interfaces and aux ranges of all containers go into one table each, and a
container gets a slice of it.  Containers are set up one after the other and no
container comes back for more, so the slices are handed out in order; `Tables` says
how far set-up has come.
-/
import Embarc.Proofs.Setup

namespace Embarc

/-! ### What a configuration lists -/

def interfacesOf (items : List ContainerAcItem) : List ContainerInterface :=
  (items.filter fun i => i.kind = .interface).map fun i => ⟨i.param1, i.param2⟩

def auxOf (items : List ContainerAcItem) : List ContainerAux :=
  (items.filter fun i => i.kind = .aux).map fun i => ⟨i.param1, i.param1 + i.param2⟩

def memoryOf (c : Nat) (items : List ContainerAcItem) : List MemRequest :=
  (items.filter fun i => i.kind = .memory).map fun i => ⟨c, i.param1, i.param2, i.ac⟩

def sectionsOf (c : Nat) (sections : List (Word × Word × Word)) : List MemRequest :=
  (sections.filter fun x => vmpuRegionSize x.1 x.2.1 != 0).map fun x =>
    ⟨c, x.1, vmpuRegionSize x.1 x.2.1, x.2.2⟩

/-- The regions container `c` is to get: its sections, then what its list asks for. -/
def requestsOf (b : Build) (c : Nat) (cfg : ContainerConfig) : List MemRequest :=
  sectionsOf c (containerSections b cfg) ++ memoryOf c cfg.acItems

/-- The region a request of a container with a configuration is stored as. -/
def storedRegion (b : Build) (cfg : ContainerConfig) (q : MemRequest) : Except Halt MpuRegion :=
  (vmpuAcUpdateContainerRegion b (setContext State.blank q.containerId fun x =>
    { x with cfg := some cfg }) q.containerId q.addr q.size q.ac).map Prod.fst

/-- What the three tables hold for one container. -/
structure Entries where
  mem : List (Except Halt MpuRegion)
  iface : List ContainerInterface
  aux : List ContainerAux

def Entries.nil : Entries := ⟨[], [], []⟩

def entriesOf (s : State) (c : Nat) : Entries :=
  ⟨(s.mpu.slice c).map .ok, s.iface.slice c, s.aux.slice c⟩

/-- What the tables are to hold for a container once it is set up. -/
def cfgEntries (b : Build) (c : Nat) (cfg : ContainerConfig) : Entries :=
  ⟨(requestsOf b c cfg).map (storedRegion b cfg), interfacesOf cfg.acItems, auxOf cfg.acItems⟩

/-! ### How far the set-up has come -/

variable {r : MpuRegion} {b : Build} {s : State} {c : Nat} {ac : Word} {cfg : ContainerConfig}

/-- The containers before `k` have their entries, `k` has those of `x`, the others none. -/
structure Tables (s : State) (k : Nat) (e : Nat → Entries) (x : Entries) : Prop where
  mpu : s.mpu.Ordered k
  iface : s.iface.Ordered k
  aux : s.aux.Ordered k
  before : ∀ c, c < k → entriesOf s c = e c
  own : entriesOf s k = x
  after : ∀ c, k < c → entriesOf s c = Entries.nil

section
variable {b : Build} {s s' : State} {k : Nat} {e : Nat → Entries} {x : Entries}

variable (h : Tables s k e x)
include h

theorem Tables.congr (hm : s'.mpu = s.mpu) (hi : s'.iface = s.iface) (ha : s'.aux = s.aux) :
    Tables s' k e x := by
  have hE : ∀ c, entriesOf s' c = entriesOf s c := by
    intro c
    simp only [entriesOf, hm, hi, ha]
  exact ⟨hm ▸ h.mpu, hi ▸ h.iface, ha ▸ h.aux, fun c hc => (hE c).trans (h.before c hc),
    (hE k).trans h.own, fun c hc => (hE c).trans (h.after c hc)⟩

theorem Tables.next (hx : e k = x) : Tables s (k + 1) e Entries.nil where
  mpu := h.mpu.later (Nat.le_succ k)
  iface := h.iface.later (Nat.le_succ k)
  aux := h.aux.later (Nat.le_succ k)
  before := by
    intro c hc
    rcases Nat.lt_succ_iff_lt_or_eq.mp hc with hlt | rfl
    · exact h.before c hlt
    · exact h.own.trans hx.symm
  own := h.after (k + 1) (Nat.lt_succ_self k)
  after := fun c hc => h.after c (Nat.lt_of_succ_lt hc)

theorem Tables.step {x' : Entries} (hm : s'.mpu.Ordered k) (hi : s'.iface.Ordered k)
    (ha : s'.aux.Ordered k) (hE : ∀ c, c ≠ k → entriesOf s' c = entriesOf s c)
    (hx : entriesOf s' k = x') : Tables s' k e x' :=
  ⟨hm, hi, ha, fun c hc => (hE c (Nat.ne_of_lt hc)).trans (h.before c hc), hx,
    fun c hc => (hE c (Nat.ne_of_gt hc)).trans (h.after c hc)⟩

theorem Tables.addMem (hm : s'.mpu = s.mpu.add k r) (hi : s'.iface = s.iface)
    (ha : s'.aux = s.aux) : Tables s' k e { x with mem := x.mem ++ [.ok r] } := by
  obtain rfl := h.own
  refine h.step (hm ▸ h.mpu.add r) (hi ▸ h.iface) (ha ▸ h.aux) ?_ ?_
  · intro c hc
    simp only [entriesOf, hm, hi, ha, h.mpu.slice_add_ne r hc]
  · simp [entriesOf, hm, hi, ha, h.mpu.slice_add_self]

theorem Tables.addIface {f : ContainerInterface} (hm : s'.mpu = s.mpu)
    (hi : s'.iface = s.iface.add k f) (ha : s'.aux = s.aux) :
    Tables s' k e { x with iface := x.iface ++ [f] } := by
  obtain rfl := h.own
  refine h.step (hm ▸ h.mpu) (hi ▸ h.iface.add f) (ha ▸ h.aux) ?_ ?_
  · intro c hc
    simp only [entriesOf, hm, hi, ha, h.iface.slice_add_ne f hc]
  · simp [entriesOf, hm, hi, ha, h.iface.slice_add_self]

theorem Tables.addAux {a : ContainerAux} (hm : s'.mpu = s.mpu) (hi : s'.iface = s.iface)
    (ha : s'.aux = s.aux.add k a) : Tables s' k e { x with aux := x.aux ++ [a] } := by
  obtain rfl := h.own
  refine h.step (hm ▸ h.mpu) (hi ▸ h.iface) (ha ▸ h.aux.add a) ?_ ?_
  · intro c hc
    simp only [entriesOf, hm, hi, ha, h.aux.slice_add_ne a hc]
  · simp [entriesOf, hm, hi, ha, h.aux.slice_add_self]

end

/-! ### One region -/

theorem regionSid_map_fst {s' : State} (htype : containerIsSecure s c = containerIsSecure s' c) :
    (regionSid b s c ac).map Prod.fst = (regionSid b s' c ac).map Prod.fst := by
  unfold regionSid
  by_cases hsid : b.sid = true
  · simp only [hsid, if_true]
    by_cases hc : mpuSidBits - 2 < c
    · simp [haltIf, hc, bind, Except.bind]
    · by_cases h0 : c = 0
      · simp only [haltIf, h0, if_true, bind, Except.bind, pure, Except.pure]
        split_ifs <;> rfl
      · simp only [haltIf, hc, h0, if_false, bind, Except.bind, pure, Except.pure, htype]
        rfl
  · simp only [hsid]
    rfl

/-- The region of a request depends on the state through the container's type alone. -/
theorem vmpuAcUpdateContainerRegion_map_fst {s' : State} {base size : Word}
    (htype : containerIsSecure s c = containerIsSecure s' c) :
    (vmpuAcUpdateContainerRegion b s c base size ac).map Prod.fst =
      (vmpuAcUpdateContainerRegion b s' c base size ac).map Prod.fst := by
  have hsid : (regionSid b s c ac).map Prod.fst = (regionSid b s' c ac).map Prod.fst :=
    regionSid_map_fst htype
  unfold vmpuAcUpdateContainerRegion
  cases hv : b.version with
  | v1 =>
    cases sizeRounded b size ac with
    | error h => rfl
    | ok rounded =>
      simp only [bind, Except.bind]
      cases haltIf (base &&& (rounded - 1) ≠ 0) (.baseSizeInconsistent base size) <;>
        cases vmpuMapAc b ac <;> rfl
  | v2 =>
    simp only [bind, Except.bind]
    cases haltIf (base &&& arcFeatureMpuAlignmentMask b.mpuVersion ≠ 0) (.startNotAligned base) <;>
    cases haltIf (size &&& arcFeatureMpuAlignmentMask b.mpuVersion ≠ 0) (.sizeNotAligned size) <;>
    cases vmpuMapAc b ac <;> try rfl
    cases h1 : regionSid b s c ac <;> cases h2 : regionSid b s' c ac <;>
      simp_all [Except.map, pure, Except.pure]

theorem containerIsSecure_of_cfg (h : (s.context c).cfg = some cfg) :
    containerIsSecure s c = (cfg.type != 0) := by
  simp [containerIsSecure, containerType, h]

/-- What is recorded for a configured container is the stored region of the request. -/
theorem storedRegion_eq {q : MemRequest} {mask : Word}
    (hcfg : (s.context q.containerId).cfg = some cfg)
    (h : vmpuAcUpdateContainerRegion b s q.containerId q.addr q.size q.ac = .ok (r, mask)) :
    storedRegion b cfg q = .ok r := by
  have hblank : ((setContext State.blank q.containerId fun x =>
      { x with cfg := some cfg }).context q.containerId).cfg = some cfg := by
    simp [setContext]
  unfold storedRegion
  rw [← vmpuAcUpdateContainerRegion_map_fst (s := s), h]
  · rfl
  · rw [containerIsSecure_of_cfg hcfg, containerIsSecure_of_cfg hblank]

theorem Tables.keeps {s' : State} {k : Nat} {e : Nat → Entries} {x : Entries} (hT : Tables s k e x)
    (h : KeepsTables s s') : Tables s' k e x :=
  hT.congr h.mpu h.iface h.aux

/-! ### One item -/

section
variable {b : Build} {s s' : State} {k : Nat} {e : Nat → Entries} {x : Entries}
  {cfg : ContainerConfig}

theorem vmpuAcMem_tables {addr size : Word} (hT : Tables s k e x)
    (hcfg : (s.context k).cfg = some cfg) (h : vmpuAcMem b s k addr size ac = .ok s') :
    Tables s' k e { x with mem := x.mem ++ [storedRegion b cfg ⟨k, addr, size, ac⟩] } ∧
      s'.aux = s.aux := by
  obtain ⟨r, mask, -, hr, rfl⟩ := vmpuAcMem_ok h
  refine ⟨?_, rfl⟩
  rw [storedRegion_eq (q := ⟨k, addr, size, ac⟩) hcfg hr]
  exact hT.addMem rfl rfl rfl

theorem vmpuAcAux_tables (start size : Word) (hT : Tables s k e x)
    (hk : k < secureshieldMaxContainers) (hroom : s.aux.used < b.containerAuxCount) :
    let s' := (vmpuAcAux b s k start size).2
    Tables s' k e { x with aux := x.aux ++ [⟨start, start + size⟩] } ∧
      s'.aux.used = s.aux.used + 1 := by
  unfold vmpuAcAux
  rw [if_neg (Nat.not_le.mpr hroom), if_neg (Nat.not_le.mpr hk)]
  exact ⟨hT.addAux rfl rfl rfl, Slab.add_used ..⟩

theorem vmpuAcSections_tables :
    ∀ (sections : List (Word × Word × Word)) {s : State} {x : Entries}, Tables s k e x →
      (s.context k).cfg = some cfg → vmpuAcSections b k sections s = .ok s' →
      Tables s' k e { x with mem := x.mem ++ (sectionsOf k sections).map (storedRegion b cfg) } ∧
        s'.aux = s.aux := by
  intro sections
  induction sections with
  | nil =>
    intro s x hT _ h
    cases h
    simpa [sectionsOf] using hT
  | cons sec rest ih =>
    obtain ⟨start, stop, ac⟩ := sec
    intro s x hT hcfg h
    obtain ⟨s₁, h₁, hrest⟩ := Except.bind_eq_ok_iff.mp h
    unfold vmpuAcSection at h₁
    split_ifs at h₁ with hsize
    · obtain ⟨hT₁, haux₁⟩ := vmpuAcMem_tables hT hcfg h₁
      obtain ⟨hT', haux'⟩ := ih hT₁ ((vmpuAcMem_keeps h₁).context ▸ hcfg) hrest
      refine ⟨?_, haux'.trans haux₁⟩
      have hsize' : vmpuRegionSize start stop ≠ 0#32 := hsize
      have htake : sectionsOf k ((start, stop, ac) :: rest) =
          ⟨k, start, vmpuRegionSize start stop, ac⟩ :: sectionsOf k rest := by
        simp [sectionsOf, hsize']
      simpa [htake] using hT'
    · cases h₁
      have hdrop : sectionsOf k ((start, stop, ac) :: rest) = sectionsOf k rest := by
        simp only [ne_eq, not_not] at hsize
        simp [sectionsOf, hsize]
      rw [hdrop]
      exact ih hT hcfg hrest

/-- The tables after the items of a list. -/
def Entries.withItems (b : Build) (k : Nat) (cfg : ContainerConfig)
    (items : List ContainerAcItem) (x : Entries) : Entries :=
  ⟨x.mem ++ (memoryOf k items).map (storedRegion b cfg), x.iface ++ interfacesOf items,
    x.aux ++ auxOf items⟩

theorem vmpuAcItem_tables {item : ContainerAcItem} (hT : Tables s k e x)
    (hcfg : (s.context k).cfg = some cfg) (hk : k < secureshieldMaxContainers)
    (hroom : s.aux.used + (auxOf [item]).length ≤ b.containerAuxCount)
    (h : vmpuAcItem b s k item = .ok s') :
    Tables s' k e (x.withItems b k cfg [item]) ∧ (k = 0 → interfacesOf [item] = []) ∧
      s'.aux.used = s.aux.used + (auxOf [item]).length := by
  rw [vmpuAcItem_eq] at h
  cases hkind : item.kind with simp only [hkind] at h
  | irq =>
    cases h
    have hkeep := (vmpuAcIrq_keeps b s k item.param1 item.param2).2
    refine ⟨?_, by simp [interfacesOf, hkind], by simp [auxOf, hkind, hkeep.aux]⟩
    simpa [Entries.withItems, memoryOf, interfacesOf, auxOf, hkind] using hT.keeps hkeep
  | interface =>
    obtain ⟨hk0, rfl⟩ := vmpuAcInterface_ok h
    have hT' : Tables { s with iface := s.iface.add k ⟨item.param1, item.param2⟩ } k e _ :=
      hT.addIface rfl rfl rfl
    refine ⟨?_, fun h0 => absurd h0 hk0, by simp [auxOf, hkind]⟩
    simpa [Entries.withItems, memoryOf, interfacesOf, auxOf, hkind] using hT'
  | aux =>
    cases h
    have hroom' : s.aux.used < b.containerAuxCount := by
      simp [auxOf, hkind] at hroom
      omega
    obtain ⟨hT', hused⟩ := vmpuAcAux_tables item.param1 item.param2 hT hk hroom'
    refine ⟨?_, by simp [interfacesOf, hkind], by simpa [auxOf, hkind] using hused⟩
    simpa [Entries.withItems, memoryOf, interfacesOf, auxOf, hkind] using hT'
  | memory =>
    obtain ⟨hT', ha⟩ := vmpuAcMem_tables hT hcfg h
    refine ⟨?_, by simp [interfacesOf, hkind], by simp [auxOf, hkind, ha]⟩
    simpa [Entries.withItems, memoryOf, interfacesOf, auxOf, hkind] using hT'

theorem Entries.withItems_cons (b : Build) (k : Nat) (cfg : ContainerConfig)
    (item : ContainerAcItem) (rest : List ContainerAcItem) (x : Entries) :
    (x.withItems b k cfg [item]).withItems b k cfg rest = x.withItems b k cfg (item :: rest) := by
  simp only [Entries.withItems, memoryOf, interfacesOf, auxOf, List.filter_cons]
  split_ifs <;> simp

theorem auxOf_cons (item : ContainerAcItem) (rest : List ContainerAcItem) :
    auxOf (item :: rest) = auxOf [item] ++ auxOf rest := by
  simp only [auxOf, List.filter_cons]
  split_ifs <;> simp

theorem interfacesOf_cons (item : ContainerAcItem) (rest : List ContainerAcItem) :
    interfacesOf (item :: rest) = interfacesOf [item] ++ interfacesOf rest := by
  simp only [interfacesOf, List.filter_cons]
  split_ifs <;> simp

theorem vmpuAcItems_tables (hk : k < secureshieldMaxContainers) :
    ∀ (items : List ContainerAcItem) {s : State} {x : Entries}, Tables s k e x →
      (s.context k).cfg = some cfg →
      s.aux.used + (auxOf items).length ≤ b.containerAuxCount →
      vmpuAcItems b k items s = .ok s' →
      Tables s' k e (x.withItems b k cfg items) ∧ (k = 0 → interfacesOf items = []) ∧
        s'.aux.used = s.aux.used + (auxOf items).length := by
  intro items
  induction items with
  | nil =>
    intro s x hT _ _ h
    cases h
    refine ⟨?_, fun _ => rfl, rfl⟩
    simpa [Entries.withItems, memoryOf, interfacesOf, auxOf] using hT
  | cons item rest ih =>
    intro s x hT hcfg hroom h
    obtain ⟨s₁, h₁, hrest⟩ := Except.bind_eq_ok_iff.mp h
    rw [auxOf_cons, List.length_append] at hroom ⊢
    obtain ⟨hT₁, hif₁, hused₁⟩ := vmpuAcItem_tables hT hcfg hk (by omega) h₁
    obtain ⟨hT', hif', hused'⟩ :=
      ih hT₁ ((vmpuAcItem_keeps h₁).context ▸ hcfg) (by omega) hrest
    rw [Entries.withItems_cons] at hT'
    refine ⟨hT', ?_, by omega⟩
    intro h0
    rw [interfacesOf_cons, hif₁ h0, hif' h0]
    rfl

end

/-! ### The whole table -/

section
variable {b : Build} {s s' : State} {e : Nat → Entries} {cfg : ContainerConfig}

theorem vmpuSetupContainer_tables (hT : Tables s s.containerCount e Entries.nil)
    (hroom : s.aux.used + (auxOf cfg.acItems).length ≤ b.containerAuxCount)
    (h : vmpuSetupContainer b s cfg = .ok s') :
    Tables s' s.containerCount e (cfgEntries b s.containerCount cfg) ∧
      (s.containerCount = 0 → interfacesOf cfg.acItems = []) ∧
      s'.aux.used = s.aux.used + (auxOf cfg.acItems).length := by
  obtain ⟨hk, s₁, h₁, hitems⟩ := vmpuSetupContainer_ok h
  obtain ⟨-, s₂, hsec, rfl⟩ := vmpuAcContainer_ok h₁
  have hT₀ : Tables { s with containerCount := s.containerCount + 1 } s.containerCount e
      Entries.nil := hT.congr rfl rfl rfl
  have hkeep := withConfig_keeps b { s with containerCount := s.containerCount + 1 }
    s.containerCount cfg
  have hcfg := withConfig_cfg b { s with containerCount := s.containerCount + 1 }
    s.containerCount cfg
  obtain ⟨hT₂, haux₂⟩ := vmpuAcSections_tables _ (hT₀.keeps hkeep) hcfg hsec
  have hstack := withStack_keeps b s₂ s.containerCount cfg
  have hcfg₂ : ((withStack b s₂ s.containerCount cfg).context s.containerCount).cfg = some cfg := by
    rw [(withStack_kept ..).1, (vmpuAcSections_keeps _ hsec).context, hcfg]
  have haux : (withStack b s₂ s.containerCount cfg).aux = s.aux := by
    rw [hstack.aux, haux₂, hkeep.aux]
  obtain ⟨hT', hif, hused⟩ := vmpuAcItems_tables hk _ (hT₂.keeps hstack) hcfg₂
    (by rw [haux]; exact hroom) hitems
  refine ⟨?_, hif, by rw [hused, haux]⟩
  simpa [cfgEntries, requestsOf, Entries.withItems, Entries.nil] using hT'

def auxTotal (cfgtbl : List ContainerConfig) : Nat :=
  (cfgtbl.map fun cfg => (auxOf cfg.acItems).length).sum

/-- The loop gives every container of the table the entries it lists.  The induction is on
the rest of the table; `e` is fixed and says what each container is to get. -/
theorem vmpuSetupLoop_tables : ∀ (cfgtbl : List ContainerConfig) {s : State},
    Tables s s.containerCount e Entries.nil →
    s.aux.used + auxTotal cfgtbl ≤ b.containerAuxCount →
    (∀ j cfg, cfgtbl[j]? = some cfg →
      e (s.containerCount + j) = cfgEntries b (s.containerCount + j) cfg) →
    vmpuSetupLoop b cfgtbl s = .ok s' →
    Tables s' s'.containerCount e Entries.nil ∧
      (∀ cfg, s.containerCount = 0 → cfgtbl[0]? = some cfg → interfacesOf cfg.acItems = []) := by
  intro cfgtbl
  induction cfgtbl with
  | nil =>
    intro s hT _ _ h
    cases h
    exact ⟨hT, by simp⟩
  | cons cfg rest ih =>
    intro s hT hroom he h
    obtain ⟨s₁, h₁, hrest⟩ := Except.bind_eq_ok_iff.mp h
    simp only [auxTotal, List.map_cons, List.sum_cons] at hroom
    obtain ⟨hT₁, hif, hused₁⟩ := vmpuSetupContainer_tables hT (by omega) h₁
    have hcount₁ := (vmpuSetupContainer_frame h₁).1
    have hnext : Tables s₁ s₁.containerCount e Entries.nil := by
      rw [hcount₁]
      exact hT₁.next (he 0 cfg rfl)
    have he₁ : ∀ j cfg, rest[j]? = some cfg →
        e (s₁.containerCount + j) = cfgEntries b (s₁.containerCount + j) cfg := by
      intro j cfg' hj
      rw [hcount₁, Nat.add_assoc, Nat.add_comm 1 j]
      exact he (j + 1) cfg' hj
    refine ⟨(ih hnext (by unfold auxTotal; omega) he₁ hrest).1, ?_⟩
    intro cfg' h0 hcfg'
    obtain rfl := Option.some.inj hcfg'
    exact hif h0

structure TablesEmpty (s : State) : Prop where
  mpu : s.mpu = Slab.empty ⟨0, 0, 0, 0⟩
  iface : s.iface = Slab.empty ⟨0, 0⟩
  aux : s.aux = Slab.empty ⟨0, 0⟩

theorem TablesEmpty.tables (h : TablesEmpty s) : Tables s 0 e Entries.nil := by
  have hnil : ∀ c, entriesOf s c = Entries.nil := by
    intro c
    simp [entriesOf, Entries.nil, h.mpu, h.iface, h.aux, Slab.slice, Slab.empty]
  exact ⟨h.mpu ▸ Slab.Ordered.empty _ 0, h.iface ▸ Slab.Ordered.empty _ 0,
    h.aux ▸ Slab.Ordered.empty _ 0, fun c hc => absurd hc (Nat.not_lt_zero c), hnil 0,
    fun c _ => hnil c⟩

/-- What the tables are to hold for each container of a table of configurations. -/
def tableEntries (b : Build) (cfgtbl : List ContainerConfig) (c : Nat) : Entries :=
  match cfgtbl[c]? with
  | some cfg => cfgEntries b c cfg
  | none => Entries.nil

theorem vmpuSetupContainers_tables {cfgtbl : List ContainerConfig} (hempty : TablesEmpty s)
    (hroom : auxTotal cfgtbl ≤ b.containerAuxCount)
    (h : vmpuSetupContainers b s cfgtbl = .ok s') :
    Tables s' cfgtbl.length (tableEntries b cfgtbl) Entries.nil ∧
      (∀ cfg, cfgtbl[0]? = some cfg → interfacesOf cfg.acItems = []) := by
  have hempty' : TablesEmpty { s with containerCount := 0 } :=
    { hempty with }
  have hused : s.aux.used = 0 := by rw [hempty.aux]; rfl
  have hcount := (vmpuSetupLoop_frame cfgtbl h).1
  obtain ⟨hT, hif⟩ := vmpuSetupLoop_tables (e := tableEntries b cfgtbl) cfgtbl hempty'.tables
    (by simpa [hused] using hroom) (fun j cfg hj => by simp [tableEntries, hj]) h
  simp only [Nat.zero_add] at hcount
  exact ⟨hcount ▸ hT, fun cfg hcfg => hif cfg rfl hcfg⟩

end

/-! ### Looking an entry up -/

/-- The access control list has an interface with a function and an argument count. -/
def ListsInterface (cfg : ContainerConfig) (f n : Word) : Prop :=
  ∃ i ∈ cfg.acItems, i.kind = .interface ∧ i.param1 = f ∧ i.param2 = n

/-- The access control list has an aux range that holds an address. -/
def ListsAux (cfg : ContainerConfig) (addr : Word) : Prop :=
  ∃ i ∈ cfg.acItems, i.kind = .aux ∧ i.param1.toNat ≤ addr.toNat ∧
    addr.toNat < i.param1.toNat + i.param2.toNat

/-- No aux range of the list ends beyond the last register. -/
def AuxInRange (cfg : ContainerConfig) : Prop :=
  ∀ i ∈ cfg.acItems, i.kind = .aux → i.param1.toNat + i.param2.toNat < 2 ^ 32

theorem vmpuFindInterface_iff (hslice : s.iface.slice c = interfacesOf cfg.acItems)
    (hzero : c = 0 → interfacesOf cfg.acItems = []) {f n : Word} (hf : f ≠ 0) :
    (∃ p, vmpuFindInterface s c f n = .ok p ∧ p ≠ 0) ↔ ListsInterface cfg f n := by
  have hmem : ListsInterface cfg f n ↔
      ((s.iface.slice c).any fun i => i.func == f && i.argsNum == n) = true := by
    simp [ListsInterface, hslice, interfacesOf]
  unfold vmpuFindInterface
  by_cases hc : c = 0
  · have hnone : ¬ ListsInterface cfg f n := by
      rw [hmem, hslice, hzero hc]
      simp
    simp [haltIf, hc, hnone, bind, Except.bind]
  · rw [hmem]
    by_cases hany : ((s.iface.slice c).any fun i => i.func == f && i.argsNum == n) = true
    · simp [haltIf, hc, hany, bind, Except.bind, pure, Except.pure]
      exact hf
    · simp [haltIf, hc, hany, bind, Except.bind, pure, Except.pure]

theorem auxListed_iff (hslice : s.aux.slice c = auxOf cfg.acItems) (hrange : AuxInRange cfg)
    (addr : Word) : auxListed s c addr = true ↔ ListsAux cfg addr := by
  -- the end of a range that does not wrap is the sum
  have hstop : ∀ i ∈ cfg.acItems, i.kind = .aux →
      ((i.param1 ≤ addr ∧ addr < i.param1 + i.param2) ↔
        (i.param1.toNat ≤ addr.toNat ∧ addr.toNat < i.param1.toNat + i.param2.toNat)) := by
    intro i hi hkind
    have := hrange i hi hkind
    rw [BitVec.le_def, BitVec.lt_def, BitVec.toNat_add, Nat.mod_eq_of_lt this]
  simp only [auxListed, hslice, auxOf, ListsAux, List.any_map, List.any_filter, List.any_eq_true,
    Function.comp_apply, Bool.and_eq_true, decide_eq_true_eq]
  refine exists_congr ?_
  intro i
  refine and_congr_right ?_
  intro hi
  refine and_congr_right ?_
  intro hkind
  exact hstop i hi hkind

theorem secureshieldAuxCheck_iff (hc : c < secureshieldMaxContainers)
    (hord : ∀ c, (s.aux.owner c).ptr = none → (s.aux.owner c).count = 0) (addr : Word) :
    secureshieldAuxCheck s c addr = 0 ↔ auxListed s c addr = true ∨ auxListed s 0 addr = true := by
  have hnull : (s.aux.owner 0).ptr.isNone = true → auxListed s 0 addr = false := by
    intro hnone
    simp [auxListed, Slab.slice, hord 0 (by simpa using hnone)]
  unfold secureshieldAuxCheck
  rw [if_neg (Nat.not_le.mpr hc)]
  by_cases hown : auxListed s c addr = true
  · simp [hown]
  · by_cases hnone : (s.aux.owner 0).ptr.isNone = true
    · simp [hown, hnone, hnull hnone]
    · by_cases hbg : auxListed s 0 addr = true <;> simp [hown, hnone, hbg]

/-- No index of a table belongs to two containers. -/
def SlicesApart {α : Type} (t : Slab α) : Prop :=
  ∀ c d i, c ≠ d → t.Covers c i → ¬ t.Covers d i

/-- **An accepted table of configurations is what the runtime enforces.**  The slices of
the containers are apart and hold what the containers list, in order; an interface is
found if and only if it is listed, an aux register is allowed if and only if it is listed
for the container or the background container. -/
theorem setup_exact {b : Build} {s₀ s : State} {cfgtbl : List ContainerConfig}
    (hempty : TablesEmpty s₀) (hroom : auxTotal cfgtbl ≤ b.containerAuxCount)
    (hrange : ∀ cfg ∈ cfgtbl, AuxInRange cfg)
    (h : vmpuSetupContainers b s₀ cfgtbl = .ok s) :
    (SlicesApart s.mpu ∧ SlicesApart s.iface ∧ SlicesApart s.aux) ∧
    ∀ c cfg, cfgtbl[c]? = some cfg →
      (s.mpu.slice c).map Except.ok = (requestsOf b c cfg).map (storedRegion b cfg) ∧
      s.iface.slice c = interfacesOf cfg.acItems ∧
      s.aux.slice c = auxOf cfg.acItems ∧
      (∀ f n, f ≠ 0 →
        ((∃ p, vmpuFindInterface s c f n = .ok p ∧ p ≠ 0) ↔ ListsInterface cfg f n)) ∧
      (∀ addr, secureshieldAuxCheck s c addr = 0 ↔
        ListsAux cfg addr ∨ ∃ background, cfgtbl[0]? = some background ∧
          ListsAux background addr) := by
  obtain ⟨hT, hzero⟩ := vmpuSetupContainers_tables hempty hroom h
  obtain ⟨hcount, hmax, -⟩ := vmpuSetupLoop_frame cfgtbl h
  refine ⟨⟨fun c d i hcd => hT.mpu.covers_disjoint hcd, fun c d i hcd => hT.iface.covers_disjoint hcd,
    fun c d i hcd => hT.aux.covers_disjoint hcd⟩, ?_⟩
  have hentries : ∀ c cfg, cfgtbl[c]? = some cfg → entriesOf s c = cfgEntries b c cfg := by
    intro c cfg hc
    rw [hT.before c (List.getElem?_eq_some_iff.mp hc).1]
    simp [tableEntries, hc]
  intro c cfg hc
  have hlt : c < cfgtbl.length := (List.getElem?_eq_some_iff.mp hc).1
  have hin : c < secureshieldMaxContainers := by
    have := hmax (Nat.zero_le _)
    omega
  have hE := hentries c cfg hc
  simp only [entriesOf, cfgEntries, Entries.mk.injEq] at hE
  obtain ⟨hmem, hif, haux⟩ := hE
  refine ⟨hmem, hif, haux, ?_, ?_⟩
  · intro f n hf
    exact vmpuFindInterface_iff hif (fun h0 => hzero cfg (h0 ▸ hc)) hf
  · intro addr
    -- the background container is there, since the table has a container at all
    obtain ⟨bg, hbg⟩ : ∃ bg, cfgtbl[0]? = some bg :=
      ⟨_, List.getElem?_eq_getElem (Nat.zero_lt_of_lt hlt)⟩
    have hbgE := hentries 0 bg hbg
    simp only [entriesOf, cfgEntries, Entries.mk.injEq] at hbgE
    rw [secureshieldAuxCheck_iff hin hT.aux.null,
      auxListed_iff haux (hrange cfg (List.mem_of_getElem? hc)),
      auxListed_iff hbgE.2.2 (hrange bg (List.mem_of_getElem? hbg))]
    simp [hbg]

/-- The sample table: two regions, one interface, and the background container's registers. -/
theorem setup_exact_sample :
    ∃ s, vmpuSetupContainers .v1Mpu2 State.blank sampleTable = .ok s ∧
      s.iface.slice 1 = [⟨0x4010, 2⟩] ∧ (s.mpu.slice 1).length = 2 ∧
      (∃ p, vmpuFindInterface s 1 0x4010 2 = .ok p ∧ p ≠ 0) ∧
      secureshieldAuxCheck s 1 0x20f = 0 ∧ ¬ secureshieldAuxCheck s 1 0x210 = 0 := by
  obtain ⟨s, hs⟩ : ∃ s, vmpuSetupContainers .v1Mpu2 State.blank sampleTable = .ok s := ⟨_, rfl⟩
  obtain ⟨hmem, hif, -, hfind, haux⟩ :=
    (setup_exact ⟨rfl, rfl, rfl⟩ (by decide) (by unfold AuxInRange; decide) hs).2 1 _ rfl
  refine ⟨s, hs, hif, ?_, ?_, ?_, ?_⟩
  · have hlen := congrArg List.length hmem
    rw [List.length_map, List.length_map] at hlen
    exact hlen
  · exact (hfind _ _ (by decide)).mpr ⟨⟨0x4010, 2, acInterface⟩, by decide, by decide, rfl, rfl⟩
  · exact (haux _).mpr (Or.inr ⟨_, rfl, ⟨0x200, 0x10, acAux⟩, by decide, by decide, by decide,
      by decide⟩)
  · rw [haux]
    rintro (⟨i, hi, hkind, -⟩ | ⟨bg, hbg, i, hi, -, -, hlt⟩)
    · revert i
      decide
    · obtain rfl := Option.some.inj hbg
      obtain rfl := List.mem_singleton.mp hi
      revert hlt
      decide

def nullInterfaceCfg : ContainerConfig where
  addr := 0x30100
  type := secureshieldContainerNormal
  stackSecure := 0x2000
  stackArea := 0x3000
  acTable := some [⟨0, 2, acInterface⟩]

/-- A listed interface at address 0 is not found: its pointer is the one for failure. -/
theorem null_interface_not_found :
    ∃ s, vmpuSetupContainers .v1Mpu2 State.blank [sampleTable.head (by decide), nullInterfaceCfg]
        = .ok s ∧
      ListsInterface nullInterfaceCfg 0 2 ∧ vmpuFindInterface s 1 0 2 = .ok 0 :=
  ⟨_, rfl, ⟨⟨0, 2, acInterface⟩, by decide, by decide, rfl, rfl⟩, rfl⟩

end Embarc
