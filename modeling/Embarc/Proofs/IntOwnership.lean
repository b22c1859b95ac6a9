/-
Who may change an interrupt.

A request names an interrupt and is made under some active container.  The handler and
the owner of an interrupt change under its owner alone; its enable bit, its priority and
its trigger under its owner or a secure container.  An interrupt of container 0 is open
to everyone, so all this is about owners other than 0.

The pending state is the exception.  Software raises an interrupt by writing its number to
`AUX_IRQ_HINT`, and there is one such register: raising another interrupt takes the request
back, whoever does it.
-/
import Embarc.SecureShield.Vmpu

namespace Embarc

open Trace

/-! ### The registers of an interrupt -/

variable {reg failed : Word} {sel : Nat → Bool} {op : Hw → Word → Hw} {j : Nat} {hw : Hw}
  {P : Word → Prop}

/-- Of the interrupt unit, only the banked registers of interrupts in `P` have changed. -/
structure OnlyIrqs (P : Word → Prop) (hw hw' : Hw) : Prop where
  regs : ∀ i, ¬ P i → hw'.irq i = hw.irq i
  hint : hw'.aux auxIrqHint = hw.aux auxIrqHint

section
variable {P : Word → Prop} {hw hw' hw'' : Hw}

theorem OnlyIrqs.refl (hw : Hw) : OnlyIrqs P hw hw := ⟨fun _ _ => rfl, rfl⟩

theorem OnlyIrqs.trans (h : OnlyIrqs P hw hw') (h' : OnlyIrqs P hw' hw'') : OnlyIrqs P hw hw'' :=
  ⟨fun i hi => (h'.regs i hi).trans (h.regs i hi), h'.hint.trans h.hint⟩

theorem arcAuxWrite_select (hw : Hw) (n : Word) :
    arcAuxWrite hw auxIrqSelect n = { hw with aux := Function.update hw.aux auxIrqSelect n } := rfl

theorem arcIntSwTrigger_eq (hw : Hw) (n : Word) :
    arcIntSwTrigger hw n = { hw with aux := Function.update hw.aux auxIrqHint n } := rfl

theorem OnlyIrqs.select (hw : Hw) (n : Word) : OnlyIrqs P hw (arcAuxWrite hw auxIrqSelect n) := by
  have hne : auxIrqHint ≠ auxIrqSelect := by decide
  exact ⟨fun _ _ => rfl, Function.update_of_ne hne n hw.aux⟩

theorem OnlyIrqs.banked (val : Word)
    (hreg : reg = auxIrqEnable ∨ reg = auxIrqPriority ∨ reg = auxIrqTrigger)
    (hP : P (hw.aux auxIrqSelect)) : OnlyIrqs P hw (arcAuxWrite hw reg val) := by
  obtain ⟨regs, heq⟩ : ∃ regs, arcAuxWrite hw reg val =
      { hw with irq := Function.update hw.irq (hw.aux auxIrqSelect) regs } := by
    rcases hreg with rfl | rfl | rfl
    · exact ⟨_, rfl⟩
    · exact ⟨_, rfl⟩
    · exact ⟨_, rfl⟩
  rw [heq]
  refine ⟨?_, rfl⟩
  intro i hi
  refine Function.update_of_ne ?_ ..
  rintro rfl
  exact hi hP

theorem OnlyIrqs.selectWrite {n : Word} (val : Word)
    (hreg : reg = auxIrqEnable ∨ reg = auxIrqPriority ∨ reg = auxIrqTrigger) (hP : P n) :
    OnlyIrqs P hw (arcAuxWrite (arcAuxWrite hw auxIrqSelect n) reg val) := by
  refine (OnlyIrqs.select hw n).trans (OnlyIrqs.banked val hreg ?_)
  rw [arcAuxWrite_select]
  simpa using hP

theorem OnlyIrqs.overIrqs {b : Build} (hsel : ∀ i < b.numExcInt, sel i = true → P (intnoOf b i))
    (hop : ∀ hw n, P n → OnlyIrqs P hw (op hw n)) (hw : Hw) :
    OnlyIrqs P hw (overIrqs b sel op hw) := by
  have hloop : ∀ (l : List Nat), (∀ i ∈ l, i < b.numExcInt) → ∀ hw, OnlyIrqs P hw
      (l.foldl (fun hw i => if sel i then op hw (intnoOf b i) else hw) hw) := by
    intro l
    induction l with
    | nil => intro _ hw; exact OnlyIrqs.refl hw
    | cons i rest ih =>
      intro hl hw
      rw [List.foldl_cons]
      refine OnlyIrqs.trans ?_ (ih (fun j hj => hl j (by simp [hj])) _)
      split_ifs with hs
      · exact hop hw _ (hsel i (hl i (by simp)) hs)
      · exact OnlyIrqs.refl hw
  exact hloop _ (fun i hi => List.mem_range.mp hi) hw

end

/-! ### The entry of an interrupt -/

section
variable {b : Build} {s : State} {i n : Word} (hi : secureIntDefaultCheck b i = true)
  (hn : secureIntDefaultCheck b n = true)

section
include hi hn

theorem intIndex_inj (h : intIndex b i = intIndex b n) : i = n := by
  simp only [secureIntDefaultCheck, Bool.and_eq_true, decide_eq_true_eq] at hi hn
  unfold intIndex at h
  exact BitVec.eq_of_toNat_eq (by omega)

theorem setIrq_irq_of_ne (hne : i ≠ n) (h : IntHandler) :
    (s.setIrq b n h).irq b i = s.irq b i :=
  Function.update_of_ne (fun heq => hne (intIndex_inj hi hn heq)) ..

end

theorem setIrq_irq_self (h : IntHandler) : (s.setIrq b n h).irq b n = h :=
  Function.update_self ..

theorem intIndex_intnoOf (hj : j < b.numExcInt) : intIndex b (intnoOf b j) = j := by
  have hfit := b.excFits
  unfold intIndex intnoOf
  rw [BitVec.toNat_ofNat, Nat.mod_eq_of_lt (by omega)]
  omega

/-- The active container may do more than install a handler. -/
def Entitled (b : Build) (s : State) (i : Word) : Prop :=
  containerIsSecure s s.activeContainer = true ∨ s.ownsIrq b i = true

theorem secureIntAcCheck_ok (h : secureIntAcCheck b s n = true) :
    secureIntDefaultCheck b n = true ∧ Entitled b s n := by
  simp only [secureIntAcCheck, Bool.and_eq_true, Bool.or_eq_true] at h
  exact ⟨h.1.1, h.2⟩

/-- A checked operation does nothing, or is carried out after the check. -/
theorem withAcCheck_induct {p : State → Prop} {op : Word × State} (hs : p s)
    (hop : secureIntDefaultCheck b n = true → Entitled b s n → p op.2) :
    p (withAcCheck b s n failed op).2 := by
  unfold withAcCheck
  split_ifs with hcheck
  · obtain ⟨hn, hent⟩ := secureIntAcCheck_ok hcheck
    exact hop hn hent
  · exact hs

/-! ### One operation -/

/-- The handler and the owner of an interrupt are as they were. -/
def SameOwner (b : Build) (i : Word) (s s' : State) : Prop :=
  (s'.irq b i).handler = (s.irq b i).handler ∧ (s'.irq b i).id = (s.irq b i).id

section
include hi

theorem sameOwner_setIrq_enabled (hn : secureIntDefaultCheck b n = true) (e : Bool) :
    SameOwner b i s ({ s with hw := hw }.setIrq b n { s.irq b n with enabled := e }) := by
  by_cases hin : i = n
  · subst hin
    rw [SameOwner, setIrq_irq_self]
    exact ⟨rfl, rfl⟩
  · rw [SameOwner, setIrq_irq_of_ne hi hn hin]
    exact ⟨rfl, rfl⟩

/-- A handler is installed by the owner only. -/
theorem secureIntHandlerInstall_foreign (hforeign : s.ownsIrq b i = false) (n handler : Word) :
    (secureIntHandlerInstall b s n handler).2.irq b i = s.irq b i ∧
      (secureIntHandlerInstall b s n handler).2.hw = s.hw := by
  unfold secureIntHandlerInstall
  split
  · exact ⟨rfl, rfl⟩
  · next hn =>
    split
    · exact ⟨rfl, rfl⟩
    · next hown =>
      -- the interrupt is another one, since this one is not the container's
      have hne : i ≠ n := by
        rintro rfl
        simp [hforeign] at hown
      exact ⟨setIrq_irq_of_ne hi (by simpa using hn) hne _, rfl⟩

theorem secureIntOp_sameOwner (hforeign : s.ownsIrq b i = false) (op : IntOp) (par1 par2 : Word) :
    SameOwner b i s (secureIntOp b s op par1 par2).2 := by
  have hs : SameOwner b i s s := ⟨rfl, rfl⟩
  cases op with
  | install =>
    obtain ⟨hirq, -⟩ := secureIntHandlerInstall_foreign hi hforeign par1 par2
    exact ⟨congrArg IntHandler.handler hirq, congrArg IntHandler.id hirq⟩
  | enable | disable =>
    exact withAcCheck_induct (p := SameOwner b i s) hs
      (fun hn _ => sameOwner_setIrq_enabled hi hn _)
  | cpuLock | cpuUnlock => exact hs
  | _ => exact withAcCheck_induct (p := SameOwner b i s) hs (fun _ _ => hs)

end

/-- The flag and the registers of an interrupt are as they were, and so is its line. -/
structure SameRegs (b : Build) (i : Word) (s s' : State) : Prop where
  enabled : (s'.irq b i).enabled = (s.irq b i).enabled
  regs : s'.hw.irq i = s.hw.irq i

theorem OnlyIrqs.sameRegs (h : OnlyIrqs P s.hw hw) (hi : ¬ P i) :
    SameRegs b i s { s with hw := hw } :=
  ⟨rfl, h.regs i hi⟩

theorem OnlyIrqs.sameRegs_setIrq (hi : secureIntDefaultCheck b i = true)
    (hn : secureIntDefaultCheck b n = true) (h : OnlyIrqs P s.hw hw) (hP : ¬ P i) (hne : i ≠ n)
    (e : IntHandler) :
    SameRegs b i s ({ s with hw := hw }.setIrq b n e) := by
  refine ⟨?_, h.regs i hP⟩
  rw [setIrq_irq_of_ne hi hn hne]
  rfl

/-- The interrupts the loops act on are the active container's. -/
theorem ownsIrq_of_lockable (hj : j < b.numExcInt) (h : s.lockable j = true) :
    s.ownsIrq b (intnoOf b j) = true := by
  simp only [State.lockable, Bool.and_eq_true] at h
  simp only [State.ownsIrq, State.irq, intIndex_intnoOf hj]
  exact h.1

/-- What a request that is not the software trigger leaves of a foreign interrupt. -/
def RegsKept (b : Build) (i : Word) (s s' : State) : Prop :=
  SameRegs b i s s' ∧ s'.hw.aux auxIrqHint = s.hw.aux auxIrqHint

theorem withAcCheck_regsKept {ret : Word} (hforeign : ¬ Entitled b s i)
    (hhw : Entitled b s n → OnlyIrqs (Entitled b s) s.hw hw) :
    RegsKept b i s (withAcCheck b s n failed (ret, { s with hw := hw })).2 :=
  withAcCheck_induct (p := RegsKept b i s) ⟨⟨rfl, rfl⟩, rfl⟩
    (fun _ hent => ⟨(hhw hent).sameRegs hforeign, (hhw hent).hint⟩)

theorem withAcCheck_regsKept_setIrq {ret : Word} {e : IntHandler}
    (hi : secureIntDefaultCheck b i = true) (hforeign : ¬ Entitled b s i)
    (hhw : Entitled b s n → OnlyIrqs (Entitled b s) s.hw hw) :
    RegsKept b i s (withAcCheck b s n failed (ret, { s with hw := hw }.setIrq b n e)).2 := by
  refine withAcCheck_induct (p := RegsKept b i s) ⟨⟨rfl, rfl⟩, rfl⟩ ?_
  intro hn hent
  have hne : i ≠ n := by
    rintro rfl
    exact hforeign hent
  exact ⟨(hhw hent).sameRegs_setIrq hi hn hforeign hne e, (hhw hent).hint⟩

theorem overIrqs_regsKept (hforeign : ¬ Entitled b s i)
    (hsel : ∀ j, sel j = true → s.lockable j = true)
    (hop : ∀ hw n, Entitled b s n → OnlyIrqs (Entitled b s) hw (op hw n)) :
    RegsKept b i s { s with hw := overIrqs b sel op s.hw } := by
  have honly : OnlyIrqs (Entitled b s) s.hw (overIrqs b sel op s.hw) :=
    OnlyIrqs.overIrqs (fun j hj h => Or.inr (ownsIrq_of_lockable hj (hsel j h))) hop s.hw
  exact ⟨honly.sameRegs hforeign, honly.hint⟩

/-- A request does nothing to the registers of an interrupt the active container is not
entitled to, and nothing to the hint register unless it is the software trigger. -/
theorem secureIntOp_regsKept (hi : secureIntDefaultCheck b i = true) (hforeign : ¬ Entitled b s i)
    {op : IntOp} (hop : op ≠ .swTrig) (par1 par2 : Word) :
    RegsKept b i s (secureIntOp b s op par1 par2).2 := by
  cases op with
  | swTrig => exact absurd rfl hop
  | get => exact withAcCheck_regsKept hforeign fun _ => OnlyIrqs.refl _
  | install =>
    have hown : s.ownsIrq b i = false := Bool.eq_false_of_not_eq_true (not_or.mp hforeign).2
    obtain ⟨hirq, hhw⟩ := secureIntHandlerInstall_foreign hi hown par1 par2
    exact ⟨⟨congrArg IntHandler.enabled hirq, congrArg (Hw.irq · i) hhw⟩,
      congrArg (Hw.aux · auxIrqHint) hhw⟩
  | enable | disable =>
    exact withAcCheck_regsKept_setIrq hi hforeign fun hent =>
      OnlyIrqs.selectWrite _ (Or.inl rfl) hent
  | enabled | priGet | probe =>
    exact withAcCheck_regsKept hforeign fun _ => OnlyIrqs.select _ _
  | priSet =>
    exact withAcCheck_regsKept hforeign fun hent =>
      OnlyIrqs.selectWrite _ (Or.inr (Or.inl rfl)) hent
  | levelConfig =>
    exact withAcCheck_regsKept hforeign fun hent =>
      OnlyIrqs.selectWrite _ (Or.inr (Or.inr rfl)) hent
  | cpuLock =>
    exact overIrqs_regsKept hforeign (fun _ h => h)
      fun hw n hent => OnlyIrqs.selectWrite 0 (Or.inl rfl) hent
  | cpuUnlock =>
    exact overIrqs_regsKept hforeign (fun _ h => (Bool.and_eq_true_iff.mp h).1)
      fun hw n hent => OnlyIrqs.selectWrite 1 (Or.inl rfl) hent

/-- The software trigger of an interrupt the container is entitled to takes the hint register. -/
theorem secureIntSwTrigger_regs (hforeign : ¬ Entitled b s i) (par1 : Word) :
    SameRegs b i s (secureIntSwTrigger b s par1).2 ∧
      ((secureIntSwTrigger b s par1).2.hw.aux auxIrqHint = s.hw.aux auxIrqHint ∨
        (secureIntSwTrigger b s par1).2.hw.aux auxIrqHint ≠ i) := by
  refine withAcCheck_induct (p := fun s' => SameRegs b i s s' ∧
    (s'.hw.aux auxIrqHint = s.hw.aux auxIrqHint ∨ s'.hw.aux auxIrqHint ≠ i))
    ⟨⟨rfl, rfl⟩, Or.inl rfl⟩ ?_
  intro _ hent
  refine ⟨⟨rfl, rfl⟩, Or.inr ?_⟩
  have hhint : (arcIntSwTrigger s.hw par1).aux auxIrqHint = par1 := by
    simp [arcIntSwTrigger_eq]
  simp only [hhint]
  rintro rfl
  exact hforeign hent

end

/-! ### Runs of requests -/

/-- A request to the interrupt service, made while a container is active. -/
structure IntRequest where
  active : Nat
  ops : Word
  par1 : Word
  par2 : Word

def intStep (b : Build) (s : State) (q : IntRequest) : Except Halt State :=
  .ok (secureshieldIntOps b { s with activeContainer := q.active } q.ops q.par1 q.par2).2

/-- A request of a normal container other than `c`. -/
def Foreign (c : Nat) (s : State) (q : IntRequest) : Prop :=
  q.active ≠ c ∧ containerIsSecure s q.active = false

/-- A request to raise another interrupt by software. -/
def RaisesOther (i : Word) (q : IntRequest) : Prop :=
  IntOp.ofWord q.ops = some .swTrig ∧ q.par1 ≠ i

section
variable {b : Build} {s₀ s s' : State} {q : IntRequest} {i : Word} {c : Nat}

theorem not_ownsIrq (hc : c ≠ 0) (howner : (s.irq b i).id = c) (hq : q.active ≠ c) :
    State.ownsIrq { s with activeContainer := q.active } b i = false := by
  have howner' : (s.intHandler (intIndex b i)).id = c := howner
  simp [State.ownsIrq, State.irq, howner', hc, Ne.symm hq]

theorem not_entitled (hc : c ≠ 0) (howner : (s.irq b i).id = c) (hq : Foreign c s q) :
    ¬ Entitled b { s with activeContainer := q.active } i := by
  rintro (hsec | hown)
  · exact absurd (hq.2.symm.trans hsec) Bool.false_ne_true
  · exact absurd ((not_ownsIrq hc howner hq.1).symm.trans hown) Bool.false_ne_true

/-- A request under another container keeps the handler and the owner. -/
theorem intStep_sameOwner (hi : secureIntDefaultCheck b i = true) (hc : c ≠ 0)
    (howner : (s.irq b i).id = c) (hq : q.active ≠ c) (h : intStep b s q = .ok s') :
    SameOwner b i s s' := by
  cases h
  unfold secureshieldIntOps
  split
  · exact secureIntOp_sameOwner (s := { s with activeContainer := q.active }) hi
      (not_ownsIrq hc howner hq) _ _ _
  · exact ⟨rfl, rfl⟩

/-- A request of another normal container keeps the registers, and the hint register unless
it raises another interrupt. -/
theorem intStep_regs (hi : secureIntDefaultCheck b i = true) (hc : c ≠ 0)
    (howner : (s.irq b i).id = c) (hq : Foreign c s q) (h : intStep b s q = .ok s') :
    SameRegs b i s s' ∧
      (s'.hw.aux auxIrqHint = s.hw.aux auxIrqHint ∨ s'.hw.aux auxIrqHint ≠ i) ∧
      (¬ RaisesOther i q → s'.hw.aux auxIrqHint = s.hw.aux auxIrqHint) := by
  cases h
  have hforeign := not_entitled hc howner hq
  unfold secureshieldIntOps
  split
  · next op hop =>
    by_cases htrig : op = .swTrig
    · subst htrig
      obtain ⟨hregs, hhint⟩ := secureIntSwTrigger_regs hforeign q.par1
      refine ⟨⟨hregs.enabled, hregs.regs⟩, hhint, ?_⟩
      intro hother
      -- raising this very interrupt is turned down
      have hpar : q.par1 = i := by
        by_contra hne
        exact hother ⟨hop, hne⟩
      have hcheck : secureIntAcCheck b { s with activeContainer := q.active } q.par1 = false := by
        rw [hpar, ← Bool.not_eq_true]
        exact fun hok => hforeign (secureIntAcCheck_ok hok).2
      simp [secureIntOp, secureIntSwTrigger, withAcCheck, hcheck]
    · obtain ⟨hregs, hhint⟩ := secureIntOp_regsKept hi hforeign htrig q.par1 q.par2
      exact ⟨⟨hregs.enabled, hregs.regs⟩, Or.inl hhint, fun _ => hhint⟩
  · exact ⟨⟨rfl, rfl⟩, Or.inl rfl, fun _ => rfl⟩

/-- **An interrupt is its owner's.**  In a run without requests under its owner, handler and
owner stay.  In a run without requests under its owner or a secure container, its enable
flag and its registers stay as well, and it does not become pending; it stays pending
unless another interrupt is raised by software. -/
theorem irq_ownership {qs : List IntRequest} (hi : secureIntDefaultCheck b i = true) (hc : c ≠ 0)
    (howner : (s₀.irq b i).id = c) :
    (Runs (intStep b) (fun _ q => q.active ≠ c) s₀ qs s →
      (s.irq b i).handler = (s₀.irq b i).handler ∧ (s.irq b i).id = c) ∧
    (Runs (intStep b) (Foreign c) s₀ qs s →
      (s.irq b i).enabled = (s₀.irq b i).enabled ∧ s.hw.irq i = s₀.hw.irq i ∧
        (s.hw.pending i = true → s₀.hw.pending i = true)) ∧
    (Runs (intStep b) (fun s q => Foreign c s q ∧ ¬ RaisesOther i q) s₀ qs s →
      s.hw.pending i = s₀.hw.pending i) := by
  refine ⟨?_, ?_, ?_⟩
  · intro hrun
    refine hrun.invariant (I := fun s => (s.irq b i).handler = (s₀.irq b i).handler ∧
      (s.irq b i).id = c) ?_ ⟨rfl, howner⟩
    rintro s q s' ⟨hhandler, hid⟩ hq h
    obtain ⟨hhandler', hid'⟩ := intStep_sameOwner hi hc hid hq h
    exact ⟨hhandler'.trans hhandler, hid'.trans hid⟩
  · intro hrun
    suffices hinv : (s.irq b i).id = c ∧ SameRegs b i s₀ s ∧
        (s.hw.pending i = true → s₀.hw.pending i = true) from
      ⟨hinv.2.1.enabled, hinv.2.1.regs, hinv.2.2⟩
    refine hrun.invariant (I := fun s => (s.irq b i).id = c ∧ SameRegs b i s₀ s ∧
      (s.hw.pending i = true → s₀.hw.pending i = true)) ?_ ⟨howner, ⟨rfl, rfl⟩, fun h => h⟩
    rintro s q s' ⟨hid, hsame, hpending⟩ hq h
    obtain ⟨hregs, hhint, -⟩ := intStep_regs hi hc hid hq h
    refine ⟨(intStep_sameOwner hi hc hid hq.1 h).2.trans hid,
      ⟨hregs.enabled.trans hsame.enabled, hregs.regs.trans hsame.regs⟩, ?_⟩
    intro hnow
    refine hpending ?_
    simp only [Hw.pending, Bool.or_eq_true, beq_iff_eq, hregs.regs] at hnow ⊢
    rcases hnow with hline | heq
    · exact Or.inl hline
    · rcases hhint with hhint | hhint
      · exact Or.inr (hhint ▸ heq)
      · exact absurd heq hhint
  · intro hrun
    refine (hrun.invariant (I := fun s => (s.irq b i).id = c ∧
      s.hw.pending i = s₀.hw.pending i) ?_ ⟨howner, rfl⟩).2
    rintro s q s' ⟨hid, hpending⟩ ⟨hq, hother⟩ h
    obtain ⟨hregs, -, hhint⟩ := intStep_regs hi hc hid hq h
    refine ⟨(intStep_sameOwner hi hc hid hq.1 h).2.trans hid, ?_⟩
    rw [← hpending, Hw.pending, Hw.pending, hregs.regs, hhint hother]

/-- Two normal containers with an interrupt each, behind a background container. -/
def irqTable : List ContainerConfig :=
  [{ addr := 0x30000, type := secureshieldContainerNormal, stackSecure := 0x1000, stackArea := 0,
     acTable := none },
   { addr := 0x30100, type := secureshieldContainerNormal, stackSecure := 0x2000,
     stackArea := 0x3000, acTable := some [⟨0x4000, 16, acIrq⟩] },
   { addr := 0x30200, type := secureshieldContainerNormal, stackSecure := 0x4000,
     stackArea := 0x5000, acTable := some [⟨0x6000, 17, acIrq⟩] }]

instance (c : Nat) (s : State) (q : IntRequest) : Decidable (Foreign c s q) :=
  inferInstanceAs (Decidable (_ ∧ _))

instance (i : Word) (q : IntRequest) : Decidable (RaisesOther i q) :=
  inferInstanceAs (Decidable (_ ∧ _))

/-- The second container asks to take the first one's interrupt over and to disable it, locks
the processor and asks for its own interrupt; the first one's interrupt does not notice. -/
theorem irq_ownership_foreign :
    ∃ s₀ s, vmpuSetupContainers .v1Mpu2 State.blank irqTable = .ok s₀ ∧
      Runs (intStep .v1Mpu2) (fun s q => Foreign 1 s q ∧ ¬ RaisesOther 16 q) s₀
        [⟨2, 1, 16, 0x6000⟩, ⟨2, 4, 16, 0⟩, ⟨2, 10, 0, 0⟩, ⟨2, 7, 17, 0⟩] s ∧
      (s.irq .v1Mpu2 16).handler = 0x4000 ∧ (s.irq .v1Mpu2 16).id = 1 ∧
      s.hw.irq 16 = s₀.hw.irq 16 ∧ s.hw.pending 16 = s₀.hw.pending 16 := by
  obtain ⟨s₀, s, hs₀, hid, hhandler, hrun⟩ : ∃ s₀ s,
      vmpuSetupContainers .v1Mpu2 State.blank irqTable = .ok s₀ ∧ (s₀.irq .v1Mpu2 16).id = 1 ∧
      (s₀.irq .v1Mpu2 16).handler = 0x4000 ∧
      Runs (intStep .v1Mpu2) (fun s q => Foreign 1 s q ∧ ¬ RaisesOther 16 q) s₀
        [⟨2, 1, 16, 0x6000⟩, ⟨2, 4, 16, 0⟩, ⟨2, 10, 0, 0⟩, ⟨2, 7, 17, 0⟩] s :=
    ⟨_, _, rfl, rfl, rfl, .of_follow rfl⟩
  have hforeign := hrun.mono (fun _ _ h => h.1)
  obtain ⟨hhandler', hid'⟩ :=
    (irq_ownership (by decide) (by decide) hid).1 (hforeign.mono (fun _ _ h => h.1))
  obtain ⟨-, hregs, -⟩ := (irq_ownership (by decide) (by decide) hid).2.1 hforeign
  have hpending := (irq_ownership (by decide) (by decide) hid).2.2 hrun
  exact ⟨s₀, s, hs₀, hrun, hhandler'.trans hhandler, hid', hregs, hpending⟩

/-- Raising its own interrupt, the second container withdraws the first one's. -/
theorem irq_hint_withdrawn :
    ∃ s₀ s₁ s, vmpuSetupContainers .v1Mpu2 State.blank irqTable = .ok s₀ ∧
      intStep .v1Mpu2 s₀ ⟨1, 9, 16, 0⟩ = .ok s₁ ∧ intStep .v1Mpu2 s₁ ⟨2, 9, 17, 0⟩ = .ok s ∧
      (s₁.irq .v1Mpu2 16).id = 1 ∧ Foreign 1 s₁ ⟨2, 9, 17, 0⟩ ∧
      s₁.hw.pending 16 = true ∧ s.hw.pending 16 = false := by
  exact ⟨_, _, _, rfl, rfl, rfl, rfl, ⟨by decide, rfl⟩, rfl, rfl⟩

end

end Embarc
