/-
Locking and unlocking the processor.

A lock turns off the interrupts that the active container may use, and an unlock turns those on
again that the handler table has marked as enabled.  So the two together leave the interrupts alone
if the table has, for every interrupt with a handler, what the hardware has.

The table goes its own way where only one of the two is written.  An interrupt without a handler is
turned off when it arrives, and stays marked.  And an interrupt that a lock has turned off stays off
when its handler is removed or replaced before the unlock, which then passes it by.
-/
import Embarc.Proofs.IntOwnership
import Embarc.Proofs.ContainerStack

namespace Embarc

open Trace (Runs)

variable {val n : Word} {i : Nat} {op : Hw → Word → Hw} {hw : Hw} {t st : State}
  {cfg : ContainerConfig}

/-! ### Enable bits -/

section Enable

variable {b : Build} {hw : Hw} {m n : Word}

theorem update_enable {f : Word → IrqRegs} {regs : IrqRegs}
    (h : regs.enable = (f n).enable) : (Function.update f n regs m).enable = (f m).enable := by
  by_cases hm : m = n
  · rw [hm, Function.update_self, h]
  · rw [Function.update_of_ne hm]

theorem arcAuxWrite_enable_of_ne {reg : Word} (hreg : reg ≠ auxIrqEnable) :
    ((arcAuxWrite hw reg val).irq m).enable = (hw.irq m).enable := by
  simp only [arcAuxWrite, if_neg hreg]
  split_ifs
  · exact update_enable rfl
  · exact update_enable rfl
  · rfl

theorem auxIrqPriority_ne : auxIrqPriority ≠ auxIrqEnable := by decide

theorem auxIrqTrigger_ne : auxIrqTrigger ≠ auxIrqEnable := by decide

theorem auxIrqHint_ne : auxIrqHint ≠ auxIrqEnable := by decide

/-- `arc_int_enable` and `arc_int_disable` write the enable bit of one interrupt. -/
theorem arcIntWrite_enable (val : Word) :
    ((arcAuxWrite (arcAuxWrite hw auxIrqSelect n) auxIrqEnable val).irq m).enable =
      if m = n then val else (hw.irq m).enable := by
  have hsel : (arcAuxWrite hw auxIrqSelect n).aux auxIrqSelect = n := by
    rw [arcAuxWrite_select]
    show Function.update hw.aux auxIrqSelect n auxIrqSelect = n
    rw [Function.update_self]
  rw [arcAuxWrite, if_pos rfl]
  simp only [hsel]
  by_cases hm : m = n
  · rw [if_pos hm, hm, Function.update_self]
  · rw [if_neg hm, Function.update_of_ne hm]
    rfl

theorem intnoOf_inj {j : Nat} (hi : i < b.numExcInt) (hj : j < b.numExcInt)
    (h : intnoOf b i = intnoOf b j) : i = j := by
  have hindex := congrArg (intIndex b) h
  rwa [intIndex_intnoOf hi, intIndex_intnoOf hj] at hindex

theorem overIrqs_enable (sel : Nat → Bool)
    (hop : ∀ hw n m, ((op hw n).irq m).enable = if m = n then val else (hw.irq m).enable) (hw : Hw)
    (m : Word) : ((overIrqs b sel op hw).irq m).enable =
      if ∃ i < b.numExcInt, sel i = true ∧ m = intnoOf b i then val else (hw.irq m).enable := by
  have hloop (k : Nat) : ((((List.range k).foldl
      (fun hw i => if sel i then op hw (intnoOf b i) else hw) hw).irq m).enable =
      if ∃ i < k, sel i = true ∧ m = intnoOf b i then val else (hw.irq m).enable) := by
    induction k with
    | zero =>
      rw [if_neg ?_]
      · rfl
      · rintro ⟨i, hi, -⟩
        exact absurd hi (Nat.not_lt_zero i)
    | succ k ih =>
      rw [List.range_succ, List.foldl_append, List.foldl_cons, List.foldl_nil]
      simp only [Nat.exists_lt_succ_right]
      by_cases hsel : sel k = true
      · rw [if_pos hsel, hop, ih]
        by_cases hm : m = intnoOf b k <;> simp [hsel, hm]
      · rw [if_neg hsel, ih]
        simp [hsel]
  exact hloop b.numExcInt

end Enable

/-! ### Lock and unlock -/

section Lock

variable {b : Build} {s : State}

/-- The enable bit of an interrupt, by its place in the table. -/
def State.enableBit (s : State) (b : Build) (i : Nat) : Word := (s.hw.irq (intnoOf b i)).enable

/-- The table has what the hardware has. -/
def State.Copied (s : State) (b : Build) (i : Nat) : Prop :=
  s.enableBit b i = if (s.intHandler i).enabled then 1 else 0

theorem overIrqs_enableBit {sel : Nat → Bool}
    (hop : ∀ hw n m, ((op hw n).irq m).enable = if m = n then val else (hw.irq m).enable)
    (hi : i < b.numExcInt) :
    ({ s with hw := overIrqs b sel op s.hw }.enableBit b i) =
      if sel i = true then val else s.enableBit b i := by
  rw [State.enableBit, overIrqs_enable sel hop]
  refine if_congr ?_ rfl rfl
  constructor
  · rintro ⟨j, hj, hsel, heq⟩
    rwa [intnoOf_inj hi hj heq]
  · intro hsel
    exact ⟨i, hi, hsel, rfl⟩

theorem secureCpuLock_enableBit (hi : i < b.numExcInt) :
    (secureCpuLock b s).enableBit b i = if s.lockable i = true then 0 else s.enableBit b i :=
  overIrqs_enableBit (fun _ _ _ => arcIntWrite_enable 0) hi

theorem secureCpuUnlock_enableBit (hi : i < b.numExcInt) :
    (secureCpuUnlock b s).enableBit b i =
      if (s.lockable i && (s.intHandler i).enabled) = true then 1 else s.enableBit b i :=
  overIrqs_enableBit (fun _ _ _ => arcIntWrite_enable 1) hi

/-- Behind both, what may be locked is on exactly if it is marked. -/
theorem unlock_lock_enableBit (hi : i < b.numExcInt) :
    (secureCpuUnlock b (secureCpuLock b s)).enableBit b i =
      if s.lockable i = true then (if (s.intHandler i).enabled then 1 else 0)
      else s.enableBit b i := by
  rw [secureCpuUnlock_enableBit hi, secureCpuLock_enableBit hi]
  show (if (s.lockable i && (s.intHandler i).enabled) = true then _ else _) = _
  cases s.lockable i <;> cases (s.intHandler i).enabled <;> rfl

/-- A lock and an unlock under any container leave every enable bit as it was. -/
def LockTransparent (b : Build) (s : State) : Prop :=
  ∀ (c : Nat) (n : Word),
    ((secureCpuUnlock b (secureCpuLock b { s with activeContainer := c })).hw.irq n).enable =
      (s.hw.irq n).enable

theorem lockTransparent_iff :
    LockTransparent b s ↔ ∀ i < b.numExcInt, (s.intHandler i).handler ≠ 0 → s.Copied b i := by
  constructor
  · intro h i hi hhandler
    -- the owner may lock the interrupt
    have hlock : State.lockable { s with activeContainer := (s.intHandler i).id } i = true := by
      rw [State.lockable, Bool.and_eq_true, Bool.or_eq_true, bne_iff_ne]
      exact ⟨Or.inl (beq_self_eq_true _), hhandler⟩
    exact (h (s.intHandler i).id (intnoOf b i)).symm.trans
      ((unlock_lock_enableBit hi).trans (if_pos hlock))
  · intro h c n
    by_cases htable : ∃ i < b.numExcInt, n = intnoOf b i
    · obtain ⟨i, hi, rfl⟩ := htable
      refine (unlock_lock_enableBit hi).trans ?_
      split
      · next hlock =>
        simp only [State.lockable, Bool.and_eq_true, bne_iff_ne] at hlock
        exact (h i hi hlock.2).symm
      · rfl
    · -- the loops do not get there
      have hout (sel : Nat → Bool) : ¬ ∃ i < b.numExcInt, sel i = true ∧ n = intnoOf b i := by
        rintro ⟨i, hi, -, heq⟩
        exact htable ⟨i, hi, heq⟩
      have hunlock := overIrqs_enable (b := b)
        (fun i => State.lockable { s with activeContainer := c } i && (s.intHandler i).enabled)
        (fun _ _ _ => arcIntWrite_enable 1)
        (overIrqs b (State.lockable { s with activeContainer := c }) arcIntDisable s.hw) n
      have hlocked := overIrqs_enable (b := b) (State.lockable { s with activeContainer := c })
        (fun _ _ _ => arcIntWrite_enable 0) s.hw n
      rw [if_neg (hout _)] at hunlock hlocked
      exact hunlock.trans hlocked

end Lock

/-! ### What leaves the interrupts alone -/

/-- The table and the enable bits are as they were. -/
structure EnablesKept (s s' : State) : Prop where
  table : s'.intHandler = s.intHandler
  enable : ∀ m, (s'.hw.irq m).enable = (s.hw.irq m).enable

section Kept

variable {b : Build} {s s' s'' : State} {frame target : Addr} {dst : Nat} {handler : Word}

theorem EnablesKept.trans (h : EnablesKept s s') (h' : EnablesKept s' s'') : EnablesKept s s'' :=
  ⟨h'.table.trans h.table, fun m => (h'.enable m).trans (h.enable m)⟩

theorem EnablesKept.setHw (h : ∀ m, (hw.irq m).enable = (s.hw.irq m).enable) :
    EnablesKept s { s with hw := hw } :=
  ⟨rfl, h⟩

theorem vmpuSwitch_enables (h : vmpuSwitch b s dst = .ok s') : EnablesKept s s' := by
  obtain ⟨_, _, _, _, rfl⟩ := vmpuSwitch_eq h
  exact ⟨rfl, fun _ => rfl⟩

theorem containerStackPush_enables {src : Nat} {sp : Addr} {normalSp status : Word}
    (h : containerStackPush s src sp normalSp status dst = .ok s') : EnablesKept s s' := by
  simp only [containerStackPush, Except.bind_eq_ok_iff] at h
  obtain ⟨_, -, h⟩ := h
  cases h
  exact ⟨rfl, fun _ => rfl⟩

theorem clearHint_enable (hw : Hw) (cause m : Word) :
    ((clearHint hw cause).irq m).enable = (hw.irq m).enable := by
  unfold clearHint
  split_ifs
  · rfl
  · rfl

theorem interruptDeliver_enables (h : interruptDeliver b s frame dst handler = .ok (target, s')) :
    EnablesKept s s' := by
  have hmem : EnablesKept s (s.setExc b frame .erbta 0) := ⟨rfl, fun _ => rfl⟩
  unfold interruptDeliver at h
  simp only at h
  split_ifs at h with hother hsecure
  · simp only [Except.bind_eq_ok_iff] at h
    obtain ⟨s₁, hswitch, p, hpush, h⟩ := h
    cases h
    have hp := hmem.trans ((vmpuSwitch_enables hswitch).trans (containerStackPush_enables hpush))
    exact ⟨hp.table, hp.enable⟩
  · cases h
    exact ⟨rfl, fun _ => rfl⟩
  · simp only [Except.bind_eq_ok_iff] at h
    obtain ⟨p, hpush, h⟩ := h
    cases h
    have hp := hmem.trans (containerStackPush_enables hpush)
    exact ⟨hp.table, hp.enable⟩

theorem sjliInterruptDeliver_enables
    (h : sjliInterruptDeliver b s frame dst handler = .ok (target, s')) : EnablesKept s s' := by
  unfold sjliInterruptDeliver at h
  simp only at h
  split_ifs at h with hother
  · simp only [Except.bind_eq_ok_iff] at h
    obtain ⟨s₁, hswitch, p, hpush, h⟩ := h
    cases h
    have hp := (vmpuSwitch_enables hswitch).trans (containerStackPush_enables hpush)
    have hkeep : EnablesKept p (keepNormalSp p s.stackCurrId) := by
      unfold keepNormalSp
      split_ifs
      · exact ⟨rfl, fun _ => rfl⟩
      · exact ⟨rfl, fun _ => rfl⟩
    have hall := hp.trans hkeep
    exact ⟨hall.table, hall.enable⟩
  · cases h
    exact ⟨rfl, fun _ => rfl⟩

/-- An interrupt that arrives leaves the enable bits alone, unless it has no handler: then it is
turned off. -/
theorem irq_enables (h : containerStep b s (.irq frame) = .ok s') :
    EnablesKept s s' ∨
      (secureIntDefaultCheck b (arcAuxRead s.hw auxIrqCause) = false ∨
        (s.irq b (arcAuxRead s.hw auxIrqCause)).handler = 0) ∧
      s'.intHandler = s.intHandler ∧
      ∀ m, (s'.hw.irq m).enable =
        if m = arcAuxRead s.hw auxIrqCause then 0 else (s.hw.irq m).enable := by
  obtain ⟨cause, hcause⟩ : ∃ cause, cause = arcAuxRead s.hw auxIrqCause := ⟨_, rfl⟩
  rw [← hcause]
  have hhint : EnablesKept s { s with hw := clearHint s.hw cause } :=
    .setHw (clearHint_enable s.hw cause)
  have hoff (m : Word) : ((arcIntDisable (clearHint s.hw cause) cause).irq m).enable =
      if m = cause then 0 else (s.hw.irq m).enable := by
    rw [arcIntDisable, arcIntWrite_enable, clearHint_enable]
  obtain ⟨⟨target, s₁⟩, hstep, rfl⟩ := Except.exists_of_map_eq_ok h
  have hspurious (hcheck : (!secureIntDefaultCheck b cause ||
      (State.irq { s with hw := clearHint s.hw cause } b cause).handler == 0) = true) :
      secureIntDefaultCheck b cause = false ∨ (s.irq b cause).handler = 0 := by
    rw [Bool.or_eq_true, Bool.not_eq_true', beq_iff_eq] at hcheck
    exact hcheck
  simp only [containerHandler] at hstep
  cases hv : b.version with rw [hv] at hstep
  | v1 =>
    simp only [secureshieldInterruptHandle, ← hcause] at hstep
    split_ifs at hstep with hcheck
    · cases hstep
      exact Or.inr ⟨hspurious hcheck, rfl, hoff⟩
    · exact Or.inl (hhint.trans (interruptDeliver_enables hstep))
  | v2 =>
    simp only [sjliInterruptHandle, ← hcause] at hstep
    split_ifs at hstep with hcheck
    · cases hstep
      exact Or.inr ⟨hspurious hcheck, rfl, hoff⟩
    · exact Or.inl (hhint.trans (sjliInterruptDeliver_enables hstep))

end Kept

/-! ### Runs -/

/-- The runtime, with the containers that have locked the processor and not unlocked it since. -/
structure LockState where
  st : State
  locked : Nat → Bool

inductive LockEvent where
  | request (q : IntRequest)
  | arrive (cause : Word) (frame : Addr)

/-- Who holds a lock behind an operation of the container `c`. -/
def lockedAfter (locked : Nat → Bool) (c : Nat) : Option IntOp → Nat → Bool
  | some .cpuLock => Function.update locked c true
  | some .cpuUnlock => Function.update locked c false
  | _ => locked

def lockStep (b : Build) (s : LockState) : LockEvent → Except Halt LockState
  | .request q =>
    (intStep b s.st q).map fun st =>
      { st, locked := lockedAfter s.locked q.active (IntOp.ofWord q.ops) }
  | .arrive cause frame =>
    (containerStep b { s.st with hw := arcAuxWrite s.st.hw auxIrqCause cause }
      (.irq frame)).map fun st => { s with st }

/-- A lock that is held has turned the interrupt off, and its unlock will look at it. -/
def LockState.Held (s : LockState) (i : Nat) : Prop :=
  (s.st.intHandler i).handler ≠ 0 ∧
    ∃ c, s.locked c = true ∧ ((s.st.intHandler i).id = c ∨ (s.st.intHandler i).id = 0)

/-- A handler is not changed while a lock holds the interrupt, unless it is replaced by the holder
of a lock; and an interrupt that is marked as enabled has a handler when it arrives. -/
def Orderly (b : Build) (s : LockState) : LockEvent → Prop
  | .request q => IntOp.ofWord q.ops = some .install →
      ¬ s.Held (intIndex b q.par1) ∨ q.par2 ≠ 0 ∧ s.locked q.active = true
  | .arrive cause _ =>
    (s.st.irq b cause).handler = 0 → (s.st.irq b cause).enabled = false

def LockState.IrqOk (b : Build) (s : LockState) (i : Nat) : Prop :=
  s.st.Copied b i ∨ s.st.enableBit b i = 0 ∧ s.Held i

section Runs

variable {b : Build} {s s' : LockState} {q : IntRequest} {i : Nat}

theorem secureIntDefaultCheck_intnoOf (hi : i < b.numExcInt) :
    secureIntDefaultCheck b (intnoOf b i) = true := by
  have hfit := b.excFits
  rw [secureIntDefaultCheck, Bool.and_eq_true, decide_eq_true_eq, decide_eq_true_eq, intnoOf,
    BitVec.toNat_ofNat, Nat.mod_eq_of_lt (by omega), Build.numExcAll]
  omega

theorem intnoOf_intIndex (h : secureIntDefaultCheck b n = true) :
    intnoOf b (intIndex b n) = n ∧ intIndex b n < b.numExcInt := by
  rw [secureIntDefaultCheck, Bool.and_eq_true, decide_eq_true_eq, decide_eq_true_eq,
    Build.numExcAll] at h
  rw [intnoOf, intIndex, Nat.sub_add_cancel h.1, BitVec.ofNat_toNat, BitVec.setWidth_eq]
  exact ⟨rfl, by omega⟩

theorem EnablesKept.enableBit {t' : State} (h : EnablesKept t t') (i : Nat) :
    t'.enableBit b i = t.enableBit b i :=
  h.enable (intnoOf b i)

theorem EnablesKept.irqOk (h : EnablesKept s.st st) (hs : s.IrqOk b i) :
    LockState.IrqOk b { s with st } i := by
  rw [LockState.IrqOk, LockState.Held, State.Copied, h.enableBit, h.table]
  exact hs

theorem State.Copied.write (on : Bool) (hn : secureIntDefaultCheck b n = true)
    (hhw : ∀ m, (hw.irq m).enable = if m = n then (if on then 1 else 0) else (t.hw.irq m).enable)
    (hi : i < b.numExcInt) {h : IntHandler} (hent : h = { t.irq b n with enabled := on }) :
    (({ t with hw := hw }.setIrq b n h).intHandler i = t.intHandler i ∧
        ({ t with hw := hw }.setIrq b n h).enableBit b i = t.enableBit b i) ∨
      ({ t with hw := hw }.setIrq b n h).Copied b i := by
  obtain ⟨hno, -⟩ := intnoOf_intIndex hn
  by_cases heq : i = intIndex b n
  · right
    have hbit : ({ t with hw := hw }.setIrq b n h).enableBit b i = if on then 1 else 0 := by
      show (hw.irq (intnoOf b i)).enable = _
      rw [hhw, heq, if_pos hno]
    have hentry : ({ t with hw := hw }.setIrq b n h).intHandler i = h := by
      rw [heq]
      exact Function.update_self ..
    rw [State.Copied, hbit, hentry, hent]
  · left
    refine ⟨Function.update_of_ne heq .., ?_⟩
    show (hw.irq (intnoOf b i)).enable = (t.hw.irq (intnoOf b i)).enable
    rw [hhw, if_neg ?_]
    intro hni
    apply heq
    rw [← hni, intIndex_intnoOf hi]

/-- A request that neither installs a handler nor locks or unlocks. -/
theorem LockState.IrqOk.of_entry (hs : s.IrqOk b i)
    (h : (st.intHandler i = s.st.intHandler i ∧ st.enableBit b i = s.st.enableBit b i) ∨
      st.Copied b i) : LockState.IrqOk b { s with st } i := by
  rcases h with ⟨hentry, hbit⟩ | hcopied
  · rw [LockState.IrqOk, LockState.Held, State.Copied, hbit, hentry]
    exact hs
  · exact Or.inl hcopied

theorem withAcCheck_irqOk {failed : Word} {op : Word × State} (ht : s.st = t) (hs : s.IrqOk b i)
    (hop : secureIntDefaultCheck b n = true → LockState.IrqOk b { s with st := op.2 } i) :
    LockState.IrqOk b { s with st := (withAcCheck b t n failed op).2 } i := by
  apply withAcCheck_induct (p := fun st => LockState.IrqOk b { s with st } i)
  · rw [← ht]
    exact hs
  · exact fun hn _ => hop hn

theorem LockState.IrqOk.setIrq (hs : s.IrqOk b i) {h : IntHandler}
    (hmark : h.enabled = (s.st.irq b n).enabled)
    (hheld : i = intIndex b n → s.Held i →
      h.handler ≠ 0 ∧ ∃ c, s.locked c = true ∧ (h.id = c ∨ h.id = 0)) :
    LockState.IrqOk b { s with st := s.st.setIrq b n h } i := by
  by_cases hin : i = intIndex b n
  · have hentry := Function.update_self i h s.st.intHandler
    rw [LockState.IrqOk, LockState.Held, State.Copied]
    simp only [State.setIrq, ← hin, hentry]
    rw [hmark, State.irq, ← hin]
    exact hs.imp id fun h => ⟨h.1, hheld hin h.2⟩
  · exact hs.of_entry (Or.inl ⟨Function.update_of_ne hin .., rfl⟩)

theorem secureIntHandlerInstall_irqOk {handler : Word} (hs : s.IrqOk b i)
    (horderly : ¬ s.Held (intIndex b n) ∨ handler ≠ 0 ∧ s.locked s.st.activeContainer = true) :
    LockState.IrqOk b { s with st := (secureIntHandlerInstall b s.st n handler).2 } i := by
  unfold secureIntHandlerInstall
  split_ifs with hcheck howns hhandler
  · exact hs
  · exact hs
  · -- a handler is installed under the active container
    refine hs.setIrq rfl fun hin hheld => ⟨hhandler, _, ?_, Or.inl rfl⟩
    exact (horderly.resolve_left (not_not.mpr (hin ▸ hheld))).2
  · -- a handler is removed
    refine hs.setIrq rfl fun hin hheld => absurd ?_ hhandler
    exact (horderly.resolve_left (not_not.mpr (hin ▸ hheld))).1

theorem secureCpuLock_irqOk (hs : s.IrqOk b i) (hi : i < b.numExcInt) :
    LockState.IrqOk b { st := secureCpuLock b s.st
                        locked := Function.update s.locked s.st.activeContainer true } i := by
  have hself : Function.update s.locked s.st.activeContainer true s.st.activeContainer = true :=
    Function.update_self ..
  rw [LockState.IrqOk, State.Copied, secureCpuLock_enableBit hi]
  by_cases hlock : s.st.lockable i = true
  · rw [if_pos hlock]
    rw [State.lockable, Bool.and_eq_true, Bool.or_eq_true, beq_iff_eq, beq_iff_eq,
      bne_iff_ne] at hlock
    exact Or.inr ⟨rfl, hlock.2, _, hself, hlock.1⟩
  · rw [if_neg hlock]
    rcases hs with hcopied | ⟨hoff, hhandler, c, hlocked, hid⟩
    · exact Or.inl hcopied
    · refine Or.inr ⟨hoff, hhandler, c, ?_, hid⟩
      by_cases hc : c = s.st.activeContainer
      · rw [hc]
        exact hself
      · exact (Function.update_of_ne hc ..).trans hlocked

theorem secureCpuUnlock_irqOk (hs : s.IrqOk b i) (hi : i < b.numExcInt) :
    LockState.IrqOk b { st := secureCpuUnlock b s.st
                        locked := Function.update s.locked s.st.activeContainer false } i := by
  rw [LockState.IrqOk, State.Copied, secureCpuUnlock_enableBit hi]
  show (_ = if (s.st.intHandler i).enabled then _ else _) ∨ _
  by_cases hlock : s.st.lockable i = true
  · -- what this container may lock is copied again
    left
    rw [hlock, Bool.true_and]
    cases henabled : (s.st.intHandler i).enabled with
    | true => rfl
    | false =>
      rw [if_neg Bool.false_ne_true, if_neg Bool.false_ne_true]
      rcases hs with hcopied | ⟨hoff, -⟩
      · rwa [State.Copied, henabled, if_neg Bool.false_ne_true] at hcopied
      · exact hoff
  · rw [if_neg ?_]
    · rcases hs with hcopied | ⟨hoff, hhandler, c, hlocked, hid⟩
      · exact Or.inl hcopied
      · have hnot : ¬ ((s.st.intHandler i).id = s.st.activeContainer ∨
            (s.st.intHandler i).id = 0) := by
          intro hid
          apply hlock
          rw [State.lockable, Bool.and_eq_true, Bool.or_eq_true, beq_iff_eq, beq_iff_eq, bne_iff_ne]
          exact ⟨hid, hhandler⟩
        -- it is held by the lock of its owner
        have hown : (s.st.intHandler i).id = c := hid.resolve_right fun hzero => hnot (Or.inr hzero)
        refine Or.inr ⟨hoff, hhandler, c, ?_, hid⟩
        have hc : c ≠ s.st.activeContainer := fun hc => hnot (Or.inl (hown.trans hc))
        exact (Function.update_of_ne hc ..).trans hlocked
    · rw [Bool.and_eq_true]
      exact fun hc => hlock hc.1

theorem secureIntOp_irqOk (op : IntOp) {par1 par2 : Word} (hs : s.IrqOk b i) (hi : i < b.numExcInt)
    (horderly : op = .install →
      ¬ s.Held (intIndex b par1) ∨ par2 ≠ 0 ∧ s.locked s.st.activeContainer = true) :
    LockState.IrqOk b { st := (secureIntOp b s.st op par1 par2).2
                        locked := lockedAfter s.locked s.st.activeContainer (some op) } i := by
  have hselect (n m : Word) : ((arcAuxWrite s.st.hw auxIrqSelect n).irq m).enable =
      (s.st.hw.irq m).enable := rfl
  cases op with
  | get => exact withAcCheck_irqOk rfl hs fun _ => hs
  | install => exact secureIntHandlerInstall_irqOk hs (horderly rfl)
  | enable =>
    refine withAcCheck_irqOk rfl hs fun hn => hs.of_entry ?_
    exact State.Copied.write true hn (fun _ => arcIntWrite_enable 1) hi rfl
  | disable =>
    refine withAcCheck_irqOk rfl hs fun hn => hs.of_entry ?_
    exact State.Copied.write false hn (fun _ => arcIntWrite_enable 0) hi rfl
  | enabled | priGet | probe =>
    exact withAcCheck_irqOk rfl hs fun _ => (EnablesKept.setHw (hselect par1)).irqOk hs
  | priSet =>
    refine withAcCheck_irqOk rfl hs fun _ => (EnablesKept.setHw fun m => ?_).irqOk hs
    exact (arcAuxWrite_enable_of_ne auxIrqPriority_ne).trans (hselect par1 m)
  | levelConfig =>
    refine withAcCheck_irqOk rfl hs fun _ => (EnablesKept.setHw fun m => ?_).irqOk hs
    exact (arcAuxWrite_enable_of_ne auxIrqTrigger_ne).trans (hselect par1 m)
  | swTrig =>
    refine withAcCheck_irqOk rfl hs fun _ => (EnablesKept.setHw fun m => ?_).irqOk hs
    exact arcAuxWrite_enable_of_ne auxIrqHint_ne
  | cpuLock => exact secureCpuLock_irqOk hs hi
  | cpuUnlock => exact secureCpuUnlock_irqOk hs hi

theorem lockStep_irqOk {e : LockEvent} (hs : ∀ i < b.numExcInt, s.IrqOk b i) (horderly : Orderly b s e)
    (h : lockStep b s e = .ok s') : ∀ i < b.numExcInt, s'.IrqOk b i := by
  intro i hi
  cases e with
  | request q =>
    rw [lockStep] at h
    obtain ⟨st, hstep, rfl⟩ := Except.exists_of_map_eq_ok h
    cases hstep
    unfold secureshieldIntOps
    cases hop : IntOp.ofWord q.ops with
    | none => exact hs i hi
    | some op =>
      rw [Orderly, hop] at horderly
      exact secureIntOp_irqOk (s := { s with st := { s.st with activeContainer := q.active } }) op
        (hs i hi) hi fun hinstall => horderly (congrArg some hinstall)
  | arrive cause frame =>
    obtain ⟨st, hstep, rfl⟩ := Except.exists_of_map_eq_ok h
    have hcause : arcAuxRead (arcAuxWrite s.st.hw auxIrqCause cause) auxIrqCause = cause := by
      show Function.update s.st.hw.aux auxIrqCause cause auxIrqCause = cause
      rw [Function.update_self]
    rcases irq_enables hstep with hkept | ⟨hspurious, htable, hoff⟩
    · exact EnablesKept.irqOk ⟨hkept.table, hkept.enable⟩ (hs i hi)
    · simp only [hcause] at hspurious hoff
      have hbit : st.enableBit b i = if intnoOf b i = cause then 0 else s.st.enableBit b i :=
        hoff (intnoOf b i)
      by_cases heq : intnoOf b i = cause
      · -- it has been turned off, and was not marked
        have hcheck := secureIntDefaultCheck_intnoOf (b := b) hi
        rw [heq] at hcheck
        have hhandler : (s.st.irq b cause).handler = 0 :=
          hspurious.resolve_left fun hc => Bool.false_ne_true (hc.symm.trans hcheck)
        have hmark := horderly hhandler
        rw [State.irq, ← heq, intIndex_intnoOf hi] at hmark
        left
        rw [State.Copied, hbit, if_pos heq]
        show 0 = if (st.intHandler i).enabled then (1 : Word) else 0
        rw [htable, if_neg (by rw [hmark]; exact Bool.false_ne_true)]
      · rw [if_neg heq] at hbit
        exact (hs i hi).of_entry (Or.inl ⟨congrFun htable i, hbit⟩)

end Runs

/-! ### From the start -/

section Boot

variable {b : Build} {s s' : State} {k : Nat}

/-- No interrupt is on, and none is marked. -/
def AllOff (b : Build) (s : State) : Prop :=
  ∀ i < b.numExcInt, (s.intHandler i).enabled = false ∧ s.enableBit b i = 0

theorem AllOff.kept (h : AllOff b s) (hkept : EnablesKept s s') : AllOff b s' := by
  intro i hi
  rw [hkept.enableBit, hkept.table]
  exact h i hi

theorem intReset_enable (b : Build) (hw : Hw) (n m : Word) :
    ((intReset b hw n).irq m).enable = if m = n then 0 else (hw.irq m).enable := by
  rw [intReset, arcAuxWrite_enable_of_ne auxIrqPriority_ne,
    arcAuxWrite_enable_of_ne auxIrqTrigger_ne, arcIntWrite_enable]

theorem secureshieldIntInit_allOff (b : Build) (hw : Hw) (mem : Addr → Word)
    (call : Word → ContainerCall) :
    AllOff b (secureshieldIntInit b (State.reset hw mem call)) := by
  intro i hi
  refine ⟨rfl, ?_⟩
  rw [secureshieldIntInit, overIrqs_enableBit (intReset_enable b) hi, if_pos rfl]

theorem vmpuAcIrq_allOff (h : AllOff b s) (handler intno : Word) :
    AllOff b (vmpuAcIrq b s k handler intno).2 := by
  have hset : AllOff b (s.setIrq b intno ⟨handler, k, false⟩) := by
    intro i hi
    refine ⟨?_, (h i hi).2⟩
    show (Function.update s.intHandler (intIndex b intno) _ i).enabled = false
    by_cases heq : i = intIndex b intno
    · rw [heq, Function.update_self]
    · rw [Function.update_of_ne heq]
      exact (h i hi).1
  unfold vmpuAcIrq
  split_ifs
  · exact h
  · exact h
  · cases b.version with
    | v1 => exact hset
    | v2 =>
      refine hset.kept (.setHw fun m => ?_)
      unfold arcIntSecureSet
      split_ifs
      · exact arcAuxWrite_enable_of_ne auxIrqPriority_ne
      · exact arcAuxWrite_enable_of_ne auxIrqPriority_ne

theorem vmpuAcMem_allOff {addr size ac : Word} (hmem : vmpuAcMem b s k addr size ac = .ok s')
    (h : AllOff b s) : AllOff b s' := by
  obtain ⟨r, mask, -, -, rfl⟩ := vmpuAcMem_ok hmem
  exact h

theorem vmpuAcItem_allOff {item : ContainerAcItem} (hitem : vmpuAcItem b s k item = .ok s')
    (h : AllOff b s) : AllOff b s' := by
  rw [vmpuAcItem_eq] at hitem
  cases hkind : item.kind with rw [hkind] at hitem
  | irq =>
    cases hitem
    exact vmpuAcIrq_allOff h item.param1 item.param2
  | interface =>
    obtain ⟨-, rfl⟩ := vmpuAcInterface_ok hitem
    exact h
  | aux =>
    cases hitem
    unfold vmpuAcAux
    split_ifs <;> exact h
  | memory => exact vmpuAcMem_allOff hitem h

theorem withStack_allOff (h : AllOff b s) : AllOff b (withStack b s k cfg) := by
  unfold withStack vmpuAcStackV1 vmpuAcStackV2
  cases b.version <;> dsimp only <;> split_ifs <;> exact h

theorem vmpuSetupContainer_allOff (hsetup : vmpuSetupContainer b s cfg = .ok s') (h : AllOff b s) :
    AllOff b s' := by
  obtain ⟨-, s₁, h₁, hitems⟩ := vmpuSetupContainer_ok hsetup
  obtain ⟨-, s₂, hsections, rfl⟩ := vmpuAcContainer_ok h₁
  have hconfig : AllOff b (withConfig b { s with containerCount := s.containerCount + 1 }
      s.containerCount cfg) := by
    unfold withConfig vmpuAcStatus
    cases b.version <;> exact h
  have h₂ := vmpuAcSections_induct (p := AllOff b) vmpuAcMem_allOff _ hsections hconfig
  exact vmpuAcItems_induct (p := AllOff b) vmpuAcItem_allOff _ hitems (withStack_allOff h₂)

theorem vmpuSetupLoop_allOff (cfgtbl : List ContainerConfig)
    (hloop : vmpuSetupLoop b cfgtbl s = .ok s') (h : AllOff b s) : AllOff b s' := by
  induction cfgtbl generalizing s with
  | nil =>
    cases hloop
    exact h
  | cons cfg rest ih =>
    obtain ⟨s₁, h₁, hrest⟩ := Except.bind_eq_ok_iff.mp hloop
    exact ih hrest (vmpuSetupContainer_allOff h₁ h)

/-- `secureshield_init` leaves all interrupts off. -/
theorem vmpuInitPost_allOff {cfgtbl : List ContainerConfig}
    (hpost : vmpuInitPost b s cfgtbl = .ok s') (h : AllOff b s) : AllOff b s' := by
  simp only [vmpuInitPost, Except.bind_eq_ok_iff] at hpost
  obtain ⟨s₁, harch, s₂, hsetup, hload⟩ := hpost
  obtain ⟨mpu, mask, rfl, -⟩ := vmpuArchInit_ok harch
  have h₂ := vmpuSetupLoop_allOff cfgtbl hsetup h
  simp only [vmpuLoadContainer, Except.bind_eq_ok_iff] at hload
  obtain ⟨_, -, hswitch⟩ := hload
  exact h₂.kept (vmpuSwitch_enables hswitch)

end Boot

/-- Made by requests and interrupts from a state that `secureshield_init` has left. -/
def LockReached (b : Build) (ok : LockState → LockEvent → Prop) (s : LockState) : Prop :=
  ∃ hw mem call cfgtbl s₀ es,
    vmpuInitPost b (secureshieldIntInit b (State.reset hw mem call)) cfgtbl = .ok s₀ ∧
      Runs (lockStep b) ok { st := s₀, locked := fun _ => false } es s

/-- In an orderly run a lock and an unlock do nothing together, wherever no lock is held. -/
theorem cpu_lock_transparent {b : Build} {s : LockState} (h : LockReached b (Orderly b) s)
    (hfree : ∀ c, s.locked c = false) : LockTransparent b s.st := by
  obtain ⟨hw, mem, call, cfgtbl, s₀, es, hboot, hrun⟩ := h
  have hoff := vmpuInitPost_allOff hboot (secureshieldIntInit_allOff b hw mem call)
  have hok := hrun.invariant (I := fun s => ∀ i < b.numExcInt, s.IrqOk b i)
    (fun _ _ _ hs horderly hstep => lockStep_irqOk hs horderly hstep) fun i hi => by
      obtain ⟨hmark, hbit⟩ := hoff i hi
      left
      rw [State.Copied, hbit]
      show 0 = if (s₀.intHandler i).enabled then (1 : Word) else 0
      rw [hmark]
      rfl
  rw [lockTransparent_iff]
  intro i hi _
  rcases hok i hi with hcopied | ⟨-, -, c, hlocked, -⟩
  · exact hcopied
  · exact absurd ((hfree c).symm.trans hlocked) Bool.false_ne_true

def lockTable : List ContainerConfig :=
  [sampleHost, sampleGuest [⟨0x4000, 16, acIrq⟩]]

def lockStart : LockState :=
  match vmpuInitPost .v1Mpu2 (secureshieldIntInit .v1Mpu2 State.blank) lockTable with
  | .ok st => { st, locked := fun _ => false }
  | .error _ => { st := State.blank, locked := fun _ => false }

theorem LockReached.of_start {ok : LockState → LockEvent → Prop} {es : List LockEvent}
    {s : LockState} (h : Runs (lockStep .v1Mpu2) ok lockStart es s) : LockReached .v1Mpu2 ok s :=
  ⟨State.blank.hw, State.blank.mem, State.blank.call, lockTable, lockStart.st, es, rfl, h⟩

theorem locked_unlocked : Function.update (Function.update (fun _ : Nat => false) 1 true) 1 false =
    fun _ => false := by
  rw [Function.update_idem]
  exact Function.update_eq_self 1 fun _ => false

theorem cpu_lock_transparent_owner : ∃ s, LockReached .v1Mpu2 (Orderly .v1Mpu2) s ∧
    (∀ c, s.locked c = false) ∧ s.st.enableBit .v1Mpu2 0 = 1 ∧ LockTransparent .v1Mpu2 s.st := by
  have hrun : Runs (lockStep .v1Mpu2) (Orderly .v1Mpu2) lockStart
      [.request ⟨1, 2, 16, 0⟩, .request ⟨1, 10, 0, 0⟩, .request ⟨1, 11, 0, 0⟩] _ :=
    .cons (fun h => absurd h (by decide)) rfl (.cons (fun h => absurd h (by decide)) rfl
      (.cons (fun h => absurd h (by decide)) rfl (.nil _)))
  have hreached := LockReached.of_start hrun
  have hfree := congrFun locked_unlocked
  exact ⟨_, hreached, hfree, rfl, cpu_lock_transparent hreached hfree⟩

/-- Only interrupts that are on arrive. -/
def Arrives (s : LockState) : LockEvent → Prop
  | .request _ => True
  | .arrive cause _ => (s.st.hw.irq cause).enable = 1

/-- An interrupt that is off, and is turned on by a lock and an unlock of its owner: it has arrived
while it had no handler, or its handler was removed under a lock. -/
theorem cpu_unlock_enables :
    (∃ s, LockReached .v1Mpu2 Arrives s ∧ (∀ c, s.locked c = false) ∧
      ¬ LockTransparent .v1Mpu2 s.st) ∧
    ∃ s, LockReached .v1Mpu2 (fun _ e => ∃ q, e = .request q) s ∧ (∀ c, s.locked c = false) ∧
      ¬ LockTransparent .v1Mpu2 s.st := by
  have hbroken {s : LockState} (hhandler : (s.st.intHandler 0).handler ≠ 0)
      (hmark : (s.st.intHandler 0).enabled = true) (hbit : s.st.enableBit .v1Mpu2 0 = 0) :
      ¬ LockTransparent .v1Mpu2 s.st := by
    rw [lockTransparent_iff]
    intro h
    have hcopied := h 0 (by decide) hhandler
    rw [State.Copied, hbit, hmark] at hcopied
    exact absurd hcopied (by decide)
  constructor
  · have hrun : Runs (lockStep .v1Mpu2) Arrives lockStart
        [.request ⟨1, 2, 16, 0⟩, .request ⟨1, 1, 16, 0⟩, .arrive 16 0x500,
          .request ⟨1, 1, 16, 0x4000⟩] _ :=
      .cons trivial rfl (.cons trivial rfl (.cons rfl rfl (.cons trivial rfl (.nil _))))
    exact ⟨_, .of_start hrun, fun _ => rfl, hbroken (by decide) rfl rfl⟩
  · have hrun : Runs (lockStep .v1Mpu2) (fun _ e => ∃ q, e = .request q) lockStart
        [.request ⟨1, 2, 16, 0⟩, .request ⟨1, 10, 0, 0⟩, .request ⟨1, 1, 16, 0⟩,
          .request ⟨1, 11, 0, 0⟩, .request ⟨1, 1, 16, 0x4000⟩] _ :=
      .cons ⟨_, rfl⟩ rfl (.cons ⟨_, rfl⟩ rfl (.cons ⟨_, rfl⟩ rfl (.cons ⟨_, rfl⟩ rfl
        (.cons ⟨_, rfl⟩ rfl (.nil _)))))
    exact ⟨_, .of_start hrun, congrFun locked_unlocked, hbroken (by decide) rfl rfl⟩

end Embarc
