/-
What the handlers of calls and interrupts do.

Every handler leaves the current container for another one, lets it return, or does
nothing to the runtime.  `Left`, `Returned` and `RuntimeSame` say so field by field, for
the container stack and the contexts; the lemmas about the handlers add what happens to the
active container, to memory and to the stack pointer the handler asks to continue at.  The
proofs about runs use these and do not look into the handlers again.
-/
import Embarc.Proofs.Setup
import Embarc.SecureShield.Sjli

namespace Embarc

/-! ### What the parts of a handler change -/

/-- The container stack, the contexts and the interrupt table are as they were; the stack
pointer of the normal world in a context may have changed. -/
structure RuntimeSame (s s' : State) : Prop where
  ptr : s'.stackPtr = s.stackPtr
  stack : s'.stack = s.stack
  curr : s'.stackCurrId = s.stackCurrId
  count : s'.containerCount = s.containerCount
  intHandler : s'.intHandler = s.intHandler
  curSp : ∀ d, (s'.context d).curSp = (s.context d).curSp
  cpuStatus : ∀ d, (s'.context d).cpuStatus = (s.context d).cpuStatus
  cfg : ∀ d, (s'.context d).cfg = (s.context d).cfg

/-- The context of the current container takes a stack pointer and a status. -/
structure Recorded (s s' : State) (sp : Addr) (status : Word) : Prop where
  count : s'.containerCount = s.containerCount
  intHandler : s'.intHandler = s.intHandler
  curSp : ∀ d, (s'.context d).curSp = if d = s.stackCurrId then sp else (s.context d).curSp
  cpuStatus : ∀ d, (s'.context d).cpuStatus =
    if d = s.stackCurrId then status else (s.context d).cpuStatus
  cfg : ∀ d, (s'.context d).cfg = (s.context d).cfg

/-- The current container has been left for `dst`, at a stack pointer and with a status. -/
structure Left (s s' : State) (sp : Addr) (status : Word) (dst : Nat) : Prop
    extends Recorded s s' sp status where
  room : s.stackPtr ≠ containerStackMaxDepth
  ptr : s'.stackPtr = s.stackPtr + 1
  stack : s'.stack = Function.update s.stack s.stackPtr ⟨s.stackCurrId, sp⟩
  curr : s'.stackCurrId = dst

variable {normalSp r0 status : Word} {p : State}

/-- The current container has returned, with a stack pointer and a status. -/
structure Returned (s s' : State) (sp : Addr) (status : Word) : Prop
    extends Recorded s s' sp status where
  ptr : s.stackPtr = s'.stackPtr + 1
  stack : s'.stack = s.stack
  curr : s'.stackCurrId = (s.stack s'.stackPtr).srcId

section
variable {b : Build} {s s' s'' : State} {sp : Addr} {status : Word} {dst : Nat}

theorem RuntimeSame.setHw (s : State) (hw : Hw) : RuntimeSame s { s with hw := hw } :=
  ⟨rfl, rfl, rfl, rfl, rfl, fun _ => rfl, fun _ => rfl, fun _ => rfl⟩

theorem RuntimeSame.trans (h : RuntimeSame s s') (h' : RuntimeSame s' s'') : RuntimeSame s s'' :=
  ⟨h'.ptr.trans h.ptr, h'.stack.trans h.stack, h'.curr.trans h.curr, h'.count.trans h.count,
    h'.intHandler.trans h.intHandler, fun d => (h'.curSp d).trans (h.curSp d),
    fun d => (h'.cpuStatus d).trans (h.cpuStatus d), fun d => (h'.cfg d).trans (h.cfg d)⟩

theorem Recorded.same (h : Recorded s s' sp status) (h' : RuntimeSame s' s'') :
    Recorded s s'' sp status :=
  ⟨h'.count.trans h.count, h'.intHandler.trans h.intHandler,
    fun d => (h'.curSp d).trans (h.curSp d), fun d => (h'.cpuStatus d).trans (h.cpuStatus d),
    fun d => (h'.cfg d).trans (h.cfg d)⟩

theorem RuntimeSame.recorded (h : RuntimeSame s s') (h' : Recorded s' s'' sp status) :
    Recorded s s'' sp status where
  count := h'.count.trans h.count
  intHandler := h'.intHandler.trans h.intHandler
  curSp := fun d => by rw [h'.curSp, h.curr, h.curSp]
  cpuStatus := fun d => by rw [h'.cpuStatus, h.curr, h.cpuStatus]
  cfg := fun d => (h'.cfg d).trans (h.cfg d)

theorem Left.same (h : Left s s' sp status dst) (h' : RuntimeSame s' s'') :
    Left s s'' sp status dst :=
  ⟨h.toRecorded.same h', h.room, h'.ptr.trans h.ptr, h'.stack.trans h.stack, h'.curr.trans h.curr⟩

theorem RuntimeSame.left (h : RuntimeSame s s') (h' : Left s' s'' sp status dst) :
    Left s s'' sp status dst where
  toRecorded := h.recorded h'.toRecorded
  room := h.ptr ▸ h'.room
  ptr := by rw [h'.ptr, h.ptr]
  stack := by rw [h'.stack, h.stack, h.ptr, h.curr]
  curr := h'.curr

theorem Returned.same (h : Returned s s' sp status) (h' : RuntimeSame s' s'') :
    Returned s s'' sp status where
  toRecorded := h.toRecorded.same h'
  ptr := by rw [h'.ptr, h.ptr]
  stack := h'.stack.trans h.stack
  curr := by rw [h'.curr, h.curr, h'.ptr]

theorem RuntimeSame.returned (h : RuntimeSame s s') (h' : Returned s' s'' sp status) :
    Returned s s'' sp status where
  toRecorded := h.recorded h'.toRecorded
  ptr := by rw [← h.ptr, h'.ptr]
  stack := h'.stack.trans h.stack
  curr := by rw [h'.curr, h.stack]

theorem vmpuSwitch_eq (h : vmpuSwitch b s dst = .ok s') :
    ∃ mpuSlot mpu vmpuLoad slots, s' = { s with
      activeContainer := dst, mpuSlot, mpu, vmpuLoad, hw := { s.hw with mpu := slots } } := by
  unfold vmpuSwitch at h
  split_ifs at h
  · unfold vmpuSwitchSid at h
    cases hload : s.vmpuLoad with
    | true =>
      simp only [hload, if_true] at h
      exact ⟨_, _, true, _, (Except.ok.inj h).symm⟩
    | false =>
      simp only [hload, Bool.false_eq_true, if_false] at h
      obtain ⟨_, -, h⟩ := Except.bind_eq_ok_iff.mp h
      exact ⟨_, _, _, _, (Except.ok.inj h).symm⟩
  · obtain ⟨_, -, h⟩ := Except.bind_eq_ok_iff.mp h
    exact ⟨_, _, s.vmpuLoad, _, (Except.ok.inj h).symm⟩

/-- A switch of the MPU: the container is active, and memory and registers are as they were. -/
theorem vmpuSwitch_same (h : vmpuSwitch b s dst = .ok s') :
    s'.activeContainer = dst ∧ RuntimeSame s s' ∧ s'.mem = s.mem ∧ s'.hw.aux = s.hw.aux := by
  obtain ⟨_, _, _, _, rfl⟩ := vmpuSwitch_eq h
  exact ⟨rfl, { RuntimeSame.setHw s s.hw with }, rfl, rfl⟩

theorem containerStackPush_ok
    (h : containerStackPush s s.stackCurrId sp normalSp status dst = .ok s') :
    Left s s' sp status dst ∧ s'.mem = s.mem ∧ s'.hw = s.hw ∧
      s'.activeContainer = s.activeContainer := by
  simp only [containerStackPush, Except.bind_eq_ok_iff, haltIf_eq_ok] at h
  obtain ⟨_, hroom, h⟩ := h
  cases h
  refine ⟨⟨⟨rfl, rfl, ?_, ?_, ?_⟩, hroom, rfl, rfl, rfl⟩, rfl, rfl, rfl⟩ <;>
    (intro d; by_cases hd : d = s.stackCurrId <;> simp [hd])

theorem containerStackPop_ok (h : containerStackPop s s.stackCurrId sp normalSp status = .ok s') :
    Returned s s' sp status ∧ s'.mem = s.mem ∧ s'.hw = s.hw ∧
      s'.activeContainer = s.activeContainer := by
  simp only [containerStackPop, Except.bind_eq_ok_iff, haltIf_eq_ok] at h
  obtain ⟨_, hne, h⟩ := h
  cases h
  have hptr : s.stackPtr = s.stackPtr - 1 + 1 := (Nat.succ_pred_eq_of_ne_zero hne).symm
  refine ⟨⟨⟨rfl, rfl, ?_, ?_, ?_⟩, hptr, rfl, rfl⟩, rfl, rfl, rfl⟩ <;>
    (intro d; by_cases hd : d = s.stackCurrId <;> simp [hd])

def MemOnly (s s' : State) : Prop := ∃ mem, s' = { s with mem := mem }

theorem MemOnly.trans (h : MemOnly s s') (h' : MemOnly s' s'') : MemOnly s s'' := by
  obtain ⟨mem, rfl⟩ := h
  obtain ⟨mem', rfl⟩ := h'
  exact ⟨mem', rfl⟩

theorem MemOnly.setExc (h : MemOnly s s') {frame : Addr} {r : ExcReg} {val : Word} :
    MemOnly s (s'.setExc b frame r val) := h.trans ⟨_, rfl⟩

theorem MemOnly.same (h : MemOnly s s') : RuntimeSame s s' := by
  obtain ⟨mem, rfl⟩ := h
  exact { RuntimeSame.setHw s s.hw with }

theorem createCallFrame_memOnly (b : Build) (s : State) (srcFrame dstFrame srcArgs : Addr)
    (t : CallTarget) : MemOnly s (createCallFrame b s srcFrame dstFrame srcArgs t) := by
  have h : MemOnly s s := ⟨s.mem, rfl⟩
  refine MemOnly.trans ?_ ⟨_, rfl⟩
  unfold createCallRegs
  cases b.smallData <;> cases b.version
  · exact h.setExc.setExc.setExc.setExc
  · exact h.setExc.setExc.setExc
  · exact h.setExc.setExc.setExc.setExc.setExc
  · exact h.setExc.setExc.setExc.setExc

theorem keepNormalSp_same (s : State) (srcId : Nat) :
    RuntimeSame s (keepNormalSp s srcId) ∧ (keepNormalSp s srcId).mem = s.mem ∧
      (keepNormalSp s srcId).hw = s.hw ∧
      (keepNormalSp s srcId).activeContainer = s.activeContainer := by
  unfold keepNormalSp
  split_ifs
  · refine ⟨⟨rfl, rfl, rfl, rfl, rfl, ?_, ?_, ?_⟩, rfl, rfl, rfl⟩ <;>
      (intro d; by_cases hd : d = 0 <;> simp [setContext, hd])
  · exact ⟨.setHw s s.hw, rfl, rfl, rfl⟩

end

/-! ### Calls -/

section
variable {b : Build} {s s' : State} {frame target : Addr} {t : CallTarget}

/-- What the checks of a call say about its target. -/
structure CallChecked (s : State) (t : CallTarget) : Prop where
  background : t.dstId ≠ 0
  count : t.dstId < s.containerCount
  other : t.dstId ≠ s.stackCurrId

theorem callTarget_ok {c : ContainerCall} (h : callTarget b s c r0 = .ok t) : CallChecked s t := by
  simp only [callTarget, containerCallGetDstId, Except.bind_eq_ok_iff, haltIf_eq_ok] at h
  obtain ⟨_, -, dst, ⟨_, hdst, hid⟩, _, hsame, iface, -, _, -, h⟩ := h
  cases hid
  cases h
  exact ⟨fun h0 => hdst (Or.inl h0), Nat.lt_of_not_le fun hle => hdst (Or.inr hle),
    fun heq => hsame heq.symm⟩

theorem callTargetSid_ok {dstFn cfgPtr : Word} (h : callTargetSid b s dstFn cfgPtr r0 = .ok t) :
    CallChecked s t := by
  simp only [callTargetSid, Except.bind_eq_ok_iff, haltIf_eq_ok] at h
  obtain ⟨_, hdst, _, hsame, iface, -, _, -, h⟩ := h
  cases h
  exact ⟨fun h0 => hdst (Or.inl h0), Nat.lt_of_not_le fun hle => hdst (Or.inr hle),
    fun heq => hsame heq.symm⟩

/-- What a call that goes through has done.  `p` is the state the frame is built in; version
2 adds a stack pointer to the callee registers of the frame. -/
structure CallEntered (b : Build) (s s' : State) (frame target srcArgs : Addr) (t : CallTarget) :
    Prop where
  checked : CallChecked s t
  left : Left s s' (frame - arcCalleeFrameSize b) (s.exc b frame .status32) t.dstId
  active : s'.activeContainer = t.dstId
  goesTo : target = (s'.context t.dstId).curSp
  mem : ∃ p : State, p.mem = s.mem ∧
    (p.context t.dstId).cpuStatus = (s'.context t.dstId).cpuStatus ∧
    (s'.mem = (createCallFrame b p frame target srcArgs t).mem ∨
      b.version = .v2 ∧ ∃ val, s'.mem = Function.update
        (createCallFrame b p frame target srcArgs t).mem (target + calleeOfs b .kernelSp) val)
  aux : s'.hw.aux = s.hw.aux

theorem trapContainerCallIn_ok (h : trapContainerCallIn b s frame = .ok (target, s')) :
    (arcIntActive s.hw = true ∧ target = 0 ∧ s' = s) ∨ arcIntActive s.hw ≠ true ∧
      ∃ t, callTarget b s (s.call (s.exc b frame .ret - 2)) (s.exc b frame .r0) = .ok t ∧
        CallEntered b s s' frame target (frame + excOfs b .r1) t := by
  unfold trapContainerCallIn at h
  split_ifs at h with hint
  · cases h
    exact Or.inl ⟨hint, rfl, rfl⟩
  · simp only [Except.bind_eq_ok_iff] at h
    obtain ⟨t, ht, p, hpush, s₂, hswitch, h⟩ := h
    obtain ⟨hleft, hmem, hhw, -⟩ := containerStackPush_ok hpush
    cases h
    obtain ⟨hactive, hsame, hmem', haux⟩ := vmpuSwitch_same hswitch
    have hframe := createCallFrame_memOnly b p frame (p.context t.dstId).curSp
      (frame + excOfs b .r1) t
    have hall := hframe.same.trans hsame
    refine Or.inr ⟨hint, t, ht, callTarget_ok ht, hleft.same hall, hactive, (hall.curSp _).symm,
      ⟨p, hmem, (hall.cpuStatus _).symm, Or.inl hmem'⟩, ?_⟩
    obtain ⟨mem, hframe⟩ := hframe
    rw [haux, hframe, hhw]

theorem sjliTarget_ok (h : sjliTarget b s frame = .ok t) : CallChecked s t := by
  unfold sjliTarget at h
  split_ifs at h
  · exact callTargetSid_ok h
  · exact callTarget_ok h

theorem containerCallIn_ok (hv : b.version = .v2)
    (h : containerCallIn b s frame = .ok (target, s')) :
    (arcIntActive s.hw = true ∧ target = 0 ∧ s' = s) ∨ arcIntActive s.hw ≠ true ∧
      ∃ t, sjliTarget b s frame = .ok t ∧
        CallEntered b s s' frame target (frame + excOfs b (sjliArgs b)) t := by
  unfold containerCallIn at h
  split_ifs at h with hint
  · cases h
    exact Or.inl ⟨hint, rfl, rfl⟩
  · simp only [Except.bind_eq_ok_iff] at h
    obtain ⟨t, ht, p₀, hpush, s₂, hswitch, h⟩ := h
    have hchecked := sjliTarget_ok ht
    obtain ⟨hleft, hmem, hhw, -⟩ := containerStackPush_ok hpush
    obtain ⟨hkeep, hkmem, hkhw, -⟩ := keepNormalSp_same p₀ s.stackCurrId
    obtain ⟨hactive, hsame, hmem', haux⟩ := vmpuSwitch_same hswitch
    have hframe := createCallFrame_memOnly b (keepNormalSp p₀ s.stackCurrId) frame
      ((keepNormalSp p₀ s.stackCurrId).context t.dstId).curSp (frame + excOfs b (sjliArgs b)) t
    have hall := hframe.same.trans hsame
    have haux' : s₂.hw.aux = s.hw.aux := by
      obtain ⟨mem, hframe⟩ := hframe
      rw [haux, hframe, hkhw, hhw]
    cases h
    refine Or.inr ⟨hint, t, ht, ?_⟩
    -- the stack pointer of the normal world goes into the callee registers of a secure container
    split_ifs
    · exact ⟨hchecked, (hleft.same hkeep).same (hall.trans (MemOnly.same ⟨_, rfl⟩)), hactive,
        (hall.curSp _).symm, ⟨keepNormalSp p₀ s.stackCurrId, hkmem.trans hmem,
        (hall.cpuStatus _).symm, Or.inr ⟨hv, _, congrArg (Function.update · _ _) hmem'⟩⟩, haux'⟩
    · exact ⟨hchecked, (hleft.same hkeep).same hall, hactive, (hall.curSp _).symm,
        ⟨keepNormalSp p₀ s.stackCurrId, hkmem.trans hmem, (hall.cpuStatus _).symm,
        Or.inl hmem'⟩, haux'⟩

/-- What a return from a call has done.  The frame is the exception frame of the container
that returns; the result goes into the frame of the one that is returned to. -/
structure CallReturned (b : Build) (s s' : State) (frame target : Addr) (status : Word) : Prop where
  returned : Returned s s' (frame - arcCalleeFrameSize b) status
  active : s'.activeContainer = s'.stackCurrId
  goesTo : target = (s.stack s'.stackPtr).srcSp
  mem : s'.mem = Function.update s.mem (target + arcCalleeFrameSize b + excOfs b .r0)
    (s.exc b frame .r0)
  aux : s'.hw.aux = s.hw.aux

theorem CallReturned.of_switch (hret : Returned s p (frame - arcCalleeFrameSize b) status)
    (hmem : p.mem = s.mem) (hhw : p.hw = s.hw)
    (hswitch : vmpuSwitch b (p.setExc b ((p.stack p.stackPtr).srcSp + arcCalleeFrameSize b) .r0
      (p.exc b frame .r0)) (p.stack p.stackPtr).srcId = .ok s') :
    CallReturned b s s' frame (p.stack p.stackPtr).srcSp status := by
  obtain ⟨hactive, hsame, hmem', haux⟩ := vmpuSwitch_same hswitch
  have hptr : s'.stackPtr = p.stackPtr := hsame.ptr
  have hcurr : s'.stackCurrId = p.stackCurrId := hsame.curr
  refine ⟨hret.same ((MemOnly.same ⟨_, rfl⟩ : RuntimeSame p _).trans hsame), ?_, ?_, ?_, ?_⟩
  · rw [hactive, hcurr, hret.curr, hret.stack]
  · rw [hptr, hret.stack]
  · rw [hmem']
    show Function.update p.mem _ (p.mem _) = _
    rw [hmem]
    rfl
  · rw [haux]
    exact congrArg Hw.aux hhw

theorem trapContainerCallOut_ok (h : trapContainerCallOut b s frame = .ok (target, s')) :
    CallReturned b s s' frame target (s.exc b frame .status32) := by
  simp only [trapContainerCallOut, Except.bind_eq_ok_iff] at h
  obtain ⟨p, hpop, s₂, hswitch, h⟩ := h
  obtain ⟨hret, hmem, hhw, -⟩ := containerStackPop_ok hpop
  cases h
  exact CallReturned.of_switch hret hmem hhw hswitch

theorem containerCallOut_ok {dst : Addr} (h : containerCallOut b s dst = .ok (target, s')) :
    CallReturned b s s' (dst + arcCalleeFrameSize b) target (arcAuxRead s.hw auxStatus32) := by
  simp only [containerCallOut, Except.bind_eq_ok_iff] at h
  obtain ⟨p, hpop, s₂, hswitch, h⟩ := h
  obtain ⟨hret, hmem, hhw, -⟩ := containerStackPop_ok hpop
  cases h
  rw [← Nat.add_sub_cancel (n := dst) (m := arcCalleeFrameSize b)] at hret
  exact CallReturned.of_switch hret hmem hhw hswitch

end

/-! ### Interrupts -/

section
variable {b : Build} {s s' : State} {frame target : Addr} {dst : Nat} {handler : Word}

/-- What delivering an interrupt to a container has done.  Before it leaves, the handler
clears a field of the frame. -/
structure IrqEntered (b : Build) (s s' : State) (frame target : Addr) (dst : Nat) (handler : Word) :
    Prop where
  left : Left s s' (frame - arcCalleeFrameSize b)
    ((s.setExc b frame .erbta 0).exc b frame .status32) dst
  active : s'.activeContainer = dst ∨
    dst = s.stackCurrId ∧ s'.activeContainer = s.activeContainer
  goesTo : target = (s'.context dst).curSp
  mem : s'.mem = (s.setExc b frame .erbta 0).mem
  erret : s'.hw.aux auxErret = handler
  erstatus : s'.hw.aux auxErstatus = (s'.context dst).cpuStatus
  userSp : s'.hw.aux auxUserSp = s.hw.aux auxUserSp

/-- Nothing but the memory of the frame and hardware registers has changed. -/
structure IrqIgnored (b : Build) (s s' : State) (frame target : Addr) : Prop where
  same : RuntimeSame s s'
  active : s'.activeContainer = s.activeContainer
  goesTo : target = 0
  mem : s'.mem = s.mem ∨ s'.mem = (s.setExc b frame .erbta 0).mem

/-- The last steps of both ways to enter a handler: the exception return registers are set. -/
theorem IrqEntered.of_push {userSp : Word}
    (hleft : Left s p (frame - arcCalleeFrameSize b)
      ((s.setExc b frame .erbta 0).exc b frame .status32) dst)
    (hactive : p.activeContainer = dst ∨
      dst = s.stackCurrId ∧ p.activeContainer = s.activeContainer)
    (hmem : p.mem = (s.setExc b frame .erbta 0).mem) (hhw : p.hw.aux = s.hw.aux)
    (hstatus : status = (p.context dst).cpuStatus) :
    IrqEntered b s { p with
      hw := arcAuxWrite (arcAuxWrite p.hw auxErret handler) auxErstatus status
      dstContainerUserSp := userSp } frame (p.context dst).curSp dst handler := by
  have haux : (arcAuxWrite (arcAuxWrite p.hw auxErret handler) auxErstatus status).aux =
      Function.update (Function.update s.hw.aux auxErret handler) auxErstatus status := by
    rw [← hhw]
    rfl
  refine ⟨hleft.same { RuntimeSame.setHw p p.hw with }, hactive, rfl, hmem,
    (congrFun haux _).trans ?_, (congrFun haux _).trans ?_, (congrFun haux _).trans ?_⟩
  · have hne : auxErret ≠ auxErstatus := by decide
    rw [Function.update_of_ne hne, Function.update_self]
  · rw [Function.update_self]
    exact hstatus
  · have hne : auxUserSp ≠ auxErstatus := by decide
    have hne' : auxUserSp ≠ auxErret := by decide
    rw [Function.update_of_ne hne, Function.update_of_ne hne']

theorem interruptDeliver_ok (h : interruptDeliver b s frame dst handler = .ok (target, s')) :
    ¬(s.stackCurrId = dst ∧
        containerIsSecure (s.setExc b frame .erbta 0) s.stackCurrId = true) ∧
        IrqEntered b s s' frame target dst handler ∨
      (s.stackCurrId = dst ∧
        containerIsSecure (s.setExc b frame .erbta 0) s.stackCurrId = true) ∧
        IrqIgnored b s s' frame target := by
  have hsame : RuntimeSame s (s.setExc b frame .erbta 0) := MemOnly.same ⟨_, rfl⟩
  unfold interruptDeliver at h
  simp only at h
  split_ifs at h with hother hsecure
  · simp only [Except.bind_eq_ok_iff] at h
    obtain ⟨s₁, hswitch, p, hpush, h⟩ := h
    obtain ⟨hactive, hsame₁, hmem₁, haux₁⟩ := vmpuSwitch_same hswitch
    have hcurr : s.stackCurrId = s₁.stackCurrId := (hsame.trans hsame₁).curr.symm
    rw [hcurr] at hpush
    obtain ⟨hleft, hmem, hhw, hactive'⟩ := containerStackPush_ok hpush
    cases h
    refine Or.inl ⟨fun hhere => hother hhere.1, ?_⟩
    exact IrqEntered.of_push ((hsame.trans hsame₁).left hleft) (Or.inl (hactive'.trans hactive))
      (hmem.trans hmem₁) (by rw [hhw, haux₁]; rfl) rfl
  · cases h
    exact Or.inr ⟨⟨not_not.mp hother, hsecure⟩, hsame.trans (RuntimeSame.setHw _ _), rfl, rfl,
      Or.inr rfl⟩
  · simp only [Except.bind_eq_ok_iff] at h
    obtain ⟨p, hpush, h⟩ := h
    obtain ⟨hleft, hmem, hhw, hactive⟩ :=
      containerStackPush_ok (s := s.setExc b frame .erbta 0) hpush
    cases h
    have hdst : dst = s.stackCurrId := (not_not.mp hother).symm
    refine Or.inl ⟨fun hhere => hsecure hhere.2, ?_⟩
    refine IrqEntered.of_push (hsame.left hleft) (Or.inr ⟨hdst, hactive⟩) hmem (by rw [hhw]; rfl) ?_
    rw [hleft.cpuStatus, if_pos (hdst.trans hsame.curr.symm)]

theorem clearHint_userSp (hw : Hw) (cause : Word) :
    (clearHint hw cause).aux auxUserSp = hw.aux auxUserSp := by
  have hne : auxUserSp ≠ auxIrqHint := by decide
  unfold clearHint
  split_ifs
  · show Function.update hw.aux auxIrqHint 0 auxUserSp = _
    rw [Function.update_of_ne hne]
  · rfl

/-- Whether the interrupt that arrives changes containers: it has a handler, and the handler is not
called right here, as a function of the container that is interrupted. -/
def State.IrqSwitches (s : State) (b : Build) (frame : Addr) : Prop :=
  secureIntDefaultCheck b (arcAuxRead s.hw auxIrqCause) = true ∧
    (s.irq b (arcAuxRead s.hw auxIrqCause)).handler ≠ 0 ∧
    (s.stackCurrId = (s.irq b (arcAuxRead s.hw auxIrqCause)).id →
      b.version = .v1 ∧ containerIsSecure (s.setExc b frame .erbta 0) s.stackCurrId = false)

instance (s : State) (b : Build) (frame : Addr) : Decidable (s.IrqSwitches b frame) :=
  inferInstanceAs (Decidable (_ ∧ _))

theorem State.irqSwitches_iff : s.IrqSwitches b frame ↔
    ¬(!secureIntDefaultCheck b (arcAuxRead s.hw auxIrqCause) ||
      (s.irq b (arcAuxRead s.hw auxIrqCause)).handler == 0) = true ∧
    (s.stackCurrId = (s.irq b (arcAuxRead s.hw auxIrqCause)).id →
      b.version = .v1 ∧ containerIsSecure (s.setExc b frame .erbta 0) s.stackCurrId = false) := by
  rw [State.IrqSwitches, ← and_assoc]
  simp

/-- An interrupt is ignored, or delivered to its owner. -/
theorem secureshieldInterruptHandle_ok (hv : b.version = .v1)
    (h : secureshieldInterruptHandle b s frame = .ok (target, s')) :
    ¬ s.IrqSwitches b frame ∧ IrqIgnored b s s' frame target ∨ s.IrqSwitches b frame ∧
      IrqEntered b s s' frame target (s.irq b (arcAuxRead s.hw auxIrqCause)).id
        (s.irq b (arcAuxRead s.hw auxIrqCause)).handler := by
  rw [State.irqSwitches_iff]
  unfold secureshieldInterruptHandle at h
  simp only at h
  split_ifs at h with hcheck
  · cases h
    exact Or.inl ⟨fun hon => hon.1 hcheck, RuntimeSame.setHw _ _, rfl, rfl, Or.inl rfl⟩
  · have hsame := RuntimeSame.setHw s (clearHint s.hw (arcAuxRead s.hw auxIrqCause))
    rcases interruptDeliver_ok h with ⟨hon, hin⟩ | ⟨hhere, hignored⟩
    · refine Or.inr ⟨⟨hcheck, fun hcurr => ⟨hv, ?_⟩⟩, ?_⟩
      · exact Bool.eq_false_iff.mpr fun hsecure => hon ⟨hcurr, hsecure⟩
      exact ⟨hsame.left hin.left, hin.active, hin.goesTo, hin.mem, hin.erret, hin.erstatus,
        hin.userSp.trans (clearHint_userSp ..)⟩
    · refine Or.inl ⟨fun hon => ?_, { hignored with same := hsame.trans hignored.same }⟩
      exact absurd hhere.2 (Bool.eq_false_iff.mp (hon.2 hhere.1).2)

structure IrqReturned (b : Build) (s s' : State) (frame target : Addr) : Prop where
  returned : Returned s s' (frame + arcExcFrameSize b) (s.exc b frame .status32)
  active : s'.activeContainer = s'.stackCurrId ∨
    s'.stackCurrId = s.stackCurrId ∧ s'.activeContainer = s.activeContainer
  goesTo : target = (s.stack s'.stackPtr).srcSp
  mem : s'.mem = s.mem

theorem secureshieldIntReturn_ok (h : secureshieldIntReturn b s frame = .ok (target, s')) :
    IrqReturned b s s' frame target := by
  obtain ⟨p, hpop, h⟩ := Except.bind_eq_ok_iff.mp h
  obtain ⟨hret, hmem, -, hactive⟩ := containerStackPop_ok hpop
  have hcurr : p.stackCurrId = (p.stack p.stackPtr).srcId := by rw [hret.curr, hret.stack]
  simp only at h
  split_ifs at h with hother
  · obtain ⟨p', hswitch, h⟩ := Except.bind_eq_ok_iff.mp h
    cases h
    obtain ⟨hactive', hsame, hmem', -⟩ := vmpuSwitch_same hswitch
    have hsame' := hsame.trans (RuntimeSame.setHw p' (irqActQuit p'.hw))
    refine ⟨hret.same hsame', Or.inl ?_, ?_, hmem'.trans hmem⟩
    · show p'.activeContainer = p'.stackCurrId
      rw [hactive', hsame.curr, hcurr]
    · show (p.stack p.stackPtr).srcSp = (s.stack p'.stackPtr).srcSp
      rw [hsame.ptr, hret.stack]
  · obtain ⟨p', hp', h⟩ := Except.bind_eq_ok_iff.mp h
    obtain rfl := Except.ok.inj hp'
    cases h
    refine ⟨hret.same (RuntimeSame.setHw p _), Or.inr ⟨?_, hactive⟩, ?_, hmem⟩
    · exact hcurr.trans (not_not.mp hother)
    · show (p.stack p.stackPtr).srcSp = (s.stack p.stackPtr).srcSp
      rw [hret.stack]

theorem sjliInterruptHandle_ok (hv : b.version = .v2)
    (h : sjliInterruptHandle b s frame = .ok (target, s')) :
    (¬ s.IrqSwitches b frame ∧ RuntimeSame s s' ∧ s'.activeContainer = s.activeContainer) ∨
      s.IrqSwitches b frame ∧ ∃ status dst, Left s s' (frame - arcCalleeFrameSize b) status dst ∧
        s'.activeContainer = dst := by
  rw [State.irqSwitches_iff, hv]
  unfold sjliInterruptHandle at h
  simp only at h
  split_ifs at h with hcheck
  · cases h
    exact Or.inl ⟨fun hon => hon.1 hcheck, RuntimeSame.setHw _ _, rfl⟩
  · have hhint := RuntimeSame.setHw s (clearHint s.hw (arcAuxRead s.hw auxIrqCause))
    unfold sjliInterruptDeliver at h
    simp only at h
    split_ifs at h with hother
    · simp only [Except.bind_eq_ok_iff] at h
      obtain ⟨s₁, hswitch, p, hpush, h⟩ := h
      obtain ⟨hactive, hsame₁, -, -⟩ := vmpuSwitch_same hswitch
      have hcurr : s.stackCurrId = s₁.stackCurrId := (hhint.trans hsame₁).curr.symm
      rw [hcurr] at hpush h
      obtain ⟨hleft, -, -, hactive'⟩ := containerStackPush_ok hpush
      obtain ⟨hkeep, -, -, hactive''⟩ := keepNormalSp_same p s₁.stackCurrId
      cases h
      exact Or.inr ⟨⟨hcheck, fun hhere => absurd hhere hother⟩, _, _,
        (hhint.trans hsame₁).left ((hleft.same hkeep).same (MemOnly.same ⟨_, rfl⟩)),
        (hactive''.trans hactive').trans hactive⟩
    · cases h
      exact Or.inl ⟨fun hon => Version.noConfusion (hon.2 (not_not.mp hother)).1,
        RuntimeSame.setHw _ _, rfl⟩

theorem secureshieldInterruptHandleReturn_ok
    (h : secureshieldInterruptHandleReturn b s frame = .ok (target, s')) :
    Returned s s' frame (arcAuxRead s.hw auxStatus32) ∧ s'.activeContainer = s'.stackCurrId := by
  simp only [secureshieldInterruptHandleReturn, Except.bind_eq_ok_iff] at h
  obtain ⟨p, hpop, p', hswitch, h⟩ := h
  obtain ⟨hret, -, -, -⟩ := containerStackPop_ok hpop
  cases h
  obtain ⟨hactive, hsame, -, -⟩ := vmpuSwitch_same hswitch
  refine ⟨hret.same hsame, ?_⟩
  rw [hactive, hsame.curr, hret.curr, hret.stack]

end

/-! ### Services -/

section
variable {b : Build} {s : State}

/-- Only registers and the interrupt table have changed, and every owner of an interrupt is an
old one, the active container or the background container. -/
def IrqTableOnly (s s' : State) : Prop :=
  ∃ hw table, s' = { s with hw := hw, intHandler := table } ∧
    ∀ i, (table i).id = (s.intHandler i).id ∨ (table i).id = s.activeContainer ∨ (table i).id = 0

theorem IrqTableOnly.setHw (s : State) (hw : Hw) : IrqTableOnly s { s with hw := hw } :=
  ⟨hw, s.intHandler, rfl, fun _ => Or.inl rfl⟩

theorem IrqTableOnly.setIrq (s : State) (hw : Hw) (intno : Word) {h : IntHandler}
    (hid : h.id = (s.irq b intno).id ∨ h.id = s.activeContainer ∨ h.id = 0) :
    IrqTableOnly s ({ s with hw := hw }.setIrq b intno h) := by
  refine ⟨hw, _, rfl, ?_⟩
  intro i
  rw [Function.update_apply]
  split_ifs with hi
  · rw [hi]
    exact hid
  · exact Or.inl rfl

theorem IrqTableOnly.checked {intno failed ret : Word} {s' : State} (h : IrqTableOnly s s') :
    IrqTableOnly s (withAcCheck b s intno failed (ret, s')).2 := by
  unfold withAcCheck
  split_ifs
  · exact h
  · exact .setHw s s.hw

theorem secureshieldIntOps_table (b : Build) (s : State) (ops par1 par2 : Word) :
    IrqTableOnly s (secureshieldIntOps b s ops par1 par2).2 := by
  unfold secureshieldIntOps
  split
  · next op _ =>
    cases op with
    | install =>
      simp only [secureIntOp, secureIntHandlerInstall]
      split_ifs
      all_goals first
        | exact .setHw s s.hw
        | exact .setIrq s s.hw par1 (Or.inr (Or.inl rfl))
        | exact .setIrq s s.hw par1 (Or.inr (Or.inr rfl))
    | enable =>
      refine IrqTableOnly.checked ?_
      exact .setIrq s (arcIntEnable s.hw par1) par1 (Or.inl rfl)
    | disable =>
      refine IrqTableOnly.checked ?_
      exact .setIrq s (arcIntDisable s.hw par1) par1 (Or.inl rfl)
    | cpuLock => exact .setHw s _
    | cpuUnlock => exact .setHw s _
    | _ => exact (IrqTableOnly.setHw s _).checked
  · exact .setHw s s.hw

end

end Embarc
