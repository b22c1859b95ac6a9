/-
What an entry of the runtime does to the machine.

An entry leaves things as they are, enters a container or resumes one.  `Stayed`, `Entered`
and `Resumed` say what that means for the ledger of activations, for memory and for the
registers, and there is one lemma for each way into the runtime.  Nothing later looks at
the entry code again.
-/
import Embarc.Proofs.Frames
import Embarc.Proofs.Handlers

namespace Embarc

open Machine
open Nest (Layout Ledger Kind)

def Machine.ledger (m : Machine) : Ledger Nat where
  cur := m.st.stackCurrId
  act := m.act
  sp := m.cpu.sp
  depth := m.st.stackPtr
  susp := fun q => ⟨(m.st.stack q).srcId, (m.st.stack q).srcSp, m.susp q⟩
  rest := fun d => (m.st.context d).curSp

/-! ### Ledgers -/

section
variable {b : Build} {L : Layout Nat} {m : Machine} {s s' : State} {cpu : Cpu} {k : Kind} {d : Nat}
  {status : Word}

theorem Machine.frame_sub (b : Build) (m : Machine) :
    m.frame b - arcCalleeFrameSize b = m.cpu.sp - arcProcessorFrameSize b := by
  rw [Machine.frame, arcProcessorFrameSize, Nat.sub_sub, Nat.add_comm]

theorem ledger_enter (hL : L.size = arcProcessorFrameSize b)
    (h : Left m.st s' (m.frame b - arcCalleeFrameSize b) status d)
    (hsp : cpu.sp = L.entry (s'.context d).curSp k) :
    (m.next k s' cpu).ledger = m.ledger.enter L k d := by
  have hrest : (fun c => (s'.context c).curSp) = Function.update (fun c => (m.st.context c).curSp)
      m.st.stackCurrId (m.cpu.sp - arcProcessorFrameSize b) := by
    funext c
    rw [h.curSp, m.frame_sub, Function.update_apply]
  have hnext : m.next k s' cpu = ⟨s', cpu, ⟨k, cpu.sp⟩,
      Function.update m.susp m.st.stackPtr m.act⟩ := by
    unfold next
    rw [if_pos (by rw [h.ptr]; omega)]
  rw [hnext]
  unfold ledger Ledger.enter
  have hentry : cpu.sp = L.entry (Function.update (fun c => (m.st.context c).curSp)
      m.st.stackCurrId (m.cpu.sp - arcProcessorFrameSize b) d) k := by
    rw [hsp, ← hrest]
  simp only [h.curr, h.ptr, hrest, h.stack, m.frame_sub, hL]
  rw [← hentry]
  congr 1
  funext q
  by_cases hq : q = m.st.stackPtr
  · simp [hq]
  · simp [hq]

theorem ledger_leave {r : Addr} (hL : L.size = arcProcessorFrameSize b)
    (h : Returned m.st s' r status)
    (hsp : cpu.sp = (m.st.stack s'.stackPtr).srcSp + arcProcessorFrameSize b) :
    (m.next k s' cpu).ledger = m.ledger.leave L r := by
  have hrest : (fun c => (s'.context c).curSp) = Function.update (fun c => (m.st.context c).curSp)
      m.st.stackCurrId r := by
    funext c
    rw [h.curSp, Function.update_apply]
  have hptr : m.st.stackPtr - 1 = s'.stackPtr := by
    have := h.ptr
    omega
  have hnext : m.next k s' cpu = ⟨s', cpu, m.susp s'.stackPtr, m.susp⟩ := by
    unfold next
    rw [if_neg (by have := h.ptr; omega), if_pos (by have := h.ptr; omega)]
  rw [hnext]
  unfold ledger Ledger.leave
  simp only [h.curr, hptr, hrest, hsp, h.stack, hL]

/-- The container stack and the contexts are as they were. -/
structure StackSame (s s' : State) : Prop where
  ptr : s'.stackPtr = s.stackPtr
  stack : s'.stack = s.stack
  curr : s'.stackCurrId = s.stackCurrId
  active : s'.activeContainer = s.activeContainer
  count : s'.containerCount = s.containerCount
  context : ∀ d, (s'.context d).curSp = (s.context d).curSp ∧
    (s'.context d).cpuStatus = (s.context d).cpuStatus ∧ (s'.context d).cfg = (s.context d).cfg

theorem RuntimeSame.stackSame (h : RuntimeSame s s')
    (hactive : s'.activeContainer = s.activeContainer) : StackSame s s' :=
  ⟨h.ptr, h.stack, h.curr, hactive, h.count, fun d => ⟨h.curSp d, h.cpuStatus d, h.cfg d⟩⟩

theorem ledger_stay (h : StackSame m.st s') (hsp : cpu.sp = m.cpu.sp) :
    (m.next k s' cpu).ledger = m.ledger := by
  have hnext : m.next k s' cpu = { m with st := s', cpu := cpu } := by
    unfold next
    rw [if_neg (by rw [h.ptr]; omega), if_neg (by rw [h.ptr]; omega)]
  rw [hnext]
  unfold ledger
  simp only [h.curr, h.ptr, h.stack, (h.context _).1, hsp]

@[simp] theorem Machine.next_st : (m.next k s' cpu).st = s' := by
  unfold next
  split_ifs <;> rfl

@[simp] theorem Machine.next_cpu : (m.next k s' cpu).cpu = cpu := by
  unfold next
  split_ifs <;> rfl

end

/-! ### Outcomes -/

/-- The entry has come back to where it came from.  All it has written is the frame. -/
structure Stayed (b : Build) (L : Layout Nat) (m m' : Machine) : Prop where
  ledger : m'.ledger = m.ledger
  same : StackSame m.st m'.st
  handlers : ∀ n, 0 < n → m.st.activeContainer < n → (∀ i, (m.st.intHandler i).id < n) →
    ∀ i, (m'.st.intHandler i).id < n
  mem : ∀ a, ¬ L.InFrame (m.frame b - arcCalleeFrameSize b) a → m'.st.mem a = m.st.mem a
  own : m'.st.exc b (m.frame b) .status32 = m.cpu.exc .status32
  status : m'.cpu.exc .status32 = m.cpu.exc .status32

/-- The entry has suspended the running activation and entered `d`.  It has written the frame
it saves and, for a call, the frame it makes. -/
structure Entered (b : Build) (L : Layout Nat) (skip : ExcReg → Bool) (m m' : Machine) (k : Kind)
    (d args : Nat) : Prop where
  ledger : m'.ledger = m.ledger.enter L k d
  active : m'.st.activeContainer = d ∨
    d = m.st.stackCurrId ∧ m'.st.activeContainer = m.st.activeContainer
  count : m'.st.containerCount = m.st.containerCount
  cfg : ∀ c, (m'.st.context c).cfg = (m.st.context c).cfg
  intHandler : m'.st.intHandler = m.st.intHandler
  cpuStatus : ∀ c, (m'.st.context c).cpuStatus =
    if c = m.st.stackCurrId then m.cpu.exc .status32 else (m.st.context c).cpuStatus
  exc : ∀ r ∈ intExcFrame b, skip r = false → m'.st.exc b (m.frame b) r = m.cpu.exc r
  callee : ∀ r ∈ calleeFrame b, m'.st.calleeAt b (m.frame b - arcCalleeFrameSize b) r =
    calleeValue m.st.hw m.cpu r
  mem : ∀ a, ¬ L.InFrame (m.frame b - arcCalleeFrameSize b) a →
    (k = .call → ¬ L.InFrame (m.st.context d).curSp a) → m'.st.mem a = m.st.mem a
  status : excOfs b .r0 + args ≤ excOfs b .status32 →
    m'.cpu.exc .status32 = (m'.st.context d).cpuStatus
  callStatus : excOfs b .r0 + args ≤ excOfs b .status32 → k = .call →
    m'.st.exc b ((m.st.context d).curSp + arcCalleeFrameSize b) .status32 =
      (m'.st.context d).cpuStatus
  irqStatus : k = .irq → arcAuxRead m'.st.hw auxErstatus = m'.cpu.exc .status32

def Machine.lastFrame (m : Machine) : Addr := (m.st.stack (m.st.stackPtr - 1)).srcSp

/-- The entry has resumed the activation suspended last, with the registers of its frame; the
one that was running rests at `r`.  The return of a call leaves the result in the frame. -/
structure Resumed (b : Build) (L : Layout Nat) (skip : ExcReg → Bool) (m m' : Machine) (k : Kind)
    (r : Addr) : Prop where
  depth : m.st.stackPtr ≠ 0
  ledger : m'.ledger = m.ledger.leave L r
  active : m'.st.activeContainer = m'.st.stackCurrId ∨
    m'.st.stackCurrId = m.st.stackCurrId ∧ m'.st.activeContainer = m.st.activeContainer
  count : m'.st.containerCount = m.st.containerCount
  cfg : ∀ c, (m'.st.context c).cfg = (m.st.context c).cfg
  intHandler : m'.st.intHandler = m.st.intHandler
  exc : ∀ r ∈ intExcFrame b, skip r = false →
    m'.cpu.exc r = m'.st.exc b (m.lastFrame + arcCalleeFrameSize b) r
  callee : ∀ r ∈ calleeFrame b, calleeValue m'.st.hw m'.cpu r = m'.st.calleeAt b m.lastFrame r
  mem : ∀ a, ¬ L.InFrame (m.frame b - arcCalleeFrameSize b) a →
    (k = .call → a ≠ m.lastFrame + arcCalleeFrameSize b + excOfs b .r0) →
    m'.st.mem a = m.st.mem a
  cpuStatus : b.version = .v1 → ∀ c, (m'.st.context c).cpuStatus =
    if c = m.st.stackCurrId then m.cpu.exc .status32 else (m.st.context c).cpuStatus
  own : (k = .call → m.frame b + excOfs b .status32 ≠
      m.lastFrame + arcCalleeFrameSize b + excOfs b .r0) →
    m'.st.exc b (m.frame b) .status32 = m.cpu.exc .status32

variable {r : ExcReg} {a : Addr} {k : Kind}

/-! ### Saving and loading -/

section
variable {b : Build} {L : Layout Nat} {strict : Nat → Prop} {skip : ExcReg → Bool} {m : Machine}
  {s s' : State} {cpu : Cpu} {target : Addr}

theorem saveExc_same : RuntimeSame m.st (saveExc b skip m.st m.cpu (m.frame b)) :=
  MemOnly.same ⟨_, rfl⟩

theorem saveCallee_same {frame : Addr} : RuntimeSame s (saveCallee b s cpu frame) :=
  MemOnly.same ⟨_, rfl⟩

section
variable (hL : L.size = arcProcessorFrameSize b)
include hL

/-- With room for a frame, the exception frame ends where the stack pointer was. -/
theorem Machine.frame_room (hroom : m.ledger.Room L) :
    arcCalleeFrameSize b ≤ m.frame b ∧ m.frame b + arcExcFrameSize b = m.cpu.sp := by
  have hroom : L.lo m.st.stackCurrId + L.size ≤ m.cpu.sp := hroom
  rw [hL, arcProcessorFrameSize] at hroom
  exact ⟨Nat.le_sub_of_add_le (by omega), Nat.sub_add_cancel (by omega)⟩

theorem Machine.inFrame_exc (hroom : m.ledger.Room L) (hr : r ∈ intExcFrame b) :
    L.InFrame (m.frame b - arcCalleeFrameSize b) (m.frame b + excOfs b r) := by
  obtain ⟨hle, -⟩ := frame_room hL hroom
  have hlt := excOfs_lt hr
  unfold Layout.InFrame
  rw [hL, arcProcessorFrameSize]
  omega

theorem Within.own (hroom : m.ledger.Room L) {mem mem' : Addr → Word}
    (h : Within (m.frame b) (arcExcFrameSize b) mem mem')
    (ha : ¬ L.InFrame (m.frame b - arcCalleeFrameSize b) a) : mem' a = mem a := by
  obtain ⟨hle, -⟩ := frame_room hL hroom
  refine h a fun ⟨h₁, h₂⟩ => ha ?_
  unfold Layout.InFrame
  rw [hL, arcProcessorFrameSize]
  omega

theorem Within.own_callee {mem mem' : Addr → Word}
    (h : Within (m.frame b - arcCalleeFrameSize b) (arcCalleeFrameSize b) mem mem')
    (ha : ¬ L.InFrame (m.frame b - arcCalleeFrameSize b) a) : mem' a = mem a := by
  refine h a fun ⟨h₁, h₂⟩ => ha ?_
  unfold Layout.InFrame
  rw [hL, arcProcessorFrameSize]
  omega

/-- The callee registers go below the exception frame. -/
theorem saveCallee_exc (hroom : m.ledger.Room L) :
    (saveCallee b s cpu (m.frame b - arcCalleeFrameSize b)).exc b (m.frame b) r =
      s.exc b (m.frame b) r := by
  obtain ⟨hle, -⟩ := frame_room hL hroom
  exact saveCallee_within _ fun ⟨_, h⟩ => by omega

end

theorem calleeValue_congr {hw hw' : Hw} {r : CalleeReg}
    (h : ∀ reg, calleeAux r = some reg → hw'.aux reg = hw.aux reg) :
    calleeValue hw' cpu r = calleeValue hw cpu r := by
  cases r <;> first | rfl | exact h _ rfl

theorem restoreProcessor_same :
    RuntimeSame s (restoreProcessor b skip s cpu target).1 :=
  RuntimeSame.setHw _ _

theorem restoreProcessor_sp :
    (restoreProcessor b skip s cpu target).2.sp = target + arcProcessorFrameSize b :=
  Nat.add_assoc ..

theorem restoreProcessor_exc (hr : r ∈ intExcFrame b) (hskip : skip r = false) :
    (restoreProcessor b skip s cpu target).2.exc r = s.exc b (target + arcCalleeFrameSize b) r :=
  if_pos ⟨hr, hskip⟩

theorem restoreProcessor_callee {r : CalleeReg} (hr : r ∈ calleeFrame b) :
    calleeValue (restoreProcessor b skip s cpu target).1.hw (restoreProcessor b skip s cpu target).2
      r = s.calleeAt b target r :=
  calleeValue_restoreCallee hr

end

/-! ### Staying -/

section
variable {b : Build} {L : Layout Nat} {skip : ExcReg → Bool} {m : Machine} {s : State} {k : Kind}

theorem Stayed.of_same (hL : L.size = arcProcessorFrameSize b) (hroom : m.ledger.Room L)
    (hskip : skip .status32 = false) (hsame : StackSame m.st s)
    (hhandlers : ∀ n, 0 < n → m.st.activeContainer < n → (∀ i, (m.st.intHandler i).id < n) →
      ∀ i, (s.intHandler i).id < n)
    (hmem : Within (m.frame b) (arcExcFrameSize b) m.st.mem s.mem)
    (hstatus : s.exc b (m.frame b) .status32 = m.cpu.exc .status32) :
    Stayed b L m (m.next k s (restoreExc b skip s m.cpu (m.frame b))) := by
  refine ⟨ledger_stay hsame (frame_room hL hroom).2, ?_, ?_, ?_, ?_, ?_⟩ <;>
    simp only [next_st, next_cpu]
  · exact hsame
  · exact hhandlers
  · exact fun a ha => hmem.own hL hroom ha
  · exact hstatus
  · rw [← hstatus]
    exact if_pos ⟨status32_mem, hskip⟩

end

/-! ### Entering by a call -/

section
variable {b : Build} {s s' : State} {frame target srcArgs : Addr} {t : CallTarget}

theorem kernelSp_lt (hv : b.version = .v2) : calleeOfs b .kernelSp < arcCalleeFrameSize b :=
  calleeOfs_lt (by simp [calleeFrame, hv])

theorem CallEntered.within (h : CallEntered b s s' frame target srcArgs t)
    (hargs : excOfs b .r0 + t.args ≤ arcExcFrameSize b) :
    Within target (arcProcessorFrameSize b) s.mem s'.mem := by
  obtain ⟨p, hp, -, hmem⟩ := h.mem
  have hframe : Within target (arcProcessorFrameSize b) s.mem
      (createCallFrame b p frame target srcArgs t).mem := by
    rw [← hp]
    refine (createCallFrame_within hargs).mono (by omega) ?_
    rw [arcProcessorFrameSize]
    omega
  rcases hmem with hmem | ⟨hv, val, hmem⟩
  · rw [hmem]
    exact hframe
  · have hlt := kernelSp_lt hv
    rw [hmem]
    refine hframe.update (by omega) ?_
    rw [arcProcessorFrameSize]
    omega

theorem CallEntered.status (h : CallEntered b s s' frame target srcArgs t)
    (hargs : excOfs b .r0 + t.args ≤ excOfs b .status32) :
    s'.exc b (target + arcCalleeFrameSize b) .status32 = (s'.context t.dstId).cpuStatus := by
  obtain ⟨p, -, hstatus, hmem⟩ := h.mem
  have hword : (createCallFrame b p frame target srcArgs t).exc b (target + arcCalleeFrameSize b)
      .status32 = (p.context t.dstId).cpuStatus := createCallFrame_status hargs
  rw [← hstatus, ← hword]
  rcases hmem with hmem | ⟨hv, val, hmem⟩
  · exact congrFun hmem _
  · have hlt := kernelSp_lt hv
    refine (congrFun hmem _).trans (Function.update_of_ne ?_ _ _)
    exact Nat.ne_of_gt (by omega)

end

section
variable {b : Build} {L : Layout Nat} {strict : Nat → Prop} {skip : ExcReg → Bool} {m : Machine}
  {s₁ s' : State} {cpu : Cpu} {target srcArgs : Addr} {t : CallTarget}

theorem CallEntered.target_eq
    (hin : CallEntered b (saveExc b skip m.st m.cpu (m.frame b)) s₁ (m.frame b) target srcArgs t) :
    target = (m.st.context t.dstId).curSp := by
  rw [hin.goesTo, hin.left.curSp]
  exact if_neg hin.checked.other

theorem CallEntered.target_ne_zero (hok : m.ledger.OK L strict)
    (hin : CallEntered b (saveExc b skip m.st m.cpu (m.frame b)) s₁ (m.frame b) target srcArgs t)
    (hknown : L.known t.dstId) : target ≠ 0 := by
  have hlo : L.lo t.dstId ≤ (m.st.context t.dstId).curSp :=
    hok.rest_lo t.dstId hknown hin.checked.other
  rw [hin.target_eq]
  exact Nat.ne_of_gt (Nat.lt_of_lt_of_le (L.pos t.dstId hknown) hlo)

/-- A call that goes through, with all that both versions do after the handler. -/
theorem Entered.of_call (hL : L.size = arcProcessorFrameSize b) (hok : m.ledger.OK L strict)
    (hroom : m.ledger.Room L) (hskip : skip .status32 = false)
    (hin : CallEntered b (saveExc b skip m.st m.cpu (m.frame b)) s₁ (m.frame b) target srcArgs t)
    (hknown : L.known t.dstId) (hargs : excOfs b .r0 + t.args ≤ arcExcFrameSize b)
    (hsame : RuntimeSame (saveCallee b s₁ m.cpu (m.frame b - arcCalleeFrameSize b)) s')
    (hactive : s'.activeContainer = s₁.activeContainer)
    (hmem : s'.mem = (saveCallee b s₁ m.cpu (m.frame b - arcCalleeFrameSize b)).mem)
    (hsp : cpu.sp = target + arcProcessorFrameSize b)
    (hstatus : cpu.exc .status32 = s'.exc b (target + arcCalleeFrameSize b) .status32) :
    Entered b L skip m (m.next .call s' cpu) .call t.dstId t.args := by
  have hne : t.dstId ≠ m.st.stackCurrId := hin.checked.other
  have hall := saveCallee_same.trans hsame
  have hleft := saveExc_same.left (hin.left.same hall)
  have htarget := hin.target_eq
  have hcur : target = (s'.context t.dstId).curSp := by rw [hall.curSp, ← hin.goesTo]
  have hcallee := (saveCallee_within : Within _ _ _
    (saveCallee b s₁ m.cpu (m.frame b - arcCalleeFrameSize b)).mem)
  have hcall := hin.within hargs
  -- the frame that is made and the frame that is saved have no address in common
  have happart : ∀ a, L.InFrame target a → ¬ L.InFrame (m.frame b - arcCalleeFrameSize b) a := by
    intro a ha
    rw [m.frame_sub, ← hL]
    rw [htarget] at ha
    exact hok.call_own_apart hroom hknown hne ha
  have hold : ∀ a, ¬ L.InFrame target a →
      s₁.mem a = (saveExc b skip m.st m.cpu (m.frame b)).mem a := by
    intro a ha
    refine hcall a fun h => ha ?_
    unfold Layout.InFrame
    rwa [hL]
  have hsaved : ∀ r ∈ intExcFrame b, skip r = false → s'.exc b (m.frame b) r = m.cpu.exc r := by
    intro r hr hs
    have hown := inFrame_exc hL hroom hr
    show s'.mem (m.frame b + excOfs b r) = _
    rw [hmem]
    refine (saveCallee_exc hL hroom).trans ((hold _ fun h => happart _ h hown).trans ?_)
    exact saveExc_exc hr hs
  have hword : excOfs b .r0 + t.args ≤ excOfs b .status32 →
      s'.exc b (target + arcCalleeFrameSize b) .status32 = (s'.context t.dstId).cpuStatus := by
    intro hshort
    have hlt : excOfs b .status32 < arcExcFrameSize b := excOfs_lt status32_mem
    rw [hall.cpuStatus, ← hin.status hshort]
    refine (congrFun hmem _).trans (hcallee.own_callee hL (happart _ ?_))
    unfold Layout.InFrame
    rw [hL, arcProcessorFrameSize]
    omega
  have hsp : cpu.sp = L.entry (s'.context t.dstId).curSp .call := by
    rw [hsp, hcur, ← hL]
    rfl
  refine ⟨ledger_enter hL hleft hsp, Or.inl ?_, ?_, ?_, ?_, ?_, ?_, ?_, ?_, ?_, ?_,
    fun hk => by cases hk⟩ <;> simp only [next_st, next_cpu]
  · rw [hactive, hin.active]
  · exact hleft.count
  · exact hleft.cfg
  · exact hleft.intHandler
  · intro c
    rw [hleft.cpuStatus, saveExc_exc status32_mem hskip]
  · exact hsaved
  · intro r hr
    refine (congrFun hmem _).trans ((saveCallee_calleeAt hr).trans (calleeValue_congr ?_))
    exact fun reg _ => congrFun hin.aux reg
  · intro a ha hcalled
    rw [hmem, hcallee.own_callee hL ha, hold a (htarget ▸ hcalled trivial)]
    exact saveExc_within.own hL hroom ha
  · exact fun hshort => hstatus.trans (hword hshort)
  · rw [← htarget]
    exact fun hshort _ => hword hshort

end

/-! ### Entering by an interrupt -/

section
variable {b : Build} {L : Layout Nat} {strict : Nat → Prop} {m : Machine} {s s' : State}
  {cpu : Cpu} {target : Addr} {d : Nat} {handler : Word}

theorem IrqEntered.target_ne_zero (hL : L.size = arcProcessorFrameSize b)
    (hok : m.ledger.OK L strict) (hroom : m.ledger.Room L)
    (hin : IrqEntered b (saveExc b skipBta m.st m.cpu (m.frame b)) s (m.frame b) target d handler)
    (hknown : L.known d) : target ≠ 0 := by
  have hpos := L.pos d hknown
  rw [hin.goesTo, (saveExc_same.left hin.left).curSp]
  by_cases hd : d = m.st.stackCurrId
  · have hroom : L.lo m.st.stackCurrId + L.size ≤ m.cpu.sp := hroom
    rw [if_pos hd, m.frame_sub, ← hL]
    rw [hd] at hpos
    exact Nat.ne_of_gt (Nat.sub_pos_of_lt (by omega))
  · rw [if_neg hd]
    exact Nat.ne_of_gt (Nat.lt_of_lt_of_le hpos (hok.rest_lo d hknown hd))

theorem Entered.of_irq (hL : L.size = arcProcessorFrameSize b) (hv : b.version = .v1)
    (hroom : m.ledger.Room L)
    (hin : IrqEntered b (saveExc b skipBta m.st m.cpu (m.frame b)) s (m.frame b) target d handler)
    (hsame : RuntimeSame (saveCallee b s m.cpu (m.frame b - arcCalleeFrameSize b)) s')
    (hactive : s'.activeContainer = s.activeContainer)
    (hmem : s'.mem = (saveCallee b s m.cpu (m.frame b - arcCalleeFrameSize b)).mem)
    (hsp : cpu.sp = target) (hstatus : cpu.exc .status32 = s.hw.aux auxErstatus)
    (herstatus : arcAuxRead s'.hw auxErstatus = cpu.exc .status32) :
    Entered b L skipBta m (m.next .irq s' cpu) .irq d 0 := by
  have hall := saveCallee_same.trans hsame
  have hleft := saveExc_same.left (hin.left.same hall)
  have hwithin : Within (m.frame b) (arcExcFrameSize b) m.st.mem s.mem := by
    rw [hin.mem]
    exact saveExc_within.setExc (mem_intExcFrame (by decide))
  have hsaved : ∀ r ∈ intExcFrame b, skipBta r = false → s.exc b (m.frame b) r = m.cpu.exc r := by
    intro r hr hs
    have hne : r ≠ .erbta := by
      rintro rfl
      cases hs
    exact (congrFun hin.mem _).trans ((setExc_exc_of_ne hr hne).trans (saveExc_exc hr hs))
  have hsp : cpu.sp = L.entry (s'.context d).curSp .irq := by
    rw [hsp, hall.curSp, ← hin.goesTo]
    rfl
  refine ⟨ledger_enter hL hleft hsp, ?_, ?_, ?_, ?_, ?_, ?_, ?_, ?_, ?_,
    (fun _ hk => by cases hk), ?_⟩ <;> simp only [next_st, next_cpu]
  · rw [hactive]
    exact hin.active
  · exact hleft.count
  · exact hleft.cfg
  · exact hleft.intHandler
  · intro c
    have hword := (congrFun hin.mem _).symm.trans
      (hsaved .status32 status32_mem rfl)
    rw [hleft.cpuStatus]
    exact congrArg (if c = m.st.stackCurrId then · else _) hword
  · exact fun r hr hs => (congrFun hmem _).trans ((saveCallee_exc hL hroom).trans (hsaved r hr hs))
  · intro r hr
    refine (congrFun hmem _).trans ((saveCallee_calleeAt hr).trans (calleeValue_congr ?_))
    -- of the stack pointers, version 1 saves only that of the user mode
    intro reg hreg
    have hversion := (calleeFrame_version hr).2
    rw [hv] at hversion
    cases r with
    | userSp =>
      obtain rfl := Option.some.inj hreg
      exact hin.userSp
    | kernelSp => cases hversion (Or.inl rfl)
    | secureKernelSp => cases hversion (Or.inr rfl)
    | _ => cases hreg
  · intro a ha _
    rw [hmem]
    exact (saveCallee_within.own_callee hL ha).trans (hwithin.own hL hroom ha)
  · intro _
    rw [hstatus, hin.erstatus, hall.cpuStatus]
  · exact fun _ => herstatus

end

/-! ### Resuming -/

section
variable {b : Build} {L : Layout Nat} {strict : Nat → Prop} {skip : ExcReg → Bool} {m : Machine}
  {s : State} {k : Kind} {r : Addr} {status : Word}

theorem Returned.ptr_ne_zero (h : Returned m.st s r status) : m.st.stackPtr ≠ 0 := by
  rw [h.ptr]
  exact Nat.succ_ne_zero _

theorem Returned.lastFrame_eq (h : Returned m.st s r status) :
    (m.st.stack s.stackPtr).srcSp = m.lastFrame := by
  have hptr : m.st.stackPtr - 1 = s.stackPtr := by
    have := h.ptr
    omega
  rw [Machine.lastFrame, hptr]

theorem Machine.lastFrame_ne_zero (hok : m.ledger.OK L strict) (hdepth : m.st.stackPtr ≠ 0) :
    m.lastFrame ≠ 0 := by
  have hlt : m.st.stackPtr - 1 < m.ledger.depth := Nat.sub_one_lt hdepth
  have hpos := L.pos _ (hok.susp_known _ hlt)
  exact Nat.ne_of_gt (Nat.lt_of_lt_of_le hpos (hok.frame_lo _ hlt))

/-- The last step of every return: the frame saved last is loaded. -/
theorem Resumed.of_restore (hL : L.size = arcProcessorFrameSize b)
    (hret : Returned m.st s r status)
    (hactive : s.activeContainer = s.stackCurrId ∨
      s.stackCurrId = m.st.stackCurrId ∧ s.activeContainer = m.st.activeContainer)
    (hmem : ∀ a, ¬ L.InFrame (m.frame b - arcCalleeFrameSize b) a →
      (k = .call → a ≠ m.lastFrame + arcCalleeFrameSize b + excOfs b .r0) → s.mem a = m.st.mem a)
    (hstatus : b.version = .v1 → status = m.cpu.exc .status32)
    (hown : (k = .call → m.frame b + excOfs b .status32 ≠
        m.lastFrame + arcCalleeFrameSize b + excOfs b .r0) →
      s.exc b (m.frame b) .status32 = m.cpu.exc .status32) :
    Resumed b L skip m (m.next .call (restoreProcessor b skip s m.cpu m.lastFrame).1
      (restoreProcessor b skip s m.cpu m.lastFrame).2) k r := by
  have hsp : (restoreProcessor b skip s m.cpu m.lastFrame).2.sp =
      (m.st.stack s.stackPtr).srcSp + arcProcessorFrameSize b := by
    rw [restoreProcessor_sp, hret.lastFrame_eq]
  refine ⟨hret.ptr_ne_zero, ledger_leave hL (hret.same restoreProcessor_same) hsp, ?_, ?_, ?_, ?_,
    ?_, ?_, ?_, ?_, ?_⟩ <;> simp only [next_st, next_cpu]
  · exact hactive
  · exact hret.count
  · exact hret.cfg
  · exact hret.intHandler
  · exact fun r hr hs => restoreProcessor_exc hr hs
  · exact fun r hr => restoreProcessor_callee hr
  · exact hmem
  · exact fun hv c => hstatus hv ▸ hret.cpuStatus c
  · exact hown

end

/-! ### The ways into the runtime -/

/-- The call the registers of the processor ask for. -/
def Machine.asksFor (b : Build) (m : Machine) : Except Halt CallTarget :=
  match b.version with
  | .v1 => callTarget b m.st (m.st.call (m.cpu.exc .ret - 2)) (m.cpu.exc .r0)
  | .v2 =>
    if b.sid then callTargetSid b m.st (m.cpu.exc .r2) (m.cpu.exc .r1) (m.cpu.exc .r0)
    else callTarget b m.st (m.st.call (m.cpu.exc .blink - sjliInstructionLength)) (m.cpu.exc .r0)

section
variable {b : Build} {L : Layout Nat} {strict : Nat → Prop} {m m' : Machine}

theorem excEntryCpu_ok {handler : State → Addr → Except Halt (Addr × State)}
    (h : excEntryCpu b m handler = .ok m') :
    ∃ target s, handler (saveExc b skipNone m.st m.cpu (m.frame b)) (m.frame b) = .ok (target, s) ∧
      (target = 0 → m' = m.next .call s (restoreExc b skipNone s m.cpu (m.frame b))) ∧
      (target ≠ 0 →
        let p := restoreProcessor b skipNone
          (saveCallee b s m.cpu (m.frame b - arcCalleeFrameSize b)) m.cpu target
        m' = m.next .call p.1 p.2) := by
  obtain ⟨⟨target, s⟩, hhandler, h⟩ := Except.bind_eq_ok_iff.mp h
  refine ⟨target, s, hhandler, ?_, ?_⟩
  · intro h0
    simp only [h0, if_true] at h
    exact (Except.ok.inj h).symm
  · intro h0
    simp only [h0, if_false] at h
    exact (Except.ok.inj h).symm

theorem secureshieldSysOps_service (b : Build) (s : State) (frame : Addr) :
    ∃ p, IrqTableOnly s p ∧ (secureshieldSysOps b s frame = p ∨
      ∃ val, secureshieldSysOps b s frame = p.setExc b frame .r0 val) := by
  unfold secureshieldSysOps
  simp only
  split_ifs
  · exact ⟨s, .setHw s s.hw, Or.inr ⟨_, rfl⟩⟩
  · unfold secureArcSrReg
    split_ifs
    · exact ⟨_, .setHw s _, Or.inl rfl⟩
    · exact ⟨s, .setHw s s.hw, Or.inl rfl⟩
  · exact ⟨s, .setHw s s.hw, Or.inr ⟨_, rfl⟩⟩
  · exact ⟨s, .setHw s s.hw, Or.inr ⟨_, rfl⟩⟩
  · exact ⟨s, .setHw s s.hw, Or.inl rfl⟩

variable (hL : L.size = arcProcessorFrameSize b) (hok : m.ledger.OK L strict)
  (hroom : m.ledger.Room L) (hknown : ∀ d < m.st.containerCount, L.known d)
include hL hroom

theorem Stayed.of_saved {skip : ExcReg → Bool} (hskip : skip .status32 = false) :
    Stayed b L m (m.next k (saveExc b skip m.st m.cpu (m.frame b))
      (restoreExc b skip (saveExc b skip m.st m.cpu (m.frame b)) m.cpu (m.frame b))) :=
  Stayed.of_same hL hroom hskip (saveExc_same.stackSame rfl) (fun _ _ _ h => h) saveExc_within
    (saveExc_exc status32_mem hskip)

/-- **A return of version 2 from a call.**  The status is the one the container returned with,
and interrupts are disabled; what the frame has for it is not put back. -/
theorem containerCallOut_entry (hv : b.version = .v2) (h : retContainerCallOut b m = .ok m') :
    Resumed b L skipSecStat m m' .call (m.cpu.sp - L.size) ∧
      arcAuxRead m'.st.hw auxStatus32 = arcAuxRead m.st.hw auxStatus32 &&& ~~~auxStatusMaskIe := by
  obtain ⟨⟨target, s⟩, hhandler, h⟩ := Except.bind_eq_ok_iff.mp h
  have hout := containerCallOut_ok hhandler
  rw [Nat.sub_add_cancel (frame_room hL hroom).1] at hout
  have hsaved : RuntimeSame m.st { saveCallee b (saveExc b skipSecStat m.st m.cpu (m.frame b)) m.cpu
      (m.frame b - arcCalleeFrameSize b) with hw := clri m.st.hw } :=
    (saveExc_same.trans saveCallee_same).trans (RuntimeSame.setHw _ _)
  have hret : Returned m.st s _ _ := hsaved.returned hout.returned
  have htarget : target = m.lastFrame := hout.goesTo.trans hret.lastFrame_eq
  simp only [htarget] at h
  rw [← Except.ok.inj h, hL, ← m.frame_sub]
  refine ⟨Resumed.of_restore hL hret (Or.inl hout.active) ?_ ?_ ?_, ?_⟩
  · intro a ha hslot
    rw [hout.mem, Function.update_of_ne (htarget ▸ hslot rfl)]
    exact (saveCallee_within.own_callee hL ha).trans (saveExc_within.own hL hroom ha)
  · intro hv1
    rw [hv] at hv1
    cases hv1
  · intro hslot
    unfold State.exc
    rw [hout.mem, Function.update_of_ne (htarget ▸ hslot rfl)]
    exact (saveCallee_exc hL hroom).trans (saveExc_exc status32_mem rfl)
  · rw [next_st]
    simp only [restoreProcessor, restoreCallee, hv]
    rw [arcAuxRead_write_of_ne _ _ (by decide) (by decide),
      arcAuxRead_write_of_ne _ _ (by decide) (by decide)]
    have haux : arcAuxRead s.hw auxStatus32 = arcAuxRead (clri m.st.hw) auxStatus32 :=
      congrFun hout.aux auxStatus32
    rw [haux]
    exact arcAuxRead_write_self _ _ (by decide)

theorem service_entry {service : State → Addr → State}
    (hservice : ∀ s frame, ∃ p, IrqTableOnly s p ∧
      (service s frame = p ∨ ∃ val, service s frame = p.setExc b frame .r0 val))
    (h : excEntryCpu b m (fun s frame => .ok (0, service s frame)) = .ok m') : Stayed b L m m' := by
  obtain ⟨target, s, hhandler, hzero, -⟩ := excEntryCpu_ok h
  cases hhandler
  rw [hzero rfl]
  obtain ⟨p, ⟨hw, table, hp, hids⟩, hmem⟩ :=
    hservice (saveExc b skipNone m.st m.cpu (m.frame b)) (m.frame b)
  have hword : p.exc b (m.frame b) .status32 = m.cpu.exc .status32 := by
    rw [hp]
    exact saveExc_exc status32_mem rfl
  have hwithin : Within (m.frame b) (arcExcFrameSize b) m.st.mem p.mem := by
    rw [hp]
    exact saveExc_within
  have hsame : StackSame m.st p := by
    rw [hp]
    exact ⟨rfl, rfl, rfl, rfl, rfl, fun _ => ⟨rfl, rfl, rfl⟩⟩
  have hhandlers : ∀ n, 0 < n → m.st.activeContainer < n → (∀ i, (m.st.intHandler i).id < n) →
      ∀ i, (p.intHandler i).id < n := by
    intro n hn hactive hold i
    rw [hp]
    have hold : ((saveExc b skipNone m.st m.cpu (m.frame b)).intHandler i).id < n := hold i
    have hactive : (saveExc b skipNone m.st m.cpu (m.frame b)).activeContainer < n := hactive
    rcases hids i with h | h | h <;> rw [h]
    · exact hold
    · exact hactive
    · exact hn
  rcases hmem with hmem | ⟨val, hmem⟩
  · rw [hmem]
    exact Stayed.of_same hL hroom rfl hsame hhandlers hwithin hword
  · rw [hmem]
    refine Stayed.of_same hL hroom rfl ?_ hhandlers (hwithin.setExc (mem_intExcFrame (by decide))) ?_
    · exact { hsame with }
    · exact (setExc_exc_of_ne status32_mem (by decide)).trans hword

include hok

/-- A handler of version 1 that returns to the frame saved last, and of the memory changes at most
the word for the result. -/
theorem Resumed.of_handler {s : State} {target r : Addr}
    (hret : Returned m.st s r (m.cpu.exc .status32)) (htarget : target = m.lastFrame)
    (hactive : s.activeContainer = s.stackCurrId ∨
      s.stackCurrId = m.st.stackCurrId ∧ s.activeContainer = m.st.activeContainer)
    (hmem : ∀ a, (k = .call → a ≠ m.lastFrame + arcCalleeFrameSize b + excOfs b .r0) →
      s.mem a = (saveExc b skipNone m.st m.cpu (m.frame b)).mem a)
    (hswitch : target ≠ 0 →
      let p := restoreProcessor b skipNone
        (saveCallee b s m.cpu (m.frame b - arcCalleeFrameSize b)) m.cpu target
      m' = m.next .call p.1 p.2) : Resumed b L skipNone m m' k r := by
  rw [hswitch (htarget ▸ Machine.lastFrame_ne_zero hok hret.ptr_ne_zero), htarget]
  refine Resumed.of_restore hL (hret.same saveCallee_same) hactive ?_ (fun _ => rfl) ?_
  · intro a ha hslot
    refine (saveCallee_within.own_callee hL ha).trans ((hmem a hslot).trans ?_)
    exact saveExc_within.own hL hroom ha
  · intro hslot
    refine (saveCallee_exc hL hroom).trans ((hmem _ hslot).trans ?_)
    exact saveExc_exc status32_mem rfl

/-- **A return of version 1 from a call.** -/
theorem trapContainerCallOut_entry
    (h : excEntryCpu b m (trapContainerCallOut b) = .ok m') :
    Resumed b L skipNone m m' .call (m.cpu.sp - L.size) := by
  obtain ⟨target, s, hhandler, -, hswitch⟩ := excEntryCpu_ok h
  have hout := trapContainerCallOut_ok hhandler
  have hret : Returned m.st s _ _ := saveExc_same.returned hout.returned
  have htarget : target = m.lastFrame := hout.goesTo.trans hret.lastFrame_eq
  rw [saveExc_exc status32_mem rfl] at hret
  rw [hL, ← m.frame_sub]
  refine Resumed.of_handler hL hok hroom hret htarget (Or.inl hout.active) ?_ hswitch
  intro a hslot
  rw [hout.mem, Function.update_of_ne (htarget ▸ hslot rfl)]

/-- **A return from an interrupt.** -/
theorem secureshieldIntReturn_entry
    (h : excEntryCpu b m (secureshieldIntReturn b) = .ok m') :
    Resumed b L skipNone m m' .irq m.cpu.sp := by
  obtain ⟨target, s, hhandler, -, hswitch⟩ := excEntryCpu_ok h
  have hout := secureshieldIntReturn_ok hhandler
  have hret : Returned m.st s _ _ := saveExc_same.returned hout.returned
  have htarget : target = m.lastFrame := hout.goesTo.trans hret.lastFrame_eq
  rw [(frame_room hL hroom).2, saveExc_exc status32_mem rfl] at hret
  refine Resumed.of_handler hL hok hroom hret htarget hout.active ?_ hswitch
  intro a _
  rw [hout.mem]

include hknown

theorem trapContainerCallIn_entry (hv : b.version = .v1)
    (hfit : ∀ t, m.asksFor b = .ok t → excOfs b .r0 + t.args ≤ arcExcFrameSize b)
    (h : excEntryCpu b m (trapContainerCallIn b) = .ok m') :
    Stayed b L m m' ∨ ∃ t, m.asksFor b = .ok t ∧ CallChecked m.st t ∧
      Entered b L skipNone m m' .call t.dstId t.args := by
  obtain ⟨target, s, hhandler, hzero, hswitch⟩ := excEntryCpu_ok h
  rcases trapContainerCallIn_ok hhandler with ⟨-, rfl, rfl⟩ | ⟨-, t, ht, hin⟩
  · rw [hzero rfl]
    exact Or.inl (Stayed.of_saved hL hroom rfl)
  · have hasks : m.asksFor b = .ok t := by
      repeat rw [saveExc_exc (mem_intExcFrame (by decide)) rfl] at ht
      unfold asksFor
      rw [hv]
      exact ht
    have hd : L.known t.dstId := hknown _ hin.checked.count
    rw [hswitch (hin.target_ne_zero hok hd)]
    refine Or.inr ⟨t, hasks, { hin.checked with }, ?_⟩
    exact Entered.of_call hL hok hroom rfl hin hd (hfit t hasks) restoreProcessor_same rfl rfl
      restoreProcessor_sp (restoreProcessor_exc status32_mem rfl)

theorem containerCallIn_entry (hv : b.version = .v2)
    (hfit : ∀ t, m.asksFor b = .ok t → excOfs b .r0 + t.args ≤ arcExcFrameSize b)
    (h : sjliContainerCallIn b m = .ok m') :
    Stayed b L m m' ∨ ∃ t, m.asksFor b = .ok t ∧ CallChecked m.st t ∧
      Entered b L skipSecStat m m' .call t.dstId t.args := by
  obtain ⟨⟨target, s⟩, hhandler, h⟩ := Except.bind_eq_ok_iff.mp h
  rcases containerCallIn_ok hv hhandler with ⟨-, rfl, rfl⟩ | ⟨-, t, ht, hin⟩
  · simp only [if_true] at h
    cases h
    exact Or.inl (Stayed.of_saved hL hroom rfl)
  · have hasks : m.asksFor b = .ok t := by
      unfold sjliTarget at ht
      repeat rw [saveExc_exc (mem_intExcFrame (by decide)) rfl] at ht
      unfold asksFor
      rw [hv]
      exact ht
    have hd : L.known t.dstId := hknown _ hin.checked.count
    simp only [hin.target_ne_zero hok hd, if_false] at h
    cases h
    refine Or.inr ⟨t, hasks, { hin.checked with }, ?_⟩
    refine Entered.of_call hL hok hroom rfl hin hd (hfit t hasks)
      (restoreProcessor_same.trans (RuntimeSame.setHw _ _)) rfl rfl ?_ ?_
    · exact Nat.add_assoc ..
    · exact restoreProcessor_exc status32_mem rfl

/-- **An interrupt.**  It is ignored, or its owner is entered. -/
theorem excEntryInt_entry (hv : b.version = .v1)
    (hhandlers : ∀ i, (m.st.intHandler i).id < m.st.containerCount) (h : excEntryInt b m = .ok m') :
    Stayed b L m m' ∨ ∃ d, d < m.st.containerCount ∧ Entered b L skipBta m m' .irq d 0 := by
  obtain ⟨⟨target, s⟩, hhandler, h⟩ := Except.bind_eq_ok_iff.mp h
  have hword : ((saveExc b skipBta m.st m.cpu (m.frame b)).setExc b (m.frame b) .erbta 0).exc b
      (m.frame b) .status32 = m.cpu.exc .status32 :=
    (setExc_exc_of_ne status32_mem (by decide)).trans
      (saveExc_exc status32_mem rfl)
  have hwithin : Within (m.frame b) (arcExcFrameSize b) m.st.mem
      ((saveExc b skipBta m.st m.cpu (m.frame b)).setExc b (m.frame b) .erbta 0).mem :=
    saveExc_within.setExc (mem_intExcFrame (by decide))
  rcases secureshieldInterruptHandle_ok hv hhandler with ⟨-, hout⟩ | ⟨-, hin⟩
  · simp only [hout.goesTo, if_true] at h
    cases h
    refine Or.inl (Stayed.of_same hL hroom rfl ((saveExc_same.trans hout.same).stackSame hout.active)
      ?_ ?_ ?_)
    · intro n _ _ hn
      rw [hout.same.intHandler]
      exact hn
    · rcases hout.mem with hmem | hmem
      · rw [hmem]
        exact saveExc_within
      · rw [hmem]
        exact hwithin
    · rcases hout.mem with hmem | hmem
      · exact (congrFun hmem _).trans (saveExc_exc status32_mem rfl)
      · exact (congrFun hmem _).trans hword
  · have hd : (m.st.irq b (arcAuxRead m.st.hw auxIrqCause)).id < m.st.containerCount :=
      hhandlers _
    simp only [hin.target_ne_zero hL hok hroom (hknown _ hd), if_false] at h
    cases h
    refine Or.inr ⟨_, hd, Entered.of_irq hL hv hroom hin (RuntimeSame.setHw _ _) rfl rfl rfl rfl ?_⟩
    show arcAuxRead (arcAuxWrite s.hw auxUserSp _) auxErstatus = arcAuxRead s.hw auxErstatus
    exact arcAuxRead_write_of_ne _ _ (by decide) (by decide)

/-- **A trap of version 1**, by what it asks for. -/
theorem trap_entry (hv : b.version = .v1)
    (hfit : trapIdOf m.st.hw = some .containerIn → ∀ t, m.asksFor b = .ok t →
      excOfs b .r0 + t.args ≤ arcExcFrameSize b)
    (h : excEntryCpu b m (secureshieldTrapHandler b) = .ok m') :
    Stayed b L m m' ∨
    (trapIdOf m.st.hw = some .containerIn ∧ ∃ t, m.asksFor b = .ok t ∧ CallChecked m.st t ∧
      Entered b L skipNone m m' .call t.dstId t.args) ∨
    (trapIdOf m.st.hw = some .containerOut ∧
      Resumed b L skipNone m m' .call (m.cpu.sp - L.size)) ∨
    (trapIdOf m.st.hw = some .intOut ∧ Resumed b L skipNone m m' .irq m.cpu.sp) := by
  -- saving registers does not touch the cause
  have h : excEntryCpu b m (fun s frame => trapDispatch b s frame (trapIdOf m.st.hw)) = .ok m' := h
  cases hid : trapIdOf m.st.hw with
  | none =>
    rw [hid] at h
    exact Or.inl (service_entry hL hroom (fun s _ => ⟨s, .setHw s s.hw, Or.inl rfl⟩) h)
  | some id =>
    rw [hid] at h hfit
    cases id with
    | sys => exact Or.inl (service_entry hL hroom (secureshieldSysOps_service b) h)
    | intExc =>
      refine Or.inl (service_entry hL hroom (fun s frame => ?_) h)
      exact ⟨_, secureshieldIntOps_table .., Or.inr ⟨_, rfl⟩⟩
    | containerIn =>
      refine (trapContainerCallIn_entry hL hok hroom hknown hv (hfit rfl) h).imp id ?_
      exact fun hin => Or.inl ⟨rfl, hin⟩
    | containerOut =>
      exact Or.inr (Or.inr (Or.inl ⟨rfl, trapContainerCallOut_entry hL hok hroom h⟩))
    | intOut =>
      exact Or.inr (Or.inr (Or.inr ⟨rfl, secureshieldIntReturn_entry hL hok hroom h⟩))

end

end Embarc
