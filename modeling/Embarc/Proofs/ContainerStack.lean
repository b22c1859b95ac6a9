/-
The container stack over whole runs.

Calls and interrupts push the container they leave, returns pop it, and both kinds share
one stack.  `ContainerEvent.Moves` says what each event does to it: a push, a pop or nothing,
with the active container following the stack.  From it come the results about runs: the
active container is the one the stack calls current, and a return pops the entry that the
call or the interrupt it matches has pushed.
-/
import Embarc.Proofs.Handlers
import Embarc.Proofs.MpuLoad

namespace Embarc

open Trace

/-! ### Events -/

/-- What happens while containers run: a container executes, changing hardware and memory at
will; it asks for an interrupt operation; it calls or returns from a call; an interrupt
arrives or is returned from.  The frame is the one the entry code has pushed. -/
inductive ContainerEvent
  | exec (hw : Hw) (mem : Addr → Word) (call : Word → ContainerCall)
  | intOps (ops par1 par2 : Word)
  | callIn (frame : Addr)
  | callOut (frame : Addr)
  | irq (frame : Addr)
  | irqReturn (frame : Addr)

def containerHandler (b : Build) (s : State) : ContainerEvent → Except Halt (Addr × State)
  | .exec hw mem call => .ok (0, { s with hw := hw, mem := mem, call := call })
  | .intOps ops par1 par2 => .ok (0, (secureshieldIntOps b s ops par1 par2).2)
  | .callIn frame => match b.version with
      | .v1 => trapContainerCallIn b s frame
      | .v2 => containerCallIn b s frame
  | .callOut frame => match b.version with
      | .v1 => trapContainerCallOut b s frame
      | .v2 => containerCallOut b s (frame - arcCalleeFrameSize b)
  | .irq frame => match b.version with
      | .v1 => secureshieldInterruptHandle b s frame
      | .v2 => sjliInterruptHandle b s frame
  | .irqReturn frame => match b.version with
      | .v1 => secureshieldIntReturn b s frame
      | .v2 => secureshieldInterruptHandleReturn b s frame

def containerStep (b : Build) (s : State) (e : ContainerEvent) : Except Halt State :=
  (containerHandler b s e).map Prod.snd

/-! ### What an event does to the stack -/

/-- A call outside of an interrupt, or an interrupt that changes containers. -/
def ContainerEvent.Enters (b : Build) (s : State) : ContainerEvent → Prop
  | .callIn _ => arcIntActive s.hw ≠ true
  | .irq frame => s.IrqSwitches b frame
  | _ => False

def ContainerEvent.Returns : ContainerEvent → Prop
  | .callOut _ | .irqReturn _ => True
  | _ => False

structure Stays (s s' : State) : Prop where
  ptr : s'.stackPtr = s.stackPtr
  stack : s'.stack = s.stack
  curr : s'.stackCurrId = s.stackCurrId
  active : s'.activeContainer = s.activeContainer

/-- One entry is pushed, with the container that was active and the frame it is left at. -/
structure Pushes (s s' : State) : Prop where
  room : s.stackPtr ≠ containerStackMaxDepth
  ptr : s'.stackPtr = s.stackPtr + 1
  stack : ∃ sp, s'.stack = Function.update s.stack s.stackPtr ⟨s.activeContainer, sp⟩
  active : s'.activeContainer = s'.stackCurrId

/-- The last entry is popped, and its container is the active one. -/
structure Pops (s s' : State) : Prop where
  ptr : s.stackPtr = s'.stackPtr + 1
  stack : s'.stack = s.stack
  active : s'.activeContainer = (s.stack s'.stackPtr).srcId
  curr : s'.activeContainer = s'.stackCurrId

/-- What an event does to the stack. -/
structure ContainerEvent.Moves (b : Build) (s s' : State) (e : ContainerEvent) : Prop where
  enters : e.Enters b s → Pushes s s'
  returns : e.Returns → Pops s s'
  stays : ¬ e.Enters b s → ¬ e.Returns → Stays s s'

section
variable {b : Build} {s s' : State} {sp : Addr} {status : Word} {e : ContainerEvent}

theorem RuntimeSame.stays (h : RuntimeSame s s')
    (hactive : s'.activeContainer = s.activeContainer) : Stays s s' :=
  ⟨h.ptr, h.stack, h.curr, hactive⟩

theorem Left.pushes {dst : Nat} (h : Left s s' sp status dst)
    (hs : s.activeContainer = s.stackCurrId) (hactive : s'.activeContainer = dst ∨
      dst = s.stackCurrId ∧ s'.activeContainer = s.activeContainer) : Pushes s s' := by
  refine ⟨h.room, h.ptr, ⟨sp, hs ▸ h.stack⟩, ?_⟩
  rcases hactive with hactive | ⟨hdst, hactive⟩
  · rw [hactive, h.curr]
  · rw [hactive, hs, h.curr, hdst]

theorem Returned.pops (h : Returned s s' sp status) (hs : s.activeContainer = s.stackCurrId)
    (hactive : s'.activeContainer = s'.stackCurrId ∨
      s'.stackCurrId = s.stackCurrId ∧ s'.activeContainer = s.activeContainer) : Pops s s' := by
  have hcurr : s'.activeContainer = s'.stackCurrId := by
    rcases hactive with hactive | ⟨hcurr, hactive⟩
    · exact hactive
    · rw [hactive, hs, hcurr]
  exact ⟨h.ptr, h.stack, hcurr.trans h.curr, hcurr⟩

theorem Pushes.moves (h : Pushes s s') (he : e.Enters b s) (hr : ¬ e.Returns) : e.Moves b s s' :=
  ⟨fun _ => h, fun h => absurd h hr, fun h => absurd he h⟩

theorem Stays.moves (h : Stays s s') (he : ¬ e.Enters b s) (hr : ¬ e.Returns) : e.Moves b s s' :=
  ⟨fun h => absurd h he, fun h => absurd h hr, fun _ _ => h⟩

theorem Pops.moves (h : Pops s s') (he : ¬ e.Enters b s) (hr : e.Returns) : e.Moves b s s' :=
  ⟨fun h => absurd h he, fun _ => h, fun _ h => absurd hr h⟩

theorem containerStep_moves (hs : s.activeContainer = s.stackCurrId)
    (hstep : containerStep b s e = .ok s') : e.Moves b s s' := by
  obtain ⟨⟨target, s''⟩, h, rfl⟩ := Except.exists_of_map_eq_ok hstep
  clear hstep
  cases e with
  | exec hw mem call =>
    cases h
    exact Stays.moves ⟨rfl, rfl, rfl, rfl⟩ id id
  | intOps ops par1 par2 =>
    cases h
    obtain ⟨hw, table, hs, -⟩ := secureshieldIntOps_table b s ops par1 par2
    rw [hs]
    exact Stays.moves ⟨rfl, rfl, rfl, rfl⟩ id id
  | callIn frame =>
    have hok : (arcIntActive s.hw = true ∧ target = 0 ∧ s'' = s) ∨ arcIntActive s.hw ≠ true ∧
        ∃ args t, CallEntered b s s'' frame target args t := by
      simp only [containerHandler] at h
      cases hv : b.version with rw [hv] at h
      | v1 => exact (trapContainerCallIn_ok h).imp id fun ⟨hint, t, _, ht⟩ => ⟨hint, _, t, ht⟩
      | v2 => exact (containerCallIn_ok hv h).imp id fun ⟨hint, t, _, ht⟩ => ⟨hint, _, t, ht⟩
    rcases hok with ⟨hint, -, rfl⟩ | ⟨hint, args, t, ht⟩
    · exact Stays.moves ⟨rfl, rfl, rfl, rfl⟩ (fun he => he hint) id
    · exact (ht.left.pushes hs (Or.inl ht.active)).moves hint id
  | callOut frame =>
    have hok : ∃ frame status, CallReturned b s s'' frame target status := by
      simp only [containerHandler] at h
      cases hv : b.version with
      | v1 => rw [hv] at h; exact ⟨_, _, trapContainerCallOut_ok h⟩
      | v2 => rw [hv] at h; exact ⟨_, _, containerCallOut_ok h⟩
    obtain ⟨_, _, hret⟩ := hok
    exact (hret.returned.pops hs (Or.inl hret.active)).moves id trivial
  | irq frame =>
    simp only [containerHandler] at h
    cases hv : b.version with rw [hv] at h
    | v1 =>
      rcases secureshieldInterruptHandle_ok hv h with ⟨hoff, hignored⟩ | ⟨hon, hin⟩
      · exact (hignored.same.stays hignored.active).moves hoff id
      · exact (hin.left.pushes hs hin.active).moves hon id
    | v2 =>
      rcases sjliInterruptHandle_ok hv h with ⟨hoff, hsame, hactive⟩ | ⟨hon, _, _, hleft, hactive⟩
      · exact (hsame.stays hactive).moves hoff id
      · exact (hleft.pushes hs (Or.inl hactive)).moves hon id
  | irqReturn frame =>
    simp only [containerHandler] at h
    cases hv : b.version with rw [hv] at h
    | v1 =>
      have hret := secureshieldIntReturn_ok h
      exact (hret.returned.pops hs hret.active).moves id trivial
    | v2 =>
      obtain ⟨hret, hactive⟩ := secureshieldInterruptHandleReturn_ok h
      exact (hret.pops hs (Or.inl hactive)).moves id trivial

/-! ### Runs -/

structure StackOK (s : State) : Prop where
  active : s.activeContainer = s.stackCurrId
  depth : s.stackPtr ≤ containerStackMaxDepth

theorem ContainerEvent.Moves.cases (h : e.Moves b s s') : Pushes s s' ∨ Pops s s' ∨ Stays s s' := by
  by_cases he : e.Enters b s
  · exact Or.inl (h.enters he)
  by_cases hr : e.Returns
  · exact Or.inr (Or.inl (h.returns hr))
  · exact Or.inr (Or.inr (h.stays he hr))

theorem containerStep_stackOK (hs : StackOK s) (hstep : containerStep b s e = .ok s') :
    StackOK s' := by
  have hdepth := hs.depth
  rcases (containerStep_moves hs.active hstep).cases with h | h | h
  · have hroom := h.room
    have hptr := h.ptr
    exact ⟨h.active, by omega⟩
  · have hptr := h.ptr
    exact ⟨h.curr, by omega⟩
  · exact ⟨by rw [h.active, h.curr, hs.active], h.ptr ▸ hdepth⟩

/-- An entry below the top is not written: a push goes on top of it. -/
theorem containerStep_below {p : Nat} (hs : StackOK s) (hp : p < s.stackPtr)
    (hstep : containerStep b s e = .ok s') : s'.stack p = s.stack p := by
  rcases (containerStep_moves hs.active hstep).cases with h | h | h
  · obtain ⟨sp, hstack⟩ := h.stack
    rw [hstack, Function.update_of_ne (Nat.ne_of_lt hp)]
  · rw [h.stack]
  · rw [h.stack]

/-- The states of a run after an accepted initialisation. -/
def ContainerReachable (b : Build) (s : State) : Prop :=
  ∃ hw mem call cfgtbl s₀ es, vmpuInitPost b (State.reset hw mem call) cfgtbl = .ok s₀ ∧
    Runs (containerStep b) (fun _ _ => True) s₀ es s

theorem vmpuInitPost_stackOK {hw : Hw} {mem : Addr → Word} {call : Word → ContainerCall}
    {cfgtbl : List ContainerConfig} (h : vmpuInitPost b (State.reset hw mem call) cfgtbl = .ok s) :
    StackOK s := by
  simp only [vmpuInitPost, vmpuLoadContainer, Except.bind_eq_ok_iff] at h
  obtain ⟨s₁, harch, s₂, hsetup, _, -, hswitch⟩ := h
  obtain ⟨mpu, mask, rfl, -⟩ := vmpuArchInit_ok harch
  obtain ⟨-, -, hframe⟩ := vmpuSetupLoop_frame cfgtbl hsetup
  obtain ⟨hactive, hsame, -, -⟩ := vmpuSwitch_same hswitch
  have hcurr : s.stackCurrId = 0 := hsame.curr.trans hframe.currId
  have hptr : s.stackPtr = 0 := hsame.ptr.trans hframe.ptr
  refine ⟨hactive.trans hcurr.symm, ?_⟩
  rw [hptr]
  exact Nat.zero_le _

theorem ContainerReachable.stackOK (h : ContainerReachable b s) : StackOK s := by
  obtain ⟨hw, mem, call, cfgtbl, s₀, es, hinit, hrun⟩ := h
  exact hrun.invariant (fun _ _ _ hs _ h => containerStep_stackOK hs h) (vmpuInitPost_stackOK hinit)

/-- **The container stack keeps its discipline.**  In every state reached, the active container
is the current one of the stack and the stack is not deeper than its array.  A call or an
interrupt that changes containers pushes one entry, a return pops one, and nothing else moves the
stack.  And a return pops the entry of the call or the interrupt it matches, the one the depth
has not gone below since: the container that was active then is active again, at the same depth. -/
theorem container_stack_discipline (h : ContainerReachable b s) :
    s.activeContainer = s.stackCurrId ∧ s.stackPtr ≤ containerStackMaxDepth ∧
    (∀ e s', containerStep b s e = .ok s' → e.Moves b s s') ∧
    ∀ e s₁ es s₂ r s', e.Enters b s → containerStep b s e = .ok s₁ →
      Runs (containerStep b) (fun t _ => s₁.stackPtr ≤ t.stackPtr) s₁ es s₂ →
      s₂.stackPtr = s₁.stackPtr → r.Returns → containerStep b s₂ r = .ok s' →
      s'.stackPtr = s.stackPtr ∧ s₂.stack s'.stackPtr = s₁.stack s.stackPtr ∧
        s'.activeContainer = s.activeContainer := by
  have hs := h.stackOK
  refine ⟨hs.active, hs.depth, fun e s' => containerStep_moves hs.active, ?_⟩
  intro e s₁ es s₂ r s' henters hin hrun hback hreturns hout
  have hpush := (containerStep_moves hs.active hin).enters henters
  obtain ⟨sp, hstack⟩ := hpush.stack
  have htop : s.stackPtr < s₁.stackPtr := by rw [hpush.ptr]; exact Nat.lt_succ_self _
  -- in between the depth is above the entry, so it is still there at the return
  have hkept : StackOK s₂ ∧ s₂.stack s.stackPtr = s₁.stack s.stackPtr :=
    hrun.invariant (I := fun t => StackOK t ∧ t.stack s.stackPtr = s₁.stack s.stackPtr)
      (fun _ _ _ ht hp h => ⟨containerStep_stackOK ht.1 h,
        (containerStep_below ht.1 (Nat.lt_of_lt_of_le htop hp) h).trans ht.2⟩)
      ⟨containerStep_stackOK hs hin, rfl⟩
  have hpop := (containerStep_moves hkept.1.active hout).returns hreturns
  have hptr : s'.stackPtr = s.stackPtr :=
    Nat.succ.inj (hpop.ptr.symm.trans (hback.trans hpush.ptr))
  refine ⟨hptr, hptr ▸ hkept.2, ?_⟩
  rw [hpop.active, hptr, hkept.2, hstack, Function.update_self]

set_option synthInstance.maxSize 500 in
/-- In both versions the background container installs a handler and calls the other one of the
sample table; an interrupt comes in between, and both are returned from. -/
theorem container_stack_discipline_nested : [Build.v1Mpu2, .v2Mpu4].Forall fun b =>
    ∃ s s₁ s₂ s₃ s', ContainerReachable b s ∧ containerStep b s (.callIn 0x800) = .ok s₁ ∧
      containerStep b s₁ (.irq 0x1800) = .ok s₂ ∧ s₂.stackPtr = 2 ∧
      containerStep b s₂ (.irqReturn 0x700) = .ok s₃ ∧ s₃.activeContainer = s₁.activeContainer ∧
      containerStep b s₃ (.callOut 0x1900) = .ok s' ∧ s₁.activeContainer = 1 ∧
      s'.activeContainer = s.activeContainer := by
  -- the registers the container leaves in memory are all 2: a call with two arguments
  have hruns : ∀ b ∈ [Build.v1Mpu2, .v2Mpu4], ∃ s₀, vmpuInitPost b State.blank sampleTable = .ok s₀ ∧
      ∃ s', containerStep b s₀ (.exec (arcAuxWrite State.blank.hw auxIrqCause 20) (fun _ => 2)
        (fun _ => ⟨containerCallOpcode b.version, 0x12345678, 0x4010, 0x30004⟩)) = .ok s' ∧
      ∃ s, containerStep b s' (.intOps 1 20 0x4444) = .ok s ∧
      ∃ s₁, containerStep b s (.callIn 0x800) = .ok s₁ ∧
      ∃ s₂, containerStep b s₁ (.irq 0x1800) = .ok s₂ ∧
      ∃ s₃, containerStep b s₂ (.irqReturn 0x700) = .ok s₃ ∧
      ∃ s', containerStep b s₃ (.callOut 0x1900) = .ok s' ∧
        arcIntActive s.hw ≠ true ∧ s₁.IrqSwitches b 0x1800 ∧ s₁.activeContainer = 1 ∧
        s₁.stackPtr = 1 ∧ s₂.stackPtr = 2 := by
    decide +kernel
  rw [List.forall_iff_forall_mem]
  intro b hb
  obtain ⟨s₀, hinit, _, hexec, s, hinstall, s₁, hin, s₂, hirq, s₃, hret, s', hout, hcalls, hswitches,
    hactive, hdepth₁, hdepth₂⟩ := hruns b hb
  have hs : ContainerReachable b s := ⟨_, _, _, _, s₀, _, hinit,
    Runs.cons trivial hexec (Runs.cons trivial hinstall (Runs.nil s))⟩
  have hs₁ : ContainerReachable b s₁ := ⟨_, _, _, _, s₀, _, hinit, Runs.cons trivial hexec
    (Runs.cons trivial hinstall (Runs.cons trivial hin (Runs.nil s₁)))⟩
  obtain ⟨-, -, -, hcall⟩ := container_stack_discipline hs
  obtain ⟨-, -, -, hint⟩ := container_stack_discipline hs₁
  obtain ⟨hptr, -, hback⟩ := hint (.irq _) s₂ [] s₂ (.irqReturn _) s₃ hswitches hirq (Runs.nil s₂) rfl
    trivial hret
  have hnested : Runs (containerStep b) (fun t _ => s₁.stackPtr ≤ t.stackPtr) s₁ _ s₃ :=
    Runs.cons (Nat.le_refl _) hirq (Runs.cons (by omega) hret (Runs.nil s₃))
  have hfirst := (hcall (.callIn _) s₁ _ s₃ (.callOut _) s' hcalls hin hnested hptr trivial hout).2.2
  exact ⟨s, s₁, s₂, s₃, s', hs, hin, hirq, hdepth₂, hret, hback, hout, hactive, hfirst⟩

end

end Embarc
