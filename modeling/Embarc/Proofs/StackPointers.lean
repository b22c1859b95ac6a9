/-
Stack pointers over completed calls and interrupts.

A container that is not running has a saved stack pointer, and is entered from there: a call
builds a frame at it and begins above the frame, an interrupt begins right at it.  The two
gates undo this differently.  The one for calls saves a frame again and leaves the pointer
below it, the one for interrupts leaves the pointer where it is.  So a container that comes
to its gate with the stack pointer it has begun with is where it was before, whichever of the
two it was entered by and whatever has been nested in between.

The saved stack pointer of the container that runs is not in use: it is what the last
suspension has left behind, and is overwritten by the next.  What comes back for this container
is the stack pointer itself.
-/
import Embarc.Proofs.ContainerCalls
import Embarc.Proofs.InterruptReturn

namespace Embarc

open Trace
open Nest (Layout Ledger Kind)

variable {D : Nat} {due : Nat → Nat} {es : List TrapEvent}

section
variable {b : Build} {cfgtbl : List ContainerConfig} (L : StackLayout b cfgtbl)

/-- Besides what keeps the frames, a container comes to its gate with a balanced stack. -/
def BalancedOK (m : Machine) (e : TrapEvent) : Prop :=
  GateOK L m e ∧
    (e = .trap → trapIdOf m.st.hw = some .containerOut ∨ trapIdOf m.st.hw = some .intOut →
      m.cpu.sp = m.act.base)

/-- A call or an interrupt service that is completed: the step that enters, whatever happens
above it, and the step that comes back. -/
structure Serviced (m m' : Machine) : Prop where
  exists_steps : ∃ e m₁ es m₂ e', BalancedOK L m e ∧ trapStep b m e = .ok m₁ ∧
    m.st.stackPtr < m₁.st.stackPtr ∧
    Runs (trapStep b) (fun t e => BalancedOK L t e ∧ m.st.stackPtr < t.st.stackPtr) m₁ es m₂ ∧
    m.st.stackPtr < m₂.st.stackPtr ∧ BalancedOK L m₂ e' ∧ trapStep b m₂ e' = .ok m' ∧
    m'.st.stackPtr ≤ m.st.stackPtr

end

section
variable {b : Build} {cfgtbl : List ContainerConfig} {L : StackLayout b cfgtbl}
  {m m' : Machine} {e : TrapEvent}

/-! ### One step -/

/-- A step whose return is balanced moves the ledger as balanced activations do. -/
theorem TrapOutcome.move (hout : TrapOutcome L m m' e) (hok : BalancedOK L m e) :
    Ledger.Move L.layout m.ledger m'.ledger := by
  obtain ⟨⟨htrap, hgate⟩, hbalanced⟩ := hok
  have hleave : ∀ {skip k r}, Resumed b L.layout skip m m' k r → r = L.layout.restOf m.act →
      Ledger.Move L.layout m.ledger m'.ledger := by
    intro skip k r h hr
    rw [h.ledger, hr]
    exact .leave h.depth
  cases hout with
  | executed cpu hw mem call h =>
    rw [h]
    exact .run cpu.sp
  | trapStayed h =>
    rw [h.ledger]
    exact .run m.ledger.sp
  | called t hid ht hchecked h =>
    rw [h.ledger]
    exact .enter .call t.dstId
  | returned hid h =>
    refine hleave h ?_
    rw [Layout.restOf, hgate rfl hid, hbalanced rfl (Or.inl hid)]
  | irqReturned hid h =>
    refine hleave h ?_
    rw [Layout.restOf, htrap.2.2 hid, hbalanced rfl (Or.inr hid)]
  | irqStayed h =>
    rw [h.ledger]
    exact .run m.ledger.sp
  | interrupted d hd h =>
    rw [h.ledger]
    exact .enter .irq d

section
variable (hv : b.version = .v1)
include hv

section
variable (hm : TrapsOK L (fun _ => True) m)
include hm

theorem balanced_move (hok : BalancedOK L m e) (h : trapStep b m e = .ok m') :
    TrapsOK L (fun _ => True) m' ∧ Ledger.Move L.layout m.ledger m'.ledger := by
  have hout := trapStep_outcome hv hm hok.1.1 h
  exact ⟨(hout.keeps hm hok.1.1).1, hout.move hok⟩

/-! ### Runs above a depth -/

/-- A run that never goes below a depth, on which another container than the one that runs at
the depth is owed its saved stack pointer. -/
theorem due_run (hdue : m.ledger.Due L.layout D due (· ≠ m.ledger.ownerAt D))
    (hrun : Runs (trapStep b) (fun t e => BalancedOK L t e ∧ D ≤ t.st.stackPtr) m es m')
    (hdepth' : D ≤ m'.st.stackPtr) :
    m'.ledger.Due L.layout D due (· ≠ m.ledger.ownerAt D) ∧
      m'.ledger.ownerAt D = m.ledger.ownerAt D := by
  have hinv := hrun.invariant
    (I := fun t => TrapsOK L (fun _ => True) t ∧ (D ≤ t.st.stackPtr →
      t.ledger.Due L.layout D due (· ≠ m.ledger.ownerAt D) ∧
        t.ledger.ownerAt D = m.ledger.ownerAt D)) ?_ ⟨hm, fun _ => ⟨hdue, rfl⟩⟩
  · exact hinv.2 hdepth'
  · intro t e t' ht hok h
    obtain ⟨ht', hmove⟩ := balanced_move hv ht.1 hok.1 h
    obtain ⟨hdue, howner⟩ := ht.2 hok.2
    refine ⟨ht', fun hle => ⟨?_, (hmove.ownerAt hok.2 hle).trans howner⟩⟩
    refine hdue.move hmove hok.2 hle fun hD hcur => hcur ?_
    rw [← howner, ← hD, Ledger.ownerAt_depth]

/-- A run strictly above a depth, on which every container is owed its saved stack pointer, the
one that is suspended at the depth as well. -/
theorem due_run_above (hdue : m.ledger.Due L.layout D due fun _ => True)
    (hrun : Runs (trapStep b) (fun t e => BalancedOK L t e ∧ D < t.st.stackPtr) m es m')
    (habove' : D < m'.st.stackPtr) :
    TrapsOK L (fun _ => True) m' ∧ (m'.ledger.Due L.layout D due fun _ => True) ∧
      m'.ledger.susp D = m.ledger.susp D := by
  have hinv := hrun.invariant
    (I := fun t => TrapsOK L (fun _ => True) t ∧ (D < t.st.stackPtr →
      (t.ledger.Due L.layout D due fun _ => True) ∧ t.ledger.susp D = m.ledger.susp D)) ?_
    ⟨hm, fun _ => ⟨hdue, rfl⟩⟩
  · exact ⟨hinv.1, hinv.2 habove'⟩
  · intro t e t' ht hok h
    obtain ⟨ht', hmove⟩ := balanced_move hv ht.1 hok.1 h
    obtain ⟨hdue, hsusp⟩ := ht.2 hok.2
    refine ⟨ht', fun hlt => ⟨?_, (hmove.susp hok.2 hlt).trans hsusp⟩⟩
    have hne : t.ledger.depth ≠ D := Nat.ne_of_gt hok.2
    exact hdue.move hmove (Nat.le_of_lt hok.2) (Nat.le_of_lt hlt) fun hD => absurd hD hne

/-- The step that enters: it is an entry of the ledger, from a container with room for a frame. -/
theorem entered_above (hok : BalancedOK L m e)
    (h : trapStep b m e = .ok m') (habove : m.st.stackPtr < m'.st.stackPtr) :
    m.HasRoom L ∧ ∃ k d, m'.ledger = m.ledger.enter L.layout k d := by
  obtain ⟨-, hmove⟩ := balanced_move hv hm hok h
  have habove : m.ledger.depth < m'.ledger.depth := habove
  refine ⟨?_, ?_⟩
  · cases e with
    | exec cpu hw mem call =>
      cases h
      exact absurd habove (Nat.lt_irrefl _)
    | trap => exact hok.1.1.1
    | irq => exact hok.1.1
  · generalize hn : m'.ledger = n at hmove habove
    cases hmove with
    | run sp => exact absurd habove (Nat.lt_irrefl _)
    | enter k d => exact ⟨k, d, rfl⟩
    | leave hne =>
      have habove : m.ledger.depth < m.ledger.depth - 1 := habove
      omega

/-- **A completed call or interrupt service.**  The container that was running runs again with
its stack pointer, which it is suspended a frame below, and every other container is where it
was. -/
theorem Serviced.returns (h : Serviced L m m') :
    m'.st.stackPtr = m.st.stackPtr ∧ m'.st.stackCurrId = m.st.stackCurrId ∧
      m'.cpu.sp = m.cpu.sp ∧
      (m'.st.context m.st.stackCurrId).curSp + arcProcessorFrameSize b = m.cpu.sp ∧
      ∀ c, c ≠ m.st.stackCurrId → (m'.st.context c).curSp = (m.st.context c).curSp := by
  obtain ⟨e, m₁, es, m₂, e', hok, hin, habove, hrun, habove₂, hok₂, hout, hback⟩ := h.exists_steps
  obtain ⟨hroom, k, d, henter⟩ := entered_above hv hm hok hin habove
  have hm₁ := (balanced_move hv hm hok hin).1
  have hsize : arcProcessorFrameSize b ≤ m.cpu.sp := Nat.le_trans (Nat.le_add_left _ _) hroom
  -- after the entry everybody is owed where they rest then
  have hdue : m₁.ledger.Due L.layout m.st.stackPtr m₁.ledger.rest fun _ => True := by
    rw [henter]
    exact .entered m.ledger k d
  have hsusp : m₁.ledger.susp m.st.stackPtr =
      ⟨m.st.stackCurrId, m.cpu.sp - L.layout.size, m.act⟩ := by
    rw [henter]
    show Function.update m.ledger.susp m.st.stackPtr _ m.st.stackPtr = _
    rw [Function.update_self]
    rfl
  obtain ⟨hm₂, hdue₂, hsusp₂⟩ := due_run_above hv hm₁ hdue hrun habove₂
  obtain ⟨-, hmove⟩ := balanced_move hv hm₂ hok₂ hout
  obtain ⟨hptr, hcur, hsp⟩ := hmove.resumes habove₂ hback
  rw [hsusp₂, hsusp] at hcur hsp
  have hdue₃ := hdue₂.move hmove (Nat.le_of_lt habove₂) (Nat.le_of_eq hptr.symm)
    fun hD => absurd hD (Nat.ne_of_gt habove₂)
  have hrest : ∀ c, (m'.st.context c).curSp =
      Function.update m.ledger.rest m.st.stackCurrId (m.cpu.sp - arcProcessorFrameSize b) c := by
    intro c
    refine (hdue₃.rest hback (c := c) trivial).trans ?_
    rw [henter]
    rfl
  refine ⟨hptr, hcur, hsp.trans (Nat.sub_add_cancel hsize), ?_, ?_⟩
  · rw [hrest, Function.update_self]
    exact Nat.sub_add_cancel hsize
  · intro c hc
    rw [hrest, Function.update_of_ne hc]
    rfl

end

end

/-- **Stack pointers do not drift.**  Over any sequence of completed calls and interrupt services,
the saved stack pointer of every container but the one that runs at their depth comes back to what
it was.  After each of them the container that runs has the stack pointer it was suspended with,
and its saved one is a frame below. -/
theorem stack_pointers_return (hv : b.version = .v1) (h : GateReachable L m) :
    (∀ es m', Runs (trapStep b) (fun t e => BalancedOK L t e ∧ m.st.stackPtr ≤ t.st.stackPtr)
        m es m' → m'.st.stackPtr = m.st.stackPtr →
      m'.st.stackCurrId = m.st.stackCurrId ∧
        ∀ c, c ≠ m.st.stackCurrId → (m'.st.context c).curSp = (m.st.context c).curSp) ∧
    ∀ m', Serviced L m m' →
      m'.st.stackPtr = m.st.stackPtr ∧ m'.st.stackCurrId = m.st.stackCurrId ∧
        m'.cpu.sp = m.cpu.sp ∧
        (m'.st.context m.st.stackCurrId).curSp + arcProcessorFrameSize b = m.cpu.sp ∧
        ∀ c, c ≠ m.st.stackCurrId → (m'.st.context c).curSp = (m.st.context c).curSp := by
  have hm := h.trapsOK hv
  refine ⟨?_, fun m' hs => hs.returns hv hm⟩
  intro es m' hrun hback
  have hcur : m.ledger.ownerAt m.st.stackPtr = m.st.stackCurrId := Ledger.ownerAt_depth
  have hcur' : m'.ledger.ownerAt m'.st.stackPtr = m'.st.stackCurrId := Ledger.ownerAt_depth
  obtain ⟨hdue, howner⟩ := due_run (D := m.st.stackPtr) hv hm (.here m.ledger) hrun
    (Nat.le_of_eq hback.symm)
  rw [hcur] at hdue howner
  refine ⟨?_, fun c hc => hdue.rest (Nat.le_of_eq hback) hc⟩
  rw [← hcur', hback]
  exact howner

end

/-! ### The first call of the background container -/

set_option synthInstance.maxSize 500 in
/-- The background container calls container 1, which returns: container 1 rests where it did, and
the background container has its stack pointer again. -/
theorem stack_pointers_return_call :
    ∃ m m', GateReachable loopLayout m ∧ Serviced loopLayout m m' ∧ m'.cpu.sp = m.cpu.sp ∧
      (m'.st.context 1).curSp = (m.st.context 1).curSp := by
  have hrun : ∃ m₀, startup .v1Mpu2 State.blank.hw State.blank.mem (fun _ => callOne) loopTable
        startCpu = .ok m₀ ∧
      ∃ m, trapStep .v1Mpu2 m₀ (m₀.upTo 0 auxEcr 1) = .ok m ∧
      ∃ t, m.asksFor .v1Mpu2 = .ok t ∧
      ∃ m₁, trapStep .v1Mpu2 m .trap = .ok m₁ ∧
      ∃ m₂, trapStep .v1Mpu2 m₁ (m₁.upTo 0 auxEcr 2) = .ok m₂ ∧
      ∃ m₃, trapStep .v1Mpu2 m₂ .trap = .ok m₃ ∧
        (m.st.stackPtr = 0 ∧ m₁.st.stackPtr = 1 ∧ m₂.st.stackPtr = 1 ∧ m₃.st.stackPtr = 0) ∧
        (trapIdOf m.st.hw = some .containerIn ∧ t.args = 0) ∧
        (trapIdOf m₂.st.hw = some .containerOut ∧ m₂.act.kind = .call ∧
          m₂.cpu.sp = m₂.act.base) ∧ m.st.stackCurrId = 0 ∧
        loopLayout.lo m.st.stackCurrId + arcProcessorFrameSize .v1Mpu2 ≤ m.cpu.sp ∧
        loopLayout.lo m₂.st.stackCurrId + arcProcessorFrameSize .v1Mpu2 ≤ m₂.cpu.sp := by
    decide +kernel
  obtain ⟨m₀, hstart, m, hexec, t, ht, m₁, hin, m₂, hexec₂, m₃, hout, ⟨hptr, hptr₁, hptr₂, hptr₃⟩,
    ⟨hid, hargs⟩, ⟨hid₂, hkind, hbalanced⟩, hcurr, hroom, hroom₂⟩ := hrun
  have hm₀ : TrapsOK loopLayout (fun _ => True) m₀ := (startup_started hstart).trapsOK _ _
  have hm : GateReachable loopLayout m :=
    ⟨_, _, _, _, _, _, hstart, Runs.cons ⟨hm₀.upTo_ok .., nofun⟩ hexec (Runs.nil m)⟩
  have hok : BalancedOK loopLayout m .trap := by
    refine ⟨⟨⟨hroom, fun _ t' ht' => ?_, by simp [hid]⟩, by simp [hid]⟩, by simp [hid]⟩
    obtain rfl := Except.ok.inj (ht.symm.trans ht')
    refine ⟨fun _ q hq => absurd hq (by omega), ?_⟩
    rw [hargs]
    decide
  have hm₁ := (balanced_move rfl (hm.trapsOK rfl) hok hin).1
  have hok₂ : BalancedOK loopLayout m₂ .trap :=
    ⟨⟨⟨hroom₂, by simp [hid₂], by simp [hid₂]⟩, fun _ _ => hkind⟩, fun _ _ => hbalanced⟩
  have hs : Serviced loopLayout m m₃ := by
    refine ⟨_, _, _, _, _, hok, hin, by omega, Runs.cons ⟨⟨⟨hm₁.upTo_ok .., nofun⟩, nofun⟩, ?_⟩
      hexec₂ (Runs.nil m₂), by omega, hok₂, hout, by omega⟩
    omega
  obtain ⟨-, -, hsp, -, hrest⟩ := (stack_pointers_return rfl hm).2 m₃ hs
  exact ⟨m, m₃, hm, hs, hsp, hrest 1 (by omega)⟩

/-- The saved stack pointer of the background container itself is not what it was: before its first
call it has none. -/
theorem caller_saved_pointer_changes :
    ∃ m₀, startup .v1Mpu2 State.blank.hw State.blank.mem (fun _ => callOne) loopTable startCpu =
        .ok m₀ ∧
      ∃ m, trapStep .v1Mpu2 m₀ (m₀.upTo 0 auxEcr 1) = .ok m ∧
      ∃ m₁, trapStep .v1Mpu2 m .trap = .ok m₁ ∧
      ∃ m₂, trapStep .v1Mpu2 m₁ (m₁.upTo 0 auxEcr 2) = .ok m₂ ∧
      ∃ m₃, trapStep .v1Mpu2 m₂ .trap = .ok m₃ ∧
        m.st.stackCurrId = 0 ∧ m₁.st.stackCurrId = 1 ∧ m₃.st.stackCurrId = 0 ∧
        m₂.cpu.sp = m₂.act.base ∧ m₃.cpu.sp = m.cpu.sp ∧
        (m.st.context 0).curSp = 0 ∧
        (m₃.st.context 0).curSp + arcProcessorFrameSize .v1Mpu2 = 0x1000 := by
  decide +kernel

end Embarc
