/-
Interrupts: the frame of the interrupted container.

The handler of an interrupt runs in a container of its own, and may execute any trap.  The
container stack does not say which of its entries a call has made and which an interrupt, and
either of the two gates takes off the last one: a handler that returns through the gate for
calls puts its r0 into the frame of the container it has interrupted.  The result is about
runs in which an activation is left through the gate it was entered by.
-/
import Embarc.Proofs.Traps

namespace Embarc

open Trace
open Nest (Layout Ledger Kind)

variable {m₀ : Machine} {saved : ExcReg → Word}

section
variable {b : Build} {cfgtbl : List ContainerConfig} (L : StackLayout b cfgtbl)

/-- No call goes to a container that is suspended, and either gate is taken by the activations
it is for. -/
def GateOK (m : Machine) (e : TrapEvent) : Prop :=
  TrapOK L (fun _ => True) m e ∧
    (e = .trap → trapIdOf m.st.hw = some .containerOut → m.act.kind = .call)

structure GateReachable (m : Machine) : Prop where
  exists_run : ∃ hw mem call cpu m₀ es, startup b hw mem call cfgtbl cpu = .ok m₀ ∧
    Runs (trapStep b) (GateOK L) m₀ es m

end

section
variable {b : Build} {cfgtbl : List ContainerConfig} {L : StackLayout b cfgtbl} {m m' : Machine}
  {e : TrapEvent}

theorem TrapOutcome.actAt (h : TrapOutcome L m m' e) {q : Nat} (hq : q ≤ m.ledger.depth)
    (hq' : q ≤ m'.ledger.depth) : m'.ledger.actAt q = m.ledger.actAt q := by
  have hleave : ∀ {skip k r}, Resumed b L.layout skip m m' k r →
      m'.ledger.actAt q = m.ledger.actAt q := by
    intro skip k r h
    have hdepth : m.ledger.depth ≠ 0 := h.depth
    rw [h.ledger] at hq' ⊢
    have hq' : q ≤ m.ledger.depth - 1 := hq'
    exact Ledger.actAt_leave (by omega)
  cases h with
  | executed cpu hw mem call h => rw [h]; rfl
  | trapStayed h => rw [h.ledger]
  | called t hid ht hchecked h => rw [h.ledger, Ledger.actAt_enter hq]
  | returned hid h => exact hleave h
  | irqReturned hid h => exact hleave h
  | irqStayed h => rw [h.ledger]
  | interrupted d hd h => rw [h.ledger, Ledger.actAt_enter hq]

theorem GateReachable.trapsOK (hv : b.version = .v1) (h : GateReachable L m) :
    TrapsOK L (fun _ => True) m := by
  obtain ⟨hw, mem, call, cpu, m₀, es, hstart, hrun⟩ := h.exists_run
  refine hrun.invariant ?_ ((startup_started hstart).trapsOK L _)
  exact fun _ _ _ hm hok h => ((trapStep_outcome hv hm hok.1 h).keeps hm hok.1).1

/-- What was running in `m₀` has been interrupted, and its handler is where it was entered. -/
structure Interrupted (L : StackLayout b cfgtbl) (m₀ : Machine) (saved : ExcReg → Word)
    (m : Machine) : Prop where
  suspends : Suspends b L.layout skipNone m₀ saved m
  kind : (m.ledger.actAt (m₀.ledger.depth + 1)).kind = .irq

theorem Interrupted.step (hv : b.version = .v1) (hi : Interrupted L m₀ saved m)
    (hm : TrapsOK L (fun _ => True) m) (hok : TrapOK L (fun _ => True) m e)
    (h : trapStep b m e = .ok m') (habove : m₀.st.stackPtr < m.st.stackPtr)
    (habove' : m₀.st.stackPtr < m'.st.stackPtr) : Interrupted L m₀ saved m' := by
  have hout := trapStep_outcome hv hm hok h
  obtain ⟨-, hkept⟩ := hout.keeps hm hok
  exact ⟨hi.suspends.kept rfl hkept trivial habove habove', hout.actAt habove habove' ▸ hi.kind⟩

theorem interrupted_run {es : List TrapEvent} (hv : b.version = .v1)
    (hm : TrapsOK L (fun _ => True) m) (hi : Interrupted L m₀ saved m)
    (hrun : Runs (trapStep b) (fun t e => GateOK L t e ∧ m₀.st.stackPtr < t.st.stackPtr) m es m')
    (habove' : m₀.st.stackPtr < m'.st.stackPtr) :
    TrapsOK L (fun _ => True) m' ∧ Interrupted L m₀ saved m' := by
  have hinv := hrun.invariant
    (I := fun t => TrapsOK L (fun _ => True) t ∧ (m₀.st.stackPtr < t.st.stackPtr →
      Interrupted L m₀ saved t)) ?_ ⟨hm, fun _ => hi⟩
  · exact ⟨hinv.1, hinv.2 habove'⟩
  · intro t e t' ht hok h
    have hout := trapStep_outcome hv ht.1 hok.1.1 h
    refine ⟨(hout.keeps ht.1 hok.1.1).1, fun hlt => ?_⟩
    exact (ht.2 hok.2).step hv ht.1 hok.1.1 h hok.2 hlt

/-- The step that comes back to an interrupted container is a return from the interrupt. -/
theorem Interrupted.resumed (hi : Interrupted L m₀ saved m) (hok : GateOK L m e)
    (hout : TrapOutcome L m m' e) (habove : m₀.st.stackPtr < m.st.stackPtr)
    (hback : m'.st.stackPtr ≤ m₀.st.stackPtr) :
    m.ledger.depth = m₀.ledger.depth + 1 ∧
      Resumed b L.layout skipNone m m' .irq m.cpu.sp := by
  have habove : m₀.ledger.depth < m.ledger.depth := habove
  have hback : m'.ledger.depth ≤ m₀.ledger.depth := hback
  have hstay : m'.ledger = m.ledger → False := by
    intro h
    rw [h] at hback
    omega
  have henter : ∀ {skip k d args}, Entered b L.layout skip m m' k d args → False := by
    intro skip k d args h
    rw [h.ledger] at hback
    have hback : m.ledger.depth + 1 ≤ m₀.ledger.depth := hback
    omega
  have hlast : ∀ {skip k r}, Resumed b L.layout skip m m' k r →
      m.ledger.depth = m₀.ledger.depth + 1 := by
    intro skip k r h
    rw [h.ledger] at hback
    have hback : m.ledger.depth - 1 ≤ m₀.ledger.depth := hback
    omega
  cases hout with
  | executed cpu hw mem call h =>
    rw [h] at hback
    have hback : m.ledger.depth ≤ m₀.ledger.depth := hback
    omega
  | trapStayed h => exact (hstay h.ledger).elim
  | called t hid ht hchecked h => exact (henter h).elim
  | returned hid h =>
    -- the running activation is the handler, which is not left through this gate
    have hkind := hi.kind
    rw [← hlast h, Ledger.actAt_depth] at hkind
    have hcall : m.ledger.act.kind = .call := hok.2 rfl hid
    rw [hcall] at hkind
    cases hkind
  | irqReturned hid h => exact ⟨hlast h, h⟩
  | irqStayed h => exact (hstay h.ledger).elim
  | interrupted d hd h => exact (henter h).elim

/-- **An interrupted container runs again as it did.**  Its registers are in the frame the
interrupt has saved, but for the branch target, which is cleared there.  While the handler
executes whatever it likes, all words of the frame stay, and the step that comes back to the
container loads all of them. -/
theorem interrupted_container_runs_again {m₁ m₂ : Machine} {es : List TrapEvent}
    (hv : b.version = .v1) (h : GateReachable L m) (hok : GateOK L m .irq)
    (hirq : trapStep b m .irq = .ok m₁) (hdelivered : m.st.stackPtr < m₁.st.stackPtr)
    (hrun : Runs (trapStep b) (fun t e => GateOK L t e ∧ m.st.stackPtr < t.st.stackPtr) m₁ es m₂)
    (habove : m.st.stackPtr < m₂.st.stackPtr) :
    (∀ r ∈ intExcFrame b, r ≠ .erbta → m₁.st.exc b (m.frame b) r = m.cpu.exc r) ∧
    (∀ r ∈ intExcFrame b, m₂.st.exc b (m.frame b) r = m₁.st.exc b (m.frame b) r) ∧
    ∀ e m₃, GateOK L m₂ e → trapStep b m₂ e = .ok m₃ → m₃.st.stackPtr ≤ m.st.stackPtr →
      RunsAgain b skipNone m (m₁.st.exc b (m.frame b)) m₃ .irq := by
  have hm := h.trapsOK hv
  have hout := trapStep_outcome hv hm hok.1 hirq
  have hm₁ := (hout.keeps hm hok.1).1
  cases hout with
  | irqStayed h =>
    have hptr : m₁.st.stackPtr = m.st.stackPtr := h.same.ptr
    omega
  | interrupted d hd hin =>
    have hdepth : m₁.ledger.depth = m.ledger.depth + 1 := by rw [hin.ledger]; rfl
    have hi : Interrupted L m (m₁.st.exc b (m.frame b)) m₁ := by
      refine ⟨hin.suspends hok.1 fun _ _ _ => rfl, ?_⟩
      rw [← hdepth, Ledger.actAt_depth, hin.ledger]
      rfl
    obtain ⟨hm₂, hi₂⟩ := interrupted_run hv hm₁ hi hrun habove
    refine ⟨?_, fun r hr => hi₂.suspends.exc r hr rfl, ?_⟩
    · intro r hr hne
      exact hin.exc r hr (by simpa [skipBta] using hne)
    · intro e m₃ hok₂ hstep hback
      have hout₂ := trapStep_outcome hv hm₂ hok₂.1 hstep
      obtain ⟨hlast, hres⟩ := hi₂.resumed hok₂ hout₂ habove hback
      have hroom : m₂.ledger.Room L.layout := by
        cases e with
        | exec cpu hw mem call =>
          cases hstep
          exact absurd habove (Nat.not_lt.mpr hback)
        | trap => exact hok₂.1.1
        | irq => exact hok₂.1
      exact hi₂.suspends.runsAgain rfl hres hlast hm₂.ledger hroom trivial fun _ h => h

end

/-! ### A handler that returns, and one that takes the other gate -/

def handlerTable : List ContainerConfig :=
  [sampleHost, sampleGuest [⟨0x4010, 16, acIrq⟩]]

def handlerLayout : StackLayout .v1Mpu2 handlerTable where
  lo := fun c => 0x1000 * c + 0x800
  background := by decide
  pos := by decide
  room := by decide
  disjoint := by
    have h : ∀ c < 2, ∀ d < 2, c ≠ d → stackTop handlerTable c ≤ 0x1000 * d + 0x800 ∨
        stackTop handlerTable d ≤ 0x1000 * c + 0x800 := by decide
    exact fun c d hc hd => h c hc d hd

set_option synthInstance.maxSize 500 in
/-- The background container is interrupted for container 1, whose handler returns. -/
theorem interrupted_container_runs_again_return :
    ∃ m m₁ m₂ m₃, GateReachable handlerLayout m ∧ trapStep .v1Mpu2 m .irq = .ok m₁ ∧
      m₁.st.stackCurrId = 1 ∧ trapStep .v1Mpu2 m₁ (m₁.upTo 0xBAD auxEcr 3) = .ok m₂ ∧
      trapStep .v1Mpu2 m₂ .trap = .ok m₃ ∧ m₃.st.stackCurrId = 0 ∧ m₃.cpu.sp = m.cpu.sp ∧
      m.cpu.exc .r0 = 0x55 ∧ m₃.cpu.exc .r0 = 0x55 ∧
      m₃.cpu.exc .status32 = m.cpu.exc .status32 := by
  have hrun : ∃ m₀, startup .v1Mpu2 State.blank.hw State.blank.mem State.blank.call handlerTable
        ⟨0, fun _ => 0, fun _ => 0⟩ = .ok m₀ ∧
      ∃ m, trapStep .v1Mpu2 m₀ (m₀.upTo 0x55 auxIrqCause 16) = .ok m ∧
      ∃ m₁, trapStep .v1Mpu2 m .irq = .ok m₁ ∧
      ∃ m₂, trapStep .v1Mpu2 m₁ (m₁.upTo 0xBAD auxEcr 3) = .ok m₂ ∧
      ∃ m₃, trapStep .v1Mpu2 m₂ .trap = .ok m₃ ∧
        (m.st.stackPtr = 0 ∧ m₁.st.stackPtr = 1 ∧ m₂.st.stackPtr = 1 ∧ m₃.st.stackPtr = 0) ∧
        (m₁.st.stackCurrId = 1 ∧ m₃.st.stackCurrId = 0 ∧ m.cpu.exc .r0 = 0x55) ∧
        (trapIdOf m₂.st.hw = some .intOut ∧ m₂.act.kind = .irq) ∧
        handlerLayout.lo m.st.stackCurrId + arcProcessorFrameSize .v1Mpu2 ≤ m.cpu.sp ∧
        handlerLayout.lo m₂.st.stackCurrId + arcProcessorFrameSize .v1Mpu2 ≤ m₂.cpu.sp := by
    decide +kernel
  obtain ⟨m₀, hstart, m, hexec, m₁, hirq, m₂, hexec₂, m₃, htrap, ⟨hptr, hptr₁, hptr₂, hptr₃⟩,
    ⟨hcurr, hcurr₃, hr0⟩, ⟨hid, hkind⟩, hroom, hroom₂⟩ := hrun
  have hm₀ : TrapsOK handlerLayout (fun _ => True) m₀ := (startup_started hstart).trapsOK _ _
  have hm : GateReachable handlerLayout m :=
    ⟨_, _, _, _, _, _, hstart, Runs.cons ⟨hm₀.upTo_ok .., nofun⟩ hexec (Runs.nil m)⟩
  have hok : GateOK handlerLayout m .irq := ⟨hroom, nofun⟩
  have hm₁ := ((trapStep_outcome rfl (hm.trapsOK rfl) hok.1 hirq).keeps (hm.trapsOK rfl) hok.1).1
  have hok₂ : GateOK handlerLayout m₂ .trap :=
    ⟨⟨hroom₂, by simp [hid], fun _ => hkind⟩, by simp [hid]⟩
  obtain ⟨hsaved, -, hback⟩ := interrupted_container_runs_again rfl hm hok hirq (by omega)
    (Runs.cons ⟨⟨hm₁.upTo_ok .., nofun⟩, by omega⟩ hexec₂ (Runs.nil m₂)) (by omega)
  have hagain := hback .trap m₃ hok₂ htrap (by omega)
  have hexc : ∀ r ∈ intExcFrame .v1Mpu2, r ≠ .erbta → m₃.cpu.exc r = m.cpu.exc r :=
    fun r hr hne => (hagain.exc r hr rfl nofun).trans (hsaved r hr hne)
  exact ⟨m, m₁, m₂, m₃, hm, hirq, hcurr, hexec₂, htrap, hcurr₃, hagain.sp, hr0,
    (hexc .r0 (by decide) (by decide)).trans hr0, hexc .status32 (by decide) (by decide)⟩

/-- The handler takes the gate for calls, and the container it has interrupted runs on with the
handler's r0. -/
theorem handler_call_out_changes_interrupted :
    ∃ m₀, startup .v1Mpu2 State.blank.hw State.blank.mem State.blank.call handlerTable
        ⟨0, fun _ => 0, fun _ => 0⟩ = .ok m₀ ∧
      ∃ m, trapStep .v1Mpu2 m₀ (m₀.upTo 0x55 auxIrqCause 16) = .ok m ∧
      ∃ m₁, trapStep .v1Mpu2 m .irq = .ok m₁ ∧
      ∃ m₂, trapStep .v1Mpu2 m₁ (m₁.upTo 0xBAD auxEcr 2) = .ok m₂ ∧
      ∃ m₃, trapStep .v1Mpu2 m₂ .trap = .ok m₃ ∧
        m.st.stackCurrId = 0 ∧ m₁.st.stackCurrId = 1 ∧ m₃.st.stackCurrId = 0 ∧
        trapIdOf m₂.st.hw = some .containerOut ∧
        m₂.st.exc .v1Mpu2 (m.frame .v1Mpu2) .r0 = 0x55 ∧
        m₃.st.exc .v1Mpu2 (m.frame .v1Mpu2) .r0 = 0xBAD ∧
        m.cpu.exc .r0 = 0x55 ∧ m₃.cpu.exc .r0 = 0xBAD := by
  decide +kernel

end Embarc
