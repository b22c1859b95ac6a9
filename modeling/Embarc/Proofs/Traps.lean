/-
The version 1 machine, one step at a time.

A container executes, traps or is interrupted, and the runtime stays with it, enters another
container or returns.  `TrapOutcome` lists what can come of a step, with the event it comes
of; the results about runs are by cases on it.  `strict` are the containers whose frames a
run has to keep; a call into one of them while it is suspended is what a run has to avoid.
-/
import Embarc.Proofs.SavedFrames

namespace Embarc

open Trace
open Nest (Layout Ledger Kind)

variable {skip : ExcReg → Bool} {k : Kind}

section
variable {b : Build} {cfgtbl : List ContainerConfig} (L : StackLayout b cfgtbl)
  (strict : Nat → Prop)

/-- What a run keeps to: there is room for a frame at every entry, a call that is made has
arguments that fit into a frame and does not go to a strict container that is suspended, and
only an interrupt handler returns through the gate for interrupts. -/
def TrapOK (m : Machine) : TrapEvent → Prop
  | .exec cpu _ mem _ => ExecOK b m cpu mem
  | .trap => m.HasRoom L ∧
      (trapIdOf m.st.hw = some .containerIn → ∀ t, m.asksFor b = .ok t →
        (strict t.dstId → m.NotSuspended t.dstId) ∧ excOfs b .r0 + t.args ≤ arcExcFrameSize b) ∧
      (trapIdOf m.st.hw = some .intOut → m.act.kind = .irq)
  | .irq => m.HasRoom L

/-- What holds in every state of such a run. -/
structure TrapsOK (m : Machine) : Prop where
  ledger : m.ledger.OK L.layout strict
  count : m.st.containerCount = cfgtbl.length
  active : m.st.activeContainer < m.st.containerCount
  handlers : ∀ i, (m.st.intHandler i).id < m.st.containerCount

/-- What a step has come to. -/
inductive TrapOutcome (m m' : Machine) : TrapEvent → Prop
  | executed (cpu : Cpu) (hw : Hw) (mem : Addr → Word) (call : Word → ContainerCall)
      (h : m' = m.exec cpu hw mem call) : TrapOutcome m m' (.exec cpu hw mem call)
  | trapStayed (h : Stayed b L.layout m m') : TrapOutcome m m' .trap
  | called (t : CallTarget) (hid : trapIdOf m.st.hw = some .containerIn)
      (ht : m.asksFor b = .ok t) (hchecked : CallChecked m.st t)
      (h : Entered b L.layout skipNone m m' .call t.dstId t.args) : TrapOutcome m m' .trap
  | returned (hid : trapIdOf m.st.hw = some .containerOut)
      (h : Resumed b L.layout skipNone m m' .call (m.cpu.sp - L.layout.size)) :
      TrapOutcome m m' .trap
  | irqReturned (hid : trapIdOf m.st.hw = some .intOut)
      (h : Resumed b L.layout skipNone m m' .irq m.cpu.sp) : TrapOutcome m m' .trap
  | irqStayed (h : Stayed b L.layout m m') : TrapOutcome m m' .irq
  | interrupted (d : Nat) (hd : d < m.st.containerCount)
      (h : Entered b L.layout skipBta m m' .irq d 0) : TrapOutcome m m' .irq

end

section
variable {b : Build} {cfgtbl : List ContainerConfig} {L : StackLayout b cfgtbl}
  {strict : Nat → Prop} {m m' : Machine} {e : TrapEvent}

theorem TrapsOK.known (hm : TrapsOK L strict m) {d : Nat} (hd : d < m.st.containerCount) :
    L.layout.known d := by
  rw [hm.count] at hd
  exact hd

theorem Started.trapsOK (h : Started b cfgtbl m) (L : StackLayout b cfgtbl)
    (strict : Nat → Prop) : TrapsOK L strict m where
  ledger := h.ledger_ok L strict
  count := h.count
  active := by
    rw [h.active, h.count]
    exact L.background
  handlers := by
    intro i
    rw [h.count]
    rcases h.owners i with hi | hi
    · rw [hi]
      exact L.background
    · exact hi

theorem trapStep_outcome (hv : b.version = .v1) (hm : TrapsOK L strict m)
    (hok : TrapOK L strict m e) (h : trapStep b m e = .ok m') : TrapOutcome L m m' e := by
  have hknown := fun d hd => hm.known (d := d) hd
  cases e with
  | exec cpu hw mem call => exact .executed _ _ _ _ (Except.ok.inj h).symm
  | trap =>
    obtain ⟨hroom, hask, -⟩ := hok
    have hfit := fun hid t ht => (hask hid t ht).2
    rcases trap_entry rfl hm.ledger hroom hknown hv hfit h with
      hstay | ⟨hid, t, ht, hchecked, hin⟩ | ⟨hid, hout⟩ | ⟨hid, hout⟩
    · exact .trapStayed hstay
    · exact .called t hid ht hchecked hin
    · exact .returned hid hout
    · exact .irqReturned hid hout
  | irq =>
    rcases excEntryInt_entry rfl hm.ledger hok hknown hv hm.handlers h with hstay | ⟨d, hd, hin⟩
    · exact .irqStayed hstay
    · exact .interrupted d hd hin

/-! ### What a step keeps -/

theorem Stayed.trapsOK (h : Stayed b L.layout m m') (hm : TrapsOK L strict m) :
    TrapsOK L strict m' where
  ledger := h.ledger_ok hm.ledger
  count := h.same.count.trans hm.count
  active := by
    rw [h.same.active, h.same.count]
    exact hm.active
  handlers := by
    rw [h.same.count]
    exact h.handlers _ (Nat.zero_lt_of_lt hm.active) hm.active hm.handlers

theorem Entered.trapsOK {d args : Nat} (h : Entered b L.layout skip m m' k d args)
    (hm : TrapsOK L strict m) (hroom : m.HasRoom L) (hd : d < m.st.containerCount)
    (hcall : k = .call → d ≠ m.st.stackCurrId) (hstrict : k = .call → strict d → m.NotSuspended d) :
    TrapsOK L strict m' where
  ledger := h.ledger_ok hm.ledger hroom (hm.known hd) hcall hstrict
  count := h.count.trans hm.count
  active := by
    rw [h.count]
    rcases h.active with hactive | ⟨-, hactive⟩
    · rw [hactive]
      exact hd
    · rw [hactive]
      exact hm.active
  handlers := by
    rw [h.count, h.intHandler]
    exact hm.handlers

theorem Resumed.trapsOK {r : Addr} (h : Resumed b L.layout skip m m' k r) (hm : TrapsOK L strict m)
    (hledger : m'.ledger.OK L.layout strict) : TrapsOK L strict m' where
  ledger := hledger
  count := h.count.trans hm.count
  active := by
    rcases h.active with hactive | ⟨-, hactive⟩
    · rw [hactive, h.count, hm.count]
      exact hledger.cur_known
    · rw [hactive, h.count]
      exact hm.active
  handlers := by
    rw [h.count, h.intHandler]
    exact hm.handlers

/-- **A step keeps the machine in order, and the frames of strict containers that stay.** -/
theorem TrapOutcome.keeps (hout : TrapOutcome L m m' e) (hm : TrapsOK L strict m)
    (hok : TrapOK L strict m e) :
    TrapsOK L strict m' ∧ FramesKept L.layout strict m m' := by
  cases hout with
  | executed cpu hw mem call h =>
    subst h
    exact ⟨{ hm with ledger := hok.ledger_ok hm.ledger }, hok.kept rfl⟩
  | trapStayed h => exact ⟨h.trapsOK hm, h.kept rfl hm.ledger hok.1⟩
  | called t hid ht hchecked h =>
    have hother := fun _ : Kind.call = .call => hchecked.other
    have hfree := fun _ : Kind.call = .call => (hok.2.1 hid t ht).1
    exact ⟨h.trapsOK hm hok.1 hchecked.count hother hfree,
      h.kept rfl hm.ledger hok.1 (hm.known hchecked.count) hother hfree⟩
  | returned hid h =>
    exact ⟨h.trapsOK hm (h.ledger_ok_call hm.ledger hok.1), h.kept rfl hm.ledger hok.1⟩
  | irqReturned hid h =>
    exact ⟨h.trapsOK hm (h.ledger_ok_irq hm.ledger hok.1 (hok.2.2 hid)),
      h.kept rfl hm.ledger hok.1⟩
  | irqStayed h => exact ⟨h.trapsOK hm, h.kept rfl hm.ledger hok⟩
  | interrupted d hd h =>
    exact ⟨h.trapsOK hm hok hd nofun nofun, h.kept rfl hm.ledger hok (hm.known hd) nofun nofun⟩

end

/-! ### Runs that are given event by event -/

/-- A container executes, with r0 set, up to a trap or an interrupt the processor reports in
one of its registers. -/
def Machine.upTo (m : Machine) (r0 reg cause : Word) : TrapEvent :=
  .exec { m.cpu with exc := Function.update m.cpu.exc .r0 r0 } (arcAuxWrite m.st.hw reg cause)
    m.st.mem m.st.call

theorem TrapsOK.upTo_ok {b : Build} {cfgtbl : List ContainerConfig} {L : StackLayout b cfgtbl}
    {strict : Nat → Prop} {m : Machine} (hm : TrapsOK L strict m) (r0 reg cause : Word) :
    TrapOK L strict m (m.upTo r0 reg cause) :=
  ⟨hm.ledger.sp_le, fun _ _ _ _ _ => rfl⟩

end Embarc
