/-
Transmit aborts that the IIC master never hears of.

The interrupt routine reads `IC_INTR_STAT` once, at its beginning, and looks an abort up only if it
was in there; at its end it reads `IC_CLR_INTR`, which clears every interrupt that is pending by
then.  An abort that was pending at the beginning is found and reported.  One that comes up while
the routine runs is cleared at its end and nobody has seen it: the transfer goes on as if nothing
had happened.  A command that flushes or resets the device, and a polled call, clear an abort that
is pending, too.

Whether the abort that is pending is going to be seen can be told from how far the routine has got
(`IicIsrPc.sees`); if it is not, the end of the routine loses it, whatever happens until then.
-/
import Embarc.Proofs.IicCompletion

namespace Embarc

variable {s s' : IicBus} {op : IicBusOp}

/-! ### The abort flag -/

theorem hasFlag_flags (s : IicBus) (others mask : Word) :
    hasFlag (s.flags others &&& mask) icIntrTxAbrt =
      (s.abrt.isSome && hasFlag mask icIntrTxAbrt) := by
  simp only [IicBus.flags, hasFlag]
  cases s.abrt with
  | none =>
    have hoff : others &&& ~~~icIntrTxAbrt &&& mask &&& icIntrTxAbrt = 0 := by
      rw [BitVec.and_assoc, BitVec.and_comm mask, ← BitVec.and_assoc, BitVec.and_assoc others]
      simp
    simp [hoff]
  | some source =>
    have hon : (others ||| icIntrTxAbrt) &&& mask &&& icIntrTxAbrt = mask &&& icIntrTxAbrt := by
      ext i hi
      simp only [BitVec.getElem_and, BitVec.getElem_or]
      cases others[i] <;> cases mask[i] <;> cases icIntrTxAbrt[i] <;> rfl
    simp [hon]

/-! ### Whether the pending abort is going to be seen -/

/-- The running execution looks the pending abort up. -/
def IicIsrPc.sees : IicIsrPc → Bool
  | .entered _ status => hasFlag status icIntrTxAbrt
  | .served _ status _ => hasFlag status icIntrTxAbrt
  | .counted _ status => hasFlag status icIntrTxAbrt
  | .aborted _ => true
  | .sourced _ _ => true
  | _ => false

/-- An abort that is unreported is pending, and one that the routine has looked up is an error. -/
structure IicBus.Inv (s : IicBus) : Prop where
  pending : s.unreported = true → s.abrt.isSome = true
  found : ∀ d err, s.pc = .sourced d err → err ≠ .none

/-- No abort is lost so far, and none is going to be by the running execution. -/
def IicBus.Safe (s : IicBus) : Prop :=
  s.lost = false ∧ (s.unreported = true → s.pc = .idle ∨ s.pc.sees = true)

/-- An abort is raised during a transfer only while the interrupt routine does not run, or is still to
look up another one that was cleared under it.  The routine is not entered on an abort that it cannot
see, without a buffer or with it masked, and no call clears one that it is still to report. -/
def IicBusOp.Timely (s : IicBus) : IicBusOp → Prop
  | .flushTx => s.Takes → s.unreported = false
  | .reset => s.mst.dev.opnCnt ≠ 0 → s.unreported = false
  | .poll _ _ => s.unreported = false
  | .abort _ => s.abrt = none → s.Live → s.pc = .idle ∨ s.pc.sees = true
  | .enter _ => s.unreported = true →
      (s.mst.dev.buf s.mst.dev.serves).buf ≠ 0 ∧ hasFlag s.mst.dev.mask icIntrTxAbrt = true
  | _ => True

theorem IicBus.Inv.clear (h : s.Inv) (mst : IicMst) : (s.clear mst).Inv :=
  ⟨fun hc => absurd hc Bool.false_ne_true, h.found⟩

theorem iicBusStep_inv (h : s.Inv) (hstep : iicBusStep s op = .ok s') : s'.Inv := by
  cases op with simp only [iicBusStep] at hstep
  | command | call =>
    split at hstep <;> cases hstep
    exact { h with }
  | flushTx | reset =>
    split at hstep <;> cases hstep
    split
    · exact h.clear _
    · exact h
  | poll raw clrTxOver =>
    (repeat' split at hstep) <;> cases hstep
    · exact h.clear _
    · exact { h with }
  | abort source =>
    split at hstep <;> cases hstep
    · exact h
    · exact ⟨fun _ => rfl, h.found⟩
  | enter status =>
    (repeat' split at hstep) <;> cases hstep
    · exact ⟨h.pending, by simp⟩
    · exact ⟨h.pending, by simp⟩
  | serve | leave | leaveErr =>
    split at hstep <;> cases hstep
    exact ⟨h.pending, by simp⟩
  | readRaw raw clrTxOver =>
    (repeat' split at hstep) <;> cases hstep
    all_goals exact ⟨h.pending, by simp⟩
  | readSource =>
    split at hstep <;> cases hstep
    case h_1 d source hpc hsome =>
      refine ⟨h.pending, ?_⟩
      rintro d' err ⟨⟩
      exact iicAbrtErr_ne_none source
  | clrTxAbrt | clrIntr =>
    split at hstep <;> cases hstep
    exact ⟨by simp, by simp⟩

theorem IicBus.safe_clear_iff (s : IicBus) (mst : IicMst) :
    (s.clear mst).Safe ↔ s.Safe ∧ s.unreported = false := by
  cases hun : s.unreported <;> simp [IicBus.Safe, IicBus.clear, hun]

/-- **A step loses an abort, or is bound to, exactly if it is not timely.** -/
theorem iicBusStep_safe_iff (h : s.Inv) (hstep : iicBusStep s op = .ok s') :
    s'.Safe ↔ s.Safe ∧ op.Timely s := by
  have hreported (hnone : s.abrt = none) : s.unreported = false := by
    rw [Bool.eq_false_iff]
    exact fun hun => absurd (h.pending hun) (by simp [hnone])
  cases op with simp only [iicBusStep] at hstep
  | flushTx | reset =>
    split at hstep <;> cases hstep
    split
    case isTrue hacts => simp [s.safe_clear_iff, IicBusOp.Timely, hacts]
    case isFalse hacts => simp [IicBusOp.Timely, hacts]
  | poll raw clrTxOver =>
    (repeat' split at hstep) <;> cases hstep
    case h_1 => exact s.safe_clear_iff _
    case h_2 hnone => simp [IicBus.Safe, IicBusOp.Timely, hreported hnone]
  | abort source =>
    split at hstep <;> cases hstep
    case abort.isTrue hsome =>
      have hpending : s.abrt ≠ none := Option.isSome_iff_ne_none.mp hsome
      simp [IicBusOp.Timely, hpending]
    case abort.isFalse hnone =>
      have habrt : s.abrt = none := by simpa using hnone
      simp [IicBus.Safe, IicBusOp.Timely, hreported habrt, habrt]
  | enter status =>
    (repeat' split at hstep) <;> cases hstep
    case enter.isTrue.isTrue hidle hbuf =>
      simp only [IicBus.Safe, IicBusOp.Timely, hidle, IicIsrPc.sees, hasFlag_flags, true_or,
        implies_true, and_true, reduceCtorEq, false_or, Bool.and_eq_true]
      refine and_congr_right fun _ => forall_congr' fun hun => ?_
      rw [h.pending hun]
      exact ⟨fun hsees => ⟨hbuf, hsees.2⟩, fun hsees => ⟨rfl, hsees.2⟩⟩
    case enter.isTrue.isFalse hidle hbuf =>
      simp [IicBus.Safe, IicBusOp.Timely, hidle, IicIsrPc.sees, not_not.mp hbuf]
  | readRaw raw clrTxOver =>
    (repeat' split at hstep) <;> cases hstep
    case h_1.isTrue.isFalse hpc hflag hnone =>
      have habrt : s.abrt = none := by simpa using hnone
      simp [IicBus.Safe, IicBusOp.Timely, hreported habrt]
    all_goals simp [IicBus.Safe, IicBusOp.Timely, IicIsrPc.sees, *]
  | _ =>
    split at hstep <;> cases hstep
    simp [IicBus.Safe, IicBusOp.Timely, IicIsrPc.sees, *]

/-! ### Whole runs -/

/-- An abort that was unreported and is no longer so has been lost, or `err_state` shows it and
the error callback has been called, if it is set. -/
def IicReports (s : IicBus) (op : IicBusOp) : Prop :=
  ∀ s', iicBusStep s op = .ok s' → s.unreported = true → s'.unreported = false →
    s'.lost = true ∨ s'.mst.errState ≠ .none ∧ s'.calls = s.calls ++ s'.mst.callOf .err

theorem IicBus.Inv.reports (h : s.Inv) (op : IicBusOp) : IicReports s op := by
  intro s' hstep hun hreported
  cases op with simp only [iicBusStep] at hstep
  | clrTxAbrt =>
    split at hstep <;> cases hstep
    case h_1 d err hpc => exact Or.inr ⟨h.found d err hpc, rfl⟩
  | clrIntr =>
    split at hstep <;> cases hstep
    exact Or.inl (by simp [hun])
  | flushTx | reset =>
    split at hstep <;> cases hstep
    split_ifs at hreported ⊢
    · exact Or.inl (by simp [IicBus.clear, hun])
    · exact absurd (hun.symm.trans hreported) (by simp)
  | poll raw clrTxOver =>
    (repeat' split at hstep) <;> cases hstep
    · exact Or.inl (by simp [IicBus.clear, hun])
    · exact absurd (hun.symm.trans hreported) (by simp)
  | _ =>
    -- every other step leaves an abort unreported
    have hkept : s'.unreported = true := by
      (repeat' split at hstep) <;> cases hstep <;> simp [hun]
    exact absurd hkept (by simp [hreported])

instance (s : IicBus) (op : IicBusOp) : Decidable (op.Timely s) :=
  match op with
  | .abort _ | .enter _ | .flushTx | .reset => inferInstanceAs (Decidable (_ → _))
  | .poll _ _ => inferInstanceAs (Decidable (_ = _))
  | .command _ | .call _ | .serve _ _ | .leave | .readRaw _ _ | .readSource | .clrTxAbrt | .leaveErr
  | .clrIntr => isTrue trivial

def iicBusSending : IicBus :=
  { mst := iicMstSending, pc := .idle, abrt := none, calls := []
    unreported := false, lost := false }

/-- The slave does not acknowledge, and then the interrupt comes. -/
def iicAbortFirst : List IicBusOp :=
  [.abort iicMstAbrtAddrNoack, .enter icIntrTxEmpty, .serve 1 [], .leave, .readRaw 0 0, .readSource,
    .clrTxAbrt, .leaveErr, .clrIntr]

/-- The interrupt comes first, and the slave does not acknowledge while the routine runs. -/
def iicAbortLate : List IicBusOp :=
  [.enter icIntrTxEmpty, .abort iicMstAbrtAddrNoack, .serve 1 [], .leave, .readRaw 0 0, .clrIntr]

/-- After these steps the abort is cleared, nobody has heard of it, and the transfer goes on. -/
def IicCleared (ops : List IicBusOp) : Prop :=
  ∃ s', Trace.Runs iicBusStep (fun _ _ => True) iicBusSending ops s' ∧
    s'.pc = .idle ∧ s'.lost = true ∧ s'.abrt = none ∧ s'.mst.errState = .none ∧
    s'.calls = [] ∧ s'.Live

end Embarc
