/-
What `dw_gpio.c` records of a port, over whole runs of calls.

The driver keeps the directions and the enabled interrupts beside the registers.  It reads them back
behind every change, and turns the interrupt of port A on with the first bit and off with the last.
-/
import Embarc.Lib.Field
import Embarc.Proofs.GpioEdges

namespace Embarc

/-- The calls that may change something. -/
inductive DwGpioOp where
  | opens (dir : Word)
  | close
  | write (val mask : Word)
  | control (cmd : DwGpioCtrl)

def dwGpioStep (s : DwGpio) : DwGpioOp → Except DwGpioStop DwGpio
  | .opens dir => .ok (dwGpioOpen s dir).2
  | .close => .ok (dwGpioClose s).2
  | .write val mask => .ok (dwGpioWrite s val mask).2
  | .control cmd => (dwGpioControl s cmd).map (·.2)

namespace DwGpio

variable {s s' : DwGpio}

/-- What is recorded is what the registers hold, and the interrupt of port A is on exactly if that
of some bit is. -/
structure Agrees (s : DwGpio) : Prop where
  direction : s.direction &&& s.validBitMask = s.readDir &&& s.validBitMask
  method : s.no = dwGpioPortA → s.intMethod = s.regs.inten
  irq : s.no = dwGpioPortA → s.hasIntno = true → s.irq = decide (s.regs.inten ≠ 0)

theorem masked_and (old mask val : Word) : masked old mask val &&& mask = val &&& mask := by
  have hwithin : val &&& mask &&& mask = val &&& mask := by rw [BitVec.and_assoc, BitVec.and_self]
  exact Field.set_get_self hwithin

/-- Nothing has to be known of a port before its first user. -/
theorem agrees_first (hno : ¬s.no > dwGpioPortD) (hfirst : ¬s.opnCnt + 1 > 1) (dir : Word) :
    (dwGpioOpen s dir).2.Agrees := by
  simp only [dwGpioOpen, if_neg hno, if_neg hfirst]
  obtain ⟨no, hasIntno, valid, _, _, _, _, _, _, regs⟩ := s
  have hdir : dir &&& valid =
      Function.update regs.ddr no (masked (regs.ddr no) valid dir) no &&& valid := by
    rw [Function.update_self, masked_and]
  by_cases hA : no = dwGpioPortA
  · subst hA
    have hoff : regs.inten &&& ~~~dwGpioMaskAll = 0 := BitVec.and_zero
    cases hasIntno with
    | false => exact ⟨hdir, fun _ => rfl, nofun⟩
    | true => exact ⟨hdir, fun _ => rfl, fun _ _ => (decide_eq_false (not_not.mpr hoff)).symm⟩
  · simp only [writeDir, withRegs, hA, if_false]
    exact ⟨hdir, (absurd · hA), (absurd · hA)⟩

namespace Agrees

theorem follow (h : s.Agrees) (hA : s.no = dwGpioPortA) {inten : Word} {any : Bool}
    (hkeeps : decide (inten ≠ 0) ≠ any → decide (s.regs.inten ≠ 0) = decide (inten ≠ 0)) :
    ((s.withRegs fun r => { r with inten }).followMethod any).Agrees := by
  simp only [followMethod]
  split
  case isTrue hany => exact ⟨h.direction, fun _ => rfl, fun _ _ => hany.1.symm⟩
  case isFalse hother =>
    refine ⟨h.direction, fun _ => rfl, fun _ hint => ?_⟩
    exact (h.irq hA hint).trans (hkeeps fun hany => hother ⟨hany, hint⟩)

theorem controlInt {cmd : DwGpioCtrl} {a : DwGpioAnswer} (h : s.Agrees) (hA : s.no = dwGpioPortA)
    (hc : s.controlInt cmd = .ok (a, s')) : s'.Agrees := by
  cases cmd
  case enaBitInt param =>
    cases hc
    refine h.follow hA fun hnone => ?_
    have hzero : s.regs.inten ||| param = 0#32 := by simpa using hnone
    rw [hzero, (BitVec.or_eq_zero_iff.mp hzero).1]
  case disBitInt param =>
    cases hc
    refine h.follow hA fun hany => ?_
    have hsome : s.regs.inten &&& ~~~param ≠ 0 := by simpa using hany
    have hold : s.regs.inten ≠ 0 := fun hzero => hsome (by rw [hzero]; exact BitVec.zero_and)
    rw [decide_eq_true hsome, decide_eq_true hold]
  all_goals
    simp only [DwGpio.controlInt] at hc
    repeat' split at hc
    all_goals cases hc
    all_goals
      first
        | exact ⟨h.direction, h.method, h.irq⟩
        | exact ⟨h.direction, fun _ => rfl, h.irq⟩

end Agrees

theorem agrees_control {cmd : DwGpioCtrl} {a : DwGpioAnswer} (h : s.opnCnt ≠ 0 → s.Agrees)
    (hc : dwGpioControl s cmd = .ok (a, s')) (hopen : s'.opnCnt ≠ 0) : s'.Agrees := by
  unfold dwGpioControl at hc
  by_cases hno : s.no > dwGpioPortD
  · rw [if_pos hno] at hc
    cases hc
    exact h hopen
  by_cases hused : s.opnCnt = 0
  · rw [if_neg hno, if_pos hused] at hc
    cases hc
    exact h hopen
  replace h := h hused
  rw [if_neg hno, if_neg hused] at hc
  cases cmd
  case setBitDirInput | setBitDirOutput =>
    cases hc
    exact ⟨rfl, h.method, h.irq⟩
  case getBitDir =>
    dsimp only at hc
    split at hc <;> cases hc
    · exact ⟨rfl, h.method, h.irq⟩
    · exact h
  case toggleBits =>
    cases hc
    exact ⟨h.direction, h.method, h.irq⟩
  all_goals
    dsimp only at hc
    split at hc
    · cases hc
      exact h
    · exact h.controlInt (not_not.mp ‹_›) hc

theorem closeInt_opnCnt (s : DwGpio) : s.closeInt.opnCnt = s.opnCnt := by
  simp only [closeInt]
  split <;> rfl

theorem agrees_step (h : s.opnCnt ≠ 0 → s.Agrees) {op : DwGpioOp}
    (hstep : dwGpioStep s op = .ok s') (hopen : s'.opnCnt ≠ 0) : s'.Agrees := by
  cases op with
  | opens dir =>
    cases hstep
    by_cases hno : s.no > dwGpioPortD
    · rw [dwGpioOpen, if_pos hno] at hopen ⊢
      exact h hopen
    by_cases hfirst : s.opnCnt + 1 > 1
    · simp only [dwGpioOpen, if_neg hno, if_pos hfirst]
      have hold := h (by bv_omega)
      exact ⟨hold.direction, hold.method, hold.irq⟩
    · exact agrees_first hno hfirst dir
  | close =>
    cases hstep
    revert hopen
    simp only [dwGpioClose]
    split_ifs with hno hused hlast
    · exact h
    · exact h
    · exact absurd ((closeInt_opnCnt _).trans hlast)
    · exact absurd hlast
    · have hold := h hused
      exact fun _ => ⟨hold.direction, hold.method, hold.irq⟩
  | write val mask =>
    cases hstep
    revert hopen
    simp only [dwGpioWrite]
    split_ifs with hno hused
    · exact h
    · exact h
    · have hold := h hused
      exact fun _ => ⟨hold.direction, hold.method, hold.irq⟩
  | control cmd =>
    obtain ⟨⟨a, _⟩, hc, rfl⟩ := Except.exists_of_map_eq_ok hstep
    exact agrees_control h hc hopen

end DwGpio

/-- **While a port is open, what is recorded of it is what its registers hold, and its interrupt is on
exactly if that of some bit is**, however it was left before it was opened. -/
theorem dw_gpio_agrees {s₀ s : DwGpio} {ops : List DwGpioOp} (hclosed : s₀.opnCnt = 0)
    (hrun : Trace.Runs dwGpioStep (fun _ _ => True) s₀ ops s) (hopen : s.opnCnt ≠ 0) : s.Agrees :=
  hrun.invariant (I := fun s => s.opnCnt ≠ 0 → s.Agrees)
    (fun _ _ _ h _ hstep => DwGpio.agrees_step h hstep) (absurd hclosed) hopen

theorem dw_gpio_agrees_enabled :
    ∃ s, Trace.Runs dwGpioStep (fun _ _ => True) { dwGpioButton with opnCnt := 0 }
        [.opens 1, .control (.enaBitInt 2)] s ∧ s.irq = true ∧ s.Agrees := by
  have hrun : Trace.Runs dwGpioStep (fun _ _ => True) { dwGpioButton with opnCnt := 0 }
      [.opens 1, .control (.enaBitInt 2)] _ := .of_follow rfl
  exact ⟨_, hrun, rfl, dw_gpio_agrees rfl hrun (by decide)⟩

end Embarc
