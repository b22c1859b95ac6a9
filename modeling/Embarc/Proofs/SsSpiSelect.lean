/-
The slave select lines of the SPI master of the subsystem.

`SPI_CMD_MST_SEL_DEV` records the number of the line and writes the bit of the line to SER.
`SPI_CMD_MST_DSEL_DEV` takes the record for a mask: it clears the bit of the line in the number,
and writes what is left.  The bit is never set in the number, so the number itself goes to SER, and
other lines are selected unless it is zero.  After a deselect the record is 0xFF, and a second one
selects whatever that stands for.
-/
import Embarc.Subsystem.SsSpiMaster

namespace Embarc

open Reentry (Task)

/-! ### What leaves the lines alone -/

namespace SsSpi

variable {hw : SsSpiMasterHw} {s : SsSpi}

def lines (s : SsSpi) : Word × Byte := (s.io.regs.ser, s.slave)

theorem ioSpiMasterRead_ser {io io' : SsSpiInfo} {data size pSize : Word}
    (h : ioSpiMasterRead io data size pSize = .ok io') : io'.regs.ser = io.regs.ser := by
  simp only [ioSpiMasterRead] at h
  split_ifs at h
  cases h
  simp only [SsSpiInfo.masterRead]
  split <;> rfl

theorem ioSpiMasterWrite_ser {hw : SsSpiHw} {io io' : SsSpiInfo} {data size txflr : Word}
    (h : ioSpiMasterWrite hw io data size txflr = .ok io') : io'.regs.ser = io.regs.ser := by
  simp only [ioSpiMasterWrite] at h
  split_ifs at h
  cases h
  simp only [SsSpiInfo.masterWrite]
  split <;> split <;> rfl

theorem ioctl_lines {cmd : SpiMstIoctl} (hcmd : ∀ arg, cmd ≠ .setSe arg)
    (h : s.ioctl hw cmd = .ok s') : s'.lines = s.lines := by
  simp only [ioctl, ioSpiMasterIoctl] at h
  split_ifs at h <;> cases h
  cases cmd with
  | setSe arg => exact absurd rfl (hcmd arg)
  | _ => rfl

theorem ioctls_lines {cmds : List SpiMstIoctl} (hcmds : ∀ cmd ∈ cmds, ∀ arg, cmd ≠ .setSe arg)
    (h : s.ioctls hw cmds = .ok s') : s'.lines = s.lines := by
  induction cmds generalizing s with
  | nil =>
    cases h
    rfl
  | cons cmd cmds ih =>
    obtain ⟨s₁, hfirst, hrest⟩ := Except.bind_eq_ok_iff.mp h
    rw [ih (fun cmd hmem => hcmds cmd (List.mem_cons_of_mem _ hmem)) hrest,
      ioctl_lines (hcmds cmd List.mem_cons_self) hfirst]

theorem startWrite_lines {mode data size txflr : Word}
    (h : s.startWrite hw mode data size txflr = .ok s') : s'.lines = s.lines := by
  obtain ⟨s₁, hmode, h⟩ := Except.bind_eq_ok_iff.mp h
  obtain ⟨io, hwrite, h⟩ := Except.bind_eq_ok_iff.mp h
  cases h
  rw [← ioctl_lines (by simp) hmode]
  simp only [lines, ioSpiMasterWrite_ser hwrite]

theorem startRead_lines {mode data size : Word} (h : s.startRead hw mode data size = .ok s') :
    s'.lines = s.lines := by
  obtain ⟨s₁, hmode, h⟩ := Except.bind_eq_ok_iff.mp h
  obtain ⟨io, hread, h⟩ := Except.bind_eq_ok_iff.mp h
  cases h
  rw [← ioctl_lines (by simp) hmode]
  simp only [lines, ioSpiMasterRead_ser hread]

theorem startBoth_lines {mode rxBuf rxSize txBuf txSize txflr : Word}
    (h : s.startBoth hw mode rxBuf rxSize txBuf txSize txflr = .ok s') : s'.lines = s.lines := by
  obtain ⟨s₁, hread, h⟩ := Except.bind_eq_ok_iff.mp h
  obtain ⟨io, hwrite, h⟩ := Except.bind_eq_ok_iff.mp h
  cases h
  rw [← startRead_lines hread]
  simp only [lines, ioSpiMasterWrite_ser hwrite]

theorem ssSpiTransferInt_lines {x : DevSpiTransfer} {txflr : Word} {r : Int × SsSpi}
    (h : ssSpiTransferInt hw s x txflr = .ok r) : r.2.lines = s.lines := by
  have hstarted : ∀ {x : Except SsSpiStop SsSpi} {s₁ : SsSpi}, (∀ {s'}, x = .ok s' →
      s'.lines = s₁.lines) → (do let s' ← x; return (eOk, s')) = .ok r → r.2.lines = s₁.lines := by
    intro x s₁ hx h
    obtain ⟨s', hs', h⟩ := Except.bind_eq_ok_iff.mp h
    cases h
    exact hx hs'
  simp only [ssSpiTransferInt] at h
  split_ifs at h
  · exact (hstarted startWrite_lines h :)
  · exact (hstarted startRead_lines h :)
  · exact (hstarted startBoth_lines h :)
  · cases h
    rfl
  · exact (hstarted startBoth_lines h :)

end SsSpi

/-- The two commands that write the lines. -/
def SsSpiCtrl.Selects : SsSpiCtrl → Prop
  | .mstSelDev _ | .mstDselDev _ => True
  | _ => False

namespace SsSpi

variable {hw : SsSpiMasterHw} {s : SsSpi}

theorem clkModeIoctls_lines (val : Word) : ∀ cmd ∈ clkModeIoctls val, ∀ arg, cmd ≠ .setSe arg := by
  intro cmd hmem arg
  simp only [clkModeIoctls] at hmem
  rintro rfl
  split_ifs at hmem <;> simp at hmem

theorem control_lines {cmd : SsSpiCtrl} (hcmd : ¬cmd.Selects) {r : Int × SsSpi}
    (h : ssSpiMasterControl hw s cmd = .ok r) : r.2.lines = s.lines := by
  have hok : ∀ {x : Except SsSpiStop SsSpi}, SsSpi.ok x = .ok r → x = .ok r.2 := by
    intro x hx
    obtain ⟨s₁, hs₁, rfl⟩ := Except.exists_of_map_eq_ok hx
    exact hs₁
  cases cmd with
  | setTxintBuf buf | setRxintBuf buf =>
    cases buf with
    | none =>
      cases h
      rfl
    | some buf =>
      simp only [ssSpiMasterControl] at h
      split at h <;> cases h <;> rfl
  | setTxint val txflr =>
    simp only [ssSpiMasterControl] at h
    split at h
    · exact (startWrite_lines (hok h) :)
    · cases h
      rfl
  | setRxint val =>
    simp only [ssSpiMasterControl] at h
    split at h
    · exact (startRead_lines (hok h) :)
    · cases h
      rfl
  | transferInt xfer txflr =>
    cases xfer with
    | none =>
      cases h
      rfl
    | some x =>
      simp only [ssSpiMasterControl] at h
      split at h
      · cases h
        rfl
      · exact ssSpiTransferInt_lines h
  | transferPolling xfer sent got mem =>
    cases xfer with
    | nil =>
      cases h
      rfl
    | cons x xs =>
      simp only [ssSpiMasterControl] at h
      split at h
      · cases h
        rfl
      · split_ifs at h
        cases h
        rfl
  | setCb which param =>
    cases h
    rfl
  | setClkMode val => exact ioctls_lines (clkModeIoctls_lines val) (hok h)
  | setDfs val => exact ioctl_lines (by simp) (hok h)
  | mstSetFreq val => exact (ioctl_lines (by simp) (ioctl_of_setFreq (hok h)) :)
  | mstSelDev val | mstDselDev val => exact absurd trivial hcmd
  | other =>
    cases h
    rfl

/-! Interrupts -/

theorem callback_lines (s : SsSpi) (cbrtn : SpiCbrtn) (rest : SsSpiRest)
    {behind : SsSpi → SsSpiTask} (h : ∀ s, (behind s).state.lines = s.lines) :
    (s.callback cbrtn rest behind).state.lines = s.lines := by
  simp only [callback]
  split
  · rfl
  · exact h s

theorem ssSpiMasterRxCb_lines (s : SsSpi) : (ssSpiMasterRxCb s).state.lines = s.lines := by
  simp only [ssSpiMasterRxCb]
  split
  all_goals
    split
    · exact callback_lines _ _ _ fun _ => rfl
    · rfl

theorem spiMstIdleRx_lines (s : SsSpi) (frames : List Word) :
    (spiMstIdleRx s frames).state.lines = s.lines := by
  simp only [spiMstIdleRx]
  split_ifs
  · exact ssSpiMasterRxCb_lines _
  · rfl
  · rfl

theorem spiMstIdleTxEnd_lines (s : SsSpi) (frames : List Word) :
    (spiMstIdleTxEnd s frames).state.lines = s.lines :=
  spiMstIdleRx_lines _ frames

theorem ssSpiMasterTxCb_lines (s : SsSpi) (frames : List Word) :
    (ssSpiMasterTxCb s frames).state.lines = s.lines := by
  have hbehind : ∀ s, (spiMstIdleTxEnd (ssSpiMasterTxCbEnd s) frames).state.lines = s.lines :=
    fun s => spiMstIdleTxEnd_lines (ssSpiMasterTxCbEnd s) frames
  simp only [ssSpiMasterTxCb]
  split_ifs
  · exact callback_lines _ _ _ hbehind
  · exact hbehind _
  · exact hbehind s
  · exact callback_lines _ _ _ hbehind
  · exact hbehind s

theorem spiMstIdleIsr_lines (s : SsSpi) (frames : List Word) :
    (spiMstIdleIsr s frames).state.lines = s.lines := by
  simp only [spiMstIdleIsr]
  split_ifs
  · exact ssSpiMasterTxCb_lines _ frames
  · exact spiMstIdleTxEnd_lines _ frames
  · exact spiMstIdleRx_lines s frames

theorem ssSpiResume_lines {rest : SsSpiRest} {frames : List Word} {t : SsSpiTask}
    (h : ssSpiResume rest frames s = .ok t) : t.state.lines = s.lines := by
  cases rest with
  | idleTx =>
    cases h
    exact spiMstIdleTxEnd_lines _ frames
  | idleRx | idleXfer =>
    cases h
    rfl

theorem ssSpiEnter_lines {op : SsSpiOp} (hop : ∀ cmd, op = .control cmd → ¬cmd.Selects)
    {t : SsSpiTask} (h : ssSpiEnter hw s op = .ok t) : t.state.lines = s.lines := by
  cases op with try obtain ⟨-, rfl⟩ := Except.of_guard h
  | control cmd =>
    obtain ⟨r, hr, rfl⟩ := Except.exists_of_map_eq_ok h
    exact control_lines (hop cmd rfl) hr
  | rxIsr frames =>
    simp only [Task.state_done, spiMstRxIsr]
    split <;> rfl
  | txIsr txflr =>
    simp only [Task.state_done, spiMstTxIsr]
    split <;> rfl
  | idleIsr frames => exact spiMstIdleIsr_lines s frames

/-! ### What writes them -/

theorem select_lines {val : Word} {r : Int × SsSpi}
    (h : ssSpiMasterControl hw s (.mstSelDev val) = .ok r) :
    r.2.lines = (shl1 val.toNat, val.setWidth 8) := by
  obtain ⟨s₁, hs₁, rfl⟩ := Except.exists_of_map_eq_ok h
  simp only [ioctl, ioSpiMasterIoctl] at hs₁
  split_ifs at hs₁ <;> cases hs₁
  rfl

theorem deselect_lines {val : Word} {r : Int × SsSpi}
    (h : ssSpiMasterControl hw s (.mstDselDev val) = .ok r) :
    r.2.lines = (s.slave.setWidth 32 &&& ~~~shl1 val.toNat, spiSlaveNotSelected) := by
  obtain ⟨s₁, hs₁, rfl⟩ := Except.exists_of_map_eq_ok h
  simp only [ioctl, ioSpiMasterIoctl] at hs₁
  split_ifs at hs₁ <;> cases hs₁
  rfl

end SsSpi

/-- The number of a line, less the bit of the line, is zero for the first line only. -/
theorem line_less_bit_eq_zero {val : Word} (h : val.toNat < 32) :
    (val.setWidth 8).setWidth 32 &&& ~~~shl1 val.toNat = 0 ↔ val = 0 := by
  have hall : ∀ n < 32, ((BitVec.ofNat 32 n).setWidth 8).setWidth 32 &&& ~~~shl1 (n : Nat) = 0 ↔
      BitVec.ofNat 32 n = 0 := by decide
  have hval := hall val.toNat h
  rwa [BitVec.ofNat_toNat, BitVec.setWidth_eq] at hval

/-- What the record is after a deselect stands for some line, whichever bit is cleared. -/
theorem notSelected_less_bit {val : Word} (h : val.toNat < 32) :
    spiSlaveNotSelected.setWidth 32 &&& ~~~shl1 val.toNat ≠ 0 := by
  have hall : ∀ n < 32, spiSlaveNotSelected.setWidth 32 &&& ~~~shl1 (n : Nat) ≠ 0 := by decide
  exact hall val.toNat h

/-! ### Whole runs -/

/-- A run, with the line that was selected last and the one that is to be selected. -/
structure SsSpiBus where
  machine : Reentry.State SsSpi SsSpiRest
  last : Option Word
  selected : Option Word

namespace SsSpiBus

variable {hw : SsSpiMasterHw} {b b' : SsSpiBus}

def note (b : SsSpiBus) : Reentry.Event SsSpiOp (List Word) → SsSpiBus
  | .enter (.control (.mstSelDev val)) => { b with last := some val, selected := some val }
  | .enter (.control (.mstDselDev _)) => { b with selected := none }
  | _ => b

def step (hw : SsSpiMasterHw) (b : SsSpiBus) (ev : Reentry.Event SsSpiOp (List Word)) :
    Except (Reentry.Stop SsSpiStop) SsSpiBus :=
  (ssSpiStep hw b.machine ev).map fun machine => { b.note ev with machine }

/-- The lines are below 32, and a deselect names the one that was selected last. -/
def Named (b : SsSpiBus) : Reentry.Event SsSpiOp (List Word) → Prop
  | .enter (.control (.mstSelDev val)) => val.toNat < 32
  | .enter (.control (.mstDselDev val)) => b.last = some val
  | _ => True

/-- A deselect finds the first line selected. -/
def First (b : SsSpiBus) : Reentry.Event SsSpiOp (List Word) → Prop
  | .enter (.control (.mstDselDev _)) => b.selected = some 0
  | _ => True

/-- SER has the bit of the line that is to be selected and no other, or none at all. -/
def Exclusive (b : SsSpiBus) : Prop :=
  b.machine.here.io.regs.ser = b.selected.elim 0 fun val => shl1 val.toNat

structure Recorded (b : SsSpiBus) : Prop where
  last_lt : ∀ val ∈ b.last, val.toNat < 32
  selected : ∀ val ∈ b.selected, b.last = some val ∧ b.machine.here.slave = val.setWidth 8
  none : b.last ≠ none → b.selected = none → b.machine.here.slave = spiSlaveNotSelected

theorem step_cases {ev : Reentry.Event SsSpiOp (List Word)} (h : step hw b ev = .ok b') :
    (∃ val, ev = .enter (.control (.mstSelDev val)) ∧ b'.last = some val ∧
        b'.selected = some val ∧ b'.machine.here.lines = (shl1 val.toNat, val.setWidth 8)) ∨
      (∃ val, ev = .enter (.control (.mstDselDev val)) ∧ b'.last = b.last ∧ b'.selected = none ∧
        b'.machine.here.lines =
          (b.machine.here.slave.setWidth 32 &&& ~~~shl1 val.toNat, spiSlaveNotSelected)) ∨
      b.note ev = b ∧ b'.last = b.last ∧ b'.selected = b.selected ∧
        b'.machine.here.lines = b.machine.here.lines ∧ b.First ev := by
  obtain ⟨machine, hmachine, rfl⟩ := Except.exists_of_map_eq_ok h
  obtain ⟨op, t, rfl, ht, rfl⟩ | ⟨frames, rest, waiting, t, rfl, -, ht, rfl⟩ :=
    Reentry.step_cases hmachine
  · by_cases hop : ∀ cmd, op = .control cmd → ¬cmd.Selects
    · have hlines := SsSpi.ssSpiEnter_lines hop ht
      refine .inr (.inr ?_)
      cases op with
      | control cmd =>
        cases cmd with
        | mstSelDev val | mstDselDev val => exact absurd trivial (hop _ rfl)
        | _ => exact ⟨rfl, rfl, rfl, by rwa [Task.above_here], trivial⟩
      | _ => exact ⟨rfl, rfl, rfl, by rwa [Task.above_here], trivial⟩
    · simp only [not_forall, not_not] at hop
      obtain ⟨cmd, rfl, hcmd⟩ := hop
      obtain ⟨r, hr, rfl⟩ := Except.exists_of_map_eq_ok ht
      cases cmd with
      | mstSelDev val => exact .inl ⟨val, rfl, rfl, rfl, SsSpi.select_lines hr⟩
      | mstDselDev val => exact .inr (.inl ⟨val, rfl, rfl, rfl, SsSpi.deselect_lines hr⟩)
      | _ => exact absurd hcmd id
  · exact .inr (.inr ⟨rfl, rfl, rfl, by rw [Task.above_here, SsSpi.ssSpiResume_lines ht], trivial⟩)

theorem Recorded.step (hb : b.Recorded) {ev : Reentry.Event SsSpiOp (List Word)}
    (hev : b.Named ev) (h : step hw b ev = .ok b') : b'.Recorded := by
  obtain ⟨val, rfl, hlast, hsel, hlines⟩ | ⟨val, rfl, hlast, hsel, hlines⟩ |
    ⟨-, hlast, hsel, hlines, -⟩ := step_cases h
  · refine ⟨?_, ?_, ?_⟩
    · rw [hlast]
      rintro _ ⟨⟩
      exact hev
    · rw [hsel]
      rintro _ ⟨⟩
      exact ⟨hlast, congrArg Prod.snd hlines⟩
    · intro _ hnone
      exact absurd (hsel.symm.trans hnone) (by simp)
  · refine ⟨by rw [hlast]; exact hb.last_lt, ?_, fun _ _ => congrArg Prod.snd hlines⟩
    rw [hsel]
    rintro _ ⟨⟩
  · have hslave : b'.machine.here.slave = b.machine.here.slave := congrArg Prod.snd hlines
    exact ⟨by rw [hlast]; exact hb.last_lt, by rw [hlast, hsel, hslave]; exact hb.selected,
      by rw [hlast, hsel, hslave]; exact hb.none⟩

/-- A step keeps the selection exclusive exactly if it is no deselect of another line. -/
theorem Exclusive.step_iff (hb : b.Recorded) (hex : b.Exclusive)
    {ev : Reentry.Event SsSpiOp (List Word)} (hev : b.Named ev) (h : step hw b ev = .ok b') :
    b'.Exclusive ↔ b.First ev := by
  obtain ⟨val, rfl, -, hsel, hlines⟩ | ⟨val, rfl, -, hsel, hlines⟩ |
    ⟨-, -, hsel, hlines, hfirst⟩ := step_cases h
  · refine iff_of_true ?_ trivial
    rw [Exclusive, hsel]
    exact congrArg Prod.fst hlines
  · have hlast : b.last = some val := hev
    have hlt : val.toNat < 32 := hb.last_lt val hlast
    have hser : b'.machine.here.io.regs.ser =
        b.machine.here.slave.setWidth 32 &&& ~~~shl1 val.toNat := congrArg Prod.fst hlines
    rw [Exclusive, hsel, hser]
    cases hnow : b.selected with
    | none =>
      have hslave := hb.none (by simp [hlast]) hnow
      rw [hslave]
      exact iff_of_false (notSelected_less_bit hlt) (by simp [First, hnow])
    | some other =>
      obtain ⟨hother, hslave⟩ := hb.selected other hnow
      obtain rfl : val = other := Option.some.inj (hlast.symm.trans hother)
      rw [hslave, First, hnow, Option.some.injEq]
      exact line_less_bit_eq_zero hlt
  · refine iff_of_true ?_ hfirst
    rw [Exclusive, hsel]
    exact (congrArg Prod.fst hlines).trans hex

end SsSpiBus

/-- The device has just been opened, with no line selected, as reset and closing leave it. -/
def SsSpi.Unselected (hw : SsSpiMasterHw) (s : SsSpi) : Prop :=
  ∃ (s₀ : SsSpi) (param : Word), s₀.opnCnt = 0 ∧ s₀.io.regs.ser = 0 ∧
    ssSpiMasterOpen hw s₀ 0 param = .ok (eOk, s)

theorem SsSpi.Unselected.ser {hw : SsSpiMasterHw} {s : SsSpi} (h : s.Unselected hw) :
    s.io.regs.ser = 0 := by
  obtain ⟨s₀, param, hcnt, hser, hopen⟩ := h
  have hfirst : ¬s₀.opnCnt > 0 := by
    rw [hcnt]
    decide
  simp only [ssSpiMasterOpen, ne_eq, not_true_eq_false, if_false, if_neg hfirst] at hopen
  split at hopen
  · have hsys : eSys = eOk := congrArg Prod.fst (Except.ok.inj hopen)
    exact absurd hsys (by decide)
  · obtain ⟨s₁, hs₁, hopen⟩ := Except.bind_eq_ok_iff.mp hopen
    obtain ⟨s₂, hs₂, hopen⟩ := Except.bind_eq_ok_iff.mp hopen
    cases hopen
    have hbaud : s₂.io.regs.ser = s₁.io.regs.ser :=
      congrArg Prod.fst (SsSpi.ioctl_lines (by simp) (SsSpi.ioctl_of_setFreq hs₂))
    have hset : s₁.io.regs.ser = (ioSpiMasterOpen hw.toSsSpiHw s₀.io).2.regs.ser :=
      congrArg Prod.fst (SsSpi.ioctls_lines (by simp) hs₁)
    have hio : (ioSpiMasterOpen hw.toSsSpiHw s₀.io).2.regs.ser = 0 := by
      simp only [ioSpiMasterOpen]
      split <;> exact hser
    exact hbaud.trans (hset.trans hio)

/-- **Whenever no routine is running SER has exactly the bit of the selected line, or none after a
deselect, exactly if** every deselect finds the first line selected. -/
theorem ss_spi_select_exclusive_iff {hw : SsSpiMasterHw} {s : SsSpi} (hopen : s.Unselected hw)
    {es : List (Reentry.Event SsSpiOp (List Word))} {b : SsSpiBus}
    (h : Trace.Runs (SsSpiBus.step hw) SsSpiBus.Named ⟨⟨s, []⟩, none, none⟩ es b) :
    Trace.Always (SsSpiBus.step hw) SsSpiBus.Exclusive ⟨⟨s, []⟩, none, none⟩ es b ↔
      Trace.Runs (SsSpiBus.step hw) (fun b ev => b.Named ev ∧ b.First ev) ⟨⟨s, []⟩, none, none⟩ es
        b := by
  refine h.always_iff_of (fun _ _ _ hb hev hstep _ => hb.step hev hstep)
    (fun _ _ _ hb hex hev hstep => SsSpiBus.Exclusive.step_iff hb hex hev hstep)
    ⟨by simp, by simp, by simp⟩ ?_
  exact hopen.ser

/-! ### A device at the first line, and one at the sixth -/

instance SsSpiBus.decNamed (b : SsSpiBus) (ev : Reentry.Event SsSpiOp (List Word)) :
    Decidable (b.Named ev) := by
  unfold SsSpiBus.Named
  split <;> infer_instance

instance SsSpiBus.decFirst (b : SsSpiBus) (ev : Reentry.Event SsSpiOp (List Word)) :
    Decidable (b.First ev) := by
  unfold SsSpiBus.First
  split <;> infer_instance

def ssSpiSelectHw : SsSpiMasterHw where
  present := true
  maxXferSize := 16
  fifoDepth := 8
  size_ok := SsSpiHw.small_ok
  busFreq := 50000000

def ssSpiSelectInstalled : SsSpi :=
  .installed ssSpiSelectHw { txCb := 0x400, rxCb := 0x404, errCb := 0x408 }

theorem ssSpiSelect_unselected :
    ∃ s, ssSpiMasterOpen ssSpiSelectHw ssSpiSelectInstalled 0 1000000 = .ok (eOk, s) ∧
      s.Unselected ssSpiSelectHw :=
  ⟨_, rfl, ssSpiSelectInstalled, 1000000, rfl, rfl, rfl⟩

/-- The first line is selected and deselected again, and then the fourth is selected. -/
def ssSpiSelectFirst : List (Reentry.Event SsSpiOp (List Word)) :=
  [.enter (.control (.mstSelDev 0)), .enter (.control (.setClkMode 3)),
    .enter (.control (.mstDselDev 0)), .enter (.control (.mstSelDev 3))]

theorem ss_spi_select_exclusive_first :
    ∃ s b, s.Unselected ssSpiSelectHw ∧
      Trace.Always (SsSpiBus.step ssSpiSelectHw) SsSpiBus.Exclusive ⟨⟨s, []⟩, none, none⟩
        ssSpiSelectFirst b ∧ b.machine.here.io.regs.ser = 0x8 := by
  obtain ⟨s, hs, hopen⟩ := ssSpiSelect_unselected
  cases hs
  exact ⟨_, _, hopen, (ss_spi_select_exclusive_iff hopen (.of_follow rfl)).mpr (.of_follow rfl), rfl⟩

/-- The sixth line is selected and deselected again, which selects the first and the third. -/
theorem ss_spi_deselect_selects :
    ∃ s b, s.Unselected ssSpiSelectHw ∧
      Trace.Runs (SsSpiBus.step ssSpiSelectHw) SsSpiBus.Named ⟨⟨s, []⟩, none, none⟩
        [.enter (.control (.mstSelDev 5)), .enter (.control (.mstDselDev 5))] b ∧
      b.selected = none ∧ b.machine.here.io.regs.ser = 0x5 := by
  obtain ⟨s, hs, hopen⟩ := ssSpiSelect_unselected
  cases hs
  exact ⟨_, _, hopen, .of_follow rfl, rfl, rfl⟩

end Embarc
