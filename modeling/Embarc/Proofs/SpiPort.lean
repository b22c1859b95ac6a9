/-
The settings of the SPI driver and its registers.

Most calls leave the settings alone (`SpiPort.Steady`), also in CTRLR0, where a quad read that is
under way has set bits of its own.  The commands for clock mode, frame size and frequency write the
record and the register, and the two fields of CTRLR0 do not overlap.  A quad read that comes to its
end clears the whole of CTRLR0, and a device that is opened as a slave is given no divisor.
-/
import Mathlib.Tactic.MkIffOfInductiveProp
import Embarc.DesignWare.SpiPort
import Embarc.Lib.Run

namespace Embarc

/-! ### Agreement -/

namespace SpiPort

/-- BAUDR is the divisor of the recorded frequency, for which there has to be one. -/
def BaudOk (hw : SpiHw) (p : SpiPort) : Prop :=
  p.freq ≠ 0 ∧ p.regs.baudr = dwSpiFreq2Dv hw.dwApbBusFreq p.freq

@[mk_iff]
structure Agrees (hw : SpiHw) (p : SpiPort) : Prop where
  clock : p.regs.ctrlr0 &&& dwSpiCtrlr0ScMask = dwSpiSelectClockmode p.clkMode
  frame : p.regs.ctrlr0 &&& dwSpiCtrlr0DfsMask = BitVec.ofNat 32 p.dev.dfs - 1
  baud : p.BaudOk hw

def RegsOk (hw : SpiHw) (p : SpiPort) : Prop := p.dev.opnCnt ≠ 0 → p.Agrees hw

end SpiPort

/-- A quad read is still waiting: fewer bytes have come than it asks for, and so have fewer turns of
the loop.  From 256 bytes on its counter of eight bits does not get there. -/
def DevSpiPak.Waits (pak : DevSpiPak) (turns : List (List Word)) : Prop :=
  (turns.map List.length).sum < pak.dataLen.toNat ∧
    (pak.dataLen.toNat < 256 → turns.length < pak.dataLen.toNat)

/-- A closed device is opened as a slave only if its divisor is that of its frequency already, and
no quad read comes to its end. -/
def SpiOp.SettingsOk (hw : SpiHw) (p : SpiPort) : SpiOp → Prop
  | .opened mode param => p.dev.opnCnt = 0 → DevMode.ofWord mode = some .slave →
      hw.accepts .slave param = .ok () → p.BaudOk hw
  | .quadRead pak turns => p.Ready → pak.Waits turns
  | _ => True

def SpiCtrl.sets : SpiCtrl → Bool
  | .setClkMode _ | .setDfs _ | .setFreq _ => true
  | _ => false

/-! ### What the transfers leave alone -/

/-- Open count and frame size are what they were, and no interrupt of another kind has been
enabled. -/
structure SpiDev.Kept (s s' : SpiDev) : Prop where
  opnCnt : s'.opnCnt = s.opnCnt
  dfs : s'.dfs = s.dfs
  sources : s.imr &&& ~~~dwSpiImrXfer = 0 → s'.imr &&& ~~~dwSpiImrXfer = 0

namespace SpiDev.Kept

variable {s s' s'' : SpiDev}

theorem trans (h : s.Kept s') (h' : s'.Kept s'') : s.Kept s'' :=
  ⟨h'.opnCnt.trans h.opnCnt, h'.dfs.trans h.dfs, h'.sources ∘ h.sources⟩

variable (s)

theorem refl : s.Kept s := ⟨rfl, rfl, id⟩

theorem disCbr (cbrtn : SpiCbrtn) : s.Kept (dwSpiDisCbr s cbrtn).2 :=
  of_ite_snd (.refl s) ⟨rfl, rfl, fun h => Field.clear_within h _⟩

theorem enaCbr (cbrtn : SpiCbrtn) : s.Kept (dwSpiEnaCbr s cbrtn).2 :=
  of_ite_snd ⟨rfl, rfl, (Field.or_get_of_disjoint (by decide)).trans⟩ (.refl s)

theorem writer (room : Nat) : s.Kept (dwSpiWriter s room).2 := ⟨rfl, rfl, id⟩

theorem reader (frames : List Word) : s.Kept (dwSpiReader s frames).2 :=
  ⟨rfl, rfl, id⟩

theorem setIntBuf (param : Word) (xfer : DevSpiTransfer) :
    s.Kept (dwSpiSetIntBuf s param xfer).2 :=
  of_ite_snd (.refl s) (of_ite_snd (.refl s)
    (of_ite_snd (of_ite_snd ⟨rfl, rfl, id⟩ ⟨rfl, rfl, id⟩) ⟨rfl, rfl, id⟩))

theorem transferInt (param : Word) (xfer : List DevSpiTransfer) :
    s.Kept (dwSpiTransferInt s param xfer).2 := by
  have hinit : s.Kept { s with xfer := dwSpiInitTransfer xfer s.dfs } := ⟨rfl, rfl, id⟩
  refine of_ite_snd (.refl s) (of_ite_snd (of_ite_snd (.refl s) (of_ite_snd (.refl s) ?_)) ?_)
  · exact hinit.trans (.enaCbr _ _)
  · exact .disCbr s _

theorem control (cmd : SpiCmd) : s.Kept (dwSpiControl s cmd).2 := by
  refine of_ite_snd (.refl s) (of_ite_snd (.refl s) ?_)
  cases cmd with
  | setTxint val => exact of_ite_snd (.disCbr s _) (.enaCbr s _)
  | setRxint val => exact of_ite_snd (.disCbr s _) (.enaCbr s _)
  | setTxintBuf param buf len => exact .setIntBuf s _ _
  | setRxintBuf param buf len => exact .setIntBuf s _ _
  | transferInt param xfer => exact .transferInt s _ _

theorem transferPolling (param : Word) (xfer : List DevSpiTransfer) :
    s.Kept (dwSpiTransferPolling s param xfer).2 :=
  of_ite_snd (.refl s) (of_ite_snd (.refl s) (of_ite_snd (.refl s) (of_ite_snd (.refl s)
    (of_ite_snd (of_ite_snd (.refl s) ⟨rfl, rfl, id⟩) (.refl s)))))

end SpiDev.Kept

theorem dwSpiDisableInterrupt_eq (s : SpiDev) :
    dwSpiDisableInterrupt s = { s with
      imr := s.imr &&& ~~~dwSpiImrXfer, status := s.status &&& ~~~dwSpiInXfer, gint := false } := by
  -- whatever a call clears beforehand is cleared once more at the end
  have hone : ∀ (q : SpiDev) (cbrtn : SpiCbrtn), ∃ imr status gint,
      (dwSpiDisCbr q cbrtn).2 = { q with imr, status, gint } ∧
      imr &&& ~~~dwSpiImrXfer = q.imr &&& ~~~dwSpiImrXfer ∧
      status &&& ~~~dwSpiInXfer = q.status &&& ~~~dwSpiInXfer := by
    intro q cbrtn
    simp only [dwSpiDisCbr]
    split
    · exact ⟨_, _, _, rfl, rfl, rfl⟩
    · refine ⟨_, _, _, rfl, by rw [BitVec.and_assoc, BitVec.and_self], ?_⟩
      split
      · exact Field.clear_get_of_disjoint (by cases cbrtn <;> decide)
      · rfl
  obtain ⟨imr₁, status₁, gint₁, hsnd, himr₁, hstatus₁⟩ := hone s .snd
  obtain ⟨imr₂, status₂, gint₂, hrcv, himr₂, hstatus₂⟩ := hone (dwSpiDisCbr s .snd).2 .rcv
  obtain ⟨imr₃, status₃, gint₃, hxfer, himr₃, hstatus₃⟩ :=
    hone (dwSpiDisCbr (dwSpiDisCbr s .snd).2 .rcv).2 .xfer
  rw [hsnd] at hrcv himr₂ hstatus₂
  rw [hsnd, hrcv] at hxfer himr₃ hstatus₃
  simp only [dwSpiDisableInterrupt, hsnd, hrcv, hxfer, himr₃, himr₂, himr₁, hstatus₃, hstatus₂,
    hstatus₁]

theorem SpiDev.Kept.disableInterrupt (s : SpiDev) : s.Kept (dwSpiDisableInterrupt s) := by
  rw [dwSpiDisableInterrupt_eq]
  exact ⟨rfl, rfl, fun h => Field.clear_within h _⟩

variable {dev : SpiDev} {val : Word} {opnCnt : Nat}

/-! ### What leaves the settings alone -/

namespace SpiPort

def settings (p : SpiPort) : Word × Word × Nat × Word × Word × Word :=
  (p.clkMode, p.freq, p.dev.dfs, p.regs.ctrlr0 &&& dwSpiCtrlr0ScMask,
    p.regs.ctrlr0 &&& dwSpiCtrlr0DfsMask, p.regs.baudr)

/-- Open count and settings are what they were, and no interrupt of another kind has been
enabled. -/
structure Steady (hw : SpiHw) (p p' : SpiPort) : Prop where
  opnCnt : p'.dev.opnCnt = p.dev.opnCnt
  settings : p'.settings = p.settings
  sources : p.dev.imr &&& ~~~dwSpiImrXfer = 0 → p'.dev.imr &&& ~~~dwSpiImrXfer = 0
  irq : hw.hasIntno = false → p.irq = false → p'.irq = false

variable {hw : SpiHw} {p p' p'' : SpiPort}

namespace Steady

theorem refl (p : SpiPort) : Steady hw p p := ⟨rfl, rfl, id, fun _ => id⟩

theorem trans (h : Steady hw p p') (h' : Steady hw p' p'') : Steady hw p p'' where
  opnCnt := h'.opnCnt.trans h.opnCnt
  settings := h'.settings.trans h.settings
  sources := h'.sources ∘ h.sources
  irq hno := h'.irq hno ∘ h.irq hno

/-- Changes to the transfers, to the interrupt at the processor and to what has no second copy. -/
theorem of_dev {slave : Byte} {cbs : DevSpiCbs} {irq : Bool}
    {calls : List (DevCall SpiCbrtn)} (hdev : p.dev.Kept dev)
    (hirq : hw.hasIntno = false → p.irq = false → irq = false) :
    Steady hw p { p with dev, slave, cbs, irq, calls } := by
  refine ⟨hdev.opnCnt, ?_, hdev.sources, hirq⟩
  simp only [SpiPort.settings, hdev.dfs]

theorem withDev (h : p.dev.Kept dev) : Steady hw p (p.withDev hw dev) := by
  refine .of_dev h fun hno hirq => ?_
  simp [hno, hirq]

theorem disCbr (cbrtn : SpiCbrtn) : Steady hw p (p.disCbr hw cbrtn) :=
  .withDev (.disCbr p.dev cbrtn)

theorem disableInterrupt : Steady hw p (p.disableInterrupt hw) :=
  .of_dev (.disableInterrupt p.dev) fun _ hirq => by simp [hirq]

theorem withStatus (status : Word) : Steady hw p (p.withStatus status) :=
  .of_dev ⟨rfl, rfl, id⟩ fun _ => id

theorem call (cbrtn : SpiCbrtn) : Steady hw p (p.call cbrtn) :=
  of_ite (.of_dev (.refl _) fun _ => id) (.refl p)

theorem abortBegin (cbrtn : SpiCbrtn) : Steady hw p (dwSpiAbortBegin hw p cbrtn) :=
  ((disCbr cbrtn).trans (.withStatus _)).trans (.call _)

theorem enableDevice : Steady hw p (dwSpiEnableDevice p) :=
  of_ite (.withStatus _) (.refl p)

theorem resetDevice : Steady hw p (dwSpiResetDevice hw p) :=
  ((withStatus _).trans .disableInterrupt).trans .enableDevice

theorem selectSlave (slvLine : Word) (busy : Bool) :
    Steady hw p (dwSpiSelectSlave p slvLine busy).2 :=
  of_ite_snd (.refl p) ⟨rfl, rfl, id, fun _ => id⟩

theorem deselectSlave (busy : Bool) : Steady hw p (dwSpiDeselectSlave p busy).2 :=
  of_ite_snd (.refl p) ⟨rfl, rfl, id, fun _ => id⟩

/-- The bits of a quad read are apart from clock mode and frame size. -/
theorem quadEnable (len : Word) : Steady hw p (dwSpiQuadEnable p len) := by
  refine ⟨rfl, ?_, id, fun _ => id⟩
  have hclock : (p.regs.ctrlr0 ||| 0x400200#32) &&& dwSpiCtrlr0ScMask =
      p.regs.ctrlr0 &&& dwSpiCtrlr0ScMask := Field.or_get_of_disjoint (by decide)
  have hframe : (p.regs.ctrlr0 ||| 0x400200#32) &&& dwSpiCtrlr0DfsMask =
      p.regs.ctrlr0 &&& dwSpiCtrlr0DfsMask := Field.or_get_of_disjoint (by decide)
  simp only [SpiPort.settings, dwSpiQuadEnable, hclock, hframe]

/-! ### Polling and interrupts -/

theorem pollTurn (room : Nat) (frames : List Word) :
    Steady hw p (p.pollTurn room frames) :=
  of_ite (.refl p) (.of_dev ((SpiDev.Kept.writer _ _).trans (.reader _ _)) fun _ => id)

theorem isrRead {isrStatus : Word} {frames : List Word}
    (h : p.isrRead hw isrStatus frames = .ok p') : Steady hw p p' := by
  simp only [SpiPort.isrRead] at h
  split at h
  · cases h
    exact .disableInterrupt
  · obtain ⟨⟨count, dev⟩, hread, rfl⟩ := Except.exists_of_map_eq_ok h
    refine .of_dev ?_ fun _ => id
    simp only [dwSpiIsrRead] at hread
    split_ifs at hread <;> cases hread
    · exact .refl _
    · exact .disableInterrupt _
    · exact .reader _ _

theorem written (isrStatus : Word) (room : Nat) :
    Steady hw p (p.written isrStatus room) :=
  of_ite (.of_dev (.writer _ _) fun _ => id) (.refl p)

theorem complete : Steady hw p (p.complete hw) := by
  simp only [SpiPort.complete]
  split
  · exact (disCbr _).trans (.call _)
  · exact .disableInterrupt

theorem isrWrite (isrStatus : Word) (room : Nat) :
    Steady hw p (p.isrWrite hw isrStatus room) :=
  (written isrStatus room).trans (of_ite .complete (.refl _))

end Steady

/-! ### Agreement and the invariant, where settings are left alone -/

theorem agrees_of_settings (h : p'.settings = p.settings) : p'.Agrees hw ↔ p.Agrees hw := by
  simp only [SpiPort.settings, Prod.mk.injEq] at h
  obtain ⟨hclk, hfreq, hdfs, hclock, hframe, hbaud⟩ := h
  simp only [agrees_iff, BaudOk, hclk, hfreq, hdfs, hclock, hframe, hbaud]

theorem Steady.regsOk_iff (h : Steady hw p p') : p'.RegsOk hw ↔ p.RegsOk hw := by
  rw [SpiPort.RegsOk, SpiPort.RegsOk, h.opnCnt, agrees_of_settings h.settings]

/-- What every call keeps: while the device is open its frame size is one the hardware has, and
only the interrupts of the driver are enabled. -/
structure Inv (hw : SpiHw) (p : SpiPort) : Prop where
  dfs : p.dev.opnCnt ≠ 0 → 4 ≤ p.dev.dfs ∧ p.dev.dfs ≤ 16
  sources : p.dev.opnCnt ≠ 0 → p.dev.imr &&& ~~~dwSpiImrXfer = 0
  irq : hw.hasIntno = false → p.irq = false

theorem Closed.inv (h : p.Closed) : p.Inv hw :=
  ⟨fun hopen => absurd h.opnCnt hopen, fun hopen => absurd h.opnCnt hopen, fun _ => h.irq⟩

theorem Steady.inv (h : Steady hw p p') (hp : p.Inv hw) : p'.Inv hw := by
  have hdfs : p'.dev.dfs = p.dev.dfs := congrArg (fun s => s.2.2.1) h.settings
  refine ⟨fun hopen => ?_, fun hopen => ?_, fun hno => h.irq hno (hp.irq hno)⟩
  · rw [hdfs]
    exact hp.dfs (h.opnCnt ▸ hopen)
  · exact h.sources (hp.sources (h.opnCnt ▸ hopen))

/-! ### The commands that change a setting -/

theorem clockmode_masked {clkMode : Word} (h : ¬clkMode > spiCpol1Cpha1) :
    dwSpiSelectClockmode clkMode &&& dwSpiCtrlr0ScMask = dwSpiSelectClockmode clkMode := by
  have hlt : clkMode.toNat < 4 := by
    simp only [spiCpol1Cpha1, gt_iff_lt, BitVec.lt_def, BitVec.toNat_ofNat] at h
    omega
  have hall : ∀ n < 4, dwSpiSelectClockmode (BitVec.ofNat 32 n) &&& dwSpiCtrlr0ScMask =
      dwSpiSelectClockmode (BitVec.ofNat 32 n) := by decide
  simpa using hall clkMode.toNat hlt

theorem frame_masked {dfs : Word} (h : ¬(dfs ≤ 3 ∨ dfs > 16)) :
    (dfs - 1) &&& dwSpiCtrlr0DfsMask = dfs - 1 := by
  have hrange : 3 < dfs.toNat ∧ dfs.toNat ≤ 16 := by
    simp only [not_or, gt_iff_lt, BitVec.le_def, BitVec.lt_def, BitVec.ofNat_eq_ofNat,
      BitVec.toNat_ofNat] at h
    omega
  have hall : ∀ n < 17, 3 < n →
      (BitVec.ofNat 32 n - 1) &&& dwSpiCtrlr0DfsMask = BitVec.ofNat 32 n - 1 := by decide
  simpa using hall dfs.toNat (by omega) hrange.1

theorem Agrees.setClkMode (h : p.Agrees hw) (hval : ¬val > spiCpol1Cpha1) :
    ({ (dwSpiSetClockmode p val).2 with clkMode := val } : SpiPort).Agrees hw := by
  have hmasked := clockmode_masked hval
  simp only [dwSpiSetClockmode, if_neg hval]
  refine ⟨Field.set_get_self hmasked, ?_, h.baud⟩
  exact (Field.set_get_of_disjoint hmasked (by decide)).trans h.frame

theorem Agrees.setDfs (h : p.Agrees hw) (hval : ¬(val ≤ 3 ∨ val > 16)) :
    ({ p.writeCtrlr0 (p.regs.ctrlr0 &&& ~~~dwSpiCtrlr0DfsMask ||| (val - 1)) with
      dev := { p.dev with dfs := val.toNat } } : SpiPort).Agrees hw := by
  have hmasked := frame_masked hval
  refine ⟨?_, ?_, h.baud⟩
  · exact (Field.set_get_of_disjoint hmasked (by decide)).trans h.clock
  · rw [BitVec.ofNat_toNat, BitVec.setWidth_eq]
    exact Field.set_get_self hmasked

theorem Agrees.setFreq (h : p.Agrees hw) (hval : ¬val = 0) :
    ({ dwSpiSetFreq hw p val with freq := val } : SpiPort).Agrees hw :=
  ⟨h.clock, h.frame, hval, rfl⟩

/-- A device that was just opened agrees, but for the divisor of a slave. -/
theorem firstOpen_agrees (hw : SpiHw) (p : SpiPort) {mode : DevMode} {param : Word}
    (h : hw.accepts mode param = .ok ()) :
    (dwSpiFirstOpen hw p mode param).Agrees hw ↔ (mode = .slave → p.BaudOk hw) := by
  have hdefault : (spiDfsDefault - 1) &&& dwSpiCtrlr0DfsMask = spiDfsDefault - 1 := by decide
  have hctrlr0 : ∀ clkMode : Word, ¬clkMode > spiCpol1Cpha1 →
      (dwSpiSelectClockmode clkMode ||| (spiDfsDefault - 1)) &&& dwSpiCtrlr0ScMask =
          dwSpiSelectClockmode clkMode ∧
        (dwSpiSelectClockmode clkMode ||| (spiDfsDefault - 1)) &&& dwSpiCtrlr0DfsMask =
          spiDfsDefault - 1 := by
    intro clkMode hclk
    have hmasked := clockmode_masked hclk
    constructor
    · rw [Field.or_get_of_disjoint (by decide), hmasked]
    · refine Field.or_get_self hdefault ?_
      rw [← hmasked, BitVec.and_assoc]
      have hapart : dwSpiCtrlr0ScMask &&& dwSpiCtrlr0DfsMask = 0 := by decide
      rw [hapart]
      simp
  simp only [SpiHw.accepts] at h
  split_ifs at h with hparam
  cases mode with
  | master =>
    refine iff_of_true ?_ nofun
    obtain ⟨hclock, hframe⟩ := hctrlr0 spiClkModeDefault (by decide)
    refine ⟨hclock, ?_, fun hzero => hparam (Or.inr ⟨rfl, hzero⟩), rfl⟩
    refine Eq.trans hframe ?_
    simp only [dwSpiFirstOpen, disableInterrupt, dwSpiDisableInterrupt_eq]
    rfl
  | slave =>
    obtain ⟨hclock, hframe⟩ := hctrlr0 param fun hgt => hparam (Or.inl ⟨rfl, hgt⟩)
    refine ⟨fun hagrees _ => hagrees.baud, fun hbaud => ⟨hclock, ?_, hbaud rfl⟩⟩
    refine Eq.trans hframe ?_
    simp only [dwSpiFirstOpen, disableInterrupt, dwSpiDisableInterrupt_eq]
    rfl

theorem firstOpen_dev (hw : SpiHw) (p : SpiPort) (mode : DevMode) (param : Word) :
    (dwSpiFirstOpen hw p mode param).dev.opnCnt = (p.dev.opnCnt + 1) % 2 ^ 8 ∧
      (dwSpiFirstOpen hw p mode param).dev.dfs = 8 ∧
      (dwSpiFirstOpen hw p mode param).dev.imr = 0 ∧
      (dwSpiFirstOpen hw p mode param).irq = (p.irq && !hw.hasIntno) := by
  simp only [dwSpiFirstOpen, disableInterrupt, dwSpiDisableInterrupt_eq]
  cases mode <;> exact ⟨rfl, rfl, BitVec.zero_and, rfl⟩

theorem firstOpen_inv (hw : SpiHw) (hirq : hw.hasIntno = false → p.irq = false) (mode : DevMode)
    (param : Word) : (dwSpiFirstOpen hw p mode param).Inv hw := by
  obtain ⟨-, hdfs, himr, hirq'⟩ := firstOpen_dev hw p mode param
  refine ⟨fun _ => ?_, fun _ => ?_, fun hno => ?_⟩
  · rw [hdfs]
    decide
  · rw [himr]
    rfl
  · rw [hirq', hirq hno, Bool.false_and]

/-! ### Commands -/

theorem Steady.command {cmd : SpiCtrl} (h : cmd.sets = false) :
    Steady hw p (dwSpiCommand hw p cmd).2 := by
  refine of_ite_snd (.refl p) (of_ite_snd (.refl p) ?_)
  cases cmd with
  | enaDev => exact .enableDevice
  | disDev => exact .withStatus _
  | reset => exact .resetDevice
  | setDummyData val => exact .of_dev ⟨rfl, rfl, id⟩ fun _ => id
  | setCb which param => exact of_ite_snd (.refl p) (.of_dev (.refl _) fun _ => id)
  | transfer cmd => exact .withDev (.control p.dev cmd)
  | selDev val busy =>
    refine of_ite_snd (.refl p) (of_ite_snd (.refl p) (of_ite_snd ?_ (.selectSlave val busy)))
    exact (Steady.selectSlave val busy).trans (.of_dev (.refl _) fun _ => id)
  | dselDev busy =>
    refine of_ite_snd (.refl p) (of_ite_snd (.refl p) (of_ite_snd ?_ (.deselectSlave busy)))
    exact (Steady.deselectSlave busy).trans (.of_dev (.refl _) fun _ => id)
  | setClkMode val => cases h
  | setDfs val => cases h
  | setFreq val => cases h
  | _ => exact .refl p

/-- **The commands keep record and registers in agreement.** -/
theorem command_decides (hp : p.Inv hw) (cmd : SpiCtrl) :
    Trace.Decides (Inv hw) (RegsOk hw) p (dwSpiCommand hw p cmd).2 True := by
  cases hsets : cmd.sets with
  | false =>
    have hsteady : Steady hw p (dwSpiCommand hw p cmd).2 := .command hsets
    exact .keeps (hsteady.inv hp) hsteady.regsOk_iff.mpr trivial
  | true =>
    have hsame : Trace.Decides (Inv hw) (RegsOk hw) p p True := .keeps hp id trivial
    by_cases hopen : p.dev.opnCnt = 0
    · simp only [dwSpiCommand, if_pos hopen]
      exact hsame
    simp only [dwSpiCommand, if_neg hopen]
    split
    · exact hsame
    · cases cmd with
      | setClkMode val =>
        dsimp only
        split_ifs with _ hval hret
        · exact hsame
        · exact hsame
        · refine .keeps ?_ (fun h _ => (h hopen).setClkMode hval) trivial
          simp only [dwSpiSetClockmode, if_neg hval]
          exact { hp with }
        · simp only [dwSpiSetClockmode, if_neg hval, not_true_eq_false] at hret
      | setDfs val =>
        dsimp only
        split
        · exact hsame
        split
        · exact hsame
        by_cases hval : val ≤ 3 ∨ val > 16
        · simp only [dwSpiSetDfs, if_pos hval]
          exact hsame
        simp only [dwSpiSetDfs, if_neg hval, if_true]
        refine .keeps ⟨fun _ => ?_, hp.sources, hp.irq⟩ (fun h _ => (h hopen).setDfs hval) trivial
        simp only [not_or, gt_iff_lt, BitVec.le_def, BitVec.lt_def, BitVec.ofNat_eq_ofNat,
          BitVec.toNat_ofNat] at hval
        dsimp only
        omega
      | setFreq val =>
        dsimp only
        split_ifs with _ _ hval
        iterate 3 exact hsame
        exact .keeps { hp with } (fun h _ => (h hopen).setFreq hval) trivial
      | _ => cases hsets

/-! ### Quad reads -/

/-- One turn takes what is there, up to the length asked for. -/
theorem quadTake_len (pak : DevSpiPak) (frames : List Word) (len : Word) (mem : Word → Byte)
    (h : len.toNat < pak.dataLen.toNat) :
    (dwSpiQuadTake pak frames len mem).1.toNat =
      min (len.toNat + frames.length) pak.dataLen.toNat := by
  induction frames generalizing len mem with
  | nil => exact (Nat.min_eq_left (Nat.le_of_lt h)).symm
  | cons w frames ih =>
    have hlen : (len + 1).toNat = len.toNat + 1 := by
      rw [BitVec.toNat_add]
      exact Nat.mod_eq_of_lt (by have := pak.dataLen.isLt; simp; omega)
    simp only [dwSpiQuadTake, List.length_cons]
    split_ifs with hall
    · rw [← hall, hlen]
      omega
    · have hne : len.toNat + 1 ≠ pak.dataLen.toNat := fun hc =>
        hall (BitVec.eq_of_toNat_eq (hlen.trans hc))
      rw [ih (len + 1) _ (by omega), hlen]
      omega

theorem quadLoop_none_iff (pak : DevSpiPak) (turns : List (List Word)) (i : Byte) (len : Word)
    (mem : Word → Byte) (h : len.toNat < pak.dataLen.toNat) :
    dwSpiQuadLoop pak turns i len mem = none ↔
      len.toNat + (turns.map List.length).sum < pak.dataLen.toNat ∧
        (pak.dataLen.toNat < 256 → i.toNat + turns.length < pak.dataLen.toNat) := by
  have hi := i.isLt
  induction turns generalizing i len mem with
  | nil =>
    simp only [dwSpiQuadLoop, List.map_nil, List.sum_nil, List.length_nil, Nat.add_zero]
    split_ifs with hlt <;> simp <;> omega
  | cons frames turns ih =>
    have htake := quadTake_len pak frames len mem h
    simp only [dwSpiQuadLoop, List.map_cons, List.sum_cons, List.length_cons]
    split_ifs with hlt hall
    · rw [hall] at htake
      simp only [false_iff, not_and]
      omega
    · have hne : (dwSpiQuadTake pak frames len mem).1.toNat ≠ pak.dataLen.toNat := fun hc =>
        hall (BitVec.eq_of_toNat_eq hc)
      have hnext : (i + 1).toNat = (i.toNat + 1) % 256 := BitVec.toNat_add i 1
      refine (ih (i + 1) _ _ (by omega) (i + 1).isLt).trans ?_
      omega
    · simp only [false_iff, not_and]
      omega

/-- A quad read leaves the settings alone until it comes to its end, and then clears CTRLR0. -/
theorem quadReceive_cases (hw : SpiHw) (p : SpiPort) (pak : DevSpiPak) (turns : List (List Word)) :
    (pak.Waits turns ∧ Steady hw p (dwSpiQuadReceive p pak turns).2) ∨
    (¬pak.Waits turns ∧ ∃ mem status,
      (dwSpiQuadReceive p pak turns).2 = { p with
        dev := { p.dev with mem, status }
        regs := { p.regs with ctrlr0 := 0, ctrlr1 := 0, spiCtrlr0 := 0x4218#32 } }) := by
  have hnone (mem : Word → Byte) : dwSpiQuadLoop pak turns 0 0 mem = none ↔ pak.Waits turns := by
    by_cases hlen : 0 < pak.dataLen.toNat
    · refine (quadLoop_none_iff pak turns 0 0 mem hlen).trans ?_
      show 0 + _ < _ ∧ (_ → 0 + _ < _) ↔ _
      rw [Nat.zero_add, Nat.zero_add]
      rfl
    · have hzero : pak.dataLen.toNat = 0 := by omega
      refine iff_of_false ?_ fun hc => absurd hc.1 (by omega)
      cases turns <;> simp [dwSpiQuadLoop, hzero]
  simp only [dwSpiQuadReceive]
  split
  case h_1 hloop =>
    exact Or.inl ⟨(hnone _).mp hloop, (Steady.withStatus _).trans (.quadEnable _)⟩
  case h_2 hloop =>
    refine Or.inr ⟨fun hwaits => ?_, _, _, rfl⟩
    exact absurd (hloop.symm.trans ((hnone _).mpr hwaits)) (by simp)

/-- No frame size is shown by a field of zeros. -/
theorem not_agrees_of_ctrlr0 (hdfs : 4 ≤ p.dev.dfs ∧ p.dev.dfs ≤ 16) (h : p.regs.ctrlr0 = 0) :
    ¬p.Agrees hw := by
  intro hagrees
  have hall : ∀ n < 17, 4 ≤ n → (0 : Word) &&& dwSpiCtrlr0DfsMask ≠ BitVec.ofNat 32 n - 1 := by
    decide
  have hframe := hagrees.frame
  rw [h] at hframe
  exact hall p.dev.dfs (by omega) hdfs.1 hframe

theorem quadRead_decides (hp : p.Inv hw) (pak : DevSpiPak) (turns : List (List Word)) :
    Trace.Decides (Inv hw) (RegsOk hw) p (dwSpiQuadRead p pak turns).2
      ((SpiOp.quadRead pak turns).SettingsOk hw p) := by
  by_cases hready : p.Ready
  · obtain ⟨hopen, hon⟩ := hready
    have hgo : (dwSpiQuadRead p pak turns).2 = (dwSpiQuadReceive p pak turns).2 := by
      simp only [dwSpiQuadRead, if_neg hopen, if_neg hon]
    rw [hgo]
    obtain ⟨hnone, hsteady⟩ | ⟨hsome, mem, status, heq⟩ := quadReceive_cases hw p pak turns
    · exact .keeps (hsteady.inv hp) hsteady.regsOk_iff.mpr fun _ => hnone
    · rw [heq]
      refine ⟨{ hp with }, fun _ => iff_of_false ?_ ?_⟩
      · intro h
        refine not_agrees_of_ctrlr0 ?_ ?_ (h hopen)
        · exact hp.dfs hopen
        · rfl
      · exact fun h => hsome (h ⟨hopen, hon⟩)
  · have hsame : (dwSpiQuadRead p pak turns).2 = p := by
      simp only [dwSpiQuadRead]
      split
      · rfl
      · rename_i hopen
        split
        · rfl
        · rename_i hon
          exact absurd ⟨hopen, hon⟩ hready
    rw [hsame]
    exact .keeps hp id fun hr => absurd hr hready

/-! ### Opening and closing -/

theorem Inv.withCnt (hp : p.Inv hw) (hopen : p.dev.opnCnt ≠ 0) :
    ({ p with dev := { p.dev with opnCnt } } : SpiPort).Inv hw :=
  ⟨fun _ => hp.dfs hopen, fun _ => hp.sources hopen, hp.irq⟩

theorem RegsOk.withCnt (h : p.RegsOk hw) (hopen : p.dev.opnCnt ≠ 0) :
    ({ p with dev := { p.dev with opnCnt } } : SpiPort).RegsOk hw :=
  fun _ => ⟨(h hopen).clock, (h hopen).frame, (h hopen).baud⟩

theorem open_decides (hp : p.Inv hw) (mode param : Word) :
    Trace.Decides (Inv hw) (RegsOk hw) p (dwSpiOpen hw p mode param).2
      ((SpiOp.opened mode param).SettingsOk hw p) := by
  have hsame : (SpiOp.opened mode param).SettingsOk hw p → Trace.Decides (Inv hw) (RegsOk hw) p p
      ((SpiOp.opened mode param).SettingsOk hw p) := .keeps hp id
  simp only [dwSpiOpen]
  split
  case h_1 hmode => exact hsame fun _ hslave => absurd (hmode.symm.trans hslave) (by simp)
  case h_2 m hmode =>
    split
    case h_1 err haccepts =>
      refine hsame fun _ hslave hok => ?_
      cases Option.some.inj (hmode.symm.trans hslave)
      exact absurd (haccepts.symm.trans hok) (by simp)
    case h_2 haccepts =>
      split
      case isTrue hpos =>
        have hopen : p.dev.opnCnt ≠ 0 := by omega
        have hclosed : (SpiOp.opened mode param).SettingsOk hw p := fun hzero => absurd hzero hopen
        split
        · exact hsame hclosed
        · exact .keeps (hp.withCnt hopen) (fun h => h.withCnt hopen) hclosed
      case isFalse hzero =>
        have hclosed : p.dev.opnCnt = 0 := by omega
        refine ⟨firstOpen_inv hw hp.irq m param, fun _ => ?_⟩
        have hcnt : (dwSpiFirstOpen hw p m param).dev.opnCnt ≠ 0 := by
          rw [(firstOpen_dev hw p m param).1, hclosed]
          decide
        constructor
        · intro h _ hslave _
          cases Option.some.inj (hmode.symm.trans hslave)
          exact (firstOpen_agrees hw p haccepts).mp (h hcnt) rfl
        · intro h _
          refine (firstOpen_agrees hw p haccepts).mpr fun hslave => ?_
          rw [hslave] at hmode haccepts
          exact h hclosed hmode haccepts

end SpiPort

section Closing

variable {hw : SpiHw} {env : Word → SpiPort → SpiPort} {p p' : SpiPort}

theorem dwSpiAbort_idle (cbrtn : SpiCbrtn) (h : p.dev.status &&& dwSpiInXfer = 0) :
    dwSpiAbort hw env p cbrtn = (eOk, p) := by
  rw [dwSpiAbort, if_pos h]

theorem dwSpiClose_last (env : Word → SpiPort → SpiPort) (hcnt : p.dev.opnCnt = 1) :
    dwSpiClose hw env p = (eOk, { p with
      dev := { p.dev with
        opnCnt := 0, status := 0, xfer := .cleared
        imr := p.dev.imr &&& ~~~dwSpiImrXfer, gint := false }
      cbs := .cleared
      irq := p.irq && !hw.hasIntno }) := by
  have hne : ¬p.dev.opnCnt = 0 := by omega
  have hlast : p.dev.opnCnt - 1 = 0 := by omega
  -- the interrupts are turned off first, so that no transfer is found to be in progress
  have hidle : p.dev.status &&& ~~~dwSpiInXfer &&& dwSpiInXfer = 0 := Field.clear_get_self _ _
  simp only [dwSpiClose, if_neg hne, if_pos hlast, SpiPort.disableInterrupt,
    dwSpiDisableInterrupt_eq]
  rw [dwSpiAbort_idle .snd hidle, dwSpiAbort_idle .rcv hidle, hlast]
  rfl

namespace SpiPort

theorem close_decides (env : Word → SpiPort → SpiPort) (hp : p.Inv hw) :
    Trace.Decides (Inv hw) (RegsOk hw) p (dwSpiClose hw env p).2 True := by
  by_cases hzero : p.dev.opnCnt = 0
  · simp only [dwSpiClose, if_pos hzero]
    exact .keeps hp id trivial
  · by_cases hlast : p.dev.opnCnt = 1
    · rw [dwSpiClose_last env hlast]
      refine .keeps ⟨fun h => absurd rfl h, fun h => absurd rfl h, fun hno => ?_⟩
        (fun _ h => absurd rfl h) trivial
      simp [hp.irq hno]
    · have hstill : ¬p.dev.opnCnt - 1 = 0 := by omega
      simp only [dwSpiClose, if_neg hzero, if_neg hstill]
      exact .keeps (hp.withCnt hzero) (fun h => h.withCnt hzero) trivial

/-! ### Whole runs -/

/-- **A call keeps record and registers in agreement exactly if** it keeps to what it has to. -/
theorem spiPortStep_decides {op : SpiOp} (hp : p.Inv hw) (h : spiPortStep hw env p op = .ok p') :
    Trace.Decides (Inv hw) (RegsOk hw) p p' (op.SettingsOk hw p) := by
  have hsteady : Steady hw p p' → op.SettingsOk hw p →
      Trace.Decides (Inv hw) (RegsOk hw) p p' (op.SettingsOk hw p) :=
    fun hs => .keeps (hs.inv hp) hs.regsOk_iff.mpr
  cases op with try cases h
  | opened mode param => exact open_decides hp mode param
  | close => exact close_decides env hp
  | control cmd => exact command_decides hp cmd
  | abortBegin cbrtn => exact hsteady (of_ite (.abortBegin cbrtn) (.refl p)) trivial
  | abortEnd cbrtn => exact hsteady (.withStatus _) trivial
  | quadRead pak turns => exact quadRead_decides hp pak turns
  | pollBegin param xfer =>
    exact hsteady (.of_dev (.transferPolling p.dev param xfer) fun _ => id) trivial
  | pollTurn room frames => exact hsteady (.pollTurn room frames) trivial
  | pollEnd => exact hsteady (.withStatus _) trivial
  | isrRead isrStatus frames => exact hsteady (.isrRead h) trivial
  | isrWrite isrStatus room => exact hsteady (.isrWrite isrStatus room) trivial
  | isrEnd => exact hsteady (.of_dev ⟨rfl, rfl, id⟩ fun _ => id) trivial

end SpiPort

/-- Over any sequence of calls and interrupts, the registers of an open device agree with what is
recorded **exactly if** no quad read comes to its end, and a device is opened as a slave only where
its divisor is that of the recorded frequency already. -/
theorem spi_settings_iff {ops : List SpiOp} (hclosed : p.Closed)
    (h : Trace.Runs (spiPortStep hw env) (fun _ _ => True) p ops p') :
    Trace.Always (spiPortStep hw env) (SpiPort.RegsOk hw) p ops p' ↔
      Trace.Runs (spiPortStep hw env) (fun p op => op.SettingsOk hw p) p ops p' :=
  h.always_iff_of_decides (fun _ _ _ => SpiPort.spiPortStep_decides) hclosed.inv
    (fun hopen => absurd hclosed.opnCnt hopen)

def spiBoard : SpiHw where
  dwApbBusFreq := 50000000
  supportModes := 3
  hasIntno := true
  txFifoLen := 16
  rxFifoLen := 16

def spiFresh : SpiPort where
  dev :=
    { opnCnt := 0, status := 0, dfs := 0, dummy := 0, xfer := .cleared, imr := 0, gint := false
      ram := fun _ => 0, mem := fun _ => 0, calls := [] }
  mode := .master
  clkMode := 0
  freq := 0
  slave := 0
  txFifoLen := 0
  rxFifoLen := 0
  cbs := .cleared
  regs := { ctrlr0 := 0, ctrlr1 := 0, spiCtrlr0 := 0, ser := 0, baudr := 0 }
  irq := false
  calls := []

theorem spiFresh_closed : spiFresh.Closed := ⟨rfl, rfl⟩

/-- A master is opened at 1 MHz, with frames of sixteen bits in the last clock mode. -/
def spiModeOps : List SpiOp :=
  [.opened 0 1000000, .control (.setDfs 16), .control (.setClkMode 3), .control (.setFreq 2000000)]

theorem spi_settings_changed :
    ∃ p', Trace.Runs (spiPortStep spiBoard fun _ p => p) (fun _ _ => True) spiFresh spiModeOps p' ∧
      Trace.Always (spiPortStep spiBoard fun _ p => p) (SpiPort.RegsOk spiBoard) spiFresh spiModeOps
        p' ∧
      p'.regs.ctrlr0 = 0xCF ∧ p'.regs.baudr = 25 := by
  have hok : Trace.Runs (spiPortStep spiBoard fun _ p => p) (fun p op => op.SettingsOk spiBoard p)
      spiFresh spiModeOps _ :=
    .cons (fun _ hslave => absurd hslave (by decide)) rfl
      (.cons trivial rfl (.cons trivial rfl (.cons trivial rfl (.nil _))))
  exact ⟨_, hok.any, (spi_settings_iff spiFresh_closed hok.any).mpr hok, by decide, by decide⟩

/-- A master reads one byte in quad mode.  Its frames are recorded to have eight bits, and CTRLR0
is zero. -/
theorem spi_quad_cleared :
    ∃ p', Trace.Runs (spiPortStep spiBoard fun _ p => p) (fun _ _ => True) spiFresh
        [.opened 0 1000000, .quadRead { dataPtr := 0x1000, dataLen := 1 } [[0x5A]]] p' ∧
      p'.dev.opnCnt = 1 ∧ p'.dev.status = devEnabled ∧ p'.dev.dfs = 8 ∧ p'.regs.ctrlr0 = 0 ∧
      ¬p'.RegsOk spiBoard := by
  refine ⟨_, .of_follow rfl, by decide, by decide, by decide, by decide, fun hok => ?_⟩
  exact SpiPort.not_agrees_of_ctrlr0 (by decide) (by decide) (hok (by decide))

end Closing

end Embarc
