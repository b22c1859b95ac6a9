/-
Divisions in the SPI interrupt routine.

The reader and the writer divide what is left of a transfer by its frame size.  A transfer that has
a length has a frame size: both are set when a transfer is started, and both are zero when it is
cleared.  The routine looks at the length first, so it divides by zero only if it clears the
transfer itself, and it does when the controller reports an overflow or an underflow.
-/
import Embarc.Proofs.SpiPort
import Embarc.Proofs.SpiSystem

namespace Embarc

open Trace

/-! ### The frame size of a transfer -/

/-- A transfer that has a length has a frame size. -/
def SpiDev.Sized (s : SpiDev) : Prop := s.xfer.nbytes = 0 → s.xfer.xferLen = 0

variable {s : SpiDev} {isrStatus : Word} {p' : SpiPort}

/-- A transfer that was set up has a frame size, whatever its length. -/
theorem sized_init {xs : List DevSpiTransfer} {dfs : Nat} (h : s.xfer = dwSpiInitTransfer xs dfs) :
    s.Sized := by
  intro hzero
  rw [h] at hzero
  exact absurd hzero (Nat.ne_of_gt (dwSpiNbytes_pos dfs))

theorem sized_cleared (h : s.xfer = .cleared) : s.Sized := by
  intro _
  rw [h]
  rfl

theorem SpiDev.Sized.same {s' : SpiDev} (h : s.Sized) (hnbytes : s'.xfer.nbytes = s.xfer.nbytes)
    (hlen : s'.xfer.xferLen = s.xfer.xferLen) : s'.Sized := by
  intro hzero
  rw [hlen]
  exact h (hnbytes ▸ hzero)

theorem SpiDev.Sized.of_xfer {s' : SpiDev} (h : s.Sized) (hxfer : s'.xfer = s.xfer) : s'.Sized :=
  h.same (by rw [hxfer]) (by rw [hxfer])

section
variable {s : SpiDev}

variable (h : s.Sized)
include h

theorem SpiDev.Sized.setIntBuf (param : Word) (xfer : DevSpiTransfer) :
    (dwSpiSetIntBuf s param xfer).2.Sized := by
  unfold dwSpiSetIntBuf
  split_ifs
  · exact h
  · exact h
  · exact h.same rfl rfl
  · exact sized_init rfl
  · exact sized_init rfl

theorem SpiDev.Sized.transferInt (param : Word) (xfer : List DevSpiTransfer) :
    (dwSpiTransferInt s param xfer).2.Sized := by
  unfold dwSpiTransferInt
  split_ifs
  · exact h
  · exact h
  · exact h
  · exact sized_init (xfer_enaCbr _ _)
  · exact h.of_xfer (xfer_disCbr _ _)

/-- The commands that start transfers set length and frame size together. -/
theorem SpiDev.Sized.control (cmd : SpiCmd) : (dwSpiControl s cmd).2.Sized := by
  refine of_ite_snd h (of_ite_snd h ?_)
  cases cmd with
  | setTxint val | setRxint val =>
    exact of_ite_snd (h.of_xfer (xfer_disCbr _ _)) (h.of_xfer (xfer_enaCbr _ _))
  | setTxintBuf param buf len | setRxintBuf param buf len => exact h.setIntBuf param _
  | transferInt param xfer => exact h.transferInt param xfer

theorem SpiDev.Sized.transferPolling (param : Word) (xfer : List DevSpiTransfer) :
    (dwSpiTransferPolling s param xfer).2.Sized := by
  unfold dwSpiTransferPolling
  split_ifs
  · exact h
  · exact h
  · exact h
  · exact h
  · exact h
  · exact sized_init rfl
  · exact h

theorem SpiDev.Sized.writer (room : Nat) : (dwSpiWriter s room).2.Sized :=
  h.same rfl rfl

theorem SpiDev.Sized.reader (frames : List Word) : (dwSpiReader s frames).2.Sized :=
  h.same rfl rfl

end

/-! ### The driver -/

namespace SpiPort

variable {hw : SpiHw} {p : SpiPort}

theorem xfer_disCbr (hw : SpiHw) (p : SpiPort) (cbrtn : SpiCbrtn) :
    (p.disCbr hw cbrtn).dev.xfer = p.dev.xfer := Embarc.xfer_disCbr p.dev cbrtn

theorem xfer_disableInterrupt (hw : SpiHw) (p : SpiPort) :
    (p.disableInterrupt hw).dev.xfer = p.dev.xfer := Embarc.xfer_disableInterrupt p.dev

theorem dev_call (p : SpiPort) (cbrtn : SpiCbrtn) : (p.call cbrtn).dev = p.dev := by
  unfold call
  split <;> rfl

theorem xfer_complete (hw : SpiHw) (p : SpiPort) : (p.complete hw).dev.xfer = p.dev.xfer := by
  unfold complete
  split
  · rw [dev_call, xfer_disCbr]
  · rw [xfer_disableInterrupt]

theorem xfer_abortBegin (hw : SpiHw) (p : SpiPort) (cbrtn : SpiCbrtn) :
    (dwSpiAbortBegin hw p cbrtn).dev.xfer = p.dev.xfer := by
  unfold dwSpiAbortBegin
  rw [dev_call]
  exact xfer_disCbr hw p cbrtn

theorem xfer_enableDevice (p : SpiPort) : (dwSpiEnableDevice p).dev.xfer = p.dev.xfer := by
  unfold dwSpiEnableDevice
  split <;> rfl

theorem xfer_quadRead (p : SpiPort) (pak : DevSpiPak) (turns : List (List Word)) :
    (dwSpiQuadRead p pak turns).2.dev.xfer = p.dev.xfer := by
  unfold dwSpiQuadRead dwSpiQuadReceive
  split_ifs
  · rfl
  · rfl
  · dsimp only
    split <;> rfl

theorem xfer_firstOpen (hw : SpiHw) (p : SpiPort) (mode : DevMode) (param : Word) :
    (dwSpiFirstOpen hw p mode param).dev.xfer = dwSpiInitTransfer [] spiDfsDefault.toNat := by
  cases mode <;> exact Embarc.xfer_disableInterrupt _

theorem sized_open (hw : SpiHw) (h : p.dev.Sized) (mode param : Word) :
    (dwSpiOpen hw p mode param).2.dev.Sized := by
  unfold dwSpiOpen
  split
  case h_1 => exact h
  case h_2 mode _ =>
    split
    case h_1 => exact h
    case h_2 =>
      split_ifs
      · exact h
      · exact h.of_xfer rfl
      · exact sized_init (xfer_firstOpen hw p mode param)

/-- The last close clears the transfer. -/
theorem sized_close (hw : SpiHw) (env : Word → SpiPort → SpiPort) (h : p.dev.Sized) :
    (dwSpiClose hw env p).2.dev.Sized := by
  unfold dwSpiClose
  dsimp only
  split_ifs
  · exact h
  · exact sized_cleared rfl
  · exact h.of_xfer rfl

theorem sized_command (hw : SpiHw) (h : p.dev.Sized) (cmd : SpiCtrl) :
    (dwSpiCommand hw p cmd).2.dev.Sized := by
  have hguard : ∀ {c : Prop} [Decidable c] {ercd : DevAnswer} {r : DevAnswer × SpiPort},
      r.2.dev.Sized → (if c then (ercd, p) else r).2.dev.Sized := by
    intro c _ ercd r hr
    split
    · exact h
    · exact hr
  refine hguard (hguard ?_)
  cases cmd with
  | getStatus | flushTx | flushRx | getRxavail | getTxavail | unknown => exact h
  | enaDev => exact h.of_xfer (xfer_enableDevice p)
  | disDev => exact h.of_xfer rfl
  | reset =>
    refine h.of_xfer ((xfer_enableDevice _).trans ?_)
    exact xfer_disableInterrupt hw (dwSpiDisableDevice p)
  | setDummyData val => exact h.of_xfer rfl
  | setCb which param => exact hguard (h.of_xfer rfl)
  | transfer cmd => exact h.control cmd
  | setFreq val => exact hguard (hguard (hguard (h.of_xfer rfl)))
  -- the routines behind these commands write registers only
  | setClkMode val =>
    refine hguard (hguard ?_)
    simp only [dwSpiSetClockmode]
    split_ifs <;> exact h.of_xfer rfl
  | setDfs val =>
    refine hguard (hguard ?_)
    simp only [dwSpiSetDfs]
    split_ifs <;> exact h.of_xfer rfl
  | selDev val busy =>
    refine hguard (hguard ?_)
    simp only [dwSpiSelectSlave]
    split_ifs <;> exact h.of_xfer rfl
  | dselDev busy =>
    refine hguard (hguard ?_)
    simp only [dwSpiDeselectSlave]
    split_ifs <;> exact h.of_xfer rfl

theorem sized_pollTurn (h : p.dev.Sized) (room : Nat) (frames : List Word) :
    (p.pollTurn room frames).dev.Sized := by
  unfold pollTurn
  split
  · exact h
  · exact (h.writer room).reader frames

/-- Up to the reader the routine keeps both. -/
theorem sized_isrRead (h : p.dev.Sized) {frames : List Word}
    (hstep : p.isrRead hw isrStatus frames = .ok p') : p'.dev.Sized := by
  unfold isrRead at hstep
  split at hstep
  · cases hstep
    exact h.of_xfer (xfer_disableInterrupt hw p)
  · obtain ⟨r, hr, rfl⟩ := Except.exists_of_map_eq_ok hstep
    unfold dwSpiIsrRead at hr
    split_ifs at hr <;> cases hr
    · exact h
    · exact h.of_xfer (Embarc.xfer_disableInterrupt p.dev)
    · exact h.reader frames

theorem sized_isrWrite (hw : SpiHw) (h : p.dev.Sized) (isrStatus : Word) (room : Nat) :
    (p.isrWrite hw isrStatus room).dev.Sized := by
  have hwritten : (p.written isrStatus room).dev.Sized := by
    unfold written
    split
    · exact h.writer room
    · exact h
  unfold isrWrite
  dsimp only
  split
  · exact hwritten.of_xfer (xfer_complete hw _)
  · exact hwritten

/-- **A transfer that has a length has a frame size, whatever is done with the device.** -/
theorem sized_step {env : Word → SpiPort → SpiPort} {op : SpiOp} (h : p.dev.Sized)
    (hstep : spiPortStep hw env p op = .ok p') : p'.dev.Sized := by
  cases op with try cases hstep
  | isrRead isrStatus frames => exact sized_isrRead h hstep
  | opened mode param => exact sized_open hw h mode param
  | close => exact sized_close hw env h
  | control cmd => exact sized_command hw h cmd
  | abortBegin cbrtn =>
    split
    · exact h.of_xfer (xfer_abortBegin hw p cbrtn)
    · exact h
  | abortEnd cbrtn => exact h.of_xfer rfl
  | quadRead pak turns => exact h.of_xfer (xfer_quadRead p pak turns)
  | pollBegin param xfer => exact h.transferPolling param xfer
  | pollTurn room frames => exact sized_pollTurn h room frames
  | pollEnd => exact h.of_xfer rfl
  | isrWrite isrStatus room => exact sized_isrWrite hw h isrStatus room
  | isrEnd => exact sized_cleared rfl

end SpiPort

/-! ### The routine -/

section
variable {hw : SpiHw} {env : Word → SpiPort → SpiPort} {p : SpiPort}

/-- With a frame size the reader comes through and keeps it. -/
theorem readChecked_ok (h : p.dev.xfer.nbytes ≠ 0) (frames : List Word) :
    ∃ p₁, p.readChecked frames = .ok p₁ ∧ p₁.dev.xfer.nbytes ≠ 0 :=
  ⟨_, if_neg h, h⟩

theorem writeChecked_ok (h : p.dev.xfer.nbytes ≠ 0) (htxe : hasFlag isrStatus dwSpiImrTxeim = true)
    (room : Nat) : p.writeChecked room = .ok (p.written isrStatus room) := by
  rw [SpiPort.writeChecked, if_neg h, SpiPort.written, if_pos htxe]

theorem isrRead_eq_readChecked (hsize : p.dev.xfer.nbytes ≠ 0) (hlen : p.dev.xfer.xferLen ≠ 0)
    (hzero : isrStatus ≠ 0) (herr : ¬hasFlag isrStatus dwSpiImrErr = true) (frames : List Word) :
    p.isrRead hw isrStatus frames = p.readChecked frames := by
  rw [SpiPort.isrRead, if_neg fun h => hlen h.2, dwSpiIsrRead, if_neg hzero, if_neg hlen,
    if_neg herr, SpiPort.readChecked, if_neg hsize]
  rfl

/-- The error branch leaves no frame size, whatever its callback does. -/
theorem readChecked_isrError (hw : SpiHw) (env : Word → SpiPort → SpiPort) (p : SpiPort)
    (frames : List Word) : (p.isrError hw env).readChecked frames = .error .divZero := if_pos rfl

/-- With a frame size and no error, the routine is the steps it is taken in elsewhere, with the
callback between the last two. -/
theorem dwSpiIsr_eq (hsize : p.dev.xfer.nbytes ≠ 0) (hlen : p.dev.xfer.xferLen ≠ 0)
    (hzero : isrStatus ≠ 0) (herr : ¬hasFlag isrStatus dwSpiImrErr = true) (frames : List Word)
    (room : Nat) :
    dwSpiIsr hw env p isrStatus frames room = (p.isrRead hw isrStatus frames).map fun p₁ =>
      if dwSpiXferEnd (p₁.written isrStatus room).dev.xfer then
        (p₁.written isrStatus room).isrDone hw env
      else p₁.isrWrite hw isrStatus room := by
  obtain ⟨p₁, hread, hsize₁⟩ := readChecked_ok hsize frames
  rw [isrRead_eq_readChecked hsize hlen hzero herr, hread]
  simp only [dwSpiIsr, if_neg hzero, if_neg hlen, if_neg herr, hread, bind, Except.bind, Except.map,
    SpiPort.isrWrite]
  by_cases htxe : hasFlag isrStatus dwSpiImrTxeim = true
  · simp only [if_pos htxe, writeChecked_ok hsize₁ htxe]
    split <;> rfl
  · simp only [SpiPort.written, if_neg htxe]
    split <;> rfl

/-- One execution of the routine, for a transfer with a frame size. -/
theorem SpiDev.Sized.isr_iff (h : p.dev.Sized) (isrStatus : Word) (frames : List Word)
    (room : Nat) :
    dwSpiIsr hw env p isrStatus frames room ≠ .error .divZero ↔
      p.dev.xfer.xferLen = 0 ∨ hasFlag isrStatus dwSpiImrErr = false := by
  by_cases hlen : p.dev.xfer.xferLen = 0
  · refine ⟨fun _ => .inl hlen, fun _ => ?_⟩
    unfold dwSpiIsr
    split <;> exact nofun
  by_cases herr : hasFlag isrStatus dwSpiImrErr = true
  · refine ⟨fun hno => absurd ?_ hno, fun hok => ?_⟩
    · have hzero : isrStatus ≠ 0 := by
        rintro rfl
        exact absurd herr (by decide)
      simp only [dwSpiIsr, if_neg hzero, if_neg hlen, if_pos herr, readChecked_isrError, bind,
        Except.bind]
    · rw [herr] at hok
      exact absurd hok (by simp [hlen])
  · refine ⟨fun _ => .inr (Bool.eq_false_iff.mpr herr), fun _ => ?_⟩
    by_cases hzero : isrStatus = 0
    · rw [dwSpiIsr, if_pos hzero]
      exact nofun
    · have hsize : p.dev.xfer.nbytes ≠ 0 := fun hnone => hlen (h hnone)
      obtain ⟨p₁, hread, _⟩ := readChecked_ok hsize frames
      rw [dwSpiIsr_eq hsize hlen hzero herr, isrRead_eq_readChecked hsize hlen hzero herr, hread]
      exact nofun

/-- **From every state reached, the interrupt routine divides by no zero frame size if and only if
no transfer is in progress or the controller reports no overflow and no underflow.** -/
theorem spi_isr_divides_iff {p₀ : SpiPort} {ops : List SpiOp} (hcleared : p₀.dev.xfer = .cleared)
    (hruns : Runs (spiPortStep hw env) (fun _ _ => True) p₀ ops p) (isrStatus : Word)
    (frames : List Word) (room : Nat) :
    dwSpiIsr hw env p isrStatus frames room ≠ .error .divZero ↔
      p.dev.xfer.xferLen = 0 ∨ hasFlag isrStatus dwSpiImrErr = false := by
  have hsized : p.dev.Sized :=
    hruns.invariant (fun _ _ _ h _ hstep => SpiPort.sized_step h hstep) (sized_cleared hcleared)
  exact hsized.isr_iff isrStatus frames room

end

def spiReceiveOps : List SpiOp :=
  [.opened 0 1000000, .control (.transfer (.setRxintBuf 0x100 0x2000 2)),
    .control (.transfer (.setRxint 1))]

theorem spi_isr_divides_none :
    ∃ p, Runs (spiPortStep spiBoard fun _ p => p) (fun _ _ => True) spiFresh spiReceiveOps p ∧
      p.dev.xfer.xferLen = 2 ∧
      dwSpiIsr spiBoard (fun _ p => p) p dwSpiImrTxeim [] 4 ≠ .error .divZero := by
  have hp : Runs (spiPortStep spiBoard fun _ p => p) (fun _ _ => True) spiFresh spiReceiveOps _ :=
    .of_follow rfl
  exact ⟨_, hp, rfl, (spi_isr_divides_iff rfl hp dwSpiImrTxeim [] 4).mpr (.inr rfl)⟩

theorem spi_isr_divides_overflow :
    ∃ p, Runs (spiPortStep spiBoard fun _ p => p) (fun _ _ => True) spiFresh spiReceiveOps p ∧
      hasFlag p.dev.imr 0x08#32 = true ∧ p.irq = true ∧
      dwSpiIsr spiBoard (fun _ p => p) p 0x08#32 [] 4 = .error .divZero :=
  ⟨_, .of_follow rfl, by decide, rfl, rfl⟩

end Embarc
