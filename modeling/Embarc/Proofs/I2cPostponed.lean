/-
What becomes of a request that the I2C master of the subsystem has only noted.

Only `i2c_mst_stop_det_ISR_proc` looks for such a request, and its interrupt is never unmasked:
opening unmasks the two errors, and the rest of the driver the thresholds of the FIFOs.  The
routines that do run end a transfer and leave it at that.  So a request that is postponed stays
noted for good (`I2cDev.Prompt` is never regained), and nothing is left over at the end of a run
exactly if nothing was ever postponed.
-/
import Embarc.Lib.Run
import Embarc.Subsystem.I2cMaster

namespace Embarc

/-- A request is made where none of its direction is outstanding, and an interrupt comes only if it
is unmasked.  What `i2c_mst_tx_req_ISR_proc` does behind its callback comes whenever it comes. -/
def I2cOp.Allowed (s : I2cDev) : I2cOp → Prop
  | .read _ _ _ => s.rxData = 0 ∧ s.handlingRx = false
  | .write _ _ _ => s.txData = 0 ∧ s.handlingTx = false
  | .errIsr _ _ => hasFlag s.regs.intrMask (rTxAbrt ||| rRxOver) = true
  | .rxAvailIsr _ => hasFlag s.regs.intrMask rRxFull = true
  | .txReqIsrTx _ => hasFlag s.regs.intrMask rTxEmpty = true
  | .txReqIsrRx _ => True
  | .stopDetIsr _ _ => hasFlag s.regs.intrMask rStopDet = true

/-- No request is made while the other direction is busy. -/
def I2cOp.Unpostponed (s : I2cDev) : I2cOp → Prop
  | .read data _ _ => data ≠ 0 → s.handlingTx = false
  | .write data _ _ => data ≠ 0 → s.handlingRx = false
  | _ => True

namespace I2cDev

structure Prompt (s : I2cDev) : Prop where
  tx : s.txData ≠ 0 → s.handlingTx = true
  rx : s.rxData ≠ 0 → s.handlingRx = true

/-- The interrupts that are unmasked. -/
structure Inv (s : I2cDev) : Prop where
  handle : s.handle = true
  stopDet : s.regs.intrMask &&& rStopDet = 0
  rxFull : s.handlingRx = false → s.regs.intrMask &&& rRxFull = 0

def noted (s : I2cDev) : Bool × Word × Word × Bool × Bool × Word :=
  (s.handle, s.txData, s.rxData, s.handlingTx, s.handlingRx, s.regs.intrMask)

variable {s s' : I2cDev}

theorem prompt_of_noted (h : s'.noted = s.noted) : s'.Prompt ↔ s.Prompt := by
  simp only [noted, Prod.mk.injEq] at h
  obtain ⟨-, htx, hrx, hhtx, hhrx, -⟩ := h
  constructor
  · rintro ⟨h₁, h₂⟩
    exact ⟨by rwa [htx, hhtx] at h₁, by rwa [hrx, hhrx] at h₂⟩
  · rintro ⟨h₁, h₂⟩
    exact ⟨by rwa [htx, hhtx], by rwa [hrx, hhrx]⟩

theorem Inv.of_noted (hs : s.Inv) (h : s'.noted = s.noted) : s'.Inv := by
  simp only [noted, Prod.mk.injEq] at h
  obtain ⟨hhandle, -, -, -, hhrx, hmask⟩ := h
  refine ⟨by rw [hhandle, hs.handle], by rw [hmask, hs.stopDet], ?_⟩
  rw [hhrx, hmask]
  exact hs.rxFull

theorem call_noted (s : I2cDev) (which : DevCb) : (s.call which).noted = s.noted := by
  simp only [call]
  split <;> rfl

theorem Inv.call (hs : s.Inv) (which : DevCb) : (s.call which).Inv :=
  hs.of_noted (call_noted s which)

theorem prompt_call (s : I2cDev) (which : DevCb) : (s.call which).Prompt ↔ s.Prompt :=
  prompt_of_noted (call_noted s which)

/-! ### Requests -/

section Requests

variable (hw : I2cHw) (data size txflr : Word)

theorem read_spec (hs : s.Inv) (hfree : s.rxData = 0 ∧ s.handlingRx = false) :
    (s.read hw data size txflr).Inv ∧
      ((s.read hw data size txflr).Prompt ↔
        s.Prompt ∧ (I2cOp.read data size txflr).Unpostponed s) := by
  have hrx : s.rxData ≠ 0 → s.handlingRx = true := fun hne => absurd hfree.1 hne
  simp only [read]
  split_ifs with hidle
  · have hon : (({ s with rxSize := size, rxCount := 0, rxReqCount := 0, rxData := data } :
      I2cDev).startRx hw txflr).handlingRx = true := rfl
    refine ⟨⟨hs.handle, ?_, fun hoff => absurd (hoff.symm.trans hon) (by decide)⟩, ?_⟩
    · show (s.regs.intrMask ||| rTxEmpty ||| rRxFull) &&& rStopDet = 0
      rw [Field.or_get_of_disjoint (by decide), Field.or_get_of_disjoint (by decide), hs.stopDet]
    · constructor
      · intro h
        exact ⟨⟨h.tx, hrx⟩, fun _ => hidle⟩
      · rintro ⟨h, -⟩
        exact ⟨h.tx, fun _ => rfl⟩
  · refine ⟨{ hs with }, ?_⟩
    constructor
    · intro h
      refine ⟨⟨h.tx, hrx⟩, fun hne => ?_⟩
      have hstarted : s.handlingRx = true := h.rx hne
      exact absurd (hfree.2.symm.trans hstarted) (by decide)
    · rintro ⟨h, hun⟩
      exact ⟨h.tx, fun hne => absurd (hun hne) hidle⟩

theorem write_spec (hs : s.Inv) (hfree : s.txData = 0 ∧ s.handlingTx = false) :
    (s.write hw data size txflr).Inv ∧
      ((s.write hw data size txflr).Prompt ↔
        s.Prompt ∧ (I2cOp.write data size txflr).Unpostponed s) := by
  have htx : s.txData ≠ 0 → s.handlingTx = true := fun hne => absurd hfree.1 hne
  simp only [write]
  split_ifs with hidle
  · refine ⟨⟨hs.handle, ?_, fun hoff => ?_⟩, ?_⟩
    · show (s.regs.intrMask ||| rTxEmpty) &&& rStopDet = 0
      rw [Field.or_get_of_disjoint (by decide), hs.stopDet]
    · show (s.regs.intrMask ||| rTxEmpty) &&& rRxFull = 0
      rw [Field.or_get_of_disjoint (by decide), hs.rxFull hoff]
    · constructor
      · intro h
        exact ⟨⟨htx, h.rx⟩, fun _ => hidle⟩
      · rintro ⟨h, -⟩
        exact ⟨fun _ => rfl, h.rx⟩
  · refine ⟨{ hs with }, ?_⟩
    constructor
    · intro h
      refine ⟨⟨htx, h.rx⟩, fun hne => ?_⟩
      have hstarted : s.handlingTx = true := h.tx hne
      exact absurd (hfree.2.symm.trans hstarted) (by decide)
    · rintro ⟨h, hun⟩
      exact ⟨fun hne => absurd (hun hne) hidle, h.rx⟩

end Requests

/-! ### Interrupts -/

theorem errIsr_noted (s : I2cDev) (txAbrt rxOver : Bool) :
    (i2cMstErrIsr s txAbrt rxOver).noted = s.noted := by
  cases txAbrt <;> cases rxOver <;> simp [i2cMstErrIsr, call_noted]

theorem rxAvailIsr_spec (hs : s.Inv) (hfull : hasFlag s.regs.intrMask rRxFull = true)
    (frames : List Byte) :
    (i2cMstRxAvailIsr s frames).Inv ∧ ((i2cMstRxAvailIsr s frames).Prompt ↔ s.Prompt) := by
  -- the interrupt is unmasked while a read is handled only
  have hrx : s.handlingRx = true := by
    by_contra hoff
    simp [hasFlag, hs.rxFull (Bool.eq_false_iff.mpr hoff)] at hfull
  simp only [i2cMstRxAvailIsr]
  split
  · refine ⟨Inv.call ⟨?_, ?_, fun _ => ?_⟩ _, ?_⟩
    · exact hs.handle
    · exact (Field.clear_get_of_disjoint (by decide)).trans hs.stopDet
    · exact Field.clear_get_self _ _
    · rw [prompt_call]
      constructor
      · intro h
        exact ⟨h.tx, fun _ => hrx⟩
      · intro h
        exact ⟨h.tx, fun hne => absurd rfl hne⟩
  · exact ⟨hs.of_noted rfl, prompt_of_noted rfl⟩

theorem txReqIsrTx_spec (hw : I2cHw) (hs : s.Inv) (txflr : Word) :
    (i2cMstTxReqIsrTx hw s txflr).Inv ∧
      ((i2cMstTxReqIsrTx hw s txflr).Prompt ↔ s.Prompt) := by
  simp only [i2cMstTxReqIsrTx]
  split
  · rename_i htx
    split
    · refine ⟨Inv.call ⟨?_, ?_, fun hoff => ?_⟩ _, ?_⟩
      · exact hs.handle
      · exact (Field.clear_get_of_disjoint (by decide)).trans hs.stopDet
      · exact (Field.clear_get_of_disjoint (by decide)).trans (hs.rxFull hoff)
      · rw [prompt_call]
        constructor
        · intro h
          exact ⟨fun _ => htx, h.rx⟩
        · intro h
          exact ⟨fun hne => absurd rfl hne, h.rx⟩
    · exact ⟨hs.of_noted rfl, prompt_of_noted rfl⟩
  · exact ⟨hs, Iff.rfl⟩

theorem txReqIsrRx_spec (hw : I2cHw) (hs : s.Inv) (txflr : Word) :
    (i2cMstTxReqIsrRx hw s txflr).Inv ∧
      ((i2cMstTxReqIsrRx hw s txflr).Prompt ↔ s.Prompt) := by
  simp only [i2cMstTxReqIsrRx]
  split
  · split
    · refine ⟨⟨hs.handle, ?_, fun hoff => ?_⟩, ⟨fun h => ⟨h.tx, h.rx⟩, fun h => ⟨h.tx, h.rx⟩⟩⟩
      · exact (Field.clear_get_of_disjoint (by decide)).trans hs.stopDet
      · exact (Field.clear_get_of_disjoint (by decide)).trans (hs.rxFull hoff)
    · exact ⟨hs.of_noted rfl, prompt_of_noted rfl⟩
  · exact ⟨hs, Iff.rfl⟩

end I2cDev

/-! ### Whole runs -/

section Runs

variable {hw : I2cHw} {env : Word → I2cDev → I2cDev} {s s' : I2cDev}

/-- **A step leaves nothing postponed exactly if** nothing was, and it is not a request that is
postponed. -/
theorem i2cStep_spec {op : I2cOp} (hs : s.Inv) (hallowed : op.Allowed s)
    (h : i2cStep hw env s op = .ok s') :
    s'.Inv ∧ (s'.Prompt ↔ s.Prompt ∧ op.Unpostponed s) := by
  have hkept : s'.Inv ∧ (s'.Prompt ↔ s.Prompt) → op.Unpostponed s →
      s'.Inv ∧ (s'.Prompt ↔ s.Prompt ∧ op.Unpostponed s) := by
    rintro ⟨hinv, hprompt⟩ hun
    exact ⟨hinv, hprompt.trans (and_iff_left hun).symm⟩
  cases op with try cases h
  | read data size txflr =>
    simp only [i2cStep, ioI2cMasterRead, hs.handle, if_true] at h
    cases h
    exact I2cDev.read_spec hw data size txflr hs hallowed
  | write data size txflr =>
    simp only [i2cStep, ioI2cMasterWrite, hs.handle, if_true] at h
    cases h
    exact I2cDev.write_spec hw data size txflr hs hallowed
  | errIsr txAbrt rxOver =>
    have hnoted := I2cDev.errIsr_noted s txAbrt rxOver
    exact hkept ⟨hs.of_noted hnoted, I2cDev.prompt_of_noted hnoted⟩ trivial
  | rxAvailIsr frames => exact hkept (I2cDev.rxAvailIsr_spec hs hallowed frames) trivial
  | txReqIsrTx txflr => exact hkept (I2cDev.txReqIsrTx_spec hw hs txflr) trivial
  | txReqIsrRx txflr => exact hkept (I2cDev.txReqIsrRx_spec hw hs txflr) trivial
  | stopDetIsr txflr frames =>
    -- the interrupt is masked
    have hmasked : hasFlag s.regs.intrMask rStopDet = false := by simp [hasFlag, hs.stopDet]
    exact absurd (hallowed.symm.trans hmasked) (by decide)

def I2cDev.Opened (hw : I2cHw) (s : I2cDev) : Prop := ∃ s₀, ioI2cMasterOpen hw s₀ = (0, s)

theorem I2cDev.Opened.spec (h : s.Opened hw) : s.Inv ∧ s.Prompt := by
  obtain ⟨s₀, hopen⟩ := h
  simp only [ioI2cMasterOpen] at hopen
  split at hopen
  · exact absurd (Prod.mk.inj hopen).1 (by decide)
  · obtain rfl := congrArg Prod.snd hopen
    have hstop : (rTxAbrt ||| rRxOver) &&& rStopDet = 0 := by decide
    have hfull : (rTxAbrt ||| rRxOver) &&& rRxFull = 0 := by decide
    exact ⟨⟨rfl, hstop, fun _ => hfull⟩, ⟨fun hne => absurd rfl hne, fun hne => absurd rfl hne⟩⟩

/-- **When nothing is being handled, nothing is left over exactly if** no request was made while
the other direction was busy. -/
theorem i2c_outstanding_iff {ops : List I2cOp} (hopen : s.Opened hw)
    (h : Trace.Runs (i2cStep hw env) (fun s op => op.Allowed s) s ops s')
    (htx : s'.handlingTx = false) (hrx : s'.handlingRx = false) :
    (s'.txData = 0 ∧ s'.rxData = 0) ↔
      Trace.Runs (i2cStep hw env) (fun s op => op.Allowed s ∧ op.Unpostponed s) s ops s' := by
  obtain ⟨hinv, hprompt⟩ := hopen.spec
  have hlast : s'.Prompt ↔ s'.txData = 0 ∧ s'.rxData = 0 := by
    constructor
    · intro hp
      constructor
      · by_contra hne
        exact absurd (htx.symm.trans (hp.tx hne)) (by decide)
      · by_contra hne
        exact absurd (hrx.symm.trans (hp.rx hne)) (by decide)
    · rintro ⟨htx0, hrx0⟩
      exact ⟨fun hne => absurd htx0 hne, fun hne => absurd hrx0 hne⟩
  rw [← hlast, h.last_iff (fun _ _ _ hs hallowed hstep => (i2cStep_spec hs hallowed hstep).1)
    (fun _ _ _ hs hallowed hstep => (i2cStep_spec hs hallowed hstep).2) hinv]
  exact and_iff_right hprompt

/-! ### A write and then a read -/

def i2cSampleHw : I2cHw := { present := true, fifoDepth := 16 }

def i2cSample : I2cDev := (ioI2cMasterOpen i2cSampleHw .fresh).2

theorem i2cSample_opened : i2cSample.Opened i2cSampleHw := ⟨.fresh, rfl⟩

def i2cOneByOne : List I2cOp :=
  [.write 0x1000 1 0, .txReqIsrTx 0, .txReqIsrRx 0, .read 0x2000 1 0, .txReqIsrTx 0, .txReqIsrRx 0,
    .rxAvailIsr [0x5A]]

theorem i2c_outstanding_none :
    ∃ s', Trace.Runs (i2cStep i2cSampleHw fun _ s => s) (fun s op => op.Allowed s) i2cSample
        i2cOneByOne s' ∧
      s'.handlingTx = false ∧ s'.handlingRx = false ∧ s'.txData = 0 ∧ s'.rxData = 0 ∧
      s'.mem 0x2000 = 0x5A := by
  have hok : Trace.Runs (i2cStep i2cSampleHw fun _ s => s)
      (fun s op => op.Allowed s ∧ op.Unpostponed s) i2cSample i2cOneByOne _ :=
    .cons ⟨⟨rfl, rfl⟩, fun _ => rfl⟩ rfl (.cons ⟨rfl, trivial⟩ rfl
      (.cons ⟨trivial, trivial⟩ rfl (.cons ⟨⟨rfl, rfl⟩, fun _ => rfl⟩ rfl (.cons ⟨rfl, trivial⟩ rfl
      (.cons ⟨trivial, trivial⟩ rfl (.cons ⟨rfl, trivial⟩ rfl (.nil _)))))))
  have hallowed := hok.mono fun _ _ h => h.1
  obtain ⟨htx, hrx⟩ := (i2c_outstanding_iff i2cSample_opened hallowed rfl rfl).mpr hok
  exact ⟨_, hallowed, rfl, rfl, htx, hrx, rfl⟩

def i2cTogether : List I2cOp :=
  [.write 0x1000 1 0, .read 0x2000 1 0, .txReqIsrTx 0, .txReqIsrRx 0]

/-- The write is over, nothing is being handled, and the read waits for an interrupt that is
masked. -/
theorem i2c_read_left :
    ∃ s', Trace.Runs (i2cStep i2cSampleHw fun _ s => s) (fun s op => op.Allowed s) i2cSample
        i2cTogether s' ∧
      s'.handlingTx = false ∧ s'.handlingRx = false ∧ s'.rxData = 0x2000 ∧
      s'.regs.intrMask = rTxAbrt ||| rRxOver :=
  ⟨_, .cons ⟨rfl, rfl⟩ rfl (.cons ⟨rfl, rfl⟩ rfl (.cons rfl rfl (.cons trivial rfl (.nil _)))), rfl,
    rfl, rfl, rfl⟩

end Runs

end Embarc
