/-
Whether an outstanding transfer of the SPI slave keeps its interrupts.

The two directions share the idle interrupt, and `spi_slv_idle_ISR_proc` masks it when it has ended
one of them, whatever the other is doing, and whatever its callback has started.  So the transfers
stay `Armed` exactly if nothing is outstanding any more where the routine masks an interrupt.
-/
import Embarc.Proofs.SpiFrames
import Embarc.Subsystem.SpiSlave

namespace Embarc

open Reentry (Task)

namespace SsSpiInfo

/-- An outstanding transfer has the idle interrupt, and a buffer that is not yet filled the one for
received frames. -/
structure Armed (s : SsSpiInfo) : Prop where
  idle : s.handlingTx = true ∨ s.handlingRx = true → hasFlag s.regs.imr rSpiIdle = true
  rx : s.handlingRx = true → s.rxDone = false → hasFlag s.regs.imr rSpiRxFull = true

variable {s : SsSpiInfo}

theorem Armed.of_none (htx : s.handlingTx = false) (hrx : s.handlingRx = false) : s.Armed := by
  constructor
  · rintro (h | h)
    · exact absurd (htx.symm.trans h) (by decide)
    · exact absurd (hrx.symm.trans h) (by decide)
  · intro h
    exact absurd (hrx.symm.trans h) (by decide)

/-- With the idle interrupt masked nothing may be outstanding. -/
theorem armed_of_idle_masked (h : hasFlag s.regs.imr rSpiIdle = false) :
    s.Armed ↔ s.handlingTx = false ∧ s.handlingRx = false := by
  constructor
  · intro hs
    constructor
    · by_contra hne
      exact absurd (h.symm.trans (hs.idle (.inl (Bool.not_eq_false _ ▸ hne)))) (by decide)
    · by_contra hne
      exact absurd (h.symm.trans (hs.idle (.inr (Bool.not_eq_false _ ▸ hne)))) (by decide)
  · rintro ⟨htx, hrx⟩
    exact .of_none htx hrx

theorem idle_masked (s : SsSpiInfo) {bits : Word} (h : bits &&& rSpiIdle = rSpiIdle) :
    hasFlag (s.mask bits).regs.imr rSpiIdle = false := by
  have hclear : s.regs.imr &&& ~~~bits &&& rSpiIdle = 0 := by
    rw [← h, ← BitVec.and_assoc, Field.clear_get_self]
    simp
  simp [mask, writeImr, hasFlag, hclear]

/-! ### Requests and the interrupts of the FIFOs -/

theorem armed_slaveRead (s : SsSpiInfo) (data size pSize : Word) :
    (s.slaveRead data size pSize).Armed :=
  ⟨fun _ => hasFlag_or_self _ (by decide), fun _ _ => hasFlag_or_self _ (by decide)⟩

theorem Armed.slaveWrite (hw : SsSpiHw) (hs : s.Armed) (data size txflr : Word) :
    (s.slaveWrite hw data size txflr).Armed := by
  simp only [SsSpiInfo.slaveWrite]
  split
  · refine ⟨fun _ => hasFlag_or_self _ (by decide), fun hrx hdone => ?_⟩
    exact (hasFlag_or_of_disjoint (by decide)).trans (hs.rx hrx hdone)
  · exact ⟨fun _ => hasFlag_or_self _ (by decide), fun _ _ => hasFlag_or_self _ (by decide)⟩

theorem Armed.rxIsr (hs : s.Armed) (hfull : hasFlag s.regs.imr rSpiRxFull = true)
    (frames : List Word) : (spiSlvRxIsr s frames).Armed := by
  simp only [spiSlvRxIsr]
  split
  · rename_i hdone
    refine ⟨fun h => ?_, fun _ hnot => absurd (hnot.symm.trans hdone) (by decide)⟩
    exact (hasFlag_clear_of_disjoint (by decide)).trans (hs.idle h)
  · exact ⟨hs.idle, fun _ _ => hfull⟩

theorem Armed.txIsr (hw : SsSpiHw) (hs : s.Armed) (txflr : Word) : (spiSlvTxIsr hw s txflr).Armed := by
  simp only [spiSlvTxIsr]
  split
  · constructor
    · intro h
      exact (hasFlag_clear_of_disjoint (by decide)).trans (hs.idle h)
    · intro hrx hdone
      exact (hasFlag_clear_of_disjoint (by decide)).trans (hs.rx hrx hdone)
  · exact ⟨hs.idle, hs.rx⟩

/-! ### The idle interrupt -/

/-- How many frames are taken when `n` are there: as many as the missing bytes ask for. -/
def taken (s : SsSpiInfo) (n : Nat) : Nat :=
  let bytes := capped (s.rxSize - s.rxBytes) (BitVec.ofNat 32 n <<< s.logXferSize)
  (bytes.toNat + (frameBytes s.logXferSize - 1)) / frameBytes s.logXferSize

/-- The buffer is filled with what the FIFO holds. -/
def FilledBy (s : SsSpiInfo) (n : Nat) : Prop :=
  s.rxSize ≤ (s.rxCount + BitVec.ofNat 32 (s.taken n)) <<< s.logXferSize

instance decFilledBy (s : SsSpiInfo) (n : Nat) : Decidable (s.FilledBy n) :=
  inferInstanceAs (Decidable (_ ≤ _))

theorem length_frameSizes (log cnt : Nat) :
    (frameSizes log cnt).length = (cnt + (frameBytes log - 1)) / frameBytes log := by
  have hpos := frameBytes_pos log
  obtain ⟨hle, hlt⟩ := frameSizes_length log cnt
  exact ((Nat.div_eq_iff hpos).mpr (by omega)).symm

theorem rxDone_retrieve (s : SsSpiInfo) (frames : List Word) :
    (ssRetrieveRxfifo s frames).rxDone = true ↔ s.FilledBy frames.length := by
  simp only [rxDone, rxBytes, ssRetrieveRxfifo, length_frameSizes, decide_eq_true_eq]
  rfl

/-- What the FIFO holds completes an outstanding receive. -/
def Filled (s : SsSpiInfo) (frames : List Word) : Prop :=
  s.handlingRx = true → s.FilledBy frames.length

/-- The idle interrupt is masked behind the callback for a buffer that is filled. -/
theorem armed_idleRxEnd (s : SsSpiInfo) :
    (spiSlvIdleRxEnd s).Armed ↔ s.handlingTx = false ∧ s.handlingRx = false :=
  armed_of_idle_masked (s.idle_masked (by decide))

theorem armed_rxEnded (hoff : s.handlingRx = false) (h : hasFlag s.regs.imr rSpiIdle = false) :
    (s.callback (.ofDir .rx) .idleRx fun s => .done (spiSlvIdleRxEnd s)).state.Armed ↔
      s.handlingTx = false := by
  simp only [callback]
  split
  · exact (armed_of_idle_masked (by exact h)).trans (and_iff_left hoff)
  · exact (armed_idleRxEnd s).trans (and_iff_left hoff)

/-- The second half of the routine, with the idle interrupt masked by the first. -/
theorem armed_idleRx_of_masked (h : hasFlag s.regs.imr rSpiIdle = false) (frames : List Word) :
    (spiSlvIdleRx s frames).state.Armed ↔ s.handlingTx = false ∧ s.Filled frames := by
  simp only [spiSlvIdleRx, Filled, rxDone_retrieve]
  split
  case isTrue hrx =>
    split_ifs with hdone
    · refine (armed_rxEnded rfl (by exact h)).trans ?_
      exact (and_iff_left fun _ => hdone).symm
    · refine (armed_of_idle_masked (by exact h)).trans (iff_of_false ?_ ?_)
      · rintro ⟨-, hoff⟩
        exact absurd (hoff.symm.trans hrx) (by decide)
      · rintro ⟨-, hfilled⟩
        exact hdone (hfilled hrx)
  case isFalse hrx =>
    refine (armed_of_idle_masked h).trans (and_congr_right fun _ => ?_)
    exact iff_of_true (Bool.eq_false_iff.mpr hrx) fun hon => absurd hon hrx

theorem armed_idleTxEnd (s : SsSpiInfo) (frames : List Word) :
    (spiSlvIdleTxEnd s frames).state.Armed ↔ s.handlingTx = false ∧ s.Filled frames :=
  armed_idleRx_of_masked (s.idle_masked (by decide)) frames

/-- What an idle interrupt asks for that ends no transmission: if it ends a receive and does not
call back, nothing is being sent; and if it does not, the count of a buffer that was filled before
has come round, which is no harm as long as the interrupt for received frames is on. -/
def RxAlone (s : SsSpiInfo) (frames : List Word) : Prop :=
  s.handlingRx = true →
    if s.FilledBy frames.length then s.cbs.get (.ofDir .rx) ≠ 0 ∨ s.handlingTx = false
    else s.rxDone = true → hasFlag s.regs.imr rSpiRxFull = true

theorem armed_idleRx (hs : s.Armed) (frames : List Word) :
    (spiSlvIdleRx s frames).state.Armed ↔ s.RxAlone frames := by
  simp only [spiSlvIdleRx, RxAlone, rxDone_retrieve]
  split
  case isTrue hrx =>
    simp only [hrx, true_imp_iff]
    split_ifs with hdone
    · simp only [callback]
      split_ifs with hcb
      · refine iff_of_true ⟨fun h => ?_, fun h => absurd h Bool.false_ne_true⟩ (.inl hcb)
        exact hs.idle (.inl (h.resolve_right Bool.false_ne_true))
      · refine (armed_idleRxEnd _).trans ⟨fun h => .inr h.1, fun h => ⟨h.resolve_left hcb, rfl⟩⟩
    · constructor
      · intro h _
        exact h.rx hrx (Bool.eq_false_iff.mpr fun hc =>
          hdone ((rxDone_retrieve s frames).mp hc))
      · intro hfull
        refine ⟨fun _ => hs.idle (.inr hrx), fun _ _ => ?_⟩
        by_cases hbefore : s.rxDone = true
        · exact hfull hbefore
        · exact hs.rx hrx (Bool.eq_false_iff.mpr hbefore)
  case isFalse hrx => exact iff_of_true hs fun hon => absurd hon hrx

/-- What an idle interrupt asks for. -/
def IdleOk (s : SsSpiInfo) (frames : List Word) : Prop :=
  if s.handlingTx = true ∧ s.txDone = true then s.cbs.get (.ofDir .tx) ≠ 0 ∨ s.Filled frames
  else s.RxAlone frames

theorem armed_idleIsr (hs : s.Armed) (frames : List Word) :
    (spiSlvIdleIsr s frames).state.Armed ↔ s.IdleOk frames := by
  simp only [spiSlvIdleIsr, IdleOk]
  split
  · simp only [callback]
    split_ifs with hcb
    · refine iff_of_true ⟨fun h => ?_, hs.rx⟩ (.inl hcb)
      exact hs.idle (.inr (h.resolve_left Bool.false_ne_true))
    · refine (armed_idleTxEnd _ frames).trans ⟨fun h => .inr h.2, fun h => ⟨rfl, ?_⟩⟩
      exact h.resolve_left hcb
  · exact armed_idleRx hs frames

end SsSpiInfo

variable {t : SpiSlvTask}

/-! ### Whole runs -/

section Runs

variable {hw : SsSpiHw} {s : SsSpiInfo}

def SpiSlvOp.Unmasked (s : SsSpiInfo) : SpiSlvOp → Prop
  | .rxIsr _ => hasFlag s.regs.imr rSpiRxFull = true
  | .txIsr _ => hasFlag s.regs.imr rSpiTxEmpty = true
  | .idleIsr _ => hasFlag s.regs.imr rSpiIdle = true
  | .read .. | .write .. => True

/-- An idle interrupt ends what is outstanding in both directions, or calls back. -/
def SpiSlvOp.Ends (s : SsSpiInfo) : SpiSlvOp → Prop
  | .idleIsr frames => s.IdleOk frames
  | .read .. | .write .. | .rxIsr _ | .txIsr _ => True

/-- Behind its callback nothing is outstanding any more, or is completed now. -/
def SpiSlvRest.Ends (rest : SpiSlvRest) (frames : List Word) (s : SsSpiInfo) : Prop :=
  match rest with
  | .idleTx => s.handlingTx = false ∧ s.Filled frames
  | .idleRx => s.handlingTx = false ∧ s.handlingRx = false

theorem spiSlvEnter_armed {op : SpiSlvOp} (hs : s.Armed) (hop : op.Unmasked s)
    (h : spiSlvEnter hw s op = .ok t) : t.state.Armed ↔ op.Ends s := by
  cases op with obtain ⟨-, rfl⟩ := Except.of_guard h
  | read data size pSize => exact iff_of_true (s.armed_slaveRead data size pSize) trivial
  | write data size txflr => exact iff_of_true (hs.slaveWrite hw data size txflr) trivial
  | rxIsr frames => exact iff_of_true (hs.rxIsr hop frames) trivial
  | txIsr txflr => exact iff_of_true (hs.txIsr hw txflr) trivial
  | idleIsr frames => exact SsSpiInfo.armed_idleIsr hs frames

theorem spiSlvResume_armed {rest : SpiSlvRest} {frames : List Word}
    (h : spiSlvResume rest frames s = .ok t) : t.state.Armed ↔ rest.Ends frames s := by
  cases rest with cases h
  | idleTx => exact SsSpiInfo.armed_idleTxEnd s frames
  | idleRx => exact SsSpiInfo.armed_idleRxEnd s

/-- The device has been opened and set up. -/
def SsSpiInfo.SlaveOpened (hw : SsSpiHw) (s : SsSpiInfo) : Prop :=
  ∃ (s₀ s₁ : SsSpiInfo) (cmds : List SpiSlvIoctl),
    ioSpiSlaveOpen hw s₀ = (0, s₁) ∧ s = cmds.foldl (ioSpiSlaveIoctl hw) s₁

theorem SsSpiInfo.SlaveOpened.armed (h : s.SlaveOpened hw) : s.Armed := by
  obtain ⟨s₀, s₁, cmds, hopen, rfl⟩ := h
  have hnone : s₁.handlingTx = false ∧ s₁.handlingRx = false := by
    simp only [ioSpiSlaveOpen] at hopen
    split at hopen
    · exact absurd (Prod.mk.inj hopen).1 (by decide)
    · obtain rfl := congrArg Prod.snd hopen
      exact ⟨rfl, rfl⟩
  -- no setting starts a transfer
  have hkept : (cmds.foldl (ioSpiSlaveIoctl hw) s₁).handlingTx = false ∧
      (cmds.foldl (ioSpiSlaveIoctl hw) s₁).handlingRx = false := by
    clear hopen
    induction cmds generalizing s₁ with
    | nil => exact hnone
    | cons cmd cmds ih =>
      refine ih (ioSpiSlaveIoctl hw s₁ cmd) ?_
      cases cmd <;> exact hnone
  exact .of_none hkept.1 hkept.2

/-- **Whenever no routine is running every outstanding transfer has its interrupts, exactly if**
nothing is outstanding any more where the idle interrupt is masked. -/
theorem spi_slave_armed_iff (hopen : s.SlaveOpened hw)
    {es : List (Reentry.Event SpiSlvOp (List Word))} {t : Reentry.State SsSpiInfo SpiSlvRest}
    (h : Trace.Runs (spiSlvStep hw) (Reentry.Meets (fun s op => op.Unmasked s) fun _ _ _ => True)
      ⟨s, []⟩ es t) :
    Trace.Always (spiSlvStep hw) (fun t => t.here.Armed) ⟨s, []⟩ es t ↔
      Trace.Runs (spiSlvStep hw) (Reentry.Meets (fun s op => op.Unmasked s ∧ op.Ends s)
        fun rest frames s => rest.Ends frames s) ⟨s, []⟩ es t :=
  Reentry.always_iff_of (fun _ _ _ hs hop h => spiSlvEnter_armed hs hop h)
    (fun _ _ _ _ _ h => spiSlvResume_armed h) h hopen.armed

/-! ### Both directions at once -/

instance SsSpiInfo.decFilled (s : SsSpiInfo) (frames : List Word) : Decidable (s.Filled frames) :=
  inferInstanceAs (Decidable (_ → _))

instance SsSpiInfo.decRxAlone (s : SsSpiInfo) (frames : List Word) : Decidable (s.RxAlone frames) :=
  inferInstanceAs (Decidable (_ → ite _ _ _))

instance SsSpiInfo.decIdleOk (s : SsSpiInfo) (frames : List Word) : Decidable (s.IdleOk frames) :=
  inferInstanceAs (Decidable (ite _ _ _))

instance SpiSlvOp.decUnmasked (s : SsSpiInfo) (op : SpiSlvOp) : Decidable (op.Unmasked s) := by
  unfold SpiSlvOp.Unmasked
  split <;> infer_instance

instance SpiSlvOp.decEnds (s : SsSpiInfo) (op : SpiSlvOp) : Decidable (op.Ends s) := by
  unfold SpiSlvOp.Ends
  split <;> infer_instance

instance SpiSlvRest.decEnds (rest : SpiSlvRest) (frames : List Word) (s : SsSpiInfo) :
    Decidable (rest.Ends frames s) := by
  unfold SpiSlvRest.Ends
  split <;> infer_instance

def ssSpiSampleHw : SsSpiHw where
  present := true
  maxXferSize := 32
  fifoDepth := 16
  size_ok := SsSpiHw.large_ok

def spiSlvSample : SsSpiInfo :=
  [.setDfs 8, .setPacking 1, .setCb (.ofDir .tx) 0x400, .setCb (.ofDir .rx) 0x404].foldl
    (ioSpiSlaveIoctl ssSpiSampleHw) (ioSpiSlaveOpen ssSpiSampleHw (.fresh ssSpiSampleHw)).2

theorem spiSlvSample_opened : spiSlvSample.SlaveOpened ssSpiSampleHw :=
  ⟨.fresh ssSpiSampleHw, _, _, rfl, rfl⟩

/-- Two bytes are sent and two received, and the idle interrupt comes when all of them are
through. -/
def spiSlvExchange : List (Reentry.Event SpiSlvOp (List Word)) :=
  [.enter (.read 0x2000 2 0x800), .enter (.write 0x1000 2 0), .enter (.txIsr 0),
    .enter (.idleIsr [0x5A, 0x5B]), .leave [0x5A, 0x5B], .leave []]

theorem spi_slave_armed_exchange :
    ∃ t, Trace.Always (spiSlvStep ssSpiSampleHw) (fun t => t.here.Armed) ⟨spiSlvSample, []⟩
        spiSlvExchange t ∧
      t.waiting = [] ∧ t.here.calls = [.ofDir .tx, .ofDir .rx] ∧ t.here.mem 0x2001 = 0x5B := by
  have hok : Trace.Runs (spiSlvStep ssSpiSampleHw)
      (Reentry.Meets (fun s op => op.Unmasked s ∧ op.Ends s)
        fun rest frames s => rest.Ends frames s) ⟨spiSlvSample, []⟩ spiSlvExchange _ :=
    .of_follow rfl
  refine ⟨_, (spi_slave_armed_iff spiSlvSample_opened (hok.mono fun s ev hev => ?_)).mpr hok, rfl,
    rfl, rfl⟩
  cases ev with
  | enter e => exact hev.1
  | leave i => exact fun _ _ => trivial

def spiSlvLongReceive : List (Reentry.Event SpiSlvOp (List Word)) :=
  [.enter (.read 0x2000 4 0x800), .enter (.write 0x1000 2 0), .enter (.txIsr 0),
    .enter (.idleIsr [0x5A, 0x5B]), .leave [0x5A, 0x5B]]

/-- It is outstanding, no routine is running, and the idle interrupt is masked. -/
theorem spi_slave_disarmed :
    ∃ t, Trace.Runs (spiSlvStep ssSpiSampleHw)
        (Reentry.Meets (fun s op => op.Unmasked s) fun _ _ _ => True) ⟨spiSlvSample, []⟩
        spiSlvLongReceive t ∧
      t.waiting = [] ∧ t.here.handlingRx = true ∧ hasFlag t.here.regs.imr rSpiIdle = false :=
  ⟨_, .of_follow rfl, rfl, rfl, rfl⟩

end Runs

end Embarc
