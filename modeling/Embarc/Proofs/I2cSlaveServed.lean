/-
Whether a buffer that was handed to the I2C slave still has its interrupt.

Handing a buffer over unmasks the interrupt that serves it.  Three routines mask an interrupt behind
their callback, and so take it away from a buffer the callback has handed over:
`i2c_slv0_rx_avail_ISR` and the first half of `i2c_slv0_stop_det_ISR` the one for receiving, and
`i2c_slv0_tx_req_ISR` the one for sending.  Everything else keeps `I2cSlvDev.Served`, so it holds
all along a run exactly if none of the three finds such a buffer.
-/
import Embarc.Proofs.I2cPostponed
import Embarc.Subsystem.I2cSlave

namespace Embarc

open Reentry (Task)

variable {rest : I2cSlvRest} {t : I2cSlvTask}

namespace I2cSlvDev

/-- A buffer to be filled has the interrupt for received bytes, and a buffer to be sent, once the
master has asked for it, the one for an empty FIFO. -/
structure Served (s : I2cSlvDev) : Prop where
  rx : s.rxData ≠ 0 → hasFlag s.regs.intrMask rRxFull = true
  tx : s.txData ≠ 0 → s.rdReqDetected = true → hasFlag s.regs.intrMask rTxEmpty = true

variable {s s' : I2cSlvDev}

namespace Served

section Mask

variable (hs : s.Served)
include hs

/-! ### The interrupt mask -/

/-- Nothing is taken away: what is outstanding was, and no interrupt of the two was masked. -/
theorem of_le (hrx : s'.rxData = 0 ∨ s'.rxData = s.rxData)
    (htx : s'.txData = 0 ∨ s'.txData = s.txData) (hreq : s'.rdReqDetected = s.rdReqDetected)
    (hmask : s'.regs.intrMask = s.regs.intrMask) : s'.Served := by
  constructor
  · intro hne
    rw [hmask]
    exact hs.rx ((hrx.resolve_left hne) ▸ hne)
  · intro hne hdet
    rw [hmask]
    exact hs.tx ((htx.resolve_left hne) ▸ hne) (hreq ▸ hdet)

theorem unmask (bits : Word) : (s.unmask bits).Served := by
  constructor
  · intro hne
    exact (hasFlag_or _ _ _).trans (by rw [hs.rx hne, Bool.true_or])
  · intro hne hdet
    exact (hasFlag_or _ _ _).trans (by rw [hs.tx hne hdet, Bool.true_or])

/-- The interrupt for received bytes is masked. -/
theorem mask_rxFull : (s.mask rRxFull).Served ↔ s.rxData = 0 := by
  constructor
  · intro h
    by_contra hne
    exact absurd (h.rx hne) (by simp [mask, writeMask, hasFlag_clear])
  · intro hnone
    refine ⟨fun hne => absurd hnone hne, fun hne hdet => ?_⟩
    exact (hasFlag_clear_of_disjoint (by decide)).trans (hs.tx hne hdet)

theorem mask_txEmpty :
    (s.mask rTxEmpty).Served ↔ s.txData = 0 ∨ s.rdReqDetected = false := by
  constructor
  · intro h
    by_contra hout
    rw [not_or, Bool.not_eq_false] at hout
    exact absurd (h.tx hout.1 hout.2) (by simp [mask, writeMask, hasFlag_clear])
  · intro hnone
    refine ⟨fun hne => ?_, fun hne hdet => ?_⟩
    · exact (hasFlag_clear_of_disjoint (by decide)).trans (hs.rx hne)
    · exact absurd (hnone.resolve_left hne) (by simp [show s.rdReqDetected = true from hdet])

/-! ### Settings and requests -/

theorem ioctl (cmd : I2cSlvIoctl) : (s.ioctl cmd).Served := by
  cases cmd <;> exact hs.of_le (.inr rfl) (.inr rfl) rfl rfl

theorem readEnd : s.readEnd.Served := hs.unmask _

theorem writeEnd : s.writeEnd.Served := (hs.unmask _).unmask _

theorem handRx (h : s'.rdReqDetected = s.rdReqDetected)
    (htx : s'.txData = s.txData) (hmask : s'.regs.intrMask = s.regs.intrMask &&& ~~~rStopDet) :
    (s'.unmask rRxFull).readEnd.Served := by
  refine readEnd ⟨fun _ => hasFlag_or_self _ (by decide), fun hne hdet => ?_⟩
  have htx' : hasFlag s'.regs.intrMask rTxEmpty = true := by
    rw [hmask, hasFlag_clear_of_disjoint (by decide)]
    exact hs.tx (htx ▸ hne) (h ▸ hdet)
  exact (hasFlag_or_of_disjoint (by decide)).trans htx'

end Mask

/-- A callback is called, or what is behind it is done at once. -/
theorem callback {which : DevCb} {behind : I2cSlvDev → I2cSlvTask} (hs : s.Served)
    (hbehind : s.Served → (behind s).state.Served) :
    (s.callback which rest behind).state.Served := by
  simp only [I2cSlvDev.callback]
  split
  · exact hs.of_le (.inr rfl) (.inr rfl) rfl rfl
  · exact hbehind hs

theorem readRest (frames : List Byte)
    (htx : s.txData ≠ 0 → s.rdReqDetected = true → hasFlag s.regs.intrMask rTxEmpty = true) :
    (s.readRest frames).state.Served := by
  unfold I2cSlvDev.readRest
  refine callback ⟨fun hne => absurd rfl hne, ?_⟩ fun h => h.readEnd
  simp only [retrieve, tellRxsize]
  split <;> split <;> exact htx

theorem writeEnd_of_rx
    (hrx : s.rxData ≠ 0 → hasFlag s.regs.intrMask rRxFull = true) : s.writeEnd.Served := by
  refine unmask ⟨fun hne => ?_, fun _ _ => hasFlag_or_self _ (by decide)⟩ _
  exact (hasFlag_or_of_disjoint (by decide)).trans (hrx hne)

theorem writeRest (hw : I2cHw) (txflr : Word)
    (hrx : s.rxData ≠ 0 → hasFlag s.regs.intrMask rRxFull = true) :
    (s.writeRest hw txflr).state.Served := by
  simp only [I2cSlvDev.writeRest]
  split
  · exact callback ⟨hrx, fun hne => absurd rfl hne⟩ fun h => h.writeEnd
  · exact writeEnd_of_rx hrx

/-- The second half of the routine for a stop condition masks nothing. -/
theorem stopDetTx (s : I2cSlvDev) (txflr : Word)
    (hrx : s.rxData ≠ 0 → hasFlag s.regs.intrMask rRxFull = true)
    (htx : s.txData ≠ 0 → s.rdReqDetected = true → hasFlag s.regs.intrMask rTxEmpty = true) :
    (i2cSlvStopDetTx s txflr).state.Served := by
  simp only [i2cSlvStopDetTx]
  split
  · split
    · exact callback ⟨hrx, fun hne => absurd rfl hne⟩ id
    · exact ⟨hrx, htx⟩
  · exact ⟨hrx, htx⟩

theorem stopDetTx_rx (s : I2cSlvDev) (txflr : Word) :
    (i2cSlvStopDetTx s txflr).state.rxData = s.rxData ∧
      (i2cSlvStopDetTx s txflr).state.regs.intrMask = s.regs.intrMask := by
  simp only [i2cSlvStopDetTx, I2cSlvDev.callback]
  split
  · split
    · split <;> exact ⟨rfl, rfl⟩
    · exact ⟨rfl, rfl⟩
  · exact ⟨rfl, rfl⟩

variable (hs : s.Served)
include hs

theorem read (data size pSize : Word) (frames : List Byte) :
    (s.read data size pSize frames).state.Served := by
  simp only [I2cSlvDev.read]
  split
  · exact hs.handRx rfl rfl rfl
  · split
    · exact hs.handRx rfl rfl rfl
    · refine readRest frames fun hne hdet => ?_
      exact (hasFlag_clear_of_disjoint (by decide)).trans (hs.tx hne hdet)

theorem write (hw : I2cHw) (data size pSize txflr : Word) :
    (s.write hw data size pSize txflr).state.Served := by
  have hrx : s.rxData ≠ 0 → hasFlag (s.regs.intrMask &&& ~~~rRdReq) rRxFull = true :=
    fun hne => (hasFlag_clear_of_disjoint (by decide)).trans (hs.rx hne)
  simp only [I2cSlvDev.write]
  split
  · exact unmask ⟨hrx, fun _ hdet => absurd hdet (by simp)⟩ _
  · split
    · exact writeRest hw txflr hrx
    · rename_i hno
      exact unmask ⟨hrx, fun _ hdet => absurd hdet hno⟩ _

/-! ### Interrupts -/

theorem errIsr (rxOver : Bool) : (i2cSlvErrIsr s rxOver).state.Served := by
  simp only [i2cSlvErrIsr]
  split
  · exact hs.callback id
  · exact hs

theorem rxAvailIsr (frames : List Byte) :
    (i2cSlvRxAvailIsr s frames).state.Served := by
  simp only [i2cSlvRxAvailIsr]
  split
  · refine callback (hs.of_le (.inl rfl) (.inr rfl) rfl rfl) fun h => ?_
    exact (h.mask_rxFull).mpr rfl
  · exact hs.of_le (.inr rfl) (.inr rfl) rfl rfl

theorem txReqIsr (hw : I2cHw) (txflr : Word) :
    (i2cSlvTxReqIsr hw s txflr).state.Served := by
  simp only [i2cSlvTxReqIsr]
  split
  · refine callback (hs.of_le (.inr rfl) (.inl rfl) rfl rfl) fun h => ?_
    exact (h.mask_txEmpty).mpr (.inl rfl)
  · exact hs.of_le (.inr rfl) (.inr rfl) rfl rfl

/-- Behind its first callback the routine for a stop condition masks the interrupt for received
bytes. -/
theorem stopDetEnd (txflr : Word) :
    (i2cSlvStopDetEnd s txflr).state.Served ↔ s.rxData = 0 := by
  obtain ⟨hdata, hmask⟩ := stopDetTx_rx (s.mask rRxFull) txflr
  constructor
  · intro h
    refine (hs.mask_rxFull).mp ⟨fun hne => ?_, fun hne hdet => ?_⟩
    · exact hmask ▸ h.rx (hdata ▸ hne)
    · exact (hasFlag_clear_of_disjoint (by decide)).trans (hs.tx hne hdet)
  · intro hnone
    have hkept := (hs.mask_rxFull).mpr hnone
    exact stopDetTx _ txflr hkept.rx hkept.tx

theorem stopDetRx (frames : List Byte) :
    (i2cSlvStopDetRx s frames).Served := by
  refine hs.of_le (.inl rfl) (.inr ?_) ?_ ?_ <;>
    (simp only [i2cSlvStopDetRx, retrieve, tellRxsize]
     split <;> split <;> rfl)

theorem stopDetIsr (frames : List Byte) (txflr : Word) :
    (i2cSlvStopDetIsr s frames txflr).state.Served := by
  simp only [i2cSlvStopDetIsr]
  split
  · split
    · rename_i hnone
      refine (stopDetEnd ?_ txflr).mpr ?_
      · split <;> exact hs.of_le (.inr rfl) (.inr rfl) rfl rfl
      · split <;> exact hnone
    · exact callback (hs.stopDetRx frames) fun h => (h.stopDetEnd txflr).mpr rfl
  · exact stopDetTx s txflr hs.rx hs.tx

theorem rdReqIsr (hw : I2cHw) : (i2cSlvRdReqIsr hw s).state.Served := by
  simp only [i2cSlvRdReqIsr]
  split
  · split
    · exact callback ⟨hs.rx, fun hne => absurd rfl hne⟩ id
    · refine ⟨fun hne => ?_, fun _ _ => hasFlag_or_self _ (by decide)⟩
      exact (hasFlag_or_of_disjoint (by decide)).trans (hs.rx hne)
  · exact hs.of_le (.inr rfl) (.inr rfl) rfl rfl

end Served

end I2cSlvDev

/-! ### Whole runs -/

section Runs

variable {hw : I2cHw} {s : I2cSlvDev}

/-- No entry takes an interrupt away. -/
theorem i2cSlvEnter_served {op : I2cSlvOp} (hs : s.Served) (h : i2cSlvEnter hw s op = .ok t) :
    t.state.Served := by
  cases op with obtain ⟨-, rfl⟩ := Except.of_guard h
  | ioctl cmd => exact hs.ioctl cmd
  | read data size pSize frames => exact hs.read data size pSize frames
  | write data size pSize txflr => exact hs.write hw data size pSize txflr
  | errIsr rxOver => exact hs.errIsr rxOver
  | rxAvailIsr frames => exact hs.rxAvailIsr frames
  | txReqIsr txflr => exact hs.txReqIsr hw txflr
  | stopDetIsr frames txflr => exact hs.stopDetIsr frames txflr
  | rdReqIsr => exact hs.rdReqIsr hw

/-- Where a routine masks an interrupt behind its callback, no buffer is waiting for it. -/
def I2cSlvRest.Clear (rest : I2cSlvRest) (s : I2cSlvDev) : Prop :=
  match rest with
  | .rxAvail | .stopRx => s.rxData = 0
  | .txReq => s.txData = 0 ∨ s.rdReqDetected = false
  | .read | .write | .err | .stopTx | .rdReq => True

theorem i2cSlvResume_served {txflr : Word} (hs : s.Served) (h : i2cSlvResume rest txflr s = .ok t) :
    t.state.Served ↔ rest.Clear s := by
  cases rest with cases h
  | read => exact iff_of_true hs.readEnd trivial
  | write => exact iff_of_true hs.writeEnd trivial
  | rxAvail => exact hs.mask_rxFull
  | txReq => exact hs.mask_txEmpty
  | stopRx => exact hs.stopDetEnd txflr
  | err | stopTx | rdReq => exact iff_of_true hs trivial

/-- The device as it is opened, with no call in progress. -/
def I2cSlvDev.Opened (s : I2cSlvDev) : Prop := ∃ devId s₀, ioI2cSlaveOpen devId s₀ = (0, s)

theorem I2cSlvDev.Opened.served (h : s.Opened) : s.Served := by
  obtain ⟨devId, s₀, hopen⟩ := h
  simp only [ioI2cSlaveOpen] at hopen
  split at hopen
  · exact absurd (Prod.mk.inj hopen).1 (by decide)
  · obtain rfl := congrArg Prod.snd hopen
    exact ⟨fun hne => absurd rfl hne, fun hne => absurd rfl hne⟩

/-- **Whenever no routine is running every outstanding buffer has its interrupt, exactly if** no
routine that masks an interrupt behind its callback finds a buffer there that waits for it. -/
theorem i2c_slave_served_iff (hopen : s.Opened) {es : List (Reentry.Event I2cSlvOp Word)}
    {t : Reentry.State I2cSlvDev I2cSlvRest}
    (h : Trace.Runs (i2cSlvStep hw) (fun _ _ => True) ⟨s, []⟩ es t) :
    Trace.Always (i2cSlvStep hw) (fun t => t.here.Served) ⟨s, []⟩ es t ↔
      Trace.Runs (i2cSlvStep hw)
        (Reentry.Meets (fun _ _ => True) fun rest _ s => rest.Clear s) ⟨s, []⟩ es t :=
  Reentry.always_iff (fun _ _ _ hs h => iff_of_true (i2cSlvEnter_served hs h) trivial)
    (fun _ _ _ _ hs h => i2cSlvResume_served hs h) h hopen.served

/-! ### The next buffer, from inside the callback -/

def I2cSlvOp.Unmasked (s : I2cSlvDev) : I2cSlvOp → Prop
  | .errIsr _ => hasFlag s.regs.intrMask (rTxAbrt ||| rRxOver) = true
  | .rxAvailIsr _ => hasFlag s.regs.intrMask rRxFull = true
  | .txReqIsr _ => hasFlag s.regs.intrMask rTxEmpty = true
  | .stopDetIsr _ _ => hasFlag s.regs.intrMask rStopDet = true
  | .rdReqIsr => hasFlag s.regs.intrMask rRdReq = true
  | .ioctl _ | .read .. | .write .. => True

instance I2cSlvOp.decUnmasked (s : I2cSlvDev) (op : I2cSlvOp) : Decidable (op.Unmasked s) := by
  unfold I2cSlvOp.Unmasked
  split <;> infer_instance

instance I2cSlvRest.decClear (rest : I2cSlvRest) (s : I2cSlvDev) : Decidable (rest.Clear s) := by
  unfold I2cSlvRest.Clear
  split <;> infer_instance

def i2cSlvSample : I2cSlvDev := (ioI2cSlaveOpen 0 .fresh).2

theorem i2cSlvSample_opened : i2cSlvSample.Opened := ⟨0, .fresh, rfl⟩

/-- The second buffer is handed over in the callback of `i2c_slv0_rd_req_ISR`, and goes on in
`i2c_slv0_tx_req_ISR`. -/
def i2cSlvSendTwo : List (Reentry.Event I2cSlvOp Word) :=
  [.enter (.ioctl (.setCb (.ofDir .tx) 0x400)), .enter (.write 0x1000 1 0x800 0), .enter .rdReqIsr,
    .enter (.write 0x1100 20 0x804 1), .leave 0, .enter (.txReqIsr 0), .leave 0]

theorem i2c_slave_served_sent :
    ∃ t, Trace.Always (i2cSlvStep i2cSampleHw) (fun t => t.here.Served) ⟨i2cSlvSample, []⟩
        i2cSlvSendTwo t ∧
      t.waiting = [] ∧ t.here.sent.length = 21 ∧ t.here.txData = 0 := by
  have hok : Trace.Runs (i2cSlvStep i2cSampleHw)
      (Reentry.Meets (fun _ _ => True) fun rest _ s => rest.Clear s) ⟨i2cSlvSample, []⟩
      i2cSlvSendTwo _ := .of_follow rfl
  exact ⟨_, (i2c_slave_served_iff i2cSlvSample_opened hok.any).mpr hok, rfl, rfl, rfl⟩

/-- The second buffer is handed over in the callback of `i2c_slv0_rx_avail_ISR`. -/
def i2cSlvReceiveTwo : List (Reentry.Event I2cSlvOp Word) :=
  [.enter (.ioctl (.setCb (.ofDir .rx) 0x400)), .enter (.read 0x2000 1 0x800 []),
    .enter (.rxAvailIsr [0x5A]), .enter (.read 0x3000 1 0x804 []), .leave 0]

/-- It is outstanding, no routine is running, and its interrupt is masked. -/
theorem i2c_slave_unserved :
    ∃ t, Trace.Runs (i2cSlvStep i2cSampleHw)
        (Reentry.Meets (fun s op => op.Unmasked s) fun _ _ _ => True) ⟨i2cSlvSample, []⟩
        i2cSlvReceiveTwo t ∧
      t.waiting = [] ∧ t.here.rxData = 0x3000 ∧ hasFlag t.here.regs.intrMask rRxFull = false :=
  ⟨_, .of_follow rfl, rfl, rfl, rfl⟩

end Runs

end Embarc
