/-
One callback for each transfer that the SPI master of the subsystem accepts.

A run is watched with the list of the transfers whose `SPI_CMD_TRANSFER_INT` was answered with
`E_OK`, each with what had been sent and received before.  A transfer is `Moving` from then on until
the idle interrupt: it is marked busy, it has its interrupts, and the frames moved so far are the
first ones of its buffers.  The idle interrupt routine then makes the callback with everything
moved.

That is so as long as no transfer is accepted from inside a callback.  The callback of a transfer in
one direction finds the device busy.  In two directions `ss_spi_master_tx_cb` has cleared the flag
already, and what is started then loses its flags and the idle interrupt when the routine goes on.
And it takes frames of more than one byte where the device counts the frames to receive: for frames
of one byte `io_spi_master_read` asks for one too few.
-/
import Embarc.Proofs.SpiMasterMoves
import Mathlib.Data.List.Forall2

namespace Embarc

open Reentry (Task)

variable {x : DevSpiTransfer} {txflr : Word} {ercd : Int} {frames : List Word} {s : SsSpi}

/-! ### Transfers -/

namespace SsSpi

open SsSpiInfo

variable {hw : SsSpiMasterHw} {s s' : SsSpi} {a : SsSpiMark} {ram : Word → Byte}

/-- A transfer has been accepted and not yet called back. -/
def inProgress (s : SsSpi) : Bool := s.io.handlingTx || s.io.handlingRx

structure Config (ram : Word → Byte) (s : SsSpi) : Prop where
  handle : s.io.handle = true
  txCb : s.io.cbs.get (.ofDir .tx) ≠ 0
  rxCb : s.io.cbs.get (.ofDir .rx) ≠ 0
  xferCb : s.cbs.of .xfer ≠ 0
  log_le : s.io.logXferSize ≤ 2
  ram_eq : s.io.ram = ram

/-- The transfer that was accepted at `a` is in progress. -/
structure Moving (s : SsSpi) (a : SsSpiMark) : Prop where
  xfer : s.xfer = a.xfer
  log : s.io.logXferSize = a.logXferSize
  busy : hasFlag s.flags ssSpiBusy = true
  txRx : hasFlag s.flags ssSpiTxRx = true
  asks : s.io.Asks
  moves : a.xfer.txLen ≠ 0 ∨ a.xfer.rxLen ≠ 0
  tx : a.xfer.txLen ≠ 0 → s.io.TxSide a ∧ hasFlag s.flags ssSpiTxReady = true
  noTx : a.xfer.txLen = 0 → s.io.handlingTx = false
  rx : a.xfer.rxLen ≠ 0 → s.io.RxSide a ∧ hasFlag s.flags ssSpiRxReady = true
  noRx : a.xfer.rxLen = 0 → s.io.handlingRx = false

/-! A transfer is accepted -/

theorem startWrite_eq (h : s.io.handle = true) (mode data size txflr : Word) :
    s.startWrite hw mode data size txflr = .ok { s with
      io := (s.io.masterIoctl hw.toSsSpiHw (.setTransferMode mode)).masterWrite hw.toSsSpiHw data
        size txflr } := by
  have hstill : (s.io.masterIoctl hw.toSsSpiHw (.setTransferMode mode)).handle = true := h
  simp [startWrite, ioctl, ioSpiMasterIoctl, ioSpiMasterWrite, h, hstill, Except.map, bind,
    Except.bind, pure, Except.pure]

theorem startRead_eq (h : s.io.handle = true) (mode data size : Word) :
    s.startRead hw mode data size = .ok { s with
      io := (s.io.masterIoctl hw.toSsSpiHw (.setTransferMode mode)).masterRead data size 0 } := by
  have hstill : (s.io.masterIoctl hw.toSsSpiHw (.setTransferMode mode)).handle = true := h
  simp [startRead, ioctl, ioSpiMasterIoctl, ioSpiMasterRead, h, hstill, Except.map, bind,
    Except.bind, pure, Except.pure]

theorem startBoth_eq (h : s.io.handle = true) (mode rxBuf rxSize txBuf txSize txflr : Word) :
    s.startBoth hw mode rxBuf rxSize txBuf txSize txflr = .ok { s with
      io := ((s.io.masterIoctl hw.toSsSpiHw (.setTransferMode mode)).masterRead rxBuf rxSize
        0).masterWrite hw.toSsSpiHw txBuf txSize txflr } := by
  have hstill : ((s.io.masterIoctl hw.toSsSpiHw (.setTransferMode mode)).masterRead rxBuf rxSize
      0).handle = true := (congrArg Prod.fst (masterRead_config ..)).trans h
  simp only [startBoth, startRead_eq h, ioSpiMasterWrite, if_pos hstill, bind, Except.bind, pure,
    Except.pure]

/-- What has to be so for a transfer to be moved as a whole. -/
@[mk_iff]
structure Fit (log : Nat) (x : DevSpiTransfer) : Prop where
  some : x.txLen ≠ 0 ∨ x.rxLen ≠ 0
  /-- The last frame of each buffer can be counted in full. -/
  tx : x.sentBytes.toNat + frameBytes log ≤ 2 ^ 32
  rx : x.gotBytes.toNat + frameBytes log ≤ 2 ^ 32
  /-- Where the device counts the frames it receives they have more than one byte. -/
  wide : x.rxLen ≠ 0 → ¬x.Duplex → log ≠ 0

/-- The flags of a transfer, with the halves that take part. -/
theorem flags_ready (bits : Word) :
    hasFlag (ssSpiBusy ||| ssSpiTxRx ||| bits) ssSpiBusy = true ∧
      hasFlag (ssSpiBusy ||| ssSpiTxRx ||| bits) ssSpiTxRx = true := by
  simp only [hasFlag_or]
  exact ⟨Bool.or_eq_true_iff.mpr (.inl (by decide)), Bool.or_eq_true_iff.mpr (.inl (by decide))⟩

theorem Config.congr (h : s.Config ram) (hio : s'.io.config = s.io.config)
    (hcbs : s'.cbs = s.cbs) : s'.Config ram := by
  simp only [config, Prod.mk.injEq] at hio
  obtain ⟨hhandle, hiocbs, hlog, hram⟩ := hio
  exact ⟨hhandle.trans h.handle, hiocbs ▸ h.txCb, hiocbs ▸ h.rxCb, hcbs ▸ h.xferCb, hlog ▸ h.log_le,
    hram.trans h.ram_eq⟩

section
variable (hc : s.Config ram) (hx : Fit s.io.logXferSize x)
include hc hx

theorem moving_write (hrx : s.io.handlingRx = false) (hlevel : txflr.toNat ≤ hw.fifoDepth.toNat)
    (hnorx : x.rxLen = 0) :
    Moving { s with
      flags := ssSpiBusy ||| ssSpiTxRx ||| ssSpiTxReady
      xfer := x
      io := (s.io.masterIoctl hw.toSsSpiHw (.setTransferMode spiTransmitOnlyMode)).masterWrite
        hw.toSsSpiHw x.txBuf x.txLen txflr } { s.mark with xfer := x } := by
  have htxlen : x.txLen ≠ 0 := hx.some.resolve_right (not_not_intro hnorx)
  have hbytes : x.sentBytes = x.txLen := if_neg fun hd => hd.1 hnorx
  refine ⟨rfl, log_of_config (masterWrite_config ..), (flags_ready _).1,
    (flags_ready _).2, masterWrite_asks fun _ => hrx, hx.some,
    fun _ => ⟨?_, hasFlag_or_self _ (by decide)⟩, fun hno => absurd hno htxlen,
    fun hyes => absurd hnorx hyes, fun _ => (masterWrite_handlingRx ..).trans hrx⟩
  rw [← hbytes] at htxlen ⊢
  exact masterWrite_txSide (a := { s.mark with xfer := x }) hc.log_le htxlen hx.tx hlevel
    rfl

theorem moving_read (htx : s.io.handlingTx = false) (hrxlen : x.rxLen ≠ 0) (hnotx : x.txLen = 0) :
    Moving { s with
      flags := ssSpiBusy ||| ssSpiTxRx ||| ssSpiRxReady
      xfer := x
      io := (s.io.masterIoctl hw.toSsSpiHw (.setTransferMode spiReceiveOnlyMode)).masterRead
        x.rxBuf x.rxLen 0 } { s.mark with xfer := x } := by
  have honeway : ¬x.Duplex := fun hd => hd.2.1 hnotx
  have hbytes : x.gotBytes = x.rxLen := if_neg honeway
  have hmode : (s.io.masterIoctl hw.toSsSpiHw (.setTransferMode spiReceiveOnlyMode)).transferMode =
      spiReceiveOnlyMode := transferMode_set s.io (by decide)
  have hwide := hx.wide hrxlen honeway
  refine ⟨rfl, log_of_config (masterRead_config ..), (flags_ready _).1,
    (flags_ready _).2, masterRead_asks hmode htx, hx.some, fun hyes => absurd hnotx hyes,
    fun _ => (masterRead_handlingTx ..).trans htx,
    fun _ => ⟨?_, hasFlag_or_self _ (by decide)⟩, fun hno => absurd hno hrxlen⟩
  rw [← hbytes] at hrxlen ⊢
  exact masterRead_rxSide (a := { s.mark with xfer := x }) hc.log_le hrxlen hx.rx rfl rfl
    (fun _ => hwide) fun hpaired => absurd (hmode.symm.trans hpaired) (by decide)

theorem moving_both {mode : Word} (hlevel : txflr.toNat ≤ hw.fifoDepth.toNat) (hrxlen : x.rxLen ≠ 0)
    (htxlen : x.txLen ≠ 0) (hmode : mode = spiReceiveAfterTransmitMode ∧ ¬x.Duplex ∨
      mode = spiTransmitReceiveMode ∧ x.Duplex) (hsent : x.sentBytes ≠ 0) (hgot : x.gotBytes ≠ 0) :
    Moving { s with
      flags := ssSpiBusy ||| ssSpiTxRx ||| (ssSpiRxReady ||| ssSpiTxReady)
      xfer := x
      io := ((s.io.masterIoctl hw.toSsSpiHw (.setTransferMode mode)).masterRead x.rxBuf x.gotBytes
        0).masterWrite hw.toSsSpiHw x.txBuf x.sentBytes txflr } { s.mark with xfer := x } := by
  have hset : (s.io.masterIoctl hw.toSsSpiHw (.setTransferMode mode)).transferMode = mode := by
    obtain ⟨rfl, -⟩ | ⟨rfl, -⟩ := hmode
    all_goals exact transferMode_set s.io (by decide)
  have hnotonly : mode ≠ spiReceiveOnlyMode ∧ mode ≠ spiTransmitOnlyMode := by
    obtain ⟨rfl, -⟩ | ⟨rfl, -⟩ := hmode
    all_goals decide
  obtain ⟨r, hr⟩ : ∃ r, r = (s.io.masterIoctl hw.toSsSpiHw (.setTransferMode mode)).masterRead
    x.rxBuf x.gotBytes 0 := ⟨_, rfl⟩
  have hrlog : r.logXferSize = s.io.logXferSize :=
    log_of_config (hr ▸ masterRead_config ..)
  have hrside : r.RxSide { s.mark with xfer := x } := by
    rw [hr]
    refine masterRead_rxSide (a := { s.mark with xfer := x }) hc.log_le hgot hx.rx rfl rfl
      (fun hother => ?_) fun hsame => ?_
    · obtain ⟨-, honeway⟩ | ⟨rfl, -⟩ := hmode
      · exact hx.wide hrxlen honeway
      · exact absurd hset hother
    · obtain ⟨rfl, -⟩ | ⟨-, hduplex⟩ := hmode
      · exact absurd (hset.symm.trans hsame) (by decide)
      · exact hduplex
  have hrsent : r.sent = s.io.sent := by
    rw [hr]
    exact masterRead_sent (by rw [hset]; exact hnotonly.1)
  have hrmode : r.transferMode = mode := by
    rw [hr, masterRead_transferMode, hset]
  rw [← hr]
  refine ⟨rfl, (log_of_config (masterWrite_config ..)).trans hrlog,
    (flags_ready _).1, (flags_ready _).2, ?_, hx.some,
    fun _ => ⟨?_, hasFlag_or_self _ (by decide)⟩, fun hno => absurd hno htxlen,
    fun _ => ⟨?_, hasFlag_or_self _ (by decide)⟩, fun hno => absurd hno hrxlen⟩
  · exact masterWrite_asks fun honly => absurd (hrmode.symm.trans honly) hnotonly.2
  · exact masterWrite_txSide (a := { s.mark with xfer := x }) (hrlog ▸ hc.log_le) hsent
      (hrlog ▸ hx.tx) hlevel hrsent
  · exact hrside.masterWrite DevSpiTransfer.sentBytes_eq_gotBytes

theorem ssSpiTransferInt_cases (hidle : s.inProgress = false)
    (hlevel : txflr.toNat ≤ hw.fifoDepth.toNat)
    (h : ssSpiTransferInt hw s x txflr = .ok (ercd, s')) :
    s'.Config ram ∧ s'.calls = s.calls ∧
      (ercd = eOk ∧ s'.Moving { s.mark with xfer := x } ∨ ercd = eNospt ∧ s'.inProgress = false) := by
  have hoff := hidle
  simp only [inProgress, Bool.or_eq_false_iff] at hidle
  obtain ⟨htx, hrx⟩ := hidle
  simp only [ssSpiTransferInt] at h
  split at h
  case isTrue hnorx =>
    rw [startWrite_eq (by exact hc.handle)] at h
    cases h
    refine ⟨hc.congr (masterWrite_config ..) rfl, rfl, .inl ⟨rfl, ?_⟩⟩
    exact moving_write (s := s) hc hx hrx hlevel hnorx
  case isFalse hrxlen =>
  split at h
  case isTrue hnotx =>
    rw [startRead_eq (by exact hc.handle)] at h
    cases h
    refine ⟨hc.congr (masterRead_config ..) rfl, rfl, .inl ⟨rfl, ?_⟩⟩
    exact moving_read (s := s) hc hx htx hrxlen hnotx
  case isFalse htxlen =>
  split at h
  case isTrue hafter =>
    have honeway : ¬x.Duplex := fun hd => hd.2.2 hafter
    have hsent : x.sentBytes = x.txLen := if_neg honeway
    have hgot : x.gotBytes = x.rxLen := if_neg honeway
    rw [startBoth_eq (by exact hc.handle), ← hsent, ← hgot] at h
    cases h
    refine ⟨hc.congr ((masterWrite_config ..).trans (masterRead_config ..)) rfl,
      rfl, .inl ⟨rfl, ?_⟩⟩
    exact moving_both (s := s) hc hx hlevel hrxlen htxlen (.inl ⟨rfl, honeway⟩) (by rwa [hsent])
      (by rwa [hgot])
  case isFalse hnotafter =>
  split at h
  · cases h
    exact ⟨hc.congr rfl rfl, rfl, .inr ⟨rfl, hoff⟩⟩
  · rename_i hofs
    have hduplex : x.Duplex := ⟨hrxlen, htxlen, hnotafter⟩
    have hsent : x.sentBytes = BitVec.ofNat 32 x.totLen := if_pos hduplex
    have hgot : x.gotBytes = BitVec.ofNat 32 x.totLen := if_pos hduplex
    have hpos : BitVec.ofNat 32 x.totLen ≠ 0 := DevSpiTransfer.totLen_ne_zero hrxlen hofs
    rw [startBoth_eq (by exact hc.handle)] at h
    cases h
    refine ⟨hc.congr ((masterWrite_config ..).trans (masterRead_config ..)) rfl,
      rfl, .inl ⟨rfl, ?_⟩⟩
    have hmoving := moving_both (s := s) hc hx hlevel hrxlen htxlen (.inr ⟨rfl, hduplex⟩)
      (by rwa [hsent])
      (by rwa [hgot])
    rwa [hsent, hgot] at hmoving

end

/-! The interrupts of the FIFOs -/

theorem Moving.txIsr (h : s.Moving a) (hunmasked : hasFlag s.io.regs.imr rSpiTxEmpty = true)
    (hlevel : txflr.toNat ≤ hw.fifoDepth.toNat) :
    Moving { s with io := spiMstTxIsr hw.toSsSpiHw s.io txflr } a := by
  have hsame := spiMstTxIsr_same hw.toSsSpiHw s.io txflr
  exact ⟨h.xfer, (log_of_config hsame.1).trans h.log, h.busy, h.txRx,
    h.asks.txIsr hunmasked txflr, h.moves,
    fun hlen => ⟨(h.tx hlen).1.txIsr hlevel, (h.tx hlen).2⟩, fun hno => hsame.2.1.trans (h.noTx hno),
    fun hlen => ⟨(h.rx hlen).1.txIsr txflr, (h.rx hlen).2⟩, fun hno => hsame.2.2.trans (h.noRx hno)⟩

theorem Moving.rxIsr (h : s.Moving a) (hunmasked : hasFlag s.io.regs.imr rSpiRxFull = true)
    (hlen : s.io.handlingRx = true → s.io.rxCount.toNat + frames.length ≤ s.io.toReceive) :
    Moving { s with io := spiMstRxIsr s.io frames } a := by
  have hsame := spiMstRxIsr_same s.io frames
  refine ⟨h.xfer, (log_of_config hsame.1).trans h.log, h.busy, h.txRx,
    h.asks.rxIsr hunmasked frames, h.moves,
    fun hlen => ⟨(h.tx hlen).1.rxIsr frames, (h.tx hlen).2⟩, fun hno => hsame.2.1.trans (h.noTx hno),
    fun hrxlen => ?_, fun hno => hsame.2.2.trans (h.noRx hno)⟩
  obtain ⟨hside, hready⟩ := h.rx hrxlen
  have hrest := hside.toReceive_le fun htxlen => (h.tx htxlen).1
  exact ⟨hside.rxIsr (Nat.le_trans (hlen hside.handling) hrest), hready⟩

/-! The idle interrupt -/

section
variable (hc : s.Config ram)
include hc

theorem moved_of_sides (hxfer : s.xfer = a.xfer) (hlog : s.io.logXferSize = a.logXferSize)
    (htx : a.xfer.txLen ≠ 0 → s.io.TxSide a ∧ s.io.txDone = true)
    (hrx : a.xfer.rxLen ≠ 0 → s.io.RxSide a ∧ s.io.rxCount.toNat = s.io.rxSizes.length) :
    a.Moved ram s.mark := by
  refine ⟨hxfer, fun htxlen => ?_, fun hrxlen => ?_⟩
  · obtain ⟨hside, hdone⟩ := htx htxlen
    have hsent := hside.sends.all hdone
    rwa [txFrames, hside.buff, hside.size, hlog, hc.ram_eq] at hsent
  · obtain ⟨hside, hcount⟩ := hrx hrxlen
    obtain ⟨frames, hgot, hlen, hmem⟩ := hside.receives.stored
    rw [rxSizes, hside.size, hlog] at hcount hmem
    rw [hside.buff] at hmem
    exact ⟨frames, hgot, hlen.trans hcount, hmem⟩

theorem spiMstIdleRx_calls (hrx : s.io.handlingRx = true) (htxRx : hasFlag s.flags ssSpiTxRx = true)
    (hready : hasFlag s.flags ssSpiRxReady = true) (frames : List Word) :
    spiMstIdleRx s frames =
      .calls (call { s with io := ssRetrieveRxfifo { s.io with handlingRx := false } frames } .xfer)
        .idleXfer := by
  have hcb : (ssRetrieveRxfifo { s.io with handlingRx := false } frames).cbs.get (.ofDir .rx) ≠ 0 :=
    hc.rxCb
  simp only [spiMstIdleRx, if_pos hrx, if_pos hcb, ssSpiMasterRxCb, if_pos htxRx, if_pos hready,
    callback, if_pos hc.xferCb]

theorem spiMstIdleIsr_calls (htx : s.io.handlingTx = true)
    (htxRx : hasFlag s.flags ssSpiTxRx = true) (hready : hasFlag s.flags ssSpiTxReady = true)
    (hnorx : s.xfer.rxLen = 0) (frames : List Word) :
    spiMstIdleIsr s frames =
      .calls (call (clearFlags { s with io := { s.io with handlingTx := false } } ssSpiTxRx) .xfer)
        .idleTx := by
  have hstill : hasFlag (clearFlags { s with io := { s.io with handlingTx := false } }
      ssSpiTxRx).flags ssSpiTxReady = true :=
    (hasFlag_clear_of_disjoint (by decide)).trans hready
  have hcb : (clearFlags { s with io := { s.io with handlingTx := false } } ssSpiTxRx).cbs.of .xfer ≠
      0 := hc.xferCb
  simp only [spiMstIdleIsr, if_pos htx, if_pos hc.txCb, ssSpiMasterTxCb, if_pos htxRx, if_pos hnorx,
    if_pos hstill, callback, if_pos hcb]

/-- The transmit half of a transfer in both directions ends without a callback. -/
theorem spiMstIdleIsr_both (htx : s.io.handlingTx = true) (htxRx : hasFlag s.flags ssSpiTxRx = true)
    (hrxlen : s.xfer.rxLen ≠ 0) (frames : List Word) :
    spiMstIdleIsr s frames =
      spiMstIdleRx { clearFlags s (ssSpiTxReady ||| ssSpiBusy) with
        io := mask { s.io with handlingTx := false } (rSpiTxEmpty ||| rSpiIdle) } frames := by
  simp only [spiMstIdleIsr, if_pos htx, if_pos hc.txCb, ssSpiMasterTxCb, if_pos htxRx,
    if_neg hrxlen, spiMstIdleTxEnd, ssSpiMasterTxCbEnd, clearFlags]

/-- **The idle interrupt calls back**, with everything moved and nothing in progress any more. -/
theorem Moving.idleIsr (h : s.Moving a) (htx : s.io.handlingTx = true → s.io.txDone = true)
    (hrx : s.io.handlingRx = true → s.io.rxCount.toNat + frames.length = s.io.toReceive) :
    ∃ s' rest c, spiMstIdleIsr s frames = .calls s' rest ∧ s'.Config ram ∧
      s'.inProgress = false ∧ s'.calls = s.calls ++ [c] ∧ c.cbrtn = .xfer ∧
      a.Moved ram c.toSsSpiMark := by
  have htxall : a.xfer.txLen ≠ 0 → s.io.TxSide a ∧ s.io.txDone = true := fun htxlen =>
    ⟨(h.tx htxlen).1, htx (h.tx htxlen).1.handling⟩
  by_cases hrxlen : a.xfer.rxLen = 0
  · -- only sent
    obtain ⟨hside, hready⟩ := h.tx (h.moves.resolve_right (not_not_intro hrxlen))
    have hrxoff := h.noRx hrxlen
    have hmoved : a.Moved ram s.mark :=
      moved_of_sides hc h.xfer h.log htxall fun hlen => absurd hrxlen hlen
    refine ⟨_, _, _, spiMstIdleIsr_calls hc hside.handling h.txRx hready (by rwa [h.xfer]) frames,
      hc.congr rfl rfl, ?_, rfl, rfl, hmoved⟩
    simpa [inProgress, call, clearFlags] using hrxoff
  · obtain ⟨hside, hready⟩ := h.rx hrxlen
    have hall : s.io.rxCount.toNat + frames.length = s.io.rxSizes.length :=
      (hrx hside.handling).trans (hside.toReceive_eq htxall)
    have hmoved : a.Moved ram (mark { s with io := ssRetrieveRxfifo s.io frames }) := by
      refine moved_of_sides (hc.congr rfl rfl) h.xfer h.log (fun htxlen => ?_) fun _ => ?_
      · exact ⟨(htxall htxlen).1.retrieve frames, (htxall htxlen).2⟩
      · exact ⟨hside.retrieve (Nat.le_of_eq hall),
          (hside.receives.retrieve (Nat.le_of_eq hall)).2.trans hall⟩
    by_cases htxlen : a.xfer.txLen = 0
    · -- only received
      have htxoff := h.noTx htxlen
      have hskip : spiMstIdleIsr s frames = spiMstIdleRx s frames := by
        simp only [spiMstIdleIsr, htxoff, Bool.false_eq_true, if_false]
      refine ⟨_, _, _, hskip.trans (spiMstIdleRx_calls hc hside.handling h.txRx hready frames),
        hc.congr rfl rfl, ?_, rfl, rfl, hmoved⟩
      simpa [inProgress, call, ssRetrieveRxfifo] using htxoff
    · obtain ⟨htxside, -⟩ := h.tx htxlen
      have hboth := spiMstIdleIsr_both hc htxside.handling h.txRx (by rwa [h.xfer]) frames
      have hcalls := spiMstIdleRx_calls (s := { clearFlags s (ssSpiTxReady ||| ssSpiBusy) with
          io := mask { s.io with handlingTx := false } (rSpiTxEmpty ||| rSpiIdle) })
        (hc.congr rfl rfl) hside.handling ((hasFlag_clear_of_disjoint (by decide)).trans h.txRx)
        ((hasFlag_clear_of_disjoint (by decide)).trans hready) frames
      exact ⟨_, _, _, hboth.trans hcalls, hc.congr rfl rfl, rfl, rfl, rfl, hmoved⟩

end

theorem spiMstIdleIsr_none (h : s.inProgress = false) (frames : List Word) :
    spiMstIdleIsr s frames = .done s := by
  simp only [inProgress, Bool.or_eq_false_iff] at h
  simp only [spiMstIdleIsr, spiMstIdleRx, h.1, h.2, Bool.false_eq_true, if_false]

theorem ssSpiResume_none (hc : s.Config ram) (h : s.inProgress = false) (rest : SsSpiRest)
    (frames : List Word) :
    ∃ s', ssSpiResume rest frames s = .ok (.done s') ∧ s'.Config ram ∧ s'.inProgress = false ∧
      s'.calls = s.calls := by
  cases rest with
  | idleTx =>
    refine ⟨{ ssSpiMasterTxCbEnd s with
      io := (ssSpiMasterTxCbEnd s).io.mask (rSpiTxEmpty ||| rSpiIdle) }, ?_, hc.congr rfl rfl, h, rfl⟩
    have hoff : ((ssSpiMasterTxCbEnd s).io.mask (rSpiTxEmpty ||| rSpiIdle)).handlingRx = false :=
      (Bool.or_eq_false_iff.mp h).2
    simp only [ssSpiResume, spiMstIdleTxEnd, spiMstIdleRx, hoff, Bool.false_eq_true, if_false]
  | idleRx | idleXfer => exact ⟨_, rfl, hc.congr rfl rfl, h, rfl⟩

end SsSpi

/-! ### The device is set up -/

/-- The commands that only set something. -/
def SsSpiCtrl.Setting : SsSpiCtrl → Prop
  | .setCb .. | .setClkMode _ | .setDfs _ | .mstSetFreq _ | .mstSelDev _ | .mstDselDev _ => True
  | _ => False

/-- The commands for the device below that do nothing but write registers. -/
def SpiMstIoctl.RegsOnly : SpiMstIoctl → Prop
  | .setCb .. | .setPacking _ => False
  | _ => True

namespace SsSpi

variable {hw : SsSpiMasterHw} {s s' : SsSpi}

/-- Settings are made, one after the other. -/
def settings (hw : SsSpiMasterHw) (s : SsSpi) (cmds : List SsSpiCtrl) : Except SsSpiStop SsSpi :=
  cmds.foldlM (fun s cmd => (ssSpiMasterControl hw s cmd).map (·.2)) s

/-- The device has been opened, with the callbacks of the layer above the driver, and set up with a
callback for transfers. -/
def SetUp (hw : SsSpiMasterHw) (s : SsSpi) : Prop :=
  ∃ (s₀ s₁ : SsSpi) (param : Word) (cmds : List SsSpiCtrl), s₀.opnCnt = 0 ∧ s₀.calls = [] ∧
    s₀.intCbs.txCb ≠ 0 ∧ s₀.intCbs.rxCb ≠ 0 ∧ ssSpiMasterOpen hw s₀ 0 param = .ok (eOk, s₁) ∧
    (∀ cmd ∈ cmds, cmd.Setting) ∧ s₁.settings hw cmds = .ok s ∧ s.cbs.xferCb ≠ 0

/-- What opening brings about and settings keep. -/
structure Settled (s : SsSpi) : Prop where
  handle : s.io.handle = true
  txCb : s.io.cbs.txCb ≠ 0
  rxCb : s.io.cbs.rxCb ≠ 0
  log_le : s.io.logXferSize ≤ 2
  idle : s.inProgress = false
  calls : s.calls = []

theorem spiMstPacked_le (hw : SsSpiHw) (ctrl0 : Word) : spiMstPacked hw ctrl0 ≤ 2 := by
  simp only [spiMstPacked]
  split
  · split
    · decide
    · split <;> decide
  · split <;> decide

theorem settled_open {s₀ : SsSpi} {param : Word} (hcnt : s₀.opnCnt = 0) (hcalls : s₀.calls = [])
    (htx : s₀.intCbs.txCb ≠ 0) (hrx : s₀.intCbs.rxCb ≠ 0)
    (h : ssSpiMasterOpen hw s₀ 0 param = .ok (eOk, s)) : s.Settled := by
  have hfirst : ¬s₀.opnCnt > 0 := by
    rw [hcnt]
    decide
  simp only [ssSpiMasterOpen, ne_eq, not_true_eq_false, if_false, if_neg hfirst] at h
  simp only [ioSpiMasterOpen] at h
  split at h
  · have hsys : eSys = eOk := congrArg Prod.fst (Except.ok.inj h)
    exact absurd hsys (by decide)
  · obtain ⟨s₁, hs₁, h⟩ := Except.bind_eq_ok_iff.mp h
    obtain ⟨s₂, hs₂, h⟩ := Except.bind_eq_ok_iff.mp h
    have hs₂ := ioctl_of_setFreq hs₂
    simp only [ioctls, ioctl, ioSpiMasterIoctl, SsSpiInfo.masterIoctl, List.foldlM, bind, Except.bind,
      if_true, Except.map, pure, Except.pure, Except.ok.injEq] at hs₁
    subst hs₁
    simp only [ioctl, ioSpiMasterIoctl, if_true, Except.map, Except.ok.injEq] at hs₂
    subst hs₂
    cases h
    exact ⟨rfl, htx, hrx, spiMstPacked_le .., rfl, hcalls⟩

theorem Settled.ioctl (h : s.Settled) {cmd : SpiMstIoctl} (hcmd : cmd.RegsOnly)
    (hok : s.ioctl hw cmd = .ok s') : s'.Settled := by
  simp only [SsSpi.ioctl, ioSpiMasterIoctl, if_pos h.handle, Except.map] at hok
  cases hok
  cases cmd with
  | setCb | setPacking => exact absurd hcmd id
  | _ => exact { h with }

theorem Settled.ioctls (h : s.Settled) {cmds : List SpiMstIoctl} (hcmds : ∀ cmd ∈ cmds, cmd.RegsOnly)
    (hok : s.ioctls hw cmds = .ok s') : s'.Settled := by
  induction cmds generalizing s with
  | nil =>
    cases hok
    exact h
  | cons cmd cmds ih =>
    obtain ⟨s₁, hfirst, hrest⟩ := Except.bind_eq_ok_iff.mp hok
    exact ih (h.ioctl (hcmds cmd List.mem_cons_self) hfirst)
      (fun cmd hmem => hcmds cmd (List.mem_cons_of_mem _ hmem)) hrest

theorem clkModeIoctls_regsOnly (val : Word) : ∀ cmd ∈ clkModeIoctls val, cmd.RegsOnly := by
  intro cmd hmem
  simp only [clkModeIoctls] at hmem
  repeat' split at hmem
  all_goals
    simp only [List.mem_cons, List.not_mem_nil, or_false] at hmem
    try rcases hmem with rfl | rfl
    all_goals trivial

theorem Settled.control (h : s.Settled) {cmd : SsSpiCtrl} (hcmd : cmd.Setting) {r : Int × SsSpi}
    (hok : ssSpiMasterControl hw s cmd = .ok r) : r.2.Settled := by
  have hone : ∀ {s₁ : SsSpi} {cmd : SpiMstIoctl}, SsSpi.ok (s₁.ioctl hw cmd) = .ok r →
      s₁.Settled → cmd.RegsOnly → r.2.Settled := by
    intro s₁ cmd hr hs₁ hcmd
    obtain ⟨s₂, hs₂, rfl⟩ := Except.exists_of_map_eq_ok hr
    exact hs₁.ioctl hcmd hs₂
  cases cmd with
  | setCb which param =>
    cases hok
    exact { h with }
  | setClkMode val =>
    obtain ⟨s₂, hs₂, rfl⟩ := Except.exists_of_map_eq_ok hok
    exact h.ioctls (clkModeIoctls_regsOnly val) hs₂
  | setDfs val => exact hone hok h trivial
  | mstSetFreq val =>
    obtain ⟨s₂, hs₂, rfl⟩ := Except.exists_of_map_eq_ok hok
    have hfreq : { s with freq := val }.Settled := { h with }
    have hbaud : (SpiMstIoctl.setBaud (hw.busFreq / val)).RegsOnly := trivial
    exact hfreq.ioctl hbaud (ioctl_of_setFreq hs₂)
  | mstSelDev val | mstDselDev val => exact hone hok { h with } trivial
  | _ => exact absurd hcmd id

theorem SetUp.settled (h : s.SetUp hw) : s.Settled ∧ s.cbs.xferCb ≠ 0 := by
  obtain ⟨s₀, s₁, param, cmds, hcnt, hcalls, htx, hrx, hopen, hcmds, hset, hxfer⟩ := h
  refine ⟨?_, hxfer⟩
  have hs₁ := settled_open hcnt hcalls htx hrx hopen
  clear hopen hxfer
  induction cmds generalizing s₁ with
  | nil =>
    cases hset
    exact hs₁
  | cons cmd cmds ih =>
    obtain ⟨s₂, hfirst, hrest⟩ := Except.bind_eq_ok_iff.mp hset
    obtain ⟨r, hr, rfl⟩ := Except.exists_of_map_eq_ok hfirst
    exact ih r.2 (fun cmd hmem => hcmds cmd (List.mem_cons_of_mem _ hmem)) hrest
      (hs₁.control (hcmds cmd List.mem_cons_self) hr)

end SsSpi

/-! ### Whole runs -/

/-- A run, with the transfers accepted so far, each as it was accepted. -/
structure SsSpiRun where
  machine : Reentry.State SsSpi SsSpiRest
  accepted : List SsSpiMark

abbrev SsSpiEvent := Reentry.Event SsSpiOp (List Word)

/-- The transfer a step accepts: its `SPI_CMD_TRANSFER_INT` is answered with `E_OK`. -/
def ssSpiAccepted (hw : SsSpiMasterHw) (s : SsSpi) : SsSpiEvent → List SsSpiMark
  | .enter (.control (.transferInt (some x) txflr)) =>
    match ssSpiMasterControl hw s (.transferInt (some x) txflr) with
    | .ok (ercd, _) => if ercd = eOk then [{ s.mark with xfer := x }] else []
    | .error _ => []
  | _ => []

def ssSpiRunStep (hw : SsSpiMasterHw) (r : SsSpiRun) (ev : SsSpiEvent) :
    Except (Reentry.Stop SsSpiStop) SsSpiRun :=
  (ssSpiStep hw r.machine ev).map fun machine =>
    { machine, accepted := r.accepted ++ ssSpiAccepted hw r.machine.here ev }

namespace SsSpiRun

variable {hw : SsSpiMasterHw} {r r' : SsSpiRun} {ram : Word → Byte}

/-- The commands are transfers of some length.  The interrupts come in no callback and only if they
are unmasked, the FIFOs hold what the device has moved, and the idle interrupt comes when the last
frame is through. -/
def Base (hw : SsSpiMasterHw) (r : SsSpiRun) : SsSpiEvent → Prop
  | .enter (.control (.transferInt (some x) txflr)) =>
    (x.txLen ≠ 0 ∨ x.rxLen ≠ 0) ∧ txflr.toNat ≤ hw.fifoDepth.toNat
  | .enter (.control (.transferInt none _)) => True
  | .enter (.control _) => False
  | .enter (.rxIsr frames) =>
    r.machine.waiting = [] ∧ hasFlag r.machine.here.io.regs.imr rSpiRxFull = true ∧
      (r.machine.here.io.handlingRx = true →
        r.machine.here.io.rxCount.toNat + frames.length ≤ r.machine.here.io.toReceive)
  | .enter (.txIsr txflr) =>
    r.machine.waiting = [] ∧ hasFlag r.machine.here.io.regs.imr rSpiTxEmpty = true ∧
      txflr.toNat ≤ hw.fifoDepth.toNat
  | .enter (.idleIsr frames) =>
    r.machine.waiting = [] ∧ hasFlag r.machine.here.io.regs.imr rSpiIdle = true ∧
      (r.machine.here.io.handlingTx = true → r.machine.here.io.txDone = true) ∧
      (r.machine.here.io.handlingRx = true →
        r.machine.here.io.rxCount.toNat + frames.length = r.machine.here.io.toReceive)
  | .leave _ => True

/-- A transfer fits, and a command that is made inside a callback finds the device busy. -/
def Kept (r : SsSpiRun) : SsSpiEvent → Prop
  | .enter (.control (.transferInt (some x) _)) =>
    SsSpi.Fit r.machine.here.io.logXferSize x ∧
      (r.machine.waiting ≠ [] → hasFlag r.machine.here.flags ssSpiBusy = true)
  | _ => True

/-- The transfers that were accepted have been called back one after the other, each once and with
everything moved; one more may be in progress, and that one is marked busy and has its
interrupts. -/
structure Once (ram : Word → Byte) (r : SsSpiRun) : Prop where
  called : List.Forall₂ (fun a c => c.cbrtn = .xfer ∧ a.Moved ram c.toSsSpiMark)
    (r.accepted.take r.machine.here.calls.length) r.machine.here.calls
  pending : r.accepted.length =
    r.machine.here.calls.length + if r.machine.here.inProgress then 1 else 0
  busy : r.machine.here.inProgress = true →
    hasFlag r.machine.here.flags ssSpiBusy = true ∧ r.machine.here.io.Asks

/-- The invariant: the last one that was accepted is in progress, outside of any callback, or none
is. -/
structure Inv (ram : Word → Byte) (r : SsSpiRun) : Prop where
  config : r.machine.here.Config ram
  state : ∃ done left, r.accepted = done ++ left ∧
    List.Forall₂ (fun a c => c.cbrtn = .xfer ∧ a.Moved ram c.toSsSpiMark) done
      r.machine.here.calls ∧
    (left = [] ∧ r.machine.here.inProgress = false ∨
      ∃ a, left = [a] ∧ r.machine.here.Moving a ∧ r.machine.waiting = [])

theorem moving_inProgress {a : SsSpiMark} (h : s.Moving a) : s.inProgress = true := by
  rw [SsSpi.inProgress, Bool.or_eq_true]
  exact h.moves.imp (fun htxlen => (h.tx htxlen).1.handling) fun hrxlen => (h.rx hrxlen).1.handling

variable (h : r.Inv ram)
include h

theorem Inv.once : r.Once ram := by
  obtain ⟨done, left, haccepted, hcalled, hleft⟩ := h.state
  have hlen := hcalled.length_eq
  have htake : r.accepted.take r.machine.here.calls.length = done := by
    rw [haccepted, ← hlen, List.take_left]
  refine ⟨by rwa [htake], ?_, fun hon => ?_⟩
  · obtain ⟨rfl, hoff⟩ | ⟨a, rfl, hmoving, -⟩ := hleft
    · simp [haccepted, hlen, hoff]
    · simp [haccepted, hlen, moving_inProgress hmoving]
  · obtain ⟨-, hoff⟩ | ⟨a, -, hmoving, -⟩ := hleft
    · exact absurd (hoff.symm.trans hon) (by decide)
    · exact ⟨hmoving.busy, hmoving.asks⟩

theorem Inv.same (hconfig : s.Config ram) (hcalls : s.calls = r.machine.here.calls)
    (hoff : r.machine.here.inProgress = false → s.inProgress = false)
    (hon : ∀ a, r.machine.here.Moving a → s.Moving a) :
    Inv ram { machine := ⟨s, r.machine.waiting⟩, accepted := r.accepted ++ [] } := by
  obtain ⟨done, left, haccepted, hcalled, hleft⟩ := h.state
  refine ⟨hconfig, done, left, by rw [List.append_nil, haccepted], by rwa [hcalls], ?_⟩
  obtain ⟨hnone, hidle⟩ | ⟨a, hone, hmoving, hwaiting⟩ := hleft
  · exact .inl ⟨hnone, hoff hidle⟩
  · exact .inr ⟨a, hone, hon a hmoving, hwaiting⟩

theorem Inv.transferInt {s' : SsSpi} (hlevel : txflr.toNat ≤ hw.fifoDepth.toNat)
    (hkept : r.Kept (.enter (.control (.transferInt (some x) txflr))))
    (hctrl : ssSpiMasterControl hw r.machine.here (.transferInt (some x) txflr) = .ok (ercd, s')) :
    Inv ram { machine := ⟨s', r.machine.waiting⟩
              accepted := r.accepted ++ ssSpiAccepted hw r.machine.here
                (.enter (.control (.transferInt (some x) txflr))) } := by
  simp only [ssSpiAccepted, hctrl]
  simp only [ssSpiMasterControl] at hctrl
  split at hctrl
  · -- the device is busy
    cases hctrl
    exact h.same h.config rfl id fun _ => id
  · rename_i hnotbusy
    have hwaiting : r.machine.waiting = [] := by
      by_contra hne
      exact hnotbusy (hkept.2 hne)
    obtain ⟨done, left, haccepted, hcalled, hleft⟩ := h.state
    obtain ⟨rfl, hidle⟩ | ⟨a, -, hmoving, -⟩ := hleft
    · rw [List.append_nil] at haccepted
      obtain ⟨hconfig, hcalls, hresult⟩ :=
        SsSpi.ssSpiTransferInt_cases h.config hkept.1 hidle hlevel hctrl
      obtain ⟨rfl, hmoving⟩ | ⟨rfl, hoff⟩ := hresult
      · exact ⟨hconfig, done, _, by rw [haccepted, if_pos rfl], by rwa [hcalls],
          .inr ⟨_, rfl, hmoving, hwaiting⟩⟩
      · exact ⟨hconfig, done, [], by rw [haccepted, if_neg (by decide)], by rwa [hcalls],
          .inl ⟨rfl, hoff⟩⟩
    · exact absurd hmoving.busy hnotbusy

theorem Inv.idleIsr {t : SsSpiTask} (hbase : r.Base hw (.enter (.idleIsr frames)))
    (ht : spiMstIdleIsr r.machine.here frames = t) :
    Inv ram { machine := t.above r.machine.waiting, accepted := r.accepted ++ [] } ∧
      t.state.inProgress = false := by
  obtain ⟨-, -, htx, hrx⟩ := hbase
  obtain ⟨done, left, haccepted, hcalled, hleft⟩ := h.state
  obtain ⟨-, hidle⟩ | ⟨a, rfl, hmoving, -⟩ := hleft
  · rw [SsSpi.spiMstIdleIsr_none hidle] at ht
    subst ht
    exact ⟨h.same h.config rfl id fun _ => id, hidle⟩
  · obtain ⟨s', rest, c, hcalls, hconfig, hoff, hc, hxfer, hmoved⟩ :=
      hmoving.idleIsr h.config htx hrx
    rw [hcalls] at ht
    subst ht
    refine ⟨⟨hconfig, done ++ [a], [], by simp [haccepted], ?_, .inl ⟨rfl, hoff⟩⟩, hoff⟩
    simp only [Task.above, hc]
    exact List.rel_append hcalled (.cons ⟨hxfer, hmoved⟩ .nil)

theorem Inv.step {ev : SsSpiEvent} (hbase : r.Base hw ev) (hkept : r.Kept ev)
    (hstep : ssSpiRunStep hw r ev = .ok r') : r'.Inv ram := by
  obtain ⟨machine, hmachine, rfl⟩ := Except.exists_of_map_eq_ok hstep
  obtain ⟨op, t, rfl, ht, rfl⟩ | ⟨frames, rest, waiting, t, rfl, hwaiting, ht, rfl⟩ :=
    Reentry.step_cases hmachine
  · cases op with try obtain ⟨-, rfl⟩ := Except.of_guard ht
    | control cmd =>
      obtain ⟨⟨ercd, s'⟩, hctrl, rfl⟩ := Except.exists_of_map_eq_ok ht
      cases cmd with
      | transferInt xfer txflr =>
        cases xfer with
        | none =>
          cases hctrl
          exact h.same h.config rfl id fun _ => id
        | some x => exact h.transferInt hbase.2 hkept hctrl
      | _ => exact absurd hbase id
    | rxIsr frames =>
      obtain ⟨-, hunmasked, hlen⟩ := hbase
      have hsame := SsSpiInfo.spiMstRxIsr_same r.machine.here.io frames
      refine h.same (h.config.congr hsame.1 rfl) rfl (fun hoff => ?_) fun a hmoving =>
        hmoving.rxIsr hunmasked hlen
      rwa [SsSpi.inProgress, hsame.2.1, hsame.2.2]
    | txIsr txflr =>
      obtain ⟨-, hunmasked, hlevel⟩ := hbase
      have hsame := SsSpiInfo.spiMstTxIsr_same hw.toSsSpiHw r.machine.here.io txflr
      refine h.same (h.config.congr hsame.1 rfl) rfl (fun hoff => ?_) fun a hmoving =>
        hmoving.txIsr hunmasked hlevel
      rwa [SsSpi.inProgress, hsame.2.1, hsame.2.2]
    | idleIsr frames => exact (h.idleIsr hbase rfl).1
  · -- a callback returns, so nothing is in progress
    obtain ⟨done, left, haccepted, hcalled, hleft⟩ := h.state
    obtain ⟨rfl, hidle⟩ | ⟨a, -, -, hnone⟩ := hleft
    · obtain ⟨s', hresume, hconfig, hoff, hcalls⟩ :=
        SsSpi.ssSpiResume_none h.config hidle rest frames
      cases hresume.symm.trans ht
      exact ⟨hconfig, done, [], by simp [haccepted, ssSpiAccepted], by rwa [← hcalls] at hcalled,
        .inl ⟨rfl, hoff⟩⟩
    · exact absurd (hnone.symm.trans hwaiting) (by simp)

end SsSpiRun

/-- **Every transfer that is accepted is called back once**, in the order in which they were
accepted, when all its data has been moved, and is marked busy until then, in every run in which the
transfers fit and no command made inside a callback finds the device free.  The idle interrupt ends
the transfer in progress. -/
theorem ss_spi_transfer_once {hw : SsSpiMasterHw} {s : SsSpi} (hset : s.SetUp hw)
    {es : List SsSpiEvent} {r : SsSpiRun}
    (h : Trace.Runs (ssSpiRunStep hw) (fun r ev => r.Base hw ev ∧ r.Kept ev) ⟨⟨s, []⟩, []⟩ es r) :
    r.Once s.io.ram ∧
      ∀ frames, r.Base hw (.enter (.idleIsr frames)) →
        ∃ r', ssSpiRunStep hw r (.enter (.idleIsr frames)) = .ok r' ∧
          r'.machine.here.inProgress = false ∧ r'.Once s.io.ram := by
  obtain ⟨hs, hxfer⟩ := hset.settled
  have hinv : r.Inv s.io.ram := by
    refine h.invariant (fun r ev r' hr hok hstep => hr.step hok.1 hok.2 hstep) ⟨?_, [], [], rfl, ?_, ?_⟩
    · exact { hs with xferCb := hxfer, ram_eq := rfl }
    · rw [hs.calls]
      exact .nil
    · exact .inl ⟨rfl, hs.idle⟩
  refine ⟨hinv.once, fun frames hbase => ?_⟩
  have hend := hinv.idleIsr hbase rfl
  refine ⟨_, ?_, ?_, hend.1.once⟩
  · simp only [ssSpiRunStep, ssSpiStep, Reentry.step, ssSpiEnter, SsSpi.serve,
      if_pos hinv.config.handle, Except.map, ssSpiAccepted]
  · rw [Task.above_here]
    exact hend.2

/-! ### Two transfers, one after the other -/

instance (log : Nat) (x : DevSpiTransfer) : Decidable (SsSpi.Fit log x) :=
  decidable_of_iff' _ (SsSpi.fit_iff log x)

instance SsSpiRun.decBase (hw : SsSpiMasterHw) (r : SsSpiRun) (ev : SsSpiEvent) :
    Decidable (r.Base hw ev) := by
  unfold SsSpiRun.Base
  split <;> infer_instance

instance SsSpiRun.decKept (r : SsSpiRun) (ev : SsSpiEvent) : Decidable (r.Kept ev) := by
  unfold SsSpiRun.Kept
  split <;> infer_instance

def ssSpiMasterSampleHw : SsSpiMasterHw where
  present := true
  maxXferSize := 32
  fifoDepth := 16
  size_ok := SsSpiHw.large_ok
  busFreq := 50000000

def ssSpiSampleInstalled (dfs : Byte) : SsSpi :=
  { SsSpi.installed ssSpiMasterSampleHw { txCb := 0x400, rxCb := 0x404, errCb := 0x408 } with dfs }

def ssSpiSampleSettings : List SsSpiCtrl := [.mstSelDev 1, .setCb (.ofCbrtn .xfer) 0x500]

theorem ssSpiSampleSettings_setting : ∀ cmd ∈ ssSpiSampleSettings, cmd.Setting := by
  simp [ssSpiSampleSettings, SsSpiCtrl.Setting]

def ssSpiSample (dfs : Byte) : Except SsSpiStop SsSpi := do
  let (_, s) ← ssSpiMasterOpen ssSpiMasterSampleHw (ssSpiSampleInstalled dfs) 0 1000000
  s.settings ssSpiMasterSampleHw ssSpiSampleSettings

theorem ssSpiSample_setUp {dfs : Byte} (h : dfs = 8 ∨ dfs = 16) :
    ∃ s, ssSpiSample dfs = .ok s ∧ s.SetUp ssSpiMasterSampleHw := by
  rcases h with rfl | rfl <;>
    exact ⟨_, rfl, ssSpiSampleInstalled _, _, 1000000, ssSpiSampleSettings, rfl, rfl, by decide,
      by decide, rfl, ssSpiSampleSettings_setting, rfl, by decide⟩

def ssSpiSampleRequest : DevSpiTransfer :=
  { txBuf := 0x1000, txOfs := 0, txLen := 3, rxBuf := 0x2000, rxOfs := 3, rxLen := 4 }

def ssSpiSampleSend : DevSpiTransfer :=
  { txBuf := 0x1100, txOfs := 0, txLen := 5, rxBuf := 0, rxOfs := 0, rxLen := 0 }

/-- The second one is followed up from its callback, which finds the device busy. -/
def ssSpiSampleEvents : List SsSpiEvent :=
  [.enter (.control (.transferInt (some ssSpiSampleRequest) 0)), .enter (.txIsr 0),
    .enter (.rxIsr [0x5A5B]), .enter (.idleIsr [0x6A6B]), .leave [],
    .enter (.control (.transferInt (some ssSpiSampleSend) 0)), .enter (.idleIsr []),
    .enter (.control (.transferInt (some ssSpiSampleSend) 0)), .leave []]

theorem ss_spi_transfer_once_sample :
    ∃ s r, ssSpiSample 16 = .ok s ∧
      Trace.Runs (ssSpiRunStep ssSpiMasterSampleHw)
        (fun r ev => r.Base ssSpiMasterSampleHw ev ∧ r.Kept ev) ⟨⟨s, []⟩, []⟩ ssSpiSampleEvents r ∧
      r.Once s.io.ram ∧ r.accepted.length = 2 ∧ r.machine.here.calls.length = 2 ∧
      r.machine.here.io.mem 0x2003 = 0x6A := by
  obtain ⟨s, hs, hset⟩ := ssSpiSample_setUp (.inr rfl)
  cases hs
  exact ⟨_, _, rfl, .of_follow rfl,
    (@ss_spi_transfer_once _ _ hset ssSpiSampleEvents _ (.of_follow rfl)).1, rfl, rfl, rfl⟩

def ssSpiSampleExchange : DevSpiTransfer :=
  { txBuf := 0x1000, txOfs := 0, txLen := 2, rxBuf := 0x2000, rxOfs := 0, rxLen := 2 }

def ssSpiSampleReceive : DevSpiTransfer :=
  { txBuf := 0, txOfs := 0, txLen := 0, rxBuf := 0x2000, rxOfs := 0, rxLen := 4 }

/-- An exchange that is started from the callback of another is accepted.  When the callback has
returned it is in progress, with neither the flag nor the idle interrupt.  And with frames of one
byte four bytes are called back when three of them are there. -/
theorem ss_spi_transfer_lost :
    (∃ s r, s.SetUp ssSpiMasterSampleHw ∧
      Trace.Runs (ssSpiRunStep ssSpiMasterSampleHw) (fun r ev => r.Base ssSpiMasterSampleHw ev)
        ⟨⟨s, []⟩, []⟩
        [.enter (.control (.transferInt (some ssSpiSampleExchange) 0)),
          .enter (.idleIsr [0x5A, 0x5B]),
          .enter (.control (.transferInt (some ssSpiSampleExchange) 0)), .leave []] r ∧
      r.machine.waiting = [] ∧ r.accepted.length = 2 ∧ r.machine.here.calls.length = 1 ∧
      r.machine.here.inProgress = true ∧ hasFlag r.machine.here.flags ssSpiBusy = false ∧
      hasFlag r.machine.here.io.regs.imr rSpiIdle = false) ∧
    ∃ s r c, s.SetUp ssSpiMasterSampleHw ∧
      Trace.Runs (ssSpiRunStep ssSpiMasterSampleHw) (fun r ev => r.Base ssSpiMasterSampleHw ev)
        ⟨⟨s, []⟩, []⟩
        [.enter (.control (.transferInt (some ssSpiSampleReceive) 0)),
          .enter (.idleIsr [0x5A, 0x5B, 0x5C])] r ∧
      r.machine.here.calls = [c] ∧ c.xfer = ssSpiSampleReceive ∧ c.got.length = 3 := by
  obtain ⟨s, hs, hset⟩ := ssSpiSample_setUp (.inl rfl)
  cases hs
  exact ⟨⟨_, _, hset, .of_follow rfl, rfl, rfl, rfl, rfl, rfl, rfl⟩,
    _, _, _, hset, .of_follow rfl, rfl, rfl, rfl⟩

end Embarc
