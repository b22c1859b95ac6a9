/-
The SPI master while a transfer is made.

A transfer that `SPI_CMD_TRANSFER_INT` starts has a transmit half, a receive half or both.  What
they have moved is compared with the point at which the transfer was accepted.  Each half says that
the frames moved so far are the first ones of its buffer, and the receive half also that the device
receives as many frames as the buffer takes.
-/
import Embarc.Proofs.SpiFrames
import Embarc.Subsystem.SsSpiMaster

namespace Embarc

variable {x : DevSpiTransfer} {pSize data size txflr : Word} {frames : List Word}

/-! ### What a transfer moves -/

namespace DevSpiTransfer

/-- Both directions at once: a frame comes in for each frame that goes out. -/
def Duplex (x : DevSpiTransfer) : Prop :=
  x.rxLen ≠ 0 ∧ x.txLen ≠ 0 ∧ ¬(x.rxOfs = x.txLen ∧ x.txOfs = 0)

instance (x : DevSpiTransfer) : Decidable x.Duplex := inferInstanceAs (Decidable (_ ∧ _))

def sentBytes (x : DevSpiTransfer) : Word := if x.Duplex then BitVec.ofNat 32 x.totLen else x.txLen

def gotBytes (x : DevSpiTransfer) : Word := if x.Duplex then BitVec.ofNat 32 x.totLen else x.rxLen

theorem totLen_ne_zero (hrxlen : x.rxLen ≠ 0) (hofs : ¬(x.txOfs ≠ 0 ∨ x.rxOfs ≠ 0)) :
    BitVec.ofNat 32 x.totLen ≠ 0 := by
  rw [not_or, not_not, not_not] at hofs
  have hpos : x.rxLen.toNat ≠ 0 := fun h => hrxlen (BitVec.eq_of_toNat_eq h)
  intro hzero
  have hmod := congrArg BitVec.toNat hzero
  simp only [BitVec.toNat_ofNat, totLen, txTotlen, rxTotlen, u32, hofs.1, hofs.2] at hmod
  simp at hmod
  split at hmod <;> omega

theorem sentBytes_eq_gotBytes (h : x.Duplex) : x.sentBytes = x.gotBytes := by
  simp only [sentBytes, gotBytes, if_pos h]

end DevSpiTransfer

/-- From `a` to `c` the transfer has been made: its buffer was sent, frame by frame, and a buffer
full of frames came and was stored. -/
structure SsSpiMark.Moved (ram : Word → Byte) (a c : SsSpiMark) : Prop where
  xfer : c.xfer = a.xfer
  sent : a.xfer.txLen ≠ 0 →
    c.sent = a.sent ++ loadFrames a.logXferSize ram a.xfer.txBuf
      (frameSizes a.logXferSize a.xfer.sentBytes.toNat) 0
  got : a.xfer.rxLen ≠ 0 → ∃ frames, c.got = a.got ++ frames ∧
    frames.length = (frameSizes a.logXferSize a.xfer.gotBytes.toNat).length ∧
    c.mem = storeFrames a.logXferSize a.mem a.xfer.rxBuf
      (frames.zip (frameSizes a.logXferSize a.xfer.gotBytes.toNat)) 0

/-! ### The device while a transfer is made -/

namespace SsSpiInfo

variable {hw : SsSpiHw} {s : SsSpiInfo} {a : SsSpiMark}

/-- How many frames have come when the last frame is through: with both directions at once as many
as went out, and otherwise one more than CTRL1 says. -/
def toReceive (s : SsSpiInfo) : Nat :=
  if s.transferMode = spiTransmitReceiveMode then s.txCount.toNat else s.regs.ctrl1.toNat + 1

/-- A transfer has its interrupts: the idle interrupt, and those that ask for what is left. -/
structure Asks (s : SsSpiInfo) : Prop where
  idle : hasFlag s.regs.imr rSpiIdle = true
  empty : s.handlingTx = true → s.txDone = false → hasFlag s.regs.imr rSpiTxEmpty = true
  full : s.handlingRx = true → s.rxDone = false → hasFlag s.regs.imr rSpiRxFull = true

/-- The transmit half of the transfer that was accepted at `a`. -/
structure TxSide (s : SsSpiInfo) (a : SsSpiMark) : Prop where
  handling : s.handlingTx = true
  buff : s.txBuff = a.xfer.txBuf
  size : s.txSize = a.xfer.sentBytes
  sends : s.Sends a.sent

structure RxSide (s : SsSpiInfo) (a : SsSpiMark) : Prop where
  handling : s.handlingRx = true
  buff : s.rxBuff = a.xfer.rxBuf
  size : s.rxSize = a.xfer.gotBytes
  receives : s.Receives a.got a.mem
  /-- The device receives what the buffer takes: by the count it was given, or frame by frame. -/
  counted : s.transferMode ≠ spiTransmitReceiveMode → s.regs.ctrl1.toNat + 1 = s.rxSizes.length
  paired : s.transferMode = spiTransmitReceiveMode → a.xfer.Duplex

/-! Settings and requests -/

theorem transferMode_set (s : SsSpiInfo) {mode : Word}
    (hmode : (mode <<< 8 &&& 0x300#32) >>> 8 = mode) :
    (s.masterIoctl hw (.setTransferMode mode)).transferMode = mode := by
  have hwritten : regWriteBits s.regs.ctrl0 mode 2 8 &&& 0x300#32 = mode <<< 8 &&& 0x300#32 :=
    Field.set_get_self (by rw [BitVec.and_assoc, BitVec.and_self])
  have hfield : ∀ x : Word, x >>> 8 &&& 0x3#32 = (x &&& 0x300#32) >>> 8 := by
    intro x
    rw [BitVec.ushiftRight_and_distrib]
    rfl
  simp only [transferMode, masterIoctl, SsSpiRegs.set, hfield, hwritten, hmode]

/-- CTRL1 asks for the frames of the buffer, if a frame has more than one byte. -/
theorem rxFrames_toNat (hlog : s.logXferSize = 1 ∨ s.logXferSize = 2) (hpos : s.rxSize ≠ 0)
    (hfits : s.rxSize.toNat + frameBytes s.logXferSize ≤ 2 ^ 32) :
    s.rxFrames.toNat + 1 = s.rxSizes.length := by
  have hsize : s.rxSize.toNat ≠ 0 := fun h => hpos (BitVec.eq_of_toNat_eq h)
  have hone : (1 : Word).toNat = 1 := rfl
  obtain ⟨hle, hlt⟩ := frameSizes_length s.logXferSize s.rxSize.toNat
  rcases hlog with hlog | hlog
  all_goals
    simp only [rxFrames, rxSizes, hlog, frameBytes] at hfits hle hlt ⊢
    norm_num at hfits hle hlt ⊢
    omega

theorem masterRead_rxSide (hlog : s.logXferSize ≤ 2) (hpos : a.xfer.gotBytes ≠ 0)
    (hfits : a.xfer.gotBytes.toNat + frameBytes s.logXferSize ≤ 2 ^ 32) (hgot : s.got = a.got)
    (hmem : s.mem = a.mem) (hcounted : s.transferMode ≠ spiTransmitReceiveMode → s.logXferSize ≠ 0)
    (hpaired : s.transferMode = spiTransmitReceiveMode → a.xfer.Duplex) :
    (s.masterRead a.xfer.rxBuf a.xfer.gotBytes pSize).RxSide a := by
  have hbegun : ∀ r : SsSpiInfo, r.handlingRx = true → r.rxBuff = a.xfer.rxBuf →
      r.rxSize = a.xfer.gotBytes → r.rxCount = 0 → r.logXferSize = s.logXferSize →
      r.got = s.got → r.mem = s.mem → r.transferMode = s.transferMode →
      r.regs.ctrl1 = r.rxFrames → r.RxSide a := by
    intro r hhandling hbuff hsize hcount hrlog hrgot hrmem hmode hctrl1
    refine ⟨hhandling, hbuff, hsize, ⟨by rwa [hrlog], by rwa [hsize, hrlog], ?_, [], ?_, ?_, ?_⟩,
      fun hother => ?_, fun hsame => hpaired (hmode ▸ hsame)⟩
    · rw [hcount]
      exact Nat.zero_le _
    · rw [hrgot, hgot, List.append_nil]
    · rw [hcount]
      rfl
    · rw [hrmem, hmem]
      rfl
    · have hwide := hcounted (hmode ▸ hother)
      rw [hctrl1]
      exact rxFrames_toNat (by rw [hrlog]; omega) (by rwa [hsize]) (by rwa [hsize, hrlog])
  simp only [masterRead]
  split
  all_goals exact hbegun _ rfl rfl rfl rfl rfl rfl rfl rfl rfl

theorem masterRead_asks (hmode : s.transferMode = spiReceiveOnlyMode) (htx : s.handlingTx = false) :
    (s.masterRead data size pSize).Asks := by
  simp only [masterRead]
  split
  · exact ⟨hasFlag_or_self _ (by decide), fun hon => absurd (htx.symm.trans hon) (by decide),
      fun _ _ => hasFlag_or_self _ (by decide)⟩
  · rename_i hnot
    exact absurd hmode hnot

/-! IMR is no part of either half. -/

theorem TxSide.writeImr (h : s.TxSide a) (val : Word) : (s.writeImr val).TxSide a :=
  { h with sends := { h.sends with } }

theorem RxSide.writeImr (h : s.RxSide a) (val : Word) : (s.writeImr val).RxSide a :=
  ⟨h.handling, h.buff, h.size,
    { h.receives with }, h.counted, h.paired⟩

/-- Filling the FIFO is no part of the receive half, and emptying it none of the transmit half. -/
theorem RxSide.fill (h : s.RxSide a) (txflr : Word) : (ssFillTxfifo hw s txflr).RxSide a :=
  ⟨h.handling, h.buff, h.size,
    { h.receives with }, h.counted, h.paired⟩

theorem TxSide.retrieve (h : s.TxSide a) (frames : List Word) :
    (ssRetrieveRxfifo s frames).TxSide a :=
  { h with sends := { h.sends with } }

theorem masterWrite_txSide (hlog : s.logXferSize ≤ 2) (hpos : a.xfer.sentBytes ≠ 0)
    (hfits : a.xfer.sentBytes.toNat + frameBytes s.logXferSize ≤ 2 ^ 32)
    (hlevel : txflr.toNat ≤ hw.fifoDepth.toNat) (hsent : s.sent = a.sent) :
    (s.masterWrite hw a.xfer.txBuf a.xfer.sentBytes txflr).TxSide a := by
  have hbegun : ∀ r : SsSpiInfo, r.handlingTx = true → r.txBuff = a.xfer.txBuf →
      r.txSize = a.xfer.sentBytes → r.txCount = 0 → r.logXferSize = s.logXferSize →
      r.sent = s.sent → (ssFillTxfifo hw r txflr).TxSide a := by
    intro r hhandling hbuff hsize hcount hrlog hrsent
    have hsends : r.Sends a.sent := by
      refine ⟨by rwa [hrlog], by rwa [hsize, hrlog], ?_, ?_⟩
      · rw [hcount]
        exact Nat.zero_le _
      · rw [hrsent, hsent, hcount]
        exact (List.append_nil _).symm
    have hleft : r.txDone = false := by
      have hsome : r.txSize.toNat ≠ 0 := fun h => hpos (hsize ▸ BitVec.eq_of_toNat_eq h)
      simp only [txDone, txBytes, hcount, decide_eq_false_iff_not, BitVec.le_def]
      simpa using hsome
    exact ⟨hhandling, hbuff, hsize, hsends.fill hleft hlevel⟩
  simp only [masterWrite]
  split
  all_goals
    split
    all_goals exact TxSide.writeImr (by exact hbegun _ rfl rfl rfl rfl rfl rfl) _

/-- A write leaves the receive half alone, if that is not longer. -/
theorem RxSide.masterWrite (h : s.RxSide a) (hsize : a.xfer.Duplex → size = a.xfer.gotBytes) :
    (s.masterWrite hw data size txflr).RxSide a := by
  simp only [SsSpiInfo.masterWrite]
  split
  · rename_i hlonger
    have hlt : size < s.rxSize := hlonger.2
    rw [hsize (h.paired hlonger.1), h.size] at hlt
    exact absurd hlt (BitVec.lt_irrefl _)
  · have hkept : RxSide { s with txSize := size, txCount := 0, txBuff := data, handlingTx := true } a :=
      ⟨h.handling, h.buff, h.size,
        { h.receives with }, h.counted,
        h.paired⟩
    split
    all_goals exact (hkept.fill txflr).writeImr _

theorem masterWrite_asks (hrx : s.transferMode = spiTransmitOnlyMode → s.handlingRx = false) :
    (s.masterWrite hw data size txflr).Asks := by
  simp only [masterWrite]
  split
  all_goals
    split
    · rename_i honly
      exact ⟨hasFlag_or_self _ (by decide), fun _ _ => hasFlag_or_self _ (by decide),
        fun hon => absurd ((hrx honly).symm.trans hon) (by decide)⟩
    · exact ⟨hasFlag_or_self _ (by decide), fun _ _ => hasFlag_or_self _ (by decide),
        fun _ _ => hasFlag_or_self _ (by decide)⟩

/-! Interrupts -/

theorem TxSide.txIsr (h : s.TxSide a) (hlevel : txflr.toNat ≤ hw.fifoDepth.toNat) :
    (spiMstTxIsr hw s txflr).TxSide a := by
  simp only [spiMstTxIsr]
  split
  · exact h.writeImr _
  · rename_i hleft
    exact { h with sends := h.sends.fill (Bool.eq_false_iff.mpr hleft) hlevel }

theorem RxSide.txIsr (h : s.RxSide a) (txflr : Word) : (spiMstTxIsr hw s txflr).RxSide a := by
  simp only [spiMstTxIsr]
  split
  · exact h.writeImr _
  · exact h.fill txflr

theorem Asks.txIsr (h : s.Asks) (hunmasked : hasFlag s.regs.imr rSpiTxEmpty = true)
    (txflr : Word) : (spiMstTxIsr hw s txflr).Asks := by
  simp only [spiMstTxIsr]
  split_ifs with hdone
  · refine ⟨?_, fun _ hleft => absurd (hleft.symm.trans hdone) (by decide), fun hrx hleft => ?_⟩
    · exact (hasFlag_clear_of_disjoint (by decide)).trans h.idle
    · exact (hasFlag_clear_of_disjoint (by decide)).trans (h.full hrx hleft)
  · exact ⟨h.idle, fun _ _ => hunmasked, h.full⟩

theorem RxSide.toReceive_le (h : s.RxSide a) (htx : a.xfer.txLen ≠ 0 → s.TxSide a) :
    s.toReceive ≤ s.rxSizes.length := by
  simp only [toReceive]
  split_ifs with hmode
  · have hduplex := h.paired hmode
    have hs := htx hduplex.2.1
    have hcount := hs.sends.count_le
    rwa [hs.size, DevSpiTransfer.sentBytes_eq_gotBytes hduplex, ← h.size] at hcount
  · exact Nat.le_of_eq (h.counted hmode)

theorem RxSide.toReceive_eq (h : s.RxSide a) (htx : a.xfer.txLen ≠ 0 → s.TxSide a ∧ s.txDone = true) :
    s.toReceive = s.rxSizes.length := by
  simp only [toReceive]
  split_ifs with hmode
  · have hduplex := h.paired hmode
    obtain ⟨hs, hdone⟩ := htx hduplex.2.1
    have hcount := hs.sends.txDone_iff.mp hdone
    rwa [hs.size, DevSpiTransfer.sentBytes_eq_gotBytes hduplex, ← h.size] at hcount
  · exact h.counted hmode

theorem RxSide.retrieve (h : s.RxSide a)
    (hlen : s.rxCount.toNat + frames.length ≤ s.rxSizes.length) :
    (ssRetrieveRxfifo s frames).RxSide a :=
  { h with receives := (h.receives.retrieve hlen).1 }

theorem RxSide.rxIsr (h : s.RxSide a) (hlen : s.rxCount.toNat + frames.length ≤ s.rxSizes.length) :
    (spiMstRxIsr s frames).RxSide a := by
  simp only [spiMstRxIsr]
  split
  · exact (h.retrieve hlen).writeImr _
  · exact h.retrieve hlen

theorem TxSide.rxIsr (h : s.TxSide a) (frames : List Word) : (spiMstRxIsr s frames).TxSide a := by
  simp only [spiMstRxIsr]
  split
  · exact (h.retrieve frames).writeImr _
  · exact h.retrieve frames

theorem Asks.rxIsr (h : s.Asks) (hunmasked : hasFlag s.regs.imr rSpiRxFull = true)
    (frames : List Word) : (spiMstRxIsr s frames).Asks := by
  simp only [spiMstRxIsr]
  split_ifs with hdone
  · refine ⟨?_, fun htx hleft => ?_, fun _ hleft => absurd (hleft.symm.trans hdone) (by decide)⟩
    · exact (hasFlag_clear_of_disjoint (by decide)).trans h.idle
    · exact (hasFlag_clear_of_disjoint (by decide)).trans (h.empty htx hleft)
  · exact ⟨h.idle, h.empty, fun _ _ => hunmasked⟩

/-! What requests and interrupts leave alone -/

def config (s : SsSpiInfo) : Bool × DevCbs × Nat × (Word → Byte) :=
  (s.handle, s.cbs, s.logXferSize, s.ram)

theorem masterRead_config (s : SsSpiInfo) (data size pSize : Word) :
    (s.masterRead data size pSize).config = s.config := by
  simp only [masterRead]
  split <;> rfl

theorem masterWrite_config (hw : SsSpiHw) (s : SsSpiInfo) (data size txflr : Word) :
    (s.masterWrite hw data size txflr).config = s.config := by
  simp only [masterWrite]
  split <;> split <;> rfl

theorem masterWrite_handlingRx (hw : SsSpiHw) (s : SsSpiInfo) (data size txflr : Word) :
    (s.masterWrite hw data size txflr).handlingRx = s.handlingRx := by
  simp only [masterWrite]
  split <;> split <;> rfl

theorem masterRead_handlingTx (s : SsSpiInfo) (data size pSize : Word) :
    (s.masterRead data size pSize).handlingTx = s.handlingTx := by
  simp only [masterRead]
  split <;> rfl

theorem masterRead_transferMode (s : SsSpiInfo) (data size pSize : Word) :
    (s.masterRead data size pSize).transferMode = s.transferMode := by
  simp only [masterRead]
  split <;> rfl

/-- Only in receive-only mode a frame is sent. -/
theorem masterRead_sent (h : s.transferMode ≠ spiReceiveOnlyMode) :
    (s.masterRead data size pSize).sent = s.sent := by
  simp only [masterRead]
  split
  · rename_i honly
    exact absurd honly h
  · rfl

theorem spiMstTxIsr_same (hw : SsSpiHw) (s : SsSpiInfo) (txflr : Word) :
    (spiMstTxIsr hw s txflr).config = s.config ∧
      (spiMstTxIsr hw s txflr).handlingTx = s.handlingTx ∧
      (spiMstTxIsr hw s txflr).handlingRx = s.handlingRx := by
  simp only [spiMstTxIsr]
  split <;> exact ⟨rfl, rfl, rfl⟩

theorem spiMstRxIsr_same (s : SsSpiInfo) (frames : List Word) :
    (spiMstRxIsr s frames).config = s.config ∧
      (spiMstRxIsr s frames).handlingTx = s.handlingTx ∧
      (spiMstRxIsr s frames).handlingRx = s.handlingRx := by
  simp only [spiMstRxIsr]
  split <;> exact ⟨rfl, rfl, rfl⟩

theorem log_of_config {s s' : SsSpiInfo} (h : s'.config = s.config) :
    s'.logXferSize = s.logXferSize := by
  simp only [config, Prod.mk.injEq] at h
  exact h.2.2.1

end SsSpiInfo

end Embarc
