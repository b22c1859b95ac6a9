/-
The flags of the SPI master of the subsystem when a command is rejected.

Every command but one is checked before anything is changed.  `SPI_CMD_TRANSFER_INT` marks the
device busy and looks at the shape of the transfer then: one that is not supported leaves the mark
behind, with no transfer that would ever take it away.
-/
import Embarc.Subsystem.SsSpiMaster

namespace Embarc

/-- One direction only, the receive behind the transmit, or both from the start. -/
def DevSpiTransfer.Supported (x : DevSpiTransfer) : Prop :=
  x.rxLen = 0 ∨ x.txLen = 0 ∨ (x.rxOfs = x.txLen ∧ x.txOfs = 0) ∨ x.txOfs = 0 ∧ x.rxOfs = 0

/-- The flags are as they were if the command is answered with an error code. -/
def SsSpiCtrl.Harmless (hw : SsSpiMasterHw) (s : SsSpi) (cmd : SsSpiCtrl) : Prop :=
  ∀ ercd s', ssSpiMasterControl hw s cmd = .ok (ercd, s') → ercd ≠ eOk → s'.flags = s.flags

/-- Nothing is changed, or the answer is `E_OK` if there is one. -/
def SsSpi.Checked (s : SsSpi) (t : Except SsSpiStop (Int × SsSpi)) : Prop :=
  (∃ ercd, t = .ok (ercd, s)) ∨ ∃ r, t = SsSpi.ok r

section

variable {hw : SsSpiMasterHw} {s : SsSpi} {cmd : SsSpiCtrl}

theorem SsSpi.Checked.harmless (h : s.Checked (ssSpiMasterControl hw s cmd)) : cmd.Harmless hw s := by
  intro ercd s' heq hercd
  obtain ⟨ercd', h⟩ | ⟨r, h⟩ := h
  · cases h.symm.trans heq
    rfl
  · cases r with
    | error e => exact absurd (h.symm.trans heq) (by simp [SsSpi.ok, Except.map])
    | ok r =>
      cases h.symm.trans heq
      exact absurd rfl hercd

theorem ssSpiMasterControl_checked (hcmd : ∀ x txflr, cmd ≠ .transferInt (some x) txflr) :
    s.Checked (ssSpiMasterControl hw s cmd) := by
  fun_cases ssSpiMasterControl hw s cmd
  all_goals first
    | exact .inl ⟨_, rfl⟩
    | exact .inr ⟨_, rfl⟩
    | exact .inr ⟨.ok _, rfl⟩
    | exact .inr ⟨.error _, rfl⟩
    | exact absurd rfl (hcmd _ _)

theorem ssSpiTransferInt_cases (hw : SsSpiMasterHw) (s : SsSpi) (x : DevSpiTransfer) (txflr : Word) :
    x.Supported ∧ s.Checked (ssSpiTransferInt hw s x txflr) ∨
      ¬x.Supported ∧ ssSpiTransferInt hw s x txflr =
        .ok (eNospt, { s with flags := ssSpiBusy ||| ssSpiTxRx, xfer := x }) := by
  simp only [ssSpiTransferInt, DevSpiTransfer.Supported]
  split_ifs with hrx htx hbehind hofs
  · exact .inl ⟨.inl hrx, .inr ⟨_, rfl⟩⟩
  · exact .inl ⟨.inr (.inl htx), .inr ⟨_, rfl⟩⟩
  · exact .inl ⟨.inr (.inr (.inl hbehind)), .inr ⟨_, rfl⟩⟩
  · exact .inr ⟨by tauto, rfl⟩
  · exact .inl ⟨by tauto, .inr ⟨_, rfl⟩⟩

theorem transferInt_harmless_iff (x : DevSpiTransfer) (txflr : Word) :
    SsSpiCtrl.Harmless hw s (.transferInt (some x) txflr) ↔
      hasFlag s.flags ssSpiBusy = true ∨ x.Supported := by
  by_cases hbusy : hasFlag s.flags ssSpiBusy = true
  · refine iff_of_true (SsSpi.Checked.harmless (.inl ⟨eNospt, ?_⟩)) (.inl hbusy)
    simp only [ssSpiMasterControl, if_pos hbusy]
  have hcontrol : ssSpiMasterControl hw s (.transferInt (some x) txflr) =
      ssSpiTransferInt hw s x txflr := by
    simp only [ssSpiMasterControl, if_neg hbusy]
  obtain ⟨hx, hchecked⟩ | ⟨hx, hlate⟩ := ssSpiTransferInt_cases hw s x txflr
  · exact iff_of_true (SsSpi.Checked.harmless (hcontrol ▸ hchecked)) (.inr hx)
  · refine iff_of_false (fun hsame => hbusy ?_) (not_or.mpr ⟨hbusy, hx⟩)
    -- the mark that is left behind was not there
    have hflags := hsame _ _ (hcontrol.trans hlate) (by decide)
    rw [← hflags]
    exact (by decide : hasFlag (ssSpiBusy ||| ssSpiTxRx) ssSpiBusy = true)

end

/-- In every state, a rejected command leaves the flags alone exactly if it is no
`SPI_CMD_TRANSFER_INT`, the device is busy, or the shape of the transfer is supported. -/
theorem control_harmless_iff (hw : SsSpiMasterHw) (s : SsSpi) (cmd : SsSpiCtrl) :
    cmd.Harmless hw s ↔ ∀ x txflr, cmd = .transferInt (some x) txflr →
      hasFlag s.flags ssSpiBusy = true ∨ x.Supported := by
  by_cases hcmd : ∃ x txflr, cmd = .transferInt (some x) txflr
  · obtain ⟨x, txflr, rfl⟩ := hcmd
    rw [transferInt_harmless_iff]
    refine ⟨fun h _ _ heq => ?_, fun h => h x txflr rfl⟩
    cases heq
    exact h
  · push Not at hcmd
    exact iff_of_true (ssSpiMasterControl_checked hcmd).harmless
      fun x txflr heq => absurd heq (hcmd x txflr)

/-- A device that was just opened is asked to send from the second frame on and to receive from the
first. -/
theorem transferInt_left_busy :
    let hw : SsSpiMasterHw :=
      { present := true, maxXferSize := 16, fifoDepth := 8, size_ok := .inl rfl, busFreq := 100 }
    let x : DevSpiTransfer := { txBuf := 0, txOfs := 1, txLen := 1, rxBuf := 0, rxOfs := 0, rxLen := 2 }
    ∃ s s', ssSpiMasterOpen hw (.installed hw .cleared) 0 1 = .ok (eOk, s) ∧ s.flags = 0 ∧
      ssSpiMasterControl hw s (.transferInt (some x) 0) = .ok (eNospt, s') ∧
      s'.flags = ssSpiBusy ||| ssSpiTxRx :=
  ⟨_, _, rfl, rfl, rfl, rfl⟩

end Embarc
