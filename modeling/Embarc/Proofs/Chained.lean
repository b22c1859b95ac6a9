/-
Transfers started from a completion callback, for all three drivers.

The routines call the completion callback first and clear behind it: UART and IIC the buffer of the
direction that is through, SPI the one transfer there is.  The control functions accept a new
buffer from the callback, for the interrupts of the transfer that is through are off by then, and
so it is lost if it is for the same direction.
-/
import Embarc.Proofs.UartChain
import Embarc.Proofs.IicChain
import Embarc.Proofs.RxOverrun

namespace Embarc

open Trace (Runs)

variable {cur : Option (List DevSpiTransfer)} {param : Word}

/-! ### SPI -/

section Spi

variable {cbs : SpiCbs} {s s' left after : SpiDev} {cmds : List SpiCmd} {cbrtn : SpiCbrtn}

abbrev spiIssue (s : SpiDev) (cmd : SpiCmd) : SpiDev := (dwSpiControl s cmd).2

abbrev spiAccepts (s : SpiDev) (cmd : SpiCmd) : Prop := (dwSpiControl s cmd).1 = eOk

/-- The transfer list a command installs, or `none` if it takes it back. -/
def SpiCmd.list : SpiCmd → Option (Option (List DevSpiTransfer))
  | .setTxint _ | .setRxint _ => none
  | .setTxintBuf param buf len =>
    some (if param ≠ 0 then
      some [{ txBuf := buf, txOfs := 0, txLen := len, rxBuf := 0, rxOfs := len, rxLen := 0 }]
    else none)
  | .setRxintBuf param buf len =>
    some (if param ≠ 0 then
      some [{ txBuf := 0, txOfs := len, txLen := 0, rxBuf := buf, rxOfs := 0, rxLen := len }]
    else none)
  | .transferInt param xfer => if param ≠ 0 then some (some xfer) else none

/-- The transfer list that is installed behind the commands. -/
def spiInstalled (cmds : List SpiCmd) : Option (List DevSpiTransfer) :=
  (lastSet SpiCmd.list cmds).join

def SpiCbs.cb (cbs : SpiCbs) : SpiCbrtn → Option (SpiDev → SpiDev)
  | .snd => cbs.txCb
  | .rcv => cbs.rxCb
  | .xfer => cbs.xferCb

/-- The device when its callback is called. -/
def SpiDev.called (s : SpiDev) (cbrtn : SpiCbrtn) : SpiDev :=
  { (dwSpiDisCbr s cbrtn).2 with calls := (dwSpiDisCbr s cbrtn).2.calls ++ [cbrtn] }

/-- Which transfer goes on, and which interrupts are on. -/
def SpiDev.ints (s : SpiDev) : Word × Word × Bool := (s.status, s.imr, s.gint)

/-- The transfer is at its end behind the writer, the callback issues `cmds` and leaves the device
as `left`, and the routine returns with `after`. -/
inductive SpiChain (cbs : SpiCbs) : List SpiCmd → SpiDev → SpiDev → Prop
  | intro {s s₁ : SpiDev} {isrStatus : Word} {room : Nat} {frames : List Word} {cbrtn : SpiCbrtn}
      {f : SpiDev → SpiDev} {cmds : List SpiCmd}
      (hwrite : (if hasFlag isrStatus dwSpiImrTxeim then dwSpiWriter s room else ([], s)) =
        (frames, s₁))
      (hend : dwSpiXferEnd s₁.xfer = true) (hstate : s₁.status &&& dwSpiInXfer = cbrtn.state)
      (hcb : cbs.cb cbrtn = some f)
      (hcmds : Issued spiIssue spiAccepts (s₁.called cbrtn) cmds (f (s₁.called cbrtn))) :
      SpiChain cbs cmds (f (s₁.called cbrtn)) (dwSpiIsrWrite cbs s isrStatus room).2

/-- What the callback has installed is there, and what it has started goes on. -/
def SpiIntact (cmds : List SpiCmd) (left after : SpiDev) : Prop :=
  ((spiInstalled cmds).isSome → after.xfer = left.xfer) ∧ after.ints = left.ints

theorem dwSpiDisCbr_keeps (s : SpiDev) (cbrtn : SpiCbrtn) :
    (dwSpiDisCbr s cbrtn).2.xfer = s.xfer ∧ (dwSpiDisCbr s cbrtn).2.dfs = s.dfs := by
  unfold dwSpiDisCbr
  split <;> exact ⟨rfl, rfl⟩

theorem dwSpiEnaCbr_keeps (s : SpiDev) (cbrtn : SpiCbrtn) :
    (dwSpiEnaCbr s cbrtn).2.xfer = s.xfer ∧ (dwSpiEnaCbr s cbrtn).2.dfs = s.dfs := by
  unfold dwSpiEnaCbr
  split <;> exact ⟨rfl, rfl⟩

/-- The device holds the list that is installed, if one is. -/
def SpiHolds (installed : Option (List DevSpiTransfer)) (s : SpiDev) : Prop :=
  ∀ xs, installed = some xs → s.xfer = dwSpiInitTransfer xs s.dfs

theorem SpiHolds.keeps (h : SpiHolds cur s) (hkeeps : s'.xfer = s.xfer ∧ s'.dfs = s.dfs) :
    SpiHolds cur s' := by
  intro xs hxs
  rw [hkeeps.1, hkeeps.2]
  exact h xs hxs

theorem SpiHolds.setIntBuf {x : DevSpiTransfer} (hok : (dwSpiSetIntBuf s param x).1 = eOk) :
    SpiHolds (if param ≠ 0 then some [x] else none) (dwSpiSetIntBuf s param x).2 := by
  intro xs hxs
  by_cases hparam : param ≠ 0
  · rw [if_pos hparam] at hxs
    cases hxs
    unfold dwSpiSetIntBuf at hok ⊢
    obtain ⟨-, heq⟩ := check_ok (by decide) hok
    rw [heq] at hok ⊢
    obtain ⟨-, heq⟩ := check_ok (by decide) hok
    rw [heq, if_pos hparam] at hok ⊢
    obtain ⟨-, heq⟩ := check_ok (by decide) hok
    rw [heq]
  · rw [if_neg hparam] at hxs
    exact absurd hxs (by simp)

theorem SpiHolds.transferInt {xs : List DevSpiTransfer} (h : SpiHolds cur s)
    (hok : (dwSpiTransferInt s param xs).1 = eOk) :
    SpiHolds (if param ≠ 0 then some xs else cur) (dwSpiTransferInt s param xs).2 := by
  by_cases hparam : param ≠ 0
  · rw [dwSpiTransferInt_ok hparam hok, if_pos hparam]
    obtain ⟨hxfer, hdfs⟩ := dwSpiEnaCbr_keeps { s with xfer := dwSpiInitTransfer xs s.dfs } .xfer
    intro ys hys
    cases hys
    rw [hxfer, hdfs]
  · unfold dwSpiTransferInt at hok ⊢
    obtain ⟨-, heq⟩ := check_ok (by decide) hok
    rw [heq, if_neg hparam, if_neg hparam]
    exact h.keeps (dwSpiDisCbr_keeps s .xfer)

theorem spi_holds_installed (h : Issued spiIssue spiAccepts s cmds s') :
    SpiHolds (spiInstalled cmds) s' := by
  refine h.lastSet SpiCmd.list (fun cur => SpiHolds cur.join) (fun cur s cmd hcur hok => ?_)
    (fun xs hxs => absurd hxs (by simp))
  unfold spiIssue spiAccepts dwSpiControl at *
  have hready := ready_ok hok
  rw [hready] at hok ⊢
  cases cmd with
  | setTxint val | setRxint val =>
    simp only
    split
    · exact hcur.keeps (dwSpiDisCbr_keeps s _)
    · exact hcur.keeps (dwSpiEnaCbr_keeps s _)
  | setTxintBuf param buf len => exact SpiHolds.setIntBuf hok
  | setRxintBuf param buf len => exact SpiHolds.setIntBuf hok
  | transferInt param xs =>
    have hlist : ((SpiCmd.transferInt param xs).list.or cur).join =
        if param ≠ 0 then some xs else cur.join := by
      rw [SpiCmd.list]
      split <;> rfl
    rw [hlist]
    exact hcur.transferInt hok

theorem dwSpiIsrEnd_of_state {f : SpiDev → SpiDev} (hstate : s.status &&& dwSpiInXfer = cbrtn.state)
    (hcb : cbs.cb cbrtn = some f) :
    dwSpiIsrEnd cbs s = { f (s.called cbrtn) with xfer := .cleared } := by
  unfold dwSpiIsrEnd
  rw [hstate]
  cases cbrtn with
  | snd =>
    have hcb' : cbs.txCb = some f := hcb
    rw [hcb']
    rfl
  | rcv =>
    have hcb' : cbs.rxCb = some f := hcb
    rw [hcb']
    rfl
  | xfer =>
    have hcb' : cbs.xferCb = some f := hcb
    rw [hcb']
    rfl

/-- No list that was installed looks like none: the frame size is set. -/
theorem initTransfer_ne_cleared (xs : List DevSpiTransfer) (dfs : Nat) :
    dwSpiInitTransfer xs dfs ≠ .cleared := by
  intro hc
  have hnbytes : dwSpiNbytes dfs = 0 := congrArg DwSpiTransfer.nbytes hc
  exact Nat.ne_of_gt (dwSpiNbytes_pos dfs) hnbytes

/-- A new transfer is never intact. -/
theorem SpiChain.intact_iff (h : SpiChain cbs cmds left after) :
    SpiIntact cmds left after ↔ spiInstalled cmds = none := by
  cases h with
  | @intro s s₁ isrStatus room frames cbrtn f _ hwrite hend hstate hcb hcmds =>
    have hafter : (dwSpiIsrWrite cbs s isrStatus room).2 =
        { f (s₁.called cbrtn) with xfer := .cleared } := by
      simp only [dwSpiIsrWrite, hwrite, hend, if_true]
      exact dwSpiIsrEnd_of_state hstate hcb
    rw [hafter]
    constructor
    · intro hintact
      by_contra hsome
      obtain ⟨xs, hxs⟩ := Option.ne_none_iff_exists'.mp hsome
      have hcleared := hintact.1 (by rw [hxs]; rfl)
      rw [spi_holds_installed hcmds xs hxs] at hcleared
      exact initTransfer_ne_cleared _ _ hcleared.symm
    · intro hnone
      refine ⟨fun hsome => ?_, rfl⟩
      rw [hnone] at hsome
      exact absurd hsome (by simp)

end Spi

/-! ### All three drivers -/

/-- **A transfer started from a completion callback is intact when the routine returns** exactly
when it is for the other direction (UART and IIC) and no aborted transfer is found behind the
callback (IIC), and then it is as if it had been started after the routine; a transfer started from
an SPI callback never is. -/
theorem chained_intact_iff (d : Dir) (uartCmds : List UartCmd) (iicCmds : List IicCmd)
    (spiCmds : List SpiCmd) :
    (∀ cbs plain left after, UartChain cbs d uartCmds plain left after →
      (UartIntact uartCmds left after ↔ ∀ b, uartSlots.last d uartCmds = some b → b = .cleared) ∧
      (UartIntact uartCmds left after → after = issue uartIssue uartCmds plain)) ∧
    (∀ cbs abort plain left after, IicChain cbs d abort iicCmds plain left after →
      (IicIntact iicCmds left after ↔
        (∀ b, iicSlots.last d iicCmds = some b → b = .cleared) ∧
          (abort = true → iicStarted iicCmds = none)) ∧
      (IicIntact iicCmds left after → after = issue iicIssue iicCmds plain)) ∧
    ∀ cbs left after, SpiChain cbs spiCmds left after →
      (SpiIntact spiCmds left after ↔ spiInstalled spiCmds = none) := by
  refine ⟨fun cbs plain left after h => ⟨h.intact_iff, fun hintact => ?_⟩,
    fun cbs abort plain left after h => ⟨h.intact_iff, fun hintact => ?_⟩,
    fun cbs left after h => h.intact_iff⟩
  · exact h.as_outside (h.intact_iff.mp hintact)
  · obtain ⟨hnone, hstarted⟩ := h.intact_iff.mp hintact
    exact h.as_outside hnone hstarted

def oneByte : DevBuffer := { buf := 0x300, len := 1, ofs := 0 }

def uartSending : UartDev where
  opnCnt := 1
  status := devEnabled
  txBuf := oneByte
  rxBuf := .cleared
  ier := dwUartIerXmitEmpty
  txInt := true
  rxInt := false
  gint := true
  ram := fun _ => 1
  mem := fun _ => 0

def uartNext (d : Dir) : List UartCmd := [.setIntBuf d 0x40 oneByte, .setInt d 1]

def uartChains (d : Dir) : UartCbs := { cb := fun _ => issue uartIssue (uartNext d), errCb := id }

theorem uart_sending_chain (d : Dir) :
    UartChain (uartChains d) .tx (uartNext d)
      (dwUartIsr { uartChains d with cb := fun _ => id } uartSending .xmitEmpty 1 []).2
      (issue uartIssue (uartNext d) (dwUartServe uartSending .xmitEmpty 1 []).2.2)
      (dwUartIsr (uartChains d) uartSending .xmitEmpty 1 []).2 := by
  have hserve : dwUartServe uartSending .xmitEmpty 1 [] =
      ([1], .complete .tx, (dwUartServe uartSending .xmitEmpty 1 []).2.2) := rfl
  refine UartChain.intro hserve ?_
  cases d <;> exact Runs.of_follow rfl

def iicSending : IicDev := issue iicIssue [.setIntBuf .tx 0x40 oneByte, .setInt .tx 1] iicOpened

def iicNext (d : Dir) : List IicCmd := [.setIntBuf d 0x40 oneByte, .setInt d 1]

def iicChains (d : Dir) : IicCbs := { cb := fun _ => issue iicIssue (iicNext d), errCb := id }

theorem iic_sending_chain (d : Dir) :
    IicChain (iicChains d) .tx false (iicNext d)
      (dwIicIsr { iicChains d with cb := fun _ => id } iicSending icIntrTxEmpty 1 [] false).2
      (issue iicIssue (iicNext d) (dwIicServe iicSending .tx icIntrTxEmpty 1 []).2.2)
      (dwIicIsr (iicChains d) iicSending icIntrTxEmpty 1 [] false).2 := by
  have hserve : dwIicServe iicSending .tx icIntrTxEmpty 1 [] =
      ([0x201], true, (dwIicServe iicSending .tx icIntrTxEmpty 1 []).2.2) := rfl
  refine IicChain.intro (s := iicSending) (by decide) hserve ?_ fun _ => rfl
  cases d <;> exact Runs.of_follow rfl

def spiSent : SpiDev :=
  (dwSpiReader (dwSpiWriter (dwSpiControl spiOpened (.transferInt 0x40 (spiBytes 1))).2 1).2 [5]).2

def spiChains (cmds : List SpiCmd) : SpiCbs :=
  { txCb := none, rxCb := none, xferCb := some (issue spiIssue cmds) }

theorem spi_sent_chain {cmds : List SpiCmd}
    (hcmds : Issued spiIssue spiAccepts (spiSent.called .xfer) cmds
      (issue spiIssue cmds (spiSent.called .xfer))) :
    SpiChain (spiChains cmds) cmds (issue spiIssue cmds (spiSent.called .xfer))
      (dwSpiIsrWrite (spiChains cmds) spiSent 0x10 0).2 := by
  have hwrite : (if hasFlag 0x10 dwSpiImrTxeim then dwSpiWriter spiSent 0 else ([], spiSent)) =
      ([], spiSent) := rfl
  have hcb : (spiChains cmds).cb .xfer = some (issue spiIssue cmds) := rfl
  exact SpiChain.intro hwrite (by decide) (by decide) hcb hcmds

/-- Receiving behind sending is intact, and so is what an SPI callback leaves alone. -/
theorem chained_intact_other_direction :
    UartIntact (uartNext .rx)
        (issue uartIssue (uartNext .rx) (dwUartServe uartSending .xmitEmpty 1 []).2.2)
        (dwUartIsr (uartChains .rx) uartSending .xmitEmpty 1 []).2 ∧
      IicIntact (iicNext .rx)
        (issue iicIssue (iicNext .rx) (dwIicServe iicSending .tx icIntrTxEmpty 1 []).2.2)
        (dwIicIsr (iicChains .rx) iicSending icIntrTxEmpty 1 [] false).2 ∧
      SpiIntact [.setTxint 0] (issue spiIssue [.setTxint 0] (spiSent.called .xfer))
        (dwSpiIsrWrite (spiChains [.setTxint 0]) spiSent 0x10 0).2 := by
  obtain ⟨huart, hiic, hspi⟩ := chained_intact_iff .tx (uartNext .rx) (iicNext .rx) [.setTxint 0]
  refine ⟨(huart _ _ _ _ (uart_sending_chain .rx)).1.mpr fun b hb => ?_,
    (hiic _ _ _ _ _ (iic_sending_chain .rx)).1.mpr ⟨fun b hb => ?_, fun hc => ?_⟩,
    (hspi _ _ _ (spi_sent_chain (Runs.of_follow rfl))).mpr rfl⟩
  · exact absurd hb (show (none : Option DevBuffer) ≠ some b by simp)
  · exact absurd hb (show (none : Option DevBuffer) ≠ some b by simp)
  · exact absurd hc (by simp)

/-- Sending again is lost, with its interrupts left on; so is any SPI transfer. -/
theorem chained_transfer_lost :
    (∃ plain left after, UartChain (uartChains .tx) .tx (uartNext .tx) plain left after ∧
      left.txBuf = oneByte ∧ after.txBuf = .cleared ∧ after.txInt = true) ∧
    (∃ plain left after, IicChain (iicChains .tx) .tx false (iicNext .tx) plain left after ∧
      left.txBuf = oneByte ∧ after.txBuf = .cleared ∧ after.curState = .inTx) ∧
    ∃ left after, SpiChain (spiChains [.transferInt 0x40 (spiBytes 1)])
        [.transferInt 0x40 (spiBytes 1)] left after ∧
      left.xfer = dwSpiInitTransfer (spiBytes 1) 8 ∧ after.xfer = .cleared ∧
      after.status &&& dwSpiInXfer = dwSpiInXfer :=
  ⟨⟨_, _, _, uart_sending_chain .tx, by decide, by decide, by decide⟩,
    ⟨_, _, _, iic_sending_chain .tx, by decide, by decide, by decide⟩,
    ⟨_, _, spi_sent_chain (Runs.of_follow rfl), by decide, by decide, by decide⟩⟩

end Embarc
