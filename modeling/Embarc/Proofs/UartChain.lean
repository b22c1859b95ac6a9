/-
Transfers started from a completion callback of the UART driver.

`dw_uart_isr` calls the callback of a buffer that is through and clears the buffer behind it.  A
callback is described by the commands it issues: they tell which buffers it installs.  The two
buffers are slots, and the routine fills one of them behind the commands, so all is said in
`Embarc.Lib.Slots`.
-/
import Embarc.Lib.Slots
import Embarc.DesignWare.Uart

namespace Embarc

variable {cbs : UartCbs} {s s' plain left after : UartDev} {d : Dir} {cmds : List UartCmd}

abbrev uartIssue (s : UartDev) (cmd : UartCmd) : UartDev := (dwUartControl s cmd).2

abbrev uartAccepts (s : UartDev) (cmd : UartCmd) : Prop := (dwUartControl s cmd).1 = eOk

/-- The buffer a command installs; all zero if it takes it back. -/
def UartCmd.buffer (d : Dir) : UartCmd → Option DevBuffer
  | .setInt _ _ => none
  | .setIntBuf d' param devbuf => if d' = d then some (intBuf param devbuf) else none

def UartDev.ints (s : UartDev) : Word × Bool × Bool × Bool := (s.ier, s.txInt, s.rxInt, s.gint)

section
variable (s : UartDev)

theorem UartDev.withBuf_withBuf (d : Dir) (b b' : DevBuffer) :
    (s.withBuf d b).withBuf d b' = s.withBuf d b' := by
  cases d <;> rfl

theorem UartDev.withBuf_comm (d d' : Dir) (b b' : DevBuffer) (h : d ≠ d') :
    (s.withBuf d b).withBuf d' b' = (s.withBuf d' b').withBuf d b := by
  cases d <;> cases d' <;> first | rfl | exact absurd rfl h

theorem UartDev.withBuf_inj (d : Dir) (b b' : DevBuffer)
    (h : s.withBuf d b = s.withBuf d b') : b = b' := by
  cases d with
  | tx => exact congrArg UartDev.txBuf h
  | rx => exact congrArg UartDev.rxBuf h

theorem UartDev.ints_withBuf (d : Dir) (b : DevBuffer) :
    (s.withBuf d b).ints = s.ints := by
  cases d <;> rfl

theorem dwUartDisCbr_withBuf (d cbrtn : Dir) (b : DevBuffer) :
    dwUartDisCbr (s.withBuf d b) cbrtn = (dwUartDisCbr s cbrtn).withBuf d b := by
  cases d <;> cases cbrtn <;> simp only [dwUartDisCbr, UartDev.withBuf] <;> split <;>
    first | exact if_pos ‹_› | exact if_neg ‹_›

theorem dwUartEnaCbr_withBuf (d cbrtn : Dir) (b : DevBuffer) :
    dwUartEnaCbr (s.withBuf d b) cbrtn = (dwUartEnaCbr s cbrtn).withBuf d b := by
  cases d <;> cases cbrtn <;> rfl

theorem uartAccepts_withBuf (d : Dir) (b : DevBuffer) (cmd : UartCmd)
    (hok : uartAccepts s cmd) : uartAccepts (s.withBuf d b) cmd := by
  have hsame : (s.withBuf d b).opnCnt = s.opnCnt ∧ (s.withBuf d b).status = s.status := by
    cases d <;> exact ⟨rfl, rfl⟩
  refine Eq.trans ?_ hok
  simp only [dwUartControl, hsame]
  split
  · rfl
  · split
    · rfl
    · cases cmd with
      | setInt => rfl
      | setIntBuf => simp only; split <;> rfl

end

def uartSlots : Slots uartIssue uartAccepts Dir DevBuffer where
  put := UartDev.withBuf
  fills := UartCmd.buffer
  put_put := UartDev.withBuf_withBuf
  put_comm := UartDev.withBuf_comm
  put_inj := UartDev.withBuf_inj
  step_put := by
    intro s d b cmd hok
    have hok' := uartAccepts_withBuf s d b cmd hok
    cases cmd with
    | setInt e val =>
      rw [uartIssue, uartIssue, dwUartControl_setInt_ok hok, dwUartControl_setInt_ok hok']
      split
      · exact dwUartDisCbr_withBuf ..
      · exact dwUartEnaCbr_withBuf ..
    | setIntBuf e param devbuf =>
      rw [uartIssue, uartIssue, dwUartControl_setIntBuf_ok hok, dwUartControl_setIntBuf_ok hok']
      exact put_fill UartDev.withBuf_withBuf UartDev.withBuf_comm s d e b _
  step_fills := by
    intro s d b cmd hok hb
    cases cmd with
    | setInt e val => exact absurd hb (by simp [UartCmd.buffer])
    | setIntBuf e param devbuf =>
      rw [uartIssue, dwUartControl_setIntBuf_ok hok]
      exact fill_put UartDev.withBuf_withBuf s hb

/-- A buffer is through in direction `d`, the callback issues `cmds` and leaves the device as
`left`, and the routine returns with `after`; with a callback that does nothing it returns with
`plain`. -/
inductive UartChain (cbs : UartCbs) : Dir → List UartCmd → UartDev → UartDev → UartDev → Prop
  | intro {s s₁ : UartDev} {iir : UartIir} {room : Nat} {chars sent : List Byte} {d : Dir}
      {cmds : List UartCmd} (hserve : dwUartServe s iir room chars = (sent, .complete d, s₁))
      (hcmds : Issued uartIssue uartAccepts s₁ cmds (cbs.cb d s₁)) :
      UartChain cbs d cmds (dwUartIsr { cbs with cb := fun _ => id } s iir room chars).2
        (cbs.cb d s₁) (dwUartIsr cbs s iir room chars).2

/-- What the callback has installed is there, and the interrupts are as it has left them. -/
def UartIntact (cmds : List UartCmd) (left after : UartDev) : Prop :=
  (∀ d b, uartSlots.last d cmds = some b → uartSlots.Holds after d b) ∧ after.ints = left.ints

theorem iir_of_complete {iir : UartIir} {room : Nat} {chars sent : List Byte}
    (h : dwUartServe s iir room chars = (sent, .complete d, s')) : iir ≠ .lineStatus := by
  rintro rfl
  exact absurd h (by simp [dwUartServe])

variable (h : UartChain cbs d cmds plain left after)
include h

theorem UartChain.spec :
    ∃ s₁, Issued uartIssue uartAccepts s₁ cmds left ∧ after = uartSlots.put left d .cleared ∧
      plain = uartSlots.put s₁ d .cleared := by
  cases h with
  | @intro s s₁ iir room chars sent _ _ hserve hcmds =>
    have hline := iir_of_complete hserve
    refine ⟨s₁, hcmds, ?_, ?_⟩
    · simp only [dwUartIsr, if_neg hline, hserve]
      rfl
    · simp only [dwUartIsr, if_neg hline, hserve]
      rfl

/-- A new transfer is intact exactly when nothing is installed for the direction that is
through. -/
theorem UartChain.intact_iff :
    UartIntact cmds left after ↔ ∀ b, uartSlots.last d cmds = some b → b = .cleared := by
  obtain ⟨s₁, hcmds, rfl, -⟩ := h.spec
  rw [← uartSlots.holds_put_iff fun _ _ _ hb => uartSlots.holds_last hcmds hb]
  exact ⟨fun hintact => hintact.1, fun hholds => ⟨hholds, UartDev.ints_withBuf left d .cleared⟩⟩

/-- Then the commands might as well have been issued after the routine. -/
theorem UartChain.as_outside (hnone : ∀ b, uartSlots.last d cmds = some b → b = .cleared) :
    after = issue uartIssue cmds plain := by
  obtain ⟨s₁, hcmds, rfl, rfl⟩ := h.spec
  exact uartSlots.put_eq_issue hcmds hnone

end Embarc
