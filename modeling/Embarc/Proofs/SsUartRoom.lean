/-
The room in the transmit FIFO that `UART_CMD_GET_TXAVAIL` reports.

The answer rests on two bits of UART_LSR.  Bit 6 tells that nothing is left in the transmitter.
What bit 5 tells depends on bit 7 of UART_IER: with it that the FIFO is full, without it that the
FIFO is empty.  The command takes it for the former in any case, so that a full FIFO is reported to
have room when bit 7 is clear.  So what matters of a call or an interrupt is whether it clears the
bit, and whether it writes to the FIFO and leaves the bit as it was.
-/
import Embarc.Proofs.SsUartOverflow

namespace Embarc

open Trace (Runs Always)

def uartLsr5 (depth level : Nat) (ier : Word) : Bool :=
  if hasFlag ier ierThreshold then level = depth else level = 0

/-- What UART_LSR tells of the transmitter; `idle` if nothing is left in it. -/
def uartLsr (idle bit5 : Bool) : Word := (if idle then 0x40 else 0) ||| if bit5 then 0x20 else 0

/-- The answer to `UART_CMD_GET_TXAVAIL`.  `fs` is `IO_UART0_FS`, whichever device is asked. -/
def ssUartTxavail (fs lsr : Word) : Word :=
  if hasFlag lsr 0x40 then fs else if hasFlag lsr 0x20 then 0 else 1

theorem ssUartTxavail_lsr (fs : Word) (idle bit5 : Bool) :
    ssUartTxavail fs (uartLsr idle bit5) = if idle then fs else if bit5 then 0 else 1 := by
  cases idle <;> cases bit5 <;> rfl

variable {depth : Nat}

theorem txavail_le_iff {level : Nat} (hle : level ≤ depth) {idle : Bool}
    (hidle : idle = true → level = 0) (fs ier : Word) :
    (ssUartTxavail fs (uartLsr idle (uartLsr5 depth level ier))).toNat ≤ depth - level ↔
      (idle = true → fs.toNat ≤ depth) ∧
        (level = depth → depth ≠ 0 → hasFlag ier ierThreshold = true) := by
  rw [ssUartTxavail_lsr]
  cases idle with
  | true =>
    simp only [if_true, true_implies, hidle rfl, Nat.sub_zero]
    exact ⟨fun h => ⟨h, fun hfull hne => absurd hfull.symm hne⟩, fun h => h.1⟩
  | false =>
    by_cases hfull : level = depth
    · subst hfull
      cases hier : hasFlag ier ierThreshold <;> by_cases hzero : level = 0 <;>
        simp [uartLsr5, hier, hzero]
    · have hone : (if uartLsr5 depth level ier then 0 else 1 : Word).toNat ≤ 1 := by
        split <;> decide
      refine iff_of_true ?_ ⟨by simp, fun h => absurd h hfull⟩
      simp only [Bool.false_eq_true, if_false]
      omega

/-! ### The calls of a user -/

namespace FifoLevel

/-- `count` bytes are written, each when the FIFO is not full. -/
def poll (depth : Nat) : Nat → List Nat → FifoLevel → FifoLevel
  | 0, _, f => f
  | count + 1, drains, f =>
    poll depth count drains.tail { f with level := min (f.level - drains.headD 0) (depth - 1) + 1 }

theorem burst_level (count : Nat) (drains : List Nat) {f : FifoLevel} (h : f.level ≤ depth) :
    (f.burst depth count drains).level ≤ depth := by
  induction count generalizing drains f with
  | zero => exact h
  | succ count ih =>
    simp only [burst]
    split
    · rename_i hlt
      exact ih _ hlt
    · exact ih _ (Nat.le_trans (Nat.sub_le _ _) h)

theorem poll_level (count : Nat) (hends : depth ≠ 0 ∨ count = 0) (drains : List Nat) {f : FifoLevel}
    (h : f.level ≤ depth) : (f.poll depth count drains).level ≤ depth := by
  induction count generalizing drains f with
  | zero => exact h
  | succ count ih =>
    have hdepth : depth ≠ 0 := hends.resolve_right (Nat.succ_ne_zero count)
    exact ih (.inl hdepth) _ (by simp only; omega)

end FifoLevel

/-- What a user does: commands, requests and what comes of them, opening and closing, and reads and
writes, which wait for interrupts or poll. -/
inductive SsUartUse where
  | line (e : SsUartLineEvent)
  | opened (baud msr : Word)
  | closed
  | writes (data len : Word) (drains : List Nat)
  | reads (data len pLen : Word)
  | ends
  | pollWrite (data len : Word) (drains : List Nat)
  | pollRead (data len : Word) (rbr : Nat → Byte)

namespace SsUartLine

variable {hw : SsUartPortHw} {s s' : SsUartLine} {fs : Word}

abbrev io (s : SsUartLine) : SsUartInfo := s.machine.here.io

def withDev (s : SsUartLine) (dev : SsUart) : SsUartLine :=
  { s with machine := { s.machine with here := dev } }

/-- The device below is opened or closed where `dev` says so, and its FIFO is then reset. -/
def reset (s : SsUartLine) (dev : SsUart) : SsUartLine :=
  { s.withDev dev with
    fifo := if dev.io.handle = s.io.handle then s.fifo else { s.fifo with level := 0 } }

/-- What was written since goes into the FIFO. -/
def fed (hw : SsUartPortHw) (s : SsUartLine) (dev : SsUart) (drains : List Nat) : SsUartLine :=
  { s.withDev dev with
    fifo := s.fifo.burst hw.fifoDepth.toNat (dev.io.sent.length - s.io.sent.length) drains }

def use (hw : SsUartPortHw) (s : SsUartLine) :
    SsUartUse → Except (Reentry.Stop SsUartStop) SsUartLine
  | .line e => ssUartLineStep hw s e
  | .opened baud msr =>
    ((ssUartOpen hw s.machine.here baud msr).mapError .fault).map fun r => s.reset r.2
  | .closed => ((ssUartClose hw s.machine.here).mapError .fault).map fun r => s.reset r.2
  | .writes data len drains =>
    ((ssUartWriteStart hw s.machine.here data len).mapError .fault).map fun dev =>
      s.fed hw dev drains
  | .reads data len pLen =>
    ((ssUartReadStart hw s.machine.here data len pLen).mapError .fault).map fun dev => s.fed hw dev []
  | .ends => .ok (s.withDev (ssUartEnd s.machine.here 0).2)
  | .pollWrite data len drains => .ok { s.withDev (ioUartPollWrite s.machine.here data len) with
      fifo := s.fifo.poll hw.fifoDepth.toNat len.toNat drains }
  | .pollRead data len rbr => .ok (s.withDev (ioUartPollRead s.machine.here data len rbr))

/-- Without a FIFO a polled write waits forever. -/
def Ends (hw : SsUartPortHw) : SsUartUse → Prop
  | .pollWrite _ len _ => hw.fifoDepth.toNat ≠ 0 ∨ len.toNat = 0
  | _ => True

/-- The room that the command reports now is there, whether the transmitter is still at work on the
last byte or not. -/
def RoomTold (hw : SsUartPortHw) (fs : Word) (s : SsUartLine) : Prop :=
  ∀ idle, (idle = true → s.fifo.level = 0) →
    (ssUartTxavail fs
      (uartLsr idle (uartLsr5 hw.fifoDepth.toNat s.fifo.level s.io.regs.ier))).toNat ≤
        hw.fifoDepth.toNat - s.fifo.level

def Full (hw : SsUartPortHw) (level : Nat) : Prop :=
  level = hw.fifoDepth.toNat ∧ hw.fifoDepth.toNat ≠ 0

end SsUartLine

/-- The transmit threshold is in use. -/
def SsUartInfo.minds (s : SsUartInfo) : Bool := hasFlag s.regs.ier ierThreshold

/-- The interrupt turns the transmitter off. -/
def SsUart.TurnsOff (s : SsUart) : SsUartOp → Prop
  | .control (.setInt .tx val) => val = 0
  | .isr q =>
    let intid := q.iir &&& 0x0f
    if intid = 0x2 then
      if s.io.txData = 0 then s.io.cbs.get (.ofDir .tx) = 0 else s.io.txCount = s.io.txSize
    else intid ≠ 0x0 ∧ intid ≠ 0x1 ∧ intid ≠ 0x4 ∧ intid ≠ 0x6 ∧ intid ≠ 0x7
  | _ => False

/-- The interrupt writes to the FIFO. -/
def SsUart.GoesOn (s : SsUart) : SsUartOp → Prop
  | .isr q => q.iir &&& 0x0f = 0x2 ∧ s.io.txData ≠ 0 ∧ s.io.txCount ≠ s.io.txSize
  | _ => False

/-- The threshold is not given up with a full FIFO, and without it the FIFO is not filled up: neither
by an interrupt nor by a polled write. -/
def SsUartLine.Careful (hw : SsUartPortHw) (s : SsUartLine) : SsUartUse → Prop
  | .line (.drv (.enter op) drains) =>
    (s.machine.here.TurnsOff op → ¬ Full hw s.fifo.level) ∧
      (s.machine.here.GoesOn op → s.io.minds = false →
        ¬ Full hw (s.fifo.burst hw.fifoDepth.toNat (s.io.load hw.toSsUartHw).toNat drains).level)
  | .pollWrite _ len drains =>
    s.io.minds = false → ¬ Full hw (s.fifo.poll hw.fifoDepth.toNat len.toNat drains).level
  | _ => True

/-! ### What becomes of the threshold -/

namespace SsUartInfo

variable {hw : SsUartHw} {s s' : SsUartInfo}

/-- The threshold is in use, or nothing has changed that matters to the FIFO. -/
def Minded (s s' : SsUartInfo) : Prop := s'.minds = true ∨ s'.minds = s.minds ∧ s'.sent = s.sent

theorem TxKept.minded (h : s.TxKept s') : s.Minded s' := .inr ⟨h.hasFlag (by decide), h.sent⟩

theorem minded_write (s : SsUartInfo) (hw : SsUartHw) (data size : Word) :
    s.Minded (s.write hw data size) := by
  simp only [write, begin]
  split
  · split
    · exact .inl (hasFlag_or_self _ (by decide))
    · exact .inr ⟨rfl, rfl⟩
  · exact .inr ⟨rfl, rfl⟩

theorem minded_ioctl (s : SsUartInfo) (hw : SsUartHw) (cmd : SsUartIoctl) :
    s.Minded (s.ioctl hw cmd) := by
  cases cmd with
  | setFlowControl arg msr =>
    simp only [SsUartInfo.ioctl]
    split
    · exact .inr ⟨hasFlag_or_of_disjoint (by decide), rfl⟩
    · exact .inr ⟨hasFlag_clear_of_disjoint (by decide), rfl⟩
  | _ => exact .inr ⟨rfl, rfl⟩

theorem sent_refill (s : SsUartInfo) (hw : SsUartHw) (hoff : s.minds = false) :
    (s.refill hw).sent.length - s.sent.length = (s.load hw).toNat := by
  have huse : ¬ s.regs.ier &&& ierThreshold ≠ 0 := by simpa [minds, hasFlag] using hoff
  simp only [refill, if_neg huse, put, List.length_append, List.length_map, List.length_range]
  omega

end SsUartInfo

section Enter

variable {hw : SsUartPortHw} {dev : SsUart} {t : SsUartTask}

theorem ioUartIoctl_minded {io io' : SsUartInfo} {cmd : SsUartIoctl}
    (h : ioUartIoctl hw.toSsUartHw io cmd = .ok io') : io.Minded io' := by
  rw [ioUartIoctl] at h
  split at h
  · cases h
    exact io.minded_ioctl hw.toSsUartHw cmd
  · cases h

theorem SsUart.ioctl_minded {s s' : SsUart} {cmd : SsUartIoctl} (h : s.ioctl hw cmd = .ok s') :
    s.io.Minded s'.io := by
  obtain ⟨io, hio, rfl⟩ := Except.exists_of_map_eq_ok h
  exact ioUartIoctl_minded hio

theorem SsUart.ok_minded {s : SsUart} {io : Except SsUartStop SsUartInfo} {r : Int × SsUart}
    (hio : ∀ io', io = .ok io' → s.io.Minded io') (h : s.ok io = .ok r) : s.io.Minded r.2.io := by
  obtain ⟨io', hok, rfl⟩ := Except.exists_of_map_eq_ok h
  exact hio io' hok

/-- What a step of the driver comes to, for the threshold and for the FIFO. -/
structure Turns (hw : SsUartPortHw) (dev : SsUart) (op : SsUartOp) (io : SsUartInfo) : Prop where
  off : dev.TurnsOff op → io.minds = false ∧ io.sent = dev.io.sent
  on : dev.GoesOn op → io = dev.io.refill hw.toSsUartHw
  else_ : ¬ dev.TurnsOff op → ¬ dev.GoesOn op → dev.io.Minded io

theorem SsUart.not_goesOn {op : SsUartOp} (h : dev.TurnsOff op) : ¬ dev.GoesOn op := by
  cases op with
  | isr q =>
    rintro ⟨hiir, hdata, hcount⟩
    rw [TurnsOff, if_pos hiir, if_neg hdata] at h
    exact hcount h
  | _ => exact id

theorem Turns.of_minded {op : SsUartOp} {io : SsUartInfo} (hoff : ¬ dev.TurnsOff op)
    (hon : ¬ dev.GoesOn op) (h : dev.io.Minded io) : Turns hw dev op io :=
  ⟨fun hc => absurd hc hoff, fun hc => absurd hc hon, fun _ _ => h⟩

theorem Turns.of_off {op : SsUartOp} {io : SsUartInfo} (hoff : dev.TurnsOff op)
    (h : io.minds = false ∧ io.sent = dev.io.sent) : Turns hw dev op io :=
  ⟨fun _ => h, fun hc => absurd hc (SsUart.not_goesOn hoff), fun hc => absurd hoff hc⟩

theorem turns_control {cmd : SsUartCtrl} {r : Int × SsUart}
    (h : ssUartControl hw dev cmd = .ok r) : Turns hw dev (.control cmd) r.2.io := by
  have hon : ¬ dev.GoesOn (.control cmd) := id
  by_cases hoff : dev.TurnsOff (.control cmd)
  · cases cmd with
    | setInt d val =>
      cases d with
      | tx =>
        have hval : ¬ val ≠ 0 := not_not.mpr hoff
        simp only [ssUartControl, if_neg hval] at h
        cases h
        exact .of_off hoff ⟨hasFlag_clear_of_subset (by decide), rfl⟩
      | rx => exact absurd hoff id
    | _ => exact absurd hoff id
  refine .of_minded hoff hon ?_
  cases cmd with
  | setBaud baud =>
    obtain ⟨s, hs, rfl⟩ := Except.exists_of_map_eq_ok h
    rw [setBaud] at hs
    split at hs
    · cases hs
    · obtain ⟨s₁, hs₁, rfl⟩ := Except.exists_of_map_eq_ok hs
      exact (SsUart.ioctl_minded hs₁ :)
  | setHwfc arg msr => exact SsUart.ok_minded (fun _ => ioUartIoctl_minded) h
  | setDpsFormat format =>
    simp only [ssUartControl, setDps] at h
    split at h
    · obtain ⟨s, hs, rfl⟩ := Except.exists_of_map_eq_ok h
      exact SsUart.ioctl_minded hs
    · cases h
      exact .inr ⟨rfl, rfl⟩
  | setInt d val =>
    cases d with
    | tx =>
      have hval : val ≠ 0 := hoff
      simp only [ssUartControl, if_pos hval] at h
      cases h
      exact .inl (hasFlag_or_self _ (by decide))
    | rx =>
      cases h
      split
      · exact .inr ⟨hasFlag_or_of_disjoint (by decide), rfl⟩
      · exact .inr ⟨hasFlag_clear_of_disjoint (by decide), rfl⟩
  | setTxintBuf buf =>
    cases buf with
    | none | some =>
      refine SsUart.ok_minded (fun io' hio => ?_) h
      rw [ioUartWrite] at hio
      split at hio <;> cases hio
      exact SsUartInfo.minded_write ..
  | setRxintBuf buf pLen =>
    cases buf with
    | none | some =>
      refine SsUart.ok_minded (fun io' hio => ?_) h
      rw [ioUartRead] at hio
      split at hio <;> cases hio
      exact (SsUartInfo.txKept_read ..).minded
  | getAvail | setCb | other =>
    cases h
    exact .inr ⟨rfl, rfl⟩

theorem minded_break (dev : SsUart) : dev.io.Minded (uartIsrBreak hw dev).state.io := by
  have hend : dev.io.Minded (dev.io.breakEnd hw.toSsUartHw) :=
    (SsUartInfo.txKept_rxEnd { dev.io with
      sizes := Function.update dev.io.sizes dev.io.pRxsize dev.io.rxCount } hw.toSsUartHw).minded
  exact SsUart.ioCb_io hend hend .rx

theorem turns_isrTx (q : SsUartIrq) (hiir : q.iir &&& 0x0f = 0x2) :
    Turns hw dev (.isr q) (uartIsrTx hw dev).state.io := by
  have hoff : dev.TurnsOff (.isr q) ↔
      if dev.io.txData = 0 then dev.io.cbs.get (.ofDir .tx) = 0
      else dev.io.txCount = dev.io.txSize := by
    simp only [SsUart.TurnsOff, if_pos hiir]
  have hdisabled : (dev.io.disable ierTx).minds = false := hasFlag_clear_of_subset (by decide)
  unfold uartIsrTx
  by_cases hdata : dev.io.txData = 0
  · rw [if_pos hdata] at hoff ⊢
    have hon : ¬ dev.GoesOn (.isr q) := fun hc => hc.2.1 hdata
    split
    case isTrue hcb =>
      have hsame : dev.io.Minded dev.io := .inr ⟨rfl, rfl⟩
      have hcalled : dev.io.Minded (dev.dirCb .tx .nothing).state.io :=
        SsUart.dirCb_io hsame (by exact hsame) .tx
      exact .of_minded (fun hc => hcb (hoff.mp hc)) hon hcalled
    case isFalse hcb => exact .of_off (hoff.mpr (not_not.mp hcb)) ⟨hdisabled, rfl⟩
  · rw [if_neg hdata] at hoff ⊢
    by_cases hcount : dev.io.txCount = dev.io.txSize
    · rw [if_pos hcount]
      refine .of_off (hoff.mpr hcount) ?_
      exact SsUart.ioCb_io (P := fun io => io.minds = false ∧ io.sent = dev.io.sent)
        (by exact ⟨hdisabled, rfl⟩) (by exact ⟨hdisabled, rfl⟩) .tx
    · rw [if_neg hcount]
      exact ⟨fun hc => absurd (hoff.mp hc) hcount, fun _ => rfl, fun _ hc =>
        absurd ⟨hiir, hdata, hcount⟩ hc⟩

theorem turns_isr (q : SsUartIrq) : Turns hw dev (.isr q) (uartIsrTurn hw dev q).state.io := by
  by_cases hiir : q.iir &&& 0x0f = 0x2
  · simp only [uartIsrTurn, hiir]
    exact turns_isrTx q hiir
  have hon : ¬ dev.GoesOn (.isr q) := fun hc => hiir hc.1
  have hsame : dev.io.Minded dev.io := .inr ⟨rfl, rfl⟩
  by_cases hlast : dev.TurnsOff (.isr q)
  · refine .of_off hlast ?_
    simp only [SsUart.TurnsOff, if_neg hiir] at hlast
    obtain ⟨h0, h1, h4, h6, h7⟩ := hlast
    simp only [uartIsrTurn]
    rw [if_neg h1, if_neg hiir, if_neg h4, if_neg h0, if_neg h6, if_neg h7]
    have hzero : (dev.io.writeIer 0).minds = false ∧ (dev.io.writeIer 0).sent = dev.io.sent :=
      ⟨by simp [SsUartInfo.minds, SsUartInfo.writeIer, hasFlag], rfl⟩
    split
    · simp only [ssUartErrCb, SsUart.callback]
      split <;> exact hzero
    · exact hzero
  · refine .of_minded hlast hon ?_
    simp only [SsUart.TurnsOff, if_neg hiir, not_and_or, not_not] at hlast
    rcases hlast with h | h | h | h | h <;> simp only [uartIsrTurn, h]
    · show dev.io.Minded (dev.io.modem q.msr)
      simp only [SsUartInfo.modem]
      split
      · split
        · exact .inr ⟨hasFlag_or_of_disjoint (by decide), rfl⟩
        · exact hsame
      · exact hsame
    · exact minded_break dev
    · exact (SsUartLine.txKept_receive dev q.rbr).minded
    · show dev.io.Minded (if hasFlag q.lsr 0x10 then uartIsrBreak hw dev else .done dev).state.io
      split
      · exact minded_break dev
      · exact hsame
    · exact hsame

theorem turns_enter {op : SsUartOp} (h : ssUartEnter hw dev op = .ok t) :
    Turns hw dev op t.state.io := by
  cases op with
  | control cmd =>
    obtain ⟨r, hr, rfl⟩ := Except.exists_of_map_eq_ok h
    exact turns_control hr
  | ioctl cmd =>
    obtain ⟨s, hs, rfl⟩ := Except.exists_of_map_eq_ok h
    exact .of_minded id id (SsUart.ioctl_minded hs)
  | isr q =>
    rw [ssUartEnter] at h
    split at h <;> cases h
    exact turns_isr q

/-- An open leaves the device below as it is, or opens it. -/
theorem ssUartOpen_io {r : Int × SsUart} {baud msr : Word} (h : ssUartOpen hw dev baud msr = .ok r) :
    r.2.io = dev.io ∨ r.2.io.handle ≠ dev.io.handle := by
  have hioctl {s s' : SsUart} {cmd : SsUartIoctl} (hon : s.io.handle = true)
      (h : s.ioctl hw cmd = .ok s') : s'.io.handle = true := by
    obtain ⟨io, hio, rfl⟩ := Except.exists_of_map_eq_ok h
    rw [ioUartIoctl, if_pos hon] at hio
    cases hio
    cases cmd <;> simp only [SsUartInfo.ioctl] <;> (try split) <;> exact hon
  simp only [ssUartOpen] at h
  split at h
  · cases h
    exact .inl rfl
  by_cases hopen : hw.present = false ∨ dev.io.handle = true
  · simp only [ioUartOpen, if_pos hopen] at h
    cases h
    exact .inl rfl
  · simp only [ioUartOpen, if_neg hopen] at h
    rw [if_neg (by decide)] at h
    obtain ⟨s₁, h₁, h⟩ := Except.bind_eq_ok_iff.mp h
    obtain ⟨s₂, h₂, h⟩ := Except.bind_eq_ok_iff.mp h
    obtain ⟨s₃, h₃, h⟩ := Except.bind_eq_ok_iff.mp h
    obtain ⟨⟨_, s₄⟩, h₄, h⟩ := Except.bind_eq_ok_iff.mp h
    obtain ⟨s₅, h₅, h⟩ := Except.bind_eq_ok_iff.mp h
    obtain ⟨s₆, h₆, h⟩ := Except.bind_eq_ok_iff.mp h
    cases h
    have hon := hioctl (hioctl (hioctl (by simp only; split <;> rfl) h₁) h₂) h₃
    have hdps : s₄.io.handle = true := by
      rw [setDps] at h₄
      split at h₄
      · obtain ⟨s, hs, hs'⟩ := Except.exists_of_map_eq_ok h₄
        cases hs'
        exact hioctl hon hs
      · cases h₄
        exact hon
    have hbaud : s₆.io.handle = true := by
      rw [setBaud] at h₆
      split at h₆
      · cases h₆
      · obtain ⟨s, hs, rfl⟩ := Except.exists_of_map_eq_ok h₆
        exact (hioctl (hioctl hdps h₅) hs :)
    refine .inr fun hc => hopen (.inr ?_)
    exact hc.symm.trans hbaud

theorem ssUartClose_io {r : Int × SsUart} (h : ssUartClose hw dev = .ok r) :
    r.2.io = dev.io ∨ r.2.io.handle ≠ dev.io.handle := by
  simp only [ssUartClose] at h
  split at h
  · obtain ⟨io, hio, rfl⟩ := Except.exists_of_map_eq_ok h
    rw [ioUartClose] at hio
    split at hio
    case isTrue hon =>
      cases hio
      refine .inr fun hc => Bool.false_ne_true ?_
      exact hc.trans hon
    case isFalse => cases hio
  · cases h
    exact .inl rfl

end Enter

/-! ### Runs -/

namespace SsUartLine

variable {hw : SsUartPortHw} {s s' : SsUartLine} {fs : Word}

theorem roomTold_iff (hle : s.fifo.level ≤ hw.fifoDepth.toNat) (hfs : fs.toNat ≤ hw.fifoDepth.toNat) :
    RoomTold hw fs s ↔ (Full hw s.fifo.level → s.io.minds = true) := by
  constructor
  · intro h hfull
    exact ((txavail_le_iff hle (by simp) fs s.io.regs.ier).mp (h false (by simp))).2 hfull.1 hfull.2
  · intro h idle hidle
    exact (txavail_le_iff hle hidle fs s.io.regs.ier).mpr
      ⟨fun _ => hfs, fun hfull hne => h ⟨hfull, hne⟩⟩

/-- What a step does to the FIFO and to the threshold is right exactly if `ok`. -/
structure Decides (hw : SsUartPortHw) (s s' : SsUartLine) (ok : Prop) : Prop where
  level : s'.fifo.level ≤ hw.fifoDepth.toNat
  told : (Full hw s.fifo.level → s.io.minds = true) →
    ((Full hw s'.fifo.level → s'.io.minds = true) ↔ ok)

/-- The threshold is in use, or the FIFO is no fuller than before. -/
theorem Decides.of_minded {ok : Prop} (hok : ok) (hle : s'.fifo.level ≤ hw.fifoDepth.toNat)
    (hminded : s'.io.minds = true ∨
      s'.io.minds = s.io.minds ∧ (Full hw s'.fifo.level → Full hw s.fifo.level)) :
    Decides hw s s' ok := by
  refine ⟨hle, fun htold => iff_of_true (fun hfull => ?_) hok⟩
  rcases hminded with hon | ⟨hsame, hless⟩
  · exact hon
  · exact hsame.trans (htold (hless hfull))

/-- What was written has gone into the FIFO. -/
def Fills (hw : SsUartPortHw) (s : SsUartLine) (drains : List Nat) (s' : SsUartLine) : Prop :=
  s'.fifo = s.fifo.burst hw.fifoDepth.toNat (s'.io.sent.length - s.io.sent.length) drains

theorem Fills.same {drains : List Nat} (h : Fills hw s drains s') (hsent : s'.io.sent = s.io.sent) :
    s'.fifo = s.fifo := by
  rw [h, hsent, Nat.sub_self]
  rfl

theorem Fills.level {drains : List Nat} (h : Fills hw s drains s')
    (hle : s.fifo.level ≤ hw.fifoDepth.toNat) : s'.fifo.level ≤ hw.fifoDepth.toNat := by
  rw [h]
  exact FifoLevel.burst_level _ _ hle

theorem decides_fed {ok : Prop} (hok : ok) (hle : s.fifo.level ≤ hw.fifoDepth.toNat)
    {drains : List Nat} (hfed : Fills hw s drains s') (hminded : s.io.Minded s'.io) :
    Decides hw s s' ok := by
  refine .of_minded hok (hfed.level hle) (hminded.imp_right fun ⟨hsame, hsent⟩ => ⟨hsame, ?_⟩)
  rw [hfed.same hsent]
  exact id

theorem decides_reset {ok : Prop} (hok : ok) (hle : s.fifo.level ≤ hw.fifoDepth.toNat) {dev : SsUart}
    (hio : dev.io = s.io ∨ dev.io.handle ≠ s.io.handle) : Decides hw s (s.reset dev) ok := by
  by_cases hsame : dev.io.handle = s.io.handle
  · have hio := hio.resolve_right (not_not.mpr hsame)
    have hfifo : (s.reset dev).fifo = s.fifo := if_pos hsame
    refine .of_minded hok (hfifo ▸ hle) (.inr ⟨congrArg SsUartInfo.minds hio, ?_⟩)
    rw [hfifo]
    exact id
  · have hfifo : (s.reset dev).fifo = { s.fifo with level := 0 } := if_neg hsame
    refine ⟨hfifo ▸ Nat.zero_le _, fun _ => iff_of_true (fun hfull => ?_) hok⟩
    rw [hfifo] at hfull
    exact absurd hfull.1.symm hfull.2

theorem decides_enter (hle : s.fifo.level ≤ hw.fifoDepth.toNat) {op : SsUartOp}
    {drains : List Nat} (hfed : Fills hw s drains s') (hturns : Turns hw s.machine.here op s'.io) :
    Decides hw s s' (s.Careful hw (.line (.drv (.enter op) drains))) := by
  by_cases hoff : s.machine.here.TurnsOff op
  · obtain ⟨hminds, hsent⟩ := hturns.off hoff
    refine ⟨hfed.level hle, fun _ => ?_⟩
    rw [hfed.same hsent, hminds]
    have hno := SsUart.not_goesOn hoff
    exact ⟨fun h => ⟨fun _ hfull => Bool.false_ne_true (h hfull), fun hc => absurd hc hno⟩,
      fun h hfull => absurd hfull (h.1 hoff)⟩
  by_cases hon : s.machine.here.GoesOn op
  · have hio := hturns.on hon
    have hminds : s'.io.minds = s.io.minds := by rw [hio]; rfl
    refine ⟨hfed.level hle, fun _ => ?_⟩
    rw [hminds]
    cases hoff' : s.io.minds with
    | true => exact iff_of_true (fun _ => rfl) ⟨fun hc => absurd hc hoff, by simp [hoff']⟩
    | false =>
      have hcount : s'.io.sent.length - s.io.sent.length = (s.io.load hw.toSsUartHw).toNat := by
        rw [hio]
        exact s.io.sent_refill hw.toSsUartHw hoff'
      rw [hfed, hcount]
      exact ⟨fun h => ⟨fun hc => absurd hc hoff, fun _ _ hfull => Bool.false_ne_true (h hfull)⟩,
        fun h hfull => absurd hfull (h.2 hon hoff')⟩
  · exact decides_fed ⟨fun hc => absurd hc hoff, fun hc => absurd hc hon⟩ hle hfed
      (hturns.else_ hoff hon)

theorem decides_line (hle : s.fifo.level ≤ hw.fifoDepth.toNat) {e : SsUartLineEvent}
    (hstep : ssUartLineStep hw s e = .ok s') : Decides hw s s' (s.Careful hw (.line e)) := by
  cases e with
  | drain =>
    cases hstep
    refine .of_minded trivial (Nat.le_trans (Nat.sub_le _ _) hle) (.inr ⟨rfl, fun hfull => ?_⟩)
    obtain ⟨hlevel, hne⟩ := hfull
    simp only at hlevel
    omega
  | drv ev drains =>
    obtain ⟨machine, hmachine, rfl⟩ := Except.exists_of_map_eq_ok hstep
    obtain ⟨op, t, rfl, ht, rfl⟩ | ⟨_, rest, waiting, t, rfl, -, ht, rfl⟩ :=
      Reentry.step_cases hmachine
    · refine decides_enter hle rfl ?_
      rw [io, Reentry.Task.above_here]
      exact turns_enter ht
    · cases ht
      refine decides_fed trivial hle rfl (.inr ?_)
      cases rest <;> exact ⟨rfl, rfl⟩

theorem decides (hle : s.fifo.level ≤ hw.fifoDepth.toNat) {e : SsUartUse} (hends : Ends hw e)
    (hstep : s.use hw e = .ok s') : Decides hw s s' (s.Careful hw e) := by
  have hcall {α : Type} {x : Except SsUartStop α} {f : α → SsUartLine}
      (h : (x.mapError Reentry.Stop.fault).map f = .ok s') : ∃ a, x = .ok a ∧ f a = s' := by
    cases x with
    | ok a => exact ⟨a, rfl, Except.ok.inj h⟩
    | error err => cases h
  cases e with
  | line e => exact decides_line hle hstep
  | opened baud msr =>
    obtain ⟨r, hr, rfl⟩ := hcall hstep
    exact decides_reset trivial hle (ssUartOpen_io hr)
  | closed =>
    obtain ⟨r, hr, rfl⟩ := hcall hstep
    exact decides_reset trivial hle (ssUartClose_io hr)
  | writes data len drains =>
    obtain ⟨dev, hdev, rfl⟩ := hcall hstep
    obtain ⟨io', hio, rfl⟩ := Except.exists_of_map_eq_ok hdev
    refine decides_fed trivial hle rfl ?_
    rw [ioUartWrite] at hio
    split at hio <;> cases hio
    exact SsUartInfo.minded_write ..
  | reads data len pLen =>
    obtain ⟨dev, hdev, rfl⟩ := hcall hstep
    obtain ⟨io', hio, rfl⟩ := Except.exists_of_map_eq_ok hdev
    refine decides_fed trivial hle rfl ?_
    rw [ioUartRead] at hio
    split at hio <;> cases hio
    exact (SsUartInfo.txKept_read { s.io with sizes := Function.update s.io.sizes pLen len } ..).minded
  | ends =>
    cases hstep
    exact .of_minded trivial hle (.inr ⟨rfl, id⟩)
  | pollWrite data len drains =>
    cases hstep
    refine ⟨FifoLevel.poll_level _ hends _ hle, fun _ => ?_⟩
    show (_ → s.io.minds = true) ↔ (s.io.minds = false → ¬ _)
    cases s.io.minds with
    | true => exact iff_of_true (fun _ => rfl) (by simp)
    | false =>
      exact ⟨fun h _ hfull => Bool.false_ne_true (h hfull), fun h hfull => absurd hfull (h rfl)⟩
  | pollRead data len rbr =>
    cases hstep
    exact .of_minded trivial hle (.inr ⟨rfl, id⟩)

end SsUartLine

instance (hw : SsUartPortHw) (level : Nat) : Decidable (SsUartLine.Full hw level) :=
  inferInstanceAs (Decidable (_ ∧ _))

instance (s : SsUart) (op : SsUartOp) : Decidable (s.TurnsOff op) := by
  unfold SsUart.TurnsOff
  rcases op with (_ | _ | _ | _ | _ | ⟨_ | _⟩ | _ | _ | _) | _ | _ <;> infer_instance

instance (s : SsUart) (op : SsUartOp) : Decidable (s.GoesOn op) := by
  unfold SsUart.GoesOn
  rcases op with _ | _ | _ <;> infer_instance

instance (hw : SsUartPortHw) (s : SsUartLine) (e : SsUartUse) :
    Decidable (SsUartLine.Ends hw e ∧ s.Careful hw e) := by
  unfold SsUartLine.Ends SsUartLine.Careful
  split <;> split <;> infer_instance

instance (hw : SsUartPortHw) (e : SsUartUse) : Decidable (SsUartLine.Ends hw e) := by
  unfold SsUartLine.Ends
  split <;> infer_instance

/-- The device is opened, and a buffer of four bytes fills the FIFO.  One byte leaves it, and another
one is written. -/
def ssUartFull : List SsUartUse :=
  [.opened 115200 0, .line (.drv (ssUartHand 0x10 4) []), .line .drain,
    .line (.drv (ssUartHand 0x20 1) [])]

/-- These steps fill the FIFO, and room for a byte is reported. -/
def SsUartRoomWrong (es : List SsUartUse) : Prop :=
  ∃ s, Runs (SsUartLine.use ssUartFour) (fun _ => SsUartLine.Ends ssUartFour)
      (.start (.installed .cleared) 0) es s ∧ s.fifo.level = 4 ∧
    ssUartTxavail 4 (uartLsr false (uartLsr5 4 4 s.io.regs.ier)) = 1

end Embarc
