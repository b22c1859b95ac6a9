/-
The transmit FIFO of the UART of the subsystem.

An interrupt comes when no more bytes are left in the FIFO than the threshold says, and the driver
then writes no more than fit above the threshold.  So it never writes to a full FIFO there.  But a
write begins by filling the whole FIFO, and the interrupt that ends the write before leaves as many
bytes in it as the threshold said then.

The FIFO is emptied at any pace, also between two bytes that the driver writes one after the other.
-/
import Embarc.Proofs.SsUartStream

namespace Embarc

open Trace (Runs)

/-! ### The FIFO -/

/-- How much is in a FIFO, and whether a byte was written when it was full. -/
structure FifoLevel where
  level : Nat
  lost : Bool
deriving DecidableEq, Repr

namespace FifoLevel

/-- `count` bytes are written.  Before each of them some may leave the FIFO, as `drains` says. -/
def burst (depth : Nat) : Nat → List Nat → FifoLevel → FifoLevel
  | 0, _, f => f
  | count + 1, drains, f =>
    let level := f.level - drains.headD 0
    burst depth count drains.tail
      (if level < depth then { f with level := level + 1 } else { level, lost := true })

/-- With room for all of them, no byte is lost. -/
theorem burst_fits {depth : Nat} (count : Nat) (drains : List Nat) {f : FifoLevel}
    (hroom : f.level + count ≤ depth) : (f.burst depth count drains).lost = f.lost := by
  induction count generalizing drains f with
  | zero => rfl
  | succ count ih =>
    have hlt : f.level - drains.headD 0 < depth := by omega
    simp only [burst, if_pos hlt]
    exact ih _ (by simp only; omega)

end FifoLevel

/-! ### The driver and the FIFO -/

structure SsUartLine where
  machine : Reentry.State SsUart SsUartRest
  fifo : FifoLevel
  /-- The threshold that the last interrupt for the transmitter came with. -/
  mark : Nat

def SsUartLine.start (dev : SsUart) (level : Nat) : SsUartLine :=
  { machine := ⟨dev, []⟩, fifo := { level, lost := false }, mark := level }

/-- The driver takes a step, or a byte leaves the FIFO. -/
inductive SsUartLineEvent where
  | drv (ev : SsUartEvent) (drains : List Nat)
  | drain

def SsUartLine.markAfter (s : SsUartLine) : SsUartEvent → Nat
  | .enter (.isr q) => if q.iir &&& 0x0f = 0x2 then s.machine.here.io.txThreshold.toNat else s.mark
  | _ => s.mark

/-- Every byte that a step writes to UART_THR goes into the FIFO. -/
def ssUartLineStep (hw : SsUartPortHw) (s : SsUartLine) :
    SsUartLineEvent → Except (Reentry.Stop SsUartStop) SsUartLine
  | .drv ev drains => (ssUartStep hw s.machine ev).map fun machine =>
    let count := machine.here.io.sent.length - s.machine.here.io.sent.length
    { machine, fifo := s.fifo.burst hw.fifoDepth.toNat count drains, mark := s.markAfter ev }
  | .drain => .ok { s with fifo := { s.fifo with level := s.fifo.level - 1 } }

namespace SsUartLine

variable {hw : SsUartPortHw} {s s' : SsUartLine}

/-- A buffer of any length is handed over outside of any callback, when the one before is through.
The interrupts come in no callback and only if they are enabled, and the one for the transmitter
when no more is left in the FIFO than the threshold says.  Thresholds are selected at any time, and
something may be received at the same time. -/
def Base (s : SsUartLine) : SsUartLineEvent → Prop
  | .drv (.enter (.control (.setTxintBuf _))) _ =>
    s.machine.waiting = [] ∧ hasFlag s.machine.here.io.regs.ier ierThrEmpty = false
  | .drv (.enter (.control (.setRxintBuf _ _))) _ => True
  | .drv (.enter (.control _)) _ => False
  | .drv (.enter (.ioctl (.setTxThreshold _))) _ => True
  | .drv (.enter (.ioctl _)) _ => False
  | .drv (.enter (.isr q)) _ =>
    s.machine.waiting = [] ∧
      (q.iir &&& 0x0f = 0x2 ∧ hasFlag s.machine.here.io.regs.ier ierThrEmpty = true ∧
          s.fifo.level ≤ s.machine.here.io.txThreshold.toNat ∨
        q.iir &&& 0x0f = 0x4 ∧ hasFlag s.machine.here.io.regs.ier ierRxAvail = true)
  | .drv (.leave _) _ => True
  | .drain => True

/-- The bytes that are written at once fit above the threshold of the interrupt that ended the
buffer before, and a threshold is not above the FIFO. -/
def Kept (hw : SsUartPortHw) (s : SsUartLine) : SsUartLineEvent → Prop
  | .drv (.enter (.control (.setTxintBuf (some b)))) _ =>
    s.mark + min b.len.toNat hw.fifoDepth.toNat ≤ hw.fifoDepth.toNat
  | .drv (.enter (.isr q)) _ =>
    q.iir &&& 0x0f = 0x2 → s.machine.here.io.txThreshold.toNat ≤ hw.fifoDepth.toNat
  | _ => True

end SsUartLine

/-- The device is open, without flow control, and an interrupt for the transmitter minds the
threshold. -/
structure SsUartInfo.Minds (s : SsUartInfo) : Prop where
  handle : s.handle = true
  flow : s.flowControl = false
  uses : hasFlag s.regs.ier ierThrEmpty = true → hasFlag s.regs.ier ierThreshold = true

namespace SsUartInfo

variable {hw : SsUartHw} {s s' : SsUartInfo}

theorem Minds.kept (h : s.Minds) (hkept : s.TxKept s') : s'.Minds := by
  refine ⟨hkept.handle.trans h.handle, hkept.flow.trans h.flow, ?_⟩
  rw [hkept.hasFlag (by decide), hkept.hasFlag (by decide)]
  exact h.uses

theorem Minds.disable (h : s.Minds) : (s.disable ierTx).Minds := by
  refine ⟨h.handle, h.flow, fun hon => ?_⟩
  have hoff : hasFlag (s.disable ierTx).regs.ier ierThrEmpty = false :=
    hasFlag_clear_of_subset (by decide)
  rw [hoff] at hon
  exact absurd hon (by simp)

theorem Minds.write (h : s.Minds) (hdepth : hw.fifoDepth ≠ 0) (data size : Word) :
    (s.write hw data size).Minds ∧ (s.write hw data size).sent.length - s.sent.length ≤
      min size.toNat hw.fifoDepth.toNat ∧
      (hasFlag (s.write hw data size).regs.ier ierThrEmpty = false →
        (s.write hw data size).sent = s.sent ∧ hasFlag s.regs.ier ierThrEmpty = false) := by
  by_cases hsize : size = 0
  · have hnone : s.write hw data size = { s with txData := data, txSize := size, txCount := 0 } := by
      have hpos : ¬ (size - 0 > 0) := by
        rw [hsize]
        decide
      simp only [SsUartInfo.write, SsUartInfo.begin, if_neg hpos, ite_self]
    rw [hnone]
    exact ⟨{ h with }, by simp, fun hoff => ⟨rfl, hoff⟩⟩
  · obtain ⟨-, -, hsent, hier⟩ := s.write_spec hw (b := ⟨data, size, 0⟩) h.flow hsize
    have hpos : hw.fifoDepth.toNat ≠ 0 := fun hc => hdepth (BitVec.eq_of_toNat_eq hc)
    obtain ⟨hhandle, hflow, -⟩ := s.write_kept hw data size
    refine ⟨⟨hhandle.trans h.handle, hflow.trans h.flow, fun _ => ?_⟩, ?_, fun hoff => ?_⟩
    · simp only at hier
      rw [hier]
      exact hasFlag_or_self _ (by decide)
    · simp only at hsent
      rw [hsent, List.length_append, List.length_take]
      omega
    · simp only at hier
      rw [hier, hasFlag_or_self _ (by decide)] at hoff
      cases hoff

theorem Minds.refill (h : s.Minds) (hon : hasFlag s.regs.ier ierThrEmpty = true) :
    (s.refill hw).Minds ∧
      (s.refill hw).sent.length - s.sent.length ≤ (hw.fifoDepth - s.txThreshold).toNat := by
  have huse : s.regs.ier &&& ierThreshold ≠ 0 := by simpa [hasFlag] using h.uses hon
  have hrefill : s.refill hw = s.put (capped (s.load hw) (hw.fifoDepth - s.txThreshold)) := by
    simp only [SsUartInfo.refill, if_pos huse]
  rw [hrefill]
  refine ⟨{ h with }, ?_⟩
  have hcapped := capped_toNat (s.load hw) (hw.fifoDepth - s.txThreshold)
  simp only [SsUartInfo.put, List.length_append, List.length_map, List.length_range]
  omega

end SsUartInfo

/-! ### Steps -/

variable {P : SsUartInfo → Prop} {s dev : SsUart} {rest : SsUartRest}

/-- A callback does not touch the device below, apart from what is done behind it. -/
theorem SsUart.dirCb_io (h : P s.io) (hrest : P (rest.run s).io) (d : Dir) :
    P (s.dirCb d rest).state.io := by
  simp only [SsUart.dirCb, SsUart.callback]
  split
  · cases rest <;> exact hrest
  · split
    · exact h
    · exact hrest

theorem SsUart.ioCb_io (h : P s.io) (hrest : P (rest.run s).io) (d : Dir) :
    P (s.ioCb d rest).state.io := by
  simp only [SsUart.ioCb]
  split
  · exact dirCb_io h hrest d
  · exact hrest

namespace SsUartLine

variable {hw : SsUartPortHw} {s s' : SsUartLine}

/-- The driver minds the threshold, no byte was lost, and with the interrupt off no more is in the
FIFO than the last one left. -/
structure Inv (s : SsUartLine) : Prop where
  minds : s.machine.here.io.Minds
  lost : s.fifo.lost = false
  low : hasFlag s.machine.here.io.regs.ier ierThrEmpty = false → s.fifo.level ≤ s.mark

/-- A device below that minds the threshold, with no more than `room` bytes written to it, and none
if it has its interrupt off. -/
structure Fed (io : SsUartInfo) (room : Nat) (io' : SsUartInfo) : Prop where
  minds : io'.Minds
  count : io'.sent.length - io.sent.length ≤ room
  off : hasFlag io'.regs.ier ierThrEmpty = false → io'.sent = io.sent

theorem fed_of_sent (io : SsUartInfo) {io' : SsUartInfo} (h : io'.Minds)
    (hsent : io'.sent = io.sent) (room : Nat) : Fed io room io' :=
  ⟨h, by rw [hsent, Nat.sub_self]; exact Nat.zero_le _, fun _ => hsent⟩

theorem fed_transmit (h : dev.io.Minds) (hon : hasFlag dev.io.regs.ier ierThrEmpty = true) :
    Fed dev.io (hw.fifoDepth - dev.io.txThreshold).toNat (uartIsrTx hw dev).state.io := by
  have hdisabled := h.disable
  unfold uartIsrTx
  split
  · split
    · exact SsUart.dirCb_io (fed_of_sent dev.io h rfl _) (fed_of_sent dev.io h rfl _) .tx
    · exact fed_of_sent dev.io hdisabled rfl _
  · split
    · have hcleared : ({ dev.io.disable ierTx with txSize := 0 } : SsUartInfo).Minds :=
        { hdisabled with }
      exact SsUart.ioCb_io (fed_of_sent dev.io hdisabled rfl _)
        (by exact fed_of_sent dev.io hcleared rfl _) .tx
    · obtain ⟨hminds, hcount⟩ := h.refill hon
      refine ⟨hminds, hcount, fun hoff => ?_⟩
      exact absurd (hon.symm.trans hoff) (by simp)

theorem txKept_receive (dev : SsUart) (rbr : Nat → Byte) :
    dev.io.TxKept (uartIsrRx hw dev rbr).state.io := by
  have hretrieve := dev.io.txKept_retrieve hw.toSsUartHw rbr
  unfold uartIsrRx
  split
  · exact SsUart.ioCb_io (.refl _) (.refl _) .rx
  · simp only
    split
    · have hend := hretrieve.trans (SsUartInfo.txKept_rxEnd _ hw.toSsUartHw)
      exact SsUart.ioCb_io hend hend .rx
    · exact hretrieve

/-- What a step writes finds room in the FIFO, and if it leaves the interrupt off, no more is in the
FIFO than the mark says. -/
theorem Inv.fed (h : s.Inv) (hdepth : hw.fifoDepth ≠ 0) {op : SsUartOp} {drains : List Nat}
    {t : SsUartTask} (hbase : s.Base (.drv (.enter op) drains))
    (hkept : s.Kept hw (.drv (.enter op) drains)) (ht : ssUartEnter hw s.machine.here op = .ok t) :
    ∃ room, Fed s.machine.here.io room t.state.io ∧
      (room = 0 ∨ s.fifo.level + room ≤ hw.fifoDepth.toNat) ∧
      (hasFlag t.state.io.regs.ier ierThrEmpty = false →
        s.fifo.level ≤ s.markAfter (.enter op)) := by
  have hminds := h.minds
  -- receiving leaves everything about sending alone
  have hreceive : ∀ io, s.machine.here.io.TxKept io → Fed s.machine.here.io 0 io ∧
      (hasFlag io.regs.ier ierThrEmpty = false → s.fifo.level ≤ s.mark) := fun io hio =>
    ⟨fed_of_sent _ (hminds.kept hio) hio.sent 0, fun hoff =>
      h.low ((hio.hasFlag (by decide)).symm.trans hoff)⟩
  cases op with
  | ioctl cmd =>
    cases cmd with
    | setTxThreshold arg =>
      simp only [ssUartEnter, SsUart.ioctl, ioUartIoctl, if_pos hminds.handle] at ht
      cases ht
      have hset : (s.machine.here.io.ioctl hw.toSsUartHw (.setTxThreshold arg)).Minds :=
        { hminds with }
      exact ⟨0, fed_of_sent s.machine.here.io hset rfl _, .inl rfl, h.low⟩
    | setCb | setLcr | setDlx | setRxThreshold | setFlowControl | other =>
      exact absurd hbase (by simp [Base])
  | isr q =>
    obtain ⟨-, ⟨hiir, hon, hlevel⟩ | ⟨hiir, hon⟩⟩ := hbase
    all_goals
      simp only [ssUartEnter, if_pos hminds.handle, uartIsrTurn, hiir] at ht
      cases ht
    · refine ⟨_, fed_transmit hminds hon, .inr ?_, fun _ => ?_⟩
      · have hthreshold := hkept hiir
        rw [BitVec.toNat_sub_of_le hthreshold]
        omega
      · simp only [markAfter, if_pos hiir]
        exact hlevel
    · obtain ⟨hfed, hlow⟩ := hreceive _ (txKept_receive _ q.rbr)
      refine ⟨0, hfed, .inl rfl, ?_⟩
      simp only [markAfter, hiir]
      exact hlow
  | control cmd =>
    obtain ⟨⟨ercd, dev⟩, hctrl, rfl⟩ := Except.exists_of_map_eq_ok ht
    cases cmd with
    | setTxintBuf buf =>
      have hwrite : ∀ data size,
          Fed s.machine.here.io (min size.toNat hw.fifoDepth.toNat)
            (s.machine.here.io.write hw.toSsUartHw data size) ∧
          (hasFlag (s.machine.here.io.write hw.toSsUartHw data size).regs.ier ierThrEmpty = false →
            s.fifo.level ≤ s.mark) := by
        intro data size
        obtain ⟨hminds', hcount, hoff⟩ := hminds.write hdepth data size
        exact ⟨⟨hminds', hcount, fun h => (hoff h).1⟩, fun hnow => h.low (hoff hnow).2⟩
      cases buf with simp only [ssUartControl, ioUartWrite, if_pos hminds.handle] at hctrl
      | none =>
        cases hctrl
        obtain ⟨hfed, hlow⟩ := hwrite 0 0
        exact ⟨_, hfed, .inl (Nat.zero_min _), hlow⟩
      | some b =>
        cases hctrl
        obtain ⟨hfed, hlow⟩ := hwrite b.buf b.len
        have hlevel := h.low hbase.2
        exact ⟨_, hfed, .inr (Nat.le_trans (Nat.add_le_add_right hlevel _) hkept), hlow⟩
    | setRxintBuf buf pLen =>
      have hread := fun data size =>
        hreceive _ (s.machine.here.io.txKept_read hw.toSsUartHw data size pLen)
      cases buf with simp only [ssUartControl, ioUartRead, if_pos hminds.handle] at hctrl
      | none =>
        cases hctrl
        exact ⟨0, (hread 0 0).1, .inl rfl, (hread 0 0).2⟩
      | some b =>
        cases hctrl
        exact ⟨0, (hread b.buf b.len).1, .inl rfl, (hread b.buf b.len).2⟩
    | setBaud | setHwfc | setDpsFormat | getAvail | setCb | setInt | other =>
      exact absurd hbase (by simp [Base])

theorem Inv.step (h : s.Inv) (hdepth : hw.fifoDepth ≠ 0) {e : SsUartLineEvent}
    (hbase : s.Base e) (hkept : s.Kept hw e) (hstep : ssUartLineStep hw s e = .ok s') : s'.Inv := by
  cases e with
  | drain =>
    cases hstep
    exact ⟨h.minds, h.lost, fun hoff => Nat.le_trans (Nat.sub_le _ _) (h.low hoff)⟩
  | drv ev drains =>
    obtain ⟨machine, hmachine, rfl⟩ := Except.exists_of_map_eq_ok hstep
    obtain ⟨op, t, rfl, ht, rfl⟩ | ⟨_, rest, waiting, t, rfl, -, ht, rfl⟩ :=
      Reentry.step_cases hmachine
    · obtain ⟨room, hfed, hroom, hlow⟩ := h.fed hdepth hbase hkept ht
      have hcount := hfed.count
      rw [← Reentry.Task.above_here t s.machine.waiting] at hfed hcount hlow
      refine ⟨hfed.minds, ?_, fun hoff => ?_⟩
      · rcases hroom with rfl | hroom
        · simp only [Nat.le_zero.mp hcount]
          exact h.lost
        · exact (FifoLevel.burst_fits _ _ (Nat.le_trans (Nat.add_le_add_left hcount _) hroom)).trans
            h.lost
      · simp only [hfed.off hoff, Nat.sub_self]
        exact hlow hoff
    · cases ht
      have hio : (rest.run s.machine.here).io.Minds ∧
          (rest.run s.machine.here).io.sent = s.machine.here.io.sent ∧
          (rest.run s.machine.here).io.regs = s.machine.here.io.regs := by
        cases rest <;> exact ⟨{ h.minds with }, rfl, rfl⟩
      refine ⟨hio.1, ?_, fun hoff => ?_⟩
      all_goals simp only [Reentry.Task.above, hio.2.1, hio.2.2, Nat.sub_self] at *
      · exact h.lost
      · exact h.low hoff

end SsUartLine

instance SsUartLine.decBase (s : SsUartLine) (e : SsUartLineEvent) : Decidable (s.Base e) := by
  unfold SsUartLine.Base
  split <;> infer_instance

instance SsUartLine.decKept (hw : SsUartPortHw) (s : SsUartLine) (e : SsUartLineEvent) :
    Decidable (s.Kept hw e) := by
  unfold SsUartLine.Kept
  split <;> infer_instance

def ssUartFour : SsUartPortHw := { ssUartSmall with fifoDepth := 4 }

/-- Four bytes are sent with the threshold at half of the FIFO: two are left when the callback is
made. -/
def ssUartHalf : List SsUartLineEvent :=
  [.drv (.enter (.ioctl (.setTxThreshold 3))) [], .drv (ssUartHand 0x10 4) [], .drain, .drain,
    .drv SsUartRun.thrEmpty [], .drv (.leave ()) []]

end Embarc
