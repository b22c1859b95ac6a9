/-
The blocking calls of the UART of the subsystem.

A call waits for its flag, which the callback at the end of its buffer clears, and which an error
overwrites.  Every interrupt for the call moves at least one byte, as long as the threshold leaves
something to be moved; so there are only so many of them.  And the interrupt that moves the next
byte is enabled until the last one has been moved.

None of this is so for a call of length zero: no interrupt is enabled for it.
-/
import Embarc.Lib.Wait
import Embarc.Proofs.SsUartStream

namespace Embarc

open Trace (Runs Ends)
open Reentry (Task)

/-- A device that is open, with the driver's own callbacks, without flow control, and with
thresholds with which an interrupt moves something in the directions `ds`. -/
structure SsUart.CallReady (hw : SsUartPortHw) (ds : Set Dir) (s : SsUart) : Prop where
  handle : s.io.handle = true
  flow : s.io.flowControl = false
  dirCb : ∀ d, s.io.cbs.get (.ofDir d) ≠ 0
  errCb : s.io.cbs.get .err ≠ 0
  txMoves : .tx ∈ ds → hw.fifoDepth ≠ 0 ∧ s.io.txThreshold ≠ hw.fifoDepth
  rxMoves : .rx ∈ ds → s.io.rxThreshold ≠ 0

/-! ### The interrupts for a call -/

def Dir.ssUartIntid : Dir → Word
  | .tx => 0x2#32
  | .rx => 0x4#32

def Dir.ssUartEnable : Dir → Word
  | .tx => ierThrEmpty
  | .rx => ierRxAvail

/-- The interrupt routine takes the interrupt for an error. -/
def SsUartIrq.failed (q : SsUartIrq) : Bool := q.iir &&& 0x0f ∉ [0x0, 0x1, 0x2, 0x4, 0x6, 0x7]

def ssUartFailed : SsUartEvent → Bool
  | .enter (.isr q) => q.failed
  | _ => false

/-- While a call waits, the interrupts of its direction come if they are enabled, and errors at any
time; the callback that an error makes returns. -/
def SsUartCallOk (d : Dir) (m : Reentry.State SsUart SsUartRest) : SsUartEvent → Prop
  | .enter (.isr q) => m.waiting = [] ∧
      (q.iir &&& 0x0f = d.ssUartIntid ∧ hasFlag m.here.io.regs.ier d.ssUartEnable = true ∨
        q.failed = true)
  | .leave _ => m.waiting ≠ []
  | _ => False

/-- The call has not seen its flag cleared, or does not get on because of an interrupt. -/
def SsUartWaits (d : Dir) (m : Reentry.State SsUart SsUartRest) : Prop :=
  m.here.waits d = true ∨ m.waiting ≠ []

variable {s : SsUart} {q : SsUartIrq} {m : Reentry.State SsUart SsUartRest} {es : List SsUartEvent}
  {d : Dir} {ds : Set Dir} {len : Word}

/-! ### Both directions -/

section Call

variable {hw : SsUartPortHw} {d : Dir} {work fin : SsUart → Prop} {left : SsUart → Nat}

/-- What is known of a call: `work` until its flag is cleared and `fin` then. -/
structure SsUartCall (hw : SsUartPortHw) (ds : Set Dir) (d : Dir) (work fin : SsUart → Prop)
    (es : List SsUartEvent) (m : Reentry.State SsUart SsUartRest) : Prop where
  ready : m.here.CallReady hw ds
  stage : es.any ssUartFailed = false ∧ m.waiting = [] ∧ m.here.flags = d.ssUartFlag ∧ work m.here ∨
    es.any ssUartFailed = false ∧ m.waiting = [] ∧ m.here.flags = 0 ∧ fin m.here ∨
    es.any ssUartFailed = true ∧ m.here.flags = ssUartFlagError ∧
      (m.waiting = [] ∨ m.waiting = [.nothing])

/-- What an interrupt for the call does: it moves something, or ends the call. -/
def SsUartMoves (hw : SsUartPortHw) (ds : Set Dir) (d : Dir) (work fin : SsUart → Prop)
    (left : SsUart → Nat) : Prop :=
  ∀ s q, s.CallReady hw ds → s.flags = d.ssUartFlag → work s → q.iir &&& 0x0f = d.ssUartIntid →
    ∃ s', uartIsrTurn hw s q = .done s' ∧ s'.CallReady hw ds ∧
      (s'.flags = d.ssUartFlag ∧ work s' ∧ left s' < left s ∨ s'.flags = 0 ∧ fin s')

theorem uartIsrTurn_failed (hs : s.CallReady hw ds) (hq : q.failed = true) :
    (uartIsrTurn hw s q = .done { s with io := s.io.writeIer 0, flags := ssUartFlagError } ∨
      uartIsrTurn hw s q = .calls { s with
        io := s.io.writeIer 0, flags := ssUartFlagError, calls := s.calls ++ [.err] } .nothing) := by
  simp only [SsUartIrq.failed, decide_eq_true_eq, List.mem_cons, List.not_mem_nil, or_false,
    not_or] at hq
  obtain ⟨h0, h1, h2, h4, h6, h7⟩ := hq
  have herr : (s.io.writeIer 0).cbs.get .err ≠ 0 := hs.errCb
  simp only [uartIsrTurn, if_neg h0, if_neg h1, if_neg h2, if_neg h4, if_neg h6, if_neg h7,
    if_pos herr, ssUartErrCb, SsUart.callback]
  split
  · exact .inr rfl
  · exact .inl rfl

theorem not_waits (d : Dir) :
    hasFlag 0 d.ssUartFlag = false ∧ hasFlag ssUartFlagError d.ssUartFlag = false ∧
      hasFlag d.ssUartFlag d.ssUartFlag = true := by
  cases d <;> decide

theorem not_ssUartWaits (hflag : hasFlag m.here.flags d.ssUartFlag = false)
    (hwaiting : m.waiting = []) : ¬ SsUartWaits d m := by
  rintro (hc | hc)
  · rw [SsUart.waits, hflag] at hc
    exact absurd hc (by simp)
  · exact hc hwaiting

theorem isr_not_failed (h : q.iir &&& 0x0f = d.ssUartIntid) : q.failed = false := by
  simp only [SsUartIrq.failed, h]
  cases d <;> decide

def Dir.ssUartIrq (d : Dir) : SsUartIrq :=
  { iir := d.ssUartIntid, msr := 0, lsr := 0, rbr := fun _ => 0 }

theorem Dir.ssUartIrq_intid (d : Dir) : d.ssUartIrq.iir &&& 0x0f = d.ssUartIntid := by
  cases d <;> rfl

/-- How much there is to do until a call gets on. -/
def ssUartLeft (d : Dir) (left : SsUart → Nat) (m : Reentry.State SsUart SsUartRest) : Nat :=
  if m.here.waits d then left m.here + 2 else m.waiting.length

theorem ssUartLeft_ended (h : hasFlag m.here.flags d.ssUartFlag = false) :
    ssUartLeft d left m = m.waiting.length := by
  simp [ssUartLeft, SsUart.waits, h]

section Lower

variable {m' : Reentry.State SsUart SsUartRest} {e : SsUartEvent}
  (h : SsUartCall hw ds d work fin es m) (hok : SsUartCallOk d m e)
  (hstep : ssUartStep hw m e = .ok m')
include h hok hstep

/-- The error callback returns. -/
theorem SsUartCall.lower_error (hfailed : es.any ssUartFailed = true)
    (hflags : m.here.flags = ssUartFlagError) (hwaiting : m.waiting = [.nothing]) :
    SsUartCall hw ds d work fin (es ++ [e]) m' ∧ ssUartLeft d left m' < ssUartLeft d left m := by
  have hnot : hasFlag m.here.flags d.ssUartFlag = false := by rw [hflags, (not_waits d).2.1]
  obtain ⟨op, t, rfl, ht, rfl⟩ | ⟨_, rest, waiting, t, rfl, hwaiting', ht, rfl⟩ :=
    Reentry.step_cases hstep
  · cases op with
    | control | ioctl => exact absurd hok id
    | isr q =>
      rw [SsUartCallOk, hwaiting] at hok
      exact absurd hok.1 (by simp)
  · rw [hwaiting] at hwaiting'
    cases hwaiting'
    cases ht
    refine ⟨⟨h.ready, .inr (.inr ⟨by simp [hfailed], hflags, .inl rfl⟩)⟩, ?_⟩
    rw [ssUartLeft_ended hnot, ssUartLeft_ended (by exact hnot), hwaiting]
    exact Nat.zero_lt_one

theorem SsUartCall.lower (hmoves : SsUartMoves hw ds d work fin left)
    (hwaits : SsUartWaits d m) :
    SsUartCall hw ds d work fin (es ++ [e]) m' ∧ ssUartLeft d left m' < ssUartLeft d left m := by
  obtain ⟨hzero, herror, hself⟩ := not_waits d
  rcases h.stage with ⟨hnone, hwaiting, hflags, hwork⟩ | ⟨-, hwaiting, hflags, -⟩ |
    ⟨hfailed, hflags, hwaiting⟩
  · have hhere : ssUartLeft d left m = left m.here + 2 := by
      simp [ssUartLeft, SsUart.waits, hflags, hself]
    obtain ⟨op, t, rfl, ht, rfl⟩ | ⟨_, rest, waiting, t, rfl, hwaiting', -, rfl⟩ :=
      Reentry.step_cases hstep
    · cases op with
      | control | ioctl => exact absurd hok id
      | isr q =>
        simp only [ssUartEnter, if_pos h.ready.handle] at ht
        cases ht
        rw [hhere, hwaiting]
        obtain ⟨-, ⟨hiir, -⟩ | hq⟩ := hok
        · have hany : (es ++ [Reentry.Event.enter (SsUartOp.isr q)]).any ssUartFailed = false := by
            simp [hnone, ssUartFailed, isr_not_failed hiir]
          obtain ⟨s', hturn, hready, ⟨hflags', hwork', hless⟩ | ⟨hflags', hfin⟩⟩ :=
            hmoves m.here q h.ready hflags hwork hiir
          all_goals rw [hturn]
          · refine ⟨⟨hready, .inl ⟨hany, rfl, hflags', hwork'⟩⟩, ?_⟩
            simp only [Task.above, ssUartLeft, SsUart.waits, hflags', hself, if_true]
            omega
          · refine ⟨⟨hready, .inr (.inl ⟨hany, rfl, hflags', hfin⟩)⟩, ?_⟩
            rw [ssUartLeft_ended (by rw [← hzero, ← hflags']; rfl)]
            exact Nat.succ_pos _
        · have hany : (es ++ [Reentry.Event.enter (SsUartOp.isr q)]).any ssUartFailed = true := by
            simp [ssUartFailed, hq]
          have hready := h.ready
          rcases uartIsrTurn_failed h.ready hq with hturn | hturn
          all_goals
            rw [hturn]
            refine ⟨⟨{ hready with }, .inr (.inr ⟨hany, rfl, ?_⟩)⟩, ?_⟩
          · exact .inl rfl
          · rw [ssUartLeft_ended herror]
            exact Nat.succ_pos _
          · exact .inr rfl
          · rw [ssUartLeft_ended herror]
            show 1 < _
            omega
    · rw [hwaiting] at hwaiting'
      exact absurd hwaiting' (by simp)
  · exact absurd hwaits (not_ssUartWaits (by rw [hflags]; exact hzero) hwaiting)
  · obtain hwaiting | hwaiting := hwaiting
    · exact absurd hwaits (not_ssUartWaits (by rw [hflags, herror]) hwaiting)
    · exact h.lower_error hok hstep hfailed hflags hwaiting

end Lower

/-- A call that moves something at every interrupt, and has its interrupt enabled, ends. -/
theorem SsUartMoves.ends (hmoves : SsUartMoves hw ds d work fin left)
    (hon : ∀ s, work s → hasFlag s.io.regs.ier d.ssUartEnable = true) (hs : s.CallReady hw ds)
    (hflags : s.flags = d.ssUartFlag) (hwork : work s) :
    Ends (ssUartStep hw) (SsUartCallOk d) (SsUartWaits d) ⟨s, []⟩ fun es m =>
      m.here.CallReady hw ds ∧ (es.any ssUartFailed = false ∧ m.here.flags = 0 ∧ fin m.here ∨
        es.any ssUartFailed = true ∧ m.here.flags = ssUartFlagError) := by
  obtain ⟨hzero, herror, hself⟩ := not_waits d
  refine Ends.of_measure (I := SsUartCall hw ds d work fin) (ssUartLeft d left)
    (fun es m e m' h hwaits hok hstep => h.lower hok hstep hmoves hwaits) ?_ ?_
    ⟨hs, .inl ⟨rfl, rfl, hflags, hwork⟩⟩
  · intro es m h hwaits
    rcases h.stage with ⟨-, hwaiting, -, hwork⟩ | ⟨-, hwaiting, hflags, -⟩ |
      ⟨-, hflags, hwaiting | hwaiting⟩
    · have hserved : ssUartStep hw m (.enter (.isr d.ssUartIrq)) =
          .ok ((uartIsrTurn hw m.here d.ssUartIrq).above m.waiting) := by
        simp only [Reentry.step, ssUartEnter, if_pos h.ready.handle]
      exact ⟨.enter (.isr d.ssUartIrq), _, ⟨hwaiting, .inl ⟨d.ssUartIrq_intid, hon _ hwork⟩⟩,
        hserved⟩
    · exact absurd hwaits (not_ssUartWaits (by rw [hflags]; exact hzero) hwaiting)
    · exact absurd hwaits (not_ssUartWaits (by rw [hflags]; exact herror) hwaiting)
    · refine ⟨.leave (), ⟨m.here, []⟩, by simp [SsUartCallOk, hwaiting], ?_⟩
      simp only [Reentry.step, hwaiting]
      rfl
  · intro es m h hends
    have hnot := (not_or.mp hends).1
    rcases h.stage with ⟨-, -, hflags, -⟩ | ⟨hnone, -, hflags, hfin⟩ | ⟨hfailed, hflags, -⟩
    · exact absurd (by rw [SsUart.waits, hflags, hself]) hnot
    · exact ⟨h.ready, .inl ⟨hnone, hflags, hfin⟩⟩
    · exact ⟨h.ready, .inr ⟨hfailed, hflags⟩⟩

end Call

/-! ### Writing -/

variable {hw : SsUartPortHw}

/-- The interrupt that finds a buffer through clears the flag of the call. -/
theorem dirCb_waits (hflags : s.flags = d.ssUartFlag) (rest : SsUartRest) :
    s.dirCb d rest = .done (rest.run { s with flags := 0 }) := by
  have hcleared : s.flags &&& ~~~d.ssUartFlag = 0 := by
    rw [hflags]
    cases d <;> rfl
  have hflag : hasFlag s.flags d.ssUartFlag = true := by
    rw [hflags]
    exact (not_waits d).2.2
  rw [SsUart.dirCb, if_pos hflag, hcleared]

theorem ioCb_waits (hcb : s.io.cbs.get (.ofDir d) ≠ 0) (hflags : s.flags = d.ssUartFlag)
    (rest : SsUartRest) : s.ioCb d rest = .done (rest.run { s with flags := 0 }) := by
  rw [SsUart.ioCb, if_pos hcb, dirCb_waits hflags]

structure SsUart.Writes (b : DevBuffer) (s : SsUart) : Prop where
  empties : s.io.Empties b
  on : hasFlag s.io.regs.ier ierThrEmpty = true
  uses : hasFlag s.io.regs.ier ierThreshold = true

theorem ssUartTx_moves {b : DevBuffer} (hd : .tx ∈ ds) (hbuf : b.buf ≠ 0) :
    SsUartMoves hw ds .tx (SsUart.Writes b) (fun _ => True)
      fun s => (s.io.txSize - s.io.txCount).toNat := by
  intro s q hs hflags hwork hiir
  obtain ⟨hfifo, hne⟩ := hs.txMoves hd
  have hturn : uartIsrTurn hw s q = uartIsrTx hw s := by
    simp only [uartIsrTurn, hiir]
    rfl
  have hdata : ¬ s.io.txData = 0 := by
    rw [hwork.empties.data]
    exact hbuf
  rw [hturn, uartIsrTx, if_neg hdata]
  split_ifs with hcount
  · exact ⟨_, ioCb_waits (by exact hs.dirCb .tx) (by exact hflags) .txEnd,
    { hs with }, .inr ⟨rfl, trivial⟩⟩
  · obtain ⟨cnt, hrefill, hcnt⟩ := hwork.empties.refill hw.toSsUartHw hfifo hwork.uses
    have hle := hwork.empties.count_le
    have hlt : s.io.txCount.toNat < b.len.toNat := by
      refine Nat.lt_of_le_of_ne hle fun hc => hcount ?_
      rw [hwork.empties.size]
      exact BitVec.eq_of_toNat_eq hc
    have hdepth : 0 < hw.fifoDepth.toNat :=
      Nat.pos_of_ne_zero fun hc => hfifo (BitVec.eq_of_toNat_eq hc)
    have hfree : 0 < (hw.fifoDepth - s.io.txThreshold).toNat := by bv_omega
    obtain ⟨hempties, hcount', -⟩ := hwork.empties.put cnt (by omega)
    refine ⟨_, rfl, ?_, .inl ⟨hflags, ?_, ?_⟩⟩
    · rw [hrefill]
      exact { hs with }
    · rw [hrefill]
      exact ⟨hempties, hwork.on, hwork.uses⟩
    · simp only [hrefill]
      rw [hempties.left, hwork.empties.left, hcount']
      omega

/-! ### Reading -/

/-- A read in progress, with the length of the call in its variable. -/
structure SsUart.Reads (len pLen : Word) (s : SsUart) : Prop where
  data : s.io.rxData ≠ 0
  size : s.io.rxSize = len
  count_lt : s.io.rxCount.toNat < len.toNat
  told : s.io.sizes pLen = len
  on : hasFlag s.io.regs.ier ierRxAvail = true

namespace SsUartInfo

variable {hw : SsUartHw} {s : SsUartInfo}

/-- Receiving leaves alone what a call depends on. -/
structure RxKept (s s' : SsUartInfo) : Prop where
  handle : s'.handle = s.handle
  flow : s'.flowControl = s.flowControl
  cbs : s'.cbs = s.cbs
  txThreshold : s'.txThreshold = s.txThreshold
  rxThreshold : s'.rxThreshold = s.rxThreshold
  data : s'.rxData = s.rxData
  size : s'.rxSize = s.rxSize
  sizes : s'.sizes = s.sizes

theorem retrieve_spec (hw : SsUartHw) (rbr : Nat → Byte) (hmoves : s.rxThreshold ≠ 0)
    (hcount : s.rxCount.toNat < s.rxSize.toNat) :
    s.RxKept (s.retrieve hw rbr) ∧ (s.retrieve hw rbr).regs.ier = s.regs.ier ∧
      s.rxCount.toNat < (s.retrieve hw rbr).rxCount.toNat ∧
      (s.retrieve hw rbr).rxCount.toNat ≤ s.rxSize.toNat := by
  have hget : ∀ cnt : Word, cnt ≠ 0 → cnt.toNat ≤ (s.rxSize - s.rxCount).toNat →
      s.RxKept (s.get rbr cnt) ∧ (s.get rbr cnt).regs.ier = s.regs.ier ∧
        s.rxCount.toNat < (s.get rbr cnt).rxCount.toNat ∧
        (s.get rbr cnt).rxCount.toNat ≤ s.rxSize.toNat := by
    intro cnt hne hle
    refine ⟨⟨rfl, rfl, rfl, rfl, rfl, rfl, rfl, rfl⟩, rfl, ?_⟩
    show s.rxCount.toNat < (s.rxCount + cnt).toNat ∧ (s.rxCount + cnt).toNat ≤ s.rxSize.toNat
    bv_omega
  have hone : (1 : Word).toNat ≤ (s.rxSize - s.rxCount).toNat := by
    show 1 ≤ _
    bv_omega
  simp only [SsUartInfo.retrieve]
  split
  · exact hget 1 (by decide) hone
  · split
    · exact hget 1 (by decide) hone
    case isFalse hle =>
      obtain ⟨hkept, hier, hcount'⟩ := hget s.rxThreshold hmoves (Nat.le_of_not_lt hle)
      split
      · exact ⟨{ hkept with }, hier, hcount'⟩
      · exact ⟨hkept, hier, hcount'⟩

theorem rxKept_rxEnd (hw : SsUartHw) (s : SsUartInfo) : s.RxKept (s.rxEnd hw) := by
  simp only [SsUartInfo.rxEnd]
  split <;> exact ⟨rfl, rfl, rfl, rfl, rfl, rfl, rfl, rfl⟩

end SsUartInfo

theorem SsUart.CallReady.kept (hs : s.CallReady hw ds) {io : SsUartInfo} (hkept : s.io.RxKept io)
    (flags : Word) : { s with io, flags }.CallReady hw ds := by
  refine ⟨hkept.handle.trans hs.handle, hkept.flow.trans hs.flow, ?_, ?_, ?_, ?_⟩
  · intro d
    show io.cbs.get _ ≠ 0
    rw [hkept.cbs]
    exact hs.dirCb d
  · show io.cbs.get _ ≠ 0
    rw [hkept.cbs]
    exact hs.errCb
  · show _ → _ ∧ io.txThreshold ≠ _
    rw [hkept.txThreshold]
    exact hs.txMoves
  · show _ → io.rxThreshold ≠ _
    rw [hkept.rxThreshold]
    exact hs.rxMoves

theorem ssUartRx_moves (hd : .rx ∈ ds) {pLen : Word} :
    SsUartMoves hw ds .rx (SsUart.Reads len pLen) (fun s => s.io.sizes pLen = len)
      fun s => (s.io.rxSize - s.io.rxCount).toNat := by
  intro s q hs hflags hwork hiir
  have hturn : uartIsrTurn hw s q = uartIsrRx hw s q.rbr := by
    simp only [uartIsrTurn, hiir]
    rfl
  have hlt : s.io.rxCount.toNat < s.io.rxSize.toNat := by
    rw [hwork.size]
    exact hwork.count_lt
  obtain ⟨hkept, hier, hmore, hle⟩ :=
    SsUartInfo.retrieve_spec hw.toSsUartHw q.rbr (hs.rxMoves hd) hlt
  rw [hturn, uartIsrRx, if_neg hwork.data]
  by_cases hcount : (s.io.retrieve hw.toSsUartHw q.rbr).rxCount =
      (s.io.retrieve hw.toSsUartHw q.rbr).rxSize
  · rw [if_pos hcount]
    have hend := SsUartInfo.rxKept_rxEnd hw.toSsUartHw (s.io.retrieve hw.toSsUartHw q.rbr)
    have hready := (hs.kept hkept s.flags).kept hend 0
    refine ⟨_, ioCb_waits (by exact (hs.kept hkept s.flags |>.kept hend s.flags).dirCb .rx)
      (by exact hflags) .nothing, hready, .inr ⟨rfl, ?_⟩⟩
    show ((s.io.retrieve hw.toSsUartHw q.rbr).rxEnd hw.toSsUartHw).sizes pLen = len
    rw [hend.sizes, hkept.sizes, hwork.told]
  · rw [if_neg hcount]
    refine ⟨_, rfl, hs.kept hkept s.flags, .inl ⟨hflags, ⟨?_, ?_, ?_, ?_, ?_⟩, ?_⟩⟩
    · show (s.io.retrieve hw.toSsUartHw q.rbr).rxData ≠ 0
      rw [hkept.data]
      exact hwork.data
    · exact hkept.size.trans hwork.size
    · refine Nat.lt_of_le_of_ne (hwork.size ▸ hle) fun hc => hcount ?_
      rw [hkept.size, hwork.size]
      exact BitVec.eq_of_toNat_eq hc
    · show (s.io.retrieve hw.toSsUartHw q.rbr).sizes pLen = len
      rw [hkept.sizes, hwork.told]
    · show hasFlag (s.io.retrieve hw.toSsUartHw q.rbr).regs.ier ierRxAvail = true
      rw [hier, hwork.on]
    · show ((s.io.retrieve hw.toSsUartHw q.rbr).rxSize -
        (s.io.retrieve hw.toSsUartHw q.rbr).rxCount).toNat < (s.io.rxSize - s.io.rxCount).toNat
      rw [hkept.size]
      bv_omega

/-! ### The calls -/

/-- What a call returns: its length, or an error if one was reported.  The device is then ready for
the next call. -/
def SsUartReturned (hw : SsUartPortHw) (ds : Set Dir) (len : Word) (es : List SsUartEvent)
    (r : Int × SsUart) : Prop :=
  r.1 = (if es.any ssUartFailed then eSys else len.toInt) ∧ r.2.flags = 0 ∧ r.2.CallReady hw ds

/-- A call that begins with `start` and ends with `ends` waits, and returns in the end. -/
def SsUartCallReturns (hw : SsUartPortHw) (ds : Set Dir) (d : Dir) (len : Word)
    (start : Except SsUartStop SsUart) (ends : SsUart → Int × SsUart) : Prop :=
  ∃ s, start = .ok s ∧ Ends (ssUartStep hw) (SsUartCallOk d) (SsUartWaits d) ⟨s, []⟩
    fun es m => SsUartReturned hw ds len es (ends m.here)

theorem ssUartReturned_of {told : Word} (hs : s.CallReady hw ds)
    (h : es.any ssUartFailed = false ∧ s.flags = 0 ∧ told = len ∨
      es.any ssUartFailed = true ∧ s.flags = ssUartFlagError) :
    SsUartReturned hw ds len es (ssUartEnd s told) := by
  refine ⟨?_, rfl, { hs with }⟩
  rcases h with ⟨hnone, hflags, rfl⟩ | ⟨hfailed, hflags⟩
  · rw [hnone, ssUartEnd, hflags]
    rfl
  · rw [hfailed, ssUartEnd, hflags, if_pos rfl]
    rfl

theorem ssUartWrite_returns (hs : s.CallReady hw ds) (hd : .tx ∈ ds) {data : Word} (hdata : data ≠ 0)
    (hlen : len ≠ 0) :
    SsUartCallReturns hw ds .tx len (ssUartWriteStart hw s data len) fun s => ssUartEnd s len := by
  obtain ⟨hempties, -, -, hier⟩ :=
    s.io.write_spec hw.toSsUartHw (b := { buf := data, len, ofs := 0 }) hs.flow hlen
  obtain ⟨hhandle, hflow, hthreshold, -, hcbs⟩ := s.io.write_kept hw.toSsUartHw data len
  have hrx : (s.io.write hw.toSsUartHw data len).rxThreshold = s.io.rxThreshold := by
    rw [SsUartInfo.write_eq (b := { buf := data, len, ofs := 0 }) hs.flow hlen]
    rfl
  have hon : ∀ f : Word, hasFlag ierTx f = true →
      hasFlag (s.io.write hw.toSsUartHw data len).regs.ier f = true := by
    intro f hf
    rw [hier]
    exact hasFlag_or_self _ hf
  have hready : SsUart.CallReady hw ds
      { s with flags := ssUartFlagTx, io := s.io.write hw.toSsUartHw data len } := by
    refine ⟨hhandle.trans hs.handle, hflow.trans hs.flow, fun d => ?_, ?_, ?_, ?_⟩
    · exact hcbs ▸ hs.dirCb d
    · exact hcbs ▸ hs.errCb
    · exact hthreshold ▸ hs.txMoves
    · exact hrx ▸ hs.rxMoves
  refine ⟨{ s with flags := ssUartFlagTx, io := s.io.write hw.toSsUartHw data len }, ?_, ?_⟩
  · simp only [ssUartWriteStart, ioUartWrite, if_pos hs.handle]
    rfl
  · refine ((ssUartTx_moves hd hdata).ends (fun s hwork => hwork.on) hready rfl
      ⟨hempties, hon _ (by decide), hon _ (by decide)⟩).mono ?_
    rintro es m ⟨hready, ⟨hnone, hflags, -⟩ | hfailed⟩
    · exact ssUartReturned_of hready (.inl ⟨hnone, hflags, rfl⟩)
    · exact ssUartReturned_of hready (.inr hfailed)

theorem SsUartInfo.read_spec (hw : SsUartHw) (s : SsUartInfo) (data : Word) (pSize : Word)
    (hlen : len ≠ 0) :
    SsUartInfo.RxKept { s with rxData := data, rxSize := len } (s.read hw data len pSize) ∧
      (s.read hw data len pSize).rxCount = 0 ∧
      (s.read hw data len pSize).regs.ier = s.regs.ier ||| ierRx := by
  have hpos : len > 0 := Nat.pos_of_ne_zero fun hc => hlen (BitVec.eq_of_toNat_eq hc)
  simp only [SsUartInfo.read, if_pos hpos]
  split <;> exact ⟨⟨rfl, rfl, rfl, rfl, rfl, rfl, rfl, rfl⟩, rfl, rfl⟩

theorem ssUartRead_returns (hs : s.CallReady hw ds) (hd : .rx ∈ ds) {data : Word} (pLen : Word)
    (hdata : data ≠ 0) (hlen : len ≠ 0) :
    SsUartCallReturns hw ds .rx len (ssUartReadStart hw s data len pLen) (ssUartReadEnd · pLen) := by
  obtain ⟨io, hio⟩ : ∃ io : SsUartInfo, io =
    { s.io with sizes := Function.update s.io.sizes pLen len } := ⟨_, rfl⟩
  obtain ⟨hkept, hcount, hier⟩ := io.read_spec hw.toSsUartHw data pLen hlen
  have hhandle : io.handle = true := by
    rw [hio]
    exact hs.handle
  have hready : SsUart.CallReady hw ds { s with io := { io with rxData := data, rxSize := len } } := by
    rw [hio]
    exact { hs with }
  refine ⟨{ s with flags := ssUartFlagRx, io := io.read hw.toSsUartHw data len pLen }, ?_, ?_⟩
  · rw [ssUartReadStart, ← hio, ioUartRead, if_pos hhandle]
    rfl
  · refine ((ssUartRx_moves hd).ends (fun s hwork => hwork.on) (hready.kept hkept ssUartFlagRx) rfl
      (⟨?_, hkept.size, ?_, ?_, ?_⟩ : SsUart.Reads len pLen _)).mono ?_
    · show (io.read hw.toSsUartHw data len pLen).rxData ≠ 0
      rw [hkept.data]
      exact hdata
    · show (io.read hw.toSsUartHw data len pLen).rxCount.toNat < len.toNat
      rw [hcount]
      exact Nat.pos_of_ne_zero fun hc => hlen (BitVec.eq_of_toNat_eq hc)
    · show (io.read hw.toSsUartHw data len pLen).sizes pLen = len
      rw [hkept.sizes, hio]
      exact Function.update_self _ _ _
    · show hasFlag (io.read hw.toSsUartHw data len pLen).regs.ier ierRxAvail = true
      rw [hier]
      exact hasFlag_or_self _ (by decide)
    · rintro es m ⟨hready, ⟨hnone, hflags, htold⟩ | hfailed⟩
      · exact ssUartReturned_of hready (.inl ⟨hnone, hflags, htold⟩)
      · exact ssUartReturned_of hready (.inr hfailed)

end Embarc
