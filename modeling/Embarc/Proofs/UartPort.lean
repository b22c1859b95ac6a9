/-
The divisor latch and the recorded baud rate of the UART.

While the device is open the window shows the data and interrupt enable registers, so a baud
update, which opens the window and closes it again, leaves the interrupt enable register alone.
Most calls leave latch, window and baud rate as they are (`UartPort.Steady`).  Opening and
`UART_CMD_SET_BAUD` write both the latch and the baud rate.  Enabling a disabled device writes the
baud rate itself into the latch where its divisor is meant, so it keeps the two in agreement only
if they happen to be the same number.
-/
import Embarc.DesignWare.UartPort

namespace Embarc

/-- The latch holds the divisor of the recorded baud rate. -/
def UartPort.BaudOk (hw : UartHw) (p : UartPort) : Prop :=
  p.dev.status &&& devEnabled ≠ 0 →
    p.divisor = (dwUartBaud2Div hw.dwApbBusFreq p.baudrate).setWidth 16

/-- The commands that update the divisor latch leave the interrupt enable register alone. -/
def UartOp.KeepsIer (hw : UartHw) (env : Word → UartPort → UartPort) (p : UartPort)
    (op : UartOp) : Prop :=
  (∃ val, op = .control (.setBaud val)) ∨ op = .control .enaDev ∨ op = .control .disDev →
    ∀ p', uartStep hw env p op = .ok p' → p'.dev.ier = p.dev.ier

/-- A device that is open and disabled is enabled only if its baud rate and its divisor have the
same low 16 bits. -/
def UartOp.EnablesOk (hw : UartHw) (p : UartPort) : UartOp → Prop
  | .control .enaDev =>
    p.dev.opnCnt ≠ 0 → p.dev.status &&& devEnabled = 0 →
      p.baudrate.setWidth 16 = (dwUartBaud2Div hw.dwApbBusFreq p.baudrate).setWidth 16
  | _ => True

/-! ### A baud update -/

/-- The two bytes of the latch make up the low half of the divisor. -/
theorem divisor_bytes (d : Word) :
    (d >>> 8 &&& 0xff).setWidth 8 ++ (d &&& 0xff).setWidth 8 = d.setWidth 16 := by
  have hmask : (0xff : Word).setWidth 8 = BitVec.allOnes 8 := by decide
  rw [BitVec.setWidth_and, BitVec.setWidth_and, hmask, BitVec.and_allOnes, BitVec.and_allOnes]
  ext i hi
  grind

namespace UartPort

theorem dlab_writeLcr_or (p : UartPort) (x : Word) :
    (p.writeLcr (x ||| dwUartLcrDlab)).dlab = true := by
  have hself : hasFlag dwUartLcrDlab dwUartLcrDlab = true := by decide
  simp [dlab, writeLcr, hasFlag_or, hself]

theorem dlab_writeLcr_clear (p : UartPort) (x : Word) :
    (p.writeLcr (x &&& ~~~dwUartLcrDlab)).dlab = false := by
  simp [dlab, writeLcr, hasFlag, Field.clear_get_self]

end UartPort

theorem dwUartSetBaud_eq (p : UartPort) (d : Word) :
    dwUartSetBaud p d =
      { p with regs := { p.regs with
          lcr := (p.regs.lcr ||| dwUartLcrDlab) &&& ~~~dwUartLcrDlab
          dll := (d &&& 0xff).setWidth 8
          dlh := (d >>> 8 &&& 0xff).setWidth 8 } } := by
  have hopen := p.dlab_writeLcr_or p.regs.lcr
  have hstill : ({ p.writeLcr (p.regs.lcr ||| dwUartLcrDlab) with
      regs := { (p.writeLcr (p.regs.lcr ||| dwUartLcrDlab)).regs with
        dll := (d &&& 0xff).setWidth 8 } } : UartPort).dlab = true := hopen
  simp only [dwUartSetBaud, UartPort.writeData, hopen, if_true, UartPort.writeIer, hstill]
  rfl

section
variable (p : UartPort) (d : Word)

@[simp] theorem dwUartSetBaud_dev : (dwUartSetBaud p d).dev = p.dev := by
  rw [dwUartSetBaud_eq]

@[simp] theorem dwUartSetBaud_baudrate :
    (dwUartSetBaud p d).baudrate = p.baudrate := by
  rw [dwUartSetBaud_eq]

@[simp] theorem dwUartSetBaud_irq : (dwUartSetBaud p d).irq = p.irq := by
  rw [dwUartSetBaud_eq]

@[simp] theorem dwUartSetBaud_divisor :
    (dwUartSetBaud p d).divisor = d.setWidth 16 := by
  rw [dwUartSetBaud_eq, ← divisor_bytes]
  rfl

@[simp] theorem dwUartSetBaud_dlab :
    (dwUartSetBaud p d).dlab = false := by
  rw [dwUartSetBaud_eq]
  exact p.dlab_writeLcr_clear _

end

/-! ### What leaves the settings alone -/

def uartSources : Word := 0x3#32

namespace UartPort

/-- Open count, window, latch, baud rate and enable flag are what they were, and no interrupt of
another kind has been enabled. -/
structure Steady (hw : UartHw) (p p' : UartPort) : Prop where
  opnCnt : p'.dev.opnCnt = p.dev.opnCnt
  dlab : p'.dlab = p.dlab
  divisor : p'.divisor = p.divisor
  baudrate : p'.baudrate = p.baudrate
  enabled : p'.dev.status &&& devEnabled = p.dev.status &&& devEnabled
  sources : p.dev.ier &&& ~~~uartSources = 0 → p'.dev.ier &&& ~~~uartSources = 0
  irq : hw.hasIntno = false → p.irq = false → p'.irq = false

variable {hw : UartHw} {p p' p'' : UartPort}

theorem enabled_or_abrt (status : Word) (d : Dir) :
    (status ||| d.abrt) &&& devEnabled = status &&& devEnabled :=
  Field.or_get_of_disjoint (by cases d <;> decide)

theorem enabled_clear_abrt (status : Word) (d : Dir) :
    status &&& ~~~d.abrt &&& devEnabled = status &&& devEnabled :=
  Field.clear_get_of_disjoint (by cases d <;> decide)

theorem sources_set {x : Word} (h : x &&& ~~~uartSources = 0) (d : Dir) :
    (x ||| d.uartIer) &&& ~~~uartSources = 0 := by
  rw [Field.or_get_of_disjoint (by cases d <;> decide)]
  exact h

namespace Steady

theorem refl (p : UartPort) : Steady hw p p :=
  ⟨rfl, rfl, rfl, rfl, rfl, id, fun _ => id⟩

theorem trans (h : Steady hw p p') (h' : Steady hw p' p'') : Steady hw p p'' where
  opnCnt := h'.opnCnt.trans h.opnCnt
  dlab := h'.dlab.trans h.dlab
  divisor := h'.divisor.trans h.divisor
  baudrate := h'.baudrate.trans h.baudrate
  enabled := h'.enabled.trans h.enabled
  sources := h'.sources ∘ h.sources
  irq := fun hno => h'.irq hno ∘ h.irq hno

theorem of_dev {dev : UartDev} {irq : Bool} (hcnt : dev.opnCnt = p.dev.opnCnt)
    (hstatus : dev.status &&& devEnabled = p.dev.status &&& devEnabled)
    (hier : p.dev.ier &&& ~~~uartSources = 0 → dev.ier &&& ~~~uartSources = 0)
    (hirq : hw.hasIntno = false → p.irq = false → irq = false) :
    Steady hw p { p with dev, irq } :=
  ⟨hcnt, rfl, rfl, rfl, hstatus, hier, hirq⟩

theorem withStatus {status : Word} (h : status &&& devEnabled = p.dev.status &&& devEnabled) :
    Steady hw p (p.withStatus status) :=
  .of_dev rfl h id fun _ => id

theorem disCbr (h : p.dlab = false) (d : Dir) : Steady hw p (p.disCbr hw d) := by
  have hier : Steady hw p (p.writeIer (p.readIer &&& ~~~d.uartIer)) := by
    simp only [writeIer, readIer, h, Bool.false_eq_true, if_false]
    exact .of_dev rfl rfl (fun hs => Field.clear_within hs _) fun _ => id
  have hint : ∀ q : UartPort, Steady hw q { q with dev := q.dev.withInt d false } := by
    intro q
    cases d <;> exact .of_dev rfl rfl id fun _ => id
  exact (hier.trans (hint _)).trans
    (of_ite (.of_dev rfl rfl id fun _ hirq => by rw [hirq, Bool.false_and]) (.refl _))

theorem enaCbr (h : p.dlab = false) (d : Dir) : Steady hw p (p.enaCbr hw d) := by
  have hint : Steady hw p { p with dev := p.dev.withInt d true } := by
    cases d <;> exact .of_dev rfl rfl id fun _ => id
  have hier : Steady hw p (({ p with dev := p.dev.withInt d true } : UartPort).writeIer
      (({ p with dev := p.dev.withInt d true } : UartPort).readIer ||| d.uartIer)) := by
    refine hint.trans ?_
    have hw' : ({ p with dev := p.dev.withInt d true } : UartPort).dlab = false := h
    simp only [writeIer, readIer, hw', Bool.false_eq_true, if_false]
    exact .of_dev rfl rfl (fun hs => sources_set hs _) fun _ => id
  exact hier.trans (of_ite (.of_dev rfl rfl id fun hno hirq => by simp [hno, hirq]) (.refl _))

theorem call (d : Dir) : Steady hw p (p.call d) :=
  of_ite ⟨rfl, rfl, rfl, rfl, rfl, id, fun _ => id⟩ (.refl p)

theorem abortBegin (h : p.dlab = false) (d : Dir) :
    Steady hw p (dwUartAbortBegin hw p d) :=
  ((disCbr h d).trans (.withStatus (enabled_or_abrt _ d))).trans (.call d)

theorem abortEnd (d : Dir) : Steady hw p (dwUartAbortEnd p d) :=
  .withStatus (enabled_clear_abrt _ d)

end Steady

end UartPort

variable {p : UartPort} {hw : UartHw} {baud : Word} {ercd : Int} {cmd : UartCtrl}
  {answer : DevAnswer} {op : UartOp}

theorem dwUartFlushOutput_eq (h : p.dlab = false) :
    ∃ sent txBuf, dwUartFlushOutput p = { p with sent, dev := { p.dev with txBuf } } := by
  have hsend : ∀ (chars : List Byte) (q : UartPort), q.dlab = false →
      ∃ sent, chars.foldl (fun q c => q.writeData (c.signExtend 32)) q = { q with sent } := by
    intro chars
    induction chars with
    | nil => exact fun q _ => ⟨q.sent, rfl⟩
    | cons c chars ih =>
      intro q hq
      have hone : q.writeData (c.signExtend 32) =
          { q with sent := q.sent ++ [(c.signExtend 32).setWidth 8] } := by
        simp only [UartPort.writeData, hq, Bool.false_eq_true, if_false]
      rw [List.foldl_cons, hone]
      exact ih { q with sent := q.sent ++ [(c.signExtend 32).setWidth 8] } hq
  simp only [dwUartFlushOutput]
  split
  · obtain ⟨sent, heq⟩ := hsend _ p h
    rw [heq]
    exact ⟨sent, .cleared, rfl⟩
  · exact ⟨p.sent, p.dev.txBuf, rfl⟩

theorem UartPort.Steady.flushOutput (h : p.dlab = false) : Steady hw p (dwUartFlushOutput p) := by
  obtain ⟨sent, txBuf, heq⟩ := dwUartFlushOutput_eq h
  rw [heq]
  exact ⟨rfl, rfl, rfl, rfl, rfl, id, fun _ => id⟩

/-! ### The interrupt routine -/

/-- The transfers of the interrupt routine keep open count and status, and enable nothing. -/
structure UartDev.Kept (s s' : UartDev) : Prop where
  opnCnt : s'.opnCnt = s.opnCnt
  status : s'.status = s.status
  sources : s.ier &&& ~~~uartSources = 0 → s'.ier &&& ~~~uartSources = 0

namespace UartDev.Kept

theorem trans {s s' s'' : UartDev} (h : s.Kept s') (h' : s'.Kept s'') : s.Kept s'' :=
  ⟨h'.opnCnt.trans h.opnCnt, h'.status.trans h.status, h'.sources ∘ h.sources⟩

theorem disCbr (s : UartDev) (d : Dir) : s.Kept (dwUartDisCbr s d) := by
  cases d <;> simp only [dwUartDisCbr] <;> split <;>
    exact ⟨rfl, rfl, fun h => Field.clear_within h _⟩

theorem send (room : Nat) (s : UartDev) : s.Kept (dwUartSend room s).2.2 := by
  induction room generalizing s with
  | zero => exact ⟨rfl, rfl, id⟩
  | succ room ih =>
    have hnext : s.Kept { s with txBuf := { s.txBuf with ofs := s.txBuf.ofs + 1 } } :=
      ⟨rfl, rfl, id⟩
    simp only [dwUartSend]
    split
    · exact hnext.trans (.disCbr _ .tx)
    · exact hnext.trans (ih _)

theorem receive (chars : List Byte) (s : UartDev) :
    s.Kept (dwUartReceive chars s).2 := by
  induction chars generalizing s with
  | nil => exact ⟨rfl, rfl, id⟩
  | cons c chars ih =>
    have hnext : s.Kept { s with
        mem := Function.update s.mem (s.rxBuf.buf + s.rxBuf.ofs) c
        rxBuf := { s.rxBuf with ofs := s.rxBuf.ofs + 1 } } :=
      ⟨rfl, rfl, id⟩
    simp only [dwUartReceive]
    split
    · exact hnext.trans (.disCbr _ .rx)
    · exact hnext.trans (ih _)

theorem serve (s : UartDev) (iir : UartIir) (room : Nat) (chars : List Byte) :
    s.Kept (dwUartServe s iir room chars).2.2 := by
  have hsame : s.Kept s := ⟨rfl, rfl, id⟩
  cases iir with try simp only [dwUartServe]
  | xmitEmpty =>
    split
    · exact .send room s
    · exact hsame
  | dataAvail =>
    split
    · exact .receive chars s
    · exact hsame
  | mdmStatus | lineStatus | rxTimeout | other => exact hsame

end UartDev.Kept

theorem UartPort.Steady.isr (iir : UartIir) (room : Nat) (chars : List Byte) :
    Steady hw p (p.isr hw iir room chars) := by
  obtain ⟨hcnt, hstatus, hsources⟩ := UartDev.Kept.serve p.dev iir room chars
  have hserved : ∀ (sent : List Byte) (dev : UartDev) (irq : Bool), dev.opnCnt = p.dev.opnCnt →
      dev.status = p.dev.status →
      (p.dev.ier &&& ~~~uartSources = 0 → dev.ier &&& ~~~uartSources = 0) →
      (p.irq = false → irq = false) → Steady hw p { p with sent, dev, irq } := by
    intro sent dev irq hcnt hstatus hsources hirq
    exact ⟨hcnt, rfl, rfl, rfl, by rw [hstatus], hsources, fun _ => hirq⟩
  simp only [UartPort.isr]
  have hstep := hserved (p.sent ++ (dwUartServe p.dev iir room chars).1) _
    (if p.dev.gint && !(dwUartServe p.dev iir room chars).2.2.gint then p.irq && !hw.hasIntno
      else p.irq) hcnt hstatus hsources (fun hirq => by simp [hirq])
  split
  · exact hstep
  · exact hstep.trans (Steady.call _)
  · exact hstep.trans (Steady.call _)

/-! ### Opening and closing -/

theorem dwUartDisableInterrupt_eq (hw : UartHw) (h : p.dlab = false) :
    dwUartDisableInterrupt hw p =
      { p with
        dev := { p.dev with
          ier := p.dev.ier &&& ~~~dwUartIerXmitEmpty &&& ~~~dwUartIerDataAvail
          txInt := false, rxInt := false, gint := false }
        irq := p.irq && !hw.hasIntno } := by
  have hone : ∀ (q : UartPort) (d : Dir), q.dlab = false → ∃ gint irq,
      q.disCbr hw d = { q with
        dev := { (q.dev.withInt d false) with ier := q.dev.ier &&& ~~~d.uartIer, gint }, irq } ∧
      (irq && !hw.hasIntno) = (q.irq && !hw.hasIntno) := by
    intro q d hq
    simp only [UartPort.disCbr, UartPort.writeIer, UartPort.readIer, hq, Bool.false_eq_true,
      if_false]
    split
    · exact ⟨_, _, by cases d <;> rfl, by rw [Bool.and_assoc, Bool.and_self]⟩
    · exact ⟨_, _, by cases d <;> rfl, rfl⟩
  obtain ⟨gint, irq, htx, hirq⟩ := hone p .tx h
  obtain ⟨gint', irq', hrx, hirq'⟩ := hone (p.disCbr hw .tx) .rx (by rw [htx]; exact h)
  rw [htx] at hrx hirq'
  simp only [dwUartDisableInterrupt, htx, hrx, hirq'.trans hirq]
  rfl

theorem dwUartSetHwfc_eq (p : UartPort) (hwfc : Word) :
    ∃ mcr, dwUartSetHwfc p hwfc = { p with regs := { p.regs with mcr } } := by
  unfold dwUartSetHwfc
  split <;> split <;> split <;> exact ⟨_, rfl⟩

theorem hasFlag_set {x m v f : Word} (hm : m &&& f = 0) (hv : v &&& f = 0) :
    hasFlag (x &&& ~~~m ||| v) f = hasFlag x f := by
  rw [hasFlag, Field.or_get_of_disjoint hv, Field.clear_get_of_disjoint hm, hasFlag]

/-- No entry of the tables reaches the DLAB bit. -/
theorem getD_dlab {l : List Word} (h : ∀ x ∈ l, x &&& dwUartLcrDlab = 0) (i : Nat) :
    l.getD i 0 &&& dwUartLcrDlab = 0 := by
  rw [List.getD_eq_getElem?_getD]
  cases hget : l[i]? with
  | none => rfl
  | some x => exact h x (List.mem_of_getElem? hget)

theorem dwUartSetDps_eq (p : UartPort) (dps : UartDps) :
    ∃ lcr, (dwUartSetDps p dps).2 = { p with regs := { p.regs with lcr } } ∧
      hasFlag lcr dwUartLcrDlab = p.dlab := by
  unfold dwUartSetDps
  split
  · exact ⟨_, rfl, rfl⟩
  split
  · exact ⟨_, rfl, rfl⟩
  split
  · exact ⟨_, rfl, rfl⟩
  · refine ⟨_, rfl, hasFlag_set (by decide) ?_⟩
    have hdatabits : ∀ x ∈ dwUartDatabits, x &&& dwUartLcrDlab = 0 := by
      simp [dwUartDatabits, dwUartLcrDlab]
    have hstopbits : ∀ x ∈ dwUartStopbits, x &&& dwUartLcrDlab = 0 := by
      simp [dwUartStopbits, dwUartLcrDlab]
    have hparity : ∀ x ∈ dwUartParity, x &&& dwUartLcrDlab = 0 := by
      simp [dwUartParity, dwUartLcrDlab]
    rw [BitVec.and_or_distrib_right, BitVec.and_or_distrib_right, getD_dlab hdatabits,
      getD_dlab hstopbits, getD_dlab hparity]
    rfl

/-- `dw_uart_init` closes the window and leaves the divisor in the latch. -/
theorem dwUartInit_spec (hw : UartHw) (p : UartPort) (d : Word) :
    (dwUartInit hw p d).dlab = false ∧ (dwUartInit hw p d).divisor = d.setWidth 16 ∧
      (dwUartInit hw p d).dev = { p.dev with ier := 0 } ∧
      (dwUartInit hw p d).baudrate = p.baudrate ∧ (dwUartInit hw p d).irq = p.irq := by
  obtain ⟨mcr, hmcr⟩ := dwUartSetHwfc_eq (dwUartSoftwareReset hw p) (dwUartSoftwareReset hw p).hwfc
  obtain ⟨lcr, hlcr, -⟩ := dwUartSetDps_eq
    (dwUartSetHwfc (dwUartSoftwareReset hw p) (dwUartSoftwareReset hw p).hwfc)
    (dwUartSetHwfc (dwUartSoftwareReset hw p) (dwUartSoftwareReset hw p).hwfc).dpsFormat
  have hclosed : ∀ q : UartPort,
      ({ dwUartSetBaud q d with regs := { (dwUartSetBaud q d).regs with fcr := 0x1 } } :
        UartPort).dlab = false := fun q => dwUartSetBaud_dlab q d
  simp only [dwUartInit, UartPort.writeIer, hclosed, Bool.false_eq_true, if_false]
  refine ⟨hclosed _, dwUartSetBaud_divisor _ d, ?_, ?_, ?_⟩
  · rw [dwUartSetBaud_dev, hlcr, hmcr]
    rfl
  · rw [dwUartSetBaud_baudrate, hlcr, hmcr]
    rfl
  · rw [dwUartSetBaud_irq, hlcr, hmcr]
    rfl

/-- What every call keeps: while the device is open the window is closed and only interrupts the
driver uses are enabled. -/
structure UartPort.Inv (hw : UartHw) (p : UartPort) : Prop where
  window : p.dev.opnCnt ≠ 0 → p.dlab = false
  sources : p.dev.opnCnt ≠ 0 → p.dev.ier &&& ~~~uartSources = 0
  irq : hw.hasIntno = false → p.irq = false

namespace UartPort

variable {hw : UartHw} {env : Word → UartPort → UartPort} {p p' : UartPort}

theorem Closed.inv (h : p.Closed) : p.Inv hw where
  window := fun hne => absurd h.opnCnt hne
  sources := fun hne => absurd h.opnCnt hne
  irq := fun _ => h.irq

theorem Closed.baudOk (h : p.Closed) : p.BaudOk hw := by
  intro henabled
  rw [h.status] at henabled
  exact absurd rfl henabled

theorem Steady.inv (h : Steady hw p p') (hinv : p.Inv hw) : p'.Inv hw where
  window := fun hne => h.dlab.trans (hinv.window (h.opnCnt ▸ hne))
  sources := fun hne => h.sources (hinv.sources (h.opnCnt ▸ hne))
  irq := fun hno => h.irq hno (hinv.irq hno)

theorem Steady.baudOk (h : Steady hw p p') (hbaud : p.BaudOk hw) : p'.BaudOk hw := by
  intro henabled
  rw [h.enabled] at henabled
  rw [h.divisor, h.baudrate]
  exact hbaud henabled

end UartPort

theorem dwUartOpen_cases {p' : UartPort} (h : dwUartOpen hw p baud = .ok (ercd, p')) :
    p' = p ∨ (p.dev.opnCnt ≠ 0 ∧ ∃ opnCnt, p' = { p with dev := { p.dev with opnCnt } }) ∨
    (p'.dlab = false ∧
      p'.divisor = (dwUartBaud2Div hw.dwApbBusFreq p'.baudrate).setWidth 16 ∧ p'.dev.ier = 0 ∧
      p'.irq = (p.irq && !hw.hasIntno)) := by
  simp only [dwUartOpen] at h
  split_ifs at h with _ hcnt
  · cases h
    exact Or.inl rfl
  iterate 2
    cases h
    exact Or.inr (Or.inl ⟨by omega, _, rfl⟩)
  · have hspec := dwUartInit_spec hw
      { p with
        dev := { p.dev with opnCnt := (p.dev.opnCnt + 1) % 2 ^ 32 }
        txFifoLen := dwUartGetFifoLen hw, rxFifoLen := dwUartGetFifoLen hw
        baudrate := baud, dpsFormat := .default, hwfc := 0 }
      (dwUartBaud2Div hw.dwApbBusFreq baud)
    generalize dwUartInit hw _ _ = q at h hspec
    obtain ⟨hdlab, hdivisor, hdev, hbaudrate, hirq⟩ := hspec
    rw [dwUartDisableInterrupt_eq hw (p := q.withStatus devEnabled) hdlab] at h
    cases h
    refine Or.inr (Or.inr ⟨hdlab, ?_, ?_, ?_⟩)
    · simp only [UartPort.withStatus, hbaudrate]
      exact hdivisor
    · simp only [UartPort.withStatus, hdev]
      decide
    · simp only [UartPort.withStatus, hirq]

/-- No transfer is in progress any more when `dw_uart_close` looks for one to abort. -/
theorem dwUartAbort_idle {env : Word → UartPort → UartPort} {d : Dir} (h : p.dev.int d = false) :
    dwUartAbort hw env p d = p := by
  rw [dwUartAbort, h]
  rfl

theorem dwUartClose_last (hw : UartHw) (env : Word → UartPort → UartPort) (hcnt : p.dev.opnCnt = 1)
    (hdlab : p.dlab = false) :
    ∃ txBuf regs sent, dwUartClose hw env p = (eOk, { p with
      dev := { p.dev with
        opnCnt := 0, status := 0, txBuf, rxBuf := .cleared
        ier := p.dev.ier &&& ~~~dwUartIerXmitEmpty &&& ~~~dwUartIerDataAvail
        txInt := false, rxInt := false, gint := false }
      cbs := .cleared, regs, sent, irq := p.irq && !hw.hasIntno }) := by
  have hoff := dwUartDisableInterrupt_eq hw
    (p := { p with dev := { p.dev with opnCnt := p.dev.opnCnt - 1 } }) hdlab
  simp only [dwUartClose, hcnt, if_neg (by decide : ¬1 = 0), Nat.sub_self, if_true] at hoff ⊢
  rw [hoff, dwUartAbort_idle (by rfl), dwUartAbort_idle (by rfl)]
  obtain ⟨sent, txBuf, hflush⟩ := dwUartFlushOutput_eq (p := { p with
    dev := { p.dev with
      opnCnt := 0, ier := p.dev.ier &&& ~~~dwUartIerXmitEmpty &&& ~~~dwUartIerDataAvail
      txInt := false, rxInt := false, gint := false }
    irq := p.irq && !hw.hasIntno }) hdlab
  rw [hflush]
  simp only [dwUartDisableDevice]
  split
  · exact ⟨.cleared, _, sent, by rw [dwUartSetBaud_eq]; rfl⟩
  · exact ⟨.cleared, _, sent, rfl⟩

/-! ### Commands -/

/-- What a command does to the settings: nothing, or it is one of the three that write the
latch. -/
theorem dwUartCommand_cases {p' : UartPort} (hinv : p.Inv hw)
    (h : dwUartCommand hw p cmd = .ok (answer, p')) :
    p.Steady hw p' ∨ (∃ val, cmd = .setBaud val ∧ p.dev.opnCnt ≠ 0 ∧
      p' = { dwUartSetBaud p (dwUartBaud2Div hw.dwApbBusFreq val) with baudrate := val }) ∨
    (cmd = .enaDev ∧ p.dev.opnCnt ≠ 0 ∧ p.dev.status &&& devEnabled = 0 ∧
      p' = (dwUartSetBaud p p.baudrate).withStatus (p.dev.status ||| devEnabled)) ∨
    (cmd = .disDev ∧ p.dev.opnCnt ≠ 0 ∧
      p' = (dwUartSetBaud p 0).withStatus (p.dev.status &&& ~~~devEnabled)) := by
  have hsame : p.Steady hw p := .refl p
  simp only [dwUartCommand] at h
  obtain rfl | ⟨hopen, h⟩ := check_cases h
  · exact Or.inl hsame
  have hdlab := hinv.window hopen
  have hlcr : ∀ lcr, hasFlag lcr dwUartLcrDlab = p.dlab → p.Steady hw (p.writeLcr lcr) :=
    fun lcr hflag => ⟨rfl, hflag, rfl, rfl, rfl, id, fun _ => id⟩
  obtain rfl | ⟨-, h⟩ := check_cases h
  · exact Or.inl hsame
  cases cmd with
  | setBaud val =>
    obtain rfl | ⟨-, h⟩ := check_cases h
    · exact Or.inl hsame
    obtain rfl | ⟨-, h⟩ := check_cases h
    · exact Or.inl hsame
    split_ifs at h
    cases h
    exact Or.inr (Or.inl ⟨val, rfl, hopen, rfl⟩)
  | getStatus _ | getRxavail _ _ _ | getTxavail _ _ _ | unknown =>
    cases h
    exact Or.inl hsame
  | enaDev =>
    simp only [dwUartEnableDevice] at h
    split_ifs at h with hoff <;> cases h
    · exact Or.inr (Or.inr (Or.inl ⟨rfl, hopen, hoff, rfl⟩))
    · exact Or.inl hsame
  | disDev =>
    simp only [dwUartDisableDevice] at h
    split_ifs at h <;> cases h
    · exact Or.inr (Or.inr (Or.inr ⟨rfl, hopen, rfl⟩))
    · exact Or.inl hsame
  | flushOutput =>
    cases h
    exact Or.inl (.flushOutput hdlab)
  | breakSet =>
    cases h
    refine Or.inl (hlcr _ ?_)
    rw [hasFlag, Field.or_get_of_disjoint (by decide)]
    rfl
  | breakClr =>
    cases h
    refine Or.inl (hlcr _ ?_)
    rw [hasFlag, Field.clear_get_of_disjoint (by decide)]
    rfl
  | setDpsFormat param dps =>
    obtain ⟨lcr, hset, hflag⟩ := dwUartSetDps_eq p dps
    obtain rfl | ⟨-, h⟩ := check_cases h
    · exact Or.inl hsame
    rw [hset] at h
    split_ifs at h <;> cases h
    · exact Or.inl ⟨rfl, hflag, rfl, rfl, rfl, id, fun _ => id⟩
    · exact Or.inl (hlcr lcr hflag)
  | setHwfc val =>
    obtain ⟨mcr, hset⟩ := dwUartSetHwfc_eq p val
    obtain rfl | ⟨-, h⟩ := check_cases h
    · exact Or.inl hsame
    cases h
    rw [hset]
    exact Or.inl ⟨rfl, rfl, rfl, rfl, rfl, id, fun _ => id⟩
  | setCb which param =>
    obtain rfl | ⟨-, h⟩ := check_cases h
    · exact Or.inl hsame
    cases h
    exact Or.inl ⟨rfl, rfl, rfl, rfl, rfl, id, fun _ => id⟩
  | transfer cmd =>
    cases cmd with
    | setInt d val =>
      cases h
      split
      · exact Or.inl (.disCbr hdlab d)
      · exact Or.inl (.enaCbr hdlab d)
    | setIntBuf d param devbuf =>
      obtain rfl | ⟨-, h⟩ := check_cases h
      · exact Or.inl hsame
      cases h
      cases d <;> exact Or.inl (.of_dev rfl rfl id fun _ => id)

/-! ### The run -/

section Run

variable {hw : UartHw} {env : Word → UartPort → UartPort} {p p' : UartPort}

theorem dwUartOpen_decides (hinv : p.Inv hw) (h : dwUartOpen hw p baud = .ok (ercd, p')) :
    Trace.Decides (UartPort.Inv hw) (UartPort.BaudOk hw) p p' True := by
  obtain rfl | ⟨hcnt, _, rfl⟩ | ⟨hdlab, hdivisor, hier, hirq⟩ := dwUartOpen_cases h
  · exact .keeps hinv id trivial
  · exact .keeps ⟨fun _ => hinv.window hcnt, fun _ => hinv.sources hcnt, hinv.irq⟩ id trivial
  · refine .keeps ⟨fun _ => hdlab, fun _ => ?_, fun hno => ?_⟩ (fun _ _ => hdivisor) trivial
    · rw [hier]
      rfl
    · rw [hirq, hinv.irq hno, Bool.false_and]

theorem dwUartClose_decides (env : Word → UartPort → UartPort) (hinv : p.Inv hw) :
    Trace.Decides (UartPort.Inv hw) (UartPort.BaudOk hw) p (dwUartClose hw env p).2 True := by
  by_cases hzero : p.dev.opnCnt = 0
  · rw [dwUartClose, if_pos hzero]
    exact .keeps hinv id trivial
  by_cases hone : p.dev.opnCnt = 1
  · obtain ⟨txBuf, regs, sent, hclose⟩ := dwUartClose_last hw env hone (hinv.window hzero)
    rw [hclose]
    refine .keeps ⟨fun hne => absurd rfl hne, fun hne => absurd rfl hne, fun hno => ?_⟩
      (fun _ henabled => absurd BitVec.zero_and henabled) trivial
    simp only [hinv.irq hno, Bool.false_and]
  · have hleft : ¬p.dev.opnCnt - 1 = 0 := by omega
    simp only [dwUartClose, if_neg hzero, if_neg hleft]
    exact .keeps ⟨fun _ => hinv.window hzero, fun _ => hinv.sources hzero, hinv.irq⟩ id trivial

theorem UartPort.Inv.setBaud (hinv : p.Inv hw) (hopen : p.dev.opnCnt ≠ 0)
    (d baudrate status : Word) :
    ({ (dwUartSetBaud p d).withStatus status with baudrate } : UartPort).Inv hw := by
  refine ⟨fun _ => dwUartSetBaud_dlab p d, fun _ => ?_, fun hno => ?_⟩
  · simp only [UartPort.withStatus, dwUartSetBaud_dev]
    exact hinv.sources hopen
  · simp only [UartPort.withStatus, dwUartSetBaud_irq]
    exact hinv.irq hno

theorem enabled_or (status : Word) : (status ||| devEnabled) &&& devEnabled ≠ 0 := by
  rw [BitVec.and_or_distrib_right, BitVec.and_self]
  exact fun h => absurd (BitVec.or_eq_zero_iff.mp h).2 (by decide)

/-- A command keeps latch and baud rate in agreement, unless it enables the device with a divisor
that is not the baud rate. -/
theorem dwUartCommand_decides (hinv : p.Inv hw) (h : dwUartCommand hw p cmd = .ok (answer, p')) :
    Trace.Decides (UartPort.Inv hw) (UartPort.BaudOk hw) p p'
      ((UartOp.control cmd).EnablesOk hw p) := by
  obtain hsteady | ⟨val, rfl, hopen, rfl⟩ | ⟨rfl, hopen, hoff, rfl⟩ | ⟨rfl, hopen, rfl⟩ :=
    dwUartCommand_cases hinv h
  · refine .keeps (hsteady.inv hinv) hsteady.baudOk ?_
    cases cmd with
    | enaDev =>
      -- to enable a disabled device is not to leave it alone
      intro hopen hoff
      simp only [dwUartCommand, if_neg hopen, UartCtrl.whenDisabled, Bool.true_eq_false, and_false,
        if_false, dwUartEnableDevice, if_pos hoff] at h
      cases h
      exact absurd (hsteady.enabled.trans hoff) (enabled_or p.dev.status)
    | _ => trivial
  · have hset := hinv.setBaud hopen (dwUartBaud2Div hw.dwApbBusFreq val) val p.dev.status
    refine .keeps ?_ (fun _ _ => dwUartSetBaud_divisor p _) trivial
    simpa [UartPort.withStatus] using hset
  · have hset := hinv.setBaud hopen p.baudrate p.baudrate (p.dev.status ||| devEnabled)
    refine ⟨by simpa [UartPort.withStatus] using hset, fun _ => ?_⟩
    have hdivisor := dwUartSetBaud_divisor p p.baudrate
    have hrate := dwUartSetBaud_baudrate p p.baudrate
    simp only [UartPort.BaudOk, UartPort.withStatus, UartPort.divisor] at hdivisor ⊢
    rw [hdivisor, hrate]
    exact ⟨fun hok _ _ => hok (enabled_or p.dev.status), fun hok _ => hok hopen hoff⟩
  · have hset := hinv.setBaud hopen 0 p.baudrate (p.dev.status &&& ~~~devEnabled)
    refine .keeps ?_ (fun _ henabled => absurd (Field.clear_get_self _ _) henabled) trivial
    simpa [UartPort.withStatus] using hset

/-- **One step keeps latch and baud rate in agreement exactly if it does not enable the device
with a divisor other than the baud rate.** -/
theorem uartStep_decides (hinv : p.Inv hw) (h : uartStep hw env p op = .ok p') :
    Trace.Decides (UartPort.Inv hw) (UartPort.BaudOk hw) p p' (op.EnablesOk hw p) := by
  have hsteady : p.Steady hw p' → op.EnablesOk hw p →
      Trace.Decides (UartPort.Inv hw) (UartPort.BaudOk hw) p p' (op.EnablesOk hw p) :=
    fun hs => .keeps (hs.inv hinv) hs.baudOk
  cases op with try cases h
  | opened baud =>
    obtain ⟨⟨ercd, q⟩, hok, rfl⟩ := Except.exists_of_map_eq_ok h
    exact dwUartOpen_decides hinv hok
  | close => exact dwUartClose_decides env hinv
  | control cmd =>
    obtain ⟨⟨answer, q⟩, hok, rfl⟩ := Except.exists_of_map_eq_ok h
    exact dwUartCommand_decides hinv hok
  | abortBegin d =>
    simp only [uartStep] at h
    split at h <;> cases h
    case isTrue.refl hready => exact hsteady (.abortBegin (hinv.window hready.1) d) trivial
    case isFalse.refl => exact hsteady (.refl p) trivial
  | abortEnd d => exact hsteady (.abortEnd d) trivial
  | isr iir room chars => exact hsteady (.isr iir room chars) trivial
  | isrEnd d => cases d <;> exact hsteady (.of_dev rfl rfl id fun _ => id) trivial

/-- Baud updates never touch the interrupt enable register. -/
theorem uartStep_keepsIer (p : UartPort) (op : UartOp) : op.KeepsIer hw env p := by
  intro hop p' h
  obtain ⟨cmd, rfl⟩ : ∃ cmd, op = .control cmd := by
    rcases hop with ⟨val, rfl⟩ | rfl | rfl <;> exact ⟨_, rfl⟩
  obtain ⟨⟨answer, q⟩, hok, rfl⟩ := Except.exists_of_map_eq_ok h
  simp only [dwUartCommand] at hok
  obtain rfl | ⟨-, hok⟩ := check_cases hok
  · rfl
  obtain rfl | ⟨-, hok⟩ := check_cases hok
  · rfl
  rcases hop with ⟨val, hop⟩ | hop | hop <;> cases hop
  · obtain rfl | ⟨-, hok⟩ := check_cases hok
    · rfl
    obtain rfl | ⟨-, hok⟩ := check_cases hok
    · rfl
    split at hok <;> cases hok
    exact congrArg UartDev.ier (dwUartSetBaud_dev p _)
  all_goals
    simp only [dwUartEnableDevice, dwUartDisableDevice, UartPort.withStatus] at hok
    cases hok
    split
    · simp only [dwUartSetBaud_dev]
    · rfl

/-- **The baud rate of the UART.**  In a run that begins with the device closed, in every state in
which the device is enabled the divisor latch holds the divisor of the recorded baud rate, and
baud updates leave the interrupt enable register alone, if and only if the device is never enabled
again with a baud rate that differs from its divisor. -/
theorem uart_baud_iff {ops : List UartOp} (hclosed : p.Closed)
    (h : Trace.Runs (uartStep hw env) (fun _ _ => True) p ops p') :
    (Trace.Always (uartStep hw env) (UartPort.BaudOk hw) p ops p' ∧
      Trace.Runs (uartStep hw env) (fun p op => op.KeepsIer hw env p) p ops p') ↔
      Trace.Runs (uartStep hw env) (fun p op => op.EnablesOk hw p) p ops p' := by
  have hkeeps : Trace.Runs (uartStep hw env) (fun p op => op.KeepsIer hw env p) p ops p' :=
    h.mono fun p op _ => uartStep_keepsIer p op
  rw [and_iff_left hkeeps]
  exact h.always_iff_of_decides (fun _ _ _ => uartStep_decides) hclosed.inv hclosed.baudOk

end Run

def uartSampleHw (freq : Word) : UartHw where
  dwApbBusFreq := freq
  hasIntno := true
  cpr := 0
  resetRegs := { lcr := 0, mcr := 0, fcr := 0, dll := 0, dlh := 0 }
  resetIer := 0

def uartSample : UartPort where
  dev :=
    { opnCnt := 0, status := 0, txBuf := .cleared, rxBuf := .cleared, ier := 0, txInt := false
      rxInt := false, gint := false, ram := fun _ => 0, mem := fun _ => 0 }
  baudrate := 0
  dpsFormat := .default
  hwfc := 0
  cbs := .cleared
  txFifoLen := 0
  rxFifoLen := 0
  regs := { lcr := 0, mcr := 0, fcr := 0, dll := 0, dlh := 0 }
  sent := []
  irq := false
  calls := []

theorem uartSample_closed : uartSample.Closed := ⟨rfl, rfl, rfl⟩

def uartReenable (baud : Word) : List UartOp :=
  [.opened baud, .control .disDev, .control .enaDev]

/-- On a bus of 16 MHz the baud rate 1000 is its own divisor. -/
theorem uart_baud_1000 :
    ∃ p', Trace.Always (uartStep (uartSampleHw 16000000) fun _ p => p)
        (UartPort.BaudOk (uartSampleHw 16000000)) uartSample (uartReenable 1000) p' ∧
      p'.dev.status = devEnabled ∧ p'.divisor = 1000 := by
  have hok : Trace.Runs (uartStep (uartSampleHw 16000000) fun _ p => p)
      (fun p op => op.EnablesOk (uartSampleHw 16000000) p) uartSample (uartReenable 1000) _ :=
    .cons trivial rfl (.cons trivial rfl (.cons (fun _ _ => by decide) rfl (.nil _)))
  exact ⟨_, ((uart_baud_iff uartSample_closed hok.any).mpr hok).1, by decide, by decide⟩

/-- On a bus of 50 MHz the divisor of 115200 is 27, but the latch has the low half of 115200. -/
theorem uart_baud_lost :
    ∃ p', Trace.Runs (uartStep (uartSampleHw 50000000) fun _ p => p) (fun _ _ => True) uartSample
        (uartReenable 115200) p' ∧
      p'.dev.status = devEnabled ∧ p'.baudrate = 115200 ∧ p'.divisor = 49664 ∧
      dwUartBaud2Div 50000000 115200 = 27 ∧ ¬p'.BaudOk (uartSampleHw 50000000) := by
  refine ⟨_, .of_follow rfl, by decide, by decide, by decide, by decide, fun hok => ?_⟩
  exact absurd (hok (by decide)) (by decide)

end Embarc
