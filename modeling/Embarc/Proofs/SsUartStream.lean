/-
Interrupt writes of the UART of the subsystem, one after the other.

A write puts the first bytes of its buffer in the FIFO, every interrupt the next ones, and the
interrupt that finds none left disables itself and calls back.  Behind the callback the routine
clears the size of the buffer.  That is harmless as long as the buffer is the one that is through;
but the callback is where the next one is handed over.

So the bytes go out in order in every run in which no write is made inside that callback, and in no
other: the size of the buffer handed over there is lost, and its end with it.  Without a FIFO an
interrupt sends nothing, and only single bytes get through.
-/
import Embarc.Subsystem.SsUart

namespace Embarc

open Trace (Runs Reaches Always)

/-! ### Bytes of a buffer -/

def DevBuffer.bytes (ram : Word → Byte) (b : DevBuffer) : List Byte :=
  (List.range b.len.toNat).map fun i => ram (b.buf + BitVec.ofNat 32 i)

variable {s' : SsUartInfo} {b : DevBuffer} {done : List DevBuffer} {waiting : List SsUartRest}

@[simp] theorem DevBuffer.length_bytes (ram : Word → Byte) (b : DevBuffer) :
    (b.bytes ram).length = b.len.toNat := by
  simp [DevBuffer.bytes]

namespace SsUartInfo

variable {hw : SsUartHw} {s : SsUartInfo} {b : DevBuffer}

/-- The buffer is being sent: `txCount` bytes of it were. -/
structure Empties (s : SsUartInfo) (b : DevBuffer) : Prop where
  data : s.txData = b.buf
  size : s.txSize = b.len
  count_le : s.txCount.toNat ≤ b.len.toNat

theorem Empties.left (h : s.Empties b) :
    (s.txSize - s.txCount).toNat = b.len.toNat - s.txCount.toNat := by
  rw [h.size, BitVec.toNat_sub_of_le h.count_le]

/-- The next bytes of the buffer are written. -/
theorem Empties.put (h : s.Empties b) (cnt : Word)
    (hcnt : s.txCount.toNat + cnt.toNat ≤ b.len.toNat) :
    (s.put cnt).Empties b ∧ (s.put cnt).txCount.toNat = s.txCount.toNat + cnt.toNat ∧
      (s.put cnt).sent = s.sent ++ ((b.bytes s.ram).drop s.txCount.toNat).take cnt.toNat := by
  have hcount : (s.txCount + cnt).toNat = s.txCount.toNat + cnt.toNat :=
    BitVec.toNat_add_of_lt (by omega)
  refine ⟨⟨h.data, h.size, ?_⟩, hcount, ?_⟩
  · show (s.txCount + cnt).toNat ≤ b.len.toNat
    omega
  · show s.sent ++ _ = _
    congr 1
    apply List.ext_getElem
    · simp
      omega
    · intro i hi _
      simp only [List.getElem_map, List.getElem_range, List.getElem_take, List.getElem_drop,
        DevBuffer.bytes, h.data]
      congr 2
      rw [BitVec.ofNat_add, BitVec.ofNat_toNat, BitVec.setWidth_eq]

def handed (s : SsUartInfo) (b : DevBuffer) : SsUartInfo :=
  { s with txData := b.buf, txSize := b.len, txCount := 0 }

theorem write_eq (hflow : s.flowControl = false) (hlen : b.len ≠ 0) :
    s.write hw b.buf b.len = ((s.handed b).put ((s.handed b).load hw)).enable ierTx := by
  have hpos : b.len - 0 > 0 := by
    rw [show b.len - 0 = b.len from BitVec.sub_zero _]
    exact Nat.pos_of_ne_zero fun hc => hlen (BitVec.eq_of_toNat_eq hc)
  simp only [SsUartInfo.write, SsUartInfo.begin, if_pos (Or.inl hflow), if_pos hpos]
  rfl

theorem Empties.load (hw : SsUartHw) (h : s.Empties b) (hleft : s.txCount.toNat < b.len.toNat) :
    (s.load hw).toNat = min (b.len.toNat - s.txCount.toNat) (max hw.fifoDepth.toNat 1) := by
  rw [SsUartInfo.load]
  by_cases hdepth : hw.fifoDepth = 0
  · rw [if_pos hdepth, hdepth]
    show 1 = min _ (max 0 1)
    omega
  · have hpos : hw.fifoDepth.toNat ≠ 0 := fun hc => hdepth (BitVec.eq_of_toNat_eq hc)
    rw [if_neg hdepth, capped_toNat, h.left]
    omega

theorem Empties.refill (hw : SsUartHw) (hdepth : hw.fifoDepth ≠ 0) (h : s.Empties b)
    (huse : hasFlag s.regs.ier ierThreshold = true) :
    ∃ cnt : Word, s.refill hw = s.put cnt ∧ cnt.toNat = min
      (min (b.len.toNat - s.txCount.toNat) hw.fifoDepth.toNat)
      (hw.fifoDepth - s.txThreshold).toNat := by
  have huse' : s.regs.ier &&& ierThreshold ≠ 0 := by simpa [hasFlag] using huse
  refine ⟨capped (s.load hw) (hw.fifoDepth - s.txThreshold), ?_, ?_⟩
  · simp only [SsUartInfo.refill, if_pos huse']
  · rw [capped_toNat, SsUartInfo.load, if_neg hdepth, capped_toNat, h.left]

theorem write_spec (hw : SsUartHw) (s : SsUartInfo) (hflow : s.flowControl = false) (hlen : b.len ≠ 0) :
    (s.write hw b.buf b.len).Empties b ∧
      (s.write hw b.buf b.len).txCount.toNat = min b.len.toNat (max hw.fifoDepth.toNat 1) ∧
      (s.write hw b.buf b.len).sent =
        s.sent ++ (b.bytes s.ram).take (min b.len.toNat (max hw.fifoDepth.toNat 1)) ∧
      (s.write hw b.buf b.len).regs.ier = s.regs.ier ||| ierTx := by
  have hempties : (s.handed b).Empties b := ⟨rfl, rfl, Nat.zero_le _⟩
  have hcount : (s.handed b).txCount.toNat = 0 := rfl
  have hpos : b.len.toNat ≠ 0 := fun hc => hlen (BitVec.eq_of_toNat_eq hc)
  have hload := hempties.load hw (by omega)
  rw [hcount, Nat.sub_zero] at hload
  obtain ⟨hempties', hcount', hsent'⟩ := hempties.put ((s.handed b).load hw) (by omega)
  rw [write_eq hflow hlen]
  refine ⟨{ hempties' with }, ?_, ?_, rfl⟩
  · rw [← hload]
    exact hcount'.trans (Nat.zero_add _)
  · rw [← hload]
    exact hsent'

theorem write_kept (hw : SsUartHw) (s : SsUartInfo) (data size : Word) :
    (s.write hw data size).handle = s.handle ∧
      (s.write hw data size).flowControl = s.flowControl ∧
      (s.write hw data size).txThreshold = s.txThreshold ∧
      (s.write hw data size).ram = s.ram ∧ (s.write hw data size).cbs = s.cbs := by
  simp only [SsUartInfo.write, SsUartInfo.begin]
  split
  · split <;> exact ⟨rfl, rfl, rfl, rfl, rfl⟩
  · exact ⟨rfl, rfl, rfl, rfl, rfl⟩

/-! ### Receiving leaves it alone -/

/-- What sending depends on is the same. -/
structure TxKept (s s' : SsUartInfo) : Prop where
  handle : s'.handle = s.handle
  data : s'.txData = s.txData
  size : s'.txSize = s.txSize
  count : s'.txCount = s.txCount
  threshold : s'.txThreshold = s.txThreshold
  flow : s'.flowControl = s.flowControl
  ier : s'.regs.ier &&& ierTx = s.regs.ier &&& ierTx
  ram : s'.ram = s.ram
  sent : s'.sent = s.sent
  cbs : s'.cbs = s.cbs

theorem TxKept.refl (s : SsUartInfo) : s.TxKept s := ⟨rfl, rfl, rfl, rfl, rfl, rfl, rfl, rfl, rfl, rfl⟩

theorem TxKept.trans {s s'' : SsUartInfo} (h : s.TxKept s') (h' : s'.TxKept s'') : s.TxKept s'' :=
  ⟨h'.handle.trans h.handle, h'.data.trans h.data, h'.size.trans h.size, h'.count.trans h.count,
    h'.threshold.trans h.threshold, h'.flow.trans h.flow, h'.ier.trans h.ier, h'.ram.trans h.ram,
    h'.sent.trans h.sent, h'.cbs.trans h.cbs⟩

theorem TxKept.hasFlag (h : s.TxKept s') {f : Word} (hf : ierTx &&& f = f) :
    hasFlag s'.regs.ier f = hasFlag s.regs.ier f := by
  refine hasFlag_of_get_eq ?_
  rw [← hf, ← BitVec.and_assoc, ← BitVec.and_assoc, h.ier]

section
variable (s : SsUartInfo)

theorem txKept_writeFcr (val : Word) : s.TxKept (s.writeFcr val) :=
  { TxKept.refl s with }

theorem txKept_enable : s.TxKept (s.enable ierRx) :=
  { TxKept.refl s with ier := Field.or_get_of_disjoint (by decide) }

theorem txKept_disable : s.TxKept (s.disable ierRx) :=
  { TxKept.refl s with ier := Field.clear_get_of_disjoint (by decide) }

theorem txKept_read (hw : SsUartHw) (data size pSize : Word) :
    s.TxKept (s.read hw data size pSize) := by
  have hset : s.TxKept { s with rxData := data, rxSize := size, pRxsize := pSize, rxCount := 0 } :=
    { TxKept.refl s with }
  simp only [SsUartInfo.read]
  split
  · refine (hset.trans ?_).trans (txKept_enable _)
    split
    · exact txKept_writeFcr _ _
    · exact TxKept.refl _
  · exact hset

theorem txKept_get (rbr : Nat → Byte) (cnt : Word) : s.TxKept (s.get rbr cnt) :=
  { TxKept.refl s with }

theorem txKept_retrieve (hw : SsUartHw) (rbr : Nat → Byte) : s.TxKept (s.retrieve hw rbr) := by
  simp only [SsUartInfo.retrieve]
  split_ifs
  · exact txKept_get _ _ _
  · exact txKept_get _ _ _
  · exact (txKept_get _ _ _).trans (txKept_writeFcr _ _)
  · exact txKept_get _ _ _

theorem txKept_rxEnd (hw : SsUartHw) : s.TxKept (s.rxEnd hw) := by
  simp only [SsUartInfo.rxEnd]
  split
  · exact (txKept_disable s).trans (txKept_writeFcr _ _)
  · exact txKept_disable s

end

end SsUartInfo

/-! ### Runs -/

/-- The driver, and the buffers that were handed over. -/
structure SsUartRun where
  machine : Reentry.State SsUart SsUartRest
  given : List DevBuffer

abbrev SsUartEvent := Reentry.Event SsUartOp Unit

def ssUartGiven : SsUartEvent → List DevBuffer
  | .enter (.control (.setTxintBuf (some b))) => [b]
  | _ => []

def ssUartRunStep (hw : SsUartPortHw) (r : SsUartRun) (ev : SsUartEvent) :
    Except (Reentry.Stop SsUartStop) SsUartRun :=
  (ssUartStep hw r.machine ev).map fun machine => { machine, given := r.given ++ ssUartGiven ev }

/-- A device that is open and has a callback for what was sent, without flow control and with the
threshold zero.  No blocking call waits. -/
structure SsUart.TxSet (s : SsUart) : Prop where
  handle : s.io.handle = true
  flow : s.io.flowControl = false
  threshold : s.io.txThreshold = 0
  flags : s.flags = 0
  ioCb : s.io.cbs.get (.ofDir .tx) ≠ 0
  cb : s.cbs.get (.ofDir .tx) ≠ 0

namespace SsUartRun

variable {hw : SsUartPortHw} {r r' : SsUartRun} {ram : Word → Byte}

def sent (r : SsUartRun) : List Byte := r.machine.here.io.sent

abbrev io (r : SsUartRun) : SsUartInfo := r.machine.here.io

/-- How many callbacks were made for what was sent. -/
def txCalls (r : SsUartRun) : Nat := r.machine.here.calls.count (.ofDir .tx)

/-- A buffer of some length is handed over when the one before has been called back.  The interrupts
come in no callback and only if they are enabled; something may be received at the same time. -/
def Base (r : SsUartRun) : SsUartEvent → Prop
  | .enter (.control (.setTxintBuf (some b))) =>
    b.buf ≠ 0 ∧ b.len ≠ 0 ∧ r.txCalls = r.given.length
  | .enter (.control (.setRxintBuf _ _)) => True
  | .enter (.control _) => False
  | .enter (.ioctl _) => False
  | .enter (.isr q) =>
    r.machine.waiting = [] ∧
      (q.iir &&& 0x0f = 0x2 ∧ hasFlag r.machine.here.io.regs.ier ierThrEmpty = true ∨
        q.iir &&& 0x0f = 0x4 ∧ hasFlag r.machine.here.io.regs.ier ierRxAvail = true)
  | .leave _ => True

/-- The callback of the buffer before has returned, and without a FIFO a buffer is one byte. -/
def Kept (hw : SsUartPortHw) (r : SsUartRun) : SsUartEvent → Prop
  | .enter (.control (.setTxintBuf (some b))) =>
    .txEnd ∉ r.machine.waiting ∧ (hw.fifoDepth = 0 → b.len = 1)
  | _ => True

/-- All buffers are through, and each was called back. -/
structure Rests (ram : Word → Byte) (r : SsUartRun) : Prop where
  off : hasFlag r.machine.here.io.regs.ier ierThrEmpty = false
  sent : r.sent = r.given.flatMap (·.bytes ram)
  calls : r.txCalls = r.given.length

/-- The last buffer, `b`, is being sent, outside of the callback of the one before. -/
structure Sends (hw : SsUartPortHw) (ram : Word → Byte) (r : SsUartRun) (done : List DevBuffer)
    (b : DevBuffer) : Prop where
  given : r.given = done ++ [b]
  buf : b.buf ≠ 0
  empties : r.machine.here.io.Empties b
  on : hasFlag r.machine.here.io.regs.ier ierThrEmpty = true
  uses : hasFlag r.machine.here.io.regs.ier ierThreshold = true
  sent : r.sent =
    done.flatMap (·.bytes ram) ++ (b.bytes ram).take r.machine.here.io.txCount.toNat
  calls : r.txCalls = done.length
  apart : .txEnd ∉ r.machine.waiting
  /-- Without a FIFO there is nothing left to send. -/
  last : hw.fifoDepth = 0 → r.machine.here.io.txCount = r.machine.here.io.txSize

structure Inv (hw : SsUartPortHw) (ram : Word → Byte) (r : SsUartRun) : Prop where
  set : r.machine.here.TxSet
  ram_eq : r.machine.here.io.ram = ram
  stage : r.Rests ram ∨ ∃ done b, r.Sends hw ram done b

theorem Sends.data (h : r.Sends hw ram done b) : ¬ r.io.txData = 0 :=
  h.empties.data ▸ h.buf

def withIo (r : SsUartRun) (io : SsUartInfo) : SsUartRun :=
  { r with machine := ⟨{ r.machine.here with io }, r.machine.waiting⟩ }

/-- The run inside the callback for the buffer that is through. -/
def called (r : SsUartRun) : SsUartRun :=
  { r with machine := ⟨{ r.machine.here with
      io := r.machine.here.io.disable ierTx
      calls := r.machine.here.calls ++ [.ofDir .tx] }, .txEnd :: r.machine.waiting⟩ }

/-- Sending is left alone. -/
structure Same (r r' : SsUartRun) : Prop where
  io : r.io.TxKept r'.io
  flags : r'.machine.here.flags = r.machine.here.flags
  cbs : r'.machine.here.cbs = r.machine.here.cbs
  calls : r'.txCalls = r.txCalls
  given : r'.given = r.given
  waiting : .txEnd ∈ r'.machine.waiting ↔ .txEnd ∈ r.machine.waiting

/-- What an event does: it leaves sending alone, hands a buffer over, is the interrupt of the
transmitter, or ends the callback for a buffer. -/
inductive Moves (hw : SsUartPortHw) (r r' : SsUartRun) : SsUartEvent → Prop
  | same {ev : SsUartEvent} (hkept : r.Kept hw ev) (h : r.Same r') : Moves hw r r' ev
  | hand (b : DevBuffer) (hbuf : b.buf ≠ 0) (hlen : b.len ≠ 0)
      (hcalls : r.txCalls = r.given.length)
      (h : r' = { r.withIo (r.io.write hw.toSsUartHw b.buf b.len) with given := r.given ++ [b] }) :
      Moves hw r r' (.enter (.control (.setTxintBuf (some b))))
  | transmit (q : SsUartIrq) (hwaiting : r.machine.waiting = [])
      (hon : hasFlag r.io.regs.ier ierThrEmpty = true)
      (h : r' = { r with machine := (uartIsrTx hw r.machine.here).above r.machine.waiting }) :
      Moves hw r r' (.enter (.isr q))
  | ended (waiting : List SsUartRest) (hwaiting : r.machine.waiting = .txEnd :: waiting)
      (h : r' = { r with machine := ⟨SsUartRest.txEnd.run r.machine.here, waiting⟩ }) :
      Moves hw r r' (.leave ())

section Set

variable (hset : r.machine.here.TxSet)
include hset

/-! ### What an event does -/

theorem ioCb_rx (io : SsUartInfo) (hio : r.io.TxKept io) :
    r.Same { r with machine :=
      (({ r.machine.here with io } : SsUart).ioCb .rx .nothing).above r.machine.waiting } := by
  have hflag : hasFlag r.machine.here.flags Dir.rx.ssUartFlag = false := by
    rw [hset.flags]
    rfl
  simp only [SsUart.ioCb, SsUart.dirCb, hflag, Bool.false_eq_true, if_false, SsUart.callback]
  split
  · split
    · refine ⟨hio, rfl, rfl, ?_, rfl, ?_⟩
      · show (r.machine.here.calls ++ [DevCb.ofDir .rx]).count (.ofDir .tx) = _
        rw [List.count_append]
        rfl
      · exact List.mem_cons.trans (or_iff_right (by decide))
    · exact ⟨hio, rfl, rfl, rfl, rfl, Iff.rfl⟩
  · exact ⟨hio, rfl, rfl, rfl, rfl, Iff.rfl⟩

theorem same_receive (rbr : Nat → Byte) :
    r.Same { r with machine := (uartIsrRx hw r.machine.here rbr).above r.machine.waiting } := by
  unfold uartIsrRx
  split
  · exact ioCb_rx hset _ (.refl _)
  · have hretrieve := r.io.txKept_retrieve hw.toSsUartHw rbr
    simp only
    split
    · exact ioCb_rx hset _ (hretrieve.trans (SsUartInfo.txKept_rxEnd _ _))
    · exact ⟨hretrieve, rfl, rfl, rfl, rfl, Iff.rfl⟩

theorem moves {ev : SsUartEvent} (hbase : r.Base ev) (hstep : ssUartRunStep hw r ev = .ok r') :
    Moves hw r r' ev := by
  obtain ⟨machine, hmachine, rfl⟩ := Except.exists_of_map_eq_ok hstep
  obtain ⟨op, t, rfl, ht, rfl⟩ | ⟨_, rest, waiting, t, rfl, hwaiting, ht, rfl⟩ :=
    Reentry.step_cases hmachine
  · cases op with
    | ioctl cmd => exact absurd hbase (by simp [Base])
    | isr q =>
      obtain ⟨hwaiting, ⟨hiir, hon⟩ | ⟨hiir, -⟩⟩ := hbase
      all_goals
        simp only [ssUartEnter, if_pos hset.handle, uartIsrTurn, hiir] at ht
        cases ht
        simp only [ssUartGiven, List.append_nil]
      · exact .transmit q hwaiting hon rfl
      · exact .same trivial (same_receive hset q.rbr)
    | control cmd =>
      obtain ⟨⟨ercd, s'⟩, hctrl, rfl⟩ := Except.exists_of_map_eq_ok ht
      cases cmd with
      | setTxintBuf buf =>
        cases buf with
        | none => exact absurd hbase (by simp [Base])
        | some b =>
          obtain ⟨hbuf, hlen, hcalls⟩ := hbase
          simp only [ssUartControl, ioUartWrite, if_pos hset.handle] at hctrl
          cases hctrl
          exact .hand b hbuf hlen hcalls rfl
      | setRxintBuf buf pLen =>
        have hread : ∀ data size, r.Same (r.withIo (r.io.read hw.toSsUartHw data size pLen)) :=
          fun data size => ⟨r.io.txKept_read hw.toSsUartHw data size pLen, rfl, rfl, rfl, rfl, Iff.rfl⟩
        cases buf <;>
        · simp only [ssUartControl, ioUartRead, if_pos hset.handle] at hctrl
          cases hctrl
          simp only [ssUartGiven, List.append_nil]
          exact .same trivial (hread _ _)
      | setBaud | setHwfc | setDpsFormat | getAvail | setCb | setInt | other =>
        exact absurd hbase (by simp [Base])
  · cases ht
    simp only [ssUartGiven, List.append_nil]
    cases rest with
    | nothing =>
      refine .same trivial ⟨.refl _, rfl, rfl, rfl, rfl, ?_⟩
      rw [hwaiting]
      exact (List.mem_cons.trans (or_iff_right (by decide))).symm
    | txEnd => exact .ended waiting hwaiting rfl

theorem Same.set (h : r.Same r') : r'.machine.here.TxSet := by
  refine ⟨h.io.handle.trans hset.handle, h.io.flow.trans hset.flow,
    h.io.threshold.trans hset.threshold, h.flags.trans hset.flags, ?_, ?_⟩
  · rw [h.io.cbs]
    exact hset.ioCb
  · rw [h.cbs]
    exact hset.cb

theorem txSet_write (data size : Word) :
    (r.withIo (r.io.write hw.toSsUartHw data size)).machine.here.TxSet := by
  obtain ⟨hhandle, hflow, hthreshold, -, hcbs⟩ := r.io.write_kept hw.toSsUartHw data size
  refine ⟨hhandle.trans hset.handle, hflow.trans hset.flow, hthreshold.trans hset.threshold,
    hset.flags, ?_, hset.cb⟩
  show (r.io.write hw.toSsUartHw data size).cbs.get _ ≠ 0
  rw [hcbs]
  exact hset.ioCb

/-- The interrupt of the transmitter calls back, or sends the next bytes. -/
theorem uartIsrTx_cases (hw : SsUartPortHw) :
    (r.io.txData = 0 ∧ uartIsrTx hw r.machine.here =
      .calls { r.machine.here with calls := r.machine.here.calls ++ [.ofDir .tx] } .nothing) ∨
    (r.io.txCount = r.io.txSize ∧
      uartIsrTx hw r.machine.here = .calls r.called.machine.here .txEnd) ∨
    r.io.txCount ≠ r.io.txSize ∧ uartIsrTx hw r.machine.here =
      .done (r.withIo (r.io.refill hw.toSsUartHw)).machine.here := by
  have hioCb : (r.io.disable ierTx).cbs.get (.ofDir .tx) ≠ 0 := hset.ioCb
  have hflag : hasFlag r.machine.here.flags Dir.tx.ssUartFlag = false := by
    rw [hset.flags]
    rfl
  simp only [uartIsrTx, SsUart.ioCb, if_pos hioCb, if_pos hset.ioCb, SsUart.dirCb, hflag,
    SsUart.callback, if_pos hset.cb, Bool.false_eq_true, if_false]
  by_cases hdata : r.io.txData = 0
  · exact .inl ⟨hdata, if_pos hdata⟩
  · rw [if_neg hdata]
    by_cases hcount : r.io.txCount = r.io.txSize
    · exact .inr (.inl ⟨hcount, if_pos hcount⟩)
    · exact .inr (.inr ⟨hcount, if_neg hcount⟩)

end Set

section Steps

variable (h : r.Inv hw ram)
include h

/-! ### Steps -/

theorem Inv.same (hsame : r.Same r') : r'.Inv hw ram := by
  have hio := hsame.io
  have hon := hio.hasFlag (f := ierThrEmpty) (by decide)
  have huses := hio.hasFlag (f := ierThreshold) (by decide)
  refine ⟨hsame.set h.set, hio.ram.trans h.ram_eq, ?_⟩
  rcases h.stage with hrests | ⟨done, b, hsends⟩
  · exact .inl ⟨hon.trans hrests.off, by rw [sent, hio.sent, hsame.given, ← hrests.sent]; rfl,
      by rw [hsame.calls, hsame.given, hrests.calls]⟩
  · refine .inr ⟨done, b, hsame.given.trans hsends.given, hsends.buf, ⟨?_, ?_, ?_⟩,
      hon.trans hsends.on, huses.trans hsends.uses, ?_, hsame.calls.trans hsends.calls,
      fun hc => hsends.apart (hsame.waiting.mp hc), fun hnone => ?_⟩
    · rw [hio.data, hsends.empties.data]
    · rw [hio.size, hsends.empties.size]
    · rw [hio.count]
      exact hsends.empties.count_le
    · rw [sent, hio.sent, hio.count, ← hsends.sent]
      rfl
    · rw [hio.count, hio.size]
      exact hsends.last hnone

theorem Sends.complete (hsends : r.Sends hw ram done b) (hcount : r.io.txCount = r.io.txSize) :
    r.called.Inv hw ram ∧ r.called.Rests ram := by
  have hall : (b.bytes ram).take r.io.txCount.toNat = b.bytes ram := by
    rw [hcount, hsends.empties.size]
    exact List.take_of_length_le (by simp)
  have hrests : r.called.Rests ram := by
    refine ⟨hasFlag_clear_of_subset (by decide), ?_, ?_⟩
    · show r.sent = r.given.flatMap _
      rw [hsends.sent, hall, hsends.given, List.flatMap_append, List.flatMap_singleton]
    · show (r.machine.here.calls ++ [DevCb.ofDir .tx]).count (.ofDir .tx) = r.given.length
      rw [List.count_append, hsends.given, List.length_append]
      exact congrArg (· + 1) hsends.calls
  exact ⟨⟨{ h.set with }, h.ram_eq, .inl hrests⟩, hrests⟩

/-- The callback for a buffer has returned.  The size that is cleared is that of a buffer that is
through. -/
theorem Inv.leave (hwaiting : r.machine.waiting = .txEnd :: waiting) :
    Inv hw ram { r with machine := ⟨SsUartRest.txEnd.run r.machine.here, waiting⟩ } := by
  rcases h.stage with hrests | ⟨done, b, hsends⟩
  · exact ⟨{ h.set with }, h.ram_eq, .inl { hrests with }⟩
  · refine absurd ?_ hsends.apart
    rw [hwaiting]
    exact List.mem_cons_self

/-- What was called back has been sent, and what was sent is the beginning of the buffers. -/
theorem Inv.accounted :
    (r.given.take r.txCalls).flatMap (·.bytes ram) <+: r.sent ∧
      r.sent <+: r.given.flatMap (·.bytes ram) ∧
      r.txCalls ≤ r.given.length ∧ r.given.length ≤ r.txCalls + 1 := by
  rcases h.stage with hrests | ⟨done, b, hsends⟩
  · rw [hrests.sent, hrests.calls, List.take_length]
    exact ⟨List.prefix_refl _, List.prefix_refl _, Nat.le_refl _, Nat.le_succ _⟩
  · have htake : r.given.take done.length = done := by
      rw [hsends.given, List.take_left]
    rw [hsends.sent, hsends.calls, htake, hsends.given, List.flatMap_append,
      List.flatMap_singleton, List.length_append, List.length_singleton]
    exact ⟨List.prefix_append _ _, List.prefix_append_right_inj _ |>.mpr (List.take_prefix _ _),
      Nat.le_succ _, Nat.le_refl _⟩

theorem Inv.rests_of_calls (hcalls : r.txCalls = r.given.length) : r.Rests ram := by
  rcases h.stage with hrests | ⟨done, b, hsends⟩
  · exact hrests
  · have hfewer := hsends.calls
    rw [hcalls, hsends.given, List.length_append, List.length_singleton] at hfewer
    omega

theorem Inv.write (hbuf : b.buf ≠ 0) (hlen : b.len ≠ 0) (hcalls : r.txCalls = r.given.length)
    (hkept : .txEnd ∉ r.machine.waiting ∧ (hw.fifoDepth = 0 → b.len = 1)) :
    Inv hw ram { r.withIo (r.io.write hw.toSsUartHw b.buf b.len) with
      given := r.given ++ [b] } := by
  obtain ⟨hempties, hcount, hsent, hier⟩ :=
    r.io.write_spec hw.toSsUartHw h.set.flow hlen
  obtain ⟨-, -, -, hram, -⟩ := r.io.write_kept hw.toSsUartHw b.buf b.len
  have hrests := h.rests_of_calls hcalls
  have hon : ∀ f : Word, hasFlag ierTx f = true →
      hasFlag (r.io.write hw.toSsUartHw b.buf b.len).regs.ier f = true := by
    intro f hf
    rw [hier]
    exact hasFlag_or_self _ hf
  refine ⟨txSet_write h.set b.buf b.len, hram.trans h.ram_eq, .inr ⟨r.given, b, rfl, hbuf, hempties,
    hon _ (by decide), hon _ (by decide), ?_, hcalls, hkept.1, fun hnone => ?_⟩⟩
  · show (r.io.write hw.toSsUartHw b.buf b.len).sent = _ ++ (b.bytes ram).take
      (r.io.write hw.toSsUartHw b.buf b.len).txCount.toNat
    rw [hsent, hcount, h.ram_eq, ← hrests.sent]
    rfl
  · refine BitVec.eq_of_toNat_eq (hcount.trans ?_)
    show _ = (r.io.write hw.toSsUartHw b.buf b.len).txSize.toNat
    rw [hempties.size, hnone, hkept.2 hnone]
    rfl

theorem Sends.refill (hdepth : hw.fifoDepth ≠ 0) (hsends : r.Sends hw ram done b) :
    (r.withIo (r.io.refill hw.toSsUartHw)).Inv hw ram ∧
      (r.withIo (r.io.refill hw.toSsUartHw)).Sends hw ram done b ∧
      (r.io.refill hw.toSsUartHw).txCount.toNat =
        min b.len.toNat (r.io.txCount.toNat + hw.fifoDepth.toNat) := by
  have hempties : r.io.Empties b := hsends.empties
  have hle := hempties.count_le
  obtain ⟨cnt, hrefill, hcnt⟩ := hempties.refill hw.toSsUartHw hdepth hsends.uses
  have hfree : hw.fifoDepth - r.io.txThreshold = hw.fifoDepth := by
    rw [h.set.threshold]
    exact BitVec.sub_zero _
  rw [hfree] at hcnt
  obtain ⟨hempties', hcount', hsent'⟩ := hempties.put cnt (by omega)
  have hsends' : (r.withIo (r.io.refill hw.toSsUartHw)).Sends hw ram done b := by
    rw [hrefill]
    refine { hsends with empties := hempties', sent := ?_, last := fun hnone => absurd hnone hdepth }
    show (r.io.put cnt).sent = _ ++ (b.bytes ram).take
      (r.io.put cnt).txCount.toNat
    rw [hsent', hcount', h.ram_eq, List.take_add, ← List.append_assoc, ← hsends.sent]
    rfl
  refine ⟨⟨?_, ?_, .inr ⟨done, b, hsends'⟩⟩, hsends', ?_⟩
  · rw [hrefill]
    exact { h.set with }
  · rw [hrefill]
    exact h.ram_eq
  · rw [hrefill, hcount']
    omega

theorem Inv.transmit (hon : hasFlag r.io.regs.ier ierThrEmpty = true) :
    Inv hw ram { r with machine := (uartIsrTx hw r.machine.here).above r.machine.waiting } := by
  rcases h.stage with hrests | ⟨done, b, hsends⟩
  · rw [hrests.off] at hon
    exact absurd hon (by simp)
  · obtain ⟨hdata, -⟩ | ⟨hcount, hisr⟩ | ⟨hcount, hisr⟩ := uartIsrTx_cases h.set hw
    · exact absurd hdata hsends.data
    · rw [hisr]
      exact (hsends.complete h hcount).1
    · rw [hisr]
      exact (hsends.refill h fun hnone => hcount (hsends.last hnone)).1

theorem Inv.step {ev : SsUartEvent} (hmoves : Moves hw r r' ev) (hkept : r.Kept hw ev) :
    r'.Inv hw ram := by
  cases hmoves with
  | same _ hsame => exact h.same hsame
  | hand b hbuf hlen hcalls heq =>
    rw [heq]
    exact h.write hbuf hlen hcalls hkept
  | transmit q _ hon heq =>
    rw [heq]
    exact h.transmit hon
  | ended waiting hwaiting heq =>
    rw [heq]
    exact h.leave hwaiting

end Steps

/-! ### The end of a buffer -/

def thrEmpty : SsUartEvent := .enter (.isr { iir := 0x2, msr := 0, lsr := 0, rbr := fun _ => 0 })

theorem reaches_idle (hwaiting : r.machine.waiting = waiting) (hnothing : .txEnd ∉ waiting) :
    Reaches (ssUartRunStep hw) Base r fun r' =>
      r' = { r with machine := ⟨r.machine.here, []⟩ } := by
  induction waiting generalizing r with
  | nil => exact Reaches.here (by rw [← hwaiting])
  | cons rest waiting ih =>
    obtain rfl : rest = .nothing := by
      cases rest with
      | nothing => rfl
      | txEnd => exact absurd List.mem_cons_self hnothing
    have hstep : ssUartRunStep hw r (.leave ()) =
        .ok { r with machine := ⟨r.machine.here, waiting⟩ } := by
      simp only [ssUartRunStep, Reentry.step, hwaiting, ssUartGiven, List.append_nil]
      rfl
    exact Reaches.after (by exact trivial) hstep
      (ih rfl fun hmem => hnothing (List.mem_cons_of_mem _ hmem))

section Ends

variable (h : r.Inv hw ram)
include h

theorem step_thrEmpty :
    ssUartRunStep hw r thrEmpty =
      .ok { r with machine := (uartIsrTx hw r.machine.here).above r.machine.waiting } := by
  simp only [ssUartRunStep, thrEmpty, Reentry.step, ssUartEnter, if_pos h.set.handle, ssUartGiven,
    List.append_nil]
  rfl

theorem Sends.reaches_rests (n : Nat) (hsends : r.Sends hw ram done b)
    (hwaiting : r.machine.waiting = []) (hn : b.len.toNat - r.io.txCount.toNat = n) :
    Reaches (ssUartRunStep hw) Base r fun r' => r'.given = r.given ∧ r'.Rests ram := by
  have hok : r.Base thrEmpty := ⟨hwaiting, .inl ⟨rfl, hsends.on⟩⟩
  -- on what is left of the buffer, of which every interrupt sends something
  induction n using Nat.strong_induction_on generalizing r with
  | _ n ih =>
    refine Reaches.after hok (step_thrEmpty h) ?_
    obtain ⟨hdata, -⟩ | ⟨hcount, hisr⟩ | ⟨hcount, hisr⟩ := uartIsrTx_cases h.set hw
    · exact absurd hdata hsends.data
    · rw [hisr]
      exact Reaches.here ⟨rfl, (hsends.complete h hcount).2⟩
    · rw [hisr]
      have hdepth : hw.fifoDepth ≠ 0 := fun hnone => hcount (hsends.last hnone)
      obtain ⟨hinv, hsends', hmore⟩ := hsends.refill h hdepth
      have hpos : 0 < hw.fifoDepth.toNat :=
        Nat.pos_of_ne_zero fun hc => hdepth (BitVec.eq_of_toNat_eq hc)
      have hlt : r.io.txCount.toNat < b.len.toNat := by
        refine Nat.lt_of_le_of_ne hsends.empties.count_le fun hc => hcount ?_
        rw [hsends.empties.size]
        exact BitVec.eq_of_toNat_eq hc
      exact ih _ (by
        show b.len.toNat - (r.io.refill hw.toSsUartHw).txCount.toNat < n
        omega) hinv hsends' hwaiting rfl ⟨hwaiting, .inl ⟨rfl, hsends'.on⟩⟩

/-- Whatever was handed over can be sent. -/
theorem Inv.reaches_rests :
    Reaches (ssUartRunStep hw) Base r fun r' => r'.given = r.given ∧ r'.Rests ram := by
  rcases h.stage with hrests | ⟨done, b, hsends⟩
  · exact Reaches.here ⟨rfl, hrests⟩
  · refine (reaches_idle rfl hsends.apart).bind ?_
    rintro _ rfl
    have hinv : Inv hw ram { r with machine := ⟨r.machine.here, []⟩ } :=
      h.same ⟨.refl _, rfl, rfl, rfl, rfl, by simp [hsends.apart]⟩
    exact Sends.reaches_rests hinv _ { hsends with apart := by simp } rfl rfl

end Ends

/-! ### A buffer without an end -/

/-- What was called back has been sent, what was sent is the beginning of all the buffers, and there
is a way to the end of each. -/
structure Streams (hw : SsUartPortHw) (ram : Word → Byte) (r : SsUartRun) : Prop where
  called : (r.given.take r.txCalls).flatMap (·.bytes ram) <+: r.sent
  begun : r.sent <+: r.given.flatMap (·.bytes ram)
  calls : r.txCalls ≤ r.given.length ∧ r.given.length ≤ r.txCalls + 1
  ends : Reaches (ssUartRunStep hw) Base r fun r' => r'.given = r.given ∧
    r'.sent = r.given.flatMap (·.bytes ram) ∧ r'.txCalls = r.given.length

theorem Inv.streams (h : r.Inv hw ram) : r.Streams hw ram := by
  obtain ⟨hcalled, hbegun, hcalls⟩ := h.accounted
  refine ⟨hcalled, hbegun, hcalls, h.reaches_rests.bind ?_⟩
  rintro r' ⟨hgiven, hrests⟩
  exact Reaches.here ⟨hgiven, hgiven ▸ hrests.sent, hgiven ▸ hrests.calls⟩

/-- A buffer is not called back before `txCount` has gone round, or never: its size is or will be
cleared, or an interrupt sends nothing of it.  `n` is what there is to send. -/
structure Endless (hw : SsUartPortHw) (n : Nat) (r : SsUartRun) : Prop where
  data : r.io.txData ≠ 0
  count : r.io.txCount.toNat ≠ 0
  round : n < r.sent.length + (2 ^ 32 - r.io.txCount.toNat)
  calls : r.txCalls < r.given.length
  cause : .txEnd ∈ r.machine.waiting ∨ r.io.txSize = 0 ∨
    hw.fifoDepth = 0 ∧ r.io.txCount ≠ r.io.txSize ∧ hasFlag r.io.regs.ier ierThreshold = true

/-- From here the buffers `bs` with their `n` bytes do not come to their end. -/
structure Missed (hw : SsUartPortHw) (bs : List DevBuffer) (n : Nat) (r : SsUartRun) : Prop where
  set : r.machine.here.TxSet
  cause : bs.length < r.given.length ∨ n < r.sent.length ∨ r.Endless hw n

theorem refill_le (hw : SsUartPortHw) (r : SsUartRun) (hsize : r.io.txSize = 0) :
    ∃ cnt : Word, r.io.refill hw.toSsUartHw = r.io.put cnt ∧
      cnt.toNat ≤ 2 ^ 32 - r.io.txCount.toNat := by
  have hload : (r.io.load hw.toSsUartHw).toNat ≤ 2 ^ 32 - r.io.txCount.toNat := by
    rw [SsUartInfo.load]
    split
    · show 1 ≤ _
      omega
    · have hzero : (0 : Word).toNat = 0 := rfl
      rw [capped_toNat, hsize, BitVec.toNat_sub, hzero]
      omega
  simp only [SsUartInfo.refill]
  split
  · refine ⟨_, rfl, ?_⟩
    rw [capped_toNat]
    omega
  · exact ⟨_, rfl, hload⟩

theorem refill_none (hset : r.machine.here.TxSet) (hnone : hw.fifoDepth = 0)
    (huses : hasFlag r.io.regs.ier ierThreshold = true) :
    r.io.refill hw.toSsUartHw = r.io.put 0 := by
  have huses' : r.io.regs.ier &&& ierThreshold ≠ 0 := by simpa [hasFlag] using huses
  have hcapped : capped (r.io.load hw.toSsUartHw) (hw.fifoDepth - r.io.txThreshold) = 0 := by
    refine BitVec.eq_of_toNat_eq ?_
    rw [capped_toNat, hnone, hset.threshold]
    exact Nat.min_zero _
  simp only [SsUartInfo.refill, if_pos huses', hcapped]

/-- The interrupt of the transmitter only sends more. -/
theorem Endless.transmit {n : Nat} (h : r.Endless hw n) (hset : r.machine.here.TxSet)
    (hwaiting : r.machine.waiting = []) :
    n < (r.withIo (r.io.refill hw.toSsUartHw)).sent.length ∨
      (r.withIo (r.io.refill hw.toSsUartHw)).Endless hw n := by
  have hround := h.round
  have hlength (cnt : Word) : (r.withIo (r.io.put cnt)).sent.length = r.sent.length + cnt.toNat := by
    simp [withIo, sent, SsUartInfo.put]
  have hsum (cnt : Word) : (r.io.put cnt).txCount.toNat = (r.io.txCount.toNat + cnt.toNat) % 2 ^ 32 :=
    BitVec.toNat_add ..
  rcases h.cause with hcaught | hsize | ⟨hnone, hcount, huses⟩
  · rw [hwaiting] at hcaught
    exact absurd hcaught (by simp)
  · obtain ⟨cnt, hrefill, hle⟩ := refill_le hw r hsize
    have hcount := h.count
    rw [hrefill, hlength]
    by_cases hwhole : r.io.txCount.toNat + cnt.toNat = 2 ^ 32
    · exact .inl (by omega)
    · have hstill := (hsum cnt).trans (Nat.mod_eq_of_lt (by omega))
      refine .inr ⟨h.data, ?_, ?_, h.calls, .inr (.inl hsize)⟩
      · show (r.io.put cnt).txCount.toNat ≠ 0
        omega
      · rw [hlength]
        show n < _ + (2 ^ 32 - (r.io.put cnt).txCount.toNat)
        omega
  · have hsame : (r.io.put 0).txCount = r.io.txCount := BitVec.add_zero _
    rw [refill_none hset hnone huses]
    refine .inr ⟨h.data, ?_, ?_, h.calls, .inr (.inr ⟨hnone, ?_, huses⟩)⟩
    · exact hsame ▸ h.count
    · rw [hlength]
      exact hsame ▸ hround
    · exact hsame ▸ hcount

theorem Endless.same {n : Nat} (h : r.Endless hw n) (hsame : r.Same r') : r'.Endless hw n := by
  have hio := hsame.io
  refine ⟨hio.data ▸ h.data, hio.count ▸ h.count, ?_, ?_, ?_⟩
  · rw [sent, hio.sent, hio.count]
    exact h.round
  · rw [hsame.calls, hsame.given]
    exact h.calls
  · rw [hsame.waiting, hio.size, hio.count, hio.hasFlag (by decide)]
    exact h.cause

theorem Missed.step {bs : List DevBuffer} {n : Nat} {ev : SsUartEvent} (h : r.Missed hw bs n)
    (hmoves : Moves hw r r' ev) : r'.Missed hw bs n := by
  cases hmoves with
  | same _ hsame =>
    refine ⟨hsame.set h.set, ?_⟩
    rw [hsame.given, sent, hsame.io.sent]
    exact h.cause.imp id (Or.imp id fun hendless => hendless.same hsame)
  | hand b hbuf hlen hcalls heq =>
    rw [heq]
    refine ⟨txSet_write h.set b.buf b.len, ?_⟩
    rcases h.cause with hmore | hover | hendless
    · exact .inl (by simp; omega)
    · obtain ⟨-, -, hsent, -⟩ := r.io.write_spec hw.toSsUartHw h.set.flow hlen
      refine .inr (.inl ?_)
      show n < (r.io.write hw.toSsUartHw b.buf b.len).sent.length
      rw [hsent, List.length_append]
      exact Nat.lt_of_lt_of_le hover (Nat.le_add_right _ _)
    · exact absurd hcalls (Nat.ne_of_lt hendless.calls)
  | transmit q hwaiting _ heq =>
    rw [heq]
    obtain ⟨hdata, hisr⟩ | ⟨hcount, hisr⟩ | ⟨hcount, hisr⟩ := uartIsrTx_cases h.set hw
    all_goals rw [hisr]
    · refine ⟨{ h.set with }, h.cause.imp id (Or.imp id fun hendless => ?_)⟩
      exact absurd hdata hendless.data
    · refine ⟨{ h.set with }, h.cause.imp id (Or.imp id fun hendless => ?_)⟩
      have hpos := hendless.count
      rcases hendless.cause with hcaught | hsize | ⟨-, hne, -⟩
      · rw [hwaiting] at hcaught
        exact absurd hcaught (by simp)
      · rw [hcount, hsize] at hpos
        exact absurd rfl hpos
      · exact absurd hcount hne
    · obtain ⟨cnt, hrefill⟩ : ∃ cnt, r.io.refill hw.toSsUartHw = r.io.put cnt := ⟨_, rfl⟩
      have hset : (r.withIo (r.io.refill hw.toSsUartHw)).machine.here.TxSet := by
        rw [hrefill]
        exact { h.set with }
      refine ⟨hset, ?_⟩
      rcases h.cause with hmore | hover | hendless
      · exact .inl hmore
      · refine .inr (.inl ?_)
        show n < (r.io.refill hw.toSsUartHw).sent.length
        rw [hrefill, SsUartInfo.put, List.length_append]
        exact Nat.lt_of_lt_of_le hover (Nat.le_add_right _ _)
      · exact .inr (hendless.transmit h.set hwaiting)
  | ended waiting hwaiting heq =>
    rw [heq]
    exact ⟨{ h.set with }, h.cause.imp id (Or.imp id fun hendless =>
      ⟨hendless.data, hendless.count, hendless.round, hendless.calls, .inr (.inl rfl)⟩)⟩

theorem Missed.not_streams (h : r.Missed hw r.given (r.given.flatMap (·.bytes ram)).length) :
    ¬ r.Streams hw ram := by
  intro hstreams
  obtain ⟨es, r', hrun, hgiven, hsent, hcalls⟩ := hstreams.ends
  have hmissed := hrun.invariant (I := Missed hw r.given (r.given.flatMap (·.bytes ram)).length)
    (fun _ _ _ h hbase hstep => h.step (moves h.set hbase hstep)) h
  rcases hmissed.cause with hmore | hover | hendless
  · rw [hgiven] at hmore
    exact Nat.lt_irrefl _ hmore
  · rw [hsent] at hover
    exact Nat.lt_irrefl _ hover
  · have hfewer := hendless.calls
    rw [hcalls, hgiven] at hfewer
    exact Nat.lt_irrefl _ hfewer

/-- A buffer that is handed over inside the callback of the one before has no end, and neither has
one of several bytes without a FIFO. -/
theorem Inv.missed (h : r.Inv hw ram) (hbuf : b.buf ≠ 0) (hlen : b.len ≠ 0)
    (hcalls : r.txCalls = r.given.length)
    (hbad : ¬(.txEnd ∉ r.machine.waiting ∧ (hw.fifoDepth = 0 → b.len = 1))) :
    ¬ Streams hw ram { r.withIo (r.io.write hw.toSsUartHw b.buf b.len) with
      given := r.given ++ [b] } := by
  obtain ⟨hempties, hcount, hsent, hier⟩ :=
    r.io.write_spec hw.toSsUartHw h.set.flow hlen
  have hpos : b.len.toNat ≠ 0 := fun hc => hlen (BitVec.eq_of_toNat_eq hc)
  have hsent' : (r.io.write hw.toSsUartHw b.buf b.len).sent.length =
      (r.given.flatMap (·.bytes ram)).length +
        (r.io.write hw.toSsUartHw b.buf b.len).txCount.toNat := by
    rw [hsent, hcount, ← (h.rests_of_calls hcalls).sent, List.length_append, List.length_take,
      DevBuffer.length_bytes]
    show r.io.sent.length + _ = r.io.sent.length + _
    omega
  refine Missed.not_streams ⟨txSet_write h.set b.buf b.len, .inr (.inr ⟨?_, ?_, ?_, ?_, ?_⟩)⟩
  · show (r.io.write hw.toSsUartHw b.buf b.len).txData ≠ 0
    rw [hempties.data]
    exact hbuf
  · show (r.io.write hw.toSsUartHw b.buf b.len).txCount.toNat ≠ 0
    omega
  · show _ < (r.io.write hw.toSsUartHw b.buf b.len).sent.length +
      (2 ^ 32 - (r.io.write hw.toSsUartHw b.buf b.len).txCount.toNat)
    rw [hsent', List.flatMap_append, List.length_append, List.flatMap_singleton,
      DevBuffer.length_bytes]
    omega
  · show r.txCalls < (r.given ++ [b]).length
    rw [hcalls, List.length_append]
    exact Nat.lt_succ_self _
  · rcases Classical.not_and_iff_not_or_not.mp hbad with hcaught | hlong
    · exact .inl (not_not.mp hcaught)
    · obtain ⟨hnone, hmany⟩ := Classical.not_imp.mp hlong
      refine .inr (.inr ⟨hnone, fun hc => hmany ?_, ?_⟩)
      · refine BitVec.eq_of_toNat_eq ?_
        have hc : (r.io.write hw.toSsUartHw b.buf b.len).txCount =
          (r.io.write hw.toSsUartHw b.buf b.len).txSize := hc
        rw [← hempties.size, ← hc, hcount, hnone]
        show min _ (max 0 1) = 1
        omega
      · show hasFlag (r.io.write hw.toSsUartHw b.buf b.len).regs.ier ierThreshold = true
        rw [hier]
        exact hasFlag_or_self _ (by decide)

end SsUartRun

def ssUartSmall : SsUartPortHw where
  present := true
  fifoDepth := 1
  busFreq := 50000000

/-- An open device with callbacks, and with the low byte of the address in every byte of its
memory. -/
def ssUartOpened : SsUart where
  io := { SsUartInfo.fresh with
    handle := true
    cbs := { txCb := 0x100, rxCb := 0x200, errCb := 0x300 }
    rxThreshold := 1
    ram := fun a => a.setWidth 8 }
  opnCnt := 1
  baudrate := 115200
  flags := 0
  cbs := { txCb := 0x400, rxCb := 0x500, errCb := 0x600 }
  intCbs := { txCb := 0x100, rxCb := 0x200, errCb := 0x300 }
  irq := true
  calls := []

def ssUartHand (buf len : Word) : SsUartEvent :=
  .enter (.control (.setTxintBuf (some { buf, len, ofs := 0 })))

instance SsUartRun.decBase (r : SsUartRun) (ev : SsUartEvent) : Decidable (r.Base ev) := by
  unfold SsUartRun.Base
  split <;> infer_instance

instance SsUartRun.decKept (hw : SsUartPortHw) (r : SsUartRun) (ev : SsUartEvent) :
    Decidable (r.Kept hw ev) := by
  unfold SsUartRun.Kept
  split <;> infer_instance

end Embarc
