/-
Reception by interrupt through the UART.

Bytes come into the receive FIFO, and the interrupt routine takes them out.  With a buffer set and
the receive interrupt on, what the routine has read is what stands in the buffer, in the order in
which it came in, and the callback is made with the byte that fills the buffer.  This holds for as
long as the routine is called for data.  It is also called for a character timeout, when bytes have
been in the FIFO for a while, and then it reads one and drops it.
-/
import Embarc.Proofs.UartPort

namespace Embarc

open Trace

/-! ### The device with its receive FIFO -/

/-- A UART, what is in its receive FIFO, and the bytes that came in and that the driver has read. -/
structure UartRx where
  port : UartPort
  fifo : List Byte
  came : List Byte
  read : List Byte

/-- A byte comes in, an interrupt is taken, or the driver is called.  The bytes `late` come in while
the interrupt routine looks at the FIFO. -/
inductive UartRxEv where
  | arrive (c : Byte)
  | isr (iir : UartIir) (room : Nat) (late : List Byte)
  | call (op : UartOp)

def uartRxStep (hw : UartHw) (env : Word → UartPort → UartPort) (s : UartRx) :
    UartRxEv → Except UartStop UartRx
  | .arrive c => .ok { s with fifo := s.fifo ++ [c], came := s.came ++ [c] }
  | .isr iir room late =>
    let (taken, left) := dwUartIsrTake s.port.dev iir (s.fifo ++ late)
    (uartStep hw env s.port (.isr iir room (s.fifo ++ late))).map fun port =>
      { port, fifo := left, came := s.came ++ late, read := s.read ++ taken }
  | .call op => (uartStep hw env s.port op).map fun port => { s with port }

def UartPort.rxCalls (p : UartPort) : Nat := p.calls.countP fun call => call.cbrtn = .rx

/-- Calls that leave a reception alone.  An open that makes the count wrap would initialise the
device, and the last close turns it off.  The last part of the interrupt routine comes behind the
callback, when the receive interrupt is off. -/
def UartOp.LeavesRx (p : UartPort) : UartOp → Prop
  | .opened _ => p.dev.opnCnt + 1 < 2 ^ 32
  | .close => 1 < p.dev.opnCnt
  | .control (.setCb (.ofDir .rx) _) => False
  | .control (.transfer (.setInt .rx _)) => False
  | .control (.transfer (.setIntBuf .rx _ _)) => False
  | .abortBegin .rx => False
  | .isr _ _ _ => False
  | .isrEnd .rx => p.dev.rxInt = false
  | _ => True

/-- The controller asks for a reader only if the receive interrupt is on. -/
def UartRxEv.Fits (s : UartRx) : UartRxEv → Prop
  | .arrive _ => True
  | .isr iir _ _ => iir = .dataAvail ∨ iir = .rxTimeout → s.port.dev.rxInt = true
  | .call op => op.LeavesRx s.port

/-- A character timeout finds nothing to read. -/
def UartRxEv.NoTimeout (s : UartRx) : UartRxEv → Prop
  | .isr .rxTimeout _ late => s.fifo ++ late = []
  | _ => True

/-- At the start of a reception into `b`. -/
structure UartRx.Armed (b : DevBuffer) (s : UartRx) : Prop where
  opnCnt : s.port.dev.opnCnt ≠ 0
  rxInt : s.port.dev.rxInt = true
  rxBuf : s.port.dev.rxBuf = b
  ofs : b.ofs = 0
  buf : b.buf ≠ 0
  len : b.len ≠ 0
  callback : s.port.cbs.rxCb ≠ 0
  read : s.read = []
  came : s.came = s.fifo

/-- The bytes stand one behind the other at an address. -/
def Holds (mem : Word → Byte) (addr : Word) (bytes : List Byte) : Prop :=
  ∀ i (h : i < bytes.length), mem (addr + BitVec.ofNat 32 i) = bytes[i]

/-- The receive interrupt is on, the bytes read so far are in the buffer `b`, and there is room for
more. -/
structure UartDev.Filling (b : DevBuffer) (read : List Byte) (s : UartDev) : Prop where
  room : read.length < b.len.toNat
  rxInt : s.rxInt = true
  rxBuf : s.rxBuf = { b with ofs := BitVec.ofNat 32 read.length }

/-- Nothing that was read is lost: it is in the buffer, in the order in which it came in, and the
callback is made, and the interrupt turned off, when the buffer is full. -/
structure UartRx.Stored (b : DevBuffer) (calls : Nat) (s : UartRx) : Prop where
  order : s.came = s.read ++ s.fifo
  held : Holds s.port.dev.mem b.buf s.read
  progress :
    (s.port.dev.Filling b s.read ∧ s.port.rxCalls = calls) ∨
    (s.read.length = b.len.toNat ∧ s.port.dev.rxInt = false ∧ s.port.rxCalls = calls + 1)

/-! ### The loop that receives -/

theorem Holds.nil (mem : Word → Byte) (addr : Word) : Holds mem addr [] := by
  intro i hi
  exact absurd hi (Nat.not_lt_zero i)

theorem Holds.snoc {mem : Word → Byte} {addr : Word} {bytes : List Byte} (h : Holds mem addr bytes)
    (hlen : bytes.length < 2 ^ 32) (c : Byte) :
    Holds (Function.update mem (addr + BitVec.ofNat 32 bytes.length) c) addr (bytes ++ [c]) := by
  intro i hi
  rw [List.length_append, List.length_singleton] at hi
  by_cases hlast : i = bytes.length
  · subst hlast
    rw [Function.update_self, List.getElem_concat_length rfl]
  · have hbefore : i < bytes.length := by omega
    have hne : addr + BitVec.ofNat 32 i ≠ addr + BitVec.ofNat 32 bytes.length := by
      intro heq
      have hofs := congrArg BitVec.toNat ((BitVec.add_right_inj addr).mp heq)
      rw [BitVec.toNat_ofNat, BitVec.toNat_ofNat, Nat.mod_eq_of_lt (by omega),
        Nat.mod_eq_of_lt hlen] at hofs
      exact hlast hofs
    rw [Function.update_of_ne hne, List.getElem_append_left hbefore]
    exact h i hbefore

theorem rxInt_disCbr (s : UartDev) : (dwUartDisCbr s .rx).rxInt = false := by
  unfold dwUartDisCbr
  dsimp only
  split <;> rfl

theorem mem_disCbr (s : UartDev) (d : Dir) : (dwUartDisCbr s d).mem = s.mem := by
  unfold dwUartDisCbr
  cases d <;> dsimp only <;> split <;> rfl

/-- The loop goes on with the buffer, or it fills the buffer and turns the interrupt off.  It stores
what it takes. -/
theorem UartDev.Filling.receive {b : DevBuffer} {read : List Byte} {s : UartDev}
    (h : s.Filling b read) (hheld : Holds s.mem b.buf read) (chars : List Byte) :
    (dwUartTake chars s.rxBuf).1 ++ (dwUartTake chars s.rxBuf).2 = chars ∧
    Holds (dwUartReceive chars s).2.mem b.buf (read ++ (dwUartTake chars s.rxBuf).1) ∧
    (((dwUartReceive chars s).1 = .nothing ∧
        (dwUartReceive chars s).2.Filling b (read ++ (dwUartTake chars s.rxBuf).1)) ∨
      ((dwUartReceive chars s).1 = .complete .rx ∧ (dwUartReceive chars s).2.rxInt = false ∧
        (read ++ (dwUartTake chars s.rxBuf).1).length = b.len.toNat)) := by
  induction chars generalizing read s with
  | nil =>
    simp only [dwUartTake, dwUartReceive, List.append_nil]
    exact ⟨trivial, hheld, .inl ⟨trivial, h⟩⟩
  | cons c chars ih =>
    have hroom := h.room
    have hbase : s.rxBuf.buf = b.buf := by rw [h.rxBuf]
    have htop : s.rxBuf.len = b.len := by rw [h.rxBuf]
    have hofs : s.rxBuf.ofs = BitVec.ofNat 32 read.length := by rw [h.rxBuf]
    have hnext : s.rxBuf.ofs + 1 = BitVec.ofNat 32 (read ++ [c]).length := by
      rw [hofs, List.length_append, List.length_singleton, BitVec.ofNat_add]
      rfl
    have hheld' : Holds (Function.update s.mem (s.rxBuf.buf + s.rxBuf.ofs) c) b.buf
        (read ++ [c]) := by
      rw [hbase, hofs]
      exact hheld.snoc (by omega) c
    have hfull : s.rxBuf.ofs + 1 ≥ s.rxBuf.len ↔ (read ++ [c]).length = b.len.toNat := by
      rw [hnext, htop, ge_iff_le, BitVec.le_def, BitVec.toNat_ofNat, List.length_append,
        List.length_singleton, Nat.mod_eq_of_lt (by omega)]
      omega
    by_cases hdone : s.rxBuf.ofs + 1 ≥ s.rxBuf.len
    · simp only [dwUartTake, dwUartReceive, if_pos hdone]
      refine ⟨rfl, ?_, .inr ⟨trivial, rxInt_disCbr _, hfull.mp hdone⟩⟩
      rw [mem_disCbr]
      exact hheld'
    · simp only [dwUartTake, dwUartReceive, if_neg hdone]
      have hfilling : UartDev.Filling b (read ++ [c]) { s with
          mem := Function.update s.mem (s.rxBuf.buf + s.rxBuf.ofs) c
          rxBuf := { s.rxBuf with ofs := s.rxBuf.ofs + 1 } } := by
        refine ⟨?_, h.rxInt, ?_⟩
        · have hnot : (read ++ [c]).length ≠ b.len.toNat := fun hlast => hdone (hfull.mpr hlast)
          rw [List.length_append, List.length_singleton] at hnot ⊢
          omega
        · dsimp only
          rw [hnext, hbase, htop]
      obtain ⟨hsplit, hstored, hcases⟩ := ih hfilling hheld'
      rw [← List.append_cons] at hstored hcases
      exact ⟨congrArg (c :: ·) hsplit, hstored, hcases⟩

/-! ### What leaves the reception alone -/

def UartDev.rxSide (s : UartDev) : DevBuffer × Bool × (Word → Byte) := (s.rxBuf, s.rxInt, s.mem)

/-- The receiving side of the port stays as it is.  With the receive interrupt off, the buffer may be
cleared. -/
structure UartPort.SameRx (p p' : UartPort) : Prop where
  rxInt : p'.dev.rxInt = p.dev.rxInt
  mem : p'.dev.mem = p.dev.mem
  rxBuf : p.dev.rxInt = true → p'.dev.rxBuf = p.dev.rxBuf
  rxCb : p'.cbs.rxCb = p.cbs.rxCb
  calls : p'.rxCalls = p.rxCalls
  opnCnt : p.dev.opnCnt ≠ 0 → p'.dev.opnCnt ≠ 0

namespace UartPort

variable {hw : UartHw} {env : Word → UartPort → UartPort} {p p' p'' : UartPort}

namespace SameRx

theorem refl (p : UartPort) : p.SameRx p := ⟨rfl, rfl, fun _ => rfl, rfl, rfl, id⟩

theorem trans (h : p.SameRx p') (h' : p'.SameRx p'') : p.SameRx p'' where
  rxInt := h'.rxInt.trans h.rxInt
  mem := h'.mem.trans h.mem
  rxBuf := fun hon => (h'.rxBuf (h.rxInt.trans hon)).trans (h.rxBuf hon)
  rxCb := h'.rxCb.trans h.rxCb
  calls := h'.calls.trans h.calls
  opnCnt := fun hopen => h'.opnCnt (h.opnCnt hopen)

theorem of_dev (hside : p'.dev.rxSide = p.dev.rxSide) (hcnt : p'.dev.opnCnt = p.dev.opnCnt)
    (hcbs : p'.cbs = p.cbs) (hcalls : p'.calls = p.calls) : p.SameRx p' where
  rxInt := congrArg (·.2.1) hside
  mem := congrArg (·.2.2) hside
  rxBuf := fun _ => congrArg (·.1) hside
  rxCb := congrArg DevCbs.rxCb hcbs
  calls := congrArg (·.countP fun call => call.cbrtn = .rx) hcalls
  opnCnt := fun hopen => hcnt ▸ hopen

section
variable (hw : UartHw) (p : UartPort)

theorem writeIer (val : Word) : p.SameRx (p.writeIer val) := by
  unfold UartPort.writeIer
  split <;> exact .of_dev rfl rfl rfl rfl

theorem disCbr : p.SameRx (p.disCbr hw .tx) := by
  have hier := writeIer p (p.readIer &&& ~~~Dir.tx.uartIer)
  unfold UartPort.disCbr
  dsimp only
  split <;> exact hier.trans (.of_dev rfl rfl rfl rfl)

theorem enaCbr : p.SameRx (p.enaCbr hw .tx) := by
  have hint : p.SameRx { p with dev := p.dev.withInt .tx true } := .of_dev rfl rfl rfl rfl
  have hier := hint.trans (writeIer _ (p.readIer ||| Dir.tx.uartIer))
  unfold UartPort.enaCbr
  dsimp only
  split <;> exact hier.trans (.of_dev rfl rfl rfl rfl)

theorem setBaud (d : Word) : p.SameRx (dwUartSetBaud p d) := by
  rw [dwUartSetBaud_eq]
  exact .of_dev rfl rfl rfl rfl

theorem setHwfc (hwfc : Word) : p.SameRx (dwUartSetHwfc p hwfc) := by
  obtain ⟨mcr, hset⟩ := dwUartSetHwfc_eq p hwfc
  rw [hset]
  exact .of_dev rfl rfl rfl rfl

theorem setDps (dps : UartDps) : p.SameRx (dwUartSetDps p dps).2 := by
  obtain ⟨lcr, hset, -⟩ := dwUartSetDps_eq p dps
  rw [hset]
  exact .of_dev rfl rfl rfl rfl

theorem call : p.SameRx (p.call .tx) := by
  unfold UartPort.call
  split
  · refine ⟨rfl, rfl, fun _ => rfl, rfl, ?_, id⟩
    simp [rxCalls]
  · exact .refl p

theorem enableDevice : p.SameRx (dwUartEnableDevice p) := by
  unfold dwUartEnableDevice
  split
  · exact (setBaud p _).trans (.of_dev rfl rfl rfl rfl)
  · exact .refl p

theorem disableDevice : p.SameRx (dwUartDisableDevice p) := by
  unfold dwUartDisableDevice
  split
  · exact (setBaud p _).trans (.of_dev rfl rfl rfl rfl)
  · exact .refl p

theorem writeData (val : Word) : p.SameRx (p.writeData val) := by
  unfold UartPort.writeData
  split <;> exact .of_dev rfl rfl rfl rfl

theorem writeAll (chars : List Byte) (p : UartPort) :
    p.SameRx (chars.foldl (fun p c => p.writeData (c.signExtend 32)) p) := by
  induction chars generalizing p with
  | nil => exact .refl p
  | cons c chars ih => exact (writeData p _).trans (ih _)

theorem flushOutput : p.SameRx (dwUartFlushOutput p) := by
  unfold dwUartFlushOutput
  split
  · exact (writeAll _ p).trans (.of_dev rfl rfl rfl rfl)
  · exact .refl p

theorem abortBegin : p.SameRx (dwUartAbortBegin hw p .tx) := by
  refine (disCbr hw p).trans (trans ?_ (call _))
  exact .of_dev rfl rfl rfl rfl

end

theorem command {cmd : UartCtrl} {answer : DevAnswer}
    (hleaves : (UartOp.control cmd).LeavesRx p)
    (h : dwUartCommand hw p cmd = .ok (answer, p')) : p.SameRx p' := by
  simp only [dwUartCommand] at h
  obtain rfl | ⟨-, h⟩ := check_cases h
  · exact .refl _
  obtain rfl | ⟨-, h⟩ := check_cases h
  · exact .refl _
  cases cmd with try cases h
  | setBaud val =>
    obtain rfl | ⟨-, h⟩ := check_cases h
    · exact .refl _
    obtain rfl | ⟨-, h⟩ := check_cases h
    · exact .refl _
    split_ifs at h
    cases h
    exact (setBaud p _).trans (.of_dev rfl rfl rfl rfl)
  | getStatus | getRxavail | getTxavail | unknown => exact .refl _
  | enaDev => exact .enableDevice p
  | disDev => exact .disableDevice p
  | flushOutput => exact .flushOutput p
  | breakSet | breakClr => exact .of_dev rfl rfl rfl rfl
  | setDpsFormat param dps =>
    obtain rfl | ⟨-, h⟩ := check_cases h
    · exact .refl _
    split at h <;> cases h
    · exact (setDps p dps).trans (.of_dev rfl rfl rfl rfl)
    · exact .setDps p dps
  | setHwfc val =>
    obtain rfl | ⟨-, h⟩ := check_cases h
    · exact .refl _
    cases h
    exact (setHwfc p val).trans (.of_dev rfl rfl rfl rfl)
  | setCb which param =>
    obtain rfl | ⟨-, h⟩ := check_cases h
    · exact .refl _
    cases h
    rcases which with (_ | _) | _
    · exact ⟨rfl, rfl, fun _ => rfl, rfl, rfl, id⟩
    · exact absurd hleaves id
    · exact ⟨rfl, rfl, fun _ => rfl, rfl, rfl, id⟩
  | transfer cmd =>
    cases cmd with
    | setInt d val =>
      cases d with
      | rx => exact absurd hleaves id
      | tx =>
        cases h
        split
        · exact .disCbr hw p
        · exact .enaCbr hw p
    | setIntBuf d param devbuf =>
      cases d with
      | rx => exact absurd hleaves id
      | tx =>
        obtain rfl | ⟨-, h⟩ := check_cases h
        · exact .refl _
        cases h
        exact .of_dev rfl rfl rfl rfl

theorem opened {baud : Word} {ercd : Int} (hopen : p.dev.opnCnt ≠ 0)
    (hfew : p.dev.opnCnt + 1 < 2 ^ 32) (h : dwUartOpen hw p baud = .ok (ercd, p')) : p.SameRx p' := by
  obtain rfl | ⟨-, h⟩ := check_cases h
  · exact .refl _
  rw [Nat.mod_eq_of_lt hfew, if_pos (by dsimp only; omega)] at h
  cases h
  exact ⟨rfl, rfl, fun _ => rfl, rfl, rfl, fun _ => Nat.succ_ne_zero _⟩

theorem step {op : UartOp} (hopen : p.dev.opnCnt ≠ 0) (hleaves : op.LeavesRx p)
    (h : uartStep hw env p op = .ok p') : p.SameRx p' := by
  cases op with
  | opened baud =>
    obtain ⟨⟨ercd, q⟩, hq, rfl⟩ := Except.exists_of_map_eq_ok h
    exact .opened hopen hleaves hq
  | close =>
    cases h
    have hmany : 1 < p.dev.opnCnt := hleaves
    simp only [dwUartClose, if_neg hopen, if_neg (Nat.sub_ne_zero_of_lt hmany)]
    exact ⟨rfl, rfl, fun _ => rfl, rfl, rfl, fun _ => Nat.sub_ne_zero_of_lt hmany⟩
  | control cmd =>
    obtain ⟨⟨answer, q⟩, hq, rfl⟩ := Except.exists_of_map_eq_ok h
    exact .command hleaves hq
  | abortBegin d =>
    cases d with
    | rx => exact absurd hleaves id
    | tx =>
      dsimp only [uartStep] at h
      split at h <;> cases h
      · exact .abortBegin hw p
      · exact .refl _
  | abortEnd d =>
    cases h
    exact .of_dev rfl rfl rfl rfl
  | isr iir room chars => exact absurd hleaves id
  | isrEnd d =>
    cases h
    cases d with
    | tx => exact .of_dev rfl rfl rfl rfl
    | rx =>
      have hoff : p.dev.rxInt = false := hleaves
      exact ⟨rfl, rfl, fun hon => by simp [hoff] at hon, rfl, rfl, id⟩

end SameRx

end UartPort

/-! ### The interrupt routine -/

theorem rxSide_disCbr (s : UartDev) : (dwUartDisCbr s .tx).rxSide = s.rxSide := by
  unfold dwUartDisCbr
  dsimp only
  split <;> rfl

/-- The loop that sends does not touch the receiving side, and asks for no receive callback. -/
theorem rxSide_send (room : Nat) (s : UartDev) :
    (dwUartSend room s).2.2.rxSide = s.rxSide ∧
      ((dwUartSend room s).2.1 = .nothing ∨ (dwUartSend room s).2.1 = .complete .tx) := by
  induction room generalizing s with
  | zero => exact ⟨rfl, .inl rfl⟩
  | succ room ih =>
    simp only [dwUartSend]
    split
    · exact ⟨rxSide_disCbr _, .inr rfl⟩
    · exact ih _

variable {iir : UartIir} {e : UartRxEv}

theorem rxSide_serve (s : UartDev) (hiir : iir ≠ .dataAvail) (room : Nat) (chars : List Byte) :
    (dwUartServe s iir room chars).2.2.rxSide = s.rxSide ∧
      (dwUartServe s iir room chars).2.1 ≠ .complete .rx ∧
      (dwUartServe s iir room chars).2.1 ≠ .noBuffer .rx := by
  cases iir with
  | xmitEmpty =>
    simp only [dwUartServe]
    split
    · obtain ⟨hside, hdue⟩ := rxSide_send room s
      rcases hdue with hdue | hdue <;> rw [hdue] <;> exact ⟨hside, by simp, by simp⟩
    · exact ⟨rfl, by simp, by simp⟩
  | dataAvail => exact absurd rfl hiir
  | mdmStatus | lineStatus | rxTimeout | other => simp [dwUartServe]

namespace UartPort

variable {hw : UartHw} {p : UartPort}

theorem isr_dev (hw : UartHw) (p : UartPort) (iir : UartIir) (room : Nat) (chars : List Byte) :
    (p.isr hw iir room chars).dev = (dwUartServe p.dev iir room chars).2.2 ∧
      (p.isr hw iir room chars).cbs = p.cbs := by
  have hcall : ∀ (q : UartPort) (d : Dir), (q.call d).dev = q.dev ∧ (q.call d).cbs = q.cbs := by
    intro q d
    unfold UartPort.call
    split <;> exact ⟨rfl, rfl⟩
  unfold UartPort.isr
  dsimp only
  split
  · exact ⟨rfl, rfl⟩
  · exact hcall _ _
  · exact hcall _ _

theorem isr_rxCalls (hw : UartHw) (p : UartPort) (iir : UartIir) (room : Nat) (chars : List Byte) :
    (p.isr hw iir room chars).rxCalls = p.rxCalls +
      if ((dwUartServe p.dev iir room chars).2.1 = .complete .rx ∨
        (dwUartServe p.dev iir room chars).2.1 = .noBuffer .rx) ∧ p.cbs.rxCb ≠ 0 then 1 else 0 := by
  have hcall : ∀ (q : UartPort) (d : Dir), q.cbs = p.cbs → q.calls = p.calls →
      (q.call d).rxCalls = p.rxCalls + if d = .rx ∧ p.cbs.rxCb ≠ 0 then 1 else 0 := by
    intro q d hcbs hcalls
    unfold UartPort.call rxCalls
    cases d with
    | tx => split <;> simp [hcalls]
    | rx =>
      simp only [DevCbs.of, hcbs]
      split <;> simp_all
  unfold UartPort.isr
  dsimp only
  split
  case h_1 hdue => simp [hdue, rxCalls]
  case h_2 d hdue =>
    refine Eq.trans (hcall _ d ?_ ?_) ?_
    · rfl
    · rfl
    · simp [hdue]
  case h_3 d hdue =>
    refine Eq.trans (hcall _ d ?_ ?_) ?_
    · rfl
    · rfl
    · simp [hdue]

theorem SameRx.isr (hiir : iir ≠ .dataAvail) (room : Nat) (chars : List Byte) :
    p.SameRx (p.isr hw iir room chars) := by
  obtain ⟨hdev, hcbs⟩ := isr_dev hw p iir room chars
  obtain ⟨hside, hcomplete, hnone⟩ := rxSide_serve p.dev hiir room chars
  have hcnt := (UartDev.Kept.serve p.dev iir room chars).opnCnt
  refine ⟨?_, ?_, fun _ => ?_, ?_, ?_, ?_⟩
  · rw [hdev]
    exact congrArg (·.2.1) hside
  · rw [hdev]
    exact congrArg (·.2.2) hside
  · rw [hdev]
    exact congrArg (·.1) hside
  · rw [hcbs]
  · rw [isr_rxCalls, if_neg fun h => h.1.elim hcomplete hnone, Nat.add_zero]
  · rw [hdev, hcnt]
    exact id

end UartPort

section
variable {hw : UartHw} {env : Word → UartPort → UartPort} {b : DevBuffer} {calls : Nat}
  {s s' : UartRx}

theorem UartRx.Stored.same {port : UartPort} (h : s.Stored b calls) (hsame : s.port.SameRx port)
    (late : List Byte) :
    UartRx.Stored b calls
      { s with port, fifo := s.fifo ++ late, came := s.came ++ late } := by
  refine ⟨?_, ?_, ?_⟩
  · show s.came ++ late = s.read ++ (s.fifo ++ late)
    rw [h.order, List.append_assoc]
  · show Holds port.dev.mem b.buf s.read
    rw [hsame.mem]
    exact h.held
  · rcases h.progress with ⟨hfilling, hcalls⟩ | ⟨hfull, hoff, hcalls⟩
    · refine .inl ⟨⟨hfilling.room, ?_, ?_⟩, hsame.calls.trans hcalls⟩
      · exact hsame.rxInt.trans hfilling.rxInt
      · exact (hsame.rxBuf hfilling.rxInt).trans hfilling.rxBuf
    · exact .inr ⟨hfull, hsame.rxInt.trans hoff, hsame.calls.trans hcalls⟩

theorem UartRx.Stored.dataAvail (h : s.Stored b calls) (hbuf : b.buf ≠ 0)
    (hcb : s.port.cbs.rxCb ≠ 0) (hon : s.port.dev.rxInt = true) (room : Nat) (late : List Byte) :
    UartRx.Stored b calls
      { port := s.port.isr hw .dataAvail room (s.fifo ++ late)
        fifo := (dwUartIsrTake s.port.dev .dataAvail (s.fifo ++ late)).2
        came := s.came ++ late
        read := s.read ++ (dwUartIsrTake s.port.dev .dataAvail (s.fifo ++ late)).1 } := by
  have hprogress : s.port.dev.Filling b s.read ∧ s.port.rxCalls = calls := by
    rcases h.progress with hfilling | ⟨-, hoff, -⟩
    · exact hfilling
    · simp [hoff] at hon
  obtain ⟨hfilling, hcalls⟩ := hprogress
  have hset : s.port.dev.rxBuf.buf ≠ 0 := by rwa [hfilling.rxBuf]
  obtain ⟨hsplit, hheld, hcases⟩ := hfilling.receive h.held (s.fifo ++ late)
  have htake : dwUartIsrTake s.port.dev .dataAvail (s.fifo ++ late) =
      dwUartTake (s.fifo ++ late) s.port.dev.rxBuf := if_pos hset
  have hserve : (dwUartServe s.port.dev .dataAvail room (s.fifo ++ late)).2 =
      dwUartReceive (s.fifo ++ late) s.port.dev := if_pos hset
  obtain ⟨hdev, -⟩ := UartPort.isr_dev hw s.port .dataAvail room (s.fifo ++ late)
  have hnumber := UartPort.isr_rxCalls hw s.port .dataAvail room (s.fifo ++ late)
  rw [hserve] at hdev hnumber
  rw [htake]
  refine ⟨?_, ?_, ?_⟩
  · show s.came ++ late = s.read ++ _ ++ _
    rw [h.order, List.append_assoc, List.append_assoc, hsplit]
  · show Holds (s.port.isr hw .dataAvail room (s.fifo ++ late)).dev.mem b.buf _
    rw [hdev]
    exact hheld
  · rcases hcases with ⟨hdue, hnext⟩ | ⟨hdue, hoff, hfull⟩
    · rw [hdue, if_neg (by simp), Nat.add_zero] at hnumber
      refine .inl ⟨?_, hnumber.trans hcalls⟩
      rw [hdev]
      exact hnext
    · rw [hdue, if_pos ⟨.inl rfl, hcb⟩] at hnumber
      refine .inr ⟨hfull, ?_, hnumber.trans (by rw [hcalls])⟩
      rw [hdev]
      exact hoff

theorem UartRx.Stored.timeout (h : s.Stored b calls) (hon : s.port.dev.rxInt = true) {room : Nat}
    {chars fifo came : List Byte} {c : Byte} :
    ¬UartRx.Stored b calls
      { port := s.port.isr hw .rxTimeout room chars, fifo, came, read := s.read ++ [c] } := by
  intro hafter
  have hsame : s.port.SameRx (s.port.isr hw .rxTimeout room chars) :=
    .isr (by decide) room chars
  rcases hafter.progress with ⟨hnext, -⟩ | ⟨-, hoff, -⟩
  · rcases h.progress with ⟨hfilling, -⟩ | ⟨-, hoff, -⟩
    · -- the routine leaves the offset as it is
      have hofs : BitVec.ofNat 32 s.read.length = BitVec.ofNat 32 (s.read ++ [c]).length :=
        congrArg DevBuffer.ofs (hfilling.rxBuf.symm.trans ((hsame.rxBuf hon).symm.trans hnext.rxBuf))
      have hroom := hnext.room
      rw [List.length_append, List.length_singleton] at hofs hroom
      have hnat := congrArg BitVec.toNat hofs
      rw [BitVec.toNat_ofNat, BitVec.toNat_ofNat, Nat.mod_eq_of_lt (by omega),
        Nat.mod_eq_of_lt (by omega)] at hnat
      omega
    · simp [hoff] at hon
  · rw [show (s.port.isr hw .rxTimeout room chars).dev.rxInt = s.port.dev.rxInt from hsame.rxInt,
      hon] at hoff
    exact absurd hoff nofun

/-- What every event leaves alone. -/
structure UartRx.Ready (s : UartRx) : Prop where
  opnCnt : s.port.dev.opnCnt ≠ 0
  callback : s.port.cbs.rxCb ≠ 0

theorem UartRx.Ready.step (h : s.Ready) (hfits : e.Fits s)
    (hstep : uartRxStep hw env s e = .ok s') : s'.Ready := by
  cases e with
  | arrive c =>
    cases hstep
    exact ⟨h.opnCnt, h.callback⟩
  | isr iir room late =>
    cases hstep
    obtain ⟨hdev, hcbs⟩ := UartPort.isr_dev hw s.port iir room (s.fifo ++ late)
    refine ⟨?_, ?_⟩
    · show (s.port.isr hw iir room (s.fifo ++ late)).dev.opnCnt ≠ 0
      rw [hdev, (UartDev.Kept.serve s.port.dev iir room (s.fifo ++ late)).opnCnt]
      exact h.opnCnt
    · show (s.port.isr hw iir room (s.fifo ++ late)).cbs.rxCb ≠ 0
      rw [hcbs]
      exact h.callback
  | call op =>
    obtain ⟨port, hport, rfl⟩ := Except.exists_of_map_eq_ok hstep
    have hsame := UartPort.SameRx.step h.opnCnt hfits hport
    exact ⟨hsame.opnCnt h.opnCnt, fun hnone => h.callback (hsame.rxCb ▸ hnone)⟩

theorem UartRx.Stored.untaken {room : Nat} {late : List Byte} (h : s.Stored b calls)
    (hdata : iir ≠ .dataAvail)
    (htake : dwUartIsrTake s.port.dev iir (s.fifo ++ late) = ([], s.fifo ++ late))
    (hstep : uartRxStep hw env s (.isr iir room late) = .ok s') : s'.Stored b calls := by
  have hsame : s.port.SameRx (s.port.isr hw iir room (s.fifo ++ late)) := .isr hdata room _
  have hafter := h.same hsame late
  simp only [uartRxStep, htake, List.append_nil] at hstep
  cases hstep
  exact hafter

theorem UartRx.Stored.step_iff (h : s.Stored b calls) (hready : s.Ready) (hbuf : b.buf ≠ 0)
    (hfits : e.Fits s) (hstep : uartRxStep hw env s e = .ok s') :
    s'.Stored b calls ↔ e.NoTimeout s := by
  cases e with
  | arrive c =>
    cases hstep
    exact iff_of_true (h.same (.refl _) [c]) trivial
  | call op =>
    obtain ⟨port, hport, rfl⟩ := Except.exists_of_map_eq_ok hstep
    have hsame := h.same (UartPort.SameRx.step hready.opnCnt hfits hport) []
    rw [List.append_nil, List.append_nil] at hsame
    exact iff_of_true hsame trivial
  | isr iir room late =>
    cases iir with
    | dataAvail =>
      cases hstep
      exact iff_of_true (h.dataAvail hbuf hready.callback (hfits (.inl rfl)) room late) trivial
    | rxTimeout =>
      by_cases hnone : s.fifo ++ late = []
      · refine iff_of_true (h.untaken (by decide) ?_ hstep) hnone
        rw [hnone]
        rfl
      · obtain ⟨c, chars, hchars⟩ := List.exists_cons_of_ne_nil hnone
        refine iff_of_false ?_ hnone
        simp only [uartRxStep, hchars] at hstep
        cases hstep
        exact h.timeout (hfits (.inr rfl))
    | mdmStatus | lineStatus | xmitEmpty | other =>
      exact iff_of_true (h.untaken (by decide) rfl hstep) trivial

/-- `UART_CMD_SET_RXINT_BUF` and `UART_CMD_SET_RXINT` start a reception. -/
theorem armed_of_commands {p p₁ p₂ : UartPort} {param val : Word} {devbuf : DevBuffer}
    {fifo : List Byte} (hopen : p.dev.opnCnt ≠ 0) (hcb : p.cbs.rxCb ≠ 0) (hparam : param ≠ 0)
    (hbuf : devbuf.buf ≠ 0) (hlen : devbuf.len ≠ 0) (hval : val ≠ 0)
    (hset : dwUartCommand hw p (.transfer (.setIntBuf .rx param devbuf)) = .ok (.code eOk, p₁))
    (hena : dwUartCommand hw p₁ (.transfer (.setInt .rx val)) = .ok (.code eOk, p₂)) :
    UartRx.Armed { devbuf with ofs := 0 } { port := p₂, fifo, came := fifo, read := [] } := by
  have hp₁ : p₁ = { p with dev := { p.dev with rxBuf := { devbuf with ofs := 0 } } } := by
    simp only [dwUartCommand, if_neg hopen] at hset
    split_ifs at hset
    · cases hset
    · cases hset
    · cases hset
      simp only [UartDev.withBuf, intBuf, if_pos hparam]
  subst hp₁
  have hp₂ : p₂ = UartPort.enaCbr hw { p with
      dev := { p.dev with rxBuf := { devbuf with ofs := 0 } } } .rx := by
    simp only [dwUartCommand, if_neg hopen, if_neg hval] at hena
    split_ifs at hena
    · cases hena
    · cases hena
      rfl
  have hdev : p₂.dev.rxInt = true ∧ p₂.dev.opnCnt = p.dev.opnCnt ∧
      p₂.dev.rxBuf = { devbuf with ofs := 0 } ∧ p₂.cbs = p.cbs := by
    rw [hp₂]
    unfold UartPort.enaCbr UartPort.writeIer
    dsimp only
    split <;> split <;> exact ⟨rfl, rfl, rfl, rfl⟩
  obtain ⟨hint, hcnt, hrx, hcbs⟩ := hdev
  exact ⟨fun hzero => hopen (hcnt ▸ hzero), hint, hrx, rfl, hbuf, hlen,
    fun hnone => hcb (hcbs ▸ hnone), rfl, rfl⟩

/-- **Nothing that the driver reads is lost, and the callback comes with the last byte of the buffer,
if and only if no character timeout is taken with a byte in the FIFO.** -/
theorem uart_reception_iff {es : List UartRxEv} (harmed : s.Armed b)
    (hruns : Runs (uartRxStep hw env) (fun s e => e.Fits s) s es s') :
    Always (uartRxStep hw env) (UartRx.Stored b s.port.rxCalls) s es s' ↔
      Runs (uartRxStep hw env) (fun s e => e.Fits s ∧ e.NoTimeout s) s es s' := by
  refine hruns.always_iff_of (I := UartRx.Ready)
    (fun _ _ _ hready hfits hstep _ => hready.step hfits hstep)
    (fun _ _ _ hready hstored hfits hstep => hstored.step_iff hready harmed.buf hfits hstep)
    ⟨harmed.opnCnt, harmed.callback⟩ ?_
  refine ⟨?_, ?_, .inl ⟨⟨?_, harmed.rxInt, ?_⟩, rfl⟩⟩
  · rw [harmed.read, harmed.came, List.nil_append]
  · rw [harmed.read]
    exact .nil _ _
  · rw [harmed.read]
    exact Nat.pos_of_ne_zero fun hzero => harmed.len (BitVec.eq_of_toNat_eq hzero)
  · rw [harmed.rxBuf, harmed.read]
    show b = { b with ofs := 0 }
    rw [← harmed.ofs]

end

/-- A device is opened, with a callback and a buffer of two bytes for the receiver. -/
def uartReceiveOps : List UartOp :=
  [.opened 115200, .control (.setCb (.ofDir .rx) 0x4000),
    .control (.transfer (.setIntBuf .rx 0x100 { buf := 0x2000, len := 2, ofs := 0 })),
    .control (.transfer (.setInt .rx 1))]

theorem uart_reception_data :
    ∃ p s, Runs (uartStep (uartSampleHw 50000000) fun _ p => p) (fun _ _ => True) uartSample
        uartReceiveOps p ∧
      Always (uartRxStep (uartSampleHw 50000000) fun _ p => p)
        (UartRx.Stored { buf := 0x2000, len := 2, ofs := 0 } p.rxCalls)
        { port := p, fifo := [], came := [], read := [] }
        [.arrive 0x61, .isr .dataAvail 0 [0x62]] s ∧
      s.read = [0x61, 0x62] ∧ s.port.rxCalls = 1 := by
  have hruns : ∃ p s, Runs (uartStep (uartSampleHw 50000000) fun _ p => p) (fun _ _ => True)
        uartSample uartReceiveOps p ∧
      UartRx.Armed { buf := 0x2000, len := 2, ofs := 0 }
        { port := p, fifo := [], came := [], read := [] } ∧
      Runs (uartRxStep (uartSampleHw 50000000) fun _ p => p) (fun s e => e.Fits s ∧ e.NoTimeout s)
        { port := p, fifo := [], came := [], read := [] }
        [.arrive 0x61, .isr .dataAvail 0 [0x62]] s ∧
      s.read = [0x61, 0x62] ∧ s.port.rxCalls = 1 :=
    ⟨_, _, .of_follow rfl,
      ⟨by decide, rfl, rfl, rfl, by decide, by decide, by decide, rfl, rfl⟩,
      .cons ⟨trivial, trivial⟩ rfl (.cons ⟨fun _ => rfl, trivial⟩ rfl (.nil _)), rfl, rfl⟩
  obtain ⟨p, s, hport, harmed, hok, hend⟩ := hruns
  have hfits := hok.mono fun _ _ h => h.1
  exact ⟨p, s, hport, (uart_reception_iff harmed hfits).mpr hok, hend⟩

/-- The first byte stays in the FIFO until the timeout comes.  It is read and dropped, and the two
bytes that follow fill the buffer. -/
theorem uart_reception_timeout :
    ∃ p s, Runs (uartStep (uartSampleHw 50000000) fun _ p => p) (fun _ _ => True) uartSample
        uartReceiveOps p ∧
      Runs (uartRxStep (uartSampleHw 50000000) fun _ p => p) (fun s e => e.Fits s)
        { port := p, fifo := [], came := [], read := [] }
        [.arrive 0x61, .isr .rxTimeout 0 [], .arrive 0x62, .arrive 0x63, .isr .dataAvail 0 []] s ∧
      s.read = [0x61, 0x62, 0x63] ∧ s.port.rxCalls = 1 ∧ s.port.dev.mem 0x2000 = 0x62 ∧
      s.port.dev.mem 0x2001 = 0x63 ∧
      ¬s.Stored { buf := 0x2000, len := 2, ofs := 0 } p.rxCalls := by
  refine ⟨_, _, .of_follow rfl,
    .cons trivial rfl (.cons (fun _ => rfl) rfl (.cons trivial rfl (.cons trivial rfl
      (.cons (fun _ => rfl) rfl (.nil _))))), rfl, rfl, by decide, by decide, fun hstored => ?_⟩
  exact absurd (hstored.held 0 (by decide)) (by decide)

end Embarc
