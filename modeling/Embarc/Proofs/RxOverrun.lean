/-
Receive FIFOs that may overrun.

The IIC routine writes read commands as long as the transmit FIFO takes them and looks at the
receive FIFO only afterwards.  The controller carries commands out meanwhile, so the transmit FIFO
need not fill up at all, and every command of a buffer may be written before a byte is read: the
receive FIFO has to hold the whole buffer.  The SPI driver writes a bounded number of frames
between two looks at the receive FIFO, fewer with interrupts than in the loop.
-/
import Embarc.DesignWare.IicSystem
import Embarc.Proofs.SpiOverrun

namespace Embarc

open Trace (Runs Reaches)

/-- Read commands written whose byte was not yet read. -/
def IicSys.outstanding (sys : IicSys) : Nat := sys.pushed.length - sys.got.length

abbrev iicAny : IicSys → IicEvent → Prop := fun _ _ => True

/-- In no run more commands are out than the receive FIFO holds, and so no byte is lost. -/
def IicNeverOverrun (hw : DwHw) (cbs : IicCbs) (dev : IicDev) : Prop :=
  ∀ es sys, Runs (iicStep hw cbs) iicAny (.start dev) es sys →
    sys.outstanding ≤ hw.rxDepth ∧ sys.link.NoneLost hw.reply sys.got

variable {hw : DwHw} {cbs : IicCbs} {sys sys' : IicSys} {e : IicEvent} {dev : IicDev} {len : Word}

/-! ### Moves -/

inductive IicMove (hw : DwHw) (cbs : IicCbs) (sys : IicSys) : IicEvent → IicSys → Prop
  | load : IicMove hw cbs sys .load { sys with link := sys.link.load }
  | shift : IicMove hw cbs sys .shift { sys with link := sys.link.shift hw.rxDepth hw.reply }
  | issue (status : Word) (err : Bool) (cmd : Word) (hpc : sys.pc = .issue status err)
      (hlt : sys.dev.cmdOfs < sys.dev.cmdLen) :
      IicMove hw cbs sys .drive { sys with
        dev := { sys.dev with cmdOfs := sys.dev.cmdOfs + 1 }
        link := sys.link.push [cmd], pushed := sys.pushed ++ [cmd] }
  | issued (status : Word) (err : Bool) (mask : Word) (hpc : sys.pc = .issue status err) :
      IicMove hw cbs sys .drive
        { sys with dev := { sys.dev with mask := mask }, pc := .store status err }
  | store (status : Word) (err : Bool) (w : Word) (hpc : sys.pc = .store status err)
      (hrx : sys.link.rx.take 1 = [w]) :
      IicMove hw cbs sys .drive { sys with
        dev := (dwIicStore sys.dev (w.setWidth 8)).2
        link := sys.link.take 1, got := sys.got ++ [w] }
  | last (status : Word) (err : Bool) (w : Word) (hpc : sys.pc = .store status err)
      (hrx : sys.link.rx.take 1 = [w]) :
      IicMove hw cbs sys .drive
        (({ sys with
            dev := (dwIicStore sys.dev (w.setWidth 8)).2
            link := sys.link.take 1, got := sys.got ++ [w] } : IicSys).leave cbs status err true)
  | leave (status : Word) (err : Bool) (hpc : sys.pc = .store status err) :
      IicMove hw cbs sys .drive (sys.leave cbs status err false)
  | enter (status : Word) (err : Bool) (hpc : sys.pc = .idle) (hbuf : sys.dev.rxBuf.buf ≠ 0) :
      IicMove hw cbs sys (.irq status err) { sys with pc := .issue status err }
  | off (status : Word) (err : Bool) (hpc : sys.pc = .idle) (hbuf : ¬ sys.dev.rxBuf.buf ≠ 0) :
      IicMove hw cbs sys (.irq status err) { sys with dev := sys.dev.through .rx }
  | stay (e : IicEvent) : IicMove hw cbs sys e sys

theorem dwIicIssue_of_ge (h : dev.cmdLen ≤ dev.cmdOfs) :
    dwIicIssue dev = (none, { dev with mask := dev.mask &&& ~~~icIntrTxEmpty }) := if_pos h

theorem dwIicIssue_of_lt (h : dev.cmdOfs < dev.cmdLen) :
    ∃ cmd, dwIicIssue dev = (some cmd, { dev with cmdOfs := dev.cmdOfs + 1 }) :=
  ⟨_, if_neg (BitVec.not_le.mpr h)⟩

theorem iicDrive_move (hw : DwHw) (cbs : IicCbs) (sys : IicSys) :
    IicMove hw cbs sys .drive (iicDrive hw cbs sys) := by
  cases hpc : sys.pc with simp only [iicDrive, hpc]
  | idle => exact .stay _
  | issue status err =>
    split
    · by_cases hlast : sys.dev.cmdLen ≤ sys.dev.cmdOfs
      · rw [dwIicIssue_of_ge hlast]
        exact .issued status err _ hpc
      · have hlt := BitVec.not_le.mp hlast
        obtain ⟨cmd, hissue⟩ := dwIicIssue_of_lt hlt
        rw [hissue, ← hpc]
        exact .issue status err cmd hpc hlt
    · exact .issued status err sys.dev.mask hpc
  | store status err =>
    split
    case h_1 w rest hrx =>
      have htake : sys.link.rx.take 1 = [w] := by
        rw [hrx]
        rfl
      split
      · split
        · rw [← hpc]
          exact .last status err w hpc htake
        · rw [← hpc]
          exact .store status err w hpc htake
      · exact .leave status err hpc
    case h_2 => exact .leave status err hpc

theorem iicIrq_move (hw : DwHw) (cbs : IicCbs) (sys : IicSys) (status : Word) (err : Bool) :
    IicMove hw cbs sys (.irq status err) (iicIrq sys status err) := by
  unfold iicIrq
  split
  case h_1 hpc _ =>
    split_ifs with hbuf
    · exact .enter status err hpc hbuf
    · exact .off status err hpc hbuf
  case h_2 => exact .stay _

/-- **A step is one of the moves.** -/
theorem iicStep_move (h : iicStep hw cbs sys e = .ok sys') : IicMove hw cbs sys e sys' := by
  cases e with cases h
  | load => exact .load
  | shift => exact .shift
  | drive => exact iicDrive_move hw cbs sys
  | irq status err => exact iicIrq_move hw cbs sys status err

/-- The link accounts for all commands and bytes as long as no byte is lost. -/
theorem IicMove.flow (h : IicMove hw cbs sys e sys')
    (hflow : sys.link.Flow hw.reply sys.pushed sys.got)
    (hroom : e = .shift → sys.link.line = none ∨ sys.link.rx.length < hw.rxDepth) :
    sys'.link.Flow hw.reply sys'.pushed sys'.got := by
  cases h with
  | load => exact hflow.load
  | shift => exact hflow.shift (hroom rfl)
  | issue => exact hflow.push _
  | store _ _ w _ hrx | last _ _ w _ hrx =>
    have htake := hflow.take 1
    rw [hrx] at htake
    exact htake
  | issued | leave | enter | off | stay => exact hflow

/-! ### No more commands than bytes -/

/-- A buffer of `len` bytes is being received, or was. -/
structure IicIssued (len : Word) (sys : IicSys) : Prop where
  cmds : sys.dev.rxBuf.buf ≠ 0 →
    sys.dev.cmdLen = len ∧ sys.dev.cmdOfs.toNat = sys.pushed.length
  count : sys.pushed.length ≤ len.toNat
  issuing : ∀ status err, sys.pc = .issue status err → sys.dev.rxBuf.buf ≠ 0

theorem through_keeps (dev : IicDev) (d : Dir) :
    (dev.through d).rxBuf = dev.rxBuf ∧ (dev.through d).cmdLen = dev.cmdLen ∧
      (dev.through d).cmdOfs = dev.cmdOfs := by
  simp only [IicDev.through, dwIicDisCbr]
  cases d <;> simp only <;> split <;> exact ⟨rfl, rfl, rfl⟩

theorem dwIicStore_keeps (dev : IicDev) (byte : Byte) :
    (dwIicStore dev byte).2.rxBuf.buf = dev.rxBuf.buf ∧
      (dwIicStore dev byte).2.cmdLen = dev.cmdLen ∧
      (dwIicStore dev byte).2.cmdOfs = dev.cmdOfs := by
  simp only [dwIicStore]
  split
  · obtain ⟨hbuf, hlen, hofs⟩ := through_keeps _ .rx
    rw [hbuf, hlen, hofs]
    exact ⟨rfl, rfl, rfl⟩
  · exact ⟨rfl, rfl, rfl⟩

theorem cmdOfs_succ (h : dev.cmdOfs < dev.cmdLen) :
    (dev.cmdOfs + 1).toNat = dev.cmdOfs.toNat + 1 := by
  rw [BitVec.lt_def] at h
  rw [BitVec.toNat_add, show (1 : Word).toNat = 1 from rfl]
  omega

theorem leave_cleared (cbs : IicCbs) (sys : IicSys) (status : Word) (err complete : Bool) :
    (sys.leave cbs status err complete).dev.rxBuf.buf = 0 ∨
      (sys.leave cbs status err complete).dev = sys.dev := by
  simp only [IicSys.leave, dwIicAbrt]
  split
  · exact .inl rfl
  · cases complete with
    | true => exact .inl rfl
    | false => exact .inr rfl

theorem IicIssued.leave (h : IicIssued len sys) (status : Word) (err complete : Bool) :
    IicIssued len (sys.leave cbs status err complete) := by
  refine ⟨fun hbuf => ?_, h.count, fun status err hpc => absurd hpc (by simp [IicSys.leave])⟩
  rcases leave_cleared cbs sys status err complete with hclear | hdev
  · exact absurd hclear hbuf
  · rw [hdev] at hbuf ⊢
    exact h.cmds hbuf

theorem IicIssued.stored {status : Word} {err : Bool} (h : IicIssued len sys) (w : Word)
    (hpc : sys.pc = .store status err) :
    IicIssued len { sys with
      dev := (dwIicStore sys.dev (w.setWidth 8)).2
      link := sys.link.take 1, got := sys.got ++ [w] } := by
  obtain ⟨hbuf, hlen, hofs⟩ := dwIicStore_keeps sys.dev (w.setWidth 8)
  refine ⟨fun hc => ?_, h.count, fun status err hc => ?_⟩
  · rw [hlen, hofs]
    exact h.cmds (hbuf ▸ hc)
  · have hissue : sys.pc = .issue status err := hc
    rw [hpc] at hissue
    exact absurd hissue (by simp)

theorem IicIssued.move (h : IicIssued len sys) (hmove : IicMove hw cbs sys e sys') :
    IicIssued len sys' := by
  cases hmove with
  | load | shift => exact { h with }
  | issue status err cmd hpc hlt =>
    have hbuf := h.issuing status err hpc
    obtain ⟨hlen, hofs⟩ := h.cmds hbuf
    have hnext := cmdOfs_succ hlt
    rw [hlen, BitVec.lt_def] at hlt
    have hpushed : (sys.pushed ++ [cmd]).length = sys.dev.cmdOfs.toNat + 1 := by
      rw [List.length_append, List.length_singleton, hofs]
    refine ⟨fun _ => ⟨hlen, hnext.trans hpushed.symm⟩, ?_, fun _ _ _ => hbuf⟩
    show (sys.pushed ++ [cmd]).length ≤ _
    rw [hpushed]
    exact hlt
  | issued => exact ⟨h.cmds, h.count, fun _ _ hc => absurd hc (by simp)⟩
  | store status err w hpc => exact h.stored w hpc
  | last status err w hpc => exact (h.stored w hpc).leave ..
  | leave => exact h.leave ..
  | enter status err hpc hbuf => exact ⟨h.cmds, h.count, fun _ _ _ => hbuf⟩
  | off status err hpc hbuf =>
    obtain ⟨hrx, hlen, hofs⟩ := through_keeps sys.dev .rx
    refine ⟨fun hc => absurd (hrx ▸ hc) hbuf, h.count, fun status err hc => ?_⟩
    have hissue : sys.pc = .issue status err := hc
    rw [hpc] at hissue
    exact absurd hissue (by simp)
  | stay => exact h

variable {es : List IicEvent} {k : Nat} {b : DevBuffer}

/-- In every run at most `len` commands are written. -/
theorem pushed_le (len : Word) (hcmds : dev.rxBuf.buf ≠ 0 → dev.cmdLen = len ∧ dev.cmdOfs.toNat = 0)
    (hrun : Runs (iicStep hw cbs) iicAny (.start dev) es sys) : sys.pushed.length ≤ len.toNat := by
  have hstart : IicIssued len (.start dev) :=
    ⟨hcmds, Nat.zero_le _, fun _ _ hc => absurd hc (by simp [IicSys.start])⟩
  exact (Runs.invariant (I := IicIssued len) (fun _ _ _ h _ hstep => h.move (iicStep_move hstep))
    hrun hstart).count

theorem iic_none_lost
    (hall : ∀ es sys, Runs (iicStep hw cbs) iicAny (.start dev) es sys →
      sys.outstanding ≤ hw.rxDepth) (hrun : Runs (iicStep hw cbs) iicAny (.start dev) es sys) :
    sys.link.NoneLost hw.reply sys.got := by
  have hflow := Runs.invariant (I := fun sys => sys.link.Flow hw.reply sys.pushed sys.got)
    (fun _ _ _ h hok hstep => (iicStep_move hstep).flow h fun _ => h.room hok.2)
    (hrun.strengthen hall) (Link.Flow.empty hw.reply)
  exact hflow.received

/-! ### As many commands as bytes

The controller carries every command out as soon as it is written. -/

/-- In the first loop, with `k` commands written and carried out. -/
structure IicIssuing (len : Word) (k : Nat) (sys : IicSys) : Prop where
  pc : sys.pc = .issue icIntrTxEmpty false
  cmdLen : sys.dev.cmdLen = len
  cmdOfs : sys.dev.cmdOfs.toNat = k
  pushed : sys.pushed.length = k
  got : sys.got = []
  tx : sys.link.tx = []
  line : sys.link.line = none

theorem IicIssuing.turn (h : IicIssuing len k sys) (hk : k < len.toNat) :
    Reaches (iicStep hw cbs) iicAny sys (IicIssuing len (k + 1)) := by
  have hlt : sys.dev.cmdOfs < sys.dev.cmdLen := by
    rw [BitVec.lt_def, h.cmdOfs, h.cmdLen]
    exact hk
  have hnext := cmdOfs_succ hlt
  obtain ⟨cmd, hissue⟩ := dwIicIssue_of_lt hlt
  have hroom : hasFlag icIntrTxEmpty icIntrTxEmpty ∧ sys.link.tx.length < hw.txDepth := by
    rw [h.tx]
    exact ⟨by decide, hw.tx_pos⟩
  have hdrive : iicStep hw cbs sys .drive = .ok { sys with
      dev := { sys.dev with cmdOfs := sys.dev.cmdOfs + 1 }
      link := sys.link.push [cmd], pushed := sys.pushed ++ [cmd] } := by
    simp only [iicStep, iicDrive, h.pc, if_pos hroom, hissue]
  refine Reaches.after trivial hdrive (Reaches.after (e := .load) trivial rfl
    (Reaches.after (e := .shift) trivial rfl (Reaches.here ?_)))
  -- the command is the only one in the FIFO
  have hload : (sys.link.push [cmd]).load = { sys.link with line := some cmd } := by
    simp [Link.push, Link.load, h.tx, h.line]
  refine ⟨h.pc, h.cmdLen, ?_, ?_, h.got, ?_, ?_⟩
  · rw [← h.cmdOfs]
    exact hnext
  · show (sys.pushed ++ [cmd]).length = k + 1
    rw [List.length_append, List.length_singleton, h.pushed]
  · show ((sys.link.push [cmd]).load.shift hw.rxDepth hw.reply).tx = []
    rw [Link.tx_shift, hload]
    exact h.tx
  · show ((sys.link.push [cmd]).load.shift hw.rxDepth hw.reply).line = none
    rw [hload]
    rfl

theorem issuing_reached (h : IicIssuing len 0 sys) (hk : k ≤ len.toNat) :
    Reaches (iicStep hw cbs) iicAny sys (IicIssuing len k) := by
  induction k with
  | zero => exact Reaches.here h
  | succ k ih => exact (ih (Nat.le_of_succ_le hk)).bind fun _ hissuing => hissuing.turn hk

/-- The device with a receive buffer set and the receive interrupt on. -/
structure IicReceiving (b : DevBuffer) (dev : IicDev) : Prop where
  rxBuf : dev.rxBuf = b
  cmdOfs : dev.cmdOfs = 0
  cmdLen : dev.cmdLen = b.len
  curState : dev.curState = .inRx

theorem IicReceiving.enter (hw : DwHw) (cbs : IicCbs) (h : IicReceiving b dev) (hbuf : b.buf ≠ 0) :
    Reaches (iicStep hw cbs) iicAny (.start dev) (IicIssuing b.len 0) := by
  have hserves : dev.serves = .rx := by
    rw [IicDev.serves, h.curState]
    rfl
  have hirq : iicStep hw cbs (.start dev) (.irq icIntrTxEmpty false) =
      .ok { IicSys.start dev with pc := .issue icIntrTxEmpty false } := by
    have hset : (IicSys.start dev).dev.rxBuf.buf ≠ 0 := by
      show dev.rxBuf.buf ≠ 0
      rw [h.rxBuf]
      exact hbuf
    simp only [iicStep, iicIrq, if_pos hset]
    simp only [IicSys.start, hserves]
  refine Reaches.after trivial hirq (Reaches.here ⟨rfl, h.cmdLen, ?_, rfl, rfl, rfl, rfl⟩)
  show dev.cmdOfs.toNat = 0
  rw [h.cmdOfs]
  rfl

/-- **The IIC routine overruns no receive FIFO exactly when the whole buffer fits it.** -/
theorem IicReceiving.never_overrun_iff (h : IicReceiving b dev) :
    IicNeverOverrun hw cbs dev ↔ b.buf = 0 ∨ b.len.toNat ≤ hw.rxDepth := by
  constructor
  · intro hnever
    by_contra hlong
    simp only [not_or, Nat.not_le] at hlong
    obtain ⟨hbuf, hlong⟩ := hlong
    obtain ⟨es, sys, hrun, hissuing⟩ :=
      (h.enter hw cbs hbuf).bind fun _ hstart => issuing_reached hstart hlong
    have hfit := (hnever es sys hrun).1
    rw [IicSys.outstanding, hissuing.pushed, hissuing.got] at hfit
    exact absurd hfit (Nat.not_succ_le_self _)
  · intro hfits
    have hall : ∀ es sys, Runs (iicStep hw cbs) iicAny (.start dev) es sys →
        sys.outstanding ≤ hw.rxDepth := by
      intro es sys hrun
      have hle : sys.outstanding ≤ sys.pushed.length := Nat.sub_le _ _
      rcases hfits with hnull | hlen
      · have hcount := pushed_le 0 (fun hbuf => absurd (h.rxBuf ▸ hnull) hbuf) hrun
        exact Nat.le_trans hle (Nat.le_trans hcount (Nat.zero_le _))
      · have hcount := pushed_le b.len (fun _ => ⟨h.cmdLen, by rw [h.cmdOfs]; rfl⟩) hrun
        exact Nat.le_trans hle (Nat.le_trans hcount hlen)
    exact fun es sys hrun => ⟨hall es sys hrun, iic_none_lost hall hrun⟩

theorem iicControl_receiving {param val : Word} {devbuf : DevBuffer} (hval : val ≠ 0)
    (hbuf : (dwIicControl dev (.setIntBuf .rx param devbuf)).1 = eOk)
    (hint : (dwIicControl (dwIicControl dev (.setIntBuf .rx param devbuf)).2 (.setInt .rx val)).1 =
      eOk) :
    IicReceiving (intBuf param devbuf)
      (dwIicControl (dwIicControl dev (.setIntBuf .rx param devbuf)).2 (.setInt .rx val)).2 := by
  rw [dwIicControl_setIntBuf_ok hbuf] at hint ⊢
  rw [(dwIicControl_setInt_ok hint).2, if_neg hval]
  exact ⟨rfl, rfl, rfl, rfl⟩

/-! ### Both masters -/

/-- **A receive FIFO is overrun in no run exactly when it is deep enough**: for SPI it holds all
frames of the list or two full transmit FIFOs and the frame on the line, with interrupts one full
transmit FIFO, and one frame more if there are two such; for IIC it holds the whole buffer. -/
theorem rx_fifo_holds_iff (hw : DwHw) (param : Word) :
    (∀ (cbs : SpiCbs) (s : SpiDev) (xs : List DevSpiTransfer),
      ((dwSpiTransferPolling s param xs).1 = eOk →
        (SpiNeverOverrun hw cbs (dwSpiTransferPolling s param xs).2 .write ↔
          hw.Deep (spiFrames xs s.dfs))) ∧
      (param ≠ 0 → (dwSpiControl s (.transferInt param xs)).1 = eOk →
        (SpiNeverOverrun hw cbs (dwSpiControl s (.transferInt param xs)).2 .idle ↔
          hw.mostInt (spiFrames xs s.dfs) ≤ hw.rxDepth))) ∧
    ∀ (cbs : IicCbs) (dev : IicDev) (devbuf : DevBuffer) (val : Word), val ≠ 0 →
      (dwIicControl dev (.setIntBuf .rx param devbuf)).1 = eOk →
      (dwIicControl (dwIicControl dev (.setIntBuf .rx param devbuf)).2 (.setInt .rx val)).1 = eOk →
      (IicNeverOverrun hw cbs
          (dwIicControl (dwIicControl dev (.setIntBuf .rx param devbuf)).2 (.setInt .rx val)).2 ↔
        (intBuf param devbuf).buf = 0 ∨ (intBuf param devbuf).len.toNat ≤ hw.rxDepth) := by
  refine ⟨fun cbs s xs => ⟨fun hok => ?_, fun hparam hok => ?_⟩,
    fun cbs dev devbuf val hval hbuf hint => ?_⟩
  · obtain ⟨-, heq⟩ := transferPolling_ok hok
    rw [heq]
    exact never_overrun_iff rfl (.inl rfl)
  · rw [transferInt_ok hparam hok]
    exact never_overrun_iff rfl (.inr rfl)
  · exact (iicControl_receiving hval hbuf hint).never_overrun_iff

def iicOpened : IicDev where
  opnCnt := 1
  status := devEnabled
  curState := .free
  stop := true
  txBuf := .cleared
  rxBuf := .cleared
  cmdOfs := 0
  cmdLen := 0
  mask := 0
  txInt := false
  rxInt := false
  gint := false
  ram := fun _ => 1
  mem := fun _ => 0

def iicSilent : IicCbs := { cb := fun _ => id, errCb := id }

def iicBytes (len : Word) : DevBuffer := { buf := 0x200, len := len, ofs := 0 }

/-- The device with a buffer of `len` bytes set and the receive interrupt on. -/
def iicReceiver (len : Word) : IicDev :=
  (dwIicControl (dwIicControl iicOpened (.setIntBuf .rx 0x40 (iicBytes len))).2 (.setInt .rx 1)).2

def spiDeep : DwHw where
  txDepth := 1
  rxDepth := 3
  reply := fun _ => 5
  tx_pos := Nat.one_pos
  rx_pos := by decide

theorem rx_fifo_holds_four :
    SpiNeverOverrun spiDeep spiCallback (dwSpiTransferPolling spiOpened 0x40 (spiBytes 4)).2 .write ∧
      SpiNeverOverrun spiDeep spiCallback
        (dwSpiControl spiOpened (.transferInt 0x40 (spiBytes 4))).2 .idle ∧
      IicNeverOverrun spiDeep iicSilent (iicReceiver 3) := by
  obtain ⟨hspi, hiic⟩ := rx_fifo_holds_iff spiDeep 0x40
  obtain ⟨hpolled, hint⟩ := hspi spiCallback spiOpened (spiBytes 4)
  refine ⟨(hpolled (by decide)).mpr (.inr (by decide)),
    (hint (by decide) (by decide)).mpr (by decide), ?_⟩
  exact (hiic iicSilent iicOpened (iicBytes 3) 1 (by decide) (by decide) (by decide)).mpr
    (.inr (by decide))

def spiTwo : DwHw where
  txDepth := 2
  rxDepth := 2
  reply := fun _ => 5
  tx_pos := by decide
  rx_pos := by decide

/-- In the loop the third frame is written when one is on the line and one waits, with interrupts the
fourth when one is on the line; the second read command is written when the first was carried out.
With the driver held up until all came in, the last is lost. -/
theorem rx_fifo_overrun :
    ((dwSpiTransferPolling spiOpened 0x40 (spiBytes 3)).1 = eOk ∧
      ∃ es sys, Runs (spiStep spiTwo spiCallback) SpiRaised
          (.start (dwSpiTransferPolling spiOpened 0x40 (spiBytes 3)).2 .write) es sys ∧
        spiTwo.rxDepth < sys.outstanding ∧ ¬ sys.link.NoneLost spiTwo.reply sys.got) ∧
    ((dwSpiControl spiOpened (.transferInt 0x40 (spiBytes 4))).1 = eOk ∧
      ∃ es sys, Runs (spiStep spiTwo spiCallback) SpiRaised
          (.start (dwSpiControl spiOpened (.transferInt 0x40 (spiBytes 4))).2 .idle) es sys ∧
        spiTwo.rxDepth < sys.outstanding ∧ ¬ sys.link.NoneLost spiTwo.reply sys.got) ∧
    IicReceiving (iicBytes 2) (iicReceiver 2) ∧
      ∃ es sys, Runs (iicStep spiSmall iicSilent) iicAny (.start (iicReceiver 2)) es sys ∧
        spiSmall.rxDepth < sys.outstanding ∧ ¬ sys.link.NoneLost spiSmall.reply sys.got := by
  refine ⟨⟨by decide, [.drive, .drive, .load, .drive, .shift, .load, .shift, .load, .shift], ?_⟩,
    ⟨by decide, [.irq 0x01, .drive, .load, .shift, .load, .irq 0x01, .drive, .shift, .load, .shift,
      .load, .shift], ?_⟩, ⟨rfl, rfl, rfl, rfl⟩,
    [.irq 0x10 false, .drive, .load, .shift, .drive, .load, .shift], ?_⟩
  · exact ⟨_, Runs.of_follow rfl, by decide, by decide⟩
  · exact ⟨_, Runs.of_follow rfl, by decide, by decide⟩
  · exact ⟨_, Runs.of_follow rfl, by decide, by decide⟩

end Embarc
