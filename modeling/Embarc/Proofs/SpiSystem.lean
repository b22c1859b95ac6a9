/-
What a step of the SPI system can do.

`SpiMove` lists the moves; everything about runs is proved from them.  While a transfer is in
progress the device is determined by the numbers of frames pushed and read, and the link accounts
for the frames in between: `SpiActive`.  This is kept by every move that loses no frame, until the
driver finds that all is done, and then the link is empty: `SpiOver`.
-/
import Embarc.DesignWare.SpiSystem
import Embarc.Proofs.SpiWalk

namespace Embarc

variable {hw : DwHw} {cbs : SpiCbs} {s : SpiDev} {xs : List DevSpiTransfer} {sys sys' : SpiSys}
  {e : SpiEvent} {status : Word} {pc : SpiPc}

/-! ### Moves -/

def SpiSys.served (hw : DwHw) (sys : SpiSys) (status : Word) : SpiSys :=
  if hasFlag status dwSpiImrTxeim then sys.write hw else sys

inductive SpiMove (hw : DwHw) (cbs : SpiCbs) (sys : SpiSys) : SpiEvent → SpiSys → Prop
  | load : SpiMove hw cbs sys .load { sys with link := sys.link.load }
  | shift : SpiMove hw cbs sys .shift { sys with link := sys.link.shift hw.rxDepth hw.reply }
  | write (hpc : sys.pc = .write) (hend : dwSpiXferEnd sys.dev.xfer = false) :
      SpiMove hw cbs sys .drive { sys.write hw with pc := .read }
  | read (hpc : sys.pc = .read) : SpiMove hw cbs sys .drive { sys.read with pc := .write }
  | leave (hpc : sys.pc = .write) (hend : dwSpiXferEnd sys.dev.xfer = true) :
      SpiMove hw cbs sys .drive
        { sys with dev := { sys.dev with status := sys.dev.status &&& ~~~devInXfer }, pc := .done }
  | enter (status : Word) (hpc : sys.pc = .idle) (hlen : sys.dev.xfer.xferLen ≠ 0) :
      SpiMove hw cbs sys (.irq status) { sys.read with pc := .isr status }
  | off (status : Word) (hpc : sys.pc = .idle) (hlen : sys.dev.xfer.xferLen = 0) :
      SpiMove hw cbs sys (.irq status) { sys with dev := dwSpiDisableInterrupt sys.dev }
  | exit (status : Word) (hpc : sys.pc = .isr status)
      (hend : dwSpiXferEnd (sys.served hw status).dev.xfer = false) :
      SpiMove hw cbs sys .drive { sys.served hw status with pc := .idle }
  | complete (status : Word) (hpc : sys.pc = .isr status)
      (hend : dwSpiXferEnd (sys.served hw status).dev.xfer = true) :
      SpiMove hw cbs sys .drive
        { sys.served hw status with
          dev := dwSpiIsrEnd cbs (sys.served hw status).dev, pc := .idle }
  | stay (e : SpiEvent) : SpiMove hw cbs sys e sys

/-- Whether the driver is in the loop or served by interrupts. -/
def SpiPc.polled : SpiPc → Bool
  | .write | .read | .done => true
  | .idle | .isr _ => false

theorem SpiMove.polled (h : SpiMove hw cbs sys e sys') : sys'.pc.polled = sys.pc.polled := by
  cases h with
  | load | shift | off | stay => rfl
  | write hpc | read hpc | leave hpc | enter _ hpc | exit _ hpc | complete _ hpc =>
    rw [hpc]
    rfl

theorem drive_isr (hpc : sys.pc = .isr status) :
    spiDrive hw cbs sys = { sys.served hw status with
      dev := if dwSpiXferEnd (sys.served hw status).dev.xfer then
          dwSpiIsrEnd cbs (sys.served hw status).dev
        else (sys.served hw status).dev
      pc := .idle } := by
  simp only [spiDrive, hpc, dwSpiIsrWrite, SpiSys.served]
  split
  · rfl
  · simp [SpiSys.push, Link.push]

theorem spiDrive_move (hw : DwHw) (cbs : SpiCbs) (sys : SpiSys) :
    SpiMove hw cbs sys .drive (spiDrive hw cbs sys) := by
  cases hpc : sys.pc with
  | write =>
    simp only [spiDrive, hpc]
    split_ifs with hend
    · exact .leave hpc hend
    · exact .write hpc (Bool.eq_false_iff.mpr hend)
  | read =>
    simp only [spiDrive, hpc]
    exact .read hpc
  | done | idle =>
    simp only [spiDrive, hpc]
    exact .stay _
  | isr status =>
    rw [drive_isr hpc]
    split_ifs with hend
    · exact .complete status hpc hend
    · exact .exit status hpc (Bool.eq_false_iff.mpr hend)

theorem spiIrq_move (h : spiIrq sys status = .ok sys') : SpiMove hw cbs sys (.irq status) sys' := by
  cases hpc : sys.pc with
  | idle =>
    simp only [spiIrq, hpc, dwSpiIsrRead] at h
    split_ifs at h with _ hlen <;> cases h
    · rw [← hpc]
      exact .stay _
    · rw [← hpc]
      exact .off status hpc hlen
    · exact .enter status hpc hlen
  | write | read | done | isr =>
    simp only [spiIrq, hpc] at h
    cases h
    exact .stay _

/-- **A step is one of the moves.** -/
theorem spiStep_move (h : spiStep hw cbs sys e = .ok sys') :
    SpiMove hw cbs sys e sys' := by
  cases e with try cases h
  | load => exact .load
  | shift => exact .shift
  | drive => exact spiDrive_move hw cbs sys
  | irq status => exact spiIrq_move h

/-- The link accounts for all frames as long as none is lost. -/
theorem SpiMove.flow (h : SpiMove hw cbs sys e sys')
    (hflow : sys.link.Flow hw.reply sys.pushed sys.got)
    (hroom : e = .shift → sys.link.line = none ∨ sys.link.rx.length < hw.rxDepth) :
    sys'.link.Flow hw.reply sys'.pushed sys'.got := by
  have hserved : ∀ status, (sys.served hw status).link.Flow hw.reply
      (sys.served hw status).pushed (sys.served hw status).got := by
    intro status
    unfold SpiSys.served
    split
    · exact hflow.push _
    · exact hflow
  cases h with
  | load => exact hflow.load
  | shift => exact hflow.shift (hroom rfl)
  | write => exact hflow.push _
  | read | enter => exact hflow.take _
  | leave | off | stay => exact hflow
  | exit status | complete status => exact hserved status

/-! ### A transfer in progress -/

/-- `s` is the device when the transfer of `xs` was started. -/
structure SpiActive (hw : DwHw) (s : SpiDev) (xs : List DevSpiTransfer) (sys : SpiSys) : Prop where
  dev : sys.dev = s.at xs sys.pushed.length sys.got
  pushed : sys.pushed = s.sends xs sys.pushed.length
  count : sys.pushed.length ≤ spiFrames xs s.dfs
  flow : sys.link.Flow hw.reply sys.pushed sys.got
  room : sys.link.tx.length ≤ hw.txDepth

theorem SpiActive.start (hw : DwHw) (hs : s.xfer = dwSpiInitTransfer xs s.dfs) (pc : SpiPc) :
    SpiActive hw s xs (.start s pc) where
  dev := by
    show s = s.at xs 0 []
    rw [SpiDev.at_zero, ← hs]
  pushed := rfl
  count := Nat.zero_le _
  flow := Link.Flow.empty hw.reply
  room := Nat.zero_le _

section
variable (h : SpiActive hw s xs sys)
include h

theorem SpiActive.withPc (pc : SpiPc) : SpiActive hw s xs { sys with pc := pc } :=
  { h with }

theorem SpiActive.got_le : sys.got.length ≤ spiFrames xs s.dfs := by
  have hflow := h.flow.length
  have hcount := h.count
  omega

theorem SpiActive.load : SpiActive hw s xs { sys with link := sys.link.load } :=
  ⟨h.dev, h.pushed, h.count, h.flow.load, Nat.le_trans (Link.length_tx_load _) h.room⟩

theorem SpiActive.shift (hroom : sys.link.line = none ∨ sys.link.rx.length < hw.rxDepth) :
    SpiActive hw s xs { sys with link := sys.link.shift hw.rxDepth hw.reply } :=
  ⟨h.dev, h.pushed, h.count, h.flow.shift hroom, by
    show (sys.link.shift hw.rxDepth hw.reply).tx.length ≤ hw.txDepth
    rw [Link.tx_shift]
    exact h.room⟩

end

def SpiSys.writes (hw : DwHw) (s : SpiDev) (xs : List DevSpiTransfer) (sys : SpiSys) : Nat :=
  min (spiFrames xs s.dfs - sys.pushed.length) (hw.txDepth - sys.link.tx.length)

/-- The writer of a device that is so far. -/
theorem SpiSys.write_at (hdev : sys.dev = s.at xs sys.pushed.length sys.got)
    (hcount : sys.pushed.length ≤ spiFrames xs s.dfs) :
    sys.write hw = sys.push (s.at xs (sys.pushed.length + sys.writes hw s xs) sys.got)
      ((s.sends xs (sys.pushed.length + sys.writes hw s xs)).drop sys.pushed.length) := by
  have hwriter : dwSpiWriter (s.at xs sys.pushed.length sys.got) _ = _ :=
    dwSpiWriter_at hcount (dwSpiGetTxavail hw sys.link)
  rw [← hdev] at hwriter
  rw [SpiSys.write, hwriter]
  rfl

theorem SpiSys.read_at (hdev : sys.dev = s.at xs sys.pushed.length sys.got)
    (hrx : sys.got.length + sys.link.rx.length ≤ spiFrames xs s.dfs) :
    sys.read = sys.take (s.at xs sys.pushed.length (sys.got ++ sys.link.rx)) sys.link.rx.length := by
  have hgot : sys.got.length ≤ spiFrames xs s.dfs := Nat.le_of_add_right_le hrx
  have hrx : sys.link.rx.length ≤ spiFrames xs s.dfs - sys.got.length := by omega
  have hreader := dwSpiReader_at (n := sys.pushed.length) hgot sys.link.rx
  rw [← hdev, Nat.min_eq_right hrx, List.take_of_length_le hrx] at hreader
  rw [SpiSys.read, hreader]

section
variable (h : SpiActive hw s xs sys)
include h

theorem SpiActive.write_eq :
    sys.write hw = sys.push (s.at xs (sys.pushed.length + sys.writes hw s xs) sys.got)
      ((s.sends xs (sys.pushed.length + sys.writes hw s xs)).drop sys.pushed.length) :=
  SpiSys.write_at h.dev h.count

theorem SpiActive.write :
    SpiActive hw s xs (sys.write hw) ∧
      (sys.write hw).pushed.length = sys.pushed.length + sys.writes hw s xs := by
  have hle : sys.pushed.length + sys.writes hw s xs ≤ spiFrames xs s.dfs := by
    have hcount := h.count
    unfold SpiSys.writes
    omega
  have hnew : ((s.sends xs (sys.pushed.length + sys.writes hw s xs)).drop
      sys.pushed.length).length = sys.writes hw s xs := by
    rw [List.length_drop, SpiDev.length_sends hle]
    omega
  have hlen : (sys.write hw).pushed.length = sys.pushed.length + sys.writes hw s xs := by
    rw [h.write_eq]
    show (sys.pushed ++ _).length = _
    rw [List.length_append, hnew]
  refine ⟨⟨?_, ?_, ?_, ?_, ?_⟩, hlen⟩
  · rw [hlen, h.write_eq]
    rfl
  · rw [hlen, h.write_eq]
    have happend := SpiDev.sends_append hle
    rw [← h.pushed] at happend
    exact happend
  · rw [hlen]
    exact hle
  · rw [h.write_eq]
    exact h.flow.push _
  · rw [h.write_eq]
    show (sys.link.tx ++ _).length ≤ _
    have hroom := h.room
    rw [List.length_append, hnew]
    unfold SpiSys.writes
    omega

/-- The reader empties the receive FIFO, for no frame comes in that was not counted. -/
theorem SpiActive.read_eq :
    sys.read = sys.take (s.at xs sys.pushed.length (sys.got ++ sys.link.rx)) sys.link.rx.length := by
  refine SpiSys.read_at h.dev ?_
  have hflow := h.flow.length
  have hcount := h.count
  unfold Link.inFlight at hflow
  omega

theorem SpiActive.read : SpiActive hw s xs sys.read ∧ sys.read.link.inFlight ≤ hw.txDepth + 1 := by
  have hroom := h.room
  have hline : sys.link.line.toList.length ≤ 1 := by
    cases sys.link.line <;> simp
  rw [h.read_eq]
  refine ⟨⟨?_, h.pushed, h.count, h.flow.take _, h.room⟩, ?_⟩
  · show s.at xs _ (sys.got ++ sys.link.rx) = s.at xs _ (sys.got ++ sys.link.rx.take _)
    rw [List.take_length]
    rfl
  · show sys.link.tx.length + _ + (sys.link.rx.drop sys.link.rx.length).length ≤ _
    rw [List.drop_length, List.length_nil]
    show sys.link.tx.length + sys.link.line.toList.length + 0 ≤ _
    omega

theorem SpiActive.served (status : Word) : SpiActive hw s xs (sys.served hw status) := by
  unfold SpiSys.served
  split
  · exact h.write.1
  · exact h

end

/-! ### The end of a transfer -/

/-- The driver sees the end when all frames are pushed and read, if they make up the length. -/
theorem xferEnd_at {n : Nat} {got : List Word} (hn : n ≤ spiFrames xs s.dfs)
    (hgot : got.length ≤ spiFrames xs s.dfs) (hend : dwSpiXferEnd (s.at xs n got).xfer = true) :
    n = spiFrames xs s.dfs ∧ got.length = spiFrames xs s.dfs := by
  have hnb := dwSpiNbytes_pos s.dfs
  have hmul := mul_spiFrames_le xs s.dfs
  simp only [dwSpiXferEnd, Bool.and_eq_true, decide_eq_true_eq] at hend
  obtain ⟨htx, hrx⟩ := hend
  have hn' : spiFrames xs s.dfs ≤ n := Nat.le_of_mul_le_mul_left (Nat.le_trans hmul htx) hnb
  have hgot' : spiFrames xs s.dfs ≤ got.length :=
    Nat.le_of_mul_le_mul_left (Nat.le_trans hmul hrx) hnb
  exact ⟨Nat.le_antisymm hn hn', Nat.le_antisymm hgot hgot'⟩

/-- The transfer is over: every frame was pushed and read. -/
structure SpiOver (hw : DwHw) (s : SpiDev) (xs : List DevSpiTransfer) (sys : SpiSys) : Prop where
  through : sys.pc = .done ∨ sys.pc = .idle ∧ sys.dev.xfer = .cleared
  pushed : sys.pushed = s.sends xs (spiFrames xs s.dfs)
  got : sys.got.length = spiFrames xs s.dfs
  flow : sys.link.Flow hw.reply sys.pushed sys.got

theorem SpiActive.all_done (h : SpiActive hw s xs sys)
    (hend : dwSpiXferEnd sys.dev.xfer = true) :
    sys.pushed = s.sends xs (spiFrames xs s.dfs) ∧ sys.got.length = spiFrames xs s.dfs := by
  rw [h.dev] at hend
  obtain ⟨hn, hgot⟩ := xferEnd_at h.count h.got_le hend
  have hpushed := h.pushed
  rw [hn] at hpushed
  exact ⟨hpushed, hgot⟩

theorem xfer_disCbr (s : SpiDev) (cbrtn : SpiCbrtn) : (dwSpiDisCbr s cbrtn).2.xfer = s.xfer := by
  unfold dwSpiDisCbr
  split <;> rfl

theorem xfer_enaCbr (s : SpiDev) (cbrtn : SpiCbrtn) : (dwSpiEnaCbr s cbrtn).2.xfer = s.xfer := by
  unfold dwSpiEnaCbr
  split <;> rfl

theorem xfer_disableInterrupt (dev : SpiDev) : (dwSpiDisableInterrupt dev).xfer = dev.xfer := by
  simp only [dwSpiDisableInterrupt, xfer_disCbr]

theorem disableInterrupt_keeps (dev : SpiDev) :
    (dwSpiDisableInterrupt dev).mem = dev.mem ∧ (dwSpiDisableInterrupt dev).calls = dev.calls := by
  have hdis : ∀ (dev : SpiDev) (cbrtn : SpiCbrtn),
      (dwSpiDisCbr dev cbrtn).2.mem = dev.mem ∧ (dwSpiDisCbr dev cbrtn).2.calls = dev.calls := by
    intro dev cbrtn
    unfold dwSpiDisCbr
    split <;> exact ⟨rfl, rfl⟩
  simp only [dwSpiDisableInterrupt, hdis, and_self]

/-- With the transfer over the controller has nothing left to do. -/
theorem SpiOver.settled (h : SpiOver hw s xs sys) :
    sys.link.wire = s.sends xs (spiFrames xs s.dfs) ∧
      sys.got = Link.replies hw.reply (s.sends xs (spiFrames xs s.dfs)) ∧
      sys.link.load = sys.link ∧ sys.link.shift hw.rxDepth hw.reply = sys.link := by
  have hall : sys.pushed.length ≤ sys.got.length := by
    rw [h.got, h.pushed, SpiDev.length_sends (Nat.le_refl _)]
  obtain ⟨hwire, hgot, htx, hline, -⟩ := h.flow.settled hall
  rw [h.pushed] at hwire hgot
  refine ⟨hwire, hgot, ?_, ?_⟩
  · simp [Link.load, htx, hline]
  · simp [Link.shift, hline]

/-- What moves do to a transfer in progress, as long as no frame is lost. -/
theorem SpiActive.move (h : SpiActive hw s xs sys) (hmove : SpiMove hw cbs sys e sys')
    (hpc : sys.pc ≠ .done) (hpos : (dwSpiInitTransfer xs s.dfs).xferLen ≠ 0)
    (hroom : e = .shift → sys.link.line = none ∨ sys.link.rx.length < hw.rxDepth) :
    SpiActive hw s xs sys' ∧ sys'.pc ≠ .done ∨
      SpiOver hw s xs sys' ∧
        (sys'.pc = .done ∧ sys'.dev.mem = s.stores xs sys'.got ∨
          sys'.pc = .idle ∧
            sys'.dev = dwSpiIsrEnd cbs (s.at xs (spiFrames xs s.dfs) sys'.got)) := by
  cases hmove with
  | load => exact .inl ⟨h.load, hpc⟩
  | shift => exact .inl ⟨h.shift (hroom rfl), hpc⟩
  | write => exact .inl ⟨h.write.1.withPc _, by simp⟩
  | read => exact .inl ⟨h.read.1.withPc _, by simp⟩
  | leave hpc hend =>
    obtain ⟨hpushed, hgot⟩ := h.all_done hend
    refine .inr ⟨⟨.inl rfl, hpushed, hgot, h.flow⟩, .inl ⟨rfl, ?_⟩⟩
    exact congrArg SpiDev.mem h.dev
  | enter => exact .inl ⟨h.read.1.withPc _, by simp⟩
  | off _ hpc hlen =>
    rw [h.dev] at hlen
    exact absurd hlen hpos
  | exit => exact .inl ⟨(h.served _).withPc _, by simp⟩
  | complete status hpc hend =>
    have hserved := h.served status
    obtain ⟨hpushed, hgot⟩ := hserved.all_done hend
    refine .inr ⟨⟨.inr ⟨rfl, rfl⟩, hpushed, hgot, hserved.flow⟩, .inr ⟨rfl, ?_⟩⟩
    have hdev := hserved.dev
    rw [hpushed, SpiDev.length_sends (Nat.le_refl _)] at hdev
    exact congrArg (dwSpiIsrEnd cbs) hdev
  | stay => exact .inl ⟨h, hpc⟩

/-- Behind the end only interrupts are turned off. -/
theorem SpiOver.move (h : SpiOver hw s xs sys) (hmove : SpiMove hw cbs sys e sys') :
    sys' = sys ∨ sys.pc = .idle ∧ sys' = { sys with dev := dwSpiDisableInterrupt sys.dev } := by
  obtain ⟨-, -, hload, hshift⟩ := h.settled
  cases hmove with
  | load =>
    left
    rw [hload]
  | shift =>
    left
    rw [hshift]
  | off _ hpc hlen => exact .inr ⟨hpc, rfl⟩
  | stay => exact .inl rfl
  | enter status hpc hlen =>
    rcases h.through with hdone | ⟨-, hcleared⟩
    · rw [hpc] at hdone
      exact absurd hdone (by simp)
    · rw [hcleared] at hlen
      exact absurd rfl hlen
  | write hpc | read hpc | leave hpc | exit _ hpc | complete _ hpc =>
    rcases h.through with hdone | ⟨hidle, -⟩
    · rw [hpc] at hdone
      exact absurd hdone (by simp)
    · rw [hpc] at hidle
      exact absurd hidle (by simp)

theorem SpiOver.kept (h : SpiOver hw s xs sys) (hmove : SpiMove hw cbs sys e sys') :
    SpiOver hw s xs sys' := by
  rcases h.move hmove with rfl | ⟨hpc, rfl⟩
  · exact h
  · refine ⟨?_, h.pushed, h.got, h.flow⟩
    rcases h.through with hdone | ⟨hidle, hcleared⟩
    · exact .inl hdone
    · exact .inr ⟨hidle, (xfer_disableInterrupt sys.dev).trans hcleared⟩

/-! ### Lists that are counted as nothing -/

/-- No frame of a list of length zero is ever pushed, and the driver never gets to its end. -/
structure SpiVoid (calls : List SpiCbrtn) (sys : SpiSys) : Prop where
  at_rest : sys.pc = .write ∨ sys.pc = .done ∨ sys.pc = .idle
  xferLen : sys.dev.xfer.xferLen = 0
  nbytes : sys.dev.xfer.nbytes ≠ 0
  pushed : sys.pushed = []
  calls : sys.dev.calls = calls

theorem SpiVoid.move {calls : List SpiCbrtn} (h : SpiVoid calls sys)
    (hmove : SpiMove hw cbs sys e sys') : SpiVoid calls sys' := by
  have hend : dwSpiXferEnd sys.dev.xfer = true := by
    simp [dwSpiXferEnd, h.xferLen]
  cases hmove with
  | load | shift | stay => exact { h with }
  | leave => exact { h with at_rest := .inr (.inl rfl) }
  | off _ hpc hlen =>
    have hxfer := xfer_disableInterrupt sys.dev
    refine ⟨h.at_rest, ?_, ?_, h.pushed, (disableInterrupt_keeps sys.dev).2.trans h.calls⟩
    · show (dwSpiDisableInterrupt sys.dev).xfer.xferLen = 0
      rw [hxfer, hlen]
    · show (dwSpiDisableInterrupt sys.dev).xfer.nbytes ≠ 0
      rw [hxfer]
      exact h.nbytes
  | write hpc hnot =>
    rw [hend] at hnot
    exact absurd hnot (by simp)
  | enter status hpc hlen => exact absurd h.xferLen hlen
  | read hpc | exit _ hpc | complete _ hpc =>
    rcases h.at_rest with hc | hc | hc <;> rw [hpc] at hc <;> exact absurd hc (by simp)

theorem SpiVoid.start (hs : s.xfer = dwSpiInitTransfer xs s.dfs)
    (hlen : (dwSpiInitTransfer xs s.dfs).xferLen = 0) (hpc : pc = .write ∨ pc = .idle) :
    SpiVoid s.calls (.start s pc) where
  at_rest := by
    rcases hpc with rfl | rfl
    · exact .inl rfl
    · exact .inr (.inr rfl)
  xferLen := by
    show s.xfer.xferLen = 0
    rw [hs, hlen]
  nbytes := by
    show s.xfer.nbytes ≠ 0
    rw [hs]
    exact Nat.ne_of_gt (dwSpiNbytes_pos s.dfs)
  pushed := rfl
  calls := rfl

theorem void_run {ok : SpiSys → SpiEvent → Prop} {es : List SpiEvent}
    (hs : s.xfer = dwSpiInitTransfer xs s.dfs) (hlen : (dwSpiInitTransfer xs s.dfs).xferLen = 0)
    (hpc : pc = .write ∨ pc = .idle) (hrun : Trace.Runs (spiStep hw cbs) ok (.start s pc) es sys) :
    SpiVoid s.calls sys :=
  Trace.Runs.invariant (I := SpiVoid s.calls) (fun _ _ _ h _ hstep => h.move (spiStep_move hstep))
    hrun (SpiVoid.start hs hlen hpc)

/-! ### What both commands start from -/

section Start

variable {s : SpiDev} {param : Word} {xs : List DevSpiTransfer}

theorem transferPolling_ok (h : (dwSpiTransferPolling s param xs).1 = eOk) :
    param ≠ 0 ∧ (dwSpiTransferPolling s param xs).2 =
      { s with xfer := dwSpiInitTransfer xs s.dfs, status := s.status ||| devInXfer } := by
  unfold dwSpiTransferPolling at h ⊢
  have hready := ready_ok h
  rw [hready] at h ⊢
  obtain ⟨-, heq⟩ := check_ok (by decide) h
  rw [heq] at h ⊢
  obtain ⟨-, heq⟩ := check_ok (by decide) h
  rw [heq] at h ⊢
  by_cases hparam : param ≠ 0
  · rw [if_pos hparam] at h ⊢
    obtain ⟨-, heq⟩ := check_ok (by decide) h
    rw [heq]
    exact ⟨hparam, rfl⟩
  · rw [if_neg hparam] at h
    exact absurd h (show ePar ≠ eOk by decide)

theorem dwSpiTransferInt_ok (hparam : param ≠ 0) (h : (dwSpiTransferInt s param xs).1 = eOk) :
    dwSpiTransferInt s param xs =
      dwSpiEnaCbr { s with xfer := dwSpiInitTransfer xs s.dfs } .xfer := by
  unfold dwSpiTransferInt at h ⊢
  obtain ⟨-, heq⟩ := check_ok (by decide) h
  rw [heq, if_pos hparam] at h ⊢
  obtain ⟨-, heq⟩ := check_ok (by decide) h
  rw [heq] at h ⊢
  exact (check_ok (by decide) h).2

theorem transferInt_ok (hparam : param ≠ 0) (h : (dwSpiControl s (.transferInt param xs)).1 = eOk) :
    (dwSpiControl s (.transferInt param xs)).2 =
      { s with
        xfer := dwSpiInitTransfer xs s.dfs, status := s.status ||| dwSpiInXfer
        imr := s.imr ||| dwSpiImrXfer, gint := true } := by
  simp only [dwSpiControl] at h ⊢
  have hready := ready_ok h
  rw [hready] at h ⊢
  have heq := dwSpiTransferInt_ok hparam h
  rw [heq] at h ⊢
  unfold dwSpiEnaCbr at h ⊢
  split at h
  · rename_i hfree
    rw [if_pos hfree]; rfl
  · exact absurd h (show eCtx ≠ eOk by decide)

end Start

/-! ### A small system -/

def spiBytes (len : Word) : List DevSpiTransfer :=
  [{ txBuf := 0x100, txOfs := 0, txLen := len, rxBuf := 0x200, rxOfs := 0, rxLen := len }]

def spiOpened : SpiDev where
  opnCnt := 1
  status := devEnabled
  dfs := 8
  dummy := 0
  xfer := .cleared
  imr := 0
  gint := false
  ram := fun _ => 1
  mem := fun _ => 0
  calls := []

def spiSmall : DwHw where
  txDepth := 1
  rxDepth := 1
  reply := fun _ => 5
  tx_pos := by decide
  rx_pos := by decide

def spiCallback : SpiCbs := { txCb := none, rxCb := none, xferCb := some id }

end Embarc
