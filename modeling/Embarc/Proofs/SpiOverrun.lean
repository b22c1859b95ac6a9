/-
How many frames the SPI driver can have in flight.

The writer looks at the transmit FIFO only.  In the loop, nothing is left in the receive FIFO
behind a reader, so at most a full transmit FIFO and the frame on the line are in flight; the
writer then fills the transmit FIFO once more, by which time all of those may have come in.  So
`2 * txDepth + 1` frames may be in flight and no more, and that many are, if there are as many and
the controller is slow first and fast then.

The interrupt routine writes when the transmit FIFO is empty.  What was pushed before is then on the
line at most, so a full transmit FIFO and one frame may be in flight, if it is filled twice.
-/
import Embarc.Proofs.SpiSystem

namespace Embarc

open Trace (Runs Reaches)

/-- Frames written whose reply was not yet read. -/
def SpiSys.outstanding (sys : SpiSys) : Nat := sys.pushed.length - sys.got.length

/-- `dw_spi_hw_init` sets `TXFTLR` to 0: the transmit interrupt is raised by an empty FIFO. -/
def SpiRaised (sys : SpiSys) : SpiEvent → Prop
  | .irq status => hasFlag status dwSpiImrTxeim = true → sys.link.tx = []
  | .load | .shift | .drive => True

instance SpiRaised.decRaised (sys : SpiSys) (e : SpiEvent) : Decidable (SpiRaised sys e) :=
  match e with
  | .irq _ => inferInstanceAs (Decidable (_ → _))
  | .load | .shift | .drive => inferInstanceAs (Decidable True)

/-- In no run more frames are out than the receive FIFO holds, and so none is lost. -/
def SpiNeverOverrun (hw : DwHw) (cbs : SpiCbs) (s : SpiDev) (pc : SpiPc) : Prop :=
  ∀ es sys, Runs (spiStep hw cbs) SpiRaised (.start s pc) es sys →
    sys.outstanding ≤ hw.rxDepth ∧ sys.link.NoneLost hw.reply sys.got

variable {hw : DwHw} {cbs : SpiCbs} {s : SpiDev} {xs : List DevSpiTransfer} {sys sys' : SpiSys}
  {e : SpiEvent} {frames : Nat}

/-- When the receive FIFO is deep enough for the loop. -/
def DwHw.Deep (hw : DwHw) (frames : Nat) : Prop :=
  frames ≤ hw.rxDepth ∨ 2 * hw.txDepth + 1 ≤ hw.rxDepth

/-- The most frames that the interrupt routine can have in flight. -/
def DwHw.mostInt (hw : DwHw) (frames : Nat) : Nat :=
  if 2 * hw.txDepth ≤ frames then hw.txDepth + 1 else min frames hw.txDepth

def DwHw.Fits (hw : DwHw) (frames : Nat) : (polled : Bool) → Prop
  | true => hw.Deep frames
  | false => hw.mostInt frames ≤ hw.rxDepth

/-! ### At most so many -/

/-- What may be in flight in the loop: more behind the writer than behind the reader. -/
def SpiPc.bound (txDepth : Nat) : SpiPc → Nat
  | .write => txDepth + 1
  | _ => 2 * txDepth + 1

/-- For the interrupt routine it counts whether the transmit FIFO was filled before, and whether it
is about to be. -/
structure SpiIntBound (hw : DwHw) (frames : Nat) (sys : SpiSys) : Prop where
  filled : sys.pushed = [] ∨ min frames hw.txDepth ≤ sys.pushed.length
  most : sys.link.inFlight ≤ hw.mostInt frames
  empty : ∀ status, sys.pc = .isr status → hasFlag status dwSpiImrTxeim = true →
    sys.link.tx = [] ∧ sys.link.inFlight ≤ 1

def SpiBounded (hw : DwHw) (frames : Nat) (sys : SpiSys) : Prop :=
  if sys.pc.polled then sys.link.inFlight ≤ sys.pc.bound hw.txDepth else SpiIntBound hw frames sys

theorem SpiBounded.loop (hpc : sys.pc.polled = true) (h : SpiBounded hw frames sys) :
    sys.link.inFlight ≤ sys.pc.bound hw.txDepth := by
  rwa [SpiBounded, if_pos hpc] at h

theorem SpiBounded.int (hpc : sys.pc.polled = false) (h : SpiBounded hw frames sys) :
    SpiIntBound hw frames sys := by
  rwa [SpiBounded, hpc, if_neg Bool.false_ne_true] at h

theorem SpiActive.inFlight_write (h : SpiActive hw s xs sys) :
    (sys.write hw).link.inFlight ≤ sys.link.inFlight + hw.txDepth := by
  obtain ⟨hactive, hlen⟩ := h.write
  have hflow := h.flow.length
  have hflow' := hactive.flow.length
  have hgot : (sys.write hw).got = sys.got := by
    rw [h.write_eq]
    rfl
  rw [hgot, hlen] at hflow'
  unfold SpiSys.writes at hflow'
  omega

/-- The controller moves frames on, and the transmit FIFO gets no fuller. -/
theorem SpiBounded.moved {link : Link Word} (h : SpiBounded hw frames sys)
    (hsame : link.inFlight = sys.link.inFlight) (htx : sys.link.tx = [] → link.tx = []) :
    SpiBounded hw frames { sys with link } := by
  cases hpc : sys.pc.polled with
  | true =>
    rw [SpiBounded, if_pos hpc]
    exact Nat.le_trans (Nat.le_of_eq hsame) (h.loop hpc)
  | false =>
    obtain ⟨hfilled, hmost, hempty⟩ := h.int hpc
    rw [SpiBounded, hpc, if_neg Bool.false_ne_true]
    refine ⟨hfilled, Nat.le_trans (Nat.le_of_eq hsame) hmost, fun status hisr hon => ?_⟩
    obtain ⟨htx', hone⟩ := hempty status hisr hon
    exact ⟨htx htx', Nat.le_trans (Nat.le_of_eq hsame) hone⟩

/-- The routine is entered, and the reader empties the receive FIFO. -/
theorem SpiActive.bound_enter {status : Word} (h : SpiActive hw s xs sys)
    (hraised : SpiRaised sys (.irq status)) (hbound : SpiIntBound hw frames sys) :
    SpiIntBound hw frames { sys.read with pc := .isr status } := by
  have hread := h.read_eq
  have hlink : sys.read.link.inFlight = sys.link.tx.length + sys.link.line.toList.length := by
    rw [hread]
    show sys.link.tx.length + _ + (sys.link.rx.drop sys.link.rx.length).length = _
    rw [List.drop_length, List.length_nil]
    rfl
  have hline : sys.link.line.toList.length ≤ 1 := by
    cases sys.link.line <;> simp
  constructor
  · show sys.read.pushed = [] ∨ _ ≤ sys.read.pushed.length
    rw [hread]
    exact hbound.filled
  · show sys.read.link.inFlight ≤ _
    rw [hlink]
    have hmost := hbound.most
    unfold Link.inFlight at hmost
    omega
  · rintro _ ⟨⟩ hon
    have htx := hraised hon
    refine ⟨?_, ?_⟩
    · show sys.read.link.tx = []
      rw [hread]
      exact htx
    · show sys.read.link.inFlight ≤ 1
      rw [hlink, htx, List.length_nil, Nat.zero_add]
      exact hline

/-- The routine is left, with the transmit FIFO filled if it was empty. -/
theorem SpiActive.bound_exit {status : Word} (h : SpiActive hw s xs sys)
    (hpc : sys.pc = .isr status) (hbound : SpiIntBound hw (spiFrames xs s.dfs) sys) (dev : SpiDev) :
    SpiIntBound hw (spiFrames xs s.dfs) { sys.served hw status with dev, pc := .idle } := by
  obtain ⟨hfilled, hmost, hempty⟩ := hbound
  by_cases hon : hasFlag status dwSpiImrTxeim = true
  · rw [SpiSys.served, if_pos hon]
    obtain ⟨htx, hone⟩ := hempty status hpc hon
    obtain ⟨hactive, hlen⟩ := h.write
    have hflow := h.flow.length
    have hflow' := hactive.flow.length
    have hgot : (sys.write hw).got = sys.got := by
      rw [h.write_eq]
      rfl
    have hwrites : sys.writes hw s xs =
        min (spiFrames xs s.dfs - sys.pushed.length) hw.txDepth := by
      rw [SpiSys.writes, htx, List.length_nil, Nat.sub_zero]
    rw [hgot] at hflow'
    refine ⟨.inr ?_, ?_, by rintro _ ⟨⟩⟩
    · show _ ≤ (sys.write hw).pushed.length
      omega
    · show (sys.write hw).link.inFlight ≤ _
      unfold DwHw.mostInt at hmost ⊢
      rcases hfilled with hnil | hfull
      · rw [hnil, List.length_nil] at hflow hwrites hlen
        split <;> omega
      · split at hmost <;> split <;> omega
  · rw [SpiSys.served, if_neg hon]
    exact ⟨hfilled, hmost, by rintro _ ⟨⟩⟩

theorem SpiActive.bound_move (h : SpiActive hw s xs sys) (h' : SpiActive hw s xs sys')
    (hmove : SpiMove hw cbs sys e sys') (hraised : SpiRaised sys e)
    (hbound : SpiBounded hw (spiFrames xs s.dfs) sys) :
    SpiBounded hw (spiFrames xs s.dfs) sys' := by
  have hflow := h.flow.length
  have hflow' := h'.flow.length
  cases hmove with
  | load =>
    refine hbound.moved (Nat.add_left_cancel (hflow'.symm.trans hflow)) fun htx => ?_
    simp [Link.load, htx]
  | shift =>
    refine hbound.moved (Nat.add_left_cancel (hflow'.symm.trans hflow)) fun htx => ?_
    rw [Link.tx_shift, htx]
  | write hpc =>
    have hwrite := h.inFlight_write
    have hsmall := hbound.loop (by rw [hpc]; rfl)
    rw [hpc] at hsmall
    show (sys.write hw).link.inFlight ≤ 2 * hw.txDepth + 1
    have : sys.link.inFlight ≤ hw.txDepth + 1 := hsmall
    omega
  | read => exact h.read.2
  | leave hpc =>
    have hsmall := hbound.loop (by rw [hpc]; rfl)
    rw [hpc] at hsmall
    have : sys.link.inFlight ≤ hw.txDepth + 1 := hsmall
    show sys.link.inFlight ≤ 2 * hw.txDepth + 1
    omega
  | enter status hpc => exact h.bound_enter hraised (hbound.int (by rw [hpc]; rfl))
  | exit status hpc => exact h.bound_exit hpc (hbound.int (by rw [hpc]; rfl)) _
  | complete status hpc => exact h.bound_exit hpc (hbound.int (by rw [hpc]; rfl)) _
  | off status hpc =>
    have hint := hbound.int (by rw [hpc]; rfl)
    rw [SpiBounded, if_neg (by simp [hpc, SpiPc.polled])]
    exact { hint with }
  | stay => exact hbound

/-- The frames in flight fit the receive FIFO while the transfer goes on, and then there are
none. -/
def SpiFitting (hw : DwHw) (s : SpiDev) (xs : List DevSpiTransfer) (polled : Bool)
    (sys : SpiSys) : Prop :=
  SpiActive hw s xs sys ∧ sys.pc ≠ .done ∧ sys.pc.polled = polled ∧
      SpiBounded hw (spiFrames xs s.dfs) sys ∨
    SpiOver hw s xs sys

variable {polled : Bool}

theorem SpiActive.inFlight_le (h : SpiActive hw s xs sys) (hpc : sys.pc.polled = polled)
    (hdeep : hw.Fits (spiFrames xs s.dfs) polled)
    (hbound : SpiBounded hw (spiFrames xs s.dfs) sys) : sys.link.inFlight ≤ hw.rxDepth := by
  cases polled with
  | true =>
    have hflow := h.flow.length
    have hcount := h.count
    have hsmall := hbound.loop hpc
    have hmost : sys.pc.bound hw.txDepth ≤ 2 * hw.txDepth + 1 := by
      unfold SpiPc.bound
      split <;> omega
    rcases hdeep with hframes | hdepth <;> omega
  | false => exact Nat.le_trans (hbound.int hpc).most hdeep

theorem SpiFitting.step (hdeep : hw.Fits (spiFrames xs s.dfs) polled)
    (hpos : (dwSpiInitTransfer xs s.dfs).xferLen ≠ 0) (h : SpiFitting hw s xs polled sys)
    (hraised : SpiRaised sys e) (hstep : spiStep hw cbs sys e = .ok sys') :
    SpiFitting hw s xs polled sys' := by
  have hmove := spiStep_move hstep
  rcases h with ⟨hactive, hpc, hpolled, hbound⟩ | hover
  · have hroom : sys.link.line = none ∨ sys.link.rx.length < hw.rxDepth := by
      have hlen := hactive.flow.length
      have hfit := hactive.inFlight_le hpolled hdeep hbound
      exact hactive.flow.room (by omega)
    rcases hactive.move hmove hpc hpos (fun _ => hroom) with ⟨hactive', hpc'⟩ | ⟨hover, -⟩
    · have hbound' := hactive.bound_move hactive' hmove hraised hbound
      exact .inl ⟨hactive', hpc', hmove.polled.trans hpolled, hbound'⟩
    · exact .inr hover
  · exact .inr (hover.kept hmove)

variable {pc : SpiPc} {es : List SpiEvent}

/-- **No more frames are out than the receive FIFO holds**, if it is deep enough. -/
theorem outstanding_le (hdeep : hw.Fits (spiFrames xs s.dfs) pc.polled)
    (hs : s.xfer = dwSpiInitTransfer xs s.dfs) (hpc : pc = .write ∨ pc = .idle)
    (hrun : Runs (spiStep hw cbs) SpiRaised (.start s pc) es sys) :
    sys.outstanding ≤ hw.rxDepth := by
  unfold SpiSys.outstanding
  by_cases hzero : (dwSpiInitTransfer xs s.dfs).xferLen = 0
  · have hvoid := void_run hs hzero hpc hrun
    rw [hvoid.pushed, List.length_nil, Nat.zero_sub]
    exact Nat.zero_le _
  have hstart : SpiFitting hw s xs pc.polled (.start s pc) := by
    refine .inl ⟨SpiActive.start hw hs pc, ?_, rfl, ?_⟩
    · rcases hpc with rfl | rfl <;> simp [SpiSys.start]
    · rw [SpiBounded]
      split
      · exact Nat.zero_le _
      · refine ⟨.inl rfl, Nat.zero_le _, ?_⟩
        rcases hpc with rfl | rfl <;> rintro _ ⟨⟩
  have hfitting := Runs.invariant (I := SpiFitting hw s xs pc.polled)
    (fun _ _ _ h hraised hstep => h.step hdeep hzero hraised hstep) hrun hstart
  rcases hfitting with ⟨hactive, -, hpolled, hbound⟩ | hover
  · have hflow := hactive.flow.length
    have hfit := hactive.inFlight_le hpolled hdeep hbound
    omega
  · rw [hover.pushed, hover.got, SpiDev.length_sends (Nat.le_refl _), Nat.sub_self]
    exact Nat.zero_le _

/-! ### As many

In the loop the controller stands still while the writer fills the transmit FIFO, and again after it
has loaded one frame; then it brings in all of them before the writer fills the FIFO a third time. -/

theorem step_write (h : SpiActive hw s xs sys) (hpos : (dwSpiInitTransfer xs s.dfs).xferLen ≠ 0)
    (hpc : sys.pc = .write) (hgot : sys.got = []) :
    spiStep hw cbs sys .drive = .ok { sys.write hw with pc := .read } := by
  have hend : dwSpiXferEnd sys.dev.xfer = false := by
    rw [h.dev, hgot]
    simp only [dwSpiXferEnd, SpiDev.at, dwSpiInitTransfer, List.length_nil, Nat.mul_zero] at hpos ⊢
    simp [hpos]
  simp [spiStep, spiDrive, hpc, hend]
  rfl

theorem step_read (hpc : sys.pc = .read) :
    spiStep hw cbs sys .drive = .ok { sys.read with pc := .write } := by
  show Except.ok (spiDrive hw cbs sys) = _
  rw [spiDrive, hpc]

/-- Before the writer with nothing come in: `n` frames were pushed, `t` of them wait. -/
structure SpiStalled (hw : DwHw) (s : SpiDev) (xs : List DevSpiTransfer) (n t : Nat)
    (line : Bool) (sys : SpiSys) : Prop where
  active : SpiActive hw s xs sys
  pc : sys.pc = .write
  got : sys.got = []
  rx : sys.link.rx = []
  pushed : sys.pushed.length = n
  tx : sys.link.tx.length = t
  line : sys.link.line.isSome = line

theorem SpiStalled.turn {n t : Nat} {line : Bool} (h : SpiStalled hw s xs n t line sys)
    (hpos : (dwSpiInitTransfer xs s.dfs).xferLen ≠ 0) :
    Reaches (spiStep hw cbs) SpiRaised sys
      (SpiStalled hw s xs (n + min (spiFrames xs s.dfs - n) (hw.txDepth - t))
        (t + min (spiFrames xs s.dfs - n) (hw.txDepth - t)) line) := by
  have hk : sys.writes hw s xs = min (spiFrames xs s.dfs - n) (hw.txDepth - t) := by
    rw [SpiSys.writes, h.pushed, h.tx]
  rw [← hk]
  obtain ⟨hactive, hlen⟩ := h.active.write
  have hlink : (sys.write hw).link.rx = [] ∧ (sys.write hw).link.line = sys.link.line ∧
      (sys.write hw).got = [] := by
    rw [h.active.write_eq]
    exact ⟨h.rx, rfl, h.got⟩
  obtain ⟨hrx, hline, hgot⟩ := hlink
  have htx : (sys.write hw).link.tx.length = t + sys.writes hw s xs := by
    have hflow := h.active.flow.length
    have hflow' := hactive.flow.length
    rw [Link.inFlight, h.got, h.rx, h.tx] at hflow
    rw [Link.inFlight, hgot, hrx, hline, hlen, h.pushed] at hflow'
    rw [h.pushed] at hflow
    omega
  rw [h.pushed] at hlen
  have hactive' := hactive.withPc .read
  refine Reaches.after (by exact trivial) (step_write h.active hpos h.pc h.got) ?_
  refine Reaches.after (by exact trivial) (step_read rfl) (Reaches.here ?_)
  -- the reader finds nothing
  have hread := hactive'.read_eq
  refine ⟨hactive'.read.1.withPc _, rfl, ?_, ?_, ?_, ?_, ?_⟩ <;> rw [hread]
  · show (sys.write hw).got ++ (sys.write hw).link.rx.take _ = []
    rw [hgot, hrx]
    rfl
  · show (sys.write hw).link.rx.drop _ = []
    rw [hrx]
    rfl
  · exact hlen
  · exact htx
  · show (sys.write hw).link.line.isSome = line
    rw [hline, h.line]

theorem SpiStalled.load {n t : Nat} (h : SpiStalled hw s xs n (t + 1) false sys) :
    Reaches (spiStep hw cbs) SpiRaised sys (SpiStalled hw s xs n t true) := by
  have hline : sys.link.line = none := Option.not_isSome_iff_eq_none.mp (by simp [h.line])
  obtain ⟨a, rest, htx⟩ : ∃ a rest, sys.link.tx = a :: rest := by
    refine List.exists_cons_of_ne_nil fun hnil => ?_
    have hlen := h.tx
    rw [hnil] at hlen
    exact absurd hlen (by simp)
  have hload : sys.link.load = { sys.link with tx := rest, line := some a } := by
    simp [Link.load, hline, htx]
  have hstep : spiStep hw cbs sys .load = .ok { sys with link := sys.link.load } := rfl
  have hlen := h.tx
  rw [htx, List.length_cons] at hlen
  refine Reaches.after (by exact trivial) hstep
    (Reaches.here ⟨h.active.load, h.pc, h.got, ?_, h.pushed, ?_, ?_⟩) <;>
    rw [hload]
  · exact h.rx
  · exact Nat.succ.inj hlen
  · rfl

/-- The controller brings in what is in the transmit FIFO, and has the last frame on the line. -/
theorem SpiActive.drain (h : SpiActive hw s xs sys) (hfit : sys.link.inFlight ≤ hw.rxDepth)
    (hbusy : sys.link.tx ≠ [] ∨ sys.link.line.isSome = true) :
    Reaches (spiStep hw cbs) SpiRaised sys fun sys' =>
      SpiActive hw s xs sys' ∧ sys'.link.tx = [] ∧ sys'.link.line.isSome = true ∧
        sys'.pushed = sys.pushed ∧ sys'.got = sys.got ∧ sys'.pc = sys.pc := by
  -- loading leaves the frame in flight, but moves it on
  generalize hm : 2 * sys.link.tx.length + sys.link.line.toList.length = m
  induction m using Nat.strongRecOn generalizing sys with
  | _ m ih =>
    have hflow := h.flow.length
    cases htx : sys.link.tx with
    | nil => exact Reaches.here ⟨h, htx, hbusy.resolve_left (by simp [htx]), rfl, rfl, rfl⟩
    | cons a rest =>
      cases hline : sys.link.line with
      | some b =>
        have hrx : sys.link.rx.length < hw.rxDepth := by
          rw [Link.inFlight, hline, Option.toList_some, List.length_singleton] at hfit
          omega
        have hnext := h.shift (.inr hrx)
        have hsame := Nat.add_left_cancel (hnext.flow.length.symm.trans hflow)
        have hstep : spiStep hw cbs sys .shift =
            .ok { sys with link := sys.link.shift hw.rxDepth hw.reply } := rfl
        refine Reaches.after (by exact trivial) hstep
          (ih _ ?_ hnext (Nat.le_trans (Nat.le_of_eq hsame) hfit) ?_ rfl)
        · rw [Link.tx_shift, ← hm]
          simp [Link.shift, hline]
        · rw [Link.tx_shift, htx]
          exact .inl (List.cons_ne_nil a rest)
      | none =>
        have hnext := h.load
        have hsame := Nat.add_left_cancel (hnext.flow.length.symm.trans hflow)
        have hload : sys.link.load = { sys.link with tx := rest, line := some a } := by
          simp [Link.load, hline, htx]
        have hstep : spiStep hw cbs sys .load = .ok { sys with link := sys.link.load } := rfl
        refine Reaches.after (by exact trivial) hstep
          (ih _ ?_ hnext (Nat.le_trans (Nat.le_of_eq hsame) hfit) ?_ rfl)
        · rw [← hm, hload, htx, hline]
          simp only [List.length_cons, Option.toList_some, Option.toList_none, List.length_nil]
          omega
        · rw [hload]
          exact .inr rfl

/-- **More frames are out than the receive FIFO holds**, in some run of the loop, if it is not deep
enough. -/
theorem loop_overrun (hs : s.xfer = dwSpiInitTransfer xs s.dfs)
    (hpos : (dwSpiInitTransfer xs s.dfs).xferLen ≠ 0) (hshallow : ¬ hw.Deep (spiFrames xs s.dfs)) :
    Reaches (spiStep hw cbs) SpiRaised (.start s .write) fun sys =>
      hw.rxDepth < sys.outstanding := by
  simp only [DwHw.Deep, not_or, Nat.not_le] at hshallow
  obtain ⟨hframes, hdepth⟩ := hshallow
  have htx := hw.tx_pos
  have hstart : SpiStalled hw s xs 0 0 false (.start s .write) :=
    ⟨SpiActive.start hw hs .write, rfl, rfl, rfl, rfl, rfl, rfl⟩
  refine (hstart.turn hpos).bind fun sys₁ h₁ => ?_
  obtain ⟨t, ht⟩ : ∃ t, 0 + min (spiFrames xs s.dfs - 0) (hw.txDepth - 0) = t + 1 :=
    ⟨_, (Nat.succ_pred_eq_of_pos (by omega)).symm⟩
  rw [ht] at h₁
  refine h₁.load.bind fun sys₂ h₂ => (h₂.turn hpos).bind fun sys₃ h₃ => ?_
  by_cases hmany : hw.rxDepth < sys₃.pushed.length
  · refine Reaches.here ?_
    rw [SpiSys.outstanding, h₃.got, List.length_nil, Nat.sub_zero]
    exact hmany
  have hfit : sys₃.link.inFlight ≤ hw.rxDepth := by
    have hflow := h₃.active.flow.length
    omega
  refine (h₃.active.drain hfit (.inr h₃.line)).bind fun sys₄ hdrained => ?_
  obtain ⟨h₄, hempty, -, hpushed, hgot, hpc⟩ := hdrained
  have hgot' : sys₄.got = [] := hgot.trans h₃.got
  obtain ⟨-, hlen⟩ := h₄.write
  refine Reaches.after (by exact trivial) (step_write h₄ hpos (hpc.trans h₃.pc) hgot') (Reaches.here ?_)
  have hgot'' : (sys₄.write hw).got = [] := by
    rw [h₄.write_eq]
    exact hgot'
  show hw.rxDepth < (sys₄.write hw).pushed.length - (sys₄.write hw).got.length
  have hcount := h₃.pushed
  rw [hgot'', List.length_nil, Nat.sub_zero, hlen, SpiSys.writes, hempty, hpushed, hcount,
    List.length_nil]
  omega

/-- The interrupt routine finds the transmit FIFO empty and fills it. -/
theorem SpiActive.fill (h : SpiActive hw s xs sys) (hpc : sys.pc = .idle) (htx : sys.link.tx = [])
    (hpos : (dwSpiInitTransfer xs s.dfs).xferLen ≠ 0) :
    Reaches (spiStep hw cbs) SpiRaised sys fun sys' =>
      (SpiActive hw s xs sys' ∨ SpiOver hw s xs sys') ∧ sys'.pc = .idle ∧
        sys'.pushed.length =
          sys.pushed.length + min (spiFrames xs s.dfs - sys.pushed.length) hw.txDepth ∧
        sys'.got = sys.got ++ sys.link.rx ∧ sys'.link.line = sys.link.line ∧
        sys'.link.rx = [] := by
  have henter : spiStep hw cbs sys (.irq dwSpiImrTxeim) =
      .ok { sys.read with pc := .isr dwSpiImrTxeim } := by
    have hlen : sys.dev.xfer.xferLen ≠ 0 := by
      rw [h.dev]
      exact hpos
    have hread : dwSpiIsrRead sys.dev dwSpiImrTxeim sys.link.rx =
        .ok (some (dwSpiReader sys.dev sys.link.rx).1, (dwSpiReader sys.dev sys.link.rx).2) := by
      rw [dwSpiIsrRead, if_neg (by decide), if_neg hlen, if_neg (by decide)]
    show spiIrq sys dwSpiImrTxeim = _
    rw [spiIrq, hpc, hread]
    rfl
  have hactive : SpiActive hw s xs { sys.read with pc := .isr dwSpiImrTxeim } :=
    h.read.1.withPc _
  have hleave : spiStep hw cbs { sys.read with pc := .isr dwSpiImrTxeim } .drive =
      .ok (spiDrive hw cbs { sys.read with pc := .isr dwSpiImrTxeim }) := rfl
  refine Reaches.after (by exact fun _ => htx) henter
    (Reaches.after (by exact trivial) hleave (Reaches.here ⟨?_, ?_⟩))
  · rcases hactive.move (spiStep_move hleave) (by simp) hpos (by simp) with
      ⟨hgoes, -⟩ | ⟨hover, -⟩
    · exact .inl hgoes
    · exact .inr hover
  have hlen := hactive.write.2
  rw [SpiSys.writes] at hlen
  rw [drive_isr rfl]
  refine ⟨rfl, ?_, ?_, ?_, ?_⟩
  · refine hlen.trans ?_
    simp only [h.read_eq, SpiSys.take, Link.take, htx, List.length_nil, Nat.sub_zero]
  · show sys.read.got = _
    rw [h.read_eq]
    show sys.got ++ sys.link.rx.take _ = _
    rw [List.take_length]
  · show sys.read.link.line = _
    rw [h.read_eq]
    rfl
  · show sys.read.link.rx = []
    rw [h.read_eq]
    exact List.drop_length

/-- **More frames are out than the receive FIFO holds**, in some run with interrupts: the transmit
FIFO is filled, and once more when the last frame of it is on the line. -/
theorem int_overrun (hs : s.xfer = dwSpiInitTransfer xs s.dfs)
    (hpos : (dwSpiInitTransfer xs s.dfs).xferLen ≠ 0)
    (hshallow : hw.rxDepth < hw.mostInt (spiFrames xs s.dfs)) :
    Reaches (spiStep hw cbs) SpiRaised (.start s .idle) fun sys =>
      hw.rxDepth < sys.outstanding := by
  have htx := hw.tx_pos
  have hstart := SpiActive.start hw hs .idle
  refine (hstart.fill rfl rfl hpos).bind fun sys₁ h₁ => ?_
  obtain ⟨hkind, hpc, hpushed, hgot, hline, hrx⟩ := h₁
  have hnone : sys₁.got = [] := hgot
  by_cases hmany : hw.rxDepth < sys₁.pushed.length
  · refine Reaches.here ?_
    rw [SpiSys.outstanding, hnone, List.length_nil, Nat.sub_zero]
    exact hmany
  unfold DwHw.mostInt at hshallow
  split at hshallow
  case isFalse => omega
  case isTrue htwice =>
    have hactive : SpiActive hw s xs sys₁ := by
      refine hkind.resolve_right fun hover => ?_
      have hall := hover.got
      rw [hnone, List.length_nil] at hall
      omega
    have hflow := hactive.flow.length
    rw [hnone, List.length_nil, Nat.zero_add] at hflow
    have hbusy : sys₁.link.tx ≠ [] := by
      intro hnil
      rw [Link.inFlight, hnil, hline, hrx] at hflow
      have : (SpiSys.start s .idle).link.line.toList.length = 0 := rfl
      simp only [List.length_nil, this] at hflow
      omega
    refine (hactive.drain (by omega) (.inl hbusy)).bind fun sys₂ hdrained => ?_
    obtain ⟨h₂, hempty, hlast, hpushed₂, hgot₂, hpc₂⟩ := hdrained
    have hflow₂ := h₂.flow.length
    obtain ⟨a, ha⟩ := Option.isSome_iff_exists.mp hlast
    rw [Link.inFlight, hempty, ha, hgot₂, hnone, hpushed₂] at hflow₂
    simp only [List.length_nil, Option.toList_some, List.length_singleton] at hflow₂
    refine (h₂.fill (hpc₂.trans hpc) hempty hpos).bind fun sys₃ h₃ => Reaches.here ?_
    obtain ⟨-, -, hpushed₃, hgot₃, -, -⟩ := h₃
    rw [SpiSys.outstanding, hpushed₃, hgot₃, hgot₂, hnone, hpushed₂, List.nil_append]
    omega

theorem reaches_overrun (cbs : SpiCbs) (hs : s.xfer = dwSpiInitTransfer xs s.dfs)
    (hpc : pc = .write ∨ pc = .idle) (hshallow : ¬ hw.Fits (spiFrames xs s.dfs) pc.polled) :
    Reaches (spiStep hw cbs) SpiRaised (.start s pc) fun sys => hw.rxDepth < sys.outstanding := by
  have hpos : (dwSpiInitTransfer xs s.dfs).xferLen ≠ 0 := by
    intro hzero
    have hnone : spiFrames xs s.dfs = 0 := by rw [spiFrames, hzero, Nat.zero_div]
    have htx := hw.tx_pos
    rw [hnone] at hshallow
    rcases hpc with rfl | rfl
    · exact hshallow (.inl (Nat.zero_le _))
    · refine hshallow ?_
      show (if 2 * hw.txDepth ≤ 0 then _ else min 0 _) ≤ hw.rxDepth
      rw [if_neg (by omega), Nat.zero_min]
      exact Nat.zero_le _
  rcases hpc with rfl | rfl
  · exact loop_overrun hs hpos hshallow
  · exact int_overrun hs hpos (Nat.not_le.mp hshallow)

/-- As long as no more frames are out than the receive FIFO holds, none is lost. -/
theorem none_lost
    (hall : ∀ es sys, Runs (spiStep hw cbs) SpiRaised (.start s pc) es sys →
      sys.outstanding ≤ hw.rxDepth)
    (hrun : Runs (spiStep hw cbs) SpiRaised (.start s pc) es sys) :
    sys.link.NoneLost hw.reply sys.got := by
  have hflow := Runs.invariant (I := fun sys => sys.link.Flow hw.reply sys.pushed sys.got)
    (fun _ _ _ h hok hstep => (spiStep_move hstep).flow h fun _ => h.room hok.2)
    (hrun.strengthen hall) (Link.Flow.empty hw.reply)
  exact hflow.received

/-- **The SPI driver overruns no receive FIFO exactly when it is deep enough.** -/
theorem never_overrun_iff (hs : s.xfer = dwSpiInitTransfer xs s.dfs)
    (hpc : pc = .write ∨ pc = .idle) :
    SpiNeverOverrun hw cbs s pc ↔ hw.Fits (spiFrames xs s.dfs) pc.polled := by
  constructor
  · intro h
    by_contra hshallow
    obtain ⟨es, sys, hrun, hmany⟩ := reaches_overrun cbs hs hpc hshallow
    exact absurd (h es sys hrun).1 (Nat.not_le.mpr hmany)
  · intro hdeep es sys hrun
    have hall : ∀ es sys, Runs (spiStep hw cbs) SpiRaised (.start s pc) es sys →
        sys.outstanding ≤ hw.rxDepth := fun _ _ hrun => outstanding_le hdeep hs hpc hrun
    exact ⟨hall es sys hrun, none_lost hall hrun⟩

end Embarc
