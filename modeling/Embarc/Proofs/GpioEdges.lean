/-
Edges on the pins of a GPIO port.

The interrupt routine of either driver looks at the status once.  It calls the handlers of the bits
it has found, and clears a bit behind its handler: the DesignWare driver behind the handler of the
bit, the driver of the subsystem behind the handlers of all bits.  An edge that comes in between
sets a latch that is set already, and is cleared with it.

So an edge is served exactly if it does not come between the two.
-/
import Embarc.Lib.Latch
import Embarc.Subsystem.Gpio
import Mathlib.Data.List.Nodup

namespace Embarc

open Trace (Runs)

/-! ### A port and its pins -/

/-- What an action of the routine is to the bits. -/
def GpioAct.view : GpioAct → Latch.Act Nat
  | .setBitofs _ => .other
  | .call i _ => .handle i
  | .eoi mask => .clear fun i => mask.getLsbD i

/-- What the status register shows of the bits that are edge-sensitive; the others may show
anything. -/
def GpioShows (inten intmask inttypeLevel : Word) (latched : Nat → Bool) (status : Word) : Prop :=
  ∀ i, inttypeLevel.getLsbD i = true →
    status.getLsbD i = (inten.getLsbD i && !intmask.getLsbD i && latched i)

/-- What an execution of `dw_gpio_isr_handler` can do. -/
def DwGpio.progs (s : DwGpio) (latched : Nat → Bool) (acts : List GpioAct) : Prop :=
  ∃ status, GpioShows s.regs.inten s.regs.intmask s.regs.inttypeLevel latched status ∧
    acts = (dwGpioIsrHandler s status).2

/-- What an execution of `gpio_ISR_proc` can do. -/
def SsGpio.progs (s : SsGpio) (latched : Nat → Bool) (acts : List GpioAct) : Prop :=
  ∃ status, GpioShows s.io.regs.inten s.io.regs.intmask s.io.regs.inttypeLevel latched status ∧
    acts = gpioIsrProc s status

abbrev GpioState := Latch.State Nat GpioAct

abbrev GpioEvent := Latch.Event Nat GpioAct

/-- Edges and what the routine does, in any order. -/
def GpioRuns (progs : (Nat → Bool) → List GpioAct → Prop) (s : GpioState) (es : List GpioEvent)
    (s' : GpioState) : Prop :=
  Runs (Latch.step GpioAct.view) (Latch.Ok progs) s es s'

/-- However it goes on, the bit stays latched until its handler is entered, and once the execution
that is running is over the next one that is completed has entered it. -/
def GpioServed (progs : (Nat → Bool) → List GpioAct → Prop) (i : Nat) (s : GpioState) : Prop :=
  Latch.Served GpioAct.view progs i s

/-- The handler of a bit has been entered, and the bit is still to be cleared. -/
def GpioServing (i : Nat) (s : GpioState) : Prop :=
  i ∈ s.called ∧ Latch.clears GpioAct.view i s.acts = true

/-- An enabled, edge-sensitive bit with a handler. -/
structure DwGpio.Watches (s : DwGpio) (i : Nat) : Prop where
  portA : s.no = dwGpioPortA
  handler : ∃ t, s.bitIsr = some t ∧ i < t.intBitMaxCnt.toNat ∧ t.handlers (BitVec.ofNat 32 i) ≠ 0
  enabled : s.regs.inten.getLsbD i = true
  unmasked : s.regs.intmask.getLsbD i = false
  edge : s.regs.inttypeLevel.getLsbD i = true

structure SsGpio.Watches (s : SsGpio) (i : Nat) : Prop where
  cb : s.io.rxCb ≠ 0
  width : i < s.width.toNat
  handler : s.handlers (BitVec.ofNat 32 i) ≠ 0
  enabled : s.io.regs.inten.getLsbD i = true
  unmasked : s.io.regs.intmask.getLsbD i = false
  edge : s.io.regs.inttypeLevel.getLsbD i = true

variable {p : Nat → Bool}

/-! ### Loops over the bits -/

section Bits

variable {n i : Nat}

theorem handled_bits {f : Nat → List GpioAct}
    (hf : ∀ j, Latch.handled GpioAct.view (f j) = if p j then [j] else []) :
    Latch.handled GpioAct.view ((List.range n).flatMap f) = (List.range n).filter p := by
  rw [Latch.handled, List.filterMap_flatMap]
  induction List.range n with
  | nil => rfl
  | cons j js ih =>
    rw [List.flatMap_cons, ih, List.filter_cons]
    have hj := hf j
    rw [Latch.handled] at hj
    rw [hj]
    split
    · rfl
    · rfl

theorem count_bits (p : Nat → Bool) : ((List.range n).filter p).count i ≤ 1 :=
  List.nodup_iff_count_le_one.mp (List.nodup_range.filter p) i

theorem mem_bits (hi : i < n) (hp : p i = true) : i ∈ (List.range n).filter p :=
  List.mem_filter.mpr ⟨List.mem_range.mpr hi, hp⟩

end Bits

/-! ### The routines -/

theorem GpioShows.of_watched {inten intmask inttypeLevel status : Word} {latched : Nat → Bool}
    {i : Nat} (h : GpioShows inten intmask inttypeLevel latched status)
    (henabled : inten.getLsbD i = true) (hunmasked : intmask.getLsbD i = false)
    (hedge : inttypeLevel.getLsbD i = true) : status.getLsbD i = latched i := by
  rw [h i hedge, henabled, hunmasked]
  rfl

section DesignWare

variable {s : DwGpio} {i : Nat}

theorem DwGpioBitIsr.handled_serve (t : DwGpioBitIsr) (j : Nat) :
    Latch.handled GpioAct.view (t.serve j) =
      if t.handlers (BitVec.ofNat 32 j) ≠ 0 then [j] else [] := by
  simp only [DwGpioBitIsr.serve]
  split
  · rfl
  · rfl

theorem DwGpioBitIsr.clears_serve (t : DwGpioBitIsr) (j : Nat)
    (h : Latch.clears GpioAct.view i (t.serve j) = true) : j = i := by
  have hbit : (1#32 <<< j).getLsbD i = true := by
    simp only [DwGpioBitIsr.serve] at h
    split at h
    · exact (Bool.or_false _).symm.trans h
    · exact (Bool.or_false _).symm.trans h
  rw [BitVec.getLsbD_shiftLeft, BitVec.getLsbD_one] at hbit
  simp only [Bool.and_eq_true, Bool.not_eq_true', decide_eq_true_eq, decide_eq_false_iff_not] at hbit
  omega

theorem DwGpio.Watches.serves (h : s.Watches i) : Latch.Serves GpioAct.view s.progs i := by
  obtain ⟨t, htable, hcnt, hhandler⟩ := h.handler
  have hprog (status : Word) : (dwGpioIsrHandler s status).2 =
      (List.range t.intBitMaxCnt.toNat).flatMap fun j =>
        if hasFlag status (1#32 <<< j) then t.serve j else [] := by
    rw [dwGpioIsrHandler, if_neg (not_not.mpr h.portA), htable]
  have hhandled (status : Word) : Latch.handled GpioAct.view (dwGpioIsrHandler s status).2 =
      (List.range t.intBitMaxCnt.toNat).filter fun j =>
        status.getLsbD j && decide (t.handlers (BitVec.ofNat 32 j) ≠ 0) := by
    rw [hprog]
    apply handled_bits
    intro j
    rw [hasFlag_bit]
    cases status.getLsbD j with
    | false => rfl
    | true =>
      rw [if_pos rfl, t.handled_serve]
      simp only [Bool.true_and, decide_eq_true_eq]
  have hmem {status : Word} (hset : status.getLsbD i = true) :
      i ∈ Latch.handled GpioAct.view (dwGpioIsrHandler s status).2 := by
    rw [hhandled]
    apply mem_bits hcnt
    rw [hset, Bool.true_and, decide_eq_true_eq]
    exact hhandler
  constructor
  case found =>
    rintro latched acts ⟨status, hshows, rfl⟩ hlatched
    apply hmem
    rw [hshows.of_watched h.enabled h.unmasked h.edge, hlatched]
  case before =>
    rintro latched acts ⟨status, hshows, rfl⟩ hclears
    apply hmem
    rw [hprog, Latch.clears, List.any_flatMap, List.any_eq_true] at hclears
    obtain ⟨j, -, hj⟩ := hclears
    split at hj
    · rename_i hset
      rw [hasFlag_bit] at hset
      rwa [t.clears_serve j hj] at hset
    · exact absurd hj Bool.false_ne_true
  case once =>
    rintro latched acts ⟨status, hshows, rfl⟩
    rw [hhandled]
    exact count_bits _

end DesignWare

section Subsystem

variable {s : SsGpio} {i : Nat}

theorem ssGpioIntCb_handled (s : SsGpio) (param : Word) :
    Latch.handled GpioAct.view (ssGpioIntCb s param) =
      (List.range s.width.toNat).filter fun j =>
        param.getLsbD j && decide (s.handlers (BitVec.ofNat 32 j) ≠ 0) := by
  apply handled_bits
  intro j
  rw [hasFlag_bit]
  by_cases hcall : param.getLsbD j = true ∧ s.handlers (BitVec.ofNat 32 j) ≠ 0
  · rw [if_pos hcall, if_pos (by rw [hcall.1, Bool.true_and, decide_eq_true hcall.2])]
    rfl
  · rw [if_neg hcall, if_neg (by rwa [Bool.and_eq_true, decide_eq_true_eq])]
    rfl

theorem ssGpioIntCb_clears (s : SsGpio) (param : Word) :
    Latch.clears GpioAct.view i (ssGpioIntCb s param) = false := by
  rw [ssGpioIntCb, Latch.clears, List.any_flatMap, List.any_eq_false]
  intro j _
  split
  · exact Bool.false_ne_true
  · exact Bool.false_ne_true

theorem SsGpio.Watches.serves (h : s.Watches i) : Latch.Serves GpioAct.view s.progs i := by
  have hzero {status : Word} (hset : status.getLsbD i = true) : status ≠ 0 := by
    rintro rfl
    exact Bool.false_ne_true (BitVec.getLsbD_zero.symm.trans hset)
  have hhandled {status : Word} (hne : status ≠ 0) :
      Latch.handled GpioAct.view (gpioIsrProc s status) =
        Latch.handled GpioAct.view (ssGpioIntCb s status) := by
    rw [gpioIsrProc, if_neg hne, if_pos h.cb, Latch.handled_append]
    exact List.append_nil _
  have hmem {status : Word} (hset : status.getLsbD i = true) :
      i ∈ Latch.handled GpioAct.view (gpioIsrProc s status) := by
    rw [hhandled (hzero hset), ssGpioIntCb_handled]
    apply mem_bits h.width
    rw [hset, Bool.true_and, decide_eq_true_eq]
    exact h.handler
  constructor
  case found =>
    rintro latched acts ⟨status, hshows, rfl⟩ hlatched
    apply hmem
    rw [hshows.of_watched h.enabled h.unmasked h.edge, hlatched]
  case before =>
    rintro latched acts ⟨status, hshows, rfl⟩ hclears
    by_cases hne : status = 0
    · rw [gpioIsrProc, if_pos hne] at hclears
      exact absurd hclears Bool.false_ne_true
    · apply hmem
      rw [gpioIsrProc, if_neg hne, if_pos h.cb, Latch.clears_append, ssGpioIntCb_clears,
        Bool.false_or] at hclears
      exact (Bool.or_false _).symm.trans hclears
  case once =>
    rintro latched acts ⟨status, hshows, rfl⟩
    by_cases hne : status = 0
    · rw [gpioIsrProc, if_pos hne]
      exact Nat.zero_le 1
    · rw [hhandled hne, ssGpioIntCb_handled]
      exact count_bits _

end Subsystem

/-! ### Edges -/

/-- An edge on a bit is served exactly if it does not come between the call of the handler of the
bit and the write that clears the bit. -/
theorem gpio_edge_served_iff (i : Nat) {s₀ s : GpioState} {es : List GpioEvent}
    (hidle : s₀.acts = []) :
    (∀ p : DwGpio, p.Watches i → GpioRuns p.progs s₀ es s →
      (GpioServed p.progs i (s.edge i) ↔ ¬ GpioServing i s)) ∧
    (∀ p : SsGpio, p.Watches i → GpioRuns p.progs s₀ es s →
      (GpioServed p.progs i (s.edge i) ↔ ¬ GpioServing i s)) := by
  constructor
  · intro p hp hrun
    exact Latch.served_edge_iff hp.serves hidle hrun
  · intro p hp hrun
    exact Latch.served_edge_iff hp.serves hidle hrun

def dwGpioButton : DwGpio where
  no := dwGpioPortA
  hasIntno := true
  validBitMask := 0xff
  bitIsr := some { intBitMaxCnt := 8, handlers := fun _ => 0x100 }
  opnCnt := 1
  direction := 0
  intMethod := 1
  bitofs := 0
  irq := true
  regs :=
    { dr := fun _ => 0, ddr := fun _ => 0, inten := 1, intmask := 0, inttypeLevel := 1,
      intPolarity := 0, debounce := 0, latched := 0 }

def ssGpioButton : SsGpio :=
  { SsGpio.installed 8 0x80 with
    io := { SsGpioInfo.fresh with
      handle := true, rxCb := 0x80, opened := true
      regs := { SsGpioInfo.fresh.regs with inten := 1, inttypeLevel := 1 } }
    handlers := fun _ => 0x100 }

theorem dwGpioButton_watches : dwGpioButton.Watches 0 :=
  ⟨rfl, ⟨_, rfl, by decide, by decide⟩, rfl, rfl, rfl⟩

theorem ssGpioButton_watches : ssGpioButton.Watches 0 :=
  ⟨by decide, by decide, by decide, rfl, rfl, rfl⟩

def gpioQuiet : GpioState := { latched := fun _ => false, acts := [], called := [], entered := [] }

theorem gpio_first_edge_served : GpioServed dwGpioButton.progs 0 (gpioQuiet.edge 0) ∧
    GpioServed ssGpioButton.progs 0 (gpioQuiet.edge 0) := by
  constructor
  · exact ((gpio_edge_served_iff 0 rfl).1 dwGpioButton dwGpioButton_watches
      (Runs.nil gpioQuiet)).mpr fun hserving => absurd hserving.1 List.not_mem_nil
  · exact ((gpio_edge_served_iff 0 rfl).2 ssGpioButton ssGpioButton_watches
      (Runs.nil gpioQuiet)).mpr fun hserving => absurd hserving.1 List.not_mem_nil

/-- When the handler of the bit has been entered, another edge comes: the routine ends, the bit is
quiet, and the handler is not entered again. -/
def GpioEdgeLost (progs : (Nat → Bool) → List GpioAct → Prop) (i : Nat) : Prop :=
  ∃ es s, GpioRuns progs gpioQuiet es s ∧ s.entered = [i] ∧
    ∃ es' s', GpioRuns progs (s.edge i) es' s' ∧ s'.acts = [] ∧ s'.latched i = false ∧
      s'.entered = [i]

theorem gpio_second_edge_lost : GpioEdgeLost dwGpioButton.progs 0 ∧
    GpioEdgeLost ssGpioButton.progs 0 := by
  have hshows (latched : Nat → Bool) (h : latched 0 = true) : GpioShows 1 0 1 latched 1 := by
    intro i hi
    cases i with
    | zero => rw [h]; rfl
    | succ i =>
      exact absurd hi (by simp [BitVec.getLsbD_one])
  constructor
  · have hprog : dwGpioButton.progs (gpioQuiet.edge 0).latched
        [.setBitofs 0, .call 0 0x100, .eoi 1] :=
      ⟨1, hshows _ rfl, by decide⟩
    refine ⟨[.edge 0, .start _, .go, .go], _, Runs.cons trivial rfl (Runs.cons ⟨rfl, hprog⟩ rfl
      (Runs.cons (List.cons_ne_nil _ _) rfl (Runs.cons (List.cons_ne_nil _ _) rfl (Runs.nil _)))),
      rfl, [.go], _, Runs.cons (List.cons_ne_nil _ _) rfl (Runs.nil _), rfl, rfl, rfl⟩
  · have hprog : ssGpioButton.progs (gpioQuiet.edge 0).latched [.call 0 0x100, .eoi 1] :=
      ⟨1, hshows _ rfl, by decide⟩
    refine ⟨[.edge 0, .start _, .go], _, Runs.cons trivial rfl (Runs.cons ⟨rfl, hprog⟩ rfl
      (Runs.cons (List.cons_ne_nil _ _) rfl (Runs.nil _))),
      rfl, [.go], _, Runs.cons (List.cons_ne_nil _ _) rfl (Runs.nil _), rfl, rfl, rfl⟩

end Embarc
