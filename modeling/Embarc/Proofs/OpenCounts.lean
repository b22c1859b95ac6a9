/-
The open counts of the drivers: the SPI master, the UART and the GPIO of the subsystem, and the SDIO
host controller.

All four count their users and start the device below for the first of them.  None of them looks at
the count before it is lowered.  The UART and the GPIO raise it before they know that the device
could be started; the SPI master does not raise it for a further user at all; and the SDIO
controller turns the power of the card off with every close, not only with the last.
-/
import Embarc.DesignWare.Sdio
import Embarc.Lib.Counted
import Embarc.Subsystem.Gpio
import Embarc.Subsystem.SsSpiMaster
import Embarc.Subsystem.SsUart

namespace Embarc

open Counted (Driver Call Log Rules Keeps)
open Trace (Runs Always)

/-- The driver above has a further user. -/
def openGranted (ercd : Int) : Bool := ercd = eOk

/-! ### What a count says -/

variable {cnt card : Word} {r : Int} {s : SsSpi} {hw : SsSpiMasterHw}

section Count

variable {σ α β χ η : Type} {D : Driver σ α β Int χ η} {s s' : σ}

variable (D) in
/-- A close takes one from the count, and stops the device for the last user. -/
def ClosesLast : Prop :=
  ∀ s b, (D.count s = 1 → D.running s = true) → ∃ r s', D.release b s = .ok (r, s') ∧
    D.count s' ≠ D.count s ∧ (0 < D.count s → D.count s' + 1 = D.count s) ∧
    D.running s' = (if D.count s = 1 then false else D.running s)

theorem ClosesLast.right_iff [DecidableEq χ] (h : ClosesLast D) {b : β} (hs : D.Serves s)
    (hcall : D.release b s = .ok (r, s')) :
    D.Right s r s' (.release b : Call α β) ↔ 0 < D.count s := by
  obtain ⟨r', t, hclose, hne, hcnt, hon⟩ := h s b fun hone => hs.mpr (by rw [hone]; decide)
  cases hclose.symm.trans hcall
  by_cases hpos : 0 < D.count s
  · have hless := hcnt hpos
    refine iff_of_true ⟨by rwa [if_pos hpos], ?_⟩ hpos
    rw [Driver.Serves, hon]
    split
    case isTrue hone => exact iff_of_false Bool.false_ne_true (by omega)
    case isFalse hone => exact iff_of_true (hs.mpr hpos) (by omega)
  · refine iff_of_false (fun hc => ?_) hpos
    have hkept := hc.1
    rw [if_neg hpos] at hkept
    exact hne (Driver.count_of_undisturbed hkept)

variable {w : Nat} {opnCnt : σ → BitVec w} (hcount : ∀ s, D.count s = (opnCnt s).toNat)

include hcount

theorem count_pos_iff (s : σ) : 0 < D.count s ↔ opnCnt s ≠ 0 := by
  rw [hcount]
  constructor
  · intro hpos hzero
    rw [hzero] at hpos
    exact absurd hpos (by simp)
  · exact fun hne => Nat.pos_of_ne_zero fun hc => hne (BitVec.eq_of_toNat_eq (by simpa using hc))

theorem running_iff (hs : D.Serves s) : D.running s = true ↔ opnCnt s ≠ 0 :=
  hs.trans (count_pos_iff hcount s)

theorem not_running (hs : D.Serves s) (hzero : opnCnt s = 0) : D.running s = false :=
  Bool.eq_false_iff.mpr fun hc => (running_iff hcount hs).mp hc hzero

end Count

/-! ### Counting before the device is opened -/

/-- Neither the first user nor one too many is taken for a further one. -/
theorem openCnt_first (h : cnt = 0 ∨ cnt = -1) : ¬ cnt + 1 > 1 := by
  rcases h with rfl | rfl <;> decide

theorem openCnt_further (hzero : cnt ≠ 0) (hmax : cnt ≠ -1) : cnt + 1 > 1 := by
  bv_omega

section CountsFirst

variable {σ α β χ η : Type} {D : Driver σ α β Int χ η} {opnCnt : σ → Word}
  {again : σ → α → Prop} {found : α → Bool}

variable (D opnCnt again found) in
/-- A driver that counts a user first, and starts the device if it was not in use.  `again` is the
condition on a further user, and `found` says that the device can be opened: a first open without it
is refused, or never returns. -/
structure CountsFirst : Prop where
  count : ∀ s, D.count s = (opnCnt s).toNat
  granted : D.granted = openGranted
  first : ∀ s a, opnCnt s = 0 → D.running s = false → found a = true →
    ∃ s', D.acquire a s = .ok (eOk, s') ∧ opnCnt s' = 1 ∧ D.running s' = true
  failed : ∀ s a r s', opnCnt s = 0 → found a = false → D.acquire a s = .ok (r, s') →
    r = eSys ∧ opnCnt s' = 1
  more : ∀ s a, opnCnt s ≠ 0 → opnCnt s ≠ -1 → again s a →
    ∃ s', D.acquire a s = .ok (eOk, s') ∧ opnCnt s' = opnCnt s + 1 ∧ D.running s' = D.running s
  full : ∀ s a, opnCnt s = -1 → D.running s = true →
    ∃ r s', D.acquire a s = .ok (r, s') ∧ opnCnt s' = 0
  last : ∀ s b, opnCnt s = 1 → D.running s = true →
    ∃ r s', D.release b s = .ok (r, s') ∧ opnCnt s' = 0 ∧ D.running s' = false
  fewer : ∀ s b, opnCnt s ≠ 1 →
    ∃ r s', D.release b s = .ok (r, s') ∧ opnCnt s' = opnCnt s - 1 ∧ D.running s' = D.running s

/-- A further user asks for what the first has asked for. -/
def OpenSame {w : Nat} (opnCnt : σ → BitVec w) (again : σ → α → Prop) (s : σ) : Call α β → Prop
  | .acquire a => opnCnt s ≠ 0 → again s a
  | .release _ => True

variable (opnCnt found) in
/-- The device can be opened for the first user, there are not too many of them, and a device
is closed only if it is open. -/
def OpenFound (s : σ) : Call α β → Prop
  | .acquire a => opnCnt s ≠ -1 ∧ (opnCnt s = 0 → found a = true)
  | .release _ => opnCnt s ≠ 0

namespace CountsFirst

theorem closesLast (h : CountsFirst D opnCnt again found) : ClosesLast D := by
  intro s b hon
  simp only [h.count] at hon ⊢
  by_cases hone : opnCnt s = 1
  · obtain ⟨r, t, ht, hcnt, hrun⟩ := h.last s b hone (hon (by rw [hone]; rfl))
    refine ⟨r, t, ht, ?_⟩
    rw [hone, hcnt, hrun]
    exact ⟨by decide, fun _ => rfl, rfl⟩
  · obtain ⟨r, t, ht, hcnt, hrun⟩ := h.fewer s b hone
    refine ⟨r, t, ht, by bv_omega, fun _ => by bv_omega, ?_⟩
    rw [hrun, if_neg (by bv_omega)]

variable [DecidableEq χ]

variable (h : CountsFirst D opnCnt again found)
include h

theorem disturbs {s s' : σ} (hne : opnCnt s' ≠ opnCnt s) : D.disturbs s s' ≠ false := by
  refine fun hc => hne (BitVec.eq_of_toNat_eq ?_)
  rw [← h.count, ← h.count, Driver.count_of_undisturbed hc]

theorem acquire_iff {s s' : σ} {a : α} (hs : D.Serves s) (hbase : opnCnt s ≠ 0 → again s a)
    (hcall : D.acquire a s = .ok (r, s')) :
    D.Right s r s' (.acquire a : Call α β) ↔ opnCnt s ≠ -1 ∧ (opnCnt s = 0 → found a = true) := by
  have hok : D.granted eOk = true := by rw [h.granted]; rfl
  have hsys : D.granted eSys = false := by rw [h.granted]; rfl
  by_cases hzero : opnCnt s = 0
  · have hoff := not_running h.count hs hzero
    cases hfound : found a with
    | true =>
      obtain ⟨t, ht, hcnt, hrun⟩ := h.first s a hzero hoff hfound
      cases ht.symm.trans hcall
      refine iff_of_true ⟨?_, ?_⟩ ⟨by rw [hzero]; decide, fun _ => rfl⟩
      · rw [if_pos hok, h.count, h.count, hcnt, hzero]
        rfl
      · rw [Driver.Serves, hrun, count_pos_iff h.count, hcnt]
        exact iff_of_true rfl (by decide)
    | false =>
      obtain ⟨rfl, hcnt⟩ := h.failed s a r s' hzero hfound hcall
      refine iff_of_false (fun hc => ?_) (fun hc => Bool.false_ne_true (hc.2 hzero))
      have hkept := hc.1
      rw [hsys, if_neg Bool.false_ne_true] at hkept
      exact h.disturbs (by rw [hcnt, hzero]; decide) hkept
  · by_cases hmax : opnCnt s = -1
    · obtain ⟨r', t, ht, hcnt⟩ := h.full s a hmax ((running_iff h.count hs).mpr hzero)
      cases ht.symm.trans hcall
      refine iff_of_false (fun hc => ?_) (fun hc => hc.1 hmax)
      have hkept := hc.1
      split at hkept
      · rw [h.count, h.count, hcnt] at hkept
        exact absurd hkept (Nat.succ_ne_zero _).symm
      · exact h.disturbs (by rw [hcnt, hmax]; decide) hkept
    · obtain ⟨t, ht, hcnt, hrun⟩ := h.more s a hzero hmax (hbase hzero)
      cases ht.symm.trans hcall
      refine iff_of_true ⟨?_, ?_⟩ ⟨hmax, fun hc => absurd hc hzero⟩
      · rw [if_pos hok, h.count, h.count, hcnt]
        bv_omega
      · rw [Driver.Serves, hrun, count_pos_iff h.count]
        exact iff_of_true ((running_iff h.count hs).mpr hzero) (by rw [hcnt]; bv_omega)

theorem rules :
    Rules D (OpenSame opnCnt again) (OpenFound opnCnt found) where
  right_iff := by
    intro s c r s' hs hbase hcall
    cases c with
    | acquire a => exact h.acquire_iff hs hbase hcall
    | release b => exact (h.closesLast.right_iff hs hcall).trans (count_pos_iff h.count s)
  goesThrough := by
    intro s c hs hbase hkept
    cases c with
    | acquire a =>
      by_cases hzero : opnCnt s = 0
      · have hoff := not_running h.count hs hzero
        obtain ⟨t, ht, -⟩ := h.first s a hzero hoff (hkept.2 hzero)
        exact ⟨_, ht⟩
      · obtain ⟨t, ht, -⟩ := h.more s a hzero hkept.1 (hbase hzero)
        exact ⟨_, ht⟩
    | release b =>
      obtain ⟨r, t, ht, -⟩ := h.closesLast s b fun _ => (running_iff h.count hs).mpr hkept
      exact ⟨_, ht⟩

end CountsFirst

end CountsFirst

/-! ### The UART -/

/-- What an open is given: the parameter, whether the device below can be opened, and what reading
UART_MSR yields. -/
structure SsUartOpenArgs where
  baud : Word
  found : Bool
  msr : Word

/-- The device below can be opened, and the divisor can be computed. -/
def SsUartOpenArgs.ready (a : SsUartOpenArgs) : Bool := a.found && a.baud * 16 != 0

def ssUartDriver (hw : SsUartPortHw) :
    Driver SsUart SsUartOpenArgs Unit Int SsUartRegs SsUartStop where
  acquire a s := ssUartOpen { hw with present := a.found } s a.baud a.msr
  release _ s := ssUartClose hw s
  count s := s.opnCnt.toNat
  running s := s.io.handle
  hardware s := s.io.regs
  granted := openGranted

/-- The device is open below and has its first user. -/
def SsUart.First (s : SsUart) : Prop := s.io.handle = true ∧ s.opnCnt = 1

theorem SsUart.First.ioctl (hw : SsUartPortHw) {s : SsUart} (h : s.First) (cmd : SsUartIoctl) :
    ∃ s', s.ioctl hw cmd = .ok s' ∧ s'.First := by
  refine ⟨{ s with io := s.io.ioctl hw.toSsUartHw cmd }, ?_, ?_, h.2⟩
  · rw [SsUart.ioctl, ioUartIoctl, if_pos h.1]
    rfl
  · cases cmd <;> simp only [SsUartInfo.ioctl] <;> (try split) <;> exact h.1

/-- What becomes of an open that has opened the device below. -/
def SsUartOpened (baud : Word) (res : Except SsUartStop (Int × SsUart)) : Prop :=
  if baud * 16 = 0 then res = .error .divZero else ∃ s, res = .ok (eOk, s) ∧ s.First

theorem ssUartOpen_first (hw : SsUartPortHw) {s : SsUart}
    (hopen : ¬ (hw.present = false ∨ s.io.handle = true)) (hzero : s.opnCnt = 0) (baud msr : Word) :
    SsUartOpened baud (ssUartOpen hw s baud msr) := by
  have hcnt := openCnt_first (.inl hzero)
  simp only [ssUartOpen, if_neg hcnt, ioUartOpen, if_neg hopen]
  rw [if_neg (by decide)]
  refine Except.bind_of_ok (R := SsUartOpened baud) (SsUart.First.ioctl hw ?_ _) fun s hs => ?_
  · refine ⟨?_, by rw [hzero]; rfl⟩
    split <;> rfl
  refine Except.bind_of_ok (R := SsUartOpened baud) (hs.ioctl hw _) fun s hs => ?_
  refine Except.bind_of_ok (R := SsUartOpened baud) (hs.ioctl hw _) fun s hs => ?_
  refine Except.bind_of_ok (P := fun r => r.2.First) (R := SsUartOpened baud) ?_ fun s hs => ?_
  · rw [setDps]
    split
    case h_1 lcr _ =>
      obtain ⟨s', hset, hs'⟩ := hs.ioctl hw (.setLcr lcr)
      exact ⟨(eOk, s'), by rw [hset]; rfl, hs'⟩
    case h_2 => exact ⟨_, rfl, hs⟩
  refine Except.bind_of_ok (R := SsUartOpened baud) (hs.ioctl hw _) fun s hs => ?_
  by_cases hdiv : baud * 16 = 0
  · rw [SsUartOpened, setBaud, if_pos hdiv, if_pos hdiv]
    rfl
  · obtain ⟨s', hset, hs'⟩ := hs.ioctl hw (.setDlx (hw.busFreq / (baud * 16) + 1))
    rw [SsUartOpened, setBaud, if_neg hdiv, if_neg hdiv, hset]
    exact ⟨_, rfl, hs'⟩

/-- Without the device below the user is counted all the same. -/
theorem ssUartOpen_failed (hw : SsUartPortHw) {s : SsUart}
    (hopen : hw.present = false ∨ s.io.handle = true) (hcnt : s.opnCnt = 0 ∨ s.opnCnt = -1)
    (baud msr : Word) :
    ssUartOpen hw s baud msr = .ok (eSys, { s with opnCnt := s.opnCnt + 1 }) := by
  simp only [ssUartOpen, if_neg (openCnt_first hcnt), ioUartOpen, if_pos hopen]
  rfl

theorem ssUart_countsFirst (hw : SsUartPortHw) :
    CountsFirst (ssUartDriver hw) SsUart.opnCnt (fun s a => a.baud = s.baudrate)
      SsUartOpenArgs.ready where
  count _ := rfl
  granted := rfl
  first := by
    intro s a hzero hoff hready
    have hoff : s.io.handle = false := hoff
    obtain ⟨hfound, hdiv⟩ : a.found = true ∧ ¬ a.baud * 16 = 0 := by
      simpa [SsUartOpenArgs.ready] using hready
    have hopened := ssUartOpen_first { hw with present := a.found } (s := s)
      (by simp [hfound, hoff]) hzero a.baud a.msr
    rw [SsUartOpened, if_neg hdiv] at hopened
    obtain ⟨s', hopen, hon, hone⟩ := hopened
    exact ⟨s', hopen, hone, hon⟩
  failed := by
    intro s a r s' hzero hready hcall
    by_cases hopen : a.found = false ∨ s.io.handle = true
    · have hfailed := ssUartOpen_failed { hw with present := a.found } hopen (.inl hzero) a.baud a.msr
      cases hfailed.symm.trans hcall
      exact ⟨rfl, by rw [hzero]; rfl⟩
    · have hopened := ssUartOpen_first { hw with present := a.found } hopen hzero a.baud a.msr
      have hdiv : a.baud * 16 = 0 := by
        rw [not_or, Bool.not_eq_false] at hopen
        simpa [SsUartOpenArgs.ready, hopen.1] using hready
      rw [SsUartOpened, if_pos hdiv] at hopened
      cases hopened.symm.trans hcall
  more := by
    intro s a hzero hmax hsame
    have hcnt := openCnt_further hzero hmax
    refine ⟨{ s with opnCnt := s.opnCnt + 1 }, ?_, rfl, rfl⟩
    simp only [ssUartDriver, ssUartOpen, if_pos hcnt, if_pos hsame]
  full := by
    intro s a hmax hon
    exact ⟨eSys, _,
      ssUartOpen_failed { hw with present := a.found } (.inr hon) (.inr hmax) a.baud a.msr,
      by rw [hmax]; rfl⟩
  last := by
    intro s b hone hon
    have hon : s.io.handle = true := hon
    have hcnt : s.opnCnt - 1 = 0 := by rw [hone]; rfl
    refine ⟨eOk, { s with
      opnCnt := s.opnCnt - 1, io := s.io.closed hw.toSsUartHw, baudrate := 0, irq := false },
      ?_, hcnt, rfl⟩
    simp only [ssUartDriver, ssUartClose, if_pos hcnt, ioUartClose, if_pos hon]
    rfl
  fewer := by
    intro s b hone
    have hcnt : ¬ s.opnCnt - 1 = 0 := by bv_omega
    refine ⟨eOk, { s with opnCnt := s.opnCnt - 1 }, ?_, rfl, rfl⟩
    simp only [ssUartDriver, ssUartClose, if_neg hcnt]

/-! ### The GPIO -/

/-- What an open is given: the directions, and whether the port below can be opened. -/
structure SsGpioOpenArgs where
  dir : Word
  found : Bool

def ssGpioDriver (hw : SsGpioHw) : Driver SsGpio SsGpioOpenArgs Unit Int SsGpioRegs SsGpioStop where
  acquire a s := ssGpioOpen { hw with present := a.found } s a.dir
  release _ s := ssGpioClose s
  count s := s.opnCnt.toNat
  running s := s.io.handle
  hardware s := s.io.regs
  granted := openGranted

/-- The port is open below and has its first user. -/
def SsGpio.First (s : SsGpio) : Prop := s.io.handle = true ∧ s.opnCnt = 1

theorem SsGpio.First.ioctl (hw : SsGpioHw) {s : SsGpio} (h : s.First) (cmd : SsGpioIoctl) :
    ∃ s', s.ioctl hw cmd = .ok s' ∧ s'.First := by
  refine ⟨{ s with io := s.io.ioctl hw cmd }, ?_, ?_, h.2⟩
  · rw [SsGpio.ioctl, ioGpioIoctl, if_pos h.1]
    rfl
  · cases cmd <;> simp only [SsGpioInfo.ioctl] <;> (try split) <;> exact h.1

theorem SsGpio.First.ioctls (hw : SsGpioHw) {s : SsGpio} (h : s.First) (cmds : List SsGpioIoctl) :
    ∃ s', s.ioctls hw cmds = .ok s' ∧ s'.First := by
  induction cmds generalizing s with
  | nil => exact ⟨s, rfl, h⟩
  | cons cmd cmds ih => exact Except.exists_ok_bind (h.ioctl hw cmd) fun s hs => ih hs

theorem ssGpioOpen_failed (hw : SsGpioHw) {s : SsGpio}
    (hopen : hw.present = false ∨ s.io.handle = true) (hcnt : s.opnCnt = 0 ∨ s.opnCnt = -1)
    (dir : Word) : ssGpioOpen hw s dir = .ok (eSys, { s with opnCnt := s.opnCnt + 1 }) := by
  simp only [ssGpioOpen, if_neg (openCnt_first hcnt), ioGpioOpen, if_pos hopen]
  rfl

theorem ssGpio_countsFirst (hw : SsGpioHw) :
    CountsFirst (ssGpioDriver hw) SsGpio.opnCnt (fun s a => a.dir = s.direction)
      SsGpioOpenArgs.found where
  count _ := rfl
  granted := rfl
  first := by
    intro s a hzero hoff hfound
    have hcnt := openCnt_first (.inl hzero)
    have hopen : ¬ (a.found = false ∨ s.io.handle = true) := by
      simp only [hfound, show s.io.handle = false from hoff]
      decide
    obtain ⟨⟨r, s'⟩, hr, rfl, hon, hone⟩ : ∃ r, (ssGpioDriver hw).acquire a s = .ok r ∧
        r.1 = eOk ∧ r.2.First := by
      simp only [ssGpioDriver, ssGpioOpen, if_neg hcnt, ioGpioOpen, if_neg hopen]
      rw [if_neg (by decide)]
      refine Except.exists_ok_bind (SsGpio.First.ioctls _ ⟨rfl, by rw [hzero]; rfl⟩ _)
        fun s hs => ?_
      exact ⟨_, rfl, rfl, hs⟩
    exact ⟨s', hr, hone, hon⟩
  failed := by
    intro s a r s' hzero hfound hcall
    have hfailed := ssGpioOpen_failed { hw with present := a.found } (.inl hfound) (.inl hzero) a.dir
    cases hfailed.symm.trans hcall
    exact ⟨rfl, by rw [hzero]; rfl⟩
  more := by
    intro s a hzero hmax hsame
    have hcnt := openCnt_further hzero hmax
    refine ⟨{ s with opnCnt := s.opnCnt + 1 }, ?_, rfl, rfl⟩
    simp only [ssGpioDriver, ssGpioOpen, if_pos hcnt, if_pos hsame]
  full := by
    intro s a hmax hon
    exact ⟨eSys, _, ssGpioOpen_failed { hw with present := a.found } (.inr hon) (.inr hmax) a.dir,
      by rw [hmax]; rfl⟩
  last := by
    intro s b hone hon
    have hon : s.io.handle = true := hon
    have hcnt : s.opnCnt - 1 = 0 := by rw [hone]; rfl
    refine ⟨eOk, { s with opnCnt := s.opnCnt - 1, io := s.io.closed, irq := false }, ?_, hcnt, rfl⟩
    simp only [ssGpioDriver, ssGpioClose, if_pos hcnt, ioGpioClose, if_pos hon]
    rfl
  fewer := by
    intro s b hone
    have hcnt : ¬ s.opnCnt - 1 = 0 := by bv_omega
    refine ⟨eOpned, { s with opnCnt := s.opnCnt - 1 }, ?_, rfl, rfl⟩
    simp only [ssGpioDriver, ssGpioClose, if_neg hcnt]

/-! ### The SPI master -/

/-- What an open is given: the mode, the frequency, and whether the device below can be opened. -/
structure SsSpiOpenArgs where
  mode : Word
  param : Word
  found : Bool

def ssSpiDriver (hw : SsSpiMasterHw) : Driver SsSpi SsSpiOpenArgs Unit Int SsSpiRegs SsSpiStop where
  acquire a s := ssSpiMasterOpen { hw with present := a.found } s a.mode a.param
  release _ s := ssSpiMasterClose s
  count s := s.opnCnt.toNat
  running s := s.io.handle
  hardware s := s.io.regs
  granted := openGranted

theorem ssSpi_count (hw : SsSpiMasterHw) (s : SsSpi) : (ssSpiDriver hw).count s = s.opnCnt.toNat :=
  rfl

/-- Nobody opens a device that is open, or closes one that is not, and a frequency is given. -/
def SsSpiAlone (s : SsSpi) : Call SsSpiOpenArgs Unit → Prop
  | .acquire a => a.mode = 0 → s.opnCnt = 0 ∧ (a.found = true → a.param ≠ 0)
  | .release _ => s.opnCnt ≠ 0

/-- The device is open below and has no user yet. -/
def SsSpi.Fresh (s : SsSpi) : Prop := s.io.handle = true ∧ s.opnCnt = 0

theorem SsSpi.Fresh.ioctl (hw : SsSpiMasterHw) (h : s.Fresh) (cmd : SpiMstIoctl) :
    ∃ s', s.ioctl hw cmd = .ok s' ∧ s'.Fresh := by
  refine ⟨{ s with io := s.io.masterIoctl hw.toSsSpiHw cmd }, ?_, ?_, h.2⟩
  · rw [SsSpi.ioctl, ioSpiMasterIoctl, if_pos h.1]
    rfl
  · cases cmd <;> exact h.1

theorem SsSpi.Fresh.ioctls (hw : SsSpiMasterHw) (h : s.Fresh) (cmds : List SpiMstIoctl) :
    ∃ s', s.ioctls hw cmds = .ok s' ∧ s'.Fresh := by
  induction cmds generalizing s with
  | nil => exact ⟨s, rfl, h⟩
  | cons cmd cmds ih => exact Except.exists_ok_bind (h.ioctl hw cmd) fun s hs => ih hs

/-- What becomes of an open that has opened the device below. -/
def SsSpiOpened (param : Word) (res : Except SsSpiStop (Int × SsSpi)) : Prop :=
  if param = 0 then res = .error .divZero
  else ∃ s, res = .ok (eOk, s) ∧ s.opnCnt = 1 ∧ s.io.handle = true

theorem ssSpiMasterOpen_first (hw : SsSpiMasterHw) (hfound : hw.present = true)
    (hoff : s.io.handle = false) (hzero : s.opnCnt = 0) (param : Word) :
    SsSpiOpened param (ssSpiMasterOpen hw s 0 param) := by
  have hcnt : ¬ s.opnCnt > 0 := by rw [hzero]; decide
  have hopen : ¬ (hw.present = false ∨ s.io.handle = true) := by simp [hfound, hoff]
  simp only [ssSpiMasterOpen, ne_eq, not_true_eq_false, if_false, if_neg hcnt, ioSpiMasterOpen,
    if_neg hopen]
  refine Except.bind_of_ok (R := SsSpiOpened param)
    (SsSpi.Fresh.ioctls hw (by exact ⟨rfl, hzero⟩) _) fun s hs => ?_
  by_cases hparam : param = 0
  · rw [SsSpiOpened, SsSpi.setFreq, if_pos hparam, if_pos hparam]
    rfl
  · obtain ⟨s', hset, hs'⟩ := SsSpi.Fresh.ioctl hw (s := { s with freq := param }) hs
      (.setBaud (hw.busFreq / param))
    rw [SsSpiOpened, SsSpi.setFreq, if_neg hparam, if_neg hparam, hset]
    exact ⟨_, rfl, by rw [hs'.2]; rfl, hs'.1⟩

/-- An open is refused and leaves everything as it is, or it is the first, or the device is open and
the open is not counted, or it divides by zero. -/
theorem ssSpiMasterOpen_cases (hw : SsSpiMasterHw) (hoff : s.opnCnt = 0 → s.io.handle = false)
    (mode param : Word) :
    (∃ r, ssSpiMasterOpen hw s mode param = .ok (r, s) ∧
        (mode = 0 → s.opnCnt = 0 ∧ hw.present = false) ∧ openGranted r = false) ∨
      (∃ s', ssSpiMasterOpen hw s mode param = .ok (eOk, s') ∧ s.opnCnt = 0 ∧ param ≠ 0 ∧
        s'.opnCnt = 1 ∧ s'.io.handle = true) ∨
      mode = 0 ∧ s.opnCnt ≠ 0 ∧
        ssSpiMasterOpen hw s mode param = .ok (if param ≠ s.freq then eOpned else eOk, s) ∨
      mode = 0 ∧ hw.present = true ∧ param = 0 ∧
        ssSpiMasterOpen hw s mode param = .error .divZero := by
  by_cases hmode : mode = 0
  · subst hmode
    by_cases hzero : s.opnCnt = 0
    · cases hfound : hw.present with
      | true =>
        have hopen := ssSpiMasterOpen_first hw hfound (hoff hzero) hzero param
        rw [SsSpiOpened] at hopen
        split at hopen
        case isTrue hparam => exact .inr (.inr (.inr ⟨rfl, rfl, hparam, hopen⟩))
        case isFalse hparam =>
          obtain ⟨s', hopen, hone, hon⟩ := hopen
          exact .inr (.inl ⟨s', hopen, hzero, hparam, hone, hon⟩)
      | false =>
        have hcnt : ¬ s.opnCnt > 0 := by rw [hzero]; decide
        refine .inl ⟨eSys, ?_, fun _ => ⟨hzero, rfl⟩, rfl⟩
        simp only [ssSpiMasterOpen, ne_eq, not_true_eq_false, if_false, if_neg hcnt,
          ioSpiMasterOpen, hfound, true_or, if_true]
        rfl
    · have hcnt : s.opnCnt > 0 := by bv_omega
      refine .inr (.inr (.inl ⟨rfl, hzero, ?_⟩))
      simp only [ssSpiMasterOpen, ne_eq, not_true_eq_false, if_false, if_pos hcnt]
  · refine .inl ⟨ePar, ?_, fun hc => absurd hc hmode, rfl⟩
    simp only [ssSpiMasterOpen, ne_eq, hmode, not_false_eq_true, if_true]

theorem ssSpi_acquire_iff {s' : SsSpi} {a : SsSpiOpenArgs} (hs : (ssSpiDriver hw).Serves s)
    (hbase : s.opnCnt ≠ 0 → a.param = s.freq) (hcall : (ssSpiDriver hw).acquire a s = .ok (r, s')) :
    (ssSpiDriver hw).Right s r s' (.acquire a) ↔ SsSpiAlone s (.acquire a) := by
  rcases ssSpiMasterOpen_cases { hw with present := a.found } (not_running (ssSpi_count hw) hs) a.mode
    a.param with ⟨r', hopen, halone, hrefused⟩ | ⟨t, hopen, hzero, hparam, hone, hon⟩ |
    ⟨hmode, hzero, hopen⟩ | ⟨-, -, -, hopen⟩ <;> cases hopen.symm.trans hcall
  · refine iff_of_true ⟨?_, hs⟩ fun hmode => ⟨(halone hmode).1, fun hfound => ?_⟩
    · rw [show (ssSpiDriver hw).granted r = false from hrefused, if_neg Bool.false_ne_true]
      simp [Driver.disturbs]
    · exact absurd ((halone hmode).2.symm.trans hfound) Bool.false_ne_true
  · refine iff_of_true ⟨?_, iff_of_true hon ?_⟩ fun _ => ⟨hzero, fun _ => hparam⟩
    · show s'.opnCnt.toNat = s.opnCnt.toNat + 1
      rw [hone, hzero]
      rfl
    · show 0 < s'.opnCnt.toNat
      rw [hone]
      decide
  · rw [hbase hzero]
    refine iff_of_false (fun hc => ?_) (fun hc => hzero (hc hmode).1)
    have hcounted := hc.1
    rw [if_neg (not_not.mpr rfl)] at hcounted
    exact Nat.succ_ne_self _ hcounted.symm

theorem ssSpiMasterClose_eq (h : s.opnCnt = 1 → s.io.handle = true) :
    ∃ r s', ssSpiMasterClose s = .ok (r, s') ∧ s'.opnCnt = s.opnCnt - 1 ∧
      s'.io.handle = (if s.opnCnt = 1 then false else s.io.handle) := by
  by_cases hone : s.opnCnt = 1
  · have hcnt : s.opnCnt - 1 = 0 := by rw [hone]; rfl
    refine ⟨eOk, { s with
      opnCnt := s.opnCnt - 1, io := s.io.masterClosed, irq := false, status := 0, flags := 0 }, ?_,
      rfl, (if_pos hone).symm⟩
    simp only [ssSpiMasterClose, if_pos hcnt, ioSpiMasterClose, if_pos (h hone)]
    rfl
  · have hcnt : ¬ s.opnCnt - 1 = 0 := by bv_omega
    refine ⟨eOpned, { s with opnCnt := s.opnCnt - 1 }, ?_, rfl, (if_neg hone).symm⟩
    simp only [ssSpiMasterClose, if_neg hcnt]

theorem ssSpi_closesLast (hw : SsSpiMasterHw) : ClosesLast (ssSpiDriver hw) := by
  intro s _ h
  have hone : s.opnCnt.toNat = 1 ↔ s.opnCnt = 1 := BitVec.toNat_inj (y := 1)
  obtain ⟨r, t, hclose, hcnt, hon⟩ := ssSpiMasterClose_eq (s := s) fun hc => h (hone.mpr hc)
  simp only [ssSpiDriver, hone]
  exact ⟨r, t, hclose, by bv_omega, fun _ => by bv_omega, hon⟩

theorem ssSpi_rules (hw : SsSpiMasterHw) :
    Rules (ssSpiDriver hw) (OpenSame SsSpi.opnCnt fun s a => a.param = s.freq) SsSpiAlone where
  right_iff := by
    intro s c r s' hs hbase hcall
    cases c with
    | acquire a => exact ssSpi_acquire_iff hs hbase hcall
    | release b =>
      exact ((ssSpi_closesLast hw).right_iff hs hcall).trans (count_pos_iff (ssSpi_count hw) s)
  goesThrough := by
    intro s c hs hbase hkept
    cases c with
    | acquire a =>
      rcases ssSpiMasterOpen_cases { hw with present := a.found } (not_running (ssSpi_count hw) hs)
        a.mode a.param with ⟨_, hopen, -⟩ | ⟨_, hopen, -⟩ | ⟨-, -, hopen⟩ | ⟨hmode, hfound, hparam, -⟩
      · exact ⟨_, hopen⟩
      · exact ⟨_, hopen⟩
      · exact ⟨_, hopen⟩
      · exact absurd hparam ((hkept hmode).2 hfound)
    | release b =>
      obtain ⟨r, t, hclose, -⟩ := ssSpi_closesLast hw s b fun _ =>
        (running_iff (ssSpi_count hw) hs).mpr hkept
      exact ⟨_, hclose⟩

/-! ### The SDIO host controller -/

/-- The card has power, and its clock is on. -/
def DwSdio.serves (s : DwSdio) (card : Word) : Bool :=
  hasFlag s.regs.pwren (sdioCardBit card) && hasFlag s.regs.clkena (sdioCardBit card)

/-- The users of one card.  A call is given how its waits go. -/
def dwSdioDriver (card : Word) : Driver DwSdio SdioWaits SdioWaits Int SdioRegs Empty where
  acquire waits s := .ok (dwSdioOpen s card waits)
  release waits s := .ok (dwSdioClose s card waits)
  count s := s.opnCnt.toNat
  running s := s.serves card
  hardware s := s.regs
  granted ercd := ercd = eOk ∨ ercd = eOpned

/-- There are not too many users, and the clock can be turned off and on for each; and only the last
of them closes. -/
def DwSdioKept (s : DwSdio) : Call SdioWaits SdioWaits → Prop
  | .acquire waits => s.opnCnt ≠ -1 ∧ waits.clk.off = true
  | .release _ => s.opnCnt = 1

theorem dwSdioBusFreqSet_spec (s : DwSdio) (h : card.toNat < 32) (freq : Word)
    (taken : SdioClkWaits) :
    (dwSdioBusFreqSet s card freq taken).2.opnCnt = s.opnCnt ∧
      (dwSdioBusFreqSet s card freq taken).2.regs.pwren = s.regs.pwren ∧
      hasFlag (dwSdioBusFreqSet s card freq taken).2.regs.clkena (sdioCardBit card) = taken.off := by
  simp only [dwSdioBusFreqSet]
  cases hoff : taken.off with
  | true => exact ⟨rfl, rfl, hasFlag_or_self _ (sdioCardBit_self h)⟩
  | false => exact ⟨rfl, rfl, hasFlag_clear _ _⟩

theorem DwSdio.serves_of_on {s : DwSdio} (h : card.toNat < 32) {on : Bool}
    (hpwren : s.regs.pwren = sdioCardBit card)
    (hclkena : hasFlag s.regs.clkena (sdioCardBit card) = on) : s.serves card = on := by
  rw [DwSdio.serves, hpwren, hclkena, sdioCardBit_self h, Bool.true_and]

theorem dwSdioOpen_spec (s : DwSdio) (h : card.toNat < 32) (waits : SdioWaits) :
    ((dwSdioOpen s card waits).1 = eOk ∨ (dwSdioOpen s card waits).1 = eOpned) ∧
      (dwSdioOpen s card waits).2.opnCnt = s.opnCnt + 1 ∧
      (dwSdioOpen s card waits).2.serves card = waits.clk.off := by
  by_cases hfurther : s.opnCnt > 0
  · obtain ⟨hcnt, hpwren, hclkena⟩ := dwSdioBusFreqSet_spec (dwSdioReset (dwSdioPowerOn s card) card) h
      sdioEnumerationFreq waits.clk
    rw [dwSdioOpen, if_pos hfurther]
    refine ⟨.inr rfl, ?_, DwSdio.serves_of_on h hpwren hclkena⟩
    exact congrArg (· + 1) hcnt
  · obtain ⟨s₁, hs₁⟩ : ∃ s₁, s₁ = dwSdioBusTypeSet (dwSdioReset (dwSdioPowerOn (dwSdioRefClkSet
        (dwSdioResetWait { s with opnCnt := s.opnCnt + 1 } sdioCtrlResetAll waits.reset).2 s.refClk)
        card) card) card 1 := ⟨_, rfl⟩
    obtain ⟨hcnt, hpwren, hclkena⟩ := dwSdioBusFreqSet_spec s₁ h sdioEnumerationFreq waits.clk
    have hcnt₁ : s₁.opnCnt = s.opnCnt + 1 := by rw [hs₁]; rfl
    have hpwren₁ : s₁.regs.pwren = sdioCardBit card := by rw [hs₁]; rfl
    have hopen : dwSdioOpen s card waits = (eOk,
        let s := (dwSdioBusFreqSet s₁ card sdioEnumerationFreq waits.clk).2
        let s := if s.fifoDepth = 0 then
          { s with fifoDepth := (s.regs.fifoth &&& 0xfff0000) >>> 16 + 1 } else s
        { s with regs := { s.regs with fifoth := sdioFifoth s.fifoDepth } }) := by
      rw [dwSdioOpen, if_neg hfurther, hs₁]
      rfl
    rw [hopen]
    refine ⟨.inl rfl, ?_, DwSdio.serves_of_on h ?_ ?_⟩ <;> dsimp only
    · split <;> exact hcnt.trans hcnt₁
    · split <;> exact hpwren.trans hpwren₁
    · split <;> exact hclkena

theorem dwSdioClose_spec (s : DwSdio) (card : Word) (waits : SdioWaits) :
    (dwSdioClose s card waits).2.opnCnt = s.opnCnt - 1 ∧
      (dwSdioClose s card waits).2.serves card = false := by
  have hoff : hasFlag (s.regs.pwren &&& ~~~sdioCardBit card) (sdioCardBit card) = false :=
    hasFlag_clear _ _
  simp only [dwSdioClose]
  split <;> exact ⟨rfl, by rw [DwSdio.serves]; exact Bool.and_eq_false_iff.mpr (.inl hoff)⟩

theorem dwSdio_acquire_iff (s : DwSdio) (h : card.toNat < 32) (waits : SdioWaits) :
    (dwSdioDriver card).Right s (dwSdioOpen s card waits).1 (dwSdioOpen s card waits).2
      (.acquire waits) ↔ s.opnCnt ≠ -1 ∧ waits.clk.off = true := by
  obtain ⟨hercd, hcnt, hserves⟩ := dwSdioOpen_spec s h waits
  have hgranted : (dwSdioDriver card).granted (dwSdioOpen s card waits).1 = true :=
    decide_eq_true hercd
  have hright : (dwSdioDriver card).Right s (dwSdioOpen s card waits).1 (dwSdioOpen s card waits).2
      (.acquire waits) ↔ (s.opnCnt + 1).toNat = s.opnCnt.toNat + 1 ∧
        (waits.clk.off = true ↔ 0 < (s.opnCnt + 1).toNat) := by
    simp only [Driver.Right, hgranted, if_true, Driver.Serves]
    simp only [dwSdioDriver, hcnt, hserves]
  rw [hright]
  by_cases hmax : s.opnCnt = -1
  · refine iff_of_false (fun hc => ?_) (fun hc => hc.1 hmax)
    rw [hmax] at hc
    exact absurd hc.1 (by decide)
  · have hadd : (s.opnCnt + 1).toNat = s.opnCnt.toNat + 1 := by bv_omega
    rw [hadd]
    exact ⟨fun hc => ⟨hmax, hc.2.mpr (Nat.succ_pos _)⟩,
      fun hc => ⟨rfl, iff_of_true hc.2 (Nat.succ_pos _)⟩⟩

theorem dwSdio_release_iff (s : DwSdio) (card : Word) (waits : SdioWaits) :
    (dwSdioDriver card).Right s (dwSdioClose s card waits).1 (dwSdioClose s card waits).2
      (.release waits) ↔ s.opnCnt = 1 := by
  obtain ⟨hcnt, hserves⟩ := dwSdioClose_spec s card waits
  have hstops : (dwSdioDriver card).Serves (dwSdioClose s card waits).2 ↔ s.opnCnt = 1 := by
    simp only [Driver.Serves, dwSdioDriver, hcnt, hserves]
    refine ⟨fun hc => ?_, fun hc => ?_⟩
    · have hzero := mt hc.mpr Bool.false_ne_true
      bv_omega
    · rw [hc]
      decide
  constructor
  · exact fun hc => hstops.mp hc.2
  · intro hone
    refine ⟨?_, hstops.mpr hone⟩
    have hpos : 0 < (dwSdioDriver card).count s := by
      show 0 < s.opnCnt.toNat
      rw [hone]
      decide
    rw [if_pos hpos]
    show (dwSdioClose s card waits).2.opnCnt.toNat + 1 = s.opnCnt.toNat
    rw [hcnt, hone]
    rfl

theorem dwSdio_rules (h : card.toNat < 32) :
    Rules (dwSdioDriver card) (fun _ _ => True) DwSdioKept where
  right_iff := by
    intro s c r s' _ _ hcall
    cases c with
    | acquire waits =>
      have hr : dwSdioOpen s card waits = (r, s') := Except.ok.inj hcall
      have hiff := dwSdio_acquire_iff s h waits
      rwa [hr] at hiff
    | release waits =>
      have hr : dwSdioClose s card waits = (r, s') := Except.ok.inj hcall
      have hiff := dwSdio_release_iff s card waits
      rwa [hr] at hiff
  goesThrough := by
    intro s c _ _ _
    cases c with
    | acquire waits => exact ⟨_, rfl⟩
    | release waits => exact ⟨_, rfl⟩

/-! ### All four drivers -/

/-- **In every run of opens and closes the count is the number of opens that were granted less the
number of closes of an open device, the device runs exactly while the count is not zero, and a call
that comes to nothing disturbs nothing, exactly if** every call keeps to what its driver needs. -/
theorem open_counts_iff (spiHw : SsSpiMasterHw) (uartHw : SsUartPortHw) (gpioHw : SsGpioHw)
    (spiCbs uartCbs : DevCbs) (width : Byte) (intCb : Word) (refClk fifoDepth : Word)
    (regs : SdioRegs) (card : Word) (hcard : card.toNat < 32) :
    Keeps (ssSpiDriver spiHw) (OpenSame SsSpi.opnCnt fun s a => a.param = s.freq) SsSpiAlone
        (.installed spiHw spiCbs) ∧
      Keeps (ssUartDriver uartHw) (OpenSame SsUart.opnCnt fun s a => a.baud = s.baudrate)
        (OpenFound SsUart.opnCnt SsUartOpenArgs.ready) (.installed uartCbs) ∧
      Keeps (ssGpioDriver gpioHw) (OpenSame SsGpio.opnCnt fun s a => a.dir = s.direction)
        (OpenFound SsGpio.opnCnt SsGpioOpenArgs.found) (.installed width intCb) ∧
      Keeps (dwSdioDriver card) (fun _ _ => True) DwSdioKept (.installed refClk fifoDepth regs) := by
  refine ⟨(ssSpi_rules spiHw).keeps rfl rfl, (ssUart_countsFirst uartHw).rules.keeps rfl rfl,
    (ssGpio_countsFirst gpioHw).rules.keeps rfl rfl, (dwSdio_rules hcard).keeps rfl ?_⟩
  have hnone : hasFlag 0 (sdioCardBit card) = false := by simp [hasFlag]
  exact Bool.and_eq_false_iff.mpr (.inl hnone)

section Decidable

variable {σ α β : Type}

instance {w : Nat} (opnCnt : σ → BitVec w) (again : σ → α → Prop) [∀ s a, Decidable (again s a)]
    (s : σ) (c : Call α β) : Decidable (OpenSame opnCnt again s c) := by
  cases c with
  | acquire a => exact inferInstanceAs (Decidable (_ → _))
  | release b => exact isTrue trivial

instance (opnCnt : σ → Word) (found : α → Bool) (s : σ) (c : Call α β) :
    Decidable (OpenFound opnCnt found s c) := by
  cases c with
  | acquire a => exact inferInstanceAs (Decidable (_ ∧ _))
  | release b => exact inferInstanceAs (Decidable (_ ≠ _))

instance (s : DwSdio) (c : Call SdioWaits SdioWaits) : Decidable (DwSdioKept s c) := by
  cases c with
  | acquire a => exact inferInstanceAs (Decidable (_ ∧ _))
  | release b => exact inferInstanceAs (Decidable (_ = _))

end Decidable

def openSpiHw : SsSpiMasterHw where
  present := true
  maxXferSize := 16
  fifoDepth := 8
  size_ok := SsSpiHw.small_ok
  busFreq := 50000000

def openUartHw : SsUartPortHw where
  present := true
  fifoDepth := 16
  busFreq := 50000000

def openGpioHw : SsGpioHw where
  present := true
  enableDebounce := true

/-- Two users of the UART at a time, and two of an SDIO card one after the other. -/
theorem open_counts_two :
    (∃ l, Always (ssUartDriver openUartHw).step (ssUartDriver openUartHw).Law
        (.start (.installed .cleared))
        [.acquire ⟨115200, true, 0⟩, .acquire ⟨115200, true, 0⟩, .release (), .release ()] l ∧
      l.acquired = 2 ∧ l.released = 2) ∧
    ∃ l, Always (dwSdioDriver 3).step (dwSdioDriver 3).Law
        (.start (.installed 100000000 128 .zero))
        [.acquire sdioWaitsDone, .release sdioWaitsDone, .acquire sdioWaitsDone] l ∧
      l.acquired = 2 ∧ l.released = 1 := by
  obtain ⟨-, huart, -, hsdio⟩ := open_counts_iff openSpiHw openUartHw openGpioHw .cleared .cleared 8 0
    100000000 128 SdioRegs.zero 3 (by decide)
  exact ⟨⟨_, (huart _ _ (.of_follow rfl)).1.mpr (.of_follow rfl), rfl, rfl⟩,
    _, (hsdio _ _ (.of_follow rfl)).1.mpr (.of_follow rfl), rfl, rfl⟩

/-- The second user of the SPI master is not counted.  A UART that cannot be opened has a user, whose
close stops the processor; so does an open of either for no frequency.  A GPIO that is closed when
it is not open has all too many.  And the SDIO card is without power when the first of two users
has left. -/
theorem open_counts_wrong :
    (∃ l, Runs (ssSpiDriver openSpiHw).step
        (fun l c => OpenSame SsSpi.opnCnt (fun s a => a.param = s.freq) l.dev c)
        (.start (.installed openSpiHw .cleared))
        [.acquire ⟨0, 1000000, true⟩, .acquire ⟨0, 1000000, true⟩] l ∧
      l.acquired = 2 ∧ l.dev.opnCnt = 1) ∧
    (ssSpiDriver openSpiHw).step (.start (.installed openSpiHw .cleared)) (.acquire ⟨0, 0, true⟩) =
      .error .divZero ∧
    (ssUartDriver openUartHw).step (.start (.installed .cleared)) (.acquire ⟨0, true, 0⟩) =
      .error .divZero ∧
    (∃ l, Runs (ssUartDriver openUartHw).step
        (fun l c => OpenSame SsUart.opnCnt (fun s a => a.baud = s.baudrate) l.dev c)
        (.start (.installed .cleared)) [.acquire ⟨115200, false, 0⟩] l ∧
      l.acquired = 0 ∧ l.dev.opnCnt = 1 ∧ l.dev.io.handle = false ∧
      (ssUartDriver openUartHw).step l (.release ()) = .error .nullHandle) ∧
    (∃ l, Runs (ssGpioDriver openGpioHw).step
        (fun l c => OpenSame SsGpio.opnCnt (fun s a => a.dir = s.direction) l.dev c)
        (.start (.installed 8 0)) [.release ()] l ∧
      l.released = 0 ∧ l.dev.opnCnt = 0xffffffff) ∧
    ∃ l, Runs (dwSdioDriver 3).step (fun _ _ => True)
        (.start (.installed 100000000 128 .zero))
        [.acquire sdioWaitsDone, .acquire sdioWaitsDone, .release sdioWaitsDone] l ∧
      l.dev.opnCnt = 1 ∧ l.dev.regs.pwren = 0 := by
  exact ⟨⟨_, .of_follow rfl, rfl, rfl⟩, rfl, rfl, ⟨_, .of_follow rfl, rfl, rfl, rfl, rfl⟩,
    ⟨_, .of_follow rfl, rfl, rfl⟩, _, .of_follow rfl, rfl, rfl⟩

end Embarc
