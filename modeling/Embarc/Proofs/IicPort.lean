/-
The settings of the IIC driver and the registers that hold them a second time.

Most calls leave both copies as they are (`IicPort.Steady`).  The commands that change a setting
write the field of the register and the record alike, so the two copies stay equal if they were.
Three things break the agreement.  A slave is opened with whatever address it is given, of which
IC_SAR takes ten bits.  A master that is opened in ten bit mode and has a dynamic target address
writes the bit for the mode into the wrong place.  And a driver that was built without a ten bit
mode still records it: this is how it is built for a slave, unless told otherwise.
-/
import Mathlib.Tactic.MkIffOfInductiveProp
import Embarc.DesignWare.IicPort
import Embarc.Proofs.IicCompletion

namespace Embarc

/-! ### Agreement -/

@[mk_iff]
structure IicPort.MasterOk (hw : IicHw) (p : IicPort) : Prop where
  tar : p.regs.tar &&& iic10BitAddressMask = p.tarAddr
  ten : (if hw.dynamicTar then hasFlag p.regs.tar icTarMst10Bit
    else hasFlag p.regs.con icConMst10Bit) = decide (p.addrMode = iic10BitAddress)
  speed : p.regs.con &&& icConSpeedMask = dwIicSelectSpeedmode p.speedMode

@[mk_iff]
structure IicPort.SlaveOk (p : IicPort) : Prop where
  sar : p.regs.sar = p.slvAddr
  ten : hasFlag p.regs.con icConSlv10Bit = decide (p.addrMode = iic10BitAddress)

/-- While the device is open its registers agree with what is recorded. -/
def IicPort.RegsOk (hw : IicHw) (p : IicPort) : Prop :=
  p.dev.opnCnt ≠ 0 →
    (p.mode = .master → p.MasterOk hw) ∧ (p.mode = .slave → p.SlaveOk)

/-- A ten bit mode that the driver can set, for a device that is already open. -/
def IicHw.hasTenBit (hw : IicHw) : DevMode → Bool
  | .master => hw.mst10Bit
  | .slave => hw.slv10Bit

/-- How a closed device may be opened: in ten bit mode only if the driver can set it and puts it
where it belongs, and as a slave with an address of ten bits. -/
def IicPort.OpensOk (hw : IicHw) (p : IicPort) (mode : DevMode) (param : Word) : Prop :=
  (p.addrMode ≠ iic7BitAddress → hw.hasTenBit mode = true) ∧
    match mode with
    | .master => p.addrMode ≠ iic7BitAddress → hw.dynamicTar = false
    | .slave => param &&& iic10BitAddressMask = param

/-- What a call has to keep to: a closed device is opened as it may be, and no command sets a ten
bit mode the driver cannot set. -/
def IicOp.SettingsOk (hw : IicHw) (p : IicPort) : IicOp → Prop
  | .opened mode param => p.dev.opnCnt = 0 →
      ∀ m, DevMode.ofWord mode = some m → hw.accepts m param = .ok () → p.OpensOk hw m param
  | .control (.setAddrMode val) => p.Ready → val = iic10BitAddress → hw.hasTenBit p.mode = true
  | _ => True

variable {mst : IicMst} {val : Word} {cmd : IicCtrl} {opnCnt : Nat}

/-! ### What leaves the settings alone -/

namespace IicPort

def settings (p : IicPort) : DevMode × Word × Word × Word × Word × IicRegs :=
  (p.mode, p.speedMode, p.addrMode, p.tarAddr, p.slvAddr, p.regs)

/-- The interrupts the driver uses in the mode of the device. -/
def allInt (p : IicPort) : Word := p.mode.icInt .tx ||| p.mode.icInt .rx

/-- Open count and settings are what they were, and no interrupt of another kind has been
enabled. -/
structure Steady (hw : IicHw) (p p' : IicPort) : Prop where
  opnCnt : p'.dev.opnCnt = p.dev.opnCnt
  settings : p'.settings = p.settings
  sources : p.dev.mask &&& ~~~p.allInt = 0 → p'.dev.mask &&& ~~~p.allInt = 0
  irq : hw.hasIntno = false → p.irq = false → p'.irq = false

variable {hw : IicHw} {p p' p'' : IicPort}

theorem icInt_sources (p : IicPort) (d : Dir) : p.mode.icInt d &&& ~~~p.allInt = 0 := by
  simp only [allInt]
  cases p.mode <;> cases d <;> decide

namespace Steady

theorem refl (p : IicPort) : Steady hw p p := ⟨rfl, rfl, id, fun _ => id⟩

theorem mode (h : Steady hw p p') : p'.mode = p.mode := congrArg Prod.fst h.settings

theorem trans (h : Steady hw p p') (h' : Steady hw p' p'') : Steady hw p p'' where
  opnCnt := h'.opnCnt.trans h.opnCnt
  settings := h'.settings.trans h.settings
  sources hs := by
    have hkept := h'.sources
    simp only [allInt, h.mode] at hkept
    exact hkept (h.sources hs)
  irq hno := h'.irq hno ∘ h.irq hno

/-- Changes to what the master's routines change, and to the interrupt at the processor. -/
theorem of_mst {irq : Bool} {calls : List IicCall} (hcnt : mst.dev.opnCnt = p.dev.opnCnt)
    (hmask : p.dev.mask &&& ~~~p.allInt = 0 → mst.dev.mask &&& ~~~p.allInt = 0)
    (hirq : hw.hasIntno = false → p.irq = false → irq = false) :
    Steady hw p { p with toIicMst := mst, irq, calls } :=
  ⟨hcnt, rfl, hmask, hirq⟩

theorem disCbr (d : Dir) : Steady hw p (p.disCbr hw d) := by
  have hclear : p.dev.mask &&& ~~~p.allInt = 0 →
      p.dev.mask &&& ~~~p.mode.icInt d &&& ~~~p.allInt = 0 := fun hs => Field.clear_within hs _
  cases d <;>
    exact of_ite (.of_mst rfl hclear fun _ hirq => by simp [hirq]) (.of_mst rfl hclear fun _ => id)

theorem enaCbr (d : Dir) : Steady hw p (p.enaCbr hw d) := by
  have hset : p.dev.mask &&& ~~~p.allInt = 0 →
      (p.dev.mask ||| p.mode.icInt d) &&& ~~~p.allInt = 0 :=
    (Field.or_get_of_disjoint (p.icInt_sources d)).trans
  cases d <;>
    exact of_ite (.of_mst rfl hset fun hno hirq => by simp [hno, hirq]) (.of_mst rfl hset fun _ => id)

theorem disableInterrupt : Steady hw p (dwIicDisableInterrupt hw p) := by
  refine ((disCbr .tx).trans (.disCbr .rx)).trans ?_
  exact .of_mst rfl id fun _ hirq => by simp [hirq]

theorem withStatus (status : Word) : Steady hw p (p.withStatus status) :=
  .of_mst rfl id fun _ => id

theorem call (which : DevCb) : Steady hw p (p.call which) :=
  .of_mst rfl id fun _ => id

theorem abortBegin (d : Dir) : Steady hw p (dwIicAbortBegin hw p d) :=
  ((disCbr d).trans (.withStatus _)).trans (.call _)

theorem freed (d : Dir) : Steady hw p (p.freed d) :=
  of_ite (.of_mst rfl id fun _ => id) (.refl p)

theorem abortEnd (d : Dir) : Steady hw p ((dwIicAbortEnd p d).freed d) :=
  (withStatus _).trans (.freed d)

theorem enableDevice : Steady hw p (dwIicEnableDevice p) :=
  of_ite (.withStatus _) (.refl p)

theorem resetDevice : Steady hw p (dwIicResetDevice p) := by
  have hreset : Steady hw p { dwIicDisableDevice p with
      dev := { (dwIicDisableDevice p).dev with stop := true, curState := .free }
      errState := .none, txOver := 0, rxOver := 0 } := .of_mst rfl id fun _ => id
  exact hreset.trans .enableDevice

end Steady

end IicPort

/-! ### The interrupt routines -/

/-- The routines keep open count and status, and only clear bits of the mask. -/
structure IicDev.Kept (s s' : IicDev) : Prop where
  opnCnt : s'.opnCnt = s.opnCnt
  status : s'.status = s.status
  mask : ∀ m : Word, s.mask &&& ~~~m = 0 → s'.mask &&& ~~~m = 0

namespace IicDev.Kept

variable {s s' s'' : IicDev}

theorem refl (s : IicDev) : s.Kept s := ⟨rfl, rfl, fun _ => id⟩

theorem trans (h : s.Kept s') (h' : s'.Kept s'') : s.Kept s'' :=
  ⟨h'.opnCnt.trans h.opnCnt, h'.status.trans h.status, fun m => h'.mask m ∘ h.mask m⟩

theorem through (s : IicDev) (d : Dir) : s.Kept (s.through d) := by
  simp only [IicDev.through, dwIicDisCbr]
  cases d with
  | tx => dsimp only; split <;> exact ⟨rfl, rfl, fun m h => Field.clear_within h _⟩
  | rx => dsimp only; split <;> exact ⟨rfl, rfl, fun m h => Field.clear_within h _⟩

theorem withBuf (s : IicDev) (d : Dir) (b : DevBuffer) : s.Kept (s.withBuf d b) := by
  cases d <;> exact ⟨rfl, rfl, fun _ => id⟩

theorem send (room : Nat) (s : IicDev) : s.Kept (dwIicSend room s).2.2 := by
  induction room generalizing s with
  | zero => exact .refl s
  | succ room ih =>
    have hnext : s.Kept { s with txBuf := { s.txBuf with ofs := s.txBuf.ofs + 1 } } :=
      ⟨rfl, rfl, fun _ => id⟩
    simp only [dwIicSend]
    split
    · exact hnext.trans (.through _ .tx)
    · exact hnext.trans (ih _)

theorem issue (room : Nat) (s : IicDev) : s.Kept (dwIicIssueLoop room s).2 := by
  induction room generalizing s with
  | zero => exact .refl s
  | succ room ih =>
    simp only [dwIicIssueLoop, dwIicIssue]
    by_cases hall : s.cmdOfs ≥ s.cmdLen
    · rw [if_pos hall]
      exact ⟨rfl, rfl, fun m h => Field.clear_within h _⟩
    · rw [if_neg hall]
      have hnext : s.Kept { s with cmdOfs := s.cmdOfs + 1 } := ⟨rfl, rfl, fun _ => id⟩
      exact hnext.trans (ih _)

theorem store (bytes : List Byte) (s : IicDev) : s.Kept (dwIicStoreLoop bytes s).2 := by
  induction bytes generalizing s with
  | nil => exact .refl s
  | cons byte bytes ih =>
    have hnext : s.Kept { s with
        mem := Function.update s.mem (s.rxBuf.buf + s.rxBuf.ofs) byte
        rxBuf := { s.rxBuf with ofs := s.rxBuf.ofs + 1 } } := ⟨rfl, rfl, fun _ => id⟩
    simp only [dwIicStoreLoop, dwIicStore]
    split_ifs
    · exact hnext.trans (.through _ .rx)
    · exact hnext.trans (ih _)

theorem serve (s : IicDev) (d : Dir) (status : Word) (room : Nat) (bytes : List Byte) :
    s.Kept (dwIicServe s d status room bytes).2.2 := by
  cases d with
  | tx =>
    simp only [dwIicServe, dwIicServeTx]
    split
    · exact .send room s
    · exact .refl s
  | rx =>
    simp only [dwIicServe, dwIicServeRx]
    have hissue : s.Kept (if hasFlag status icIntrTxEmpty then dwIicIssueLoop room s
        else ([], s)).2 := by
      split
      · exact .issue room s
      · exact .refl s
    generalize (if hasFlag status icIntrTxEmpty then dwIicIssueLoop room s
      else ([], s)) = issued at hissue ⊢
    refine hissue.trans ?_
    split
    · exact .store bytes _
    · exact .refl _

end IicDev.Kept

namespace IicPort

variable {hw : IicHw} {p p' : IicPort}

namespace Steady

theorem withMst (h : p.dev.Kept mst.dev) : Steady hw p (p.withMst hw mst) :=
  .of_mst h.opnCnt (h.mask _) fun _ hirq => by simp [hirq]

theorem mstServe (ev : IicIsrEvent) : Steady hw p (p.mstServe hw ev) := by
  have hserve : Steady hw p (p.withMst hw (p.toIicMst.serve p.dev.serves ev).2.2) :=
    .withMst (IicDev.Kept.serve _ _ _ _ _)
  exact of_ite (of_ite (hserve.trans (.call _)) hserve) (.withMst (IicDev.Kept.through _ _))

theorem mstCheck (d : Dir) (ev : IicIsrEvent) (complete : Bool) :
    Steady hw p (p.mstCheck hw d ev complete) := by
  have hserved : Steady hw p (p.withMst hw (p.toIicMst.served d ev.status complete)) := by
    refine .withMst ?_
    rw [(p.toIicMst.served_spec d ev.status complete).2.2]
    split
    · exact .withBuf _ d _
    · exact .refl _
  simp only [IicPort.mstCheck]
  refine hserved.trans ?_
  generalize p.withMst hw (p.toIicMst.served d ev.status complete) = q
  have hcheck : Steady hw q (q.withMst hw (q.toIicMst.check d ev).2) := by
    refine .withMst ?_
    rw [(q.toIicMst.check_spec d ev).2.2.1]
    split
    · exact .through _ d
    · exact .refl _
  exact of_ite (hcheck.trans (.call _)) hcheck

theorem mstEnd (d : Dir) : Steady hw p (p.mstEnd hw d) :=
  .withMst (IicDev.Kept.withBuf _ d _)

theorem slvRequest (d : Dir) : Steady hw p (p.slvRequest hw d) :=
  of_ite (.call _) (.disCbr d)

theorem slvChkerr (ev : IicIsrEvent) : Steady hw p (p.slvChkerr hw ev).2 := by
  simp only [IicPort.slvChkerr]
  split
  · split
    · exact .refl p
    · split <;> exact .refl p
  · refine .withMst ?_
    rw [(p.toIicMst.chkerr_snd ev).1]
    exact .refl _

theorem slvCheck (ev : IicIsrEvent) : Steady hw p (p.slvCheck hw ev) := by
  have hover : ∀ (q : IicPort) (txOver rxOver : Word), Steady hw q { q with txOver, rxOver } :=
    fun q _ _ => .of_mst rfl id fun _ => id
  have hcounted : Steady hw p (
      let p := if hasFlag ev.status icIntrTxOver then { p with txOver := p.txOver + 1 } else p
      if hasFlag ev.status (icIntrRxOver ||| icIntrRxUnder) then { p with rxOver := p.rxOver + 1 }
      else p) := by
    split <;> split <;> exact hover p _ _
  simp only [IicPort.slvCheck]
  refine hcounted.trans ?_
  generalize (if hasFlag ev.status (icIntrRxOver ||| icIntrRxUnder) = true then _ else _) = q
  have herr : Steady hw q { (q.slvChkerr hw ev).2 with errState := (q.slvChkerr hw ev).1 } :=
    (slvChkerr ev).trans (.of_mst rfl id fun _ => id)
  exact of_ite (of_ite (herr.trans (.call _)) herr) (.refl q)

end Steady

/-! ### Agreement and the invariant, where settings are left alone -/

theorem regsOk_of_settings (hcnt : p'.dev.opnCnt = 0 ↔ p.dev.opnCnt = 0)
    (h : p'.settings = p.settings) : p'.RegsOk hw ↔ p.RegsOk hw := by
  simp only [settings, Prod.mk.injEq] at h
  obtain ⟨hmode, hspeed, haddr, htar, hslv, hregs⟩ := h
  simp only [RegsOk, masterOk_iff, slaveOk_iff, ne_eq, hcnt, hmode, hspeed, haddr, htar, hslv,
    hregs]

theorem Steady.regsOk_iff (h : Steady hw p p') : p'.RegsOk hw ↔ p.RegsOk hw :=
  regsOk_of_settings (by rw [h.opnCnt]) h.settings

/-- A driver without a ten bit mode leaves its bits clear, IC_SAR has ten bits, and no interrupts
but those of the driver are enabled. -/
structure Inv (hw : IicHw) (p : IicPort) : Prop where
  mst10 : p.dev.opnCnt ≠ 0 → p.mode = .master → hw.mst10Bit = false →
    hasFlag p.regs.con icConMst10Bit = false ∧ hasFlag p.regs.tar icTarMst10Bit = false
  slv10 : p.dev.opnCnt ≠ 0 → p.mode = .slave → hw.slv10Bit = false →
    hasFlag p.regs.con icConSlv10Bit = false
  sar : p.dev.opnCnt ≠ 0 → p.mode = .slave → p.regs.sar &&& ~~~iic10BitAddressMask = 0
  sources : p.dev.opnCnt ≠ 0 → p.dev.mask &&& ~~~p.allInt = 0
  irq : hw.hasIntno = false → p.irq = false

theorem Closed.inv (h : p.Closed) : p.Inv hw := by
  have hclosed : ¬p.dev.opnCnt ≠ 0 := not_not.mpr h.opnCnt
  exact ⟨fun ho => absurd ho hclosed, fun ho => absurd ho hclosed, fun ho => absurd ho hclosed,
    fun ho => absurd ho hclosed, fun _ => h.irq⟩

theorem Steady.inv (h : Steady hw p p') (hp : p.Inv hw) : p'.Inv hw := by
  have hset := h.settings
  simp only [IicPort.settings, Prod.mk.injEq] at hset
  obtain ⟨hmode, -, -, -, -, hregs⟩ := hset
  refine ⟨?_, ?_, ?_, ?_, fun hno => h.irq hno (hp.irq hno)⟩ <;>
    simp only [h.opnCnt, hmode, hregs, allInt]
  · exact hp.mst10
  · exact hp.slv10
  · exact hp.sar
  · exact fun hopen => h.sources (hp.sources hopen)

/-! ### The commands that change a setting -/

section
variable (hopen : p.dev.opnCnt ≠ 0)
include hopen

theorem regsOk_master (hmode : p.mode = .master) :
    p.RegsOk hw ↔ p.MasterOk hw := by
  simp [RegsOk, hopen, hmode]

theorem regsOk_slave (hmode : p.mode = .slave) :
    p.RegsOk hw ↔ p.SlaveOk := by
  simp [RegsOk, hopen, hmode]

theorem decides_master {c : Prop} (hmode : p.mode = .master)
    (hkept : p'.dev.opnCnt ≠ 0 ∧ p'.mode = .master) (hinv : p'.Inv hw)
    (h : p.MasterOk hw → (p'.MasterOk hw ↔ c)) :
    Trace.Decides (Inv hw) (RegsOk hw) p p' c := by
  refine ⟨hinv, fun hp => ?_⟩
  rw [regsOk_master hkept.1 hkept.2]
  exact h ((regsOk_master hopen hmode).mp hp)

theorem decides_slave {c : Prop} (hmode : p.mode = .slave)
    (hkept : p'.dev.opnCnt ≠ 0 ∧ p'.mode = .slave) (hinv : p'.Inv hw)
    (h : p.SlaveOk → (p'.SlaveOk ↔ c)) : Trace.Decides (Inv hw) (RegsOk hw) p p' c := by
  refine ⟨hinv, fun hp => ?_⟩
  rw [regsOk_slave hkept.1 hkept.2]
  exact h ((regsOk_slave hopen hmode).mp hp)

end

/-- The bit of a ten bit mode, as the commands write it: `b` is what the driver was built with. -/
def tenBit (x b val : Word) : Word := if val = iic7BitAddress then x &&& ~~~b else x ||| b

theorem tenBit_zero (x val : Word) : tenBit x 0 val = x := by
  simp only [tenBit]
  split
  · exact (congrArg (x &&& ·) BitVec.not_zero).trans BitVec.and_allOnes
  · exact BitVec.or_zero

theorem hasFlag_tenBit {x bit : Word} {built : Bool}
    (hval : val = iic7BitAddress ∨ val = iic10BitAddress) (hbit : bit ≠ 0)
    (hoff : built = false → hasFlag x bit = false) :
    hasFlag (tenBit x (if built then bit else 0) val) bit =
      (decide (val = iic10BitAddress) && built) := by
  have hself : hasFlag bit bit = true := by simpa [hasFlag] using hbit
  have hne : iic10BitAddress ≠ iic7BitAddress := by decide
  cases built with
  | false =>
    simp only [Bool.false_eq_true, if_false, tenBit_zero, Bool.and_false]
    exact hoff rfl
  | true =>
    rcases hval with rfl | rfl
    · simp [tenBit, hasFlag_clear, hne.symm]
    · simp [tenBit, hne, hasFlag_or, hself]

theorem tenBit_get {x bit f : Word} (built : Bool) (hdisjoint : bit &&& f = 0) :
    tenBit x (if built then bit else 0) val &&& f = x &&& f := by
  have hb : (if built then bit else 0) &&& f = 0 := by
    cases built
    · simp
    · exact hdisjoint
  simp only [tenBit]
  split
  · exact Field.clear_get_of_disjoint hb
  · exact Field.or_get_of_disjoint hb

/-- The mode is recorded whether or not the bit could be set. -/
theorem shows_iff (val : Word) (built : Bool) :
    (decide (val = iic10BitAddress) && built) = decide (val = iic10BitAddress) ↔
      (val = iic10BitAddress → built = true) := by
  cases built <;> simp

theorem setMstaddrMode_eq (p : IicPort) (val : Word) :
    dwIicSetMstaddrMode hw p val =
      if hw.dynamicTar then p.writeTar (tenBit p.regs.tar hw.ic10BitAddrMaster val)
      else p.writeCon (tenBit p.regs.con hw.mst10BitAddrMode val) := by
  simp only [dwIicSetMstaddrMode, tenBit]
  split <;> split <;> rfl

theorem setMstaddrMode_ok (hopen : p.dev.opnCnt ≠ 0) (hmode : p.mode = .master) (hp : p.Inv hw)
    (hval : val = iic7BitAddress ∨ val = iic10BitAddress) (h : p.MasterOk hw) :
    ({ dwIicSetMstaddrMode hw p val with addrMode := val } : IicPort).MasterOk hw ↔
      (val = iic10BitAddress → hw.mst10Bit = true) := by
  have hoff := hp.mst10 hopen hmode
  rw [← shows_iff, setMstaddrMode_eq, masterOk_iff]
  by_cases hdyn : hw.dynamicTar
  · simp only [if_pos hdyn]
    have hten := hasFlag_tenBit (x := p.regs.tar) hval (by decide) fun hb => (hoff hb).2
    exact ⟨fun hok => hten.symm.trans hok.2.1, fun hshows =>
      ⟨(tenBit_get _ (by decide)).trans h.tar, hten.trans hshows, h.speed⟩⟩
  · simp only [if_neg hdyn]
    have hten := hasFlag_tenBit (x := p.regs.con) hval (by decide) fun hb => (hoff hb).1
    exact ⟨fun hok => hten.symm.trans hok.2.1, fun hshows =>
      ⟨h.tar, hten.trans hshows, (tenBit_get _ (by decide)).trans h.speed⟩⟩

theorem setSlvaddrMode_eq (p : IicPort) (val : Word) :
    dwIicSetSlvaddrMode hw p val =
      p.writeCon (tenBit p.regs.con hw.slv10BitAddrMode val) := by
  simp only [dwIicSetSlvaddrMode, tenBit]
  split <;> rfl

theorem setSlvaddrMode_ok (hopen : p.dev.opnCnt ≠ 0) (hmode : p.mode = .slave) (hp : p.Inv hw)
    (hval : val = iic7BitAddress ∨ val = iic10BitAddress) (h : p.SlaveOk) :
    ({ dwIicSetSlvaddrMode hw p val with addrMode := val } : IicPort).SlaveOk ↔
      (val = iic10BitAddress → hw.slv10Bit = true) := by
  have hten := hasFlag_tenBit (x := p.regs.con) hval (by decide) (hp.slv10 hopen hmode)
  rw [← shows_iff, setSlvaddrMode_eq]
  exact ⟨fun hok => hten.symm.trans hok.ten, fun hshows => ⟨h.sar, hten.trans hshows⟩⟩

theorem speedmode_masked (speedmode : Word) :
    dwIicSelectSpeedmode speedmode &&& icConSpeedMask = dwIicSelectSpeedmode speedmode := by
  simp only [dwIicSelectSpeedmode]
  split
  · decide
  · split <;> decide

theorem setSpeedmode_ok (h : p.MasterOk hw) (val : Word) :
    ({ dwIicSetSpeedmode p val with speedMode := val } : IicPort).MasterOk hw where
  tar := h.tar
  ten := by
    have hkept := hasFlag_of_get_eq (Field.set_get_of_disjoint (x := p.regs.con)
      (f := icConMst10Bit) (speedmode_masked val) (by decide))
    refine Eq.trans ?_ h.ten
    split
    · rfl
    · exact hkept
  speed := Field.set_get_self (speedmode_masked val)

theorem addr_masked (p : IicPort) (val : Word) :
    p.addr val &&& iic10BitAddressMask = p.addr val := by
  simp only [addr]
  split
  · rw [BitVec.and_assoc]
    congr 1
  · rw [BitVec.and_assoc, BitVec.and_self]

theorem setTaraddr_ok (h : p.MasterOk hw) (val : Word) :
    ({ dwIicSetTaraddr p (p.addr val) with tarAddr := p.addr val } : IicPort).MasterOk hw := by
  have hmasked : iic10BitAddressMask &&& p.addr val &&& iic10BitAddressMask =
      iic10BitAddressMask &&& p.addr val := by
    rw [BitVec.and_assoc, p.addr_masked]
  refine ⟨?_, ?_, h.speed⟩
  · refine (Field.set_get_self hmasked).trans ?_
    rw [BitVec.and_comm, p.addr_masked]
  · have hkept := hasFlag_of_get_eq (Field.set_get_of_disjoint (x := p.regs.tar)
      (f := icTarMst10Bit) hmasked (by decide))
    refine Eq.trans ?_ h.ten
    split
    · exact hkept
    · rfl

theorem setSlvaddr_ok (hopen : p.dev.opnCnt ≠ 0) (hmode : p.mode = .slave) (hp : p.Inv hw)
    (h : p.SlaveOk) (val : Word) :
    ({ dwIicSetSlvaddr p (p.addr val) with slvAddr := p.addr val } : IicPort).SlaveOk where
  sar := by
    have hsar := hp.sar hopen hmode
    simp only [dwIicSetSlvaddr, writeSar, hsar]
    rw [BitVec.and_comm, p.addr_masked]
    simp
  ten := h.ten

/-! ### Opening a closed device -/

theorem maskAddrs_addrMode (p : IicPort) :
    p.maskAddrs.addrMode = iic7BitAddress ∨ p.maskAddrs.addrMode = iic10BitAddress := by
  simp only [maskAddrs]
  split
  · rename_i h
    exact Or.inl h
  · exact Or.inr rfl

theorem maskAddrs_ten_iff (p : IicPort) :
    p.maskAddrs.addrMode = iic10BitAddress ↔ p.addrMode ≠ iic7BitAddress := by
  have hne : iic7BitAddress ≠ iic10BitAddress := by decide
  simp only [maskAddrs]
  split_ifs with h
  · simp [h, hne]
  · simp [h]

theorem maskAddrs_tarAddr (p : IicPort) :
    p.maskAddrs.tarAddr &&& iic10BitAddressMask = p.maskAddrs.tarAddr := by
  have heq : p.maskAddrs.tarAddr = p.addr p.tarAddr := by
    simp only [maskAddrs, addr]
    split <;> rfl
  rw [heq, p.addr_masked]

theorem masterCon_get (hw : IicHw) (speedMode : Word) :
    (dwIicSelectSpeedmode speedMode ||| icConEnaMasterMode ||| hw.icConRestartEn) &&&
        icConSpeedMask = dwIicSelectSpeedmode speedMode ∧
      hasFlag (dwIicSelectSpeedmode speedMode ||| icConEnaMasterMode ||| hw.icConRestartEn)
        icConMst10Bit = false := by
  simp only [dwIicSelectSpeedmode, IicHw.icConRestartEn]
  cases hw.allowRestart <;> split <;> (try split) <;> decide

theorem masterTar_get (hw : IicHw) (tarAddr : Word) :
    (tarAddr &&& iic10BitAddressMask ||| hw.icTarSpecial) &&& iic10BitAddressMask =
        tarAddr &&& iic10BitAddressMask ∧
      hasFlag (tarAddr &&& iic10BitAddressMask ||| hw.icTarSpecial) icTarMst10Bit = false := by
  have hspecial : hw.icTarSpecial &&& iic10BitAddressMask = 0 ∧
      hw.icTarSpecial &&& icTarMst10Bit = 0 := by
    simp only [IicHw.icTarSpecial]
    cases hw.specialStartByte <;> decide
  refine ⟨?_, ?_⟩
  · rw [Field.or_get_of_disjoint hspecial.1, BitVec.and_assoc, BitVec.and_self]
  · have hzero : iic10BitAddressMask &&& icTarMst10Bit = 0 := by decide
    simp [hasFlag, Field.or_get_of_disjoint hspecial.2, BitVec.and_assoc, hzero]

theorem masterInit_ok (hw : IicHw) (q : IicPort)
    (htar : q.tarAddr &&& iic10BitAddressMask = q.tarAddr)
    (haddr : q.addrMode = iic7BitAddress ∨ q.addrMode = iic10BitAddress) :
    (dwIicMasterInit hw q q.speedMode q.addrMode q.tarAddr).MasterOk hw ↔
      (q.addrMode = iic10BitAddress → hw.mst10Bit = true ∧ hw.dynamicTar = false) := by
  obtain ⟨hspeed, hcon⟩ := masterCon_get hw q.speedMode
  obtain ⟨hfield, htar10⟩ := masterTar_get hw q.tarAddr
  rw [htar] at hfield htar10
  simp only [dwIicMasterInit, htar]
  generalize dwIicSelectSpeedmode q.speedMode ||| icConEnaMasterMode ||| hw.icConRestartEn = con
    at hspeed hcon ⊢
  generalize q.tarAddr ||| hw.icTarSpecial = tar at hfield htar10 ⊢
  have hne : iic7BitAddress ≠ iic10BitAddress := by decide
  -- the bit that is set in IC_TAR is not the one for the mode
  have hbit : hasFlag hw.mst10BitAddrMode icTarMst10Bit = false ∧
      hasFlag hw.mst10BitAddrMode icConMst10Bit = hw.mst10Bit ∧
      hw.mst10BitAddrMode &&& icConSpeedMask = 0 := by
    simp only [IicHw.mst10BitAddrMode]
    cases hw.mst10Bit <;> decide
  obtain ⟨hwrong, hshows, hkept⟩ := hbit
  rcases haddr with haddr | haddr <;> by_cases hdyn : hw.dynamicTar <;>
    simp [masterOk_iff, writeCon, writeTar, haddr, hdyn, hne, hfield, hspeed, htar10, hcon,
      hasFlag_or, hwrong, hshows, Field.or_get_of_disjoint hkept]

theorem slaveInit_ok (hw : IicHw) (q : IicPort)
    (haddr : q.addrMode = iic7BitAddress ∨ q.addrMode = iic10BitAddress) :
    (dwIicSlaveInit hw q q.addrMode q.slvAddr).SlaveOk ↔
      (q.addrMode = iic10BitAddress → hw.slv10Bit = true) ∧
        q.slvAddr &&& iic10BitAddressMask = q.slvAddr := by
  have hshows : hasFlag (if q.addrMode = iic10BitAddress then hw.slv10BitAddrMode else 0)
      icConSlv10Bit = (decide (q.addrMode = iic10BitAddress) && hw.slv10Bit) := by
    simp only [IicHw.slv10BitAddrMode]
    cases hw.slv10Bit <;> split <;> simp_all <;> decide
  rw [← shows_iff, ← hshows]
  exact ⟨fun hok => ⟨hok.ten, hok.sar⟩, fun hok => ⟨hok.2, hok.1⟩⟩

theorem Steady.openEnd : Steady hw p (p.openEnd hw) := by
  have hreset : Steady hw p { p with
      dev := { p.dev with
        status := devEnabled, curState := .free, stop := true
        gint := false, txInt := false, rxInt := false, cmdOfs := 0, cmdLen := 0 }
      errState := .none, txOver := 0, rxOver := 0 } := .of_mst rfl id fun _ => id
  exact (hreset.trans .disableInterrupt).trans (.of_mst rfl id fun _ => id)

theorem openBegin_addrs (hw : IicHw) (p : IicPort) (mode : DevMode) :
    (p.openBegin hw mode).addrMode = p.maskAddrs.addrMode ∧
      (p.openBegin hw mode).tarAddr = p.maskAddrs.tarAddr := by
  simp only [openBegin, dwIicDisableDevice, withStatus, maskAddrs]
  split <;> exact ⟨rfl, rfl⟩

theorem openBegin_dev (hw : IicHw) (p : IicPort) (mode : DevMode) :
    (p.openBegin hw mode).dev.opnCnt = (p.dev.opnCnt + 1) % 2 ^ 32 ∧ (p.openBegin hw mode).mode = mode ∧
      (p.openBegin hw mode).irq = p.irq := by
  simp only [openBegin, dwIicDisableDevice, withStatus, maskAddrs]
  split <;> exact ⟨rfl, rfl, rfl⟩

theorem masterInit_eq (hw : IicHw) (q : IicPort) (speedMode addrMode tarAddr : Word) :
    ∃ con tar, dwIicMasterInit hw q speedMode addrMode tarAddr =
      { q with dev := { q.dev with mask := 0 }, regs := { q.regs with con, tar } } := by
  simp only [dwIicMasterInit]
  split
  · split <;> exact ⟨_, _, rfl⟩
  · exact ⟨_, _, rfl⟩

/-- **A closed device is opened with its registers in agreement exactly if** it is opened as it
may be. -/
theorem firstOpen_regsOk (hw : IicHw) (hclosed : p.dev.opnCnt = 0) (mode : DevMode) (param : Word) :
    (dwIicFirstOpen hw p mode param).RegsOk hw ↔ p.OpensOk hw mode param := by
  obtain ⟨haddr, htar⟩ := openBegin_addrs hw p mode
  obtain ⟨hcnt, hmode, -⟩ := openBegin_dev hw p mode
  have hvals := p.maskAddrs_addrMode
  have hten := p.maskAddrs_ten_iff
  have hmasked := p.maskAddrs_tarAddr
  rw [← haddr] at hvals hten
  rw [← htar] at hmasked
  have hopen : (p.openBegin hw mode).dev.opnCnt ≠ 0 := by
    rw [hcnt, hclosed]
    decide
  simp only [dwIicFirstOpen, Steady.openEnd.regsOk_iff]
  cases mode with
  | master =>
    have hinit :=
      masterInit_ok hw { p.openBegin hw .master with speedMode := param } hmasked hvals
    obtain ⟨con, tar, heq⟩ := masterInit_eq hw { p.openBegin hw .master with speedMode := param }
      param (p.openBegin hw .master).addrMode (p.openBegin hw .master).tarAddr
    refine (regsOk_master (by rw [heq]; exact hopen) (by rw [heq]; exact hmode)).trans ?_
    refine hinit.trans ?_
    simp only [hten, OpensOk, IicHw.hasTenBit]
    exact ⟨fun h => ⟨fun ha => (h ha).1, fun ha => (h ha).2⟩, fun h ha => ⟨h.1 ha, h.2 ha⟩⟩
  | slave =>
    have hinit := slaveInit_ok hw { p.openBegin hw .slave with slvAddr := param } hvals
    refine Iff.trans (regsOk_slave ?_ ?_) (hinit.trans ?_)
    · exact hopen
    · exact hmode
    · simp only [hten, OpensOk, IicHw.hasTenBit]

theorem masterInit_inv (hw : IicHw) (q : IicPort) (hirq : hw.hasIntno = false → q.irq = false)
    (hmode : q.mode = .master) (speedMode addrMode tarAddr : Word) :
    (dwIicMasterInit hw q speedMode addrMode tarAddr).Inv hw := by
  have hcon := (masterCon_get hw speedMode).2
  have htar := (masterTar_get hw tarAddr).2
  obtain ⟨con, tar, heq⟩ := masterInit_eq hw q speedMode addrMode tarAddr
  refine ⟨fun _ _ hoff => ?_, ?_, ?_, ?_, ?_⟩
  · simp only [dwIicMasterInit, IicHw.mst10BitAddrMode, hoff, Bool.false_eq_true, if_false]
    have hor : ∀ x : Word, x ||| 0 = x := fun _ => BitVec.or_zero
    split <;> split <;> simp only [writeCon, writeTar, hor] <;> exact ⟨hcon, htar⟩
  all_goals rw [heq]
  · simp [hmode]
  · simp [hmode]
  · exact fun _ => BitVec.zero_and
  · exact hirq

theorem slaveInit_inv (hw : IicHw) (q : IicPort) (hirq : hw.hasIntno = false → q.irq = false)
    (hmode : q.mode = .slave) (addrMode slvAddr : Word) :
    (dwIicSlaveInit hw q addrMode slvAddr).Inv hw := by
  constructor
  · simp [dwIicSlaveInit, writeCon, writeSar, hmode]
  · intro _ _ hoff
    simp only [dwIicSlaveInit, writeCon, IicHw.slv10BitAddrMode, hoff, Bool.false_eq_true, if_false]
    split <;> decide
  · intro _ _
    simp only [dwIicSlaveInit, writeCon, writeSar]
    rw [BitVec.and_assoc, BitVec.and_not_self]
    simp
  · exact fun _ => BitVec.zero_and
  · exact hirq

theorem firstOpen_inv (hw : IicHw) (hirq : hw.hasIntno = false → p.irq = false) (mode : DevMode)
    (param : Word) : (dwIicFirstOpen hw p mode param).Inv hw := by
  obtain ⟨-, hmode, hsame⟩ := openBegin_dev hw p mode
  rw [← hsame] at hirq
  refine Steady.openEnd.inv ?_
  cases mode with
  | master =>
    exact masterInit_inv hw { p.openBegin hw .master with speedMode := param } hirq hmode _ _ _
  | slave => exact slaveInit_inv hw { p.openBegin hw .slave with slvAddr := param } hirq hmode _ _

/-! ### Commands -/

variable (hp : p.Inv hw)
include hp

/-- The registers and the record are changed; a bit that is clear for want of a ten bit mode stays
clear, and IC_SAR has ten bits. -/
theorem Inv.of_regs {regs : IicRegs} {speedMode addrMode tarAddr slvAddr : Word}
    (hmst : p.mode = .master → hw.mst10Bit = false →
      hasFlag regs.con icConMst10Bit = hasFlag p.regs.con icConMst10Bit ∧
        hasFlag regs.tar icTarMst10Bit = hasFlag p.regs.tar icTarMst10Bit)
    (hslv : p.mode = .slave → hw.slv10Bit = false →
      hasFlag regs.con icConSlv10Bit = hasFlag p.regs.con icConSlv10Bit)
    (hsar : p.mode = .slave → p.regs.sar &&& ~~~iic10BitAddressMask = 0 →
      regs.sar &&& ~~~iic10BitAddressMask = 0) :
    ({ p with regs, speedMode, addrMode, tarAddr, slvAddr } : IicPort).Inv hw where
  mst10 hopen hmode hoff := by
    obtain ⟨hcon, htar⟩ := hmst hmode hoff
    rw [hcon, htar]
    exact hp.mst10 hopen hmode hoff
  slv10 hopen hmode hoff := by
    rw [hslv hmode hoff]
    exact hp.slv10 hopen hmode hoff
  sar hopen hmode := hsar hmode (hp.sar hopen hmode)
  sources := hp.sources
  irq := hp.irq

theorem setMstaddrMode_inv (hmode : p.mode = .master) (val : Word) :
    ({ dwIicSetMstaddrMode hw p val with addrMode := val } : IicPort).Inv hw := by
  rw [setMstaddrMode_eq]
  split
  · refine hp.of_regs (fun _ hoff => ⟨rfl, ?_⟩) (by simp [hmode]) (by simp [hmode])
    simp only [IicHw.ic10BitAddrMaster, hoff, Bool.false_eq_true, if_false, tenBit_zero, writeTar]
  · refine hp.of_regs (fun _ hoff => ⟨?_, rfl⟩) (by simp [hmode]) (by simp [hmode])
    simp only [IicHw.mst10BitAddrMode, hoff, Bool.false_eq_true, if_false, tenBit_zero, writeCon]

theorem setSlvaddrMode_inv (hmode : p.mode = .slave) (val : Word) :
    ({ dwIicSetSlvaddrMode hw p val with addrMode := val } : IicPort).Inv hw := by
  rw [setSlvaddrMode_eq]
  refine hp.of_regs (by simp [hmode]) (fun _ hoff => ?_) fun _ => id
  simp only [IicHw.slv10BitAddrMode, hoff, Bool.false_eq_true, if_false, tenBit_zero, writeCon]

theorem setSpeedmode_inv (hmode : p.mode = .master) (val : Word) :
    ({ dwIicSetSpeedmode p val with speedMode := val } : IicPort).Inv hw := by
  refine hp.of_regs (fun _ _ => ⟨?_, rfl⟩) (by simp [hmode]) (by simp [hmode])
  exact hasFlag_of_get_eq (Field.set_get_of_disjoint (speedmode_masked val) (by decide))

theorem setTaraddr_inv (hmode : p.mode = .master) (val : Word) :
    ({ dwIicSetTaraddr p (p.addr val) with tarAddr := p.addr val } : IicPort).Inv hw := by
  refine hp.of_regs (fun _ _ => ⟨rfl, ?_⟩) (by simp [hmode]) (by simp [hmode])
  have hmasked : iic10BitAddressMask &&& p.addr val &&& iic10BitAddressMask =
      iic10BitAddressMask &&& p.addr val := by
    rw [BitVec.and_assoc, p.addr_masked]
  exact hasFlag_of_get_eq (Field.set_get_of_disjoint hmasked (by decide))

theorem setSlvaddr_inv (hmode : p.mode = .slave) (val : Word) :
    ({ dwIicSetSlvaddr p (p.addr val) with slvAddr := p.addr val } : IicPort).Inv hw := by
  refine hp.of_regs (by simp [hmode]) (fun _ _ => rfl) ?_
  intro _ hsar
  have hzero : iic10BitAddressMask &&& p.addr val &&& ~~~iic10BitAddressMask = 0 := by
    rw [BitVec.and_assoc, BitVec.and_comm, BitVec.and_assoc, BitVec.not_and_self]
    simp
  simp only [dwIicSetSlvaddr, writeSar]
  rw [hsar, Field.or_get_of_disjoint hzero]
  simp

end IicPort

def IicCtrl.sets : IicCtrl → Bool
  | .setAddrMode _ | .setSpeedMode _ | .setTarAddr _ | .setSlvAddr _ => true
  | _ => false

namespace IicPort

variable {hw : IicHw} {p p' : IicPort}

theorem Steady.command (h : cmd.sets = false) : Steady hw p (dwIicCommand hw p cmd).2 := by
  have hset : ∀ {dev : IicDev} {cbs : DevCbs}, dev.opnCnt = p.dev.opnCnt →
      dev.mask = p.dev.mask → Steady hw p { p with dev, cbs } :=
    fun hcnt hmask => ⟨hcnt, rfl, fun hs => by rw [hmask]; exact hs, fun _ => id⟩
  refine of_ite_snd (.refl p) (of_ite_snd (.refl p) ?_)
  cases cmd with
  | enaDev => exact .enableDevice
  | disDev => exact .withStatus _
  | reset => exact .resetDevice
  | setCb which param => exact of_ite_snd (.refl p) (hset rfl rfl)
  | transfer cmd =>
    cases cmd with
    | setInt d val =>
      refine of_ite_snd (.refl p) (of_ite_snd ?_ ?_)
      · exact (Steady.disCbr d).trans (.of_mst rfl id fun _ => id)
      · exact (Steady.enaCbr d).trans (.of_mst rfl id fun _ => id)
    | setIntBuf d param devbuf =>
      refine of_ite_snd (.refl p) (of_ite_snd (.refl p) ?_)
      cases d <;> exact hset rfl rfl
  | setNextCond val => exact of_ite_snd (.refl p) (of_ite_snd (hset rfl rfl) (.refl p))
  | getSlvState param state => exact of_ite_snd (.refl p) (.refl p)
  | setAddrMode val => cases h
  | setSpeedMode val => cases h
  | setTarAddr val => cases h
  | setSlvAddr val => cases h
  | _ => exact .refl p

theorem setMstaddrMode_decides (hp : p.Inv hw) (hopen : p.dev.opnCnt ≠ 0)
    (hmode : p.mode = .master) (hval : val = iic7BitAddress ∨ val = iic10BitAddress) :
    Trace.Decides (Inv hw) (RegsOk hw) p { dwIicSetMstaddrMode hw p val with addrMode := val }
      (val = iic10BitAddress → hw.mst10Bit = true) := by
  refine decides_master hopen hmode ?_ (setMstaddrMode_inv hp hmode val)
    (setMstaddrMode_ok hopen hmode hp hval)
  rw [setMstaddrMode_eq]
  split <;> exact ⟨hopen, hmode⟩

theorem setSlvaddrMode_decides (hp : p.Inv hw) (hopen : p.dev.opnCnt ≠ 0)
    (hmode : p.mode = .slave) (hval : val = iic7BitAddress ∨ val = iic10BitAddress) :
    Trace.Decides (Inv hw) (RegsOk hw) p { dwIicSetSlvaddrMode hw p val with addrMode := val }
      (val = iic10BitAddress → hw.slv10Bit = true) := by
  refine decides_slave hopen hmode ?_ (setSlvaddrMode_inv hp hmode val)
    (setSlvaddrMode_ok hopen hmode hp hval)
  rw [setSlvaddrMode_eq]
  exact ⟨hopen, hmode⟩

/-- A command that changes a setting is refused by a device that is not ready. -/
theorem command_not_ready (hsets : cmd.sets = true) (h : ¬p.Ready) :
    (dwIicCommand hw p cmd).2 = p := by
  have hdisabled : cmd.whenDisabled = false := by
    cases cmd <;> first | rfl | exact absurd hsets (by simp [IicCtrl.sets])
  simp only [dwIicCommand]
  split
  · rfl
  · rename_i hopen
    have hoff : p.dev.status &&& devEnabled = 0 := by
      by_contra hon
      exact h ⟨hopen, hon⟩
    rw [if_pos ⟨hoff, hdisabled⟩]

/-- **The commands keep record and registers in agreement, except for setting a ten bit mode that
the driver was built without.** -/
theorem command_decides (hp : p.Inv hw) (cmd : IicCtrl) :
    Trace.Decides (Inv hw) (RegsOk hw) p (dwIicCommand hw p cmd).2
      ((IicOp.control cmd).SettingsOk hw p) := by
  have hsame : (IicOp.control cmd).SettingsOk hw p → Trace.Decides (Inv hw) (RegsOk hw) p p
      ((IicOp.control cmd).SettingsOk hw p) := .keeps hp id
  by_cases hsets : cmd.sets = true
  · by_cases hready : p.Ready
    · obtain ⟨hopen, hon⟩ := id hready
      have hgo : ∀ c : Prop, ¬(p.dev.status &&& devEnabled = 0 ∧ c) := fun c h => hon h.1
      cases cmd with try simp only [dwIicCommand, if_neg hopen, if_neg (hgo _)]
      | setAddrMode val =>
        split_ifs with hval
        · cases hmode : p.mode with
            simp only [IicOp.SettingsOk, hmode, IicHw.hasTenBit, hready, true_implies]
          | master => exact setMstaddrMode_decides hp hopen hmode hval
          | slave => exact setSlvaddrMode_decides hp hopen hmode hval
        · exact hsame fun _ hten => absurd (Or.inr hten) hval
      | setSpeedMode val =>
        split_ifs with hmode
        · exact hsame trivial
        · exact hsame trivial
        · have hmode := not_not.mp hmode
          exact decides_master hopen hmode ⟨hopen, hmode⟩ (setSpeedmode_inv hp hmode val)
            fun h => iff_of_true (setSpeedmode_ok h val) trivial
      | setTarAddr val =>
        split_ifs with hmode
        · exact hsame trivial
        · have hmode := not_not.mp hmode
          exact decides_master hopen hmode ⟨hopen, hmode⟩ (setTaraddr_inv hp hmode val)
            fun h => iff_of_true (setTaraddr_ok h val) trivial
        · exact hsame trivial
      | setSlvAddr val =>
        split_ifs with hmode
        · exact hsame trivial
        · have hmode := not_not.mp hmode
          exact decides_slave hopen hmode ⟨hopen, hmode⟩ (setSlvaddr_inv hp hmode val)
            fun h => iff_of_true (setSlvaddr_ok hopen hmode hp h val) trivial
      | _ => exact absurd hsets (by simp [IicCtrl.sets])
    · rw [command_not_ready hsets hready]
      refine hsame ?_
      cases cmd with
      | setAddrMode val => exact fun h => absurd h hready
      | _ => trivial
  · have hsteady : Steady hw p (dwIicCommand hw p cmd).2 :=
      .command (Bool.eq_false_iff.mpr hsets)
    refine .keeps (hsteady.inv hp) hsteady.regsOk_iff.mpr ?_
    cases cmd with
    | setAddrMode val => exact absurd rfl hsets
    | _ => trivial

end IicPort

/-! ### Closing -/

section Closing

variable {hw : IicHw} {env : Word → IicPort → IicPort} {p p' : IicPort}

theorem dwIicDisableInterrupt_eq (hw : IicHw) (p : IicPort) :
    dwIicDisableInterrupt hw p =
      { p with
        dev := { p.dev with
          mask := p.dev.mask &&& ~~~p.mode.icInt .tx &&& ~~~p.mode.icInt .rx
          txInt := false, rxInt := false, gint := false }
        irq := p.irq && !hw.hasIntno } := by
  have hone : ∀ (q : IicPort) (d : Dir), ∃ gint irq,
      q.disCbr hw d = { q with
        dev := { (q.dev.withInt d false) with mask := q.dev.mask &&& ~~~q.mode.icInt d, gint }
        irq } ∧
      (irq && !hw.hasIntno) = (q.irq && !hw.hasIntno) := by
    intro q d
    simp only [IicPort.disCbr]
    split
    · exact ⟨_, _, by cases d <;> rfl, by rw [Bool.and_assoc, Bool.and_self]⟩
    · exact ⟨_, _, by cases d <;> rfl, rfl⟩
  obtain ⟨gint, irq, htx, hirq⟩ := hone p .tx
  obtain ⟨gint', irq', hrx, hirq'⟩ := hone (p.disCbr hw .tx) .rx
  rw [htx] at hrx hirq'
  simp only [dwIicDisableInterrupt, htx, hrx, hirq'.trans hirq]
  rfl

theorem dwIicAbort_idle {d : Dir} (h : p.dev.int d = false) : dwIicAbort hw env p d = p := by
  simp [dwIicAbort, h]

theorem dwIicClose_last (env : Word → IicPort → IicPort) (hcnt : p.dev.opnCnt = 1) :
    dwIicClose hw env p = (eOk, { p with
      dev := { p.dev with
        opnCnt := 0, status := 0, stop := true, txBuf := .cleared, rxBuf := .cleared
        mask := p.dev.mask &&& ~~~p.mode.icInt .tx &&& ~~~p.mode.icInt .rx
        txInt := false, rxInt := false, gint := false }
      cbs := .cleared
      irq := p.irq && !hw.hasIntno }) := by
  have hne : ¬p.dev.opnCnt = 0 := by omega
  have hlast : p.dev.opnCnt - 1 = 0 := by omega
  simp only [dwIicClose, if_neg hne, if_pos hlast, dwIicDisableInterrupt_eq]
  rw [dwIicAbort_idle rfl, dwIicAbort_idle rfl, hlast]
  rfl

namespace IicPort

theorem Inv.withCnt (hp : p.Inv hw) (hopen : p.dev.opnCnt ≠ 0) :
    ({ p with dev := { p.dev with opnCnt } } : IicPort).Inv hw :=
  ⟨fun _ => hp.mst10 hopen, fun _ => hp.slv10 hopen, fun _ => hp.sar hopen,
    fun _ => hp.sources hopen, hp.irq⟩

theorem RegsOk.withCnt (h : p.RegsOk hw) (hopen : p.dev.opnCnt ≠ 0) :
    ({ p with dev := { p.dev with opnCnt } } : IicPort).RegsOk hw :=
  fun hstill => (regsOk_of_settings (iff_of_false hstill hopen) rfl).mpr h hstill

theorem close_decides (env : Word → IicPort → IicPort) (hp : p.Inv hw) :
    Trace.Decides (Inv hw) (RegsOk hw) p (dwIicClose hw env p).2 True := by
  by_cases hzero : p.dev.opnCnt = 0
  · simp only [dwIicClose, if_pos hzero]
    exact .keeps hp id trivial
  · by_cases hlast : p.dev.opnCnt = 1
    · rw [dwIicClose_last env hlast]
      refine .keeps ⟨fun h => absurd rfl h, fun h => absurd rfl h, fun h => absurd rfl h,
        fun h => absurd rfl h, fun hno => ?_⟩ (fun _ h => absurd rfl h) trivial
      simp [hp.irq hno]
    · have hstill : ¬p.dev.opnCnt - 1 = 0 := by omega
      simp only [dwIicClose, if_neg hzero, if_neg hstill]
      exact .keeps (hp.withCnt hzero) (fun h => h.withCnt hzero) trivial

theorem open_decides (hp : p.Inv hw) {mode param : Word} {ercd : Int}
    (h : dwIicOpen hw p mode param = .ok (ercd, p')) :
    Trace.Decides (Inv hw) (RegsOk hw) p p' ((IicOp.opened mode param).SettingsOk hw p) := by
  have hsame : (IicOp.opened mode param).SettingsOk hw p → Trace.Decides (Inv hw) (RegsOk hw) p p
      ((IicOp.opened mode param).SettingsOk hw p) := .keeps hp id
  simp only [dwIicOpen] at h
  split at h
  case h_1 hmode =>
    cases h
    exact hsame fun _ m hm => absurd (hmode.symm.trans hm) (by simp)
  case h_2 m hmode =>
    have honly : ∀ m', DevMode.ofWord mode = some m' → m' = m :=
      fun m' hm => Option.some.inj (hm.symm.trans hmode)
    split at h
    case h_1 err haccepts =>
      cases h
      refine hsame fun _ m' hm hok => ?_
      rw [honly m' hm] at hok
      exact absurd (haccepts.symm.trans hok) (by simp)
    case h_2 haccepts =>
      split at h
      case isTrue hpos =>
        have hopen : p.dev.opnCnt ≠ 0 := by omega
        have hclosed : (IicOp.opened mode param).SettingsOk hw p := fun hzero => absurd hzero hopen
        split at h <;> cases h
        · exact hsame hclosed
        · exact .keeps (hp.withCnt hopen) (fun h => h.withCnt hopen) hclosed
      case isFalse hzero =>
        have hclosed : p.dev.opnCnt = 0 := by omega
        split at h <;> cases h
        refine ⟨firstOpen_inv hw hp.irq m param, fun _ => ?_⟩
        rw [firstOpen_regsOk hw hclosed]
        constructor
        · intro hok _ m' hm _
          rw [honly m' hm]
          exact hok
        · exact fun hok => hok hclosed m hmode haccepts

/-! ### Whole runs -/

/-- **A call keeps record and registers in agreement exactly if** it keeps to what it has to. -/
theorem iicPortStep_decides {op : IicOp} (hp : p.Inv hw) (h : iicPortStep hw env p op = .ok p') :
    Trace.Decides (Inv hw) (RegsOk hw) p p' (op.SettingsOk hw p) := by
  have hsteady : Steady hw p p' → op.SettingsOk hw p →
      Trace.Decides (Inv hw) (RegsOk hw) p p' (op.SettingsOk hw p) :=
    fun hs => .keeps (hs.inv hp) hs.regsOk_iff.mpr
  cases op with try cases h
  | opened mode param =>
    obtain ⟨⟨ercd, q⟩, hok, rfl⟩ := Except.exists_of_map_eq_ok h
    exact open_decides hp hok
  | close => exact close_decides env hp
  | control cmd => exact command_decides hp cmd
  | abortBegin d => exact hsteady (of_ite (.abortBegin d) (.refl p)) trivial
  | abortEnd d => exact hsteady (.abortEnd d) trivial
  | abortNothing d => exact hsteady (of_ite (.freed d) (.refl p)) trivial
  | mstServe ev => exact hsteady (of_ite (.mstServe ev) (.refl p)) trivial
  | mstCheck d ev complete => exact hsteady (of_ite (.mstCheck d ev complete) (.refl p)) trivial
  | mstEnd d => exact hsteady (.mstEnd d) trivial
  | slvRequest d => exact hsteady (of_ite (.slvRequest d) (.refl p)) trivial
  | slvCheck ev => exact hsteady (of_ite (.slvCheck ev) (.refl p)) trivial

end IicPort

/-- Over any sequence of calls and interrupts, the registers of an open device agree with what is
recorded **exactly if** no device is opened in ten bit mode, or set to it, that the driver cannot
set it in, or whose target address is dynamic when it is opened, and none is opened as a slave with
an address of more than ten bits. -/
theorem iic_settings_iff {ops : List IicOp} (hclosed : p.Closed)
    (h : Trace.Runs (iicPortStep hw env) (fun _ _ => True) p ops p') :
    Trace.Always (iicPortStep hw env) (IicPort.RegsOk hw) p ops p' ↔
      Trace.Runs (iicPortStep hw env) (fun p op => op.SettingsOk hw p) p ops p' :=
  h.always_iff_of_decides (fun _ _ _ => IicPort.iicPortStep_decides) hclosed.inv
    (fun hopen => absurd hclosed.opnCnt hopen)

/-- A controller for both modes, with the driver as it is built by default. -/
def iicBoard : IicHw where
  icClkhz := 50000000
  supportModes := 3
  hasIntno := true
  compParam1 := 0x0F0F00
  dynamicTar := false
  mst10Bit := true
  slv10Bit := false
  allowRestart := true
  specialStartByte := false

def iicFresh : IicPort where
  dev :=
    { opnCnt := 0, status := 0, curState := .free, stop := true, txBuf := .cleared
      rxBuf := .cleared, cmdOfs := 0, cmdLen := 0, mask := 0, txInt := false, rxInt := false
      gint := false, ram := fun _ => 0, mem := fun _ => 0 }
  errState := .none
  cbs := .cleared
  txOver := 0
  rxOver := 0
  mode := .master
  speedMode := 0
  addrMode := iic7BitAddress
  tarAddr := 0
  slvAddr := 0
  txFifoLen := 0
  rxFifoLen := 0
  regs := { con := 0, tar := 0, sar := 0 }
  irq := false
  calls := []

theorem iicFresh_closed : iicFresh.Closed := ⟨rfl, rfl⟩

def iicTenBitOps : List IicOp :=
  [.opened 0 1, .control (.setTarAddr 0x55), .control (.setAddrMode 1),
    .control (.setTarAddr 0x3A5), .control (.setSpeedMode 3)]

theorem iic_settings_ten_bit :
    ∃ p', Trace.Runs (iicPortStep iicBoard fun _ p => p) (fun _ _ => True) iicFresh iicTenBitOps
        p' ∧
      Trace.Always (iicPortStep iicBoard fun _ p => p) (IicPort.RegsOk iicBoard) iicFresh
        iicTenBitOps p' ∧
      p'.regs = { con := 0x77, tar := 0x3A5, sar := 0 } := by
  have hopen : (IicOp.opened 0 1).SettingsOk iicBoard iicFresh := by
    intro _ m _ _
    cases m with
    | master => exact ⟨fun hten => absurd rfl hten, fun hten => absurd rfl hten⟩
    | slave => exact ⟨fun hten => absurd rfl hten, by decide⟩
  have hok : Trace.Runs (iicPortStep iicBoard fun _ p => p) (fun p op => op.SettingsOk iicBoard p)
      iicFresh iicTenBitOps _ :=
    .cons hopen rfl (.cons trivial rfl (.cons (fun _ _ => rfl) rfl (.cons trivial rfl
      (.cons trivial rfl (.nil _)))))
  exact ⟨_, hok.any, (iic_settings_iff iicFresh_closed hok.any).mpr hok, by decide⟩

/-- A slave takes the address it is opened with, of which its register holds ten bits. -/
theorem iic_slave_cut :
    ∃ p', Trace.Runs (iicPortStep iicBoard fun _ p => p) (fun _ _ => True) iicFresh
        [.opened 1 0x512] p' ∧
      p'.slvAddr = 0x512 ∧ p'.regs.sar = 0x112 ∧ ¬p'.RegsOk iicBoard := by
  refine ⟨_, .cons trivial rfl (.nil _), by decide, by decide, fun hok => ?_⟩
  exact absurd ((hok (by decide)).2 (by decide)).sar (by decide)

end Closing

end Embarc
