/-
The target address of the subsystem's IIC master, and its copy.

A command that asks for the address in the copy writes nothing.  Once a target address has been
asked for and set, register and copy agree until the device is closed or reset, which leaves the
register at 0x55 and the copy as it was.  So what matters is the first address that is asked for
after that, or ever: if it is the one in the copy, it has to be the one that the register was left
at.
-/
import Embarc.Lib.Run
import Embarc.Subsystem.SsIicMaster

namespace Embarc

/-! ### The first address asked for -/

/-- A device with its history: what I2C_TAR was left at, if no target address has been asked for
since. -/
structure SsIicRun where
  dev : SsIic
  left : Option Word

/-- Closing and resetting leave the register at 0x55. -/
def SsIicRun.leftBy (s : SsIicRun) : SsIicOp → Option Word
  | .close => if s.dev.opnCnt = 0 then s.left else some 0x55
  | .control .reset => some 0x55
  | .control (.setTarAddr _) => if s.dev.opnCnt = 0 then s.left else none
  | _ => s.left

def ssIicRunStep (hw : SsIicHw) (s : SsIicRun) (op : SsIicOp) : Except I2cStop SsIicRun :=
  (ssIicStep hw s.dev op).map fun dev => { dev, left := s.leftBy op }

/-- A command for a target address that succeeds on an open device has set it. -/
def SsIicOp.SetsTarget (hw : SsIicHw) (s : SsIicRun) : SsIicOp → Prop
  | .control (.setTarAddr val) => s.dev.opnCnt ≠ 0 → ∀ answer p,
      ssIicMasterControl hw s.dev (.setTarAddr val) = .ok (answer, p) → answer.ercd = eOk →
        p.io.regs.tar = p.addr val
  | _ => True

/-- The first target address asked for is not the one in the copy, unless the register was left
at it. -/
def SsIicOp.FirstTargetOk (s : SsIicRun) : SsIicOp → Prop
  | .control (.setTarAddr val) => s.dev.opnCnt ≠ 0 → ∀ r, s.left = some r →
      s.dev.addr val = s.dev.tarAddr → s.dev.addr val = r
  | _ => True

variable {cmd : I2cIoctl} {val : Word} {ercd : Int} {answer : DevAnswer} {p : SsIic} {op : SsIicOp}

/-! ### What the calls do to register and copy -/

namespace SsIic

variable {hw : SsIicHw} {p p' : SsIic}

/-- Register and copy are what they were, and so is whether the device is open, here and below. -/
structure Kept (p p' : SsIic) : Prop where
  tar : p'.io.regs.tar = p.io.regs.tar
  tarAddr : p'.tarAddr = p.tarAddr
  opnCnt : p'.opnCnt = p.opnCnt
  handle : p'.io.handle = p.io.handle

theorem Kept.refl (p : SsIic) : p.Kept p := ⟨rfl, rfl, rfl, rfl⟩

theorem Kept.trans {p'' : SsIic} (h : p.Kept p') (h' : p'.Kept p'') : p.Kept p'' :=
  ⟨h'.tar.trans h.tar, h'.tarAddr.trans h.tarAddr, h'.opnCnt.trans h.opnCnt,
    h'.handle.trans h.handle⟩

theorem ioctl_ok (h : p.ioctl cmd = .ok p') :
    p.io.handle = true ∧ p' = { p with io := p.io.ioctl cmd } := by
  obtain ⟨io, hio, rfl⟩ := Except.exists_of_map_eq_ok h
  obtain ⟨hhandle, rfl⟩ := Except.of_guard hio
  exact ⟨hhandle, rfl⟩

theorem Kept.ioctl (h : p.ioctl cmd = .ok p') (hcmd : ∀ arg, cmd ≠ .setTargetAddr arg) :
    p.Kept p' := by
  obtain ⟨-, rfl⟩ := ioctl_ok h
  cases cmd with
  | setTargetAddr arg => exact absurd rfl (hcmd arg)
  | _ => exact ⟨rfl, rfl, rfl, rfl⟩

theorem Kept.setSpeed (h : p.setSpeed val = .ok p') : p.Kept p' := by
  simp only [SsIic.setSpeed] at h
  split at h
  all_goals
    obtain ⟨q, hq, rfl⟩ := Except.exists_of_map_eq_ok h
    exact (Kept.ioctl hq fun _ => nofun).trans ⟨rfl, rfl, rfl, rfl⟩

theorem ioOpen_tar (hw : I2cHw) (s : I2cDev) : (ioI2cMasterOpen hw s).2.regs.tar = s.regs.tar := by
  simp only [ioI2cMasterOpen]
  split <;> rfl

theorem open_cases {param : Word} (h : ssIicMasterOpen hw p param = .ok (ercd, p')) :
    p.Kept p' ∨ p.opnCnt = 0 ∧ p'.opnCnt ≠ 0 ∧ p'.io.regs.tar = p.io.regs.tar := by
  simp only [ssIicMasterOpen] at h
  split at h
  · cases h
    exact Or.inl (.refl p)
  split at h
  · rename_i hclosed
    split at h
    · rename_i hret
      cases h
      refine Or.inl ⟨ioOpen_tar hw.toI2cHw p.io, rfl, rfl, ?_⟩
      simp only [ioI2cMasterOpen] at hret ⊢
      split at hret
      · rename_i hfail
        rw [if_pos hfail]
      · exact absurd rfl hret
    · simp only [Except.bind_eq_ok_iff] at h
      obtain ⟨p₁, h₁, p₂, h₂, p₃, h₃, p₄, h₄, hend⟩ := h
      cases hend
      have hkept := ((Kept.setSpeed h₁).trans (.ioctl h₂ fun _ => nofun)).trans
        ((Kept.ioctl h₃ fun _ => nofun).trans (.ioctl h₄ fun _ => nofun))
      exact Or.inr ⟨hclosed, Nat.succ_ne_zero _, hkept.tar.trans (ioOpen_tar hw.toI2cHw p.io)⟩
  · cases h
    exact Or.inl (.refl p)

theorem close_cases (h : ssIicMasterClose p = .ok (ercd, p')) :
    (p.opnCnt = 0 ∧ p' = p) ∨
      (p.opnCnt ≠ 0 ∧ p'.io.handle = false ∧ p'.io.regs.tar = 0x55) := by
  simp only [ssIicMasterClose] at h
  split_ifs at h with hopen
  · obtain ⟨io, hio, heq⟩ := Except.exists_of_map_eq_ok h
    cases heq
    obtain ⟨-, rfl⟩ := Except.of_guard hio
    exact Or.inr ⟨by omega, rfl, rfl⟩
  · cases h
    exact Or.inl ⟨by omega, rfl⟩

/-- Only a device that is open below can be reset. -/
theorem reset_spec (h : ssIicMasterResetDevice hw p = .ok p') :
    p.io.handle = true ∧ p'.io.regs.tar = 0x55 ∧ p'.opnCnt = p.opnCnt := by
  obtain ⟨io, hio, rfl⟩ := Except.exists_of_map_eq_ok h
  obtain ⟨hhandle, rfl⟩ := Except.of_guard hio
  exact ⟨hhandle, ioOpen_tar hw.toI2cHw p.io.closed, rfl⟩

theorem setTarAddr_cases (h : ssIicMasterControl hw p (.setTarAddr val) = .ok (answer, p')) :
    answer = .code eOk ∧
      (p.addr val ≠ p.tarAddr ∧ p.io.handle = true ∧
          p' = { p with io := p.io.ioctl (.setTargetAddr (p.addr val)), tarAddr := p.addr val } ∨
        p.addr val = p.tarAddr ∧ p' = p) := by
  simp only [ssIicMasterControl] at h
  split_ifs at h with hne
  · obtain ⟨q, hq, heq⟩ := Except.exists_of_map_eq_ok h
    obtain ⟨hhandle, rfl⟩ := ioctl_ok hq
    cases heq
    exact ⟨rfl, Or.inl ⟨hne, hhandle, rfl⟩⟩
  · cases h
    exact ⟨rfl, Or.inr ⟨not_not.mp hne, rfl⟩⟩

theorem Kept.control {cmd : SsIicCmd} (h : ssIicMasterControl hw p cmd = .ok (answer, p'))
    (hreset : cmd ≠ .reset) (htarget : ∀ val, cmd ≠ .setTarAddr val) : p.Kept p' := by
  cases cmd with try simp only [ssIicMasterControl] at h
  | reset => exact absurd rfl hreset
  | setTarAddr val => exact absurd rfl (htarget val)
  | getStatus | flushTx | flushRx | getRxavail | getTxavail | abort | setIntBuf | unknown =>
    cases h
    exact .refl p
  | enaDev =>
    cases h
    simp only [ssIicMasterEnableDevice]
    split
    · exact ⟨rfl, rfl, rfl, rfl⟩
    · exact .refl p
  | disDev | setInt =>
    cases h
    exact ⟨rfl, rfl, rfl, rfl⟩
  | setAddrMode val =>
    split at h
    · obtain ⟨q, hq, heq⟩ := Except.exists_of_map_eq_ok h
      cases heq
      exact (Kept.ioctl hq fun _ => nofun).trans ⟨rfl, rfl, rfl, rfl⟩
    · cases h
      exact .refl p
  | setCb which param =>
    split at h
    · cases h
      exact .refl p
    · obtain ⟨q, hq, heq⟩ := Except.exists_of_map_eq_ok h
      cases heq
      exact .ioctl hq fun _ => nofun
  | setSpeedMode val =>
    split at h
    · cases h
      exact .refl p
    · obtain ⟨q, hq, heq⟩ := Except.exists_of_map_eq_ok h
      cases heq
      exact .setSpeed hq
  | setNextCond val =>
    obtain ⟨q, hq, heq⟩ := Except.exists_of_map_eq_ok h
    cases heq
    exact .ioctl hq fun _ => nofun

end SsIic

/-! ### Whole runs -/

section Runs

variable {hw : SsIicHw} {s s' : SsIicRun}

/-- As long as no command has failed to set an address: the register is where it was left, or
holds what the copy holds.  A device that is closed is closed below. -/
structure SsIicRun.Inv (s : SsIicRun) : Prop where
  closed : s.dev.opnCnt = 0 → s.dev.io.handle = false
  fresh : ∀ r, s.left = some r → s.dev.io.regs.tar = r
  asked : s.left = none → s.dev.opnCnt ≠ 0 ∧ s.dev.io.regs.tar = s.dev.tarAddr

theorem SsIicRun.Inv.of_kept (hs : s.Inv) (h : s.dev.Kept p) : (⟨p, s.left⟩ : SsIicRun).Inv := by
  refine ⟨fun hzero => ?_, fun r hr => ?_, fun hnone => ?_⟩
  · exact h.handle.trans (hs.closed (h.opnCnt.symm.trans hzero))
  · exact h.tar.trans (hs.fresh r hr)
  · obtain ⟨hopen, htar⟩ := hs.asked hnone
    exact ⟨fun hzero => hopen (h.opnCnt.symm.trans hzero), by rw [h.tar, h.tarAddr, htar]⟩

theorem SsIicRun.Inv.of_left {r : Word} (hclosed : p.opnCnt = 0 → p.io.handle = false)
    (h : p.io.regs.tar = r) : (⟨p, some r⟩ : SsIicRun).Inv :=
  ⟨hclosed, fun _ hr => h.trans (Option.some.inj hr), nofun⟩

theorem ssIicRunStep_inv (hs : s.Inv) (hsets : op.SetsTarget hw s)
    (h : ssIicRunStep hw s op = .ok s') : s'.Inv := by
  obtain ⟨p, hp, rfl⟩ := Except.exists_of_map_eq_ok h
  cases op with
  | opened param =>
    obtain ⟨⟨ercd, q⟩, hopen, rfl⟩ := Except.exists_of_map_eq_ok hp
    obtain hkept | ⟨hzero, hopened, htar⟩ := SsIic.open_cases hopen
    · exact hs.of_kept hkept
    · cases hleft : s.left with
      | none => exact absurd hzero (hs.asked hleft).1
      | some r =>
        simp only [SsIicRun.leftBy, hleft]
        exact .of_left (fun hzero' => absurd hzero' hopened) (htar.trans (hs.fresh r hleft))
  | close =>
    obtain ⟨⟨ercd, q⟩, hclose, rfl⟩ := Except.exists_of_map_eq_ok hp
    obtain ⟨hzero, rfl⟩ | ⟨hopen, hhandle, htar⟩ := SsIic.close_cases hclose
    · simp only [SsIicRun.leftBy, if_pos hzero]
      exact hs
    · simp only [SsIicRun.leftBy, if_neg hopen]
      exact .of_left (fun _ => hhandle) htar
  | control cmd =>
    obtain ⟨⟨answer, q⟩, hcontrol, rfl⟩ := Except.exists_of_map_eq_ok hp
    by_cases hreset : cmd = .reset
    · subst hreset
      obtain ⟨q', hq, heq⟩ := Except.exists_of_map_eq_ok hcontrol
      cases heq
      obtain ⟨hhandle, htar, hcnt⟩ := SsIic.reset_spec hq
      refine .of_left (fun hzero => ?_) htar
      exact absurd (hs.closed (hcnt.symm.trans hzero)) (by simp [hhandle])
    by_cases htarget : ∃ val, cmd = .setTarAddr val
    · obtain ⟨val, rfl⟩ := htarget
      obtain ⟨rfl, hcases⟩ := SsIic.setTarAddr_cases hcontrol
      by_cases hzero : s.dev.opnCnt = 0
      · simp only [SsIicRun.leftBy, if_pos hzero]
        obtain ⟨-, hhandle, -⟩ | ⟨-, rfl⟩ := hcases
        · exact absurd (hs.closed hzero) (by simp [hhandle])
        · exact hs
      · have hset := hsets hzero _ q hcontrol rfl
        simp only [SsIicRun.leftBy, if_neg hzero]
        obtain ⟨-, -, rfl⟩ | ⟨heq, rfl⟩ := hcases
        · exact ⟨fun hzero' => absurd hzero' hzero, nofun, fun _ => ⟨hzero, rfl⟩⟩
        · exact ⟨fun hzero' => absurd hzero' hzero, nofun, fun _ => ⟨hzero, hset.trans heq⟩⟩
    · have hkept := SsIic.Kept.control hcontrol hreset fun val heq => htarget ⟨val, heq⟩
      have hleft : s.leftBy (.control cmd) = s.left := by
        cases cmd with
        | reset => exact absurd rfl hreset
        | setTarAddr val => exact absurd ⟨val, rfl⟩ htarget
        | _ => rfl
      rw [hleft]
      exact hs.of_kept hkept

/-- **A command for a target address sets it exactly if** it is not the first, or asks for another
one than the copy holds or for the one the register was left at. -/
theorem setsTarget_iff (hs : s.Inv) (h : ssIicRunStep hw s op = .ok s') :
    op.SetsTarget hw s ↔ op.FirstTargetOk s := by
  cases op with
  | opened param => exact Iff.rfl
  | close => exact Iff.rfl
  | control cmd =>
    cases cmd with
    | setTarAddr val =>
      obtain ⟨p, hp, -⟩ := Except.exists_of_map_eq_ok h
      obtain ⟨⟨answer, q⟩, hcontrol, -⟩ := Except.exists_of_map_eq_ok hp
      obtain ⟨rfl, ⟨hne, -, rfl⟩ | ⟨heq, rfl⟩⟩ := SsIic.setTarAddr_cases hcontrol
      · refine iff_of_true ?_ fun _ _ _ heq => absurd heq hne
        intro _ answer q hok _
        cases hcontrol.symm.trans hok
        rfl
      · constructor
        · intro hsets hopen r hr _
          exact (hsets hopen _ _ hcontrol rfl).symm.trans (hs.fresh r hr)
        · intro hfirst hopen answer q hok _
          cases hcontrol.symm.trans hok
          cases hleft : s.left with
          | none => exact (hs.asked hleft).2.trans heq.symm
          | some r => exact (hs.fresh r hleft).trans (hfirst hopen r hleft heq).symm
    | _ => exact Iff.rfl

/-- Over any sequence of calls that begins with the device closed, every command for a target
address that succeeds on the open device sets I2C_TAR **exactly if** none of them, being the first
since the device was last closed or reset, or the first at all, asks for the address in the copy
with the register left at another one. -/
theorem ss_iic_target_iff {p : SsIic} {ops : List SsIicOp} (hclosed : p.io.handle = false) :
    Trace.Runs (ssIicRunStep hw) (fun s op => op.SetsTarget hw s) ⟨p, some p.io.regs.tar⟩ ops s' ↔
      Trace.Runs (ssIicRunStep hw) (fun s op => op.FirstTargetOk s) ⟨p, some p.io.regs.tar⟩ ops
        s' :=
  Trace.Runs.congr (fun _ _ _ hs hsets hstep => ssIicRunStep_inv hs hsets hstep)
    (fun _ _ _ hs hstep => setsTarget_iff hs hstep)
    (SsIicRun.Inv.of_left (fun _ => hclosed) rfl)

/-! ### A device that is reset -/

def ssIicSampleHw : SsIicHw := { present := true, fifoDepth := 16, intEnable := true }

def ssIicSample : SsIic where
  io := .fresh
  opnCnt := 0
  status := 0
  speedMode := iicSpeedStandard
  addrMode := iic7BitAddress
  tarAddr := 0
  intCbs := .cleared

def ssIicOtherTarget : List SsIicOp :=
  [.opened iicSpeedStandard, .control (.setTarAddr 0x20), .control .reset,
    .control (.setTarAddr 0x21), .control (.setTarAddr 0x21)]

theorem ss_iic_target_other :
    ∃ s', Trace.Runs (ssIicRunStep ssIicSampleHw) (fun s op => op.SetsTarget ssIicSampleHw s)
        ⟨ssIicSample, some 0x55⟩ ssIicOtherTarget s' ∧
      s'.dev.opnCnt = 1 ∧ s'.dev.io.regs.tar = 0x21 := by
  refine ⟨_, (ss_iic_target_iff rfl).mpr (.cons trivial rfl (.cons ?_ rfl (.cons trivial rfl
    (.cons ?_ rfl (.cons ?_ rfl (.nil _)))))), rfl, rfl⟩
  · exact fun _ _ _ hcopy => absurd hcopy (by decide)
  · exact fun _ _ _ hcopy => absurd hcopy (by decide)
  · intro _ r hleft
    have hnone : none = some r := hleft
    cases hnone

/-- The same target is asked for before and after a reset.  The second time nothing is written, and
the register is left at 0x55. -/
theorem ss_iic_target_lost :
    ∃ s', Trace.Runs (ssIicRunStep ssIicSampleHw) (fun _ _ => True) ⟨ssIicSample, some 0x55⟩
        [.opened iicSpeedStandard, .control (.setTarAddr 0x20), .control .reset] s' ∧
      s'.dev.opnCnt = 1 ∧
      (∃ p, ssIicMasterControl ssIicSampleHw s'.dev (.setTarAddr 0x20) = .ok (.code eOk, p) ∧
        p.addr 0x20 = 0x20 ∧ p.io.regs.tar = 0x55) ∧
      ¬(SsIicOp.control (.setTarAddr 0x20)).SetsTarget ssIicSampleHw s' := by
  refine ⟨_, .of_follow rfl, rfl, ⟨_, rfl, rfl, rfl⟩, fun hsets => ?_⟩
  exact absurd (hsets (by decide) _ _ rfl rfl) (by decide)

end Runs

end Embarc
