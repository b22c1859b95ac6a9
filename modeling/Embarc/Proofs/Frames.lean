/-
What the frames of the runtime hold, and which memory writing them touches.

A frame is read back register by register.  Everything the entry code and the call handler
write lies in the frame they are writing; of the frame of a call that needs the arguments to
fit, because nothing else bounds the loop that copies them.
-/
import Embarc.SecureShield.Machine

namespace Embarc

/-! ### Offsets -/

section
variable {b : Build} {r r' : ExcReg}

theorem excOfs_lt (hr : r ∈ intExcFrame b) : excOfs b r < arcExcFrameSize b :=
  List.idxOf_lt_length_of_mem hr

theorem excOfs_ne (hr : r ∈ intExcFrame b) (hne : r ≠ r') : excOfs b r ≠ excOfs b r' :=
  fun h => hne (List.idxOf_inj hr |>.mp h)

theorem calleeOfs_lt {c : CalleeReg} (hc : c ∈ calleeFrame b) :
    calleeOfs b c < arcCalleeFrameSize b :=
  List.idxOf_lt_length_of_mem hc

theorem excOfs_r0_le_status : excOfs b .r0 ≤ excOfs b .status32 := by
  unfold excOfs intExcFrame lowFields gprFields loopFields
  cases b.version <;> cases b.accRegs <;> cases b.rf16 <;> cases b.codeDensity <;> decide

/-- The registers the handlers look at are part of every frame. -/
theorem mem_intExcFrame (hr : r ∈ [.erbta, .gp, .r0, .r1, .r2, .blink, .ret, .status32]) :
    r ∈ intExcFrame b := by
  have hlow : ∀ r ∈ [ExcReg.erbta, .gp], r ∈ lowFields b := by
    unfold lowFields
    cases b.accRegs <;> decide
  have hgpr : ∀ r ∈ [ExcReg.r0, .r1, .r2], r ∈ gprFields b := by
    unfold gprFields
    cases b.rf16 <;> decide
  simp only [List.mem_cons, List.not_mem_nil, or_false] at hr hlow hgpr
  unfold intExcFrame
  cases b.version <;> rcases hr with rfl | rfl | rfl | rfl | rfl | rfl | rfl | rfl <;>
    simp [hlow, hgpr]

theorem status32_mem : .status32 ∈ intExcFrame b := mem_intExcFrame (by decide)

end

/-! ### Memory within a block -/

/-- Only the addresses of a block have changed. -/
def Within (start size : Nat) (mem mem' : Addr → Word) : Prop :=
  ∀ a, ¬ (start ≤ a ∧ a < start + size) → mem' a = mem a

theorem Within.refl (start size : Nat) (mem : Addr → Word) : Within start size mem mem :=
  fun _ _ => rfl

variable {start : Nat} {mem : Addr → Word} {val reg : Word} {r : CalleeReg} {frame : Addr}

theorem Within.trans {size : Nat} {mem' mem'' : Addr → Word} (h : Within start size mem mem')
    (h' : Within start size mem' mem'') : Within start size mem mem'' :=
  fun a ha => (h' a ha).trans (h a ha)

theorem Within.mono {size start' size' : Nat} {mem' : Addr → Word} (h : Within start size mem mem')
    (hle : start' ≤ start) (hle' : start + size ≤ start' + size') : Within start' size' mem mem' :=
  fun a ha => h a fun ⟨h₁, h₂⟩ => ha ⟨by omega, by omega⟩

theorem Within.update {size a : Nat} {mem' : Addr → Word} (h : Within start size mem mem')
    (ha : start ≤ a) (ha' : a < start + size) :
    Within start size mem (Function.update mem' a val) := by
  intro x hx
  rw [Function.update_of_ne]
  · exact h x hx
  · rintro rfl
    exact hx ⟨ha, ha'⟩

theorem within_store (mem : Addr → Word) (start : Nat) (ws : List (Option Word)) :
    Within start ws.length mem (Block.store mem start ws) := by
  intro a ha
  by_cases hlt : a < start
  · exact Block.store_of_lt mem ws hlt
  · exact Block.store_of_ge mem ws (by omega)

/-! ### Saved registers -/

/-- The registers that are not one of several. -/
def Unbanked (reg : Word) : Prop :=
  reg ≠ auxIrqEnable ∧ reg ≠ auxIrqPriority ∧ reg ≠ auxIrqTrigger ∧ reg ≠ auxIrqPending

instance (reg : Word) : Decidable (Unbanked reg) :=
  inferInstanceAs (Decidable (_ ∧ _ ∧ _ ∧ _))

theorem arcAuxRead_write_self (hw : Hw) (val : Word) (hreg : Unbanked reg) :
    arcAuxRead (arcAuxWrite hw reg val) reg = val := by
  obtain ⟨h₁, h₂, h₃, h₄⟩ := hreg
  simp [arcAuxRead, arcAuxWrite, h₁, h₂, h₃, h₄]

/-- An auxiliary register keeps its value when another is written. -/
theorem arcAuxRead_write_of_ne (hw : Hw) {reg' : Word} (val : Word) (hreg : Unbanked reg)
    (hne : reg ≠ reg') : arcAuxRead (arcAuxWrite hw reg' val) reg = arcAuxRead hw reg := by
  obtain ⟨h₁, h₂, h₃, h₄⟩ := hreg
  unfold arcAuxWrite
  split_ifs <;> simp [arcAuxRead, h₁, h₂, h₃, h₄, hne]

section
variable {b : Build} {skip : ExcReg → Bool} {s : State} {cpu : Cpu} {frame : Addr}

/-- What the entry code has saved is read back from the frame. -/
theorem saveExc_exc {r : ExcReg} (hr : r ∈ intExcFrame b) (hskip : skip r = false) :
    (saveExc b skip s cpu frame).exc b frame r = cpu.exc r := by
  have hget : (intExcFrame b)[excOfs b r]? = some r := List.getElem?_idxOf hr
  refine Block.store_some s.mem _ ?_
  rw [List.getElem?_map, hget]
  simp [hskip]

theorem saveExc_within :
    Within frame (arcExcFrameSize b) s.mem (saveExc b skip s cpu frame).mem := by
  have h := within_store s.mem frame ((intExcFrame b).map fun r => if skip r then none
    else some (cpu.exc r))
  rwa [List.length_map] at h

theorem saveCallee_calleeAt (hr : r ∈ calleeFrame b) :
    (saveCallee b s cpu frame).calleeAt b frame r = calleeValue s.hw cpu r := by
  have hget : (calleeFrame b)[calleeOfs b r]? = some r := List.getElem?_idxOf hr
  refine Block.store_some s.mem _ ?_
  rw [List.getElem?_map, hget]
  rfl

theorem saveCallee_within :
    Within frame (arcCalleeFrameSize b) s.mem (saveCallee b s cpu frame).mem := by
  have h := within_store s.mem frame ((calleeFrame b).map fun r => some (calleeValue s.hw cpu r))
  rwa [List.length_map] at h

/-- Which stack pointers are saved depends on the version. -/
theorem calleeFrame_version (hr : r ∈ calleeFrame b) :
    (r = .userSp → b.version = .v1) ∧ (r = .kernelSp ∨ r = .secureKernelSp → b.version = .v2) := by
  have hsaved : ∀ r ∈ [CalleeReg.userSp, .kernelSp, .secureKernelSp], r ∉ savedFields b := by
    unfold savedFields
    cases b.rf16 <;> decide
  unfold calleeFrame at hr
  cases hv : b.version <;> rw [hv] at hr <;> refine ⟨?_, ?_⟩
  · exact fun _ => rfl
  · rintro (rfl | rfl) <;> simp_all
  · rintro rfl
    simp_all
  · exact fun _ => rfl

/-- What is restored is what the frame holds, auxiliary registers included. -/
theorem calleeValue_restoreCallee (hr : r ∈ calleeFrame b) :
    calleeValue (restoreCallee b s cpu frame).1.hw (restoreCallee b s cpu frame).2 r =
      s.calleeAt b frame r := by
  have hcallee : (restoreCallee b s cpu frame).2.callee r = s.calleeAt b frame r := if_pos hr
  obtain ⟨huser, hkernel⟩ := calleeFrame_version hr
  unfold calleeValue
  cases r with
  | userSp =>
    simp only [calleeAux, restoreCallee, huser rfl]
    exact arcAuxRead_write_self _ _ (by decide)
  | kernelSp =>
    simp only [calleeAux, restoreCallee, hkernel (Or.inl rfl)]
    exact arcAuxRead_write_self _ _ (by decide)
  | secureKernelSp =>
    simp only [calleeAux, restoreCallee, hkernel (Or.inr rfl)]
    rw [arcAuxRead_write_of_ne _ _ (by decide) (by decide)]
    exact arcAuxRead_write_self _ _ (by decide)
  | _ => exact hcallee

end

/-! ### The frame of a call -/

/-- The loop that copies arguments writes as many words as it is told to. -/
theorem copyWords_within : ∀ (n : Nat) (src dst : Addr) (mem : Addr → Word),
    Within dst n mem (copyWords n src dst mem) := by
  intro n
  induction n with
  | zero => intro src dst mem; exact Within.refl dst 0 mem
  | succ n ih =>
    intro src dst mem
    have hrest := ih (src + 1) (dst + 1) (Function.update mem dst (mem src))
    exact ((Within.refl dst (n + 1) mem).update (Nat.le_refl dst) (by omega)).trans
      (hrest.mono (by omega) (by omega))

section
variable {b : Build} {s : State} {srcFrame dstFrame srcArgs : Addr} {t : CallTarget}

theorem Within.setExc {r : ExcReg} (h : Within frame (arcExcFrameSize b) mem s.mem)
    (hr : r ∈ intExcFrame b) : Within frame (arcExcFrameSize b) mem (s.setExc b frame r val).mem :=
  h.update (Nat.le_add_right _ _) (Nat.add_lt_add_left (excOfs_lt hr) _)

theorem setExc_exc_of_ne {r r' : ExcReg} (hr : r ∈ intExcFrame b) (hne : r ≠ r') :
    (s.setExc b frame r' val).exc b frame r = s.exc b frame r := by
  refine Function.update_of_ne ?_ _ _
  exact fun heq => excOfs_ne hr hne (Nat.add_left_cancel heq)

theorem createCallRegs_within : Within (dstFrame + arcCalleeFrameSize b) (arcExcFrameSize b) s.mem
    (createCallRegs b s srcFrame dstFrame t).mem := by
  have h := Within.refl (dstFrame + arcCalleeFrameSize b) (arcExcFrameSize b) s.mem
  have herbta : ExcReg.erbta ∈ intExcFrame b := mem_intExcFrame (by decide)
  have hblink : ExcReg.blink ∈ intExcFrame b := mem_intExcFrame (by decide)
  have hret : ExcReg.ret ∈ intExcFrame b := mem_intExcFrame (by decide)
  have hgp : ExcReg.gp ∈ intExcFrame b := mem_intExcFrame (by decide)
  unfold createCallRegs
  cases b.smallData <;> cases b.version
  · exact (((h.setExc herbta).setExc hret).setExc status32_mem).setExc hblink
  · exact ((h.setExc hblink).setExc hret).setExc status32_mem
  · exact ((((h.setExc herbta).setExc hret).setExc status32_mem).setExc hblink).setExc hgp
  · exact (((h.setExc hblink).setExc hret).setExc status32_mem).setExc hgp

/-- **A call writes to the frame of its destination only**, if the arguments fit. -/
theorem createCallFrame_within (hargs : excOfs b .r0 + t.args ≤ arcExcFrameSize b) :
    Within (dstFrame + arcCalleeFrameSize b) (arcExcFrameSize b) s.mem
      (createCallFrame b s srcFrame dstFrame srcArgs t).mem := by
  have hcopy := copyWords_within t.args srcArgs (dstFrame + arcCalleeFrameSize b + excOfs b .r0)
    (createCallRegs b s srcFrame dstFrame t).mem
  exact createCallRegs_within.trans (hcopy.mono (by omega) (by omega))

/-- The callee starts with its own status, unless arguments reach it. -/
theorem createCallFrame_status (hargs : excOfs b .r0 + t.args ≤ excOfs b .status32) :
    (createCallFrame b s srcFrame dstFrame srcArgs t).exc b (dstFrame + arcCalleeFrameSize b)
      .status32 = (s.context t.dstId).cpuStatus := by
  have hregs : (createCallRegs b s srcFrame dstFrame t).exc b (dstFrame + arcCalleeFrameSize b)
      .status32 = (s.context t.dstId).cpuStatus := by
    have hset : ∀ p : State, p.context = s.context → (p.setExc b (dstFrame + arcCalleeFrameSize b)
        .status32 (p.context t.dstId).cpuStatus).exc b (dstFrame + arcCalleeFrameSize b)
        .status32 = (s.context t.dstId).cpuStatus := by
      intro p hp
      simp [State.setExc, State.exc, hp]
    unfold createCallRegs
    cases b.smallData <;> cases b.version
    · exact (setExc_exc_of_ne status32_mem (by decide)).trans (hset _ rfl)
    · exact hset _ rfl
    · exact ((setExc_exc_of_ne status32_mem (by decide)).trans
        (setExc_exc_of_ne status32_mem (by decide))).trans (hset _ rfl)
    · exact (setExc_exc_of_ne status32_mem (by decide)).trans (hset _ rfl)
  rw [← hregs]
  refine copyWords_within _ _ _ _ _ ?_
  omega

end

end Embarc
