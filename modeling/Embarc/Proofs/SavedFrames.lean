/-
Saved frames over a run.

While an activation is suspended its frame has to stay as it was.  `FramesKept` says so for
one step and all frames of strict owners, and follows from the outcome of the step and the
order of the ledger.  `Suspends` is what a run carries along from the step that suspended an
activation; when it is resumed from such a state, its registers are what they were.
-/
import Embarc.Proofs.Startup

namespace Embarc

open Nest (Layout Ledger Kind)

/-- What executing may not do: raise the stack pointer above where the activation began, and
write to frames the runtime has saved.  The frames of other containers are protected by the
MPU, and those of a container's own are above its stack pointer. -/
structure ExecOK (b : Build) (m : Machine) (cpu : Cpu) (mem : Addr → Word) : Prop where
  sp_le : cpu.sp ≤ m.act.base
  frames : ∀ q < m.st.stackPtr, ∀ a, (m.st.stack q).srcSp ≤ a →
    a < (m.st.stack q).srcSp + arcProcessorFrameSize b → mem a = m.st.mem a

/-- A container is not on the container stack. -/
def Machine.NotSuspended (m : Machine) (d : Nat) : Prop :=
  ∀ q < m.st.stackPtr, (m.st.stack q).srcId ≠ d

/-- There is room for a frame below the stack pointer. -/
def Machine.HasRoom {b : Build} {cfgtbl : List ContainerConfig} (L : StackLayout b cfgtbl)
    (m : Machine) : Prop :=
  L.lo m.st.stackCurrId + arcProcessorFrameSize b ≤ m.cpu.sp

section
variable {b : Build} {L : Layout Nat}

variable (hL : L.size = arcProcessorFrameSize b)
include hL

theorem inFrame_exc (bot : Nat) {r : ExcReg} (hr : r ∈ intExcFrame b) :
    L.InFrame bot (bot + arcCalleeFrameSize b + excOfs b r) := by
  have hlt := excOfs_lt hr
  unfold Layout.InFrame
  rw [hL, arcProcessorFrameSize]
  omega

theorem inFrame_callee (bot : Nat) {r : CalleeReg} (hr : r ∈ calleeFrame b) :
    L.InFrame bot (bot + calleeOfs b r) := by
  have hlt := calleeOfs_lt hr
  unfold Layout.InFrame
  rw [hL, arcProcessorFrameSize]
  omega

theorem Machine.frame_eq {m : Machine} (hroom : m.ledger.Room L) :
    m.frame b = m.ledger.sp - L.size + arcCalleeFrameSize b ∧
      m.frame b - arcCalleeFrameSize b = m.ledger.sp - L.size := by
  have hsub : m.frame b - arcCalleeFrameSize b = m.ledger.sp - L.size := by
    rw [m.frame_sub, ← hL]
    rfl
  refine ⟨?_, hsub⟩
  rw [← hsub, Nat.sub_add_cancel (Machine.frame_room hL hroom).1]

end

/-! ### One step -/

variable {cpu : Cpu} {hw : Hw} {mem : Addr → Word} {call : Word → ContainerCall}

/-- Entries that stay on the container stack are the same, and so are the frames of strict owners. -/
def FramesKept (L : Layout Nat) (strict : Nat → Prop) (m m' : Machine) : Prop :=
  ∀ q, q < m.ledger.depth → q < m'.ledger.depth → m'.ledger.susp q = m.ledger.susp q ∧
    (strict (m.ledger.susp q).owner → ∀ a, L.InFrame (m.ledger.susp q).bot a →
      m'.st.mem a = m.st.mem a)

section
variable {b : Build} {L : Layout Nat} {strict : Nat → Prop} {skip : ExcReg → Bool}
  {m m' : Machine} {k : Kind} {d args : Nat} {r : Addr}

theorem ExecOK.ledger_ok (h : ExecOK b m cpu mem) (hok : m.ledger.OK L strict) :
    (m.exec cpu hw mem call).ledger.OK L strict :=
  hok.run h.sp_le

theorem ExecOK.kept (hL : L.size = arcProcessorFrameSize b) (h : ExecOK b m cpu mem) :
    FramesKept L strict m (m.exec cpu hw mem call) := by
  intro q hq _
  refine ⟨rfl, ?_⟩
  rintro - a ⟨hlo, hhi⟩
  exact h.frames q hq a hlo (hL ▸ hhi)

theorem Stayed.ledger_ok (h : Stayed b L m m') (hok : m.ledger.OK L strict) :
    m'.ledger.OK L strict := h.ledger ▸ hok

variable (hL : L.size = arcProcessorFrameSize b) (hok : m.ledger.OK L strict)
  (hroom : m.ledger.Room L)
include hok hroom

theorem Entered.ledger_ok (h : Entered b L skip m m' k d args) (hd : L.known d)
    (hcall : k = .call → d ≠ m.st.stackCurrId)
    (hstrict : k = .call → strict d → m.NotSuspended d) : m'.ledger.OK L strict :=
  h.ledger ▸ hok.enter hroom hd hcall hstrict

/-- A return from a call leaves room for the frame of the next one. -/
theorem Resumed.ledger_ok_call (h : Resumed b L skip m m' k (m.cpu.sp - L.size)) :
    m'.ledger.OK L strict := by
  have hhi := hok.sp_hi
  unfold Ledger.Room at hroom
  rw [h.ledger]
  refine hok.leave h.depth (Nat.le_sub_of_add_le hroom) ?_ (Nat.sub_le _ _)
  show m.ledger.sp - L.size + L.size ≤ L.hi m.ledger.cur
  omega

/-- A return from an interrupt gives back all it was entered with. -/
theorem Resumed.ledger_ok_irq (h : Resumed b L skip m m' k m.cpu.sp) (hkind : m.act.kind = .irq) :
    m'.ledger.OK L strict := by
  have hsp := hok.sp_le
  have hfits := hok.fits
  have hkind : m.ledger.act.kind = .irq := hkind
  rw [Layout.Fits, hkind] at hfits
  rw [h.ledger]
  refine hok.leave h.depth (Nat.le_trans (Nat.le_add_right _ _) hroom) ?_ (Nat.le_refl _)
  exact Nat.le_trans (Nat.add_le_add_right hsp _) hfits

include hL

/-- The frame an entry saves is none of those saved before. -/
theorem own_frame_apart {q : Nat} (hq : q < m.ledger.depth) (hs : strict (m.ledger.susp q).owner)
    {a : Addr} (ha : L.InFrame (m.ledger.susp q).bot a) :
    ¬ L.InFrame (m.frame b - arcCalleeFrameSize b) a := by
  rw [m.frame_sub, ← hL]
  exact fun hown => hok.own_apart hroom hq hs hown ha

theorem Stayed.kept (h : Stayed b L m m') : FramesKept L strict m m' := by
  intro q hq _
  refine ⟨by rw [h.ledger], ?_⟩
  intro hs a ha
  exact h.mem a (own_frame_apart hL hok hroom hq hs ha)

theorem Entered.kept (h : Entered b L skip m m' k d args) (hd : L.known d)
    (hcall : k = .call → d ≠ m.st.stackCurrId)
    (hstrict : k = .call → strict d → m.NotSuspended d) : FramesKept L strict m m' := by
  intro q hq _
  refine ⟨by rw [h.ledger]; exact Ledger.enter_susp_of_lt hq, ?_⟩
  intro hs a ha
  refine h.mem a (own_frame_apart hL hok hroom hq hs ha) ?_
  intro hk hcalled
  by_cases hother : (m.ledger.susp q).owner = d
  · exact hstrict hk (hother ▸ hs) q hq hother
  · exact hok.call_apart hd (hcall hk) hq hother hcalled ha

/-- The frame that is loaded is not among those that stay, and it is the only other frame
written to. -/
theorem Resumed.kept (h : Resumed b L skip m m' k r) : FramesKept L strict m m' := by
  intro q hq hq'
  have hlast : m.ledger.depth - 1 < m.ledger.depth := Nat.sub_one_lt h.depth
  have hlt : q < m.ledger.depth - 1 := by
    rw [h.ledger] at hq'
    exact hq'
  refine ⟨by rw [h.ledger]; rfl, ?_⟩
  intro hs a ha
  refine h.mem a (own_frame_apart hL hok hroom hq hs ha) ?_
  rintro - rfl
  exact hok.frames_apart hlt hlast hs (inFrame_exc hL _ (mem_intExcFrame (by decide))) ha

end

/-! ### A suspended activation -/

/-- What was running in `m₀` is suspended in `m`, with `saved` in its frame. -/
structure Suspends (b : Build) (L : Layout Nat) (skip : ExcReg → Bool) (m₀ : Machine)
    (saved : ExcReg → Word) (m : Machine) : Prop where
  room : m₀.ledger.Room L
  entry : m.ledger.susp m₀.ledger.depth =
    ⟨m₀.ledger.cur, m₀.ledger.sp - L.size, m₀.ledger.act⟩
  exc : ∀ r ∈ intExcFrame b, skip r = false → m.st.exc b (m₀.frame b) r = saved r
  callee : ∀ r ∈ calleeFrame b, m.st.calleeAt b (m₀.frame b - arcCalleeFrameSize b) r =
    calleeValue m₀.st.hw m₀.cpu r

/-- What was running in `m₀` is running again, with what was saved apart from the result of a
call. -/
structure RunsAgain (b : Build) (skip : ExcReg → Bool) (m₀ : Machine) (saved : ExcReg → Word)
    (m : Machine) (k : Kind) : Prop where
  curr : m.st.stackCurrId = m₀.st.stackCurrId
  sp : m.cpu.sp = m₀.cpu.sp
  exc : ∀ r ∈ intExcFrame b, skip r = false → (k = .call → r ≠ .r0) → m.cpu.exc r = saved r
  callee : ∀ r ∈ calleeFrame b, calleeValue m.st.hw m.cpu r = calleeValue m₀.st.hw m₀.cpu r

section
variable {b : Build} {L : Layout Nat} {strict : Nat → Prop} {skip skip' : ExcReg → Bool}
  {m₀ m m' : Machine} {saved : ExcReg → Word} {k : Kind} {d args : Nat} {r : Addr}

theorem Entered.suspends (h : Entered b L skip m m' k d args) (hroom : m.ledger.Room L)
    (hexc : ∀ r ∈ intExcFrame b, skip' r = false → m'.st.exc b (m.frame b) r = saved r) :
    Suspends b L skip' m saved m' where
  room := hroom
  entry := by
    rw [h.ledger]
    exact Function.update_self ..
  exc := hexc
  callee := h.callee

theorem Suspends.kept (hL : L.size = arcProcessorFrameSize b) (h : Suspends b L skip m₀ saved m)
    (hkept : FramesKept L strict m m') (hstrict : strict m₀.ledger.cur)
    (hdepth : m₀.ledger.depth < m.ledger.depth) (hdepth' : m₀.ledger.depth < m'.ledger.depth) :
    Suspends b L skip m₀ saved m' := by
  obtain ⟨hentry, hmem⟩ := hkept _ hdepth hdepth'
  obtain ⟨hframe, hcallee⟩ := Machine.frame_eq hL h.room
  rw [h.entry] at hentry hmem
  refine ⟨h.room, hentry, ?_, ?_⟩
  · intro r hr hs
    rw [← h.exc r hr hs]
    refine hmem hstrict _ ?_
    rw [hframe]
    exact inFrame_exc hL _ hr
  · intro r hr
    rw [← h.callee r hr]
    refine hmem hstrict _ ?_
    rw [hcallee]
    exact inFrame_callee hL _ hr

/-- **An activation that is resumed from its frame runs as it did.** -/
theorem Suspends.runsAgain (hL : L.size = arcProcessorFrameSize b) (h : Suspends b L skip m₀ saved m)
    (hres : Resumed b L skip' m m' k r) (hlast : m.ledger.depth = m₀.ledger.depth + 1)
    (hok : m.ledger.OK L strict) (hroom : m.ledger.Room L) (hstrict : strict m₀.ledger.cur)
    (hskip : ∀ r, skip r = false → skip' r = false) : RunsAgain b skip m₀ saved m' k := by
  obtain ⟨hframe, hcallee⟩ := Machine.frame_eq hL h.room
  have hptr : m.ledger.depth - 1 = m₀.ledger.depth := by omega
  have hlt : m₀.ledger.depth < m.ledger.depth := by omega
  have hbot : m.lastFrame = m₀.ledger.sp - L.size := by
    have : m.lastFrame = (m.ledger.susp (m.ledger.depth - 1)).bot := rfl
    rw [this, hptr, h.entry]
  have hleave : m'.ledger = m.ledger.leave L r := hres.ledger
  have howner : strict (m.ledger.susp m₀.ledger.depth).owner := by
    rw [h.entry]
    exact hstrict
  -- the frame is not the one the resuming entry has saved
  have happart : ∀ a, L.InFrame (m₀.ledger.sp - L.size) a →
      ¬ L.InFrame (m.frame b - arcCalleeFrameSize b) a := by
    intro a ha
    refine own_frame_apart hL hok hroom hlt howner ?_
    rw [h.entry]
    exact ha
  refine ⟨?_, ?_, ?_, ?_⟩
  · have hcur : m'.ledger.cur = (m.ledger.susp (m.ledger.depth - 1)).owner := by rw [hleave]; rfl
    rw [hptr, h.entry] at hcur
    exact hcur
  · have hsp : m'.ledger.sp = (m.ledger.susp (m.ledger.depth - 1)).bot + L.size := by
      rw [hleave]
      rfl
    have hroom₀ := h.room
    rw [hptr, h.entry] at hsp
    refine hsp.trans (Nat.sub_add_cancel ?_)
    exact Nat.le_trans (Nat.le_add_left _ _) hroom₀
  · intro r hr hs hr0
    rw [hres.exc r hr (hskip r hs), ← h.exc r hr hs, hframe, hbot]
    refine hres.mem _ (happart _ (inFrame_exc hL _ hr)) ?_
    intro hk heq
    rw [hbot] at heq
    exact excOfs_ne hr (hr0 hk) (Nat.add_left_cancel heq)
  · intro r hr
    rw [hres.callee r hr, ← h.callee r hr, hcallee, hbot]
    refine hres.mem _ (happart _ (inFrame_callee hL _ hr)) ?_
    intro _ heq
    have hlt := calleeOfs_lt hr
    rw [hbot, Nat.add_assoc] at heq
    have := Nat.add_left_cancel heq
    omega

end

end Embarc
