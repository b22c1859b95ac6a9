/-
Container calls: the frame of a suspended caller.

The caller's registers are saved on its own stack and have to come back as they were, however
deep the calls nest in between.  A call makes the frame of its destination where the
destination rests; if the destination is itself suspended, that is where its registers have
been saved.  Only the direct call of a container to itself is turned down, so the result is
about runs in which no call goes to a container that is suspended.
-/
import Embarc.Proofs.SavedFrames

namespace Embarc

open Trace
open Nest (Layout Ledger Kind)

/-- The registers the entry code of a call passes over. -/
def skipSaved (b : Build) : ExcReg → Bool :=
  match b.version with
  | .v1 => skipNone
  | .v2 => skipSecStat

/-- The status of the processor.  Version 2 is entered by a jump, which leaves it in its
register. -/
def Machine.status (b : Build) (m : Machine) : Word :=
  match b.version with
  | .v1 => m.cpu.exc .status32
  | .v2 => arcAuxRead m.st.hw auxStatus32

section
variable {b : Build} {cfgtbl : List ContainerConfig} (L : StackLayout b cfgtbl)

/-- What a run of calls keeps to: there is room for a frame at every entry, and a call that is
made goes to a container that is not suspended, with arguments that fit into a frame. -/
def CallOK (m : Machine) : CallEvent → Prop
  | .exec cpu _ mem _ => ExecOK b m cpu mem
  | .callIn => m.HasRoom L ∧ ∀ t, m.asksFor b = .ok t →
      m.NotSuspended t.dstId ∧ excOfs b .r0 + t.args ≤ arcExcFrameSize b
  | .callOut => m.HasRoom L

structure CallReachable (m : Machine) : Prop where
  exists_run : ∃ hw mem call cpu m₀ es, startup b hw mem call cfgtbl cpu = .ok m₀ ∧
    Runs (callStep b) (CallOK L) m₀ es m

end

section
variable {b : Build} {cfgtbl : List ContainerConfig} {L : StackLayout b cfgtbl} {m m' : Machine}

/-! ### One step -/

structure CallsOK (L : StackLayout b cfgtbl) (m : Machine) : Prop where
  ledger : m.ledger.OK L.layout fun _ => True
  count : m.st.containerCount = cfgtbl.length

theorem CallsOK.known (hm : CallsOK L m) {d : Nat} (hd : d < m.st.containerCount) :
    L.layout.known d := by
  rw [hm.count] at hd
  exact hd

theorem callIn_outcome (hm : CallsOK L m) (hok : CallOK L m .callIn)
    (h : callStep b m .callIn = .ok m') :
    Stayed b L.layout m m' ∨ ∃ t, m.asksFor b = .ok t ∧ CallChecked m.st t ∧
      Entered b L.layout (skipSaved b) m m' .call t.dstId t.args := by
  obtain ⟨hroom, hask⟩ := hok
  have hknown := fun d hd => hm.known (d := d) hd
  have hfit := fun t ht => (hask t ht).2
  unfold callStep at h
  unfold skipSaved
  cases hv : b.version with
  | v1 =>
    rw [hv] at h
    exact trapContainerCallIn_entry rfl hm.ledger hroom hknown hv hfit h
  | v2 =>
    rw [hv] at h
    exact containerCallIn_entry rfl hm.ledger hroom hknown hv hfit h

theorem callOut_outcome (hm : CallsOK L m) (hroom : m.HasRoom L)
    (h : callStep b m .callOut = .ok m') :
    Resumed b L.layout (skipSaved b) m m' .call (m.cpu.sp - L.layout.size) ∧
      (b.version = .v2 → m'.status b = m.status b &&& ~~~auxStatusMaskIe) := by
  unfold callStep at h
  unfold skipSaved Machine.status
  cases hv : b.version with
  | v1 =>
    rw [hv] at h
    exact ⟨trapContainerCallOut_entry rfl hm.ledger hroom h, fun h2 => by cases h2⟩
  | v2 =>
    rw [hv] at h
    obtain ⟨hres, hstatus⟩ := containerCallOut_entry (L := L.layout) rfl hroom hv h
    exact ⟨hres, fun _ => hstatus⟩

/-- A step of a run keeps the ledger in order and the frames that stay. -/
theorem callStep_keeps (hm : CallsOK L m) {e : CallEvent} (hok : CallOK L m e)
    (h : callStep b m e = .ok m') :
    CallsOK L m' ∧ FramesKept L.layout (fun _ => True) m m' := by
  cases e with
  | exec cpu hw mem call =>
    cases h
    exact ⟨⟨hok.ledger_ok hm.ledger, hm.count⟩, hok.kept rfl⟩
  | callIn =>
    rcases callIn_outcome hm hok h with hstay | ⟨t, ht, hchecked, hin⟩
    · exact ⟨⟨hstay.ledger_ok hm.ledger, hstay.same.count.trans hm.count⟩,
        hstay.kept rfl hm.ledger hok.1⟩
    · have hknown := hm.known hchecked.count
      have hother := fun _ : Kind.call = .call => hchecked.other
      have hfree := fun (_ : Kind.call = .call) (_ : True) => (hok.2 t ht).1
      exact ⟨⟨hin.ledger_ok hm.ledger hok.1 hknown hother hfree, hin.count.trans hm.count⟩,
        hin.kept rfl hm.ledger hok.1 hknown hother hfree⟩
  | callOut =>
    obtain ⟨hout, -⟩ := callOut_outcome hm hok h
    exact ⟨⟨hout.ledger_ok_call hm.ledger hok, hout.count.trans hm.count⟩,
      hout.kept rfl hm.ledger hok⟩

/-! ### Runs -/

theorem CallReachable.callsOK (h : CallReachable L m) : CallsOK L m := by
  obtain ⟨hw, mem, call, cpu, m₀, es, hstart, hrun⟩ := h.exists_run
  have hstarted := startup_started hstart
  exact hrun.invariant (fun _ _ _ hm hok h => (callStep_keeps hm hok h).1)
    ⟨hstarted.ledger_ok L _, hstarted.count⟩

/-- A run that stays above the depth a caller was suspended at keeps the caller's frame. -/
theorem suspends_run {m₀ : Machine} {es : List CallEvent} (hm : CallsOK L m)
    (hs : Suspends b L.layout (skipSaved b) m₀ m₀.cpu.exc m)
    (hrun : Runs (callStep b) (fun t e => CallOK L t e ∧ m₀.st.stackPtr < t.st.stackPtr) m es m')
    (hdepth' : m₀.st.stackPtr < m'.st.stackPtr) :
    CallsOK L m' ∧ Suspends b L.layout (skipSaved b) m₀ m₀.cpu.exc m' := by
  have hinv := hrun.invariant
    (I := fun t => CallsOK L t ∧ (m₀.st.stackPtr < t.st.stackPtr →
      Suspends b L.layout (skipSaved b) m₀ m₀.cpu.exc t)) ?_ ⟨hm, fun _ => hs⟩
  · exact ⟨hinv.1, hinv.2 hdepth'⟩
  · intro t e t' ht hok h
    obtain ⟨hm', hkept⟩ := callStep_keeps ht.1 hok.1 h
    exact ⟨hm', fun hlt => (ht.2 hok.2).kept rfl hkept trivial hok.2 hlt⟩

/-- **The frame of a suspended caller is kept, and the caller runs again as it did.**  In a run
that stays above the caller, every register of its frame is what it was at the call.  The return
one above it is the matching one: it pops the caller, with its stack pointer and its registers as
they were, but for the result in r0.  The status comes back with the registers in version 1;
version 2 does not put it back, and the caller has it again if the container returns with it and
it has interrupts disabled. -/
theorem suspended_caller_kept {m₁ m₂ : Machine} {es : List CallEvent} (h : CallReachable L m)
    (hok : CallOK L m .callIn) (hin : callStep b m .callIn = .ok m₁)
    (hcall : m.st.stackPtr < m₁.st.stackPtr)
    (hrun : Runs (callStep b) (fun t e => CallOK L t e ∧ m.st.stackPtr < t.st.stackPtr) m₁ es m₂)
    (habove : m.st.stackPtr < m₂.st.stackPtr) :
    (∀ r ∈ intExcFrame b, skipSaved b r = false → m₂.st.exc b (m.frame b) r = m.cpu.exc r) ∧
    (∀ r ∈ calleeFrame b, m₂.st.calleeAt b (m.frame b - arcCalleeFrameSize b) r =
      calleeValue m.st.hw m.cpu r) ∧
    ∀ m₃, m₂.st.stackPtr = m.st.stackPtr + 1 → CallOK L m₂ .callOut →
      callStep b m₂ .callOut = .ok m₃ → m₃.st.stackPtr = m.st.stackPtr ∧
      RunsAgain b (skipSaved b) m m.cpu.exc m₃ .call ∧
        (m₃.status b = m.status b ↔
          (b.version = .v2 → m₂.status b &&& ~~~auxStatusMaskIe = m.status b)) := by
  have hm := h.callsOK
  rcases callIn_outcome hm hok hin with hstay | ⟨t, ht, hchecked, hentered⟩
  · have hptr : m₁.st.stackPtr = m.st.stackPtr := hstay.same.ptr
    omega
  · obtain ⟨hm₂, hs⟩ := suspends_run (callStep_keeps hm hok hin).1
      (hentered.suspends hok.1 hentered.exc) hrun habove
    refine ⟨hs.exc, hs.callee, ?_⟩
    intro m₃ hlast hok₂ hout
    obtain ⟨hres, hstatus⟩ := callOut_outcome hm₂ hok₂ hout
    have hback : m₃.st.stackPtr = m.st.stackPtr := by
      have hdepth : m₃.st.stackPtr = m₂.st.stackPtr - 1 := congrArg Ledger.depth hres.ledger
      rw [hdepth, hlast]
      exact Nat.add_sub_cancel ..
    have hagain := hs.runsAgain rfl hres hlast hm₂.ledger hok₂ trivial (fun _ h => h)
    refine ⟨hback, hagain, ?_⟩
    cases hv : b.version with
    | v1 =>
      have hskip : skipSaved b .status32 = false := by simp [skipSaved, hv, skipNone]
      have hexc := hagain.exc .status32 status32_mem hskip (fun _ => by decide)
      refine ⟨fun _ => nofun, fun _ => ?_⟩
      simpa [Machine.status, hv] using hexc
    | v2 =>
      rw [hstatus hv]
      exact ⟨fun h _ => h, fun h => h rfl⟩

end

/-! ### A call and its return, and a loop of calls -/

/-- A container executes up to a call without arguments, with the stack as it is. -/
def Machine.upToCall (m : Machine) (ret : Word) (c : ContainerCall) : CallEvent :=
  let exc := Function.update (Function.update m.cpu.exc .r0 0) .ret ret
  .exec { m.cpu with exc := exc } m.st.hw m.st.mem fun _ => c

theorem CallsOK.upToCall_ok {b : Build} {cfgtbl : List ContainerConfig} {L : StackLayout b cfgtbl}
    {m : Machine} (hm : CallsOK L m) (ret : Word) (c : ContainerCall) :
    CallOK L m (m.upToCall ret c) :=
  ⟨hm.ledger.sp_le, fun _ _ _ _ _ => rfl⟩

/-- A background container, and two secure containers with an interface each. -/
def loopTable : List ContainerConfig :=
  [sampleHost,
   { addr := 0x30100, type := secureshieldContainerSecure, stackSecure := 0, stackArea := 0x3000,
     acTable := some [⟨0x4010, 0, acInterface⟩] },
   { addr := 0x30200, type := secureshieldContainerSecure, stackSecure := 0, stackArea := 0x5000,
     acTable := some [⟨0x5010, 0, acInterface⟩] }]

def loopLayout : StackLayout .v1Mpu2 loopTable where
  lo := fun c => 0x2000 * c + 0x800
  background := by decide
  pos := by decide
  room := by decide
  disjoint := by
    have h : ∀ c < 3, ∀ d < 3, c ≠ d → stackTop loopTable c ≤ 0x2000 * d + 0x800 ∨
        stackTop loopTable d ≤ 0x2000 * c + 0x800 := by decide
    exact fun c d hc hd => h c hc d hd

def callOne : ContainerCall := ⟨0x783E, containerCallMagic, 0x4010, 0x30004⟩
def callTwo : ContainerCall := ⟨0x783E, containerCallMagic, 0x5010, 0x30008⟩

def startCpu : Cpu := ⟨0, fun _ => 0, fun _ => 0⟩

/-- The background container calls container 1, and runs again with its own registers. -/
theorem suspended_caller_kept_return :
    ∃ m m₁ m₃, CallReachable loopLayout m ∧ callStep .v1Mpu2 m .callIn = .ok m₁ ∧
      m₁.st.stackCurrId = 1 ∧ m₁.st.exc .v1Mpu2 (m.frame .v1Mpu2) .ret = m.cpu.exc .ret ∧
      callStep .v1Mpu2 m₁ .callOut = .ok m₃ ∧ m₃.cpu.sp = m.cpu.sp ∧
      m₃.cpu.exc .ret = m.cpu.exc .ret ∧ m₃.status .v1Mpu2 = m.status .v1Mpu2 := by
  have hrun : ∃ m₀, startup .v1Mpu2 State.blank.hw State.blank.mem State.blank.call loopTable
        startCpu = .ok m₀ ∧
      ∃ m, callStep .v1Mpu2 m₀ (m₀.upToCall 0x7000 callOne) = .ok m ∧
      ∃ t, m.asksFor .v1Mpu2 = .ok t ∧
      ∃ m₁, callStep .v1Mpu2 m .callIn = .ok m₁ ∧
      ∃ m₃, callStep .v1Mpu2 m₁ .callOut = .ok m₃ ∧
        t.args = 0 ∧ m.st.stackPtr = 0 ∧ m₁.st.stackPtr = 1 ∧
        m₁.st.stackCurrId = 1 ∧
        loopLayout.lo m.st.stackCurrId + arcProcessorFrameSize .v1Mpu2 ≤ m.cpu.sp ∧
        loopLayout.lo m₁.st.stackCurrId + arcProcessorFrameSize .v1Mpu2 ≤ m₁.cpu.sp := by
    decide +kernel
  obtain ⟨m₀, hstart, m, hexec, t, ht, m₁, hin, m₃, hout, hargs, hptr, hptr₁, hcurr, hroom,
    hroom₁⟩ := hrun
  have hm₀ : CallsOK loopLayout m₀ := CallReachable.callsOK ⟨_, _, _, _, _, _, hstart, Runs.nil m₀⟩
  have hm : CallReachable loopLayout m :=
    ⟨_, _, _, _, _, _, hstart, Runs.cons (hm₀.upToCall_ok ..) hexec (Runs.nil m)⟩
  have hok : CallOK loopLayout m .callIn := by
    refine ⟨hroom, fun t' ht' => ?_⟩
    obtain rfl := Except.ok.inj (ht.symm.trans ht')
    refine ⟨fun q hq => absurd hq (by omega), ?_⟩
    rw [hargs]
    decide
  obtain ⟨hexc, -, hback⟩ := suspended_caller_kept hm hok hin (by omega) (Runs.nil m₁) (by omega)
  obtain ⟨-, hagain, hstatus⟩ := hback m₃ (by omega) hroom₁ hout
  exact ⟨m, m₁, m₃, hm, hin, hcurr, hexc .ret (by decide) rfl, hout, hagain.sp,
    hagain.exc .ret (by decide) rfl (fun _ => by decide), hstatus.mpr (fun h => by cases h)⟩

/-- Container 1 calls container 2, which calls container 1 again.  The second call puts its
frame where the registers of the first activation are: the return address there is the address
of the function that is called, and that is where the first activation goes on in the end.
Between the calls no container writes to memory. -/
theorem reentrant_call_overwrites_caller :
    ∃ m₀, startup .v1Mpu2 State.blank.hw State.blank.mem State.blank.call loopTable startCpu =
        .ok m₀ ∧
      ∃ m, run (callStep .v1Mpu2) m₀
        [(·.upToCall 0x7000 callOne), fun _ => .callIn, (·.upToCall 0x7100 callTwo)] = .ok m ∧
      ∃ m₁, callStep .v1Mpu2 m .callIn = .ok m₁ ∧
      ∃ m₂, run (callStep .v1Mpu2) m₁ [(·.upToCall 0x7200 callOne), fun _ => .callIn] = .ok m₂ ∧
      ∃ m₃, run (callStep .v1Mpu2) m₂ [fun _ => .callOut, fun _ => .callOut] = .ok m₃ ∧
        m.st.stackCurrId = 1 ∧ m₁.st.stackCurrId = 2 ∧ m₂.st.stackCurrId = 1 ∧
        m.st.stackPtr < m₁.st.stackPtr ∧ m₁.st.stackPtr < m₂.st.stackPtr ∧
        m₃.st.stackPtr = m.st.stackPtr ∧
        m.cpu.exc .ret = 0x7100 ∧ m₁.st.exc .v1Mpu2 (m.frame .v1Mpu2) .ret = 0x7100 ∧
        m₂.st.exc .v1Mpu2 (m.frame .v1Mpu2) .ret = 0x4010 ∧ m₃.cpu.exc .ret = 0x4010 := by
  decide +kernel

end Embarc
