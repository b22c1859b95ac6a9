/-
The mode a container runs in.

A container runs in user mode if it is normal, and in kernel mode if it is secure.  The
runtime takes the status it installs from what it has stored for the container and from the
frame a container was suspended with, so all of these have to have the U bit of their owner.

The frames of a secure container are kept whole, as far as no call goes to it while it is
suspended.  A normal container may be called at any time: its own stack pointer is another
one, and the one its frames are saved below moves by whole frames only.  A frame that is
written over is then written over by one of the same owner.
-/
import Embarc.Proofs.Traps

namespace Embarc

open Trace
open Nest (Layout Ledger Kind)

def userMode (status : Word) : Bool := hasFlag status auxStatusMaskU

def secureIn (cfgtbl : List ContainerConfig) (d : Nat) : Bool :=
  match cfgtbl[d]? with
  | some cfg => cfg.type != secureshieldContainerNormal
  | none => false

section
variable {b : Build} {cfgtbl : List ContainerConfig} (L : StackLayout b cfgtbl)

/-- What a run keeps to, besides the frames of secure containers: a container does not change
the mode it runs in, nor in user mode the stack pointer of the kernel mode, and the arguments
of a call end before the status in its frame. -/
def ModeOK (m : Machine) (e : TrapEvent) : Prop :=
  TrapOK L (fun d => secureIn cfgtbl d) m e ∧
    match e with
    | .exec cpu _ _ _ => userMode (cpu.exc .status32) = userMode (m.cpu.exc .status32) ∧
        (¬ secureIn cfgtbl m.st.stackCurrId → cpu.sp = m.cpu.sp)
    | .trap => trapIdOf m.st.hw = some .containerIn → ∀ t, m.asksFor b = .ok t →
        excOfs b .r0 + t.args ≤ excOfs b .status32
    | .irq => True

structure ModeReachable (m : Machine) : Prop where
  exists_run : ∃ hw mem call cpu m₀ es, startup b hw mem call cfgtbl cpu = .ok m₀ ∧
    Runs (trapStep b) (ModeOK L) m₀ es m

def ModeOf (cfgtbl : List ContainerConfig) (d : Nat) (status : Word) : Prop :=
  userMode status = !secureIn cfgtbl d

/-- The status the running container has, those stored and those in saved frames have the mode
of the container they belong to. -/
structure Confined (m : Machine) : Prop where
  traps : TrapsOK L (fun d => secureIn cfgtbl d) m
  grid : m.ledger.Grid L.layout fun d => ¬ secureIn cfgtbl d
  config : ∀ d cfg, cfgtbl[d]? = some cfg → (m.st.context d).cfg = some cfg
  running : ModeOf cfgtbl m.ledger.cur (m.cpu.exc .status32)
  stored : ∀ d < cfgtbl.length, ModeOf cfgtbl d (m.st.context d).cpuStatus
  saved : ∀ q < m.ledger.depth, ModeOf cfgtbl (m.ledger.susp q).owner
    (m.st.exc b ((m.ledger.susp q).bot + arcCalleeFrameSize b) .status32)

end

/-! ### The first state -/

theorem secureContainerDefaultStatus_mode (b : Build) :
    userMode (secureContainerDefaultStatus b) = false := by
  have hmask : ∀ x : Word, hasFlag (x &&& 0x1e) auxStatusMaskU = false := by
    intro x
    unfold hasFlag
    rw [BitVec.and_assoc]
    simp [auxStatusMaskU]
  have hreset : hasFlag (status32ResetValue b) auxStatusMaskU = false := by
    unfold status32ResetValue
    split_ifs <;> decide
  unfold userMode secureContainerDefaultStatus
  rw [hasFlag_or, hasFlag_or, hmask, hreset]
  decide

variable {d : Nat} {cfg : ContainerConfig} {status : Word} {skip : ExcReg → Bool} {k : Kind}

theorem normalContainerDefaultStatus_mode (b : Build) :
    userMode (normalContainerDefaultStatus b) = true := by
  unfold userMode normalContainerDefaultStatus
  rw [hasFlag_or]
  exact Bool.or_eq_true_iff.mpr (Or.inr (by decide))

section
variable {b : Build} {cfgtbl : List ContainerConfig} {L : StackLayout b cfgtbl} {m m' : Machine}
  {e : TrapEvent}

theorem secureIn_of_getElem (hcfg : cfgtbl[d]? = some cfg) :
    secureIn cfgtbl d = (cfg.type != secureshieldContainerNormal) := by
  unfold secureIn
  rw [hcfg]

theorem ContextReady.modeOf {s : State} (h : ContextReady b s d cfg) (hv : b.version = .v1)
    (hcfg : cfgtbl[d]? = some cfg) : ModeOf cfgtbl d (s.context d).cpuStatus := by
  unfold ModeOf
  rw [h.cpuStatus hv, secureIn_of_getElem hcfg]
  unfold ContainerConfig.defaultStatus
  rcases h.type with htype | htype
  · rw [htype, if_pos rfl, secureContainerDefaultStatus_mode]
    rfl
  · rw [htype, if_neg (by decide), normalContainerDefaultStatus_mode]
    rfl

theorem Started.confined (hv : b.version = .v1) (h : Started b cfgtbl m)
    (L : StackLayout b cfgtbl) : Confined L m := by
  have hstored : ∀ d < cfgtbl.length, ModeOf cfgtbl d (m.st.context d).cpuStatus := fun d hd =>
    (h.ready d _ (List.getElem?_eq_getElem hd)).modeOf hv (List.getElem?_eq_getElem hd)
  have hok := h.trapsOK L fun d => secureIn cfgtbl d
  have hdepth : ∀ q, ¬ q < m.ledger.depth := by
    intro q hq
    have : q < m.st.stackPtr := hq
    rw [h.ptr] at this
    omega
  have hcur : m.ledger.cur = 0 := h.curr
  refine ⟨hok, ⟨?_, ?_, ?_⟩, ?_, ?_, hstored, ?_⟩
  · intro _
    refine ⟨0, ?_⟩
    rw [Nat.zero_mul, hcur]
    exact h.sp_top L
  · exact fun q hq => absurd hq (hdepth q)
  · intro d hd hne _
    refine ⟨1, ?_⟩
    have hrest : m.ledger.rest d = _ := h.rest_top hd (hcur ▸ hne)
    rw [hrest, Nat.one_mul]
    exact Nat.sub_add_cancel (Nat.le_trans (Nat.le_add_left _ _) (L.room d hd))
  · exact fun d cfg hd => (h.ready d cfg hd).config
  · rw [hcur, h.status, (h.ready 0 _ (List.getElem?_eq_getElem L.background)).erstatus rfl hv]
    exact hstored 0 L.background
  · exact fun q hq => absurd hq (hdepth q)

/-! ### One step -/

theorem inFrame_status (L : StackLayout b cfgtbl) (bot : Nat) :
    L.layout.InFrame bot (bot + arcCalleeFrameSize b + excOfs b .status32) :=
  inFrame_exc rfl bot status32_mem

theorem status_ne_result {x y : Nat}
    (h : (∀ a, L.layout.InFrame x a → ¬ L.layout.InFrame y a) ∨ x = y) :
    x + arcCalleeFrameSize b + excOfs b .status32 ≠ y + arcCalleeFrameSize b + excOfs b .r0 := by
  intro heq
  rcases h with hapart | rfl
  · refine hapart _ (inFrame_status L x) ?_
    rw [heq]
    exact inFrame_exc rfl y (mem_intExcFrame (by decide))
  · exact excOfs_ne status32_mem (by decide) (Nat.add_left_cancel heq)

/-- After an entry, a saved frame has the status it had, or it is the one the entry has saved. -/
theorem Confined.word (hm : Confined L m) (hroom : m.HasRoom L) {q : Nat} (hq : q < m.ledger.depth)
    (hold : ¬ L.layout.InFrame (m.frame b - arcCalleeFrameSize b)
        ((m.ledger.susp q).bot + arcCalleeFrameSize b + excOfs b .status32) →
      status = m.st.exc b ((m.ledger.susp q).bot + arcCalleeFrameSize b) .status32)
    (hown : m.frame b = (m.ledger.susp q).bot + arcCalleeFrameSize b →
      status = m.cpu.exc .status32) : ModeOf cfgtbl (m.ledger.susp q).owner status := by
  obtain ⟨hframe, hsub⟩ := Machine.frame_eq (m := m) (L := L.layout) rfl hroom
  rcases hm.traps.ledger.own_apart_or_same hm.grid hq hroom with hapart | ⟨hcur, hbot⟩
  · rw [hold]
    · exact hm.saved q hq
    · rw [hsub]
      exact fun h => hapart _ h (inFrame_status L _)
  · rw [hown (hframe.trans (congrArg (· + _) hbot)), ← hcur]
    exact hm.running

theorem Confined.exec {cpu : Cpu} {hw : Hw} {mem : Addr → Word} {call : Word → ContainerCall}
    (hm : Confined L m) (hok : ModeOK L m (.exec cpu hw mem call)) :
    Confined L (m.exec cpu hw mem call) where
  traps := { hm.traps with ledger := hok.1.ledger_ok hm.traps.ledger }
  grid := by
    refine ⟨?_, hm.grid.susp, hm.grid.rest⟩
    intro hn
    have hsp : (m.exec cpu hw mem call).ledger.sp = m.ledger.sp := hok.2.2 hn
    rw [hsp]
    exact hm.grid.cur hn
  config := hm.config
  running := hok.2.1.trans hm.running
  stored := hm.stored
  saved := by
    intro q hq
    obtain ⟨hlo, hhi⟩ := inFrame_status L (m.ledger.susp q).bot
    have hmem := hok.1.frames q hq _ hlo hhi
    exact (congrArg userMode hmem).trans (hm.saved q hq)

theorem Stayed.confined (h : Stayed b L.layout m m') (hm : Confined L m) (hroom : m.HasRoom L) :
    Confined L m' where
  traps := h.trapsOK hm.traps
  grid := h.ledger ▸ hm.grid
  config := fun d cfg hd => (h.same.context d).2.2.trans (hm.config d cfg hd)
  running := by
    rw [h.ledger, h.status]
    exact hm.running
  stored := by
    intro d hd
    rw [(h.same.context d).2.1]
    exact hm.stored d hd
  saved := by
    intro q hq
    rw [h.ledger] at hq ⊢
    exact hm.word hroom hq (h.mem _) fun hframe => hframe ▸ h.own

theorem Entered.confined {args : Nat} (h : Entered b L.layout skip m m' k d args)
    (hm : Confined L m) (hroom : m.HasRoom L) (hskip : skip .status32 = false)
    (hd : d < m.st.containerCount) (hcall : k = .call → d ≠ m.st.stackCurrId)
    (hstrict : k = .call → secureIn cfgtbl d → m.NotSuspended d)
    (hshort : excOfs b .r0 + args ≤ excOfs b .status32) : Confined L m' := by
  have hstored : ∀ c < cfgtbl.length, ModeOf cfgtbl c (m'.st.context c).cpuStatus := by
    intro c hc
    rw [h.cpuStatus]
    split_ifs with hcur
    · rw [hcur]
      exact hm.running
    · exact hm.stored c hc
  have hknown : d < cfgtbl.length := hm.traps.known hd
  have hsaved := h.exc .status32 status32_mem hskip
  refine ⟨h.trapsOK hm.traps hroom hd hcall hstrict, ?_, ?_, ?_, hstored, ?_⟩
  · rw [h.ledger]
    exact hm.grid.enter hm.traps.ledger hroom k hknown
  · intro c cfg hc
    rw [h.cfg]
    exact hm.config c cfg hc
  · rw [h.ledger, h.status hshort]
    exact hstored d hknown
  · rw [h.ledger]
    refine Ledger.enter_susp (P := fun _ e => ModeOf cfgtbl e.owner
      (m'.st.exc b (e.bot + arcCalleeFrameSize b) .status32)) ?_ ?_
    · intro q hq
      -- the frame a call makes can be that of a normal container that is suspended
      have hcalled : (k = .call → ∀ a, L.layout.InFrame (m.ledger.rest d) a →
          ¬ L.layout.InFrame (m.ledger.susp q).bot a) ∨
          k = .call ∧ d = (m.ledger.susp q).owner ∧ m.ledger.rest d = (m.ledger.susp q).bot := by
        by_cases hk : k = .call
        · exact (hm.traps.ledger.call_apart_or_same hm.grid hq hknown (hcall hk)
            (hstrict hk)).imp (fun hapart _ => hapart) fun hsame => ⟨hk, hsame⟩
        · exact Or.inl fun h => absurd h hk
      rcases hcalled with hapart | ⟨hk, howner, hrest⟩
      · refine hm.word hroom hq ?_ fun hframe => hframe ▸ hsaved
        exact fun hown => h.mem _ hown fun hk hin => hapart hk _ hin (inFrame_status L _)
      · rw [← howner, ← hrest]
        exact (congrArg userMode (h.callStatus hshort hk)).trans (hstored d hknown)
    · rw [← (Machine.frame_eq (m := m) (L := L.layout) rfl hroom).1, hsaved]
      exact hm.running

theorem Resumed.confined {r : Addr} (h : Resumed b L.layout skip m m' k r) (hv : b.version = .v1)
    (hm : Confined L m) (hroom : m.HasRoom L) (hskip : skip .status32 = false)
    (hledger : m'.ledger.OK L.layout fun d => secureIn cfgtbl d)
    (hr : ¬ secureIn cfgtbl m.ledger.cur → Ledger.Aligned L.layout m.ledger.cur r) :
    Confined L m' := by
  have hdepth : m.ledger.depth ≠ 0 := h.depth
  have hlast : m.ledger.depth - 1 < m.ledger.depth := by omega
  have hown : m'.st.exc b (m.frame b) .status32 = m.cpu.exc .status32 := by
    refine h.own fun _ => ?_
    rw [(Machine.frame_eq (m := m) (L := L.layout) rfl hroom).1]
    exact status_ne_result (L := L)
      ((hm.traps.ledger.own_apart_or_same hm.grid hlast hroom).imp id (·.2))
  have hwords : ∀ q < m.ledger.depth, ModeOf cfgtbl (m.ledger.susp q).owner
      (m'.st.exc b ((m.ledger.susp q).bot + arcCalleeFrameSize b) .status32) := by
    intro q hq
    refine hm.word hroom hq (fun hout => h.mem _ hout fun _ => ?_) fun hframe => hframe ▸ hown
    refine status_ne_result (L := L) ?_
    exact (hm.traps.ledger.frames_apart_or_same hm.grid hq (Nat.le_sub_one_of_lt hq) hlast).imp
      (fun hapart a hin hin' => hapart a hin' hin) (·.2.symm)
  refine ⟨h.trapsOK hm.traps hledger, ?_, ?_, ?_, ?_, ?_⟩
  · rw [h.ledger]
    exact hm.grid.leave hm.traps.ledger hdepth hr
  · intro c cfg hc
    rw [h.cfg]
    exact hm.config c cfg hc
  · rw [h.ledger, h.exc .status32 status32_mem hskip]
    exact hwords _ hlast
  · intro c hc
    rw [h.cpuStatus hv]
    split_ifs with hcur
    · rw [hcur]
      exact hm.running
    · exact hm.stored c hc
  · rw [h.ledger]
    intro q hq
    have hq : q < m.ledger.depth - 1 := hq
    exact hwords q (by omega)

/-- **A step keeps every status in the mode of its container.** -/
theorem Confined.step (hv : b.version = .v1) (hm : Confined L m) (hok : ModeOK L m e)
    (hstep : trapStep b m e = .ok m') : Confined L m' := by
  cases trapStep_outcome hv hm.traps hok.1 hstep with
  | executed cpu hw mem call h =>
    rw [h]
    exact hm.exec hok
  | trapStayed h => exact h.confined hm hok.1.1
  | called t hid ht hchecked h =>
    exact h.confined hm hok.1.1 rfl hchecked.count (fun _ => hchecked.other)
      (fun _ => (hok.1.2.1 hid t ht).1) (hok.2 hid t ht)
  | returned hid h =>
    refine h.confined hv hm hok.1.1 rfl (h.ledger_ok_call hm.traps.ledger hok.1.1) fun hn => ?_
    exact (hm.grid.cur hn).sub (Nat.le_trans (Nat.le_add_left _ _) hok.1.1)
  | irqReturned hid h =>
    exact h.confined hv hm hok.1.1 rfl
      (h.ledger_ok_irq hm.traps.ledger hok.1.1 (hok.1.2.2 hid)) hm.grid.cur
  | irqStayed h => exact h.confined hm hok.1
  | interrupted d hd h => exact h.confined hm hok.1 rfl hd nofun nofun excOfs_r0_le_status

/-! ### Runs -/

theorem ModeReachable.confined (hv : b.version = .v1) (h : ModeReachable L m) : Confined L m := by
  obtain ⟨hw, mem, call, cpu, m₀, es, hstart, hrun⟩ := h.exists_run
  exact hrun.invariant (fun _ _ _ hm hok h => hm.step hv hok h)
    ((startup_started hstart).confined hv L)

/-- The mode of a container, by the type the runtime reads from its configuration. -/
theorem Confined.userMode_eq (hm : Confined L m) (hd : d < cfgtbl.length)
    (h : ModeOf cfgtbl d status) : userMode status = !containerIsSecure m.st d := by
  have hcfg := List.getElem?_eq_getElem hd
  have hsecure : containerIsSecure m.st d = secureIn cfgtbl d := by
    unfold containerIsSecure containerType
    rw [hm.config d _ hcfg, secureIn_of_getElem hcfg]
    rfl
  rw [hsecure]
  exact h

/-- A call leaves its frame right below the stack pointer it enters the container with. -/
theorem Entered.frame_eq {args : Nat} (h : Entered b L.layout skip m m' .call d args)
    (hne : d ≠ m.st.stackCurrId) : m'.frame b = (m.st.context d).curSp + arcCalleeFrameSize b := by
  have hsp : m'.ledger.sp = (m.ledger.enter L.layout .call d).sp := by rw [h.ledger]
  have hrest : (m.ledger.enter L.layout .call d).rest d = m.ledger.rest d :=
    Function.update_of_ne hne ..
  have hsp : m'.cpu.sp = (m.ledger.enter L.layout .call d).rest d + arcProcessorFrameSize b := hsp
  rw [hrest, arcProcessorFrameSize, ← Nat.add_assoc] at hsp
  rw [Machine.frame, hsp]
  exact Nat.add_sub_cancel ..

/-- **Containers keep to their mode.**  Whatever a container is entered or resumed with has the
U bit if and only if the container is normal: the status stored for it, the one in the frame
it was suspended with and the one it runs with, the status in the frame of a call, and the
status an interrupt handler is started with. -/
theorem containers_keep_mode (hv : b.version = .v1) (h : ModeReachable L m) :
    (∀ c < m.st.containerCount,
      userMode (m.st.context c).cpuStatus = !containerIsSecure m.st c) ∧
    userMode (m.cpu.exc .status32) = (!containerIsSecure m.st m.st.stackCurrId) ∧
    (∀ q < m.st.stackPtr,
      userMode (m.st.exc b ((m.st.stack q).srcSp + arcCalleeFrameSize b) .status32) =
        !containerIsSecure m.st (m.st.stack q).srcId) ∧
    (∀ m', ModeOK L m .trap → trapStep b m .trap = .ok m' → m.st.stackPtr < m'.st.stackPtr →
      userMode (m'.st.exc b (m'.frame b) .status32) =
        !containerIsSecure m'.st m'.st.stackCurrId) ∧
    ∀ m', ModeOK L m .irq → trapStep b m .irq = .ok m' → m.st.stackPtr < m'.st.stackPtr →
      userMode (arcAuxRead m'.st.hw auxErstatus) =
        !containerIsSecure m'.st m'.st.stackCurrId := by
  have hm := h.confined hv
  have hentered : ∀ {e m'}, ModeOK L m e → trapStep b m e = .ok m' →
      userMode (m'.cpu.exc .status32) = !containerIsSecure m'.st m'.st.stackCurrId := by
    intro e m' hok hstep
    have hm' := hm.step hv hok hstep
    exact hm'.userMode_eq hm'.traps.ledger.cur_known hm'.running
  refine ⟨?_, ?_, ?_, ?_, ?_⟩
  · intro c hc
    exact hm.userMode_eq (hm.traps.known hc) (hm.stored c (hm.traps.known hc))
  · exact hm.userMode_eq hm.traps.ledger.cur_known hm.running
  · exact fun q hq => hm.userMode_eq (hm.traps.ledger.susp_known q hq) (hm.saved q hq)
  · intro m' hok hstep hgrows
    rw [← hentered hok hstep]
    cases trapStep_outcome hv hm.traps hok.1 hstep with
    | trapStayed h =>
      have := h.same.ptr
      omega
    | called t hid ht hchecked h =>
      have hshort := hok.2 hid t ht
      rw [h.frame_eq hchecked.other, h.callStatus hshort rfl, h.status hshort]
    | returned hid h | irqReturned hid h =>
      have hdepth : m'.ledger.depth = m.ledger.depth - 1 := by rw [h.ledger]; rfl
      have hgrows : m.ledger.depth < m'.ledger.depth := hgrows
      omega
  · intro m' hok hstep hgrows
    rw [← hentered hok hstep]
    cases trapStep_outcome hv hm.traps hok.1 hstep with
    | irqStayed h =>
      have := h.same.ptr
      omega
    | interrupted d hd h => rw [h.irqStatus rfl]

end

/-! ### A call within its frame, and one that runs over the status -/

/-- A background container, and a normal container with an interface of 21 arguments and one
of none. -/
def argsTable : List ContainerConfig :=
  [sampleHost, sampleGuest [⟨0x4010, 21, acInterface⟩, ⟨0x4020, 0, acInterface⟩]]

def argsLayout : StackLayout .v1Mpu2 argsTable where
  lo := fun c => 0x1000 * c + 0x800
  background := by decide
  pos := by decide
  room := by decide
  disjoint := by
    have h : ∀ c < 2, ∀ d < 2, c ≠ d → stackTop argsTable c ≤ 0x1000 * d + 0x800 ∨
        stackTop argsTable d ≤ 0x1000 * c + 0x800 := by decide
    exact fun c d hc hd => h c hc d hd

theorem containers_keep_mode_call :
    ∃ m, ModeReachable argsLayout m ∧ m.st.stackCurrId = 1 ∧
      containerIsSecure m.st 1 = false ∧ userMode (m.cpu.exc .status32) = true := by
  have hrun : ∃ m₀, startup .v1Mpu2 State.blank.hw State.blank.mem
        (fun _ => ⟨0x783E, containerCallMagic, 0x4020, 0x30004⟩) argsTable
        ⟨0, fun _ => 0, fun _ => 0⟩ = .ok m₀ ∧
      ∃ m₁, trapStep .v1Mpu2 m₀ (m₀.upTo 0 auxEcr 1) = .ok m₁ ∧
      ∃ t, m₁.asksFor .v1Mpu2 = .ok t ∧
      ∃ m, trapStep .v1Mpu2 m₁ .trap = .ok m ∧
        t.args = 0 ∧ m₁.st.stackPtr = 0 ∧ trapIdOf m₁.st.hw = some .containerIn ∧
        argsLayout.lo m₁.st.stackCurrId + arcProcessorFrameSize .v1Mpu2 ≤ m₁.cpu.sp ∧
        m.st.stackCurrId = 1 ∧ containerIsSecure m.st 1 = false := by
    decide +kernel
  obtain ⟨m₀, hstart, m₁, hexec, t, ht, m, htrap, hargs, hptr, hid, hroom, hcurr, hnormal⟩ := hrun
  have hm₀ : TrapsOK argsLayout (fun d => secureIn argsTable d) m₀ :=
    (startup_started hstart).trapsOK _ _
  have hok : ModeOK argsLayout m₁ .trap := by
    have hfit : ∀ t', m₁.asksFor .v1Mpu2 = .ok t' → t'.args = 0 := by
      intro t' ht'
      rw [← Except.ok.inj (ht.symm.trans ht')]
      exact hargs
    refine ⟨⟨hroom, fun _ t' ht' => ⟨fun _ q hq => absurd hq (by omega), ?_⟩, ?_⟩, ?_⟩
    · rw [hfit t' ht']
      decide
    · rw [hid]
      exact nofun
    · intro _ t' ht'
      rw [hfit t' ht']
      decide
  have hm : ModeReachable argsLayout m := by
    refine ⟨_, _, _, _, _, _, hstart, Runs.cons ⟨hm₀.upTo_ok .., ?_, fun _ => rfl⟩ hexec
      (Runs.cons hok htrap (Runs.nil m))⟩
    show userMode (Function.update m₀.cpu.exc .r0 0 .status32) = _
    rw [Function.update_of_ne (by decide)]
  obtain ⟨-, hrunning, -⟩ := containers_keep_mode rfl hm
  refine ⟨m, hm, hcurr, hnormal, ?_⟩
  rw [hrunning, hcurr, hnormal]
  rfl

/-- The background container calls the interface of 21 arguments.  The last of them is put over
the status in the frame of the call, and the normal container runs in kernel mode. -/
theorem arguments_overwrite_status :
    ∃ m₀, startup .v1Mpu2 State.blank.hw State.blank.mem
        (fun _ => ⟨0x783E, containerCallMagic, 0x4010, 0x30004⟩) argsTable
        ⟨0, fun _ => 0, fun _ => 0⟩ = .ok m₀ ∧
      ∃ m₁, trapStep .v1Mpu2 m₀ (m₀.upTo 21 auxEcr 1) = .ok m₁ ∧
      ∃ m, trapStep .v1Mpu2 m₁ .trap = .ok m ∧
        m.st.stackCurrId = 1 ∧ containerIsSecure m.st 1 = false ∧
        userMode (m.st.context 1).cpuStatus = true ∧
        userMode (m.st.exc .v1Mpu2 (m.frame .v1Mpu2) .status32) = false ∧
        userMode (m.cpu.exc .status32) = false := by
  decide +kernel

end Embarc
