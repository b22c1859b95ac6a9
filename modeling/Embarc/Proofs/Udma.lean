/-
Who owns which uDMA channel.

The table says which object a channel belongs to and the object says which channel it has.  A
release finds the slot through the object, and refuses an object without a descriptor.  So the
table is sound exactly if every owner names its own slot and has a descriptor (`Dmac.Linked`), and
three calls can break that: reserving for an object that has a channel already or has no
descriptor, initialising an object that owns a channel, and taking the descriptor away from one.
-/
import Embarc.Arc.Udma

namespace Embarc

variable {b : UdmaBuild} {i : Fin b.channels} {c : Word} {s : Dmac b} {f : DmaChannel → DmaChannel}

/-- What is expected of the table. -/
structure Dmac.TableOk (s : Dmac b) : Prop where
  /-- The object in slot `i` has channel number `i`. -/
  numbered : ∀ i c, s.Holds i c → (s.objs c).channel = BitVec.ofNat 32 i
  /-- No object is in two slots. -/
  once : ∀ i j c, s.Holds i c → s.Holds j c → i = j
  /-- An object that owns a slot can be released, and the slot is free then. -/
  releasable : ∀ i c, s.Holds i c →
    (dmacReleaseChannel s c).1 = 0 ∧ (dmacReleaseChannel s c).2.chns i = 0

/-- A reservation leaves every slot with its owner. -/
def UdmaOp.KeepsOwners (s : Dmac b) : UdmaOp → Prop
  | .reserve channel dmaChn source =>
    ∀ i c, s.Holds i c → (dmacReserveChannel s channel dmaChn source).2.Holds i c
  | _ => True

/-- A reservation finds a slot: the named one is free, or any one is asked for and some is. -/
def Dmac.Vacant (s : Dmac b) (channel : Word) : Prop :=
  ∃ i, s.chns i = 0 ∧ (channel = dmaChnAny ∨ i.val = channel.toNat)

instance (s : Dmac b) (channel : Word) : Decidable (s.Vacant channel) :=
  inferInstanceAs (Decidable (∃ _, _ ∧ _))

/-- An object is reserved for only with a descriptor and while it owns nothing, and keeps its
descriptor and its number while it owns a channel. -/
def UdmaOp.Disciplined (s : Dmac b) : UdmaOp → Prop
  | .init dmaChn => dmaChn ≠ 0 → s.Absent dmaChn
  | .config dmaChn desc => dmaChn ≠ 0 → desc = 0 → s.Absent dmaChn
  | .reserve channel dmaChn _ =>
    dmaChn ≠ 0 → s.Vacant channel → s.Absent dmaChn ∧ (s.objs dmaChn).desc ≠ 0
  | _ => True

instance (s : Dmac b) (op : UdmaOp) : Decidable (op.Disciplined s) :=
  match op with
  | .init _ => inferInstanceAs (Decidable (_ → _))
  | .config _ _ => inferInstanceAs (Decidable (_ → _))
  | .reserve _ _ _ => inferInstanceAs (Decidable (_ → _))
  | .start _ _ _ _ | .stop _ | .clear _ | .release _ | .completed _ | .failed _ => isTrue trivial

/-- Every owner names its own slot and has a descriptor. -/
def Dmac.Linked (s : Dmac b) : Prop :=
  ∀ i c, s.Holds i c → (s.objs c).channel = BitVec.ofNat 32 i ∧ (s.objs c).desc ≠ 0

/-! ### Slot numbers as words -/

theorem UdmaBuild.slot_lt (b : UdmaBuild) (i : Fin b.channels) : i.val < 2 ^ 31 :=
  Nat.lt_trans i.isLt b.channels_lt

theorem UdmaBuild.toNat_slot (b : UdmaBuild) (i : Fin b.channels) :
    (BitVec.ofNat 32 i.val).toNat = i.val := by
  have hlt := b.slot_lt i
  rw [BitVec.toNat_ofNat]
  omega

theorem UdmaBuild.slot_inj (b : UdmaBuild) {i j : Fin b.channels}
    (h : BitVec.ofNat 32 i.val = BitVec.ofNat 32 j.val) : i = j := by
  have hval := congrArg BitVec.toNat h
  rw [b.toNat_slot, b.toNat_slot] at hval
  exact Fin.ext hval

theorem dmaChnInvalid_ne_slot (b : UdmaBuild) (i : Fin b.channels) :
    dmaChnInvalid ≠ BitVec.ofNat 32 i.val := by
  intro h
  have hval := congrArg BitVec.toNat h
  have hlt := b.slot_lt i
  simp [dmaChnInvalid] at hval
  omega

/-! ### What each function does to the table and to the objects -/

namespace Dmac

@[simp] theorem modify_chns (s : Dmac b) (c : Word) (f : DmaChannel → DmaChannel) :
    (s.modify c f).chns = s.chns := rfl

@[simp] theorem modify_objs_self (s : Dmac b) (c : Word) (f : DmaChannel → DmaChannel) :
    (s.modify c f).objs c = f (s.objs c) := by
  simp [modify]

theorem modify_objs_ne (s : Dmac b) {c' : Word} (f : DmaChannel → DmaChannel) (h : c' ≠ c) :
    (s.modify c f).objs c' = s.objs c' := by
  simp [modify, h]

theorem linked_modify_iff (hchannel : (f (s.objs c)).channel = (s.objs c).channel)
    (hdesc : (f (s.objs c)).desc = (s.objs c).desc) : (s.modify c f).Linked ↔ s.Linked := by
  have hobj : ∀ c', ((s.modify c f).objs c').channel = (s.objs c').channel ∧
      ((s.modify c f).objs c').desc = (s.objs c').desc := by
    intro c'
    by_cases hc : c' = c
    · subst hc
      simp [hchannel, hdesc]
    · simp [modify_objs_ne s f hc]
  constructor
  · intro h i c' hi
    obtain ⟨hnumber, hd⟩ := h i c' hi
    rw [(hobj c').1] at hnumber
    rw [(hobj c').2] at hd
    exact ⟨hnumber, hd⟩
  · intro h i c' hi
    rw [(hobj c').1, (hobj c').2]
    exact h i c' hi

/-- An object in no slot may be changed at will. -/
theorem Linked.modify_absent (h : s.Linked) (hc : s.Absent c) (f : DmaChannel → DmaChannel) :
    (s.modify c f).Linked := by
  intro i c' hi
  have hne : c' ≠ c := by
    intro heq
    exact hc i (hi.2.trans heq)
  rw [modify_objs_ne s f hne]
  exact h i c' hi

theorem absent_of_linked_modify (hc : c ≠ 0)
    (hbad : ∀ i : Fin b.channels,
      ¬((f (s.objs c)).channel = BitVec.ofNat 32 i.val ∧ (f (s.objs c)).desc ≠ 0))
    (h : (s.modify c f).Linked) : s.Absent c := by
  intro i hi
  have hlinked := h i c ⟨hc, hi⟩
  rw [modify_objs_self] at hlinked
  exact hbad i hlinked

end Dmac

theorem linked_init_iff (h : s.Linked) (dmaChn : Word) :
    (dmacInitChannel s dmaChn).2.Linked ↔ (dmaChn ≠ 0 → s.Absent dmaChn) := by
  unfold dmacInitChannel
  by_cases hc : dmaChn = 0
  · simp [hc, h]
  · rw [if_neg hc]
    dsimp only
    constructor
    · intro hlinked _
      exact Dmac.absent_of_linked_modify hc (fun i hi => dmaChnInvalid_ne_slot b i hi.1) hlinked
    · intro habsent
      exact h.modify_absent (habsent hc) _

theorem linked_config_iff (h : s.Linked) (dmaChn desc : Word) :
    (dmacConfigChannel s dmaChn desc).2.Linked ↔
      (dmaChn ≠ 0 → desc = 0 → s.Absent dmaChn) := by
  unfold dmacConfigChannel
  by_cases hc : dmaChn = 0
  · simp [hc, h]
  · rw [if_neg hc]
    dsimp only
    constructor
    · intro hlinked _ hdesc
      exact Dmac.absent_of_linked_modify hc (fun i hi => hi.2 hdesc) hlinked
    · intro habsent
      by_cases hdesc : desc = 0
      · exact h.modify_absent (habsent hc hdesc) _
      · intro i c hi
        by_cases hcc : c = dmaChn
        · subst hcc
          rw [Dmac.modify_objs_self]
          exact ⟨(h i c hi).1, hdesc⟩
        · rw [Dmac.modify_objs_ne _ _ hcc]
          exact h i c hi

/-- A reservation is refused and changes nothing, or claims a free slot. -/
theorem dmacReserveChannel_cases (s : Dmac b) (channel dmaChn source : Word) :
    ((dmaChn ≠ 0 → ¬s.Vacant channel) ∧ (dmacReserveChannel s channel dmaChn source).2 = s) ∨
    ∃ i, dmaChn ≠ 0 ∧ s.Vacant channel ∧ s.chns i = 0 ∧
      (dmacReserveChannel s channel dmaChn source).2 = dmaClaimChannel s i dmaChn source := by
  unfold dmacReserveChannel
  split_ifs with hc hany hlt hfree
  · exact Or.inl ⟨fun hne => absurd hc hne, rfl⟩
  · split
    case h_1 i hfind =>
      have hfree : s.chns i = 0 := by simpa using List.find?_some hfind
      exact Or.inr ⟨i, hc, ⟨i, hfree, Or.inl hany⟩, hfree, rfl⟩
    case h_2 hfind =>
      have hfull := List.find?_eq_none.mp hfind
      refine Or.inl ⟨fun _ => ?_, rfl⟩
      rintro ⟨i, hfree, -⟩
      exact hfull i (List.mem_finRange i) (by simpa using hfree)
  · exact Or.inr ⟨⟨channel.toNat, hlt⟩, hc, ⟨_, hfree, Or.inr rfl⟩, hfree, rfl⟩
  · refine Or.inl ⟨fun _ => ?_, rfl⟩
    rintro ⟨i, hi, hchannel⟩
    exact hfree (by rwa [show i = ⟨_, hlt⟩ from Fin.ext (hchannel.resolve_left hany)] at hi)
  · refine Or.inl ⟨fun _ => ?_, rfl⟩
    rintro ⟨i, -, hchannel⟩
    exact hlt (hchannel.resolve_left hany ▸ i.isLt)

theorem dmaClaimChannel_chns (s : Dmac b) (i : Fin b.channels) (dmaChn source : Word) :
    (dmaClaimChannel s i dmaChn source).chns = Function.update s.chns i dmaChn := rfl

theorem dmaClaimChannel_objs_ne (s : Dmac b) (i : Fin b.channels) {dmaChn : Word} (source : Word)
    (h : c ≠ dmaChn) : (dmaClaimChannel s i dmaChn source).objs c = s.objs c := by
  simp only [dmaClaimChannel]
  rw [Dmac.modify_objs_ne _ _ h]

/-- A claim is sound exactly if the object owned nothing and has a descriptor. -/
theorem linked_claim_iff (h : s.Linked) {dmaChn source : Word} (hc : dmaChn ≠ 0)
    (hfree : s.chns i = 0) :
    (dmaClaimChannel s i dmaChn source).Linked ↔
      s.Absent dmaChn ∧ (s.objs dmaChn).desc ≠ 0 := by
  have hnew : (dmaClaimChannel s i dmaChn source).objs dmaChn =
      { s.objs dmaChn with
        source, callback := 0, status := .idle, channel := BitVec.ofNat 32 i } := by
    simp [dmaClaimChannel]
  constructor
  · intro hlinked
    have hat : ∀ j, (dmaClaimChannel s i dmaChn source).chns j = dmaChn → j = i := by
      intro j hj
      have hnumber := (hlinked j dmaChn ⟨hc, hj⟩).1
      rw [hnew] at hnumber
      exact (b.slot_inj hnumber).symm
    refine ⟨?_, ?_⟩
    · intro j hj
      have hji : j = i := by
        apply hat j
        rw [dmaClaimChannel_chns, Function.update_apply]
        split
        · rfl
        · exact hj
      rw [hji, hfree] at hj
      exact hc hj.symm
    · have hdesc := (hlinked i dmaChn ⟨hc, by simp [dmaClaimChannel_chns]⟩).2
      rw [hnew] at hdesc
      exact hdesc
  · rintro ⟨habsent, hdesc⟩ j c ⟨hc0, hj⟩
    rw [dmaClaimChannel_chns, Function.update_apply] at hj
    split_ifs at hj with hji
    · subst hj
      rw [hnew, hji]
      exact ⟨rfl, hdesc⟩
    · have hne : c ≠ dmaChn := by
        intro heq
        exact habsent j (hj.trans heq)
      rw [dmaClaimChannel_objs_ne s i source hne]
      exact h j c ⟨hc0, hj⟩

theorem linked_reserve_iff (h : s.Linked) (channel dmaChn source : Word) :
    (dmacReserveChannel s channel dmaChn source).2.Linked ↔
      (dmaChn ≠ 0 → s.Vacant channel → s.Absent dmaChn ∧ (s.objs dmaChn).desc ≠ 0) := by
  obtain ⟨hfull, hsame⟩ | ⟨i, hc, hvacant, hfree, hclaim⟩ :=
    dmacReserveChannel_cases s channel dmaChn source
  · rw [hsame]
    exact ⟨fun _ hc hvacant => absurd hvacant (hfull hc), fun _ => h⟩
  · rw [hclaim, linked_claim_iff h hc hfree]
    exact ⟨fun hok _ _ => hok, fun hok => hok hc hvacant⟩

/-- **A reservation never displaces an owner.** -/
theorem dmacReserveChannel_keeps (h : s.Holds i c) (channel dmaChn source : Word) :
    (dmacReserveChannel s channel dmaChn source).2.Holds i c := by
  obtain ⟨-, hsame⟩ | ⟨j, -, -, hfree, hclaim⟩ :=
    dmacReserveChannel_cases s channel dmaChn source
  · rw [hsame]
    exact h
  · have hij : i ≠ j := by
      intro heq
      apply h.1
      rw [← h.2, heq, hfree]
    refine ⟨h.1, ?_⟩
    rw [hclaim, dmaClaimChannel_chns, Function.update_of_ne hij]
    exact h.2

/-- A release is refused and changes nothing, or clears the slot the object names. -/
theorem dmacReleaseChannel_cases (s : Dmac b) (dmaChn : Word) :
    (dmacReleaseChannel s dmaChn = (-1, s) ∧ s.usable dmaChn = false) ∨
    ∃ i : Fin b.channels, (s.objs dmaChn).channel = BitVec.ofNat 32 i ∧
      dmacReleaseChannel s dmaChn =
        (0, Dmac.modify { s with chns := Function.update s.chns i 0 } dmaChn
          fun c => { c with channel := dmaChnInvalid }) := by
  unfold dmacReleaseChannel
  split_ifs with hc hd hlt
  · exact Or.inl ⟨rfl, by simp [Dmac.usable, hc]⟩
  · exact Or.inl ⟨rfl, by simp [Dmac.usable, hd]⟩
  · refine Or.inr ⟨⟨(s.objs dmaChn).channel.toNat, hlt⟩, ?_, rfl⟩
    rw [BitVec.ofNat_toNat, BitVec.setWidth_eq]
  · exact Or.inl ⟨rfl, by simp [Dmac.usable, hlt]⟩

theorem Dmac.Linked.release (h : s.Linked) (dmaChn : Word) :
    (dmacReleaseChannel s dmaChn).2.Linked := by
  obtain ⟨heq, -⟩ | ⟨i, hnumber, heq⟩ := dmacReleaseChannel_cases s dmaChn
  · rw [heq]
    exact h
  · rw [heq]
    dsimp only
    have hcleared : Dmac.Linked { s with chns := Function.update s.chns i 0 } := by
      rintro j c ⟨hc0, hj⟩
      by_cases hji : j = i
      · subst hji
        simp at hj
        exact absurd hj.symm hc0
      · exact h j c ⟨hc0, by simpa [hji] using hj⟩
    by_cases h0 : dmaChn = 0
    · intro j c hj
      have hne : c ≠ dmaChn := by
        rw [h0]
        exact hj.1
      rw [Dmac.modify_objs_ne _ _ hne]
      exact hcleared j c hj
    · refine hcleared.modify_absent ?_ _
      intro j hj
      -- the one slot the object could still be in is the one just cleared
      by_cases hji : j = i
      · subst hji
        simp at hj
        exact h0 hj.symm
      · have hsame : s.chns j = dmaChn := by simpa [hji] using hj
        have hother := (h j dmaChn ⟨h0, hsame⟩).1
        rw [hnumber] at hother
        exact hji (b.slot_inj hother).symm

theorem Dmac.tableOk_iff_linked (s : Dmac b) : s.TableOk ↔ s.Linked := by
  constructor
  · intro h i c hi
    refine ⟨h.numbered i c hi, ?_⟩
    intro hdesc
    have hreleased := (h.releasable i c hi).1
    simp [dmacReleaseChannel, hdesc] at hreleased
  · intro h
    refine ⟨fun i c hi => (h i c hi).1, ?_, ?_⟩
    · intro i j c hi hj
      exact b.slot_inj ((h i c hi).1.symm.trans (h j c hj).1)
    · intro i c hi
      obtain ⟨hnumber, hdesc⟩ := h i c hi
      obtain ⟨-, hrefused⟩ | ⟨j, hj, heq⟩ := dmacReleaseChannel_cases s c
      · have husable : s.usable c = true := by
          simp only [Dmac.usable, hnumber, b.toNat_slot, Bool.and_eq_true, decide_eq_true_eq]
          exact ⟨⟨hi.1, hdesc⟩, i.isLt⟩
        rw [husable] at hrefused
        cases hrefused
      · have hij : i = j := b.slot_inj (hnumber.symm.trans hj)
        rw [heq, hij]
        exact ⟨rfl, by simp⟩

/-! ### The run -/

/-- **One step keeps the table sound exactly if it is disciplined.** -/
theorem udmaStep_linked_iff {s' : Dmac b} {op : UdmaOp} (h : s.Linked)
    (hstep : udmaStep s op = .ok s') : s'.Linked ↔ op.Disciplined s := by
  have hmodify : ∀ {c : Word} {f : DmaChannel → DmaChannel},
      (∀ o, (f o).channel = o.channel ∧ (f o).desc = o.desc) → (s.modify c f).Linked := by
    intro c f hf
    exact (Dmac.linked_modify_iff (hf _).1 (hf _).2).mpr h
  have hinterrupt : ∀ {channel : Nat} {status : DmaStatus},
      dmacInterruptChannel s channel status = .ok s' → s'.Linked := by
    intro channel status hok
    unfold dmacInterruptChannel at hok
    split_ifs at hok <;> cases hok
    · exact hmodify fun _ => ⟨rfl, rfl⟩
    · exact h
  cases op with try cases hstep
  | init dmaChn => exact linked_init_iff h dmaChn
  | config dmaChn desc => exact linked_config_iff h dmaChn desc
  | reserve channel dmaChn source => exact linked_reserve_iff h channel dmaChn source
  | start dmaChn callback priority linked =>
    refine iff_of_true ?_ trivial
    unfold dmacStartChannel
    split_ifs
    iterate 3 exact h
    dsimp only
    exact hmodify fun _ => ⟨rfl, rfl⟩
  | stop dmaChn =>
    refine iff_of_true ?_ trivial
    unfold dmacStopChannel
    split_ifs
    · exact h
    · dsimp only
      exact hmodify fun _ => ⟨rfl, rfl⟩
  | clear dmaChn =>
    refine iff_of_true ?_ trivial
    unfold dmacClearChannel
    split_ifs
    · exact h
    · dsimp only
      exact hmodify fun _ => ⟨rfl, rfl⟩
  | release dmaChn => exact iff_of_true (h.release dmaChn) trivial
  | completed channel | failed channel => exact iff_of_true (hinterrupt hstep) trivial

/-- No slot is displaced by a reservation anywhere in a run. -/
theorem udma_owners_kept {s' : Dmac b} {ops : List UdmaOp}
    (h : Trace.Runs udmaStep (fun _ _ => True) s ops s') :
    Trace.Runs udmaStep (fun s op => op.KeepsOwners s) s ops s' := by
  refine h.mono fun s op _ => ?_
  cases op with
  | reserve channel dmaChn source =>
    intro i c hi
    exact dmacReserveChannel_keeps hi channel dmaChn source
  | _ => exact trivial

/-- **The channel table.**  In a run after `dmac_init`, over arbitrary channel objects, the table
is sound in every state and no reservation displaces an owner, if and only if every call is
disciplined. -/
theorem udma_table_iff {s s' : Dmac b} {ops : List UdmaOp} (hfresh : s.Fresh)
    (h : Trace.Runs udmaStep (fun _ _ => True) s ops s') :
    (Trace.Always udmaStep Dmac.TableOk s ops s' ∧
      Trace.Runs udmaStep (fun s op => op.KeepsOwners s) s ops s') ↔
      Trace.Runs udmaStep (fun s op => op.Disciplined s) s ops s' := by
  have hstart : s.TableOk := by
    rw [Dmac.tableOk_iff_linked]
    rintro i c ⟨hc0, hi⟩
    exact absurd (hi.symm.trans (hfresh i)) hc0
  rw [and_iff_left (udma_owners_kept h)]
  refine h.always_iff (I := fun _ => True) (fun _ _ _ _ _ => trivial) ?_ trivial hstart
  intro s op s' _ hok hstep
  rw [Dmac.tableOk_iff_linked] at hok ⊢
  exact udmaStep_linked_iff hok hstep

abbrev udmaTwo : UdmaBuild where
  channels := 2
  registers := 2
  version := 2
  channels_lt := by decide

def udmaTwoFresh : Dmac udmaTwo where
  chns := fun _ => 0
  objs := fun _ =>
    { channel := 0, priority := 0, intEnable := false, source := 0, desc := 0, status := .idle,
      callback := 0 }

/-- The object at `0x100` gets a descriptor, is reserved for, started and released. -/
def udmaTwoOps : List UdmaOp :=
  [.init 0x100, .config 0x100 0x200, .reserve dmaChnAny 0x100 0, .start 0x100 0 1 false,
    .completed 0, .stop 0x100, .release 0x100]

theorem udma_table_transfer :
    ∃ s', Trace.Runs udmaStep (fun _ _ => True) udmaTwoFresh udmaTwoOps s' ∧
    Trace.Always udmaStep Dmac.TableOk udmaTwoFresh udmaTwoOps s' ∧
    s'.chns 0 = 0 ∧ (s'.objs 0x100).channel = dmaChnInvalid := by
  have hdisciplined : Trace.Runs udmaStep (fun s op => op.Disciplined s) udmaTwoFresh udmaTwoOps _ :=
    .of_follow rfl
  exact ⟨_, hdisciplined.any,
    ((udma_table_iff (fun _ => rfl) hdisciplined.any).mpr hdisciplined).1, by decide, by decide⟩

def udmaTwiceOps : List UdmaOp :=
  [.init 0x100, .config 0x100 0x200, .reserve dmaChnAny 0x100 0, .reserve dmaChnAny 0x100 0]

/-- It is then in both slots, and after it has been released slot 0 is taken for good. -/
theorem udma_reserved_twice :
    ∃ s', Trace.Runs udmaStep (fun _ _ => True) udmaTwoFresh udmaTwiceOps s' ∧
      s'.Holds 0 0x100 ∧ s'.Holds 1 0x100 ∧ ¬s'.TableOk ∧
      (dmacReleaseChannel s' 0x100).1 = 0 ∧
      (dmacReleaseChannel s' 0x100).2.Holds 0 0x100 ∧
      (dmacReleaseChannel (dmacReleaseChannel s' 0x100).2 0x100).1 = -1 := by
  refine ⟨_, .of_follow rfl, by decide, by decide, fun htable => ?_, by decide, by decide,
    by decide⟩
  exact absurd (htable.once 0 1 0x100 (by decide) (by decide)) (by decide)

end Embarc
