/-
The polled transfers of the two SPI drivers compared.

What the subsystem's driver has pushed and read is a function of two numbers, as for the DesignWare
driver: the frames of the list have their places one after the other, and each half of a turn goes
on where it stopped.  So at the end the frames of the list are on the wire, and the replies to them
in the buffers.

A received frame has the same place for both drivers.  A frame to be sent has not: the subsystem's
driver counts the offset of a transfer as part of the buffer, the DesignWare driver does not.
-/
import Embarc.Proofs.SpiEquivalence
import Embarc.Proofs.SpiTransfer
import Embarc.Subsystem.SpiPolling

namespace Embarc

open Trace (Runs Reaches)

/-! ### What a list asks for -/

/-- The frames of a list, each with its transfer and its number there. -/
def ssPlaces (xs : List DevSpiTransfer) : List (DevSpiTransfer × Nat) :=
  xs.flatMap fun x => (List.range x.totLen).map fun i => (x, i)

def ssListFrames (ram : Word → Byte) (xs : List DevSpiTransfer) : List Word :=
  (ssPlaces xs).map fun p => ssPollFrame ram p.1 p.2

def ssListStores (mem : Word → Byte) (xs : List DevSpiTransfer) (got : List Word) : Word → Byte :=
  ((ssPlaces xs).zip got).foldl (fun mem p => ssPollStore p.1.1 mem (p.2, p.1.2)) mem

theorem ssPlaces_append (xs ys : List DevSpiTransfer) :
    ssPlaces (xs ++ ys) = ssPlaces xs ++ ssPlaces ys := by
  simp [ssPlaces]

theorem ssPlaces_cons (x : DevSpiTransfer) (xs : List DevSpiTransfer) :
    ssPlaces (x :: xs) = (List.range x.totLen).map (fun i => (x, i)) ++ ssPlaces xs := rfl

theorem ssPlaces_singleton_length (x : DevSpiTransfer) : (ssPlaces [x]).length = x.totLen := by
  simp [ssPlaces]

theorem ssPlaces_segment (before rest : List DevSpiTransfer) (x : DevSpiTransfer) {i n : Nat}
    (h : i + n ≤ x.totLen) :
    ((ssPlaces (before ++ x :: rest)).drop ((ssPlaces before).length + i)).take n =
      (List.range' i n).map fun i => (x, i) := by
  rw [ssPlaces_append, ssPlaces_cons, List.drop_append, List.drop_of_length_le (by omega),
    List.nil_append, Nat.add_sub_cancel_left, List.drop_append_of_le_length (by simp; omega),
    List.take_append_of_le_length (by simp; omega), ← List.map_drop, ← List.map_take,
    List.range_eq_range', List.drop_range']
  congr 1
  refine List.ext_getElem (by simp; omega) fun j _ _ => ?_
  simp

theorem take_length_zip {α β : Type} (l : List α) (l' : List β) :
    (l.take l'.length).zip l' = l.zip l' := by
  induction l' generalizing l with
  | nil => simp
  | cons b l' ih =>
    cases l with
    | nil => rfl
    | cons a l => simp [ih]

theorem zip_append_drop {α β : Type} {l : List α} {l₁ : List β} (h : l₁.length ≤ l.length)
    (l₂ : List β) : l.zip (l₁ ++ l₂) = l.zip l₁ ++ (l.drop l₁.length).zip l₂ := by
  conv_lhs => rw [← List.take_append_drop l₁.length l]
  rw [List.zip_append (by rw [List.length_take]; omega), take_length_zip]

theorem foldl_ssPollStore (x : DevSpiTransfer) (frames : List Word) (i : Nat) (mem : Word → Byte) :
    (((List.range' i frames.length).map fun i => (x, i)).zip frames).foldl
        (fun mem p => ssPollStore p.1.1 mem (p.2, p.1.2)) mem =
      (frames.zipIdx i).foldl (ssPollStore x) mem := by
  induction frames generalizing i mem with
  | nil => rfl
  | cons w frames ih =>
    simp only [List.length_cons, List.range'_succ, List.map_cons, List.zip_cons_cons,
      List.foldl_cons, List.zipIdx_cons]
    exact ih (i + 1) _

variable {hw : SsPollHw} {ram mem₀ : Word → Byte} {xs before rest : List DevSpiTransfer}
  {x : DevSpiTransfer} {s s' : SsPollSys}

theorem ssListStores_append {got frames : List Word} {i : Nat} (hlist : xs = before ++ x :: rest)
    (hgot : got.length = (ssPlaces before).length + i) (hlen : i + frames.length ≤ x.totLen) :
    ssListStores mem₀ xs (got ++ frames) =
      (frames.zipIdx i).foldl (ssPollStore x) (ssListStores mem₀ xs got) := by
  have hsegment := ssPlaces_segment before rest x hlen
  have hshort : got.length ≤ (ssPlaces xs).length := by
    rw [hlist, ssPlaces_append, ssPlaces_cons]
    simp only [List.length_append, List.length_map, List.length_range]
    omega
  rw [ssListStores, zip_append_drop hshort, List.foldl_append, ← ssListStores, hgot,
    ← take_length_zip, hlist, hsegment, foldl_ssPollStore]

/-! ### The driver in the middle of a list -/

/-- `before` is through.  Of the transfer behind it `txIdx` frames were pushed and `rxIdx` read. -/
structure SsPolled (hw : SsPollHw) (ram mem₀ : Word → Byte) (xs before : List DevSpiTransfer)
    (s : SsPollSys) : Prop where
  list : xs = before ++ s.cur.xfer :: s.rest
  ram_eq : s.ram = ram
  flow : s.link.Flow hw.reply s.pushed s.got
  tx_le : s.cur.txIdx ≤ s.cur.xfer.totLen
  rx_le : s.cur.rxIdx ≤ s.cur.xfer.totLen
  pushed : s.pushed = (ssListFrames ram xs).take ((ssPlaces before).length + s.cur.txIdx)
  got : s.got.length = (ssPlaces before).length + s.cur.rxIdx
  mem : s.mem = ssListStores mem₀ xs s.got
  /-- Behind the loop all of the transfer was pushed and read. -/
  through : s.pc = .next ∨ s.pc = .done →
    s.cur.txIdx = s.cur.xfer.totLen ∧ s.cur.rxIdx = s.cur.xfer.totLen
  last : s.pc = .done → s.rest = []

namespace SsPolled

section
variable (h : SsPolled hw ram mem₀ xs before s)
include h

theorem length_pushed : s.pushed.length = (ssPlaces before).length + s.cur.txIdx := by
  have hle := h.tx_le
  rw [h.pushed, List.length_take, ssListFrames, List.length_map, h.list, ssPlaces_append,
    ssPlaces_cons]
  simp only [List.length_append, List.length_map, List.length_range]
  omega

theorem write (hpc : s.pc = .write) (hon : s.cur.goesOn = true) :
    SsPolled hw ram mem₀ xs before (ssPollDrive hw s) := by
  have hle := h.tx_le
  obtain ⟨n, hn⟩ : ∃ n, n = min (hw.fifoDepth.toNat - s.link.tx.length)
    (s.cur.xfer.totLen - s.cur.txIdx) := ⟨_, rfl⟩
  have hsegment := ssPlaces_segment before s.rest s.cur.xfer (i := s.cur.txIdx) (n := n) (by omega)
  have hframes : (List.range' s.cur.txIdx n).map (ssPollFrame ram s.cur.xfer) =
      ((ssListFrames ram xs).drop ((ssPlaces before).length + s.cur.txIdx)).take n := by
    rw [ssListFrames, ← List.map_drop, ← List.map_take, h.list, hsegment, List.map_map]
    rfl
  simp only [ssPollDrive, hpc, hon, if_true, ssPollWrite, ← hn, h.ram_eq]
  refine ⟨h.list, rfl, h.flow.push _, ?_, h.rx_le, ?_, h.got, h.mem, by simp, by simp⟩
  · show s.cur.txIdx + n ≤ s.cur.xfer.totLen
    omega
  · rw [hframes, h.pushed, ← List.take_add, Nat.add_assoc]

theorem read (hpc : s.pc = .read) : SsPolled hw ram mem₀ xs before (ssPollDrive hw s) := by
  have hle := h.rx_le
  have hgot := h.got
  obtain ⟨n, hn⟩ : ∃ n, n = min s.link.rx.length (s.cur.xfer.totLen - s.cur.rxIdx) := ⟨_, rfl⟩
  have hlen : (s.link.rx.take n).length = n := by
    rw [List.length_take]
    omega
  simp only [ssPollDrive, hpc, ssPollRead, ← hn]
  refine ⟨h.list, h.ram_eq, h.flow.take n, h.tx_le, ?_, h.pushed, ?_, ?_, by simp, by simp⟩
  · show s.cur.rxIdx + n ≤ s.cur.xfer.totLen
    omega
  · simp only [List.length_append, hlen]
    omega
  · simp only [h.mem]
    exact (ssListStores_append h.list h.got (by rw [hlen]; omega)).symm

theorem settled (hthrough : s.cur.txIdx = s.cur.xfer.totLen ∧ s.cur.rxIdx = s.cur.xfer.totLen) :
    s.link.wire = s.pushed ∧ s.got = Link.replies hw.reply s.pushed ∧ s.link.tx = [] ∧
      s.link.line = none ∧ s.link.rx = [] := by
  refine h.flow.settled ?_
  rw [h.length_pushed, h.got, hthrough.1, hthrough.2]

theorem next (hpc : s.pc = .next) (hrest : s.rest = x :: rest) :
    SsPolled hw ram mem₀ xs (before ++ [s.cur.xfer]) (ssPollDrive hw s) := by
  have hthrough := h.through (.inl hpc)
  obtain ⟨-, -, htx, hline, hrx⟩ := h.settled hthrough
  have hlink : ssPollReset s.link = s.link := by
    cases hlink : s.link with
    | mk tx line rx wire =>
      simp only [hlink] at htx hline hrx
      rw [htx, hline, hrx]
      rfl
  have hbefore : (ssPlaces (before ++ [s.cur.xfer])).length =
      (ssPlaces before).length + s.cur.xfer.totLen := by
    rw [ssPlaces_append, List.length_append, ssPlaces_singleton_length]
  simp only [ssPollDrive, hpc, hrest, hlink]
  refine ⟨?_, h.ram_eq, h.flow, Nat.zero_le _, Nat.zero_le _, ?_, ?_, h.mem, by simp, by simp⟩
  · simp [SpiPoll.init, h.list, hrest]
  · rw [h.pushed, hbefore, hthrough.1]
    rfl
  · rw [h.got, hbefore, hthrough.2]
    rfl

theorem leave (hpc : s.pc = .write) (hon : s.cur.goesOn = false) :
    (ssPollDrive hw s).pc = .next ∧ (ssPollDrive hw s).rest = s.rest ∧
      SsPolled hw ram mem₀ xs before (ssPollDrive hw s) := by
  have hthrough : s.cur.txIdx = s.cur.xfer.totLen ∧ s.cur.rxIdx = s.cur.xfer.totLen := by
    have htx := h.tx_le
    have hrx := h.rx_le
    simp only [SpiPoll.goesOn, Bool.or_eq_false_iff, decide_eq_false_iff_not] at hon
    omega
  simp only [ssPollDrive, hpc, hon, Bool.false_eq_true, if_false, true_and]
  exact { h with through := fun _ => hthrough, last := by simp }

theorem drive : ∃ before, SsPolled hw ram mem₀ xs before (ssPollDrive hw s) := by
  cases hpc : s.pc with
  | write =>
    cases hon : s.cur.goesOn with
    | true => exact ⟨before, h.write hpc hon⟩
    | false => exact ⟨before, (h.leave hpc hon).2.2⟩
  | read => exact ⟨before, h.read hpc⟩
  | next =>
    cases hrest : s.rest with
    | nil =>
      refine ⟨before, ?_⟩
      simp only [ssPollDrive, hpc, hrest]
      exact { h with
        list := by rw [h.list, hrest], through := fun _ => h.through (.inl hpc), last := fun _ => rfl }
    | cons x rest => exact ⟨_, h.next hpc hrest⟩
  | done =>
    refine ⟨before, ?_⟩
    simp only [ssPollDrive, hpc]
    exact h

/-- At the end the frames of the list are on the wire, and the replies in the buffers. -/
theorem ended (hdone : s.pc = .done) :
    s.link.wire = ssListFrames ram xs ∧
      s.mem = ssListStores mem₀ xs (Link.replies hw.reply s.link.wire) := by
  have hthrough := h.through (.inr hdone)
  obtain ⟨hwire, hgot, -⟩ := h.settled hthrough
  have hall : s.pushed = ssListFrames ram xs := by
    rw [h.pushed, hthrough.1]
    refine List.take_of_length_le ?_
    rw [ssListFrames, List.length_map, h.list, h.last hdone, ssPlaces_append, List.length_append,
      ssPlaces_singleton_length]
  exact ⟨hwire.trans hall, by rw [h.mem, hgot, hwire]⟩

end

end SsPolled

/-! ### Whole runs -/

/-- No frame comes in when the receive FIFO is full. -/
def SsPollClean (hw : SsPollHw) (s : SsPollSys) : SsPollEvent → Prop
  | .shift => s.link.line = none ∨ s.link.rx.length < hw.fifoDepth.toNat
  | _ => True

instance (hw : SsPollHw) (s : SsPollSys) (e : SsPollEvent) : Decidable (SsPollClean hw s e) :=
  match e with
  | .shift => inferInstanceAs (Decidable (_ ∨ _))
  | .load | .drive => isTrue trivial

theorem SsPolled.step (h : SsPolled hw ram mem₀ xs before s) {e : SsPollEvent}
    (hclean : SsPollClean hw s e) (hstep : ssPollStep hw s e = .ok s') :
    ∃ before, SsPolled hw ram mem₀ xs before s' := by
  cases e with cases hstep
  | load =>
    exact ⟨before, { h with flow := h.flow.load }⟩
  | shift =>
    exact ⟨before, { h with flow := h.flow.shift hclean }⟩
  | drive => exact h.drive

theorem ss_polled {es : List SsPollEvent}
    (hrun : Runs (ssPollStep hw) (SsPollClean hw) (.start ram mem₀ x rest) es s) :
    ∃ before, SsPolled hw ram mem₀ (x :: rest) before s :=
  Runs.invariant (I := fun s => ∃ before, SsPolled hw ram mem₀ (x :: rest) before s)
    (fun _ _ _ ⟨_, h⟩ hclean hstep => h.step hclean hstep) hrun
    ⟨[], rfl, rfl, .empty _, Nat.zero_le _, Nat.zero_le _,
      by simp [SsPollSys.start, SpiPoll.init, ssPlaces], rfl,
      by simp [SsPollSys.start, ssListStores], by simp [SsPollSys.start],
      by simp [SsPollSys.start]⟩

/-! ### The end is in reach -/

/-- What is left to be done for a transfer, in steps that each frame has to make. -/
def SsPollSys.left (s : SsPollSys) : Nat :=
  4 * (s.cur.xfer.totLen - s.cur.txIdx) + 3 * s.link.tx.length + 2 * s.link.line.toList.length +
    s.link.rx.length

theorem reaches_of_drive {q : SsPollSys → Prop}
    (h : Reaches (ssPollStep hw) (SsPollClean hw) (ssPollDrive hw s) q) :
    Reaches (ssPollStep hw) (SsPollClean hw) s q :=
  h.after (e := SsPollEvent.drive) trivial rfl

namespace SsPolled

theorem write_left (hpc : s.pc = .write) (hon : s.cur.goesOn = true) :
    (ssPollDrive hw s).pc = .read ∧ (ssPollDrive hw s).rest = s.rest ∧
      (ssPollDrive hw s).link.rx = s.link.rx ∧
      (ssPollDrive hw s).left +
        min (hw.fifoDepth.toNat - s.link.tx.length) (s.cur.xfer.totLen - s.cur.txIdx) = s.left := by
  simp only [ssPollDrive, hpc, hon, if_true, ssPollWrite, SsPollSys.left, Link.push,
    List.length_append, List.length_map, List.length_range', true_and]
  omega

section
variable (h : SsPolled hw ram mem₀ xs before s)
include h

theorem inFlight : s.cur.txIdx = s.cur.rxIdx + s.link.inFlight := by
  have hflow := h.flow.length
  have hpushed := h.length_pushed
  have hgot := h.got
  omega

theorem read_left (hpc : s.pc = .read) :
    (ssPollDrive hw s).pc = .write ∧ (ssPollDrive hw s).rest = s.rest ∧
      (ssPollDrive hw s).left + s.link.rx.length = s.left := by
  have hle := h.tx_le
  have hflight := h.inFlight
  simp only [Link.inFlight] at hflight
  simp only [ssPollDrive, hpc, ssPollRead, SsPollSys.left, Link.take, List.length_drop, true_and]
  omega

/-- A turn of the loop gets on when there is a frame to read, or nothing in flight. -/
theorem turn (hdepth : 0 < hw.fifoDepth.toNat) (hpc : s.pc = .write)
    (hon : s.cur.goesOn = true) (hready : 0 < s.link.rx.length ∨ s.link.inFlight = 0) :
    Reaches (ssPollStep hw) (SsPollClean hw) s fun s' =>
      SsPolled hw ram mem₀ xs before s' ∧ s'.pc = .write ∧ s'.rest = s.rest ∧ s'.left < s.left := by
  obtain ⟨hpc₁, hrest₁, hrx₁, hleft₁⟩ := write_left hpc hon
  have h₁ := h.write hpc hon
  obtain ⟨hpc₂, hrest₂, hleft₂⟩ := h₁.read_left hpc₁
  refine reaches_of_drive (reaches_of_drive (.here ⟨h₁.read hpc₁, hpc₂, hrest₂.trans hrest₁, ?_⟩))
  have hflight := h.inFlight
  simp only [SpiPoll.goesOn, Bool.or_eq_true, decide_eq_true_eq] at hon
  rw [hrx₁] at hleft₂
  unfold Link.inFlight at hflight hready
  omega

/-- A frame that waits gets on to the line, and one that is there into the receive FIFO. -/
theorem carry (hdepth : 0 < hw.fifoDepth.toNat) (hrx : s.link.rx.length = 0)
    (hflight : s.link.inFlight ≠ 0) :
    Reaches (ssPollStep hw) (SsPollClean hw) s fun s' =>
      SsPolled hw ram mem₀ xs before s' ∧ s'.pc = s.pc ∧ s'.rest = s.rest ∧ s'.left < s.left := by
  cases hline : s.link.line with
  | some w =>
    have hroom : s.link.rx.length < hw.fifoDepth.toNat := by omega
    refine .after (e := SsPollEvent.shift) (.inr hroom) rfl
      (.here ⟨{ h with flow := h.flow.shift (.inr hroom) }, rfl, rfl, ?_⟩)
    simp only [SsPollSys.left, Link.shift, hline, if_pos hroom, List.length_append,
      Option.toList_none, Option.toList_some, List.length_nil, List.length_singleton]
    omega
  | none =>
    cases htx : s.link.tx with
    | nil =>
      simp only [Link.inFlight, htx, hline, Option.toList_none, List.length_nil, hrx] at hflight
      exact absurd rfl hflight
    | cons w tx =>
      refine .after (e := SsPollEvent.load) trivial rfl
        (.here ⟨{ h with flow := h.flow.load }, rfl, rfl, ?_⟩)
      simp only [SsPollSys.left, Link.load, hline, htx, Option.toList_none, Option.toList_some,
        List.length_nil, List.length_cons]
      omega

end

theorem reaches_next (hdepth : 0 < hw.fifoDepth.toNat) (n : Nat)
    (h : SsPolled hw ram mem₀ xs before s) (hpc : s.pc = .write) (hleft : s.left = n) :
    Reaches (ssPollStep hw) (SsPollClean hw) s fun s' =>
      s'.pc = .next ∧ s'.rest = s.rest ∧ SsPolled hw ram mem₀ xs before s' := by
  -- on what is left to be done: some step of the controller or some turn gets on
  induction n using Nat.strong_induction_on generalizing s with
  | _ n ih =>
    cases hon : s.cur.goesOn with
    | false =>
      exact reaches_of_drive (.here (h.leave hpc hon))
    | true =>
      by_cases hready : 0 < s.link.rx.length ∨ s.link.inFlight = 0
      · refine (h.turn hdepth hpc hon hready).bind fun s' ⟨h', hpc', hrest', hless⟩ => ?_
        rw [← hrest']
        exact ih _ (hleft ▸ hless) h' hpc' rfl
      · rw [not_or, Nat.not_lt, Nat.le_zero] at hready
        refine (h.carry hdepth hready.1 hready.2).bind fun s' ⟨h', hpc', hrest', hless⟩ => ?_
        rw [← hrest']
        exact ih _ (hleft ▸ hless) h' (hpc'.trans hpc) rfl

theorem reaches_done_of_next (hdepth : 0 < hw.fifoDepth.toNat)
    (h : SsPolled hw ram mem₀ xs before s) (hpc : s.pc = .next) (hrest : s.rest = rest) :
    Reaches (ssPollStep hw) (SsPollClean hw) s (·.pc = .done) := by
  induction rest generalizing s before with
  | nil =>
    refine reaches_of_drive (.here ?_)
    simp only [ssPollDrive, hpc, hrest]
  | cons x rest ih =>
    have h' := h.next hpc hrest
    refine reaches_of_drive ?_
    refine (h'.reaches_next hdepth _ ?_ rfl).bind fun s₁ ⟨hpc₁, hrest₁, h₁⟩ => ih h₁ hpc₁ ?_
    · simp only [ssPollDrive, hpc, hrest]
    · rw [hrest₁]
      simp only [ssPollDrive, hpc, hrest]

/-- From wherever the driver is, its list can be got through. -/
theorem reaches_done (hdepth : 0 < hw.fifoDepth.toNat) (h : SsPolled hw ram mem₀ xs before s) :
    Reaches (ssPollStep hw) (SsPollClean hw) s (·.pc = .done) := by
  have hwrite : ∀ {s}, SsPolled hw ram mem₀ xs before s → s.pc = .write →
      Reaches (ssPollStep hw) (SsPollClean hw) s (·.pc = .done) := fun h hpc =>
    (h.reaches_next hdepth _ hpc rfl).bind fun _ ⟨hpc₁, _, h₁⟩ =>
      h₁.reaches_done_of_next hdepth hpc₁ rfl
  cases hpc : s.pc with
  | write => exact hwrite h hpc
  | read =>
    exact reaches_of_drive (hwrite (h.read hpc) (h.read_left hpc).1)
  | next => exact h.reaches_done_of_next hdepth hpc rfl
  | done => exact Reaches.here hpc

end SsPolled

/-! ### The other driver -/

section Compare

theorem spiPlaces_one (side : DevSpiTransfer → SpiSide) (hside : ∀ x, (side x).tot = x.totLen)
    (xs : List DevSpiTransfer) :
    spiPlaces 1 (xs.map side) = (ssPlaces xs).map fun p => (side p.1).place p.2 := by
  simp only [spiPlaces, ssPlaces, SpiSide.places, List.flatMap_map, List.map_flatMap, List.map_map,
    Nat.div_one, Nat.add_sub_cancel, Nat.one_mul, hside]
  rfl

theorem txSide_place (x : DevSpiTransfer) (i : Nat) :
    x.txSide.place i = if x.txOfs.toNat ≤ i ∧ i < x.txTotlen then
      some (x.txBuf + BitVec.ofNat 32 (i - x.txOfs.toNat)) else none := rfl

theorem rxSide_place (x : DevSpiTransfer) (i : Nat) :
    x.rxSide.place i = if x.rxOfs.toNat ≤ i ∧ i < x.rxTotlen then
      some (x.rxBuf + BitVec.ofNat 32 (i - x.rxOfs.toNat)) else none := rfl

/-- What is received is stored where the DesignWare driver stores it. -/
theorem ssListStores_eq (mem : Word → Byte) (xs : List DevSpiTransfer) (got : List Word) :
    ssListStores mem xs got =
      ((spiPlaces 1 (xs.map (·.rxSide))).zip got).foldl (rxStore 1) mem := by
  rw [spiPlaces_one _ (fun _ => rfl), List.zip_map_left, List.foldl_map, ssListStores]
  congr 1
  funext mem p
  rw [ssPollStore, Prod.map_apply, rxSide_place]
  split <;> rfl

theorem txFrame_place (ram : Word → Byte) (x : DevSpiTransfer) (i : Nat) :
    (txFrame 1 ram 0xFF (x.txSide.place i)).setWidth 8 =
      if x.txOfs.toNat ≤ i ∧ i < x.txTotlen then
        ram (x.txBuf + BitVec.ofNat 32 (i - x.txOfs.toNat))
      else 0xFF := by
  rw [txSide_place]
  split
  · simp only [txFrame, if_true]
    ext j hj
    simp only [BitVec.getElem_setWidth, BitVec.getLsbD_signExtend, if_pos hj]
    rw [decide_eq_true (by omega : j < 32), Bool.true_and, BitVec.getLsbD_eq_getElem hj]
  · rfl

theorem ssPollFrame_byte (ram : Word → Byte) (x : DevSpiTransfer) (i : Nat) :
    (ssPollFrame ram x i).setWidth 8 =
      if x.txOfs.toNat ≤ i ∧ i < x.txTotlen then ram (x.txBuf + BitVec.ofNat 32 i) else 0xFF := by
  unfold ssPollFrame
  split
  · simp
  · rfl

/-- The two drivers send the same bytes for a list in which the bytes behind an offset are those in
front of it. -/
theorem frames_eq_iff (ram : Word → Byte) (xs : List DevSpiTransfer) :
    (ssListFrames ram xs).map (·.setWidth 8) =
        ((spiPlaces 1 (xs.map (·.txSide))).map (txFrame 1 ram 0xFF)).map (·.setWidth 8) ↔
      ∀ x ∈ xs, ∀ i, x.txOfs.toNat ≤ i → i < x.txTotlen →
        ram (x.txBuf + BitVec.ofNat 32 i) =
          ram (x.txBuf + BitVec.ofNat 32 (i - x.txOfs.toNat)) := by
  rw [spiPlaces_one _ (fun _ => rfl), ssListFrames, List.map_map, List.map_map, List.map_map,
    List.map_inj_left]
  simp only [ssPlaces, List.mem_flatMap, List.mem_map, List.mem_range, Function.comp_apply,
    ssPollFrame_byte, txFrame_place]
  constructor
  · intro h x hx i hofs hlen
    have hi : i < x.totLen := Nat.lt_of_lt_of_le hlen x.totlen_le.1
    have hbyte := h (x, i) ⟨x, hx, i, hi, rfl⟩
    rwa [if_pos ⟨hofs, hlen⟩, if_pos ⟨hofs, hlen⟩] at hbyte
  · rintro h _ ⟨x, hx, i, -, rfl⟩
    split
    · rename_i hin
      exact h x hx i hin.1 hin.2
    · rfl

variable {dwHw : DwHw} {cbs : SpiCbs} {dev : SpiDev} {sys sys' : SpiSys}

/-- A list that is counted as nothing leaves the line and the buffers alone. -/
structure SpiUntouched (mem : Word → Byte) (sys : SpiSys) : Prop where
  at_rest : sys.pc = .write ∨ sys.pc = .done
  xferLen : sys.dev.xfer.xferLen = 0
  link : sys.link = .empty
  mem_eq : sys.dev.mem = mem

theorem SpiUntouched.move {mem : Word → Byte} {e : SpiEvent} (h : SpiUntouched mem sys)
    (hmove : SpiMove dwHw cbs sys e sys') : SpiUntouched mem sys' := by
  have hend : dwSpiXferEnd sys.dev.xfer = true := by simp [dwSpiXferEnd, h.xferLen]
  cases hmove with
  | load | shift => exact { h with link := by rw [h.link]; rfl }
  | stay => exact h
  | leave => exact { h with at_rest := .inr rfl }
  | write hpc hnot =>
    rw [hend] at hnot
    exact absurd hnot (by simp)
  | enter _ hpc | off _ hpc | read hpc | exit _ hpc | complete _ hpc =>
    rcases h.at_rest with hc | hc <;> rw [hpc] at hc <;> exact absurd hc (by simp)

/-- A list that is carried out is on the wire at the end, and the replies in the buffers. -/
theorem dw_polled_run {es : List SpiEvent} (hs : dev.xfer = dwSpiInitTransfer xs dev.dfs)
    (haligned : dwSpiChkXferAligned xs dev.dfs = 0) (hlist : SpiListOk xs dev.dfs)
    (hrun : Runs (spiStep dwHw cbs) (SpiClean dwHw) (.start dev .write) es sys)
    (hdone : sys.pc = .done) :
    sys.link.wire = dev.listFrames xs ∧
      sys.dev.mem = dev.listStores xs (Link.replies dwHw.reply sys.link.wire) := by
  have hframes := places_eq_frames haligned hlist
  have hsends : dev.sends xs (spiFrames xs dev.dfs) = dev.listFrames xs := by
    rw [SpiDev.sends, spiTx_eq_places haligned hlist (Nat.le_refl _), ← hframes, List.take_length,
      SpiDev.listFrames]
  by_cases hzero : (dwSpiInitTransfer xs dev.dfs).xferLen = 0
  · have huntouched := Runs.invariant (I := SpiUntouched dev.mem)
      (fun _ _ _ h _ hstep => h.move (spiStep_move hstep)) hrun
      ⟨.inl rfl, by rw [← hzero, ← hs]; rfl, rfl, rfl⟩
    have hnone : dev.listFrames xs = [] := by
      rw [← List.length_eq_zero_iff, SpiDev.length_listFrames, hframes, spiFrames, hzero,
        Nat.zero_div]
    rw [huntouched.link, hnone, huntouched.mem_eq]
    exact ⟨rfl, by simp [SpiDev.listStores, Link.empty, Link.replies]⟩
  · rcases polled_run hs hzero hrun with ⟨-, -, hpc⟩ | ⟨hover, -, hmem⟩
    · exact absurd hdone hpc
    · obtain ⟨hwire, hgot, -⟩ := hover.settled
      rw [hsends] at hwire hgot
      have hlen : sys.got.length = spiFrames xs dev.dfs := by
        rw [hgot, Link.length_replies, SpiDev.length_listFrames, hframes]
      refine ⟨hwire, ?_⟩
      rw [hmem, hwire, ← hgot, SpiDev.stores, hlen, spiRx_eq_places haligned hlist (Nat.le_refl _),
        ← hframes, ← places_length_rx, List.take_length, SpiDev.listStores]

end Compare

/-- **The polled transfers of the two drivers send the same bytes and store the same bytes**, for
any list that the DesignWare driver carries out, exactly when every transfer has the bytes of its
buffer repeated at its transmit offset; an offset of zero will do.  And the subsystem's driver can
always get to the end of its list. -/
theorem ss_spi_polled_as_dw_iff (s : SpiDev) (param : Word) (x : DevSpiTransfer)
    (rest : List DevSpiTransfer) (hdfs : s.dfs = 8) (hdummy : s.dummy = 0xFF)
    (hlist : SpiListOk (x :: rest) 8) (hok : (dwSpiTransferPolling s param (x :: rest)).1 = eOk)
    (reply : List Byte → Word) (dwHw : DwHw) (hw : SsPollHw) (hdepth : hw.fifoDepth ≠ 0)
    (hdwReply : dwHw.reply = fun ws => reply (ws.map (·.setWidth 8)))
    (hreply : hw.reply = fun ws => reply (ws.map (·.setWidth 8))) (cbs : SpiCbs)
    (es : List SpiEvent) (sys : SpiSys) (hrun : Runs (spiStep dwHw cbs) (SpiClean dwHw)
      (.start (dwSpiTransferPolling s param (x :: rest)).2 .write) es sys)
    (hdone : sys.pc = .done) (es' : List SsPollEvent) (sys' : SsPollSys)
    (hrun' : Runs (ssPollStep hw) (SsPollClean hw) (.start s.ram s.mem x rest) es' sys') :
    Reaches (ssPollStep hw) (SsPollClean hw) sys' (·.pc = .done) ∧
    (sys'.pc = .done →
      (sys'.link.wire.map (·.setWidth 8) = sys.link.wire.map (BitVec.setWidth 8) ∧
          sys'.mem = sys.dev.mem ↔
        ∀ y ∈ x :: rest, ∀ i, y.txOfs.toNat ≤ i → i < y.txTotlen →
          s.ram (y.txBuf + BitVec.ofNat 32 i) =
            s.ram (y.txBuf + BitVec.ofNat 32 (i - y.txOfs.toNat)))) := by
  have hpos : 0 < hw.fifoDepth.toNat :=
    Nat.pos_of_ne_zero fun hc => hdepth (BitVec.eq_of_toNat_eq hc)
  obtain ⟨before, hpolled⟩ := ss_polled hrun'
  refine ⟨hpolled.reaches_done hpos, fun hdone' => ?_⟩
  obtain ⟨hwire', hmem'⟩ := hpolled.ended hdone'
  obtain ⟨-, hstart⟩ := transferPolling_ok hok
  have haligned : dwSpiChkXferAligned (x :: rest) s.dfs = 0 := by
    rw [hdfs]
    rfl
  generalize (dwSpiTransferPolling s param (x :: rest)).2 = dev at hstart hrun
  have hdev : dev.dfs = 8 ∧ dev.dummy = 0xFF ∧ dev.ram = s.ram ∧ dev.mem = s.mem := by
    rw [hstart]
    exact ⟨hdfs, hdummy, rfl, rfl⟩
  obtain ⟨hwire, hmem⟩ := dw_polled_run (by rw [hstart]) (by rw [hstart]; exact haligned)
    (by rw [hdev.1]; exact hlist) hrun hdone
  have hbytes : dev.listFrames (x :: rest) =
      (spiPlaces 1 ((x :: rest).map (·.txSide))).map (txFrame 1 s.ram 0xFF) := by
    rw [SpiDev.listFrames, hdev.1, hdev.2.1, hdev.2.2.1]
    rfl
  rw [hwire', hwire, hbytes, frames_eq_iff]
  refine and_iff_left_of_imp fun hsame => ?_
  have hwires := (frames_eq_iff s.ram (x :: rest)).mpr hsame
  rw [← hwire', ← hbytes, ← hwire] at hwires
  rw [hmem', hmem, ssListStores_eq, SpiDev.listStores, hdev.1, hdev.2.2.2, hreply, hdwReply,
    Link.replies_congr _ reply hwires]
  rfl

def ssPollSmall : SsPollHw where
  present := true
  maxXferSize := 16
  fifoDepth := 1
  size_ok := SsSpiHw.small_ok
  reply := fun _ => 5

/-- An open device that holds in every byte of its memory the low byte of the address. -/
def spiNumbered : SpiDev :=
  { spiOpened with dummy := 0xFF, ram := fun a => a.setWidth 8 }

def spiShifted : DevSpiTransfer :=
  { txBuf := 0x100, txOfs := 1, txLen := 1, rxBuf := 0, rxOfs := 0, rxLen := 0 }

/-- Three bytes through FIFOs of one. -/
theorem ss_spi_polled_as_dw_three :
    ∃ (sys : SpiSys) (sys' : SsPollSys), sys.pc = .done ∧ sys'.pc = .done ∧
      sys'.link.wire = [0, 1, 2] ∧
      sys'.link.wire.map (·.setWidth 8) = sys.link.wire.map (BitVec.setWidth 8) ∧
      sys'.mem = sys.dev.mem := by
  have hagree := (ss_spi_polled_as_dw_iff spiNumbered 0x40 ((spiBytes 3).headD spiShifted) [] rfl
    rfl ⟨by decide, by decide, by decide⟩ (by decide) (fun _ => 5) spiSmall ssPollSmall (by decide)
    rfl rfl spiCallback
    [.drive, .load, .shift, .drive, .drive, .load, .shift, .drive, .drive, .load, .shift, .drive,
      .drive] _ (.of_follow rfl) (by decide)
    [.drive, .load, .shift, .drive, .drive, .load, .shift, .drive, .drive, .load, .shift, .drive,
      .drive, .drive] _ (.of_follow rfl)).2 (by decide)
  refine ⟨_, _, by decide, by decide, by decide, hagree.mpr ?_⟩
  intro y hy i _ _
  rw [List.mem_singleton.mp hy]
  rfl

/-- The DesignWare driver sends the first byte of the buffer at the offset, the subsystem's driver
the byte behind it.  And where a transfer of length zero has a dummy pushed by the one, the other
sends the bytes that follow it. -/
theorem ss_spi_polled_shifted :
    (∃ (es : List SpiEvent) (sys : SpiSys) (es' : List SsPollEvent) (sys' : SsPollSys),
      Runs (spiStep spiSmall spiCallback) (SpiClean spiSmall)
        (.start (dwSpiTransferPolling spiNumbered 0x40 [spiShifted]).2 .write) es sys ∧
      sys.pc = .done ∧
      Runs (ssPollStep ssPollSmall) (SsPollClean ssPollSmall)
        (.start spiNumbered.ram spiNumbered.mem spiShifted []) es' sys' ∧
      sys'.pc = .done ∧ sys.link.wire = [0xFF, 0] ∧ sys'.link.wire = [0xFF, 1]) ∧
    ∃ (es : List SpiEvent) (sys : SpiSys) (es' : List SsPollEvent) (sys' : SsPollSys),
      Runs (spiStep spiSmall spiCallback) (SpiClean spiSmall)
        (.start (dwSpiTransferPolling spiNumbered 0x40 spiGap).2 .write) es sys ∧
      sys.pc = .done ∧
      Runs (ssPollStep ssPollSmall) (SsPollClean ssPollSmall)
        (.start spiNumbered.ram spiNumbered.mem (spiGap.headD spiShifted) spiGap.tail) es' sys' ∧
      sys'.pc = .done ∧ sys.link.wire = [0, 0xFF] ∧ sys'.link.wire = [0, 0] := by
  constructor
  · exact ⟨[.drive, .load, .shift, .drive, .drive, .load, .shift, .drive, .drive], _,
      [.drive, .load, .shift, .drive, .drive, .load, .shift, .drive, .drive, .drive], _,
      .of_follow rfl, by decide, .of_follow rfl, by decide, by decide, by decide⟩
  · exact ⟨[.drive, .load, .shift, .drive, .drive, .load, .shift, .drive, .drive], _,
      [.drive, .load, .shift, .drive, .drive, .drive, .drive, .drive, .drive, .load, .shift,
        .drive, .drive, .drive], _, .of_follow rfl, by decide, .of_follow rfl, by decide,
      by decide, by decide⟩

end Embarc
