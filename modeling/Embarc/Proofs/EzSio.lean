/-
What passes through a serial object.

Output is kept whole: what the UART was handed, followed by what waits in the transmit ring
buffer, is what the writes accepted.  The direct write happens only while nothing waits, so
it cannot overtake, and the callback takes from the front what it hands on.

Input is not.  The receive callback takes up to `BUFSZ_LOCAL` bytes from the UART whenever
the ring buffer is not full, and those that do not fit are gone.  Nothing is lost as long as
each round finds the ring buffer full or with room for all it takes; `RxFits` says when a
callback goes through like that.

A count is reported in an `int32_t`, so one of `2 ^ 31` bytes or more is reported as a
negative number.
-/
import Embarc.Middleware.EzSio
import Embarc.Proofs.RingBuffer

namespace Embarc

open BoundedQueue

theorem localCnt_pos {avail : Nat} (h : 0 < avail) : 0 < localCnt avail := by
  unfold localCnt bufszLocal
  split <;> omega

theorem localCnt_le (avail : Nat) : localCnt avail ≤ avail := by
  unfold localCnt
  split <;> omega

/-! ### Each direction leaves the other alone -/

structure SioState.RxSame (s s' : SioState) : Prop where
  rcvRb : s'.sio.rcvRb = s.sio.rcvRb
  fifo : s'.fifo = s.fifo
  delivered : s'.delivered = s.delivered
  taken : s'.taken = s.taken

variable {s s' : SioState} {n fuel cnt : Nat} {q : BoundedQueue Byte n} {buf : List Byte}
  {rb : Option RingBuffer} {arrivals : Nat → List Byte}

structure SioState.TxSame (s s' : SioState) : Prop where
  sndRb : s'.sio.sndRb = s.sio.sndRb
  txInt : s'.txInt = s.txInt
  sent : s'.sent = s.sent
  accepted : s'.accepted = s.accepted

namespace SioState

theorem RxSame.refl (s : SioState) : s.RxSame s := ⟨rfl, rfl, rfl, rfl⟩

theorem RxSame.trans {s'' : SioState} (h : s.RxSame s') (h' : s'.RxSame s'') : s.RxSame s'' :=
  ⟨h'.rcvRb.trans h.rcvRb, h'.fifo.trans h.fifo, h'.delivered.trans h.delivered,
    h'.taken.trans h.taken⟩

theorem TxSame.refl (s : SioState) : s.TxSame s := ⟨rfl, rfl, rfl, rfl⟩

theorem TxSame.trans {s'' : SioState} (h : s.TxSame s') (h' : s'.TxSame s'') : s.TxSame s'' :=
  ⟨h'.sndRb.trans h.sndRb, h'.txInt.trans h.txInt, h'.sent.trans h.sent,
    h'.accepted.trans h.accepted⟩

end SioState

theorem sioTxRound_rxSame (s : SioState) (wrAvail : Nat) :
    s.RxSame (sioTxRound s wrAvail).2 ∧ (sioTxRound s wrAvail).2.accepted = s.accepted := by
  simp only [sioTxRound]
  split_ifs <;> exact ⟨⟨rfl, rfl, rfl, rfl⟩, rfl⟩

theorem sioTxCallback_rxSame (s : SioState) (rooms : Nat → Word) :
    s.RxSame (sioTxCallback s rooms) ∧ (sioTxCallback s rooms).accepted = s.accepted := by
  refine Trace.loop_invariant (I := fun s' => s.RxSame s' ∧ s'.accepted = s.accepted) ?_
    ⟨SioState.RxSame.refl s, rfl⟩ rooms _
  intro s' room ⟨hsame, hacc⟩
  obtain ⟨hround, hacc'⟩ := sioTxRound_rxSame s' room.toNat
  exact ⟨hsame.trans hround, hacc'.trans hacc⟩

theorem sioRxRound_txSame (s : SioState) :
    s.TxSame (sioRxRound s).2 ∧ (sioRxRound s).2.taken = s.taken ∧
      (sioRxRound s).2.delivered = s.delivered := by
  simp only [sioRxRound]
  split_ifs <;> exact ⟨⟨rfl, rfl, rfl, rfl⟩, rfl, rfl⟩

theorem sioRxCallback_txSame (s : SioState) (arrivals : Nat → List Byte) :
    s.TxSame (sioRxCallback s arrivals) := by
  refine Trace.loop_invariant (I := fun s' => s.TxSame s') ?_ (SioState.TxSame.refl s) arrivals _
  intro s' data hsame
  have harrive : s'.TxSame (s'.arrive data) := ⟨rfl, rfl, rfl, rfl⟩
  exact (hsame.trans harrive).trans (sioRxRound_txSame (s'.arrive data)).1

theorem ezSioWrite_rxSame (s : SioState) (buf : List Byte) (room : Word) :
    s.RxSame (ezSioWrite s buf room).2 := by
  have hdirect : s.RxSame (ezSioWriteDirect s buf room).2.2 := by
    simp only [ezSioWriteDirect]
    split_ifs <;> exact ⟨rfl, rfl, rfl, rfl⟩
  simp only [ezSioWrite]
  split
  · exact hdirect.trans ⟨rfl, rfl, rfl, rfl⟩
  · exact hdirect

/-! ### Output -/

/-- The transmit ring buffer holds the queue, and the transmit interrupt is enabled while something
waits in it. -/
structure SioState.TxKeeps {n : Nat} (s : SioState) (q : BoundedQueue Byte n) : Prop where
  refines : RbRefines s.sio.sndRb q
  armed : q.items ≠ [] → s.txInt = true

/-- A round hands on what it takes from the front; it asks again only if it took something. -/
theorem sioTxRound_keeps (h : s.TxKeeps q) (wrAvail : Nat) :
    ∃ q' : BoundedQueue Byte n, (sioTxRound s wrAvail).2.TxKeeps q' ∧
      (sioTxRound s wrAvail).2.sent ++ q'.items = s.sent ++ q.items ∧
      ((sioTxRound s wrAvail).1 = true → q'.items.length < q.items.length) := by
  obtain ⟨rb, hrb, hholds⟩ := h.refines
  obtain ⟨rb', hpop, hholds'⟩ := hholds.pop (localCnt wrAvail)
  unfold sioTxRound
  split
  case isFalse => exact ⟨q, h, rfl, nofun⟩
  case isTrue hroom =>
    have hpos := localCnt_pos hroom
    simp only [hrb, hpop]
    refine ⟨q.pop (localCnt wrAvail), ?_⟩
    by_cases hq : q.items = []
    · -- nothing waits, so the interrupt is disabled and no further query made
      have hpopped : (q.pop (localCnt wrAvail)).items = [] := by simp [pop, hq]
      simp only [hq, List.take_nil, List.length_nil, Nat.lt_irrefl, if_false, hpopped]
      refine ⟨⟨⟨rb', rfl, hholds'⟩, fun hne => absurd hpopped hne⟩, rfl, ?_⟩
      simp only [decide_eq_true_eq]
      omega
    · have hlen := List.length_pos_iff.mpr hq
      have htake : 0 < (q.items.take (localCnt wrAvail)).length := by
        rw [List.length_take]
        omega
      rw [if_pos htake]
      refine ⟨⟨⟨rb', rfl, hholds'⟩, fun _ => h.armed hq⟩, ?_, fun _ => ?_⟩
      · show s.sent ++ q.items.take _ ++ q.items.drop _ = s.sent ++ q.items
        rw [List.append_assoc, List.take_append_drop]
      · show (q.items.drop _).length < _
        rw [List.length_drop]
        omega

theorem sioTxCallback_keeps (h : s.TxKeeps q) (rooms : Nat → Word) :
    ∃ q' : BoundedQueue Byte n, (sioTxCallback s rooms).TxKeeps q' ∧
      (sioTxCallback s rooms).sent ++ q'.items = s.sent ++ q.items := by
  refine Trace.loop_invariant
    (I := fun s' : SioState => ∃ q' : BoundedQueue Byte n, s'.TxKeeps q' ∧
      s'.sent ++ q'.items = s.sent ++ q.items) ?_ ⟨q, h, rfl⟩ rooms _
  intro s' room ⟨q', hkeeps, hsent⟩
  obtain ⟨q'', hkeeps', hsent', -⟩ := sioTxRound_keeps hkeeps room.toNat
  exact ⟨q'', hkeeps', hsent'.trans hsent⟩

theorem SioState.TxKeeps.sndCount_eq (h : s.TxKeeps q) : s.sndCount = q.items.length := by
  obtain ⟨rb, hrb, hholds⟩ := h.refines
  have hcount := hholds.count
  have hsize := hholds.size
  rw [sndCount, hrb, Option.elim_some]
  omega

/-- The transmit callback ends by itself, whatever room it is told of. -/
theorem sioTxCallback_ends (h : s.TxKeeps q) (rooms : Nat → Word) (hfuel : s.sndCount < fuel) :
    Trace.loop (fun s room => sioTxRound s room.toNat) s rooms fuel = sioTxCallback s rooms := by
  refine Trace.loop_ends (I := fun s => ∃ q : BoundedQueue Byte n, s.TxKeeps q) ?_ ?_ ⟨q, h⟩ rooms
    hfuel (Nat.lt_succ_self _)
  · intro s room ⟨q, h⟩
    obtain ⟨q', hkeeps, -⟩ := sioTxRound_keeps h room.toNat
    exact ⟨q', hkeeps⟩
  · intro s room ⟨q, h⟩ hagain
    obtain ⟨q', hkeeps, -, hless⟩ := sioTxRound_keeps h room.toNat
    rw [hkeeps.sndCount_eq, h.sndCount_eq]
    exact hless hagain

/-- How much of a write goes past the ring buffer: nothing while something waits. -/
def directCnt {n : Nat} (q : BoundedQueue Byte n) (buf : List Byte) (room : Word) : Nat :=
  if q.isEmpty ∧ room.toInt > 0 then min room.toNat buf.length else 0

def acceptedCnt {n : Nat} (q : BoundedQueue Byte n) (buf : List Byte) (room : Word) : Nat :=
  directCnt q buf room + q.room (buf.drop (directCnt q buf room))

theorem directCnt_le (q : BoundedQueue Byte n) (buf : List Byte) (room : Word) :
    directCnt q buf room ≤ buf.length := by
  unfold directCnt
  split
  · exact Nat.min_le_right _ _
  · exact Nat.zero_le _

theorem acceptedCnt_le (q : BoundedQueue Byte n) (buf : List Byte) (room : Word) :
    acceptedCnt q buf room ≤ buf.length := by
  have hle := directCnt_le q buf room
  simp only [acceptedCnt, BoundedQueue.room, List.length_drop]
  omega

theorem ezSioWriteDirect_eq (h : s.TxKeeps q) (buf : List Byte) (room : Word) :
    ezSioWriteDirect s buf room =
      (directCnt q buf room, buf.length - directCnt q buf room,
        s.uartWrite (buf.take (directCnt q buf room))) := by
  obtain ⟨rb, hrb, hholds⟩ := h.refines
  have hnone : s.uartWrite (buf.take 0) = s := by simp [SioState.uartWrite]
  have hempty_iff : ((if q.isEmpty then (1 : Int) else 0) = 1) ↔ q.isEmpty := by
    split <;> simp_all
  simp only [ezSioWriteDirect, hrb, hholds.isempty_eq, hempty_iff]
  unfold directCnt
  by_cases hdirect : q.isEmpty ∧ room.toInt > 0
  · obtain ⟨hempty, hroom⟩ := hdirect
    rw [if_pos (⟨hempty, hroom⟩ : q.isEmpty ∧ room.toInt > 0)]
    by_cases hcnt : buf.length > 0
    · rw [if_pos ⟨hempty, hcnt⟩, if_pos hroom]
      by_cases hmore : room.toNat > buf.length
      · rw [if_pos hmore, if_pos hmore, Nat.min_eq_right (Nat.le_of_lt hmore), Nat.sub_self]
      · rw [if_neg hmore, if_neg hmore, Nat.min_eq_left (Nat.le_of_not_lt hmore)]
    · have hzero : buf.length = 0 := Nat.eq_zero_of_not_pos hcnt
      rw [if_neg fun hc => hcnt hc.2, hzero, Nat.min_zero, hnone]
  · rw [if_neg hdirect, hnone, Nat.sub_zero]
    split
    · rename_i hcond
      exact if_neg fun hroom => hdirect ⟨hcond.1, hroom⟩
    · rfl

/-- A write accepts a prefix, and the count of it is what it returns. -/
theorem ezSioWrite_keeps (h : s.TxKeeps q) (buf : List Byte) (room : Word) :
    ∃ q' : BoundedQueue Byte n, (ezSioWrite s buf room).1 = i32 (acceptedCnt q buf room) ∧
      (ezSioWrite s buf room).2.TxKeeps q' ∧ (ezSioWrite s buf room).2.accepted = s.accepted ∧
      (ezSioWrite s buf room).2.sent ++ q'.items =
        s.sent ++ q.items ++ buf.take (acceptedCnt q buf room) := by
  obtain ⟨rb, hrb, hholds⟩ := h.refines
  have hdirect := ezSioWriteDirect_eq h buf room
  have hle := directCnt_le q buf room
  unfold acceptedCnt
  -- what is written directly comes behind what waits, for then nothing does
  have hbehind : s.sent ++ buf.take (directCnt q buf room) ++ q.items =
      s.sent ++ q.items ++ buf.take (directCnt q buf room) := by
    unfold directCnt
    split
    · rename_i hc
      simp [show q.items = [] from hc.1]
    · simp
  generalize directCnt q buf room = w at hdirect hle hbehind ⊢
  have hsnd : (s.uartWrite (buf.take w)).sio.sndRb = some rb := hrb
  have hdata : (buf.drop w).take (buf.length - w) = buf.drop w :=
    List.take_of_length_le (by rw [List.length_drop])
  obtain ⟨rb', hpush, hholds'⟩ := hholds.push (buf.drop w)
  simp only [ezSioWrite, hdirect, hsnd, hdata, hpush]
  split
  · refine ⟨q.push (buf.drop w), rfl, ⟨⟨rb', rfl, hholds'⟩, fun _ => rfl⟩, rfl, ?_⟩
    show s.sent ++ buf.take w ++ (q.items ++ (buf.drop w).take (n - q.items.length)) = _
    have htake : (buf.drop w).take (n - q.items.length) =
        (buf.drop w).take (q.room (buf.drop w)) := by
      rw [BoundedQueue.room, ← List.take_eq_take_min]
    rw [← List.append_assoc, hbehind, htake, List.take_add, ← List.append_assoc]
  · rename_i hcnt
    have hroom : q.room (buf.drop w) = 0 := by
      simp only [BoundedQueue.room, List.length_drop]
      omega
    rw [hroom, Nat.add_zero]
    exact ⟨q, rfl, ⟨⟨rb, hrb, hholds⟩, h.armed⟩, rfl, hbehind⟩

theorem rbItems_eq (h : RbRefines rb q) : rbItems rb = q.items := by
  obtain ⟨rb, rfl, hholds⟩ := h
  exact hholds.items_eq

/-- Nothing is lost, duplicated or reordered on the way out. -/
def SioState.TxWhole (s : SioState) : Prop := s.sent ++ rbItems s.sio.sndRb = s.accepted

/-- The state of the sending side between calls. -/
def SioState.TxOK (n : Nat) (s : SioState) : Prop :=
  ∃ q : BoundedQueue Byte n, s.TxKeeps q ∧ s.sent ++ q.items = s.accepted

theorem SioState.TxOK.whole (h : s.TxOK n) : s.TxWhole := by
  obtain ⟨q, hkeeps, hsent⟩ := h
  rw [TxWhole, rbItems_eq hkeeps.refines, hsent]

theorem SioState.TxOK.of_same (h : s.TxOK n) (hsame : s.TxSame s') : s'.TxOK n := by
  obtain ⟨q, hkeeps, hsent⟩ := h
  refine ⟨q, ⟨hsame.sndRb ▸ hkeeps.refines, hsame.txInt ▸ hkeeps.armed⟩, ?_⟩
  rw [hsame.sent, hsame.accepted, hsent]

theorem SioState.TxOK.txReady (h : s.TxOK n) (rooms : Nat → Word) :
    (sioStep s (.txReady rooms)).TxOK n := by
  obtain ⟨q, hkeeps, hsent⟩ := h
  obtain ⟨q', hkeeps', hsent'⟩ := sioTxCallback_keeps hkeeps rooms
  exact ⟨q', hkeeps', (hsent'.trans hsent).trans (sioTxCallback_rxSame s rooms).2.symm⟩

/-- A write keeps the output whole exactly if an `int32_t` can hold the count it accepts. -/
theorem SioState.TxKeeps.write_whole_iff (h : s.TxKeeps q) (hsent : s.sent ++ q.items = s.accepted)
    (hbuf : buf.length < 2 ^ 32) (room : Word) :
    (sioStep s (.write buf room)).TxWhole ↔ acceptedCnt q buf room < 2 ^ 31 := by
  obtain ⟨q', hret, hkeeps, hacc, hsent'⟩ := ezSioWrite_keeps h buf room
  have hle := acceptedCnt_le q buf room
  have hwhole : (sioStep s (.write buf room)).TxWhole ↔
      buf.take (acceptedCnt q buf room) = buf.take (i32 (acceptedCnt q buf room)).toNat := by
    show (ezSioWrite s buf room).2.sent ++ rbItems (ezSioWrite s buf room).2.sio.sndRb =
      (ezSioWrite s buf room).2.accepted ++ buf.take (ezSioWrite s buf room).1.toNat ↔ _
    rw [rbItems_eq hkeeps.refines, hacc, hret, ← hsent, hsent', List.append_cancel_left_eq]
  rw [hwhole]
  constructor
  · intro htake
    by_contra hlarge
    rw [i32_toNat_eq_zero (Nat.le_of_not_lt hlarge) (by omega)] at htake
    have hlen := congrArg List.length htake
    rw [List.length_take, List.length_take] at hlen
    omega
  · intro hsmall
    rw [i32_toNat hsmall]

theorem SioState.TxOK.write (h : s.TxOK n) (hbuf : buf.length < 2 ^ 31) (room : Word) :
    (sioStep s (.write buf room)).TxOK n := by
  obtain ⟨q, hkeeps, hsent⟩ := h
  obtain ⟨q', hret, hkeeps', hacc, hsent'⟩ := ezSioWrite_keeps hkeeps buf room
  refine ⟨q', ⟨hkeeps'.refines, hkeeps'.armed⟩, ?_⟩
  show (ezSioWrite s buf room).2.sent ++ q'.items =
    (ezSioWrite s buf room).2.accepted ++ buf.take (ezSioWrite s buf room).1.toNat
  rw [hsent', hret, i32_toNat (Nat.lt_of_le_of_lt (acceptedCnt_le q buf room) hbuf), hsent, hacc]

theorem sioStep_txOK (h : s.TxOK n) (e : SioEvent)
    (he : ∀ buf room, e = .write buf room → buf.length < 2 ^ 31) : (sioStep s e).TxOK n := by
  cases e with
  | write buf room => exact h.write (he buf room rfl) room
  | txReady rooms => exact h.txReady rooms
  | arrive data => exact h.of_same ⟨rfl, rfl, rfl, rfl⟩
  | rxReady arrivals => exact h.of_same (sioRxCallback_txSame s arrivals)
  | read cnt => exact h.of_same ⟨rfl, rfl, rfl, rfl⟩

theorem ezSioOpen_eq_some {uart : Bool} {sio : Option (RingBuffer × RingBuffer)}
    {ptr : Option (Nat → Byte)} {txBufsz rxBufsz : Word}
    (h : ezSioOpen uart sio ptr txBufsz rxBufsz = some s) :
    (txBufsz ≠ 0 → s.TxOK txBufsz.toNat) ∧
      (rxBufsz ≠ 0 → RbRefines s.sio.rcvRb (BoundedQueue.empty Byte rxBufsz.toNat) ∧
        s.taken = [] ∧ s.fifo = [] ∧ s.delivered = []) := by
  simp only [ezSioOpen] at h
  split_ifs at h
  split at h <;> cases h
  case h_1 sndRb rcvRb ptr =>
    constructor
    · intro htx
      obtain ⟨rb, hinit, hholds⟩ := rbInit_holds sndRb ptr htx
      exact ⟨BoundedQueue.empty Byte _, ⟨⟨rb, by simp only [hinit], hholds⟩,
        fun hne => absurd rfl hne⟩, rfl⟩
    · intro hrx
      obtain ⟨rb, hinit, hholds⟩ := rbInit_holds rcvRb (fun i => ptr (txBufsz.toNat + i)) hrx
      exact ⟨⟨rb, by simp only [hinit], hholds⟩, rfl, rfl, rfl⟩

/-- The events of a run of an object with buffers of the given sizes: an object without a receive
buffer receives nothing, one without a transmit buffer sends nothing. -/
def SioEvent.Uses (txBufsz rxBufsz : Word) : SioEvent → Prop
  | .write .. | .txReady _ => txBufsz ≠ 0
  | .arrive _ => True
  | .rxReady _ | .read _ => rxBufsz ≠ 0

/-- The event moves no more bytes than an `int32_t` can count. -/
def SioEvent.Countable : SioEvent → Prop
  | .write buf _ => buf.length < 2 ^ 31
  | .read cnt => cnt < 2 ^ 31
  | _ => True

def sioRun (s : SioState) (e : SioEvent) : Except Empty SioState := .ok (sioStep s e)

/-- **What the UART was handed and what waits is what the writes reported as accepted**, in every
run whose writes are of less than `2 ^ 31` bytes. -/
theorem serial_output_whole {uart : Bool} {sio : Option (RingBuffer × RingBuffer)}
    {ptr : Option (Nat → Byte)} {txBufsz rxBufsz : Word} {s₀ s : SioState} {es : List SioEvent}
    (hopen : ezSioOpen uart sio ptr txBufsz rxBufsz = some s₀) (htx : txBufsz ≠ 0)
    (hrun : Trace.Runs sioRun (fun _ e => e.Uses txBufsz rxBufsz ∧ e.Countable) s₀ es s) :
    s.sent ++ rbItems s.sio.sndRb = s.accepted := by
  have hok : s.TxOK txBufsz.toNat := by
    refine hrun.invariant (I := fun s => s.TxOK txBufsz.toNat) ?_ ((ezSioOpen_eq_some hopen).1 htx)
    intro s e s' h hcond hstep
    cases hstep
    refine sioStep_txOK h e ?_
    rintro buf room rfl
    exact hcond.2
  exact hok.whole

def blankRb : RingBuffer := ⟨fun _ => 0, 0, 0, 0, 0⟩

/-- A write of four bytes to an object with room for two of them, and a transmit callback. -/
def writeThenSend (s : SioState) : SioState :=
  sioStep (sioStep s (.write [1, 2, 3, 4] 1)) (.txReady fun _ => 7)

theorem serial_output_whole_of_three :
    ∃ s, ezSioOpen true (some (blankRb, blankRb)) (some fun _ => 0) 2 0 = some s ∧
      (writeThenSend s).accepted = [1, 2, 3] ∧
      (writeThenSend s).sent ++ rbItems (writeThenSend s).sio.sndRb =
        (writeThenSend s).accepted := by
  obtain ⟨s, hopen⟩ : ∃ s, ezSioOpen true (some (blankRb, blankRb)) (some fun _ => 0) 2 0 = some s :=
    ⟨_, rfl⟩
  have htx : (2 : Word) ≠ 0 := by decide
  have hshort : [(1 : Byte), 2, 3, 4].length < 2 ^ 31 := by decide
  have hrun : Trace.Runs sioRun (fun _ e => e.Uses 2 0 ∧ e.Countable) s
      [.write [1, 2, 3, 4] 1, .txReady fun _ => 7] (writeThenSend s) :=
    .cons ⟨htx, hshort⟩ rfl (.cons ⟨htx, trivial⟩ rfl (.nil _))
  refine ⟨s, hopen, ?_, serial_output_whole hopen htx hrun⟩
  cases hopen
  rfl

/-- A count of `2 ^ 31` is reported as a negative number, and so as nothing. -/
theorem serial_output_miscounted :
    ∃ s, ezSioOpen true (some (blankRb, blankRb)) (some fun _ => 0) 1 1 = some s ∧
      ¬ (sioStep s (.write (List.replicate (2 ^ 31) 0) 0x7fffffff)).TxWhole := by
  obtain ⟨s, hopen⟩ : ∃ s, ezSioOpen true (some (blankRb, blankRb)) (some fun _ => 0) 1 1 = some s :=
    ⟨_, rfl⟩
  obtain ⟨q, hkeeps, hsent⟩ := (ezSioOpen_eq_some hopen).1 (by decide)
  refine ⟨s, hopen, ?_⟩
  have haccepted : s.accepted = [] := by
    cases hopen
    rfl
  obtain ⟨-, hitems⟩ := List.append_eq_nil_iff.mp (hsent.trans haccepted)
  rw [hkeeps.write_whole_iff hsent (by rw [List.length_replicate]; decide)]
  have hdirect : directCnt q (List.replicate (2 ^ 31) 0) 0x7fffffff = 2 ^ 31 - 1 := by
    rw [directCnt, if_pos ⟨hitems, by decide⟩, List.length_replicate]
    rfl
  rw [acceptedCnt, hdirect, room, hitems, List.length_drop, List.length_replicate]
  decide

/-! ### Input -/

/-- No byte taken out of the UART is dropped. -/
def SioState.RxWhole (s : SioState) : Prop :=
  s.taken ++ rbItems s.sio.rcvRb ++ s.fifo = s.delivered

/-- The state of the receiving side between calls. -/
def SioState.RxOK (n : Nat) (s : SioState) : Prop :=
  ∃ q : BoundedQueue Byte n, RbRefines s.sio.rcvRb q ∧ s.taken ++ q.items ++ s.fifo = s.delivered

section Input

variable {n : Nat} {s : SioState} {q : BoundedQueue Byte n}

theorem rcvRoom_eq (h : RbRefines s.sio.rcvRb q) : s.rcvRoom = n - q.items.length := by
  obtain ⟨rb, hrb, hholds⟩ := h
  have hcount := hholds.count
  rw [SioState.rcvRoom, hrb, Option.elim_some]
  omega

theorem SioState.RxOK.whole (h : s.RxOK n) : s.RxWhole := by
  obtain ⟨q, hrefines, hwhole⟩ := h
  rw [RxWhole, rbItems_eq hrefines, hwhole]

theorem SioState.RxOK.of_same (h : s.RxOK n) (hsame : s.RxSame s') : s'.RxOK n := by
  obtain ⟨q, hrefines, hwhole⟩ := h
  refine ⟨q, hsame.rcvRb ▸ hrefines, ?_⟩
  rw [hsame.taken, hsame.fifo, hsame.delivered, hwhole]

theorem SioState.RxOK.arrive (h : s.RxOK n) (data : List Byte) : (s.arrive data).RxOK n := by
  obtain ⟨q, hrefines, hwhole⟩ := h
  refine ⟨q, hrefines, ?_⟩
  show s.taken ++ q.items ++ (s.fifo ++ data) = s.delivered ++ data
  rw [← hwhole, List.append_assoc _ s.fifo]

/-- A round with nothing to take, or nowhere to put it, is the last and changes nothing. -/
theorem sioRxRound_idle (h : RbRefines s.sio.rcvRb q) (hidle : s.fifo = [] ∨ q.isFull) :
    sioRxRound s = (false, s) := by
  obtain ⟨rb, hrb, hholds⟩ := h
  simp only [sioRxRound, hrb, hholds.isfull_eq]
  split
  case isFalse => rfl
  case isTrue hpos =>
    have hfull : q.isFull := by
      obtain hnil | hfull := hidle
      · rw [hnil] at hpos
        exact absurd hpos (Nat.lt_irrefl 0)
      · exact hfull
    have hcnt := localCnt_pos hpos
    rw [if_pos hfull, if_neg (by decide)]
    simp only [Prod.mk.injEq, decide_eq_false_iff_not, and_true]
    omega

def SioState.moved (s : SioState) (rb : Option RingBuffer) (cnt : Nat) : SioState :=
  { s.withRcvRb rb with fifo := s.fifo.drop cnt }

/-- Any other round takes bytes from the UART, and is followed by another if they all fit. -/
theorem sioRxRound_move (h : RbRefines s.sio.rcvRb q) (hfifo : s.fifo ≠ []) (hfull : ¬ q.isFull) :
    ∃ rb, sioRxRound s =
        (decide (localCnt s.fifo.length ≤ s.rcvRoom), s.moved rb (localCnt s.fifo.length)) ∧
      RbRefines rb (q.push (s.fifo.take (localCnt s.fifo.length))) := by
  have hroom := rcvRoom_eq h
  obtain ⟨rb, hrb, hholds⟩ := h
  obtain ⟨rb', hpush, hholds'⟩ := hholds.push (s.fifo.take (localCnt s.fifo.length))
  refine ⟨some rb', ?_, rb', rfl, hholds'⟩
  have hle := localCnt_le s.fifo.length
  have hcount : q.room (s.fifo.take (localCnt s.fifo.length)) =
      min s.rcvRoom (localCnt s.fifo.length) := by
    rw [room, List.length_take, Nat.min_eq_left hle, hroom]
  simp only [sioRxRound, hrb, hholds.isfull_eq, hpush, hcount]
  rw [if_pos (List.length_pos_iff.mpr hfifo), if_neg hfull, if_pos rfl]
  refine Prod.ext ?_ rfl
  simp only [decide_eq_decide]
  omega

theorem moved_rcvRoom (hrefines : RbRefines s.sio.rcvRb q)
    (h : RbRefines rb (q.push (s.fifo.take cnt))) (hcnt : cnt ≤ s.fifo.length) :
    (s.moved rb cnt).rcvRoom = s.rcvRoom - cnt := by
  rw [rcvRoom_eq (s := s.moved rb cnt) h, rcvRoom_eq hrefines]
  simp only [push, List.length_append, List.length_take]
  omega

/-- When a receive callback drops nothing: the ring buffer is full to begin with, or has room for
all that waits and arrives, or nothing arrives and its room is whole rounds. -/
def RxFits (room waiting : Nat) (arrivals : Nat → List Byte) : Prop :=
  room = 0 ∨ (∀ k, waiting + ((List.range k).flatMap arrivals).length ≤ room) ∨
    (bufszLocal ∣ room ∧ ∀ k, arrivals k = [])

/-- Then a round that takes bytes finds room for them, and the next one fits again. -/
theorem RxFits.round {room waiting : Nat} (h : RxFits room waiting arrivals) (hroom : room ≠ 0) :
    localCnt (waiting + (arrivals 0).length) ≤ room ∧
      RxFits (room - localCnt (waiting + (arrivals 0).length))
        (waiting + (arrivals 0).length - localCnt (waiting + (arrivals 0).length))
        (fun k => arrivals (k + 1)) := by
  obtain hzero | hall | ⟨⟨c, hc⟩, hnone⟩ := h
  · exact absurd hzero hroom
  · have hone := hall 1
    simp only [List.range_one, List.flatMap_singleton] at hone
    have hcnt := localCnt_le (waiting + (arrivals 0).length)
    refine ⟨Nat.le_trans hcnt hone, .inr (.inl fun k => ?_)⟩
    have hk := hall (k + 1)
    rw [List.range_succ_eq_map, List.flatMap_cons, List.flatMap_map, List.length_append] at hk
    simp only [Nat.succ_eq_add_one] at hk
    omega
  · simp only [hnone, List.length_nil, Nat.add_zero]
    obtain ⟨c, rfl⟩ : ∃ c', c = c' + 1 := Nat.exists_eq_succ_of_ne_zero (by rintro rfl; omega)
    have hsucc : room = bufszLocal * c + bufszLocal := by rw [hc, Nat.mul_succ]
    by_cases hmore : waiting < bufszLocal
    · -- the last bytes: nothing is left for a further round
      have hcnt : localCnt waiting = waiting := if_pos hmore
      rw [hcnt]
      refine ⟨by omega, .inr (.inl fun k => ?_)⟩
      simp
    · have hcnt : localCnt waiting = bufszLocal := if_neg hmore
      rw [hcnt]
      refine ⟨by omega, .inr (.inr ⟨⟨c, by omega⟩, fun _ => rfl⟩)⟩

theorem moved_rxOK (hwhole : s.taken ++ q.items ++ s.fifo = s.delivered)
    (h : RbRefines rb (q.push (s.fifo.take cnt))) (hfits : cnt ≤ n - q.items.length) :
    (s.moved rb cnt).RxOK n := by
  have hlen : (s.fifo.take cnt).length ≤ n - q.items.length := by
    rw [List.length_take]
    omega
  refine ⟨_, h, ?_⟩
  show s.taken ++ (q.items ++ (s.fifo.take cnt).take (n - q.items.length)) ++ s.fifo.drop cnt =
    s.delivered
  rw [List.take_of_length_le hlen, ← List.append_assoc, List.append_assoc _ (List.take _ _),
    List.take_append_drop, hwhole]

theorem SioState.RxOK.round (h : s.RxOK n) (hfits : RxFits s.rcvRoom s.fifo.length arrivals) :
    (sioRxRound (s.arrive (arrivals 0))).2.RxOK n ∧
      ((sioRxRound (s.arrive (arrivals 0))).1 = true →
        RxFits (sioRxRound (s.arrive (arrivals 0))).2.rcvRoom
          (sioRxRound (s.arrive (arrivals 0))).2.fifo.length fun k => arrivals (k + 1)) := by
  have harrived := h.arrive (arrivals 0)
  obtain ⟨q, hrefines, hwhole⟩ := harrived
  have hlen : (s.arrive (arrivals 0)).fifo.length = s.fifo.length + (arrivals 0).length :=
    List.length_append
  by_cases hidle : (s.arrive (arrivals 0)).fifo = [] ∨ q.isFull
  · rw [sioRxRound_idle hrefines hidle]
    exact ⟨h.arrive (arrivals 0), nofun⟩
  · obtain ⟨hfifo, hfull⟩ := not_or.mp hidle
    obtain ⟨rb, hround, hrefines'⟩ := sioRxRound_move hrefines hfifo hfull
    have hroom : s.rcvRoom = n - q.items.length := rcvRoom_eq (s := s.arrive (arrivals 0)) hrefines
    have hlt := lt_of_not_isFull hfull
    have hle := localCnt_le (s.arrive (arrivals 0)).fifo.length
    obtain ⟨hcnt, hnext⟩ := hfits.round (by omega)
    rw [← hlen] at hcnt hnext
    rw [hround]
    refine ⟨moved_rxOK hwhole hrefines' (hroom ▸ hcnt), fun _ => ?_⟩
    rw [moved_rcvRoom hrefines hrefines' hle]
    show RxFits _ ((s.arrive (arrivals 0)).fifo.drop _).length _
    rw [List.length_drop]
    exact hnext

theorem SioState.RxOK.rxReady (h : s.RxOK n) (hfits : RxFits s.rcvRoom s.fifo.length arrivals) :
    (sioRxCallback s arrivals).RxOK n :=
  Trace.loop_rule
    (I := fun arrivals s => SioState.RxOK n s ∧ RxFits s.rcvRoom s.fifo.length arrivals)
    (fun _ _ h => h.1) (fun _ _ h _ => (h.1.round h.2).1)
    (fun _ _ h hagain => ⟨(h.1.round h.2).1, (h.1.round h.2).2 hagain⟩) ⟨h, hfits⟩ _

/-- The receive callback ends by itself, whatever arrives. -/
theorem sioRxCallback_ends (h : RbRefines s.sio.rcvRb q) (arrivals : Nat → List Byte)
    (hfuel : s.rcvRoom < fuel) :
    Trace.loop (fun s data => sioRxRound (s.arrive data)) s arrivals fuel =
      sioRxCallback s arrivals := by
  have hcases : ∀ (s : SioState) (data : List Byte) (q : BoundedQueue Byte n),
      RbRefines s.sio.rcvRb q → (∃ q' : BoundedQueue Byte n,
        RbRefines (sioRxRound (s.arrive data)).2.sio.rcvRb q') ∧
      ((sioRxRound (s.arrive data)).1 = true →
        (sioRxRound (s.arrive data)).2.rcvRoom < s.rcvRoom) := by
    intro s data q h
    by_cases hidle : (s.arrive data).fifo = [] ∨ q.isFull
    · rw [sioRxRound_idle (s := s.arrive data) h hidle]
      exact ⟨⟨q, h⟩, nofun⟩
    · obtain ⟨hfifo, hfull⟩ := not_or.mp hidle
      obtain ⟨rb, hround, hrefines⟩ := sioRxRound_move (s := s.arrive data) h hfifo hfull
      have hcnt := localCnt_pos (List.length_pos_iff.mpr hfifo)
      have hlt := lt_of_not_isFull hfull
      have hroom : s.rcvRoom = n - q.items.length := rcvRoom_eq h
      rw [hround]
      refine ⟨⟨_, hrefines⟩, fun _ => ?_⟩
      rw [moved_rcvRoom (s := s.arrive data) h hrefines (localCnt_le _)]
      show s.rcvRoom - _ < s.rcvRoom
      omega
  exact Trace.loop_ends (I := fun s => ∃ q : BoundedQueue Byte n, RbRefines s.sio.rcvRb q)
    (fun s data ⟨q, h⟩ => (hcases s data q h).1) (fun s data ⟨q, h⟩ => (hcases s data q h).2) ⟨q, h⟩
    arrivals hfuel (Nat.lt_succ_self _)

/-- A callback that runs out of room in the middle of a round drops the rest of the round. -/
theorem sioRxLoop_drops (h : s.RxOK n) (hroom : ¬ bufszLocal ∣ s.rcvRoom)
    (hmore : s.rcvRoom < s.fifo.length) (hfuel : s.rcvRoom < fuel) :
    ¬ (Trace.loop (fun s data => sioRxRound (s.arrive data)) s (fun _ => []) fuel).RxWhole := by
  induction fuel generalizing s with
  | zero => exact absurd hfuel (Nat.not_lt_zero _)
  | succ fuel ih =>
    have hnil : s.arrive [] = s := by simp [SioState.arrive]
    obtain ⟨q, hrefines, hwhole⟩ := h
    have hroom_eq := rcvRoom_eq hrefines
    have hpos : s.rcvRoom ≠ 0 := fun h0 => hroom (h0 ▸ Nat.dvd_zero _)
    have hfifo : s.fifo ≠ [] := by
      intro h0
      rw [h0] at hmore
      exact Nat.not_lt_zero _ hmore
    have hfull : ¬ q.isFull := by
      unfold isFull
      omega
    obtain ⟨rb, hround, hrefines'⟩ := sioRxRound_move hrefines hfifo hfull
    have hround_eq := moved_rcvRoom hrefines hrefines' (localCnt_le _)
    have hleft : (s.moved rb (localCnt s.fifo.length)).fifo.length =
        s.fifo.length - localCnt s.fifo.length := List.length_drop
    simp only [Trace.loop, hnil, hround]
    by_cases hwhole_round : bufszLocal ≤ s.rcvRoom
    · -- a whole round fits, and the rest is in the same situation
      have hcnt : localCnt s.fifo.length = bufszLocal := if_neg (by omega)
      rw [hcnt] at hrefines' hround_eq hleft ⊢
      rw [if_pos (decide_eq_true hwhole_round)]
      have hbufsz : 0 < bufszLocal := by decide
      refine ih (moved_rxOK hwhole hrefines' (by omega)) ?_ (by omega) (by omega)
      rw [hround_eq]
      exact fun hdvd => hroom ((Nat.dvd_sub_iff_left hwhole_round (Nat.dvd_refl _)).mp hdvd)
    · have hcnt : s.rcvRoom < localCnt s.fifo.length := by
        unfold localCnt
        split <;> omega
      rw [if_neg (by simpa using hcnt)]
      intro hkept
      have hitems : rbItems (s.moved rb (localCnt s.fifo.length)).sio.rcvRb = _ :=
        rbItems_eq hrefines'
      rw [SioState.RxWhole, hitems] at hkept
      have hlen := congrArg List.length (hkept.trans hwhole.symm)
      simp only [push, List.length_append, List.length_take] at hlen
      have htaken : (s.moved rb (localCnt s.fifo.length)).taken = s.taken := rfl
      rw [htaken] at hlen
      omega

theorem rxFits_quiet_iff {room waiting : Nat} :
    RxFits room waiting (fun _ => []) ↔ waiting ≤ room ∨ bufszLocal ∣ room := by
  have hnone : ∀ k, ((List.range k).flatMap fun _ => ([] : List Byte)).length = 0 := by simp
  simp only [RxFits, hnone, Nat.add_zero, forall_const, and_true]
  constructor
  · rintro (rfl | hfits)
    · exact .inr (Nat.dvd_zero _)
    · exact hfits
  · exact .inr

/-- With nothing arriving meanwhile, a callback drops nothing exactly if it fits. -/
theorem rxReady_whole_iff (h : s.RxOK n) :
    (sioRxCallback s fun _ => []).RxWhole ↔
      s.fifo.length ≤ s.rcvRoom ∨ bufszLocal ∣ s.rcvRoom := by
  constructor
  · intro hwhole
    by_contra hfits
    obtain ⟨hmore, hrounds⟩ := not_or.mp hfits
    exact sioRxLoop_drops h hrounds (Nat.lt_of_not_le hmore) (Nat.lt_succ_self _) hwhole
  · intro hfits
    exact (h.rxReady (rxFits_quiet_iff.mpr hfits)).whole

theorem SioState.RxOK.read (h : s.RxOK n) (hcnt : cnt < 2 ^ 31) :
    (sioStep s (.read cnt)).RxOK n := by
  obtain ⟨q, ⟨rb, hrb, hholds⟩, hwhole⟩ := h
  obtain ⟨rb', hpop, hholds'⟩ := hholds.pop cnt
  have hlen : (q.items.take cnt).length < 2 ^ 31 := by
    rw [List.length_take]
    omega
  refine ⟨q.pop cnt, ?_, ?_⟩
  · simp only [sioStep, ezSioRead, hrb, hpop]
    exact ⟨rb', rfl, hholds'⟩
  · simp only [sioStep, ezSioRead, hrb, hpop, i32_toNat hlen, List.take_length]
    show s.taken ++ q.items.take cnt ++ q.items.drop cnt ++ s.fifo = s.delivered
    rw [List.append_assoc s.taken, List.take_append_drop, hwhole]

end Input

/-- The receive callbacks of the run all fit. -/
def SioEvent.Fits (s : SioState) : SioEvent → Prop
  | .rxReady arrivals => RxFits s.rcvRoom s.fifo.length arrivals
  | _ => True

theorem sioStep_rxOK (h : s.RxOK n) {e : SioEvent} (hcount : e.Countable) (hfits : e.Fits s) :
    (sioStep s e).RxOK n := by
  cases e with
  | write buf room =>
    have hsame := ezSioWrite_rxSame s buf room
    exact h.of_same { hsame with }
  | txReady rooms => exact h.of_same (sioTxCallback_rxSame s rooms).1
  | arrive data => exact h.arrive data
  | rxReady arrivals => exact h.rxReady hfits
  | read cnt => exact h.read hcount

/-- **No received byte is dropped in a run whose receive callbacks all fit**, and with nothing
arriving meanwhile a callback that does not fit drops some. -/
theorem serial_input_whole {uart : Bool} {sio : Option (RingBuffer × RingBuffer)}
    {ptr : Option (Nat → Byte)} {txBufsz rxBufsz : Word} {s₀ s : SioState} {es : List SioEvent}
    (hopen : ezSioOpen uart sio ptr txBufsz rxBufsz = some s₀) (hrx : rxBufsz ≠ 0)
    (hrun : Trace.Runs sioRun
      (fun s e => e.Uses txBufsz rxBufsz ∧ e.Countable ∧ e.Fits s) s₀ es s) :
    s.taken ++ rbItems s.sio.rcvRb ++ s.fifo = s.delivered ∧
      ((sioStep s (.rxReady fun _ => [])).RxWhole ↔
        s.fifo.length ≤ s.rcvRoom ∨ bufszLocal ∣ s.rcvRoom) := by
  have hok : s.RxOK rxBufsz.toNat := by
    refine hrun.invariant (I := fun s => s.RxOK rxBufsz.toNat) ?_ ?_
    · intro s e s' h hcond hstep
      cases hstep
      exact sioStep_rxOK h hcond.2.1 hcond.2.2
    · obtain ⟨hrefines, htaken, hfifo, hdelivered⟩ := (ezSioOpen_eq_some hopen).2 hrx
      exact ⟨_, hrefines, by rw [htaken, hfifo, hdelivered]; rfl⟩
  exact ⟨hok.whole, rxReady_whole_iff hok⟩

/-- Three bytes arrive at an object with room for four, and are read in two pieces. -/
def receiveThree (s : SioState) : SioState :=
  sioStep (sioStep (sioStep (sioStep s (.arrive [5, 6, 7])) (.rxReady fun _ => []))
    (.read 2)) (.read 2)

theorem serial_input_whole_of_three :
    ∃ s, ezSioOpen true (some (blankRb, blankRb)) (some fun _ => 0) 0 4 = some s ∧
      (receiveThree s).taken = [5, 6, 7] ∧
      (receiveThree s).taken ++ rbItems (receiveThree s).sio.rcvRb ++ (receiveThree s).fifo =
        (receiveThree s).delivered := by
  obtain ⟨s, hopen⟩ : ∃ s, ezSioOpen true (some (blankRb, blankRb)) (some fun _ => 0) 0 4 = some s :=
    ⟨_, rfl⟩
  have hrx : (4 : Word) ≠ 0 := by decide
  have hcount : 2 < 2 ^ 31 := by decide
  have hfits : RxFits (sioStep s (.arrive [5, 6, 7])).rcvRoom
      (sioStep s (.arrive [5, 6, 7])).fifo.length fun _ => [] := by
    cases hopen
    exact rxFits_quiet_iff.mpr (.inl (by decide))
  have hrun : Trace.Runs sioRun (fun s e => e.Uses 0 4 ∧ e.Countable ∧ e.Fits s) s
      [.arrive [5, 6, 7], .rxReady fun _ => [], .read 2, .read 2] (receiveThree s) :=
    .cons ⟨trivial, trivial, trivial⟩ rfl (.cons ⟨hrx, trivial, hfits⟩ rfl
      (.cons ⟨hrx, hcount, trivial⟩ rfl (.cons ⟨hrx, hcount, trivial⟩ rfl (.nil _))))
  refine ⟨s, hopen, ?_, (serial_input_whole hopen hrx hrun).1⟩
  cases hopen
  rfl

/-- With room for one byte, the second of two is taken from the UART and gone. -/
theorem serial_input_dropped :
    ∃ s, ezSioOpen true (some (blankRb, blankRb)) (some fun _ => 0) 1 1 = some s ∧
      (sioStep (sioStep s (.arrive [5, 6])) (.rxReady fun _ => [])).delivered = [5, 6] ∧
      (sioStep (sioStep s (.arrive [5, 6])) (.rxReady fun _ => [])).taken = [] ∧
      rbItems (sioStep (sioStep s (.arrive [5, 6])) (.rxReady fun _ => [])).sio.rcvRb = [5] ∧
      (sioStep (sioStep s (.arrive [5, 6])) (.rxReady fun _ => [])).fifo = [] :=
  ⟨_, rfl, rfl, rfl, rfl, rfl⟩

/-! ### Input that does not fit -/

/-- What was read, what waits and what is in the FIFO came in this order, perhaps with more. -/
def SioState.RxOrdered (n : Nat) (s : SioState) : Prop :=
  ∃ q : BoundedQueue Byte n, RbRefines s.sio.rcvRb q ∧
    (s.taken ++ q.items ++ s.fifo).Sublist s.delivered

theorem take_take_append_drop_sublist (l : List Byte) (m k : Nat) :
    ((l.take m).take k ++ l.drop m).Sublist l := by
  have happend := (List.take_sublist k (l.take m)).append (.refl (l.drop m))
  rwa [List.take_append_drop] at happend

namespace SioState.RxOrdered

theorem of_same (h : s.RxOrdered n) (hsame : s.RxSame s') : s'.RxOrdered n := by
  obtain ⟨q, hrefines, hsub⟩ := h
  refine ⟨q, hsame.rcvRb ▸ hrefines, ?_⟩
  rwa [hsame.taken, hsame.fifo, hsame.delivered]

theorem arrive (h : s.RxOrdered n) (data : List Byte) : (s.arrive data).RxOrdered n := by
  obtain ⟨q, hrefines, hsub⟩ := h
  refine ⟨q, hrefines, ?_⟩
  show (s.taken ++ q.items ++ (s.fifo ++ data)).Sublist (s.delivered ++ data)
  rw [← List.append_assoc]
  exact hsub.append (.refl data)

theorem round (h : s.RxOrdered n) : (sioRxRound s).2.RxOrdered n := by
  obtain ⟨q, hrefines, hsub⟩ := h
  by_cases hidle : s.fifo = [] ∨ q.isFull
  · rw [sioRxRound_idle hrefines hidle]
    exact ⟨q, hrefines, hsub⟩
  · obtain ⟨hfifo, hfull⟩ := not_or.mp hidle
    obtain ⟨rb, hround, hrefines'⟩ := sioRxRound_move hrefines hfifo hfull
    rw [hround]
    refine ⟨_, hrefines', .trans ?_ hsub⟩
    -- what does not fit is missing in front of the rest of the FIFO
    show (s.taken ++ (q.items ++ (s.fifo.take _).take _) ++ s.fifo.drop _).Sublist _
    simp only [List.append_assoc]
    exact ((take_take_append_drop_sublist ..).append_left q.items).append_left s.taken

theorem read (h : s.RxOrdered n) (cnt : Nat) : (sioStep s (.read cnt)).RxOrdered n := by
  obtain ⟨q, ⟨rb, hrb, hholds⟩, hsub⟩ := h
  obtain ⟨rb', hpop, hholds'⟩ := hholds.pop cnt
  simp only [sioStep, ezSioRead, hrb, hpop]
  refine ⟨q.pop cnt, ⟨rb', rfl, hholds'⟩, .trans ?_ hsub⟩
  -- more than an `int32_t` can count is taken out and reported as nothing
  show (s.taken ++ (q.items.take cnt).take _ ++ q.items.drop cnt ++ s.fifo).Sublist _
  rw [List.append_assoc s.taken]
  exact ((take_take_append_drop_sublist ..).append_left s.taken).append (.refl s.fifo)

theorem step (h : s.RxOrdered n) (e : SioEvent) : (sioStep s e).RxOrdered n := by
  cases e with
  | write buf room =>
    have hsame := ezSioWrite_rxSame s buf room
    exact h.of_same { hsame with }
  | txReady rooms => exact h.of_same (sioTxCallback_rxSame s rooms).1
  | arrive data => exact h.arrive data
  | rxReady arrivals =>
    exact Trace.loop_invariant (I := RxOrdered n) (fun _ data h => (h.arrive data).round) h arrivals _
  | read cnt => exact h.read cnt

end SioState.RxOrdered

/-- **Input is never reordered, duplicated or made up**, whatever is dropped. -/
theorem serial_input_in_order {uart : Bool} {sio : Option (RingBuffer × RingBuffer)}
    {ptr : Option (Nat → Byte)} {txBufsz rxBufsz : Word} {s₀ s : SioState} {es : List SioEvent}
    (hopen : ezSioOpen uart sio ptr txBufsz rxBufsz = some s₀) (hrx : rxBufsz ≠ 0)
    (hrun : Trace.Runs sioRun (fun _ e => e.Uses txBufsz rxBufsz) s₀ es s) :
    (s.taken ++ rbItems s.sio.rcvRb ++ s.fifo).Sublist s.delivered := by
  have hordered : s.RxOrdered rxBufsz.toNat := by
    refine hrun.invariant (I := fun s => s.RxOrdered rxBufsz.toNat) ?_ ?_
    · intro s e s' h _ hstep
      cases hstep
      exact h.step e
    · obtain ⟨hrefines, htaken, hfifo, -⟩ := (ezSioOpen_eq_some hopen).2 hrx
      exact ⟨_, hrefines, by rw [htaken, hfifo]; exact List.nil_sublist _⟩
  obtain ⟨q, hrefines, hsub⟩ := hordered
  rwa [rbItems_eq hrefines]

theorem serial_input_in_order_dropped :
    ∃ s₀ s, ezSioOpen true (some (blankRb, blankRb)) (some fun _ => 0) 1 1 = some s₀ ∧
      Trace.Runs sioRun (fun _ e => e.Uses 1 1) s₀ [.arrive [5, 6], .rxReady fun _ => []] s ∧
      (s.taken ++ rbItems s.sio.rcvRb ++ s.fifo).Sublist s.delivered := by
  have hrx : (1 : Word) ≠ 0 := by decide
  obtain ⟨s₀, hopen⟩ : ∃ s, ezSioOpen true (some (blankRb, blankRb)) (some fun _ => 0) 1 1 = some s :=
    ⟨_, rfl⟩
  have hrun : Trace.Runs sioRun (fun _ e => e.Uses 1 1) s₀ [.arrive [5, 6], .rxReady fun _ => []] _ :=
    .cons trivial rfl (.cons hrx rfl (.nil _))
  exact ⟨s₀, _, hopen, hrun, serial_input_in_order hopen hrx hrun⟩

end Embarc
