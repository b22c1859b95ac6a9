/-
What the IIC master writes to the transmit FIFO to send a buffer.

There should be one command for each byte, in order, and the last should end the transfer.  The
polled write sends the last byte by itself, and counts what it has sent in an `int32_t`.  The
interrupt routine compares its offset with the length less one.  For a buffer without bytes that is
the largest offset there is, and the routine sends what stands behind the buffer.
-/
import Embarc.Proofs.IicCompletion

namespace Embarc

open Trace

/-! ### The commands -/

/-- The command for byte `k` of `n`. -/
def iicWriteCmd (s : IicDev) (buf : Word) (n k : Nat) : Word :=
  (s.ram (buf + BitVec.ofNat 32 k)).setWidth 32 ||| if k + 1 = n then s.lastCond else 0

/-- A command for each byte, and the condition with the last. -/
def iicWriteCmds (s : IicDev) (buf : Word) (n : Nat) : List Word :=
  (List.range n).map (iicWriteCmd s buf n)

theorem iicWriteCmds_length (s : IicDev) (buf : Word) (n : Nat) :
    (iicWriteCmds s buf n).length = n := by
  rw [iicWriteCmds, List.length_map, List.length_range]

theorem iicWriteCmds_take (s : IicDev) (buf : Word) {n k : Nat} (h : k ≤ n) :
    (iicWriteCmds s buf n).take k = (List.range k).map (iicWriteCmd s buf n) := by
  rw [iicWriteCmds, ← List.map_take, List.take_range, Nat.min_eq_left h]

theorem iicWriteCmds_drop (s : IicDev) (buf : Word) {n k : Nat} (h : k < n) :
    (iicWriteCmds s buf n).drop k =
      iicWriteCmd s buf n k :: (iicWriteCmds s buf n).drop (k + 1) := by
  have hlen : k < (iicWriteCmds s buf n).length := by rwa [iicWriteCmds_length]
  rw [List.drop_eq_getElem_cons hlen]
  congr 1
  simp only [iicWriteCmds, List.getElem_map, List.getElem_range]

/-! ### Waiting for room -/

/-- The FIFO is full, and there is no error. -/
def IicPoll.Quiet : IicPoll → Prop
  | .room => False
  | .full raw _ _ => hasFlag raw icIntrTxAbrt = false

/-- So many turns are not too many.  With the largest count the driver waits for ever. -/
def IicPatient (retryCnt : Word) (turns : Nat) : Prop :=
  retryCnt.toNat + 1 < 2 ^ 32 → turns ≤ retryCnt.toNat + 1

/-- How the hardware answers while the driver waits, and how that ends: there is room, the transfer
has been aborted, or it has taken too long.  The answers behind are left. -/
inductive IicWait (retryCnt : Word) : List IicPoll → IicErr → List IicPoll → Prop
  | room {fulls rest : List IicPoll} (hquiet : ∀ p ∈ fulls, p.Quiet)
      (hretry : IicPatient retryCnt fulls.length) :
      IicWait retryCnt (fulls ++ .room :: rest) .none rest
  | abort {fulls rest : List IicPoll} {raw source clrTxOver : Word}
      (hquiet : ∀ p ∈ fulls, p.Quiet) (hretry : IicPatient retryCnt (fulls.length + 1))
      (hraw : hasFlag raw icIntrTxAbrt = true) :
      IicWait retryCnt (fulls ++ .full raw source clrTxOver :: rest) (iicAbrtErr source) rest
  | timeout {fulls rest : List IicPoll} {raw source clrTxOver : Word}
      (hquiet : ∀ p ∈ fulls, p.Quiet) (hbound : retryCnt.toNat + 1 < 2 ^ 32)
      (hlen : fulls.length = retryCnt.toNat + 1) :
      IicWait retryCnt (fulls ++ .full raw source clrTxOver :: rest) .timeout rest

variable {j : Nat} {ev : IicIsrEvent}

/-- There is room `k` times. -/
inductive IicRooms (retryCnt : Word) : Nat → List IicPoll → List IicPoll → Prop
  | zero (polls : List IicPoll) : IicRooms retryCnt 0 polls polls
  | succ {k : Nat} {polls mid rest : List IicPoll} (hfirst : IicWait retryCnt polls .none mid)
      (hmore : IicRooms retryCnt k mid rest) : IicRooms retryCnt (k + 1) polls rest

section Wait

variable {retryCnt data nextCond : Word} {m : IicMst} {polls mid rest : List IicPoll} {err : IicErr}
  {k : Nat}

theorem IicRooms.last (h : IicRooms retryCnt (k + 1) polls rest) :
    ∃ mid, IicRooms retryCnt k polls mid ∧ IicWait retryCnt mid .none rest := by
  induction k generalizing polls with
  | zero =>
    cases h with
    | succ hfirst hmore =>
      cases hmore
      exact ⟨polls, .zero polls, hfirst⟩
  | succ k ih =>
    cases h with
    | succ hfirst hmore =>
      obtain ⟨mid, hrooms, hlast⟩ := ih hmore
      exact ⟨mid, .succ hfirst hrooms, hlast⟩

theorem IicPatient.mono (h : IicPatient retryCnt k) (hle : j ≤ k) :
    IicPatient retryCnt j := fun hbound => Nat.le_trans hle (h hbound)

theorem IicPatient.turn (h : IicPatient retryCnt (j + 1)) : ¬BitVec.ofNat 32 j > retryCnt := by
  intro hover
  have hlt : retryCnt.toNat < (BitVec.ofNat 32 j).toNat := hover
  have hle : (BitVec.ofNat 32 j).toNat ≤ j := by
    rw [BitVec.toNat_ofNat]
    exact Nat.mod_le ..
  by_cases hbound : retryCnt.toNat + 1 < 2 ^ 32
  · have := h hbound
    omega
  · omega

/-- While the answers are quiet the driver goes on waiting. -/
theorem dwIicMstWriteData_quiet {fulls : List IicPoll} (hquiet : ∀ p ∈ fulls, p.Quiet)
    (hretry : IicPatient retryCnt (j + fulls.length)) :
    ∃ m', m'.dev = m.dev ∧
      dwIicMstWriteData retryCnt data nextCond (BitVec.ofNat 32 j) (fulls ++ polls) m =
        dwIicMstWriteData retryCnt data nextCond (BitVec.ofNat 32 (j + fulls.length)) polls m' := by
  induction fulls generalizing j m with
  | nil => exact ⟨m, rfl, rfl⟩
  | cons p fulls ih =>
    rw [List.length_cons] at hretry
    have hp : p.Quiet := hquiet p List.mem_cons_self
    cases p with
    | room => exact absurd hp id
    | full raw source clrTxOver =>
      have hraw : hasFlag raw icIntrTxAbrt = false := hp
      have hturn : ¬BitVec.ofNat 32 j > retryCnt := (hretry.mono (by omega)).turn
      let ev : IicIsrEvent :=
        { status := 0, room := 0, bytes := [], raw := raw, source := source,
          clrTxOver := clrTxOver }
      have hnone : (m.chkerr ev).1 = .none := by rw [m.chkerr_fst, if_neg (by simp [ev, hraw])]
      obtain ⟨m', hdev, heq⟩ := ih (m := (m.chkerr ev).2) (j := j + 1)
        (fun q hq => hquiet q (List.mem_cons_of_mem _ hq)) (hretry.mono (by omega))
      refine ⟨m', hdev.trans (m.chkerr_snd _).1, ?_⟩
      rw [List.length_cons, ← Nat.add_assoc, Nat.add_right_comm, ← heq, BitVec.ofNat_add]
      simp only [List.cons_append, dwIicMstWriteData, if_neg hturn]
      rw [if_neg (not_not.mpr hnone)]
      rfl

/-- A wait that ends well has written the command, and one that ends in an error nothing. -/
theorem IicWait.writeData (h : IicWait retryCnt polls err rest) (data nextCond : Word)
    (m : IicMst) :
    ∃ m', m'.dev = m.dev ∧ dwIicMstWriteData retryCnt data nextCond 0 polls m =
      some (err, if err = .none then [data ||| nextCond] else [], rest, m') := by
  cases h with
  | room hquiet hretry =>
    obtain ⟨m', hdev, heq⟩ :=
      dwIicMstWriteData_quiet (m := m) (j := 0) hquiet (by simpa using hretry)
    exact ⟨m', hdev, heq⟩
  | @abort fulls rest raw source clrTxOver hquiet hretry hraw =>
    obtain ⟨m', hdev, heq⟩ := dwIicMstWriteData_quiet (m := m) (j := 0) hquiet
      (by simpa using hretry.mono (Nat.le_succ _))
    let ev : IicIsrEvent :=
      { status := 0, room := 0, bytes := [], raw := raw, source := source,
        clrTxOver := clrTxOver }
    have herr : (m'.chkerr ev).1 = iicAbrtErr source := by rw [m'.chkerr_fst, if_pos hraw]
    have hne := iicAbrtErr_ne_none source
    refine ⟨(m'.chkerr ev).2, (m'.chkerr_snd ev).1.trans hdev, heq.trans ?_⟩
    rw [Nat.zero_add, dwIicMstWriteData, if_neg hretry.turn, if_neg hne]
    simp only [ev] at herr ⊢
    rw [if_pos (by rw [herr]; exact hne), herr]
  | @timeout fulls rest raw source clrTxOver hquiet hbound hlen =>
    have hpatient : IicPatient retryCnt (0 + fulls.length) := fun _ => by omega
    obtain ⟨m', hdev, heq⟩ := dwIicMstWriteData_quiet (m := m) hquiet hpatient
    refine ⟨m', hdev, heq.trans ?_⟩
    have hover : BitVec.ofNat 32 (0 + fulls.length) > retryCnt := by
      show retryCnt.toNat < (BitVec.ofNat 32 (0 + fulls.length)).toNat
      rw [BitVec.toNat_ofNat, Nat.zero_add, hlen, Nat.mod_eq_of_lt hbound]
      exact Nat.lt_succ_self _
    rw [dwIicMstWriteData, if_pos hover]
    rfl

/-- A schedule that is long enough decides a wait, unless the driver is to wait for ever. -/
theorem IicWait.exists_of_length (hbound : retryCnt.toNat + 1 < 2 ^ 32)
    (hlen : retryCnt.toNat + 2 ≤ polls.length) : ∃ err rest, IicWait retryCnt polls err rest := by
  have hsplit : ∀ (polls fulls : List IicPoll), (∀ p ∈ fulls, p.Quiet) →
      fulls.length ≤ retryCnt.toNat + 1 → retryCnt.toNat + 2 ≤ fulls.length + polls.length →
      ∃ err rest, IicWait retryCnt (fulls ++ polls) err rest := by
    intro polls
    induction polls with
    | nil =>
      intro fulls _ hle hall
      rw [List.length_nil] at hall
      omega
    | cons p polls ih =>
      intro fulls hquiet hle hall
      cases p with
      | room => exact ⟨_, _, .room hquiet fun _ => hle⟩
      | full raw source clrTxOver =>
        by_cases hlast : fulls.length = retryCnt.toNat + 1
        · exact ⟨_, _, .timeout hquiet hbound hlast⟩
        by_cases hraw : hasFlag raw icIntrTxAbrt = true
        · exact ⟨_, _, .abort hquiet (fun _ => by omega) hraw⟩
        -- one more quiet answer
        rw [List.append_cons]
        apply ih
        · intro q hq
          rcases List.mem_append.mp hq with hq | hq
          · exact hquiet q hq
          · rw [List.mem_singleton.mp hq]
            exact Bool.eq_false_iff.mpr hraw
        · rw [List.length_append, List.length_singleton]
          omega
        · rw [List.length_append, List.length_singleton]
          rw [List.length_cons] at hall
          omega
  exact hsplit polls [] (fun _ hp => absurd hp List.not_mem_nil) (Nat.zero_le _)
    (by rwa [List.length_nil, Nat.zero_add])

theorem IicWait.length_le (h : IicWait retryCnt polls err rest)
    (hbound : retryCnt.toNat + 1 < 2 ^ 32) :
    polls.length ≤ rest.length + (retryCnt.toNat + 2) := by
  cases h with
  | room _ hretry | abort _ hretry =>
    have hturns := hretry hbound
    rw [List.length_append, List.length_cons]
    omega
  | timeout _ _ hlen =>
    rw [List.length_append, List.length_cons]
    omega

/-- In a schedule that is long enough there is room for all bytes, or for some and then an error. -/
theorem iicRooms_or_stops (hbound : retryCnt.toNat + 1 < 2 ^ 32) (n : Nat)
    (hlen : n * (retryCnt.toNat + 2) ≤ polls.length) :
    (∃ rest, IicRooms retryCnt n polls rest) ∨
      ∃ k < n, ∃ mid rest err, IicRooms retryCnt k polls mid ∧ IicWait retryCnt mid err rest ∧
        err ≠ .none := by
  induction n generalizing polls with
  | zero => exact .inl ⟨polls, .zero polls⟩
  | succ n ih =>
    rw [Nat.succ_mul] at hlen
    have hlong : retryCnt.toNat + 2 ≤ polls.length := by omega
    obtain ⟨err, mid, hwait⟩ := IicWait.exists_of_length hbound hlong
    by_cases herr : err = .none
    · subst herr
      have hle := hwait.length_le hbound
      obtain ⟨rest, hrooms⟩ | ⟨k, hk, mid, rest, err, hrooms, hstop⟩ := @ih mid (by omega)
      · exact .inl ⟨rest, .succ hwait hrooms⟩
      · exact .inr ⟨k + 1, Nat.succ_lt_succ hk, mid, rest, err, .succ hwait hrooms, hstop⟩
    · exact .inr ⟨0, Nat.succ_pos n, polls, mid, err, .zero polls, hwait, herr⟩

/-- The byte at `k`, as the loop sends it. -/
def IicDev.plain (s : IicDev) (data : Word) (k : Nat) : Word :=
  (s.ram (data + BitVec.ofNat 32 k)).setWidth 32 ||| 0

/-- The loop sends a byte each time there is room, and goes on with what is left. -/
theorem IicRooms.writeLoop (h : IicRooms retryCnt k polls mid) (data : Word) (left j : Nat)
    (m : IicMst) :
    ∃ m', m'.dev = m.dev ∧ dwIicMstWriteLoop retryCnt data (k + left) (BitVec.ofNat 32 j) polls m =
      (dwIicMstWriteLoop retryCnt data left (BitVec.ofNat 32 (j + k)) mid m').map
        fun (err, i, cmds, r) => (err, i, (List.range' j k).map (m.dev.plain data) ++ cmds, r) := by
  induction h generalizing j m with
  | zero polls =>
    rw [Nat.zero_add]
    exact ⟨m, rfl, Option.map_id'.symm⟩
  | @succ k polls mid rest hfirst _ ih =>
    obtain ⟨m₁, hdev₁, hdata⟩ :=
      hfirst.writeData ((m.dev.ram (data + BitVec.ofNat 32 j)).setWidth 32) 0 m
    obtain ⟨m₂, hdev₂, hloop⟩ := ih (j + 1) m₁
    refine ⟨m₂, hdev₂.trans hdev₁, ?_⟩
    have hnext : BitVec.ofNat 32 j + 1 = BitVec.ofNat 32 (j + 1) := (BitVec.ofNat_add j 1).symm
    have hcount : j + (k + 1) = j + 1 + k := by omega
    rw [Nat.succ_add, dwIicMstWriteLoop, hdata, hcount]
    simp only [if_true, hnext, hloop, Option.map_map, hdev₁, List.range'_succ, List.map_cons]
    rfl

theorem IicRooms.writeLoop_all (h : IicRooms retryCnt k polls rest) (data : Word) (m : IicMst) :
    ∃ m', m'.dev = m.dev ∧ dwIicMstWriteLoop retryCnt data k 0 polls m =
      some (.none, BitVec.ofNat 32 k, (List.range k).map (m.dev.plain data), rest, m') := by
  obtain ⟨m', hdev, hloop⟩ := h.writeLoop data 0 0 m
  refine ⟨m', hdev, hloop.trans ?_⟩
  simp only [dwIicMstWriteLoop, Option.map_some, List.append_nil, Nat.zero_add,
    List.range_eq_range']

theorem IicRooms.writeLoop_stops (h : IicRooms retryCnt k polls mid)
    (hwait : IicWait retryCnt mid err rest) (herr : err ≠ .none) {left : Nat} (hleft : k < left)
    (data : Word) (m : IicMst) :
    ∃ m', m'.dev = m.dev ∧ dwIicMstWriteLoop retryCnt data left 0 polls m =
      some (err, BitVec.ofNat 32 k, (List.range k).map (m.dev.plain data), rest, m') := by
  obtain ⟨more, rfl⟩ : ∃ more, left = k + (more + 1) := ⟨left - k - 1, by omega⟩
  obtain ⟨m₁, hdev₁, hloop⟩ := h.writeLoop data (more + 1) 0 m
  obtain ⟨m₂, hdev₂, hdata⟩ :=
    hwait.writeData ((m₁.dev.ram (data + BitVec.ofNat 32 (0 + k))).setWidth 32) 0 m₁
  refine ⟨m₂, hdev₂.trans hdev₁, hloop.trans ?_⟩
  rw [dwIicMstWriteLoop, hdata, if_neg herr]
  cases err with
  | none => exact absurd rfl herr
  | lostBus | addrNoack | dataNoack | timeout | mststop | undef =>
    simp only [Option.map_some, List.append_nil, Nat.zero_add, List.range_eq_range']

end Wait

/-! ### The polled write -/

/-- What the polled write of the buffer `b` should do, whenever there is room for all bytes, and
whenever there is room for `k` bytes and then an error. -/
structure IicPolledOk (retryCnt : Word) (m : IicMst) (b : DevBuffer) : Prop where
  sent : ∀ polls rest, IicRooms retryCnt b.len.toNat polls rest →
    ∃ ret m', dwIicWrite retryCnt m b.buf b.len polls =
        some (ret, iicWriteCmds m.dev b.buf b.len.toNat, m') ∧
      m'.errState = .none
  stopped : ∀ k < b.len.toNat, ∀ polls mid rest err, IicRooms retryCnt k polls mid →
    IicWait retryCnt mid err rest → err ≠ .none →
    ∃ m', dwIicWrite retryCnt m b.buf b.len polls =
        some ((k : Int), (iicWriteCmds m.dev b.buf b.len.toNat).take k, m') ∧
      m'.errState = err

section Polled

variable {retryCnt : Word} {m : IicMst} {b : DevBuffer} {polls mid rest : List IicPoll}
  {err : IicErr} {k : Nat}

/-- Up to the last byte the commands carry no condition. -/
theorem plain_eq_take (s : IicDev) (buf : Word) {n k : Nat} (h : k < n) :
    (List.range k).map (s.plain buf) = (iicWriteCmds s buf n).take k := by
  rw [iicWriteCmds_take s buf (Nat.le_of_lt h)]
  apply List.map_congr_left
  intro i hi
  have hlt : i < k := List.mem_range.mp hi
  rw [iicWriteCmd, if_neg (by omega), IicDev.plain]

theorem dwIicWrite_eq (hopen : m.dev.opnCnt ≠ 0) (hon : m.dev.status &&& devEnabled ≠ 0)
    (hbuf : b.buf ≠ 0) (hlen : b.len ≠ 0) (polls : List IicPoll) :
    dwIicWrite retryCnt m b.buf b.len polls =
      match dwIicMstWriteLoop retryCnt b.buf (b.len - 1).toNat 0 polls m with
      | none => none
      | some (.none, i, cmds, polls, m') =>
        (dwIicMstWriteData retryCnt ((m'.dev.ram (b.buf + (b.len - 1))).setWidth 32)
          m.dev.lastCond 0 polls m').map fun (errState, cmds', _, m') =>
            ((if errState = .none then i + 1 else i).toInt, cmds ++ cmds', { m' with errState })
      | some (errState, i, cmds, _, m') => some (i.toInt, cmds, { m' with errState }) := by
  exact (if_neg hopen).trans ((if_neg hon).trans ((if_neg hbuf).trans (if_neg hlen)))

theorem len_pred (h : b.len ≠ 0) : (b.len - 1).toNat + 1 = b.len.toNat := by
  bv_omega

theorem IicRooms.write (h : IicRooms retryCnt b.len.toNat polls rest) (hopen : m.dev.opnCnt ≠ 0)
    (hon : m.dev.status &&& devEnabled ≠ 0) (hbuf : b.buf ≠ 0) (hlen : b.len ≠ 0) :
    ∃ ret m', dwIicWrite retryCnt m b.buf b.len polls =
        some (ret, iicWriteCmds m.dev b.buf b.len.toNat, m') ∧
      m'.errState = .none := by
  have hcount := len_pred hlen
  rw [← hcount] at h
  obtain ⟨mid, hrooms, hlast⟩ := h.last
  obtain ⟨m₁, hdev₁, hloop⟩ := hrooms.writeLoop_all b.buf m
  obtain ⟨m₂, hdev₂, hdata⟩ :=
    hlast.writeData ((m₁.dev.ram (b.buf + (b.len - 1))).setWidth 32) m.dev.lastCond m₁
  have hcmds : (List.range (b.len - 1).toNat).map (m.dev.plain b.buf) ++
      [(m₁.dev.ram (b.buf + (b.len - 1))).setWidth 32 ||| m.dev.lastCond] =
      iicWriteCmds m.dev b.buf b.len.toNat := by
    rw [iicWriteCmds, ← hcount, List.range_succ, List.map_append, List.map_singleton,
      plain_eq_take m.dev b.buf (Nat.lt_succ_self _), iicWriteCmds_take m.dev b.buf (Nat.le_succ _),
      iicWriteCmd, if_pos rfl, hdev₁, BitVec.ofNat_toNat, BitVec.setWidth_eq]
  refine ⟨(BitVec.ofNat 32 (b.len - 1).toNat + 1).toInt, { m₂ with errState := .none }, ?_, rfl⟩
  rw [dwIicWrite_eq hopen hon hbuf hlen, hloop]
  simp only [hdata, Option.map_some, if_true, hcmds]

theorem IicRooms.write_stops (h : IicRooms retryCnt k polls mid)
    (hwait : IicWait retryCnt mid err rest) (herr : err ≠ .none) (hk : k < b.len.toNat)
    (hopen : m.dev.opnCnt ≠ 0) (hon : m.dev.status &&& devEnabled ≠ 0) (hbuf : b.buf ≠ 0) :
    ∃ m', dwIicWrite retryCnt m b.buf b.len polls =
        some ((BitVec.ofNat 32 k).toInt, (iicWriteCmds m.dev b.buf b.len.toNat).take k, m') ∧
      m'.errState = err := by
  have hlen : b.len ≠ 0 := by
    intro hzero
    rw [hzero] at hk
    exact absurd hk (Nat.not_lt_zero k)
  have hcount := len_pred hlen
  rw [dwIicWrite_eq hopen hon hbuf hlen, ← plain_eq_take m.dev b.buf hk]
  by_cases hlast : k = (b.len - 1).toNat
  · -- the error comes with the last byte
    subst hlast
    obtain ⟨m₁, hdev₁, hloop⟩ := h.writeLoop_all b.buf m
    obtain ⟨m₂, hdev₂, hdata⟩ :=
      hwait.writeData ((m₁.dev.ram (b.buf + (b.len - 1))).setWidth 32) m.dev.lastCond m₁
    refine ⟨{ m₂ with errState := err }, ?_, rfl⟩
    rw [hloop]
    simp only [hdata, Option.map_some, if_neg herr, List.append_nil]
  · have hleft : k < (b.len - 1).toNat := by omega
    obtain ⟨m', hdev, hloop⟩ := h.writeLoop_stops hwait herr hleft b.buf m
    refine ⟨{ m' with errState := err }, ?_, rfl⟩
    rw [hloop]
    cases err with
    | none => exact absurd rfl herr
    | lostBus | addrNoack | dataNoack | timeout | mststop | undef => rfl

/-- The count of an `int32_t` is right as long as it is less than 2 ^ 31. -/
theorem toInt_ofNat_eq_iff {k : Nat} (h : k < 2 ^ 32) :
    (BitVec.ofNat 32 k).toInt = (k : Int) ↔ k < 2 ^ 31 := by
  rw [BitVec.toInt_eq_toNat_cond, BitVec.toNat_ofNat, Nat.mod_eq_of_lt h]
  split <;> omega

theorem iicRooms_replicate (retryCnt : Word) (k : Nat) (rest : List IicPoll) :
    IicRooms retryCnt k (List.replicate k .room ++ rest) rest := by
  induction k with
  | zero => exact .zero rest
  | succ k ih =>
    rw [List.replicate_succ, List.cons_append]
    have hroom : IicWait retryCnt (.room :: (List.replicate k .room ++ rest)) .none
        (List.replicate k .room ++ rest) :=
      @IicWait.room retryCnt [] _ (fun _ hp => absurd hp List.not_mem_nil) fun _ => Nat.zero_le _
    exact .succ hroom ih

theorem iicPolledOk_iff (hopen : m.dev.opnCnt ≠ 0) (hon : m.dev.status &&& devEnabled ≠ 0)
    (hbuf : b.buf ≠ 0) (hlen : b.len ≠ 0) :
    IicPolledOk retryCnt m b ↔ b.len.toNat ≤ 2 ^ 31 := by
  constructor
  · intro hok
    by_contra hlong
    -- there is room for 2 ^ 31 bytes, and then the transfer is aborted
    have hrooms := iicRooms_replicate retryCnt (2 ^ 31) [.full icIntrTxAbrt 0 0]
    have hwait : IicWait retryCnt [.full icIntrTxAbrt 0 0] (iicAbrtErr 0) [] :=
      @IicWait.abort retryCnt [] _ _ _ _ (fun _ hp => absurd hp List.not_mem_nil)
        (fun _ => Nat.le_add_left ..) (by decide)
    have hk : 2 ^ 31 < b.len.toNat := by omega
    obtain ⟨m₁, hwrite₁, -⟩ :=
      hok.stopped _ hk _ _ _ _ hrooms hwait (iicAbrtErr_ne_none 0)
    obtain ⟨m₂, hwrite₂, -⟩ :=
      hrooms.write_stops hwait (iicAbrtErr_ne_none 0) hk hopen hon hbuf
    have hret : (BitVec.ofNat 32 (2 ^ 31)).toInt = ((2 ^ 31 : Nat) : Int) :=
      congrArg Prod.fst (Option.some.inj (hwrite₂.symm.trans hwrite₁))
    have hsmall := (toInt_ofNat_eq_iff (by decide)).mp hret
    exact absurd hsmall (Nat.lt_irrefl _)
  · intro hshort
    refine ⟨fun polls rest hrooms => hrooms.write hopen hon hbuf hlen, ?_⟩
    intro k hk polls mid rest err hrooms hwait herr
    have hret := (toInt_ofNat_eq_iff (k := k) (by omega)).mpr (by omega)
    rw [← hret]
    exact hrooms.write_stops hwait herr hk hopen hon hbuf

/-- **The polled write returns, however the hardware answers**, with the commands for the first bytes
written; an error is reported exactly if they are not all. -/
theorem iic_write_returns (hbound : retryCnt.toNat + 1 < 2 ^ 32) (hopen : m.dev.opnCnt ≠ 0)
    (hon : m.dev.status &&& devEnabled ≠ 0) (hbuf : b.buf ≠ 0) (hlen : b.len ≠ 0)
    (hpolls : b.len.toNat * (retryCnt.toNat + 2) ≤ polls.length) :
    ∃ ret m', ∃ k ≤ b.len.toNat, dwIicWrite retryCnt m b.buf b.len polls =
        some (ret, (iicWriteCmds m.dev b.buf b.len.toNat).take k, m') ∧
      (m'.errState = .none ↔ k = b.len.toNat) := by
  obtain ⟨rest, hrooms⟩ | ⟨k, hk, mid, rest, err, hrooms, hwait, herr⟩ :=
    iicRooms_or_stops hbound b.len.toNat hpolls
  · obtain ⟨ret, m', hwrite, hnone⟩ := hrooms.write hopen hon hbuf hlen
    refine ⟨ret, m', b.len.toNat, le_rfl, ?_, iff_of_true hnone rfl⟩
    rw [List.take_of_length_le (iicWriteCmds_length ..).le]
    exact hwrite
  · obtain ⟨m', hwrite, rfl⟩ := hrooms.write_stops hwait herr hk hopen hon hbuf
    exact ⟨_, m', k, hk.le, hwrite, iff_of_false herr hk.ne⟩

/-- The FIFO stays full. -/
theorem iic_write_returns_full :
    ∃ ret m', ∃ k ≤ 2, dwIicWrite 1 iicMstSending 0x100 2 (List.replicate 6 (.full 0 0 0)) =
        some (ret, (iicWriteCmds iicMstSending.dev 0x100 2).take k, m') ∧
      (m'.errState = .none ↔ k = 2) :=
  iic_write_returns (b := ⟨0x100, 2, 0⟩) (by decide) (by decide) (by decide) (by decide) (by decide)
    (by decide)

end Polled

/-! ### The interrupt routine -/

/-- The master, and the commands written so far. -/
structure IicTx where
  mst : IicMst
  queued : List Word

def iicTxStep (env : Word → IicMst → IicMst) (t : IicTx) (ev : IicIsrEvent) : Except Empty IicTx :=
  let r := dwIicMstIsr env t.mst ev
  .ok { mst := r.mst, queued := t.queued ++ r.cmds }

def IicMst.Sending (m : IicMst) : Prop := m.dev.curState = .inTx ∧ m.dev.txBuf.buf ≠ 0

/-- The interrupts of one transfer, without errors. -/
def IicTx.Goes (t : IicTx) (ev : IicIsrEvent) : Prop := t.mst.Sending ∧ ev.aborts = false

def iicRoomOf (evs : List IicIsrEvent) : Nat := evs.foldl (fun j ev => j + ev.served .tx) 0

/-- What the interrupt routine should do to send the buffer `b`: one command for each byte there is
room for, and the transfer goes on until all are written. -/
def IicIntOk (env : Word → IicMst → IicMst) (m : IicMst) (b : DevBuffer) : Prop :=
  ∀ evs t, Runs (iicTxStep env) IicTx.Goes { mst := m, queued := [] } evs t →
    t.queued = (iicWriteCmds m.dev b.buf b.len.toNat).take (iicRoomOf evs) ∧
      (t.mst.Sending ↔ iicRoomOf evs < b.len.toNat)

/-- At the start of the transfer of `b`. -/
structure IicMst.Sends (b : DevBuffer) (m : IicMst) : Prop where
  state : m.dev.curState = .inTx
  txBuf : m.dev.txBuf = { b with ofs := 0 }

section Interrupt

variable {env : Word → IicMst → IicMst} {s : IicDev} {m : IicMst} {b : DevBuffer}

/-- `IIC_CMD_SET_TXINT_BUF` and `IIC_CMD_SET_TXINT` start a transfer. -/
theorem sends_of_commands {param val : Word} (hparam : param ≠ 0) (hval : val ≠ 0)
    (hset : (dwIicControl s (.setIntBuf .tx param b)).1 = eOk)
    (hint : (dwIicControl (dwIicControl s (.setIntBuf .tx param b)).2 (.setInt .tx val)).1 = eOk) :
    IicMst.Sends b { m with
      dev := (dwIicControl (dwIicControl s (.setIntBuf .tx param b)).2 (.setInt .tx val)).2 } := by
  obtain ⟨-, hdev⟩ := dwIicControl_setInt_ok hint
  rw [hdev, if_neg hval, dwIicControl_setIntBuf_ok hset, intBuf, if_pos hparam]
  exact ⟨rfl, rfl⟩

/-- The loop of the interrupt routine writes the next commands, as many as there is room for. -/
theorem dwIicSend_spec (hj : j < b.len.toNat) (hs : s.txBuf = { b with ofs := BitVec.ofNat 32 j })
    (room : Nat) :
    (dwIicSend room s).1 = ((iicWriteCmds s b.buf b.len.toNat).drop j).take room ∧
      (j + room < b.len.toNat → (dwIicSend room s).2 =
        (false, { s with txBuf := { b with ofs := BitVec.ofNat 32 (j + room) } })) ∧
      (b.len.toNat ≤ j + room → (dwIicSend room s).2.1 = true) := by
  induction room generalizing s j with
  | zero =>
    refine ⟨rfl, fun _ => ?_, fun hall => absurd hall (by omega)⟩
    rw [Nat.add_zero, ← hs]
    rfl
  | succ room ih =>
    have hbase : s.txBuf.buf = b.buf := by rw [hs]
    have htop : s.txBuf.len = b.len := by rw [hs]
    have hofs : s.txBuf.ofs = BitVec.ofNat 32 j := by rw [hs]
    have hlast : s.txBuf.ofs = s.txBuf.len - 1 ↔ j + 1 = b.len.toNat := by
      bv_omega
    have hcmd : iicWriteCmd s b.buf b.len.toNat j =
        (s.ram (s.txBuf.buf + s.txBuf.ofs)).setWidth 32 |||
          if j + 1 = b.len.toNat then s.lastCond else 0 := by
      rw [iicWriteCmd, hbase, hofs]
    rw [iicWriteCmds_drop s b.buf hj, List.take_succ_cons, hcmd]
    by_cases hend : j + 1 = b.len.toNat
    · have hdrop : (iicWriteCmds s b.buf b.len.toNat).drop (j + 1) = [] :=
        List.drop_eq_nil_of_le (by rw [iicWriteCmds_length]; omega)
      rw [dwIicSend]
      rw [if_pos (decide_eq_true (hlast.mpr hend)), if_pos hend, hdrop, List.take_nil]
      exact ⟨rfl, fun hmore => absurd hmore (by omega), fun _ => rfl⟩
    · have hgoes : ¬decide (s.txBuf.ofs = s.txBuf.len - 1) = true := fun hall =>
        hend (hlast.mp (of_decide_eq_true hall))
      have hnext : s.txBuf.ofs + 1 = BitVec.ofNat 32 (j + 1) := by
        rw [hofs, BitVec.ofNat_add]
        rfl
      have hs' : ({ s with txBuf := { s.txBuf with ofs := s.txBuf.ofs + 1 } } : IicDev).txBuf =
          { b with ofs := BitVec.ofNat 32 (j + 1) } := by
        dsimp only
        rw [hnext, hbase, htop]
      obtain ⟨hcmds, hmore, hall⟩ := ih (by omega) hs'
      have hnone : ∀ x : Word, x ||| 0 = x := fun x => BitVec.or_zero
      rw [dwIicSend]
      rw [if_neg hgoes, if_neg hend, hnone]
      refine ⟨?_, fun hroom => ?_, fun hroom => hall (by omega)⟩
      · exact congrArg (_ :: ·) hcmds
      · rw [show j + (room + 1) = j + 1 + room by omega]
        exact hmore (by omega)

theorem dwIicServe_tx (s : IicDev) (ev : IicIsrEvent) :
    dwIicServe s .tx ev.status ev.room ev.bytes = dwIicSend (ev.served .tx) s := by
  simp only [dwIicServe, dwIicServeTx, IicIsrEvent.served]
  split
  · rfl
  · rfl

theorem IicMst.Sending.isr (env : Word → IicMst → IicMst) (h : m.Sending)
    (habort : ev.aborts = false) :
    (dwIicMstIsr env m ev).cmds = (dwIicSend (ev.served .tx) m.dev).1 ∧
      ((dwIicSend (ev.served .tx) m.dev).2.1 = false →
        (dwIicMstIsr env m ev).mst.dev = (dwIicSend (ev.served .tx) m.dev).2.2) ∧
      ((dwIicSend (ev.served .tx) m.dev).2.1 = true →
        (dwIicMstIsr env m ev).mst.dev.txBuf = .cleared) := by
  have hserves : m.dev.serves = .tx := if_pos h.1
  have hserve := dwIicServe_tx m.dev ev
  -- behind the callback nothing but the buffer changes
  have hafter : ∀ (m₂ : IicMst) (complete : Bool),
      ((m₂.served .tx ev.status complete).check .tx ev).1 = false ∧
      ((m₂.served .tx ev.status complete).check .tx ev).2.dev =
        if complete then m₂.dev.withBuf .tx .cleared else m₂.dev := by
    intro m₂ complete
    obtain ⟨herr, -, hdev, -⟩ := (m₂.served .tx ev.status complete).check_spec .tx ev
    rw [habort] at herr hdev
    exact ⟨herr, hdev.trans (m₂.served_spec .tx ev.status complete).2.2⟩
  simp only [dwIicMstIsr, hserves, IicMst.int, if_pos (show (m.dev.buf .tx).buf ≠ 0 from h.2),
    IicMst.serve, hserve, (hafter _ _).1, (hafter _ _).2, Bool.false_eq_true, if_false,
    IicMst.checked, true_and]
  constructor
  · intro hmore
    simp only [hmore, Bool.false_eq_true, if_false]
  · intro hall
    simp only [hall, if_true]
    rfl

/-- While the buffer is being sent, the device is as it was but for the offset. -/
structure IicTx.Sent (b : DevBuffer) (m : IicMst) (j : Nat) (t : IicTx) : Prop where
  dev : t.mst.dev = { m.dev with txBuf := { b with ofs := BitVec.ofNat 32 j } }
  left : j < b.len.toNat

/-- What has been written after there was room for `j` bytes. -/
def IicTx.After (b : DevBuffer) (m : IicMst) (j : Nat) (t : IicTx) : Prop :=
  t.queued = (iicWriteCmds m.dev b.buf b.len.toNat).take j ∧
    (t.Sent b m j ∨ b.len.toNat ≤ j ∧ ¬t.mst.Sending)

theorem IicTx.After.step {t t' : IicTx} (h : t.After b m j) (hgoes : t.Goes ev)
    (hstep : iicTxStep env t ev = .ok t') : t'.After b m (j + ev.served .tx) := by
  obtain ⟨hsending, habort⟩ := hgoes
  cases hstep
  rcases h.2 with hsent | ⟨-, hover⟩
  · have htx : t.mst.dev.txBuf = { b with ofs := BitVec.ofNat 32 j } := by rw [hsent.dev]
    have hsame : iicWriteCmds t.mst.dev b.buf b.len.toNat =
        iicWriteCmds m.dev b.buf b.len.toNat := by rw [hsent.dev]; rfl
    obtain ⟨hcmds, hmore, hall⟩ := dwIicSend_spec hsent.left htx (ev.served .tx)
    obtain ⟨hisr, hgoes, hends⟩ := IicMst.Sending.isr env hsending habort
    refine ⟨?_, ?_⟩
    · show t.queued ++ (dwIicMstIsr env t.mst ev).cmds = _
      rw [hisr, hcmds, hsame, h.1, List.take_add]
    · by_cases hleft : j + ev.served .tx < b.len.toNat
      · refine .inl ⟨?_, hleft⟩
        have hserved := hmore hleft
        show (dwIicMstIsr env t.mst ev).mst.dev = _
        rw [hgoes (by rw [hserved]), hserved, hsent.dev]
      · refine .inr ⟨Nat.le_of_not_lt hleft, fun hstill => ?_⟩
        have hcleared := hends (hall (Nat.le_of_not_lt hleft))
        exact hstill.2 (by rw [hcleared]; rfl)
  · exact absurd hsending hover

theorem IicMst.Sends.sending (h : m.Sends b) (hbuf : b.buf ≠ 0) : m.Sending := by
  refine ⟨h.state, ?_⟩
  rw [h.txBuf]
  exact hbuf

def iicRoomOne : IicIsrEvent :=
  { status := icIntrTxEmpty, room := 1, bytes := [], raw := icIntrTxEmpty, source := 0,
    clrTxOver := 0 }

/-- Without a byte to send, the routine sends one as soon as there is room. -/
theorem IicMst.Sends.sends_none (env : Word → IicMst → IicMst) (h : m.Sends b) (hbuf : b.buf ≠ 0)
    (hlen : b.len = 0) :
    (dwIicMstIsr env m iicRoomOne).cmds = [(m.dev.ram b.buf).setWidth 32] := by
  have hserved : iicRoomOne.served .tx = 1 := by decide
  rw [(IicMst.Sending.isr env (h.sending hbuf) (by decide)).1, hserved]
  have hgoes : ¬decide (m.dev.txBuf.ofs = m.dev.txBuf.len - 1) = true := by
    have hne : (0 : Word) ≠ 0 - 1 := by decide
    rw [h.txBuf, hlen, decide_eq_true_eq]
    exact hne
  rw [dwIicSend]
  rw [if_neg hgoes, h.txBuf]
  rw [show b.buf + 0 = b.buf from BitVec.add_zero b.buf]
  rfl

theorem iicIntOk_iff (env : Word → IicMst → IicMst) (h : m.Sends b) (hbuf : b.buf ≠ 0) :
    IicIntOk env m b ↔ b.len ≠ 0 := by
  constructor
  · intro hok hlen
    have hrun : Runs (iicTxStep env) IicTx.Goes { mst := m, queued := [] } [iicRoomOne] _ :=
      .cons ⟨h.sending hbuf, by decide⟩ rfl (.nil _)
    have hqueued := (hok _ _ hrun).1
    rw [hlen] at hqueued
    rw [h.sends_none env hbuf hlen] at hqueued
    exact absurd hqueued (List.cons_ne_nil _ _)
  · intro hlen evs t hrun
    have hstart : IicTx.After b m 0 { mst := m, queued := [] } := by
      refine ⟨rfl, .inl ⟨?_, Nat.pos_of_ne_zero fun hzero => hlen (BitVec.eq_of_toNat_eq hzero)⟩⟩
      show m.dev = { m.dev with txBuf := { b with ofs := 0 } }
      rw [← h.txBuf]
    have hafter : t.After b m (iicRoomOf evs) :=
      hrun.track (fun _ _ _ _ hafter hgoes hstep => hafter.step hgoes hstep) hstart
    refine ⟨hafter.1, ?_⟩
    rcases hafter.2 with hsent | ⟨hall, hover⟩
    · refine iff_of_true ⟨?_, ?_⟩ hsent.left
      · rw [hsent.dev]
        exact h.state
      · rw [hsent.dev]
        exact hbuf
    · exact iff_of_false hover (Nat.not_lt.mpr hall)

end Interrupt

/-- **The polled write writes the commands of a buffer, and counts them where an error stops it, for
every schedule if and only if the buffer has at most 2 ^ 31 bytes.  The interrupt routine writes them
if and only if the buffer has any.** -/
theorem iic_transmit_iff (retryCnt : Word) (env : Word → IicMst → IicMst) {m q : IicMst}
    {b : DevBuffer} (hopen : m.dev.opnCnt ≠ 0) (hon : m.dev.status &&& devEnabled ≠ 0)
    (hbuf : b.buf ≠ 0) (hsends : q.Sends b) :
    (b.len ≠ 0 → (IicPolledOk retryCnt m b ↔ b.len.toNat ≤ 2 ^ 31)) ∧
      (IicIntOk env q b ↔ b.len ≠ 0) :=
  ⟨fun hlen => iicPolledOk_iff hopen hon hbuf hlen, iicIntOk_iff env hsends hbuf⟩

theorem iic_transmit_two :
    IicPolledOk 100000 iicMstSending { buf := 0x100, len := 2, ofs := 0 } ∧
      IicIntOk (fun _ m => m) iicMstSending { buf := 0x100, len := 2, ofs := 0 } := by
  have hsends : iicMstSending.Sends { buf := 0x100, len := 2, ofs := 0 } := ⟨rfl, rfl⟩
  obtain ⟨hpolled, hint⟩ := iic_transmit_iff 100000 (fun _ m => m) (m := iicMstSending) (by decide)
    (by decide) (by decide) hsends
  exact ⟨(hpolled (by decide)).mpr (by decide), hint.mpr (by decide)⟩

def iicMstIdle : IicMst :=
  { iicMstSending with
    dev := { iicMstSending.dev with
      curState := .free, txBuf := .cleared, mask := 0, txInt := false, gint := false } }

/-- A buffer without bytes is accepted, and the byte it points to is sent, without a condition. -/
theorem iic_transmit_none :
    ∃ dev, dwIicControl iicMstIdle.dev
        (.setIntBuf .tx 0x300 { buf := 0x100, len := 0, ofs := 0 }) = (eOk, dev) ∧
      ∃ dev', dwIicControl dev (.setInt .tx 1) = (eOk, dev') ∧
        (dwIicMstIsr (fun _ m => m) { iicMstIdle with dev := dev' } iicRoomOne).cmds = [0x5a] :=
  ⟨_, rfl, _, rfl, by decide⟩

end Embarc
