/-
The frames of a buffer, moved through a FIFO.

`fill_txfifo` and `retrieve_rxfifo` work out from the bytes that are left how many frames to move,
and start where the count says.  What they do to a buffer as a whole is said here once: the frames
that have been moved are the first ones of the buffer, each in its place, and when nothing is left
it is all of them.

The arithmetic is that of machine words.  A buffer has to leave room for its last frame to be
counted in full.
-/
import Embarc.Subsystem.SpiInfo

namespace Embarc

variable {k : Nat} {frames : List Word}

/-! ### How a buffer is cut into frames -/

section Sizes

variable {log n : Nat}

theorem frameBytes_eq (h : log ≤ 2) : frameBytes log = 2 ^ log := by
  match log, h with
  | 0, _ | 1, _ | 2, _ => rfl

theorem frameBytes_pos (log : Nat) : 0 < frameBytes log := by
  unfold frameBytes
  split
  · decide
  · split <;> decide

theorem frameSizes_zero (log : Nat) : frameSizes log 0 = [] := by simp [frameSizes]

theorem frameSizes_of_lt (hpos : 0 < n) (h : n < frameBytes log) : frameSizes log n = [n] := by
  simp [frameSizes, Nat.div_eq_of_lt h, Nat.mod_eq_of_lt h, Nat.ne_of_gt hpos]

theorem frameSizes_add (log n : Nat) :
    frameSizes log (frameBytes log + n) = frameBytes log :: frameSizes log n := by
  have hpos := frameBytes_pos log
  simp only [frameSizes, Nat.add_mod_left, Nat.add_div_left n hpos, List.replicate_succ,
    List.cons_append]

/-- A buffer is empty, less than a frame, or begins with a whole one. -/
theorem frameSizes_cases (log n : Nat) :
    n = 0 ∨ (0 < n ∧ n < frameBytes log) ∨ ∃ m, n = frameBytes log + m := by
  rcases Nat.lt_or_ge n (frameBytes log) with hlt | hge
  · rcases Nat.eq_zero_or_pos n with hzero | hpos
    · exact .inl hzero
    · exact .inr (.inl ⟨hpos, hlt⟩)
  · exact .inr (.inr ⟨n - frameBytes log, (Nat.add_sub_cancel' hge).symm⟩)

/-- Bytes for `k` frames are the first `k` frames. -/
theorem frameSizes_take (log n k : Nat) :
    frameSizes log (min n (k * frameBytes log)) = (frameSizes log n).take k := by
  induction k generalizing n with
  | zero => simp [frameSizes_zero]
  | succ k ih =>
    rw [Nat.succ_mul]
    obtain rfl | ⟨hn, hlt⟩ | ⟨m, rfl⟩ := frameSizes_cases log n
    · simp [frameSizes_zero]
    · rw [Nat.min_eq_left (by omega), frameSizes_of_lt hn hlt]
      simp
    · have hmin : min (frameBytes log + m) (k * frameBytes log + frameBytes log) =
          frameBytes log + min m (k * frameBytes log) := by omega
      rw [hmin, frameSizes_add, frameSizes_add, List.take_succ_cons, ih m]

theorem frameSizes_drop (h : k * frameBytes log ≤ n) :
    frameSizes log (n - k * frameBytes log) = (frameSizes log n).drop k := by
  induction k generalizing n with
  | zero => simp
  | succ k ih =>
    rw [Nat.succ_mul] at h ⊢
    obtain ⟨m, rfl⟩ : ∃ m, n = frameBytes log + m := ⟨n - frameBytes log, by omega⟩
    have hsub : frameBytes log + m - (k * frameBytes log + frameBytes log) =
        m - k * frameBytes log := by omega
    rw [hsub, frameSizes_add, List.drop_succ_cons, ih (by omega)]

/-- The last frame may be counted in full. -/
theorem frameSizes_length (log n : Nat) :
    n ≤ (frameSizes log n).length * frameBytes log ∧
      (frameSizes log n).length * frameBytes log < n + frameBytes log := by
  have hpos := frameBytes_pos log
  induction n using Nat.strong_induction_on with
  | _ n ih =>
    obtain rfl | ⟨hn, hlt⟩ | ⟨m, rfl⟩ := frameSizes_cases log n
    · simpa [frameSizes_zero] using hpos
    · rw [frameSizes_of_lt hn hlt]
      simp only [List.length_singleton, Nat.one_mul]
      omega
    · have hm := ih m (by omega)
      rw [frameSizes_add, List.length_cons, Nat.succ_mul]
      omega

/-- A count of whole frames covers a buffer exactly if it covers all its frames. -/
theorem le_mul_frameBytes_iff (hk : k ≤ (frameSizes log n).length) :
    n ≤ k * frameBytes log ↔ k = (frameSizes log n).length := by
  obtain ⟨hle, hlt⟩ := frameSizes_length log n
  constructor
  · intro h
    by_contra hne
    have hsucc : (k + 1) * frameBytes log ≤ (frameSizes log n).length * frameBytes log :=
      Nat.mul_le_mul_right _ (by omega)
    rw [Nat.succ_mul] at hsucc
    omega
  · rintro rfl
    exact hle

end Sizes

/-! ### Frames in memory -/

theorem loadFrames_length (log : Nat) (ram : Word → Byte) (buff : Word) (sizes : List Nat)
    (first : Nat) : (loadFrames log ram buff sizes first).length = sizes.length := by
  simp [loadFrames]

/-- Frames loaded from the middle on are those of the whole buffer. -/
theorem loadFrames_segment (log : Nat) (ram : Word → Byte) (buff : Word) (sizes : List Nat)
    (k m : Nat) :
    loadFrames log ram buff ((sizes.drop k).take m) k =
      ((loadFrames log ram buff sizes 0).drop k).take m := by
  refine List.ext_getElem (by simp [loadFrames]) fun i _ _ => ?_
  simp [loadFrames]

theorem storeFrames_append (log : Nat) (mem : Word → Byte) (buff : Word)
    (frames frames' : List (Word × Nat)) (first : Nat) :
    storeFrames log mem buff (frames ++ frames') first =
      storeFrames log (storeFrames log mem buff frames first) buff frames'
        (first + frames.length) := by
  simp [storeFrames, List.zipIdx_append]

theorem zip_take_length {α β : Type} (l : List α) (l' : List β) :
    l.zip (l'.take l.length) = l.zip l' := by
  induction l generalizing l' with
  | nil => rfl
  | cons a l ih =>
    cases l' with
    | nil => rfl
    | cons b l' => simp [ih]

/-! ### Words -/

section Words

variable {log : Nat}

/-- A number of frames, in bytes. -/
theorem shl_frames_toNat (hlog : log ≤ 2) {w : Word} (h : w.toNat * frameBytes log < 2 ^ 32) :
    (w <<< log).toNat = w.toNat * frameBytes log := by
  rw [BitVec.toNat_shiftLeft, Nat.shiftLeft_eq, ← frameBytes_eq hlog, Nat.mod_eq_of_lt h]

end Words

/-! ### A transmit buffer -/

namespace SsSpiInfo

variable {s : SsSpiInfo} {sent₀ got₀ : List Word} {mem₀ : Word → Byte}

def txFrames (s : SsSpiInfo) : List Word :=
  loadFrames s.logXferSize s.ram s.txBuff (frameSizes s.logXferSize s.txSize.toNat) 0

/-- Since `sent₀` was all that had been sent, the first `txCount` frames of the buffer were. -/
structure Sends (s : SsSpiInfo) (sent₀ : List Word) : Prop where
  log_le : s.logXferSize ≤ 2
  fits : s.txSize.toNat + frameBytes s.logXferSize ≤ 2 ^ 32
  count_le : s.txCount.toNat ≤ (frameSizes s.logXferSize s.txSize.toNat).length
  sent : s.sent = sent₀ ++ s.txFrames.take s.txCount.toNat

/-- The bytes that have been moved, counted as whole frames, fit a word. -/
theorem frames_lt_word {log size : Nat} (hfits : size + frameBytes log ≤ 2 ^ 32)
    (hk : k ≤ (frameSizes log size).length) : k * frameBytes log < 2 ^ 32 := by
  obtain ⟨-, hlt⟩ := frameSizes_length log size
  have hle := Nat.mul_le_mul_right (frameBytes log) hk
  omega

theorem Sends.txBytes_toNat (hs : s.Sends sent₀) :
    s.txBytes.toNat = s.txCount.toNat * frameBytes s.logXferSize :=
  shl_frames_toNat hs.log_le (frames_lt_word hs.fits hs.count_le)

/-- The driver sees the end exactly when all frames were sent. -/
theorem Sends.txDone_iff (hs : s.Sends sent₀) :
    s.txDone = true ↔
      s.txCount.toNat = (frameSizes s.logXferSize s.txSize.toNat).length := by
  rw [← le_mul_frameBytes_iff hs.count_le, ← hs.txBytes_toNat]
  simp [txDone, BitVec.le_def]

theorem Sends.all (hs : s.Sends sent₀) (hdone : s.txDone = true) :
    s.sent = sent₀ ++ s.txFrames := by
  have hall := hs.sent
  rwa [hs.txDone_iff.mp hdone, List.take_of_length_le (by simp [txFrames, loadFrames_length])] at hall

section Fill

variable {hw : SsSpiHw} {txflr : Word}

theorem Sends.sizes (hs : s.Sends sent₀) (hleft : s.txDone = false)
    (hlevel : txflr.toNat ≤ hw.fifoDepth.toNat) :
    frameSizes s.logXferSize (capped (s.txSize - s.txBytes)
        ((hw.fifoDepth.setWidth 32 - txflr) <<< s.logXferSize)).toNat =
      ((frameSizes s.logXferSize s.txSize.toNat).drop s.txCount.toNat).take
        (hw.fifoDepth.toNat - txflr.toNat) := by
  have hlog := hs.log_le
  have hbytes := hs.txBytes_toNat
  have hk : s.txCount.toNat * frameBytes s.logXferSize < s.txSize.toNat := by
    rw [← hbytes]
    simpa [txDone, BitVec.le_def] using hleft
  -- what is left, and what there is room for, in bytes
  have hcnt : (s.txSize - s.txBytes).toNat =
      s.txSize.toNat - s.txCount.toNat * frameBytes s.logXferSize := by
    rw [BitVec.toNat_sub_of_le (by rw [BitVec.le_def]; omega), hbytes]
  have hfree : ((hw.fifoDepth.setWidth 32 - txflr) <<< s.logXferSize).toNat =
      (hw.fifoDepth.toNat - txflr.toNat) * frameBytes s.logXferSize := by
    have hdepth : (hw.fifoDepth.setWidth 32).toNat = hw.fifoDepth.toNat := by
      rw [BitVec.toNat_setWidth]
      exact Nat.mod_eq_of_lt (Nat.lt_trans hw.fifoDepth.isLt (by decide))
    have hroom : (hw.fifoDepth.setWidth 32 - txflr).toNat = hw.fifoDepth.toNat - txflr.toNat := by
      rw [BitVec.toNat_sub_of_le (by rw [BitVec.le_def]; omega), hdepth]
    have hbytes : frameBytes s.logXferSize ≤ 4 := by
      rw [frameBytes_eq hlog]
      exact Nat.pow_le_pow_right (by decide) hlog
    have hlt : (hw.fifoDepth.toNat - txflr.toNat) * frameBytes s.logXferSize < 2 ^ 32 := by
      have := Nat.mul_le_mul (Nat.le_of_lt hw.fifoDepth.isLt) hbytes
      have := Nat.mul_le_mul_right (frameBytes s.logXferSize)
        (Nat.sub_le hw.fifoDepth.toNat txflr.toNat)
      omega
    rw [shl_frames_toNat hlog (by rw [hroom]; exact hlt), hroom]
  rw [capped_toNat, hcnt, hfree, frameSizes_take, frameSizes_drop (Nat.le_of_lt hk)]

theorem Sends.fill_txCount (hs : s.Sends sent₀) (hleft : s.txDone = false)
    (hlevel : txflr.toNat ≤ hw.fifoDepth.toNat) :
    (ssFillTxfifo hw s txflr).txCount.toNat =
      min (s.txCount.toNat + (hw.fifoDepth.toNat - txflr.toNat))
        (frameSizes s.logXferSize s.txSize.toNat).length := by
  have hle := hs.count_le
  have hlt := frames_lt_word hs.fits (Nat.le_refl _)
  have hone := Nat.le_mul_of_pos_right
    (frameSizes s.logXferSize s.txSize.toNat).length (frameBytes_pos s.logXferSize)
  simp only [ssFillTxfifo, hs.sizes hleft hlevel, List.length_take, List.length_drop,
    BitVec.toNat_add, BitVec.toNat_ofNat]
  omega

/-- Filling the FIFO sends the frames that are next. -/
theorem Sends.fill (hs : s.Sends sent₀) (hleft : s.txDone = false)
    (hlevel : txflr.toNat ≤ hw.fifoDepth.toNat) : (ssFillTxfifo hw s txflr).Sends sent₀ := by
  have hle := hs.count_le
  have hcount := hs.fill_txCount hleft hlevel
  refine ⟨hs.log_le, hs.fits, by rw [hcount]; exact Nat.min_le_right _ _, ?_⟩
  obtain ⟨m, hm⟩ : ∃ m, m = hw.fifoDepth.toNat - txflr.toNat := ⟨_, rfl⟩
  have hbefore := hs.sent
  have hmoved : (ssFillTxfifo hw s txflr).txCount.toNat =
      s.txCount.toNat + min m ((frameSizes s.logXferSize s.txSize.toNat).length - s.txCount.toNat) := by
    omega
  rw [hmoved]
  simp only [ssFillTxfifo, hs.sizes hleft hlevel, ← hm, loadFrames_segment, txFrames] at hbefore ⊢
  rw [hbefore, List.append_assoc, List.take_add]
  congr 2
  refine List.take_eq_take_iff.mpr ?_
  simp only [List.length_drop, loadFrames_length]
  omega

end Fill

/-! ### A receive buffer -/

def rxSizes (s : SsSpiInfo) : List Nat := frameSizes s.logXferSize s.rxSize.toNat

/-- Since `got₀` was all that had come, `rxCount` frames came, and lie in the buffer in order. -/
structure Receives (s : SsSpiInfo) (got₀ : List Word) (mem₀ : Word → Byte) : Prop where
  log_le : s.logXferSize ≤ 2
  fits : s.rxSize.toNat + frameBytes s.logXferSize ≤ 2 ^ 32
  count_le : s.rxCount.toNat ≤ s.rxSizes.length
  stored : ∃ frames, s.got = got₀ ++ frames ∧ frames.length = s.rxCount.toNat ∧
    s.mem = storeFrames s.logXferSize mem₀ s.rxBuff (frames.zip s.rxSizes) 0

variable (hs : s.Receives got₀ mem₀)
include hs

theorem Receives.rxBytes_toNat : s.rxBytes.toNat = s.rxCount.toNat * frameBytes s.logXferSize :=
  shl_frames_toNat hs.log_le (frames_lt_word hs.fits hs.count_le)

theorem Receives.rxDone_iff : s.rxDone = true ↔ s.rxCount.toNat = s.rxSizes.length := by
  rw [rxSizes, ← le_mul_frameBytes_iff hs.count_le, ← hs.rxBytes_toNat]
  simp [rxDone, BitVec.le_def]

theorem Receives.sizes (hlen : s.rxCount.toNat + frames.length ≤ s.rxSizes.length) :
    frameSizes s.logXferSize (capped (s.rxSize - s.rxBytes)
        (BitVec.ofNat 32 frames.length <<< s.logXferSize)).toNat =
      (s.rxSizes.drop s.rxCount.toNat).take frames.length := by
  have hlog := hs.log_le
  have hbytes := hs.rxBytes_toNat
  have havail : (BitVec.ofNat 32 frames.length <<< s.logXferSize).toNat =
      frames.length * frameBytes s.logXferSize := by
    have hlt := frames_lt_word hs.fits (Nat.le_trans (Nat.le_add_left _ _) hlen)
    have hone := Nat.le_mul_of_pos_right frames.length (frameBytes_pos s.logXferSize)
    have hword : (BitVec.ofNat 32 frames.length).toNat = frames.length := by
      rw [BitVec.toNat_ofNat, Nat.mod_eq_of_lt (by omega)]
    rw [shl_frames_toNat hlog (by rwa [hword]), hword]
  rw [capped_toNat, havail]
  rcases Nat.lt_or_ge s.rxBytes.toNat s.rxSize.toNat with hlt | hge
  · have hle : s.rxBytes ≤ s.rxSize := BitVec.le_def.mpr (Nat.le_of_lt hlt)
    rw [BitVec.toNat_sub_of_le hle, hbytes, frameSizes_take, frameSizes_drop (by omega), rxSizes]
  · -- all frames are there, and the FIFO holds no more
    have hall := hs.rxDone_iff.mp (by simpa [rxDone, BitVec.le_def] using hge)
    have hnone : frames.length = 0 := by omega
    simp [hnone, frameSizes_zero]

/-- What is in the FIFO is stored behind what has come. -/
theorem Receives.retrieve (hlen : s.rxCount.toNat + frames.length ≤ s.rxSizes.length) :
    (ssRetrieveRxfifo s frames).Receives got₀ mem₀ ∧
      (ssRetrieveRxfifo s frames).rxCount.toNat = s.rxCount.toNat + frames.length := by
  have hsizes := hs.sizes hlen
  have hmoved : ((s.rxSizes.drop s.rxCount.toNat).take frames.length).length = frames.length := by
    simp only [List.length_take, List.length_drop]
    omega
  have hcount : (ssRetrieveRxfifo s frames).rxCount.toNat = s.rxCount.toNat + frames.length := by
    have hlt := frames_lt_word hs.fits hlen
    have hone := Nat.le_mul_of_pos_right (s.rxCount.toNat + frames.length)
      (frameBytes_pos s.logXferSize)
    simp only [ssRetrieveRxfifo, hsizes, hmoved, BitVec.toNat_add, BitVec.toNat_ofNat]
    omega
  refine ⟨⟨hs.log_le, hs.fits, by rw [hcount]; exact hlen, ?_⟩, hcount⟩
  obtain ⟨before, hgot, hbefore, hmem⟩ := hs.stored
  refine ⟨before ++ frames, ?_, by rw [hcount, List.length_append, hbefore], ?_⟩
  · simp only [ssRetrieveRxfifo, hsizes, hmoved, List.take_length, hgot, List.append_assoc]
  · have hzip : (before ++ frames).zip s.rxSizes =
        before.zip s.rxSizes ++
          frames.zip ((s.rxSizes.drop s.rxCount.toNat).take frames.length) := by
      conv_lhs => rw [← List.take_append_drop before.length s.rxSizes]
      rw [List.zip_append (by rw [List.length_take]; omega), zip_take_length, zip_take_length,
        hbefore]
    have hbuf : (before.zip s.rxSizes).length = s.rxCount.toNat := by
      rw [List.length_zip]
      omega
    have hsame : (ssRetrieveRxfifo s frames).rxSizes = s.rxSizes := rfl
    rw [hsame, hzip]
    simp only [ssRetrieveRxfifo, hsizes]
    rw [storeFrames_append, ← hmem, hbuf, Nat.zero_add]

end SsSpiInfo

end Embarc
