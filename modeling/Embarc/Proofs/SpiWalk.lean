/-
The writer and the reader of the SPI driver do not depend on how they are cut.

Both are stopped by the FIFOs at arbitrary points and go on later.  What they have done is a
function of two numbers only, the frames pushed and the frames read: `SpiDev.at` is the device
after that many, and a call of the writer or the reader leads from one such device to another.
Nothing is said here about where the frames belong; that is the matter of the list.
-/
import Embarc.DesignWare.Spi

namespace Embarc

/-! ### Walks -/

variable {cur : List SpiSide} {dfs k : Nat}

@[simp] theorem spiWalk_nil (nb n : Nat) : spiWalk nb n [] = ([], []) := by
  cases n <;> rfl

@[simp] theorem spiWalk_zero (nb : Nat) (cur : List SpiSide) : spiWalk nb 0 cur = ([], cur) := rfl

theorem spiWalk_succ_of_nil {nb n : Nat} (h : spiCursor cur = []) :
    spiWalk nb (n + 1) cur = ([], []) := by
  rw [spiWalk, h]

theorem spiWalk_succ_of_cons {nb n : Nat} {rest : List SpiSide} {x : SpiSide}
    (h : spiCursor cur = x :: rest) :
    spiWalk nb (n + 1) cur =
      (x.addr :: (spiWalk nb n (x.advance nb :: rest)).1,
        (spiWalk nb n (x.advance nb :: rest)).2) := by
  rw [spiWalk, h]

/-- A walk is cut at any point. -/
theorem spiWalk_add (nb m n : Nat) (cur : List SpiSide) :
    spiWalk nb (m + n) cur =
      ((spiWalk nb m cur).1 ++ (spiWalk nb n (spiWalk nb m cur).2).1,
        (spiWalk nb n (spiWalk nb m cur).2).2) := by
  induction m generalizing cur with
  | zero => simp
  | succ m ih =>
    rw [Nat.add_right_comm]
    cases hcur : spiCursor cur with
    | nil => simp [spiWalk_succ_of_nil hcur]
    | cons x rest => simp [spiWalk_succ_of_cons hcur, ih]

theorem length_spiWalk_le (nb n : Nat) (cur : List SpiSide) : (spiWalk nb n cur).1.length ≤ n := by
  induction n generalizing cur with
  | zero => simp
  | succ n ih =>
    cases hcur : spiCursor cur with
    | nil => simp [spiWalk_succ_of_nil hcur]
    | cons x rest => simpa [spiWalk_succ_of_cons hcur] using ih _

/-- What is left of the transfers, counted as the driver counts it. -/
def spiLeft (cur : List SpiSide) : Nat := (cur.map fun x => x.tot - x.idx).sum

theorem spiLeft_cursor (cur : List SpiSide) : spiLeft (spiCursor cur) = spiLeft cur := by
  cases cur with
  | nil => rfl
  | cons x rest =>
    simp only [spiCursor]
    split
    · rename_i hdone
      simp [spiLeft, Nat.sub_eq_zero_of_le hdone]
    · rfl

/-- One frame takes `nb` bytes off at most; an index that wraps round takes off less. -/
theorem spiLeft_advance (nb : Nat) (x : SpiSide) (rest : List SpiSide) :
    spiLeft (x :: rest) ≤ nb + spiLeft (x.advance nb :: rest) := by
  have hidx : u32 (x.idx + nb) ≤ x.idx + nb := Nat.mod_le _ _
  simp only [spiLeft, List.map_cons, List.sum_cons, SpiSide.advance]
  omega

theorem length_spiWalk {nb n : Nat} (hnb : 0 < nb) (h : nb * n ≤ spiLeft cur) :
    (spiWalk nb n cur).1.length = n := by
  induction n generalizing cur with
  | zero => simp
  | succ n ih =>
    rw [Nat.mul_succ, ← spiLeft_cursor] at h
    cases hcur : spiCursor cur with rw [hcur] at h
    | nil =>
      have : spiLeft [] = 0 := rfl
      omega
    | cons x rest =>
      have hstep := spiLeft_advance nb x rest
      simp only [spiWalk_succ_of_cons hcur, List.length_cons, ih (Nat.le_of_add_le_add_right
        (Nat.le_trans h (by omega : _ ≤ spiLeft (x.advance nb :: rest) + nb)))]

theorem spiWalk_take {nb m n : Nat} (hle : n ≤ m) (hlen : (spiWalk nb m cur).1.length = m) :
    (spiWalk nb n cur).1 = (spiWalk nb m cur).1.take n := by
  obtain ⟨d, rfl⟩ := Nat.exists_eq_add_of_le hle
  have htail := length_spiWalk_le nb d (spiWalk nb n cur).2
  have hhead := length_spiWalk_le nb n cur
  rw [spiWalk_add] at hlen ⊢
  rw [List.length_append] at hlen
  rw [List.take_append_of_le_length (by omega), List.take_of_length_le hhead]

/-! ### The device after so many frames -/

theorem dwSpiNbytes_pos (dfs : Nat) : 0 < dwSpiNbytes dfs := by
  unfold dwSpiNbytes
  split <;> omega

theorem dwSpiNbytes_dvd (dfs : Nat) : dwSpiNbytes dfs ∣ 2 ^ 32 := by
  unfold dwSpiNbytes
  split <;> decide

/-- How many frames the driver counts the list as. -/
def spiFrames (xs : List DevSpiTransfer) (dfs : Nat) : Nat :=
  (dwSpiInitTransfer xs dfs).xferLen / dwSpiNbytes dfs

/-- The addresses the first `n` frames are read from. -/
def spiTx (xs : List DevSpiTransfer) (dfs n : Nat) : List (Option Word) :=
  (spiWalk (dwSpiNbytes dfs) n (xs.map (·.txSide))).1

/-- The addresses the first `n` frames are stored at. -/
def spiRx (xs : List DevSpiTransfer) (dfs n : Nat) : List (Option Word) :=
  (spiWalk (dwSpiNbytes dfs) n (xs.map (·.rxSide))).1

/-- The first `n` frames pushed for a list. -/
def SpiDev.sends (s : SpiDev) (xs : List DevSpiTransfer) (n : Nat) : List Word :=
  (spiTx xs s.dfs n).map (txFrame (dwSpiNbytes s.dfs) s.ram s.dummy)

/-- The receive buffers after the frames `got`. -/
def SpiDev.stores (s : SpiDev) (xs : List DevSpiTransfer) (got : List Word) : Word → Byte :=
  ((spiRx xs s.dfs got.length).zip got).foldl (rxStore (dwSpiNbytes s.dfs)) s.mem

/-- `s` in the middle of a list: `n` frames pushed, the frames `got` read. -/
def SpiDev.at (s : SpiDev) (xs : List DevSpiTransfer) (n : Nat) (got : List Word) : SpiDev :=
  { s with
    xfer := { dwSpiInitTransfer xs s.dfs with
      txXfer := (spiWalk (dwSpiNbytes s.dfs) n (xs.map (·.txSide))).2
      txIdx := dwSpiNbytes s.dfs * n
      rxXfer := (spiWalk (dwSpiNbytes s.dfs) got.length (xs.map (·.rxSide))).2
      rxIdx := dwSpiNbytes s.dfs * got.length }
    mem := s.stores xs got }

theorem SpiDev.at_zero (s : SpiDev) (xs : List DevSpiTransfer) :
    s.at xs 0 [] = { s with xfer := dwSpiInitTransfer xs s.dfs } := by
  simp [SpiDev.at, SpiDev.stores, dwSpiInitTransfer]

variable {s : SpiDev} {xs : List DevSpiTransfer} {n : Nat} {got : List Word}

theorem xferLen_lt (xs : List DevSpiTransfer) (dfs : Nat) :
    (dwSpiInitTransfer xs dfs).xferLen < 2 ^ 32 := Nat.mod_lt _ (by decide)

theorem mul_spiFrames_le (xs : List DevSpiTransfer) (dfs : Nat) :
    dwSpiNbytes dfs * spiFrames xs dfs ≤ (dwSpiInitTransfer xs dfs).xferLen := Nat.mul_div_le _ _

theorem mul_le_xferLen (dfs : Nat) (h : n ≤ spiFrames xs dfs) :
    dwSpiNbytes dfs * n ≤ (dwSpiInitTransfer xs dfs).xferLen :=
  Nat.le_trans (Nat.mul_le_mul_left _ h) (mul_spiFrames_le xs dfs)

/-- As many frames as are counted are there. -/
theorem length_walk_sides (h : n ≤ spiFrames xs dfs) (side : DevSpiTransfer → SpiSide)
    (hside : ∀ x, (side x).tot = x.totLen ∧ (side x).idx = 0) :
    (spiWalk (dwSpiNbytes dfs) n (xs.map side)).1.length = n := by
  have hleft : spiLeft (xs.map side) = (xs.map (·.totLen)).sum := by
    rw [spiLeft, List.map_map]
    congr 1
    exact List.map_congr_left fun x _ => by simp [hside x]
  apply length_spiWalk (dwSpiNbytes_pos dfs)
  rw [hleft]
  exact Nat.le_trans (mul_le_xferLen dfs h) (Nat.mod_le _ _)

theorem walk_sides_next (h : n + k ≤ spiFrames xs dfs) (side : DevSpiTransfer → SpiSide)
    (hside : ∀ x, (side x).tot = x.totLen ∧ (side x).idx = 0) :
    spiWalk (dwSpiNbytes dfs) k (spiWalk (dwSpiNbytes dfs) n (xs.map side)).2 =
      ((spiWalk (dwSpiNbytes dfs) (n + k) (xs.map side)).1.drop n,
        (spiWalk (dwSpiNbytes dfs) (n + k) (xs.map side)).2) := by
  have hfirst := length_walk_sides (Nat.le_of_add_right_le h) side hside
  rw [spiWalk_add]
  simp only [List.drop_left' hfirst]

theorem length_spiTx (h : n ≤ spiFrames xs dfs) : (spiTx xs dfs n).length = n :=
  length_walk_sides h _ fun _ => ⟨rfl, rfl⟩

theorem length_spiRx (h : n ≤ spiFrames xs dfs) : (spiRx xs dfs n).length = n :=
  length_walk_sides h _ fun _ => ⟨rfl, rfl⟩

theorem spiTx_take {m : Nat} (hle : n ≤ m) (h : m ≤ spiFrames xs dfs) :
    spiTx xs dfs n = (spiTx xs dfs m).take n :=
  spiWalk_take hle (length_spiTx h)

theorem spiRx_take {m : Nat} (hle : n ≤ m) (h : m ≤ spiFrames xs dfs) :
    spiRx xs dfs n = (spiRx xs dfs m).take n :=
  spiWalk_take hle (length_spiRx h)

@[simp] theorem SpiDev.length_sends (h : n ≤ spiFrames xs s.dfs) :
    (s.sends xs n).length = n := by
  rw [SpiDev.sends, List.length_map, length_spiTx h]

theorem SpiDev.sends_append (h : n + k ≤ spiFrames xs s.dfs) :
    s.sends xs n ++ (s.sends xs (n + k)).drop n = s.sends xs (n + k) := by
  have htake : s.sends xs n = (s.sends xs (n + k)).take n := by
    rw [SpiDev.sends, SpiDev.sends, spiTx_take (Nat.le_add_right n k) h, List.map_take]
  rw [htake, List.take_append_drop]

/-- What is left of a count of frames, as `dw_spi_tx_max` and `dw_spi_rx_max` compute it. -/
theorem frames_left (dfs n : Nat) :
    ((dwSpiInitTransfer xs dfs).xferLen - dwSpiNbytes dfs * n) / dwSpiNbytes dfs =
      spiFrames xs dfs - n := by
  rw [spiFrames, Nat.sub_mul_div]

theorem u32_mul_add (h : n + k ≤ spiFrames xs dfs) :
    u32 (dwSpiNbytes dfs * n + dwSpiNbytes dfs * k) = dwSpiNbytes dfs * (n + k) := by
  rw [← Nat.mul_add]
  exact u32_of_lt (Nat.lt_of_le_of_lt (mul_le_xferLen dfs h) (xferLen_lt xs dfs))

/-- **The writer** pushes the frames that come next, as many as there is room for. -/
theorem dwSpiWriter_at (hn : n ≤ spiFrames xs s.dfs) (room : Nat) :
    dwSpiWriter (s.at xs n got) room =
      ((s.sends xs (n + min (spiFrames xs s.dfs - n) room)).drop n,
        s.at xs (n + min (spiFrames xs s.dfs - n) room) got) := by
  have hmax : dwSpiTxMax (s.at xs n got).xfer room = min (spiFrames xs s.dfs - n) room := by
    show min ((_ - dwSpiNbytes s.dfs * n) / dwSpiNbytes s.dfs) room = _
    exact congrArg (min · room) (frames_left s.dfs n)
  rw [dwSpiWriter, hmax]
  generalize hk : min (spiFrames xs s.dfs - n) room = k
  have hle : n + k ≤ spiFrames xs s.dfs := by omega
  have hwalk := walk_sides_next hle (·.txSide) fun _ => ⟨rfl, rfl⟩
  have hlen : ((spiTx xs s.dfs (n + k)).drop n).length = k := by
    rw [List.length_drop, length_spiTx hle]
    omega
  rw [spiTx] at hlen
  simp only [SpiDev.at, dwSpiInitTransfer, hwalk, hlen, u32_mul_add hle, SpiDev.sends, spiTx,
    List.map_drop]

theorem SpiDev.stores_append (got more : List Word)
    (h : got.length + more.length ≤ spiFrames xs s.dfs) :
    s.stores xs (got ++ more) =
      (((spiRx xs s.dfs (got.length + more.length)).drop got.length).zip more).foldl
        (rxStore (dwSpiNbytes s.dfs)) (s.stores xs got) := by
  have hfirst := spiRx_take (Nat.le_add_right got.length more.length) h
  have hlen := length_spiRx (Nat.le_of_add_right_le h)
  rw [SpiDev.stores, List.length_append,
    ← List.take_append_drop got.length (spiRx xs s.dfs (got.length + more.length)), ← hfirst,
    List.zip_append hlen, List.foldl_append, List.drop_left' hlen, SpiDev.stores]

/-- **The reader** takes the frames that come next, as many as there are. -/
theorem dwSpiReader_at (hgot : got.length ≤ spiFrames xs s.dfs) (frames : List Word) :
    dwSpiReader (s.at xs n got) frames =
      (min (spiFrames xs s.dfs - got.length) frames.length,
        s.at xs n (got ++ frames.take (spiFrames xs s.dfs - got.length))) := by
  have hmax : dwSpiRxMax (s.at xs n got).xfer frames.length =
      min (spiFrames xs s.dfs - got.length) frames.length := by
    show min ((_ - dwSpiNbytes s.dfs * got.length) / dwSpiNbytes s.dfs) frames.length = _
    exact congrArg (min · frames.length) (frames_left s.dfs got.length)
  have htaken : (frames.take (spiFrames xs s.dfs - got.length)).length =
      min (spiFrames xs s.dfs - got.length) frames.length := List.length_take
  have hframes : frames.take (spiFrames xs s.dfs - got.length) =
      frames.take (min (spiFrames xs s.dfs - got.length) frames.length) := by
    rw [← List.take_take, List.take_length]
  rw [dwSpiReader, hmax, hframes]
  rw [hframes] at htaken
  generalize hk : min (spiFrames xs s.dfs - got.length) frames.length = k at *
  have hle : got.length + k ≤ spiFrames xs s.dfs := by omega
  have hwalk := walk_sides_next hle (·.rxSide) fun _ => ⟨rfl, rfl⟩
  have hlen : ((spiRx xs s.dfs (got.length + k)).drop got.length).length = k := by
    rw [List.length_drop, length_spiRx hle]
    omega
  have hmem : s.stores xs (got ++ frames.take k) = _ :=
    SpiDev.stores_append got (frames.take k) (by omega)
  rw [htaken] at hmem
  -- the frames that are not taken do not reach the buffers
  have hzip : ((spiRx xs s.dfs (got.length + k)).drop got.length).zip (frames.take k) =
      ((spiRx xs s.dfs (got.length + k)).drop got.length).zip frames := by
    have hmin :
        min ((spiRx xs s.dfs (got.length + k)).drop got.length).length frames.length = k := by
      omega
    conv_rhs => rw [List.zip_eq_zip_take_min, hmin]
    rw [List.take_of_length_le (Nat.le_of_eq hlen)]
  rw [hzip] at hmem
  rw [spiRx] at hlen
  simp only [SpiDev.at, dwSpiInitTransfer, hwalk, hlen, u32_mul_add hle, List.length_append, htaken,
    hmem]
  rfl

end Embarc
