/-
What a transfer list carries.

A list is carried out when its frames go to the data register one after the other and the frames
received into its buffers, however the FIFOs cut the calls of the writer and the reader.  It
holds when the turns of the loop are the places of the list, as far as frames are counted; and
the number of frames is counted beforehand, from the sum of the lengths as it is stored in a
word.
-/
import Embarc.Proofs.SpiTurns

namespace Embarc

/-! ### What the list asks for -/

def SpiDev.listFrames (s : SpiDev) (xs : List DevSpiTransfer) : List Word :=
  (spiPlaces (dwSpiNbytes s.dfs) (xs.map (·.txSide))).map
    (txFrame (dwSpiNbytes s.dfs) s.ram s.dummy)

def SpiDev.listStores (s : SpiDev) (xs : List DevSpiTransfer) (got : List Word) : Word → Byte :=
  ((spiPlaces (dwSpiNbytes s.dfs) (xs.map (·.rxSide))).zip got).foldl
    (rxStore (dwSpiNbytes s.dfs)) s.mem

/-! ### Any pacing of the hardware -/

/-- A call of the writer or the reader, with what the hardware shows it. -/
inductive SpiPace where
  | write (room : Nat)
  | read (frames : List Word)

def SpiPace.room : SpiPace → Nat
  | .write room => room
  | .read _ => 0

def SpiPace.avail : SpiPace → Nat
  | .write _ => 0
  | .read frames => frames.length

/-- The device, all that was pushed to the data register and all that was read from it. -/
structure SpiRun where
  dev : SpiDev
  pushed : List Word
  got : List Word

def spiPace (r : SpiRun) : SpiPace → SpiRun
  | .write room =>
    let (frames, dev) := dwSpiWriter r.dev room
    { r with dev := dev, pushed := r.pushed ++ frames }
  | .read frames =>
    let (count, dev) := dwSpiReader r.dev frames
    { r with dev := dev, got := r.got ++ frames.take count }

/-- The list is set up and the writer and the reader are called in any order. -/
def spiRun (s : SpiDev) (xs : List DevSpiTransfer) (paces : List SpiPace) : SpiRun :=
  paces.foldl spiPace
    { dev := { s with xfer := dwSpiInitTransfer xs s.dfs }, pushed := [], got := [] }

/-- What was pushed and stored so far is what the list asks for, and with room and frames enough
it is all of it. -/
structure SpiCarried (s : SpiDev) (xs : List DevSpiTransfer) (paces : List SpiPace) : Prop where
  pushed : (spiRun s xs paces).pushed <+: s.listFrames xs
  stored : (spiRun s xs paces).dev.mem = s.listStores xs (spiRun s xs paces).got
  pushed_all : (s.listFrames xs).length ≤ (paces.map (·.room)).sum →
    (spiRun s xs paces).pushed = s.listFrames xs
  read_all : (s.listFrames xs).length ≤ (paces.map (·.avail)).sum →
    (spiRun s xs paces).got.length = (s.listFrames xs).length

/-- Only dummies are pushed for the transfer, and nothing is stored. -/
def DevSpiTransfer.Idle (x : DevSpiTransfer) : Prop :=
  x.txTotlen ≤ x.txOfs.toNat ∧ x.rxTotlen ≤ x.rxOfs.toNat

instance (x : DevSpiTransfer) : Decidable x.Idle := inferInstanceAs (Decidable (_ ∧ _))

/-- The lists that are carried out. -/
structure SpiListOk (xs : List DevSpiTransfer) (dfs : Nat) : Prop where
  whole : ∀ x ∈ xs, dwSpiNbytes dfs ∣ x.totLen
  fits : (xs.map (·.totLen)).sum < 2 ^ 32
  behind : xs.tail.Pairwise fun x y => x.totLen = 0 → y.Idle

variable {n nb : Nat} {s : SpiDev} {sides : List SpiSide}

section
variable (s) (xs : List DevSpiTransfer) (paces : List SpiPace)

theorem foldl_spiPace {got : List Word} (hn : n ≤ spiFrames xs s.dfs)
    (hgot : got.length ≤ spiFrames xs s.dfs) :
    ∃ n' got', paces.foldl spiPace { dev := s.at xs n got, pushed := s.sends xs n, got := got } =
        { dev := s.at xs n' got', pushed := s.sends xs n', got := got' } ∧
      n' = min (spiFrames xs s.dfs) (n + (paces.map (·.room)).sum) ∧
      got'.length = min (spiFrames xs s.dfs) (got.length + (paces.map (·.avail)).sum) := by
  induction paces generalizing n got with
  | nil => exact ⟨n, got, rfl, by simpa using hn, by simpa using hgot⟩
  | cons p paces ih =>
    cases p with
    | write room =>
      have hle : n + min (spiFrames xs s.dfs - n) room ≤ spiFrames xs s.dfs := by omega
      obtain ⟨n', got', hrun, hn', hgot'⟩ := ih hle hgot
      refine ⟨n', got', ?_, ?_, ?_⟩
      · simp only [List.foldl_cons, spiPace, dwSpiWriter_at hn, SpiDev.sends_append hle, hrun]
      · have hroom : (SpiPace.write room).room = room := rfl
        rw [List.map_cons, List.sum_cons, hroom]
        omega
      · simpa [SpiPace.avail] using hgot'
    | read frames =>
      have hle : (got ++ frames.take (spiFrames xs s.dfs - got.length)).length ≤
          spiFrames xs s.dfs := by
        rw [List.length_append, List.length_take]
        omega
      have htake : frames.take (min (spiFrames xs s.dfs - got.length) frames.length) =
          frames.take (spiFrames xs s.dfs - got.length) := by
        rw [← List.take_take, List.take_length]
      obtain ⟨n', got', hrun, hn', hgot'⟩ := ih hn hle
      refine ⟨n', got', ?_, ?_, ?_⟩
      · simp only [List.foldl_cons, spiPace, dwSpiReader_at hgot, htake, hrun]
      · simpa [SpiPace.room] using hn'
      · have havail : (SpiPace.read frames).avail = frames.length := rfl
        rw [List.length_append, List.length_take] at hgot'
        rw [List.map_cons, List.sum_cons, havail]
        omega

theorem spiRun_eq :
    ∃ n got, spiRun s xs paces = { dev := s.at xs n got, pushed := s.sends xs n, got := got } ∧
      n = min (spiFrames xs s.dfs) (paces.map (·.room)).sum ∧
      got.length = min (spiFrames xs s.dfs) (paces.map (·.avail)).sum := by
  have hnone : ([] : List Word).length ≤ spiFrames xs s.dfs := Nat.zero_le _
  obtain ⟨n, got, hrun, hn, hgot⟩ := foldl_spiPace s xs paces (Nat.zero_le _) hnone
  refine ⟨n, got, ?_, by simpa using hn, by simpa using hgot⟩
  rw [SpiDev.at_zero] at hrun
  exact hrun

end

theorem spiRun_read {xs : List DevSpiTransfer} {frames : List Word}
    (h : frames.length ≤ spiFrames xs s.dfs) :
    spiRun s xs [.read frames] = { dev := s.at xs 0 frames, pushed := [], got := frames } := by
  have hnone : ([] : List Word).length ≤ spiFrames xs s.dfs := Nat.zero_le _
  have hreader := dwSpiReader_at (n := 0) hnone frames
  rw [SpiDev.at_zero, List.length_nil, Nat.sub_zero, Nat.min_eq_right h, List.nil_append,
    List.take_of_length_le h] at hreader
  simp only [spiRun, List.foldl_cons, List.foldl_nil, spiPace, hreader, List.nil_append,
    List.take_length]

/-! ### Lists that pass the alignment check -/

theorem DevSpiTransfer.totLen_lt (x : DevSpiTransfer) : x.totLen < 2 ^ 32 := by
  have htx : x.txTotlen < 2 ^ 32 := Nat.mod_lt _ (by decide)
  have hrx : x.rxTotlen < 2 ^ 32 := Nat.mod_lt _ (by decide)
  unfold DevSpiTransfer.totLen
  split <;> assumption

theorem DevSpiTransfer.totlen_le (x : DevSpiTransfer) :
    x.txTotlen ≤ x.totLen ∧ x.rxTotlen ≤ x.totLen := by
  unfold DevSpiTransfer.totLen
  split <;> omega

theorem window_aligned {len ofs : Word} (hnb : nb ∣ 2 ^ 32)
    (h : len.toNat = 0 ∨ nb ∣ len.toNat ∧ nb ∣ ofs.toNat)
    (hwin : ofs.toNat < u32 (len.toNat + ofs.toNat)) :
    nb ∣ ofs.toNat ∧ nb ∣ u32 (len.toNat + ofs.toNat) := by
  rcases h with hzero | ⟨hlen, hofs⟩
  · rw [hzero, Nat.zero_add, u32_of_lt ofs.isLt] at hwin
    exact absurd hwin (Nat.lt_irrefl _)
  · exact ⟨hofs, (Nat.dvd_mod_iff hnb).mpr (Nat.dvd_add hlen hofs)⟩

section Lists

variable {xs : List DevSpiTransfer} {dfs : Nat}

section
variable (h : dwSpiChkXferAligned xs dfs = 0) (hwhole : ∀ x ∈ xs, dwSpiNbytes dfs ∣ x.totLen)
include h

theorem aligned_of_chk {x : DevSpiTransfer} (hx : x ∈ xs) :
    (x.txLen.toNat = 0 ∨ dwSpiNbytes dfs ∣ x.txLen.toNat ∧ dwSpiNbytes dfs ∣ x.txOfs.toNat) ∧
      (x.rxLen.toNat = 0 ∨ dwSpiNbytes dfs ∣ x.rxLen.toNat ∧ dwSpiNbytes dfs ∣ x.rxOfs.toNat) := by
  unfold dwSpiNbytes
  by_cases hdfs : dfs > 8
  · have hall : xs.all (·.aligned 2) = true := by
      by_contra hc
      simp [dwSpiChkXferAligned, hdfs, hc] at h
    have hal := List.all_eq_true.mp hall x hx
    simp only [DevSpiTransfer.aligned, Bool.and_eq_true, Bool.or_eq_true, beq_iff_eq] at hal
    rw [if_pos hdfs]
    omega
  · rw [if_neg hdfs]
    simp

include hwhole

theorem txSide_fits : ∀ x ∈ xs.map (·.txSide), x.Fits (dwSpiNbytes dfs) := by
  intro y hy
  obtain ⟨x, hx, rfl⟩ := List.mem_map.mp hy
  exact ⟨rfl, window_aligned (dwSpiNbytes_dvd dfs) (aligned_of_chk h hx).1, x.totlen_le.1,
    hwhole x hx, x.totLen_lt⟩

theorem rxSide_fits : ∀ x ∈ xs.map (·.rxSide), x.Fits (dwSpiNbytes dfs) := by
  intro y hy
  obtain ⟨x, hx, rfl⟩ := List.mem_map.mp hy
  exact ⟨rfl, window_aligned (dwSpiNbytes_dvd dfs) (aligned_of_chk h hx).2, x.totlen_le.2,
    hwhole x hx, x.totLen_lt⟩

end

theorem walk_eq_take_turns (hnb : 0 < nb) (hfits : ∀ x ∈ sides, x.Fits nb)
    (hn : n ≤ (spiPlaces nb sides).length) :
    (spiWalk nb n sides).1 = (spiTurns nb sides).take n := by
  have hwalk := walk_turns hfits hnb
  rw [spiWalk_take (Nat.le_trans hn (length_places_le_spiTurns hnb sides))
    (congrArg List.length hwalk), hwalk]

/-- Where nothing is asked for behind an empty side, they are its places. -/
theorem walk_eq_take_places (hnb : 0 < nb) (hfits : ∀ x ∈ sides, x.Fits nb)
    (htail : sides.tail.Pairwise fun x y => x.tot = 0 → y.totlen ≤ y.ofs)
    (hn : n ≤ (spiPlaces nb sides).length) :
    (spiWalk nb n sides).1 = (spiPlaces nb sides).take n := by
  rw [walk_eq_take_turns hnb hfits hn, ← take_spiTurns hnb htail, List.take_take,
    Nat.min_eq_left hn]

theorem places_length_rx (nb : Nat) (xs : List DevSpiTransfer) :
    (spiPlaces nb (xs.map (·.rxSide))).length = (spiPlaces nb (xs.map (·.txSide))).length := by
  induction xs with
  | nil => rfl
  | cons x xs ih =>
    simp only [spiPlaces, List.map_cons, List.flatMap_cons, List.length_append] at ih ⊢
    rw [ih]
    simp [SpiSide.places, DevSpiTransfer.rxSide, DevSpiTransfer.txSide]

section
variable (haligned : dwSpiChkXferAligned xs dfs = 0) (h : SpiListOk xs dfs)
include haligned h

/-- The list has as many places as frames are counted. -/
theorem places_eq_frames :
    (spiPlaces (dwSpiNbytes dfs) (xs.map (·.txSide))).length = spiFrames xs dfs := by
  have hplaces := places_eq_of_whole (dwSpiNbytes_pos dfs) (txSide_fits haligned h.whole)
  have hsum : ((xs.map (·.txSide)).map (·.tot)).sum = (xs.map (·.totLen)).sum := by
    rw [List.map_map]
    rfl
  have hlen : (dwSpiInitTransfer xs dfs).xferLen = (xs.map (·.totLen)).sum := u32_of_lt h.fits
  rw [spiFrames, hlen, ← hsum, ← hplaces, Nat.mul_div_cancel_left _ (dwSpiNbytes_pos dfs)]

/-- The frames of the turns are the places, for a list that is carried out. -/
theorem spiTx_eq_places (hn : n ≤ spiFrames xs dfs) :
    spiTx xs dfs n = (spiPlaces (dwSpiNbytes dfs) (xs.map (·.txSide))).take n := by
  apply walk_eq_take_places (dwSpiNbytes_pos dfs) (txSide_fits haligned h.whole)
  · rw [← List.map_tail, List.pairwise_map]
    exact h.behind.imp fun hxy hzero => (hxy hzero).1
  · rw [places_eq_frames haligned h]
    exact hn

theorem spiRx_eq_places (hn : n ≤ spiFrames xs dfs) :
    spiRx xs dfs n = (spiPlaces (dwSpiNbytes dfs) (xs.map (·.rxSide))).take n := by
  apply walk_eq_take_places (dwSpiNbytes_pos dfs) (rxSide_fits haligned h.whole)
  · rw [← List.map_tail, List.pairwise_map]
    exact h.behind.imp fun hxy hzero => (hxy hzero).2
  · rw [places_length_rx, places_eq_frames haligned h]
    exact hn

end

theorem SpiDev.length_listFrames (s : SpiDev) (xs : List DevSpiTransfer) :
    (s.listFrames xs).length = (spiPlaces (dwSpiNbytes s.dfs) (xs.map (·.txSide))).length := by
  rw [SpiDev.listFrames, List.length_map]

theorem carried_of_listOk (haligned : dwSpiChkXferAligned xs s.dfs = 0) (h : SpiListOk xs s.dfs)
    (paces : List SpiPace) : SpiCarried s xs paces := by
  obtain ⟨n, got, hrun, hn, hgot⟩ := spiRun_eq s xs paces
  have hlen : (s.listFrames xs).length = spiFrames xs s.dfs := by
    rw [s.length_listFrames, places_eq_frames haligned h]
  have hsends : s.sends xs n = (s.listFrames xs).take n := by
    rw [SpiDev.sends, spiTx_eq_places haligned h (by omega), List.map_take]
    rfl
  refine ⟨?_, ?_, ?_, ?_⟩
  · rw [hrun, hsends]
    exact List.take_prefix _ _
  · have hle : got.length ≤ (spiPlaces (dwSpiNbytes s.dfs) (xs.map (·.rxSide))).length := by
      rw [places_length_rx, places_eq_frames haligned h]
      omega
    have hzip : (spiPlaces (dwSpiNbytes s.dfs) (xs.map (·.rxSide))).zip got = _ :=
      List.zip_eq_zip_take_min
    rw [Nat.min_eq_right hle, List.take_length] at hzip
    rw [hrun, SpiDev.listStores, hzip, ← spiRx_eq_places haligned h (by omega)]
    rfl
  · intro hroom
    rw [hrun, hsends]
    exact List.take_of_length_le (by omega)
  · intro havail
    rw [hrun, hgot]
    omega

/-! ### Lists that are not carried out

A device with ones in its memory and zero for the dummy shows in a frame whether it has an
address; one with zeros in its receive buffers shows it for the frame that is not zero. -/

def spiProbe (dfs : Nat) : SpiDev where
  opnCnt := 1
  status := devEnabled
  dfs := dfs
  dummy := 0
  xfer := .cleared
  imr := 0
  gint := false
  ram := fun _ => 1
  mem := fun _ => 0
  calls := []

theorem txFrame_probe (nb : Nat) (a : Option Word) :
    (txFrame nb (fun _ => 1) 0 a != 0) = a.isSome := by
  cases a with
  | none => rfl
  | some a =>
    simp only [txFrame]
    split <;> rfl

theorem rxStore_zero (nb : Nat) (a : Option Word) :
    rxStore nb (fun _ => 0) (a, 0) = fun _ => 0 := by
  cases a with
  | none => rfl
  | some a =>
    simp only [rxStore]
    split <;> simp

theorem foldl_rxStore_probe (nb : Nat) {addrs : List (Option Word)} {k : Nat}
    (hk : k < addrs.length) :
    (addrs.zip (List.replicate k 0 ++ [1])).foldl (rxStore nb) (fun _ => 0) =
      rxStore nb (fun _ => 0) (addrs[k], 1) := by
  induction k generalizing addrs with
  | zero =>
    cases addrs with
    | nil => exact absurd hk (Nat.not_lt_zero _)
    | cons a addrs => simp
  | succ k ih =>
    cases addrs with
    | nil => exact absurd hk (Nat.not_lt_zero _)
    | cons a addrs =>
      rw [List.replicate_succ, List.cons_append, List.zip_cons_cons, List.foldl_cons,
        rxStore_zero, ih (by simpa using hk)]
      rfl

theorem rxStore_probe {a b : Option Word}
    (h : rxStore nb (fun _ => 0) (a, 1) = rxStore nb (fun _ => 0) (b, 1)) :
    a.isSome = b.isSome := by
  have hshows : ∀ a : Word, rxStore nb (fun _ => 0) (some a, 1) a = 1 := by
    intro a
    simp only [rxStore]
    split <;> simp
  cases a with
  | none =>
    cases b with
    | none => rfl
    | some b => exact absurd ((congrFun h b).trans (hshows b)) (show (0 : Byte) ≠ 1 by decide)
  | some a =>
    cases b with
    | none => exact absurd ((congrFun h a).symm.trans (hshows a)) (show (0 : Byte) ≠ 1 by decide)
    | some b => rfl

/-- A list that is carried out is counted in full, and all of it is sent. -/
theorem sends_eq_listFrames (h : ∀ paces, SpiCarried s xs paces) :
    (s.listFrames xs).length ≤ spiFrames xs s.dfs ∧
      s.sends xs (s.listFrames xs).length = s.listFrames xs := by
  obtain ⟨n, got, hrun, hn, -⟩ := spiRun_eq s xs [.write (s.listFrames xs).length]
  have hframes : n ≤ spiFrames xs s.dfs := by
    rw [hn]
    exact Nat.min_le_left _ _
  have hall := (h [.write (s.listFrames xs).length]).pushed_all (by simp [SpiPace.room])
  rw [hrun] at hall
  have hcount : n = (s.listFrames xs).length := by
    rw [← SpiDev.length_sends hframes]
    exact congrArg List.length hall
  rw [← hcount]
  exact ⟨hframes, hall⟩

theorem places_le_frames
    (h : ∀ s : SpiDev, s.dfs = dfs → ∀ paces, SpiCarried s xs paces) :
    (spiPlaces (dwSpiNbytes dfs) (xs.map (·.txSide))).length ≤ spiFrames xs dfs := by
  have hle := (sends_eq_listFrames (h (spiProbe dfs) rfl)).1
  rw [SpiDev.length_listFrames] at hle
  exact hle

/-- It is counted in full only if it consists of whole frames and its length fits a word. -/
theorem whole_of_places_le_frames
    (h : (spiPlaces (dwSpiNbytes dfs) (xs.map (·.txSide))).length ≤ spiFrames xs dfs) :
    (∀ x ∈ xs, dwSpiNbytes dfs ∣ x.totLen) ∧ (xs.map (·.totLen)).sum < 2 ^ 32 := by
  have hnb := dwSpiNbytes_pos dfs
  have hbytes := mul_le_xferLen dfs h
  have hword := xferLen_lt xs dfs
  have hsum : ((xs.map (·.txSide)).map (·.tot)).sum = (xs.map (·.totLen)).sum := by
    rw [List.map_map]
    rfl
  have hmod : (dwSpiInitTransfer xs dfs).xferLen ≤ (xs.map (·.totLen)).sum := Nat.mod_le _ _
  have hplaces := sum_tot_le_places hnb (xs.map (·.txSide))
  rw [hsum] at hplaces
  have hwhole : ∀ y ∈ xs.map (·.txSide), dwSpiNbytes dfs ∣ y.tot := by
    apply whole_of_places_le hnb
    rw [hsum]
    exact Nat.le_trans hbytes hmod
  exact ⟨fun x hx => hwhole x.txSide (List.mem_map.mpr ⟨x, hx, rfl⟩), by omega⟩

theorem tx_shown (h : ∀ s : SpiDev, s.dfs = dfs → ∀ paces, SpiCarried s xs paces) :
    (spiTx xs dfs (spiPlaces (dwSpiNbytes dfs) (xs.map (·.txSide))).length).map Option.isSome =
      (spiPlaces (dwSpiNbytes dfs) (xs.map (·.txSide))).map Option.isSome := by
  have hall := (sends_eq_listFrames (h (spiProbe dfs) rfl)).2
  rw [SpiDev.length_listFrames] at hall
  have hshow := congrArg (List.map fun w => w != 0) hall
  simpa only [SpiDev.sends, SpiDev.listFrames, List.map_map, Function.comp_def, spiProbe,
    txFrame_probe] using hshow

theorem rx_shown (h : ∀ s : SpiDev, s.dfs = dfs → ∀ paces, SpiCarried s xs paces) :
    (spiRx xs dfs (spiPlaces (dwSpiNbytes dfs) (xs.map (·.rxSide))).length).map Option.isSome =
      (spiPlaces (dwSpiNbytes dfs) (xs.map (·.rxSide))).map Option.isSome := by
  have hle := places_le_frames h
  rw [← places_length_rx] at hle
  have hcount := length_spiRx hle
  apply List.ext_getElem
  · rw [List.length_map, List.length_map, hcount]
  · intro k hk hk'
    rw [List.length_map] at hk hk'
    rw [List.getElem_map, List.getElem_map]
    have hlen : (List.replicate k 0 ++ [1] : List Word).length = k + 1 := by simp
    have hlast : k + 1 ≤ spiFrames xs dfs := Nat.le_trans hk' hle
    have hstored := (h (spiProbe dfs) rfl [.read (List.replicate k 0 ++ [1])]).stored
    rw [spiRun_read (by rw [hlen]; exact hlast)] at hstored
    have hrx : k < (spiRx xs dfs (k + 1)).length := by
      rw [length_spiRx hlast]
      exact Nat.lt_succ_self k
    have hbuffers : ((spiRx xs dfs (k + 1)).zip (List.replicate k 0 ++ [1])).foldl
        (rxStore (dwSpiNbytes dfs)) (fun _ => 0) =
          ((spiPlaces (dwSpiNbytes dfs) (xs.map (·.rxSide))).zip (List.replicate k 0 ++ [1])).foldl
            (rxStore (dwSpiNbytes dfs)) (fun _ => 0) := by
      rw [← hlen]
      exact hstored
    rw [foldl_rxStore_probe _ hrx, foldl_rxStore_probe _ hk'] at hbuffers
    rw [← rxStore_probe hbuffers]
    simp [spiRx_take hk' hle]

/-- **A transfer list is carried out at any pacing of the hardware**, every frame in its place,
exactly when it consists of whole frames, its length fits a word, and nothing is to be sent or
stored behind a transfer of length zero other than the first. -/
theorem spi_list_carried_iff (xs : List DevSpiTransfer) (dfs : Nat)
    (haligned : dwSpiChkXferAligned xs dfs = 0) :
    (∀ s : SpiDev, s.dfs = dfs → ∀ paces, SpiCarried s xs paces) ↔ SpiListOk xs dfs := by
  have hnb := dwSpiNbytes_pos dfs
  constructor
  · intro h
    have hle := places_le_frames h
    obtain ⟨hwhole, hfits⟩ := whole_of_places_le_frames hle
    have htx := tx_shown h
    have hrx := rx_shown h
    rw [spiTx, walk_eq_take_turns hnb (txSide_fits haligned hwhole) (Nat.le_refl _)] at htx
    rw [spiRx, walk_eq_take_turns hnb (rxSide_fits haligned hwhole) (Nat.le_refl _)] at hrx
    have htxTail := tail_of_take_spiTurns hnb (txSide_fits haligned hwhole) htx
    have hrxTail := tail_of_take_spiTurns hnb (rxSide_fits haligned hwhole) hrx
    rw [← List.map_tail, List.pairwise_map] at htxTail hrxTail
    refine ⟨hwhole, hfits, (htxTail.and hrxTail).imp ?_⟩
    exact fun hxy hzero => ⟨hxy.1 hzero, hxy.2 hzero⟩
  · rintro h s rfl paces
    exact carried_of_listOk haligned h paces

/-- A byte, a transfer of length zero, a byte, and one byte received. -/
def spiGap : List DevSpiTransfer := [
  { txBuf := 0x100, txOfs := 0, txLen := 1, rxBuf := 0, rxOfs := 0, rxLen := 0 },
  { txBuf := 0, txOfs := 0, txLen := 0, rxBuf := 0, rxOfs := 0, rxLen := 0 },
  { txBuf := 0x200, txOfs := 0, txLen := 1, rxBuf := 0x300, rxOfs := 0, rxLen := 1 }]

/-- A command byte, then two bytes in each direction with the first byte received dropped. -/
def spiCommand : List DevSpiTransfer := [
  { txBuf := 0x100, txOfs := 0, txLen := 1, rxBuf := 0, rxOfs := 0, rxLen := 0 },
  { txBuf := 0x200, txOfs := 0, txLen := 2, rxBuf := 0x300, rxOfs := 1, rxLen := 1 }]

theorem spi_command_carried :
    dwSpiChkXferAligned spiCommand 8 = 0 ∧
      ∀ s : SpiDev, s.dfs = 8 → ∀ paces, SpiCarried s spiCommand paces :=
  ⟨by decide, (spi_list_carried_iff spiCommand 8 (by decide)).mpr
    ⟨by decide, by decide, by decide⟩⟩

/-- The transfer of length zero has a dummy pushed, and the last byte is never sent. -/
theorem spi_gap_not_carried :
    dwSpiChkXferAligned spiGap 8 = 0 ∧
      (spiRun (spiProbe 8) spiGap [.write 8]).pushed = [1, 0] ∧
      (spiProbe 8).listFrames spiGap = [1, 1] ∧
      ¬ SpiCarried (spiProbe 8) spiGap [.write 8] := by
  refine ⟨by decide, by decide, by decide, fun h => ?_⟩
  exact absurd (h.pushed_all (by decide)) (by decide)

end Lists

end Embarc
