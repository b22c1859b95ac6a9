/-
What a flash object accesses.

An access is to end at the end of the device.  The code clamps with the length in the place of
the address, `len = begin_addr + total_size - len`, and compares an end that may have wrapped.
So an access that ends inside the device is right, and one that does not is right by accident
only: where the length happens to be the address, or, beyond the device, its end.

To write or to erase, the drivers go over whole sectors.  They read the first one even if there is
nothing to do, and so reach beyond the device where the address does.
-/
import Mathlib.Data.Set.Image
import Embarc.Iotdk.FlashObj
import Embarc.Proofs.FlashUpdate

namespace Embarc

def FlashDev.endAddr (dev : FlashDev) : Nat :=
  (dev.info 0).beginAddr.toNat + (dev.info 0).totalSize.toNat

/-- What a driver call is for, in the address space of the object: the driver counts from the
beginning of the device. -/
def FlashDev.range (dev : FlashDev) (call : FlashCall) : Set Nat :=
  { x | (dev.info 0).beginAddr.toNat + call.addr.toNat ≤ x ∧
    x < (dev.info 0).beginAddr.toNat + call.addr.toNat + call.len.toNat }

def FlashDev.intended (dev : FlashDev) (addr len : Nat) : Set Nat :=
  { x | addr ≤ x ∧ x < min (addr + len) dev.endAddr }

def FlashDev.locations (dev : FlashDev) : Set Nat :=
  { x | (dev.info 0).beginAddr.toNat ≤ x ∧ x < dev.endAddr }

theorem range_eq_iff {a l b : Nat} :
    ({ x | a ≤ x ∧ x < a + l } : Set Nat) = { x | a ≤ x ∧ x < b } ↔ l = b - a := by
  constructor
  · intro h
    have hmem : ∀ x, (a ≤ x ∧ x < a + l) ↔ (a ≤ x ∧ x < b) := fun x => Set.ext_iff.mp h x
    have hend := hmem (a + l)
    have hpred := hmem (a + l - 1)
    omega
  · rintro rfl
    ext x
    show (a ≤ x ∧ x < a + (b - a)) ↔ (a ≤ x ∧ x < b)
    omega

variable {addr : Word}

theorem flashAccess_ok (fn : FlashFn) (base : Word) {info : DevFlashInfo} (hopen : info.openCnt > 0)
    (haddr : info.beginAddr ≤ addr) (len : Word) :
    flashAccess fn base info addr len = .ok ⟨fn, addr - base, flashLen info addr len⟩ := by
  rw [flashAccess, if_neg (not_not.mpr hopen), if_neg (not_not.mpr haddr)]

theorem FlashDev.access_eq (dev : FlashDev) (fn : FlashFn) {openCnt : Nat} (hopen : 0 < openCnt)
    (haddr : (dev.info openCnt).beginAddr ≤ addr) (len : Word) :
    dev.access fn (dev.info openCnt) addr len =
      .ok ⟨fn, addr - (dev.info 0).beginAddr, flashLen (dev.info 0) addr len⟩ := by
  cases dev with
  | eflash =>
    have haccess : FlashDev.eflash.access fn = flashAccess fn 0 := by cases fn <;> rfl
    rw [haccess]
    exact flashAccess_ok fn 0 hopen haddr len
  | bootspi =>
    have haccess : ∀ info, FlashDev.bootspi.access fn info =
        flashAccess fn info.beginAddr info := by
      intro info
      cases fn <;> rfl
    rw [haccess]
    exact flashAccess_ok fn _ hopen haddr len

/-- The accesses whose clamped length comes out right. -/
def FlashDev.WellClamped (dev : FlashDev) (addr len : Word) : Prop :=
  addr.toNat + len.toNat ≤ dev.endAddr ∨
    (dev.endAddr < (addr.toNat + len.toNat) % 2 ^ 32 ∧
      ((addr.toNat ≤ dev.endAddr ∧ len = addr) ∨ (dev.endAddr < addr.toNat ∧ len.toNat = dev.endAddr)))

instance (dev : FlashDev) (addr len : Word) : Decidable (dev.WellClamped addr len) :=
  inferInstanceAs (Decidable (_ ∨ _))

theorem FlashDev.end_word (dev : FlashDev) :
    ((dev.info 0).beginAddr + (dev.info 0).totalSize).toNat = dev.endAddr := by
  cases dev <;> decide

theorem flashLen_eq_iff (dev : FlashDev) (addr len : Word) :
    (flashLen (dev.info 0) addr len).toNat =
        min (addr.toNat + len.toNat) dev.endAddr - addr.toNat ↔
      dev.WellClamped addr len := by
  have hend := dev.end_word
  have hword : len = addr ↔ len.toNat = addr.toNat := BitVec.toNat_inj.symm
  have hcond : addr + len > (dev.info 0).beginAddr + (dev.info 0).totalSize ↔
      dev.endAddr < (addr.toNat + len.toNat) % 2 ^ 32 := by
    rw [gt_iff_lt, BitVec.lt_def, BitVec.toNat_add addr len, hend]
  unfold flashLen FlashDev.WellClamped
  rw [hword]
  split_ifs with hclamp
  · rw [hcond] at hclamp
    rw [BitVec.toNat_sub, hend]
    omega
  · rw [hcond] at hclamp
    omega

/-! ### What the drivers reach -/

def FlashDev.ops : FlashDev → FlashOps
  | .eflash => eflashOps
  | .bootspi => bootspiOps

def FlashDev.size : FlashDev → Nat
  | .eflash => smicEflashSize
  | .bootspi => smicBootspiSize

/-- The place on the chip that an address is for. -/
def FlashDev.chip : FlashDev → Nat → Nat
  | .eflash => id
  | .bootspi => spiAddr

theorem FlashDev.sound (dev : FlashDev) : dev.ops.Sound dev.size := by
  cases dev with
  | eflash => exact eflashOps_sound
  | bootspi => exact bootspiOps_sound

theorem FlashDev.end_eq (dev : FlashDev) :
    dev.endAddr = (dev.info 0).beginAddr.toNat + dev.size := by
  cases dev <;> decide

/-- What a round of the loop over the sectors reaches: the sector it reads, and erases and programs if
need be, and the part that it programs directly. -/
def SecLoop.places (ops : FlashOps) (s : SecLoop) : Set Nat :=
  { x | s.secPos * ops.secSize ≤ x ∧ x < (s.secPos + 1) * ops.secSize } ∪
    { x | s.addr ≤ x ∧ x < s.addr + s.secRemain }

/-- What up to `fuel` rounds reach. -/
def secPlaces (ops : FlashOps) (round : SecLoop → Unit → Bool × SecLoop) : Nat → SecLoop → Set Nat
  | 0, _ => ∅
  | fuel + 1, s =>
    s.places ops ∪ if (round s ()).1 then secPlaces ops round fuel (round s ()).2 else ∅

/-- What a call has to work with: the sector buffer, what the chip holds, where the data is, and what
is put into a sector. -/
structure FlashWork where
  mBuf : Nat
  mem : Nat → Byte
  val : Nat
  data : SecLoop → List Byte
  direct : SecLoop → Nat → Byte

/-- What a driver call reaches, in the address space of the object. -/
def FlashDev.reached (dev : FlashDev) (call : FlashCall) (w : FlashWork) : Set Nat :=
  Set.image (fun x => (dev.info 0).beginAddr.toNat + dev.chip x) <|
    match call.fn with
    | .read | .writeNocheck =>
      { x | call.addr.toNat ≤ x ∧ x < call.addr.toNat + call.len.toNat }
    | .write | .erase =>
      secPlaces dev.ops (secRound dev.ops w.mBuf w.data w.direct) (call.len.toNat + 1)
        (SecLoop.start dev.ops w.mem call.addr.toNat call.len.toNat w.val)

/-- The driver goes over sectors. -/
def FlashFn.Updates (fn : FlashFn) : Prop := fn = .write ∨ fn = .erase

/-- The sector that an update begins with, as far as the driver can count. -/
def FlashDev.firstSector (dev : FlashDev) (addr : Word) : Nat :=
  u16 ((addr - (dev.info 0).beginAddr).toNat / dev.ops.secSize)

/-- The length comes out right, and an update begins on the device. -/
def FlashDev.Confined (dev : FlashDev) (fn : FlashFn) (addr len : Word) : Prop :=
  dev.WellClamped addr len ∧
    (fn.Updates → dev.chip (dev.firstSector addr * dev.ops.secSize) < dev.size)

instance (fn : FlashFn) : Decidable fn.Updates := inferInstanceAs (Decidable (_ ∨ _))

instance (dev : FlashDev) (fn : FlashFn) (addr len : Word) : Decidable (dev.Confined fn addr len) :=
  inferInstanceAs (Decidable (_ ∧ _))

theorem FlashDev.chip_of_lt (dev : FlashDev) {x : Nat} (h : x < dev.size) : dev.chip x = x := by
  cases dev with
  | eflash => rfl
  | bootspi => exact spiAddr_of_lt (Nat.lt_trans h (by decide))

/-- A sector is on the device, or not, as a whole. -/
theorem FlashDev.chip_sector (dev : FlashDev) {k x : Nat} (hlow : k * dev.ops.secSize ≤ x)
    (hhigh : x < (k + 1) * dev.ops.secSize) (h : dev.chip (k * dev.ops.secSize) < dev.size) :
    dev.chip x < dev.size := by
  cases dev with
  | eflash =>
    change k * 512 ≤ x at hlow
    change x < (k + 1) * 512 at hhigh
    change k * 512 < 262144 at h
    change x < 262144
    omega
  | bootspi =>
    change k * 4096 ≤ x at hlow
    change x < (k + 1) * 4096 at hhigh
    change k * 4096 % 16777216 < 2097152 at h
    change x % 16777216 < 2097152
    omega

section Rounds

variable {ops : FlashOps} {size mBuf : Nat}

theorem secRound_stops (h : s.len = s.secRemain) : (secRound ops mBuf data direct s ()).1 = false := by
  simp only [secRound, if_pos h]

variable (ops mBuf data direct) in
theorem secRound_goesOn (h : s.len ≠ s.secRemain) :
    ∃ mem, secRound ops mBuf data direct s () = (true, ({ s with mem } : SecLoop).advance ops) :=
  ⟨_, if_neg h⟩

/-- An update of part of the chip reaches nothing beyond it. -/
theorem secPlaces_subset (hops : ops.Sound size) (h : s.WF ops size) (hremain : 0 < s.secRemain)
    (fuel : Nat) : secPlaces ops (secRound ops mBuf data direct) fuel s ⊆ { x | x < size } := by
  induction fuel generalizing s with
  | zero => exact Set.empty_subset _
  | succ fuel ih =>
    have hsector := h.sector_le hops hremain
    have hfits := h.fits
    have hlen := h.remain
    rw [secPlaces]
    refine Set.union_subset (Set.union_subset ?_ ?_) ?_
    · exact fun x hx => Nat.lt_of_lt_of_le hx.2 hsector
    · intro x hx
      show x < size
      have hx := hx.2
      omega
    · by_cases hlast : s.len = s.secRemain
      · rw [secRound_stops hlast]
        exact Set.empty_subset _
      · obtain ⟨mem, hnext⟩ := secRound_goesOn ops mBuf data direct hlast
        have hwf : ({ s with mem } : SecLoop).WF ops size := { h with }
        obtain ⟨hadv, -, hlen'⟩ := hwf.advance hops hlast
        rw [hnext, if_pos rfl]
        refine ih hadv ?_
        have hoff := hadv.off
        obtain ⟨-, hlt⟩ := h.remain_of_ne hlast
        change _ = s.len - s.secRemain at hlen'
        rw [hadv.remain, hlen']
        omega

end Rounds

/-- With nothing to do, the first sector is all that is reached. -/
theorem secPlaces_empty (ops : FlashOps) (w : FlashWork) (addr : Nat) :
    secPlaces ops (secRound ops w.mBuf w.data w.direct) (0 + 1) (SecLoop.start ops w.mem addr 0 w.val) =
      { x | u16 (addr / ops.secSize) * ops.secSize ≤ x ∧
        x < (u16 (addr / ops.secSize) + 1) * ops.secSize } := by
  have hnone : (SecLoop.start ops w.mem addr 0 w.val).secRemain = 0 := by
    simp only [SecLoop.start, Nat.zero_le, if_true]
    rfl
  have hlast : (SecLoop.start ops w.mem addr 0 w.val).len =
      (SecLoop.start ops w.mem addr 0 w.val).secRemain := hnone.symm
  rw [secPlaces, secRound_stops hlast, if_neg Bool.false_ne_true, Set.union_empty, SecLoop.places,
    hnone]
  refine Set.union_eq_self_of_subset_right fun x hx => ?_
  exact absurd hx.2 (Nat.not_lt.mpr hx.1)

section Reached

variable {dev : FlashDev} {call : FlashCall} {w : FlashWork}

theorem FlashDev.reached_subset_iff {S : Set Nat}
    (hreached : dev.reached call w = Set.image (fun x => (dev.info 0).beginAddr.toNat + dev.chip x) S) :
    dev.reached call w ⊆ dev.locations ↔ ∀ x ∈ S, dev.chip x < dev.size := by
  have hend := dev.end_eq
  rw [hreached, Set.image_subset_iff]
  refine forall₂_congr fun x _ => ?_
  show (dev.info 0).beginAddr.toNat ≤ (dev.info 0).beginAddr.toNat + dev.chip x ∧
    (dev.info 0).beginAddr.toNat + dev.chip x < dev.endAddr ↔ dev.chip x < dev.size
  omega

/-- What is for part of the device reaches nothing beyond it. -/
theorem FlashDev.reached_of_fits (hfits : call.addr.toNat + call.len.toNat ≤ dev.size)
    (hpos : 0 < call.len.toNat) : dev.reached call w ⊆ dev.locations := by
  have hchip {x : Nat} (hx : x < dev.size) : dev.chip x < dev.size := by rwa [dev.chip_of_lt hx]
  have hupdate : ∀ x ∈ secPlaces dev.ops (secRound dev.ops w.mBuf w.data w.direct)
      (call.len.toNat + 1) (SecLoop.start dev.ops w.mem call.addr.toNat call.len.toNat w.val),
      dev.chip x < dev.size := by
    have hwf := SecLoop.start_wf dev.sound w.mem w.val hfits
    have hoff := hwf.off
    refine fun x hx => hchip (secPlaces_subset dev.sound hwf ?_ _ hx)
    rw [hwf.remain]
    exact Nat.lt_min.mpr ⟨by omega, hpos⟩
  cases hfn : call.fn with
  | read | writeNocheck =>
    refine (reached_subset_iff (by rw [reached, hfn])).mpr fun x hx => hchip ?_
    exact Nat.lt_of_lt_of_le hx.2 hfits
  | write | erase => exact (reached_subset_iff (by rw [reached, hfn])).mpr hupdate

/-- The bytes of its range are what a call stores, programs, replaces or sets to ones, and there are no
others. -/
def FlashDev.Exact (dev : FlashDev) (call : FlashCall) : Prop :=
  ∀ (mBuf : Nat) (mem ram : Nat → Byte) (val : Nat),
    let data := Flash.read ram val call.len.toNat
    match call.fn with
    | .read => dev.ops.read mem call.addr.toNat call.len.toNat val =
        Flash.read mem call.addr.toNat call.len.toNat
    | .writeNocheck => dev.ops.writeNocheck mem call.addr.toNat val data =
        Flash.program mem call.addr.toNat data
    | .write => secWrite dev.ops mBuf mem ram call.addr.toNat call.len.toNat val =
        Flash.overwrite mem call.addr.toNat data
    | .erase => secErase dev.ops mBuf mem call.addr.toNat call.len.toNat =
        Flash.overwrite mem call.addr.toNat (List.replicate call.len.toNat 0xFF)

theorem FlashDev.exact_of_fits (hfits : call.addr.toNat + call.len.toNat ≤ dev.size) :
    dev.Exact call := by
  intro mBuf mem ram val
  have hops := dev.sound
  cases call.fn with
  | read => exact hops.read _ _ _ _ hfits
  | writeNocheck => exact hops.writeNocheck _ _ _ _ (by rwa [Flash.length_read])
  | write => exact secWrite_eq hops mBuf mem ram val hfits
  | erase => exact secErase_eq hops mBuf mem hfits

/-- A call for nothing reaches nothing, or the sector it begins with. -/
theorem FlashDev.reached_of_empty (dev : FlashDev) (call : FlashCall) (hnone : call.len.toNat = 0) :
    dev.reached call w ⊆ dev.locations ↔
      (call.fn.Updates →
        dev.chip (u16 (call.addr.toNat / dev.ops.secSize) * dev.ops.secSize) < dev.size) := by
  have hpos := dev.sound.secPos
  have hempty := secPlaces_empty dev.ops w call.addr.toNat
  cases hfn : call.fn with
  | read | writeNocheck =>
    rw [reached_subset_iff (by rw [reached, hfn])]
    refine iff_of_true (fun x hx => ?_) fun hc => absurd hc (by decide)
    have hx : _ ∧ x < _ := hx
    omega
  | write | erase =>
    rw [reached_subset_iff (by rw [reached, hfn]), hnone, hempty]
    refine ⟨fun h _ => h _ ⟨Nat.le_refl _, ?_⟩, fun h x hx => dev.chip_sector hx.1 hx.2 (h (by decide))⟩
    rw [Nat.succ_mul]
    omega

end Reached

/-- **A flash object accesses exactly the intended range, and nothing outside the device, if and
only if the clamping comes out right** and an update does not begin outside, where it reads a sector
even if there is nothing to do.  What there is to do is then done to exactly that range. -/
theorem flash_access_confined_iff (dev : FlashDev) (fn : FlashFn) (openCnt : Nat) (addr len : Word)
    (hopen : 0 < openCnt) (haddr : (dev.info openCnt).beginAddr ≤ addr) :
    ∃ call, dev.access fn (dev.info openCnt) addr len = .ok call ∧ call.fn = fn ∧
      (dev.range call = dev.intended addr.toNat len.toNat ∧
          (∀ w, dev.reached call w ⊆ dev.locations) ↔ dev.Confined fn addr len) ∧
      (dev.Confined fn addr len → 0 < call.len.toNat → dev.Exact call) := by
  refine ⟨_, dev.access_eq fn hopen haddr len, rfl, ?_⟩
  have hle : (dev.info 0).beginAddr ≤ addr := by
    cases dev <;> exact haddr
  have hbegin : (dev.info 0).beginAddr.toNat + (addr - (dev.info 0).beginAddr).toNat =
      addr.toNat := by
    rw [BitVec.toNat_sub_of_le hle, Nat.add_sub_cancel' hle]
  have hrange : dev.range ⟨fn, addr - (dev.info 0).beginAddr, flashLen (dev.info 0) addr len⟩ =
      dev.intended addr.toNat len.toNat ↔ dev.WellClamped addr len := by
    rw [← flashLen_eq_iff, FlashDev.range, FlashDev.intended, hbegin]
    exact range_eq_iff
  have hend := dev.end_eq
  have hfits (hclamped : dev.WellClamped addr len)
      (hpos : 0 < (flashLen (dev.info 0) addr len).toNat) :
      (addr - (dev.info 0).beginAddr).toNat + (flashLen (dev.info 0) addr len).toNat ≤ dev.size := by
    have hlen := (flashLen_eq_iff dev addr len).mpr hclamped
    omega
  rw [hrange]
  refine ⟨and_congr_right fun hclamped => ?_, fun h hpos => FlashDev.exact_of_fits (hfits h.1 hpos)⟩
  by_cases hnone : (flashLen (dev.info 0) addr len).toNat = 0
  · have hempty (w : FlashWork) := dev.reached_of_empty (w := w)
      ⟨fn, addr - (dev.info 0).beginAddr, flashLen (dev.info 0) addr len⟩ hnone
    exact ⟨fun h => (hempty ⟨0, fun _ => 0, 0, fun _ => [], fun _ _ => 0⟩).mp (h _),
      fun h w => (hempty w).mpr h⟩
  · have hpos := Nat.pos_of_ne_zero hnone
    have hin := hfits hclamped hpos
    have hsector : dev.firstSector addr * dev.ops.secSize ≤ (addr - (dev.info 0).beginAddr).toNat :=
      Nat.le_trans (Nat.mul_le_mul_right _ (Nat.mod_le _ _)) (Nat.div_mul_le_self _ _)
    have hfirst : dev.firstSector addr * dev.ops.secSize < dev.size := by omega
    refine iff_of_true (fun w => FlashDev.reached_of_fits hin hpos) fun _ => ?_
    rwa [dev.chip_of_lt hfirst]

theorem flash_access_last_bytes :
    ∃ call, FlashDev.bootspi.access .write (FlashDev.bootspi.info 1) 0x101FFFFE 2 = .ok call ∧
      FlashDev.bootspi.range call = FlashDev.bootspi.intended 0x101FFFFE 2 ∧
      ∀ w, FlashDev.bootspi.reached call w ⊆ FlashDev.bootspi.locations := by
  obtain ⟨call, haccess, -, hiff, -⟩ := flash_access_confined_iff .bootspi .write 1 0x101FFFFE 2
    (by decide) (by decide)
  exact ⟨call, haccess, hiff.mpr (by decide)⟩

/-- Two bytes from the last one of the embedded flash on become all but two of the size of the
device, most of them outside.  And a write of nothing at the end of the boot SPI flash reads beyond
it. -/
theorem flash_access_runs_over :
    (∃ call, FlashDev.eflash.access .erase (FlashDev.eflash.info 1) 0x3FFFF 2 = .ok call ∧
      call = ⟨.erase, 0x3FFFF, 0x3FFFE⟩ ∧
      0x40000 ∈ FlashDev.eflash.range call ∧ 0x40000 ∉ FlashDev.eflash.locations) ∧
    ∃ call, FlashDev.bootspi.access .write (FlashDev.bootspi.info 1) 0x10200000 0 = .ok call ∧
      (∀ w, 0x10200000 ∈ FlashDev.bootspi.reached call w) ∧
      0x10200000 ∉ FlashDev.bootspi.locations := by
  have heflash : ¬ 0x40000 < FlashDev.eflash.endAddr := by decide
  have hbootspi : ¬ 0x10200000 < FlashDev.bootspi.endAddr := by decide
  refine ⟨⟨_, rfl, by decide, ⟨by decide, by decide⟩, fun h => heflash h.2⟩, _, rfl, fun w => ?_,
    fun h => hbootspi h.2⟩
  refine ⟨0x200000, Set.mem_union_left _ (Set.mem_union_left _ ?_), rfl⟩
  show 512 * 4096 ≤ 0x200000 ∧ 0x200000 < (512 + 1) * 4096
  decide

end Embarc
