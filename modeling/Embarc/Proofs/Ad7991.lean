/-
What a reading of the converter leaves in the caller's array.

Four slots are decoded whatever the number of channels; the ones that have not been filled decode
as a zero of channel 0, and come last.  The number of channels is that of the channels that are
converted, or one less: `ad7991_ref_select` does not count channel 3 when it gives the channel
back.
-/
import Mathlib.Data.Fintype.Card
import Embarc.Peripheral.Ad7991

namespace Embarc

variable (a : Ad7991) (code : Fin 4 → BitVec 12)

/-- A channel that is converted; with an external reference the last one is not. -/
def Ad7991.Enabled (c : Fin 4) : Prop :=
  a.regConfig.getLsbD (4 + c) = true ∧ (c.val = 3 → a.regConfig.getLsbD 3 = false)

instance (c : Fin 4) : Decidable (a.Enabled c) := inferInstanceAs (Decidable (_ ∧ _))

/-- A code, with its channel in front. -/
def ad7991Bytes (c : Fin 4) : List Byte :=
  [BitVec.ofNat 8 (c * 16 + (code c).toNat / 256), BitVec.ofNat 8 ((code c).toNat % 256)]

/-- Each channel that is enabled has the value of its code, and the others are left alone. -/
def Ad7991.ReadsRight (order : List (Fin 4)) (val : Nat → Nat) : Prop :=
  ∃ val', ad7991AdcRead a (a.channelNum * 2) (order.flatMap (ad7991Bytes code)) val = (eOk, val') ∧
    ∀ c : Fin 4, val' c = if a.Enabled c then (code c).toNat * a.actualRef else val c

theorem ad7991Decode_code {actualRef : Nat} {data : Nat → Byte} {val : Nat → Nat} {slot : Nat}
    {c : Fin 4} (h : data (2 * slot) = BitVec.ofNat 8 (c * 16 + (code c).toNat / 256))
    (h' : data (2 * slot + 1) = BitVec.ofNat 8 ((code c).toNat % 256)) :
    ad7991Decode actualRef data val slot = Function.update val c ((code c).toNat * actualRef) := by
  have hindex : (data (2 * slot) >>> 4).toNat = c := by
    rw [h, BitVec.toNat_ushiftRight, BitVec.toNat_ofNat, Nat.shiftRight_eq_div_pow]
    omega
  have hhigh : (data (2 * slot) &&& 0x0f).toNat = (code c).toNat / 256 := by
    rw [h, BitVec.toNat_and, BitVec.toNat_ofNat]
    rw [show (0x0f : Byte).toNat = 2 ^ 4 - 1 from rfl, Nat.and_two_pow_sub_one_eq_mod]
    omega
  have hlow : (data (2 * slot + 1)).toNat = (code c).toNat % 256 := by
    rw [h', BitVec.toNat_ofNat]
    omega
  rw [ad7991Decode, hindex, hhigh, hlow, Nat.div_add_mod']

theorem ad7991Decode_zero {actualRef : Nat} {data : Nat → Byte} {val : Nat → Nat} {slot : Nat}
    (h : data (2 * slot) = 0) (h' : data (2 * slot + 1) = 0) :
    ad7991Decode actualRef data val slot = Function.update val 0 0 := by
  simp [ad7991Decode, h, h']

/-- The codes of the channels, in the order in which they were read. -/
def ad7991Store (actualRef : Nat) (val : Nat → Nat) (read : List (Fin 4)) : Nat → Nat :=
  read.foldl (fun val (c : Fin 4) => Function.update val c ((code c).toNat * actualRef)) val

theorem ad7991Store_apply {actualRef : Nat} (read : List (Fin 4)) (val : Nat → Nat) (c : Fin 4) :
    ad7991Store code actualRef val read c =
      if c ∈ read then (code c).toNat * actualRef else val c := by
  induction read generalizing val with
  | nil => rfl
  | cons d read ih =>
    rw [ad7991Store, List.foldl_cons, ← ad7991Store, ih]
    by_cases hc : c ∈ read
    · simp [hc]
    · by_cases hcd : c = d
      · simp [hcd]
      · simp [hc, hcd, Fin.val_inj]

/-- Slots from `slot` on, of which the first hold what has been read. -/
theorem ad7991Decode_slots {actualRef : Nat} {data : Nat → Byte} {slot count : Nat}
    {read : List (Fin 4)} (hcount : read.length ≤ count)
    (hdata : ∀ i, data (2 * slot + i) = (read.flatMap (ad7991Bytes code)).getD i 0)
    (val : Nat → Nat) :
    (List.range' slot count).foldl (ad7991Decode actualRef data) val =
      if read.length < count then Function.update (ad7991Store code actualRef val read) 0 0
      else ad7991Store code actualRef val read := by
  induction count generalizing slot read val with
  | zero =>
    obtain rfl := List.length_eq_zero_iff.mp (Nat.le_zero.mp hcount)
    rfl
  | succ count ih =>
    rw [List.range'_succ, List.foldl_cons]
    have hnext : ∀ i, data (2 * (slot + 1) + i) = data (2 * slot + (2 + i)) := fun i =>
      congrArg data (by omega)
    cases read with
    | nil =>
      have hnone : ([] : List (Fin 4)).length ≤ count := Nat.zero_le _
      rw [ad7991Decode_zero (hdata 0) (hdata 1), ih hnone fun i =>
        (hnext i).trans (hdata (2 + i))]
      simp [ad7991Store]
    | cons c read =>
      rw [ad7991Decode_code code (hdata 0) (hdata 1), ih (Nat.le_of_succ_le_succ hcount) fun i =>
        (hnext i).trans ((hdata (2 + i)).trans (congrArg₂ _ (Nat.add_comm 2 i) rfl))]
      simp [ad7991Store]

theorem take_flatMap_bytes (order : List (Fin 4)) (n : Nat) :
    (order.flatMap (ad7991Bytes code)).take (n * 2) =
      (order.take n).flatMap (ad7991Bytes code) := by
  induction order generalizing n with
  | nil => simp
  | cons c order ih =>
    cases n with
    | zero => simp
    | succ n => simpa [ad7991Bytes, Nat.succ_mul] using ih n

theorem Ad7991.readsRight_iff {order : List (Fin 4)} (hlen : order.length ≤ 4) (val : Nat → Nat) :
    a.ReadsRight code order val ↔ ∀ c : Fin 4,
      (if c = 0 ∧ (order.take a.channelNum).length < 4 then 0
        else if c ∈ order.take a.channelNum then (code c).toNat * a.actualRef else val c) =
      if a.Enabled c then (code c).toNat * a.actualRef else val c := by
  have hread : (order.take a.channelNum).length ≤ 4 := (List.length_take_le' _ _).trans hlen
  simp only [ReadsRight, ad7991AdcRead, ne_eq, not_true_eq_false, if_false, Prod.mk.injEq,
    true_and, exists_eq_left', take_flatMap_bytes, List.range_eq_range']
  rw [ad7991Decode_slots code hread (fun i => by rw [Nat.mul_zero, Nat.zero_add])]
  generalize order.take a.channelNum = read
  refine forall_congr' fun c => ?_
  rw [← ad7991Store_apply]
  by_cases hshort : read.length < 4
  · by_cases hc : c = 0
    · simp [hshort, hc]
    · simp [hshort, hc, Fin.val_eq_zero_iff]
  · simp [hshort]

theorem Ad7991.readsRight_iff_of {order : List (Fin 4)} (hnodup : order.Nodup)
    (hall : ∀ c, c ∈ order ↔ a.Enabled c) (val : Nat → Nat) :
    a.ReadsRight code order val ↔
      (∀ c ∈ order.drop a.channelNum, c ≠ 0 → val c = (code c).toNat * a.actualRef) ∧
        ((order.take a.channelNum).length = 4 ∨
          if a.Enabled 0 then code 0 = 0 else val 0 = 0) := by
  have hlen : order.length ≤ 4 := by simpa using hnodup.length_le_card
  have hsplit : ∀ c, a.Enabled c ↔ c ∈ order.take a.channelNum ∨ c ∈ order.drop a.channelNum := by
    intro c
    rw [← hall, ← List.mem_append, List.take_append_drop]
  have hdisjoint : ∀ c ∈ order.take a.channelNum, c ∉ order.drop a.channelNum := fun c hc hc' =>
    List.disjoint_take_drop hnodup le_rfl hc hc'
  have hnodup' : (order.take a.channelNum).Nodup := hnodup.sublist (List.take_sublist _ _)
  rw [a.readsRight_iff code hlen]
  generalize order.take a.channelNum = read at *
  by_cases hshort : read.length < 4
  · simp only [hshort, and_true, hshort.ne, false_or]
    have hother : ∀ c ≠ 0, ((if c = 0 then 0 else
        if c ∈ read then (code c).toNat * a.actualRef else val c) =
          if a.Enabled c then (code c).toNat * a.actualRef else val c) ↔
        (c ∈ order.drop a.channelNum → val c = (code c).toNat * a.actualRef) := by
      intro c hc
      by_cases hmem : c ∈ read
      · simp [hc, hmem, hsplit, hdisjoint c hmem]
      · by_cases hrest : c ∈ order.drop a.channelNum <;> simp [hc, hmem, hsplit, hrest]
    have hzero : (0 = if a.Enabled 0 then (code 0).toNat * a.actualRef else val 0) ↔
        if a.Enabled 0 then code 0 = 0 else val 0 = 0 := by
      have hpos : a.actualRef ≠ 0 := by
        rw [Ad7991.actualRef]
        split <;> decide
      rw [eq_comm]
      split <;> simp [hpos, BitVec.toNat_eq]
    constructor
    · intro h
      exact ⟨fun c hc hne => (hother c hne).mp (h c) hc, hzero.mp (h 0)⟩
    · rintro ⟨hrest, hfirst⟩ c
      by_cases hc : c = 0
      · subst hc
        exact hzero.mpr hfirst
      · exact (hother c hc).mpr fun hin => hrest c hin hc
  · -- all four channels have been read
    have hfour : read.length = 4 := by
      have := hnodup'.length_le_card
      simp only [Fintype.card_fin] at this
      omega
    have hin : ∀ c, c ∈ read := fun c => by
      have huniv := Finset.eq_univ_of_card _ ((List.toFinset_card_of_nodup hnodup').trans hfour)
      exact List.mem_toFinset.mp (huniv ▸ Finset.mem_univ c)
    refine iff_of_true (fun c => ?_) ⟨fun c hc => absurd hc (hdisjoint c (hin c)), .inl hfour⟩
    rw [if_neg (fun h => hshort h.2), if_pos (hin c), if_pos ((hsplit c).mpr (.inl (hin c)))]

/-! ### The configurations -/

/-- The converter is initialised, and then configured.  A set of channels has no other bits. -/
def Ad7991.Configured (a : Ad7991) : Prop :=
  ∃ (a₀ : Ad7991) (ops : List Ad7991Op),
    (∀ channel, .channel channel ∈ ops → channel &&& 0x0f = 0) ∧
      a = ops.foldl Ad7991.configure (ad7991AdcInit a₀)

/-- How many channels are converted. -/
def Ad7991.converted : Nat := (List.finRange 4).countP (a.Enabled ·)

theorem Ad7991.converted_eq : a.converted =
    [a.regConfig.getLsbD 4, a.regConfig.getLsbD 5, a.regConfig.getLsbD 6,
      !a.regConfig.getLsbD 3 && a.regConfig.getLsbD 7].count true := by
  have hlast : (!a.regConfig.getLsbD 3 && a.regConfig.getLsbD 7) = decide (a.Enabled 3) := by
    simp [Enabled, and_comm]
  rw [hlast]
  simp [converted, Enabled, List.finRange, List.countP_cons, List.count_cons]

/-- The register has the reference, and the channels that are counted are converted; channel 3 may
be without being counted. -/
structure Ad7991.Counted (a : Ad7991) : Prop where
  ref : a.regConfig.getLsbD 3 = a.external
  num : a.channelNum = a.converted ∨ a.channelNum + 1 = a.converted ∧ a.Enabled 3

variable {a}

theorem Ad7991.counted_channel (href : a.regConfig.getLsbD 3 = a.external) {channel : Byte}
    (h : channel.getLsbD 3 = true → a.external = true) : (ad7991AdcChannel a channel).Counted := by
  have hbit : (ad7991AdcChannel a channel).regConfig.getLsbD 3 = a.external := by
    simp only [ad7991AdcChannel, BitVec.getLsbD_or, BitVec.getLsbD_and, href]
    cases hext : a.external <;> simp_all
  refine ⟨hbit, .inl ?_⟩
  rw [Ad7991.converted_eq, hbit]
  simp [ad7991AdcChannel]

theorem Ad7991.Counted.refSelect (h : a.Counted) (external : Bool) :
    (ad7991RefSelect a external).Counted := by
  cases external with
  | true => exact counted_channel (by simp [ad7991ConfigRefSel]) fun _ => rfl
  | false =>
    have hnum := h.num
    rw [converted_eq, h.ref, Enabled, h.ref] at hnum
    refine ⟨by simp [ad7991RefSelect, ad7991ConfigRefSel], ?_⟩
    rw [converted_eq, Enabled]
    simp [ad7991RefSelect, ad7991ConfigRefSel] at hnum ⊢
    -- behind an external reference channel 3 is converted again, if its bit is set
    cases hext : a.external <;> cases hlast : a.regConfig[7] <;> simp_all [List.count_cons]
    omega

theorem Ad7991.Configured.counted (h : a.Configured) : a.Counted := by
  obtain ⟨a₀, ops, hops, rfl⟩ := h
  have hinit : (ad7991AdcInit a₀).Counted :=
    counted_channel (by simp [ad7991RefSelect, ad7991ConfigRefSel]) fun hc => absurd hc (by decide)
  generalize ad7991AdcInit a₀ = a at hinit ⊢
  induction ops generalizing a with
  | nil => exact hinit
  | cons op ops ih =>
    refine ih (fun channel hin => hops channel (List.mem_cons_of_mem _ hin)) _ ?_
    cases op with
    | channel channel =>
      have hlow := congrArg (·.getLsbD 3) (hops channel (List.mem_cons_self ..))
      rw [BitVec.getLsbD_and] at hlow
      exact counted_channel hinit.ref fun hc => absurd (hlow.symm.trans (by rw [hc])) (by decide)
    | refSelect external => exact hinit.refSelect external

variable (a)

/-- A reading gives every channel its own value exactly when all four channels are read, or the one
that is not read has its value already and channel 0 is to be, or to stay, at zero. -/
theorem ad7991_read_iff (ha : a.Configured) {order : List (Fin 4)} (hnodup : order.Nodup)
    (hall : ∀ c, c ∈ order ↔ a.Enabled c) (val : Nat → Nat) :
    a.ReadsRight code order val ↔
      (∀ c, order[a.channelNum]? = some c → c ≠ 0 → val c = (code c).toNat * a.actualRef) ∧
        (a.channelNum = 4 ∨ if a.Enabled 0 then code 0 = 0 else val 0 = 0) := by
  have hlen : order.length = a.converted := by
    rw [Ad7991.converted, List.countP_eq_length_filter]
    refine List.Perm.length_eq ((List.perm_ext_iff_of_nodup hnodup ?_).mpr fun c => ?_)
    · exact (List.nodup_finRange 4).filter _
    · simp [hall]
  have hnum : a.channelNum = order.length ∨ a.channelNum + 1 = order.length := by
    rw [hlen]
    exact ha.counted.num.imp_right And.left
  rw [a.readsRight_iff_of code hnodup hall]
  refine and_congr ?_ (or_congr ?_ Iff.rfl)
  · rcases hnum with hnum | hnum
    · simp [hnum]
    · obtain ⟨c, hdrop⟩ : ∃ c, order.drop a.channelNum = [c] :=
        List.length_eq_one_iff.mp (by rw [List.length_drop]; omega)
      have hnext : order[a.channelNum]? = some c := by
        rw [← List.head?_drop, hdrop]
        rfl
      simp [hdrop, hnext]
  · rw [List.length_take]
    omega

def ad7991One : Ad7991 := ad7991AdcChannel (ad7991AdcInit ⟨0, 0, false⟩) 0x10

theorem ad7991_read_all : (ad7991AdcInit ⟨0, 0, false⟩).ReadsRight (fun _ => 0x800) [0, 1, 2, 3]
    fun _ => 7 :=
  (ad7991_read_iff _ _ ⟨_, [], nofun, rfl⟩ (by decide) (by decide) _).mpr ⟨nofun, .inl rfl⟩

/-- Half of the range is read as zero. -/
theorem ad7991_read_lost : ad7991One.Configured ∧
    ∃ val', ad7991AdcRead ad7991One 2 (ad7991Bytes (fun _ => 0x800) 0) (fun _ => 7) = (eOk, val') ∧
      ad7991One.Enabled 0 ∧ val' 0 = 0 :=
  ⟨⟨_, [.channel 0x10], by simp, rfl⟩, _, rfl, by decide, by decide⟩

end Embarc
