/-
The turns of the loop over a transfer list, against the frames of its transfers.

Frame by frame a transfer has its positions `0, nbytes, 2 * nbytes, …` up to its total length;
each belongs to one address of the buffer or, outside the window of the buffer, to none.  The
driver moves its pointer on once at most in a turn, so a transfer of length zero that is not the
first one costs a turn of its own, in which a dummy frame is pushed.  All frames behind it are
late by one.

`spiTurns` is what the turns come to, `spiPlaces` what the list asks for.  The turns begin with
the places exactly when no frame behind such a transfer has an address: the first one that has
shows that it is late.
-/
import Embarc.Proofs.SpiWalk

namespace Embarc

/-! ### What the list asks for -/

/-- The place of position `i` in the buffer. -/
def SpiSide.place (x : SpiSide) (i : Nat) : Option Word :=
  if x.ofs ≤ i ∧ i < x.totlen then some (x.buf + BitVec.ofNat 32 (i - x.ofs)) else none

/-- The places of the positions of a transfer, one for each frame. -/
def SpiSide.places (nb : Nat) (x : SpiSide) : List (Option Word) :=
  (List.range ((x.tot + nb - 1) / nb)).map fun j => x.place (nb * j)

def spiPlaces (nb : Nat) (sides : List SpiSide) : List (Option Word) :=
  sides.flatMap (·.places nb)

/-! ### The turns of the loop -/

/-- A transfer from which the driver takes the frames it should: as `DEV_SPI_XFER_INIT` and the
alignment check leave it, of a number of whole frames. -/
structure SpiSide.Fits (nb : Nat) (x : SpiSide) : Prop where
  idx : x.idx = 0
  window : x.ofs < x.totlen → nb ∣ x.ofs ∧ nb ∣ x.totlen
  inside : x.totlen ≤ x.tot
  whole : nb ∣ x.tot
  word : x.tot < 2 ^ 32

variable {rest sides : List SpiSide} {d : SpiSide}

/-- The transfer with `j` frames done. -/
def SpiSide.after (nb : Nat) (x : SpiSide) (j : Nat) : SpiSide :=
  { x with
    idx := nb * j
    buf := x.buf + BitVec.ofNat 32 (min (nb * j) (max x.ofs x.totlen) - x.ofs) }

/-- The turns spent on a transfer that is not the first. -/
def SpiSide.turns (nb : Nat) (x : SpiSide) : List (Option Word) :=
  if x.tot = 0 then [none] else x.places nb

def spiTurns (nb : Nat) : List SpiSide → List (Option Word)
  | [] => []
  | x :: rest => x.places nb ++ rest.flatMap (·.turns nb)

section Turns

variable {nb : Nat} {x : SpiSide}

theorem spiCursor_of_lt (h : x.idx < x.tot) :
    spiCursor (x :: rest) = x :: rest := if_neg (Nat.not_le.mpr h)

theorem spiCursor_of_ge (h : x.tot ≤ x.idx) :
    spiCursor (x :: rest) = rest := if_pos h

namespace SpiSide

theorem after_addr (x : SpiSide) (j : Nat) : (x.after nb j).addr = x.place (nb * j) := by
  by_cases hin : x.ofs ≤ nb * j ∧ nb * j < x.totlen
  · have hmin : min (nb * j) (max x.ofs x.totlen) = nb * j := by omega
    simp [after, addr, place, hin, hmin]
  · simp [after, addr, place, hin]

theorem place_of_idle (h : x.totlen ≤ x.ofs) (i : Nat) : x.place i = none :=
  if_neg (by omega)

theorem places_of_idle (h : x.totlen ≤ x.ofs) :
    ∀ a ∈ x.places nb, a = none := by
  simp [places, place_of_idle h]

theorem turns_of_idle (h : x.totlen ≤ x.ofs) : ∀ a ∈ x.turns nb, a = none := by
  unfold turns
  split
  · simp
  · exact places_of_idle h

section

variable (h : x.Fits nb)
include h

theorem Fits.after_zero : x.after nb 0 = x := by
  cases x with
  | mk buf ofs totlen idx tot =>
    have hidx : idx = 0 := h.idx
    simp [after, hidx]

/-- The window begins and ends between frames. -/
theorem Fits.window_step (j : Nat) :
    min (nb * (j + 1)) (max x.ofs x.totlen) - x.ofs =
      min (nb * j) (max x.ofs x.totlen) - x.ofs +
        if x.ofs ≤ nb * j ∧ nb * j < x.totlen then nb else 0 := by
  rw [Nat.mul_succ]
  by_cases hwin : x.ofs < x.totlen
  · obtain ⟨⟨a, ha⟩, ⟨b, hb⟩⟩ := h.window hwin
    split_ifs with hin
    · have hjb : nb * (j + 1) ≤ nb * b := by
        rw [hb] at hin
        exact Nat.mul_le_mul_left nb (Nat.lt_of_mul_lt_mul_left hin.2)
      rw [Nat.mul_succ] at hjb
      omega
    · by_cases hbefore : nb * j < x.ofs
      · have hja : nb * (j + 1) ≤ nb * a := by
          rw [ha] at hbefore
          exact Nat.mul_le_mul_left nb (Nat.lt_of_mul_lt_mul_left hbefore)
        rw [Nat.mul_succ] at hja
        omega
      · omega
  · rw [if_neg (by omega)]
    omega

theorem Fits.advance_after {j : Nat} (hj : nb * j < x.tot) :
    (x.after nb j).advance nb = x.after nb (j + 1) := by
  have hnext : nb * j + nb ≤ x.tot := by
    obtain ⟨c, hc⟩ := h.whole
    rw [hc] at hj ⊢
    exact Nat.mul_le_mul_left nb (Nat.lt_of_mul_lt_mul_left hj)
  have hword : u32 (nb * j + nb) = nb * (j + 1) := u32_of_lt (Nat.lt_of_le_of_lt hnext h.word)
  have hwindow := h.window_step j
  split_ifs at hwindow with hin
  · simp [after, advance, hword, hwindow, hin, BitVec.ofNat_add, BitVec.add_assoc]
  · simp [after, advance, hword, hwindow, hin]

variable (hnb : 0 < nb)
include hnb

theorem Fits.length_places :
    nb * (x.places nb).length = x.tot := by
  obtain ⟨c, hc⟩ := h.whole
  rw [places, List.length_map, List.length_range, hc, Nat.add_sub_assoc hnb,
    Nat.mul_add_div hnb, Nat.div_eq_of_lt (by omega), Nat.add_zero]

theorem Fits.walk_after (rest : List SpiSide) {j k : Nat} (hjk : nb * (j + k) ≤ x.tot) :
    spiWalk nb k (x.after nb j :: rest) =
      ((List.range' j k).map fun i => x.place (nb * i), x.after nb (j + k) :: rest) := by
  induction k generalizing j with
  | zero => rfl
  | succ k ih =>
    have hlt : nb * j < x.tot := by
      refine Nat.lt_of_lt_of_le ?_ hjk
      exact Nat.mul_lt_mul_of_pos_left (by omega) hnb
    have hshift : j + 1 + k = j + (k + 1) := by omega
    rw [spiWalk_succ_of_cons (spiCursor_of_lt hlt), h.advance_after hlt,
      ih (by rw [hshift]; exact hjk), hshift, after_addr, List.range'_succ, List.map_cons]

theorem Fits.walk (rest : List SpiSide) :
    spiWalk nb (x.places nb).length (x :: rest) =
      (x.places nb, x.after nb (x.places nb).length :: rest) := by
  have hlen := h.length_places hnb
  have hwalk := h.walk_after hnb rest (j := 0) (k := (x.places nb).length)
    (by rw [Nat.zero_add]; exact Nat.le_of_eq hlen)
  rw [h.after_zero, Nat.zero_add, ← List.range_eq_range'] at hwalk
  rw [hwalk]
  simp [places]

/-- Behind a transfer that is through, the next one takes its turns and is through. -/
theorem Fits.walk_turns (hd : d.tot ≤ d.idx) (rest : List SpiSide) :
    ∃ e : SpiSide, e.tot ≤ e.idx ∧
      spiWalk nb (x.turns nb).length (d :: x :: rest) = (x.turns nb, e :: rest) := by
  unfold turns
  split_ifs with hzero
  · have haddr : x.addr = none := if_neg (by have := h.inside; omega)
    refine ⟨x.advance nb, ?_, ?_⟩
    · show x.tot ≤ _
      omega
    · rw [List.length_singleton, spiWalk_succ_of_cons (spiCursor_of_ge hd), haddr]
      rfl
  · have hlen := h.length_places hnb
    refine ⟨x.after nb (x.places nb).length, Nat.le_of_eq hlen.symm, ?_⟩
    -- the first turn leaves `d` behind, so that the walk is the one from `x`
    rw [← h.walk hnb rest]
    obtain ⟨c, hc⟩ : ∃ c, (x.places nb).length = c + 1 := by
      refine Nat.exists_eq_succ_of_ne_zero fun hnone => hzero ?_
      rw [← hlen, hnone, Nat.mul_zero]
    have hlt : x.idx < x.tot := by
      rw [h.idx]
      omega
    rw [hc, spiWalk_succ_of_cons (spiCursor_of_ge hd), spiWalk_succ_of_cons (spiCursor_of_lt hlt)]

theorem Fits.idle (hnone : ∀ a ∈ x.places nb, a = none) : x.totlen ≤ x.ofs := by
  refine Nat.le_of_not_lt fun hwin => ?_
  obtain ⟨⟨a, ha⟩, -⟩ := h.window hwin
  have hlen := h.length_places hnb
  have hinside := h.inside
  have hrange : a < (x.tot + nb - 1) / nb := by
    rw [places, List.length_map, List.length_range] at hlen
    exact Nat.lt_of_mul_lt_mul_left (a := nb) (by omega)
  have hplace : x.place (nb * a) = none :=
    hnone _ (List.mem_map.mpr ⟨a, List.mem_range.mpr hrange, rfl⟩)
  rw [place, if_pos (by omega)] at hplace
  exact absurd hplace (by simp)

end

end SpiSide

theorem spiPlaces_cons (x : SpiSide) (rest : List SpiSide) :
    spiPlaces nb (x :: rest) = x.places nb ++ spiPlaces nb rest := rfl

theorem walk_behind (h : ∀ x ∈ rest, x.Fits nb) (hd : d.tot ≤ d.idx) (hnb : 0 < nb) :
    (spiWalk nb (rest.flatMap (·.turns nb)).length (d :: rest)).1 = rest.flatMap (·.turns nb) := by
  induction rest generalizing d with
  | nil => rfl
  | cons x rest ih =>
    obtain ⟨e, he, hwalk⟩ := (h x List.mem_cons_self).walk_turns hnb hd rest
    rw [List.flatMap_cons, List.length_append, spiWalk_add, hwalk]
    exact congrArg _ (ih (fun y hy => h y (List.mem_cons_of_mem x hy)) he)

/-- **The turns** of the loop over a whole list. -/
theorem walk_turns (h : ∀ x ∈ sides, x.Fits nb) (hnb : 0 < nb) :
    (spiWalk nb (spiTurns nb sides).length sides).1 = spiTurns nb sides := by
  cases sides with
  | nil => rfl
  | cons x rest =>
    have hx := h x List.mem_cons_self
    have hdone : (x.after nb (x.places nb).length).tot ≤ _ :=
      Nat.le_of_eq (hx.length_places hnb).symm
    rw [spiTurns, List.length_append, spiWalk_add, hx.walk hnb rest]
    exact congrArg _ (walk_behind (fun y hy => h y (List.mem_cons_of_mem x hy)) hdone hnb)

/-! ### Turns against places -/

variable (hnb : 0 < nb)
include hnb

namespace SpiSide

theorem places_of_zero (h : x.tot = 0) : x.places nb = [] := by
  simp [places, h, hnb]

theorem tot_le_places (x : SpiSide) : x.tot ≤ nb * (x.places nb).length := by
  have hdiv := Nat.lt_mul_div_succ (x.tot + nb - 1) hnb
  rw [places, List.length_map, List.length_range]
  rw [Nat.mul_succ] at hdiv
  omega

theorem length_places_le_turns (x : SpiSide) :
    (x.places nb).length ≤ (x.turns nb).length := by
  unfold turns
  split
  · rename_i hzero
    simp [places_of_zero hnb hzero]
  · exact Nat.le_refl _

end SpiSide

theorem length_places_le_turns (rest : List SpiSide) :
    (spiPlaces nb rest).length ≤ (rest.flatMap (·.turns nb)).length := by
  induction rest with
  | nil => exact Nat.le_refl _
  | cons x rest ih =>
    rw [spiPlaces_cons, List.flatMap_cons, List.length_append, List.length_append]
    exact Nat.add_le_add (x.length_places_le_turns hnb) ih

/-- If everything behind a transfer of length zero is idle, its turn is not noticed. -/
theorem take_turns (h : rest.Pairwise fun x y => x.tot = 0 → y.totlen ≤ y.ofs) :
    (rest.flatMap (·.turns nb)).take (spiPlaces nb rest).length = spiPlaces nb rest := by
  induction rest with
  | nil => rfl
  | cons x rest ih =>
    obtain ⟨hx, hrest⟩ := List.pairwise_cons.mp h
    by_cases hzero : x.tot = 0
    · have hturns : ∀ a ∈ (x :: rest).flatMap (·.turns nb), a = none := by
        intro a ha
        obtain ⟨y, hy, hay⟩ := List.mem_flatMap.mp ha
        rcases List.mem_cons.mp hy with rfl | hy
        · rw [SpiSide.turns, if_pos hzero] at hay
          exact List.mem_singleton.mp hay
        · exact SpiSide.turns_of_idle (hx y hy hzero) a hay
      have hplaces : ∀ a ∈ spiPlaces nb (x :: rest), a = none := by
        intro a ha
        obtain ⟨y, hy, hay⟩ := List.mem_flatMap.mp ha
        rcases List.mem_cons.mp hy with rfl | hy
        · rw [SpiSide.places_of_zero hnb hzero] at hay
          exact absurd hay List.not_mem_nil
        · exact SpiSide.places_of_idle (hx y hy hzero) a hay
      have hle := length_places_le_turns hnb (x :: rest)
      rw [List.eq_replicate_of_mem hturns, List.eq_replicate_of_mem hplaces, List.length_replicate,
        List.take_replicate, Nat.min_eq_left hle]
    · have hturns : x.turns nb = x.places nb := if_neg hzero
      rw [spiPlaces_cons, List.flatMap_cons, List.length_append, hturns,
        List.take_length_add_append]
      exact congrArg _ (ih hrest)

/-- The first frame with an address comes no earlier in the turns than in the places. -/
theorem findIdx_places_le_turns (rest : List SpiSide) :
    (spiPlaces nb rest).findIdx Option.isSome ≤
      (rest.flatMap (·.turns nb)).findIdx Option.isSome := by
  induction rest with
  | nil => exact Nat.le_refl _
  | cons x rest ih =>
    rw [spiPlaces_cons, List.flatMap_cons]
    by_cases hzero : x.tot = 0
    · rw [SpiSide.places_of_zero hnb hzero, SpiSide.turns, if_pos hzero, List.nil_append,
        List.singleton_append, List.findIdx_cons]
      exact Nat.le_succ_of_le ih
    · have hturns : x.turns nb = x.places nb := if_neg hzero
      rw [hturns, List.findIdx_append, List.findIdx_append]
      split
      · exact Nat.le_refl _
      · exact Nat.add_le_add_right ih _

/-- A turn too many is noticed at the first frame with an address. -/
theorem places_none_of_late
    (h : ((none :: rest.flatMap (·.turns nb)).take (spiPlaces nb rest).length).map Option.isSome =
      (spiPlaces nb rest).map Option.isSome) : ∀ a ∈ spiPlaces nb rest, a = none := by
  by_contra hsome
  obtain ⟨a, ha, hne⟩ : ∃ a ∈ spiPlaces nb rest, a ≠ none := by simpa using hsome
  have hfirst : (spiPlaces nb rest).findIdx Option.isSome < (spiPlaces nb rest).length :=
    List.findIdx_lt_length_of_exists ⟨a, ha, Option.isSome_iff_ne_none.mpr hne⟩
  have hle := findIdx_places_le_turns hnb rest
  have hsame : ((none :: rest.flatMap (·.turns nb)).take (spiPlaces nb rest).length).findIdx
      Option.isSome = (spiPlaces nb rest).findIdx Option.isSome := by
    simpa only [List.findIdx_map, Function.id_comp] using congrArg (List.findIdx id) h
  rw [List.findIdx_take, List.findIdx_cons, Option.isSome_none, cond_false] at hsame
  omega

/-- Turns that agree with the places show a window only where no transfer of length zero went
before. -/
theorem pairwise_of_take_turns (hfits : ∀ x ∈ rest, x.Fits nb)
    (h : ((rest.flatMap (·.turns nb)).take (spiPlaces nb rest).length).map Option.isSome =
      (spiPlaces nb rest).map Option.isSome) :
    rest.Pairwise fun x y => x.tot = 0 → y.totlen ≤ y.ofs := by
  induction rest with
  | nil => exact List.Pairwise.nil
  | cons x rest ih =>
    have hfitsRest : ∀ y ∈ rest, y.Fits nb := fun y hy => hfits y (List.mem_cons_of_mem x hy)
    by_cases hzero : x.tot = 0
    · have hplaces : spiPlaces nb (x :: rest) = spiPlaces nb rest := by
        rw [spiPlaces_cons, SpiSide.places_of_zero hnb hzero, List.nil_append]
      have hturns : (x :: rest).flatMap (·.turns nb) = none :: rest.flatMap (·.turns nb) := by
        rw [List.flatMap_cons, SpiSide.turns, if_pos hzero, List.singleton_append]
      rw [hplaces, hturns] at h
      have hnone := places_none_of_late hnb h
      have hidle : ∀ y ∈ rest, y.totlen ≤ y.ofs := by
        intro y hy
        apply (hfitsRest y hy).idle hnb
        exact fun a ha => hnone a (List.mem_flatMap.mpr ⟨y, hy, ha⟩)
      exact List.Pairwise.cons (fun y hy _ => hidle y hy)
        (List.pairwise_of_forall_mem_list fun _ _ y hy _ => hidle y hy)
    · have hturns : x.turns nb = x.places nb := if_neg hzero
      refine List.Pairwise.cons (fun _ _ hc => absurd hc hzero) (ih hfitsRest ?_)
      rw [spiPlaces_cons, List.flatMap_cons, List.length_append, hturns,
        List.take_length_add_append, List.map_append, List.map_append] at h
      exact List.append_cancel_left h

/-- **The turns agree with the places** exactly when nothing has an address behind a transfer of
length zero that is not the first. -/
theorem take_spiTurns (h : sides.tail.Pairwise fun x y => x.tot = 0 → y.totlen ≤ y.ofs) :
    (spiTurns nb sides).take (spiPlaces nb sides).length = spiPlaces nb sides := by
  cases sides with
  | nil => rfl
  | cons x rest =>
    rw [spiPlaces_cons, spiTurns, List.length_append, List.take_length_add_append]
    exact congrArg _ (take_turns hnb h)

theorem tail_of_take_spiTurns (hfits : ∀ x ∈ sides, x.Fits nb)
    (h : ((spiTurns nb sides).take (spiPlaces nb sides).length).map Option.isSome =
      (spiPlaces nb sides).map Option.isSome) :
    sides.tail.Pairwise fun x y => x.tot = 0 → y.totlen ≤ y.ofs := by
  cases sides with
  | nil => exact List.Pairwise.nil
  | cons x rest =>
    rw [spiPlaces_cons, spiTurns, List.length_append, List.take_length_add_append,
      List.map_append, List.map_append] at h
    exact pairwise_of_take_turns hnb (fun y hy => hfits y (List.mem_cons_of_mem x hy))
      (List.append_cancel_left h)

theorem length_places_le_spiTurns (sides : List SpiSide) :
    (spiPlaces nb sides).length ≤ (spiTurns nb sides).length := by
  cases sides with
  | nil => exact Nat.le_refl _
  | cons x rest =>
    rw [spiPlaces_cons, spiTurns, List.length_append, List.length_append]
    exact Nat.add_le_add_left (length_places_le_turns hnb rest) _

/-! ### Counting the frames -/

theorem sum_tot_le_places (sides : List SpiSide) :
    (sides.map (·.tot)).sum ≤ nb * (spiPlaces nb sides).length := by
  induction sides with
  | nil => exact Nat.zero_le _
  | cons x rest ih =>
    rw [spiPlaces_cons, List.length_append, Nat.mul_add, List.map_cons,
      List.sum_cons]
    exact Nat.add_le_add (x.tot_le_places hnb) ih

/-- As many bytes as places only if all transfers are whole frames. -/
theorem whole_of_places_le (h : nb * (spiPlaces nb sides).length ≤ (sides.map (·.tot)).sum) :
    ∀ x ∈ sides, nb ∣ x.tot := by
  induction sides with
  | nil => simp
  | cons x rest ih =>
    have hx := x.tot_le_places hnb
    have hrest := sum_tot_le_places hnb rest
    rw [spiPlaces_cons, List.length_append, Nat.mul_add, List.map_cons,
      List.sum_cons] at h
    intro y hy
    rcases List.mem_cons.mp hy with rfl | hy
    · exact ⟨_, (by omega : y.tot = nb * (y.places nb).length)⟩
    · exact ih (by omega) y hy

theorem places_eq_of_whole (h : ∀ x ∈ sides, x.Fits nb) :
    nb * (spiPlaces nb sides).length = (sides.map (·.tot)).sum := by
  induction sides with
  | nil => rfl
  | cons x rest ih =>
    rw [spiPlaces_cons, List.length_append, Nat.mul_add, List.map_cons,
      List.sum_cons, (h x List.mem_cons_self).length_places hnb]
    exact congrArg _ (ih fun y hy => h y (List.mem_cons_of_mem x hy))

end Turns

end Embarc
