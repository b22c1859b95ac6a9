/-
What becomes of a chain of uDMA descriptors.

The loop writes control words only, so that it follows the links it found.  A chain that ends cannot
come back to a descriptor: what follows a descriptor is determined by the links, and it would follow
itself.  So every descriptor is processed once, as it was before the loop.
-/
import Embarc.Arc.UdmaChain
import Mathlib.Data.List.Basic

namespace Embarc

/-- The addresses of a chain that ends. -/
inductive DmaChain (descs : Word → DmaDesc) : List Word → Prop
  | last {a : Word} (hend : (descs a).dmallp = 0) : DmaChain descs [a]
  | link {a b : Word} {rest : List Word} (hlink : (descs a).dmallp = b) (hb : b ≠ 0)
      (hrest : DmaChain descs (b :: rest)) : DmaChain descs (a :: b :: rest)

/-- `DMACTRLx_INT` of the control word. -/
def DmaDesc.int (d : DmaDesc) : Word := (d.dmactrl &&& dmactrlIntMask) >>> 29

/-- Nothing differs but the bits of the control word that are in `mask`. -/
structure DmaDesc.KeptBut (mask : Word) (d d' : DmaDesc) : Prop where
  ctrl : d'.dmactrl &&& ~~~mask = d.dmactrl &&& ~~~mask
  sar : d'.dmasar = d.dmasar
  dar : d'.dmadar = d.dmadar
  llp : d'.dmallp = d.dmallp

variable {descs : Word → DmaDesc} {a c intEnable : Word} {rest rest' : List Word} {fuel : Nat}

/-! ### One descriptor -/

namespace DmaDesc

variable {d : DmaDesc}

theorem process_llp (intEnable : Word) (d : DmaDesc) : (d.process intEnable).dmallp = d.dmallp := by
  unfold process
  split_ifs <;> rfl

theorem process_linked (intEnable : Word) (h : d.dmallp ≠ 0) :
    (d.process intEnable).op =
        (if d.op = dmaManualLinkedTransfer then dmaManualLinkedTransfer
          else dmaAutoLinkedTransfer) ∧
      d.KeptBut dmactrlOpMask (d.process intEnable) := by
  by_cases hop : d.op = dmaManualLinkedTransfer
  · rw [process, if_pos h, if_neg (not_not.mpr hop), if_pos hop]
    exact ⟨hop, rfl, rfl, rfl, rfl⟩
  · rw [process, if_pos h, if_pos hop, if_neg hop, op, BitVec.ushiftRight_zero]
    refine ⟨Field.set_get_self (by decide), ?_, rfl, rfl, rfl⟩
    exact Field.set_get_of_disjoint (by decide) (BitVec.and_not_self _)

theorem process_last (hint : intEnable = dmaIntDisable ∨ intEnable = dmaIntEnable)
    (h : d.dmallp = 0) :
    (d.process intEnable).op = dmaSingleTransfer ∧ (d.process intEnable).int = intEnable ∧
      d.KeptBut (dmactrlOpMask ||| dmactrlIntMask) (d.process intEnable) := by
  have hwithin : intEnable <<< 29 &&& dmactrlIntMask = intEnable <<< 29 := by
    rcases hint with rfl | rfl <;> decide
  have hback : intEnable <<< 29 >>> 29 = intEnable := by
    rcases hint with rfl | rfl <;> decide
  rw [process, if_neg (not_not.mpr h), op, int, BitVec.ushiftRight_zero]
  refine ⟨?_, ?_, ?_, rfl, rfl, rfl⟩
  · refine (Field.set_get_of_disjoint hwithin (by decide)).trans ?_
    exact Field.set_get_self (by decide)
  · refine Eq.trans ?_ hback
    exact congrArg (BitVec.ushiftRight · 29) (Field.set_get_self hwithin)
  · refine (Field.set_get_of_disjoint hwithin (by decide)).trans ?_
    exact Field.set_get_of_disjoint (by decide) (by decide)

end DmaDesc

/-! ### Chains -/

namespace DmaChain

theorem unique (h : DmaChain descs (a :: rest)) (h' : DmaChain descs (a :: rest')) :
    rest = rest' := by
  induction rest generalizing a rest' with
  | nil =>
    cases h with | last hend =>
    cases h' with
    | last => rfl
    | link hlink hb => exact absurd (hlink.symm.trans hend) hb
  | cons b rest ih =>
    cases h with | link hlink hb hrest =>
    cases h' with
    | last hend => exact absurd (hlink.symm.trans hend) hb
    | link hlink' _ hrest' =>
      obtain rfl := hlink.symm.trans hlink'
      rw [ih hrest hrest']

theorem suffix (h : DmaChain descs rest) (hsuffix : a :: rest' <:+ rest) :
    DmaChain descs (a :: rest') := by
  induction h with
  | last hend =>
    rcases List.suffix_cons_iff.mp hsuffix with heq | hnil
    · rw [heq]
      exact .last hend
    · simp at hnil
  | link hlink hb hrest ih =>
    rcases List.suffix_cons_iff.mp hsuffix with heq | htail
    · rw [heq]
      exact .link hlink hb hrest
    · exact ih htail

theorem not_mem (h : DmaChain descs (a :: rest)) : a ∉ rest := by
  intro hmem
  obtain ⟨before, behind, rfl⟩ := List.append_of_mem hmem
  have hbehind : a :: behind <:+ a :: (before ++ a :: behind) := ⟨a :: before, rfl⟩
  have hagain := h.suffix hbehind
  have hlen := congrArg List.length (h.unique hagain)
  simp only [List.length_append, List.length_cons] at hlen
  omega

theorem linked (h : DmaChain descs rest) (hc : c ∈ rest.dropLast) : (descs c).dmallp ≠ 0 := by
  induction h with
  | last => simp at hc
  | link hlink hb _ ih =>
    rcases List.mem_cons.mp hc with rfl | hc
    · exact hlink ▸ hb
    · exact ih hc

theorem ended (h : DmaChain descs rest) (hc : c ∈ rest.getLast?) : (descs c).dmallp = 0 := by
  induction h with
  | last hend =>
    obtain rfl := Option.some.inj hc
    exact hend
  | link _ _ _ ih => exact ih hc

theorem congr {descs' : Word → DmaDesc} (h : DmaChain descs rest)
    (hsame : ∀ c ∈ rest, descs' c = descs c) : DmaChain descs' rest := by
  induction h with
  | last hend => exact .last (by rw [hsame _ List.mem_cons_self, hend])
  | link hlink hb _ ih =>
    exact .link (by rw [hsame _ List.mem_cons_self, hlink]) hb
      (ih fun c hc => hsame c (List.mem_cons_of_mem _ hc))

end DmaChain

/-- All descriptors of a chain are processed, and no other one. -/
theorem dmacProcessDesc_eq (intEnable : Word) (h : DmaChain descs (a :: rest))
    (hfuel : rest.length < fuel) :
    dmacProcessDesc intEnable fuel descs a =
      some fun c => if c ∈ a :: rest then (descs c).process intEnable else descs c := by
  induction rest generalizing a descs fuel with
  | nil =>
    obtain ⟨fuel, rfl⟩ := Nat.exists_eq_add_of_lt hfuel
    cases h with | last hend =>
    simp only [dmacProcessDesc, Function.update_self, DmaDesc.process_llp, hend, ne_eq,
      not_true_eq_false, if_false, List.length_nil, Nat.zero_add, List.mem_singleton]
    congr 1
    funext c
    rw [Function.update_apply]
    split_ifs with hc
    · rw [hc]
    · rfl
  | cons b rest ih =>
    obtain ⟨fuel, rfl⟩ : ∃ n, fuel = n + 1 := ⟨fuel - 1, by omega⟩
    have hfresh := h.not_mem
    cases h with | link hlink hb hrest =>
    have hstep : DmaChain (Function.update descs a ((descs a).process intEnable)) (b :: rest) := by
      refine hrest.congr fun c hc => Function.update_of_ne ?_ _ _
      rintro rfl
      exact hfresh hc
    simp only [dmacProcessDesc, Function.update_self, DmaDesc.process_llp, hlink, if_pos hb]
    rw [ih hstep (by simpa using hfuel)]
    congr 1
    funext c
    by_cases hc : c = a
    · subst hc
      rw [if_neg hfresh, if_pos List.mem_cons_self, Function.update_self]
    · rw [Function.update_of_ne hc]
      simp only [List.mem_cons, hc, false_or]

/-- **A chain of descriptors is prepared for the controller**: the loop ends after one round for each
descriptor, with every descriptor but the last linked, the last one single with the interrupt as
given, and all else as it was. -/
theorem dmac_process_chain (intEnable : Word)
    (hint : intEnable = dmaIntDisable ∨ intEnable = dmaIntEnable) (descs : Word → DmaDesc)
    (a : Word) (rest : List Word) (h : DmaChain descs (a :: rest)) :
    ∃ descs', (∀ fuel, rest.length < fuel →
        dmacProcessDesc intEnable fuel descs a = some descs') ∧
      (∀ c ∈ (a :: rest).dropLast,
        (descs' c).op = (if (descs c).op = dmaManualLinkedTransfer then dmaManualLinkedTransfer
            else dmaAutoLinkedTransfer) ∧
          (descs c).KeptBut dmactrlOpMask (descs' c)) ∧
      (∀ c ∈ (a :: rest).getLast?,
        (descs' c).op = dmaSingleTransfer ∧ (descs' c).int = intEnable ∧
          (descs c).KeptBut (dmactrlOpMask ||| dmactrlIntMask) (descs' c)) ∧
      ∀ c, c ∉ a :: rest → descs' c = descs c := by
  refine ⟨_, fun fuel => dmacProcessDesc_eq intEnable h, fun c hc => ?_, fun c hc => ?_,
    fun c hc => if_neg hc⟩
  · rw [if_pos (List.dropLast_subset _ hc)]
    exact DmaDesc.process_linked intEnable (h.linked hc)
  · rw [if_pos (List.mem_of_mem_getLast? hc)]
    exact DmaDesc.process_last hint (h.ended hc)

/-- A descriptor at `0x100` that is linked to one at `0x110`, with an operation that is not valid. -/
def dmaTwo : Word → DmaDesc := fun a =>
  { dmactrl := 0xFFFFFFFC, dmasar := 0x400, dmadar := 0x800, dmallp := if a = 0x100 then 0x110 else 0 }

theorem dmac_process_two :
    ∃ descs, dmacProcessDesc dmaIntDisable 2 dmaTwo 0x100 = some descs ∧
      (descs 0x100).op = dmaAutoLinkedTransfer ∧ (descs 0x110).op = dmaSingleTransfer ∧
      (descs 0x110).int = dmaIntDisable := by
  obtain ⟨descs, hrun, hlinked, hlast, -⟩ := dmac_process_chain dmaIntDisable (.inl rfl) dmaTwo
    0x100 [0x110] (.link rfl (by decide) (.last rfl))
  obtain ⟨hop, hint, -⟩ := hlast 0x110 rfl
  exact ⟨descs, hrun 2 (by decide), (hlinked 0x100 (by decide)).1.trans (if_neg (by decide)), hop,
    hint⟩

end Embarc
