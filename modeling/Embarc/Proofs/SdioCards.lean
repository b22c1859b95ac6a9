/-
The power of the cards of the SDIO host controller.

All cards have their bits in the same register.  `dw_sdio_power_on` writes the bit of its card and
nothing else, so the power of every other card goes off; `dw_sdio_power_off` clears the bit of its
card, even if the card has another user.  So the bits tell which cards are open exactly as long as
one card is in use at a time, by one user.
-/
import Embarc.Lib.Run
import Embarc.DesignWare.Sdio

namespace Embarc

open Trace (Runs Always)

/-- The controller, and the number of opens of each card that were not closed yet. -/
structure SdioCards where
  dev : DwSdio
  users : Word → Nat

inductive SdioCardCall where
  | acquire (card : Word) (waits : SdioWaits)
  | release (card : Word) (waits : SdioWaits)

namespace SdioCards

def step (s : SdioCards) : SdioCardCall → Except Empty SdioCards
  | .acquire card waits => .ok {
      dev := (dwSdioOpen s.dev card waits).2
      users := Function.update s.users card (s.users card + 1) }
  | .release card waits => .ok {
      dev := (dwSdioClose s.dev card waits).2
      users := Function.update s.users card (s.users card - 1) }

/-- The register has a bit for the card, and a close has an open. -/
def Matched (s : SdioCards) : SdioCardCall → Prop
  | .acquire card _ => card.toNat < 32
  | .release card _ => card.toNat < 32 ∧ s.users card ≠ 0

def power (s : SdioCards) (card : Word) : Bool := hasFlag s.dev.regs.pwren (sdioCardBit card)

/-- The cards that have power are those that are open. -/
def Powered (s : SdioCards) : Prop :=
  ∀ card : Word, card.toNat < 32 → (s.power card = true ↔ s.users card ≠ 0)

/-- A card is opened while no other is open, and closed by its only user. -/
def Alone (s : SdioCards) : SdioCardCall → Prop
  | .acquire card _ => ∀ other : Word, other.toNat < 32 → other ≠ card → s.users other = 0
  | .release card _ => s.users card = 1

def installed (refClk fifoDepth : Word) (regs : SdioRegs) : SdioCards where
  dev := .installed refClk fifoDepth regs
  users := fun _ => 0

end SdioCards

/-! ### The power register -/

theorem dwSdioBusFreqSet_pwren (s : DwSdio) (card freq : Word) (waits : SdioClkWaits) :
    (dwSdioBusFreqSet s card freq waits).2.regs.pwren = s.regs.pwren := by
  simp only [dwSdioBusFreqSet]
  split <;> rfl

/-- The bit of the card replaces all the others. -/
theorem dwSdioOpen_pwren (s : DwSdio) (card : Word) (waits : SdioWaits) :
    (dwSdioOpen s card waits).2.regs.pwren = sdioCardBit card := by
  by_cases hopen : s.opnCnt > 0
  · rw [dwSdioOpen, if_pos hopen]
    exact dwSdioBusFreqSet_pwren (dwSdioReset (dwSdioPowerOn s card) card) card _ _
  · rw [dwSdioOpen, if_neg hopen]
    dsimp only
    split <;> exact dwSdioBusFreqSet_pwren _ card _ _

variable {other : Word}

theorem dwSdioClose_pwren (s : DwSdio) (card : Word) (waits : SdioWaits) :
    (dwSdioClose s card waits).2.regs.pwren = s.regs.pwren &&& ~~~sdioCardBit card := by
  simp only [dwSdioClose]
  split <;> rfl

namespace SdioCards

variable {s s' : SdioCards} {card : Word} {waits : SdioWaits}

theorem power_acquire (hother : other.toNat < 32) (hstep : s.step (.acquire card waits) = .ok s') :
    s'.power other = true ↔ other = card := by
  cases hstep
  rw [power, dwSdioOpen_pwren, sdioCardBit_flag]
  exact sdioCardBit_getLsbD card hother

theorem power_release (hother : other.toNat < 32) (hstep : s.step (.release card waits) = .ok s') :
    s'.power other = true ↔ s.power other = true ∧ other ≠ card := by
  cases hstep
  simp only [power, dwSdioClose_pwren, sdioCardBit_flag, BitVec.getLsbD_and, BitVec.getLsbD_not]
  have hbit := sdioCardBit_getLsbD card hother
  simp only [Bool.and_eq_true, decide_eq_true hother, Bool.true_and, Bool.not_eq_true',
    ← Bool.not_eq_true, hbit, ne_eq]

/-! ### One call -/

/-- Behind an open its card alone has power. -/
theorem Powered.acquire_iff (hcard : card.toNat < 32)
    (hstep : s.step (.acquire card waits) = .ok s') :
    s'.Powered ↔ s.Alone (.acquire card waits) := by
  have husers : s'.users = Function.update s.users card (s.users card + 1) := by
    cases hstep
    rfl
  constructor
  · intro hpowered other hother hne
    have hiff := hpowered other hother
    rw [power_acquire hother hstep, husers, Function.update_of_ne hne] at hiff
    by_contra hopen
    exact hne (hiff.mpr hopen)
  · intro halone other hother
    rw [power_acquire hother hstep, husers]
    by_cases hsame : other = card
    · subst hsame
      rw [Function.update_self]
      exact iff_of_true rfl (Nat.succ_ne_zero _)
    · rw [Function.update_of_ne hsame, halone other hother hsame]
      exact iff_of_false hsame (fun hc => hc rfl)

/-- A close turns the power off, and the other cards' bits are kept. -/
theorem Powered.release_iff (hpowered : s.Powered) (hcard : card.toNat < 32)
    (hopen : s.users card ≠ 0) (hstep : s.step (.release card waits) = .ok s') :
    s'.Powered ↔ s.Alone (.release card waits) := by
  have husers : s'.users = Function.update s.users card (s.users card - 1) := by
    cases hstep
    rfl
  constructor
  · intro hpowered'
    have hiff := hpowered' card hcard
    rw [power_release hcard hstep, husers, Function.update_self] at hiff
    show s.users card = 1
    by_contra hmore
    have hoff := hiff.mpr (by omega)
    exact hoff.2 rfl
  · intro hone other hother
    rw [power_release hother hstep, husers]
    by_cases hsame : other = card
    · subst hsame
      have hnone : s.users other - 1 = 0 := by
        rw [show s.users other = 1 from hone]
      rw [Function.update_self, hnone]
      exact iff_of_false (fun hc => hc.2 rfl) (fun hc => hc rfl)
    · rw [Function.update_of_ne hsame, ← hpowered other hother]
      exact ⟨fun hc => hc.1, fun hc => ⟨hc, hsame⟩⟩

theorem Powered.step_iff {e : SdioCardCall} (hpowered : s.Powered) (hmatched : s.Matched e)
    (hstep : s.step e = .ok s') : s'.Powered ↔ s.Alone e := by
  cases e with
  | acquire card waits => exact Powered.acquire_iff hmatched hstep
  | release card waits => exact hpowered.release_iff hmatched.1 hmatched.2 hstep

theorem powered_installed (refClk fifoDepth : Word) (regs : SdioRegs) :
    (installed refClk fifoDepth regs).Powered := by
  intro card _
  refine iff_of_false ?_ (fun hc => hc rfl)
  have hnone : hasFlag 0 (sdioCardBit card) = false := by simp [hasFlag]
  show ¬ hasFlag 0 (sdioCardBit card) = true
  rw [hnone]
  exact Bool.false_ne_true

end SdioCards

/-! ### Every sequence of calls -/

/-- **All along a sequence of opens and closes the cards that have power are those that are open,
exactly if** no card is opened while another one is open, and every card is closed by its only
user. -/
theorem sdio_cards_powered_iff (refClk fifoDepth : Word) (regs : SdioRegs) (es : List SdioCardCall)
    (s : SdioCards)
    (h : Runs SdioCards.step SdioCards.Matched (.installed refClk fifoDepth regs) es s) :
    Always SdioCards.step SdioCards.Powered (.installed refClk fifoDepth regs) es s ↔
      Runs SdioCards.step (fun s e => s.Matched e ∧ s.Alone e) (.installed refClk fifoDepth regs)
        es s := by
  refine h.always_iff_of (I := fun _ => True) (fun _ _ _ _ _ _ _ => trivial) ?_ trivial
    (SdioCards.powered_installed refClk fifoDepth regs)
  intro s e s' _ hpowered hmatched hstep
  exact hpowered.step_iff hmatched hstep

instance (s : SdioCards) (e : SdioCardCall) : Decidable (s.Matched e) :=
  match e with
  | .acquire .. => inferInstanceAs (Decidable (_ < _))
  | .release .. => inferInstanceAs (Decidable (_ ∧ _))

/-- One card is used after the other. -/
theorem sdio_cards_powered_turns :
    ∃ s, Always SdioCards.step SdioCards.Powered (.installed 100000000 128 .zero)
      [.acquire 3 sdioWaitsDone, .release 3 sdioWaitsDone, .acquire 5 sdioWaitsDone] s := by
  have hback : Function.update (Function.update (fun _ : Word => 0) 3 1) 3 0 = fun _ => 0 := by
    rw [Function.update_idem]
    exact Function.update_eq_self 3 fun _ : Word => 0
  have hruns : Runs SdioCards.step (fun s e => s.Matched e ∧ s.Alone e)
      (.installed 100000000 128 .zero)
      [.acquire 3 sdioWaitsDone, .release 3 sdioWaitsDone, .acquire 5 sdioWaitsDone] _ :=
    .cons ⟨by decide, fun _ _ _ => rfl⟩ rfl (.cons ⟨by decide, rfl⟩ rfl
      (.cons ⟨by decide, fun other _ _ => congrFun hback other⟩ rfl (.nil _)))
  refine ⟨_, (sdio_cards_powered_iff 100000000 128 .zero _ _ ?_).mpr hruns⟩
  exact hruns.mono fun _ _ hok => hok.1

/-- The first card loses its power when a second one is opened, and a card that is open twice when
it is closed once. -/
theorem sdio_card_off :
    (∃ s, Runs SdioCards.step SdioCards.Matched (.installed 100000000 128 .zero)
        [.acquire 0 sdioWaitsDone, .acquire 1 sdioWaitsDone] s ∧
      s.users 0 = 1 ∧ s.power 0 = false) ∧
    ∃ s, Runs SdioCards.step SdioCards.Matched (.installed 100000000 128 .zero)
        [.acquire 0 sdioWaitsDone, .acquire 0 sdioWaitsDone, .release 0 sdioWaitsDone] s ∧
      s.users 0 = 1 ∧ s.power 0 = false := by
  constructor <;> exact ⟨_, .of_follow rfl, by decide, by decide⟩

end Embarc
