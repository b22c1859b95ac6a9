/-
The data of a command on the SDIO host controller.

A word that the card sends is in one of three places: stored in the buffer, in the FIFO, or still
to come; together they are what the card sends.  The driver stores nothing before it has seen a
request for data, and looks for the end of the transfer first.  So the call returns with nothing
stored if the card could send everything before the driver looked, which it can if the FIFO holds
everything.  If the FIFO does not, the end cannot be seen before something was stored, and then
everything is that the driver has reckoned with: as many whole words as the number of bytes holds.

What the card takes has been in the FIFO before.  So a write that has come to its end is complete.
-/
import Embarc.DesignWare.SdioPoll

namespace Embarc

open Trace (Runs Reaches)

variable {hw : SdioHw} {fifo : List Word} {f rintsts : Word} {s : SdioSys} {job : SdioJob}
  {ev : SdioEvent} {c : Prop} {late : Bool} {pc : SdioPc} {ercd : Int} {dev : DwSdio}
  {es : List SdioEvent}

/-! ### Words in order -/

@[simp] theorem length_sdioStores (buf : Word) (words : List Word) :
    (sdioStores buf words).length = words.length := by
  simp [sdioStores]

theorem sdioStores_append (buf : Word) (a b : List Word) :
    sdioStores buf (a ++ b) =
      sdioStores buf a ++ sdioStores (buf + 4 * BitVec.ofNat 32 a.length) b := by
  have hrest : b.zipIdx a.length = b.zipIdx.map fun x => (x.1, a.length + x.2) := by
    rw [List.zipIdx_eq_map_add]
  simp only [sdioStores, List.zipIdx_append, Nat.zero_add, List.map_append, hrest, List.map_map]
  congr 1
  apply List.map_congr_left
  intro x _
  simp only [Function.comp_apply, BitVec.ofNat_add]
  rw [BitVec.add_assoc, ← BitVec.mul_add]

@[simp] theorem length_sdioWords (ram : Word → Word) (buf : Word) (count : Nat) :
    (sdioWords ram buf count).length = count := by
  simp [sdioWords]

theorem sdioWords_add (ram : Word → Word) (buf : Word) (a b : Nat) :
    sdioWords ram buf (a + b) =
      sdioWords ram buf a ++ sdioWords ram (buf + 4 * BitVec.ofNat 32 a) b := by
  simp only [sdioWords, List.range_add, List.map_append, List.map_map]
  congr 1
  apply List.map_congr_left
  intro i _
  simp only [Function.comp_apply, BitVec.ofNat_add]
  rw [BitVec.add_assoc, ← BitVec.mul_add]

theorem sdioLevel_toNat (h : fifo.length ≤ hw.depth) : (sdioLevel fifo).toNat = fifo.length := by
  have hlt := hw.depth_lt
  rw [sdioLevel, Nat.mod_eq_of_lt (by omega), BitVec.toNat_ofNat, Nat.mod_eq_of_lt (by omega)]

theorem sdioLeft {size len : Word} (h : len.toNat ≤ size.toNat) :
    ((if size > len then size - len else 0 : Word)).toNat = size.toNat - len.toNat := by
  split_ifs with hlt
  · exact BitVec.toNat_sub_of_le h
  · have : size.toNat ≤ len.toNat := Nat.le_of_not_lt hlt
    show 0 = _
    omega

/-- A word that comes in is put behind the others. -/
theorem sdioReceive_eq {word : Word} {rest : List Word} (h : s.toCome = word :: rest) :
    sdioReceive s = { s with
      fifo := s.fifo ++ [word], toCome := rest
      rintsts := if sdioRxWmark s.dev < s.fifo.length + 1 then s.rintsts ||| sdioIntRxdr
        else s.rintsts } := by
  simp only [sdioReceive, h, List.length_append, List.length_singleton]
  split <;> rfl

/-- What the controller does leaves the driver where it is. -/
structure SdioHeld (s s' : SdioSys) : Prop where
  dev : s'.dev = s.dev
  pc : s'.pc = s.pc
  stores : s'.stores = s.stores
  pushed : s'.pushed = s.pushed

theorem sdioStep_held {s' : SdioSys} (hev : ∀ look, ev ≠ .drive look)
    (hstep : sdioStep hw job s ev = .ok s') : SdioHeld s s' := by
  cases ev with try cases hstep
  | drive look => exact absurd rfl (hev look)
  | send =>
    cases hcome : s.toCome with
    | nil =>
      simp only [sdioReceive, hcome]
      exact ⟨rfl, rfl, rfl, rfl⟩
    | cons word rest =>
      rw [sdioReceive_eq hcome]
      exact ⟨rfl, rfl, rfl, rfl⟩
  | take => exact ⟨rfl, rfl, rfl, rfl⟩
  | raise bits => exact ⟨rfl, rfl, rfl, rfl⟩

theorem hasFlag_request {x : Word} [Decidable c] (h : sdioIntRxdr &&& f = 0) :
    hasFlag (if c then x ||| sdioIntRxdr else x) f = hasFlag x f := by
  split
  · exact hasFlag_or_of_disjoint h
  · rfl

theorem hasFlag_served {x : Word} [Decidable c] (h : sdioIntRxdr &&& f = 0) :
    hasFlag (if c then x &&& ~~~sdioIntRxdr else x) f = hasFlag x f := by
  split
  · exact hasFlag_clear_of_disjoint h
  · rfl

/-- A command is refused, or the transfer begins with an empty FIFO and no interrupt. -/
theorem sdioSend_cases (job : SdioJob) (s : SdioSys) :
    job.cmd.refused = true ∧ (sdioSend job s).pc = .done eSys ∨
      job.cmd.refused = false ∧ ∃ dev : DwSdio, dev.fifoDepth = s.dev.fifoDepth ∧
        dev.regs.fifoth = s.dev.regs.fifoth ∧
        sdioSend job s = { s with
          dev, rintsts := s.rintsts &&& ~~~sdioIntAll, fifo := [], pc := .command 0
          toCome := if hasFlag job.data.flags sdioDataWrite then [] else job.words
          wanted := if hasFlag job.data.flags sdioDataWrite then (job.data.bytes.toNat + 3) / 4
            else 0 } := by
  cases hrefused : job.cmd.refused with
  | true =>
    refine .inl ⟨rfl, ?_⟩
    simp only [sdioSend, dwSdioCmdSet, hrefused, if_true]
    rfl
  | false =>
    refine .inr ⟨rfl, (sdioSend job s).dev, ?_⟩
    simp only [sdioSend, dwSdioCmdSet, hrefused]
    cases hasFlag job.data.flags sdioDataWrite <;> exact ⟨rfl, rfl, rfl⟩

theorem hasFlag_cleared (x : Word) (h : sdioIntAll &&& f = f) :
    hasFlag (x &&& ~~~sdioIntAll) f ≠ true := by
  rw [hasFlag_clear_of_subset h]
  exact Bool.false_ne_true

/-- A turn of the reading loop moves `len` words, and leaves `rest` of them. -/
theorem sdioReadTurn_eq (hsome : s.fifo ≠ []) (hroom : s.fifo.length ≤ hw.depth) (buf left : Word)
    (late : Bool) :
    ∃ len rest : Word, len.toNat = min left.toNat s.fifo.length ∧
      rest.toNat = left.toNat - len.toNat ∧
      sdioReadTurn s buf left late = { s with
        stores := s.stores ++ sdioStores buf (s.fifo.take len.toNat), fifo := s.fifo.drop len.toNat
        rintsts := if rest = 0 then s.rintsts &&& ~~~sdioIntRxdr else s.rintsts
        pc := if rest = 0 then if late then .done eTmout else .data 0
          else .reading (buf + 4 * len) rest } := by
  have hmin : (capped left (sdioLevel s.fifo)).toNat = min left.toNat s.fifo.length := by
    rw [capped_toNat, sdioLevel_toNat hroom]
  refine ⟨capped left (sdioLevel s.fifo), _, hmin, sdioLeft (by omega), ?_⟩
  simp only [sdioReadTurn, if_neg hsome]
  by_cases hzero : (if left > capped left (sdioLevel s.fifo) then
      left - capped left (sdioLevel s.fifo) else 0 : Word) = 0
  · simp only [if_pos hzero, sdioTurnEnd]
  · simp only [if_neg hzero]

section Drives

variable (hw : SdioHw) (job : SdioJob) (s : SdioSys) (late : Bool)

/-- What a piece of the driver's program does. -/
inductive SdioDrives : SdioSys → Prop
  | sends (hpc : s.pc = .busy) : SdioDrives (sdioSend job s)
  | stays : SdioDrives s
  | fails {ercd : Int} (hercd : ercd ≠ eOk) : SdioDrives { s with pc := .done ercd }
  | asks {i : Nat} (hpc : s.pc = .command i) (j : Nat) : SdioDrives { s with pc := .command j }
  | begins {i : Nat} (hpc : s.pc = .command i) (resp : List Word) :
      SdioDrives { s with resp, pc := .data (job.data.bytes / 4) }
  | ends {size : Word} (hpc : s.pc = .data size) (hdto : hasFlag s.rintsts sdioIntDto = true) :
      SdioDrives { s with pc := .done eOk }
  | reads {size : Word} (hpc : s.pc = .data size) (hread : job.data.flags = sdioDataRead)
      (hsize : size ≠ 0) : SdioDrives { s with pc := .reading job.data.buf size }
  | writes {size : Word} (hpc : s.pc = .data size) (hwrite : job.data.flags = sdioDataWrite)
      (hsize : size ≠ 0) : SdioDrives { s with pc := .writing job.data.buf size }
  | readTurn {buf left : Word} (hpc : s.pc = .reading buf left) :
      SdioDrives (sdioReadTurn s buf left late)
  | writeTurn {buf left : Word} (hpc : s.pc = .writing buf left) :
      SdioDrives (sdioWriteTurn hw job s buf left late)

end Drives

theorem sdioDrive_drives (hw : SdioHw) (job : SdioJob) (s : SdioSys) (look : SdioLook) :
    SdioDrives hw job s look.late (sdioDrive hw job s look) := by
  unfold sdioDrive
  split
  · split
    · split
      · exact .fails (by decide)
      · exact .stays
    · exact .sends ‹_›
  · split
    · unfold sdioAnswered
      split
      · exact .fails (by decide)
      split
      · exact .fails (by decide)
      · exact .begins ‹_› _
    split
    · exact .fails (by decide)
    · exact .asks ‹_› _
  · unfold sdioDataTurn
    split
    · exact .fails (by decide)
    split
    · exact .ends ‹_› ‹_›
    split
    case isTrue h => exact .reads ‹_› h.1 h.2.2
    split
    case isTrue h => exact .writes ‹_› h.1 h.2.2
    unfold sdioTurnEnd
    split
    · exact .fails (by decide)
    · rename_i hpc _ _ _ _ _
      rw [← hpc]
      exact .stays
  · exact .readTurn ‹_›
  · exact .writeTurn ‹_›
  · exact .stays

/-! ### Watermarks -/

theorem sdioFifoth_rxWmark {depth : Word} (htwo : 2 ≤ depth.toNat) (hfits : depth.toNat < 2 ^ 13) :
    ((sdioFifoth depth >>> 16) &&& 0xfff).toNat = depth.toNat / 2 - 1 := by
  obtain ⟨half, hhalf⟩ : ∃ half, half = depth / 2 := ⟨_, rfl⟩
  have hnat : half.toNat = depth.toNat / 2 := by
    rw [hhalf, BitVec.toNat_udiv]
    rfl
  have hless : (half - 1).toNat = half.toNat - 1 := by bv_omega
  -- of the three fields only the receive watermark gets to the lowest bits
  have hsize : (0x2#32 <<< 28) >>> 16 &&& (0xfff : Word) = 0#32 := by decide
  have htx : half >>> 16 = 0#32 := by
    apply BitVec.eq_of_toNat_eq
    rw [BitVec.toNat_ushiftRight, Nat.shiftRight_eq_div_pow]
    exact Nat.div_eq_of_lt (by omega)
  have hrx : ((half - 1) <<< 16) >>> 16 = half - 1 := by
    apply BitVec.eq_of_toNat_eq
    rw [BitVec.toNat_ushiftRight, BitVec.toNat_shiftLeft, hless, Nat.shiftRight_eq_div_pow,
      Nat.shiftLeft_eq]
    omega
  rw [sdioFifoth, ← hhalf, BitVec.ushiftRight_or_distrib, BitVec.ushiftRight_or_distrib, htx, hrx,
    BitVec.or_zero, BitVec.and_or_distrib_right, hsize, BitVec.zero_or, BitVec.toNat_and, hless]
  show (half.toNat - 1) &&& (2 ^ 12 - 1) = _
  rw [Nat.and_two_pow_sub_one_eq_mod]
  omega

/-- The watermarks are those of the FIFO's depth. -/
def DwSdio.Marked (s : DwSdio) : Prop := s.regs.fifoth = sdioFifoth s.fifoDepth

theorem dwSdioBusFreqSet_marked {s : DwSdio} (h : s.Marked) (card freq : Word)
    (waits : SdioClkWaits) : (dwSdioBusFreqSet s card freq waits).2.Marked := by
  simp only [dwSdioBusFreqSet]
  split <;> exact h

theorem dwSdioControl_marked {s : DwSdio} (h : s.Marked) (card : Word) (waits : SdioClkWaits)
    (ctrl : SdioCtrl) : (dwSdioControl s card waits ctrl).2.Marked := by
  cases ctrl with
  | setBusWidth param => exact h
  | setBusFreq param => exact dwSdioBusFreqSet_marked h card param waits
  | other => exact h

/-- The first user's open programs the watermarks, and a further one leaves them. -/
theorem dwSdioOpen_marked {s : DwSdio} (h : s.opnCnt > 0 → s.Marked) (card : Word)
    (waits : SdioWaits) : (dwSdioOpen s card waits).2.Marked := by
  by_cases hopen : s.opnCnt > 0
  · have hmarked : (dwSdioReset (dwSdioPowerOn s card) card).Marked := h hopen
    rw [dwSdioOpen, if_pos hopen]
    exact dwSdioBusFreqSet_marked hmarked card sdioEnumerationFreq waits.clk
  · rw [dwSdioOpen, if_neg hopen]
    rfl

theorem sdioSend_marked (h : s.dev.Marked) : (sdioSend job s).dev.Marked := by
  simp only [sdioSend, dwSdioCmdSet]
  split <;> split
  · exact h
  · split <;> exact h
  · exact h
  · split <;> exact h

theorem SdioDrives.marked {s' : SdioSys} (hdrive : SdioDrives hw job s late s') (h : s.dev.Marked) :
    s'.dev.Marked := by
  cases hdrive with
  | sends => exact sdioSend_marked h
  | readTurn =>
    simp only [sdioReadTurn, sdioTurnEnd]
    grind
  | writeTurn =>
    simp only [sdioWriteTurn, sdioTurnEnd]
    grind
  | _ => exact h

theorem sdioStep_marked {s' : SdioSys} (h : s.dev.Marked) (hstep : sdioStep hw job s ev = .ok s') :
    s'.dev.Marked := by
  cases ev with
  | drive look =>
    cases hstep
    exact (sdioDrive_drives hw job s look).marked h
  | send | take | raise =>
    rw [(sdioStep_held (by simp) hstep).dev]
    exact h

theorem dwSdioClose_marked {s : DwSdio} (h : s.Marked) (card : Word) (waits : SdioWaits) :
    (dwSdioClose s card waits).2.Marked := by
  simp only [dwSdioClose]
  split <;> exact h

/-- The device is open, and was used in any way since. -/
inductive DwSdio.InUse : DwSdio → Prop
  | opened {s : DwSdio} (h : s.opnCnt = 0) (card : Word) (waits : SdioWaits) :
      InUse (dwSdioOpen s card waits).2
  | openedAgain {s : DwSdio} (h : s.InUse) (card : Word) (waits : SdioWaits) :
      InUse (dwSdioOpen s card waits).2
  | closedByOne {s : DwSdio} (h : s.InUse) (hmore : s.opnCnt ≠ 1) (card : Word)
      (waits : SdioWaits) : InUse (dwSdioClose s card waits).2
  | controlled {s : DwSdio} (h : s.InUse) (card : Word) (waits : SdioClkWaits) (ctrl : SdioCtrl) :
      InUse (dwSdioControl s card waits ctrl).2
  | called {hw : SdioHw} {job : SdioJob} {dev : DwSdio} {rintsts : Word} {fifo resp : List Word}
      {es : List SdioEvent} {s : SdioSys} (h : dev.InUse)
      (hruns : Runs (sdioStep hw job) (SdioHwOk hw) (.start dev rintsts fifo resp) es s) :
      InUse s.dev

theorem DwSdio.InUse.marked {s : DwSdio} (h : s.InUse) : s.Marked := by
  induction h with
  | opened hcnt card waits =>
    refine dwSdioOpen_marked (fun hopen => ?_) card waits
    rw [hcnt] at hopen
    exact absurd hopen (by decide)
  | openedAgain _ card waits ih => exact dwSdioOpen_marked (fun _ => ih) card waits
  | closedByOne _ _ card waits ih => exact dwSdioClose_marked ih card waits
  | controlled _ card waits ctrl ih => exact dwSdioControl_marked ih card waits ctrl
  | called _ hruns ih =>
    exact hruns.invariant (I := fun s => s.dev.Marked)
      (fun s e s' hs _ hstep => sdioStep_marked hs hstep) ih

theorem DwSdio.Marked.rxWmark_lt {s : DwSdio} (h : s.Marked) (hdepth : s.fifoDepth.toNat = hw.depth)
    (htwo : 2 ≤ hw.depth) : sdioRxWmark s < hw.depth := by
  have hlt := hw.depth_lt
  rw [sdioRxWmark, h, sdioFifoth_rxWmark (by omega) (by omega)]
  omega

/-! ### Reading -/

section Read

variable {hw : SdioHw} {job : SdioJob} {s s' : SdioSys}

/-- A call that has not begun, has failed, or is under way. -/
def SdioCall (before underway : SdioSys → Prop) (s : SdioSys) : Prop :=
  s.pc = .busy ∧ before s ∨ (∃ ercd, s.pc = .done ercd ∧ ercd ≠ eOk) ∨ underway s

/-- A step, in either direction: only sending the command and what is under way differ. -/
theorem SdioCall.step {before underway : SdioSys → Prop} (h : SdioCall before underway s)
    (hstep : sdioStep hw job s ev = .ok s')
    (hsend : before s → SdioCall before underway (sdioSend job s))
    (hsame : before s → SdioHeld s s' → before s')
    (hdrive : ∀ {late}, underway s → SdioDrives hw job s late s' → underway s')
    (hhardware : underway s → (∀ look, ev ≠ .drive look) → underway s') :
    SdioCall before underway s' := by
  by_cases hev : ∃ look, ev = .drive look
  · obtain ⟨look, rfl⟩ := hev
    cases hstep
    obtain ⟨hpc, hbefore⟩ | ⟨ercd, hpc, hercd⟩ | hunder := h
    · simp only [sdioDrive, hpc]
      split
      · split
        · exact .inr (.inl ⟨eTmout, rfl, by decide⟩)
        · exact .inl ⟨hpc, hbefore⟩
      · exact hsend hbefore
    · simp only [sdioDrive, hpc]
      exact .inr (.inl ⟨ercd, hpc, hercd⟩)
    · exact .inr (.inr (hdrive hunder (sdioDrive_drives hw job s look)))
  · have hev : ∀ look, ev ≠ .drive look := not_exists.mp hev
    have hheld := sdioStep_held hev hstep
    obtain ⟨hpc, hbefore⟩ | ⟨ercd, hpc, hercd⟩ | hunder := h
    · exact .inl ⟨hheld.pc.trans hpc, hsame hbefore hheld⟩
    · exact .inr (.inl ⟨ercd, hheld.pc.trans hpc, hercd⟩)
    · exact .inr (.inr (hhardware hunder hev))

/-- How many words the driver reckons with. -/
def SdioJob.size (job : SdioJob) : Nat := (job.data.bytes / 4).toNat

/-- Where the driver is when it has stored the words `got`. -/
def SdioReadPlace (hw : SdioHw) (job : SdioJob) (got : List Word) : SdioPc → Prop
  | .command _ => got = []
  | .data size => size = job.data.bytes / 4 ∧ got = [] ∨ size = 0 ∧ got.length = job.size
  | .reading buf left => left ≠ 0 ∧ buf = job.data.buf + 4 * BitVec.ofNat 32 got.length ∧
      left.toNat + got.length = job.size
  | .done ercd => ercd = eOk →
      got.length = job.size ∨ got = [] ∧ job.words.length ≤ hw.depth
  | .busy | .writing _ _ => False

structure SdioReads (hw : SdioHw) (job : SdioJob) (got : List Word) (s : SdioSys) : Prop where
  stores : s.stores = sdioStores job.data.buf got
  words : job.words = got ++ s.fifo ++ s.toCome
  room : s.fifo.length ≤ hw.depth
  takesNone : s.wanted = 0
  ended : hasFlag s.rintsts sdioIntDto = true → s.toCome = []
  place : SdioReadPlace hw job got s.pc

def SdioReadInv (hw : SdioHw) (job : SdioJob) : SdioSys → Prop :=
  SdioCall (fun s => s.stores = []) fun s => ∃ got, SdioReads hw job got s

theorem sdioSend_reads (hread : job.data.flags = sdioDataRead) (hs : s.stores = []) :
    SdioReadInv hw job (sdioSend job s) := by
  have hdir : hasFlag job.data.flags sdioDataWrite = false := by
    rw [hread]
    decide
  obtain ⟨-, hpc⟩ | ⟨-, dev, -, -, hsend⟩ := sdioSend_cases job s
  · exact .inr (.inl ⟨eSys, hpc, by decide⟩)
  · rw [hsend, hdir]
    exact .inr (.inr ⟨[], hs, rfl, Nat.zero_le _, rfl,
      fun hdto => absurd hdto (hasFlag_cleared _ (by decide)), rfl⟩)

namespace SdioReads

variable {got : List Word}

section
variable (h : SdioReads hw job got s)
include h

theorem atPc (hpc : s.pc = pc) : SdioReadPlace hw job got pc :=
  hpc ▸ h.place

theorem moved (hpc : SdioReadPlace hw job got pc) : SdioReads hw job got { s with pc } :=
  { h with place := hpc }

theorem failed (hercd : ercd ≠ eOk) : SdioReads hw job got { s with pc := .done ercd } :=
  h.moved fun hc => absurd hc hercd

theorem readTurn {buf left : Word} (hplace : SdioReadPlace hw job got (.reading buf left))
    (late : Bool) : ∃ got, SdioReads hw job got (sdioReadTurn s buf left late) := by
  obtain ⟨-, hbuf, hsum⟩ := hplace
  by_cases hsome : s.fifo = []
  · rw [sdioReadTurn, if_pos hsome]
    exact ⟨got, h⟩
  obtain ⟨len, rest, hlen, hrest, hturn⟩ := sdioReadTurn_eq hsome h.room buf left late
  have htaken : (s.fifo.take len.toNat).length = len.toNat := by
    rw [List.length_take]
    omega
  have hgot : (got ++ s.fifo.take len.toNat).length = got.length + len.toNat := by
    rw [List.length_append, htaken]
  rw [hturn]
  refine ⟨got ++ s.fifo.take len.toNat, ?_, ?_, ?_, h.takesNone, fun hdto => h.ended ?_, ?_⟩
  · rw [sdioStores_append, h.stores, hbuf]
  · rw [List.append_assoc got, List.take_append_drop]
    exact h.words
  · have hroom := h.room
    rw [List.length_drop]
    omega
  · exact (hasFlag_served (by decide)).symm.trans hdto
  · by_cases hzero : rest = 0
    · rw [if_pos hzero]
      have hnone : rest.toNat = 0 := congrArg BitVec.toNat hzero
      cases late with
      | true => exact fun hc => absurd hc (by decide)
      | false => exact .inr ⟨rfl, by omega⟩
    · rw [if_neg hzero]
      refine ⟨hzero, ?_, ?_⟩
      · rw [hgot, hbuf, BitVec.add_assoc, ← BitVec.mul_add, BitVec.ofNat_add]
        simp
      · rw [hrest, hgot]
        omega

end

theorem drive (hread : job.data.flags = sdioDataRead) (h : SdioReads hw job got s)
    (hdrive : SdioDrives hw job s late s') : ∃ got, SdioReads hw job got s' := by
  cases hdrive with
  | sends hpc => exact absurd (h.atPc hpc) id
  | stays => exact ⟨got, h⟩
  | fails hercd => exact ⟨got, h.failed hercd⟩
  | asks hpc => exact ⟨got, h.moved (show got = [] from h.atPc hpc)⟩
  | begins hpc =>
    exact ⟨got, h.stores, h.words, h.room, h.takesNone, h.ended, .inl ⟨rfl, h.atPc hpc⟩⟩
  | ends hpc hdto =>
    refine ⟨got, h.moved fun _ => ?_⟩
    obtain ⟨-, hgot⟩ | ⟨-, hall⟩ := h.atPc hpc
    · -- nothing was stored, and all that the card has sent is in the FIFO
      have hwords := h.words
      rw [hgot, h.ended hdto, List.nil_append, List.append_nil] at hwords
      exact .inr ⟨hgot, hwords ▸ h.room⟩
    · exact .inl hall
  | reads hpc _ hsize =>
    obtain ⟨rfl, rfl⟩ | ⟨hzero, -⟩ := h.atPc hpc
    · exact ⟨[], h.moved ⟨hsize, by simp, rfl⟩⟩
    · exact absurd hzero hsize
  | writes _ hwrite => exact absurd (hread.symm.trans hwrite) (by decide)
  | readTurn hpc => exact h.readTurn (h.atPc hpc) late
  | writeTurn hpc => exact absurd (h.atPc hpc) id

theorem hardware (h : SdioReads hw job got s) (hok : SdioHwOk hw s ev)
    (hev : ∀ look, ev ≠ .drive look) (hstep : sdioStep hw job s ev = .ok s') :
    SdioReads hw job got s' := by
  cases ev with
  | drive look => exact absurd rfl (hev look)
  | send =>
    obtain ⟨hsome, hroom⟩ := hok
    obtain ⟨word, rest, hcome⟩ := List.exists_cons_of_ne_nil hsome
    cases (Except.ok.inj hstep).symm.trans (sdioReceive_eq hcome)
    refine ⟨h.stores, ?_, ?_, h.takesNone, fun hdto => ?_, h.place⟩
    · rw [h.words, hcome]
      simp
    · rw [List.length_append, List.length_singleton]
      exact hroom
    · rw [hasFlag_request (by decide)] at hdto
      exact absurd (h.ended hdto) hsome
  | take => exact absurd h.takesNone hok.1
  | raise bits =>
    cases hstep
    refine { h with ended := fun hdto => ?_ }
    rw [hasFlag_or, Bool.or_eq_true] at hdto
    exact hdto.elim h.ended fun hbits => (hok.1 hbits).1

end SdioReads

theorem SdioReadInv.step (hread : job.data.flags = sdioDataRead) (h : SdioReadInv hw job s)
    (hok : SdioHwOk hw s ev) (hstep : sdioStep hw job s ev = .ok s') : SdioReadInv hw job s' :=
  SdioCall.step h hstep (sdioSend_reads hread) (fun hs hheld => hheld.stores.trans hs)
    (fun ⟨_, hgot⟩ hdrive => hgot.drive hread hdrive)
    fun ⟨got, hgot⟩ hev => ⟨got, hgot.hardware hok hev hstep⟩

/-- When a read returns `E_OK` everything was stored that the driver reckons with, or nothing was and
the FIFO holds all the words. -/
theorem sdioRead_done (hread : job.data.flags = sdioDataRead) {resp : List Word}
    (h : Runs (sdioStep hw job) (SdioHwOk hw) (.start dev rintsts fifo resp) es s)
    (hdone : s.pc = .done eOk) :
    ∃ got, s.stores = sdioStores job.data.buf got ∧ got <+: job.words ∧
      (got.length = job.size ∨ got = [] ∧ job.words.length ≤ hw.depth) := by
  have hinv := h.invariant (I := SdioReadInv hw job)
    (fun s e s' hs hok hstep => hs.step hread hok hstep) (.inl ⟨rfl, rfl⟩)
  obtain ⟨hpc, -⟩ | ⟨ercd, hpc, hercd⟩ | ⟨got, hgot⟩ := hinv
  · cases hdone.symm.trans hpc
  · cases hdone.symm.trans hpc
    exact absurd rfl hercd
  · refine ⟨got, hgot.stores, ?_, hgot.atPc hdone rfl⟩
    rw [hgot.words, List.append_assoc]
    exact List.prefix_append _ _

/-- What is stored is the beginning of what the card sends, and no more than is reckoned with. -/
def SdioInBuffer (job : SdioJob) (s : SdioSys) : Prop :=
  ∃ got, s.stores = sdioStores job.data.buf got ∧ got <+: job.words ∧ got.length ≤ job.size

namespace SdioInBuffer

theorem readTurn {got : List Word} {buf left : Word} (h : SdioReads hw job got s)
    (hpc : s.pc = .reading buf left) (late : Bool) :
    SdioInBuffer job (sdioReadTurn s buf left late) := by
  obtain ⟨got', h'⟩ := h.readTurn (h.atPc hpc) late
  obtain ⟨-, -, hsum⟩ := h.atPc hpc
  refine ⟨got', h'.stores, ⟨_, (List.append_assoc ..).symm.trans h'.words.symm⟩, ?_⟩
  have hold : s.stores.length = got.length := by rw [h.stores, length_sdioStores]
  rw [← length_sdioStores job.data.buf got', ← h'.stores]
  by_cases hsome : s.fifo = []
  · rw [sdioReadTurn, if_pos hsome]
    omega
  · obtain ⟨len, rest, hlen, -, hturn⟩ := sdioReadTurn_eq hsome h.room buf left late
    rw [hturn, List.length_append, length_sdioStores, List.length_take]
    omega

theorem drive (hinv : SdioReadInv hw job s) (h : SdioInBuffer job s)
    (hdrive : SdioDrives hw job s late s') : SdioInBuffer job s' := by
  cases hdrive with
  | sends =>
    have hsame : (sdioSend job s).stores = s.stores := by
      simp only [sdioSend]
      split_ifs <;> rfl
    rwa [SdioInBuffer, hsame]
  | readTurn hpc =>
    obtain ⟨hpc', -⟩ | ⟨_, hpc', -⟩ | ⟨got, hgot⟩ := hinv
    · cases hpc.symm.trans hpc'
    · cases hpc.symm.trans hpc'
    · exact readTurn hgot hpc late
  | writeTurn hpc =>
    obtain ⟨hpc', -⟩ | ⟨_, hpc', -⟩ | ⟨got, hgot⟩ := hinv
    · cases hpc.symm.trans hpc'
    · cases hpc.symm.trans hpc'
    · exact absurd (hgot.atPc hpc) id
  | _ => exact h

theorem step (hinv : SdioReadInv hw job s) (h : SdioInBuffer job s)
    (hstep : sdioStep hw job s ev = .ok s') : SdioInBuffer job s' := by
  by_cases hev : ∃ look, ev = .drive look
  · obtain ⟨look, rfl⟩ := hev
    cases hstep
    exact drive hinv h (sdioDrive_drives hw job s look)
  · rwa [SdioInBuffer, (sdioStep_held (not_exists.mp hev) hstep).stores]

end SdioInBuffer

end Read

/-! ### Writing -/

section Write

variable {hw : SdioHw} {job : SdioJob} {s s' : SdioSys}

/-- Where the driver is when `count` words were pushed. -/
def SdioWritePlace (job : SdioJob) (wanted count : Nat) : SdioPc → Prop
  | .command _ => count = 0
  | .data size => size = job.data.bytes / 4 ∧ count = 0 ∨ size = 0 ∧ count = job.size
  | .writing buf left => left ≠ 0 ∧ buf = job.data.buf + 4 * BitVec.ofNat 32 count ∧
      left.toNat + count = job.size
  | .done ercd => count ≤ job.size ∧ (ercd = eOk → wanted = 0)
  | .busy | .reading _ _ => False

theorem SdioWritePlace.le {job : SdioJob} {wanted count : Nat}
    (h : SdioWritePlace job wanted count pc) : count ≤ job.size := by
  cases pc with
  | busy | reading => exact absurd h id
  | command => exact (show count = 0 from h) ▸ Nat.zero_le _
  | data size =>
    obtain ⟨-, hzero⟩ | ⟨-, hall⟩ := h
    · exact hzero ▸ Nat.zero_le _
    · exact hall.le
  | writing buf left =>
    obtain ⟨-, -, hsum⟩ := h
    omega
  | done => exact h.1

theorem SdioWritePlace.taken {job : SdioJob} {wanted count : Nat}
    (h : SdioWritePlace job wanted count pc) : SdioWritePlace job (wanted - 1) count pc := by
  cases pc with
  | done => exact ⟨h.1, fun hc => by rw [h.2 hc]⟩
  | _ => exact h

structure SdioWrites (hw : SdioHw) (job : SdioJob) (s : SdioSys) : Prop where
  depth : s.dev.fifoDepth.toNat = hw.depth
  pushed : s.pushed = sdioWords job.ram job.data.buf s.pushed.length
  balance : s.pushed.length + s.wanted = s.fifo.length + (job.data.bytes.toNat + 3) / 4
  room : s.fifo.length ≤ hw.depth
  sendsNone : s.toCome = []
  ended : hasFlag s.rintsts sdioIntDto = true → s.wanted = 0
  place : SdioWritePlace job s.wanted s.pushed.length s.pc

def SdioWriteInv (hw : SdioHw) (job : SdioJob) : SdioSys → Prop :=
  SdioCall (fun s => s.pushed = [] ∧ s.dev.fifoDepth.toNat = hw.depth) (SdioWrites hw job)

theorem sdioSend_writes (hwrite : job.data.flags = sdioDataWrite)
    (hs : s.pushed = [] ∧ s.dev.fifoDepth.toNat = hw.depth) :
    SdioWriteInv hw job (sdioSend job s) := by
  obtain ⟨hs, hdepth⟩ := hs
  have hdir : hasFlag job.data.flags sdioDataWrite = true := by
    rw [hwrite]
    decide
  obtain ⟨-, hpc⟩ | ⟨-, dev, hdev, -, hsend⟩ := sdioSend_cases job s
  · exact .inr (.inl ⟨eSys, hpc, by decide⟩)
  · rw [hsend, hdir, hs]
    exact .inr (.inr ⟨hdev ▸ hdepth, rfl, rfl, Nat.zero_le _, rfl,
      fun hdto => absurd hdto (hasFlag_cleared _ (by decide)), rfl⟩)

namespace SdioWrites

section
variable (h : SdioWrites hw job s)
include h

theorem atPc (hpc : s.pc = pc) : SdioWritePlace job s.wanted s.pushed.length pc :=
  hpc ▸ h.place

theorem moved (hpc : SdioWritePlace job s.wanted s.pushed.length pc) :
    SdioWrites hw job { s with pc } :=
  { h with place := hpc }

theorem failed (hercd : ercd ≠ eOk) : SdioWrites hw job { s with pc := .done ercd } :=
  h.moved ⟨h.place.le, fun hc => absurd hc hercd⟩

theorem writeTurn {buf left : Word}
    (hplace : SdioWritePlace job s.wanted s.pushed.length (.writing buf left)) (late : Bool) :
    SdioWrites hw job (sdioWriteTurn hw job s buf left late) := by
  obtain ⟨hleft, hbuf, hsum⟩ := hplace
  simp only [sdioWriteTurn]
  split
  · exact h
  case isFalse hroom =>
    have hlevel : (sdioLevel s.fifo).toNat = s.fifo.length := sdioLevel_toNat h.room
    have hdepth := h.depth
    have hfree : (s.dev.fifoDepth - sdioLevel s.fifo).toNat = hw.depth - s.fifo.length := by
      rw [BitVec.toNat_sub_of_le (by rw [BitVec.le_def, hlevel, hdepth]; exact h.room), hlevel, hdepth]
    obtain ⟨len, hlen⟩ : ∃ len, len = capped left (s.dev.fifoDepth - sdioLevel s.fifo) := ⟨_, rfl⟩
    have hmin : len.toNat = min left.toNat (hw.depth - s.fifo.length) := by
      rw [hlen, capped_toNat, hfree]
    obtain ⟨words, hwords⟩ : ∃ words, words = sdioWords job.ram buf len.toNat := ⟨_, rfl⟩
    have hlength : words.length = len.toNat := by rw [hwords, length_sdioWords]
    have hfits : (s.fifo ++ words).take hw.depth = s.fifo ++ words := by
      apply List.take_of_length_le
      rw [List.length_append, hlength]
      omega
    have hnext : ∀ {rintsts : Word} {pc : SdioPc},
        hasFlag rintsts sdioIntDto = hasFlag s.rintsts sdioIntDto →
        SdioWritePlace job s.wanted (s.pushed ++ words).length pc →
        SdioWrites hw job { s with
          pushed := s.pushed ++ words, fifo := s.fifo ++ words, rintsts, pc } := by
      intro rintsts pc hdto hplace
      refine ⟨hdepth, ?_, ?_, ?_, h.sendsNone, fun hc => h.ended (hdto ▸ hc), hplace⟩
      · rw [List.length_append, hlength, sdioWords_add, ← h.pushed, hwords, hbuf]
      · have hbalance := h.balance
        simp only [List.length_append]
        omega
      · rw [List.length_append, hlength]
        omega
    have hkept : hasFlag (s.rintsts &&& ~~~sdioIntTxdr) sdioIntDto = hasFlag s.rintsts sdioIntDto :=
      hasFlag_clear_of_disjoint (by decide)
    obtain ⟨rest, hrest⟩ : ∃ rest : Word, rest = if left > len then left - len else 0 := ⟨_, rfl⟩
    have hcount : rest.toNat = left.toNat - len.toNat := by
      rw [hrest]
      exact sdioLeft (by omega)
    have hnow : (s.pushed ++ words).length = s.pushed.length + len.toNat := by
      rw [List.length_append, hlength]
    rw [← hlen, ← hwords, ← hrest, hfits]
    split_ifs with hzero
    · rw [hzero] at hcount
      have hall : (s.pushed ++ words).length = job.size := by
        have : 0 = left.toNat - len.toNat := hcount
        omega
      cases late with
      | true => exact hnext hkept ⟨hall.le, fun hc => absurd hc (by decide)⟩
      | false => exact hnext hkept (.inr ⟨rfl, hall⟩)
    · refine hnext rfl ⟨hzero, ?_, ?_⟩
      · rw [hnow, hbuf, BitVec.add_assoc, ← BitVec.mul_add, BitVec.ofNat_add]
        simp
      · rw [hcount, hnow]
        omega

end

theorem drive (hwrite : job.data.flags = sdioDataWrite) (h : SdioWrites hw job s)
    (hdrive : SdioDrives hw job s late s') : SdioWrites hw job s' := by
  cases hdrive with
  | sends hpc => exact absurd (h.atPc hpc) id
  | stays => exact h
  | fails hercd => exact h.failed hercd
  | asks hpc => exact h.moved (show s.pushed.length = 0 from h.atPc hpc)
  | begins hpc => exact { h with place := .inl ⟨rfl, h.atPc hpc⟩ }
  | ends _ hdto => exact h.moved ⟨h.place.le, fun _ => h.ended hdto⟩
  | reads _ hread => exact absurd (hwrite.symm.trans hread) (by decide)
  | writes hpc _ hsize =>
    obtain ⟨rfl, hnone⟩ | ⟨hzero, -⟩ := h.atPc hpc
    · refine h.moved ⟨hsize, ?_, ?_⟩
      · simp [hnone]
      · rw [hnone]
        rfl
    · exact absurd hzero hsize
  | readTurn hpc => exact absurd (h.atPc hpc) id
  | writeTurn hpc => exact h.writeTurn (h.atPc hpc) late

theorem hardware (h : SdioWrites hw job s) (hok : SdioHwOk hw s ev) (hev : ∀ look, ev ≠ .drive look)
    (hstep : sdioStep hw job s ev = .ok s') : SdioWrites hw job s' := by
  cases ev with
  | drive look => exact absurd rfl (hev look)
  | send => exact absurd h.sendsNone hok.1
  | take =>
    cases hstep
    obtain ⟨hwanted, hsome⟩ := hok
    have hlength : 0 < s.fifo.length := List.length_pos_iff.mpr hsome
    refine ⟨h.depth, h.pushed, ?_, ?_, h.sendsNone, fun hdto => absurd (h.ended hdto) hwanted, ?_⟩
    · have hbalance := h.balance
      simp only [sdioTransmit, List.length_drop]
      omega
    · have hroom := h.room
      simp only [sdioTransmit, List.length_drop]
      omega
    · exact h.place.taken
  | raise bits =>
    cases hstep
    refine { h with ended := fun hdto => ?_ }
    rw [hasFlag_or, Bool.or_eq_true] at hdto
    exact hdto.elim h.ended fun hbits => (hok.1 hbits).2

end SdioWrites

theorem SdioWriteInv.step (hwrite : job.data.flags = sdioDataWrite) (h : SdioWriteInv hw job s)
    (hok : SdioHwOk hw s ev) (hstep : sdioStep hw job s ev = .ok s') : SdioWriteInv hw job s' :=
  SdioCall.step h hstep (sdioSend_writes hwrite)
    (fun hs hheld => ⟨hheld.pushed.trans hs.1, hheld.dev ▸ hs.2⟩)
    (fun hwrites hdrive => hwrites.drive hwrite hdrive)
    fun hwrites hev => hwrites.hardware hok hev hstep

/-- When a write returns `E_OK` the number of bytes is a multiple of four, and all words were
pushed. -/
theorem sdioWrite_done (hwrite : job.data.flags = sdioDataWrite)
    (hdepth : dev.fifoDepth.toNat = hw.depth) {resp : List Word}
    (h : Runs (sdioStep hw job) (SdioHwOk hw) (.start dev rintsts fifo resp) es s)
    (hdone : s.pc = .done eOk) :
    s.pushed = sdioWords job.ram job.data.buf s.pushed.length ∧
      4 * s.pushed.length = job.data.bytes.toNat := by
  have hinv := h.invariant (I := SdioWriteInv hw job)
    (fun s e s' hs hok hstep => hs.step hwrite hok hstep) (.inl ⟨rfl, rfl, hdepth⟩)
  obtain ⟨hpc, -⟩ | ⟨ercd, hpc, hercd⟩ | hwrites := hinv
  · cases hdone.symm.trans hpc
  · cases hdone.symm.trans hpc
    exact absurd rfl hercd
  · obtain ⟨hle, hwanted⟩ := hwrites.atPc hdone
    have hbalance := hwrites.balance
    have hsize : job.size = job.data.bytes.toNat / 4 := BitVec.toNat_udiv ..
    exact ⟨hwrites.pushed, by omega⟩

end Write

/-! ### Reads that return `E_OK` -/

section Reached

variable {hw : SdioHw} {job : SdioJob} {s : SdioSys}

theorem SdioHeld.trans {s s₁ s₂ : SdioSys} (h : SdioHeld s s₁) (h' : SdioHeld s₁ s₂) :
    SdioHeld s s₂ :=
  ⟨h'.dev.trans h.dev, h'.pc.trans h.pc, h'.stores.trans h.stores, h'.pushed.trans h.pushed⟩

/-- Neither an error nor the end was raised. -/
structure SdioCalm (s : SdioSys) : Prop where
  good : hasFlag s.rintsts sdioIntDataFailed = false
  goesOn : hasFlag s.rintsts sdioIntDto = false
  takesNone : s.wanted = 0

def sdioLookFree : SdioLook where
  busy := false
  late := false
  resp := fun _ => 0

/-- The card sends `k` words, which are requested to be read if they are enough. -/
theorem sdio_sends (hcalm : SdioCalm s) (k : Nat) (hk : k ≤ s.toCome.length)
    (hroom : s.fifo.length + k ≤ hw.depth) :
    Reaches (sdioStep hw job) (SdioHwOk hw) s fun s' => SdioHeld s s' ∧ SdioCalm s' ∧
      s'.fifo.length = s.fifo.length + k ∧ s'.toCome.length + k = s.toCome.length ∧
      (k ≠ 0 → sdioRxWmark s.dev < s'.fifo.length → hasFlag s'.rintsts sdioIntRxdr = true) := by
  induction k with
  | zero => exact .here ⟨⟨rfl, rfl, rfl, rfl⟩, hcalm, rfl, rfl, fun hc => absurd rfl hc⟩
  | succ k ih =>
    refine (ih (by omega) (by omega)).bind fun s₁ ⟨hheld, hcalm₁, hfifo, hcome, _⟩ => ?_
    have hsome : s₁.toCome ≠ [] := List.length_pos_iff.mp (by omega)
    obtain ⟨word, rest, hcons⟩ := List.exists_cons_of_ne_nil hsome
    have hstep : sdioStep hw job s₁ .send = .ok (sdioReceive s₁) := rfl
    have hok : SdioHwOk hw s₁ .send := ⟨hsome, by omega⟩
    refine .after hok hstep (.here ?_)
    refine ⟨hheld.trans (sdioStep_held (by simp) hstep), ?_⟩
    rw [hcons, List.length_cons] at hcome
    rw [sdioReceive_eq hcons]
    refine ⟨⟨?_, ?_, hcalm₁.takesNone⟩, ?_, ?_, fun _ hmark => ?_⟩
    · exact (hasFlag_request (by decide)).trans hcalm₁.good
    · exact (hasFlag_request (by decide)).trans hcalm₁.goesOn
    · rw [List.length_append, List.length_singleton]
      omega
    · show rest.length + (k + 1) = s.toCome.length
      omega
    · rw [List.length_append, List.length_singleton] at hmark
      show hasFlag (if _ then _ else _) _ = true
      rw [hheld.dev, if_pos hmark]
      exact hasFlag_or_self _ (by decide)

/-- When the card has sent everything the end is raised, and the call returns. -/
theorem sdio_over {size : Word} (hcalm : SdioCalm s) (hpc : s.pc = .data size) (hcome : s.toCome = []) :
    Reaches (sdioStep hw job) (SdioHwOk hw) s fun s' => s'.pc = .done eOk ∧ s'.stores = s.stores := by
  have hok : SdioHwOk hw s (.raise sdioIntDto) :=
    ⟨fun _ => ⟨hcome, hcalm.takesNone⟩, fun hc => absurd hc (by decide),
      fun hc => absurd hc (by decide)⟩
  have hgood : hasFlag (s.rintsts ||| sdioIntDto) sdioIntDataFailed = false :=
    (hasFlag_or_of_disjoint (by decide)).trans hcalm.good
  have hdto : hasFlag (s.rintsts ||| sdioIntDto) sdioIntDto = true := hasFlag_or_self _ (by decide)
  have hlook : SdioHwOk hw { s with rintsts := s.rintsts ||| sdioIntDto } (.drive sdioLookFree) :=
    trivial
  refine .after hok rfl (.after hlook rfl (.here ?_))
  simp only [sdioDrive, hpc, sdioDataTurn, hgood, hdto, if_true]
  exact ⟨rfl, rfl⟩

theorem sdio_reading (hdepth : 0 < hw.depth) {buf left : Word} (hleft : left ≠ 0)
    (hpc : s.pc = .reading buf left) (hcalm : SdioCalm s) (hroom : s.fifo.length ≤ hw.depth)
    (hcount : left.toNat ≤ s.fifo.length + s.toCome.length) :
    Reaches (sdioStep hw job) (SdioHwOk hw) s fun s' => s'.pc = .data 0 ∧ SdioCalm s' ∧
      s'.fifo.length + s'.toCome.length + left.toNat = s.fifo.length + s.toCome.length := by
  obtain ⟨n, hn⟩ : ∃ n, n = left.toNat := ⟨_, rfl⟩
  induction n using Nat.strong_induction_on generalizing s buf left with
  | _ n ih =>
    have hpos : 0 < left.toNat := Nat.pos_of_ne_zero fun hc => hleft (BitVec.eq_of_toNat_eq hc)
    -- first there has to be a word
    have hword : Reaches (sdioStep hw job) (SdioHwOk hw) s fun s' => s'.pc = s.pc ∧ SdioCalm s' ∧
        s'.fifo ≠ [] ∧ s'.fifo.length ≤ hw.depth ∧
        s'.fifo.length + s'.toCome.length = s.fifo.length + s.toCome.length := by
      by_cases hsome : s.fifo = []
      · rw [hsome, List.length_nil] at hcount
        refine (sdio_sends hcalm 1 (by omega) (by rw [hsome]; exact hdepth)).bind
          fun s₁ ⟨hheld, hcalm₁, hfifo, hcome, _⟩ => .here ⟨hheld.pc, hcalm₁, ?_, ?_, ?_⟩
        · exact List.length_pos_iff.mp (by omega)
        · rw [hfifo, hsome]
          exact hdepth
        · omega
      · exact .here ⟨rfl, hcalm, hsome, hroom, rfl⟩
    refine hword.bind fun s₁ ⟨hpc₁, hcalm₁, hsome, hroom₁, hsum⟩ => ?_
    obtain ⟨len, rest, hlen, hrest, hturn⟩ := sdioReadTurn_eq hsome hroom₁ buf left false
    have hlength : 0 < s₁.fifo.length := List.length_pos_iff.mpr hsome
    have hdrive : sdioStep hw job s₁ (.drive sdioLookFree) = .ok (sdioReadTurn s₁ buf left false) := by
      simp only [sdioStep, sdioDrive, hpc₁, hpc]
      rfl
    have hlook : SdioHwOk hw s₁ (.drive sdioLookFree) := trivial
    refine .after hlook hdrive ?_
    obtain ⟨s₂, hs₂⟩ : ∃ s₂, s₂ = sdioReadTurn s₁ buf left false := ⟨_, rfl⟩
    have hfifo₂ : s₂.fifo.length = s₁.fifo.length - len.toNat := by
      rw [hs₂, hturn, List.length_drop]
    have hcome₂ : s₂.toCome = s₁.toCome := by rw [hs₂, hturn]
    have hpc₂ : s₂.pc = if rest = 0 then .data 0 else .reading (buf + 4 * len) rest := by
      rw [hs₂, hturn]
      rfl
    have hcalm₂ : SdioCalm s₂ := by
      rw [hs₂, hturn]
      exact ⟨(hasFlag_served (by decide)).trans hcalm₁.good,
        (hasFlag_served (by decide)).trans hcalm₁.goesOn, hcalm₁.takesNone⟩
    rw [← hs₂]
    by_cases hzero : rest = 0
    · have hnone : rest.toNat = 0 := congrArg BitVec.toNat hzero
      refine .here ⟨hpc₂.trans (if_pos hzero), hcalm₂, ?_⟩
      rw [hcome₂]
      omega
    · refine (ih rest.toNat (by omega) hzero (hpc₂.trans (if_neg hzero)) hcalm₂ (by omega) ?_
        rfl).bind fun s₃ ⟨hpc₃, hcalm₃, hsum₃⟩ => .here ⟨hpc₃, hcalm₃, ?_⟩
      · rw [hcome₂]
        omega
      · rw [hcome₂] at hsum₃
        omega

variable (hread : job.data.flags = sdioDataRead) (hsent : job.cmd.refused = false) (dev : DwSdio)
  (rintsts : Word) (fifo resp : List Word)
include hread hsent

theorem sdio_begins :
    Reaches (sdioStep hw job) (SdioHwOk hw) (.start dev rintsts fifo resp) fun s =>
      s.pc = .data (job.data.bytes / 4) ∧ SdioCalm s ∧ s.fifo = [] ∧ s.toCome = job.words ∧
      s.stores = [] ∧ sdioRxWmark s.dev = sdioRxWmark dev := by
  obtain ⟨hrefused, -⟩ | ⟨-, dev', -, hfifoth, hsend⟩ :=
    sdioSend_cases job (.start dev rintsts fifo resp)
  · rw [hsent] at hrefused
    cases hrefused
  have hnot : hasFlag job.data.flags sdioDataWrite = false := by
    rw [hread]
    decide
  simp only [hnot] at hsend
  obtain ⟨status, hstatus⟩ : ∃ status, status = rintsts &&& ~~~sdioIntAll ||| sdioIntCd := ⟨_, rfl⟩
  have hclear {f : Word} (hall : sdioIntAll &&& f = f) (hcd : sdioIntCd &&& f = 0) :
      hasFlag status f = false := by
    rw [hstatus, hasFlag_or_of_disjoint hcd, hasFlag_clear_of_subset hall]
  have hdone : hasFlag status sdioIntCd = true := by
    rw [hstatus]
    exact hasFlag_or_self _ (by decide)
  have hlook (s : SdioSys) : SdioHwOk hw s (.drive sdioLookFree) := trivial
  have hraise (s : SdioSys) : SdioHwOk hw s (.raise sdioIntCd) :=
    ⟨fun hc => absurd hc (by decide), fun hc => absurd hc (by decide),
      fun hc => absurd hc (by decide)⟩
  have hfirst : sdioStep hw job (.start dev rintsts fifo resp) (.drive sdioLookFree) =
      .ok (sdioSend job (.start dev rintsts fifo resp)) := rfl
  rw [hsend] at hfirst
  refine .after (hlook _) hfirst (.after (hraise _) rfl (.after (hlook _) rfl (.here ?_)))
  have hto : hasFlag status sdioIntRto = false := hclear (by decide) (by decide)
  have herr : hasFlag status sdioIntRe = false := hclear (by decide) (by decide)
  simp only [sdioDrive, SdioSys.start, ← hstatus, hdone, if_true, sdioAnswered, hto, herr]
  refine ⟨rfl, ⟨hclear (by decide) (by decide), hclear (by decide) (by decide), rfl⟩, rfl, rfl, rfl, ?_⟩
  show sdioRxWmark dev' = sdioRxWmark dev
  rw [sdioRxWmark, hfifoth]
  rfl

/-- What fits into the FIFO is not waited for, and not read. -/
theorem sdio_read_short (hshort : job.words.length ≤ hw.depth) :
    Reaches (sdioStep hw job) (SdioHwOk hw) (.start dev rintsts fifo resp) fun s =>
      s.pc = .done eOk ∧ s.stores = [] := by
  refine (sdio_begins hread hsent dev rintsts fifo resp).bind
    fun s₁ ⟨hpc, hcalm, hfifo, hcome, hstores, _⟩ => ?_
  have hroom : s₁.fifo.length + s₁.toCome.length ≤ hw.depth := by
    rw [hfifo, hcome, List.length_nil, Nat.zero_add]
    exact hshort
  refine (sdio_sends hcalm s₁.toCome.length le_rfl hroom).bind
    fun s₂ ⟨hheld, hcalm₂, _, hcome₂, _⟩ => ?_
  have hnone : s₂.toCome = [] := List.length_eq_zero_iff.mp (by omega)
  refine (sdio_over hcalm₂ (hheld.pc.trans hpc) hnone).bind fun s₃ ⟨hdone, hsame⟩ => .here ⟨hdone, ?_⟩
  rw [hsame, hheld.stores, hstores]

/-- What does not fit is read as soon as it is requested. -/
theorem sdio_read_long (hwords : job.words.length = (job.data.bytes.toNat + 3) / 4)
    (htwo : 2 ≤ hw.depth) (hlong : hw.depth < job.words.length)
    (hmark : sdioRxWmark dev < hw.depth) :
    Reaches (sdioStep hw job) (SdioHwOk hw) (.start dev rintsts fifo resp) fun s =>
      s.pc = .done eOk := by
  have hsize : (job.data.bytes / 4).toNat = job.data.bytes.toNat / 4 := by
    rw [BitVec.toNat_udiv]
    rfl
  have hsome : job.data.bytes / 4 ≠ 0 := by
    intro hc
    have hzero : (job.data.bytes / 4).toNat = 0 := congrArg BitVec.toNat hc
    omega
  refine (sdio_begins hread hsent dev rintsts fifo resp).bind
    fun s₁ ⟨hpc, hcalm, hfifo, hcome, _, hsame⟩ => ?_
  have hlength : s₁.fifo.length = 0 := by rw [hfifo, List.length_nil]
  rw [← hcome] at hwords hlong
  rw [← hsame] at hmark
  -- the words above the watermark are requested
  refine (sdio_sends hcalm (sdioRxWmark s₁.dev + 1) (by omega) (by omega)).bind
    fun s₂ ⟨hheld, hcalm₂, hfifo₂, hcome₂, hrequest⟩ => ?_
  have hrxdr : hasFlag s₂.rintsts sdioIntRxdr = true := hrequest (by omega) (by omega)
  have hdrive : sdioStep hw job s₂ (.drive sdioLookFree) =
      .ok { s₂ with pc := .reading job.data.buf (job.data.bytes / 4) } := by
    simp only [sdioStep, sdioDrive, hheld.pc, hpc, sdioDataTurn, hcalm₂.good, hcalm₂.goesOn]
    rw [if_neg Bool.false_ne_true, if_neg Bool.false_ne_true, if_pos ⟨hread, hrxdr, hsome⟩]
  have hlook : SdioHwOk hw s₂ (.drive sdioLookFree) := trivial
  refine .after hlook hdrive ?_
  have hreads : Reaches (sdioStep hw job) (SdioHwOk hw)
      { s₂ with pc := .reading job.data.buf (job.data.bytes / 4) } _ :=
    sdio_reading (by omega) hsome rfl { hcalm₂ with }
      (show s₂.fifo.length ≤ hw.depth by omega)
      (show (job.data.bytes / 4).toNat ≤ s₂.fifo.length + s₂.toCome.length by omega)
  refine hreads.bind fun s₃ ⟨hpc₃, hcalm₃, hsum⟩ => ?_
  simp only at hsum
  -- at most one word is left, which holds the bytes that are not a whole word
  refine (sdio_sends hcalm₃ s₃.toCome.length le_rfl (by omega)).bind
    fun s₄ ⟨hheld₄, hcalm₄, _, hcome₄, _⟩ => ?_
  have hnone : s₄.toCome = [] := List.length_eq_zero_iff.mp (by omega)
  exact (sdio_over hcalm₄ (hheld₄.pc.trans hpc₃) hnone).bind fun s₅ ⟨hdone, _⟩ => .here hdone

end Reached

/-! ### Complete transfers -/

section Complete

def SdioJob.total (job : SdioJob) : Nat := job.data.blksz.toNat * job.data.blkcnt.toNat

/-- Exactly the bytes of the blocks are in the buffer, as the card sent them. -/
def SdioReadComplete (job : SdioJob) (s : SdioSys) : Prop :=
  s.stores = sdioStores job.data.buf job.words ∧ 4 * s.stores.length = job.total

/-- Exactly the bytes of the blocks were taken from the buffer, from its beginning on. -/
def SdioWriteComplete (job : SdioJob) (s : SdioSys) : Prop :=
  s.pushed = sdioWords job.ram job.data.buf s.pushed.length ∧ 4 * s.pushed.length = job.total

theorem SdioJob.bytes_toNat (job : SdioJob) : job.data.bytes.toNat = job.total % 2 ^ 32 :=
  BitVec.toNat_mul _ _

theorem SdioJob.size_eq (job : SdioJob) : job.size = job.data.bytes.toNat / 4 := by
  rw [SdioJob.size, BitVec.toNat_udiv]
  rfl

/-- **A read stores nothing beyond the blocks, however it goes and ends**: at any time the buffer holds
the beginning of what the card sends. -/
theorem sdio_read_in_buffer {hw : SdioHw} {job : SdioJob} {dev : DwSdio} {rintsts : Word}
    {fifo resp : List Word} {es : List SdioEvent} {s : SdioSys}
    (hread : job.data.flags = sdioDataRead)
    (h : Runs (sdioStep hw job) (SdioHwOk hw) (.start dev rintsts fifo resp) es s) :
    ∃ got, s.stores = sdioStores job.data.buf got ∧ got <+: job.words ∧
      4 * got.length ≤ job.total := by
  have hinv := h.invariant (I := fun s => SdioReadInv hw job s ∧ SdioInBuffer job s)
    (fun s e s' hs hok hstep => ⟨hs.1.step hread hok hstep, hs.2.step hs.1 hstep⟩)
    ⟨.inl ⟨rfl, rfl⟩, [], rfl, List.nil_prefix, Nat.zero_le _⟩
  obtain ⟨got, hstores, hprefix, hle⟩ := hinv.2
  have hbytes := job.bytes_toNat
  have hsize := job.size_eq
  exact ⟨got, hstores, hprefix, by omega⟩

/-- A call that reads and returns `E_OK` has read every block, in whatever time the card sends, if
and only if the blocks are whole words and do not fit into the FIFO.  One that writes has written
every block. -/
theorem sdio_data_complete_iff (hw : SdioHw) (job : SdioJob) {dev : DwSdio} (huse : dev.InUse)
    (hdepth : dev.fifoDepth.toNat = hw.depth) (htwo : 2 ≤ hw.depth) (rintsts : Word)
    (fifo resp : List Word) :
    (job.data.flags = sdioDataRead → job.cmd.refused = false →
      job.words.length = (job.data.bytes.toNat + 3) / 4 →
      ((∀ es s, Runs (sdioStep hw job) (SdioHwOk hw) (.start dev rintsts fifo resp) es s →
          s.pc = .done eOk → SdioReadComplete job s) ↔
        job.total < 2 ^ 32 ∧ 4 ∣ job.total ∧ (job.total = 0 ∨ hw.depth < job.total / 4))) ∧
    (job.data.flags = sdioDataWrite →
      ∀ es s, Runs (sdioStep hw job) (SdioHwOk hw) (.start dev rintsts fifo resp) es s →
        s.pc = .done eOk → (SdioWriteComplete job s ↔ job.total < 2 ^ 32)) := by
  have hbytes := job.bytes_toNat
  have hsize := job.size_eq
  constructor
  · intro hread hsent hwords
    constructor
    · intro hall
      by_cases hshort : job.words.length ≤ hw.depth
      · obtain ⟨es, s, hruns, hdone, hnone⟩ :=
          sdio_read_short hread hsent dev rintsts fifo resp hshort
        obtain ⟨-, htotal⟩ := hall es s hruns hdone
        rw [hnone, List.length_nil] at htotal
        omega
      · obtain ⟨es, s, hruns, hdone⟩ := sdio_read_long hread hsent dev rintsts fifo resp hwords
          htwo (by omega) (huse.marked.rxWmark_lt hdepth htwo)
        obtain ⟨hstores, htotal⟩ := hall es s hruns hdone
        obtain ⟨got, hgot, -, hcount⟩ := sdioRead_done hread hruns hdone
        have hlen' : s.stores.length = job.words.length := by rw [hstores, length_sdioStores]
        omega
    · intro ⟨hfits, hwhole, hlong⟩ es s hruns hdone
      obtain ⟨got, hgot, hprefix, hcount⟩ := sdioRead_done hread hruns hdone
      have hall : got = job.words := by
        refine hprefix.eq_of_length ?_
        obtain hcount | ⟨rfl, hshort⟩ := hcount
        · omega
        · rw [List.length_nil]
          omega
      rw [hall] at hgot
      refine ⟨hgot, ?_⟩
      rw [hgot, length_sdioStores]
      omega
  · intro hwrite es s hruns hdone
    obtain ⟨hpushed, hcount⟩ := sdioWrite_done hwrite hdepth hruns hdone
    constructor
    · intro ⟨_, htotal⟩
      omega
    · intro hfits
      exact ⟨hpushed, by omega⟩

instance (hw : SdioHw) (s : SdioSys) (ev : SdioEvent) : Decidable (SdioHwOk hw s ev) := by
  cases ev with
  | drive => exact isTrue trivial
  | send | take => exact inferInstanceAs (Decidable (_ ∧ _))
  | raise => exact inferInstanceAs (Decidable (_ ∧ _ ∧ _))

def sdioUsualHw : SdioHw where
  depth := 128
  depth_lt := by decide

def sdioUsualDev : DwSdio :=
  (dwSdioOpen (.installed 100000000 128 .zero) 0 sdioWaitsDone).2

def sdioUsualJob (cmdidx : BitVec 16) (flags blksz blkcnt : Word) : SdioJob where
  cmd := { card := 0, cmdidx, respType := sdioRspPresent ||| sdioRspCrc, arg := 0 }
  data := { buf := 0x1000, flags, blkcnt, blksz }
  ram := id
  words := (List.range (((blksz * blkcnt).toNat + 3) / 4)).map (BitVec.ofNat 32)

theorem sdio_data_complete_usual :
    (∀ es s, Runs (sdioStep sdioUsualHw (sdioUsualJob 18 sdioDataRead 512 2)) (SdioHwOk sdioUsualHw)
        (.start sdioUsualDev 0 [] []) es s → s.pc = .done eOk →
      SdioReadComplete (sdioUsualJob 18 sdioDataRead 512 2) s) ∧
    ∃ es s, Runs (sdioStep sdioUsualHw (sdioUsualJob 24 sdioDataWrite 4 1)) (SdioHwOk sdioUsualHw)
        (.start sdioUsualDev 0 [] []) es s ∧ s.pc = .done eOk ∧ s.pushed = [0x1000] ∧
      SdioWriteComplete (sdioUsualJob 24 sdioDataWrite 4 1) s := by
  have huse : sdioUsualDev.InUse := .opened rfl 0 _
  constructor
  · have hread := (sdio_data_complete_iff sdioUsualHw (sdioUsualJob 18 sdioDataRead 512 2)
      huse rfl (by decide) 0 [] []).1 rfl rfl (by simp [sdioUsualJob]; rfl)
    exact hread.mpr ⟨by decide, by decide, .inr (by decide)⟩
  · have hfollow : Trace.follow (sdioStep sdioUsualHw (sdioUsualJob 24 sdioDataWrite 4 1))
        (SdioHwOk sdioUsualHw) (.start sdioUsualDev 0 [] [])
        [.drive sdioLookFree, .raise sdioIntCd, .drive sdioLookFree, .raise sdioIntTxdr,
          .drive sdioLookFree, .drive sdioLookFree, .take, .raise sdioIntDto,
          .drive sdioLookFree] = some _ := rfl
    have hruns := Runs.of_follow hfollow
    have hwrite := (sdio_data_complete_iff sdioUsualHw (sdioUsualJob 24 sdioDataWrite 4 1)
      huse rfl (by decide) 0 [] []).2 rfl _ _ hruns rfl
    exact ⟨_, _, hruns, rfl, rfl, hwrite.mpr (by decide)⟩

/-- A block of eight bytes does not get above the watermark.  The call returns `E_OK` with both words
in the FIFO, and none in the buffer. -/
theorem sdio_data_left_in_fifo :
    ∃ es s, Runs (sdioStep sdioUsualHw (sdioUsualJob 17 sdioDataRead 8 1)) (SdioHwOk sdioUsualHw)
        (.start sdioUsualDev 0 [] []) es s ∧
      s.pc = .done eOk ∧ s.fifo = [0, 1] ∧ s.stores = [] ∧
      ¬ SdioReadComplete (sdioUsualJob 17 sdioDataRead 8 1) s := by
  exact ⟨[.drive sdioLookFree, .raise sdioIntCd, .drive sdioLookFree, .send, .send,
    .raise sdioIntDto, .drive sdioLookFree], _, .of_follow rfl, rfl, rfl, rfl,
    fun hc => absurd hc.2 (by decide)⟩

/-- A FIFO of four words: both words of the block get above the watermark, and are stored. -/
theorem sdio_read_in_buffer_stored :
    ∃ s got, Runs (sdioStep ⟨4, by decide⟩ (sdioUsualJob 17 sdioDataRead 8 1)) (SdioHwOk ⟨4, by decide⟩)
        (.start (dwSdioOpen (.installed 100000000 4 .zero) 0 sdioWaitsDone).2 0 [] [])
        [.drive sdioLookFree, .raise sdioIntCd, .drive sdioLookFree, .send, .send,
          .drive sdioLookFree, .drive sdioLookFree] s ∧
      s.stores = [(0x1000, 0), (0x1004, 1)] ∧ s.stores = sdioStores 0x1000 got ∧
      4 * got.length ≤ 8 := by
  have hfollow : Trace.follow (sdioStep ⟨4, by decide⟩ (sdioUsualJob 17 sdioDataRead 8 1))
      (SdioHwOk ⟨4, by decide⟩)
      (.start (dwSdioOpen (.installed 100000000 4 .zero) 0 sdioWaitsDone).2 0 [] [])
      [.drive sdioLookFree, .raise sdioIntCd, .drive sdioLookFree, .send, .send,
        .drive sdioLookFree, .drive sdioLookFree] = some _ := rfl
  have hrun := Runs.of_follow hfollow
  obtain ⟨got, hstores, -, hle⟩ := sdio_read_in_buffer rfl hrun
  exact ⟨_, got, hrun, rfl, hstores, hle⟩

end Complete

end Embarc
