/-
Updating flash in place.

Whatever the flash held, a write replaces exactly the range it is asked for, and an erase sets
exactly that range to ones.  Per sector there are two ways to get there.  Where the part
concerned is erased, it is programmed directly, and programming ones gives the data.  Where it
is not, the sector is erased as a whole and programmed with what it held, patched.  Either way
the sector differs from before in that part only, and the parts put together are the range.

The argument is about any chip whose operations do what `FlashOps.Sound` says.  For the boot
SPI flash that rests on no page program command going beyond its page, for the embedded flash
on programming by words being the same as programming by bytes.
-/
import Embarc.Iotdk.Flash

namespace Embarc

open Flash

/-! ### What the loop over the sectors needs of a chip -/

/-- Within its `size`, the chip is read, erased and programmed as flash is. -/
structure FlashOps.Sound (ops : FlashOps) (size : Nat) : Prop where
  secPos : 0 < ops.secSize
  secSmall : ops.secSize < 2 ^ 16
  /-- The chip is whole sectors, and their numbers and all positions can be stored. -/
  whole : ops.secSize ∣ size
  secCount : size / ops.secSize < 2 ^ 16
  small : size < 2 ^ 32
  read : ∀ mem addr len val, addr + len ≤ size → ops.read mem addr len val = Flash.read mem addr len
  erase : ∀ mem k, (k + 1) * ops.secSize ≤ size →
    ops.erase mem (k * ops.secSize) = eraseBlock ops.secSize mem (k * ops.secSize)
  writeNocheck : ∀ mem addr val data, addr + data.length ≤ size →
    ops.writeNocheck mem addr val data = program mem addr data

variable {s : SecLoop} {mem : Nat → Byte} {data : SecLoop → List Byte}
  {direct : SecLoop → Nat → Byte} {body : Nat → Nat → Byte} {d : SmicEflashDef}

/-- The variables of the loop fit together: `secOff` is the place of `addr` in its sector, and
`secRemain` what is to be done there. -/
structure SecLoop.WF (ops : FlashOps) (size : Nat) (s : SecLoop) : Prop where
  addr : s.secPos * ops.secSize + s.secOff = s.addr
  off : s.secOff < ops.secSize
  remain : s.secRemain = min (ops.secSize - s.secOff) s.len
  fits : s.addr + s.len ≤ size

section Loop

variable {ops : FlashOps} {size : Nat} {mBuf : Nat}

theorem SecLoop.start_wf (hops : ops.Sound size) (mem : Nat → Byte) {addr len : Nat} (val : Nat)
    (hfits : addr + len ≤ size) : (SecLoop.start ops mem addr len val).WF ops size := by
  have hpos := hops.secPos
  have hsmall := hops.secSmall
  have hoff : addr % ops.secSize < ops.secSize := Nat.mod_lt _ hpos
  have hsec : u16 (addr / ops.secSize) = addr / ops.secSize :=
    u16_of_lt (Nat.lt_of_le_of_lt (Nat.div_le_div_right (by omega)) hops.secCount)
  have hoff16 : u16 (addr % ops.secSize) = addr % ops.secSize := u16_of_lt (by omega)
  have hremain16 : u16 (ops.secSize - addr % ops.secSize) = ops.secSize - addr % ops.secSize :=
    u16_of_lt (by omega)
  refine ⟨?_, ?_, ?_, hfits⟩
  · simp only [start, hsec, hoff16]
    exact Nat.div_add_mod' addr ops.secSize
  · simp only [start, hoff16]
    exact hoff
  · simp only [start, hoff16, hremain16]
    split
    · rw [u16_of_lt (by omega)]
      omega
    · omega

theorem SecLoop.WF.remain_of_ne (h : s.WF ops size) (hne : s.len ≠ s.secRemain) :
    s.secRemain = ops.secSize - s.secOff ∧ s.secRemain < s.len := by
  have hremain := h.remain
  omega

theorem SecLoop.WF.advance (hops : ops.Sound size) (h : s.WF ops size) (hne : s.len ≠ s.secRemain) :
    (s.advance ops).WF ops size ∧ (s.advance ops).addr = s.addr + s.secRemain ∧
      (s.advance ops).len = s.len - s.secRemain := by
  obtain ⟨hremain, hlt⟩ := h.remain_of_ne hne
  have haddr := h.addr
  have hoff := h.off
  have hfits := h.fits
  have hsize := hops.small
  have hsmall := hops.secSmall
  have hmul : (s.secPos + 1) * ops.secSize = s.secPos * ops.secSize + ops.secSize :=
    Nat.succ_mul _ _
  have hpos : s.secPos + 1 < 2 ^ 16 := by
    refine Nat.lt_of_le_of_lt ?_ hops.secCount
    rw [Nat.le_div_iff_mul_le hops.secPos, hmul]
    omega
  have haddr' : u32 (s.addr + s.secRemain) = s.addr + s.secRemain := u32_of_lt (by omega)
  refine ⟨⟨?_, ?_, ?_, ?_⟩, haddr', rfl⟩
  · simp only [SecLoop.advance, u16_of_lt hpos, haddr']
    omega
  · exact hops.secPos
  · simp only [SecLoop.advance]
    split
    · rw [u16_of_lt hsmall]
      omega
    · rw [u16_of_lt (by omega)]
      omega
  · simp only [SecLoop.advance, haddr']
    omega

/-- The sector a well-formed state is in lies on the chip, if there is anything to do in it. -/
theorem SecLoop.WF.sector_le (hops : ops.Sound size) (h : s.WF ops size)
    (hremain : 0 < s.secRemain) : (s.secPos + 1) * ops.secSize ≤ size := by
  obtain ⟨c, hc⟩ := hops.whole
  have haddr := h.addr
  have hfits := h.fits
  have hlen : s.secRemain ≤ s.len := by rw [h.remain]; exact Nat.min_le_right _ _
  have hlt : s.secPos * ops.secSize < ops.secSize * c := by omega
  rw [Nat.mul_comm ops.secSize c] at hlt
  have hpos : s.secPos < c := Nat.lt_of_mul_lt_mul_right hlt
  rw [hc, Nat.mul_comm ops.secSize c]
  exact Nat.mul_le_mul_right _ hpos

/-- What the sector buffer holds is erased exactly where the flash is. -/
theorem buf_all_erased {base n off k : Nat} (hk : off + k ≤ n)
    (hall : (Flash.read (fun i => (Flash.read mem base n).getD i 0) off k).all (· = 0xFF)) :
    ∀ x, base + off ≤ x → x < base + off + k → mem x = 0xFF := by
  intro x hlow hhigh
  rw [List.all_eq_true] at hall
  have hmem : mem x ∈ Flash.read (fun i => (Flash.read mem base n).getD i 0) off k := by
    refine List.mem_map.mpr ⟨x - base - off, List.mem_range.mpr (by omega), ?_⟩
    have hidx : off + (x - base - off) < (Flash.read mem base n).length := by
      rw [length_read]
      omega
    show (Flash.read mem base n).getD (off + (x - base - off)) 0 = mem x
    rw [List.getD_eq_getElem?_getD, List.getElem?_eq_getElem hidx, Option.getD_some]
    simp only [Flash.read, List.getElem_map, List.getElem_range]
    congr 1
    omega
  simpa using hall _ hmem

/-- **One sector**: the part concerned is replaced, and nothing else. -/
theorem secRound_eq (hops : ops.Sound size) (h : s.WF ops size)
    (hdata : (data s).length = s.secRemain)
    (hdirect : (∀ x, s.addr ≤ x → x < s.addr + s.secRemain → s.mem x = 0xFF) →
      direct s = overwrite s.mem s.addr (data s)) :
    secRound ops mBuf data direct s () =
      if s.len = s.secRemain then (false, { s with mem := overwrite s.mem s.addr (data s) })
      else (true, ({ s with mem := overwrite s.mem s.addr (data s) } : SecLoop).advance ops) := by
  unfold secRound
  obtain hzero | hpos := Nat.eq_zero_or_pos s.secRemain
  · -- nothing to do: whatever was read, no byte of it is looked at
    have hnone : ∀ buf : List Byte,
        (Flash.read (fun i => buf.getD i 0) s.secOff s.secRemain).all (· = 0xFF) = true := by
      intro buf
      rw [hzero]
      rfl
    simp only [hnone, if_true]
    rw [hdirect fun x hlow hhigh => by omega]
  · have hsector := h.sector_le hops hpos
    rw [Nat.succ_mul] at hsector
    have hend : s.secOff + s.secRemain ≤ ops.secSize := by
      have hremain := h.remain
      omega
    rw [hops.read _ _ _ _ hsector]
    by_cases hall : (Flash.read (fun i => (Flash.read s.mem (s.secPos * ops.secSize)
        ops.secSize).getD i 0) s.secOff s.secRemain).all (· = 0xFF)
    · have herased := buf_all_erased hend hall
      rw [h.addr] at herased
      simp only [hall, if_true]
      rw [hdirect herased]
    · have hpatch : (patch (Flash.read s.mem (s.secPos * ops.secSize) ops.secSize) s.secOff
          (data s)).length = ops.secSize := by
        rw [length_patch (by rw [length_read, hdata]; exact hend), length_read]
      simp only [hall, Bool.false_eq_true, if_false]
      rw [hops.erase _ _ (by rw [Nat.succ_mul]; exact hsector),
        hops.writeNocheck _ _ _ _ (by rw [hpatch]; exact hsector),
        program_eraseBlock hops.secPos hpatch, overwrite_patch_read (by rw [hdata]; exact hend),
        h.addr]

/-- What is still to be put into the flash: the part for this sector, then the rest. -/
structure Pending (ops : FlashOps) (data pending : SecLoop → List Byte) : Prop where
  length : ∀ s, (data s).length = s.secRemain
  last : ∀ s, s.len = s.secRemain → pending s = data s
  next : ∀ s mem, s.secRemain < s.len →
    pending s = data s ++ pending (({ s with mem } : SecLoop).advance ops)

/-- **All sectors**: what is pending at the start replaces what the flash held. -/
theorem secLoop_mem (hops : ops.Sound size) {pending : SecLoop → List Byte}
    (hpending : Pending ops data pending) (hdirect : ∀ s, s.WF ops size →
      (∀ x, s.addr ≤ x → x < s.addr + s.secRemain → s.mem x = 0xFF) →
      direct s = overwrite s.mem s.addr (data s)) (h : s.WF ops size) :
    (secLoop ops mBuf data direct s).mem = overwrite s.mem s.addr (pending s) := by
  refine Trace.loop_total
    (I := fun _ s' => s'.WF ops size ∧
      overwrite s'.mem s'.addr (pending s') = overwrite s.mem s.addr (pending s))
    (J := fun s' => s'.mem = overwrite s.mem s.addr (pending s)) ?_ ?_ ⟨h, rfl⟩
    (Nat.lt_succ_self s.len)
  · intro _ s' ⟨hwf, hgoal⟩ hlast
    rw [secRound_eq hops hwf (hpending.length s') (hdirect s' hwf)] at hlast ⊢
    split at hlast
    · rename_i hlen
      rw [if_pos hlen, ← hgoal, hpending.last s' hlen]
    · exact nomatch hlast
  · intro _ s' ⟨hwf, hgoal⟩ hnext
    rw [secRound_eq hops hwf (hpending.length s') (hdirect s' hwf)] at hnext ⊢
    split at hnext
    · exact nomatch hnext
    · rename_i hlen
      obtain ⟨-, hlt⟩ := hwf.remain_of_ne hlen
      have hwf' : ({ s' with mem := overwrite s'.mem s'.addr (data s') } : SecLoop).WF ops size :=
        { hwf with }
      obtain ⟨hadv, haddr, hlen'⟩ := hwf'.advance hops hlen
      rw [if_neg hlen]
      refine ⟨⟨hadv, ?_⟩, ?_⟩
      · show overwrite (overwrite s'.mem s'.addr (data s')) _ _ = _
        rw [haddr, ← hgoal, hpending.next s' _ hlt, overwrite_append, hpending.length]
      · have hremain := hwf.remain
        have hoff := hwf.off
        rw [hlen']
        show s'.len - s'.secRemain < s'.len
        omega

/-- A write replaces exactly the range it is asked for. -/
theorem secWrite_eq (hops : ops.Sound size) (mBuf : Nat) (mem ram : Nat → Byte) {addr len : Nat}
    (val : Nat) (hfits : addr + len ≤ size) :
    secWrite ops mBuf mem ram addr len val = overwrite mem addr (Flash.read ram val len) := by
  have hpending : Pending ops (fun s => Flash.read ram s.val s.secRemain)
      (fun s => Flash.read ram s.val s.len) := by
    refine ⟨fun s => length_read .., fun s hlast => by rw [hlast], fun s mem hlt => ?_⟩
    show _ = _ ++ Flash.read ram (s.val + s.secRemain) (s.len - s.secRemain)
    rw [← read_add, Nat.add_sub_cancel' (Nat.le_of_lt hlt)]
  refine secLoop_mem hops hpending ?_ (SecLoop.start_wf hops mem val hfits)
  intro s hwf herased
  have hlen : s.secRemain ≤ s.len := by rw [hwf.remain]; exact Nat.min_le_right _ _
  have hend := hwf.fits
  rw [hops.writeNocheck _ _ _ _ (by rw [length_read]; omega)]
  exact program_eq_overwrite (by rw [length_read]; exact herased)

/-- An erase sets exactly the range it is asked for to ones. -/
theorem secErase_eq (hops : ops.Sound size) (mBuf : Nat) (mem : Nat → Byte) {addr len : Nat}
    (hfits : addr + len ≤ size) :
    secErase ops mBuf mem addr len = overwrite mem addr (List.replicate len 0xFF) := by
  have hpending : Pending ops (fun s => List.replicate s.secRemain 0xFF)
      (fun s => List.replicate s.len 0xFF) := by
    refine ⟨fun s => List.length_replicate, fun s hlast => by rw [hlast], fun s mem hlt => ?_⟩
    show _ = _ ++ List.replicate (s.len - s.secRemain) 0xFF
    rw [List.replicate_append_replicate, Nat.add_sub_cancel' (Nat.le_of_lt hlt)]
  refine secLoop_mem hops hpending ?_ (SecLoop.start_wf hops mem 0 hfits)
  -- what is erased already is left as it is
  intro s _ herased
  funext x
  by_cases hx : s.addr ≤ x ∧ x < s.addr + s.secRemain
  · rw [overwrite, placed_eq_some hx.1 (by rw [List.length_replicate]; exact hx.2),
      List.getElem_replicate, Option.getD_some, herased x hx.1 hx.2]
  · have hnone : placed s.addr (List.replicate s.secRemain (0xFF : Byte)) x = none := by
      by_cases hlow : x < s.addr
      · exact placed_of_lt _ hlow
      · exact placed_of_le _ (by rw [List.length_replicate]; omega)
    rw [overwrite, hnone, Option.getD_none]

end Loop

/-! ### The boot SPI flash -/

def smicBootspiSize : Nat := smicBootspiSecSize * smicBootspiSecsPerChip

theorem spiAddr_of_lt {x : Nat} (h : x < 2 ^ 24) : spiAddr x = x := Nat.mod_eq_of_lt h

/-- One command: it does not go beyond its page, so it programs the data as it is. -/
theorem pageRound_eq {s : PageLoop} (hpage : s.addr % smicBootspiPageSize + s.first =
      smicBootspiPageSize) (hfits : s.addr + s.val.length ≤ smicBootspiSize) :
    pageRound s () = (decide (s.first < s.val.length),
      { mem := program s.mem s.addr (s.val.take (min s.first s.val.length))
        addr := s.addr + min s.first s.val.length
        first := smicBootspiPageSize
        val := s.val.drop (min s.first s.val.length) }) := by
  have hsize : smicBootspiSize < 2 ^ 24 := by decide
  have hfirst : (if s.first < s.val.length then s.first else s.val.length) =
      min s.first s.val.length := by
    split <;> omega
  have haddr : spiAddr s.addr = s.addr := spiAddr_of_lt (by omega)
  have hword : u32 (s.addr + min s.first s.val.length) = s.addr + min s.first s.val.length :=
    u32_of_lt (by omega)
  have hcmd : bootspiWrite s.mem s.addr (s.val.take (min s.first s.val.length)) =
      program s.mem s.addr (s.val.take (min s.first s.val.length)) := by
    rw [bootspiWrite, haddr]
    exact pageProgram_eq (by rw [List.length_take]; omega)
  simp only [pageRound, hfirst, hcmd, hword]
  refine Prod.ext ?_ rfl
  simp only [List.length_drop, ne_eq, decide_eq_decide]
  omega

theorem bootspiWriteNocheck_eq (mem : Nat → Byte) (addr val : Nat) (data : List Byte)
    (hfits : addr + data.length ≤ smicBootspiSize) :
    bootspiWriteNocheck mem addr val data = program mem addr data := by
  have hpage : 0 < smicBootspiPageSize := by decide
  have hstart : addr % smicBootspiPageSize + (smicBootspiPageSize - addr % smicBootspiPageSize) =
      smicBootspiPageSize := Nat.add_sub_cancel' (Nat.le_of_lt (Nat.mod_lt _ hpage))
  refine Trace.loop_total
    (I := fun _ (s : PageLoop) => s.addr % smicBootspiPageSize + s.first = smicBootspiPageSize ∧
      s.addr + s.val.length ≤ smicBootspiSize ∧ program s.mem s.addr s.val = program mem addr data)
    (J := fun s : PageLoop => s.mem = program mem addr data) (m := fun s => s.val.length) ?_ ?_
    ⟨hstart, hfits, rfl⟩ (Nat.lt_succ_self data.length)
  · intro _ s ⟨hs, hend, hgoal⟩ hlast
    rw [pageRound_eq hs hend] at hlast ⊢
    have hall : s.val.length ≤ s.first := by simpa using hlast
    show program s.mem s.addr (s.val.take (min s.first s.val.length)) = _
    rw [Nat.min_eq_right hall, List.take_length, hgoal]
  · intro _ s ⟨hs, hend, hgoal⟩ hnext
    rw [pageRound_eq hs hend] at hnext ⊢
    have hmore : s.first < s.val.length := by simpa using hnext
    have hmod : s.addr % smicBootspiPageSize < smicBootspiPageSize := Nat.mod_lt _ hpage
    rw [Nat.min_eq_left (Nat.le_of_lt hmore)]
    refine ⟨⟨?_, ?_, ?_⟩, ?_⟩
    · -- the next command begins at a page
      show (s.addr + s.first) % smicBootspiPageSize + smicBootspiPageSize = smicBootspiPageSize
      rw [Nat.add_eq_right, ← Nat.mod_add_mod, hs, Nat.mod_self]
    · show s.addr + s.first + (s.val.drop s.first).length ≤ smicBootspiSize
      rw [List.length_drop]
      omega
    · show program (program s.mem s.addr (s.val.take s.first)) (s.addr + s.first)
        (s.val.drop s.first) = _
      have htake : (s.val.take s.first).length = s.first := by
        rw [List.length_take]
        omega
      rw [← hgoal, ← List.take_append_drop s.first s.val, program_append, htake,
        List.take_append_drop]
    · show (s.val.drop s.first).length < s.val.length
      rw [List.length_drop]
      omega

theorem bootspiOps_sound : bootspiOps.Sound smicBootspiSize where
  secPos := by decide
  secSmall := by decide
  whole := ⟨512, rfl⟩
  secCount := by decide
  small := by decide
  read := by
    intro mem addr len _ hfits
    have hsize : smicBootspiSize < 2 ^ 24 := by decide
    show Flash.read (fun x => mem (spiAddr x)) (spiAddr addr) len = Flash.read mem addr len
    rw [spiAddr_of_lt (by omega)]
    refine List.map_congr_left fun i hi => ?_
    rw [List.mem_range] at hi
    show mem (spiAddr (addr + i)) = mem (addr + i)
    rw [spiAddr_of_lt (by omega)]
  erase := by
    intro mem k hk
    have hsize : smicBootspiSize < 2 ^ 24 := by decide
    show eraseBlock _ mem (spiAddr (k * smicBootspiSecSize / smicBootspiSecSize *
      smicBootspiSecSize)) = _
    have hpos : 0 < smicBootspiSecSize := by decide
    have hk' : k * smicBootspiSecSize + smicBootspiSecSize ≤ smicBootspiSize := by
      rw [← Nat.succ_mul]
      exact hk
    rw [Nat.mul_div_cancel k hpos, spiAddr_of_lt (by omega)]
    rfl
  writeNocheck := bootspiWriteNocheck_eq

/-! ### The embedded flash -/

def smicEflashSize : Nat := smicEflashPageSize * smicEflashPageCnt

section
variable (mem : Nat → Byte)

theorem eflashBytes_eq (addr : Nat) (data : List Byte) :
    eflashBytes mem addr data = program mem addr data := by
  induction data generalizing mem addr with
  | nil => rw [eflashBytes, program_nil]
  | cons b data ih =>
    rw [eflashBytes, ih]
    exact (program_append mem addr [b] data).symm

theorem eflashWords_eq (addr : Nat) (data : List Byte) :
    program (eflashWords mem addr data).1 (eflashWords mem addr data).2.1
      (eflashWords mem addr data).2.2 = program mem addr data := by
  fun_induction eflashWords mem addr data with
  | case1 mem addr b0 b1 b2 b3 rest ih =>
    rw [ih]
    exact (program_append mem addr [b0, b1, b2, b3] rest).symm
  | case2 => rfl

theorem eflashWriteNocheck_eq (addr val : Nat) (data : List Byte) :
    eflashWriteNocheck mem addr val data = program mem addr data := by
  unfold eflashWriteNocheck
  split
  · simp only [eflashBytes_eq]
    exact eflashWords_eq mem addr data
  · exact eflashBytes_eq mem addr data

theorem eflashReadBytes_eq (addr len : Nat) :
    eflashReadBytes mem addr len = Flash.read mem addr len := by
  induction len generalizing addr with
  | zero => rfl
  | succ len ih =>
    rw [eflashReadBytes, ih, Nat.add_comm len 1, read_add]
    rfl

theorem eflashReadWords_eq (addr len : Nat) :
    eflashReadWords mem addr len = Flash.read mem addr len := by
  fun_induction eflashReadWords mem addr len with
  | case1 addr len ih =>
    show _ = Flash.read mem addr (len + 4)
    rw [ih, Nat.add_comm len 4, read_add]
    rfl
  | case2 addr len _ => exact eflashReadBytes_eq mem addr len

theorem eflashRead_eq (addr len val : Nat) :
    eflashRead mem addr len val = Flash.read mem addr len := by
  unfold eflashRead
  split
  · exact eflashReadWords_eq mem addr len
  · exact eflashReadBytes_eq mem addr len

end

theorem eflashOps_sound : eflashOps.Sound smicEflashSize where
  secPos := by decide
  secSmall := by decide
  whole := ⟨512, rfl⟩
  secCount := by decide
  small := by decide
  read := fun mem addr len val _ => eflashRead_eq mem addr len val
  erase := fun _ _ _ => rfl
  writeNocheck := fun mem addr val data _ => eflashWriteNocheck_eq mem addr val data

/-! ### The drivers -/

theorem flashUpdate_success {openCnt mBuf : Option Nat} {len : Word} {mem' : Nat → Byte}
    (hbody : ∀ b, body b = mem') (hret : 0 ≤ (flashUpdate openCnt mBuf len mem body).1) :
    (flashUpdate openCnt mBuf len mem body).2 = mem' := by
  unfold flashUpdate at hret ⊢
  split at hret
  · exact absurd hret (show ¬ 0 ≤ eObj by decide)
  · exact absurd hret (show ¬ 0 ≤ eOpned by decide)
  · exact absurd hret (show ¬ 0 ≤ eNomem by decide)
  · exact hbody _

/-- **Boot SPI flash: a write that succeeds replaces exactly `[addr, addr + len)`, an erase that
succeeds sets exactly it to ones**, whatever the flash held. -/
theorem bootspi_updates_in_place (obj : Option SmicBootspiDef) (mBuf : Option Nat)
    (mem ram : Nat → Byte) (addr len : Word) (val : Nat)
    (hfits : addr.toNat + len.toNat ≤ smicBootspiSize) :
    (0 ≤ (smicBootspiWrite obj mBuf mem ram addr len val).1 →
      (smicBootspiWrite obj mBuf mem ram addr len val).2 =
        overwrite mem addr.toNat (Flash.read ram val len.toNat)) ∧
    (0 ≤ (smicBootspiErase obj mBuf mem addr len).1 →
      (smicBootspiErase obj mBuf mem addr len).2 =
        overwrite mem addr.toNat (List.replicate len.toNat 0xFF)) :=
  ⟨flashUpdate_success fun b => secWrite_eq bootspiOps_sound b mem ram val hfits,
    flashUpdate_success fun b => secErase_eq bootspiOps_sound b mem hfits⟩

theorem bootspi_updates_across_sectors :
    (smicBootspiWrite (some ⟨1⟩) (some 0x20000000) (fun _ => 0x5A) (fun i => BitVec.ofNat 8 i)
        4094 4 7).2 = overwrite (fun _ => 0x5A) 4094 [7, 8, 9, 10] ∧
      (smicBootspiErase (some ⟨1⟩) (some 0x20000000) (fun _ => 0x5A) 4094 4).2 =
        overwrite (fun _ => 0x5A) 4094 [0xFF, 0xFF, 0xFF, 0xFF] :=
  have h := bootspi_updates_in_place (some ⟨1⟩) (some 0x20000000) (fun _ => 0x5A)
    (fun i => BitVec.ofNat 8 i) 4094 4 7 (by decide)
  ⟨h.1 (by decide), h.2 (by decide)⟩

/-- **Embedded flash: a write that succeeds replaces exactly `[addr, addr + len)`, an erase that
succeeds sets exactly it to ones**, whatever the flash held. -/
theorem eflash_updates_in_place (obj : Option SmicEflashDef) (mBuf : Option Nat)
    (mem ram : Nat → Byte) (addr len : Word) (val : Nat)
    (hfits : addr.toNat + len.toNat ≤ smicEflashSize) :
    (0 ≤ (smicEflashWrite obj mBuf mem ram addr len val).1 →
      (smicEflashWrite obj mBuf mem ram addr len val).2 =
        overwrite mem addr.toNat (Flash.read ram val len.toNat)) ∧
    (0 ≤ (smicEflashErase obj mBuf mem addr len).1 →
      (smicEflashErase obj mBuf mem addr len).2 =
        overwrite mem addr.toNat (List.replicate len.toNat 0xFF)) :=
  ⟨flashUpdate_success fun b => secWrite_eq eflashOps_sound b mem ram val hfits,
    flashUpdate_success fun b => secErase_eq eflashOps_sound b mem hfits⟩

theorem eflash_updates_across_pages :
    (smicEflashWrite (some ⟨1⟩) (some 0x20000000) (fun _ => 0x5A) (fun i => BitVec.ofNat 8 i)
        510 4 7).2 = overwrite (fun _ => 0x5A) 510 [7, 8, 9, 10] ∧
      (smicEflashErase (some ⟨1⟩) (some 0x20000000) (fun _ => 0x5A) 510 4).2 =
        overwrite (fun _ => 0x5A) 510 [0xFF, 0xFF, 0xFF, 0xFF] :=
  have h := eflash_updates_in_place (some ⟨1⟩) (some 0x20000000) (fun _ => 0x5A)
    (fun i => BitVec.ofNat 8 i) 510 4 7 (by decide)
  ⟨h.1 (by decide), h.2 (by decide)⟩

/-! ### What the embedded flash driver returns -/

theorem eflashBytesLeft_eq (len : Word) : eflashBytesLeft len = 0xFFFFFFFF#32 := by
  fun_induction eflashBytesLeft len with
  | case1 => rfl
  | case2 len _ ih => exact ih

theorem smicEflashRead_eq (hopen : d.eflashOpenCnt ≠ 0) (mem : Nat → Byte) (addr len : Word)
    (val : Nat) :
    smicEflashRead (some d) mem addr len val = (-1, Flash.read mem addr.toNat len.toNat) := by
  obtain ⟨n, hn⟩ := Nat.exists_eq_succ_of_ne_zero hopen
  simp only [smicEflashRead, Option.map_some, hn, eflashRead_eq, eflashLeft, eflashBytesLeft_eq]
  rfl

theorem smicEflashWriteNocheck_eq (hopen : d.eflashOpenCnt ≠ 0) (mem ram : Nat → Byte)
    (addr len : Word) (val : Nat) :
    smicEflashWriteNocheck (some d) mem ram addr len val =
      (-1, program mem addr.toNat (Flash.read ram val len.toNat)) := by
  obtain ⟨n, hn⟩ := Nat.exists_eq_succ_of_ne_zero hopen
  simp only [smicEflashWriteNocheck, Option.map_some, hn, eflashWriteNocheck_eq, eflashLeft,
    eflashBytesLeft_eq]
  rfl

/-- **Reading and programming move exactly the bytes that were asked for, but the length is returned
only for the length 0xFFFFFFFF**: `len` has run below zero. -/
theorem eflash_count_iff {d : SmicEflashDef} (hopen : d.eflashOpenCnt ≠ 0) (mem ram : Nat → Byte)
    (addr len : Word) (val : Nat) :
    (smicEflashRead (some d) mem addr len val).2 = Flash.read mem addr.toNat len.toNat ∧
      (smicEflashWriteNocheck (some d) mem ram addr len val).2 =
        program mem addr.toNat (Flash.read ram val len.toNat) ∧
      ((smicEflashRead (some d) mem addr len val).1 = len.toInt ↔ len = 0xFFFFFFFF#32) ∧
      ((smicEflashWriteNocheck (some d) mem ram addr len val).1 = len.toInt ↔
        len = 0xFFFFFFFF#32) := by
  have hlen : (-1 : Int) = len.toInt ↔ len = 0xFFFFFFFF#32 := by
    rw [show (-1 : Int) = (0xFFFFFFFF#32).toInt from rfl, BitVec.toInt_inj]
    exact eq_comm
  rw [smicEflashRead_eq hopen, smicEflashWriteNocheck_eq hopen]
  exact ⟨rfl, rfl, hlen, hlen⟩

theorem eflash_count_four :
    (smicEflashRead (some ⟨1⟩) (fun i => BitVec.ofNat 8 i) 8 4 0x20000000).2 = [8, 9, 10, 11] ∧
      (smicEflashRead (some ⟨1⟩) (fun i => BitVec.ofNat 8 i) 8 4 0x20000000).1 ≠ 4 :=
  have h := eflash_count_iff (d := ⟨1⟩) (by decide) (fun i => BitVec.ofNat 8 i) (fun _ => 0) 8 4
    0x20000000
  ⟨h.1, fun hret => absurd (h.2.2.1.mp hret) (by decide)⟩

/-- One byte is read, and -1 returned. -/
theorem eflash_count_wrong :
    smicEflashRead (some ⟨1⟩) (fun _ => 0x5A) 0 1 0x20000000 = (-1, [0x5A]) :=
  smicEflashRead_eq (by decide) ..

end Embarc
