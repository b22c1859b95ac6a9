/-
Packets and keys of the radio, over a bus without errors.

A key is installed as sixteen copies of its first byte.  A packet is sent from the buffer of
received packets, and the bit that asks for an acknowledgement is never taken back.  A received
packet is delivered as it stands in the FIFO; but one whose length is out of range ends the call
before reception is allowed again.
-/
import Embarc.Lib.Run
import Embarc.Peripheral.Mrf24j40

namespace Embarc

open Trace (Runs)

variable {α β : Type} {s : Mrf24j40} {ercd : Int} {addr value : Byte}

/-! ### Calls over a bus without errors -/

@[simp] theorem mrfM_pure (a : α) : (pure a : MrfM α) s = .ok a s := rfl

@[simp] theorem mrfM_get : (get : MrfM Mrf24j40) s = .ok s s := rfl

@[simp] theorem mrfM_modify (f : Mrf24j40 → Mrf24j40) : (modify f : MrfM Unit) s = .ok () (f s) := rfl

@[simp] theorem mrfM_bind (x : MrfM α) (f : α → MrfM β) :
    (x >>= f) s = match x s with
      | .ok a s' => f a s'
      | .error ercd s' => .error ercd s' := by
  simp only [bind, EStateM.bind]
  cases x s <;> rfl

@[simp] theorem mrfCall_apply (x : MrfM α) :
    mrfCall x ercd s = match x s with
      | .ok a s' => .ok a s'
      | .error _ s' => .error ercd s' := by
  simp only [mrfCall, tryCatch, tryCatchThe, MonadExceptOf.tryCatch, EStateM.tryCatch]
  cases x s <;> rfl

@[simp] theorem spiCheckObj_ok : spiCheckObj .errorFree s = .ok () s := rfl

theorem mrfCheck_true : mrfCheck true ercd s = .ok () s := rfl

theorem mrfCheck_false : mrfCheck false ercd s = .error ercd s := rfl

@[simp] theorem mrfTransfer_ok (msg : List Byte) (n : Nat) :
    mrfTransfer .errorFree msg n s = .ok (s.chip.transfer n msg).1
      { s with sent := s.sent ++ [msg], chip := (s.chip.transfer n msg).2 } := rfl

theorem mrf24j40ReadShort_ok (h : addr < 0x40) :
    mrf24j40ReadShortCtrlReg .errorFree addr s =
      .ok (s.chip.short addr) { s with sent := s.sent ++ [[addr <<< 1 &&& 0x7e]] } := by
  have hbits : ∀ addr : Byte, addr < 0x40 → (addr <<< 1 &&& 0x7e).getLsbD 7 = false ∧
      (addr <<< 1 &&& 0x7e).getLsbD 0 = false ∧ (addr <<< 1 &&& 0x7e) >>> 1 = addr := by decide
  obtain ⟨hlong, hwrite, haddr⟩ := hbits addr h
  simp only [mrf24j40ReadShortCtrlReg, mrfM_bind, mrfCall_apply, spiCheckObj_ok, mrfTransfer_ok,
    mrfM_pure, Mrf24j40Chip.transfer, hlong, hwrite, haddr, Bool.false_eq_true, if_false]
  rfl

theorem mrf24j40WriteShort_ok (h : addr < 0x40) :
    mrf24j40WriteShortCtrlReg .errorFree addr value s =
      .ok () { s with
        sent := s.sent ++ [[(addr <<< 1 &&& 0x7e) ||| 1, value, 0]]
        chip := { s.chip with short := Function.update s.chip.short addr value } } := by
  have hbits : ∀ addr : Byte, addr < 0x40 → ((addr <<< 1 &&& 0x7e) ||| 1).getLsbD 7 = false ∧
      ((addr <<< 1 &&& 0x7e) ||| 1).getLsbD 0 = true ∧
      ((addr <<< 1 &&& 0x7e) ||| 1) >>> 1 = addr := by decide
  obtain ⟨hlong, hwrite, haddr⟩ := hbits addr h
  simp only [mrf24j40WriteShortCtrlReg, mrfM_bind, mrfCall_apply, spiCheckObj_ok, mrfTransfer_ok,
    mrfM_pure, Mrf24j40Chip.transfer, hlong, hwrite, haddr, Bool.false_eq_true, if_false, if_true]
  rfl

/-! ### Keys -/

/-- One message that writes the sixteen bytes of the key from `addr` on. -/
def InstallsKey (s : Mrf24j40) (addr : BitVec 16) (key : Nat → Byte) (set : MrfM Unit) : Prop :=
  ∃ s', set s = .ok () s' ∧
    s'.sent = s.sent ++ [mrfLongHeader addr true ++ (List.range 16).map key]

theorem mrf24j40SetKey_installs (addr : BitVec 16) (key : Nat → Byte) :
    InstallsKey s addr key (mrf24j40SetKey .errorFree addr key) ↔ ∀ i < 16, key i = key 0 := by
  have hset : ∃ chip, mrf24j40SetKey .errorFree addr key s = .ok () { s with
      sent := s.sent ++ [mrfLongHeader addr true ++ (List.range 16).map fun _ => key 0]
      chip } := ⟨_, rfl⟩
  obtain ⟨chip, hset⟩ := hset
  simp only [InstallsKey, hset, EStateM.Result.ok.injEq, true_and, exists_eq_left',
    List.append_cancel_left_eq, List.cons.injEq, and_true, List.map_inj_left, List.mem_range]
  exact forall₂_congr fun i _ => eq_comm

/-- A key is installed as it is given exactly when its bytes are all the same. -/
theorem radio_key_iff (s : Mrf24j40) (key : Nat → Byte) :
    InstallsKey s mrf24j40SecktxnFifo key (mrf24j40SetTxKey .errorFree (some key)) ∧
      InstallsKey s mrf24j40SeckrxFifo key (mrf24j40SetRxKey .errorFree (some key)) ↔
    ∀ i < 16, key i = key 0 :=
  (and_congr (mrf24j40SetKey_installs _ key) (mrf24j40SetKey_installs _ key)).trans and_self_iff

/-! ### Reception -/

/-- The length byte of the packet in the FIFO. -/
def Mrf24j40.length (s : Mrf24j40) : Nat := (s.chip.long 0x300).toNat

/-- Reception is allowed again, and a packet that is delivered is the one in the FIFO. -/
def ReceivesRight (s : Mrf24j40) (lqi rssi : Bool) : EStateM.Result Int Mrf24j40 Unit → Prop
  | .error _ s' => s'.chip.short mrf24j40Bbreg1 &&& mrf24j40Rxdecinv = 0
  | .ok _ s' => s'.chip.short mrf24j40Bbreg1 &&& mrf24j40Rxdecinv = 0 ∧
    (∀ i < s.length, s'.buf (1 + i) = s.chip.long (0x301 + i)) ∧
    (lqi = true → s'.lqi = s.chip.long (0x301 + s.length)) ∧
    (rssi = true → s'.rssi = s.chip.long (0x301 + (s.length + 1)))

theorem mrf24j40ReadLength_ok :
    mrf24j40ReadLongCtrlReg .errorFree mrf24j40RxFifo s =
      .ok (s.chip.long 0x300) { s with sent := s.sent ++ [mrfLongHeader mrf24j40RxFifo false] } := rfl

/-- Bytes of the FIFO behind the length byte, as they come to stand in `rx_buf`. -/
theorem mrf24j40RxpktFrameWrite_ok (length : Byte) :
    mrf24j40RxpktFrameWrite .errorFree length s = .ok () { s with
      sent := s.sent ++ [mrfLongHeader (mrf24j40RxFifo + 1) false]
      buf := fun i => if 1 ≤ i ∧ i < 1 + length.toNat then s.chip.long (0x301 + (i - 1))
        else s.buf i } := by
  have hanswer : s.chip.transfer length.toNat (mrfLongHeader (mrf24j40RxFifo + 1) false) =
      ((List.range length.toNat).map fun i => s.chip.long (0x301 + i), s.chip) := rfl
  simp only [mrf24j40RxpktFrameWrite, mrfM_bind, mrfTransfer_ok, hanswer, mrfM_modify,
    List.length_map, List.length_range]
  congr 2
  funext i
  split
  · rename_i h
    simp [show i - 1 < length.toNat by omega]
  · rfl

/-- What the flush leaves in the radio, and what it sends. -/
def Mrf24j40.flushed (s : Mrf24j40) : Mrf24j40 := { s with
  chip.short := Function.update s.chip.short mrf24j40Rxflush (s.chip.short mrf24j40Rxflush ||| 1)
  sent := s.sent ++ [[0x1a], [0x1b, s.chip.short mrf24j40Rxflush ||| 1, 0]] }

@[simp] theorem Mrf24j40.flushed_buf : s.flushed.buf = s.buf := rfl
@[simp] theorem Mrf24j40.flushed_lqi : s.flushed.lqi = s.lqi := rfl
@[simp] theorem Mrf24j40.flushed_rssi : s.flushed.rssi = s.rssi := rfl

theorem mrf24j40RxfifoFlush_ok : mrf24j40RxfifoFlush .errorFree s = .ok () s.flushed := by
  have hreg : mrf24j40Rxflush < 0x40 := by decide
  simp only [mrf24j40RxfifoFlush, mrfM_bind, mrfCall_apply, mrf24j40ReadShort_ok hreg,
    mrf24j40WriteShort_ok hreg, List.append_assoc]
  rfl

/-- Reception goes right exactly when the length byte leaves room for what follows the packet. -/
theorem radio_receive_iff (s : Mrf24j40) (lqi rssi : Bool) :
    ReceivesRight s lqi rssi (mrf24j40Rxpkt .errorFree lqi rssi s) ↔ s.length + 3 ≤ 144 := by
  have hreg : mrf24j40Bbreg1 < 0x40 := by decide
  have hlength : (s.chip.long 0x300).toNat = s.length := rfl
  simp only [mrf24j40Rxpkt, mrfM_bind, mrfCall_apply, spiCheckObj_ok, mrf24j40ReadShort_ok hreg,
    mrf24j40WriteShort_ok hreg, mrf24j40ReadLength_ok, mrfM_modify, mrf24j40RxpktFrameWrite_ok,
    hlength]
  by_cases hlen : s.length + 3 ≤ 144
  · have hin : decide (s.length + 3 ≤ mrf24j40RxFifoSize) = true := decide_eq_true hlen
    have hcount : (s.chip.long 0x300 + 2).toNat = s.length + 2 := by
      rw [BitVec.toNat_add, hlength, Nat.mod_eq_of_lt (by simp; omega)]
      rfl
    have hclear : ∀ b : Byte, b &&& ~~~mrf24j40Rxdecinv &&& mrf24j40Rxdecinv = 0#8 := by decide
    have hframe : ∀ i < s.length, i < s.length + 2 := fun i hi => by omega
    have hlqi : s.length + 1 < 1 + (s.length + 2) := by omega
    simp only [hin, mrfCheck_true, hlen, iff_true, hcount]
    cases lqi <;> cases rssi <;>
      simp +contextual [mrf24j40RxfifoFlush_ok, ReceivesRight, mrf24j40ReadShort_ok hreg,
        mrf24j40WriteShort_ok hreg, hclear, hframe, hlqi]
  · -- the check fails before the bit is taken back
    have hout : decide (s.length + 3 ≤ mrf24j40RxFifoSize) = false := decide_eq_false hlen
    have hset : ∀ b : Byte, (b ||| mrf24j40Rxdecinv) &&& mrf24j40Rxdecinv ≠ 0 := by decide
    simp only [hout, mrfCheck_false, ReceivesRight, Function.update_self, hlen, iff_false]
    exact hset _

def Mrf24j40.sample (len : Byte) : Mrf24j40 where
  chip := ⟨fun _ => 0, fun a => if a = 0x300 then len else 0⟩
  buf := fun _ => 0
  sent := []
  lqi := 0
  rssi := 0

/-- A packet that claims 200 bytes blocks reception. -/
theorem radio_receive_blocked : ∃ s', mrf24j40Rxpkt .errorFree true true (.sample 200) =
    .error ePar s' ∧ s'.chip.short mrf24j40Bbreg1 = mrf24j40Rxdecinv :=
  ⟨_, rfl, rfl⟩

/-- Keys that differ behind their first byte become the same key. -/
theorem radio_key_lost : ¬ InstallsKey (.sample 0) mrf24j40SecktxnFifo (BitVec.ofNat 8)
      (mrf24j40SetTxKey .errorFree (some (BitVec.ofNat 8))) ∧
    mrf24j40SetTxKey .errorFree (some (BitVec.ofNat 8)) (.sample 0) =
      mrf24j40SetTxKey .errorFree (some fun _ => 0) (.sample 0) := by
  refine ⟨?_, rfl⟩
  rintro ⟨s', hset, hsent⟩
  cases hset
  exact absurd hsent (by decide)

/-! ### Transmission -/

/-- The packet is placed in `tx_buf`. -/
def Mrf24j40.place (s : Mrf24j40) (pkt : Nat → Byte) : Mrf24j40 :=
  { s with buf := fun i => if i < 144 then s.buf i else pkt (i - 144) }

/-- Header length, frame length and frame, from the start of a buffer. -/
def mrfFrame (buf : Nat → Byte) : List Byte :=
  buf 0 :: buf 1 :: (List.range (buf 1).toNat).map fun i => buf (2 + i)

/-- The control bits for a frame, with the bits of TXNCON that are kept. -/
def mrfTxncon (old frame : Byte) : Byte :=
  let retval := old &&& ~~~mrf24j40Txnsecen
  let retval := if ieeeHasSec frame then retval ||| mrf24j40Txnsecen else retval
  let retval := if ieeeWantsAck frame then retval ||| mrf24j40Txnackreq else retval
  retval ||| mrf24j40Txntrig

def mrfTxMessages (frame : List Byte) (txncon : Byte) : List (List Byte) :=
  [[0x36], mrfLongHeader mrf24j40TxnFifo true ++ frame, [0x37, txncon, 0]]

theorem mrf24j40Txpkt_ok : ∃ chip, mrf24j40Txpkt .errorFree s = .ok () { s with
    sent := s.sent ++
      mrfTxMessages (mrfFrame s.buf) (mrfTxncon (s.chip.short mrf24j40Txncon) (s.buf 2))
    chip } := by
  have hreg : mrf24j40Txncon < 0x40 := by decide
  simp only [mrf24j40Txpkt, mrfM_bind, mrfM_get, mrfCall_apply, spiCheckObj_ok,
    mrf24j40ReadShort_ok hreg, mrf24j40TxpktFrameWrite, mrfTransfer_ok, mrfM_pure,
    mrf24j40WriteShort_ok hreg, List.append_assoc]
  exact ⟨_, rfl⟩

def radioSend (s : Mrf24j40) (pkt : Nat → Byte) : Except Int Mrf24j40 :=
  match mrf24j40Txpkt .errorFree (s.place pkt) with
  | .ok _ s' => .ok s'
  | .error ercd _ => .error ercd

/-- The packet goes out as it was placed, with the control bits of its frame. -/
def SendsRight (s : Mrf24j40) (pkt : Nat → Byte) : Prop :=
  ∃ s' txncon, radioSend s pkt = .ok s' ∧
    s'.sent = s.sent ++ mrfTxMessages (mrfFrame pkt) txncon ∧
    txncon.getLsbD 1 = ieeeHasSec (pkt 2) ∧ txncon.getLsbD 2 = ieeeWantsAck (pkt 2)

/-- The packet stands in `rx_buf` too, or what stands there looks the same; and no earlier frame
has asked for an acknowledgement unless this one does. -/
def SendsReceived (s : Mrf24j40) (pkt : Nat → Byte) : Prop :=
  mrfFrame (s.place pkt).buf = mrfFrame pkt ∧ ieeeHasSec (s.buf 2) = ieeeHasSec (pkt 2) ∧
    ((s.chip.short mrf24j40Txncon).getLsbD 2 || ieeeWantsAck (s.buf 2)) = ieeeWantsAck (pkt 2)

theorem mrfTxncon_bits (old frame : Byte) :
    (mrfTxncon old frame).getLsbD 1 = ieeeHasSec frame ∧
      (mrfTxncon old frame).getLsbD 2 = (old.getLsbD 2 || ieeeWantsAck frame) := by
  simp only [mrfTxncon, mrf24j40Txnsecen, mrf24j40Txnackreq, mrf24j40Txntrig]
  cases ieeeHasSec frame <;> cases ieeeWantsAck frame <;> simp

theorem mrfTxMessages_inj {frame frame' : List Byte} {txncon txncon' : Byte} :
    mrfTxMessages frame txncon = mrfTxMessages frame' txncon' ↔
      frame = frame' ∧ txncon = txncon' := by
  simp [mrfTxMessages]

theorem sendsRight_iff (pkt : Nat → Byte) : SendsRight s pkt ↔ SendsReceived s pkt := by
  obtain ⟨chip, hsend⟩ := mrf24j40Txpkt_ok (s := s.place pkt)
  obtain ⟨hsec, hack⟩ := mrfTxncon_bits (s.chip.short mrf24j40Txncon) (s.buf 2)
  simp only [SendsRight, radioSend, hsend, Except.ok.injEq, SendsReceived]
  constructor
  · rintro ⟨s', txncon, rfl, hsent, hsec', hack'⟩
    obtain ⟨hframe, rfl⟩ := mrfTxMessages_inj.mp (List.append_cancel_left hsent)
    exact ⟨hframe, hsec.symm.trans hsec', hack.symm.trans hack'⟩
  · rintro ⟨hframe, hsec', hack'⟩
    refine ⟨_, _, rfl, ?_, hsec.trans hsec', hack.trans hack'⟩
    rw [← hframe]
    rfl

/-- Over any sequence of packets, each goes out as it was placed **exactly if** each looks like
what stands in the buffer of received packets, and asks for an acknowledgement if one before it
did. -/
theorem radio_send_iff {s' : Mrf24j40} {pkts : List (Nat → Byte)} :
    Runs radioSend SendsRight s pkts s' ↔ Runs radioSend SendsReceived s pkts s' :=
  Runs.congr (I := fun _ => True) (fun _ _ _ _ _ _ => trivial)
    (fun _ pkt _ _ _ => sendsRight_iff pkt) trivial

/-- One byte that asks for an acknowledgement; an empty frame goes out. -/
theorem radio_send_lost :
    ¬ SendsRight (.sample 0) (fun i => if i = 2 then 0x20 else 1) ∧
      ∃ s', radioSend (.sample 0) (fun i => if i = 2 then 0x20 else 1) = .ok s' ∧
        s'.sent = mrfTxMessages [0, 0] mrf24j40Txntrig := by
  refine ⟨?_, _, rfl, rfl⟩
  rintro ⟨s', txncon, hsend, hsent, -⟩
  cases hsend
  exact absurd (mrfTxMessages_inj.mp hsent).1 (by decide)

end Embarc
