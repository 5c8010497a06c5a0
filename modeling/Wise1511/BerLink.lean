import Mathlib.Algebra.BigOperators.Group.Finset.Basic
import Wise1511.RxBer

/-!
# Both ends of the bit-error-rate test

The two-way build, with `tx_ber_single` and `rx_ber_single` at the two ends of a channel that
delivers every packet and may change any byte from index 5 on. The receiver compares what arrives
with `rand_data`, counts the differences, *cleans* the bytes and sends everything back; the sender
adds the count to `error_forward` and its own differences to `error_reverse`.

The reply is `rand_data`, so the reverse count is right. The forward packet is not: the loop that
filled it with `rand_data` is commented out and a text stands in its place, so the receiver counts
the text's own bytes as errors. An error-free channel scores.

What the sender puts on the air is known without running it: its text over the previous reply. With
`onAir` for that, the forward total is off by the bytes that arrive unchanged and differ from
`rand_data`, less the bytes the channel happens to turn into `rand_data`.

## Main results

* `link_counts` — what the two totals are
* `countsExact_iff` — when they are what they should be
-/

namespace Wise1511

/-! ### The channel -/

/-- The channel in one round: the changes to both packets, the registers of both radios when a
packet is in, and the status of the sender's wait. -/
structure Noise where
  fwd : CArray
  rev : CArray
  rxRegs : CArray
  txRegs : CArray
  status : UInt32
  /-- The forward packet is accepted. -/
  accepted : rxRegs lqiVal.toNat &&& crcOk ≠ 0
  /-- The reply is in before the timeout. -/
  inTime : status ≤ 8000

/-- Change a packet by a mask, from index 5 on. -/
def corrupt (mask : CArray) (packet : List UInt8) : List UInt8 :=
  packet.mapIdx fun i b => if 5 ≤ i then b ^^^ mask i else b

/-- The packet transmitted last. -/
def lastSent (c : Chip) : List UInt8 := c.sent.getLastD []

/-- The packet length of every caller. -/
def defaultPktlen : UInt16 := 20

/-- Both programs between two rounds. -/
structure Link where
  cc : UInt32
  tx : TxVars
  busT : SpiBus Chip Phase
  rx : RxVars
  busR : SpiBus Chip Phase

/-- The sender's packet, as it comes out of the channel. -/
def Link.packet (s : Link) (n : Noise) : List UInt8 :=
  corrupt n.fwd
    (lastSent ((txSend (cc112x liveView) defaultPktlen s.cc id s.tx).run s.busT).2.dev)

/-- The receiver's loop body, given that packet. -/
def Link.handled (s : Link) (n : Noise) : (RxVars × RxLine) × SpiBus Chip Phase :=
  (rxIter (cc112x liveView) true defaultPktlen (fun c => c.receive (s.packet n) n.rxRegs) id
    s.rx).run s.busR

/-- Its reply, as it comes out of the channel. -/
def Link.reply (s : Link) (n : Noise) : List UInt8 := corrupt n.rev (lastSent (s.handled n).2.dev)

/-- One round: the sender's loop body, with that reply coming in while it waits. -/
def Link.round (s : Link) (n : Noise) : Link :=
  let t := (txIter (cc112x liveView) true defaultPktlen s.cc id
    (fun c => c.receive (s.reply n) n.txRegs) n.status s.tx).run s.busT
  ⟨s.cc + 1, t.1, t.2, (s.handled n).1.1, (s.handled n).2⟩

/-- The link as a machine. -/
def link : Mealy Link Noise Unit where
  step s n := (s.round n, ())

/-- Both programs before the first round, on chips that have been reset. -/
def linkStart (freq : UInt32) (v : TxVars) (w : RxVars) (busT busR : SpiBus Chip Phase) :
    Link where
  cc := 0
  tx := { v with errorForward := 0, errorReverse := 0, totalPktCount := 0 }
  busT := ((txStart (cc112x liveView) defaultPktlen freq).run
    { busT with dev := busT.dev.reset }).2
  rx := { w with pckGoodCnt := 0 }
  busR := ((rxStart (cc112x liveView) defaultPktlen freq).run
    { busR with dev := busR.dev.reset }).2

@[simp] theorem length_corrupt (mask : CArray) (packet : List UInt8) :
    (corrupt mask packet).length = packet.length := by
  simp [corrupt]

/-- What a corrupted block of an array reads as. -/
theorem getElem_corrupt_slice (mask p : CArray) {n i : ℕ}
    (h : i < (corrupt mask (p.slice 0 n)).length) :
    (corrupt mask (p.slice 0 n))[i] = if 5 ≤ i then p i ^^^ mask i else p i := by
  simp [corrupt, CArray.getElem_slice]

/-! ### The chips in a round -/

/-- Nothing is left in the FIFOs. -/
structure Quiet (c : Chip) : Prop where
  rx : c.rxFifo = []
  tx : c.txFifo = []

/-- Going to receive changes neither the FIFOs nor what was sent. -/
theorem Quiet.strobe_srx {c : Chip} (hc : Quiet c) : Quiet (c.strobe srx) := ⟨hc.rx, hc.tx⟩

theorem lastSent_strobe_srx (c : Chip) : lastSent (c.strobe srx) = lastSent c := rfl

/-- Twenty bytes survive the mask of `radio_read`: the packet is stored and the FIFO is empty. -/
theorem readOutcome_receive_twenty {c : Chip} (hc : Quiet c) {packet : List UInt8}
    (hlen : packet.length = 20) (regs buf : CArray) {bufLen : UInt16} (hcap : 20 ≤ bufLen) :
    readOutcome (c.receive packet regs) buf bufLen
      = (⟨regs lqiVal.toNat &&& crcOk, buf.overlay 0 packet, 20⟩, { c with regs := regs }) := by
  have hfifo : (c.receive packet regs).rxFifo = packet := by
    rw [Chip.receive, hc.rx, List.nil_append]
  have hseen : seenLen (c.receive packet regs) = 20 := by
    rw [seenLen, hfifo, hlen]
    rfl
  have hpop : (c.receive packet regs).popRx 20 = packet := by
    rw [popRx_eq_take _ (by rw [hfifo, hlen]), hfifo, List.take_of_length_le hlen.le]
  have hdrop : (c.receive packet regs).dropRx 20 = { c with regs := regs } := by
    rw [Chip.dropRx, hfifo, List.drop_of_length_le hlen.le, ← hc.rx]
    rfl
  rw [readOutcome, hseen, if_pos ⟨by decide, hcap⟩, show (20 : UInt8).toNat = 20 from rfl, hpop,
    hdrop]
  rfl

/-- `radio_read` when a packet of twenty bytes has just come in. -/
theorem run_radioRead_twenty {b : SpiBus Chip Phase} (hb : Quiet b.dev) {packet : List UInt8}
    (hlen : packet.length = 20) (regs buf : CArray) {bufLen : UInt16} (hcap : 20 ≤ bufLen) :
    let r := (radioRead (cc112x liveView) buf bufLen).run
      { b with dev := b.dev.receive packet regs }
    r.1 = ⟨regs lqiVal.toNat &&& crcOk, buf.overlay 0 packet, 20⟩ ∧
      r.2.dev = { b.dev with regs := regs } := by
  have hread := run_radioRead buf bufLen { b with dev := b.dev.receive packet regs }
  rw [readOutcome_receive_twenty hb hlen regs buf hcap] at hread
  exact Prod.ext_iff.mp hread

/-- Sending from an empty FIFO sends exactly the payload. -/
theorem pushTx_strobe_stx {c : Chip} (hc : Quiet c) (payload : List UInt8) :
    (c.pushTx payload).strobe stx
      = { c with sent := c.sent ++ [payload], strobes := c.strobes ++ [stx] } := by
  obtain ⟨regs, resetRegs, rxFifo, txFifo, sent, strobes, status, underrun⟩ := c
  have htx : txFifo = [] := hc.tx
  subst htx
  rfl

theorem run_radioSend_quiet (payload : CArray) (len : UInt16) {b : SpiBus Chip Phase}
    (hb : Quiet b.dev) :
    let c := ((radioSend (cc112x liveView) payload len).run b).2.dev
    lastSent c = payload.slice 0 len.toNat ∧ Quiet c := by
  rw [run_radioSend_dev, pushTx_strobe_stx hb]
  exact ⟨List.getLastD_concat .., hb.rx, hb.tx⟩

/-! ### The three parts of a round -/

theorem run_txSend (v : TxVars) (cc : UInt32) {b : SpiBus Chip Phase} (hb : Quiet b.dev) :
    let r := (txSend (cc112x liveView) defaultPktlen cc id v).run b
    r.1 = { v with txBuffer := fillPacket v.txBuffer cc } ∧
      lastSent r.2.dev = (fillPacket v.txBuffer cc).slice 0 20 ∧ Quiet r.2.dev := by
  have hsend := run_radioSend_quiet (fillPacket v.txBuffer cc) defaultPktlen hb
  simp only [txSend, SpiM.run_bind, SpiM.run_pure, run_elapse]
  exact ⟨trivial, hsend⟩

/-- The good branch of the receiver sends its reply. -/
theorem run_rxGood_reply (buf : CArray) (w : RxVars) {b : SpiBus Chip Phase} (hb : Quiet b.dev) :
    let c := ((rxGood (cc112x liveView) true defaultPktlen id buf w).run b).2.dev
    lastSent c = (replyPacket buf (rssiOf (b.dev.regs rssi1.toNat)) 20).slice 0 20 ∧ Quiet c := by
  obtain ⟨hrssi, hdev⟩ := run_radioGetRssi b
  obtain ⟨-, hdev'⟩ := run_radioFreqError ((radioGetRssi (cc112x liveView)).run b).2
  have hquiet : Quiet ((radioFreqError (cc112x liveView)).run
      ((radioGetRssi (cc112x liveView)).run b).2).2.dev := by
    rw [hdev', hdev]
    exact hb
  have hsend := run_radioSend_quiet
    (replyPacket buf (rssiOf (b.dev.regs rssi1.toNat)) 20) defaultPktlen hquiet
  simp only [rxGood, if_true, SpiM.run_bind, SpiM.run_pure, run_elapse, hrssi]
  exact hsend

/-- The receiver sends back what it has made of the packet. -/
theorem run_rxIter_reply (w : RxVars) {packet : List UInt8} (hlen : packet.length = 20)
    {regs : CArray} (hcrc : regs lqiVal.toNat &&& crcOk ≠ 0) {b : SpiBus Chip Phase}
    (hb : Quiet b.dev) :
    let c := ((rxIter (cc112x liveView) true defaultPktlen (fun c => c.receive packet regs) id
      w).run b).2.dev
    lastSent c
        = (replyPacket (CArray.overlay w.txBuffer 0 packet) (rssiOf (regs rssi1.toNat)) 20).slice
          0 20
      ∧ Quiet c := by
  obtain ⟨hd, hdev⟩ := run_radioRead_twenty hb hlen regs w.txBuffer
    (show 20 ≤ UInt16.ofNat bufferSize by decide)
  simp only [rxIter, SpiM.run_bind, run_elapse]
  generalize (radioRead (cc112x liveView) w.txBuffer (UInt16.ofNat bufferSize)).run
    { b with dev := b.dev.receive packet regs } = r at hd hdev
  have hgood : 0 < r.1.status := by
    rw [hd]
    exact UInt8.pos_iff_ne_zero.mpr hcrc
  have hquiet : Quiet r.2.dev := by
    rw [hdev]
    exact ⟨hb.rx, hb.tx⟩
  obtain ⟨hsent, hquiet'⟩ := run_rxGood_reply r.1.buf w hquiet
  rw [hdev] at hsent
  simp only [if_pos hgood, SpiM.run_bind, SpiM.run_pure, run_radioReceiveOn_dev,
    lastSent_strobe_srx]
  rw [hd] at hsent hquiet' ⊢
  exact ⟨hsent, hquiet'.strobe_srx⟩

/-- The sender takes its totals from the reply. -/
theorem run_txIter_reply (v : TxVars) (cc : UInt32) {reply : List UInt8} (hlen : reply.length = 20)
    (regs : CArray) {status : UInt32} (hstatus : status ≤ 8000) {b : SpiBus Chip Phase}
    (hb : Quiet b.dev) :
    let r := (txIter (cc112x liveView) true defaultPktlen cc id (fun c => c.receive reply regs)
      status v).run b
    let buf := CArray.overlay (fillPacket v.txBuffer cc) 0 reply
    r.1.txBuffer = buf ∧ r.1.errorForward = v.errorForward + (buf 4).toUInt32 ∧
      r.1.errorReverse = v.errorReverse + (dataErrors buf 20).toUInt32 ∧ Quiet r.2.dev := by
  obtain ⟨hvars, -, hquiet⟩ := run_txSend v cc hb
  simp only [txIter, if_true, SpiM.run_bind, run_elapse]
  generalize (txSend (cc112x liveView) defaultPktlen cc id v).run b = r₀ at hvars hquiet
  have hquiet₁ : Quiet ((radioReceiveOn (cc112x liveView)).run r₀.2).2.dev := by
    rw [run_radioReceiveOn_dev]
    exact hquiet.strobe_srx
  generalize ((radioReceiveOn (cc112x liveView)).run r₀.2).2 = b₁ at hquiet₁
  obtain ⟨hd, hdev⟩ := run_radioRead_twenty hquiet₁ hlen regs r₀.1.txBuffer
    (show 20 ≤ defaultPktlen by decide)
  simp only [txReply, if_pos hstatus, SpiM.run_bind, SpiM.run_pure]
  generalize (radioRead (cc112x liveView) r₀.1.txBuffer defaultPktlen).run
    { b₁ with dev := b₁.dev.receive reply regs } = r at hd hdev
  obtain ⟨-, hdev₂⟩ := run_radioGetRssi r.2
  obtain ⟨-, hdev₃⟩ := run_radioFreqError ((radioGetRssi (cc112x liveView)).run r.2).2
  rw [hdev₃, hdev₂, hdev, hd, hvars]
  exact ⟨rfl, rfl, rfl, hquiet₁.rx, hquiet₁.tx⟩

/-! ### Counting in a round -/

/-- An array whose bytes the channel changes by a mask. -/
def changedBy (mask p : CArray) : CArray := fun i => p i ^^^ mask i

/-- The data bytes of a packet. -/
def dataBytes : List ℕ := dataIndices 20

/-- How many data bytes a mask changes. -/
def changed (mask : CArray) : ℕ := dataBytes.countP fun i => mask i ≠ 0

theorem mem_dataBytes {i : ℕ} : i ∈ dataBytes ↔ 5 ≤ i ∧ i < 20 := mem_dataIndices

theorem mismatches_le (buf : CArray) : mismatches buf dataBytes ≤ 15 := List.countP_le_length

theorem changed_le (mask : CArray) : changed mask ≤ 15 := List.countP_le_length

theorem toUInt32_ofNat : ∀ n ≤ 15, (UInt8.ofNat n).toUInt32 = UInt32.ofNat n ∧
    (UInt16.ofNat n).toUInt32 = UInt32.ofNat n := by decide

theorem xor_eq_left_iff (r m : UInt8) : r ^^^ m = r ↔ m = 0 := by
  constructor
  · intro h
    calc m = r ^^^ (r ^^^ m) := by rw [← UInt8.xor_assoc, UInt8.xor_self, UInt8.zero_xor]
      _ = r ^^^ r := by rw [h]
      _ = 0 := UInt8.xor_self
  · rintro rfl
    exact UInt8.xor_zero

/-- Against a sender of `rand_data`, the mismatches are the changes. -/
theorem mismatches_randData (mask : CArray) :
    mismatches (changedBy mask randData) dataBytes = changed mask := by
  refine List.countP_congr fun i _ => ?_
  simp only [decide_eq_true_eq, changedBy, ne_eq, xor_eq_left_iff]

theorem replyPacket_data (buf : CArray) (rssi : ℤ) {i : ℕ} (hi : i ∈ dataBytes) :
    replyPacket buf rssi 20 i = randData i := by
  have h5 := (mem_dataBytes.mp hi).1
  exact foldl_countAndClean_of_mem _ hi (by omega)

theorem replyPacket_four (buf : CArray) (rssi : ℤ) :
    replyPacket buf rssi 20 4 = UInt8.ofNat (mismatches buf dataBytes) := by
  have h4 : 4 ∉ dataBytes := by
    rw [mem_dataBytes]
    omega
  have hsame : mismatches (Function.update (Function.update buf 3 (UInt8.ofInt rssi)) 4 0)
      dataBytes = mismatches buf dataBytes := by
    refine mismatches_congr ?_
    intro i hi
    have h5 := (mem_dataBytes.mp hi).1
    rw [Function.update_of_ne (by omega), Function.update_of_ne (by omega)]
  have hcount := foldl_countAndClean_four
    (Function.update (Function.update buf 3 (UInt8.ofInt rssi)) 4 0) (nodup_dataIndices 20) h4
  rw [Function.update_self, UInt8.zero_add] at hcount
  exact hcount.trans (congrArg UInt8.ofNat hsame)

/-- What reaches a buffer of a packet the channel has changed. -/
theorem overlay_corrupt (buf mask p : CArray) {i : ℕ} (hi : i < 20) :
    buf.overlay 0 (corrupt mask (p.slice 0 20)) i = if 5 ≤ i then p i ^^^ mask i else p i := by
  rw [CArray.overlay_zero (by simpa using hi), getElem_corrupt_slice]

theorem packet_eq (s : Link) (n : Noise) (hT : Quiet s.busT.dev) :
    s.packet n = corrupt n.fwd ((fillPacket s.tx.txBuffer s.cc).slice 0 20) :=
  congrArg (corrupt n.fwd) (run_txSend s.tx s.cc hT).2.1

/-- The reply carries the count in byte 4 and `rand_data` after it. -/
theorem reply_spec (s : Link) (n : Noise) (hT : Quiet s.busT.dev) (hR : Quiet s.busR.dev) :
    ∃ sent : CArray, s.reply n = corrupt n.rev (sent.slice 0 20) ∧
      sent 4 = UInt8.ofNat
        (mismatches (changedBy n.fwd (fillPacket s.tx.txBuffer s.cc)) dataBytes) ∧
      (∀ i ∈ dataBytes, sent i = randData i) ∧ Quiet (s.handled n).2.dev := by
  have hlen : (s.packet n).length = 20 := by
    rw [packet_eq s n hT]
    simp
  obtain ⟨hsent, hquiet⟩ := run_rxIter_reply s.rx hlen n.accepted hR
  refine ⟨_, congrArg (corrupt n.rev) hsent, ?_, fun i => replyPacket_data _ _, hquiet⟩
  rw [replyPacket_four]
  refine congrArg UInt8.ofNat (mismatches_congr ?_)
  intro i hi
  obtain ⟨h5, h20⟩ := mem_dataBytes.mp hi
  rw [packet_eq s n hT, overlay_corrupt _ _ _ h20, if_pos h5]
  rfl

/-- **One round.** The forward total grows by the mismatches of what was on the air, the reverse
total by the changes to the reply, and the reply is what the sender's buffer holds afterwards. -/
theorem round_spec (s : Link) (n : Noise) (hT : Quiet s.busT.dev) (hR : Quiet s.busR.dev) :
    let onAir := fillPacket s.tx.txBuffer s.cc
    (s.round n).cc = s.cc + 1 ∧ Quiet (s.round n).busT.dev ∧ Quiet (s.round n).busR.dev ∧
      (∀ i ∈ dataBytes, (s.round n).tx.txBuffer i = changedBy n.rev randData i) ∧
      (s.round n).tx.errorForward
        = s.tx.errorForward + UInt32.ofNat (mismatches (changedBy n.fwd onAir) dataBytes) ∧
      (s.round n).tx.errorReverse = s.tx.errorReverse + UInt32.ofNat (changed n.rev) := by
  intro onAir
  obtain ⟨sent, hreply, hcount, hclean, hquietR⟩ := reply_spec s n hT hR
  have hlen : (s.reply n).length = 20 := by
    rw [hreply]
    simp
  obtain ⟨hbuf, hfwd, hrev, hquietT⟩ :
      (s.round n).tx.txBuffer = CArray.overlay onAir 0 (s.reply n) ∧
      (s.round n).tx.errorForward
        = s.tx.errorForward + (CArray.overlay onAir 0 (s.reply n) 4).toUInt32 ∧
      (s.round n).tx.errorReverse
        = s.tx.errorReverse + (dataErrors (CArray.overlay onAir 0 (s.reply n)) 20).toUInt32 ∧
      Quiet (s.round n).busT.dev :=
    run_txIter_reply s.tx s.cc hlen n.txRegs n.inTime hT
  rw [hreply] at hbuf hfwd hrev
  have hdata : ∀ i ∈ dataBytes, CArray.overlay onAir 0 (corrupt n.rev (sent.slice 0 20)) i
      = changedBy n.rev randData i := by
    intro i hi
    obtain ⟨h5, h20⟩ := mem_dataBytes.mp hi
    rw [overlay_corrupt _ _ _ h20, if_pos h5, hclean i hi]
    rfl
  refine ⟨rfl, hquietT, hquietR, ?_, ?_, ?_⟩
  · intro i hi
    exact (congrFun hbuf i).trans (hdata i hi)
  · rw [hfwd, overlay_corrupt _ _ _ (by decide), if_neg (by decide), hcount,
      (toUInt32_ofNat _ (mismatches_le _)).1]
  · rw [hrev, dataErrors_eq, ← dataBytes, mismatches_congr hdata, mismatches_randData,
      (toUInt32_ofNat _ (changed_le _)).2]

/-! ### A run -/

/-- The sender's data bytes before round `k`: its own at first, and from then on the reply. -/
def staleBuffer (start : CArray) (noise : ℕ → Noise) : ℕ → CArray
  | 0 => start
  | k + 1 => changedBy (noise k).rev randData

/-- What the sender puts on the air in round `k`. -/
def onAir (start : CArray) (noise : ℕ → Noise) (k : ℕ) : CArray :=
  fillPacket (staleBuffer start noise k) (UInt32.ofNat k)

/-- The mismatches among the data bytes that reach the receiver in round `k`. -/
def arrivingMismatches (start : CArray) (noise : ℕ → Noise) (k : ℕ) : ℕ :=
  mismatches (changedBy (noise k).fwd (onAir start noise k)) dataBytes

/-- A byte of the packet depends on the buffer only through that byte. -/
theorem fillPacket_congr {p q : CArray} (cc : UInt32) {i : ℕ} (hi : 3 ≤ i) (h : p i = q i) :
    fillPacket p cc i = fillPacket q cc i := by
  by_cases hin : i < 3 + (burstText cc ++ [0]).length
  · obtain ⟨j, rfl⟩ := Nat.exists_eq_add_of_le hi
    have hj : j < (burstText cc ++ [0]).length := by omega
    rw [fillPacket, fillPacket, CArray.sprintf, CArray.sprintf, CArray.overlay_add _ _ hj,
      CArray.overlay_add _ _ hj]
  · have hout : ∀ r : CArray, fillPacket r cc i = r i := by
      intro r
      rw [fillPacket, CArray.sprintf, CArray.overlay_of_ge _ _ (by omega),
        Function.update_of_ne (by omega), Function.update_of_ne (by omega),
        Function.update_of_ne (by omega)]
    rw [hout, hout, h]

/-- After `k` rounds. -/
structure LinkInv (start : CArray) (noise : ℕ → Noise) (k : ℕ) (s : Link) : Prop where
  cc : s.cc = UInt32.ofNat k
  quietT : Quiet s.busT.dev
  quietR : Quiet s.busR.dev
  buffer : ∀ i ∈ dataBytes, s.tx.txBuffer i = staleBuffer start noise k i
  forward : s.tx.errorForward
    = UInt32.ofNat (∑ j ∈ Finset.range k, arrivingMismatches start noise j)
  reverse : s.tx.errorReverse = UInt32.ofNat (∑ j ∈ Finset.range k, changed (noise j).rev)

theorem LinkInv.round {start : CArray} {noise : ℕ → Noise} {k : ℕ} {s : Link}
    (h : LinkInv start noise k s) : LinkInv start noise (k + 1) (s.round (noise k)) := by
  obtain ⟨hcc, hT, hR, hbuf, hfwd, hrev⟩ := round_spec s (noise k) h.quietT h.quietR
  have hair : mismatches (changedBy (noise k).fwd (fillPacket s.tx.txBuffer s.cc)) dataBytes
      = arrivingMismatches start noise k := by
    refine mismatches_congr ?_
    intro i hi
    have h5 := (mem_dataBytes.mp hi).1
    have hsame := fillPacket_congr s.cc (by omega) (h.buffer i hi)
    rw [changedBy, changedBy, onAir, hsame, h.cc]
  refine ⟨?_, hT, hR, hbuf, ?_, ?_⟩
  · rw [hcc, h.cc]
    exact (UInt32.ofNat_add k 1).symm
  · rw [hfwd, h.forward, hair, Finset.sum_range_succ, UInt32.ofNat_add]
  · rw [hrev, h.reverse, Finset.sum_range_succ, UInt32.ofNat_add]

theorem LinkInv.after {start : CArray} {noise : ℕ → Noise} {s : Link}
    (h : LinkInv start noise 0 s) (k : ℕ) :
    LinkInv start noise k (link.after s ((List.range k).map noise)) := by
  induction k with
  | zero => exact h
  | succ k ih =>
    rw [List.range_succ, List.map_append, Mealy.after_append]
    exact ih.round

/-! ### Both programs from their start -/

theorem Quiet.accessDev {c : Chip} (hc : Quiet c) (t : UInt8) (a w : ℕ) (pData : CArray) :
    Quiet (accessDev t a w pData c) := by
  rw [Wise1511.accessDev]
  split_ifs
  · exact hc
  · exact ⟨hc.rx, hc.tx⟩

/-- Setting the packet length only writes registers. -/
theorem quiet_setRfPacketLength (length : UInt8) {b : SpiBus Chip Phase} (hb : Quiet b.dev) :
    Quiet ((setRfPacketLength (cc112x liveView) length).run b).2.dev := by
  have hwrite : ∀ n < 0x2F, ∀ (v : UInt8) (b : SpiBus Chip Phase), Quiet b.dev →
      Quiet ((trx8BitRegAccess (cc112x liveView) radioWriteAccess (UInt8.ofNat n) (localByte v)
        1).run b).2.dev := by
    intro n hn v b hb
    rw [(run_trx8_std liveView (by decide) hn (localByte v) 1 b).2]
    exact hb.accessDev ..
  simp only [setRfPacketLength, SpiM.run_bind, SpiM.run_pure]
  exact hwrite 0x28 (by decide) _ _ (hwrite 0x2E (by decide) _ _ hb)

theorem quiet_txStart (pktlen : UInt16) (freq : UInt32) {b : SpiBus Chip Phase}
    (hb : Quiet b.dev) : Quiet ((txStart (cc112x liveView) pktlen freq).run b).2.dev := by
  have hlength := quiet_setRfPacketLength pktlen.toUInt8 hb
  rw [txStart, SpiM.run_bind, run_radioSetFreq_dev]
  exact ⟨hlength.rx, hlength.tx⟩

theorem linkInv_linkStart (noise : ℕ → Noise) (freq : UInt32) (v : TxVars) (w : RxVars)
    (busT busR : SpiBus Chip Phase) :
    LinkInv v.txBuffer noise 0 (linkStart freq v w busT busR) := by
  refine ⟨rfl, ?_, ?_, fun i _ => rfl, rfl, rfl⟩
  · exact quiet_txStart _ freq ⟨rfl, rfl⟩
  · have hstart := quiet_txStart defaultPktlen freq
      (b := { busR with dev := busR.dev.reset }) ⟨rfl, rfl⟩
    simp only [linkStart, rxStart, SpiM.run_bind, run_radioReceiveOn_dev]
    exact hstart.strobe_srx

/-- **What the totals are**: arriving mismatches and changes to the replies, modulo the width of the
counters. -/
theorem link_counts (freq : UInt32) (pktnum : UInt32) (noise : ℕ → Noise) (v : TxVars)
    (w : RxVars) (busT busR : SpiBus Chip Phase) :
    let s := link.after (linkStart freq v w busT busR) (eventsUpTo pktnum noise)
    s.tx.errorForward.toNat
        = (∑ k ∈ Finset.range pktnum.toNat, arrivingMismatches v.txBuffer noise k) % 2 ^ 32 ∧
      s.tx.errorReverse.toNat
        = (∑ k ∈ Finset.range pktnum.toNat, changed (noise k).rev) % 2 ^ 32 := by
  have hinv := (linkInv_linkStart noise freq v w busT busR).after pktnum.toNat
  constructor
  · rw [eventsUpTo, hinv.forward, UInt32.toNat_ofNat']
  · rw [eventsUpTo, hinv.reverse, UInt32.toNat_ofNat']

/-- At the end the two totals are the numbers of bytes the channel has changed. -/
def CountsExact (freq : UInt32) (pktnum : UInt32) (noise : ℕ → Noise) (v : TxVars) (w : RxVars)
    (busT busR : SpiBus Chip Phase) : Prop :=
  let s := link.after (linkStart freq v w busT busR) (eventsUpTo pktnum noise)
  s.tx.errorForward.toNat = ∑ k ∈ Finset.range pktnum.toNat, changed (noise k).fwd ∧
    s.tx.errorReverse.toNat = ∑ k ∈ Finset.range pktnum.toNat, changed (noise k).rev

/-- Data bytes of round `k` that the channel leaves alone and that differ from `rand_data`. -/
def foreignBytes (start : CArray) (noise : ℕ → Noise) (k : ℕ) : ℕ :=
  dataBytes.countP fun i => (noise k).fwd i = 0 ∧ onAir start noise k i ≠ randData i

/-- Data bytes of round `k` that the channel changes into those of `rand_data`. -/
def disguisedBytes (start : CArray) (noise : ℕ → Noise) (k : ℕ) : ℕ :=
  dataBytes.countP fun i =>
    (noise k).fwd i ≠ 0 ∧ changedBy (noise k).fwd (onAir start noise k) i = randData i

/-- Every data byte is a mismatch or a disguise just if it is changed or foreign. -/
theorem mismatches_add_disguised (p mask : CArray) (dds : List ℕ) :
    mismatches (changedBy mask p) dds
        + dds.countP (fun i => mask i ≠ 0 ∧ changedBy mask p i = randData i)
      = dds.countP (fun i => mask i ≠ 0)
        + dds.countP (fun i => mask i = 0 ∧ p i ≠ randData i) := by
  induction dds with
  | nil => rfl
  | cons i dds ih =>
    rw [mismatches] at ih ⊢
    simp only [List.countP_cons, decide_eq_true_eq]
    by_cases hmask : mask i = 0
    · have hsame : changedBy mask p i = p i := (xor_eq_left_iff _ _).mpr hmask
      simp only [hmask, hsame, ne_eq, not_true_eq_false, false_and, true_and, if_false] at ih ⊢
      omega
    · by_cases hhit : changedBy mask p i = randData i
      · simp only [hmask, hhit, ne_eq, not_true_eq_false, not_false_eq_true, true_and, false_and,
          if_true, if_false] at ih ⊢
        omega
      · simp only [hmask, hhit, ne_eq, not_false_eq_true, and_false, false_and, if_true,
          if_false] at ih ⊢
        omega

/-- **When the totals are exact.** The reverse total always is, up to the width of its counter; the
forward total is when, besides, as many foreign bytes come through unchanged as changed bytes pass
for `rand_data`. -/
theorem countsExact_iff (freq : UInt32) (pktnum : UInt32) (noise : ℕ → Noise) (v : TxVars)
    (w : RxVars) (busT busR : SpiBus Chip Phase) :
    CountsExact freq pktnum noise v w busT busR
      ↔ ∑ k ∈ Finset.range pktnum.toNat, changed (noise k).fwd < 2 ^ 32 ∧
        ∑ k ∈ Finset.range pktnum.toNat, changed (noise k).rev < 2 ^ 32 ∧
        (∑ k ∈ Finset.range pktnum.toNat, foreignBytes v.txBuffer noise k) % 2 ^ 32
          = (∑ k ∈ Finset.range pktnum.toNat, disguisedBytes v.txBuffer noise k) % 2 ^ 32 := by
  have hsum : ∑ k ∈ Finset.range pktnum.toNat, arrivingMismatches v.txBuffer noise k
        + ∑ k ∈ Finset.range pktnum.toNat, disguisedBytes v.txBuffer noise k
      = ∑ k ∈ Finset.range pktnum.toNat, changed (noise k).fwd
        + ∑ k ∈ Finset.range pktnum.toNat, foreignBytes v.txBuffer noise k := by
    rw [← Finset.sum_add_distrib, ← Finset.sum_add_distrib]
    exact Finset.sum_congr rfl fun k _ => mismatches_add_disguised _ _ dataBytes
  obtain ⟨hfwd, hrev⟩ := link_counts freq pktnum noise v w busT busR
  rw [CountsExact, hfwd, hrev]
  omega

/-- A channel that changes nothing. -/
def cleanChannel : Noise where
  fwd := fun _ => 0
  rev := fun _ => 0
  rxRegs := fun _ => 0x80
  txRegs := fun _ => 0
  status := 10
  accepted := by decide
  inTime := by decide

/-- One packet over a clean channel scores fifteen errors. -/
theorem not_countsExact_clean :
    ¬ CountsExact 868000 1 (fun _ => cleanChannel) ⟨fun _ => 0, 0, 0, 0, 0, 0, 0, 0⟩
      ⟨fun _ => 0, fun _ => 0, 0, 0, 0⟩ resetBus resetBus := by
  rintro ⟨hforward, -⟩
  obtain ⟨hfwd, -⟩ := link_counts 868000 1 (fun _ => cleanChannel)
    ⟨fun _ => 0, 0, 0, 0, 0, 0, 0, 0⟩ ⟨fun _ => 0, fun _ => 0, 0, 0, 0⟩ resetBus resetBus
  have hfifteen : arrivingMismatches (fun _ => 0) (fun _ => cleanChannel) 0 = 15 := by
    decide +kernel
  have hnone : changed cleanChannel.fwd = 0 := by decide
  have hcount := hfwd.symm.trans hforward
  rw [show (1 : UInt32).toNat = 1 from rfl, Finset.sum_range_one, Finset.sum_range_one, hfifteen,
    hnone] at hcount
  exact absurd hcount (by decide)

end Wise1511
