import Wise1511.BerTurns

/-!
# A burst from end to end

The one-way build, as it is shipped: `runLTX` at one end, `runLRX` at the other, and between them a
channel that takes the sender's packets in order and loses any of them. The receiver also takes
noise for packets; its CRC is bad. Sender, channel and receiver go on in any order, and the sender's
radio does as it likes while a packet goes out.

The lines the receiver prints for good packets are those of packets that were sent: number and text
are the packet's own, the numbers increase, and none is beyond what has been sent. So a gap in the
numbers is a loss, and the count of good packets is the number of these lines. The text has to end
inside the packet, which it does up to ten thousand packets of 20 bytes; every handler sends a
thousand.

Noise costs the receiver a turn of its loop, and it prints a line for it all the same.

## Main results

* `BurstInv.step` — what every event keeps
* `burst_runsPrograms` — each end runs its own program
* `burst_report` — the receiver's report, at any time
* `burst_done_iff`, `turn_ne_of_lose` — when the receiver is through
-/

namespace Wise1511

namespace RfTest

/-! ### The system -/

/-- What the sender's radio does by itself while a packet goes out. -/
structure TxAir where
  air : Chip → Chip
  sent : ∀ c, (air c).sent = c.sent
  txFifo : ∀ c, (air c).txFifo = c.txFifo

/-- What happens next. The radios' registers after a reception are as the radio likes, except for
the verdict on the CRC. -/
inductive BurstEvent where
  /-- The sender goes through its loop body. -/
  | send (air : TxAir)
  /-- The packet that has been on its way longest is lost. -/
  | lose
  /-- It arrives, and the receiver goes through its loop body. -/
  | deliver (regs : CArray) (good : regs lqiVal.toNat &&& crcOk ≠ 0)
  /-- The receiver takes noise for a packet. -/
  | garble (packet : List UInt8) (regs : CArray) (bad : regs lqiVal.toNat &&& crcOk = 0)

/-- Sender, channel and receiver. -/
structure Burst where
  /-- `cc` of `tx_ber_single`. -/
  cc : UInt32
  tx : TxVars
  busT : SpiBus Chip Phase
  /-- How many packets have left the channel. -/
  taken : ℕ
  /-- `cc` of `rx_ber_single`. -/
  turn : UInt32
  rx : RxVars
  busR : SpiBus Chip Phase
  /-- The lines of the receiver, each with the place of its packet among those sent, or none. -/
  report : List (Option ℕ × RxLine)

/-- The receiver's loop body, with this packet coming in. -/
def Burst.receive (s : Burst) (packet : List UInt8) (regs : CArray) (place : Option ℕ) : Burst :=
  let r := (rxIter (cc112x liveView) false defaultPktlen (fun c => c.receive packet regs) id
    s.rx).run s.busR
  { s with turn := s.turn + 1, rx := r.1.1, busR := r.2, report := s.report ++ [(place, r.1.2)] }

theorem Burst.length_report_receive (s : Burst) (packet : List UInt8) (regs : CArray)
    (place : Option ℕ) : (s.receive packet regs place).report.length = s.report.length + 1 :=
  List.length_append

/-- One event. A program that is through with its loop, or that waits, does nothing. -/
def Burst.step (pktnum : UInt32) (s : Burst) : BurstEvent → Burst
  | .send air =>
    if s.cc < pktnum then
      let r := (txIter (cc112x liveView) false defaultPktlen s.cc air.air id 0 s.tx).run s.busT
      { s with cc := s.cc + 1, tx := r.1, busT := r.2 }
    else s
  | .lose => if s.taken < s.busT.dev.sent.length then { s with taken := s.taken + 1 } else s
  | .deliver regs _ =>
    match s.busT.dev.sent[s.taken]? with
    | some packet =>
      if s.turn < pktnum then
        { s.receive packet regs (some s.taken) with taken := s.taken + 1 }
      else s
    | none => s
  | .garble packet regs _ => if s.turn < pktnum then s.receive packet regs none else s

/-- The system as a machine. -/
def burst (pktnum : UInt32) : Mealy Burst BurstEvent Unit where
  step s e := (s.step pktnum e, ())

/-- Both ends after the set-up of a test. The record of what was sent begins here. -/
def burstStart (t : BurstTest) (v : TxVars) (w : RxVars) (busT busR : SpiBus Chip Phase) :
    Burst where
  cc := 0
  tx := { v with errorForward := 0, errorReverse := 0, totalPktCount := 0 }
  busT := ((senderSetup t).run { busT with dev := { busT.dev with sent := [] } }).2
  taken := 0
  turn := 0
  rx := { w with pckGoodCnt := 0 }
  busR := ((receiverSetup t).run busR).2
  report := []

/-- The places of the packets that have a line. -/
def Burst.places (s : Burst) : List ℕ := s.report.filterMap Prod.fst

theorem Burst.places_receive_some (s : Burst) (packet : List UInt8) (regs : CArray) (n : ℕ) :
    (s.receive packet regs (some n)).places = s.places ++ [n] := by
  rw [places, places, receive, List.filterMap_append]
  rfl

theorem Burst.places_receive_none (s : Burst) (packet : List UInt8) (regs : CArray) :
    (s.receive packet regs none).places = s.places := by
  rw [places, places, receive, List.filterMap_append]
  exact List.append_nil _

/-! ### The invariant -/

/-- The packet of this number, over some earlier contents of the buffer. -/
def IsPacket (n : ℕ) (packet : List UInt8) : Prop :=
  ∃ txBuffer, packet = (fillPacket txBuffer (UInt32.ofNat n)).slice 0 20

/-- The line shows number and text of the packet. -/
def Shows (n : ℕ) (line : RxLine) : Prop :=
  line.currPktId.toNat = n ∧ line.content.HoldsString (burstText (UInt32.ofNat n))

/-- What holds at any time. -/
structure BurstInv (pktnum : UInt32) (s : Burst) : Prop where
  cc_le : s.cc.toNat ≤ pktnum.toNat
  txFifo : s.busT.dev.txFifo = []
  length_sent : s.busT.dev.sent.length = s.cc.toNat
  sent : ∀ n packet, s.busT.dev.sent[n]? = some packet → IsPacket n packet
  taken_le : s.taken ≤ s.cc.toNat
  quiet : Quiet s.busR.dev
  places_lt : ∀ n ∈ s.places, n < s.taken
  increasing : s.places.Pairwise (· < ·)
  shows : ∀ n line, (some n, line) ∈ s.report → Shows n line
  turn_eq : s.turn.toNat = s.report.length
  turn_le : s.turn.toNat ≤ pktnum.toNat
  good : s.rx.pckGoodCnt.toNat = s.places.length

variable {pktnum : UInt32}

theorem lt_of_getElem?_concat {α : Type} {l : List α} {a b : α} {n : ℕ}
    (h : (l ++ [a])[n]? = some b) : n < l.length + 1 := by
  simpa using (List.getElem?_eq_some_iff.mp h).1

/-- One more packet on the air. -/
theorem BurstInv.send {s : Burst} (h : BurstInv pktnum s) (air : TxAir) :
    BurstInv pktnum (s.step pktnum (.send air)) := by
  rw [Burst.step]
  split_ifs with hlt
  · have hdev := (implements_txIter false defaultPktlen s.cc ⟨air.air, id, 0⟩ s.tx).dev s.busT
    dsimp only at hdev
    generalize (txIter (cc112x liveView) false defaultPktlen s.cc air.air id 0 s.tx).run s.busT = r
      at hdev
    have hsent : r.2.dev.sent
        = s.busT.dev.sent ++ [(fillPacket s.tx.txBuffer s.cc).slice 0 20] := by
      rw [hdev]
      refine (air.sent _).trans ?_
      show s.busT.dev.sent ++ [s.busT.dev.txFifo ++ _] = _
      rw [h.txFifo]
      rfl
    have htx : r.2.dev.txFifo = [] := by
      rw [hdev]
      exact (air.txFifo _).trans rfl
    have hcc : (s.cc + 1).toNat = s.cc.toNat + 1 := by
      have hle := UInt32.lt_iff_toNat_lt.mp hlt
      have hmax := pktnum.toNat_lt
      rw [UInt32.toNat_add, UInt32.toNat_one]
      omega
    refine { h with cc_le := ?_, txFifo := htx, length_sent := ?_, sent := ?_, taken_le := ?_ }
    · rw [hcc]
      exact UInt32.lt_iff_toNat_lt.mp hlt
    · rw [hcc, hsent, List.length_append, h.length_sent]
      rfl
    · intro n packet hn
      rw [hsent] at hn
      rcases lt_or_eq_of_le (Nat.le_of_lt_succ (lt_of_getElem?_concat hn)) with hlt | heq
      · rw [List.getElem?_append_left hlt] at hn
        exact h.sent n packet hn
      · rw [heq, List.getElem?_concat_length] at hn
        refine ⟨s.tx.txBuffer, ?_⟩
        rw [heq, h.length_sent, UInt32.ofNat_toNat]
        exact (Option.some.inj hn).symm
    · rw [hcc]
      exact h.taken_le.trans (Nat.le_succ _)
  · exact h

/-- One less. -/
theorem BurstInv.lose {s : Burst} (h : BurstInv pktnum s) :
    BurstInv pktnum (s.step pktnum .lose) := by
  rw [Burst.step]
  split_ifs with hlt
  · rw [h.length_sent] at hlt
    exact { h with
      taken_le := hlt
      places_lt := fun n hn => (h.places_lt n hn).trans (Nat.lt_succ_self _) }
  · exact h

/-- The receiver after a packet of twenty bytes with good CRC. -/
theorem run_rxIter_good (v : RxVars) {packet : List UInt8} (hlen : packet.length = 20)
    {regs : CArray} (hgood : regs lqiVal.toNat &&& crcOk ≠ 0) {b : SpiBus Chip Phase}
    (hb : Quiet b.dev) :
    let r := (rxIter (cc112x liveView) false defaultPktlen (fun c => c.receive packet regs) id
      v).run b
    r.1.2.currPktId = currPktId (CArray.overlay v.txBuffer 0 packet) ∧
      r.1.2.content = copyContent v.content (CArray.overlay v.txBuffer 0 packet) ∧
      r.1.1.pckGoodCnt = v.pckGoodCnt + 1 ∧ Quiet r.2.dev := by
  intro r
  have hr : (r.1, r.2.dev) = rxTurn false defaultPktlen ⟨(·.receive packet regs), id⟩ v b.dev :=
    implements_rxIter false defaultPktlen ⟨(·.receive packet regs), id⟩ v b
  have hread := readOutcome_receive_twenty hb hlen regs v.txBuffer
    (show 20 ≤ UInt16.ofNat bufferSize by decide)
  simp only [rxTurn, hread, if_pos (UInt8.pos_iff_ne_zero.mpr hgood)] at hr
  obtain ⟨hvars, hdev⟩ := Prod.ext_iff.mp hr
  simp only at hvars hdev
  rw [hvars, hdev]
  exact ⟨rfl, rfl, rfl, hb.rx, hb.tx⟩

/-- The receiver after anything with bad CRC. -/
theorem run_rxIter_bad (v : RxVars) (packet : List UInt8) {regs : CArray}
    (hbad : regs lqiVal.toNat &&& crcOk = 0) (b : SpiBus Chip Phase) :
    let r := (rxIter (cc112x liveView) false defaultPktlen (fun c => c.receive packet regs) id
      v).run b
    r.1.1.pckGoodCnt = v.pckGoodCnt ∧ Quiet r.2.dev := by
  intro r
  have hr : (r.1, r.2.dev) = rxTurn false defaultPktlen ⟨(·.receive packet regs), id⟩ v b.dev :=
    implements_rxIter false defaultPktlen ⟨(·.receive packet regs), id⟩ v b
  have hstatus : ¬ 0 < (readOutcome (b.dev.receive packet regs) v.txBuffer
      (UInt16.ofNat bufferSize)).1.status := by
    rw [readOutcome]
    split_ifs
    · show ¬ 0 < regs lqiVal.toNat &&& crcOk
      rw [hbad]
      exact lt_irrefl 0
    · exact lt_irrefl 0
  simp only [rxTurn, if_neg hstatus] at hr
  obtain ⟨hvars, hdev⟩ := Prod.ext_iff.mp hr
  simp only at hvars hdev
  rw [hvars, hdev]
  exact ⟨rfl, rfl, rfl⟩

theorem IsPacket.length_eq {n : ℕ} {packet : List UInt8} (h : IsPacket n packet) :
    packet.length = 20 := by
  obtain ⟨txBuffer, rfl⟩ := h
  exact CArray.length_slice _ _ _

/-- Number and text are read off a packet, whatever the receiver's arrays held. -/
theorem IsPacket.shows {n : ℕ} (hn : n < 10000) {packet : List UInt8} (h : IsPacket n packet)
    {line : RxLine} (rxBuffer content : CArray)
    (hnumber : line.currPktId = currPktId (CArray.overlay rxBuffer 0 packet))
    (hcontent : line.content = copyContent content (CArray.overlay rxBuffer 0 packet)) :
    Shows n line := by
  obtain ⟨txBuffer, rfl⟩ := h
  have hnat : (UInt32.ofNat n).toNat = n := by
    rw [UInt32.toNat_ofNat', Nat.mod_eq_of_lt (by omega)]
  have htext : 3 + (burstText (UInt32.ofNat n)).length < 20 := by
    have hdigits : (decimal n).length ≤ 4 := length_decimal_le_of_lt (by decide) (by omega)
    rw [length_burstText, fmtD_of_lt (by omega), hnat]
    omega
  have hreceived : currPktId (receivedPacket rxBuffer txBuffer (UInt32.ofNat n) 20)
      = UInt32.ofNat n :=
    currPktId_received rxBuffer txBuffer (by omega) (by omega)
  refine ⟨?_, ?_⟩
  · rw [hnumber]
    exact (congrArg UInt32.toNat hreceived).trans hnat
  · rw [hcontent]
    exact holdsString_received content rxBuffer txBuffer htext

/-- Another turn of the receiver. -/
theorem BurstInv.toNat_turn {s : Burst} (h : BurstInv pktnum s) (hlt : s.turn < pktnum) :
    (s.turn + 1).toNat = s.report.length + 1 ∧ (s.turn + 1).toNat ≤ pktnum.toNat := by
  have hle := UInt32.lt_iff_toNat_lt.mp hlt
  have hmax := pktnum.toNat_lt
  rw [← h.turn_eq, UInt32.toNat_add, UInt32.toNat_one]
  omega

/-- A packet arrives. -/
theorem BurstInv.deliver (hpktnum : pktnum.toNat ≤ 10000) {s : Burst} (h : BurstInv pktnum s)
    {regs : CArray} (hgood : regs lqiVal.toNat &&& crcOk ≠ 0) :
    BurstInv pktnum (s.step pktnum (.deliver regs hgood)) := by
  rw [Burst.step]
  split
  · next packet hsome =>
    split_ifs with hlt
    · have hpacket := h.sent s.taken packet hsome
      have htaken : s.taken < s.cc.toNat := by
        rw [← h.length_sent]
        exact (List.getElem?_eq_some_iff.mp hsome).1
      obtain ⟨hnumber, hcontent, hcount, hquiet⟩ :=
        run_rxIter_good s.rx hpacket.length_eq hgood h.quiet
      obtain ⟨hturn, hturnle⟩ := h.toNat_turn hlt
      have hplaces := s.places_receive_some packet regs s.taken
      have hle : s.places.length ≤ s.report.length := List.length_filterMap_le _ _
      refine { h with
        taken_le := htaken
        quiet := hquiet
        places_lt := ?_
        increasing := ?_
        shows := ?_
        turn_eq := ?_
        turn_le := hturnle
        good := ?_ }
      · intro n hn
        rcases List.mem_append.mp (hplaces ▸ hn) with hold | hnew
        · exact (h.places_lt n hold).trans (Nat.lt_succ_self _)
        · rw [List.mem_singleton.mp hnew]
          exact Nat.lt_succ_self _
      · show (s.receive packet regs (some s.taken)).places.Pairwise (· < ·)
        rw [hplaces, List.pairwise_append]
        refine ⟨h.increasing, List.pairwise_singleton _ _, ?_⟩
        intro n hn m hm
        rw [List.mem_singleton.mp hm]
        exact h.places_lt n hn
      · intro n line hline
        rcases List.mem_append.mp hline with hold | hnew
        · exact h.shows n line hold
        · obtain ⟨hplace, rfl⟩ := Prod.mk.inj (List.mem_singleton.mp hnew)
          rw [Option.some.inj hplace]
          have hcc := h.cc_le
          exact hpacket.shows (by omega) s.rx.txBuffer s.rx.content hnumber hcontent
      · exact hturn.trans (s.length_report_receive packet regs (some s.taken)).symm
      · show (s.receive packet regs (some s.taken)).rx.pckGoodCnt.toNat
          = (s.receive packet regs (some s.taken)).places.length
        have hpck : (s.receive packet regs (some s.taken)).rx.pckGoodCnt = s.rx.pckGoodCnt + 1 :=
          hcount
        have hold := h.good
        have hmax := pktnum.toNat_lt
        rw [hplaces, hpck, List.length_append, List.length_singleton, UInt32.toNat_add,
          UInt32.toNat_one]
        omega
    · exact h
  · exact h

/-- Noise arrives. -/
theorem BurstInv.garble {s : Burst} (h : BurstInv pktnum s) (packet : List UInt8) {regs : CArray}
    (hbad : regs lqiVal.toNat &&& crcOk = 0) :
    BurstInv pktnum (s.step pktnum (.garble packet regs hbad)) := by
  rw [Burst.step]
  split_ifs with hlt
  · obtain ⟨hcount, hquiet⟩ := run_rxIter_bad s.rx packet hbad s.busR
    obtain ⟨hturn, hturnle⟩ := h.toNat_turn hlt
    have hplaces := s.places_receive_none packet regs
    refine { h with
      quiet := hquiet
      places_lt := ?_
      increasing := ?_
      shows := ?_
      turn_eq := ?_
      turn_le := hturnle
      good := ?_ }
    · rw [hplaces]
      exact h.places_lt
    · rw [hplaces]
      exact h.increasing
    · intro n line hline
      rcases List.mem_append.mp hline with hold | hnew
      · exact h.shows n line hold
      · exact absurd (Prod.mk.inj (List.mem_singleton.mp hnew)).1 (Option.some_ne_none n)
    · exact hturn.trans (s.length_report_receive packet regs none).symm
    · rw [hplaces, ← h.good]
      exact congrArg UInt32.toNat hcount
  · exact h

/-- **Every event keeps the invariant.** -/
theorem BurstInv.step (hpktnum : pktnum.toNat ≤ 10000) {s : Burst} (e : BurstEvent)
    (h : BurstInv pktnum s) : BurstInv pktnum (s.step pktnum e) := by
  cases e with
  | send air => exact h.send air
  | lose => exact h.lose
  | deliver regs good => exact h.deliver hpktnum good
  | garble packet regs bad => exact h.garble packet bad

/-- It holds after the set-up. -/
theorem burstInv_burstStart (pktnum : UInt32) (t : BurstTest) (v : TxVars) (w : RxVars)
    (busT busR : SpiBus Chip Phase) : BurstInv pktnum (burstStart t v w busT busR) := by
  have hT := (implements_senderSetup t).dev { busT with dev := { busT.dev with sent := [] } }
  have hR := (implements_receiverSetup t).dev busR
  have hsent : (burstStart t v w busT busR).busT.dev.sent = [] := by
    rw [burstStart, hT]
    rfl
  exact {
    cc_le := Nat.zero_le _
    txFifo := by rw [burstStart, hT]; rfl
    length_sent := by rw [hsent]; rfl
    sent := by
      intro n packet hn
      rw [hsent] at hn
      simp at hn
    taken_le := le_rfl
    quiet := by
      rw [burstStart, hR]
      exact ⟨rfl, rfl⟩
    places_lt := by simp [burstStart, Burst.places]
    increasing := List.Pairwise.nil
    shows := by simp [burstStart]
    turn_eq := rfl
    turn_le := Nat.zero_le _
    good := rfl }

/-! ### Both ends run their programs -/

/-- One more turn of the sender's loop. -/
theorem run_txLoop_concat {σ φ : Type} (S : SpiSlave σ φ) (twoWay : Bool) (pktlen : UInt16)
    (cc : UInt32) (es : List (TxEvent σ)) (e : TxEvent σ) (v : TxVars) (b : SpiBus σ φ) :
    let r := (txLoop S twoWay pktlen cc es v).run b
    let last := cc + UInt32.ofNat es.length
    let r' := (txIter S twoWay pktlen last e.sent e.replied e.status r.1.1).run r.2
    (txLoop S twoWay pktlen cc (es ++ [e]) v).run b
      = ((r'.1, r.1.2 ++ [txLine twoWay last r'.1]), r'.2) := by
  induction es generalizing cc v b with
  | nil =>
    have hlast : cc + UInt32.ofNat ([] : List (TxEvent σ)).length = cc := UInt32.add_zero cc
    simp only [List.nil_append, txLoop, SpiM.run_bind, SpiM.run_pure, hlast]
  | cons e₁ es ih =>
    have hlast : cc + 1 + UInt32.ofNat es.length = cc + UInt32.ofNat (e₁ :: es).length := by
      rw [List.length_cons, Nat.add_comm, UInt32.ofNat_add, UInt32.add_assoc]
      rfl
    simp only [List.cons_append, txLoop, SpiM.run_bind, SpiM.run_pure, ih, hlast]

/-- What an event is to the loop of the sender, if it is anything to it. -/
def Burst.sendOf (pktnum : UInt32) (s : Burst) : BurstEvent → Option (TxEvent Chip)
  | .send air => if s.cc < pktnum then some ⟨air.air, id, 0⟩ else none
  | .lose => none
  | .deliver _ _ => none
  | .garble _ _ _ => none

/-- And to that of the receiver: the packet that arrives, or the noise. -/
def Burst.receptionOf (pktnum : UInt32) (s : Burst) : BurstEvent → Option Reception
  | .send _ => none
  | .lose => none
  | .deliver regs _ =>
    if s.turn < pktnum then
      s.busT.dev.sent[s.taken]?.map fun packet => ⟨id, packet, regs, id⟩
    else none
  | .garble packet regs _ => if s.turn < pktnum then some ⟨id, packet, regs, id⟩ else none

/-- The events of the sender's loop. -/
def Burst.sends (pktnum : UInt32) (s : Burst) (events : List BurstEvent) : List (TxEvent Chip) :=
  (burst pktnum).collect (Burst.sendOf pktnum) s events

/-- The receptions of the receiver's. -/
def Burst.receptions (pktnum : UInt32) (s : Burst) (events : List BurstEvent) : List Reception :=
  (burst pktnum).collect (Burst.receptionOf pktnum) s events

/-- A line with a place is about a good packet, the one sent in that place; any other is about
noise. -/
def IsAbout (sent : List (List UInt8)) (r : Reception) (line : Option ℕ × RxLine) : Prop :=
  match line.1 with
  | some n => sent[n]? = some r.packet ∧ r.Good
  | none => ¬ r.Good

theorem IsAbout.mono {sent sent' : List (List UInt8)} (hle : sent <+: sent') {r : Reception}
    {line : Option ℕ × RxLine} (h : IsAbout sent r line) : IsAbout sent' r line := by
  obtain ⟨place, line⟩ := line
  cases place with
  | none => exact h
  | some n =>
    obtain ⟨hpacket, hgood⟩ := h
    obtain ⟨rest, rfl⟩ := hle
    have hlt := (List.getElem?_eq_some_iff.mp hpacket).1
    exact ⟨(List.getElem?_append_left hlt).trans hpacket, hgood⟩

/-- Sender and receiver are where their own loops are, after these sends and these receptions. -/
structure RunsPrograms (start : Burst) (sends : List (TxEvent Chip)) (receptions : List Reception)
    (s : Burst) : Prop where
  cc : s.cc = UInt32.ofNat sends.length
  sender :
    let r := (txLoop (cc112x liveView) false defaultPktlen 0 sends start.tx).run start.busT
    r.1.1 = s.tx ∧ r.2 = s.busT
  receiver : (rxLoop (cc112x liveView) false defaultPktlen (receptions.map Reception.event)
    start.rx).run start.busR = ((s.rx, s.report.map Prod.snd), s.busR)
  about : List.Forall₂ (IsAbout s.busT.dev.sent) receptions s.report

/-- A turn of the receiver. -/
theorem RunsPrograms.receive {start s : Burst} {sends : List (TxEvent Chip)}
    {receptions : List Reception} (h : RunsPrograms start sends receptions s)
    {packet : List UInt8} {regs : CArray} {place : Option ℕ}
    (habout : ∀ line, IsAbout s.busT.dev.sent ⟨id, packet, regs, id⟩ (place, line)) :
    RunsPrograms start sends (receptions ++ [⟨id, packet, regs, id⟩])
      (s.receive packet regs place) := by
  obtain ⟨hcc, hsender, hreceiver, habouts⟩ := h
  refine ⟨hcc, hsender, ?_, List.rel_append habouts (.cons (habout _) .nil)⟩
  rw [run_rxLoop] at hreceiver ⊢
  obtain ⟨hfst, hbus⟩ := Prod.ext_iff.mp hreceiver
  obtain ⟨hvars, houts⟩ := Prod.ext_iff.mp hfst
  have hstate : (rxBer false defaultPktlen).after (start.rx, start.busR)
      (receptions.map Reception.event) = (s.rx, s.busR) := Prod.ext hvars hbus
  simp only at houts
  rw [List.map_append, Mealy.after_append, Mealy.outputs_append, hstate, houts, Burst.receive,
    List.map_append]
  rfl

/-- A turn of the sender. -/
theorem RunsPrograms.send {start s : Burst} {sends : List (TxEvent Chip)}
    {receptions : List Reception} (h : RunsPrograms start sends receptions s) (air : TxAir)
    (hlt : s.cc < pktnum) :
    RunsPrograms start (sends ++ [⟨air.air, id, 0⟩]) receptions (s.step pktnum (.send air)) := by
  obtain ⟨hcc, ⟨hvars, hbus⟩, hreceiver, habouts⟩ := h
  have hconcat := run_txLoop_concat (cc112x liveView) false defaultPktlen 0 sends
    ⟨air.air, id, 0⟩ start.tx start.busT
  dsimp only at hconcat
  rw [UInt32.zero_add, ← hcc, hvars, hbus] at hconcat
  rw [Burst.step, if_pos hlt]
  refine ⟨?_, ?_, hreceiver, habouts.imp fun _ _ => IsAbout.mono ?_⟩
  · rw [List.length_append, UInt32.ofNat_add, ← hcc]
    rfl
  · rw [hconcat]
    exact ⟨rfl, rfl⟩
  · have hdev := (implements_txIter false defaultPktlen s.cc ⟨air.air, id, 0⟩ s.tx).dev s.busT
    dsimp only at hdev ⊢
    rw [hdev]
    exact (air.sent _).symm ▸ List.prefix_append _ _

/-- **What one event does is what the programs do.** -/
theorem RunsPrograms.step {start s : Burst} {sends : List (TxEvent Chip)}
    {receptions : List Reception} (h : RunsPrograms start sends receptions s) (e : BurstEvent) :
    RunsPrograms start (sends ++ (s.sendOf pktnum e).toList)
      (receptions ++ (s.receptionOf pktnum e).toList) (s.step pktnum e) := by
  have hidle : RunsPrograms start (sends ++ []) (receptions ++ []) s := by
    rwa [List.append_nil, List.append_nil]
  cases e with
  | send air =>
    rw [Burst.sendOf, Burst.receptionOf]
    by_cases hlt : s.cc < pktnum
    · rw [if_pos hlt]
      have hsend := h.send air hlt
      rwa [← List.append_nil receptions] at hsend
    · rw [if_neg hlt, Burst.step, if_neg hlt]
      exact hidle
  | lose =>
    rw [Burst.sendOf, Burst.receptionOf, Burst.step]
    split_ifs
    · exact ⟨hidle.cc, hidle.sender, hidle.receiver, hidle.about⟩
    · exact hidle
  | deliver regs good =>
    rw [Burst.sendOf, Burst.receptionOf, Burst.step]
    cases hpacket : s.busT.dev.sent[s.taken]? with
    | none =>
      rw [Option.map_none, ite_self]
      exact hidle
    | some packet =>
      by_cases hlt : s.turn < pktnum
      · have habout : ∀ line, IsAbout s.busT.dev.sent ⟨id, packet, regs, id⟩
            (some s.taken, line) := fun _ => ⟨hpacket, good⟩
        have hreceive := h.receive habout
        rw [← List.append_nil sends] at hreceive
        rw [if_pos hlt]
        dsimp only
        rw [if_pos hlt]
        exact ⟨hreceive.cc, hreceive.sender, hreceive.receiver, hreceive.about⟩
      · rw [if_neg hlt]
        dsimp only
        rw [if_neg hlt]
        exact hidle
  | garble packet regs bad =>
    rw [Burst.sendOf, Burst.receptionOf, Burst.step]
    by_cases hlt : s.turn < pktnum
    · have habout : ∀ line, IsAbout s.busT.dev.sent ⟨id, packet, regs, id⟩ (none, line) :=
        fun _ => not_not.mpr bad
      have hreceive := h.receive habout
      rw [← List.append_nil sends] at hreceive
      rw [if_pos hlt, if_pos hlt]
      exact hreceive
    · rw [if_neg hlt, if_neg hlt]
      exact hidle

/-- **Each end runs its own program**, whatever the order of events: the sender is where its loop is
after the sends there were, and the receiver has printed what its loop prints for the receptions
there were, the packets delivered to it and the noise. Each of its lines for a good packet is about
the packet sent in that place. -/
theorem burst_runsPrograms (pktnum : UInt32) (t : BurstTest) (v : TxVars) (w : RxVars)
    (busT busR : SpiBus Chip Phase) (events : List BurstEvent) :
    let start := burstStart t v w busT busR
    RunsPrograms start (start.sends pktnum events) (start.receptions pktnum events)
      ((burst pktnum).after start events) := by
  intro start
  induction events using List.reverseRecOn with
  | nil => exact ⟨rfl, ⟨rfl, rfl⟩, rfl, .nil⟩
  | append_singleton events e ih =>
    rw [Burst.sends, Burst.receptions, Mealy.collect_concat, Mealy.collect_concat,
      Mealy.after_append]
    exact ih.step e

/-! ### The report -/

theorem after_burst_inv (hpktnum : pktnum.toNat ≤ 10000) (t : BurstTest) (v : TxVars) (w : RxVars)
    (busT busR : SpiBus Chip Phase) (events : List BurstEvent) :
    BurstInv pktnum ((burst pktnum).after (burstStart t v w busT busR) events) :=
  Mealy.after_of_invariant (fun _ e h => h.step hpktnum e)
    (burstInv_burstStart pktnum t v w busT busR) events

/-- The receiver took noise for a packet. -/
def BurstEvent.IsNoise : BurstEvent → Prop
  | garble _ _ _ => True
  | _ => False

/-- **What an event does to the channel and to the report**: nothing; or a packet leaves the channel
without a line; or it leaves it with one; or a line is about noise. -/
theorem Burst.step_places {s s' : Burst} {e : BurstEvent} (h : s.step pktnum e = s') :
    (s'.taken = s.taken ∧ s'.places = s.places ∧ s'.report.length = s.report.length) ∨
      (e = .lose ∧ s'.taken = s.taken + 1 ∧ s'.places = s.places ∧
        s'.report.length = s.report.length) ∨
      (s'.taken = s.taken + 1 ∧ s'.places = s.places ++ [s.taken] ∧
        s'.report.length = s.report.length + 1) ∨
      (e.IsNoise ∧ s'.taken = s.taken ∧ s'.places = s.places ∧
        s'.report.length = s.report.length + 1) := by
  subst h
  cases e with
  | send air =>
    rw [Burst.step]
    split_ifs
    · exact .inl ⟨rfl, rfl, rfl⟩
    · exact .inl ⟨rfl, rfl, rfl⟩
  | lose =>
    rw [Burst.step]
    split_ifs
    · exact .inr (.inl ⟨rfl, rfl, rfl, rfl⟩)
    · exact .inl ⟨rfl, rfl, rfl⟩
  | deliver regs good =>
    rw [Burst.step]
    split
    · next packet hsome =>
      split_ifs
      · exact .inr (.inr (.inl ⟨rfl, s.places_receive_some packet regs s.taken,
          s.length_report_receive packet regs (some s.taken)⟩))
      · exact .inl ⟨rfl, rfl, rfl⟩
    · exact .inl ⟨rfl, rfl, rfl⟩
  | garble packet regs bad =>
    rw [Burst.step]
    split_ifs
    · exact .inr (.inr (.inr ⟨trivial, rfl, s.places_receive_none packet regs,
        s.length_report_receive packet regs none⟩))
    · exact .inl ⟨rfl, rfl, rfl⟩

/-- Every packet that has left the channel has its line. -/
def Burst.Gapless (s : Burst) : Prop := s.places = List.range s.taken

/-- So it is if nothing is lost. -/
theorem Burst.Gapless.step {s : Burst} {e : BurstEvent} (he : e ≠ .lose) (hs : s.Gapless) :
    (s.step pktnum e).Gapless := by
  rw [Gapless] at hs ⊢
  rcases Burst.step_places (rfl : s.step pktnum e = _) with ⟨htaken, hplaces, -⟩ | ⟨hlose, -⟩ |
    ⟨htaken, hplaces, -⟩ | ⟨-, htaken, hplaces, -⟩
  · rw [hplaces, htaken, hs]
  · exact absurd hlose he
  · rw [hplaces, htaken, hs, List.range_succ]
  · rw [hplaces, htaken, hs]

theorem gapless_of_no_loss {s : Burst} (hs : s.Gapless) {events : List BurstEvent}
    (hnone : BurstEvent.lose ∉ events) : ((burst pktnum).after s events).Gapless :=
  Mealy.after_of_invariant_of_mem (fun _ _ he h => h.step he) hs fun _ he =>
    ne_of_mem_of_not_mem he hnone

/-- Every line is that of a packet. -/
def Burst.Noiseless (s : Burst) : Prop := s.places.length = s.report.length

theorem Burst.Noiseless.step {s : Burst} {e : BurstEvent} (he : ¬ e.IsNoise) (hs : s.Noiseless) :
    (s.step pktnum e).Noiseless := by
  rw [Noiseless] at hs ⊢
  rcases Burst.step_places (rfl : s.step pktnum e = _) with ⟨-, hplaces, hreport⟩ |
    ⟨-, -, hplaces, hreport⟩ | ⟨-, hplaces, hreport⟩ | ⟨hnoise, -⟩
  · rw [hplaces, hreport, hs]
  · rw [hplaces, hreport, hs]
  · rw [hplaces, hreport, List.length_append, hs, List.length_singleton]
  · exact absurd hnoise he

/-- **The receiver's report, at any time.** Whatever is lost, and whatever noise comes in between,
in any order of events: the sender has sent its packets in order, one for each number up to `cc`;
the lines for good packets show number and text of packets sent, in increasing order, and as many as
`pck_good_cnt` says; and if nothing is lost, no number is missing. -/
theorem burst_report (hpktnum : pktnum.toNat ≤ 10000) (t : BurstTest) (v : TxVars) (w : RxVars)
    (busT busR : SpiBus Chip Phase) (events : List BurstEvent) :
    let s := (burst pktnum).after (burstStart t v w busT busR) events
    (s.busT.dev.sent.length = s.cc.toNat ∧ s.cc.toNat ≤ pktnum.toNat ∧
        ∀ n packet, s.busT.dev.sent[n]? = some packet → IsPacket n packet) ∧
      (s.places.Pairwise (· < ·) ∧ (∀ n ∈ s.places, n < s.cc.toNat) ∧
        s.places.length = s.rx.pckGoodCnt.toNat) ∧
      (∀ n line, (some n, line) ∈ s.report → Shows n line) ∧
      (BurstEvent.lose ∉ events → s.places = List.range s.taken) := by
  intro s
  have h : BurstInv pktnum s := after_burst_inv hpktnum t v w busT busR events
  refine ⟨⟨h.length_sent, h.cc_le, h.sent⟩,
    ⟨h.increasing, fun n hn => (h.places_lt n hn).trans_le h.taken_le, h.good.symm⟩, h.shows, ?_⟩
  intro hnone
  have hstart : (burstStart t v w busT busR).Gapless := rfl
  exact gapless_of_no_loss hstart hnone

theorem crcOk_ne_zero : 0x80 &&& crcOk ≠ 0 := by decide

/-- Three packets, the second of which is lost, and noise between the others. -/
def lossyEvents : List BurstEvent :=
  let send : BurstEvent := .send ⟨id, fun _ => rfl, fun _ => rfl⟩
  let deliver : BurstEvent := .deliver (fun _ => 0x80) crcOk_ne_zero
  [send, send, deliver, .garble [1, 2, 3] (fun _ => 0) rfl, .lose, send, deliver]

/-- The report of a burst that is under way. -/
theorem burst_report_lossy :
    let w : RxVars := ⟨fun _ => 0, fun _ => 0, 0, 0, 0⟩
    let v : TxVars := ⟨fun _ => 0, 0, 0, 0, 0, 0, 0, 0⟩
    let s := (burst 1000).after (burstStart .ltx v w resetBus resetBus) lossyEvents
    s.places.Pairwise (· < ·) ∧ (∀ n ∈ s.places, n < s.cc.toNat) ∧
      s.places.length = s.rx.pckGoodCnt.toNat :=
  (burst_report (by decide) .ltx _ _ resetBus resetBus lossyEvents).2.1

/-- Increasing numbers below `n`, as many as there are. -/
theorem eq_range_of_pairwise_lt {l : List ℕ} {n : ℕ} (h : l.Pairwise (· < ·))
    (hlt : ∀ i ∈ l, i < n) (hlen : l.length = n) : l = List.range n := by
  have hsub : l ⊆ List.range n := fun i hi => List.mem_range.mpr (hlt i hi)
  have hnodup : l.Nodup := h.imp fun hij => hij.ne
  have hperm : l.Perm (List.range n) :=
    (hnodup.subperm hsub).perm_of_length_le (by rw [List.length_range, hlen])
  exact hperm.eq_of_pairwise' (h.imp fun hij => hij.le)
    (List.pairwise_lt_range.imp fun hij => hij.le)

/-- Without noise there are as many turns as places. -/
theorem turn_eq_iff_places (hpktnum : pktnum.toNat ≤ 10000) (t : BurstTest) (v : TxVars)
    (w : RxVars) (busT busR : SpiBus Chip Phase) {events : List BurstEvent}
    (hnoise : ∀ e ∈ events, ¬ e.IsNoise) :
    let s := (burst pktnum).after (burstStart t v w busT busR) events
    s.turn = pktnum ↔ s.places = List.range pktnum.toNat := by
  intro s
  have h : BurstInv pktnum s := after_burst_inv hpktnum t v w busT busR events
  have hstart : (burstStart t v w busT busR).Noiseless := rfl
  have hlines : s.Noiseless :=
    Mealy.after_of_invariant_of_mem (fun _ _ he h => h.step he) hstart hnoise
  rw [← UInt32.toNat_inj, h.turn_eq, ← hlines]
  constructor
  · exact eq_range_of_pairwise_lt h.increasing fun n hn =>
      (h.places_lt n hn).trans_le (h.taken_le.trans h.cc_le)
  · intro hall
    rw [hall, List.length_range]

/-- **When the receiver is through.** Where no noise is taken for a packet, that is exactly when
every packet of the burst has its line: after a single loss the handler never returns. -/
theorem burst_done_iff (hpktnum : pktnum.toNat ≤ 10000) (t : BurstTest) (v : TxVars) (w : RxVars)
    (busT busR : SpiBus Chip Phase) {events : List BurstEvent}
    (hnoise : ∀ e ∈ events, ¬ e.IsNoise) :
    let s := (burst pktnum).after (burstStart t v w busT busR) events
    s.turn = pktnum ↔ s.places = List.range pktnum.toNat :=
  turn_eq_iff_places hpktnum t v w busT busR hnoise

/-- A burst of three packets, the second of which is lost. -/
theorem burst_done_lossy :
    let w : RxVars := ⟨fun _ => 0, fun _ => 0, 0, 0, 0⟩
    let v : TxVars := ⟨fun _ => 0, 0, 0, 0, 0, 0, 0, 0⟩
    let send := .send ⟨id, fun _ => rfl, fun _ => rfl⟩
    let deliver := .deliver (fun _ => 0x80) (by decide)
    let s := (burst 3).after (burstStart .ltx v w resetBus resetBus)
      [send, deliver, send, .lose, send, deliver]
    s.turn = 3 ↔ s.places = List.range (3 : UInt32).toNat :=
  burst_done_iff (by decide) .ltx _ _ resetBus resetBus (by simp [BurstEvent.IsNoise])

/-- The packet sent in this place has left the channel without a line. -/
structure Burst.Missed (n : ℕ) (s : Burst) : Prop where
  lt_taken : n < s.taken
  notMem : n ∉ s.places

/-- It stays so. -/
theorem Burst.Missed.step {n : ℕ} {s : Burst} (hs : s.Missed n) (e : BurstEvent) :
    (s.step pktnum e).Missed n := by
  obtain ⟨hlt, hnot⟩ := hs
  rcases Burst.step_places (rfl : s.step pktnum e = _) with ⟨htaken, hplaces, -⟩ |
    ⟨-, htaken, hplaces, -⟩ | ⟨htaken, hplaces, -⟩ | ⟨-, htaken, hplaces, -⟩
  · exact ⟨htaken ▸ hlt, hplaces ▸ hnot⟩
  · exact ⟨htaken ▸ Nat.lt_succ_of_lt hlt, hplaces ▸ hnot⟩
  · refine ⟨htaken ▸ Nat.lt_succ_of_lt hlt, ?_⟩
    rw [hplaces, List.mem_append, List.mem_singleton, not_or]
    exact ⟨hnot, hlt.ne⟩
  · exact ⟨htaken ▸ hlt, hplaces ▸ hnot⟩

/-- **After a loss the receiver is never through**, whatever happens then, short of noise. -/
theorem turn_ne_of_lose (hpktnum : pktnum.toNat ≤ 10000) (t : BurstTest) (v : TxVars) (w : RxVars)
    (busT busR : SpiBus Chip Phase) {before after : List BurstEvent}
    (hnoise : ∀ e ∈ before ++ .lose :: after, ¬ e.IsNoise)
    (hon : let s := (burst pktnum).after (burstStart t v w busT busR) before
      s.taken < s.busT.dev.sent.length) :
    ((burst pktnum).after (burstStart t v w busT busR) (before ++ .lose :: after)).turn
      ≠ pktnum := by
  have hinv := after_burst_inv hpktnum t v w busT busR before
  have hmissed : ((burst pktnum).after (burstStart t v w busT busR)
      (before ++ .lose :: after)).Missed
        ((burst pktnum).after (burstStart t v w busT busR) before).taken := by
    rw [Mealy.after_append, Mealy.after_cons]
    refine Mealy.after_of_invariant (fun _ e h => h.step e) ?_ after
    show (Burst.step pktnum _ .lose).Missed _
    rw [Burst.step, if_pos hon]
    exact ⟨Nat.lt_succ_self _, fun hmem => (hinv.places_lt _ hmem).false⟩
  intro hdone
  refine hmissed.notMem ?_
  rw [(turn_eq_iff_places hpktnum t v w busT busR hnoise).mp hdone, List.mem_range]
  exact (lt_of_lt_of_eq hon hinv.length_sent).trans_le hinv.cc_le

end RfTest

end Wise1511
