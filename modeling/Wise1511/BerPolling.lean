import Wise1511.BerTurns

/-!
# The burst tests with their waits

In `BerTest` and `RfTest` a wait is over at once, with the radio as the air has left it. Here the
loops of `tx_ber_single` and `rx_ber_single` call `radio_wait_for_idle` itself, poll after poll, and
a call that is not over by the last poll known of leaves the program waiting.

Nothing is lost by the shorter form. The program with its waits gets through exactly when its waits
do, and then its report is that of the shorter form, for the events the polls make up. A wait
without limit is over when `MARCSTATE` reads `IDLE`, the sender's wait for the reply also after 801
polls without FIFO error; if `IDLE` comes at the last of these, the reply is there and taken for
missing.

## Main results

* `txBurstPolled_refines`, `rxBurstPolled_refines` — when a burst comes to its end, and its report
* `txBurstPolled_forward_iff` — the forward total, by the polls
-/

namespace Wise1511

namespace RfTest

open SpiM (Implements Returns)

section Programs

variable {σ φ : Type} (S : SpiSlave σ φ)

/-- What the device does during the two waits of an iteration, before each poll. -/
structure Waits (σ : Type) where
  first : List (σ → σ)
  second : List (σ → σ)

/-- `radio_wait_for_idle` and what it returns. -/
def waitFor (maxHold : UInt16) (airs : List (σ → σ)) : OptionT (SpiM σ φ) UInt32 :=
  OptionT.mk (Option.map WaitVars.status <$> radioWaitForIdle S maxHold airs)

variable (twoWay : Bool) (pktlen : UInt16)

/-- The loop body of `tx_ber_single`. -/
def txIterPolled (cc : UInt32) (w : Waits σ) (v : TxVars) : OptionT (SpiM σ φ) TxVars := do
  let txBuffer := fillPacket v.txBuffer cc
  radioSend S txBuffer pktlen
  let _ ← waitFor S 0 w.first
  let v := { v with txBuffer := txBuffer }
  if twoWay then do
    radioReceiveOn S
    let status ← waitFor S 8000 w.second
    txReply S pktlen status v
  else
    pure v

/-- The loop of `tx_ber_single`, from burst number `cc` on. -/
def txLoopPolled : UInt32 → List (Waits σ) → TxVars → OptionT (SpiM σ φ) (TxVars × List TxLine)
  | _, [], v => pure (v, [])
  | cc, w :: ws, v => do
    let v ← txIterPolled S twoWay pktlen cc w v
    let rest ← txLoopPolled (cc + 1) ws v
    pure (rest.1, txLine twoWay cc v :: rest.2)

/-- `tx_ber_single` from the set-up on. -/
def txBurstPolled (pktnum : UInt32) (waits : ℕ → Waits σ) (v : TxVars) :
    OptionT (SpiM σ φ) TxReport := do
  let r ← txLoopPolled S twoWay pktlen 0 (eventsUpTo pktnum waits)
    { v with errorForward := 0, errorReverse := 0, totalPktCount := 0 }
  pure ⟨r.2, pktnum, r.1.totalPktCount, r.1.errorForward, r.1.errorReverse⟩

/-- The branch of `rx_ber_single` for a packet with good CRC. -/
def rxGoodPolled (replied : List (σ → σ)) (buf : CArray) (v : RxVars) :
    OptionT (SpiM σ φ) RxVars := do
  let content := copyContent v.content buf
  let rssi ← radioGetRssi S
  let freqError ← radioFreqError S
  if twoWay then do
    let reply := replyPacket buf rssi pktlen.toNat
    radioSend S reply pktlen
    let _ ← waitFor S 0 replied
    pure ⟨reply, content, rssi, freqError, v.pckGoodCnt + 1⟩
  else
    pure ⟨buf, content, rssi, freqError, v.pckGoodCnt + 1⟩

/-- The loop body of `rx_ber_single`. -/
def rxIterPolled (w : Waits σ) (v : RxVars) : OptionT (SpiM σ φ) (RxVars × RxLine) := do
  let _ ← waitFor S 0 w.first
  let d ← radioRead S v.txBuffer (UInt16.ofNat bufferSize)
  let v ← if 0 < d.status then rxGoodPolled S twoWay pktlen w.second d.buf v else rxBad S d.buf v
  radioReceiveOn S
  pure (v, rxLine v)

/-- The loop of `rx_ber_single`. -/
def rxLoopPolled : List (Waits σ) → RxVars → OptionT (SpiM σ φ) (RxVars × List RxLine)
  | [], v => pure (v, [])
  | w :: ws, v => do
    let r ← rxIterPolled S twoWay pktlen w v
    let rest ← rxLoopPolled ws r.1
    pure (rest.1, r.2 :: rest.2)

/-- `rx_ber_single` from the set-up on. -/
def rxBurstPolled (pktnum : UInt32) (waits : ℕ → Waits σ) (v : RxVars) :
    OptionT (SpiM σ φ) (RxVars × List RxLine) :=
  rxLoopPolled S twoWay pktlen (eventsUpTo pktnum waits) { v with pckGoodCnt := 0 }

end Programs

/-! ### One wait -/

/-- The wait is over: `IDLE` has been read, or the time has run out. -/
def WaitReturns (maxHold : UInt16) (readings : List UInt8) : Prop :=
  (∃ r ∈ readings, IsIdle r) ∨ (0 < maxHold ∧ maxHold.toNat / 10 < counted readings)

instance (maxHold : UInt16) (readings : List UInt8) : Decidable (WaitReturns maxHold readings) :=
  inferInstanceAs (Decidable (_ ∨ _))

/-- What it has returned. -/
def waitStatus (maxHold : UInt16) (readings : List UInt8) : UInt32 :=
  ((waitReadings maxHold readings ⟨0, 0⟩).map WaitVars.status).getD 0

/-- Without a limit only `IDLE` ends a wait. -/
theorem isSome_waitReadings_zero (rs : List UInt8) {v : WaitVars}
    (hv : v.regStatus ≠ marcstateIdle) :
    (waitReadings 0 rs v).isSome = true ↔ ∃ r ∈ rs, IsIdle r := by
  have hdone : ∀ v : WaitVars, v.Done 0 ↔ v.regStatus = marcstateIdle := fun v =>
    or_iff_left fun h => absurd h.1 (lt_irrefl 0)
  induction rs generalizing v with
  | nil =>
    rw [waitReadings, if_neg (mt (hdone v).mp hv)]
    simp
  | cons r rs ih =>
    rw [waitReadings, if_neg (mt (hdone v).mp hv), List.exists_mem_cons_iff]
    by_cases hr : IsIdle r
    · have hstep : (waitStep v r).Done 0 := (hdone _).mpr hr
      refine iff_of_true ?_ (.inl hr)
      cases rs with
      | nil => rw [waitReadings, if_pos hstep, Option.isSome_some]
      | cons _ _ => rw [waitReadings, if_pos hstep, Option.isSome_some]
    · have hnext : (waitStep v r).regStatus ≠ marcstateIdle := hr
      rw [or_iff_right hr]
      exact ih hnext

theorem isSome_waitReadings (maxHold : UInt16) (rs : List UInt8) :
    (waitReadings maxHold rs ⟨0, 0⟩).isSome = true ↔ WaitReturns maxHold rs := by
  rcases eq_or_ne maxHold 0 with rfl | hne
  · rw [isSome_waitReadings_zero rs (by decide), WaitReturns, or_iff_left]
    exact fun h => absurd h.1 (lt_irrefl 0)
  · have hpos : 0 < maxHold := UInt16.pos_iff_ne_zero.mpr hne
    rw [isSome_waitReadings_iff hpos, WaitReturns, and_iff_right hpos]

theorem returns_waitFor (maxHold : UInt16) (polls : List Poll) :
    Returns (waitFor (cc112x liveView) maxHold (polls.map Poll.air))
      (fun _ => WaitReturns maxHold (polls.map Poll.reading))
      fun c => (waitStatus maxHold (polls.map Poll.reading), waitDev maxHold polls ⟨0, 0⟩ c) := by
  have hwait := (implements_radioWaitForIdle maxHold polls).map (Option.map WaitVars.status)
  refine ⟨fun b hb => ?_, fun b _ => hwait.dev b, fun b hb => ?_⟩
  · obtain ⟨v, hv⟩ := Option.isSome_iff_exists.mp ((isSome_waitReadings maxHold _).mpr hb)
    refine (hwait.value b).trans ?_
    show (waitReadings maxHold _ _).map _ = some (waitStatus maxHold _)
    rw [waitStatus, hv]
    rfl
  · have hnone := Option.not_isSome_iff_eq_none.mp (mt (isSome_waitReadings maxHold _).mp hb)
    refine (hwait.value b).trans ?_
    show (waitReadings maxHold _ _).map _ = none
    rw [hnone]
    rfl

/-- The sender's wait for the reply, once it is over: the reply is in time if `IDLE` came within 800
polls, and not at the poll after them. -/
theorem waitStatus_le_iff {rs : List UInt8} (h : WaitReturns 8000 rs) :
    waitStatus 8000 rs ≤ 8000 ↔ busyPolls rs < 800 := by
  have hlimit : (8000 : UInt16).toNat / 10 = 800 := rfl
  have hstatus : ∀ {m : ℕ} (r : UInt8), m ≤ 801 →
      ((afterPolls m r).status ≤ 8000 ↔ m ≤ 800) := by
    intro m r hm
    have hlt := toUInt32_lt_status_iff (show m ≤ (8000 : UInt16).toNat / 10 + 1 from hm) r
    rw [← UInt32.not_lt, ← Nat.not_lt, ← hlimit]
    exact not_congr hlt
  rw [waitStatus]
  rcases waitReadings_cases (show (0 : UInt16) < 8000 by decide) rs with ⟨hbusy, r, -, hrun⟩ |
    ⟨hbusy, -, hrun⟩ | ⟨hcount, hidle, -⟩
  · rw [hrun]
    refine (hstatus r le_rfl).trans ?_
    omega
  · rw [hrun]
    refine (hstatus marcstateIdle (by omega)).trans ?_
    omega
  · rcases h with hidle' | ⟨-, hcount'⟩
    · exact absurd hidle' hidle
    · omega

/-! ### The two bodies -/

/-- What happens during the two waits of an iteration. -/
structure Polls where
  first : List Poll
  second : List Poll

namespace Polls

variable (p : Polls)

def waits : Waits Chip := ⟨p.first.map Poll.air, p.second.map Poll.air⟩

/-- What the polls of a round make up for the sender. -/
def txEvent : TxEvent Chip where
  sent := waitDev 0 p.first ⟨0, 0⟩
  replied := waitDev 8000 p.second ⟨0, 0⟩
  status := waitStatus 8000 (p.second.map Poll.reading)

/-- And for the receiver. -/
def rxEvent : RxEvent Chip where
  received := waitDev 0 p.first ⟨0, 0⟩
  replied := waitDev 0 p.second ⟨0, 0⟩

/-- The sender's waits are over. -/
def SenderReturns (twoWay : Bool) : Prop :=
  WaitReturns 0 (p.first.map Poll.reading) ∧
    (twoWay = true → WaitReturns 8000 (p.second.map Poll.reading))

/-- The receiver's waits are over. Only a packet with good CRC is answered, so only then is there a
second. -/
def ReceiverReturns (twoWay : Bool) (v : RxVars) (c : Chip) : Prop :=
  WaitReturns 0 (p.first.map Poll.reading) ∧
    (twoWay = true →
      0 < (readOutcome (waitDev 0 p.first ⟨0, 0⟩ c) v.txBuffer (UInt16.ofNat bufferSize)).1.status →
        WaitReturns 0 (p.second.map Poll.reading))

end Polls

theorem returns_txIterPolled (twoWay : Bool) (pktlen : UInt16) (cc : UInt32) (p : Polls)
    (v : TxVars) :
    Returns (txIterPolled (cc112x liveView) twoWay pktlen cc p.waits v)
      (fun _ => p.SenderReturns twoWay) (txTurn twoWay pktlen cc p.txEvent v) := by
  have hsend := (implements_radioSend (fillPacket v.txBuffer cc) pktlen).returns
  cases twoWay with
  | true =>
    refine (hsend.bind fun _ => (returns_waitFor 0 p.first).bind fun _ =>
      (@implements_strobe_done srx (by decide)).returns.bind fun _ =>
        (returns_waitFor 8000 p.second).bind fun status =>
          (implements_txReply pktlen status _).returns).congr ?_ fun _ _ => rfl
    intro c
    simp [Polls.SenderReturns]
  | false =>
    refine (hsend.bind fun _ => (returns_waitFor 0 p.first).bind fun _ =>
      SpiM.returns_pure _).congr ?_ fun _ _ => rfl
    intro c
    simp [Polls.SenderReturns]

theorem returns_rxGoodPolled (twoWay : Bool) (pktlen : UInt16) (polls : List Poll) (buf : CArray)
    (v : RxVars) :
    Returns (rxGoodPolled (cc112x liveView) twoWay pktlen (polls.map Poll.air) buf v)
      (fun _ => twoWay = true → WaitReturns 0 (polls.map Poll.reading))
      (rxGoodTurn twoWay pktlen (waitDev 0 polls ⟨0, 0⟩) buf v) := by
  cases twoWay with
  | true =>
    refine (implements_radioGetRssi.returns.bind fun _ => implements_radioFreqError.returns.bind
      fun _ => (implements_radioSend _ pktlen).returns.bind fun _ =>
        (returns_waitFor 0 polls).bind fun _ => SpiM.returns_pure _).congr ?_ fun _ _ => rfl
    intro c
    simp
  | false =>
    refine (implements_radioGetRssi.returns.bind fun _ => implements_radioFreqError.returns.bind
      fun _ => SpiM.returns_pure _).congr ?_ fun _ _ => rfl
    intro c
    simp

theorem returns_rxIterPolled (twoWay : Bool) (pktlen : UInt16) (p : Polls) (v : RxVars) :
    Returns (rxIterPolled (cc112x liveView) twoWay pktlen p.waits v)
      (p.ReceiverReturns twoWay v) (rxTurn twoWay pktlen p.rxEvent v) := by
  have hdone := fun v : RxVars => (implements_rxDone v).returns
  have hbody := fun d : Delivery =>
    ((returns_rxGoodPolled twoWay pktlen p.second d.buf v).bind hdone).ite (p := 0 < d.status)
      ((implements_rxBad d.buf v).returns.bind hdone)
  refine ((returns_waitFor 0 p.first).bind fun _ =>
    (implements_radioRead v.txBuffer (UInt16.ofNat bufferSize)).returns.bind hbody).congr ?_ ?_
  · intro c
    show (WaitReturns 0 _ ∧ True ∧ if 0 < _ then _ ∧ True else True ∧ True) ↔ _
    rw [Polls.ReceiverReturns, true_and]
    refine and_congr_right fun _ => ?_
    split_ifs with hgood
    · rw [and_true]
      exact ⟨fun h htwo _ => h htwo, fun h htwo => h htwo hgood⟩
    · exact iff_of_true ⟨trivial, trivial⟩ fun _ h => absurd h hgood
  · intro c _
    exact (run_rxTurn twoWay pktlen p.rxEvent v c).symm

/-! ### The loops -/

variable (twoWay : Bool) (pktlen : UInt16)

theorem returns_txLoopPolled (cc : UInt32) (ps : List Polls) (v : TxVars) :
    Returns (txLoopPolled (cc112x liveView) twoWay pktlen cc (ps.map Polls.waits) v)
      (fun _ => ∀ p ∈ ps, p.SenderReturns twoWay)
      (txTurns twoWay pktlen cc (ps.map Polls.txEvent) v) := by
  induction ps generalizing cc v with
  | nil =>
    refine (SpiM.returns_pure (v, [])).congr ?_ fun _ _ => rfl
    intro c
    simp
  | cons p ps ih =>
    refine ((returns_txIterPolled twoWay pktlen cc p v).bind fun v => (ih (cc + 1) v).bind
      fun _ => SpiM.returns_pure _).congr ?_ fun _ _ => rfl
    intro c
    simp

/-- The receiver as a machine over the polls of its iterations. -/
def rxPolled : Mealy (RxVars × Chip) Polls RxLine where
  step s p :=
    let r := (rxTurn twoWay pktlen p.rxEvent s.1).run s.2
    ((r.1.1, r.2), r.1.2)

/-- In every iteration of the receiver its waits are over. -/
def ReceiverReturns (ps : List Polls) (v : RxVars) (c : Chip) : Prop :=
  (rxPolled twoWay pktlen).Along (fun s p => p.ReceiverReturns twoWay s.1 s.2) (v, c) ps

theorem returns_rxLoopPolled (ps : List Polls) (v : RxVars) :
    Returns (rxLoopPolled (cc112x liveView) twoWay pktlen (ps.map Polls.waits) v)
      (ReceiverReturns twoWay pktlen ps v) (rxTurns twoWay pktlen (ps.map Polls.rxEvent) v) := by
  induction ps generalizing v with
  | nil =>
    refine (SpiM.returns_pure (v, [])).congr ?_ fun _ _ => rfl
    intro c
    exact Iff.rfl
  | cons p ps ih =>
    refine ((returns_rxIterPolled twoWay pktlen p v).bind fun r => (ih r.1).bind
      fun _ => SpiM.returns_pure _).congr ?_ fun _ _ => rfl
    intro c
    exact and_congr_right fun _ => iff_of_eq (and_true _)

/-! ### The bursts -/

theorem returns_txBurstPolled (pktnum : UInt32) (polls : ℕ → Polls) (v : TxVars) :
    Returns (txBurstPolled (cc112x liveView) twoWay pktlen pktnum (fun i => (polls i).waits) v)
      (fun _ => ∀ p ∈ eventsUpTo pktnum polls, p.SenderReturns twoWay)
      (txBurstTurns twoWay pktlen pktnum (fun i => (polls i).txEvent) v) := by
  rw [txBurstPolled, txBurstTurns, map_eventsUpTo pktnum polls Polls.waits,
    map_eventsUpTo pktnum polls Polls.txEvent]
  refine ((returns_txLoopPolled twoWay pktlen 0 (eventsUpTo pktnum polls) _).bind fun _ =>
    SpiM.returns_pure _).congr ?_ fun _ _ => rfl
  intro c
  exact iff_of_eq (and_true _)

theorem returns_rxBurstPolled (pktnum : UInt32) (polls : ℕ → Polls) (v : RxVars) :
    Returns (rxBurstPolled (cc112x liveView) twoWay pktlen pktnum (fun i => (polls i).waits) v)
      (ReceiverReturns twoWay pktlen (eventsUpTo pktnum polls) { v with pckGoodCnt := 0 })
      (rxBurstTurns twoWay pktlen pktnum (fun i => (polls i).rxEvent) v) := by
  rw [rxBurstPolled, rxBurstTurns, map_eventsUpTo pktnum polls Polls.waits,
    map_eventsUpTo pktnum polls Polls.rxEvent]
  exact returns_rxLoopPolled twoWay pktlen (eventsUpTo pktnum polls) _

theorem forall_mem_eventsUpTo {ε : Type} {pktnum : UInt32} {event : ℕ → ε} {p : ε → Prop} :
    (∀ e ∈ eventsUpTo pktnum event, p e) ↔ ∀ i < pktnum.toNat, p (event i) := by
  simp [eventsUpTo]

/-- **The sender with its waits.** It comes to its end exactly when the waits of every round are
over, and then report and radio are those of the sender without, for the events of the polls. -/
theorem txBurstPolled_refines (pktnum : UInt32) (polls : ℕ → Polls) (v : TxVars)
    (b : SpiBus Chip Phase) :
    let r := (txBurstPolled (cc112x liveView) twoWay pktlen pktnum (fun i => (polls i).waits)
      v).run.run b
    let a := (txBurst (cc112x liveView) twoWay pktlen pktnum (fun i => (polls i).txEvent) v).run b
    (r.1.isSome = true ↔ ∀ i < pktnum.toNat, (polls i).SenderReturns twoWay) ∧
      (r.1.isSome = true → r.1 = some a.1 ∧ r.2.dev = a.2.dev) := by
  have h := returns_txBurstPolled twoWay pktlen pktnum polls v
  exact ⟨(h.isSome_iff b).trans forall_mem_eventsUpTo,
    h.eq_of_implements (implements_txBurst twoWay pktlen pktnum _ v) b⟩

/-- In the one-way build the receiver only waits for packets. -/
theorem receiverReturns_oneWay {ps : List Polls} {v : RxVars} {c : Chip} :
    ReceiverReturns false pktlen ps v c ↔ ∀ p ∈ ps, WaitReturns 0 (p.first.map Poll.reading) := by
  rw [ReceiverReturns, ← Mealy.along_const_iff]
  refine Mealy.along_congr ?_ _ _
  intro s p
  exact and_iff_left fun h => absurd h Bool.false_ne_true

/-- **The receiver with its waits.** It comes to its end exactly when its waits are over in every
iteration, in the one-way build when as many packets end as it has turns; and then its report and
its radio are those of the receiver without. -/
theorem rxBurstPolled_refines (pktnum : UInt32) (polls : ℕ → Polls) (v : RxVars)
    (b : SpiBus Chip Phase) :
    let r := (rxBurstPolled (cc112x liveView) twoWay pktlen pktnum (fun i => (polls i).waits)
      v).run.run b
    let a := (rxBurst (cc112x liveView) twoWay pktlen pktnum (fun i => (polls i).rxEvent) v).run b
    (r.1.isSome = true ↔
        ReceiverReturns twoWay pktlen (eventsUpTo pktnum polls) { v with pckGoodCnt := 0 } b.dev) ∧
      (twoWay = false → (r.1.isSome = true ↔
        ∀ i < pktnum.toNat, WaitReturns 0 ((polls i).first.map Poll.reading))) ∧
      (r.1.isSome = true → r.1 = some a.1 ∧ r.2.dev = a.2.dev) := by
  have h := returns_rxBurstPolled twoWay pktlen pktnum polls v
  refine ⟨h.isSome_iff b, ?_, h.eq_of_implements (implements_rxBurst twoWay pktlen pktnum _ v) b⟩
  rintro rfl
  exact (h.isSome_iff b).trans ((receiverReturns_oneWay pktlen).trans forall_mem_eventsUpTo)

/-- **The forward total, by the polls.** If the two-way sender comes to its end, `Forward Error
count` is the sum of what its lines show exactly when in every round `IDLE` came within 800 counted
polls. -/
theorem txBurstPolled_forward_iff {pktlen : UInt16} (hpktlen : pktlen.toNat < 45) {pktnum : UInt32}
    (hpktnum : pktnum.toNat ≤ 75000000) (polls : ℕ → Polls) (v : TxVars) (b : SpiBus Chip Phase) :
    ∀ report ∈ ((txBurstPolled (cc112x liveView) true pktlen pktnum (fun i => (polls i).waits)
        v).run.run b).1,
      report.errorForward = (report.lines.map TxLine.errors).sum ↔
        ∀ i < pktnum.toNat, busyPolls ((polls i).second.map Poll.reading) < 800 := by
  have h := returns_txBurstPolled true pktlen pktnum polls v
  intro report hreport
  have hsome := Option.isSome_of_mem hreport
  have hwaits := forall_mem_eventsUpTo.mp ((h.isSome_iff b).mp hsome)
  have hrun := (h.eq_of_implements (implements_txBurst true pktlen pktnum _ v) b hsome).1
  rw [Option.mem_def, hrun, Option.some_inj] at hreport
  rw [← hreport]
  refine (txReport_forward_iff (cc112x liveView) hpktlen hpktnum _ v b).trans ?_
  refine forall₂_congr fun i hi => ?_
  exact waitStatus_le_iff ((hwaits i hi).2 rfl)

/-- A burst in which no reply comes to the second packet. -/
def lateReply (i : ℕ) : Polls where
  first := [Poll.of marcstateIdle]
  second := if i = 1 then List.replicate 801 (Poll.of 0x13) else [Poll.of marcstateIdle]

theorem senderReturns_lateReply (i : ℕ) : (lateReply i).SenderReturns true := by
  have hidle : ∀ maxHold, WaitReturns maxHold [marcstateIdle] := fun _ =>
    .inl ⟨marcstateIdle, List.mem_singleton_self _, rfl⟩
  refine ⟨hidle 0, fun _ => ?_⟩
  rw [lateReply]
  split_ifs
  · rw [List.map_replicate]
    exact .inr (by decide +kernel)
  · exact hidle 8000

/-- Three packets. -/
theorem txBurstPolled_forward_late :
    let v : TxVars := ⟨fun _ => 0, 0, 0, 0, 0, 0, 0, 0⟩
    let r := ((txBurstPolled (cc112x liveView) true 20 3 (fun i => (lateReply i).waits) v).run.run
      resetBus).1
    r.isSome = true ∧ ∀ report ∈ r,
      ¬ report.errorForward = (report.lines.map TxLine.errors).sum := by
  intro v r
  refine ⟨((returns_txBurstPolled true 20 3 lateReply v).isSome_iff resetBus).mpr
    fun p hp => ?_, fun report hreport => ?_⟩
  · obtain ⟨i, -, rfl⟩ := List.mem_map.mp hp
    exact senderReturns_lateReply i
  · rw [txBurstPolled_forward_iff (by decide) (by decide) lateReply v resetBus report hreport]
    intro hall
    have hlate := hall 1 (by decide)
    rw [lateReply, if_pos rfl, List.map_replicate] at hlate
    exact absurd hlate (by decide +kernel)

end RfTest

end Wise1511
