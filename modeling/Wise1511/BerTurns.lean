import Wise1511.RfTest

/-!
# The loop bodies of the burst tests as transactions

What an iteration of `tx_ber_single` or `rx_ber_single` does to its variables and to the chip, from
variables and chip alone. The programs above the loops are verified against these.

## Main results

* `implements_txIter`, `implements_rxIter` — the two loop bodies
* `implements_txBurst`, `implements_rxBurst` — the bursts
-/

namespace Wise1511

namespace RfTest

open SpiM (Implements)

/-! ### The sender -/

/-- The second half of the sender's loop body, in the two-way build. -/
def txReplyTurn (pktlen : UInt16) (status : UInt32) (v : TxVars) : StateM Chip TxVars := fun c =>
  if status ≤ 8000 then
    let r := readOutcome c v.txBuffer pktlen
    let dataError := dataErrors r.1.buf pktlen.toNat
    ({ txBuffer := r.1.buf
       rssiForward := rssiForwardOf (r.1.buf 3)
       rssiReverse := rssiOf (r.2.regs rssi1.toNat)
       freqError := freqErrorOf (r.2.regs freqoffEst1.toNat) (r.2.regs freqoffEst0.toNat)
       dataError := dataError
       errorForward := v.errorForward + (r.1.buf 4).toUInt32
       errorReverse := v.errorReverse + dataError.toUInt32
       totalPktCount := v.totalPktCount + 1 }, r.2)
  else
    ({ v with
       rssiForward := 0
       rssiReverse := 0
       dataError := pktlen
       errorForward := v.errorForward + pktlen.toUInt32
       errorReverse := v.errorReverse + pktlen.toUInt32
       totalPktCount := v.totalPktCount + 1 }, ((c.strobe sidle).strobe sfrx).strobe sftx)

theorem implements_txReply (pktlen : UInt16) (status : UInt32) (v : TxVars) :
    Implements (txReply (cc112x liveView) pktlen status v) (txReplyTurn pktlen status v) := by
  rw [txReply]
  split_ifs with hstatus
  · refine ((implements_radioRead v.txBuffer pktlen).bind fun _ =>
      implements_radioGetRssi.bind fun _ => implements_radioFreqError.bind
        fun _ => SpiM.implements_pure _).congr ?_
    intro c
    exact (if_pos hstatus).symm
  · refine (implements_radioIdle.bind fun _ => SpiM.implements_pure _).congr ?_
    intro c
    exact (if_neg hstatus).symm

/-- The sender's loop body. -/
def txTurn (twoWay : Bool) (pktlen : UInt16) (cc : UInt32) (e : TxEvent Chip) (v : TxVars) :
    StateM Chip TxVars := fun c =>
  let v := { v with txBuffer := fillPacket v.txBuffer cc }
  let c := e.sent ((c.pushTx (v.txBuffer.slice 0 pktlen.toNat)).strobe stx)
  if twoWay then txReplyTurn pktlen e.status v (e.replied (c.strobe srx)) else (v, c)

theorem implements_txSend (pktlen : UInt16) (cc : UInt32) (sent : Chip → Chip) (v : TxVars) :
    Implements (txSend (cc112x liveView) pktlen cc sent v) fun c =>
      ({ v with txBuffer := fillPacket v.txBuffer cc },
        sent ((c.pushTx ((fillPacket v.txBuffer cc).slice 0 pktlen.toNat)).strobe stx)) :=
  (implements_radioSend (fillPacket v.txBuffer cc) pktlen).bind fun _ =>
    (SpiM.implements_modify sent).bind fun _ => SpiM.implements_pure _

theorem implements_txIter (twoWay : Bool) (pktlen : UInt16) (cc : UInt32) (e : TxEvent Chip)
    (v : TxVars) :
    Implements (txIter (cc112x liveView) twoWay pktlen cc e.sent e.replied e.status v)
      (txTurn twoWay pktlen cc e v) := by
  have hsend := implements_txSend pktlen cc e.sent v
  cases twoWay with
  | true =>
    exact hsend.bind fun v => (@implements_strobe_done srx (by decide)).bind fun _ =>
      (SpiM.implements_modify e.replied).bind fun _ => implements_txReply pktlen e.status v
  | false => exact hsend.bind fun v => SpiM.implements_pure v

/-! ### The receiver -/

/-- What the receiver makes of a packet with good CRC. -/
def rxGoodTurn (twoWay : Bool) (pktlen : UInt16) (replied : Chip → Chip) (buf : CArray)
    (v : RxVars) : StateM Chip RxVars := fun c =>
  let content := copyContent v.content buf
  let rssi := rssiOf (c.regs rssi1.toNat)
  let freqError := freqErrorOf (c.regs freqoffEst1.toNat) (c.regs freqoffEst0.toNat)
  if twoWay then
    let reply := replyPacket buf rssi pktlen.toNat
    (⟨reply, content, rssi, freqError, v.pckGoodCnt + 1⟩,
      replied ((c.pushTx (reply.slice 0 pktlen.toNat)).strobe stx))
  else
    (⟨buf, content, rssi, freqError, v.pckGoodCnt + 1⟩, c)

theorem implements_rxGood (twoWay : Bool) (pktlen : UInt16) (replied : Chip → Chip) (buf : CArray)
    (v : RxVars) : Implements (rxGood (cc112x liveView) twoWay pktlen replied buf v)
      (rxGoodTurn twoWay pktlen replied buf v) := by
  cases twoWay with
  | true =>
    exact implements_radioGetRssi.bind fun _ => implements_radioFreqError.bind fun _ =>
      (implements_radioSend _ pktlen).bind fun _ => (SpiM.implements_modify replied).bind
        fun _ => SpiM.implements_pure _
  | false =>
    exact implements_radioGetRssi.bind fun _ => implements_radioFreqError.bind
      fun _ => SpiM.implements_pure _

/-- And of anything else. -/
def rxBadTurn (buf : CArray) (v : RxVars) : StateM Chip RxVars := fun c =>
  ({ v with txBuffer := buf }, ((c.strobe sidle).strobe sfrx).strobe sftx)

theorem implements_rxBad (buf : CArray) (v : RxVars) :
    Implements (rxBad (cc112x liveView) buf v) (rxBadTurn buf v) :=
  implements_radioIdle.bind fun _ => SpiM.implements_pure _

/-- The end of the loop body. -/
def rxDoneTurn (v : RxVars) : StateM Chip (RxVars × RxLine) := fun c =>
  ((v, rxLine v), c.strobe srx)

theorem implements_rxDone (v : RxVars) :
    Implements (radioReceiveOn (cc112x liveView) >>= fun _ => pure (v, rxLine v)) (rxDoneTurn v) :=
  (@implements_strobe_done srx (by decide)).bind fun _ => SpiM.implements_pure _

/-- The receiver's loop body. -/
def rxTurn (twoWay : Bool) (pktlen : UInt16) (e : RxEvent Chip) (v : RxVars) :
    StateM Chip (RxVars × RxLine) := fun c =>
  let r := readOutcome (e.received c) v.txBuffer (UInt16.ofNat bufferSize)
  if 0 < r.1.status then
    let g := rxGoodTurn twoWay pktlen e.replied r.1.buf v r.2
    ((g.1, rxLine g.1), g.2.strobe srx)
  else
    let v := { v with txBuffer := r.1.buf }
    ((v, rxLine v), (((r.2.strobe sidle).strobe sfrx).strobe sftx).strobe srx)

/-- A turn, by its two branches. -/
theorem run_rxTurn (twoWay : Bool) (pktlen : UInt16) (e : RxEvent Chip) (v : RxVars) (c : Chip) :
    (rxTurn twoWay pktlen e v).run c =
      let r := readOutcome (e.received c) v.txBuffer (UInt16.ofNat bufferSize)
      StateT.run
        (if 0 < r.1.status then rxGoodTurn twoWay pktlen e.replied r.1.buf v >>= rxDoneTurn
        else rxBadTurn r.1.buf v >>= rxDoneTurn) r.2 := by
  show rxTurn twoWay pktlen e v c = _
  by_cases hgood : 0 < (readOutcome (e.received c) v.txBuffer (UInt16.ofNat bufferSize)).1.status
  · simp only [rxTurn, if_pos hgood]
    rfl
  · simp only [rxTurn, if_neg hgood]
    rfl

theorem implements_rxIter (twoWay : Bool) (pktlen : UInt16) (e : RxEvent Chip) (v : RxVars) :
    Implements (rxIter (cc112x liveView) twoWay pktlen e.received e.replied v)
      (rxTurn twoWay pktlen e v) := by
  have hbody := fun d : Delivery =>
    ((implements_rxGood twoWay pktlen e.replied d.buf v).bind implements_rxDone).ite
      (p := 0 < d.status) ((implements_rxBad d.buf v).bind implements_rxDone)
  refine ((SpiM.implements_modify e.received).bind fun _ =>
    (implements_radioRead v.txBuffer (UInt16.ofNat bufferSize)).bind hbody).congr ?_
  intro c
  exact (run_rxTurn twoWay pktlen e v c).symm

/-! ### The loops -/

variable (twoWay : Bool) (pktlen : UInt16)

/-- The sender's loop. -/
def txTurns : UInt32 → List (TxEvent Chip) → TxVars → StateM Chip (TxVars × List TxLine)
  | _, [], v => pure (v, [])
  | cc, e :: es, v => do
    let v ← txTurn twoWay pktlen cc e v
    let rest ← txTurns (cc + 1) es v
    pure (rest.1, txLine twoWay cc v :: rest.2)

theorem implements_txLoop (cc : UInt32) (es : List (TxEvent Chip)) (v : TxVars) :
    Implements (txLoop (cc112x liveView) twoWay pktlen cc es v)
      (txTurns twoWay pktlen cc es v) := by
  induction es generalizing cc v with
  | nil => exact SpiM.implements_pure (v, [])
  | cons e es ih =>
    exact (implements_txIter twoWay pktlen cc e v).bind fun v => (ih (cc + 1) v).bind fun _ =>
      SpiM.implements_pure _

/-- The receiver's loop. -/
def rxTurns : List (RxEvent Chip) → RxVars → StateM Chip (RxVars × List RxLine)
  | [], v => pure (v, [])
  | e :: es, v => do
    let r ← rxTurn twoWay pktlen e v
    let rest ← rxTurns es r.1
    pure (rest.1, r.2 :: rest.2)

theorem implements_rxLoop (es : List (RxEvent Chip)) (v : RxVars) :
    Implements (rxLoop (cc112x liveView) twoWay pktlen es v) (rxTurns twoWay pktlen es v) := by
  induction es generalizing v with
  | nil => exact SpiM.implements_pure (v, [])
  | cons e es ih =>
    exact (implements_rxIter twoWay pktlen e v).bind fun r => (ih r.1).bind fun _ =>
      SpiM.implements_pure _

/-- The sender from the set-up on. -/
def txBurstTurns (pktnum : UInt32) (event : ℕ → TxEvent Chip) (v : TxVars) :
    StateM Chip TxReport := do
  let r ← txTurns twoWay pktlen 0 (eventsUpTo pktnum event)
    { v with errorForward := 0, errorReverse := 0, totalPktCount := 0 }
  pure ⟨r.2, pktnum, r.1.totalPktCount, r.1.errorForward, r.1.errorReverse⟩

theorem implements_txBurst (pktnum : UInt32) (event : ℕ → TxEvent Chip) (v : TxVars) :
    Implements (txBurst (cc112x liveView) twoWay pktlen pktnum event v)
      (txBurstTurns twoWay pktlen pktnum event v) :=
  (implements_txLoop twoWay pktlen 0 _ _).bind fun _ => SpiM.implements_pure _

/-- And the receiver. -/
def rxBurstTurns (pktnum : UInt32) (event : ℕ → RxEvent Chip) (v : RxVars) :
    StateM Chip (RxVars × List RxLine) :=
  rxTurns twoWay pktlen (eventsUpTo pktnum event) { v with pckGoodCnt := 0 }

theorem implements_rxBurst (pktnum : UInt32) (event : ℕ → RxEvent Chip) (v : RxVars) :
    Implements (rxBurst (cc112x liveView) twoWay pktlen pktnum event v)
      (rxBurstTurns twoWay pktlen pktnum event v) :=
  implements_rxLoop twoWay pktlen _ _

end RfTest

end Wise1511
