import Wise1511.BurstLink
import Wise1511.MenuSessions
import Wise1511.RfHandlers

/-!
# The radio menus

`RFTest_Menu` and the `SpectrumTest` inside it, in the one-way build. The first asks the radio which
chip it is and shows that in its title; every other entry runs one of the handlers of `RfHandlers`,
and comes back when the handler does.

A session is any sequence of lines at these menus. The radio may do as it likes before every poll of
a test, except that it neither sends nor fills the FIFO for sending by itself. Then all that goes on
the air in a session are bursts: one for each call of a sending test, of one thousand packets with
the numbers from zero on, and as much of the next as the test under way has got to. The receiving
tests, the tests for continuous transmission and the menus themselves send nothing.

## Main results

* `within_program` — what a test sends, and what it has sent while it waits
* `legible_rfTestMenu` — the screens can be read
* `rfTestMenu_sends` — what a session sends
-/

namespace Wise1511

namespace RfTest

open SpiM (Implements Within)

/-! ### What the loops send -/

/-- Packets with the numbers from zero on. -/
def ArePackets (packets : List (List UInt8)) : Prop :=
  ∀ n packet, packets[n]? = some packet → IsPacket n packet

/-- The packets of a whole burst. -/
def IsBurst (packets : List (List UInt8)) : Prop := packets.length = 1000 ∧ ArePackets packets

/-- The packets of a burst that may be under way. -/
def IsBurstSoFar (packets : List (List UInt8)) : Prop :=
  packets.length ≤ 1000 ∧ ArePackets packets

theorem arePackets_nil : ArePackets [] := by
  intro n packet h
  simp at h

theorem ArePackets.snoc {packets : List (List UInt8)} (h : ArePackets packets)
    {packet : List UInt8} (hpacket : IsPacket packets.length packet) :
    ArePackets (packets ++ [packet]) := by
  intro n p hn
  rcases Nat.lt_or_ge n packets.length with hold | hnew
  · rw [List.getElem?_append_left hold] at hn
    exact h n p hn
  · obtain ⟨hlt, hp⟩ := List.getElem?_eq_some_iff.mp hn
    obtain rfl : n = packets.length := by
      rw [List.length_append, List.length_singleton] at hlt
      omega
    obtain rfl : packet = p := by simpa using hp
    exact hpacket

/-- `n` packets have gone out, and the FIFO is empty. -/
def SentSoFar (sent : List (List UInt8)) (n : ℕ) (c : Chip) : Prop :=
  c.txFifo = [] ∧ ∃ packets, c.sent = sent ++ packets ∧ packets.length = n ∧ ArePackets packets

theorem sent_flush (reading : UInt8) (c : Chip) : (flush reading c).sent = c.sent := by
  rw [flush]
  split_ifs
  · rfl
  · rfl
  · rfl

theorem txFifo_flush {reading : UInt8} {c : Chip} (hc : c.txFifo = []) :
    (flush reading c).txFifo = [] := by
  rw [flush]
  split_ifs
  · exact hc
  · rfl
  · exact hc

/-- A wait keeps what its polls and the flushes keep, over or not. -/
theorem within_waitFor {P : Chip → Prop} (maxHold : UInt16) {polls : List Poll}
    (hair : ∀ p ∈ polls, ∀ c, P c → P (p.air c)) (hflush : ∀ reading c, P c → P (flush reading c)) :
    Within P (waitFor (cc112x liveView) maxHold (polls.map Poll.air)) (fun _ => P) P := by
  have hdev : ∀ (v : WaitVars) (c : Chip), P c → P (waitDev maxHold polls v c) := by
    induction polls with
    | nil => exact fun _ _ hc => hc
    | cons p polls ih =>
      intro v c hc
      rw [waitDev]
      split_ifs
      · exact hc
      · exact ih (fun q hq => hair q (List.mem_cons_of_mem p hq)) _ _
          (hflush _ _ (hair p List.mem_cons_self c hc))
  have hwait := (implements_radioWaitForIdle maxHold polls).map (Option.map WaitVars.status)
  exact ⟨fun {b} _ hb _ => (hwait.dev b).symm ▸ hdev _ _ hb,
    fun {b} hb _ => (hwait.dev b).symm ▸ hdev _ _ hb⟩

/-- What the polls of a round leave alone. -/
def Polls.Keeps {α : Type} (p : Polls) (f : Chip → α) : Prop :=
  ∀ poll ∈ p.first ++ p.second, ∀ c, f (poll.air c) = f c

variable (sent : List (List UInt8))

/-- A round of the sender. -/
theorem within_txIterPolled {p : Polls} (hsent : p.Keeps Chip.sent) (hfifo : p.Keeps Chip.txFifo)
    (n : ℕ) (v : TxVars) :
    Within (SentSoFar sent n) (txIterPolled (cc112x liveView) false 20 (UInt32.ofNat n) p.waits v)
      (fun _ => SentSoFar sent (n + 1)) (SentSoFar sent (n + 1)) := by
  have hsend : ∀ c, SentSoFar sent n c → SentSoFar sent (n + 1)
      ((c.pushTx ((fillPacket v.txBuffer (UInt32.ofNat n)).slice 0 20)).strobe stx) := by
    rintro c ⟨hempty, packets, hpackets, hlength, hall⟩
    refine ⟨rfl, packets ++ [(fillPacket v.txBuffer (UInt32.ofNat n)).slice 0 20], ?_, ?_, ?_⟩
    · show c.sent ++ [c.txFifo ++ _] = _
      rw [hempty, hpackets, List.nil_append, List.append_assoc]
    · rw [List.length_append, hlength, List.length_singleton]
    · exact hall.snoc ⟨v.txBuffer, by rw [hlength]⟩
  have hair : ∀ poll ∈ p.first, ∀ c, SentSoFar sent (n + 1) c →
      SentSoFar sent (n + 1) (poll.air c) := by
    rintro poll hpoll c ⟨hempty, hpackets⟩
    have hmem := List.mem_append_left p.second hpoll
    rw [SentSoFar, hfifo poll hmem c, hsent poll hmem c]
    exact ⟨hempty, hpackets⟩
  have hflush : ∀ reading c, SentSoFar sent (n + 1) c →
      SentSoFar sent (n + 1) (flush reading c) := by
    rintro reading c ⟨hempty, hpackets⟩
    rw [SentSoFar, sent_flush]
    exact ⟨txFifo_flush hempty, hpackets⟩
  exact (Within.of_implements (implements_radioSend _ 20) hsend).bind fun _ =>
    (within_waitFor 0 hair hflush).bind fun _ => Within.pure fun _ hc => hc

/-- The sender's loop, from any number on. -/
theorem within_txLoopPolled {ps : List Polls} (hsent : ∀ p ∈ ps, p.Keeps Chip.sent)
    (hfifo : ∀ p ∈ ps, p.Keeps Chip.txFifo) (n : ℕ) (v : TxVars) :
    Within (SentSoFar sent n)
      (txLoopPolled (cc112x liveView) false 20 (UInt32.ofNat n) (ps.map Polls.waits) v)
      (fun _ => SentSoFar sent (n + ps.length))
      fun c => ∃ m ≤ n + ps.length, SentSoFar sent m c := by
  induction ps generalizing n v with
  | nil => exact Within.pure fun _ hc => hc
  | cons p ps ih =>
    have hbody := within_txIterPolled sent (hsent p List.mem_cons_self)
      (hfifo p List.mem_cons_self) n v
    have hnext : UInt32.ofNat n + 1 = UInt32.ofNat (n + 1) := (UInt32.ofNat_add n 1).symm
    have hlength : n + 1 + ps.length = n + (p :: ps).length := by
      rw [List.length_cons]
      omega
    rw [List.map_cons, txLoopPolled]
    refine (hbody.weaken (fun _ hc => hc) (fun _ _ hc => hc) ?_).bind fun v' => ?_
    · intro c hc
      exact ⟨n + 1, by omega, hc⟩
    · rw [hnext, ← hlength]
      exact (ih (fun q hq => hsent q (List.mem_cons_of_mem p hq))
        (fun q hq => hfifo q (List.mem_cons_of_mem p hq)) (n + 1) v').bind fun _ =>
          Within.pure fun _ hc => hc

theorem sent_readOutcome (c : Chip) (buf : CArray) (bufLen : UInt16) :
    (readOutcome c buf bufLen).2.sent = c.sent := by
  rw [readOutcome]
  split_ifs
  · rfl
  · rfl

/-- Nothing goes out, whether the program comes back or waits. -/
def SendsNothing {α : Type} (x : OptionT (SpiM Chip Phase) α) : Prop :=
  ∀ sent : List (List UInt8), Within (fun c => c.sent = sent) x (fun _ c => c.sent = sent)
    fun c => c.sent = sent

namespace SendsNothing

variable {α β : Type}

theorem of_implements {x : SpiM Chip Phase α} {f : StateM Chip α} (h : Implements x f)
    (hsent : ∀ c, (f.run c).2.sent = c.sent) :
    SendsNothing (liftM x : OptionT (SpiM Chip Phase) α) := fun _ =>
  Within.of_implements h fun c hc => (hsent c).trans hc

theorem pure (a : α) : SendsNothing (pure a : OptionT (SpiM Chip Phase) α) := fun _ =>
  Within.pure fun _ hc => hc

theorem bind {x : OptionT (SpiM Chip Phase) α} (h : SendsNothing x)
    {k : α → OptionT (SpiM Chip Phase) β} (hk : ∀ a, SendsNothing (k a)) :
    SendsNothing (x >>= k) := fun sent => (h sent).bind fun a => hk a sent

theorem ite {p : Prop} [Decidable p] {x y : OptionT (SpiM Chip Phase) α} (hx : SendsNothing x)
    (hy : SendsNothing y) : SendsNothing (if p then x else y) := fun sent =>
  (hx sent).ite (hy sent)

theorem waitFor (maxHold : UInt16) {polls : List Poll}
    (hair : ∀ p ∈ polls, ∀ c, (p.air c).sent = c.sent) :
    SendsNothing (waitFor (cc112x liveView) maxHold (polls.map Poll.air)) := fun _ =>
  within_waitFor maxHold (fun p hp c hc => (hair p hp c).trans hc)
    fun reading c hc => (sent_flush reading c).trans hc

end SendsNothing

/-- An iteration of the receiver. -/
theorem sendsNothing_rxIterPolled {p : Polls} (hsent : p.Keeps Chip.sent) (v : RxVars) :
    SendsNothing (rxIterPolled (cc112x liveView) false 20 p.waits v) := by
  have hwait : SendsNothing (waitFor (cc112x liveView) 0 (p.first.map Poll.air)) :=
    SendsNothing.waitFor 0 fun poll hpoll => hsent poll (List.mem_append_left p.second hpoll)
  have hdone : ∀ v : RxVars, SendsNothing
      (liftM (radioReceiveOn (cc112x liveView)) >>= fun _ => Pure.pure (v, rxLine v)) := fun v =>
    (SendsNothing.of_implements (@implements_strobe_done srx (by decide)) fun _ => rfl).bind
      fun _ => SendsNothing.pure _
  have hgood : ∀ d : Delivery, SendsNothing
      (rxGoodPolled (cc112x liveView) false 20 (p.second.map Poll.air) d.buf v) := fun d =>
    (SendsNothing.of_implements implements_radioGetRssi fun _ => rfl).bind fun _ =>
      (SendsNothing.of_implements implements_radioFreqError fun _ => rfl).bind fun _ =>
        SendsNothing.pure _
  have hbad : ∀ d : Delivery, SendsNothing (liftM (rxBad (cc112x liveView) d.buf v)) := fun d =>
    SendsNothing.of_implements (implements_rxBad d.buf v) fun _ => rfl
  have hread := SendsNothing.of_implements
    (implements_radioRead v.txBuffer (UInt16.ofNat bufferSize)) fun c => sent_readOutcome c _ _
  exact hwait.bind fun _ => hread.bind fun d => SendsNothing.ite ((hgood d).bind hdone)
    ((hbad d).bind hdone)

/-- The receiver's loop. -/
theorem sendsNothing_rxLoopPolled {ps : List Polls} (hsent : ∀ p ∈ ps, p.Keeps Chip.sent)
    (v : RxVars) :
    SendsNothing (rxLoopPolled (cc112x liveView) false 20 (ps.map Polls.waits) v) := by
  induction ps generalizing v with
  | nil => exact SendsNothing.pure _
  | cons p ps ih =>
    have hrest := ih fun q hq => hsent q (List.mem_cons_of_mem p hq)
    exact (sendsNothing_rxIterPolled (hsent p List.mem_cons_self) v).bind fun r =>
      (hrest r.1).bind fun _ => SendsNothing.pure _

/-! ### The tests -/

/-- A handler, as it is called. -/
inductive RfCall where
  | ltx
  | lrx
  | ltx4gfsk500
  | lrx4gfsk500
  | ltx2fsk300
  | lrx2fsk300
  | tx4gfsk500 (index : Int32)
  | tx4gfsk200k (index : Int32)
  | tx2gfsk500 (index : Int32)
  | tx2gfsk50k (index : Int32)
  | tx2fsk300 (index : Int32)
  | tx2fsk1_2k (index : Int32)
deriving DecidableEq

/-- What a test finds: the radio by itself, wait by wait, and the stack. -/
structure RfAir where
  tx : ℕ → Polls
  txVars : TxVars
  rx : ℕ → Polls
  rxVars : RxVars
  tx_sent : ∀ i, (tx i).Keeps Chip.sent
  tx_txFifo : ∀ i, (tx i).Keeps Chip.txFifo
  rx_sent : ∀ i, (rx i).Keeps Chip.sent

namespace RfCall

/-- The test sends a burst. -/
def sends : RfCall → Bool
  | ltx | ltx4gfsk500 | ltx2fsk300 => true
  | lrx | lrx4gfsk500 | lrx2fsk300 => false
  | tx4gfsk500 index | tx4gfsk200k index | tx2gfsk500 index | tx2gfsk50k index | tx2fsk300 index
  | tx2fsk1_2k index => index != 0

/-- What is called. -/
def program (call : RfCall) (a : RfAir) : OptionT (SpiM Chip Phase) Unit :=
  let S := cc112x liveView
  let tx := fun i => (a.tx i).waits
  let rx := fun i => (a.rx i).waits
  match call with
  | ltx => discard (runLTX S false tx a.txVars)
  | lrx => discard (runLRX S false rx a.rxVars)
  | ltx4gfsk500 => discard (runLTX4gfsk500 S false tx a.txVars)
  | lrx4gfsk500 => discard (runLRX4gfsk500 S false rx a.rxVars)
  | ltx2fsk300 => discard (runLTX2fsk300 S false tx a.txVars)
  | lrx2fsk300 => discard (runLRX2fsk300 S false rx a.rxVars)
  | tx4gfsk500 index => discard (runTX4gfsk500 S false index tx a.txVars)
  | tx4gfsk200k index => discard (runTX4gfsk200k S false index tx a.txVars)
  | tx2gfsk500 index => discard (runTX2gfsk500 S false index tx a.txVars)
  | tx2gfsk50k index => discard (runTX2gfsk50k S false index tx a.txVars)
  | tx2fsk300 index => discard (runTX2fsk300 S false index tx a.txVars)
  | tx2fsk1_2k index => discard (runTX2fsk1_2k S false index tx a.txVars)

/-- What the test puts on the air: a burst, or nothing. -/
def Puts (call : RfCall) (packets : List (List UInt8)) : Prop :=
  match call.sends with
  | true => IsBurst packets
  | false => packets = []

/-- What it has put there while it waits. -/
def PutsSoFar (call : RfCall) (packets : List (List UInt8)) : Prop :=
  match call.sends with
  | true => IsBurstSoFar packets
  | false => packets = []

end RfCall

/-- A sending handler. -/
theorem within_runSender (t : BurstTest) (a : RfAir) :
    Within (fun c => c.sent = sent)
      (runSender (cc112x liveView) false t (fun i => (a.tx i).waits) a.txVars)
      (fun _ c => ∃ packets, c.sent = sent ++ packets ∧ IsBurst packets)
      fun c => ∃ packets, c.sent = sent ++ packets ∧ IsBurstSoFar packets := by
  have hsetup : Within (fun c => c.sent = sent)
      (liftM (senderSetup t) : OptionT (SpiM Chip Phase) Unit) (fun _ => SentSoFar sent 0)
      fun c => ∃ packets, c.sent = sent ++ packets ∧ IsBurstSoFar packets := by
    refine Within.of_implements (implements_senderSetup t) ?_
    intro c hc
    exact ⟨rfl, [], hc.trans (List.append_nil sent).symm, rfl, arePackets_nil⟩
  have hlength : (eventsUpTo 1000 a.tx).length = 1000 := length_eventsUpTo 1000 a.tx
  have hsent : ∀ p ∈ eventsUpTo 1000 a.tx, p.Keeps Chip.sent :=
    forall_mem_eventsUpTo.mpr fun i _ => a.tx_sent i
  have hfifo : ∀ p ∈ eventsUpTo 1000 a.tx, p.Keeps Chip.txFifo :=
    forall_mem_eventsUpTo.mpr fun i _ => a.tx_txFifo i
  have hburst := within_txLoopPolled sent hsent hfifo 0
    { a.txVars with errorForward := 0, errorReverse := 0, totalPktCount := 0 }
  rw [runSender_eq]
  refine hsetup.bind fun _ => ?_
  rw [txBurstPolled, map_eventsUpTo 1000 a.tx Polls.waits]
  refine (hburst.weaken (fun _ hc => hc) (fun _ _ hc => hc) ?_).bind fun r => Within.pure ?_
  · rintro c ⟨m, hm, -, packets, hpackets, rfl, hall⟩
    exact ⟨packets, hpackets, by omega, hall⟩
  · rintro c ⟨-, packets, hpackets, hm, hall⟩
    exact ⟨packets, hpackets, by omega, hall⟩

/-- A receiving handler. -/
theorem sendsNothing_runReceiver (t : BurstTest) (a : RfAir) :
    SendsNothing (runReceiver (cc112x liveView) false t (fun i => (a.rx i).waits) a.rxVars) := by
  rw [runReceiver_eq, rxBurstPolled, map_eventsUpTo 1000 a.rx Polls.waits]
  exact (SendsNothing.of_implements (implements_receiverSetup t) fun _ => rfl).bind fun _ =>
    sendsNothing_rxLoopPolled (forall_mem_eventsUpTo.mpr fun i _ => a.rx_sent i) _

/-- In either mode a handler of the spectrum test keeps to it. -/
theorem within_runSpectrum {h : List RegisterSetting × BurstTest} (hmem : h ∈ spectrumTests)
    (index : Int32) (a : RfAir) {call : RfCall} (hcall : call.sends = (index != 0)) :
    Within (fun c => c.sent = sent)
      (runSpectrum (cc112x liveView) false h.1 h.2 index (fun i => (a.tx i).waits) a.txVars)
      (fun _ c => ∃ packets, c.sent = sent ++ packets ∧ call.Puts packets)
      fun c => ∃ packets, c.sent = sent ++ packets ∧ call.PutsSoFar packets := by
  by_cases hzero : index = 0
  · have hsends : call.sends = false := by rw [hcall, hzero]; rfl
    rw [hzero]
    refine Within.of_returns (returns_runSpectrum_zero false hmem _ _) (fun _ _ => trivial) ?_
    intro c hc
    refine ⟨[], hc.trans (List.append_nil sent).symm, ?_⟩
    rw [RfCall.Puts, hsends]
  · have hsends : call.sends = true := hcall.trans (bne_iff_ne.mpr hzero)
    rw [runSpectrum, if_neg hzero]
    simp only [RfCall.Puts, RfCall.PutsSoFar, hsends]
    exact (within_runSender sent h.2 a).bind fun _ => Within.pure fun _ hc => hc

/-- **What a test sends**, if it comes back and while it waits. -/
theorem within_program (call : RfCall) (a : RfAir) :
    Within (fun c => c.sent = sent) (call.program a)
      (fun _ c => ∃ packets, c.sent = sent ++ packets ∧ call.Puts packets)
      fun c => ∃ packets, c.sent = sent ++ packets ∧ call.PutsSoFar packets := by
  have hsender := fun t => (within_runSender sent t a).discard fun _ _ hc => hc
  have hreceiver : ∀ t, Within (fun c => c.sent = sent)
      (discard (runReceiver (cc112x liveView) false t (fun i => (a.rx i).waits) a.rxVars))
      (fun _ c => ∃ packets, c.sent = sent ++ packets ∧ packets = [])
      fun c => ∃ packets, c.sent = sent ++ packets ∧ packets = [] := by
    intro t
    refine ((sendsNothing_runReceiver t a sent).weaken (fun _ hc => hc) (fun _ _ hc => hc)
      ?_).discard ?_
    · exact fun c hc => ⟨[], hc.trans (List.append_nil sent).symm, rfl⟩
    · exact fun _ c hc => ⟨[], hc.trans (List.append_nil sent).symm, rfl⟩
  have hspectrum := fun (h : List RegisterSetting × BurstTest) (hmem : h ∈ spectrumTests) index
      {call : RfCall} (hcall : call.sends = (index != 0)) =>
    (within_runSpectrum sent hmem index a hcall).discard fun _ _ hc => hc
  cases call with
  | ltx => exact hsender .ltx
  | lrx => exact hreceiver .ltx
  | ltx4gfsk500 => exact hsender .ltx4gfsk500
  | lrx4gfsk500 => exact hreceiver .ltx4gfsk500
  | ltx2fsk300 => exact hsender .ltx2fsk300
  | lrx2fsk300 => exact hreceiver .ltx2fsk300
  | tx4gfsk500 index =>
    exact hspectrum (continuous4gfsk500, .tx4gfsk500) (by simp [spectrumTests]) index rfl
  | tx4gfsk200k index =>
    exact hspectrum (continuous4gfsk200k, .tx4gfsk200k) (by simp [spectrumTests]) index rfl
  | tx2gfsk500 index =>
    exact hspectrum (continuous2gfsk500, .tx2gfsk500) (by simp [spectrumTests]) index rfl
  | tx2gfsk50k index =>
    exact hspectrum (continuous2gfsk50k, .tx2gfsk50k) (by simp [spectrumTests]) index rfl
  | tx2fsk300 index =>
    exact hspectrum (continuous2fsk300, .tx2fsk300) (by simp [spectrumTests]) index rfl
  | tx2fsk1_2k index =>
    exact hspectrum (continuous2fsk1_2k, .tx2fsk1_2k) (by simp [spectrumTests]) index rfl

/-! ### The menus -/

/-- The radio, and the tests that have come back. -/
structure RfState where
  bus : SpiBus Chip Phase
  done : List RfCall

section Menus

variable (air : ℕ → RfAir)

/-- A test as a menu calls it. -/
def rfHandler (call : RfCall) : Handler RfState where
  run _ s lines :=
    let r := (call.program (air s.done.length)).run.run s.bus
    ⟨[], r.1.map fun _ => (1, ⟨r.2, s.done ++ [call]⟩, lines)⟩
  suffix := by
    intro index s lines ret s' rest hrun
    obtain ⟨_, -, hresult⟩ := Option.map_eq_some_iff.mp hrun
    cases hresult
    exact List.suffix_rfl

theorem result_rfHandler {call : RfCall} {s : RfState} (index : ℤ) (lines : List Line)
    (h : ((call.program (air s.done.length)).run.run s.bus).1.isSome = true) :
    ((rfHandler air call).run index s lines).result = some
      (1, ⟨((call.program (air s.done.length)).run.run s.bus).2, s.done ++ [call]⟩, lines) := by
  obtain ⟨u, hu⟩ := Option.isSome_iff_exists.mp h
  exact congrArg (Option.map _) hu

/-- An entry for a handler that has no use for its index. -/
def test (call : RfCall) (_index : ℤ) : Action RfState := .prim (rfHandler air call)

/-- And for one of the spectrum test. -/
def spectrum (call : Int32 → RfCall) (index : ℤ) : Action RfState :=
  .prim (rfHandler air (call (Int32.ofInt index)))

/-- `SpectrumTest`. -/
def spectrumTest (_index : ℤ) : Action RfState :=
  .list 1 (literal "Spectrum Test") [
    ⟨literal "TX: 4-GFSK, 500 bps CW (Continuous TX)", 0, some (spectrum air .tx4gfsk500)⟩,
    ⟨literal "TX: 4-GFSK, 500 bps CW (Packet Tx)", 1, some (spectrum air .tx4gfsk500)⟩,
    .separator,
    ⟨literal "TX: 4-GFSK, 200k bps CW (Continuous TX)", 0, some (spectrum air .tx4gfsk200k)⟩,
    ⟨literal "TX: 4-GFSK, 200k bps CW (Packet Tx)", 1, some (spectrum air .tx4gfsk200k)⟩,
    .separator,
    ⟨literal "TX: 2-GFSK, 500 bps CW (Continuous TX)", 0, some (spectrum air .tx2gfsk500)⟩,
    ⟨literal "TX: 2-GFSK, 500 bps CW (Packet Tx)", 1, some (spectrum air .tx2gfsk500)⟩,
    .separator,
    ⟨literal "TX: 2-GFSK, 50k bps CW (Continuous TX)", 0, some (spectrum air .tx2gfsk50k)⟩,
    ⟨literal "TX: 2-GFSK, 50k bps CW (Packet Tx)", 1, some (spectrum air .tx2gfsk50k)⟩,
    .separator,
    ⟨literal "TX: 2FSK, 300 bps CW (Continuous TX)", 0, some (spectrum air .tx2fsk300)⟩,
    ⟨literal "TX: 2FSK, 300 bps CW (Packet Tx)", 1, some (spectrum air .tx2fsk300)⟩,
    .separator,
    ⟨literal "TX: 2FSK, 1.2k bps CW (Continuous TX)", 0, some (spectrum air .tx2fsk1_2k)⟩,
    ⟨literal "TX: 2FSK, 1.2k bps CW (Packet Tx)", 1, some (spectrum air .tx2fsk1_2k)⟩
  ]

/-- `get_device_id`, before the menu is shown. -/
def deviceIdHandler : Handler RfState where
  run _ s lines :=
    let r := (getDeviceId (cc112x liveView)).run s.bus
    ⟨[], some (r.1.toNat, { s with bus := r.2 }, lines)⟩
  suffix := by
    rintro index s lines ret s' rest ⟨⟩
    exact List.suffix_rfl

/-- The `deviceName` of `RFTest_Menu`. -/
def deviceName (deviceId : ℤ) : List UInt8 :=
  if deviceId = devCc1120.toNat then literal "CC1120(US)"
  else if deviceId = devCc1125.toNat then literal "CC1125(EU)"
  else literal "Unknown"

/-- `RFTest_Menu`. -/
def rfTestMenu (_index : ℤ) : Action RfState :=
  .andThen (.prim deviceIdHandler) fun deviceId =>
    .list 0 (literal "WISE-1511 TX/RX Test(" ++ deviceName deviceId ++ literal ")") [
      ⟨literal "Spectrum Test", 0, some (spectrumTest air)⟩,
      ⟨literal "LTX", 0, some (test air .ltx)⟩,
      ⟨literal "LRX", 0, some (test air .lrx)⟩,
      ⟨literal "LTX(4-GFSK, 500 bps)", 0, some (test air .ltx4gfsk500)⟩,
      ⟨literal "LRX(4-GFSK, 500 bps)", 0, some (test air .lrx4gfsk500)⟩,
      ⟨literal "LTX(2-FSK, 300 bps)", 0, some (test air .ltx2fsk300)⟩,
      ⟨literal "LRX(2-FSK, 300 bps)", 0, some (test air .lrx2fsk300)⟩]

/-! ### On the screen -/

theorem legible_spectrumTest (index : ℤ) : (spectrumTest air index).Legible := by
  refine .list (by simp) (by decide) rfl ?_
  intro e he func hfunc
  simp only [List.mem_cons, List.not_mem_nil, or_false] at he
  rcases he with rfl | rfl | rfl | rfl | rfl | rfl | rfl | rfl | rfl | rfl | rfl | rfl | rfl |
    rfl | rfl | rfl | rfl
  all_goals
    cases hfunc
    try exact .prim _

/-- Every menu that `RFTest_Menu` can open can be read off the screen. -/
theorem legible_rfTestMenu (index : ℤ) : (rfTestMenu air index).Legible := by
  have hname : ∀ deviceId, 0x0A ∉ deviceName deviceId := by
    intro deviceId
    rw [deviceName]
    split_ifs <;> decide
  have hopen : 0x0A ∉ literal "WISE-1511 TX/RX Test(" := by decide
  have hclose : 0x0A ∉ literal ")" := by decide
  refine .andThen (.prim _) fun deviceId => .list (by simp) ?_ rfl ?_
  · rw [List.mem_append, List.mem_append]
    exact not_or.mpr ⟨not_or.mpr ⟨hopen, hname deviceId⟩, hclose⟩
  · intro e he func hfunc
    simp only [List.mem_cons, List.not_mem_nil, or_false] at he
    rcases he with rfl | rfl | rfl | rfl | rfl | rfl | rfl
    · cases hfunc
      exact legible_spectrumTest air 0
    all_goals
      cases hfunc
      exact .prim _

end Menus

/-! ### Sessions -/

/-- All that has been sent since are bursts, one for each sending test that has come back. -/
def SentBursts (sent₀ : List (List UInt8)) (s : RfState) : Prop :=
  ∃ bursts : List (List (List UInt8)), s.bus.dev.sent = sent₀ ++ bursts.flatten ∧
    bursts.length = s.done.countP RfCall.sends ∧ ∀ burst ∈ bursts, IsBurst burst

variable {air : ℕ → RfAir} {sent₀ : List (List UInt8)}

/-- A test keeps this. -/
theorem sat_rfHandler (call : RfCall) :
    Action.Sat (SentBursts sent₀) (SentBursts sent₀) (.prim (rfHandler air call))
      (SentBursts sent₀) := by
  refine Action.Sat.prim (fun _ h => h) ?_
  intro index s lines ret s' rest ⟨bursts, hsent, hlength, hall⟩ hrun
  refine (and_self_iff).mpr ?_
  obtain ⟨u, hsome, hresult⟩ := Option.map_eq_some_iff.mp hrun
  obtain ⟨packets, hpackets, hputs⟩ :=
    (within_program _ call (air s.done.length)).returned (b := s.bus) rfl hsome
  cases hresult
  rw [RfCall.Puts] at hputs
  cases hsends : call.sends with
  | true =>
    rw [hsends] at hputs
    refine ⟨bursts ++ [packets], ?_, ?_, ?_⟩
    · rw [hpackets, hsent, List.flatten_append, List.append_assoc, List.flatten_singleton]
    · rw [List.length_append, List.countP_append, hlength]
      simp [hsends]
    · intro burst hburst
      rcases List.mem_append.mp hburst with hold | hnew
      · exact hall burst hold
      · exact List.mem_singleton.mp hnew ▸ hputs
  | false =>
    rw [hsends] at hputs
    refine ⟨bursts, ?_, ?_, hall⟩
    · rw [hpackets, hputs, List.append_nil, hsent]
    · rw [List.countP_append, hlength]
      simp [hsends]

theorem sat_spectrumTest (index : ℤ) :
    Action.Sat (SentBursts sent₀) (SentBursts sent₀) (spectrumTest air index)
      (SentBursts sent₀) := by
  refine Action.Sat.list (fun _ h => h) ?_
  intro e he func hfunc
  simp only [List.mem_cons, List.not_mem_nil, or_false] at he
  rcases he with rfl | rfl | rfl | rfl | rfl | rfl | rfl | rfl | rfl | rfl | rfl | rfl | rfl |
    rfl | rfl | rfl | rfl
  all_goals
    cases hfunc
    try exact sat_rfHandler _

theorem sat_rfTestMenu (index : ℤ) :
    Action.Sat (SentBursts sent₀) (SentBursts sent₀) (rfTestMenu air index) (SentBursts sent₀) := by
  refine Action.Sat.andThen ?_ fun deviceId => Action.Sat.list (fun _ h => h) ?_
  · refine Action.Sat.prim (fun _ h => h) ?_
    rintro index s lines ret s' rest ⟨bursts, hsent, hrest⟩ ⟨⟩
    refine (and_self_iff).mpr ⟨bursts, ?_, hrest⟩
    rw [← hsent]
    exact congrArg Chip.sent (implements_getDeviceId.dev s.bus)
  · intro e he func hfunc
    simp only [List.mem_cons, List.not_mem_nil, or_false] at he
    rcases he with rfl | rfl | rfl | rfl | rfl | rfl | rfl
    · cases hfunc
      exact sat_spectrumTest 0
    all_goals
      cases hfunc
      exact sat_rfHandler _

/-- A test started on `bus` is under way: its polls so far have brought the radio to `busy`, and it
waits for the next. -/
def UnderWay (call : RfCall) (a : RfAir) (bus busy : SpiBus Chip Phase) : Prop :=
  (call.program a).run.run bus = (none, busy)

theorem underWay_of_not_isSome {call : RfCall} {a : RfAir} {bus : SpiBus Chip Phase}
    (h : ¬ ((call.program a).run.run bus).1.isSome = true) :
    UnderWay call a bus ((call.program a).run.run bus).2 :=
  Prod.ext (Option.not_isSome_iff_eq_none.mp h) rfl

/-- **What a session at the radio menus sends.** Whatever is typed, and whenever a menu waits for a
line: all that has gone on the air since are bursts of one thousand packets, numbered from zero, one
burst for each sending test that was run. And whenever a test that is started then waits for the
radio, it has added the beginning of its burst, or nothing if it is none that sends. -/
theorem rfTestMenu_sends (index : ℤ) (bus : SpiBus Chip Phase) {lines : List Line} {s : RfState}
    (hduring : (rfTestMenu air index).During index ⟨bus, []⟩ lines s) :
    (∃ bursts : List (List (List UInt8)), s.bus.dev.sent = bus.dev.sent ++ bursts.flatten ∧
      bursts.length = s.done.countP RfCall.sends ∧ ∀ burst ∈ bursts, IsBurst burst) ∧
    ∀ call a busy, UnderWay call a s.bus busy →
      ∃ packets, busy.dev.sent = s.bus.dev.sent ++ packets ∧ call.PutsSoFar packets := by
  refine ⟨(sat_rfTestMenu index).during ⟨[], by simp, rfl, by simp⟩ hduring, ?_⟩
  intro call a busy hbusy
  have hwaiting := (within_program _ call a).waiting (b := s.bus) rfl (congrArg Prod.fst hbusy)
  rwa [congrArg Prod.snd hbusy] at hwaiting

/-- A radio whose every poll reads this. -/
def steadyAir (readings : List UInt8) : RfAir where
  tx _ := ⟨readings.map Poll.of, []⟩
  txVars := ⟨fun _ => 0, 0, 0, 0, 0, 0, 0, 0⟩
  rx _ := ⟨readings.map Poll.of, []⟩
  rxVars := ⟨fun _ => 0, fun _ => 0, 0, 0, 0⟩
  tx_sent _ := by simp [Polls.Keeps, Poll.of, Chip.writeReg]
  tx_txFifo _ := by simp [Polls.Keeps, Poll.of, Chip.writeReg]
  rx_sent _ := by simp [Polls.Keeps, Poll.of, Chip.writeReg]

/-- `LTX` comes back if every poll reads `IDLE`, and waits if none does. -/
theorem isSome_program_ltx (readings : List UInt8) (bus : SpiBus Chip Phase) :
    ((RfCall.program .ltx (steadyAir readings)).run.run bus).1.isSome = true ↔
      WaitReturns 0 readings := by
  have hpolls : ∀ i, ((steadyAir readings).tx i).SenderReturns false ↔ WaitReturns 0 readings := by
    intro i
    rw [Polls.SenderReturns, steadyAir, List.map_map,
      and_iff_left fun h => absurd h Bool.false_ne_true]
    exact iff_of_eq (congrArg _ (List.map_id readings))
  have hreturns := returns_runSender false .ltx (steadyAir readings).tx (steadyAir readings).txVars
  show ((discard (runSender _ _ _ _ _)).run.run bus).1.isSome = true ↔ _
  rw [SpiM.run_discard_optionT, Option.isSome_map]
  refine (hreturns.isSome_iff bus).trans ?_
  exact ⟨fun h => (hpolls 0).mp (h 0 (by omega)), fun h i _ => (hpolls i).mpr h⟩

/-- The second entry is typed, `LTX`: one burst is sent. Then it is typed again, and the radio does
not get to `IDLE`. -/
theorem rfTestMenu_sends_ltx :
    ∃ (s : RfState) (busy : SpiBus Chip Phase),
      (rfTestMenu (fun _ => steadyAir [marcstateIdle]) 0).During 0 ⟨resetBus, []⟩ [decimal 2] s ∧
      s.done = [.ltx] ∧ UnderWay .ltx (steadyAir [0x13]) s.bus busy ∧
      (∃ bursts : List (List (List UInt8)), s.bus.dev.sent = resetBus.dev.sent ++ bursts.flatten ∧
        bursts.length = s.done.countP RfCall.sends ∧ ∀ burst ∈ bursts, IsBurst burst) ∧
      ∃ packets, busy.dev.sent = s.bus.dev.sent ++ packets ∧ IsBurstSoFar packets := by
  have hduring : ∃ s : RfState,
      (rfTestMenu (fun _ => steadyAir [marcstateIdle]) 0).During 0 ⟨resetBus, []⟩ [decimal 2] s ∧
        s.done = [.ltx] := by
    let bus := ((getDeviceId (cc112x liveView)).run resetBus).2
    have hresult := result_rfHandler (fun _ => steadyAir [marcstateIdle]) (s := ⟨bus, []⟩) 0 []
      ((isSome_program_ltx [marcstateIdle] bus).mpr (by decide))
    exact ⟨_, .second rfl (.list (by decide) 1 rfl rfl (.prim hresult)), rfl⟩
  obtain ⟨s, hs, hdone⟩ := hduring
  have hbusy := underWay_of_not_isSome (mt (isSome_program_ltx [0x13] s.bus).mp (by decide))
  obtain ⟨hbursts, hunder⟩ := rfTestMenu_sends 0 resetBus hs
  exact ⟨s, _, hs, hdone, hbusy, hbursts, hunder _ _ _ hbusy⟩

end RfTest

end Wise1511
