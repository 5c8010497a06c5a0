import Wise1511.BerLink
import Wise1511.BurstPacket
import Wise1511.RadioCalls
import Wise1511.SpectrumTables

/-!
# The radio tests

What the handlers of `RfTest.cpp`, `SpectrumTest.cpp` and `SpectrumTest2.cpp` do to the radio before
a burst, and `tx_ber_single` from then on, with its report. A handler loads a table of registers,
and the program sets packet length and frequency before its loop; every handler asks for the same 20
bytes and 868 MHz. The handlers themselves are in `RfHandlers`.

The set-up begins with a reset, so what the chip held before has no bearing on it: the registers at
the beginning of the loop are the table's over the reset values, with length and frequency over
those. Both ends of a link get the same.

The report is about the sender. `Total packets Received` counts the rounds, whether a reply came or
not, and the line of a round without reply shows as its forward errors a byte of the packet's text.
The texts printed around the numbers are left out.

## Main results

* `setup_regs`, `ends_agree` — the registers in which the loops run
* `txReport_totals` — the totals of the report
* `txReport_forward_iff` — when they are the totals of its lines
-/

namespace Wise1511

namespace RfTest

open SpiM (Implements)

section Programs

variable {σ φ : Type} (S : SpiSlave σ φ)

/-- What happens in one iteration of the sender, by the ends of its waits, and the status of the
second. -/
structure TxEvent (σ : Type) where
  sent : σ → σ
  replied : σ → σ
  status : UInt32

/-- A line of the sender's report. -/
inductive TxLine where
  | oneWay (cc : UInt32) (freqError : Int32)
  | twoWay (cc : UInt32) (rssiForward : ℤ) (errors : UInt8) (rssiReverse : ℤ) (dataError : UInt16)
      (freqError : Int32)

/-- The line printed at the end of an iteration. -/
def txLine (twoWay : Bool) (cc : UInt32) (v : TxVars) : TxLine :=
  if twoWay then .twoWay cc v.rssiForward (v.txBuffer 4) v.rssiReverse v.dataError v.freqError
  else .oneWay cc v.freqError

/-- The loop of `tx_ber_single`, from burst number `cc` on. -/
def txLoop (twoWay : Bool) (pktlen : UInt16) :
    UInt32 → List (TxEvent σ) → TxVars → SpiM σ φ (TxVars × List TxLine)
  | _, [], v => pure (v, [])
  | cc, e :: es, v => do
    let v ← txIter S twoWay pktlen cc e.sent e.replied e.status v
    let rest ← txLoop twoWay pktlen (cc + 1) es v
    pure (rest.1, txLine twoWay cc v :: rest.2)

/-- The report of `tx_ber_single`: its lines, and the four totals at the end. -/
structure TxReport where
  lines : List TxLine
  packetsSent : UInt32
  packetsReceived : UInt32
  errorForward : UInt32
  errorReverse : UInt32

/-- `tx_ber_single` from the set-up on. -/
def txBurst (twoWay : Bool) (pktlen : UInt16) (pktnum : UInt32) (event : ℕ → TxEvent σ)
    (v : TxVars) : SpiM σ φ TxReport := do
  let r ← txLoop S twoWay pktlen 0 (eventsUpTo pktnum event)
    { v with errorForward := 0, errorReverse := 0, totalPktCount := 0 }
  pure ⟨r.2, pktnum, r.1.totalPktCount, r.1.errorForward, r.1.errorReverse⟩

/-! ### The tables -/

/-- The tests that send or receive a burst. -/
inductive BurstTest where
  /-- `runLTX`, `runLRX`. -/
  | ltx
  | ltx4gfsk500
  | ltx2fsk300
  /-- The spectrum tests, for packets. -/
  | tx4gfsk500
  | tx4gfsk200k
  | tx2gfsk500
  | tx2gfsk50k
  | tx2fsk300
  | tx2fsk1_2k

/-- The table a test loads. -/
def BurstTest.settings : BurstTest → List RegisterSetting
  | ltx => preferredSettings
  | ltx4gfsk500 => settings4gfsk500
  | ltx2fsk300 => settings2fsk300
  | tx4gfsk500 => burst4gfsk500
  | tx4gfsk200k => burst4gfsk200k
  | tx2gfsk500 => burst2gfsk500
  | tx2gfsk50k => burst2gfsk50k
  | tx2fsk300 => burst2fsk300
  | tx2fsk1_2k => burst2fsk1_2k

/-- The table the receiver loads. The spectrum tests are heard with the sender's. -/
def BurstTest.receiverSettings : BurstTest → List RegisterSetting
  | ltx4gfsk500 => settingsLrx4gfsk500
  | ltx2fsk300 => settingsLrx2fsk300
  | t => t.settings

/-- The call of `registerConfig`: with the default table where the handler passes none. -/
def BurstTest.load : BurstTest → SpiM σ φ Unit
  | ltx => registerConfig S none 0
  | t => registerConfig S (some t.settings) (UInt16.ofNat t.settings.length)

/-- And in the receiver. -/
def BurstTest.loadReceiver : BurstTest → SpiM σ φ Unit
  | ltx => registerConfig S none 0
  | t => registerConfig S (some t.receiverSettings) (UInt16.ofNat t.receiverSettings.length)

end Programs

/-! ### The set-up -/

/-- Each test has a table that `registerConfig` loads. -/
theorem BurstTest.settings_spec (t : BurstTest) :
    t.settings ≠ [] ∧ t.settings.length ≤ 255 ∧ ∀ r ∈ t.settings, InSpaces r.addr := by
  have hrest := fun s hs => inSpaces_testTables s (List.mem_append_left continuousTables hs)
  cases t with
  | ltx => exact ⟨by decide, inSpaces_tables preferredSettings (by simp)⟩
  | ltx4gfsk500 => exact hrest _ (by simp [burstTables, settings])
  | ltx2fsk300 => exact hrest _ (by simp [burstTables, settings])
  | tx4gfsk500 => exact hrest _ (by simp [burstTables, settings])
  | tx4gfsk200k => exact hrest _ (by simp [burstTables, settings])
  | tx2gfsk500 => exact hrest _ (by simp [burstTables, settings])
  | tx2gfsk50k => exact hrest _ (by simp [burstTables, settings])
  | tx2fsk300 => exact hrest _ (by simp [burstTables, settings])
  | tx2fsk1_2k => exact hrest _ (by simp [burstTables, settings])

theorem implements_registerConfigSetting (r : RegisterSetting) (hr : InSpaces r.addr) :
    Implements (registerConfigSetting (cc112x liveView) r)
      fun c => ((), c.writeReg r.addr.toNat r.data) := by
  intro b
  have hblock : BlockInSpace r.addr 1 := by
    rw [BlockInSpace, show (1 : UInt8).toNat = 1 from rfl]
    rcases hr with h | ⟨hlo, hhi⟩ <;> omega
  have hmem : radioBurstAccess ||| radioWriteAccess ∈ accessTypes := by decide
  refine Prod.ext rfl ?_
  rw [registerConfigSetting, SpiM.run_bind, SpiM.run_pure, cc112xSpiWriteReg,
    (run_cc112xSpiReg liveView hmem rfl hblock _ b).2]
  exact accessDev_localByte (t := radioBurstAccess ||| radioWriteAccess) rfl _ r.data b.dev

/-- Loading resets the chip and stores the table. -/
theorem implements_registerConfig {settings : List RegisterSetting} (hne : settings ≠ [])
    (hlen : settings.length ≤ 255) (hspaces : ∀ r ∈ settings, InSpaces r.addr) :
    Implements (registerConfig (cc112x liveView) (some settings) (UInt16.ofNat settings.length))
      fun c => ((), { c.strobe sres with regs := applyTable c.resetRegs settings }) := by
  have hnum : (UInt16.ofNat settings.length).toNat = settings.length := by
    rw [UInt16.toNat_ofNat', Nat.mod_eq_of_lt (by omega)]
  have hzero : UInt16.ofNat settings.length ≠ 0 := by
    rw [ne_eq, ← UInt16.toNat_inj, hnum]
    exact mt List.length_eq_zero_iff.mp hne
  simp only [registerConfig, if_neg hzero, hnum, List.take_length]
  exact (implements_strobe liveView (by decide)).bind fun _ =>
    implements_settingsLoop hspaces implements_registerConfigSetting

theorem implements_load (t : BurstTest) :
    Implements (t.load (cc112x liveView)) fun c =>
      ((), { c.strobe sres with regs := applyTable c.resetRegs t.settings }) := by
  obtain ⟨hne, hlen, hspaces⟩ := t.settings_spec
  cases t with
  | ltx =>
    exact (implements_strobe liveView (by decide)).bind fun _ =>
      implements_settingsLoop hspaces implements_registerConfigSetting
  | _ => exact implements_registerConfig hne hlen hspaces

/-- The registers after the set-up: a table over the reset values, then length, format and
frequency. -/
def setupRegs (resetRegs : CArray) (settings : List RegisterSetting) (pktlen : UInt16)
    (freq : UInt32) : CArray :=
  CArray.overlay
    (Function.update (Function.update (applyTable resetRegs settings) pktLen.toNat pktlen.toUInt8)
      pktCfg0.toNat 0)
    Reg.freq2.toNat ((freqRegs (freqWord freq)).slice 0 3)

theorem implements_txStart (pktlen : UInt16) (freq : UInt32) :
    Implements (txStart (cc112x liveView) pktlen freq) fun c => ((), { c with
      regs := CArray.overlay
        (Function.update (Function.update c.regs pktLen.toNat pktlen.toUInt8) pktCfg0.toNat 0)
        Reg.freq2.toNat ((freqRegs (freqWord freq)).slice 0 3) }) :=
  (implements_setRfPacketLength pktlen.toUInt8).bind fun _ => implements_radioSetFreq freq

/-- Both ends load the same. -/
theorem BurstTest.loadReceiver_eq {σ φ : Type} (S : SpiSlave σ φ) (t : BurstTest) :
    t.loadReceiver S = t.load S := by
  cases t with
  | ltx4gfsk500 =>
    rw [loadReceiver, load, receiverSettings, settings, settingsLrx_eq.1]
    all_goals simp
  | ltx2fsk300 =>
    rw [loadReceiver, load, receiverSettings, settings, settingsLrx_eq.2]
    all_goals simp
  | _ => rfl

/-- The set-up of a sending handler: everything before its loop. -/
def senderSetup (t : BurstTest) : SpiM Chip Phase Unit := do
  t.load (cc112x liveView)
  txStart (cc112x liveView) 20 (channelFreq 868000 500 0)

/-- The set-up of a receiving handler. -/
def receiverSetup (t : BurstTest) : SpiM Chip Phase Unit := do
  t.loadReceiver (cc112x liveView)
  rxStart (cc112x liveView) 20 (channelFreq 868000 500 0)

theorem channelFreq_factory : channelFreq 868000 500 0 = 868000 := by decide

/-- The chip when the loop of a sender begins. -/
def setUp (t : BurstTest) (c : Chip) : Chip :=
  { c.strobe sres with regs := setupRegs c.resetRegs t.settings 20 868000 }

theorem implements_senderSetup (t : BurstTest) :
    Implements (senderSetup t) fun c => ((), setUp t c) := by
  rw [senderSetup, channelFreq_factory]
  exact (implements_load t).bind fun _ => implements_txStart 20 868000

theorem implements_receiverSetup (t : BurstTest) :
    Implements (receiverSetup t) fun c => ((), (setUp t c).strobe srx) := by
  rw [receiverSetup, t.loadReceiver_eq, rxStart, channelFreq_factory]
  exact (implements_load t).bind fun _ => (implements_txStart 20 868000).bind fun _ =>
    implements_strobe_done (by decide)

/-- The registers of the set-up, one by one. -/
theorem setupRegs_apply (resetRegs : CArray) (settings : List RegisterSetting) (pktlen : UInt16)
    (freq : UInt32) (a : ℕ) :
    setupRegs resetRegs settings pktlen freq a =
      if Reg.freq2.toNat ≤ a ∧ a ≤ Reg.freq0.toNat then
        freqRegs (freqWord freq) (a - Reg.freq2.toNat)
      else if a = pktCfg0.toNat then 0
      else if a = pktLen.toNat then pktlen.toUInt8
      else ((lastSetting settings a).map RegisterSetting.data).getD (resetRegs a) := by
  have hfreq : Reg.freq2.toNat + 2 = Reg.freq0.toNat := rfl
  have hlen : ((freqRegs (freqWord freq)).slice 0 3).length = 3 := CArray.length_slice _ _ _
  rw [setupRegs]
  split_ifs with hin hcfg hpkt
  · obtain ⟨i, rfl⟩ := Nat.exists_eq_add_of_le hin.1
    have hi : i < ((freqRegs (freqWord freq)).slice 0 3).length := by omega
    rw [CArray.overlay_add _ _ hi, CArray.getElem_slice, Nat.zero_add, Nat.add_sub_cancel_left]
  all_goals
    have hout : ∀ p : CArray,
        p.overlay Reg.freq2.toNat ((freqRegs (freqWord freq)).slice 0 3) a = p a := by
      intro p
      rcases not_and_or.mp hin with hlt | hgt
      · exact CArray.overlay_of_lt p _ (not_le.mp hlt)
      · exact CArray.overlay_of_ge p _ (by omega)
    rw [hout]
  · rw [hcfg, Function.update_self]
  · rw [Function.update_of_ne hcfg, hpkt, Function.update_self]
  · rw [Function.update_of_ne hcfg, Function.update_of_ne hpkt, applyTable_apply]

/-- **The registers in which a burst runs.** Whatever the chip held before, at the beginning of the
loop it is tuned to 868 MHz exactly, its packets are 20 bytes of fixed length, every other register
has its last setting in the table or its reset value, and nothing has gone on the air. -/
theorem setup_regs (t : BurstTest) (b : SpiBus Chip Phase) :
    let c := ((senderSetup t).run b).2.dev
    carrier c.regs = 868000000 ∧ c.regs pktLen.toNat = 20 ∧ c.regs pktCfg0.toNat = 0 ∧
      (∀ a, a ≠ pktLen.toNat → a ≠ pktCfg0.toNat → (a < Reg.freq2.toNat ∨ Reg.freq0.toNat < a) →
        c.regs a = ((lastSetting t.settings a).map RegisterSetting.data).getD
          (b.dev.resetRegs a)) ∧
      c.sent = b.dev.sent ∧ c.txFifo = [] ∧ c.rxFifo = [] := by
  intro c
  have hc : c = setUp t b.dev := (implements_senderSetup t).dev b
  have hregs : c.regs = setupRegs b.dev.resetRegs t.settings 20 868000 := by rw [hc]; rfl
  rw [hregs]
  refine ⟨?_, ?_, ?_, ?_, by rw [hc]; rfl, by rw [hc]; rfl, by rw [hc]; rfl⟩
  · have hword : freqWord 868000 = 7110656 := by decide +kernel
    have h6C : (0x6C : UInt8).toNat = 108 := rfl
    have h80 : (0x80 : UInt8).toNat = 128 := rfl
    have h00 : (0x00 : UInt8).toNat = 0 := rfl
    have hbytes : setupRegs b.dev.resetRegs t.settings 20 868000 Reg.freq2.toNat = 0x6C ∧
        setupRegs b.dev.resetRegs t.settings 20 868000 Reg.freq1.toNat = 0x80 ∧
        setupRegs b.dev.resetRegs t.settings 20 868000 Reg.freq0.toNat = 0x00 := by
      simp only [setupRegs_apply, hword]
      exact ⟨rfl, rfl, rfl⟩
    rw [carrier, freqReg, hbytes.1, hbytes.2.1, hbytes.2.2, h6C, h80, h00]
    norm_num
  · rw [setupRegs_apply]
    rfl
  · rw [setupRegs_apply]
    rfl
  · intro a hlen hcfg hout
    rw [setupRegs_apply, if_neg (by omega), if_neg hcfg, if_neg hlen]

/-- **Both ends of a test run in the same registers**, as long as both chips have the same reset
values; and the receiver's set-up sends nothing either. -/
theorem ends_agree (t : BurstTest) {bT bR : SpiBus Chip Phase}
    (hreset : bT.dev.resetRegs = bR.dev.resetRegs) :
    ((senderSetup t).run bT).2.dev.regs = ((receiverSetup t).run bR).2.dev.regs ∧
      ((receiverSetup t).run bR).2.dev.sent = bR.dev.sent := by
  rw [(implements_senderSetup t).dev, (implements_receiverSetup t).dev]
  refine ⟨?_, rfl⟩
  show setupRegs bT.dev.resetRegs t.settings 20 868000
    = setupRegs bR.dev.resetRegs t.settings 20 868000
  rw [hreset]

/-- Sender and receiver of the default test, on chips fresh from reset. -/
theorem ends_agree_ltx :
    ((senderSetup .ltx).run resetBus).2.dev.regs = ((receiverSetup .ltx).run resetBus).2.dev.regs ∧
      ((receiverSetup .ltx).run resetBus).2.dev.sent = resetBus.dev.sent :=
  ends_agree .ltx rfl

/-! ### The report of the sender -/

section Report

variable {σ φ : Type} (S : SpiSlave σ φ)

/-- The forward errors a line shows. -/
def TxLine.errors : TxLine → UInt32
  | oneWay _ _ => 0
  | twoWay _ _ errors _ _ _ => errors.toUInt32

/-- The reverse errors a line shows. -/
def TxLine.dataErrors : TxLine → UInt32
  | oneWay _ _ => 0
  | twoWay _ _ _ _ dataError _ => dataError.toUInt32

/-- The reply came in time, as the sender sees it. -/
def TxEvent.InTime (e : TxEvent σ) : Prop := e.status ≤ 8000

instance (e : TxEvent σ) : Decidable e.InTime := inferInstanceAs (Decidable (_ ≤ _))

/-- What a round of the two-way build adds to the totals, and what its line shows. -/
theorem run_txIter_twoWay (pktlen : UInt16) (cc : UInt32) (e : TxEvent σ) (v : TxVars)
    (b : SpiBus σ φ) :
    let v' := ((txIter S true pktlen cc e.sent e.replied e.status v).run b).1
    v'.totalPktCount = v.totalPktCount + 1 ∧
      v'.errorReverse = v.errorReverse + (txLine true cc v').dataErrors ∧
      if e.InTime then v'.errorForward = v.errorForward + (txLine true cc v').errors
      else v'.errorForward = v.errorForward + pktlen.toUInt32 ∧
        v'.txBuffer = fillPacket v.txBuffer cc := by
  simp only [txIter, if_true, SpiM.run_bind, txReply]
  by_cases hstatus : e.status ≤ 8000
  · have hin : e.InTime := hstatus
    rw [if_pos hstatus, if_pos hin]
    exact ⟨rfl, rfl, rfl⟩
  · have hlate : ¬ e.InTime := hstatus
    rw [if_neg hstatus, if_neg hlate]
    exact ⟨rfl, rfl, rfl, rfl⟩

/-- The totals of the loop, from the lines it prints. -/
theorem run_txLoop_twoWay (pktlen : UInt16) (cc : UInt32) (es : List (TxEvent σ)) (v : TxVars)
    (b : SpiBus σ φ) :
    let r := ((txLoop S true pktlen cc es v).run b).1
    r.2.length = es.length ∧ r.1.totalPktCount = v.totalPktCount + UInt32.ofNat es.length ∧
      r.1.errorReverse = v.errorReverse + (r.2.map TxLine.dataErrors).sum := by
  induction es generalizing cc v b with
  | nil => exact ⟨rfl, (UInt32.add_zero _).symm, (UInt32.add_zero _).symm⟩
  | cons e es ih =>
    obtain ⟨hcount, hreverse, -⟩ := run_txIter_twoWay S pktlen cc e v b
    simp only [txLoop, SpiM.run_bind, SpiM.run_pure]
    generalize (txIter S true pktlen cc e.sent e.replied e.status v).run b = r at hcount hreverse
    obtain ⟨hlength, hcount', hreverse'⟩ := ih (cc + 1) r.1 r.2
    refine ⟨?_, ?_, ?_⟩
    · rw [List.length_cons, List.length_cons, hlength]
    · rw [hcount', hcount, List.length_cons, Nat.add_comm, UInt32.ofNat_add, UInt32.add_assoc]
      rfl
    · rw [hreverse', hreverse, List.map_cons, List.sum_cons, UInt32.add_assoc]

/-- In the one-way build nothing is counted. -/
theorem run_txLoop_oneWay (pktlen : UInt16) (cc : UInt32) (es : List (TxEvent σ)) (v : TxVars)
    (b : SpiBus σ φ) :
    let r := ((txLoop S false pktlen cc es v).run b).1
    r.2.length = es.length ∧ r.1.totalPktCount = v.totalPktCount ∧
      r.1.errorForward = v.errorForward ∧ r.1.errorReverse = v.errorReverse := by
  induction es generalizing cc v b with
  | nil => exact ⟨rfl, rfl, rfl, rfl⟩
  | cons e es ih =>
    obtain ⟨hlength, hrest⟩ := ih (cc + 1)
      ((txIter S false pktlen cc e.sent e.replied e.status v).run b).1
      ((txIter S false pktlen cc e.sent e.replied e.status v).run b).2
    simp only [txLoop, SpiM.run_bind, SpiM.run_pure]
    exact ⟨by rw [List.length_cons, List.length_cons, hlength], hrest⟩

/-- **The totals of the report.** There is a line for each packet. In the two-way build
`Total packets Received` is the number of rounds, whatever came back in them, and the reverse errors
are those of the lines; in the one-way build all three totals are zero. -/
theorem txReport_totals (twoWay : Bool) (pktlen : UInt16) (pktnum : UInt32)
    (event : ℕ → TxEvent σ) (v : TxVars) (b : SpiBus σ φ) :
    let report := ((txBurst S twoWay pktlen pktnum event v).run b).1
    report.lines.length = pktnum.toNat ∧ report.packetsSent = pktnum ∧
      if twoWay then
        report.packetsReceived = pktnum ∧
          report.errorReverse = (report.lines.map TxLine.dataErrors).sum
      else
        report.packetsReceived = 0 ∧ report.errorForward = 0 ∧ report.errorReverse = 0 := by
  have hlen := length_eventsUpTo pktnum event
  simp only [txBurst, SpiM.run_bind, SpiM.run_pure]
  cases twoWay with
  | true =>
    obtain ⟨hlength, hcount, hreverse⟩ := run_txLoop_twoWay S pktlen 0 (eventsUpTo pktnum event)
      { v with errorForward := 0, errorReverse := 0, totalPktCount := 0 } b
    rw [hlen] at hlength hcount
    rw [UInt32.zero_add, UInt32.ofNat_toNat] at hcount
    rw [UInt32.zero_add] at hreverse
    exact ⟨hlength, trivial, hcount, hreverse⟩
  | false =>
    obtain ⟨hlength, hcount, hforward, hreverse⟩ := run_txLoop_oneWay S pktlen 0
      (eventsUpTo pktnum event)
      { v with errorForward := 0, errorReverse := 0, totalPktCount := 0 } b
    rw [hlen] at hlength
    exact ⟨hlength, trivial, hcount, hforward, hreverse⟩

/-- Byte 4 of a packet that has just been filled is a digit or a sign. -/
theorem fillPacket_four (txBuffer : CArray) (cc : UInt32) :
    45 ≤ (fillPacket txBuffer cc 4).toNat ∧ (fillPacket txBuffer cc 4).toNat ≤ 57 := by
  have hpos : 0 < (fmtD cc).length := List.length_pos_of_ne_nil (fmtD_ne_nil cc)
  have hone : 1 < (burstText cc).length := by
    rw [length_burstText]
    omega
  have hbyte : fillPacket txBuffer cc 4 = (fmtD cc)[0] := by
    rw [fillPacket, CArray.sprintf_add _ 3 hone]
    simp [burstText, List.getElem_append_left hpos]
  rw [hbyte]
  exact fmtD_mem (List.getElem_mem hpos)

/-- What the lines of the loop show in excess of what is added: nothing, exactly when every reply is
in time. -/
theorem exists_excess {pktlen : UInt16} (hpktlen : pktlen.toNat < 45) (cc : UInt32)
    (es : List (TxEvent σ)) (v : TxVars) (b : SpiBus σ φ) :
    let r := ((txLoop S true pktlen cc es v).run b).1
    ∃ excess ≤ 57 * es.length, (excess = 0 ↔ ∀ e ∈ es, e.InTime) ∧
      r.1.errorForward + UInt32.ofNat excess = v.errorForward + (r.2.map TxLine.errors).sum := by
  induction es generalizing cc v b with
  | nil => exact ⟨0, le_rfl, by simp, rfl⟩
  | cons e es ih =>
    obtain ⟨-, -, hforward⟩ := run_txIter_twoWay S pktlen cc e v b
    simp only [txLoop, SpiM.run_bind, SpiM.run_pure]
    generalize (txIter S true pktlen cc e.sent e.replied e.status v).run b = r at hforward
    obtain ⟨excess, hle, hzero, hsum⟩ := ih (cc + 1) r.1 r.2
    rw [List.map_cons, List.sum_cons, List.length_cons, List.forall_mem_cons]
    split_ifs at hforward with htime
    · refine ⟨excess, by omega, ?_, ?_⟩
      · rw [hzero]
        exact (and_iff_right htime).symm
      · rw [hsum, hforward, UInt32.add_assoc]
    · -- the line shows the first character of the number
      obtain ⟨hlo, hhi⟩ := fillPacket_four v.txBuffer cc
      obtain ⟨hadded, hbuffer⟩ := hforward
      have hshown : UInt32.ofNat ((fillPacket v.txBuffer cc 4).toNat - pktlen.toNat)
          + pktlen.toUInt32 = (txLine true cc r.1).errors := by
        show _ = (r.1.txBuffer 4).toUInt32
        rw [hbuffer]
        apply UInt32.toNat_inj.mp
        rw [UInt32.toNat_add, UInt32.toNat_ofNat', UInt16.toNat_toUInt32, UInt8.toNat_toUInt32]
        omega
      refine ⟨excess + ((fillPacket v.txBuffer cc 4).toNat - pktlen.toNat), by omega, ?_, ?_⟩
      · exact iff_of_false (by omega) fun h => htime h.1
      · rw [UInt32.ofNat_add, ← UInt32.add_assoc, hsum, hadded, ← hshown]
        ac_rfl

/-- **The forward total is that of the lines exactly when every reply came in time.** -/
theorem txReport_forward_iff {pktlen : UInt16} (hpktlen : pktlen.toNat < 45) {pktnum : UInt32}
    (hpktnum : pktnum.toNat ≤ 75000000) (event : ℕ → TxEvent σ) (v : TxVars) (b : SpiBus σ φ) :
    let report := ((txBurst S true pktlen pktnum event v).run b).1
    report.errorForward = (report.lines.map TxLine.errors).sum ↔
      ∀ i < pktnum.toNat, (event i).InTime := by
  obtain ⟨excess, hle, hzero, hsum⟩ := exists_excess S hpktlen 0 (eventsUpTo pktnum event)
    { v with errorForward := 0, errorReverse := 0, totalPktCount := 0 } b
  have hall : (∀ e ∈ eventsUpTo pktnum event, e.InTime) ↔ ∀ i < pktnum.toNat, (event i).InTime := by
    simp [eventsUpTo]
  rw [length_eventsUpTo] at hle
  rw [UInt32.zero_add] at hsum
  simp only [txBurst, SpiM.run_bind, SpiM.run_pure]
  rw [← hall, ← hzero, ← hsum]
  have hnat : (UInt32.ofNat excess).toNat = excess := by
    rw [UInt32.toNat_ofNat', Nat.mod_eq_of_lt (by omega)]
  constructor
  · intro h
    have hcancel : UInt32.ofNat excess = 0 := left_eq_add.mp h
    rw [← hnat, hcancel]
    rfl
  · rintro rfl
    exact (UInt32.add_zero _).symm

end Report

end RfTest

end Wise1511