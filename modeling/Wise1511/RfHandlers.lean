import Wise1511.BerPolling

/-!
# The handlers of the radio tests

The functions that the entries of the radio menus call, under their names in `RfTest.cpp`,
`SpectrumTest.cpp` and `SpectrumTest2.cpp`. Each loads a table and hands over to `tx_ber_single` or
`rx_ber_single`, with 20 bytes, 868 MHz and a thousand packets. Those of the spectrum test do so for
any index but 0; for 0 they load another table, for continuous transmission, and that is all.

Their waits may not end, so a handler is a program that may not come back.

## Main results

* `runSender_eq`, `runReceiver_eq` — a handler is its set-up and a burst
* `returns_runSender` — when a sending handler comes back
* `spectrum_modes_agree` — the two modes of a spectrum test transmit alike
-/

namespace Wise1511

namespace RfTest

open SpiM (Implements Returns)

section Programs

variable {σ φ : Type} (S : SpiSlave σ φ) (twoWay : Bool)

/-- `tx_ber_single`. -/
def txBerSinglePolled (pktlen : UInt16) (freq chbw channel : Int32) (pktnum : UInt32)
    (waits : ℕ → Waits σ) (v : TxVars) : OptionT (SpiM σ φ) TxReport := do
  txStart S pktlen (channelFreq freq chbw channel)
  txBurstPolled S twoWay pktlen pktnum waits v

/-- `rx_ber_single`. -/
def rxBerSinglePolled (pktlen : UInt16) (freq chbw channel : Int32) (pktnum : UInt32)
    (waits : ℕ → Waits σ) (v : RxVars) : OptionT (SpiM σ φ) (RxVars × List RxLine) := do
  rxStart S pktlen (channelFreq freq chbw channel)
  rxBurstPolled S twoWay pktlen pktnum waits v

/-- What all the sending handlers do. -/
def runSender (t : BurstTest) (waits : ℕ → Waits σ) (v : TxVars) :
    OptionT (SpiM σ φ) TxReport := do
  t.load S
  txBerSinglePolled S twoWay 20 868000 500 0 1000 waits v

/-- What all the receiving handlers do. -/
def runReceiver (t : BurstTest) (waits : ℕ → Waits σ) (v : RxVars) :
    OptionT (SpiM σ φ) (RxVars × List RxLine) := do
  t.loadReceiver S
  rxBerSinglePolled S twoWay 20 868000 500 0 1000 waits v

/-- `runLTX`. -/
def runLTX := runSender S twoWay .ltx

/-- `runLRX`. -/
def runLRX := runReceiver S twoWay .ltx

/-- `runLTX_4GFSK_500`. -/
def runLTX4gfsk500 := runSender S twoWay .ltx4gfsk500

/-- `runLRX_4GFSK_500`. -/
def runLRX4gfsk500 := runReceiver S twoWay .ltx4gfsk500

/-- `runLTX_2FSK_300`. -/
def runLTX2fsk300 := runSender S twoWay .ltx2fsk300

/-- `runLRX_2FSK_300`. -/
def runLRX2fsk300 := runReceiver S twoWay .ltx2fsk300

/-- What all the handlers of the spectrum test do. -/
def runSpectrum (continuous : List RegisterSetting) (t : BurstTest) (index : Int32)
    (waits : ℕ → Waits σ) (v : TxVars) : OptionT (SpiM σ φ) (Option TxReport) :=
  if index = 0 then do
    registerConfig S (some continuous) (UInt16.ofNat continuous.length)
    pure none
  else do
    let report ← runSender S twoWay t waits v
    pure (some report)

/-- `runTX_4GFSK_500`. -/
def runTX4gfsk500 := runSpectrum S twoWay continuous4gfsk500 .tx4gfsk500

/-- `runTX_4GFSK_200k`. -/
def runTX4gfsk200k := runSpectrum S twoWay continuous4gfsk200k .tx4gfsk200k

/-- `runTX_2GFSK_500`. -/
def runTX2gfsk500 := runSpectrum S twoWay continuous2gfsk500 .tx2gfsk500

/-- `runTX_2GFSK_50k`. -/
def runTX2gfsk50k := runSpectrum S twoWay continuous2gfsk50k .tx2gfsk50k

/-- `runTX_2FSK_300`. -/
def runTX2fsk300 := runSpectrum S twoWay continuous2fsk300 .tx2fsk300

/-- `runTX_2FSK_1_2k`. -/
def runTX2fsk1_2k := runSpectrum S twoWay continuous2fsk1_2k .tx2fsk1_2k

end Programs

/-- A sending handler is its set-up and the burst. -/
theorem runSender_eq (twoWay : Bool) (t : BurstTest) (waits : ℕ → Waits Chip) (v : TxVars) :
    runSender (cc112x liveView) twoWay t waits v = (do
      senderSetup t
      txBurstPolled (cc112x liveView) twoWay 20 1000 waits v) := by
  rw [runSender, txBerSinglePolled, senderSetup, liftM_bind, bind_assoc]

theorem runReceiver_eq (twoWay : Bool) (t : BurstTest) (waits : ℕ → Waits Chip) (v : RxVars) :
    runReceiver (cc112x liveView) twoWay t waits v = (do
      receiverSetup t
      rxBurstPolled (cc112x liveView) twoWay 20 1000 waits v) := by
  rw [runReceiver, rxBerSinglePolled, receiverSetup, liftM_bind, bind_assoc]

/-- A sending handler comes back when all its packets are out. -/
theorem returns_runSender (twoWay : Bool) (t : BurstTest) (polls : ℕ → Polls) (v : TxVars) :
    Returns (runSender (cc112x liveView) twoWay t (fun i => (polls i).waits) v)
      (fun _ => ∀ i < 1000, (polls i).SenderReturns twoWay)
      fun c => (txBurstTurns twoWay 20 1000 (fun i => (polls i).txEvent) v).run (setUp t c) := by
  rw [runSender_eq]
  refine ((implements_senderSetup t).returns.bind fun _ =>
    returns_txBurstPolled twoWay 20 1000 polls v).congr ?_ ?_
  · intro c
    rw [true_and]
    exact forall_mem_eventsUpTo
  · intro c _
    rw [StateM.run_seq]
    rfl

/-! ### The spectrum test -/

/-- The spectrum tests, each by its table for continuous transmission and its burst. -/
def spectrumTests : List (List RegisterSetting × BurstTest) := [
  (continuous4gfsk500, .tx4gfsk500), (continuous4gfsk200k, .tx4gfsk200k),
  (continuous2gfsk500, .tx2gfsk500), (continuous2gfsk50k, .tx2gfsk50k),
  (continuous2fsk300, .tx2fsk300), (continuous2fsk1_2k, .tx2fsk1_2k)]

/-- For continuous transmission there is nothing to wait for. -/
theorem returns_runSpectrum_zero (twoWay : Bool) {h : List RegisterSetting × BurstTest}
    (hmem : h ∈ spectrumTests) (waits : ℕ → Waits Chip) (v : TxVars) :
    Returns (runSpectrum (cc112x liveView) twoWay h.1 h.2 0 waits v) (fun _ => True)
      fun c => (none, { c.strobe sres with regs := applyTable c.resetRegs h.1 }) := by
  have hcont : h.1 ∈ continuousTables := List.mem_map_of_mem hmem
  obtain ⟨hne, hlen, hspaces⟩ := inSpaces_testTables h.1 (List.mem_append_right burstTables hcont)
  rw [runSpectrum, if_pos rfl]
  refine ((implements_registerConfig hne hlen hspaces).returns.bind fun _ =>
    SpiM.returns_pure none).congr ?_ fun _ _ => rfl
  intro c
  simp

/-- **The two modes of a spectrum test transmit alike.** Whether the handler is called for
continuous transmission or for packets, and whatever the chips held before, the registers that carry
the one and with which the other begins are the same outside `modeRegisters`, the packet format, and
the lowest byte of the frequency. -/
theorem spectrum_modes_agree (twoWay : Bool) {h : List RegisterSetting × BurstTest}
    (hmem : h ∈ spectrumTests) (waits : ℕ → Waits Chip) (v : TxVars) {b b' : SpiBus Chip Phase}
    (hreset : b.dev.resetRegs = b'.dev.resetRegs) {a : ℕ} (hmode : a ∉ modeRegisters)
    (hcfg : a ≠ pktCfg0.toNat) (hlow : a ≠ Reg.freq0.toNat) :
    ((runSpectrum (cc112x liveView) twoWay h.1 h.2 0 waits v).run.run b).2.dev.regs a
      = ((senderSetup h.2).run b').2.dev.regs a := by
  rw [(returns_runSpectrum_zero twoWay hmem waits v).dev b trivial,
    (implements_senderSetup h.2).dev b']
  show applyTable b.dev.resetRegs h.1 a = setupRegs b'.dev.resetRegs h.2.settings 20 868000 a
  have hpair : (h.1, h.2.settings) ∈ continuousTables.zip (burstTables.drop 2) :=
    List.mem_map_of_mem (f := fun h => (h.1, h.2.settings)) hmem
  have hpkt : a ≠ pktLen.toNat := by
    rintro rfl
    exact hmode (by decide)
  rw [setupRegs_apply, modes_agree _ _ hpair a hmode, if_neg hcfg, if_neg hpkt, hreset,
    applyTable_apply]
  split_ifs with hfreq
  · -- the tables give the two upper bytes as `radio_set_freq` does
    have hword : freqWord 868000 = 7110656 := by decide +kernel
    have htables : ∀ h ∈ spectrumTests,
        (lastSetting h.2.settings Reg.freq2.toNat).map RegisterSetting.data = some 0x6C ∧
          (lastSetting h.2.settings Reg.freq1.toNat).map RegisterSetting.data = some 0x80 := by
      decide +kernel
    have hcases : a = Reg.freq2.toNat ∨ a = Reg.freq1.toNat := by
      have h1 : Reg.freq1.toNat = Reg.freq2.toNat + 1 := rfl
      have h0 : Reg.freq0.toNat = Reg.freq2.toNat + 2 := rfl
      omega
    rw [hword]
    rcases hcases with rfl | rfl
    · rw [(htables h hmem).1]
      rfl
    · rw [(htables h hmem).2]
      rfl
  · rfl

/-- The symbol rate of the fastest. -/
theorem spectrum_modes_agree_rate :
    let v : TxVars := ⟨fun _ => 0, 0, 0, 0, 0, 0, 0, 0⟩
    ((runSpectrum (cc112x liveView) false continuous4gfsk500 .tx4gfsk500 0 (fun _ => ⟨[], []⟩)
        v).run.run resetBus).2.dev.regs Reg.symbolRate2.toNat
      = ((senderSetup .tx4gfsk500).run resetBus).2.dev.regs Reg.symbolRate2.toNat :=
  spectrum_modes_agree (h := (continuous4gfsk500, .tx4gfsk500)) false (by simp [spectrumTests]) _ _
    rfl (by decide) (by decide) (by decide)

end RfTest

end Wise1511
