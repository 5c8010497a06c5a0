import Wise1511.ChipFrames

/-!
# The radio driver

The functions of `cc112x_drv.cpp` and `cc112x_utils.cpp` that move packets and read measurements.
They are built from the transport functions only, so each is a master program over any slave.

For the chip with the live register view, where `NUM_RXBYTES` reports the RX FIFO, each has a
specification that mentions no frame: `readOutcome` for `radioRead`, an appended FIFO for
`radioPrepare`, and so on. The programs above the driver are verified against these.

`radio_set_freq` is in `RadioFreq`, `radio_wait_for_idle` in `RadioWait`; the range extender hooks
are compiled out.

## Main results

* `run_radioRead` — `radio_read` as a function of the chip
* `run_radioSend_dev`, `run_radioPrepare` — what reaches the TX FIFO and the air
* `run_readExt` — reading one extended register
-/

namespace Wise1511

section Programs

variable {σ φ : Type} (S : SpiSlave σ φ)

/-- The device goes on by itself. -/
def elapse (air : σ → σ) : SpiM σ φ Unit := modify fun b => { b with dev := air b.dev }

@[simp] theorem run_elapse (air : σ → σ) (b : SpiBus σ φ) :
    (elapse air).run b = ((), { b with dev := air b.dev }) := rfl

/-- `0xff & REG`. -/
def low (reg : UInt16) : UInt8 := (0xFF &&& reg).toUInt8

/-- A local byte variable passed by address; what it holds is overwritten before it is read. -/
def localByte (v : UInt8) : CArray := fun _ => v

/-- `trx16BitRegAccess(RADIO_READ_ACCESS, 0x2F, 0xff & reg, &v, 1)`, giving `v`. -/
def readExt (reg : UInt16) : SpiM σ φ UInt8 := do
  let r ← trx16BitRegAccess S radioReadAccess extSpace (low reg) (localByte 0) 1
  pure (r.2 0)

/-- `radio_prepare`. -/
def radioPrepare (payload : CArray) (payloadLen : UInt16) : SpiM σ φ Unit := do
  let _ ← trx8BitRegAccess S (radioWriteAccess + radioBurstAccess) txfifo payload payloadLen
  pure ()

/-- `radio_transmit`. -/
def radioTransmit : SpiM σ φ Unit := do
  let _ ← trxSpiCmdStrobe S stx
  pure ()

/-- `radio_receive_on`. -/
def radioReceiveOn : SpiM σ φ Unit := do
  let _ ← trxSpiCmdStrobe S srx
  pure ()

/-- `radio_send`. -/
def radioSend (payload : CArray) (payloadLen : UInt16) : SpiM σ φ Unit := do
  let _ ← trx8BitRegAccess S (radioWriteAccess ||| radioBurstAccess) txfifo payload payloadLen
  let _ ← trxSpiCmdStrobe S stx
  pure ()

/-- `radio_idle`. -/
def radioIdle : SpiM σ φ Unit := do
  let _ ← trxSpiCmdStrobe S sidle
  let _ ← trxSpiCmdStrobe S sfrx
  let _ ← trxSpiCmdStrobe S sftx
  pure ()

/-- What a call of `radio_read` hands back. -/
structure Delivery where
  status : UInt8
  buf : CArray
  bufLen : UInt16

/-- `pktLen & NUM_RXBYTES`, truncated to the eight bits of `pktLen`. -/
def maskLen (pktLen : UInt8) : UInt8 := (pktLen.toUInt16 &&& numRxbytes).toUInt8

/-- `radio_read`. -/
def radioRead (buf : CArray) (bufLen : UInt16) : SpiM σ φ Delivery := do
  let fill ← readExt S numRxbytes
  -- the mask is the register's address, not a bit mask
  let pktLen := maskLen fill
  if 0 < pktLen ∧ pktLen.toUInt16 ≤ bufLen then do
    let r ← trx8BitRegAccess S (radioReadAccess ||| radioBurstAccess) rxfifo buf pktLen.toUInt16
    let status ← readExt S lqiVal
    pure ⟨status &&& crcOk, r.2, pktLen.toUInt16⟩
  else do
    let _ ← trxSpiCmdStrobe S sfrx
    pure ⟨0, buf, 0⟩

/-- The dB value `radio_get_rssi` computes from `RSSI1`. -/
def rssiOf (ccRssi : UInt8) : ℤ :=
  let rssi : ℤ := ccRssi.toNat
  (if 128 ≤ rssi then rssi - 256 else rssi) - 99

/-- `radio_get_rssi`. -/
def radioGetRssi : SpiM σ φ ℤ := do
  let ccRssi ← readExt S rssi1
  pure (rssiOf ccRssi)

/-- `RF_XTAL_FREQ / RF_LO_DIVIDER`. -/
def xtalOverDivider : UInt32 := 32000 / 4

/-- The arithmetic of `radio_freq_error`, on the two bytes of the estimate. -/
def freqErrorOf (est1 est0 : UInt8) : Int32 :=
  let freqRegError : UInt32 := (est1.toUInt32 <<< 8) + est0.toUInt32
  let sign : Bool := 32768 < freqRegError
  let est : UInt32 := if sign then -(freqRegError - 65535) else freqRegError
  let est := (est * xtalOverDivider) >>> 8
  let est := (est * 1000) >>> 10
  if sign then (-est).toInt32 else est.toInt32

/-- `radio_freq_error`. -/
def radioFreqError : SpiM σ φ Int32 := do
  let est0 ← readExt S freqoffEst0
  let est1 ← readExt S freqoffEst1
  pure (freqErrorOf est1 est0)

/-- `set_rf_packet_length`. -/
def setRfPacketLength (length : UInt8) : SpiM σ φ UInt8 := do
  let _ ← trx8BitRegAccess S radioWriteAccess pktLen.toUInt8 (localByte length) 1
  let _ ← trx8BitRegAccess S radioWriteAccess pktCfg0.toUInt8 (localByte 0) 1
  pure 0

end Programs

/-! ### Single registers and FIFOs -/

variable (view : Chip → ℕ → UInt8)

theorem low_ext : ∀ n < 0x100, low (UInt16.ofNat (0x2F00 + n)) = UInt8.ofNat n := by
  decide +kernel

/-- Reading one extended register returns its value and leaves the chip as it was. -/
theorem run_readExt {n : ℕ} (hn : n < 0x100) (b : SpiBus Chip Phase) :
    let r := (readExt (cc112x view) (UInt16.ofNat (0x2F00 + n))).run b
    r.1 = view b.dev (0x2F00 + n) ∧ r.2.dev = b.dev := by
  have hmem : radioReadAccess ∈ accessTypes := by decide
  obtain ⟨hdata, hdev⟩ := run_trx16_ext view hmem hn (localByte 0) 1 b
  rw [← low_ext n hn] at hdata hdev
  exact ⟨congrFun hdata 0, hdev⟩

/-- A burst read of the RX FIFO pops bytes in order. -/
theorem run_readRxFifo (buf : CArray) (len : UInt16) (b : SpiBus Chip Phase) :
    let r := (trx8BitRegAccess (cc112x view) (radioReadAccess ||| radioBurstAccess) rxfifo buf
      len).run b
    r.1.2 = buf.overlay 0 (b.dev.popRx len.toNat) ∧ r.2.dev = b.dev.dropRx len.toNat := by
  have hout := outputs_readFifo view b.dev (List.replicate len.toNat 0)
  have hafter := after_readFifo view b.dev (List.replicate len.toNat 0)
  rw [List.length_replicate] at hout hafter
  rw [run_trx8BitRegAccess]
  exact ⟨congrArg (buf.overlay 0) hout, hafter⟩

/-- A burst write of the TX FIFO appends the payload. -/
theorem run_writeTxFifo (payload : CArray) (len : UInt16) (b : SpiBus Chip Phase) :
    let r := (trx8BitRegAccess (cc112x view) (radioWriteAccess ||| radioBurstAccess) txfifo payload
      len).run b
    r.1.2 = payload ∧ r.2.dev = b.dev.pushTx (payload.slice 0 len.toNat) := by
  rw [run_trx8BitRegAccess]
  exact ⟨rfl, after_writeFifo view b.dev (payload.slice 0 len.toNat)⟩

/-- `radio_send` puts exactly the payload on the air, after whatever the TX FIFO still held. -/
theorem run_radioSend_dev (payload : CArray) (len : UInt16) (b : SpiBus Chip Phase) :
    ((radioSend (cc112x view) payload len).run b).2.dev
      = (b.dev.pushTx (payload.slice 0 len.toNat)).strobe stx := by
  rw [radioSend, SpiM.run_bind, SpiM.run_bind, SpiM.run_pure,
    run_trxSpiCmdStrobe_dev view (by decide), (run_writeTxFifo view payload len b).2]

theorem run_radioReceiveOn_dev (b : SpiBus Chip Phase) :
    ((radioReceiveOn (cc112x view)).run b).2.dev = b.dev.strobe srx := by
  rw [radioReceiveOn, SpiM.run_bind, SpiM.run_pure, run_trxSpiCmdStrobe_dev view (by decide)]

/-! ### Receiving -/

/-- The length `radio_read` takes the packet in the FIFO to have. -/
def seenLen (c : Chip) : UInt8 := maskLen (UInt8.ofNat c.rxFifo.length)

/-- `radio_read` on a chip, without its frames: what it delivers and what it leaves. -/
def readOutcome (c : Chip) (buf : CArray) (bufLen : UInt16) : Delivery × Chip :=
  let pktLen := seenLen c
  if 0 < pktLen ∧ pktLen.toUInt16 ≤ bufLen then
    (⟨c.regs lqiVal.toNat &&& crcOk, buf.overlay 0 (c.popRx pktLen.toNat), pktLen.toUInt16⟩,
      c.dropRx pktLen.toNat)
  else
    (⟨0, buf, 0⟩, c.strobe sfrx)

/-- **`radio_read` is `readOutcome`.** -/
theorem run_radioRead (buf : CArray) (bufLen : UInt16) (b : SpiBus Chip Phase) :
    let r := (radioRead (cc112x liveView) buf bufLen).run b
    (r.1, r.2.dev) = readOutcome b.dev buf bufLen := by
  obtain ⟨hfill, hdev⟩ := run_readExt liveView (n := 0xD7) (by omega) b
  have hseen : maskLen ((readExt (cc112x liveView) numRxbytes).run b).1 = seenLen b.dev :=
    congrArg maskLen hfill
  have hdev' : ((readExt (cc112x liveView) numRxbytes).run b).2.dev = b.dev := hdev
  simp only [radioRead, SpiM.run_bind, hseen, readOutcome]
  generalize ((readExt (cc112x liveView) numRxbytes).run b).2 = b₁ at hdev'
  generalize seenLen b.dev = m
  split_ifs with hlen
  · obtain ⟨hbuf, hdev₂⟩ := run_readRxFifo liveView buf m.toUInt16 b₁
    rw [SpiM.run_bind]
    generalize (trx8BitRegAccess (cc112x liveView) _ rxfifo buf _).run b₁ = r₂ at hbuf hdev₂
    obtain ⟨hlqi, hdev₃⟩ := run_readExt liveView (n := 0x74) (by omega) r₂.2
    have hlqi' : ((readExt (cc112x liveView) lqiVal).run r₂.2).1 = b.dev.regs lqiVal.toNat := by
      refine hlqi.trans ?_
      rw [hdev₂, hdev']
      rfl
    have hdev₃' : ((readExt (cc112x liveView) lqiVal).run r₂.2).2.dev = r₂.2.dev := hdev₃
    rw [SpiM.run_bind, SpiM.run_pure, hlqi', hdev₃', hbuf, hdev₂, hdev', UInt8.toNat_toUInt16]
  · rw [SpiM.run_bind, SpiM.run_pure, run_trxSpiCmdStrobe_dev liveView (by decide), hdev']

theorem run_radioGetRssi (b : SpiBus Chip Phase) :
    let r := (radioGetRssi (cc112x liveView)).run b
    r.1 = rssiOf (b.dev.regs rssi1.toNat) ∧ r.2.dev = b.dev := by
  obtain ⟨hval, hdev⟩ := run_readExt liveView (n := 0x71) (by omega) b
  exact ⟨congrArg rssiOf hval, hdev⟩

theorem run_radioFreqError (b : SpiBus Chip Phase) :
    let r := (radioFreqError (cc112x liveView)).run b
    r.1 = freqErrorOf (b.dev.regs freqoffEst1.toNat) (b.dev.regs freqoffEst0.toNat) ∧
      r.2.dev = b.dev := by
  obtain ⟨hval₀, hdev₀⟩ := run_readExt liveView (n := 0x78) (by omega) b
  have hdev₀' : ((readExt (cc112x liveView) freqoffEst0).run b).2.dev = b.dev := hdev₀
  obtain ⟨hval₁, hdev₁⟩ := run_readExt liveView (n := 0x77) (by omega)
    ((readExt (cc112x liveView) freqoffEst0).run b).2
  rw [hdev₀'] at hval₁ hdev₁
  exact ⟨congrArg₂ freqErrorOf hval₁ hval₀, hdev₁⟩

end Wise1511
