import Wise1511.DeviceId
import Wise1511.Lib.Transaction
import Wise1511.RadioFreq
import Wise1511.RadioWait

/-!
# The driver as a whole

Every function of `cc112x_drv.cpp`, `cc112x_utils.cpp` and `cc112x.cpp`, and what it does to the
radio. The frames are gone: a call is a transaction on the chip, from the chip alone.
`driver_tracks` says that this is all there is to a call, over any list of calls with the radio
doing as it likes between and during them. The register functions of `cc112x.cpp` are called for
blocks inside a register space; the FIFO functions move one byte whatever the length.

What is proved of the transactions holds of the driver then. `driver_outbound` is about the way out.
The chip's model sends all the TX FIFO holds; a radio takes as many bytes as its packet format says.
As long as every transmission finds one packet of that format, the two are the same radio, and what
has been sent, followed by what the TX FIFO still holds, is what the callers have handed over, in
order, less what was flushed. `packets_iff` says that this is also necessary: a transmission that
finds more or less in the FIFO does not send what was handed over for it.

`set_tx_modulated_test_mode` hands over a byte of its own, and nothing removes it. `radio_set_pwr`
returns its argument. Waiting for a fixed time is not modelled, nor is what the strobe of
`radio_sleep` does besides being executed.

## Main results

* `implements_program` — every call is its transaction
* `driver_tracks` — whole runs
* `driver_outbound`, `packets_iff` — what goes on the air
-/

namespace Wise1511

open SpiM (Implements)

/-! ### The rest of the driver -/

/-- Enter power-down mode. -/
def spwd : UInt8 := 0x39

/-- No operation. -/
def snop : UInt8 := 0x3D

def cfmDataCfg : UInt16 := 0x2F05
def rssi0 : UInt16 := 0x2F72

section Programs

variable {σ φ : Type} (S : SpiSlave σ φ)

/-- `radio_channel_clear`: the carrier sense bit, not zero when there is a carrier. -/
def radioChannelClear : SpiM σ φ UInt8 := do
  let status ← readExt S rssi0
  pure (status &&& 0x04)

/-- `radio_set_pwr`. -/
def radioSetPwr (txPwr : Int32) : SpiM σ φ Int32 := pure txPwr

/-- `radio_sleep`. -/
def radioSleep : SpiM σ φ Unit := do
  let _ ← trxSpiCmdStrobe S sidle
  let _ ← trxSpiCmdStrobe S spwd
  pure ()

/-- `radio_wake`. -/
def radioWake : SpiM σ φ Unit := do
  let _ ← trxSpiCmdStrobe S sidle
  pure ()

/-- `cc112xGetTxStatus`. -/
def cc112xGetTxStatus : SpiM σ φ UInt8 := trxSpiCmdStrobe S snop

/-- `cc112xGetRxStatus`. -/
def cc112xGetRxStatus : SpiM σ φ UInt8 := trxSpiCmdStrobe S (snop ||| radioReadAccess)

/-- `set_tx_unmodulated_test_mode`. -/
def setTxUnmodulatedTestMode : SpiM σ φ Unit := do
  let _ ← trx8BitRegAccess S radioWriteAccess Reg.mdmcfg1.toUInt8 (localByte 0x06) 1
  let r ← trx8BitRegAccess S radioReadAccess Reg.paCfg2.toUInt8 (localByte 0x06) 1
  let regsUint8 := r.2 0 ||| 0x40
  let _ ← trx8BitRegAccess S radioWriteAccess Reg.paCfg2.toUInt8 (localByte regsUint8) 1
  let _ ← trx16BitRegAccess S radioWriteAccess 0x2F (low cfmDataCfg) (localByte 0x01) 1
  pure ()

/-- `set_tx_modulated_test_mode`. -/
def setTxModulatedTestMode : SpiM σ φ Unit := do
  let _ ← trx8BitRegAccess S radioWriteAccess Reg.mdmcfg1.toUInt8 (localByte 0x46) 1
  let _ ← trx8BitRegAccess S radioWriteAccess Reg.mdmcfg0.toUInt8 (localByte 0x05) 1
  let _ ← trx8BitRegAccess S radioWriteAccess Reg.pktCfg2.toUInt8 (localByte 0x06) 1
  let _ ← trx8BitRegAccess S radioWriteAccess pktCfg0.toUInt8 (localByte 0x40) 1
  -- the byte that is in the variable starts the modulator
  let _ ← trx8BitRegAccess S (radioWriteAccess + radioBurstAccess) txfifo (localByte 0x40) 1
  pure ()

end Programs

/-! ### Frames as transactions -/

section Frames

variable (view : Chip → ℕ → UInt8)

/-- A header that decodes to a strobe executes it, and is answered with the status. -/
theorem implements_of_decodeHeader {header cmd : UInt8}
    (h : ∀ c : Chip, c.decodeHeader header = (c.strobe cmd, .header)) :
    Implements (trxSpiCmdStrobe (cc112x view) header) fun c => (c.status, c.strobe cmd) := by
  have hframe : SpiM.frameOf (cc112x view) [header, 0] (fun replies => replies.getD 1 0)
      = fun c => (c.status, c.strobe cmd) := by
    funext c
    have hhead : (cc112x view).step (c, (cc112x view).start) header
        = ((c.strobe cmd, .header), c.status) := by
      rw [← h c]
      rfl
    have hstatus : (c.strobe cmd).status = c.status := by
      rw [Chip.strobe, Chip.command]
      split_ifs
      · rfl
      · rfl
      · rfl
      · rfl
      · rfl
    rw [SpiM.frameOf, Mealy.outputs_cons, Mealy.after_cons, hhead, ← hstatus]
    rfl
  rw [← hframe]
  exact SpiM.implements_frame (run_trxSpiCmdStrobe (cc112x view) header)

theorem implements_strobe {cmd : UInt8} (h : IsStrobe cmd) :
    Implements (trxSpiCmdStrobe (cc112x view) cmd) fun c => (c.status, c.strobe cmd) :=
  implements_of_decodeHeader view fun c => decodeHeader_strobe c h

/-- A register access in the standard space, of any type. -/
theorem implements_trx8 {t : UInt8} (ht : t ∈ accessTypes) {n : ℕ} (hn : n < 0x2F) (pData : CArray)
    (len : UInt16) :
    Implements (trx8BitRegAccess (cc112x view) t (UInt8.ofNat n) pData len) fun c =>
      let pData' := accessData view t n (width t len.toNat) pData c
      ((pData' 0, pData'), accessDev t n (width t len.toNat) pData c) := by
  intro b
  obtain ⟨hdata, hdev⟩ := run_trx8_std view ht hn pData len b
  refine Prod.ext (Prod.ext ?_ hdata) hdev
  exact congrFun hdata 0

/-- A register access in the extended space. -/
theorem implements_trx16 {t : UInt8} (ht : t ∈ accessTypes) {n : ℕ} (hn : n < 0x100)
    (pData : CArray) (len : UInt8) :
    Implements (trx16BitRegAccess (cc112x view) t extSpace (UInt8.ofNat n) pData len) fun c =>
      let pData' := accessData view t (0x2F00 + n) (width t len.toNat) pData c
      ((pData' 0, pData'), accessDev t (0x2F00 + n) (width t len.toNat) pData c) := by
  intro b
  obtain ⟨hdata, hdev⟩ := run_trx16_ext view ht hn pData len b
  refine Prod.ext (Prod.ext ?_ hdata) hdev
  exact congrFun hdata 0

theorem implements_readExt {n : ℕ} (hn : n < 0x100) :
    Implements (readExt (cc112x view) (UInt16.ofNat (0x2F00 + n)))
      fun c => (view c (0x2F00 + n), c) := by
  intro b
  obtain ⟨hvalue, hdev⟩ := run_readExt view hn b
  exact Prod.ext hvalue hdev

/-- A burst write of the TX FIFO. -/
theorem implements_writeTxFifo (payload : CArray) (len : UInt16) :
    Implements (trx8BitRegAccess (cc112x view) (radioWriteAccess ||| radioBurstAccess) txfifo
      payload len) fun c => ((payload 0, payload), c.pushTx (payload.slice 0 len.toNat)) := by
  intro b
  obtain ⟨hdata, hdev⟩ := run_writeTxFifo view payload len b
  refine Prod.ext (Prod.ext ?_ hdata) hdev
  exact congrFun hdata 0

/-- The register functions, on a block inside a register space. -/
theorem implements_cc112xSpiReg {t : UInt8} (ht : t ∈ accessTypes) (hburst : isBurst t = true)
    {addr : UInt16} {len : UInt8} (hblock : BlockInSpace addr len) (pData : CArray) :
    Implements (cc112xSpiReg (cc112x view) t addr pData len) fun c =>
      let pData' := accessData view t addr.toNat len.toNat pData c
      ((pData' 0, pData'), accessDev t addr.toNat len.toNat pData c) := by
  obtain ⟨hlen, hstd | ⟨hlo, hhi⟩⟩ := hblock
  · have hn : addr.toNat < 0x2F := by omega
    have himp := implements_trx8 view ht hn pData len.toUInt16
    rw [width, if_pos hburst, UInt8.toNat_toUInt16] at himp
    rw [← UInt16.ofNat_toNat (x := addr), cc112xSpiReg_std _ t hn, UInt16.ofNat_toNat]
    exact himp
  · obtain ⟨m, hm⟩ := Nat.exists_eq_add_of_le hlo
    have hm' : m < 0x100 := by omega
    have himp := implements_trx16 view ht hm' pData len
    rw [width, if_pos hburst, ← hm] at himp
    rw [← UInt16.ofNat_toNat (x := addr), hm, cc112xSpiReg_ext _ t hm', ← hm, UInt16.ofNat_toNat]
    exact himp

theorem implements_cc112xSpiReadReg {addr : UInt16} {len : UInt8} (hblock : BlockInSpace addr len)
    (pData : CArray) : Implements (cc112xSpiReadReg (cc112x view) addr pData len) fun c =>
      let pData' := pData.overlay 0 (CArray.slice (view c) addr.toNat len.toNat)
      ((pData' 0, pData'), c) :=
  implements_cc112xSpiReg view (by decide) rfl hblock pData

theorem implements_cc112xSpiWriteReg {addr : UInt16} {len : UInt8} (hblock : BlockInSpace addr len)
    (pData : CArray) : Implements (cc112xSpiWriteReg (cc112x view) addr pData len) fun c =>
      ((pData 0, pData),
        { c with regs := c.regs.overlay addr.toNat (pData.slice 0 len.toNat) }) :=
  implements_cc112xSpiReg view (by decide) rfl hblock pData

/-- The FIFO functions move one byte, out of the caller's array and into nowhere. -/
theorem implements_cc112xSpiWriteTxFifo (pData : CArray) (len : UInt8) :
    Implements (cc112xSpiWriteTxFifo (cc112x view) pData len) fun c =>
      ((pData 0, pData), c.pushTx [pData 0]) := by
  intro b
  rw [cc112xSpiWriteTxFifo, run_trx8BitRegAccess]
  rfl

theorem implements_cc112xSpiReadRxFifo (pData : CArray) (len : UInt8) :
    Implements (cc112xSpiReadRxFifo (cc112x view) pData len) fun c =>
      ((pData 0, pData), c.dropRx 1) := by
  intro b
  rw [cc112xSpiReadRxFifo, run_trx8BitRegAccess]
  rfl

/-- A single write of a standard register from a local byte. -/
theorem implements_writeStd {n : ℕ} (hn : n < 0x2F) (v : UInt8) :
    Implements (trx8BitRegAccess (cc112x view) radioWriteAccess (UInt8.ofNat n) (localByte v) 1)
      fun c => ((v, localByte v), c.writeReg n v) :=
  implements_trx8 view (by decide) hn (localByte v) 1

/-- The same, of an extended register. -/
theorem implements_writeExt {n : ℕ} (hn : n < 0x100) (v : UInt8) :
    Implements (trx16BitRegAccess (cc112x view) radioWriteAccess extSpace (UInt8.ofNat n)
      (localByte v) 1) fun c => ((v, localByte v), c.writeReg (0x2F00 + n) v) :=
  implements_trx16 view (by decide) hn (localByte v) 1

end Frames

/-! ### The functions of the driver -/

section Functions

/-- A strobe whose answer is thrown away. -/
theorem implements_strobe_done {cmd : UInt8} (h : IsStrobe cmd) :
    Implements (trxSpiCmdStrobe (cc112x liveView) cmd >>= fun _ => pure ())
      fun c => ((), c.strobe cmd) :=
  (implements_strobe liveView h).bind fun _ => SpiM.implements_pure ()

/-- The loaders' loop stores its settings. -/
theorem implements_settingsLoop {body : RegisterSetting → SpiM Chip Phase Unit}
    {settings : List RegisterSetting} (hs : ∀ r ∈ settings, InSpaces r.addr)
    (h : ∀ r, InSpaces r.addr → Implements (body r) fun c => ((), c.writeReg r.addr.toNat r.data)) :
    Implements (settingsLoop body settings)
      fun c => ((), { c with regs := applyTable c.regs settings }) := by
  induction settings with
  | nil => exact SpiM.implements_pure ()
  | cons r rs ih =>
    have hrest := ih fun s hmem => hs s (List.mem_cons_of_mem r hmem)
    exact (h r (hs r List.mem_cons_self)).bind fun _ => hrest

/-- The loop bodies begin with chip select, so they do not depend on the phase. -/
theorem implements_radioInitSetting (r : RegisterSetting) (hr : InSpaces r.addr) :
    Implements (radioInitSetting (cc112x liveView) r)
      fun c => ((), c.writeReg r.addr.toNat r.data) := by
  rw [radioInitSetting]
  rcases addr_cases hr with ⟨hlt, n, hn, haddr, hnat⟩ | ⟨hge, n, hn, haddr, hnat⟩
  · rw [if_pos hlt, haddr, toUInt8_std n hn, ← haddr, hnat]
    exact (implements_writeStd liveView hn r.data).bind fun _ => SpiM.implements_pure ()
  · rw [if_neg hge, haddr, low_ext n hn, ← haddr, hnat]
    exact (implements_writeExt liveView hn r.data).bind fun _ => SpiM.implements_pure ()

theorem implements_radioInit (configSelect : UInt8) :
    Implements (radioInit (cc112x liveView) configSelect) fun c =>
      ((radioSettings configSelect).2,
        { c.strobe sres with regs := applyTable c.resetRegs (radioSettings configSelect).1 }) := by
  have hloop := implements_settingsLoop (radioTable configSelect).inSpaces
    implements_radioInitSetting
  have hcount : byteCounted (radioSettings configSelect).1 = (radioSettings configSelect).1 :=
    byteCounted_eq (radioTable configSelect).length_le
  rw [radioInit, radioInitWith, hcount]
  exact ((implements_strobe liveView (by decide)).bind fun _ => hloop).bind
    fun _ => SpiM.implements_pure _

theorem implements_radioPrepare (payload : CArray) (payloadLen : UInt16) :
    Implements (radioPrepare (cc112x liveView) payload payloadLen)
      fun c => ((), c.pushTx (payload.slice 0 payloadLen.toNat)) :=
  (implements_writeTxFifo liveView payload payloadLen).bind fun _ => SpiM.implements_pure ()

theorem implements_radioSend (payload : CArray) (payloadLen : UInt16) :
    Implements (radioSend (cc112x liveView) payload payloadLen)
      fun c => ((), (c.pushTx (payload.slice 0 payloadLen.toNat)).strobe stx) :=
  (implements_writeTxFifo liveView payload payloadLen).bind
    fun _ => implements_strobe_done (by decide)

theorem implements_radioRead (buf : CArray) (bufLen : UInt16) :
    Implements (radioRead (cc112x liveView) buf bufLen) fun c => readOutcome c buf bufLen :=
  fun b => run_radioRead buf bufLen b

theorem implements_radioChannelClear :
    Implements (radioChannelClear (cc112x liveView)) fun c => (c.regs rssi0.toNat &&& 0x04, c) :=
  (implements_readExt liveView (n := 0x72) (by omega)).bind fun _ => SpiM.implements_pure _

/-- What `radio_wait_for_idle` makes of the chip: before every poll the radio does as it likes, and
after it a FIFO in error is flushed. -/
def waitDev (maxHold : UInt16) : List Poll → WaitVars → Chip → Chip
  | [], _, c => c
  | p :: ps, v, c =>
    if v.Done maxHold then c
    else waitDev maxHold ps (waitStep v p.reading) (flush p.reading (p.air c))

theorem implements_radioWaitForIdle (maxHold : UInt16) (polls : List Poll) :
    Implements (radioWaitForIdle (cc112x liveView) maxHold (polls.map Poll.air)) fun c =>
      (waitReadings maxHold (polls.map Poll.reading) ⟨0, 0⟩, waitDev maxHold polls ⟨0, 0⟩ c) := by
  intro b
  refine Prod.ext (run_radioWaitForIdle maxHold polls b) ?_
  suffices hloop : ∀ v : WaitVars, ((waitLoop (cc112x liveView) maxHold (polls.map Poll.air) v).run
      b).2.dev = waitDev maxHold polls v b.dev from hloop ⟨0, 0⟩
  induction polls generalizing b with
  | nil =>
    intro v
    rfl
  | cons p polls ih =>
    intro v
    obtain ⟨hvars, hdev⟩ := run_waitTurn p v b
    rw [List.map_cons, waitLoop, waitDev]
    split_ifs with hdone
    · rfl
    · rw [SpiM.run_bind, ih, hvars, hdev]

theorem implements_radioSetFreq (freq : UInt32) :
    Implements (radioSetFreq (cc112x liveView) freq) fun c => ((), { c with
      regs := c.regs.overlay Reg.freq2.toNat ((freqRegs (freqWord freq)).slice 0 3) }) :=
  fun b => Prod.ext rfl (run_radioSetFreq_dev liveView freq b)

theorem implements_radioIdle :
    Implements (radioIdle (cc112x liveView))
      fun c => ((), ((c.strobe sidle).strobe sfrx).strobe sftx) :=
  (implements_strobe liveView (by decide)).bind fun _ =>
    (implements_strobe liveView (by decide)).bind fun _ => implements_strobe_done (by decide)

theorem implements_radioSleep :
    Implements (radioSleep (cc112x liveView)) fun c => ((), (c.strobe sidle).strobe spwd) :=
  (implements_strobe liveView (by decide)).bind fun _ => implements_strobe_done (by decide)

theorem implements_radioFreqError :
    Implements (radioFreqError (cc112x liveView)) fun c =>
      (freqErrorOf (c.regs freqoffEst1.toNat) (c.regs freqoffEst0.toNat), c) :=
  fun b => Prod.ext (run_radioFreqError b).1 (run_radioFreqError b).2

theorem implements_radioGetRssi :
    Implements (radioGetRssi (cc112x liveView)) fun c => (rssiOf (c.regs rssi1.toNat), c) :=
  fun b => Prod.ext (run_radioGetRssi b).1 (run_radioGetRssi b).2

theorem implements_getDeviceId :
    Implements (getDeviceId (cc112x liveView)) fun c =>
      (deviceOf (c.regs partnumber.toNat), c) :=
  fun b => Prod.ext (run_getDeviceId liveView b) (run_readPart liveView b).2

theorem implements_setRfPacketLength (length : UInt8) :
    Implements (setRfPacketLength (cc112x liveView) length) fun c =>
      (0, (c.writeReg pktLen.toNat length).writeReg pktCfg0.toNat 0) :=
  (implements_writeStd liveView (n := 0x2E) (by omega) length).bind fun _ =>
    (implements_writeStd liveView (n := 0x28) (by omega) 0).bind fun _ => SpiM.implements_pure _

/-- The power amplifier keeps its other bits. -/
theorem implements_setTxUnmodulatedTestMode :
    Implements (setTxUnmodulatedTestMode (cc112x liveView)) fun c =>
      ((), ((c.writeReg Reg.mdmcfg1.toNat 0x06).writeReg Reg.paCfg2.toNat
        (c.regs Reg.paCfg2.toNat ||| 0x40)).writeReg cfmDataCfg.toNat 0x01) :=
  (implements_writeStd liveView (n := 0x12) (by omega) 0x06).bind fun _ =>
    (implements_trx8 liveView (by decide) (n := 0x2B) (by omega) (localByte 0x06) 1).bind fun _ =>
      (implements_writeStd liveView (n := 0x2B) (by omega) _).bind fun _ =>
        (implements_writeExt liveView (n := 0x05) (by omega) 0x01).bind
          fun _ => SpiM.implements_pure ()

theorem implements_setTxModulatedTestMode :
    Implements (setTxModulatedTestMode (cc112x liveView)) fun c =>
      ((), ((((c.writeReg Reg.mdmcfg1.toNat 0x46).writeReg Reg.mdmcfg0.toNat 0x05).writeReg
        Reg.pktCfg2.toNat 0x06).writeReg pktCfg0.toNat 0x40).pushTx [0x40]) :=
  (implements_writeStd liveView (n := 0x12) (by omega) 0x46).bind fun _ =>
    (implements_writeStd liveView (n := 0x13) (by omega) 0x05).bind fun _ =>
      (implements_writeStd liveView (n := 0x26) (by omega) 0x06).bind fun _ =>
        (implements_writeStd liveView (n := 0x28) (by omega) 0x40).bind fun _ =>
          (implements_writeTxFifo liveView (localByte 0x40) 1).bind
            fun _ => SpiM.implements_pure ()

end Functions

/-! ### Calls -/

/-- The calls of the driver, and what the radio does between them. During a wait the radio also does
as it likes, before every poll. -/
inductive RadioCall where
  | init (configSelect : UInt8)
  | prepare (payload : CArray) (payloadLen : UInt16)
  | transmit
  | receiveOn
  | send (payload : CArray) (payloadLen : UInt16)
  | read (buf : CArray) (bufLen : UInt16)
  | channelClear
  | waitForIdle (maxHold : UInt16) (polls : List Poll)
  | setPwr (txPwr : Int32)
  | setFreq (freq : UInt32)
  | idle
  | sleep
  | wake
  | freqError
  | setTxUnmodulatedTestMode
  | setTxModulatedTestMode
  | getRssi
  | getDeviceId
  | setRfPacketLength (length : UInt8)
  | getTxStatus
  | getRxStatus
  | spiReadReg (addr : UInt16) (pData : CArray) (len : UInt8) (block : BlockInSpace addr len)
  | spiWriteReg (addr : UInt16) (pData : CArray) (len : UInt8) (block : BlockInSpace addr len)
  | spiWriteTxFifo (pData : CArray) (len : UInt8)
  | spiReadRxFifo (pData : CArray) (len : UInt8)
  | air (f : Chip → Chip)

/-- What a call returns. -/
inductive RadioReply where
  | done
  | bitRate (rate : UInt32)
  | delivered (d : Delivery)
  | carrier (bit : UInt8)
  | waited (v : Option WaitVars)
  | pwr (txPwr : Int32)
  | hertz (freqError : Int32)
  | rssi (rssi : ℤ)
  | device (id : UInt8)
  | byte (b : UInt8)
  | data (rc : UInt8) (pData : CArray)

namespace RadioCall

/-- The program a call runs. -/
def program : RadioCall → SpiM Chip Phase RadioReply
  | init configSelect => .bitRate <$> radioInit (cc112x liveView) configSelect
  | prepare payload payloadLen =>
    (fun _ => .done) <$> radioPrepare (cc112x liveView) payload payloadLen
  | transmit => (fun _ => .done) <$> radioTransmit (cc112x liveView)
  | receiveOn => (fun _ => .done) <$> radioReceiveOn (cc112x liveView)
  | send payload payloadLen => (fun _ => .done) <$> radioSend (cc112x liveView) payload payloadLen
  | read buf bufLen => .delivered <$> radioRead (cc112x liveView) buf bufLen
  | channelClear => .carrier <$> radioChannelClear (cc112x liveView)
  | waitForIdle maxHold polls =>
    .waited <$> radioWaitForIdle (cc112x liveView) maxHold (polls.map Poll.air)
  | setPwr txPwr => .pwr <$> radioSetPwr txPwr
  | setFreq freq => (fun _ => .done) <$> radioSetFreq (cc112x liveView) freq
  | idle => (fun _ => .done) <$> radioIdle (cc112x liveView)
  | sleep => (fun _ => .done) <$> radioSleep (cc112x liveView)
  | wake => (fun _ => .done) <$> radioWake (cc112x liveView)
  | freqError => .hertz <$> radioFreqError (cc112x liveView)
  | setTxUnmodulatedTestMode =>
    (fun _ => .done) <$> Wise1511.setTxUnmodulatedTestMode (cc112x liveView)
  | setTxModulatedTestMode =>
    (fun _ => .done) <$> Wise1511.setTxModulatedTestMode (cc112x liveView)
  | getRssi => .rssi <$> radioGetRssi (cc112x liveView)
  | getDeviceId => .device <$> Wise1511.getDeviceId (cc112x liveView)
  | setRfPacketLength length => .byte <$> Wise1511.setRfPacketLength (cc112x liveView) length
  | getTxStatus => .byte <$> cc112xGetTxStatus (cc112x liveView)
  | getRxStatus => .byte <$> cc112xGetRxStatus (cc112x liveView)
  | spiReadReg addr pData len _ =>
    (fun r => .data r.1 r.2) <$> cc112xSpiReadReg (cc112x liveView) addr pData len
  | spiWriteReg addr pData len _ =>
    (fun r => .data r.1 r.2) <$> cc112xSpiWriteReg (cc112x liveView) addr pData len
  | spiWriteTxFifo pData len =>
    (fun r => .data r.1 r.2) <$> cc112xSpiWriteTxFifo (cc112x liveView) pData len
  | spiReadRxFifo pData len =>
    (fun r => .data r.1 r.2) <$> cc112xSpiReadRxFifo (cc112x liveView) pData len
  | air f => (fun _ => .done) <$> elapse f

/-- What a call does to the radio. -/
def transaction : RadioCall → StateM Chip RadioReply
  | init configSelect => fun c => (.bitRate (radioSettings configSelect).2,
      { c.strobe sres with regs := applyTable c.resetRegs (radioSettings configSelect).1 })
  | prepare payload payloadLen => fun c => (.done, c.pushTx (payload.slice 0 payloadLen.toNat))
  | transmit => fun c => (.done, c.strobe stx)
  | receiveOn => fun c => (.done, c.strobe srx)
  | send payload payloadLen => fun c =>
      (.done, (c.pushTx (payload.slice 0 payloadLen.toNat)).strobe stx)
  | read buf bufLen => fun c =>
      (.delivered (readOutcome c buf bufLen).1, (readOutcome c buf bufLen).2)
  | channelClear => fun c => (.carrier (c.regs rssi0.toNat &&& 0x04), c)
  | waitForIdle maxHold polls => fun c =>
      (.waited (waitReadings maxHold (polls.map Poll.reading) ⟨0, 0⟩),
        waitDev maxHold polls ⟨0, 0⟩ c)
  | setPwr txPwr => fun c => (.pwr txPwr, c)
  | setFreq freq => fun c => (.done, { c with
      regs := c.regs.overlay Reg.freq2.toNat ((freqRegs (freqWord freq)).slice 0 3) })
  | idle => fun c => (.done, ((c.strobe sidle).strobe sfrx).strobe sftx)
  | sleep => fun c => (.done, (c.strobe sidle).strobe spwd)
  | wake => fun c => (.done, c.strobe sidle)
  | freqError => fun c =>
      (.hertz (freqErrorOf (c.regs freqoffEst1.toNat) (c.regs freqoffEst0.toNat)), c)
  | setTxUnmodulatedTestMode => fun c => (.done, ((c.writeReg Reg.mdmcfg1.toNat 0x06).writeReg
      Reg.paCfg2.toNat (c.regs Reg.paCfg2.toNat ||| 0x40)).writeReg cfmDataCfg.toNat 0x01)
  | setTxModulatedTestMode => fun c => (.done, ((((c.writeReg Reg.mdmcfg1.toNat 0x46).writeReg
      Reg.mdmcfg0.toNat 0x05).writeReg Reg.pktCfg2.toNat 0x06).writeReg pktCfg0.toNat 0x40).pushTx
        [0x40])
  | getRssi => fun c => (.rssi (rssiOf (c.regs rssi1.toNat)), c)
  | getDeviceId => fun c => (.device (deviceOf (c.regs partnumber.toNat)), c)
  | setRfPacketLength length => fun c =>
      (.byte 0, (c.writeReg pktLen.toNat length).writeReg pktCfg0.toNat 0)
  | getTxStatus => fun c => (.byte c.status, c.strobe snop)
  | getRxStatus => fun c => (.byte c.status, c.strobe snop)
  | spiReadReg addr pData len _ => fun c =>
      let pData' := pData.overlay 0 (CArray.slice (liveView c) addr.toNat len.toNat)
      (.data (pData' 0) pData', c)
  | spiWriteReg addr pData len _ => fun c => (.data (pData 0) pData,
      { c with regs := c.regs.overlay addr.toNat (pData.slice 0 len.toNat) })
  | spiWriteTxFifo pData _ => fun c => (.data (pData 0) pData, c.pushTx [pData 0])
  | spiReadRxFifo pData _ => fun c => (.data (pData 0) pData, c.dropRx 1)
  | air f => fun c => (.done, f c)

/-- **Every call is its transaction**, whatever came before it on the bus. -/
theorem implements_program (call : RadioCall) : Implements call.program call.transaction := by
  cases call with
  | init configSelect => exact (implements_radioInit configSelect).map _
  | prepare payload payloadLen => exact (implements_radioPrepare payload payloadLen).map _
  | transmit => exact (@implements_strobe_done stx (by decide)).map _
  | receiveOn => exact (@implements_strobe_done srx (by decide)).map _
  | send payload payloadLen => exact (implements_radioSend payload payloadLen).map _
  | read buf bufLen => exact (implements_radioRead buf bufLen).map _
  | channelClear => exact implements_radioChannelClear.map _
  | waitForIdle maxHold polls => exact (implements_radioWaitForIdle maxHold polls).map _
  | setPwr txPwr => exact (SpiM.implements_pure txPwr).map _
  | setFreq freq => exact (implements_radioSetFreq freq).map _
  | idle => exact implements_radioIdle.map _
  | sleep => exact implements_radioSleep.map _
  | wake => exact (@implements_strobe_done sidle (by decide)).map _
  | freqError => exact implements_radioFreqError.map _
  | setTxUnmodulatedTestMode => exact implements_setTxUnmodulatedTestMode.map _
  | setTxModulatedTestMode => exact implements_setTxModulatedTestMode.map _
  | getRssi => exact implements_radioGetRssi.map _
  | getDeviceId => exact implements_getDeviceId.map _
  | setRfPacketLength length => exact (implements_setRfPacketLength length).map _
  | getTxStatus => exact (implements_strobe liveView (by decide)).map _
  | getRxStatus =>
    -- the read bit does not change which strobe it is
    exact (@implements_of_decodeHeader liveView _ snop fun c => rfl).map _
  | spiReadReg addr pData len block =>
    exact (implements_cc112xSpiReadReg liveView block pData).map _
  | spiWriteReg addr pData len block =>
    exact (implements_cc112xSpiWriteReg liveView block pData).map _
  | spiWriteTxFifo pData len => exact (implements_cc112xSpiWriteTxFifo liveView pData len).map _
  | spiReadRxFifo pData len => exact (implements_cc112xSpiReadRxFifo liveView pData len).map _
  | air f => exact (SpiM.implements_modify f).map _

/-- **The driver as a machine stays with its transactions**: over any list of calls, on any bus, the
replies are those of the transactions and so is the chip. -/
theorem driver_tracks (calls : List RadioCall) (b : SpiBus Chip Phase) :
    Mealy.Tracks (SpiM.driver program) (SpiM.transactions transaction) (fun b c => b.dev = c) b
      b.dev calls :=
  SpiM.tracks_of_implements implements_program b calls

/-- The chip after the calls. -/
theorem dev_after (calls : List RadioCall) (b : SpiBus Chip Phase) :
    ((SpiM.driver program).after b calls).dev
      = (SpiM.transactions transaction).after b.dev calls :=
  (SpiM.tracks_of_implements implements_program b calls calls List.prefix_rfl).2

/-! ### What goes on the air -/

/-- The bytes a call hands over for transmission. -/
def handed : RadioCall → List UInt8
  | prepare payload payloadLen => payload.slice 0 payloadLen.toNat
  | send payload payloadLen => payload.slice 0 payloadLen.toNat
  | setTxModulatedTestMode => [0x40]
  | spiWriteTxFifo pData _ => [pData 0]
  | _ => []

/-- The call puts a packet on the air. -/
def transmits : RadioCall → Bool
  | transmit => true
  | send _ _ => true
  | _ => false

/-- The call may flush the TX FIFO. -/
def discards : RadioCall → Bool
  | init _ => true
  | idle => true
  | waitForIdle _ _ => true
  | _ => false

/-- What the radio does by itself leaves the way out alone. -/
def LeavesTx : RadioCall → Prop
  | air f => ∀ c, (f c).sent = c.sent ∧ (f c).txFifo = c.txFifo
  | waitForIdle _ polls => ∀ p ∈ polls, ∀ c, (p.air c).sent = c.sent ∧ (p.air c).txFifo = c.txFifo
  | _ => True

/-- What has gone out, and what is in the FIFO to follow. -/
def outbound (c : Chip) : List UInt8 := c.sent.flatten ++ c.txFifo

/-- Waiting sends nothing; it flushes the FIFO or leaves it. -/
theorem waitDev_tx {polls : List Poll}
    (h : ∀ p ∈ polls, ∀ c, (p.air c).sent = c.sent ∧ (p.air c).txFifo = c.txFifo)
    (maxHold : UInt16) (v : WaitVars) (c : Chip) :
    (waitDev maxHold polls v c).sent = c.sent ∧
      ((waitDev maxHold polls v c).txFifo = c.txFifo ∨
        (waitDev maxHold polls v c).txFifo = []) := by
  induction polls generalizing v c with
  | nil => exact ⟨rfl, .inl rfl⟩
  | cons p ps ih =>
    rw [waitDev]
    split_ifs with hdone
    · exact ⟨rfl, .inl rfl⟩
    · obtain ⟨hsent, htx⟩ := h p List.mem_cons_self c
      have hflush : (flush p.reading (p.air c)).sent = c.sent ∧
          ((flush p.reading (p.air c)).txFifo = c.txFifo ∨
            (flush p.reading (p.air c)).txFifo = []) := by
        rw [flush]
        split_ifs
        · exact ⟨hsent, .inl htx⟩
        · exact ⟨hsent, .inr rfl⟩
        · exact ⟨hsent, .inl htx⟩
      obtain ⟨hsent', htx'⟩ := ih (fun q hq => h q (List.mem_cons_of_mem p hq))
        (waitStep v p.reading) (flush p.reading (p.air c))
      refine ⟨hsent'.trans hflush.1, ?_⟩
      rcases htx' with heq | hnil
      · rw [heq]
        exact hflush.2
      · exact .inr hnil

/-- **What a call does to the way out**: it sends everything there is, or it hands over, or it
flushes. -/
theorem transaction_tx {call : RadioCall} (h : call.LeavesTx) (c : Chip) :
    let c' := (call.transaction.run c).2
    if call.transmits then c'.sent = c.sent ++ [c.txFifo ++ call.handed] ∧ c'.txFifo = []
    else c'.sent = c.sent ∧
      (c'.txFifo = c.txFifo ++ call.handed ∨ call.discards = true ∧ c'.txFifo = []) := by
  have hnil : c.txFifo = c.txFifo ++ [] := (List.append_nil _).symm
  cases call with
  | init configSelect => exact ⟨rfl, .inr ⟨rfl, rfl⟩⟩
  | prepare payload payloadLen => exact ⟨rfl, .inl rfl⟩
  | transmit =>
    refine ⟨?_, rfl⟩
    show c.sent ++ [c.txFifo] = c.sent ++ [c.txFifo ++ []]
    rw [List.append_nil]
  | receiveOn => exact ⟨rfl, .inl hnil⟩
  | send payload payloadLen => exact ⟨rfl, rfl⟩
  | read buf bufLen =>
    have hread : (readOutcome c buf bufLen).2.sent = c.sent ∧
        (readOutcome c buf bufLen).2.txFifo = c.txFifo := by
      rw [readOutcome]
      split_ifs
      · exact ⟨rfl, rfl⟩
      · exact ⟨rfl, rfl⟩
    exact ⟨hread.1, .inl (hread.2.trans hnil)⟩
  | channelClear => exact ⟨rfl, .inl hnil⟩
  | waitForIdle maxHold polls =>
    obtain ⟨hsent, htx⟩ := waitDev_tx h maxHold ⟨0, 0⟩ c
    refine ⟨hsent, ?_⟩
    rcases htx with heq | hflushed
    · exact .inl (heq.trans hnil)
    · exact .inr ⟨rfl, hflushed⟩
  | setPwr txPwr => exact ⟨rfl, .inl hnil⟩
  | setFreq freq => exact ⟨rfl, .inl hnil⟩
  | idle => exact ⟨rfl, .inr ⟨rfl, rfl⟩⟩
  | sleep => exact ⟨rfl, .inl hnil⟩
  | wake => exact ⟨rfl, .inl hnil⟩
  | freqError => exact ⟨rfl, .inl hnil⟩
  | setTxUnmodulatedTestMode => exact ⟨rfl, .inl hnil⟩
  | setTxModulatedTestMode => exact ⟨rfl, .inl rfl⟩
  | getRssi => exact ⟨rfl, .inl hnil⟩
  | getDeviceId => exact ⟨rfl, .inl hnil⟩
  | setRfPacketLength length => exact ⟨rfl, .inl hnil⟩
  | getTxStatus => exact ⟨rfl, .inl hnil⟩
  | getRxStatus => exact ⟨rfl, .inl hnil⟩
  | spiReadReg addr pData len block => exact ⟨rfl, .inl hnil⟩
  | spiWriteReg addr pData len block => exact ⟨rfl, .inl hnil⟩
  | spiWriteTxFifo pData len => exact ⟨rfl, .inl rfl⟩
  | spiReadRxFifo pData len => exact ⟨rfl, .inl hnil⟩
  | air f =>
    obtain ⟨hsent, htx⟩ := h c
    exact ⟨hsent, .inl (htx.trans hnil)⟩

/-- The packets of a run without flushes, and what is left: a packet is all that was handed over
since the packet before. -/
def packets (held : List UInt8) : List RadioCall → List (List UInt8) × List UInt8
  | [] => ([], held)
  | call :: calls =>
    if call.transmits then
      ((held ++ call.handed) :: (packets [] calls).1, (packets [] calls).2)
    else packets (held ++ call.handed) calls

/-- Of what is handed over, some is flushed; what goes out is the rest, in order. -/
theorem outbound_sublist {calls : List RadioCall} (h : ∀ call ∈ calls, call.LeavesTx) (c : Chip) :
    (outbound ((SpiM.transactions transaction).after c calls)).Sublist
      (outbound c ++ calls.flatMap handed) := by
  induction calls generalizing c with
  | nil => simp
  | cons call calls ih =>
    have hrest := ih (fun s hmem => h s (List.mem_cons_of_mem call hmem)) (call.transaction.run c).2
    have hstep : (outbound (call.transaction.run c).2).Sublist (outbound c ++ call.handed) := by
      have htx := transaction_tx (h call List.mem_cons_self) c
      dsimp only at htx
      rw [outbound, outbound]
      split_ifs at htx with htransmits
      · rw [htx.1, htx.2]
        simp
      · rw [htx.1]
        rcases htx.2 with heq | ⟨-, hnil⟩
        · rw [heq, List.append_assoc]
        · rw [hnil, List.append_nil, List.append_assoc]
          exact List.sublist_append_left _ _
    rw [List.flatMap_cons, ← List.append_assoc]
    exact hrest.trans (hstep.append_right _)

/-- Every transmission is one packet, and what is on the air stays there. -/
theorem sent_after {calls : List RadioCall} (h : ∀ call ∈ calls, call.LeavesTx) (c : Chip) :
    ∃ sent, ((SpiM.transactions transaction).after c calls).sent = c.sent ++ sent ∧
      sent.length = calls.countP transmits := by
  induction calls generalizing c with
  | nil => exact ⟨[], (List.append_nil _).symm, rfl⟩
  | cons call calls ih =>
    obtain ⟨sent, hsent, hlength⟩ :=
      ih (fun s hmem => h s (List.mem_cons_of_mem call hmem)) (call.transaction.run c).2
    have htx := transaction_tx (h call List.mem_cons_self) c
    dsimp only at htx
    rw [SpiM.after_transactions_cons]
    split_ifs at htx with htransmits
    · refine ⟨(c.txFifo ++ call.handed) :: sent, ?_, ?_⟩
      · rw [hsent, htx.1, List.append_assoc, List.singleton_append]
      · rw [List.countP_cons_of_pos htransmits, List.length_cons, hlength]
    · refine ⟨sent, ?_, ?_⟩
      · rw [hsent, htx.1]
      · rw [List.countP_cons_of_neg htransmits, hlength]

/-- Without flushes, the packets are known. -/
theorem packets_after {calls : List RadioCall} (h : ∀ call ∈ calls, call.LeavesTx)
    (hkeep : ∀ call ∈ calls, call.discards = false) (c : Chip) :
    ((SpiM.transactions transaction).after c calls).sent
        = c.sent ++ (packets c.txFifo calls).1 ∧
      ((SpiM.transactions transaction).after c calls).txFifo = (packets c.txFifo calls).2 := by
  induction calls generalizing c with
  | nil => exact ⟨(List.append_nil _).symm, rfl⟩
  | cons call calls ih =>
    obtain ⟨hsent, hheld⟩ := ih (fun s hmem => h s (List.mem_cons_of_mem call hmem))
      (fun s hmem => hkeep s (List.mem_cons_of_mem call hmem)) (call.transaction.run c).2
    have htx := transaction_tx (h call List.mem_cons_self) c
    dsimp only at htx
    rw [SpiM.after_transactions_cons, packets]
    split_ifs at htx ⊢ with htransmits
    · rw [htx.2] at hsent hheld
      refine ⟨?_, hheld⟩
      rw [hsent, htx.1, List.append_assoc, List.singleton_append]
    · obtain ⟨hsame, heq | ⟨hdiscards, -⟩⟩ := htx
      · rw [heq] at hsent hheld
        refine ⟨?_, hheld⟩
        rw [hsent, hsame]
      · rw [hkeep call List.mem_cons_self] at hdiscards
        exact absurd hdiscards Bool.false_ne_true

/-! ### The packet format -/

/-- The bytes the TX FIFO has room for. -/
def txFifoSize : ℕ := 128

/-- How many bytes of the FIFO the radio sends as a packet: with the FIFO in use, `PKT_LEN` of them,
where zero stands for 256, or in the variable length format as many as the first one says, and that
one. None, if the packets come from elsewhere or have no length. -/
def packetLength (c : Chip) : Option ℕ :=
  if c.regs Reg.mdmcfg1.toNat &&& 0x40 = 0 ∨ c.regs Reg.pktCfg2.toNat &&& 0x03 ≠ 0 then none
  else if c.regs pktCfg0.toNat &&& 0x60 = 0x00 then
    some (if c.regs pktLen.toNat = 0 then 256 else (c.regs pktLen.toNat).toNat)
  else if c.regs pktCfg0.toNat &&& 0x60 = 0x20 then c.txFifo.head?.map fun n => n.toNat + 1
  else none

/-- `STX` on a radio that goes by its packet format. A FIFO that has run over or runs out sends no
packet. -/
def sendByFormat (c : Chip) : Chip :=
  match packetLength c with
  | some n =>
    if n ≤ c.txFifo.length ∧ c.txFifo.length ≤ txFifoSize then
      { c with sent := c.sent ++ [c.txFifo.take n], txFifo := c.txFifo.drop n }
    else c
  | none => c

/-- A call on such a radio. -/
def byFormat (call : RadioCall) : StateM Chip RadioReply := fun c =>
  if call.transmits then
    (.done, { sendByFormat (c.pushTx call.handed) with strobes := c.strobes ++ [stx] })
  else call.transaction.run c

/-- What the FIFO holds is one packet of the radio's format, and nothing else. -/
def HoldsPacket (c : Chip) : Prop :=
  packetLength c = some c.txFifo.length ∧ c.txFifo.length ≤ txFifoSize

instance (c : Chip) : Decidable (HoldsPacket c) := inferInstanceAs (Decidable (_ ∧ _))

/-- If the call transmits, it finds such a packet. -/
def WholePacket (c : Chip) (call : RadioCall) : Prop :=
  call.transmits = true → HoldsPacket (c.pushTx call.handed)

instance (c : Chip) (call : RadioCall) : Decidable (WholePacket c call) :=
  inferInstanceAs (Decidable (_ → _))

theorem sendByFormat_of_holdsPacket {c : Chip} (h : HoldsPacket c) :
    sendByFormat c = { c with sent := c.sent ++ [c.txFifo], txFifo := [] } := by
  rw [sendByFormat, h.1]
  dsimp only
  rw [if_pos ⟨le_rfl, h.2⟩, List.take_length, List.drop_length]

/-- Only such a packet goes out as it is. -/
theorem sent_sendByFormat_iff (c : Chip) :
    (sendByFormat c).sent = c.sent ++ [c.txFifo] ↔ HoldsPacket c := by
  have hself : c.sent ≠ c.sent ++ [c.txFifo] := by simp
  constructor
  · intro hsent
    rw [sendByFormat] at hsent
    split at hsent
    · next n hn =>
      split_ifs at hsent with hfits
      · have hone : [c.txFifo.take n] = [c.txFifo] := List.append_cancel_left hsent
        have htake : c.txFifo.length ≤ n := List.take_eq_self_iff _ |>.mp (List.cons.inj hone).1
        exact ⟨hn.trans (congrArg some (le_antisymm hfits.1 htake)), hfits.2⟩
      · exact absurd hsent hself
    · exact absurd hsent hself
  · intro h
    rw [sendByFormat_of_holdsPacket h]

theorem transaction_of_transmits {call : RadioCall} (h : call.transmits = true) (c : Chip) :
    call.transaction.run c = (.done, (c.pushTx call.handed).strobe stx) := by
  cases call with
  | transmit =>
    have hnone : c.pushTx [] = c := by
      rw [Chip.pushTx, List.append_nil]
    show _ = (RadioReply.done, (c.pushTx []).strobe stx)
    rw [hnone]
    rfl
  | send payload payloadLen => rfl
  | _ => exact absurd h Bool.false_ne_true

/-- Both radios do the same with a whole packet. -/
theorem byFormat_eq {c : Chip} {call : RadioCall} (h : WholePacket c call) :
    call.byFormat.run c = call.transaction.run c := by
  show byFormat call c = _
  rw [byFormat]
  split_ifs with htransmits
  · rw [transaction_of_transmits htransmits, sendByFormat_of_holdsPacket (h htransmits)]
    rfl
  · rfl

/-- **The driver on a radio that goes by its packet format**, as long as every transmission finds
one packet of it. -/
theorem driver_tracks_byFormat {calls : List RadioCall} {b : SpiBus Chip Phase}
    (hwhole : (SpiM.transactions byFormat).Along WholePacket b.dev calls) :
    Mealy.Tracks (SpiM.driver program) (SpiM.transactions byFormat) (fun b c => b.dev = c) b b.dev
      calls := by
  have hstep : ∀ (b : SpiBus Chip Phase) (c : Chip) (call : RadioCall), b.dev = c →
      WholePacket c call → (Mealy.Matches (SpiM.driver program) (SpiM.transactions byFormat)
        (fun b c => b.dev = c) b c call ↔ True) := by
    rintro b _ call rfl hcall
    have himp := implements_program call b
    rw [← byFormat_eq hcall] at himp
    exact iff_true_intro ⟨congrArg Prod.fst himp, congrArg Prod.snd himp⟩
  exact (Mealy.tracks_iff hstep rfl hwhole).mpr (Mealy.along_const_iff.mpr fun _ _ => trivial)

/-- A whole packet is the next of the packets. -/
theorem packets_cons_iff {call : RadioCall} (h : call.LeavesTx) (hkeep : call.discards = false)
    {c : Chip} (hwhole : WholePacket c call) (calls : List RadioCall) :
    let c' := (call.byFormat.run c).2
    ((SpiM.transactions byFormat).after c (call :: calls)).sent
        = c.sent ++ (packets c.txFifo (call :: calls)).1
      ↔ ((SpiM.transactions byFormat).after c' calls).sent
        = c'.sent ++ (packets c'.txFifo calls).1 := by
  intro c'
  have htx := transaction_tx h c
  rw [← byFormat_eq hwhole] at htx
  rw [SpiM.after_transactions_cons, packets]
  dsimp only at htx
  split_ifs at htx ⊢ with htransmits
  · show _ ↔ _ = (call.byFormat.run c).2.sent ++ (packets (call.byFormat.run c).2.txFifo calls).1
    rw [htx.1, htx.2, List.append_assoc, List.singleton_append]
  · obtain ⟨hsame, heq | ⟨hdiscards, -⟩⟩ := htx
    · show _ ↔ _ = (call.byFormat.run c).2.sent ++ (packets (call.byFormat.run c).2.txFifo calls).1
      rw [hsame, heq]
    · rw [hkeep] at hdiscards
      exact absurd hdiscards Bool.false_ne_true

/-- **When each packet is what was handed over for it.** On a radio that goes by its packet format,
and without flushes: exactly when every transmission finds one packet of that format. -/
theorem packets_iff {calls : List RadioCall} (h : ∀ call ∈ calls, call.LeavesTx)
    (hkeep : ∀ call ∈ calls, call.discards = false) (c : Chip) :
    (∀ pre, pre <+: calls → ((SpiM.transactions byFormat).after c pre).sent
        = c.sent ++ (packets c.txFifo pre).1)
      ↔ (SpiM.transactions byFormat).Along WholePacket c calls := by
  induction calls generalizing c with
  | nil =>
    refine iff_of_true ?_ trivial
    intro pre hpre
    rw [List.prefix_nil.mp hpre]
    exact (List.append_nil _).symm
  | cons call calls ih =>
    have hcall := h call List.mem_cons_self
    have hkeeps := hkeep call List.mem_cons_self
    have hrest := ih (fun s hmem => h s (List.mem_cons_of_mem call hmem))
      (fun s hmem => hkeep s (List.mem_cons_of_mem call hmem)) (call.byFormat.run c).2
    rw [Mealy.along_cons]
    constructor
    · intro hall
      have hwhole : WholePacket c call := by
        intro htransmits
        have hone := hall [call] (List.prefix_append [call] calls)
        rw [SpiM.after_transactions_cons, packets, if_pos htransmits] at hone
        have hsent : (call.byFormat.run c).2.sent = (sendByFormat (c.pushTx call.handed)).sent := by
          show (byFormat call c).2.sent = _
          rw [byFormat, if_pos htransmits]
        exact (sent_sendByFormat_iff _).mp (hsent.symm.trans hone)
      refine ⟨hwhole, hrest.mp fun pre hpre => ?_⟩
      exact (packets_cons_iff hcall hkeeps hwhole pre).mp
        (hall (call :: pre) ((List.prefix_cons_inj call).mpr hpre))
    · rintro ⟨hwhole, halong⟩ pre hpre
      cases pre with
      | nil => exact (List.append_nil _).symm
      | cons call' pre =>
        obtain ⟨rfl, htail⟩ := List.cons_prefix_cons.mp hpre
        exact (packets_cons_iff hcall hkeeps hwhole pre).mpr (hrest.mpr halong pre htail)

/-- **What a run of the driver puts on the air.** Over any list of calls in which every transmission
finds one packet of the radio's format: the radio is as one that goes by its packet format. What has
gone out, followed by what is to follow, is what was handed over, in order, with nothing twice and
only flushed bytes missing; there is one packet for each transmitting call. If nothing was flushed,
each packet is all that was handed over since the packet before it. -/
theorem driver_outbound {calls : List RadioCall} (h : ∀ call ∈ calls, call.LeavesTx)
    {b : SpiBus Chip Phase}
    (hwhole : (SpiM.transactions byFormat).Along WholePacket b.dev calls) :
    let c := ((SpiM.driver program).after b calls).dev
    c = (SpiM.transactions byFormat).after b.dev calls ∧
      (outbound c).Sublist (outbound b.dev ++ calls.flatMap handed) ∧
      (∃ sent, c.sent = b.dev.sent ++ sent ∧ sent.length = calls.countP transmits) ∧
      ((∀ call ∈ calls, call.discards = false) →
        c.sent = b.dev.sent ++ (packets b.dev.txFifo calls).1 ∧
          c.txFifo = (packets b.dev.txFifo calls).2) := by
  intro c
  have hc : c = (SpiM.transactions transaction).after b.dev calls := dev_after calls b
  refine ⟨(driver_tracks_byFormat hwhole calls List.prefix_rfl).2, ?_⟩
  rw [hc]
  exact ⟨outbound_sublist h b.dev, sent_after h b.dev, fun hkeep => packets_after h hkeep b.dev⟩

/-- The radio is set to the FIFO and to packets of three bytes; two are handed over by
`radio_prepare`, and one by `cc112xSpiWriteTxFifo`, which is asked for three. -/
def threeBytes : List RadioCall := [
  spiWriteReg Reg.mdmcfg1 (localByte 0x46) 1 (by decide), setRfPacketLength 3,
  prepare (localByte 7) 2, spiWriteTxFifo (localByte 8) 3, transmit]

/-- They go out as one packet. -/
theorem driver_outbound_threeBytes :
    ((SpiM.driver program).after resetBus threeBytes).dev.sent = [[7, 7, 8]] :=
  have h : ∀ call ∈ threeBytes, call.LeavesTx := by
    simp [threeBytes, LeavesTx]
  have hwhole : (SpiM.transactions byFormat).Along WholePacket resetBus.dev threeBytes :=
    ⟨by decide, by decide, by decide, by decide, by decide, trivial⟩
  ((driver_outbound h hwhole).2.2.2 (by simp [threeBytes, discards])).1

end RadioCall

end Wise1511
