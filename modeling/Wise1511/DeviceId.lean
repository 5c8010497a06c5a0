import Wise1511.ConfigLoaders

/-!
# Identifying the radio

The driver's `get_device_id` reads `PARTNUMBER` and `PARTVERSION` with one framed read access each.
The factory test `Read_RF_ID` sends a reset, a settings table and both accesses inside one frame,
and reports what comes back.

The chip's decoder is where it should be when the two accesses come: each of the table's settings is
a whole access. But the headers of these two lack the read bit. They are writes of the byte
that is sent to shift the value out, and what is shifted out meanwhile is the chip's status.

## Main results

* `run_readRfId` — `Read_RF_ID` is one frame
* `readRfId_never_identifies` — what it reports and what it does, on every chip
-/

namespace Wise1511

section Programs

variable {σ φ : Type} (S : SpiSlave σ φ)

/-- The two reads of `get_device_id`. -/
def readPart : SpiM σ φ (UInt8 × UInt8) := do
  let retPartnum ← readExt S partnumber
  let retVersion ← readExt S partversion
  pure (retPartnum, retVersion)

/-- The `switch (ret_partnum)` of `get_device_id`. -/
def deviceOf (retPartnum : UInt8) : UInt8 :=
  match retPartnum with
  | 0x40 => devCc1121
  | 0x48 => devCc1120
  | 0x58 => devCc1125
  | 0x5A => devCc1175
  | _ => devUnknown

/-- `get_device_id`. The version is read and not used. -/
def getDeviceId : SpiM σ φ UInt8 := do
  let part ← readPart S
  pure (deviceOf part.1)

end Programs

/-! ### The frame of `Read_RF_ID` -/

/-- The bytes of a setting. -/
def settingBytes (r : RegisterSetting) : List UInt8 :=
  if r.addr < 0x2F then [r.addr.toUInt8, r.data] else [0x2F, low r.addr, r.data]

/-- The bytes up to the end of the table. -/
def readRfIdTable : List UInt8 :=
  sres :: (byteCounted preferredSettings1200bps).flatMap settingBytes

/-- The two accesses after the table. -/
def readRfIdAccesses : List UInt8 := [0x2F, low partnumber, 0x00, 0x2F, low partversion, 0x00]

/-- The bytes `Read_RF_ID` sends. -/
def readRfIdFrame : List UInt8 := readRfIdTable ++ readRfIdAccesses

variable {σ φ : Type} (S : SpiSlave σ φ)

theorem run_readRfIdSetting (r : RegisterSetting) (b : SpiBus σ φ) :
    (readRfIdSetting S r).run b = ((), b.feed S (settingBytes r)) := by
  rw [readRfIdSetting, settingBytes]
  split_ifs
  · simp only [SpiM.run_bind, SpiM.run_pure, SpiSlave.run_write, ← SpiBus.feed_append,
      List.cons_append, List.nil_append]
  · simp only [SpiM.run_bind, SpiM.run_pure, SpiSlave.run_write, ← SpiBus.feed_append,
      List.cons_append, List.nil_append]

theorem run_settingsLoop_feed (settings : List RegisterSetting) (b : SpiBus σ φ) :
    (settingsLoop (readRfIdSetting S) settings).run b
      = ((), b.feed S (settings.flatMap settingBytes)) := by
  induction settings generalizing b with
  | nil => rw [settingsLoop, SpiM.run_pure, List.flatMap_nil, SpiBus.feed_nil]
  | cons r rs ih =>
    rw [settingsLoop, SpiM.run_bind, run_readRfIdSetting, ih, List.flatMap_cons,
      SpiBus.feed_append]

theorem run_readRfIdLoad_feed (b : SpiBus σ φ) :
    (readRfIdLoad S preferredSettings1200bps).run b
      = ((), (b.fall S).feed S readRfIdTable) := by
  rw [readRfIdLoad, SpiM.run_bind, SpiM.run_bind, S.run_select, S.run_write, run_settingsLoop_feed,
    ← SpiBus.feed_cons]
  rfl

theorem run_readRfIdBytes_feed (b : SpiBus σ φ) :
    (readRfIdBytes S).run b
      = (((b.replies S readRfIdAccesses).getD 2 0, (b.replies S readRfIdAccesses).getD 5 0),
          (b.feed S readRfIdAccesses).rise S) := by
  simp only [readRfIdBytes, SpiM.run_bind, SpiM.run_pure, SpiSlave.run_write,
    SpiSlave.run_deselect, ← SpiBus.feed_append, List.cons_append, List.nil_append]
  rfl

/-- **`Read_RF_ID` is one frame.** The two values are what comes back with its last byte and with
the last byte but three. -/
theorem run_readRfId (b : SpiBus σ φ) :
    (readRfId S).run b =
      ((((b.frameReplies S readRfIdFrame).drop readRfIdTable.length).getD 2 0,
          ((b.frameReplies S readRfIdFrame).drop readRfIdTable.length).getD 5 0),
        b.frame S readRfIdFrame) := by
  rw [readRfIdFrame, SpiBus.drop_frameReplies, SpiBus.frame, SpiBus.feed_append, readRfId,
    SpiM.run_bind, run_readRfIdLoad_feed, run_readRfIdBytes_feed]

/-! ### What it does to the chip -/

variable (view : Chip → ℕ → UInt8)

/-- The next byte is written to the register. -/
def Writes (addr : ℕ) (s : Chip × Phase) : Prop := ∃ burst, s.2 = .reg false burst addr

/-- One of the bytes of a frame is written to the register. -/
def FrameWrites (addr : ℕ) (c : Chip) (frame : List UInt8) : Prop :=
  ¬ (cc112x view).Along (fun s _ => ¬ Writes addr s) (c, .header) frame

theorem after_settingBytes {r : RegisterSetting} (hr : InSpaces r.addr) (c : Chip) :
    (cc112x view).after (c, .header) (settingBytes r)
      = (c.writeReg r.addr.toNat r.data, .header) := by
  have hstore := storesSettings_readRfId view r ⟨c, .header, [], []⟩ hr rfl
  rw [run_readRfIdSetting] at hstore
  exact Prod.ext hstore.1 hstore.2

/-- Settings change registers and nothing else. -/
theorem after_settings {settings : List RegisterSetting} (hs : ∀ r ∈ settings, InSpaces r.addr)
    (c : Chip) : ∃ regs, (cc112x view).after (c, .header) (settings.flatMap settingBytes)
      = ({ c with regs := regs }, .header) := by
  induction settings generalizing c with
  | nil => exact ⟨c.regs, rfl⟩
  | cons r rs ih =>
    obtain ⟨regs, hregs⟩ := ih (fun s hmem => hs s (List.mem_cons_of_mem r hmem))
      (c.writeReg r.addr.toNat r.data)
    refine ⟨regs, ?_⟩
    rw [List.flatMap_cons, Mealy.after_append, after_settingBytes view (hs r List.mem_cons_self),
      hregs]
    rfl

/-- After the table the chip expects a header, and its status is what it was. -/
theorem after_readRfIdTable (c : Chip) :
    ∃ c', (cc112x view).after (c, .header) readRfIdTable = (c', .header) ∧
      c'.status = c.status := by
  have hstrobe : ((cc112x view).step (c, .header) sres).1 = (c.strobe sres, .header) :=
    decodeHeader_strobe c (show IsStrobe sres by decide)
  have hspaces : ∀ r ∈ byteCounted preferredSettings1200bps, InSpaces r.addr := fun r hr =>
    (radioTable 1).inSpaces r (List.mem_of_mem_take hr)
  obtain ⟨regs, hregs⟩ := after_settings view hspaces (c.strobe sres)
  refine ⟨{ c.strobe sres with regs := regs }, ?_, rfl⟩
  rw [readRfIdTable, Mealy.after_cons, hstrobe, hregs]

/-- In the two accesses the status comes back twice. -/
theorem outputs_readRfIdAccesses (c : Chip) :
    (cc112x view).outputs (c, .header) readRfIdAccesses
      = [c.status, 0, c.status, c.status, 0, c.status] := rfl

/-- What `Read_RF_ID` reports: the chip's status, twice. -/
theorem run_readRfId_status (b : SpiBus Chip Phase) :
    ((readRfId (cc112x view)).run b).1 = (b.dev.status, b.dev.status) := by
  obtain ⟨c', hafter, hstatus⟩ := after_readRfIdTable view b.dev
  have hstate : (((b.fall (cc112x view)).feed (cc112x view) readRfIdTable).dev,
      ((b.fall (cc112x view)).feed (cc112x view) readRfIdTable).phase) = (c', .header) :=
    (feed_dev_phase _ _ _).trans hafter
  have hout : (b.frameReplies (cc112x view) readRfIdFrame).drop readRfIdTable.length
      = [c'.status, 0, c'.status, c'.status, 0, c'.status] := by
    rw [readRfIdFrame, SpiBus.drop_frameReplies, SpiBus.replies, hstate, outputs_readRfIdAccesses]
  rw [run_readRfId, hout, ← hstatus]
  rfl

/-! ### The driver's reads -/

/-- The driver reads the two registers and leaves the chip as it was. -/
theorem run_readPart (b : SpiBus Chip Phase) :
    let r := (readPart (cc112x view)).run b
    r.1 = (view b.dev partnumber.toNat, view b.dev partversion.toNat) ∧ r.2.dev = b.dev := by
  obtain ⟨hpart, hdev⟩ := run_readExt view (n := 0x8F) (by omega) b
  have hdev' : ((readExt (cc112x view) partnumber).run b).2.dev = b.dev := hdev
  obtain ⟨hversion, hdev₂⟩ := run_readExt view (n := 0x90) (by omega)
    ((readExt (cc112x view) partnumber).run b).2
  rw [hdev'] at hversion hdev₂
  exact ⟨Prod.ext hpart hversion, hdev₂⟩

/-- The device id is that of the part number. -/
theorem run_getDeviceId (b : SpiBus Chip Phase) :
    ((getDeviceId (cc112x view)).run b).1 = deviceOf (view b.dev partnumber.toNat) := by
  rw [getDeviceId, SpiM.run_bind, SpiM.run_pure, (run_readPart view b).1]

/-! ### Agreement -/

/-- `Read_RF_ID` reports the two registers, as the driver reads them, and writes neither. -/
structure Identifies (b : SpiBus Chip Phase) : Prop where
  /-- The values are those of the registers. -/
  values : ((readRfId (cc112x view)).run b).1
    = (view b.dev partnumber.toNat, view b.dev partversion.toNat)
  /-- They are what the driver reads. -/
  agrees : ((readRfId (cc112x view)).run b).1 = ((readPart (cc112x view)).run b).1
  /-- None of the bytes sent is written to them. -/
  untouched : ¬ FrameWrites view partnumber.toNat b.dev readRfIdFrame ∧
    ¬ FrameWrites view partversion.toNat b.dev readRfIdFrame

/-- Both registers are written in the frame. -/
theorem readRfIdFrame_writes (c : Chip) :
    FrameWrites view partnumber.toNat c readRfIdFrame ∧
      FrameWrites view partversion.toNat c readRfIdFrame := by
  obtain ⟨c', hafter, -⟩ := after_readRfIdTable view c
  rw [FrameWrites, FrameWrites, readRfIdFrame, Mealy.along_append, Mealy.along_append, hafter]
  refine ⟨fun ⟨_, h⟩ => ?_, fun ⟨_, h⟩ => ?_⟩
  · exact h.2.2.1 ⟨false, rfl⟩
  · exact h.2.2.2.2.2.1 ⟨false, rfl⟩

/-- **`Read_RF_ID` never identifies the radio.** On every chip it is one frame that reports the
status byte twice and writes both registers. The driver's two reads give the registers' values and
leave the chip as it was. -/
theorem readRfId_never_identifies (b : SpiBus Chip Phase) :
    ((readRfId (cc112x view)).run b).1 = (b.dev.status, b.dev.status) ∧
      ((readRfId (cc112x view)).run b).2 = b.frame (cc112x view) readRfIdFrame ∧
      ((readPart (cc112x view)).run b).1
        = (view b.dev partnumber.toNat, view b.dev partversion.toNat) ∧
      ((readPart (cc112x view)).run b).2.dev = b.dev ∧
      FrameWrites view partnumber.toNat b.dev readRfIdFrame ∧
      FrameWrites view partversion.toNat b.dev readRfIdFrame ∧ ¬ Identifies view b := by
  obtain ⟨hpart, hversion⟩ := readRfIdFrame_writes view b.dev
  refine ⟨run_readRfId_status view b, ?_, (run_readPart view b).1, (run_readPart view b).2, hpart,
    hversion, fun h => h.untouched.1 hpart⟩
  rw [run_readRfId]

/-- A CC1120 with the status `0x0F`. -/
def cc1120 : Chip where
  regs a := if a = partnumber.toNat then 0x48 else if a = partversion.toNat then 0x21 else 0
  resetRegs a := if a = partnumber.toNat then 0x48 else if a = partversion.toNat then 0x21 else 0
  rxFifo := []
  txFifo := []
  sent := []
  strobes := []
  status := 0x0F
  underrun := 0

/-- Of this chip the driver says that it is a CC1120, and `Read_RF_ID` reports `0x0F` twice. -/
theorem not_identifies_cc1120 :
    ((getDeviceId (cc112x plainView)).run { resetBus with dev := cc1120 }).1 = devCc1120 ∧
      ((readRfId (cc112x plainView)).run { resetBus with dev := cc1120 }).1 = (0x0F, 0x0F) ∧
      ¬ Identifies plainView { resetBus with dev := cc1120 } := by
  have hrun := run_readRfId_status plainView { resetBus with dev := cc1120 }
  refine ⟨run_getDeviceId plainView _, hrun, ?_⟩
  intro h
  have hvalues : ((0x0F : UInt8), (0x0F : UInt8)) = (0x48, 0x21) := hrun.symm.trans h.values
  exact absurd hvalues (by decide)

end Wise1511
