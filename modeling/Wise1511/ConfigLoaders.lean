import Wise1511.ConfigTables
import Wise1511.RadioDriver

/-!
# The three configuration loaders

A register settings table reaches the chip in three ways. `radio_init` makes one single access per
setting and splits on `addr < 0x2F`; `registerConfig` makes bursts of length one through
`cc112xSpiWriteReg`, which splits on the high address byte; `Read_RF_ID` sends everything, its own
reset strobe included, inside one frame. Each is given here with its table as a parameter.

A configuration table is a list of settings with addresses in the two register spaces, and what it
means is `applyTable`: overwrite the reset values in order. The common invariant is that a loop
body, entered where the chip expects a header byte, stores its setting and leaves the chip
expecting a header again. For the framed bodies this is free; for `Read_RF_ID` it is the whole
point, since one stray byte would shift everything after it.

`registerConfig` does not load an empty table. It is written to fall back to its default table when
`number == 0`, so the loaders agree on nonempty tables.

## Main results

* `StoresSettings.run_settingsLoop` — the loop rule
* `run_radioInitWith`, `run_registerConfig`, `run_readRfIdLoad` — each loader
* `loaders_agree` — all three
-/

namespace Wise1511

section Programs

variable {σ φ : Type} (S : SpiSlave σ φ)

/-- `for (i = 0; i < …; i++)` over the settings that are left. -/
def settingsLoop (body : RegisterSetting → SpiM σ φ Unit) : List RegisterSetting → SpiM σ φ Unit
  | [] => pure ()
  | r :: rs => do
    body r
    settingsLoop body rs

/-- The part of a table that a loop with an eight-bit length goes through. -/
def byteCounted (settings : List RegisterSetting) : List RegisterSetting :=
  settings.take (UInt8.ofNat settings.length).toNat

/-- The loop body of `radio_init`. -/
def radioInitSetting (r : RegisterSetting) : SpiM σ φ Unit :=
  if r.addr < 0x2F then do
    let _ ← trx8BitRegAccess S radioWriteAccess r.addr.toUInt8 (localByte r.data) 1
    pure ()
  else do
    let _ ← trx16BitRegAccess S radioWriteAccess 0x2F (low r.addr) (localByte r.data) 1
    pure ()

/-- `radio_init` with any table in place of its own: the reset, and the write loop. -/
def radioInitWith (settings : List RegisterSetting) : SpiM σ φ Unit := do
  let _ ← trxSpiCmdStrobe S sres
  settingsLoop (radioInitSetting S) (byteCounted settings)

/-- The `switch (config_select)` of `radio_init`: the table and the bit rate. -/
def radioSettings (configSelect : UInt8) : List RegisterSetting × UInt32 :=
  match configSelect with
  | 1 => (preferredSettings1200bps, 12)
  | 2 => (preferredSettings38400bps, 384)
  | 3 => (preferredSettings50kbps, 500)
  | _ => (preferredSettings1200bps, 12)

/-- `radio_init`. -/
def radioInit (configSelect : UInt8) : SpiM σ φ UInt32 := do
  radioInitWith S (radioSettings configSelect).1
  pure (radioSettings configSelect).2

/-- The loop body of `registerConfig`. -/
def registerConfigSetting (r : RegisterSetting) : SpiM σ φ Unit := do
  let _ ← cc112xSpiWriteReg S r.addr (localByte r.data) 1
  pure ()

/-- `registerConfig`. A `number` that the sixteen-bit loop counter never reaches is left out. -/
def registerConfig (preferred : Option (List RegisterSetting)) (number : UInt16) :
    SpiM σ φ Unit := do
  let settings := match preferred with
    | none => preferredSettings
    | some settings => if number = 0 then preferredSettings else settings.take number.toNat
  let _ ← trxSpiCmdStrobe S sres
  settingsLoop (registerConfigSetting S) settings

/-- The loop body of `Read_RF_ID`: bytes of the frame under way. -/
def readRfIdSetting (r : RegisterSetting) : SpiM σ φ Unit :=
  if r.addr < 0x2F then do
    let _ ← S.write r.addr.toUInt8
    let _ ← S.write r.data
    pure ()
  else do
    let _ ← S.write 0x2F
    let _ ← S.write (low r.addr)
    let _ ← S.write r.data
    pure ()

/-- `Read_RF_ID` up to the end of its write loop, with any table in place of its own. The frame is
still open. -/
def readRfIdLoad (settings : List RegisterSetting) : SpiM σ φ Unit := do
  S.select
  let _ ← S.write sres
  settingsLoop (readRfIdSetting S) (byteCounted settings)

/-- The end of `Read_RF_ID`, giving `rx[0]` and `rx[1]`. -/
def readRfIdBytes : SpiM σ φ (UInt8 × UInt8) := do
  -- neither header has the read bit
  let _ ← S.write 0x2F
  let _ ← S.write (low partnumber)
  let rx₀ ← S.write 0x00
  let _ ← S.write 0x2F
  let _ ← S.write (low partversion)
  let rx₁ ← S.write 0x00
  S.deselect
  pure (rx₀, rx₁)

/-- `Read_RF_ID`, the bus and chip select being those of its index. -/
def readRfId : SpiM σ φ (UInt8 × UInt8) := do
  readRfIdLoad S preferredSettings1200bps
  readRfIdBytes S

end Programs

/-! ### Tables -/

/-- The address is in the standard or in the extended space. -/
def InSpaces (addr : UInt16) : Prop :=
  addr.toNat ≤ 0x2E ∨ (0x2F00 ≤ addr.toNat ∧ addr.toNat ≤ 0x2FFF)

instance (addr : UInt16) : Decidable (InSpaces addr) := inferInstanceAs (Decidable (_ ∨ _))

/-- A table the loaders are meant for. Order is free and addresses may repeat. -/
structure ConfigTable where
  settings : List RegisterSetting
  length_le : settings.length ≤ 255
  inSpaces : ∀ r ∈ settings, InSpaces r.addr

/-- Overwrite registers by a table, in order. -/
def applyTable (regs : CArray) (settings : List RegisterSetting) : CArray :=
  settings.foldl (fun rs r => Function.update rs r.addr.toNat r.data) regs

/-- The last setting of an address, if the table has one. -/
def lastSetting (settings : List RegisterSetting) (a : ℕ) : Option RegisterSetting :=
  settings.reverse.find? fun r => r.addr.toNat = a

@[simp] theorem applyTable_nil (regs : CArray) : applyTable regs [] = regs := rfl

@[simp] theorem applyTable_cons (regs : CArray) (r : RegisterSetting)
    (settings : List RegisterSetting) :
    applyTable regs (r :: settings)
      = applyTable (Function.update regs r.addr.toNat r.data) settings := rfl

theorem applyTable_concat (regs : CArray) (settings : List RegisterSetting) (r : RegisterSetting) :
    applyTable regs (settings ++ [r])
      = Function.update (applyTable regs settings) r.addr.toNat r.data := by
  simp [applyTable]

/-- The last setting of an address wins, and an unlisted register keeps its value. -/
theorem applyTable_apply (regs : CArray) (settings : List RegisterSetting) (a : ℕ) :
    applyTable regs settings a
      = ((lastSetting settings a).map RegisterSetting.data).getD (regs a) := by
  induction settings using List.reverseRecOn with
  | nil => rfl
  | append_singleton settings r ih =>
    rw [applyTable_concat, lastSetting, List.reverse_append, List.reverse_singleton,
      List.singleton_append, List.find?_cons]
    by_cases h : r.addr.toNat = a
    · simp [h]
    · rw [Function.update_of_ne (Ne.symm h), ih]
      simp [h, lastSetting]

/-- Every table in the repository is one the loaders are meant for. -/
theorem inSpaces_tables :
    ∀ t ∈ [preferredSettings1200bps, preferredSettings38400bps, preferredSettings50kbps,
      preferredSettings], t.length ≤ 255 ∧ ∀ r ∈ t, InSpaces r.addr := by
  decide

/-! ### The loop rule -/

/-- Entered at a header, the body stores its setting and is back at a header. -/
def StoresSettings (body : RegisterSetting → SpiM Chip Phase Unit) : Prop :=
  ∀ r b, InSpaces r.addr → b.phase = .header →
    ((body r).run b).2.dev = b.dev.writeReg r.addr.toNat r.data ∧
      ((body r).run b).2.phase = .header

theorem StoresSettings.run_settingsLoop {body : RegisterSetting → SpiM Chip Phase Unit}
    (h : StoresSettings body) {settings : List RegisterSetting}
    (hs : ∀ r ∈ settings, InSpaces r.addr) {b : SpiBus Chip Phase} (hb : b.phase = .header) :
    ((settingsLoop body settings).run b).2.dev
        = { b.dev with regs := applyTable b.dev.regs settings } ∧
      ((settingsLoop body settings).run b).2.phase = .header := by
  induction settings generalizing b with
  | nil => exact ⟨rfl, hb⟩
  | cons r rs ih =>
    obtain ⟨hdev, hphase⟩ := h r b (hs r List.mem_cons_self) hb
    have hrest := ih (fun s hmem => hs s (List.mem_cons_of_mem r hmem)) hphase
    rw [settingsLoop, SpiM.run_bind, applyTable_cons]
    refine ⟨?_, hrest.2⟩
    rw [hrest.1, hdev]
    rfl

variable (view : Chip → ℕ → UInt8)

/-! ### The three bodies -/

theorem addr_cases {addr : UInt16} (h : InSpaces addr) :
    (addr < 0x2F ∧ ∃ n < 0x2F, addr = UInt16.ofNat n ∧ addr.toNat = n) ∨
      (¬ addr < 0x2F ∧ ∃ n < 0x100, addr = UInt16.ofNat (0x2F00 + n) ∧
        addr.toNat = 0x2F00 + n) := by
  rw [UInt16.lt_iff_toNat_lt]
  rcases h with h | ⟨hlo, hhi⟩
  · left
    exact ⟨Nat.lt_succ_of_le h, addr.toNat, Nat.lt_succ_of_le h, UInt16.ofNat_toNat.symm, rfl⟩
  · right
    obtain ⟨n, hn⟩ := Nat.exists_eq_add_of_le hlo
    refine ⟨?_, n, by omega, ?_, hn⟩
    · exact Nat.not_lt.mpr (le_trans (by decide) hlo)
    · rw [← hn, UInt16.ofNat_toNat]

theorem toUInt8_std : ∀ n < 0x2F, (UInt16.ofNat n).toUInt8 = UInt8.ofNat n := by decide +kernel

/-- A write access of one register from a local byte stores that byte. -/
theorem accessDev_localByte {t : UInt8} (ht : isRead t = false) (a : ℕ) (v : UInt8) (c : Chip) :
    accessDev t a 1 (localByte v) c = c.writeReg a v := by
  rw [accessDev, ht]
  rfl

theorem storesSettings_radioInit : StoresSettings (radioInitSetting (cc112x view)) := by
  have hmem : radioWriteAccess ∈ accessTypes := by decide
  intro r b hr _
  rw [radioInitSetting]
  rcases addr_cases hr with ⟨hlt, n, hn, haddr, hnat⟩ | ⟨hge, n, hn, haddr, hnat⟩
  · rw [if_pos hlt, SpiM.run_bind, SpiM.run_pure, haddr, toUInt8_std n hn, ← haddr, hnat]
    refine ⟨?_, by rw [run_trx8BitRegAccess]; rfl⟩
    rw [(run_trx8_std view hmem hn _ _ b).2]
    exact accessDev_localByte rfl n r.data b.dev
  · rw [if_neg hge, SpiM.run_bind, SpiM.run_pure, haddr, low_ext n hn, ← haddr, hnat]
    refine ⟨?_, by rw [run_trx16BitRegAccess]; rfl⟩
    refine (run_trx16_ext view hmem hn _ 1 b).2.trans ?_
    exact accessDev_localByte rfl (0x2F00 + n) r.data b.dev

theorem phase_cc112xSpiWriteReg {S : SpiSlave Chip Phase} {b : SpiBus Chip Phase}
    (hb : b.phase = S.start) (addr : UInt16) (pData : CArray) (len : UInt8) :
    ((cc112xSpiWriteReg S addr pData len).run b).2.phase = S.start := by
  rw [cc112xSpiWriteReg, cc112xSpiReg]
  split_ifs
  · exact hb
  · rw [run_trx8BitRegAccess]; rfl
  · rw [run_trx16BitRegAccess]; rfl
  · exact hb

theorem storesSettings_registerConfig : StoresSettings (registerConfigSetting (cc112x view)) := by
  have hmem : radioBurstAccess ||| radioWriteAccess ∈ accessTypes := by decide
  intro r b hr hb
  have hone : (1 : UInt8).toNat = 1 := rfl
  have hblock : BlockInSpace r.addr 1 := by
    rw [BlockInSpace, hone]
    rcases hr with h | ⟨hlo, hhi⟩ <;> omega
  rw [registerConfigSetting, SpiM.run_bind, SpiM.run_pure]
  refine ⟨?_, phase_cc112xSpiWriteReg hb _ _ _⟩
  rw [cc112xSpiWriteReg, (run_cc112xSpiReg view hmem rfl hblock _ b).2]
  exact accessDev_localByte rfl _ _ _

/-- Inside a frame a body is right if its bytes are. -/
theorem feed_dev_phase (S : SpiSlave Chip Phase) (b : SpiBus Chip Phase) (bytes : List UInt8) :
    ((b.feed S bytes).dev, (b.feed S bytes).phase) = S.after (b.dev, b.phase) bytes := rfl

theorem storesSettings_readRfId : StoresSettings (readRfIdSetting (cc112x view)) := by
  have hmem : radioWriteAccess ∈ accessTypes := by decide
  intro r b hr hb
  rw [readRfIdSetting]
  rcases addr_cases hr with ⟨hlt, n, hn, haddr, hnat⟩ | ⟨hge, n, hn, haddr, hnat⟩
  · have hhead : b.dev.decodeHeader (UInt8.ofNat n) = (b.dev, .reg false false n) := by
      have := decodeHeader_std b.dev hmem hn
      rwa [show radioWriteAccess ||| UInt8.ofNat n = UInt8.ofNat n from UInt8.zero_or] at this
    have hafter : (cc112x view).after (b.dev, b.phase) [UInt8.ofNat n, r.data]
        = (b.dev.writeReg n r.data, .header) := by
      rw [hb, Mealy.after_cons, show ((cc112x view).step (b.dev, .header) (UInt8.ofNat n)).1
        = (b.dev, .reg false false n) from hhead]
      rfl
    rw [if_pos hlt, haddr, toUInt8_std n hn, ← haddr, hnat]
    simp only [SpiM.run_bind, SpiM.run_pure, SpiSlave.run_write, ← SpiBus.feed_cons]
    exact Prod.ext_iff.mp ((feed_dev_phase _ b _).trans hafter)
  · have hafter : (cc112x view).after (b.dev, b.phase) [0x2F, UInt8.ofNat n, r.data]
        = (b.dev.writeReg (0x2F00 + n) r.data, .header) := by
      have hnat' : (UInt8.ofNat n).toNat = n := by
        rw [UInt8.toNat_ofNat']; exact Nat.mod_eq_of_lt hn
      rw [hb, Mealy.after_cons, show ((cc112x view).step (b.dev, .header) 0x2F).1
        = (b.dev, .extAddr false false) from decodeHeader_ext b.dev hmem]
      show (b.dev.writeReg (0x2F00 + (UInt8.ofNat n).toNat) r.data, Phase.header) = _
      rw [hnat']
    rw [if_neg hge, haddr, low_ext n hn, ← haddr, hnat]
    simp only [SpiM.run_bind, SpiM.run_pure, SpiSlave.run_write, ← SpiBus.feed_cons]
    exact Prod.ext_iff.mp ((feed_dev_phase _ b _).trans hafter)

/-! ### The loaders -/

theorem byteCounted_eq {settings : List RegisterSetting} (h : settings.length ≤ 255) :
    byteCounted settings = settings := by
  rw [byteCounted, UInt8.toNat_ofNat', Nat.mod_eq_of_lt (by omega)]
  exact List.take_of_length_le le_rfl

theorem strobe_sres_regs (c : Chip) : (c.strobe sres).regs = c.resetRegs := rfl

/-- Reset the chip in a frame of its own, then load. -/
theorem StoresSettings.run_load {body : RegisterSetting → SpiM Chip Phase Unit}
    (h : StoresSettings body) {settings : List RegisterSetting}
    (hs : ∀ r ∈ settings, InSpaces r.addr) (b : SpiBus Chip Phase) :
    ((settingsLoop body settings).run ((trxSpiCmdStrobe (cc112x view) sres).run b).2).2.dev.regs
      = applyTable b.dev.resetRegs settings := by
  have hphase : ((trxSpiCmdStrobe (cc112x view) sres).run b).2.phase = .header := by
    rw [run_trxSpiCmdStrobe]; rfl
  rw [(h.run_settingsLoop hs hphase).1, run_trxSpiCmdStrobe_dev view (by decide)]
  exact congrArg (applyTable · settings) (strobe_sres_regs b.dev)

theorem run_radioInitWith (t : ConfigTable) (b : SpiBus Chip Phase) :
    ((radioInitWith (cc112x view) t.settings).run b).2.dev.regs
      = applyTable b.dev.resetRegs t.settings := by
  rw [radioInitWith, byteCounted_eq t.length_le, SpiM.run_bind]
  exact (storesSettings_radioInit view).run_load view t.inSpaces b

/-- `registerConfig` loads the table it is given, or its default table when that is empty. -/
theorem run_registerConfig (t : ConfigTable) (b : SpiBus Chip Phase) :
    ((registerConfig (cc112x view) (some t.settings) (UInt16.ofNat t.settings.length)).run
        b).2.dev.regs
      = applyTable b.dev.resetRegs (if t.settings = [] then preferredSettings else t.settings) := by
  have hlen := t.length_le
  have hnum : (UInt16.ofNat t.settings.length).toNat = t.settings.length := by
    rw [UInt16.toNat_ofNat']; exact Nat.mod_eq_of_lt (by omega)
  have hzero : UInt16.ofNat t.settings.length = 0 ↔ t.settings = [] := by
    rw [← UInt16.toNat_inj, hnum]
    exact List.length_eq_zero_iff
  simp only [registerConfig, hzero, hnum, List.take_length, SpiM.run_bind]
  refine (storesSettings_registerConfig view).run_load view ?_ b
  split_ifs with hempty
  · exact (inSpaces_tables preferredSettings (by simp)).2
  · exact t.inSpaces

theorem run_readRfIdLoad (t : ConfigTable) (b : SpiBus Chip Phase) :
    ((readRfIdLoad (cc112x view) t.settings).run b).2.dev.regs
        = applyTable b.dev.resetRegs t.settings ∧
      ((readRfIdLoad (cc112x view) t.settings).run b).2.phase = .header := by
  have hstrobe : b.dev.decodeHeader sres = (b.dev.strobe sres, .header) :=
    decodeHeader_strobe b.dev (by decide)
  have hreset : (((cc112x view).write sres).run (b.fall (cc112x view))).2.dev = b.dev.strobe sres ∧
      (((cc112x view).write sres).run (b.fall (cc112x view))).2.phase = .header :=
    Prod.ext_iff.mp hstrobe
  have hloop := (storesSettings_readRfId view).run_settingsLoop t.inSpaces hreset.2
  rw [hreset.1] at hloop
  simp only [readRfIdLoad, byteCounted_eq t.length_le, SpiM.run_bind, SpiSlave.run_select]
  refine ⟨?_, hloop.2⟩
  rw [hloop.1]
  exact congrArg (applyTable · t.settings) (strobe_sres_regs b.dev)

/-- **The loaders agree.** On a chip that has just been reset, each of the three leaves the reset
values overwritten by the table in order: a register has the data of its last setting, or its reset
value if it has none. `registerConfig`, given an empty table, loads its default table instead. -/
theorem loaders_agree (t : ConfigTable) (b : SpiBus Chip Phase) :
    let final := applyTable b.dev.resetRegs t.settings
    ((radioInitWith (cc112x view) t.settings).run b).2.dev.regs = final ∧
      ((readRfIdLoad (cc112x view) t.settings).run b).2.dev.regs = final ∧
      ((registerConfig (cc112x view) (some t.settings)
          (UInt16.ofNat t.settings.length)).run b).2.dev.regs
        = (if t.settings = [] then applyTable b.dev.resetRegs preferredSettings else final) ∧
      ∀ a, final a
        = ((lastSetting t.settings a).map RegisterSetting.data).getD (b.dev.resetRegs a) := by
  intro final
  refine ⟨run_radioInitWith view t b, (run_readRfIdLoad view t b).1, ?_, ?_⟩
  · rw [run_registerConfig]
    split_ifs
    · rfl
    · rfl
  · exact applyTable_apply b.dev.resetRegs t.settings

/-- The empty table. -/
def emptyTable : ConfigTable := ⟨[], by decide, by decide⟩

/-- `registerConfig` does not load every table: given the empty one, it sets `IOCFG3`. -/
theorem not_registerConfig_loads_empty :
    ¬ ∀ (t : ConfigTable) (b : SpiBus Chip Phase),
      ((registerConfig (cc112x plainView) (some t.settings)
          (UInt16.ofNat t.settings.length)).run b).2.dev.regs
        = applyTable b.dev.resetRegs t.settings := by
  intro h
  have hregs :=
    (run_registerConfig plainView emptyTable resetBus).symm.trans (h emptyTable resetBus)
  have hiocfg3 : (0xB0 : UInt8) = 0 := congrFun hregs 0
  exact absurd hiocfg3 (by decide)

/-! ### The tables of the repository -/

theorem radioSettings_mem (configSelect : UInt8) :
    (radioSettings configSelect).1 ∈ [preferredSettings1200bps, preferredSettings38400bps,
      preferredSettings50kbps, preferredSettings] := by
  unfold radioSettings
  split <;> simp

/-- The table `radio_init` selects. -/
def radioTable (configSelect : UInt8) : ConfigTable where
  settings := (radioSettings configSelect).1
  length_le := (inSpaces_tables _ (radioSettings_mem configSelect)).1
  inSpaces := (inSpaces_tables _ (radioSettings_mem configSelect)).2

/-- `radio_init` returns the bit rate and loads the table of its configuration. -/
theorem run_radioInit (configSelect : UInt8) (b : SpiBus Chip Phase) :
    let r := (radioInit (cc112x view) configSelect).run b
    r.1 = (radioSettings configSelect).2 ∧
      r.2.dev.regs = applyTable b.dev.resetRegs (radioSettings configSelect).1 :=
  ⟨rfl, run_radioInitWith view (radioTable configSelect) b⟩

end Wise1511
