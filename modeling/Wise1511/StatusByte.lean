import Wise1511.RadioDriver

/-!
# The status a transport function returns

The register functions are documented to return the chip's status byte, or a byte with
`STATUS_CHIP_RDYn_BM` set when the access is refused, which is all that a caller could test. But
`trx8BitRegAccess` and `trx16BitRegAccess` return `pData[0]`, the first byte read or the first one
written, and `trxSpiCmdStrobe` returns the byte shifted out after the command. A sixteen-bit address
with an unknown page is refused without a word.

So the result is the status byte when these bytes happen to be equal. The statements are about an
arbitrary slave: a chip is ready when the status it shifts out for a header has the bit clear.

## Main results

* `run_cc112xSpiReg_frame` — a register access is one frame, by its address
* `status_trusted_iff` — when the result can be trusted
-/

namespace Wise1511

variable {σ φ : Type} (S : SpiSlave σ φ)

/-! ### Addresses -/

/-- The addresses the wrappers refuse: those of the FIFOs. -/
def IsFifo (addr : UInt16) : Prop := cc112xSingleTxfifo ≤ tempAddr addr ∧ tempExt addr = 0

/-- The page of the address is that of one of the two register spaces. -/
def HasSpace (addr : UInt16) : Prop := tempExt addr = 0 ∨ tempExt addr = extSpace

instance (addr : UInt16) : Decidable (IsFifo addr) := inferInstanceAs (Decidable (_ ∧ _))

instance (addr : UInt16) : Decidable (HasSpace addr) := inferInstanceAs (Decidable (_ ∨ _))

/-- The first byte of the frame of a register access. -/
def headerByte (accessType : UInt8) (addr : UInt16) : UInt8 :=
  accessType ||| if tempExt addr = 0 then tempAddr addr else tempExt addr

/-- The bytes of the frame up to the data. -/
def addressBytes (accessType : UInt8) (addr : UInt16) : List UInt8 :=
  headerByte accessType addr :: if tempExt addr = 0 then [] else [tempAddr addr]

theorem cc112xSpiReg_of_isFifo {addr : UInt16} (h : IsFifo addr) (accessType : UInt8)
    (pData : CArray) (len : UInt8) :
    cc112xSpiReg S accessType addr pData len = pure (statusChipRdynBm, pData) :=
  if_pos (show cc112xSingleTxfifo ≤ tempAddr addr ∧ tempExt addr = 0 from h)

/-- An unknown page is refused too, without a word. -/
theorem cc112xSpiReg_of_not_hasSpace {addr : UInt16} (h : ¬ HasSpace addr) (accessType : UInt8)
    (pData : CArray) (len : UInt8) :
    cc112xSpiReg S accessType addr pData len = pure (0, pData) := by
  obtain ⟨hstd, hext⟩ := not_or.mp h
  rw [cc112xSpiReg, if_neg fun hfifo => hstd hfifo.2, if_neg hstd, if_neg hext]

/-- **A register access is one frame.** Outside the FIFO addresses and the unknown pages: the bytes
of the address and those of the data. -/
theorem run_cc112xSpiReg_frame (accessType : UInt8) {addr : UInt16} (hfifo : ¬ IsFifo addr)
    (hspace : HasSpace addr) (pData : CArray) (len : UInt8) (b : SpiBus σ φ) :
    let out := addressBytes accessType addr ++ dataOut accessType pData len.toNat
    let pData' := dataIn accessType pData
      ((b.frameReplies S out).drop (addressBytes accessType addr).length)
    (cc112xSpiReg S accessType addr pData len).run b = ((pData' 0, pData'), b.frame S out) := by
  intro out pData'
  have hfifo' : ¬ (cc112xSingleTxfifo ≤ tempAddr addr ∧ tempExt addr = 0) := hfifo
  simp only [cc112xSpiReg, if_neg hfifo', pData', out, addressBytes, headerByte]
  by_cases hstd : tempExt addr = 0
  · simp only [if_pos hstd]
    have hrun := run_trx8BitRegAccess S accessType (tempAddr addr) pData len.toUInt16 b
    rwa [UInt8.toNat_toUInt16] at hrun
  · have hext : tempExt addr = extSpace := hspace.resolve_left hstd
    simp only [if_neg hstd, if_pos hext]
    exact run_trx16BitRegAccess S accessType (tempExt addr) (tempAddr addr) pData len b

/-! ### Trusting the result -/

/-- Nothing was exchanged and the caller's array is as it was. -/
def Refused (b : SpiBus σ φ) (pData : CArray) (r : (UInt8 × CArray) × SpiBus σ φ) : Prop :=
  r.2.frames = b.frames ∧ r.1.2 = pData

/-- `v` is what the slave shifted out during the first byte of the one new frame. -/
def ShiftedOutFirst (v : UInt8) (b b' : SpiBus σ φ) : Prop :=
  ∃ out rest, b'.frames = b.frames ++ [(out, v) :: rest]

/-- The result says whether the access was refused, and is the status byte if not. -/
structure Trusted (b : SpiBus σ φ) (pData : CArray) (r : (UInt8 × CArray) × SpiBus σ φ) :
    Prop where
  /-- The bit is set exactly when nothing happened. -/
  bit_iff : r.1.1 &&& statusChipRdynBm ≠ 0 ↔ Refused b pData r
  /-- Otherwise the result is the status byte. -/
  status : ¬ Refused b pData r → ShiftedOutFirst r.1.1 b r.2

/-- What the slave shifts out during a header. -/
def statusByte (d : σ) (header : UInt8) : UInt8 := (S.step (d, S.start) header).2

/-- What it shifts out during an idle byte that follows these bytes. -/
def nextByte (d : σ) (bytes : List UInt8) : UInt8 := (S.step (S.after (d, S.start) bytes) 0).2

/-- The status bytes of this device have `CHIP_RDYn` clear. -/
def Ready (d : σ) : Prop := ∀ header, statusByte S d header &&& statusChipRdynBm = 0

theorem shiftedOutFirst_frame_iff (b : SpiBus σ φ) (v header : UInt8) (bytes : List UInt8) :
    ShiftedOutFirst v b (b.frame S (header :: bytes)) ↔ v = statusByte S b.dev header := by
  simp only [ShiftedOutFirst, SpiBus.frame_frames, SpiBus.frameReplies_eq, Mealy.outputs_cons,
    List.zip_cons_cons, List.append_cancel_left_eq, List.cons.injEq, and_true, Prod.mk.injEq]
  refine ⟨fun ⟨_, _, ⟨_, hv⟩, _⟩ => hv.symm, fun hv => ⟨header, _, ⟨rfl, hv.symm⟩, rfl⟩⟩

variable {S} in
/-- Once a frame has been exchanged, the result has to be the status byte. -/
theorem trusted_frame_iff {b : SpiBus σ φ} (hready : Ready S b.dev) (pData pData' : CArray)
    (v header : UInt8) (bytes : List UInt8) :
    Trusted b pData ((v, pData'), b.frame S (header :: bytes)) ↔ v = statusByte S b.dev header := by
  have hnot : ¬ Refused b pData ((v, pData'), b.frame S (header :: bytes)) := by
    rintro ⟨hframes, -⟩
    simp [SpiBus.frame_frames] at hframes
  refine ⟨fun h => (shiftedOutFirst_frame_iff S b v header bytes).mp (h.status hnot), ?_⟩
  intro hv
  refine ⟨iff_of_false ?_ hnot, fun _ => (shiftedOutFirst_frame_iff S b v header bytes).mpr hv⟩
  rw [not_not, hv]
  exact hready header

variable {S} in
/-- Both wrappers: a refusal is reported for the FIFO addresses only, and what is returned otherwise
is `pData[0]`. -/
theorem trusted_cc112xSpiReg_iff {b : SpiBus σ φ} (hready : Ready S b.dev) (accessType : UInt8)
    (addr : UInt16) (pData : CArray) (len : UInt8) :
    Trusted b pData ((cc112xSpiReg S accessType addr pData len).run b) ↔
      IsFifo addr ∨ HasSpace addr ∧ ((cc112xSpiReg S accessType addr pData len).run b).1.2 0
        = statusByte S b.dev (headerByte accessType addr) := by
  by_cases hfifo : IsFifo addr
  · rw [cc112xSpiReg_of_isFifo S hfifo, SpiM.run_pure]
    have hbit : statusChipRdynBm &&& statusChipRdynBm ≠ 0 := by decide
    exact iff_of_true ⟨iff_of_true hbit ⟨rfl, rfl⟩, fun h => absurd ⟨rfl, rfl⟩ h⟩ (.inl hfifo)
  by_cases hspace : HasSpace addr
  · rw [run_cc112xSpiReg_frame S accessType hfifo hspace, addressBytes, List.cons_append,
      trusted_frame_iff hready]
    simp only [hfifo, hspace, true_and, false_or]
  · -- an unknown page: nothing happens, and the result is 0
    rw [cc112xSpiReg_of_not_hasSpace S hspace, SpiM.run_pure]
    refine iff_of_false ?_ (not_or.mpr ⟨hfifo, fun h => hspace h.1⟩)
    intro h
    exact h.bit_iff.mpr ⟨rfl, rfl⟩ (show (0 : UInt8) &&& statusChipRdynBm = 0 by decide)

/-- A read leaves in `pData[0]` what was shifted out during the first data byte. -/
theorem run_cc112xSpiReadReg_zero {addr : UInt16} (hfifo : ¬ IsFifo addr) (hspace : HasSpace addr)
    (pData : CArray) {len : UInt8} (hlen : 1 ≤ len) (b : SpiBus σ φ) :
    ((cc112xSpiReadReg S addr pData len).run b).1.2 0
      = nextByte S b.dev (addressBytes (radioBurstAccess ||| radioReadAccess) addr) := by
  rw [cc112xSpiReadReg, run_cc112xSpiReg_frame S _ hfifo hspace]
  generalize addressBytes (radioBurstAccess ||| radioReadAccess) addr = bytes
  obtain ⟨n, hn⟩ := Nat.exists_eq_add_of_le (UInt8.le_iff_toNat_le.mp hlen)
  have hout : dataOut (radioBurstAccess ||| radioReadAccess) pData len.toNat
      = 0 :: List.replicate n 0 := by
    rw [hn, show (1 : UInt8).toNat = 1 from rfl, Nat.add_comm]
    rfl
  have hreplies : (b.frameReplies S (bytes ++ 0 :: List.replicate n 0)).drop bytes.length
      = nextByte S b.dev bytes :: S.outputs (S.step (S.after (b.dev, S.start) bytes) 0).1
          (List.replicate n 0) := by
    rw [SpiBus.drop_frameReplies]
    rfl
  rw [hout, hreplies]
  exact CArray.overlay_zero (Nat.succ_pos _)

/-- A write leaves `pData` alone. -/
theorem run_cc112xSpiWriteReg_pData (addr : UInt16) (pData : CArray) (len : UInt8)
    (b : SpiBus σ φ) : ((cc112xSpiWriteReg S addr pData len).run b).1.2 = pData := by
  rw [cc112xSpiWriteReg]
  by_cases hfifo : IsFifo addr
  · rw [cc112xSpiReg_of_isFifo S hfifo, SpiM.run_pure]
  by_cases hspace : HasSpace addr
  · rw [run_cc112xSpiReg_frame S _ hfifo hspace]
    rfl
  · rw [cc112xSpiReg_of_not_hasSpace S hspace, SpiM.run_pure]

variable {S} in
theorem trusted_cc112xSpiReadReg_iff {b : SpiBus σ φ} (hready : Ready S b.dev) (addr : UInt16)
    (pData : CArray) {len : UInt8} (hlen : 1 ≤ len) :
    Trusted b pData ((cc112xSpiReadReg S addr pData len).run b) ↔ IsFifo addr ∨ HasSpace addr ∧
      nextByte S b.dev (addressBytes (radioBurstAccess ||| radioReadAccess) addr)
        = statusByte S b.dev (headerByte (radioBurstAccess ||| radioReadAccess) addr) := by
  by_cases hfifo : IsFifo addr
  · exact iff_of_true ((trusted_cc112xSpiReg_iff hready _ _ _ _).mpr (.inl hfifo)) (.inl hfifo)
  · rw [cc112xSpiReadReg, trusted_cc112xSpiReg_iff hready]
    refine or_congr_right (and_congr_right fun hspace => ?_)
    rw [← run_cc112xSpiReadReg_zero S hfifo hspace pData hlen, cc112xSpiReadReg]

variable {S} in
/-- **When the status can be trusted.** For a register read: the address is refused, or the first
byte read equals the status byte. For a write: the same of the first byte written. For a strobe:
the byte after the command equals the status byte. -/
theorem status_trusted_iff {b : SpiBus σ φ} (hready : Ready S b.dev) (addr : UInt16)
    (pData : CArray) {len : UInt8} (hlen : 1 ≤ len) (cmd : UInt8) :
    (Trusted b pData ((cc112xSpiReadReg S addr pData len).run b) ↔ IsFifo addr ∨ HasSpace addr ∧
      nextByte S b.dev (addressBytes (radioBurstAccess ||| radioReadAccess) addr)
        = statusByte S b.dev (headerByte (radioBurstAccess ||| radioReadAccess) addr)) ∧
    (Trusted b pData ((cc112xSpiWriteReg S addr pData len).run b) ↔ IsFifo addr ∨ HasSpace addr ∧
      pData 0 = statusByte S b.dev (headerByte (radioBurstAccess ||| radioWriteAccess) addr)) ∧
    (ShiftedOutFirst ((trxSpiCmdStrobe S cmd).run b).1 b ((trxSpiCmdStrobe S cmd).run b).2 ↔
      nextByte S b.dev [cmd] = statusByte S b.dev cmd) := by
  refine ⟨trusted_cc112xSpiReadReg_iff hready addr pData hlen, ?_, ?_⟩
  · have hiff := trusted_cc112xSpiReg_iff hready (radioBurstAccess ||| radioWriteAccess) addr pData
      len
    have hdata := run_cc112xSpiWriteReg_pData S addr pData len b
    rw [cc112xSpiWriteReg] at hdata ⊢
    rwa [hdata] at hiff
  · rw [run_trxSpiCmdStrobe, shiftedOutFirst_frame_iff]
    rfl

/-- A chip whose registers all hold `v`, with zero as its status. -/
def busWith (v : UInt8) : SpiBus Chip Phase :=
  { resetBus with dev := { resetBus.dev with regs := fun _ => v } }

theorem ready_busWith (v : UInt8) : Ready (cc112x plainView) (busWith v).dev := by
  intro header
  show (0 : UInt8) &&& statusChipRdynBm = 0
  decide

/-- The registers read zero, as does the status. -/
theorem status_trusted_zero : Ready (cc112x plainView) (busWith 0).dev ∧ (1 : UInt8) ≤ 1 ∧
    Trusted (busWith 0) (localByte 0) ((cc112xSpiReadReg (cc112x plainView) 1 (localByte 0) 1).run
      (busWith 0)) :=
  ⟨ready_busWith 0, by decide,
    (status_trusted_iff (ready_busWith 0) 1 _ (by decide) sidle).1.mpr (by decide)⟩

/-- A register that holds `0x85`: the access is carried out and the result says it was refused. -/
theorem not_status_trusted_register :
    Ready (cc112x plainView) (busWith 0x85).dev ∧
      ¬ Trusted (busWith 0x85) (localByte 0)
        ((cc112xSpiReadReg (cc112x plainView) 1 (localByte 0) 1).run (busWith 0x85)) := by
  refine ⟨ready_busWith 0x85, ?_⟩
  rw [trusted_cc112xSpiReadReg_iff (ready_busWith 0x85) 1 (localByte 0) (by decide)]
  decide

end Wise1511
