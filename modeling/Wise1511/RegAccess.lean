import Wise1511.Defs
import Wise1511.Lib.CArray
import Wise1511.Lib.SpiBus

/-!
# Register access over SPI

The three transport functions of `hal_spi_rf.cpp` and the address-decoding wrappers of `cc112x.cpp`,
as master programs over any slave. A caller's array `pData` goes in and comes back, with what was
read stored into it.

Every transport function is exactly one chip-select frame. The `run_` theorems say which: the bytes
shifted out, and where the bytes shifted in end up. They hold of every slave, so nothing about the
chip is assumed until a slave is named.

The byte loop is selected by the access type *alone* and the header byte by the access type *or*
the address. That the two agree is the callers' business, and not all of them see to it.

## Main results

* `run_trx8BitRegAccess`, `run_trx16BitRegAccess`, `run_trxSpiCmdStrobe` — one frame each
* `cc112xSpiReg_std`, `cc112xSpiReg_ext` — what the wrappers decode to
-/

namespace Wise1511

variable {σ φ : Type} (S : SpiSlave σ φ)

/-! ### The transport functions -/

/-- `for (i = …; i < …; i++) pData[i] = rf_spi.write(0x00);`, with `n` turns to go. -/
def readLoop (pData : CArray) (i : ℕ) : ℕ → SpiM σ φ CArray
  | 0 => pure pData
  | n + 1 => do
    let v ← S.write 0x00
    readLoop (Function.update pData i v) (i + 1) n

/-- `for (i = …; i < …; i++) rf_spi.write(pData[i]);`, with `n` turns to go. -/
def writeLoop (pData : CArray) (i : ℕ) : ℕ → SpiM σ φ Unit
  | 0 => pure ()
  | n + 1 => do
    let _ ← S.write (pData i)
    writeLoop pData (i + 1) n

/-- The `switch (accessType)` that both access functions contain. -/
def transfer (accessType : UInt8) (pData : CArray) (len : ℕ) : SpiM σ φ CArray :=
  if accessType = radioReadAccess ||| radioBurstAccess then
    readLoop S pData 0 len
  else if accessType = radioWriteAccess ||| radioBurstAccess then do
    writeLoop S pData 0 len
    pure pData
  else if accessType = radioReadAccess ||| radioSingleAccess then do
    let v ← S.write 0x00
    pure (Function.update pData 0 v)
  else if accessType = radioWriteAccess ||| radioSingleAccess then do
    let _ ← S.write (pData 0)
    pure pData
  else
    pure pData

/-- `trx8BitRegAccess`: the returned value, and `pData` afterwards. -/
def trx8BitRegAccess (accessType addrByte : UInt8) (pData : CArray) (len : UInt16) :
    SpiM σ φ (UInt8 × CArray) := do
  S.select
  let _ ← S.write (accessType ||| addrByte)
  let pData ← transfer S accessType pData len.toNat
  S.deselect
  -- the "status" returned is the first data byte
  pure (pData 0, pData)

/-- `trx16BitRegAccess`: the returned value, and `pData` afterwards. -/
def trx16BitRegAccess (accessType extAddr regAddr : UInt8) (pData : CArray) (len : UInt8) :
    SpiM σ φ (UInt8 × CArray) := do
  S.select
  let _ ← S.write (accessType ||| extAddr)
  let _ ← S.write regAddr
  let pData ← transfer S accessType pData len.toNat
  S.deselect
  pure (pData 0, pData)

/-- `trxSpiCmdStrobe`. The returned byte is the one shifted out after the command. -/
def trxSpiCmdStrobe (cmd : UInt8) : SpiM σ φ UInt8 := do
  S.select
  let _ ← S.write cmd
  let rc ← S.write 0x00
  S.deselect
  pure rc

/-! ### The wrappers -/

/-- `(uint8)(addr >> 8)`. -/
def tempExt (addr : UInt16) : UInt8 := (addr >>> 8).toUInt8

/-- `(uint8)(addr & 0x00FF)`. -/
def tempAddr (addr : UInt16) : UInt8 := (addr &&& 0x00FF).toUInt8

/-- The address decoding that `cc112xSpiReadReg` and `cc112xSpiWriteReg` share. -/
def cc112xSpiReg (accessType : UInt8) (addr : UInt16) (pData : CArray) (len : UInt8) :
    SpiM σ φ (UInt8 × CArray) :=
  if cc112xSingleTxfifo ≤ tempAddr addr ∧ tempExt addr = 0 then
    -- a FIFO access is refused
    pure (statusChipRdynBm, pData)
  else if tempExt addr = 0 then
    trx8BitRegAccess S accessType (tempAddr addr) pData len.toUInt16
  else if tempExt addr = extSpace then
    trx16BitRegAccess S accessType (tempExt addr) (tempAddr addr) pData len
  else
    pure (0, pData)

/-- `cc112xSpiReadReg`. -/
def cc112xSpiReadReg (addr : UInt16) (pData : CArray) (len : UInt8) : SpiM σ φ (UInt8 × CArray) :=
  cc112xSpiReg S (radioBurstAccess ||| radioReadAccess) addr pData len

/-- `cc112xSpiWriteReg`. -/
def cc112xSpiWriteReg (addr : UInt16) (pData : CArray) (len : UInt8) : SpiM σ φ (UInt8 × CArray) :=
  cc112xSpiReg S (radioBurstAccess ||| radioWriteAccess) addr pData len

/-- `cc112xSpiWriteTxFifo`. -/
def cc112xSpiWriteTxFifo (pData : CArray) (len : UInt8) : SpiM σ φ (UInt8 × CArray) :=
  trx8BitRegAccess S 0x00 cc112xBurstTxfifo pData len.toUInt16

/-- `cc112xSpiReadRxFifo`. -/
def cc112xSpiReadRxFifo (pData : CArray) (len : UInt8) : SpiM σ φ (UInt8 × CArray) :=
  trx8BitRegAccess S 0x00 cc112xBurstRxfifo pData len.toUInt16

/-! ### One frame each -/

/-- The data bytes a transfer shifts out. -/
def dataOut (accessType : UInt8) (pData : CArray) (len : ℕ) : List UInt8 :=
  if accessType = 0xC0 then List.replicate len 0
  else if accessType = 0x40 then pData.slice 0 len
  else if accessType = 0x80 then [0]
  else if accessType = 0x00 then [pData 0]
  else []

/-- Where a transfer leaves the bytes shifted in. -/
def dataIn (accessType : UInt8) (pData : CArray) (replies : List UInt8) : CArray :=
  if accessType = 0xC0 ∨ accessType = 0x80 then pData.overlay 0 replies else pData

theorem run_readLoop (pData : CArray) (i n : ℕ) (b : SpiBus σ φ) :
    (readLoop S pData i n).run b
      = (pData.overlay i (b.replies S (List.replicate n 0)),
          b.feed S (List.replicate n 0)) := by
  induction n generalizing pData i b with
  | zero => rw [readLoop, SpiM.run_pure]; simp [SpiBus.replies]
  | succ n ih =>
    rw [readLoop, SpiM.run_bind, S.run_write, ih, List.replicate_succ, ← b.feed_cons S]
    rfl

theorem run_writeLoop (pData : CArray) (i n : ℕ) (b : SpiBus σ φ) :
    (writeLoop S pData i n).run b = ((), b.feed S (pData.slice i n)) := by
  induction n generalizing i b with
  | zero => rw [writeLoop, SpiM.run_pure]; simp
  | succ n ih =>
    rw [writeLoop, SpiM.run_bind, S.run_write, ih, CArray.slice_succ, ← b.feed_cons S]

theorem run_transfer (accessType : UInt8) (pData : CArray) (len : ℕ) (b : SpiBus σ φ) :
    (transfer S accessType pData len).run b
      = (dataIn accessType pData (b.replies S (dataOut accessType pData len)),
          b.feed S (dataOut accessType pData len)) := by
  have hrb : radioReadAccess ||| radioBurstAccess = 0xC0 := rfl
  have hwb : radioWriteAccess ||| radioBurstAccess = 0x40 := rfl
  have hrs : radioReadAccess ||| radioSingleAccess = 0x80 := rfl
  have hws : radioWriteAccess ||| radioSingleAccess = 0x00 := rfl
  rw [transfer, hrb, hwb, hrs, hws]
  split_ifs with h₁ h₂ h₃ h₄
  · subst h₁; exact run_readLoop S pData 0 len b
  · subst h₂; rw [SpiM.run_bind, run_writeLoop]; rfl
  · subst h₃; rfl
  · subst h₄; rfl
  · rw [SpiM.run_pure]; simp [dataIn, dataOut, h₁, h₂, h₃, h₄]

/-- **`trx8BitRegAccess` is one frame**: the header and the data bytes of the access type. -/
theorem run_trx8BitRegAccess (accessType addrByte : UInt8) (pData : CArray) (len : UInt16)
    (b : SpiBus σ φ) :
    let out := (accessType ||| addrByte) :: dataOut accessType pData len.toNat
    let pData' := dataIn accessType pData ((b.frameReplies S out).drop 1)
    (trx8BitRegAccess S accessType addrByte pData len).run b
      = ((pData' 0, pData'), b.frame S out) := by
  intro out pData'
  have hfeed : (b.fall S).feed S out
      = ((b.fall S).feed S [accessType ||| addrByte]).feed S
          (dataOut accessType pData len.toNat) :=
    (b.fall S).feed_cons S _ _
  simp only [trx8BitRegAccess, SpiM.run_bind, S.run_select, S.run_write, run_transfer,
    S.run_deselect, SpiM.run_pure, ← hfeed]
  rfl

/-- **`trx16BitRegAccess` is one frame**: header, register address, data bytes. -/
theorem run_trx16BitRegAccess (accessType extAddr regAddr : UInt8) (pData : CArray) (len : UInt8)
    (b : SpiBus σ φ) :
    let out := (accessType ||| extAddr) :: regAddr :: dataOut accessType pData len.toNat
    let pData' := dataIn accessType pData ((b.frameReplies S out).drop 2)
    (trx16BitRegAccess S accessType extAddr regAddr pData len).run b
      = ((pData' 0, pData'), b.frame S out) := by
  intro out pData'
  have hfeed : (b.fall S).feed S out
      = (((b.fall S).feed S [accessType ||| extAddr]).feed S [regAddr]).feed S
          (dataOut accessType pData len.toNat) := by
    rw [(b.fall S).feed_cons S, SpiBus.feed_cons]
  simp only [trx16BitRegAccess, SpiM.run_bind, S.run_select, S.run_write, run_transfer,
    S.run_deselect, SpiM.run_pure, ← hfeed]
  rfl

/-- **`trxSpiCmdStrobe` is one frame**: the command and one idle byte. -/
theorem run_trxSpiCmdStrobe (cmd : UInt8) (b : SpiBus σ φ) :
    (trxSpiCmdStrobe S cmd).run b
      = ((b.frameReplies S [cmd, 0]).getD 1 0, b.frame S [cmd, 0]) := by
  simp only [trxSpiCmdStrobe, SpiM.run_bind, S.run_select, S.run_write, S.run_deselect,
    SpiM.run_pure, ← SpiBus.feed_cons]
  rfl

/-! ### Address decoding -/

theorem tempExt_std : ∀ n < 0x2F, tempExt (UInt16.ofNat n) = 0 := by decide +kernel

theorem tempAddr_std : ∀ n < 0x2F, tempAddr (UInt16.ofNat n) = UInt8.ofNat n := by decide +kernel

theorem tempExt_ext : ∀ n < 0x100, tempExt (UInt16.ofNat (0x2F00 + n)) = extSpace := by
  decide +kernel

theorem tempAddr_ext : ∀ n < 0x100, tempAddr (UInt16.ofNat (0x2F00 + n)) = UInt8.ofNat n := by
  decide +kernel

theorem not_fifo_std : ∀ n < 0x2F, ¬ cc112xSingleTxfifo ≤ UInt8.ofNat n := by decide +kernel

/-- In the standard space the wrappers are 8-bit accesses. -/
theorem cc112xSpiReg_std (accessType : UInt8) {n : ℕ} (hn : n < 0x2F) (pData : CArray)
    (len : UInt8) :
    cc112xSpiReg S accessType (UInt16.ofNat n) pData len
      = trx8BitRegAccess S accessType (UInt8.ofNat n) pData len.toUInt16 := by
  rw [cc112xSpiReg, tempExt_std n hn, tempAddr_std n hn,
    if_neg fun h => not_fifo_std n hn h.1, if_pos rfl]

/-- In the extended space they are 16-bit accesses. -/
theorem cc112xSpiReg_ext (accessType : UInt8) {n : ℕ} (hn : n < 0x100) (pData : CArray)
    (len : UInt8) :
    cc112xSpiReg S accessType (UInt16.ofNat (0x2F00 + n)) pData len
      = trx16BitRegAccess S accessType extSpace (UInt8.ofNat n) pData len := by
  have hne : extSpace ≠ 0 := by decide
  rw [cc112xSpiReg, tempExt_ext n hn, tempAddr_ext n hn, if_neg fun h => hne h.2, if_neg hne,
    if_pos rfl]

end Wise1511
