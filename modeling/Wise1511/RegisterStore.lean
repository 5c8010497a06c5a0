import Wise1511.ChipFrames

/-!
# The driver refines a register store

What the register half of the driver is *for* is a store: addresses to bytes, written in blocks and
read back. This file states that store and shows that any sequence of driver calls, run against the
byte-level chip with plain registers, is the same sequence of operations on it.

The calls are the wrappers' bursts, the transport functions' single accesses, and the strobes. A
`DriverCall` carries the proof that it stays inside one register space, so a run is just a list.
`SRES` is left out: it is the one strobe that is an operation on the registers.

## Main definitions

* `DriverCall`, `driver` — the calls and the machine they drive over the bus
* `StoreState`, `registerStore` — the store they are meant to drive

## Main results

* `driver_refines_registerStore` — after every call the chip's registers are the store, and every
  read has delivered the store's values
-/

namespace Wise1511

/-- A call of the driver. -/
inductive Call where
  | cc112xSpiWriteReg (addr : UInt16) (pData : CArray) (len : UInt8)
  | cc112xSpiReadReg (addr : UInt16) (pData : CArray) (len : UInt8)
  | trx8BitRegAccess (accessType addrByte : UInt8) (pData : CArray) (len : UInt16)
  | trx16BitRegAccess (accessType extAddr regAddr : UInt8) (pData : CArray) (len : UInt8)
  | trxSpiCmdStrobe (cmd : UInt8)

/-- The access type is one of the two single ones. -/
def SingleAccess (t : UInt8) : Prop :=
  t = radioReadAccess ||| radioSingleAccess ∨ t = radioWriteAccess ||| radioSingleAccess

/-- The calls a run is made of. -/
def Call.InRange : Call → Prop
  | .cc112xSpiWriteReg addr _ len => BlockInSpace addr len
  | .cc112xSpiReadReg addr _ len => BlockInSpace addr len
  | .trx8BitRegAccess t addrByte _ _ => SingleAccess t ∧ addrByte.toNat < 0x2F
  | .trx16BitRegAccess t extAddr _ _ _ => SingleAccess t ∧ extAddr = extSpace
  | .trxSpiCmdStrobe cmd => IsStrobe cmd ∧ cmd ≠ sres

/-- A call that stays in range. -/
structure DriverCall where
  call : Call
  inRange : call.InRange

/-- Carry out a call: `pData` afterwards, where the call has one. -/
def Call.exec {σ φ : Type} (S : SpiSlave σ φ) : Call → SpiM σ φ (Option CArray)
  | .cc112xSpiWriteReg addr pData len => do
    let r ← Wise1511.cc112xSpiWriteReg S addr pData len
    pure (some r.2)
  | .cc112xSpiReadReg addr pData len => do
    let r ← Wise1511.cc112xSpiReadReg S addr pData len
    pure (some r.2)
  | .trx8BitRegAccess t addrByte pData len => do
    let r ← Wise1511.trx8BitRegAccess S t addrByte pData len
    pure (some r.2)
  | .trx16BitRegAccess t extAddr regAddr pData len => do
    let r ← Wise1511.trx16BitRegAccess S t extAddr regAddr pData len
    pure (some r.2)
  | .trxSpiCmdStrobe cmd => do
    let _ ← Wise1511.trxSpiCmdStrobe S cmd
    pure none

/-- The driver over the bus, with the chip's registers taken as plain storage. -/
def driver : Mealy (SpiBus Chip Phase) DriverCall (Option CArray) where
  step b c := let r := (c.call.exec (cc112x plainView)).run b; (r.2, r.1)

/-! ### The store -/

/-- Register contents by address, and the strobes executed so far. -/
structure StoreState where
  store : CArray
  strobes : List UInt8

/-- Write the first `n` bytes of `pData` from address `a` on. -/
def StoreState.write (s : StoreState) (a : ℕ) (pData : CArray) (n : ℕ) : StoreState :=
  { s with store := s.store.overlay a (pData.slice 0 n) }

/-- Read `n` values from address `a` on into `pData`. -/
def StoreState.read (s : StoreState) (a : ℕ) (pData : CArray) (n : ℕ) : CArray :=
  pData.overlay 0 (s.store.slice a n)

/-- What each call means to the store. -/
def StoreState.apply (s : StoreState) : Call → StoreState × Option CArray
  | .cc112xSpiWriteReg addr pData len => (s.write addr.toNat pData len.toNat, some pData)
  | .cc112xSpiReadReg addr pData len => (s, some (s.read addr.toNat pData len.toNat))
  | .trx8BitRegAccess t addrByte pData _ =>
    if t = radioReadAccess then (s, some (s.read addrByte.toNat pData 1))
    else (s.write addrByte.toNat pData 1, some pData)
  | .trx16BitRegAccess t _ regAddr pData _ =>
    if t = radioReadAccess then (s, some (s.read (0x2F00 + regAddr.toNat) pData 1))
    else (s.write (0x2F00 + regAddr.toNat) pData 1, some pData)
  | .trxSpiCmdStrobe cmd => ({ s with strobes := s.strobes ++ [cmd] }, none)

/-- The store as a machine. -/
def registerStore : Mealy StoreState DriverCall (Option CArray) where
  step s c := s.apply c.call

/-- The chip on the bus holds the store. -/
def Represents (b : SpiBus Chip Phase) (s : StoreState) : Prop :=
  b.dev.regs = s.store ∧ b.dev.strobes = s.strobes

/-! ### One call -/

theorem regs_command {cmd : UInt8} (h : cmd ≠ sres) (c : Chip) : (c.command cmd).regs = c.regs := by
  rw [Chip.command, if_neg h]
  split_ifs <;> rfl

/-- A register access of any type has, on the store, the effect it has on the chip. -/
theorem represents_accessDev {t : UInt8} {a w : ℕ} {pData : CArray} {b b' : SpiBus Chip Phase}
    {s : StoreState} (h : Represents b s) (hdev : b'.dev = accessDev t a w pData b.dev) :
    Represents b' (if isRead t then s else s.write a pData w) := by
  obtain ⟨hregs, hstrobes⟩ := h
  rw [Represents, hdev, accessDev]
  split_ifs
  · exact ⟨hregs, hstrobes⟩
  · exact ⟨congrArg (fun r : CArray => r.overlay a (pData.slice 0 w)) hregs, hstrobes⟩

theorem accessData_eq {t : UInt8} {a w : ℕ} {pData : CArray} {b : SpiBus Chip Phase}
    {s : StoreState} (h : Represents b s) :
    accessData plainView t a w pData b.dev = if isRead t then s.read a pData w else pData := by
  rw [accessData, show plainView b.dev = s.store from h.1]
  rfl

/-- A call that is a register access of type `t` matches the store's reading or writing. -/
theorem matches_of_access {t : UInt8} {a w : ℕ} {pData : CArray} {b : SpiBus Chip Phase}
    {s : StoreState} {c : DriverCall} (h : Represents b s)
    (hrun : (driver.step b c).2 = some (accessData plainView t a w pData b.dev) ∧
      (driver.step b c).1.dev = accessDev t a w pData b.dev)
    (happly : s.apply c.call
      = if isRead t then (s, some (s.read a pData w)) else (s.write a pData w, some pData)) :
    Mealy.Matches driver registerStore Represents b s c := by
  have hstep : registerStore.step s c
      = (if isRead t then s else s.write a pData w,
          some (if isRead t then s.read a pData w else pData)) := by
    show s.apply c.call = _
    rw [happly]
    split_ifs <;> rfl
  constructor
  · rw [hrun.1, accessData_eq h, hstep]
  · rw [hstep]
    exact represents_accessDev h hrun.2

theorem driver_matches (b : SpiBus Chip Phase) (s : StoreState) (c : DriverCall)
    (h : Represents b s) : Mealy.Matches driver registerStore Represents b s c := by
  obtain ⟨call, hin⟩ := c
  cases call with
  | cc112xSpiWriteReg addr pData len =>
    have hrun := run_cc112xSpiReg plainView (t := radioBurstAccess ||| radioWriteAccess)
      (by decide) rfl hin pData b
    exact matches_of_access h ⟨congrArg some hrun.1, hrun.2⟩ rfl
  | cc112xSpiReadReg addr pData len =>
    have hrun := run_cc112xSpiReg plainView (t := radioBurstAccess ||| radioReadAccess)
      (by decide) rfl hin pData b
    exact matches_of_access h ⟨congrArg some hrun.1, hrun.2⟩ rfl
  | trx8BitRegAccess t addrByte pData len =>
    obtain ⟨ht, hn⟩ := hin
    have hrun (hmem : t ∈ accessTypes) := run_trx8_std plainView hmem hn pData len b
    rw [UInt8.ofNat_toNat] at hrun
    rcases ht with rfl | rfl
    · have hread := hrun (by decide)
      exact matches_of_access h ⟨congrArg some hread.1, hread.2⟩ rfl
    · have hwrite := hrun (by decide)
      exact matches_of_access h ⟨congrArg some hwrite.1, hwrite.2⟩ rfl
  | trx16BitRegAccess t extAddr regAddr pData len =>
    obtain ⟨ht, rfl⟩ := hin
    have hrun (hmem : t ∈ accessTypes) :=
      run_trx16_ext plainView hmem regAddr.toNat_lt pData len b
    rw [UInt8.ofNat_toNat] at hrun
    rcases ht with rfl | rfl
    · have hread := hrun (by decide)
      exact matches_of_access h ⟨congrArg some hread.1, hread.2⟩ rfl
    · have hwrite := hrun (by decide)
      exact matches_of_access h ⟨congrArg some hwrite.1, hwrite.2⟩ rfl
  | trxSpiCmdStrobe cmd =>
    obtain ⟨hstrobe, hne⟩ := hin
    have hdev : (driver.step b ⟨.trxSpiCmdStrobe cmd, hstrobe, hne⟩).1.dev = b.dev.strobe cmd :=
      run_trxSpiCmdStrobe_dev plainView hstrobe b
    refine ⟨rfl, ?_, ?_⟩
    · rw [hdev]
      exact (regs_command hne b.dev).trans h.1
    · rw [hdev]
      exact congrArg (· ++ [cmd]) h.2

/-- **The driver refines the register store.** Run any calls against any chip. After every one of
them the chip's registers are the store the calls describe, the strobes executed are the strobes
called for, once each and in order, and every read has left the store's values in `pData`. -/
theorem driver_refines_registerStore (calls : List DriverCall) (b : SpiBus Chip Phase) :
    Mealy.Tracks driver registerStore Represents b ⟨b.dev.regs, b.dev.strobes⟩ calls :=
  Mealy.tracks_of_simulation driver_matches ⟨rfl, rfl⟩ calls

end Wise1511
