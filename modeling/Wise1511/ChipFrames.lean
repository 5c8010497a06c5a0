import Wise1511.Chip
import Wise1511.RegAccess

/-!
# What the driver's frames do to the chip

`RegAccess` says which bytes each transport function puts into a frame, and `Chip` says what one
byte does. Here the two meet: a register access, in either space, of either width and direction,
is a block of the register file read into `pData` or written from it.

`accessDev` and `accessData` are those two effects for all four access types at once, and
`run_trx8_std`, `run_trx16_ext` say that the functions have exactly these effects. Nothing above
this file looks at a header byte again.
-/

namespace Wise1511

variable (view : Chip → ℕ → UInt8)

/-! ### Data phases -/

@[simp] theorem next_true (p : Phase) : Phase.next true p = p := rfl

@[simp] theorem next_false (p : Phase) : Phase.next false p = .header := rfl

theorem outputs_readBurst (c : Chip) (a : ℕ) (bs : List UInt8) :
    (cc112x view).outputs (c, .reg true true a) bs = CArray.slice (view c) a bs.length := by
  induction bs generalizing a with
  | nil => rfl
  | cons x bs ih =>
    rw [Mealy.outputs_cons, List.length_cons, CArray.slice_succ, ← ih]
    rfl

theorem after_readBurst (c : Chip) (a : ℕ) (bs : List UInt8) :
    ((cc112x view).after (c, .reg true true a) bs).1 = c := by
  induction bs generalizing a with
  | nil => rfl
  | cons x bs ih => exact ih (a + 1)

theorem after_writeBurst (c : Chip) (a : ℕ) (bs : List UInt8) :
    ((cc112x view).after (c, .reg false true a) bs).1
      = { c with regs := c.regs.overlay a bs } := by
  induction bs generalizing c a with
  | nil => rfl
  | cons x bs ih => exact ih (c.writeReg a x) (a + 1)

theorem dropRx_dropRx (c : Chip) (m n : ℕ) : (c.dropRx m).dropRx n = c.dropRx (m + n) := by
  simp [Chip.dropRx, List.drop_drop]

theorem popRx_succ (c : Chip) (n : ℕ) :
    c.popRx (n + 1) = c.rxFifo.headD c.underrun :: (c.dropRx 1).popRx n := by
  cases h : c.rxFifo <;>
    simp [Chip.popRx, Chip.dropRx, List.range_succ_eq_map, h, Function.comp_def]

theorem outputs_readFifo (c : Chip) (bs : List UInt8) :
    (cc112x view).outputs (c, .fifo true true) bs = c.popRx bs.length := by
  induction bs generalizing c with
  | nil => rfl
  | cons x bs ih =>
    rw [Mealy.outputs_cons, List.length_cons, popRx_succ, ← ih]
    rfl

theorem after_readFifo (c : Chip) (bs : List UInt8) :
    ((cc112x view).after (c, .fifo true true) bs).1 = c.dropRx bs.length := by
  induction bs generalizing c with
  | nil => rfl
  | cons x bs ih =>
    rw [Mealy.after_cons, List.length_cons, Nat.add_comm, ← dropRx_dropRx, ← ih]
    rfl

theorem after_writeFifo (c : Chip) (bs : List UInt8) :
    ((cc112x view).after (c, .fifo false true) bs).1 = c.pushTx bs := by
  induction bs generalizing c with
  | nil => simp [Chip.pushTx]
  | cons x bs ih =>
    rw [Mealy.after_cons]
    show ((cc112x view).after (c.pushTx [x], .fifo false true) bs).1 = c.pushTx (x :: bs)
    rw [ih]
    simp [Chip.pushTx]

/-- Popping no more than the FIFO holds gives its first bytes. -/
theorem popRx_eq_take (c : Chip) {n : ℕ} (h : n ≤ c.rxFifo.length) :
    c.popRx n = c.rxFifo.take n := by
  refine List.ext_getElem (by simp [Chip.popRx, h]) fun i hi hi' => ?_
  have hlt : i < c.rxFifo.length := by simp [Chip.popRx] at hi; omega
  simp [Chip.popRx, List.getElem?_eq_getElem hlt]

/-! ### Headers -/

/-- The four access types of `hal_spi_rf.h`. -/
def accessTypes : List UInt8 := [0x00, 0x40, 0x80, 0xC0]

/-- The read bit of an access type. -/
def isRead (t : UInt8) : Bool := t &&& 0x80 = 0x80

/-- The burst bit of an access type. -/
def isBurst (t : UInt8) : Bool := t &&& 0x40 = 0x40

theorem header_bits_std : ∀ t ∈ accessTypes, ∀ n < 0x2F,
    ((t ||| UInt8.ofNat n) &&& 0x3F = UInt8.ofNat n ∧ UInt8.ofNat n < 0x2F) ∧
      isRead (t ||| UInt8.ofNat n) = isRead t ∧ isBurst (t ||| UInt8.ofNat n) = isBurst t := by
  decide +kernel

theorem decodeHeader_std (c : Chip) {t : UInt8} (ht : t ∈ accessTypes) {n : ℕ} (hn : n < 0x2F) :
    c.decodeHeader (t ||| UInt8.ofNat n) = (c, .reg (isRead t) (isBurst t) n) := by
  obtain ⟨⟨haddr, hlt⟩, hread, hburst⟩ := header_bits_std t ht n hn
  have hout : ∀ a : UInt8, a < 0x2F → a ≠ extSpace ∧ a ≠ 0x3F ∧ a ≠ 0x3E ∧ ¬ 0x30 ≤ a := by
    decide +kernel
  obtain ⟨h₁, h₂, h₃, h₄⟩ := hout _ hlt
  have hnat : (UInt8.ofNat n).toNat = n := by
    rw [UInt8.toNat_ofNat']; exact Nat.mod_eq_of_lt (by omega)
  rw [Chip.decodeHeader, haddr, if_neg h₁, if_neg h₂, if_neg h₃, if_neg h₄, hnat, ← hread,
    ← hburst]
  rfl

theorem decodeHeader_ext (c : Chip) {t : UInt8} (ht : t ∈ accessTypes) :
    c.decodeHeader (t ||| extSpace) = (c, .extAddr (isRead t) (isBurst t)) := by
  simp only [accessTypes, List.mem_cons, List.not_mem_nil, or_false] at ht
  rcases ht with rfl | rfl | rfl | rfl <;> rfl

/-- The command strobes. -/
def IsStrobe (cmd : UInt8) : Prop := 0x30 ≤ cmd ∧ cmd ≤ 0x3D

instance (cmd : UInt8) : Decidable (IsStrobe cmd) := inferInstanceAs (Decidable (_ ∧ _))

theorem decodeHeader_strobe (c : Chip) {cmd : UInt8} (h : IsStrobe cmd) :
    c.decodeHeader cmd = (c.strobe cmd, .header) := by
  have hbits : ∀ x : UInt8, IsStrobe x →
      x &&& 0x3F = x ∧ x ≠ extSpace ∧ x ≠ 0x3F ∧ x ≠ 0x3E := by decide +kernel
  obtain ⟨haddr, h₁, h₂, h₃⟩ := hbits cmd h
  rw [Chip.decodeHeader, haddr, if_neg h₁, if_neg h₂, if_neg h₃, if_pos h.1]

/-! ### Register accesses -/

/-- How many registers an access touches: the length counts only in a burst. -/
def width (t : UInt8) (len : ℕ) : ℕ := if isBurst t then len else 1

/-- The chip after an access of `w` registers from `a` on. -/
def accessDev (t : UInt8) (a w : ℕ) (pData : CArray) (c : Chip) : Chip :=
  if isRead t then c else { c with regs := c.regs.overlay a (pData.slice 0 w) }

/-- The caller's array after it. -/
def accessData (t : UInt8) (a w : ℕ) (pData : CArray) (c : Chip) : CArray :=
  if isRead t then pData.overlay 0 (CArray.slice (view c) a w) else pData

/-- The data phase of a register access, for every access type. -/
theorem dataPhase {t : UInt8} (ht : t ∈ accessTypes) (a len : ℕ) (pData : CArray) (c : Chip) :
    ((cc112x view).after (c, .reg (isRead t) (isBurst t) a) (dataOut t pData len)).1
        = accessDev t a (width t len) pData c ∧
      dataIn t pData ((cc112x view).outputs (c, .reg (isRead t) (isBurst t) a)
        (dataOut t pData len)) = accessData view t a (width t len) pData c := by
  simp only [accessTypes, List.mem_cons, List.not_mem_nil, or_false] at ht
  rcases ht with rfl | rfl | rfl | rfl
  · -- single write
    exact ⟨rfl, rfl⟩
  · -- burst write
    exact ⟨after_writeBurst view c a _, rfl⟩
  · -- single read
    exact ⟨rfl, rfl⟩
  · -- burst read
    have hout := outputs_readBurst view c a (List.replicate len 0)
    rw [List.length_replicate] at hout
    exact ⟨after_readBurst view c a _, congrArg (pData.overlay 0) hout⟩

/-- **A standard-space access**, as an effect on the register file and on `pData`. -/
theorem run_trx8_std {t : UInt8} (ht : t ∈ accessTypes) {n : ℕ} (hn : n < 0x2F) (pData : CArray)
    (len : UInt16) (b : SpiBus Chip Phase) :
    let r := (trx8BitRegAccess (cc112x view) t (UInt8.ofNat n) pData len).run b
    r.1.2 = accessData view t n (width t len.toNat) pData b.dev ∧
      r.2.dev = accessDev t n (width t len.toNat) pData b.dev := by
  obtain ⟨hdev, hdata⟩ := dataPhase view ht n len.toNat pData b.dev
  rw [run_trx8BitRegAccess]
  have hhead : ((cc112x view).step (b.dev, (cc112x view).start) (t ||| UInt8.ofNat n)).1
      = (b.dev, .reg (isRead t) (isBurst t) n) := decodeHeader_std b.dev ht hn
  constructor
  · rw [SpiBus.frameReplies_eq, Mealy.outputs_cons, List.drop_one, List.tail_cons, hhead]
    exact hdata
  · rw [SpiBus.frame_dev, Mealy.after_cons, hhead]
    exact hdev

/-- **An extended-space access**, likewise. -/
theorem run_trx16_ext {t : UInt8} (ht : t ∈ accessTypes) {n : ℕ} (hn : n < 0x100) (pData : CArray)
    (len : UInt8) (b : SpiBus Chip Phase) :
    let r := (trx16BitRegAccess (cc112x view) t extSpace (UInt8.ofNat n) pData len).run b
    r.1.2 = accessData view t (0x2F00 + n) (width t len.toNat) pData b.dev ∧
      r.2.dev = accessDev t (0x2F00 + n) (width t len.toNat) pData b.dev := by
  obtain ⟨hdev, hdata⟩ := dataPhase view ht (0x2F00 + n) len.toNat pData b.dev
  rw [run_trx16BitRegAccess]
  have hhead : ((cc112x view).step (b.dev, (cc112x view).start) (t ||| extSpace)).1
      = (b.dev, .extAddr (isRead t) (isBurst t)) := decodeHeader_ext b.dev ht
  have hext : ((cc112x view).step (b.dev, .extAddr (isRead t) (isBurst t)) (UInt8.ofNat n)).1
      = (b.dev, .reg (isRead t) (isBurst t) (0x2F00 + n)) := by
    have hnat : (UInt8.ofNat n).toNat = n := by
      rw [UInt8.toNat_ofNat']; exact Nat.mod_eq_of_lt hn
    show (b.dev, Phase.reg _ _ (0x2F00 + (UInt8.ofNat n).toNat)) = _
    rw [hnat]
  constructor
  · rw [SpiBus.frameReplies_eq, Mealy.outputs_cons, hhead, Mealy.outputs_cons, hext]
    exact hdata
  · rw [SpiBus.frame_dev, Mealy.after_cons, hhead, Mealy.after_cons, hext]
    exact hdev

/-- The block of `len ≥ 1` registers from `addr` on stays inside one register space. -/
def BlockInSpace (addr : UInt16) (len : UInt8) : Prop :=
  1 ≤ len.toNat ∧ (addr.toNat + len.toNat ≤ 0x2F ∨
    (0x2F00 ≤ addr.toNat ∧ addr.toNat + len.toNat ≤ 0x3000))

instance (addr : UInt16) (len : UInt8) : Decidable (BlockInSpace addr len) :=
  inferInstanceAs (Decidable (_ ∧ _))

/-- The wrappers, in either space: a burst of `len` registers at the sixteen-bit address. -/
theorem run_cc112xSpiReg {t : UInt8} (ht : t ∈ accessTypes) (hburst : isBurst t = true)
    {addr : UInt16} {len : UInt8} (hblock : BlockInSpace addr len) (pData : CArray)
    (b : SpiBus Chip Phase) :
    let r := (cc112xSpiReg (cc112x view) t addr pData len).run b
    r.1.2 = accessData view t addr.toNat len.toNat pData b.dev ∧
      r.2.dev = accessDev t addr.toNat len.toNat pData b.dev := by
  obtain ⟨hlen, hstd | ⟨hlo, hhi⟩⟩ := hblock
  · have hn : addr.toNat < 0x2F := by omega
    have hrun := run_trx8_std view ht hn pData len.toUInt16 b
    rw [width, if_pos hburst, UInt8.toNat_toUInt16] at hrun
    rw [← UInt16.ofNat_toNat (x := addr), cc112xSpiReg_std _ t hn, UInt16.ofNat_toNat]
    exact hrun
  · obtain ⟨m, hm⟩ := Nat.exists_eq_add_of_le hlo
    have hm' : m < 0x100 := by omega
    have hrun := run_trx16_ext view ht hm' pData len b
    rw [width, if_pos hburst, ← hm] at hrun
    rw [← UInt16.ofNat_toNat (x := addr), hm, cc112xSpiReg_ext _ t hm', ← hm,
      UInt16.ofNat_toNat]
    exact hrun

/-- **A strobe is executed once.** The idle byte that follows is a header whose access is cut
off. -/
theorem run_trxSpiCmdStrobe_dev {cmd : UInt8} (h : IsStrobe cmd) (b : SpiBus Chip Phase) :
    ((trxSpiCmdStrobe (cc112x view) cmd).run b).2.dev = b.dev.strobe cmd := by
  rw [run_trxSpiCmdStrobe, SpiBus.frame_dev, Mealy.after_cons]
  have hhead : ((cc112x view).step (b.dev, (cc112x view).start) cmd).1
      = (b.dev.strobe cmd, .header) := decodeHeader_strobe b.dev h
  rw [hhead]
  rfl

end Wise1511
