import Wise1511.ConfigTables
import Wise1511.Lib.Binary32
import Wise1511.RadioDriver

/-!
# Setting the frequency

`radio_set_freq` takes a frequency in kHz and writes a 24-bit word, in units of the crystal
frequency over `2 ^ 18`, to `FREQ2`–`FREQ0`. It computes the word in single precision: the product
with `RF_LO_DIVIDER` is converted, multiplied by the rounded reciprocal of the crystal frequency,
scaled by `2 ^ 16`, and truncated.

The reciprocal is rounded up, so the word is never below the integer part of the ideal value; the
roundings put it at most 1.3 units above. That is 160 Hz. On channels that are a multiple of 125 kHz
the ideal value is an integer, and below 1024 MHz nothing is left of the roundings after truncation.
From 2048 MHz on the word needs a 25th bit, which is not written.

A value of `2 ^ 32` or more has no conversion to `uint32` that the language defines; here it
saturates. No such value comes from a frequency the register can hold.

## Main results

* `freqWord_mem` — the word against its ideal value
* `radioSetFreq_tunes_iff` — what the chip is tuned to
* `radioSetFreq_exact` — channels tuned exactly
-/

namespace Wise1511

open NearestEven Binary32

/-- `RF_LO_DIVIDER`. -/
def rfLoDivider : UInt32 := 4

/-- `RF_XTAL_FREQ`, in kHz. -/
def rfXtalFreq : UInt32 := 32000

/-- `freq_regs_uint32`. -/
def freqWord (freq : UInt32) : UInt32 :=
  let fVco : Float32 := (freq * rfLoDivider).toFloat32
  let fVco := fVco * ((1 : UInt32).toFloat32 / rfXtalFreq.toFloat32)
  let fVco := fVco * (65536 : UInt32).toFloat32
  fVco.toUInt32

/-- `freq_regs`: three bytes of the word, the lowest last. -/
def freqRegs (freqRegsUint32 : UInt32) : CArray
  | 0 => (freqRegsUint32 >>> 16).toUInt8
  | 1 => (freqRegsUint32 >>> 8).toUInt8
  | _ => freqRegsUint32.toUInt8

/-- `radio_set_freq`. -/
def radioSetFreq {σ φ : Type} (S : SpiSlave σ φ) (freq : UInt32) : SpiM σ φ Unit := do
  let _ ← trx16BitRegAccess S (radioWriteAccess ||| radioBurstAccess) 0x2F (low Reg.freq2)
    (freqRegs (freqWord freq)) 3
  pure ()

/-! ### The word -/

/-- `1/(float)RF_XTAL_FREQ`, rounded up. -/
theorem hasValue_reciprocal :
    HasValue ((1 : UInt32).toFloat32 / rfXtalFreq.toFloat32) (8589935 / 2 ^ 38) := by
  have hvalue : HasValue ((1 : UInt32).toFloat32 / rfXtalFreq.toFloat32)
      ((8589935 : ℕ) * 2 ^ (-38 : ℤ)) :=
    .normal (by norm_num) rfl (by norm_num) (by norm_num)
  convert hvalue using 1
  norm_num

theorem hasValue_65536 : HasValue (65536 : UInt32).toFloat32 (2 ^ (16 : ℤ)) := by
  have hnat : ((65536 : UInt32).toNat : ℚ) = 2 ^ (16 : ℤ) := by
    rw [show (65536 : UInt32).toNat = 65536 from rfl]
    norm_num
  have hvalue := hasValue_toFloat32 65536
  rwa [hnat, fl_of_representable ⟨1, 16, by norm_num, by norm_num⟩] at hvalue

/-- The value that is truncated: one rounding of the product with the reciprocal. -/
def scaled (freq : ℕ) : ℚ := fl 24 (freq * (8589935 / 2 ^ 20))

theorem scaled_mem {f : ℕ} (hpos : 0 < f) (h : f < 2 ^ 24) :
    1 ≤ scaled f ∧ scaled f ≤ 2 ^ 28 := by
  have hone : (1 : ℚ) ≤ f := by exact_mod_cast hpos
  have hmax : (f : ℚ) < 2 ^ 24 := by exact_mod_cast h
  constructor
  · exact le_fl (by norm_num) ⟨1, 0, by norm_num, by norm_num⟩ zero_le_one (by linarith)
  · exact fl_le (by norm_num) ⟨1, 28, by norm_num, by norm_num⟩ (by positivity) (by linarith)

/-- While the product with `RF_LO_DIVIDER` is exact, the word is the integer part of `scaled`. -/
theorem toNat_freqWord {freq : UInt32} (h : freq.toNat < 2 ^ 24) :
    (freqWord freq).toNat = ⌊scaled freq.toNat⌋₊ := by
  rcases Nat.eq_zero_or_pos freq.toNat with hzero | hpos
  · obtain rfl : freq = 0 := UInt32.toNat_inj.mp hzero
    rw [hzero, scaled, Nat.cast_zero, zero_mul, fl_zero, Nat.floor_zero]
    rfl
  have hproduct : (freq * rfLoDivider).toNat = freq.toNat * 4 := by
    rw [UInt32.toNat_mul, show rfLoDivider.toNat = 4 from rfl, Nat.mod_eq_of_lt (by omega)]
  have hvco := hasValue_toFloat32 (freq * rfLoDivider)
  rw [hproduct] at hvco
  rw [freqWord]
  generalize freq.toNat = f at h hpos hvco
  have hexact : fl 24 ((f * 4 : ℕ) : ℚ) = f * 4 := by
    rw [fl_of_representable ⟨f, 2, h, by norm_num⟩]
    norm_num
  rw [hexact] at hvco
  have hone : (1 : ℚ) ≤ f := by exact_mod_cast hpos
  have hmax : (f : ℚ) < 2 ^ 24 := by exact_mod_cast h
  have hdivided := hvco.mul hasValue_reciprocal
    (.inr ⟨by norm_num; linarith, by norm_num; linarith⟩)
  -- scaling by `2 ^ 16` is exact, and the rounding behind it does nothing
  have hscale : fl 24 ((f : ℚ) * 4 * (8589935 / 2 ^ 38)) * 2 ^ (16 : ℤ) = scaled f := by
    rw [scaled, ← fl_mul_zpow 24 (by positivity)]
    congr 1
    norm_num
    ring
  have hidem : fl 24 (scaled f) = scaled f :=
    fl_of_representable (representable_fl (by norm_num) (by positivity))
  obtain ⟨hlo, hhi⟩ := scaled_mem hpos h
  have hword := hdivided.mul hasValue_65536
    (.inr (by rw [hscale]; exact ⟨le_trans (by norm_num) hlo, lt_of_le_of_lt hhi (by norm_num)⟩))
  rw [hscale, hidem] at hword
  have hfloor : ⌊scaled f⌋₊ < 2 ^ 32 - 1 := by
    rw [Nat.floor_lt (zero_le_one.trans hlo)]
    exact lt_of_le_of_lt hhi (by norm_num)
  rw [hword.toNat_toUInt32, min_eq_left hfloor.le]

/-- Half a unit of the last place of `scaled`, by the size of the frequency. -/
theorem abs_scaled_sub_le {f k : ℕ} (h : (f : ℚ) * (8589935 / 2 ^ 20) < 2 ^ k) (hpos : 0 < f) :
    |scaled f - f * (8589935 / 2 ^ 20)| ≤ 2 ^ ((k : ℤ) - 25) := by
  have hf : (0 : ℚ) < f := by exact_mod_cast hpos
  have hlog := log_lt (k := k) (show (0 : ℚ) < f * (8589935 / 2 ^ 20) by positivity)
    (by rwa [zpow_natCast])
  refine (abs_fl_sub_le 24 _).trans ?_
  rw [div_eq_mul_inv, ← zpow_neg_one, ← zpow_add₀ two_ne_zero]
  refine zpow_le_zpow_right₀ one_le_two ?_
  rw [ulpExp]
  push_cast
  omega

/-- What `scaled` rounds, for a frequency the register can hold. -/
theorem scaled_bounds {f : ℕ} (hpos : 0 < f) (h : f < 2048000) :
    (f : ℚ) * (8589935 / 2 ^ 20) - 1 / 2 ≤ scaled f ∧
      scaled f ≤ f * (8589935 / 2 ^ 20) + 1 / 2 := by
  have hmax : (f : ℚ) ≤ 2047999 := by exact_mod_cast Nat.le_of_lt_succ h
  have herr := abs_le.mp (abs_scaled_sub_le (f := f) (k := 24) (by norm_num; linarith) hpos)
  norm_num at herr ⊢
  constructor <;> linarith [herr.1, herr.2]

/-- The integer part of the ideal value needs no rounding, so it is reached. -/
theorem ideal_le_scaled {f : ℕ} (h : f < 2048000) : ⌊(f : ℚ) * (1024 / 125)⌋₊ ≤ ⌊scaled f⌋₊ := by
  have hmax : (f : ℚ) ≤ 2047999 := by exact_mod_cast Nat.le_of_lt_succ h
  have hzero : (0 : ℚ) ≤ f := Nat.cast_nonneg f
  refine Nat.le_floor (le_fl (by norm_num) ⟨⌊(f : ℚ) * (1024 / 125)⌋₊, 0, ?_, by simp⟩
    (Nat.cast_nonneg _) ?_)
  · rw [Nat.floor_lt (by positivity)]
    norm_num
    linarith
  · refine (Nat.floor_le (by positivity)).trans ?_
    norm_num
    linarith

/-- **The word against its ideal value**, `1024 / 125` units for a kilohertz. -/
theorem freqWord_mem {freq : UInt32} (h : freq.toNat < 2048000) :
    (freq.toNat : ℚ) * (1024 / 125) - 1 < (freqWord freq).toNat ∧
      ((freqWord freq).toNat : ℚ) < freq.toNat * (1024 / 125) + 13 / 10 ∧
      (freqWord freq).toNat < 2 ^ 24 := by
  rw [toNat_freqWord (by omega)]
  generalize freq.toNat = f at h
  rcases Nat.eq_zero_or_pos f with rfl | hpos
  · norm_num [scaled]
  have hmax : (f : ℚ) ≤ 2047999 := by exact_mod_cast Nat.le_of_lt_succ h
  have hupper := (scaled_bounds hpos h).2
  have hfloor := Nat.floor_le (zero_le_one.trans (scaled_mem hpos (by omega)).1)
  have hideal : (⌊(f : ℚ) * (1024 / 125)⌋₊ : ℚ) ≤ ⌊scaled f⌋₊ := by
    exact_mod_cast ideal_le_scaled h
  have hlt := Nat.lt_floor_add_one ((f : ℚ) * (1024 / 125))
  norm_num at hupper
  refine ⟨by linarith, by linarith, ?_⟩
  rw [Nat.floor_lt (zero_le_one.trans (scaled_mem hpos (by omega)).1)]
  push_cast
  linarith

/-- Where the ideal value is an integer below `2 ^ 23`, it is the word. -/
theorem freqWord_exact {freq : UInt32} (h : freq.toNat < 1024000) (hdvd : 125 ∣ freq.toNat) :
    (freqWord freq).toNat = freq.toNat / 125 * 1024 := by
  rw [toNat_freqWord (by omega)]
  generalize freq.toNat = f at h hdvd
  obtain ⟨n, rfl⟩ := hdvd
  rw [Nat.mul_div_cancel_left n (by norm_num)]
  rcases Nat.eq_zero_or_pos (125 * n) with hzero | hpos
  · obtain rfl : n = 0 := by omega
    simp [scaled]
  have hn : (n : ℚ) ≤ 8191 := by exact_mod_cast (show n ≤ 8191 by omega)
  have hvalue : ((125 * n : ℕ) : ℚ) * (1024 / 125) = (n * 1024 : ℕ) := by
    push_cast
    ring
  have hlow := ideal_le_scaled (f := 125 * n) (by omega)
  rw [hvalue, Nat.floor_natCast] at hlow
  refine le_antisymm ?_ hlow
  have herr := abs_le.mp (abs_scaled_sub_le (f := 125 * n) (k := 23)
    (by push_cast; norm_num; linarith) hpos)
  push_cast at herr
  norm_num at herr
  rw [← Nat.lt_succ_iff, Nat.floor_lt (zero_le_one.trans (scaled_mem hpos (by omega)).1)]
  push_cast
  linarith [herr.2]

/-! ### What the chip is tuned to -/

variable (view : Chip → ℕ → UInt8)

/-- The 24-bit word in `FREQ2`–`FREQ0`. -/
def freqReg (regs : CArray) : ℕ :=
  (regs Reg.freq2.toNat).toNat * 2 ^ 16 + (regs Reg.freq1.toNat).toNat * 2 ^ 8
    + (regs Reg.freq0.toNat).toNat

/-- The carrier frequency in Hz: the VCO runs at the word times the crystal frequency over `2 ^ 16`,
and is divided by four. -/
def carrier (regs : CArray) : ℚ := freqReg regs * 32000000 / 2 ^ 16 / 4

/-- `radio_set_freq` overwrites the three registers, and that is all it does. -/
theorem run_radioSetFreq_dev (freq : UInt32) (b : SpiBus Chip Phase) :
    ((radioSetFreq (cc112x view) freq).run b).2.dev
      = { b.dev with
          regs := b.dev.regs.overlay Reg.freq2.toNat ((freqRegs (freqWord freq)).slice 0 3) } := by
  have hmem : radioWriteAccess ||| radioBurstAccess ∈ accessTypes := by decide
  rw [radioSetFreq, SpiM.run_bind, SpiM.run_pure]
  exact (run_trx16_ext view hmem (n := 0x0C) (by norm_num) (freqRegs (freqWord freq)) 3 b).2

/-- The registers hold the low 24 bits of the word. -/
theorem freqReg_radioSetFreq (freq : UInt32) (b : SpiBus Chip Phase) :
    freqReg ((radioSetFreq (cc112x view) freq).run b).2.dev.regs
      = (freqWord freq).toNat % 2 ^ 24 := by
  rw [run_radioSetFreq_dev]
  generalize freqWord freq = w
  have hregs : ∀ i < 3, CArray.overlay b.dev.regs Reg.freq2.toNat ((freqRegs w).slice 0 3)
      (Reg.freq2.toNat + i) = freqRegs w i := by
    intro i hi
    rw [CArray.overlay_add _ _ (by simpa using hi), CArray.getElem_slice, Nat.zero_add]
  have hbytes : (freqRegs w 0).toNat * 2 ^ 16 + (freqRegs w 1).toNat * 2 ^ 8 + (freqRegs w 2).toNat
      = w.toNat % 2 ^ 24 := by
    simp only [freqRegs, UInt32.toNat_toUInt8, UInt32.toNat_shiftRight, Nat.shiftRight_eq_div_pow,
      UInt32.reduceToNat, Nat.reduceMod]
    omega
  rw [← hbytes, ← hregs 0 (by norm_num), ← hregs 1 (by norm_num), ← hregs 2 (by norm_num)]
  rfl

theorem carrier_radioSetFreq (freq : UInt32) (b : SpiBus Chip Phase) :
    carrier ((radioSetFreq (cc112x view) freq).run b).2.dev.regs
      = ((freqWord freq).toNat % 2 ^ 24 : ℕ) * (15625 / 128) := by
  rw [carrier, freqReg_radioSetFreq]
  ring

/-- **The chip is tuned to the frequency asked for exactly when the register can hold its word**: to
within 160 Hz below 2048 MHz, and not from there on. No other register changes. -/
theorem radioSetFreq_tunes_iff (freq : UInt32) (b : SpiBus Chip Phase) :
    let c := ((radioSetFreq (cc112x view) freq).run b).2.dev
    (|carrier c.regs - 1000 * freq.toNat| < 160 ↔ freq.toNat < 2048000) ∧
      ∀ a, a < Reg.freq2.toNat ∨ Reg.freq0.toNat < a → c.regs a = b.dev.regs a := by
  intro c
  constructor
  · show |carrier ((radioSetFreq (cc112x view) freq).run b).2.dev.regs - _| < _ ↔ _
    rw [carrier_radioSetFreq, abs_lt]
    constructor
    · rintro ⟨hlow, -⟩
      by_contra hge
      rcases (not_lt.mp hge).eq_or_lt with heq | hlt
      · -- the word is `2 ^ 24`, and its low 24 bits are zero
        obtain rfl : freq = 2048000 := UInt32.toNat_inj.mp heq.symm
        have hword : (freqWord 2048000).toNat = 2 ^ 24 := by decide +kernel
        rw [hword, Nat.mod_self, ← heq] at hlow
        norm_num at hlow
      · have hmod := Nat.mod_lt (freqWord freq).toNat (show 0 < 2 ^ 24 by norm_num)
        generalize (freqWord freq).toNat % 2 ^ 24 = reg at hlow hmod
        have hreg : (reg : ℚ) ≤ 16777215 := by exact_mod_cast Nat.le_of_lt_succ hmod
        have hfreq : (2048001 : ℚ) ≤ freq.toNat := by exact_mod_cast hlt
        linarith
    · intro hlt
      obtain ⟨hlow, hhigh, hword⟩ := freqWord_mem hlt
      rw [Nat.mod_eq_of_lt hword]
      constructor <;> linarith
  · intro a ha
    show ((radioSetFreq (cc112x view) freq).run b).2.dev.regs a = _
    rw [run_radioSetFreq_dev]
    rcases ha with ha | ha
    · exact CArray.overlay_of_lt _ _ ha
    · exact CArray.overlay_of_ge _ _ ha

/-- **Channels on a raster of 125 kHz below 1024 MHz are tuned exactly.** -/
theorem radioSetFreq_exact {freq : UInt32} (h : freq.toNat < 1024000) (hdvd : 125 ∣ freq.toNat)
    (b : SpiBus Chip Phase) :
    carrier ((radioSetFreq (cc112x view) freq).run b).2.dev.regs = 1000 * freq.toNat := by
  rw [carrier_radioSetFreq, freqWord_exact h hdvd, Nat.mod_eq_of_lt (by omega)]
  obtain ⟨n, hn⟩ := hdvd
  rw [hn, Nat.mul_div_cancel_left n (by norm_num)]
  push_cast
  ring

/-- The channel of the factory tests. -/
theorem radioSetFreq_exact_868 :
    carrier ((radioSetFreq (cc112x liveView) 868000).run resetBus).2.dev.regs = 868000000 := by
  have hcarrier := @radioSetFreq_exact liveView 868000 (by decide) (by decide) resetBus
  rw [hcarrier, show (868000 : UInt32).toNat = 868000 from rfl]
  norm_num

end Wise1511
