import Wise1511.RadioDriver

/-!
# The frequency error

`radio_freq_error` takes the two's complement estimate apart into a sign and a magnitude, scales the
magnitude to Hertz in two truncating steps, and puts the sign back. The scaling is right to within
2 Hz and never overflows.

The sign is taken apart wrongly. A negative reading `s` is `65536 + s` as sixteen bits, and what is
subtracted is 65535, so that the magnitude used is `-s - 1`; and the test for a negative reading
leaves 32768 out. So every negative reading is off: -1 by all of its 30 Hz, -32768 by its sign.

## Main results

* `toInt_freqErrorOf` — the arithmetic, without machine words
* `freqError_iff` — which of the properties of a frequency error hold of which readings
-/

namespace Wise1511

/-! ### The arithmetic -/

/-- The two scaling steps, in unbounded arithmetic. -/
def hertz (est : ℕ) : ℕ := est * 8000 / 256 * 1000 / 1024

/-- The sixteen bits of the estimate. -/
def estimateBits (est1 est0 : UInt8) : ℕ := 256 * est1.toNat + est0.toNat

theorem estimateBits_lt (est1 est0 : UInt8) : estimateBits est1 est0 < 65536 := by
  have h1 := est1.toNat_lt
  have h0 := est0.toNat_lt
  rw [estimateBits]
  omega

/-- The scaling is exact to less than 2 Hz, from below. -/
theorem hertz_bounds (n : ℕ) :
    2 ^ 18 * hertz n ≤ 8000000 * n ∧ 8000000 * n < 2 ^ 18 * (hertz n + 2) := by
  rw [hertz]
  omega

/-- A step of the estimate is some 30 Hz, also after truncation. -/
theorem hertz_succ (n : ℕ) : hertz n + 29 ≤ hertz (n + 1) := by
  rw [hertz, hertz]
  omega

theorem hertz_mono {m n : ℕ} (h : m ≤ n) : hertz m ≤ hertz n := by
  rw [hertz, hertz]
  omega

/-- A word as `long`. -/
theorem toInt_toInt32 (x : UInt32) :
    x.toInt32.toInt = if x.toNat < 2 ^ 31 then (x.toNat : ℤ) else x.toNat - 2 ^ 32 := by
  show x.toBitVec.toInt = _
  rw [BitVec.toInt_eq_toNat_cond, UInt32.toNat_toBitVec]
  split_ifs <;> omega

/-- The two scaling steps of the program. -/
def freqScale (est : UInt32) : UInt32 := (((est * xtalOverDivider) >>> 8) * 1000) >>> 10

/-- Neither multiplication overflows. -/
def NoOverflow (est : UInt32) : Prop :=
  est.toNat * xtalOverDivider.toNat < 2 ^ 32 ∧
    ((est * xtalOverDivider) >>> 8).toNat * 1000 < 2 ^ 32

/-- Up to the largest magnitude, words scale as numbers do. -/
theorem toNat_freqScale {est : UInt32} (h : est.toNat ≤ 32768) :
    NoOverflow est ∧ (freqScale est).toNat = hertz est.toNat := by
  have hxtal : est.toNat * xtalOverDivider.toNat = est.toNat * 8000 := rfl
  have hfirst : ((est * xtalOverDivider) >>> 8).toNat = est.toNat * 8000 / 256 := by
    rw [UInt32.toNat_shiftRight, UInt32.toNat_mul, hxtal, Nat.shiftRight_eq_div_pow]
    show est.toNat * 8000 % 2 ^ 32 / 2 ^ 8 = _
    omega
  refine ⟨⟨by omega, by omega⟩, ?_⟩
  rw [freqScale, UInt32.toNat_shiftRight, UInt32.toNat_mul, hfirst, Nat.shiftRight_eq_div_pow,
    hertz]
  show est.toNat * 8000 / 256 * 1000 % 2 ^ 32 / 2 ^ 10 = _
  omega

/-- The estimate as the program puts it together. -/
def freqRegError (est1 est0 : UInt8) : UInt32 := (est1.toUInt32 <<< 8) + est0.toUInt32

theorem toNat_freqRegError (est1 est0 : UInt8) :
    (freqRegError est1 est0).toNat = estimateBits est1 est0 := by
  have hlt := estimateBits_lt est1 est0
  rw [estimateBits] at hlt ⊢
  rw [freqRegError, UInt32.toNat_add, UInt32.toNat_shiftLeft, UInt8.toNat_toUInt32,
    UInt8.toNat_toUInt32, Nat.shiftLeft_eq]
  show (est1.toNat * 2 ^ 8 % 2 ^ 32 + est0.toNat) % 2 ^ 32 = _
  omega

/-- The magnitude as the program takes it. -/
def freqMagnitude (est1 est0 : UInt8) : UInt32 :=
  if 32768 < freqRegError est1 est0 then -(freqRegError est1 est0 - 65535)
  else freqRegError est1 est0

theorem lt_freqRegError_iff (est1 est0 : UInt8) :
    32768 < freqRegError est1 est0 ↔ 32768 < estimateBits est1 est0 := by
  rw [UInt32.lt_iff_toNat_lt, toNat_freqRegError]
  rfl

theorem toNat_freqMagnitude (est1 est0 : UInt8) : (freqMagnitude est1 est0).toNat =
    if 32768 < estimateBits est1 est0 then 65535 - estimateBits est1 est0
    else estimateBits est1 est0 := by
  have hbits := toNat_freqRegError est1 est0
  have hlt := estimateBits_lt est1 est0
  rw [freqMagnitude, UInt32.neg_sub]
  simp only [lt_freqRegError_iff]
  split_ifs
  · have hle : freqRegError est1 est0 ≤ 65535 := by
      rw [UInt32.le_iff_toNat_le, hbits]
      exact Nat.le_of_lt_succ hlt
    rw [UInt32.toNat_sub_of_le _ _ hle, hbits]
    rfl
  · exact hbits

theorem toNat_freqMagnitude_le (est1 est0 : UInt8) :
    (freqMagnitude est1 est0).toNat ≤ 32768 := by
  have hlt := estimateBits_lt est1 est0
  rw [toNat_freqMagnitude]
  split_ifs <;> omega

theorem freqErrorOf_eq (est1 est0 : UInt8) : freqErrorOf est1 est0 =
    if 32768 < freqRegError est1 est0 then (-freqScale (freqMagnitude est1 est0)).toInt32
    else (freqScale (freqMagnitude est1 est0)).toInt32 := by
  by_cases h : 32768 < freqRegError est1 est0
  · rw [if_pos h, freqMagnitude, if_pos h]
    rw [freqRegError] at h ⊢
    simp only [freqErrorOf, h, decide_true, if_true]
    rfl
  · rw [if_neg h, freqMagnitude, if_neg h]
    rw [freqRegError] at h ⊢
    simp only [freqErrorOf, h, decide_false, if_false, Bool.false_eq_true]
    rfl

/-- **The arithmetic, without machine words.** -/
theorem toInt_freqErrorOf (est1 est0 : UInt8) : (freqErrorOf est1 est0).toInt =
    if 32768 < estimateBits est1 est0 then -(hertz (65535 - estimateBits est1 est0) : ℤ)
    else hertz (estimateBits est1 est0) := by
  have hmag := toNat_freqMagnitude est1 est0
  have hscale := (toNat_freqScale (toNat_freqMagnitude_le est1 est0)).2
  have hmax : hertz (freqMagnitude est1 est0).toNat ≤ 1000000 :=
    hertz_mono (toNat_freqMagnitude_le est1 est0)
  rw [freqErrorOf_eq]
  simp only [lt_freqRegError_iff]
  split_ifs at hmag ⊢ with hsign
  · rw [toInt_toInt32, UInt32.toNat_neg, hscale, hmag, show UInt32.size = 2 ^ 32 from rfl]
    rw [hmag] at hmax
    split_ifs <;> omega
  · rw [toInt_toInt32, hscale, if_pos (by omega), hmag]

/-! ### The properties of a frequency error -/

/-- Sixteen bits as a two's complement number. -/
def signed (bits : ℕ) : ℤ := if bits < 32768 then bits else bits - 65536

/-- The estimate of a chip. -/
def reading (c : Chip) : ℤ :=
  signed (estimateBits (c.regs freqoffEst1.toNat) (c.regs freqoffEst0.toNat))

/-- What `radio_freq_error` returns. -/
def freqError (b : SpiBus Chip Phase) : ℤ :=
  ((radioFreqError (cc112x liveView)).run b).1.toInt

/-- `hz` is within 2 Hz of `s * 8000 * 1000 / 2 ^ 18`. -/
def NearHertz (s hz : ℤ) : Prop :=
  8000 * 1000 * s - 2 * 2 ^ 18 ≤ 2 ^ 18 * hz ∧ 2 ^ 18 * hz ≤ 8000 * 1000 * s + 2 * 2 ^ 18

/-- Both numbers are negative, or both are positive, or both are zero. -/
def SameSign (x y : ℤ) : Prop := (x < 0 ↔ y < 0) ∧ (0 < x ↔ 0 < y)

theorem reading_bounds (c : Chip) : -32768 ≤ reading c ∧ reading c ≤ 32767 := by
  have hlt := estimateBits_lt (c.regs freqoffEst1.toNat) (c.regs freqoffEst0.toNat)
  rw [reading, signed]
  split_ifs <;> omega

/-- What is returned for a reading: the scaled reading from zero up, the magnitude one short below,
and the wrong sign at the lower end. -/
theorem freqError_eq (b : SpiBus Chip Phase) : freqError b =
    if 0 ≤ reading b.dev then (hertz (reading b.dev).toNat : ℤ)
    else if reading b.dev = -32768 then (hertz 32768 : ℤ)
    else -(hertz (-reading b.dev - 1).toNat : ℤ) := by
  have hlt := estimateBits_lt (b.dev.regs freqoffEst1.toNat) (b.dev.regs freqoffEst0.toNat)
  rw [freqError, (run_radioFreqError b).1, toInt_freqErrorOf, reading]
  generalize estimateBits (b.dev.regs freqoffEst1.toNat) (b.dev.regs freqoffEst0.toNat) = bits
    at hlt
  by_cases hpos : bits < 32768
  · rw [signed, if_pos hpos, if_neg (by omega), if_pos (by omega), Int.toNat_natCast]
  have hneg : ¬ (0 : ℤ) ≤ bits - 65536 := by omega
  rw [signed, if_neg hpos, if_neg hneg]
  by_cases hmin : bits = 32768
  · rw [hmin]
    rfl
  · have hmin' : ¬ (bits : ℤ) - 65536 = -32768 := by omega
    have hmag : (-((bits : ℤ) - 65536) - 1).toNat = 65535 - bits := by omega
    rw [if_neg hmin', if_pos (by omega), hmag]

theorem hertz_max : hertz 32768 = 1000000 := by decide

theorem nearHertz_freqError_iff (b : SpiBus Chip Phase) :
    NearHertz (reading b.dev) (freqError b) ↔ 0 ≤ reading b.dev := by
  have hrange := reading_bounds b.dev
  have hmax := hertz_max
  rw [NearHertz, freqError_eq]
  generalize reading b.dev = s at hrange
  have hup := hertz_bounds s.toNat
  have hdown := hertz_bounds (-s - 1).toNat
  split_ifs <;> omega

theorem hertz_pos {n : ℕ} (h : 0 < n) : 0 < hertz n := by
  rw [hertz]
  omega

theorem sameSign_freqError_iff (b : SpiBus Chip Phase) :
    SameSign (freqError b) (reading b.dev) ↔ reading b.dev ≠ -1 ∧ reading b.dev ≠ -32768 := by
  have hmax := hertz_max
  have hzero : hertz 0 = 0 := rfl
  rw [SameSign, freqError_eq]
  generalize reading b.dev = s
  have hup := hertz_pos (n := s.toNat)
  have hdown := hertz_pos (n := (-s - 1).toNat)
  by_cases hs : s = 0
  · rw [hs]
    decide
  by_cases hone : s = -1
  · rw [hone]
    decide
  split_ifs <;> omega

/-- The lower end is above everything else. -/
theorem freqError_lt_of_eq {b b' : SpiBus Chip Phase} (h : reading b.dev = -32768)
    (h' : reading b'.dev ≠ -32768) : freqError b' < freqError b := by
  have hmax := hertz_max
  have hrange := reading_bounds b'.dev
  have hmin : freqError b = 1000000 := by
    rw [freqError_eq, h]
    rfl
  rw [hmin, freqError_eq]
  generalize reading b'.dev = t at h' hrange
  have hup := hertz_succ t.toNat
  have hle : hertz (t.toNat + 1) ≤ hertz 32768 := hertz_mono (by omega)
  split_ifs <;> omega

/-- The rest is monotone. -/
theorem freqError_mono {b b' : SpiBus Chip Phase} (h : reading b.dev ≠ -32768)
    (hle : reading b.dev ≤ reading b'.dev) : freqError b ≤ freqError b' := by
  rw [freqError_eq b, freqError_eq b']
  generalize reading b.dev = s at h hle
  generalize reading b'.dev = t at hle
  have hup : 0 ≤ s → hertz s.toNat ≤ hertz t.toNat := fun hs => hertz_mono (by omega)
  have hdown : hertz (-t - 1).toNat ≤ hertz (-s - 1).toNat := hertz_mono (by omega)
  split_ifs <;> omega

/-- Only zero is the opposite of its opposite. -/
theorem freqError_neg_iff {b b' : SpiBus Chip Phase} (h : reading b'.dev = -reading b.dev) :
    freqError b' = -freqError b ↔ reading b.dev = 0 := by
  have hrange := reading_bounds b.dev
  have hrange' := reading_bounds b'.dev
  rw [freqError_eq b, freqError_eq b', h]
  generalize reading b.dev = s at h hrange
  by_cases hs : s = 0
  · rw [hs]
    decide
  have hsucc : ∀ n : ℕ, 0 < n → hertz (n - 1) + 29 ≤ hertz n := by
    intro n hn
    have := hertz_succ (n - 1)
    rwa [Nat.sub_add_cancel hn] at this
  have hup := hsucc s.toNat
  have hdown := hsucc (-s).toNat
  have hpred : (-(-s) - 1).toNat = s.toNat - 1 := by omega
  have hpred' : (-s - 1).toNat = (-s).toNat - 1 := by omega
  rw [hpred, hpred']
  split_ifs <;> omega

/-- **Which properties hold of which readings.** Nothing overflows. The value is near the frequency
error exactly for the readings that are not negative; it has the sign of the reading except at -1
and -32768; it is monotone except above -32768; and it is odd at zero only. -/
theorem freqError_iff (b b' : SpiBus Chip Phase) :
    NoOverflow (freqMagnitude (b.dev.regs freqoffEst1.toNat) (b.dev.regs freqoffEst0.toNat)) ∧
    (NearHertz (reading b.dev) (freqError b) ↔ 0 ≤ reading b.dev) ∧
    (SameSign (freqError b) (reading b.dev) ↔ reading b.dev ≠ -1 ∧ reading b.dev ≠ -32768) ∧
    ((reading b.dev ≤ reading b'.dev → freqError b ≤ freqError b') ↔
      (reading b.dev = -32768 → reading b'.dev = -32768)) ∧
    ((reading b'.dev = -reading b.dev → freqError b' = -freqError b) ↔
      (reading b'.dev = -reading b.dev → reading b.dev = 0)) := by
  refine ⟨(toNat_freqScale (toNat_freqMagnitude_le _ _)).1, nearHertz_freqError_iff b,
    sameSign_freqError_iff b, ⟨fun h hs => ?_, fun h hle => ?_⟩, ?_⟩
  · by_contra hne
    have hle := h (by have := reading_bounds b'.dev; omega)
    exact absurd (freqError_lt_of_eq hs hne) (not_lt.mpr hle)
  · by_cases hs : reading b.dev = -32768
    · rw [freqError_eq b, freqError_eq b', hs, h hs]
    · exact freqError_mono hs hle
  · exact forall_congr' fun h => freqError_neg_iff h

/-- The bus to a chip with this estimate. -/
def busReading (est1 est0 : UInt8) : SpiBus Chip Phase :=
  { resetBus with
    dev := (resetBus.dev.writeReg freqoffEst1.toNat est1).writeReg freqoffEst0.toNat est0 }

/-- A reading of -1 is 30 Hz and more below zero; what is returned is zero. -/
theorem not_nearHertz_neg_one : reading (busReading 0xFF 0xFF).dev = -1 ∧
    ¬ NearHertz (-1) (freqError (busReading 0xFF 0xFF)) ∧
    ¬ SameSign (freqError (busReading 0xFF 0xFF)) (-1) := by
  have hreading : reading (busReading 0xFF 0xFF).dev = -1 := by decide
  have hnear := nearHertz_freqError_iff (busReading 0xFF 0xFF)
  have hsign := sameSign_freqError_iff (busReading 0xFF 0xFF)
  rw [hreading] at hnear hsign
  exact ⟨hreading, mt hnear.mp (by decide), mt hsign.mp (by decide)⟩

end Wise1511
