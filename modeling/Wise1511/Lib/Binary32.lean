import Mathlib
import Wise1511.Lib.NearestEven

/-!
# Single precision, by its values

`Float32` computes on bit patterns. `HasValue f x` says what such a pattern is worth when it is zero
or a positive normal number, and each operation used here is then the operation on the values,
rounded by `NearestEven.fl 24`.

The bits of the operands never appear outside this module: a program in `float` is verified as a
program on rational numbers with a rounding behind every operation.

## Main results

* `hasValue_toFloat32` — conversion from an integer
* `HasValue.mul`, `HasValue.div` — arithmetic, as long as the result is in the normal range
* `HasValue.toNat_toUInt32` — conversion to an integer drops the fraction
-/

namespace Binary32

open Float.Model Float.Model.UnpackedFloat NearestEven

/-! ### What the guard bits say -/

/-- The mantissa is the integer part of `q`, the round bit is its next digit, and the sticky bit
says whether anything is left. -/
def Approximates (em : ExtendedMantissa) (q : ℚ) : Prop :=
  ∃ rest : ℚ, 0 ≤ rest ∧ rest < 1 / 2 ∧ (em.stickyBit = true ↔ rest ≠ 0) ∧
    q = em.mantissa + (if em.roundBit then 1 / 2 else 0) + rest

theorem approximates_exact (m : ℕ) :
    Approximates (ExtendedMantissa.ofMantissaAndAccuracy m .exact) m :=
  ⟨0, le_rfl, by norm_num, by simp [ExtendedMantissa.ofMantissaAndAccuracy], by
    simp [ExtendedMantissa.ofMantissaAndAccuracy]⟩

/-- A quotient, with the accuracy its remainder gives. -/
theorem approximates_div (a : ℕ) {b : ℕ} (hb : 0 < b) :
    Approximates
      (ExtendedMantissa.ofMantissaAndAccuracy (a / b) (accuracyOfFraction (a % b) b))
      (a / b) := by
  have hb' : (0 : ℚ) < b := by exact_mod_cast hb
  have hsum : (a : ℚ) / b = (a / b : ℕ) + (a % b : ℕ) / b := by
    rw [eq_div_of_mul_eq hb'.ne' (rfl : ((a / b : ℕ) : ℚ) * b = _), ← add_div,
      div_left_inj' hb'.ne']
    exact_mod_cast (Nat.div_add_mod' a b).symm
  have hlt : ((a % b : ℕ) : ℚ) < b := by exact_mod_cast Nat.mod_lt a hb
  rw [hsum]
  generalize a % b = r at hlt
  rw [accuracyOfFraction]
  by_cases hzero : r = 0
  · rw [if_pos hzero, hzero]
    exact ⟨0, le_rfl, by norm_num, by simp [ExtendedMantissa.ofMantissaAndAccuracy], by
      simp [ExtendedMantissa.ofMantissaAndAccuracy]⟩
  have hpos : (0 : ℚ) < r := by exact_mod_cast Nat.pos_of_ne_zero hzero
  rw [if_neg hzero]
  rcases lt_trichotomy (2 * r) b with hcmp | hcmp | hcmp
  · have hcmp' : (2 * r : ℚ) < b := by exact_mod_cast hcmp
    rw [Nat.compare_eq_lt.mpr hcmp]
    refine ⟨r / b, by positivity, ?_, by simp [ExtendedMantissa.ofMantissaAndAccuracy, hzero,
      hb.ne'], by simp [ExtendedMantissa.ofMantissaAndAccuracy]⟩
    rw [div_lt_div_iff₀ hb' two_pos]
    linarith
  · have hcmp' : (2 * r : ℚ) = b := by exact_mod_cast hcmp
    rw [Nat.compare_eq_eq.mpr hcmp]
    refine ⟨0, le_rfl, by norm_num, by simp [ExtendedMantissa.ofMantissaAndAccuracy], ?_⟩
    simp only [ExtendedMantissa.ofMantissaAndAccuracy, if_true, add_zero, add_right_inj]
    rw [div_eq_div_iff hb'.ne' two_ne_zero]
    linarith
  · have hcmp' : (b : ℚ) < 2 * r := by exact_mod_cast hcmp
    rw [Nat.compare_eq_gt.mpr hcmp]
    refine ⟨r / b - 1 / 2, ?_, ?_, ?_, by simp [ExtendedMantissa.ofMantissaAndAccuracy]⟩
    · rw [sub_nonneg, div_le_div_iff₀ two_pos hb']
      linarith
    · have hone : (r : ℚ) / b < 1 := (div_lt_one hb').mpr hlt
      linarith
    · refine iff_of_true rfl ?_
      rw [sub_ne_zero, ne_eq, div_eq_div_iff hb'.ne' two_ne_zero]
      linarith

/-- Dropping one digit moves it into the guard bits. -/
theorem Approximates.shiftRightOne {em : ExtendedMantissa} {q : ℚ} (h : Approximates em q) :
    Approximates em.shiftRightOne (q / 2) := by
  obtain ⟨rest, hpos, hlt, hsticky, hq⟩ := h
  obtain ⟨m, r, s⟩ := em
  have hm : (m : ℚ) = 2 * (m / 2 : ℕ) + (m % 2 : ℕ) := by exact_mod_cast (Nat.div_add_mod m 2).symm
  have hround : (if (m % 2 != 0) = true then 1 / 2 else 0 : ℚ) = (m % 2 : ℕ) / 2 := by
    rcases Nat.mod_two_eq_zero_or_one m with h | h <;> simp [h]
  refine ⟨(if r then 1 / 4 else 0) + rest / 2, ?_, ?_, ?_, ?_⟩
  · split_ifs <;> linarith
  · split_ifs <;> linarith
  · cases r with
    | false => simpa [ExtendedMantissa.shiftRightOne] using hsticky
    | true =>
      refine iff_of_true rfl ?_
      have : (0 : ℚ) < 1 / 4 + rest / 2 := by linarith
      simpa using this.ne'
  · have hhalf : (if r then 1 / 4 else 0 : ℚ) = (if r then 1 / 2 else 0) / 2 := by
      split_ifs <;> norm_num
    show q / 2 = (m / 2 : ℕ) + (if (m % 2 != 0) = true then 1 / 2 else 0) + _
    dsimp only at hq
    rw [hround, hhalf]
    linarith

theorem Approximates.shiftRight {em : ExtendedMantissa} {q : ℚ} (h : Approximates em q) (k : ℕ) :
    Approximates (em >>> k) (q / 2 ^ k) := by
  induction k with
  | zero =>
    rw [pow_zero, div_one]
    exact h
  | succ k ih =>
    have hstep := ih.shiftRightOne
    rw [div_div, ← pow_succ] at hstep
    exact hstep

theorem Approximates.floor_eq {em : ExtendedMantissa} {q : ℚ} (h : Approximates em q) :
    ⌊q⌋ = em.mantissa := by
  obtain ⟨rest, hpos, hlt, -, hq⟩ := h
  rw [Int.floor_eq_iff, hq]
  push_cast
  split_ifs <;> constructor <;> linarith

/-- **Rounding by the guard bits is rounding to nearest.** -/
theorem Approximates.roundedMantissa {em : ExtendedMantissa} {q : ℚ} (h : Approximates em q) :
    (em.roundedMantissa : ℤ) = nearest q := by
  have hfloor := h.floor_eq
  obtain ⟨rest, hpos, hlt, hsticky, hq⟩ := h
  obtain ⟨m, r, s⟩ := em
  dsimp only at hfloor hsticky hq
  have hfract : Int.fract q = (if r then 1 / 2 else 0) + rest := by
    rw [Int.fract, hfloor, hq]
    push_cast
    ring
  rw [nearest, hfract, hfloor]
  cases r with
  | false =>
    have hlow : (if false then 1 / 2 else 0) + rest < 1 / 2 := by simpa using hlt
    rw [if_pos hlow]
    cases s <;> rfl
  | true =>
    have hnot : ¬ (if true then 1 / 2 else 0) + rest < 1 / 2 := by simpa using hpos
    rw [if_neg hnot]
    cases s with
    | false =>
      have hrest : rest = 0 := by simpa using hsticky
      have htie : ¬ 1 / 2 < (if true then 1 / 2 else 0) + rest := by simp [hrest]
      rw [if_neg htie]
      rfl
    | true =>
      have hne : rest ≠ 0 := hsticky.mp rfl
      have hhigh : 1 / 2 < (if true then 1 / 2 else 0) + rest := by
        simpa using lt_of_le_of_ne hpos hne.symm
      rw [if_pos hhigh]
      rfl

/-! ### Rounding a number of any length -/

theorem targetExponent_binary32 {m : ℕ} {e : ℤ} (h : -126 ≤ m.log2 + e) :
    Format.binary32.targetExponent (totalExponent m e) = m.log2 + e - 23 := by
  have hmin : Format.binary32.minExponent = -149 := by decide
  have hbits : Format.binary32.mantissaBits = 24 := by decide
  rw [Format.targetExponent, totalExponent, hmin, hbits, max_eq_left (by push_cast; omega)]
  push_cast
  ring

/-- A mantissa of 24 digits stays, and `2 ^ 24` loses its last. -/
theorem shiftToTargetExponent_exact {m : ℕ} {e : ℤ} (hlo : 2 ^ 23 ≤ m) (hhi : m ≤ 2 ^ 24)
    (he : -149 ≤ e) :
    let r := shiftToTargetExponent .binary32 m e .exact
    2 ^ 23 ≤ r.1.mantissa ∧ r.1.mantissa < 2 ^ 24 ∧ e ≤ r.2 ∧ r.2 ≤ e + 1 ∧
      (r.1.mantissa : ℚ) * 2 ^ r.2 = m * 2 ^ e := by
  rcases hhi.lt_or_eq with hlt | rfl
  · have hlog : m.log2 = 23 := (Nat.log2_eq_iff (by omega)).mpr ⟨hlo, hlt⟩
    have hr : shiftToTargetExponent .binary32 m e .exact = (⟨m, false, false⟩, e) := by
      rw [shiftToTargetExponent, targetExponent_binary32 (by omega), hlog, shiftToExponent]
      simp only [Nat.cast_ofNat, show (23 : ℤ) + e - 23 - e = 0 by ring]
      exact Prod.ext rfl (add_zero e)
    rw [hr]
    exact ⟨hlo, hlt, le_rfl, by omega, rfl⟩
  · have hr : shiftToTargetExponent .binary32 (2 ^ 24) e .exact
        = (⟨2 ^ 23, false, false⟩, e + 1) := by
      rw [shiftToTargetExponent, targetExponent_binary32 (by rw [Nat.log2_two_pow]; omega),
        Nat.log2_two_pow, shiftToExponent]
      simp only [Nat.cast_ofNat, show (24 : ℤ) + e - 23 - e = 1 by ring]
      rfl
    rw [hr]
    refine ⟨le_rfl, by norm_num, by omega, le_rfl, ?_⟩
    rw [zpow_add₀ two_ne_zero]
    push_cast
    ring

/-- The leading digit of the number is that of its mantissa. -/
theorem log_mul_zpow {m : ℕ} (hm : m ≠ 0) {q : ℚ} (hq : ⌊q⌋ = m) (e : ℤ) :
    Int.log 2 (q * 2 ^ e) = m.log2 + e := by
  obtain ⟨hlo, hhi⟩ := Int.floor_eq_iff.mp hq
  have hlow : (2 : ℚ) ^ m.log2 ≤ q := le_trans (by exact_mod_cast Nat.log2_self_le hm) hlo
  have hhigh : q < 2 ^ (m.log2 + 1) :=
    lt_of_lt_of_le hhi (by exact_mod_cast Nat.lt_log2_self (n := m))
  refine log_eq_of_mem ?_ ?_
  · rw [zpow_add₀ two_ne_zero, zpow_natCast]
    exact mul_le_mul_of_nonneg_right hlow (by positivity)
  · rw [show (m.log2 : ℤ) + e + 1 = (m.log2 + 1 : ℕ) + e by push_cast; ring,
      zpow_add₀ two_ne_zero, zpow_natCast]
    exact mul_lt_mul_of_pos_right hhigh (by positivity)

/-- **The rounding of the format is `fl 24`**, on what is in the normal range and has digits
enough. -/
theorem roundWithAccuracy_eq {m : ℕ} {e : ℤ} {acc : Accuracy} {q : ℚ} (s : Sign)
    (hq : Approximates (ExtendedMantissa.ofMantissaAndAccuracy m acc) q) (hm : 2 ^ 23 ≤ m)
    (hnormal : -126 ≤ m.log2 + e) :
    ∃ m' e' hpos, roundWithAccuracy .binary32 s m e acc = .finite s m' e' hpos ∧
      2 ^ 23 ≤ m' ∧ m' < 2 ^ 24 ∧ (m' : ℚ) * 2 ^ e' = fl 24 (q * 2 ^ e) := by
  have hm0 : m ≠ 0 := by omega
  have hlog : 23 ≤ m.log2 := (Nat.le_log2 hm0).mpr hm
  have hmant : (ExtendedMantissa.ofMantissaAndAccuracy m acc).mantissa = m := by
    rcases acc with _ | _ | _ | _ <;> rfl
  have hfloor : ⌊q⌋ = m := by rw [hq.floor_eq, hmant]
  have hpos : 0 < q * 2 ^ e := by
    have hqm : (m : ℚ) ≤ q := by exact_mod_cast (Int.floor_eq_iff.mp hfloor).1
    have hm' : (0 : ℚ) < m := by exact_mod_cast Nat.pos_of_ne_zero hm0
    exact mul_pos (hm'.trans_le hqm) (by positivity)
  -- the first shift leaves 24 digits before the point
  obtain ⟨k, hk⟩ := Nat.exists_eq_add_of_le hlog
  have hulp : ulpExp 24 (q * 2 ^ e) = e + k := by
    rw [ulpExp, log_mul_zpow hm0 hfloor, hk]
    push_cast
    ring
  have hfirst : shiftToTargetExponent .binary32 m e acc
      = (ExtendedMantissa.ofMantissaAndAccuracy m acc >>> k, e + k) := by
    rw [shiftToTargetExponent, targetExponent_binary32 hnormal, hk, shiftToExponent]
    push_cast
    rw [show 23 + (k : ℤ) + e - 23 - e = k by ring, Int.toNat_natCast]
  have hround := (hq.shiftRight k).roundedMantissa
  have hquot : q / 2 ^ k = q * 2 ^ e / 2 ^ ulpExp 24 (q * 2 ^ e) := by
    rw [hulp, zpow_add₀ two_ne_zero, zpow_natCast]
    field_simp
  rw [hquot] at hround
  have hmem := nearest_div_ulp_mem 23 hpos
  have hval : fl 24 (q * 2 ^ e)
      = (ExtendedMantissa.ofMantissaAndAccuracy m acc >>> k).roundedMantissa * 2 ^ (e + k) := by
    rw [fl, ← hround, hulp, Int.cast_natCast]
  rw [← hround] at hmem
  rw [hval, roundWithAccuracy, hfirst]
  dsimp only
  generalize (ExtendedMantissa.ofMantissaAndAccuracy m acc >>> k).roundedMantissa = n at hmem
  -- and rounding may have carried
  obtain ⟨hlo, hhi, -, -, hsame⟩ := shiftToTargetExponent_exact (m := n) (e := e + k)
    (by exact_mod_cast hmem.1) (by exact_mod_cast hmem.2) (by push_cast [hk] at hnormal; omega)
  exact ⟨_, _, by omega, dif_neg (by omega), hlo, hhi, hsame⟩

/-! ### Packing -/

/-- A normal number survives being packed. -/
theorem unpack_pack (s : Sign) {m : ℕ} {e : ℤ} (hpos : 0 < m) (hlo : 2 ^ 23 ≤ m) (hhi : m < 2 ^ 24)
    (he : -149 ≤ e) (he' : e ≤ 104) :
    (Float32.Model.pack (.finite s m e hpos)).unpack = .finite s m e hpos := by
  obtain ⟨b, hb⟩ := Int.eq_ofNat_of_zero_le (a := e + 150) (by omega)
  have hlog : m.log2 = 23 := (Nat.log2_eq_iff (by omega)).mpr ⟨hlo, hhi⟩
  have hpack : UnpackedFloat.pack .binary32 (.finite s m e hpos)
      = packComponents .binary32 s (BitVec.ofNat 8 b) (BitVec.ofNat 23 m) := by
    have hbias : (e + (Format.binary32.exponentBias : ℤ)
        + (Format.binary32.mantissaBitsWithoutImplicit : ℤ)).toNat = b := by
      rw [show (Format.binary32.exponentBias : ℤ) = 127 by decide]
      show (e + 127 + 23).toNat = b
      omega
    rw [UnpackedFloat.pack, hbias, if_neg (by show ¬ 2 ^ 8 ≤ b + 1; omega),
      if_pos (by rw [hlog]; rfl)]
  have hexp : (BitVec.ofNat 8 b).toNat = b := by
    rw [BitVec.toNat_ofNat]
    omega
  have hmax : BitVec.ofNat 8 b ≠ -1#8 := by
    intro h
    have := congrArg BitVec.toNat h
    rw [hexp] at this
    simp at this
    omega
  have hmin : BitVec.ofNat 8 b ≠ 0#8 := by
    intro h
    have := congrArg BitVec.toNat h
    rw [hexp] at this
    simp at this
    omega
  have hmant : (1#1 ++ BitVec.ofNat 23 m).toNat = m := by
    rw [BitVec.toNat_append, ← Nat.shiftLeft_add_eq_or_of_lt (BitVec.isLt _), BitVec.toNat_ofNat,
      BitVec.toNat_ofNat, Nat.shiftLeft_eq]
    omega
  show UnpackedFloat.unpack .binary32 (UnpackedFloat.pack .binary32 _) = _
  rw [hpack, UnpackedFloat.unpack]
  simp only [unpackMantissa_packComponents, unpackExponent_packComponents,
    unpackSign_packComponents, Sign.ofBitVec_toBitVec, if_neg hmax, if_neg hmin, hmant, hexp]
  congr 1
  rw [show (Format.binary32.exponentBias : ℤ) = 127 by decide]
  omega

/-! ### Values -/

/-- The float is zero or a positive normal number, and this is its value. -/
inductive HasValue (f : Float32) : ℚ → Prop where
  | zero (h : f.toModel.unpack = .zero .positive) : HasValue f 0
  | normal {m : ℕ} {e : ℤ} (hpos : 0 < m) (h : f.toModel.unpack = .finite .positive m e hpos)
      (hlo : 2 ^ 23 ≤ m) (hhi : m < 2 ^ 24) : HasValue f (m * 2 ^ e)

/-- Well inside the normal range. -/
def InRange (q : ℚ) : Prop := 2 ^ (-125 : ℤ) ≤ q ∧ q < 2 ^ (127 : ℤ)

theorem InRange.pos {q : ℚ} (h : InRange q) : 0 < q := lt_of_lt_of_le (by positivity) h.1

theorem hasValue_zero : HasValue (.ofModel (.pack (.zero .positive))) 0 := .zero rfl

/-- A number that has been rounded, packed. -/
theorem hasValue_pack {q : ℚ} (hq : InRange q) {m : ℕ} {e : ℤ} (hpos : 0 < m) (hlo : 2 ^ 23 ≤ m)
    (hhi : m < 2 ^ 24) (hval : (m : ℚ) * 2 ^ e = fl 24 q) :
    HasValue (.ofModel (.pack (.finite .positive m e hpos))) (fl 24 q) := by
  obtain ⟨hmin, hmax⟩ := zpow_log_le_fl (p := 24) (by norm_num) hq.pos
  rw [← hval] at hmin hmax ⊢
  have hlog := le_log hq.1
  have hlog' := log_lt hq.pos hq.2
  have hm : (2 : ℚ) ^ (23 : ℤ) ≤ m := by exact_mod_cast hlo
  have hm' : (m : ℚ) < 2 ^ (24 : ℤ) := by exact_mod_cast hhi
  have hbelow : Int.log 2 q < 24 + e := by
    rw [← zpow_lt_zpow_iff_right₀ (one_lt_two (α := ℚ)), zpow_add₀ two_ne_zero]
    exact hmin.trans_lt (mul_lt_mul_of_pos_right hm' (by positivity))
  have habove : 23 + e ≤ Int.log 2 q + 1 := by
    rw [← zpow_le_zpow_iff_right₀ (one_lt_two (α := ℚ)), zpow_add₀ two_ne_zero]
    exact (mul_le_mul_of_nonneg_right hm (by positivity)).trans hmax
  exact .normal hpos (unpack_pack _ hpos hlo hhi (by omega) (by omega)) hlo hhi

/-- Rounding and packing, together. -/
theorem hasValue_roundWithAccuracy {m : ℕ} {e : ℤ} {acc : Accuracy} {q : ℚ}
    (hq : Approximates (ExtendedMantissa.ofMantissaAndAccuracy m acc) q) (hm : 2 ^ 23 ≤ m)
    (hrange : InRange (q * 2 ^ e)) :
    HasValue (.ofModel (.pack (roundWithAccuracy .binary32 .positive m e acc)))
      (fl 24 (q * 2 ^ e)) := by
  have hm0 : m ≠ 0 := by omega
  have hmant : (ExtendedMantissa.ofMantissaAndAccuracy m acc).mantissa = m := by
    rcases acc with _ | _ | _ | _ <;> rfl
  have hlog := log_mul_zpow hm0 (by rw [hq.floor_eq, hmant]) e
  have hnormal := le_log hrange.1
  obtain ⟨m', e', hpos, heq, hlo, hhi, hval⟩ :=
    roundWithAccuracy_eq (e := e) .positive hq hm (by omega)
  rw [heq]
  exact hasValue_pack hrange hpos hlo hhi hval

theorem log2_shiftLeft {m : ℕ} (hm : m ≠ 0) (k : ℕ) : (m <<< k).log2 = m.log2 + k := by
  rw [Nat.log2_eq_iff (by rw [Nat.shiftLeft_eq]; positivity), Nat.shiftLeft_eq, pow_add,
    show m.log2 + k + 1 = m.log2 + 1 + k by ring, pow_add]
  exact ⟨Nat.mul_le_mul_right _ (Nat.log2_self_le hm),
    Nat.mul_lt_mul_of_pos_right Nat.lt_log2_self (by positivity)⟩

/-- **Conversion from an integer** rounds it. -/
theorem hasValue_toFloat32 (n : UInt32) : HasValue n.toFloat32 (fl 24 n.toNat) := by
  have hfloat : n.toFloat32
      = .ofModel (.pack (UnpackedFloat.normalize .binary32 n.toNat 0 .positive)) := rfl
  have hlt := n.toNat_lt
  rw [hfloat]
  generalize n.toNat = k at hlt
  rcases Nat.eq_zero_or_pos k with rfl | hk
  · rw [show ((0 : ℕ) : ℚ) = 0 from Nat.cast_zero, fl_zero]
    exact hasValue_zero
  have hlog : k.log2 < 32 := (Nat.log2_lt hk.ne').mpr hlt
  obtain ⟨d, hd⟩ : ∃ d : ℕ, d = 23 - k.log2 := ⟨_, rfl⟩
  have hnormalize : UnpackedFloat.normalize .binary32 k 0 .positive
      = roundWithAccuracy .binary32 .positive (k <<< d) (-d) .exact := by
    have hcmp : compare (k : ℤ) 0 = .gt := by
      rw [Int.compare_eq_gt]
      omega
    rw [UnpackedFloat.normalize, hcmp]
    show UnpackedFloat.round .binary32 .positive k 0 = _
    rw [UnpackedFloat.round, targetExponent_binary32 (by omega), decreaseExponent,
      show (0 - ((k.log2 : ℤ) + 0 - 23)).toNat = d by omega, zero_sub]
  have hvalue : ((k <<< d : ℕ) : ℚ) * 2 ^ (-d : ℤ) = k := by
    rw [Nat.shiftLeft_eq]
    push_cast
    rw [mul_assoc, ← zpow_natCast, ← zpow_add₀ two_ne_zero, add_neg_cancel, zpow_zero, mul_one]
  have hdigits : 2 ^ 23 ≤ k <<< d := by
    refine le_trans ?_ (Nat.log2_self_le (by rw [Nat.shiftLeft_eq]; positivity))
    rw [log2_shiftLeft hk.ne']
    exact Nat.pow_le_pow_right (by norm_num) (by omega)
  have hround := hasValue_roundWithAccuracy (approximates_exact (k <<< d)) hdigits (e := -d) (by
    rw [hvalue]
    have hone : (1 : ℚ) ≤ k := by exact_mod_cast hk
    have hmax : (k : ℚ) < 2 ^ 32 := by exact_mod_cast hlt
    refine ⟨le_trans ?_ hone, hmax.trans ?_⟩
    · norm_num
    · norm_num)
  rwa [hvalue, ← hnormalize] at hround

/-- **Multiplication** is multiplication of the values, rounded. -/
theorem HasValue.mul {a b : Float32} {x y : ℚ} (ha : HasValue a x) (hb : HasValue b y)
    (hrange : x * y = 0 ∨ InRange (x * y)) : HasValue (a * b) (fl 24 (x * y)) := by
  have hfloat : a * b = .ofModel (.pack (UnpackedFloat.mul .binary32 a.toModel.unpack
    b.toModel.unpack)) := rfl
  rw [hfloat]
  cases ha with
  | zero h =>
    rw [h, zero_mul, fl_zero]
    cases hb with
    | zero h' => rw [h']; exact hasValue_zero
    | normal hpos' h' => rw [h']; exact hasValue_zero
  | @normal m e hpos h hlo hhi =>
    rw [h]
    cases hb with
    | zero h' =>
      rw [h', mul_zero, fl_zero]
      exact hasValue_zero
    | @normal m' e' hpos' h' hlo' hhi' =>
      rw [h']
      have hvalue : (m : ℚ) * 2 ^ e * (m' * 2 ^ e') = (m * m' : ℕ) * 2 ^ (e + e') := by
        rw [zpow_add₀ two_ne_zero]
        push_cast
        ring
      have hne : (m : ℚ) * 2 ^ e * (m' * 2 ^ e') ≠ 0 := by positivity
      have hin := hrange.resolve_left hne
      rw [hvalue] at hin ⊢
      exact hasValue_roundWithAccuracy (approximates_exact _)
        (hlo.trans (Nat.le_mul_of_pos_right m hpos')) hin

/-- The quotient is computed to 24 digits, with a remainder to round by. -/
theorem divCore_eq {m m' : ℕ} {e e' : ℤ} (hlo : 2 ^ 23 ≤ m) (hhi : m < 2 ^ 24)
    (hlo' : 2 ^ 23 ≤ m') (hhi' : m' < 2 ^ 24) (he : -125 ≤ e - e') :
    divCore .binary32 m e m' e'
      = (m * 2 ^ 24 / m', e - e' - 24, accuracyOfFraction (m * 2 ^ 24 % m') m') := by
  have hlog : m.log2 = 23 := (Nat.log2_eq_iff (by omega)).mpr ⟨hlo, hhi⟩
  have hlog' : m'.log2 = 23 := (Nat.log2_eq_iff (by omega)).mpr ⟨hlo', hhi'⟩
  have hmin : Format.binary32.minExponent = -149 := by decide
  have hbits : Format.binary32.mantissaBits = 24 := by decide
  have htarget : min (e - e') (Format.binary32.targetExponent
      (totalExponent m e - totalExponent m' e')) = e - e' - 24 := by
    rw [Format.targetExponent, totalExponent, totalExponent, hlog, hlog', hmin, hbits]
    push_cast
    omega
  rw [divCore, htarget, show (e - e' - (e - e' - 24)).toNat = 24 by omega, Nat.shiftLeft_eq]

/-- **Division** is division of the values, rounded. -/
theorem HasValue.div {a b : Float32} {x y : ℚ} (ha : HasValue a x) (hb : HasValue b y) (hy : y ≠ 0)
    (hrange : x / y = 0 ∨ InRange (x / y)) : HasValue (a / b) (fl 24 (x / y)) := by
  have hfloat : a / b = .ofModel (.pack (UnpackedFloat.div .binary32 a.toModel.unpack
    b.toModel.unpack)) := rfl
  rw [hfloat]
  cases hb with
  | zero => exact absurd rfl hy
  | @normal m' e' hpos' h' hlo' hhi' =>
    rw [h']
    cases ha with
    | zero h =>
      rw [h, zero_div, fl_zero]
      exact hasValue_zero
    | @normal m e hpos h hlo hhi =>
      rw [h]
      have hm : (0 : ℚ) < m := by exact_mod_cast hpos
      have hm' : (0 : ℚ) < m' := by exact_mod_cast hpos'
      have hvalue : (m : ℚ) * 2 ^ e / (m' * 2 ^ e')
          = ((m * 2 ^ 24 : ℕ) : ℚ) / m' * 2 ^ (e - e' - 24) := by
        rw [zpow_sub₀ two_ne_zero, zpow_sub₀ two_ne_zero, show (2 : ℚ) ^ (24 : ℤ) = 2 ^ 24 from rfl]
        push_cast
        field_simp
        norm_num
      have hin := hrange.resolve_left (by positivity)
      have he : -125 ≤ e - e' := by
        have hlt : (m : ℚ) * 2 ^ e / (m' * 2 ^ e') < 2 ^ (e - e' + 1) := by
          have hmm : (m : ℚ) < m' * 2 := by exact_mod_cast (show m < m' * 2 by omega)
          rw [zpow_add_one₀ two_ne_zero, zpow_sub₀ two_ne_zero, mul_div_mul_comm,
            mul_comm ((2 : ℚ) ^ e / 2 ^ e')]
          refine mul_lt_mul_of_pos_right ?_ (by positivity)
          rwa [div_lt_iff₀ hm', mul_comm]
        have hexp := (zpow_lt_zpow_iff_right₀ (one_lt_two (α := ℚ))).mp (hin.1.trans_lt hlt)
        omega
      have hdigits : 2 ^ 23 ≤ m * 2 ^ 24 / m' := by
        rw [Nat.le_div_iff_mul_le hpos']
        omega
      rw [hvalue] at hin ⊢
      rw [UnpackedFloat.div, divCore_eq hlo hhi hlo' hhi' he]
      exact hasValue_roundWithAccuracy (approximates_div _ hpos') hdigits hin

/-- **Conversion to an integer** drops the fraction, and saturates. -/
theorem HasValue.toNat_toUInt32 {f : Float32} {x : ℚ} (h : HasValue f x) :
    f.toUInt32.toNat = min ⌊x⌋₊ (2 ^ 32 - 1) := by
  have hclamp : ∀ n : ℕ, (UInt32.ofNatClamp n).toNat = min n (2 ^ 32 - 1) := by
    intro n
    have hsize : UInt32.size = 2 ^ 32 := rfl
    rw [UInt32.ofNatClamp]
    split_ifs with hn
    · rw [UInt32.toNat_ofNatLT]
      omega
    · rw [UInt32.toNat_ofNatLT]
      omega
  have hfloat : f.toUInt32
      = UInt32.ofNatClamp (f.toModel.unpack.toInt 0 (UInt32.size - 1)).toNat := rfl
  rw [hfloat, hclamp]
  congr 1
  cases h with
  | zero h =>
    rw [h, Nat.floor_zero]
    rfl
  | @normal m e hpos h hlo hhi =>
    obtain ⟨up, hup⟩ : ∃ up : ℕ, up = e.toNat := ⟨_, rfl⟩
    obtain ⟨down, hdown⟩ : ∃ down : ℕ, down = (-e).toNat := ⟨_, rfl⟩
    have hround : roundToInt .positive m e
        = (ExtendedMantissa.ofMantissaAndAccuracy (m <<< up) .exact >>> down).mantissa := by
      have hshift : (shiftToExponent (m <<< up) (e - up) .exact 0).1
          = ExtendedMantissa.ofMantissaAndAccuracy (m <<< up) .exact >>> down := by
        rw [shiftToExponent, show (0 - (e - up)).toNat = down by omega]
      rw [roundToInt, decreaseExponent, show (e - 0).toNat = up by omega]
      exact congrArg (fun em => (em.mantissa : ℤ)) hshift
    have hvalue : ((m <<< up : ℕ) : ℚ) / 2 ^ down = m * 2 ^ e := by
      rw [Nat.shiftLeft_eq, show e = up - down by omega, zpow_sub₀ two_ne_zero]
      push_cast
      rw [mul_div_assoc, zpow_natCast, zpow_natCast]
    have hfloor := ((approximates_exact (m <<< up)).shiftRight down).floor_eq
    rw [hvalue] at hfloor
    rw [h, UnpackedFloat.toInt, hround, Int.toNat_natCast, ← Int.floor_toNat, hfloor,
      Int.toNat_natCast]

/-! ### Signs -/

theorem HasValue.unpack_zero {f : Float32} (h : HasValue f 0) :
    f.toModel.unpack = .zero .positive := by
  generalize hx : (0 : ℚ) = x at h
  cases h with
  | zero h => exact h
  | @normal m e hpos =>
    have hvalue : (0 : ℚ) < m * 2 ^ e := by positivity
    exact absurd hx hvalue.ne

theorem lt_iff {f g : Float32} :
    f < g ↔ UnpackedFloat.lt f.toModel.unpack g.toModel.unpack = true := by
  show decide (f.toModel < g.toModel) = true ↔ _
  rw [decide_eq_true_iff]
  rfl

/-- Nothing that has a value is less than zero. -/
theorem HasValue.not_lt {f z : Float32} {x : ℚ} (h : HasValue f x) (hz : HasValue z 0) :
    ¬ f < z := by
  rw [lt_iff, hz.unpack_zero]
  cases h with
  | zero h =>
    rw [h]
    decide
  | normal hpos h =>
    rw [h]
    exact Bool.false_ne_true

/-- Its negation is. -/
theorem HasValue.neg_lt {f z : Float32} {x : ℚ} (h : HasValue f x) (hx : InRange x)
    (hz : HasValue z 0) : -f < z := by
  rw [lt_iff, hz.unpack_zero]
  show UnpackedFloat.lt (Float32.Model.pack f.toModel.unpack.neg).unpack _ = true
  cases h with
  | zero => exact absurd hx.pos (lt_irrefl 0)
  | @normal m e hpos h hlo hhi =>
    have hm : (2 : ℚ) ^ (23 : ℤ) ≤ m := by exact_mod_cast hlo
    have hm' : (m : ℚ) < 2 ^ (24 : ℤ) := by exact_mod_cast hhi
    have hbelow : (-125 : ℤ) < 24 + e := by
      rw [← zpow_lt_zpow_iff_right₀ (one_lt_two (α := ℚ)), zpow_add₀ two_ne_zero]
      exact hx.1.trans_lt (mul_lt_mul_of_pos_right hm' (by positivity))
    have habove : 23 + e < 127 := by
      rw [← zpow_lt_zpow_iff_right₀ (one_lt_two (α := ℚ)), zpow_add₀ two_ne_zero]
      exact (mul_le_mul_of_nonneg_right hm (by positivity)).trans_lt hx.2
    rw [h, UnpackedFloat.neg, unpack_pack _ hpos hlo hhi (by omega) (by omega)]
    rfl

/-! ### From a signed integer -/

/-- An integer of at most 32 bits and a sign, as a float. -/
def ofInt (n : ℤ) : Float32 :=
  if n < 0 then -(UInt32.ofNat (-n).toNat).toFloat32 else (UInt32.ofNat n.toNat).toFloat32

theorem hasValue_ofInt {n : ℕ} (hn : n < 2 ^ 32) : HasValue (ofInt n) (fl 24 n) := by
  have hvalue := hasValue_toFloat32 (UInt32.ofNat n)
  rwa [UInt32.toNat_ofNat', Nat.mod_eq_of_lt hn] at hvalue

theorem ofInt_lt {n : ℤ} {z : Float32} (hz : HasValue z 0) (hn : n < 0) (hmin : -2 ^ 31 ≤ n) :
    ofInt n < z := by
  obtain ⟨k, hk⟩ := Int.eq_ofNat_of_zero_le (a := -n) (by omega)
  rw [ofInt, if_pos hn, hk, Int.toNat_natCast]
  have hvalue := hasValue_toFloat32 (UInt32.ofNat k)
  rw [UInt32.toNat_ofNat', Nat.mod_eq_of_lt (by omega)] at hvalue
  have hone : (1 : ℚ) ≤ k := by exact_mod_cast (show 1 ≤ k by omega)
  have hmax : (k : ℚ) ≤ 2 ^ 31 := by exact_mod_cast (show k ≤ 2 ^ 31 by omega)
  have hlo := le_fl (p := 24) (by norm_num) ⟨1, 0, by norm_num, by norm_num⟩ zero_le_one hone
  have hhi := fl_le (p := 24) (by norm_num) ⟨1, 31, by norm_num, by norm_num⟩
    (zero_le_one.trans hone) hmax
  refine hvalue.neg_lt ⟨le_trans ?_ hlo, hhi.trans_lt ?_⟩ hz
  · norm_num
  · norm_num

/-- Conversion to a signed integer drops the fraction, and saturates. -/
def toInt (f : Float32) : ℤ :=
  if f < ofInt 0 then -min ((-f).toUInt32.toNat : ℤ) (2 ^ 31) else min f.toUInt32.toNat (2 ^ 31 - 1)

theorem hasValue_ofInt_zero : HasValue (ofInt 0) 0 := by
  have hvalue := hasValue_ofInt (n := 0) (by norm_num)
  rwa [Nat.cast_zero, Nat.cast_zero, fl_zero] at hvalue

theorem HasValue.toInt {f : Float32} {x : ℚ} (h : HasValue f x) :
    toInt f = min (⌊x⌋₊ : ℤ) (2 ^ 31 - 1) := by
  rw [Binary32.toInt, if_neg (h.not_lt hasValue_ofInt_zero), h.toNat_toUInt32]
  omega

end Binary32
