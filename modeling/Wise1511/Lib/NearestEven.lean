import Mathlib.Algebra.Order.Field.Power
import Mathlib.Algebra.Order.Floor.Ring
import Mathlib.Data.Int.Log
import Mathlib.Data.Rat.Floor
import Mathlib.Tactic.FieldSimp
import Mathlib.Tactic.Linarith
import Mathlib.Tactic.Positivity
import Mathlib.Tactic.Ring

/-!
# Rounding to nearest, ties to even

`nearest` rounds to an integer, and `fl p` to a number with `p` significant binary digits: scale so
that the last digit to be kept has weight one, round, and scale back. The exponent range is
unlimited, so `fl p` is what a binary floating-point format does to a number that neither overflows
nor falls below its smallest normal number.

Only positive numbers and zero are considered.

## Main results

* `fl_mono` — rounding keeps the order
* `fl_of_representable` — and what needs no rounding
* `abs_fl_sub_le` — half a unit in the last place
* `fl_mul_zpow` — scaling by a power of two is exact
-/

namespace NearestEven

variable {K : Type*} [Field K] [LinearOrder K] [FloorRing K]

/-! ### To an integer -/

/-- The nearest integer, and of two the even one. -/
def nearest (x : K) : ℤ :=
  if Int.fract x < 1 / 2 then ⌊x⌋
  else if 1 / 2 < Int.fract x then ⌊x⌋ + 1
  else ⌊x⌋ + ⌊x⌋ % 2

theorem floor_le_nearest (x : K) : ⌊x⌋ ≤ nearest x := by
  rw [nearest]
  split_ifs <;> omega

theorem nearest_le_floor_add_one (x : K) : nearest x ≤ ⌊x⌋ + 1 := by
  rw [nearest]
  split_ifs <;> omega

variable [IsStrictOrderedRing K]

theorem nearest_intCast (n : ℤ) : nearest (n : K) = n := by
  have hfract : Int.fract (n : K) < 1 / 2 := by
    rw [Int.fract_intCast]
    positivity
  rw [nearest, if_pos hfract, Int.floor_intCast]

theorem nearest_mono {x y : K} (h : x ≤ y) : nearest x ≤ nearest y := by
  rcases (Int.floor_mono h).lt_or_eq with hlt | heq
  · have hx := nearest_le_floor_add_one x
    have hy := floor_le_nearest y
    omega
  · -- with equal integer parts the fractional parts decide
    have hfract : Int.fract x ≤ Int.fract y := by
      rw [Int.fract, Int.fract, heq]
      linarith
    rw [nearest, nearest, heq]
    split_ifs with hx hy hy' hx' hy hy' hy hy'
    all_goals first
      | omega
      | linarith

theorem abs_nearest_sub_le (x : K) : |(nearest x : K) - x| ≤ 1 / 2 := by
  have hsum := Int.floor_add_fract x
  have hpos := Int.fract_nonneg x
  have hlt := Int.fract_lt_one x
  rw [nearest, abs_le]
  split_ifs with hlow hhigh
  · constructor <;> linarith
  · push_cast
    constructor <;> linarith
  · have hhalf : Int.fract x = 1 / 2 := le_antisymm (not_lt.mp hhigh) (not_lt.mp hlow)
    rcases Int.emod_two_eq_zero_or_one ⌊x⌋ with hmod | hmod
    · rw [hmod]
      push_cast
      constructor <;> linarith
    · rw [hmod]
      push_cast
      constructor <;> linarith

/-! ### To `p` digits -/

/-- The exponent of the last digit kept. -/
def ulpExp (p : ℕ) (x : K) : ℤ := Int.log 2 x + 1 - p

/-- Round to `p` significant binary digits. -/
def fl (p : ℕ) (x : K) : K := nearest (x / 2 ^ ulpExp p x) * 2 ^ ulpExp p x

/-- The number has at most `p` significant digits. -/
def Representable (p : ℕ) (x : K) : Prop := ∃ m : ℕ, ∃ e : ℤ, m < 2 ^ p ∧ x = m * 2 ^ e

theorem le_log {x : K} {k : ℤ} (h : 2 ^ k ≤ x) : k ≤ Int.log 2 x := by
  have hx : 0 < x := lt_of_lt_of_le (by positivity) h
  exact (Int.zpow_le_iff_le_log (b := 2) one_lt_two hx).mp (by exact_mod_cast h)

theorem log_lt {x : K} {k : ℤ} (hx : 0 < x) (h : x < 2 ^ k) : Int.log 2 x < k :=
  (Int.lt_zpow_iff_log_lt (b := 2) one_lt_two hx).mp (by exact_mod_cast h)

theorem log_eq_of_mem {x : K} {k : ℤ} (hlo : 2 ^ k ≤ x) (hhi : x < 2 ^ (k + 1)) :
    Int.log 2 x = k := by
  have hx : 0 < x := lt_of_lt_of_le (by positivity) hlo
  have hge := le_log hlo
  have hlt := log_lt hx hhi
  omega

theorem zpow_log_le {x : K} (hx : 0 < x) : 2 ^ Int.log 2 x ≤ x := by
  exact_mod_cast Int.zpow_log_le_self (b := 2) one_lt_two hx

theorem lt_zpow_log (x : K) : x < 2 ^ (Int.log 2 x + 1) := by
  exact_mod_cast Int.lt_zpow_succ_log_self (b := 2) one_lt_two x

@[simp] theorem fl_zero (p : ℕ) : fl p (0 : K) = 0 := by
  rw [fl, zero_div]
  have hzero : nearest (0 : K) = 0 := by exact_mod_cast nearest_intCast (K := K) 0
  rw [hzero, Int.cast_zero, zero_mul]

/-- Scaled, the number has `p` digits before the point. -/
theorem div_ulp_mem (p : ℕ) {x : K} (hx : 0 < x) :
    2 ^ ((p : ℤ) - 1) ≤ x / 2 ^ ulpExp p x ∧ x / 2 ^ ulpExp p x < 2 ^ p := by
  have hulp : (0 : K) < 2 ^ ulpExp p x := by positivity
  rw [le_div_iff₀ hulp, div_lt_iff₀ hulp, ← zpow_add₀ two_ne_zero, ← zpow_natCast,
    ← zpow_add₀ two_ne_zero]
  constructor
  · rw [show (p : ℤ) - 1 + ulpExp p x = Int.log 2 x by rw [ulpExp]; ring]
    exact zpow_log_le hx
  · rw [show (p : ℤ) + ulpExp p x = Int.log 2 x + 1 by rw [ulpExp]; ring]
    exact lt_zpow_log x

/-- **Half a unit in the last place.** -/
theorem abs_fl_sub_le (p : ℕ) (x : K) : |fl p x - x| ≤ 2 ^ ulpExp p x / 2 := by
  have hulp : (0 : K) < 2 ^ ulpExp p x := by positivity
  have hscaled : fl p x - x
      = (nearest (x / 2 ^ ulpExp p x) - x / 2 ^ ulpExp p x) * 2 ^ ulpExp p x := by
    rw [fl]
    field_simp
  rw [hscaled, abs_mul, abs_of_pos hulp]
  have hhalf := abs_nearest_sub_le (x / 2 ^ ulpExp p x)
  nlinarith

/-- The same, relative to the number. -/
theorem abs_fl_sub_le_div (p : ℕ) {x : K} (hx : 0 ≤ x) : |fl p x - x| ≤ x / 2 ^ p := by
  rcases hx.eq_or_lt with rfl | hpos
  · simp
  refine (abs_fl_sub_le p x).trans ?_
  have hulp : (2 : K) ^ ulpExp p x / 2 = 2 ^ Int.log 2 x / 2 ^ p := by
    rw [ulpExp, zpow_sub₀ two_ne_zero, zpow_add₀ two_ne_zero, zpow_one, zpow_natCast]
    ring
  rw [hulp]
  exact div_le_div_of_nonneg_right (zpow_log_le hpos) (by positivity)

/-- A multiple of its own last digit is left alone. -/
theorem fl_of_representable {p : ℕ} {x : K} (hx : Representable p x) : fl p x = x := by
  obtain ⟨m, e, hm, rfl⟩ := hx
  rcases Nat.eq_zero_or_pos m with rfl | hpos
  · simp
  have hval : (0 : K) < m * 2 ^ e := by positivity
  have hlog : Int.log 2 ((m : K) * 2 ^ e) < p + e := by
    refine log_lt hval ?_
    rw [zpow_add₀ two_ne_zero, zpow_natCast]
    have hm' : (m : K) < 2 ^ p := by exact_mod_cast hm
    exact mul_lt_mul_of_pos_right hm' (by positivity)
  -- so the last digit kept weighs at most `2 ^ e`, and the quotient is an integer
  obtain ⟨k, hk⟩ := Int.eq_ofNat_of_zero_le (a := e - ulpExp p ((m : K) * 2 ^ e))
    (by rw [ulpExp]; omega)
  have hquot : (m : K) * 2 ^ e / 2 ^ ulpExp p ((m : K) * 2 ^ e) = ((m * 2 ^ k : ℤ) : K) := by
    rw [mul_div_assoc, ← zpow_sub₀ two_ne_zero, hk]
    push_cast
    rw [zpow_natCast]
  rw [fl, hquot, nearest_intCast, ← hquot]
  exact div_mul_cancel₀ _ (by positivity)

/-- Scaled and rounded, it still has `p` digits, or is the next power of two. -/
theorem nearest_div_ulp_mem (q : ℕ) {x : K} (hx : 0 < x) :
    2 ^ q ≤ nearest (x / 2 ^ ulpExp (q + 1) x) ∧
      nearest (x / 2 ^ ulpExp (q + 1) x) ≤ 2 ^ (q + 1) := by
  obtain ⟨hlo, hhi⟩ := div_ulp_mem (q + 1) hx
  rw [Nat.cast_succ, add_sub_cancel_right, zpow_natCast] at hlo
  constructor
  · rw [← nearest_intCast (K := K) (2 ^ q)]
    refine nearest_mono ?_
    exact_mod_cast hlo
  · rw [← nearest_intCast (K := K) (2 ^ (q + 1))]
    refine nearest_mono ?_
    exact_mod_cast hhi.le

/-- What has been rounded needs no more rounding. -/
theorem representable_fl {p : ℕ} (hp : 0 < p) {x : K} (hx : 0 ≤ x) : Representable p (fl p x) := by
  rcases hx.eq_or_lt with rfl | hx
  · exact ⟨0, 0, by positivity, by simp⟩
  obtain ⟨q, rfl⟩ := Nat.exists_eq_succ_of_ne_zero hp.ne'
  obtain ⟨hlow, hhigh⟩ := nearest_div_ulp_mem q hx
  rw [fl]
  generalize nearest (x / 2 ^ ulpExp (q + 1) x) = n at hlow hhigh
  obtain ⟨m, rfl⟩ := Int.eq_ofNat_of_zero_le (le_trans (by positivity) hlow)
  rcases hhigh.lt_or_eq with hlt | heq
  · exact ⟨m, _, by exact_mod_cast hlt, by push_cast; rfl⟩
  · refine ⟨2 ^ q, ulpExp (q + 1) x + 1, Nat.pow_lt_pow_right one_lt_two (Nat.lt_succ_self q), ?_⟩
    rw [heq, zpow_add_one₀ two_ne_zero]
    push_cast
    ring

/-- Between two powers of two the rounding stays between them. -/
theorem zpow_log_le_fl {p : ℕ} (hp : 0 < p) {x : K} (hx : 0 < x) :
    2 ^ Int.log 2 x ≤ fl p x ∧ fl p x ≤ 2 ^ (Int.log 2 x + 1) := by
  obtain ⟨q, rfl⟩ := Nat.exists_eq_succ_of_ne_zero hp.ne'
  have hulp : (0 : K) < 2 ^ ulpExp (q + 1) x := by positivity
  obtain ⟨hlow, hhigh⟩ := nearest_div_ulp_mem q hx
  have hlog : ∀ k : ℕ, (2 : K) ^ k * 2 ^ ulpExp (q + 1) x = 2 ^ (Int.log 2 x + k - q) := by
    intro k
    rw [← zpow_natCast, ← zpow_add₀ two_ne_zero, ulpExp]
    congr 1
    push_cast
    ring
  constructor
  · calc (2 : K) ^ Int.log 2 x = 2 ^ q * 2 ^ ulpExp (q + 1) x := by
          rw [hlog, add_sub_cancel_right]
      _ ≤ fl (q + 1) x := mul_le_mul_of_nonneg_right (by exact_mod_cast hlow) hulp.le
  · calc fl (q + 1) x ≤ 2 ^ (q + 1) * 2 ^ ulpExp (q + 1) x :=
          mul_le_mul_of_nonneg_right (by exact_mod_cast hhigh) hulp.le
      _ = 2 ^ (Int.log 2 x + 1) := by
          rw [hlog]
          congr 1
          push_cast
          ring

/-- **Rounding keeps the order.** -/
theorem fl_mono {p : ℕ} (hp : 0 < p) {x y : K} (hx : 0 ≤ x) (h : x ≤ y) : fl p x ≤ fl p y := by
  rcases hx.eq_or_lt with rfl | hx
  · rcases h.eq_or_lt with rfl | hy
    · exact le_rfl
    · rw [fl_zero]
      exact le_trans (by positivity) (zpow_log_le_fl hp hy).1
  have hy := hx.trans_le h
  have hlog : Int.log 2 x ≤ Int.log 2 y := Int.log_mono_right hx h
  rcases hlog.lt_or_eq with hlt | heq
  · calc fl p x ≤ 2 ^ (Int.log 2 x + 1) := (zpow_log_le_fl hp hx).2
      _ ≤ 2 ^ Int.log 2 y := zpow_le_zpow_right₀ one_le_two (by omega)
      _ ≤ fl p y := (zpow_log_le_fl hp hy).1
  · have hulp : ulpExp p x = ulpExp p y := by rw [ulpExp, ulpExp, heq]
    rw [fl, fl, hulp]
    refine mul_le_mul_of_nonneg_right ?_ (by positivity)
    rw [Int.cast_le]
    exact nearest_mono (div_le_div_of_nonneg_right h (by positivity))

/-- A bound that needs no rounding survives it. -/
theorem le_fl {p : ℕ} (hp : 0 < p) {r x : K} (hr : Representable p r) (hpos : 0 ≤ r) (h : r ≤ x) :
    r ≤ fl p x :=
  (fl_of_representable hr).symm.le.trans (fl_mono hp hpos h)

theorem fl_le {p : ℕ} (hp : 0 < p) {r x : K} (hr : Representable p r) (hpos : 0 ≤ x) (h : x ≤ r) :
    fl p x ≤ r :=
  (fl_mono hp hpos h).trans (fl_of_representable hr).le

/-- **Scaling by a power of two commutes with rounding.** -/
theorem fl_mul_zpow (p : ℕ) {x : K} (hx : 0 ≤ x) (k : ℤ) : fl p (x * 2 ^ k) = fl p x * 2 ^ k := by
  rcases hx.eq_or_lt with rfl | hx
  · simp
  have hlog : Int.log 2 (x * 2 ^ k) = Int.log 2 x + k := by
    refine log_eq_of_mem ?_ ?_
    · rw [zpow_add₀ two_ne_zero]
      exact mul_le_mul_of_nonneg_right (zpow_log_le hx) (by positivity)
    · rw [show Int.log 2 x + k + 1 = Int.log 2 x + 1 + k by ring, zpow_add₀ two_ne_zero]
      exact mul_lt_mul_of_pos_right (lt_zpow_log x) (by positivity)
  have hulp : ulpExp p (x * 2 ^ k) = ulpExp p x + k := by
    rw [ulpExp, hlog, ulpExp]
    ring
  rw [fl, fl, hulp, zpow_add₀ two_ne_zero, mul_div_mul_right _ _ (by positivity), mul_assoc]

end NearestEven
