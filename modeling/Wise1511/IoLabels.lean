import Wise1511.IoMenus

/-!
# What the input and output menus show

An entry that asks for a value shows the value it has, in its label: an address in hexadecimal, a
period in milliseconds, a duty cycle in percent. What is shown of an address, of the period and of
the pin can be typed back, and sets the value that is there.

The duty cycle is kept as a `float` between zero and one, and both ways there is a rounding:
`gDutyCycle /= 100` when it is typed, `(int)(gDutyCycle * 100)` when it is shown. The conversion at
the end drops the fraction, so the label may be one below what was typed. Up to a hundred percent it
is for just two numbers.

## Main results

* `GlobalsOk.typedBack` — addresses, the period and the pin
* `shownDuty_typed` — the duty cycle
* `GlobalsOk.legible_labels` — with its labels, every table can be read off the screen
-/

namespace Wise1511

namespace IoTest

open Binary32 (HasValue ofInt)
open NearestEven

/-! ### Labels -/

/-- `%d`. -/
def fmtInt (v : ℤ) : List UInt8 := fmtD (UInt32.ofInt v)

/-- `GPIO_Read` with a string, for an index of the menu. -/
def gpioReadLabel (level : PinName → Bool) (index : ℤ) : List UInt8 :=
  literal " (" ++ fmtInt ((gpioSwitch index).map level == some true).toNat ++ literal ")"

/-- `BitRate` of `I2CTest.cpp`. -/
def i2cBitRateLabel (g : I2cGlobals) : List UInt8 :=
  literal " (" ++ fmtInt (if g.gBitRate = 0 then 100 else 400) ++ literal "KHz)"

/-- `SlaveAddress`. -/
def i2cSlaveAddressLabel (g : I2cGlobals) : List UInt8 :=
  literal " (" ++ hexText g.gSlaveAddress ++ literal ")"

/-- `OffsetAddress` of `I2CTest.cpp`. -/
def i2cOffsetAddressLabel (g : I2cGlobals) : List UInt8 :=
  literal " (" ++ hexText g.gOffsetAddress ++ literal ")"

/-- `BitRate` of `SPITest.cpp`. -/
def spiBitRateLabel (g : SpiGlobals) (i : Fin 3) : List UInt8 :=
  if g.gBitRate i = 0 then literal " (1MHz)" else literal " (100KHz)"

/-- `OffsetAddress` of `SPITest.cpp`. -/
def spiOffsetAddressLabel (g : SpiGlobals) (i : Fin 3) : List UInt8 :=
  literal " (" ++ hexText (g.gOffsetAddress i) ++ literal ")"

/-- `Period`. -/
def periodLabel (g : PwmGlobals) : List UInt8 :=
  literal " (" ++ fmtInt g.gPeriod ++ literal "ms)"

/-- `(int)(gDutyCycle * 100)`. -/
def shownDuty (gDutyCycle : Float32) : ℤ := Binary32.toInt (gDutyCycle * ofInt 100)

/-- `DutyCycle`. -/
def dutyCycleLabel (g : PwmGlobals) : List UInt8 :=
  literal " (" ++ fmtInt (shownDuty g.gDutyCycle) ++ literal "%)"

/-- What the handler of an entry writes when it is called with a string, by the number of its table
and the entry's place there. -/
def ioLabel (level : PinName → Bool) (s : IoState) (table entry : ℕ) (index : ℤ) : List UInt8 :=
  match table, entry with
  | 12, 1 => gpioReadLabel level index
  | 13, 1 => i2cBitRateLabel s.i2c
  | 13, 2 => i2cSlaveAddressLabel s.i2c
  | 13, 3 => i2cOffsetAddressLabel s.i2c
  | 14, 1 => ((spiIndex index).map (spiBitRateLabel s.spi)).getD []
  | 14, 2 => ((spiIndex index).map (spiOffsetAddressLabel s.spi)).getD []
  | 15, 1 => periodLabel s.pwm
  | 15, 2 => dutyCycleLabel s.pwm
  | 18, 1 => inputPinNameLabel s.pin
  | _, _ => []

/-- What stands between the parentheses. -/
def inParentheses (label : List UInt8) : List UInt8 := (label.drop 2).dropLast

/-! ### The duty cycle -/

/-- The percentage that is set for a number that is typed. -/
def percent (v : ℤ) : ℕ := if v < 0 then 50 else v.toNat

/-- The value that is kept. -/
def kept (n : ℕ) : ℚ := fl 24 (fl 24 (n : ℚ) / 100)

theorem hasValue_hundred : HasValue (ofInt 100) 100 := by
  have hvalue := Binary32.hasValue_ofInt (n := 100) (by norm_num)
  have hexact : fl 24 ((100 : ℕ) : ℚ) = 100 := by
    rw [fl_of_representable ⟨100, 0, by norm_num, by norm_num⟩]
    norm_num
  rwa [hexact] at hvalue

/-- A power of two below or above stays there. -/
theorem fl_mem {x : ℚ} {a b : ℤ} (hlo : 2 ^ a ≤ x) (hhi : x ≤ 2 ^ b) :
    2 ^ a ≤ fl 24 x ∧ fl 24 x ≤ 2 ^ b := by
  have hrep : ∀ k : ℤ, Representable 24 ((2 : ℚ) ^ k) := by
    intro k
    exact ⟨1, k, by norm_num, by norm_num⟩
  have hpos : (0 : ℚ) < 2 ^ a := by positivity
  exact ⟨le_fl (by norm_num) (hrep a) hpos.le hlo,
    fl_le (by norm_num) (hrep b) (hpos.le.trans hlo) hhi⟩

theorem kept_zero : kept 0 = 0 := by simp [kept]

/-- The ranges of the three roundings. -/
theorem kept_mem {n : ℕ} (hpos : 0 < n) (hn : n < 2 ^ 31) :
    ((1 : ℚ) ≤ fl 24 (n : ℚ) ∧ fl 24 (n : ℚ) ≤ 2 ^ 31) ∧
      (2 : ℚ) ^ (-7 : ℤ) ≤ kept n ∧ kept n ≤ 2 ^ 25 := by
  have hone : (1 : ℚ) ≤ n := by exact_mod_cast hpos
  have hmax : (n : ℚ) ≤ 2 ^ 31 := by exact_mod_cast hn.le
  have hn' := fl_mem (x := n) (a := 0) (b := 31) (by simpa using hone) (by exact_mod_cast hmax)
  rw [zpow_zero] at hn'
  have hq : (2 : ℚ) ^ (-7 : ℤ) ≤ fl 24 (n : ℚ) / 100 ∧ fl 24 (n : ℚ) / 100 ≤ 2 ^ (25 : ℤ) := by
    constructor
    · refine le_trans ?_ (div_le_div_of_nonneg_right hn'.1 (by norm_num))
      norm_num
    · refine le_trans (div_le_div_of_nonneg_right hn'.2 (by norm_num)) ?_
      norm_num
  have hkept := fl_mem hq.1 hq.2
  exact ⟨⟨hn'.1, by exact_mod_cast hn'.2⟩, hkept.1, by exact_mod_cast hkept.2⟩

/-- **What is kept of a number.** A negative number counts as fifty. -/
theorem hasValue_dutyCycleOf {v : ℤ} (hmin : intMin ≤ v) (hmax : v ≤ intMax) :
    HasValue (dutyCycleOf v) (kept (percent v)) := by
  have hzero := Binary32.hasValue_ofInt_zero
  rw [intMin] at hmin
  rw [intMax] at hmax
  have hnumerator : ∃ n : ℕ, n < 2 ^ 31 ∧ percent v = n ∧
      (if ofInt v < ofInt 0 then ofInt 50 else ofInt v) = ofInt n := by
    by_cases hneg : v < 0
    · rw [if_pos (Binary32.ofInt_lt hzero hneg hmin), percent, if_pos hneg]
      exact ⟨50, by norm_num, rfl, rfl⟩
    · obtain ⟨n, rfl⟩ := Int.eq_ofNat_of_zero_le (not_lt.mp hneg)
      have hvalue := Binary32.hasValue_ofInt (n := n) (by omega)
      rw [if_neg (hvalue.not_lt hzero), percent, if_neg hneg]
      exact ⟨n, by omega, Int.toNat_natCast n, rfl⟩
  obtain ⟨n, hn, hpercent, hif⟩ := hnumerator
  rw [dutyCycleOf, hif, hpercent, kept]
  refine (Binary32.hasValue_ofInt (by omega)).div hasValue_hundred (by norm_num) ?_
  rcases Nat.eq_zero_or_pos n with rfl | hpos
  · exact .inl (by simp)
  · obtain ⟨⟨hlo, hhi⟩, -⟩ := kept_mem hpos hn
    refine .inr ⟨?_, ?_⟩
    · refine le_trans ?_ (div_le_div_of_nonneg_right hlo (by norm_num))
      norm_num
    · refine lt_of_le_of_lt (div_le_div_of_nonneg_right hhi (by norm_num)) ?_
      norm_num

/-- What is shown of it. -/
theorem shownDuty_dutyCycleOf {v : ℤ} (hmin : intMin ≤ v) (hmax : v ≤ intMax) :
    shownDuty (dutyCycleOf v) = min (⌊fl 24 (kept (percent v) * 100)⌋₊ : ℤ) (2 ^ 31 - 1) := by
  have hn : percent v < 2 ^ 31 := by
    rw [intMax] at hmax
    rw [percent]
    split_ifs <;> omega
  refine ((hasValue_dutyCycleOf hmin hmax).mul hasValue_hundred ?_).toInt
  rcases Nat.eq_zero_or_pos (percent v) with hzero | hpos
  · rw [hzero, kept_zero]
    exact .inl (zero_mul _)
  · obtain ⟨-, hlo, hhi⟩ := kept_mem hpos hn
    refine .inr ⟨?_, ?_⟩
    · refine le_trans ?_ (mul_le_mul_of_nonneg_right hlo (by norm_num))
      norm_num
    · refine lt_of_le_of_lt (mul_le_mul_of_nonneg_right hhi (by norm_num)) ?_
      norm_num

/-- The three roundings together. -/
theorem abs_shown_sub_le (n : ℕ) : |fl 24 (kept n * 100) - n| ≤ (n : ℚ) / 2 ^ 22 := by
  have hn : (0 : ℚ) ≤ n := Nat.cast_nonneg n
  have hfirst := abs_le.mp (abs_fl_sub_le_div 24 hn)
  have hx : (0 : ℚ) ≤ fl 24 (n : ℚ) := by
    have := hfirst.1
    linarith
  have hsecond := abs_le.mp (abs_fl_sub_le_div 24 (div_nonneg hx (show (0 : ℚ) ≤ 100 by norm_num)))
  rw [← kept] at hsecond
  have hq : (0 : ℚ) ≤ kept n := by
    have := hsecond.1
    linarith
  have hthird := abs_le.mp (abs_fl_sub_le_div 24 (mul_nonneg hq (show (0 : ℚ) ≤ 100 by norm_num)))
  rw [abs_le]
  constructor
  · linarith [hfirst.1, hsecond.1, hthird.1, hfirst.2, hsecond.2]
  · linarith [hfirst.2, hsecond.2, hthird.2]

/-- A negative number is shown as fifty. -/
theorem shownDuty_of_neg {v : ℤ} (hmin : intMin ≤ v) (hneg : v < 0) :
    shownDuty (dutyCycleOf v) = 50 := by
  have hfifty : shownDuty (dutyCycleOf 50) = 50 := by decide +kernel
  rw [shownDuty_dutyCycleOf (by decide) (by decide)] at hfifty
  rw [shownDuty_dutyCycleOf hmin (by rw [intMax]; omega), percent, if_pos hneg]
  exact hfifty

/-- Any other number is shown up to the roundings and the fraction. -/
theorem shownDuty_mem {n : ℕ} (hn : n < 2 ^ 31) :
    (n : ℚ) - n / 2 ^ 22 - 1 < shownDuty (dutyCycleOf n) ∧
      (shownDuty (dutyCycleOf n) : ℚ) ≤ n + n / 2 ^ 22 := by
  rw [shownDuty_dutyCycleOf (by rw [intMin]; omega) (by rw [intMax]; omega), percent,
    if_neg (by omega), Int.toNat_natCast]
  obtain ⟨hlo, hhi⟩ := abs_le.mp (abs_shown_sub_le n)
  generalize fl 24 (kept n * 100) = r at hlo hhi
  have hnat : (0 : ℚ) ≤ n := Nat.cast_nonneg n
  have hsmall : (0 : ℚ) ≤ n / 2 ^ 22 := by positivity
  have hmax : (n : ℚ) ≤ 2 ^ 31 - 1 := by
    have hcast : (n : ℚ) ≤ ((2 ^ 31 - 1 : ℕ) : ℚ) := by exact_mod_cast Nat.le_sub_one_of_lt hn
    norm_num at hcast ⊢
    exact hcast
  have hr : (0 : ℚ) ≤ r := by
    have hle : (n : ℚ) / 2 ^ 22 ≤ n := div_le_self hnat (by norm_num)
    linarith
  push_cast
  constructor
  · refine lt_min ?_ (by linarith)
    have hfloor := Nat.lt_floor_add_one r
    linarith
  · refine (min_le_left _ _).trans ?_
    have hfloor := Nat.floor_le hr
    linarith

/-- Up to a hundred, number by number. -/
theorem shownDuty_of_le_hundred : ∀ n : ℕ, n ≤ 100 →
    shownDuty (dutyCycleOf n) = if n = 53 ∨ n = 59 then (n : ℤ) - 1 else n := by
  decide +kernel

/-- **What is shown after a number is typed.** Fifty percent for a negative one, and otherwise the
number up to the error of three roundings, one less at most while it has 22 binary digits. Of the
numbers up to a hundred just 53 and 59 are shown wrong. -/
theorem shownDuty_typed (line : Line) :
    let v := strtol line
    let shown := shownDuty (dutyCycleOf v)
    (v < 0 → shown = 50) ∧
    (0 ≤ v → (v : ℚ) - v / 2 ^ 22 - 1 < shown ∧ (shown : ℚ) ≤ v + v / 2 ^ 22) ∧
    (0 ≤ v → v ≤ 100 → shown = if v = 53 ∨ v = 59 then v - 1 else v) := by
  obtain ⟨hmin, hmax⟩ := strtol_mem line
  generalize strtol line = v at hmin hmax
  refine ⟨shownDuty_of_neg hmin, ?_, ?_⟩
  · intro hnonneg
    obtain ⟨n, rfl⟩ := Int.eq_ofNat_of_zero_le hnonneg
    rw [intMax] at hmax
    rw [Int.cast_natCast]
    exact shownDuty_mem (by omega)
  · intro hnonneg hle
    obtain ⟨n, rfl⟩ := Int.eq_ofNat_of_zero_le hnonneg
    exact_mod_cast shownDuty_of_le_hundred n (by omega)

/-! ### Typing a label back -/

/-- The globals are ones that the range tests let through. -/
structure GlobalsOk (s : IoState) : Prop where
  i2cRate : s.i2c.gBitRate = 0 ∨ s.i2c.gBitRate = 1
  spiRate : ∀ i, s.spi.gBitRate i = 0 ∨ s.spi.gBitRate i = 1
  period : 0 ≤ s.pwm.gPeriod ∧ s.pwm.gPeriod ≤ intMax
  duty : ∃ x, HasValue s.pwm.gDutyCycle x
  pin : ∃ p, Holds s.pin p

theorem hasValue_half : HasValue 0.5 (1 / 2) := by
  have hunpack : (0.5 : Float32).toModel.unpack
      = .finite .positive (2 ^ 23) (-24) (by norm_num) := rfl
  have hvalue := HasValue.normal (by norm_num) hunpack le_rfl (by norm_num)
  norm_num at hvalue ⊢
  exact hvalue

theorem globalsOk_ioStart : GlobalsOk ioStart where
  i2cRate := .inl rfl
  spiRate _ := .inl rfl
  period := by decide
  duty := ⟨_, hasValue_half⟩
  pin := ⟨_, holds_pinStart⟩

theorem inParentheses_eq (text : List UInt8) :
    inParentheses (literal " (" ++ text ++ literal ")") = text := by
  simp [inParentheses, literal]

/-- A number behind which there is no digit and no `x` can be read. -/
theorem strtol_fmtInt {v : ℤ} (h : 0 ≤ v ∧ v ≤ intMax) {s : List UInt8}
    (hdigit : ¬ IsDigit (s.headD 0)) (hx : s.headD 0 ≠ 0x78) (hX : s.headD 0 ≠ 0x58) :
    strtol (fmtInt v ++ s) = v := by
  obtain ⟨n, rfl⟩ := Int.eq_ofNat_of_zero_le h.1
  have hlt : n < 2 ^ 31 := by
    have hmax := h.2
    rw [intMax] at hmax
    omega
  have hnat : (UInt32.ofInt n).toNat = n := by
    rw [UInt32.ofInt, UInt32.toNat_ofNat']
    omega
  rw [fmtInt, fmtD_of_lt (by rw [hnat]; exact hlt), hnat, strtol_decimal hlt hdigit hx hX]

/-- The label of the duty cycle shows just that. -/
theorem strtol_dutyCycleLabel {v : ℤ} (hmin : intMin ≤ v) (hmax : v ≤ intMax) (period : ℤ) :
    strtol (inParentheses (dutyCycleLabel ⟨period, dutyCycleOf v⟩))
      = shownDuty (dutyCycleOf v) := by
  have hrange : 0 ≤ shownDuty (dutyCycleOf v) ∧ shownDuty (dutyCycleOf v) ≤ intMax := by
    rw [shownDuty_dutyCycleOf hmin hmax, intMax]
    omega
  have htext : inParentheses (dutyCycleLabel ⟨period, dutyCycleOf v⟩)
      = fmtInt (shownDuty (dutyCycleOf v)) ++ literal "%" := by
    simp [dutyCycleLabel, inParentheses, literal]
  rw [htext, strtol_fmtInt hrange (by decide) (by decide) (by decide)]

theorem ofInt_toNat (v : UInt8) : UInt8.ofInt v.toNat = v := by
  have hlt := v.toNat_lt
  have hvalue := toNat_ofInt v.toNat
  refine UInt8.toNat_inj.mp ?_
  omega

theorem ofInt_strtol_hexText (v : UInt8) : UInt8.ofInt (strtol (hexText v)) = v := by
  rw [strtol_hexText, ofInt_toNat]

/-- An address that is typed back is the one that is there. -/
theorem i2cSlaveAddress_back (s : IoState) :
    i2cSlaveAddress (strtol (inParentheses (i2cSlaveAddressLabel s.i2c))) s = s := by
  rw [i2cSlaveAddressLabel, inParentheses_eq, i2cSlaveAddress, ofInt_strtol_hexText]

theorem i2cOffsetAddress_back (s : IoState) :
    i2cOffsetAddress (strtol (inParentheses (i2cOffsetAddressLabel s.i2c))) s = s := by
  rw [i2cOffsetAddressLabel, inParentheses_eq, i2cOffsetAddress, ofInt_strtol_hexText]

theorem spiOffsetAddress_back (s : IoState) (i : Fin 3) :
    spiOffsetAddress i (strtol (inParentheses (spiOffsetAddressLabel s.spi i))) s = s := by
  have hindex : spiIndex i = some i := by
    revert i
    decide
  rw [spiOffsetAddressLabel, inParentheses_eq, spiOffsetAddress, ofInt_strtol_hexText, atSpiIndex,
    hindex]
  dsimp only
  rw [Function.update_eq_self]

/-- The unit behind a period does not matter. -/
theorem pwmPeriod_back {s : IoState} (h : 0 ≤ s.pwm.gPeriod ∧ s.pwm.gPeriod ≤ intMax) :
    pwmPeriod (strtol (inParentheses (periodLabel s.pwm))) s = pwmDrive s := by
  have htext : inParentheses (periodLabel s.pwm) = fmtInt s.pwm.gPeriod ++ literal "ms" := by
    simp [periodLabel, inParentheses, literal]
  rw [htext, strtol_fmtInt h (by decide) (by decide) (by decide), pwmPeriod, if_neg (by omega)]

/-- The letter and the number of a pin. -/
theorem inputPinName_back {g : PinGlobals} {p : Pin} (h : Holds g p) :
    inputPinName [g.gPinGroup] (decimal g.gPinIndex.toNat) = g := by
  obtain ⟨⟨group, number⟩, ⟨i, j⟩⟩ := g, p
  have hgroup : group = UInt8.ofNat (65 + i) := by rw [← h.group, UInt8.ofNat_toNat]
  have hletter : ∀ i : Fin 5, (if toupper (UInt8.ofNat (65 + i)) < 65 ∨
      69 < toupper (UInt8.ofNat (65 + i)) then 65 else toupper (UInt8.ofNat (65 + i)))
        = UInt8.ofNat (65 + i) := by decide
  have hnumber : number.toNat < 16 := by
    rw [h.number]
    exact j.isLt
  have hvalue : UInt8.ofInt (strtol (decimal number.toNat)) = number := by
    have hread := strtol_decimal (n := number.toNat) (by omega) (s := []) (by decide) (by decide)
      (by decide)
    rw [List.append_nil] at hread
    rw [hread, ofInt_toNat]
  have hrange : ¬ (number < 0 ∨ 15 < number) := by
    rw [UInt8.lt_iff_toNat_lt, UInt8.lt_iff_toNat_lt]
    simp
    omega
  rw [inputPinName]
  simp only [List.headD_cons, hvalue, if_neg hrange, hgroup, hletter]

/-- What the labels show can be typed back: the addresses, the period and the pin stay as they
are. -/
structure TypedBack (s : IoState) : Prop where
  i2cSlaveAddress :
    i2cSlaveAddress (strtol (inParentheses (i2cSlaveAddressLabel s.i2c))) s = s
  i2cOffsetAddress :
    i2cOffsetAddress (strtol (inParentheses (i2cOffsetAddressLabel s.i2c))) s = s
  spiOffsetAddress : ∀ i : Fin 3,
    spiOffsetAddress i (strtol (inParentheses (spiOffsetAddressLabel s.spi i))) s = s
  pwmPeriod : pwmPeriod (strtol (inParentheses (periodLabel s.pwm))) s = pwmDrive s
  pin : ∀ letter number, inParentheses (inputPinNameLabel s.pin)
    = [byteOf 'P', letter, byteOf '_'] ++ number → inputPinName [letter] number = s.pin

/-- The range tests are enough for it. -/
theorem GlobalsOk.typedBack {s : IoState} (h : GlobalsOk s) : TypedBack s := by
  refine ⟨i2cSlaveAddress_back s, i2cOffsetAddress_back s, spiOffsetAddress_back s,
    pwmPeriod_back h.period, ?_⟩
  intro letter number hlabel
  obtain ⟨p, hp⟩ := h.pin
  have hshown : inParentheses (inputPinNameLabel s.pin)
      = [byteOf 'P', s.pin.gPinGroup, byteOf '_'] ++ decimal s.pin.gPinIndex.toNat := by
    show ([byteOf 'P', s.pin.gPinGroup, byteOf '_'] ++ decimal s.pin.gPinIndex.toNat ++
      [byteOf ')']).dropLast = _
    exact List.dropLast_concat
  rw [hshown] at hlabel
  obtain ⟨rfl, rfl⟩ : s.pin.gPinGroup = letter ∧ decimal s.pin.gPinIndex.toNat = number := by
    simpa using hlabel
  exact inputPinName_back hp

/-! ### On the screen -/

theorem notMem_fmtInt (v : ℤ) : 0x0A ∉ fmtInt v := by
  intro h
  exact absurd (fmtD_mem h).1 (by decide)

theorem notMem_hexText : ∀ v : UInt8, 0x0A ∉ hexText v := by decide +kernel

/-- No label has a line feed in it. -/
theorem GlobalsOk.notMem_ioLabel {s : IoState} (h : GlobalsOk s) (level : PinName → Bool)
    (table entry : ℕ) (index : ℤ) : 0x0A ∉ ioLabel level s table entry index := by
  have hopen : 0x0A ∉ literal " (" := by decide
  have hnumber : ∀ (v : ℤ) {unit : List UInt8}, 0x0A ∉ unit →
      0x0A ∉ literal " (" ++ fmtInt v ++ unit := by
    intro v unit hunit
    simp [hopen, notMem_fmtInt, hunit]
  have hhex : ∀ v : UInt8, 0x0A ∉ literal " (" ++ hexText v ++ literal ")" := by
    intro v
    have hclose : 0x0A ∉ literal ")" := by decide
    simp [hopen, notMem_hexText, hclose]
  obtain ⟨p, hp⟩ := h.pin
  fun_cases ioLabel level s table entry index with
  | case1 => exact hnumber _ (by decide)
  | case2 => exact hnumber _ (by decide)
  | case3 => exact hhex _
  | case4 => exact hhex _
  | case5 =>
    cases spiIndex index with
    | none => exact List.not_mem_nil
    | some i =>
      show 0x0A ∉ spiBitRateLabel s.spi i
      rw [spiBitRateLabel]
      split_ifs <;> decide
  | case6 =>
    cases spiIndex index with
    | none => exact List.not_mem_nil
    | some i => exact hhex _
  | case7 => exact hnumber _ (by decide)
  | case8 => exact hnumber _ (by decide)
  | case9 =>
    have hletters : ∀ i : Fin 5, (0x0A : UInt8) ≠ UInt8.ofNat (65 + i) := by decide
    have hletter := hletters p.group
    rw [hp.label, Pin.label, pinText]
    generalize UInt8.ofNat (65 + p.group) = letter at hletter
    simp [notMem_decimal, byteOf, hletter]
  | case10 => exact List.not_mem_nil

/-- **With its labels, every table can be read off the screen**, as long as the globals are ones
that the range tests let through. -/
theorem GlobalsOk.legible_labels {s : IoState} (h : GlobalsOk s) (level : PinName → Bool)
    {table : Menu Unit} {func : ℕ → Action IoState} (hmenu : (Action.menu table func).Legible) :
    table.Legible fun i => ioLabel level s table.table i (table.cmds i).index := by
  cases hmenu with
  | menu htable _ => exact htable _ fun i => h.notMem_ioLabel level _ _ _

end IoTest

end Wise1511
