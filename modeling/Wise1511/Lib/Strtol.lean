import Mathlib.Data.List.TakeWhile
import Wise1511.Lib.Decimal

/-!
# `strtol` with base 0

White space is skipped, a sign is taken, and then a prefix decides the base: `0x` or `0X` for
sixteen, another `0` for eight, and ten without either. Digits are read up to the first byte that is
none of the base, and a number that does not fit saturates. `long` has 32 bits.

A `0x` with no hexadecimal digit behind it is documented to read as the `0` alone. The value is zero
either way, so the case is not told apart here.

## Main definitions

* `strtol` — the value of a text
* `IsNarrowed` — a value that its lowest byte mistakes for one up to some bound

## Main results

* `strtol_append_nul` — `strtol` of a buffer that holds a text
* `strtol_decimal`, `strtol_hexText` — what is printed is read again
* `narrow_eq_iff` — a range test behind a cast to a byte
-/

/-- The value of a digit, or 36 for a byte that is none in any base. -/
def digitValue (b : UInt8) : ℕ :=
  if IsDigit b then (b - byteOf '0').toNat
  else if byteOf 'a' ≤ b ∧ b ≤ byteOf 'z' then (b - byteOf 'a').toNat + 10
  else if byteOf 'A' ≤ b ∧ b ≤ byteOf 'Z' then (b - byteOf 'A').toNat + 10
  else 36

/-- The value of the digits of a base that a text starts with. -/
def radixValue (base : ℕ) (s : List UInt8) : ℕ :=
  (s.takeWhile fun b => digitValue b < base).foldl (fun n b => base * n + digitValue b) 0

/-- The value of a text without space and sign, in the base that its prefix gives. -/
def prefixedValue : List UInt8 → ℕ
  | 0x30 :: 0x78 :: s => radixValue 16 s
  | 0x30 :: 0x58 :: s => radixValue 16 s
  | 0x30 :: s => radixValue 8 s
  | s => radixValue 10 s

/-- `strtol(s, NULL, 0)`. -/
def strtol (s : List UInt8) : ℤ :=
  match s.dropWhile fun b => IsSpace b with
  | 0x2D :: s => max (-(prefixedValue s : ℤ)) intMin
  | 0x2B :: s => min (prefixedValue s : ℤ) intMax
  | s => min (prefixedValue s : ℤ) intMax

/-! ### Texts in buffers -/

theorem radixValue_append_nul {base : ℕ} (hbase : base ≤ 36) (s t : List UInt8) :
    radixValue base (s ++ 0 :: t) = radixValue base s := by
  have hnul : ¬ digitValue 0 < base := not_lt.mpr hbase
  rw [radixValue, radixValue, takeWhile_append_stop (P := fun b => digitValue b < base) hnul]

theorem prefixedValue_append_nul (s t : List UInt8) :
    prefixedValue (s ++ 0 :: t) = prefixedValue s := by
  have hstart : ∀ {s s' : List UInt8} {b : UInt8}, b ≠ 0 → (∀ u, s = b :: u → False) →
      s ++ 0 :: t = b :: s' → False := by
    intro s s' b hb hnot h
    obtain ⟨u, hu, -⟩ := eq_cons_of_append_nul hb h
    exact hnot u hu
  fun_cases prefixedValue s with
  | case1 s => exact radixValue_append_nul (by decide) s t
  | case2 s => exact radixValue_append_nul (by decide) s t
  | case3 s hx hX =>
    -- a zero, and no `x` behind it with the NUL in place either
    exact (prefixedValue.eq_3 _ (fun _ => hstart (by decide) hx)
      fun _ => hstart (by decide) hX).trans (radixValue_append_nul (by decide) s t)
  | case4 s _ _ hzero =>
    have hnot : ∀ s', s ++ 0 :: t = 0x30 :: s' → False := fun _ => hstart (by decide) hzero
    exact (prefixedValue.eq_4 _ (fun _ => hnot _) (fun _ => hnot _) hnot).trans
      (radixValue_append_nul (by decide) s t)

/-- `strtol` of a buffer reads the text that the buffer holds. -/
theorem strtol_append_nul (s t : List UInt8) : strtol (s ++ 0 :: t) = strtol s :=
  signedValue_append_nul prefixedValue_append_nul s t

/-! ### Reading what is printed -/

theorem digitValue_lt_ten (b : UInt8) : digitValue b < 10 ↔ IsDigit b := by
  revert b
  decide +kernel

theorem digitValue_of_isDigit : ∀ b, IsDigit b → digitValue b = (b - byteOf '0').toNat := by
  decide +kernel

theorem radixValue_ten (s : List UInt8) : radixValue 10 s = leadingValue s := by
  simp only [radixValue, leadingValue, digitValue_lt_ten]
  refine List.foldl_ext _ _ _ ?_
  intro n b hb
  have hdigit : IsDigit b := by simpa using List.mem_takeWhile_imp hb
  rw [digitValue_of_isDigit b hdigit]

/-- A number that is printed is read again, up to what comes behind it. -/
theorem strtol_decimal {n : ℕ} (hn : n < 2 ^ 31) {s : List UInt8} (hdigit : ¬ IsDigit (s.headD 0))
    (hx : s.headD 0 ≠ 0x78) (hX : s.headD 0 ≠ 0x58) : strtol (decimal n ++ s) = n := by
  have hvalue : prefixedValue (decimal n ++ s) = n := by
    by_cases hzero : n = 0
    · have hstop : radixValue 8 s = 0 := by
        cases s with
        | nil => rfl
        | cons b s =>
          have hb : ¬ digitValue b < 8 := by
            have hten := (digitValue_lt_ten b).not.mpr hdigit
            omega
          simp [radixValue, hb]
      rw [hzero]
      show prefixedValue (0x30 :: s) = 0
      rw [prefixedValue.eq_3]
      · exact hstop
      · rintro _ rfl
        exact hx rfl
      · rintro _ rfl
        exact hX rfl
    · obtain ⟨d, ds, hd, -, hne⟩ := decimal_eq_cons hzero
      have hten : prefixedValue (decimal n ++ s) = radixValue 10 (decimal n ++ s) := by
        rw [hd, List.cons_append]
        exact prefixedValue.eq_4 _ (by simp [hne]) (by simp [hne]) (by simp [hne])
      rw [hten, radixValue_ten, leadingValue_decimal n hdigit]
  obtain ⟨d, ds, hd⟩ := List.exists_cons_of_length_pos (length_decimal_pos n)
  have hd' : IsDigit d := isDigit_of_mem_decimal (hd ▸ List.mem_cons_self)
  obtain ⟨hspace, hminus, hplus⟩ := isDigit_ne d hd'
  have hstrtol : strtol (decimal n ++ s) = min (prefixedValue (decimal n ++ s) : ℤ) intMax := by
    rw [hd, List.cons_append, strtol, List.dropWhile_cons_of_neg (by simpa using hspace)]
    split
    · next h => exact absurd (List.cons.inj h).1 hminus
    · next h => exact absurd (List.cons.inj h).1 hplus
    · rfl
  rw [hstrtol, hvalue, intMax]
  omega

/-- A value is one of an `int`. -/
theorem strtol_mem (s : List UInt8) : intMin ≤ strtol s ∧ strtol s ≤ intMax := by
  rw [strtol, intMin, intMax]
  split <;> omega

/-- The hexadecimal digit `d`, as `%X` prints it. -/
def hexDigit (d : ℕ) : UInt8 := if d < 10 then digitByte d else byteOf 'A' + UInt8.ofNat (d - 10)

/-- What `0x%02X` prints for a byte. -/
def hexText (v : UInt8) : List UInt8 :=
  [0x30, 0x78, hexDigit (v.toNat / 16), hexDigit (v.toNat % 16)]

theorem digitValue_hexDigit : ∀ d < 16, digitValue (hexDigit d) = d := by decide

theorem radixValue_hexDigits {d e : ℕ} (hd : d < 16) (he : e < 16) :
    radixValue 16 [hexDigit d, hexDigit e] = 16 * d + e := by
  simp [radixValue, digitValue_hexDigit d hd, digitValue_hexDigit e he, hd, he]

/-- A byte in hexadecimal is read again. -/
theorem strtol_hexText (v : UInt8) : strtol (hexText v) = v.toNat := by
  have hv := v.toNat_lt
  have hvalue : prefixedValue (hexText v) = v.toNat := by
    show radixValue 16 [hexDigit (v.toNat / 16), hexDigit (v.toNat % 16)] = _
    rw [radixValue_hexDigits (by omega) (by omega)]
    omega
  have hstrtol : strtol (hexText v) = min (prefixedValue (hexText v) : ℤ) intMax := rfl
  rw [hstrtol, hvalue, intMax]
  omega

/-! ### Narrowing -/

/-- The value is out of the range up to `bound`, but its lowest byte is in it, and is not zero. -/
def IsNarrowed (bound : ℤ) (v : ℤ) : Prop :=
  ¬ (0 ≤ v ∧ v ≤ bound) ∧ 0 < v % 256 ∧ v % 256 ≤ bound

instance (bound v : ℤ) : Decidable (IsNarrowed bound v) := inferInstanceAs (Decidable (_ ∧ _))

theorem toNat_ofInt (v : ℤ) : ((UInt8.ofInt v).toNat : ℤ) = v % 256 := by
  have hnonneg : 0 ≤ v % 256 := Int.emod_nonneg v (by decide)
  have hlt : v % 256 < 256 := Int.emod_lt_of_pos v (by decide)
  rw [UInt8.ofInt, UInt8.toNat_ofNat']
  omega

/-- **A range test behind a cast.** Replacing what is out of range by zero gives the same before and
after the cast to a byte, except for the narrowed values. -/
theorem narrow_eq_iff {bound : ℤ} (hbound : bound < 256) (v : ℤ) :
    (if bound < v % 256 then 0 else v % 256) = (if 0 ≤ v ∧ v ≤ bound then v else 0) ↔
      ¬ IsNarrowed bound v := by
  rw [IsNarrowed]
  split_ifs <;> omega
