import Mathlib.Data.FinEnum
import Mathlib.Data.Nat.Digits.Lemmas
import Mathlib.Tactic.Common

/-!
# Decimal text

Numbers as the ASCII text that C's `%d` prints for them, and what `atoi` reads. The digits are
Mathlib's `Nat.digits`, most significant first, with the one exception that zero has a digit too.

`atoi` skips white space, takes a sign, and reads digits up to the first byte that is none. What it
does when the number does not fit is left open by the language; here it saturates.

## Main results

* `length_decimal_le` — a smaller number has no longer text
* `decimal_ne_zero` — the text has no NUL
* `leadingValue_decimal` — what is printed is read again
* `atoi_of_isDigit` — `atoi` of a text that starts with a digit
* `atoi_append_nul` — `atoi` of a buffer that holds a text
-/

/-- A character as a byte. -/
def byteOf (c : Char) : UInt8 := UInt8.ofNat c.toNat

/-- The ASCII digit `d`. -/
def digitByte (d : ℕ) : UInt8 := byteOf '0' + UInt8.ofNat d

/-- The decimal text of a number. -/
def decimal (n : ℕ) : List UInt8 :=
  if n = 0 then [digitByte 0] else (Nat.digits 10 n).reverse.map digitByte

/-- The text `%d` prints for an `unsigned int`, which it takes for an `int`. -/
def fmtD (v : UInt32) : List UInt8 :=
  if v.toNat < 2 ^ 31 then decimal v.toNat else byteOf '-' :: decimal (2 ^ 32 - v.toNat)

theorem length_decimal {n : ℕ} (h : n ≠ 0) : (decimal n).length = (Nat.digits 10 n).length := by
  rw [decimal, if_neg h, List.length_map, List.length_reverse]

theorem length_decimal_pos (n : ℕ) : 0 < (decimal n).length := by
  by_cases h : n = 0
  · rw [h]; exact Nat.zero_lt_one
  · rw [length_decimal h, List.length_pos_iff]
    exact Nat.digits_ne_nil_iff_ne_zero.mpr h

/-- A smaller number has no longer text. -/
theorem length_decimal_le {m n : ℕ} (h : m ≤ n) : (decimal m).length ≤ (decimal n).length := by
  by_cases hm : m = 0
  · rw [hm]; exact length_decimal_pos n
  · have hn : n ≠ 0 := by omega
    rw [length_decimal hm, length_decimal hn]
    exact Nat.le_length_digits_le 10 m n h

theorem length_decimal_le_of_lt {n k : ℕ} (hk : 0 < k) (h : n < 10 ^ k) :
    (decimal n).length ≤ k := by
  by_cases hn : n = 0
  · rw [hn]; exact hk
  · rw [length_decimal hn]
    exact (Nat.digits_length_le_iff (by decide) n).mpr h

theorem digitByte_ne_zero : ∀ d < 10, digitByte d ≠ 0 := by decide

/-- The text has no NUL. -/
theorem decimal_ne_zero (n : ℕ) : ∀ b ∈ decimal n, b ≠ 0 := by
  intro b hb
  rw [decimal] at hb
  split_ifs at hb with hn
  · rw [List.mem_singleton.mp hb]
    exact digitByte_ne_zero 0 (by decide)
  · obtain ⟨d, hd, rfl⟩ := List.mem_map.mp hb
    exact digitByte_ne_zero d (Nat.digits_lt_base (by decide) (List.mem_reverse.mp hd))

theorem fmtD_of_lt {v : UInt32} (h : v.toNat < 2 ^ 31) : fmtD v = decimal v.toNat := if_pos h

theorem fmtD_ne_zero (v : UInt32) : ∀ b ∈ fmtD v, b ≠ 0 := by
  intro b hb
  rw [fmtD] at hb
  split_ifs at hb
  · exact decimal_ne_zero _ b hb
  · rcases List.mem_cons.mp hb with rfl | hb
    · decide
    · exact decimal_ne_zero _ b hb

/-- At most ten digits and a sign. -/
theorem length_fmtD_le (v : UInt32) : (fmtD v).length ≤ 11 := by
  have hv : v.toNat < 2 ^ 32 := v.toNat_lt
  rw [fmtD]
  split_ifs
  · exact le_trans (length_decimal_le_of_lt (k := 10) (by decide) (by omega)) (by decide)
  · exact Nat.succ_le_succ (length_decimal_le_of_lt (k := 10) (by decide) (by omega))

/-! ### Reading -/

/-- `isdigit`. -/
def IsDigit (b : UInt8) : Prop := byteOf '0' ≤ b ∧ b ≤ byteOf '9'

instance (b : UInt8) : Decidable (IsDigit b) := inferInstanceAs (Decidable (_ ∧ _))

theorem isDigit_digitByte : ∀ d < 10, IsDigit (digitByte d) := by decide

/-- A number other than zero is printed without a zero in front. -/
theorem decimal_eq_cons {n : ℕ} (hn : n ≠ 0) :
    ∃ d s, decimal n = d :: s ∧ IsDigit d ∧ d ≠ 0x30 := by
  have hne : (Nat.digits 10 n).reverse ≠ [] := by
    rw [ne_eq, List.reverse_eq_nil_iff]
    exact Nat.digits_ne_nil_iff_ne_zero.mpr hn
  obtain ⟨d, ds, hd⟩ := List.exists_cons_of_ne_nil hne
  have hmem : d ∈ Nat.digits 10 n := by
    rw [← List.mem_reverse, hd]
    exact List.mem_cons_self
  have hlt : d < 10 := Nat.digits_lt_base (by decide) hmem
  have hlast : d ≠ 0 := by
    have hget := Nat.getLast_digit_ne_zero 10 hn
    rw [← List.head_reverse (by simpa using hne)] at hget
    simpa [hd] using hget
  have hbyte : ∀ d < 10, d ≠ 0 → digitByte d ≠ 0x30 := by decide
  refine ⟨digitByte d, ds.map digitByte, ?_, isDigit_digitByte d hlt, hbyte d hlt hlast⟩
  rw [decimal, if_neg hn, hd, List.map_cons]

/-- The text is all digits. -/
theorem isDigit_of_mem_decimal {n : ℕ} {b : UInt8} (hb : b ∈ decimal n) : IsDigit b := by
  rw [decimal] at hb
  split_ifs at hb with hn
  · rw [List.mem_singleton.mp hb]
    exact isDigit_digitByte 0 (by decide)
  · obtain ⟨d, hd, rfl⟩ := List.mem_map.mp hb
    exact isDigit_digitByte d (Nat.digits_lt_base (by decide) (List.mem_reverse.mp hd))

theorem fmtD_ne_nil (v : UInt32) : fmtD v ≠ [] := by
  rw [fmtD]
  split_ifs
  · exact List.ne_nil_of_length_pos (length_decimal_pos _)
  · exact List.cons_ne_nil _ _

/-- What `%d` prints lies between the minus sign and the digit nine. -/
theorem fmtD_mem {v : UInt32} {b : UInt8} (hb : b ∈ fmtD v) : 45 ≤ b.toNat ∧ b.toNat ≤ 57 := by
  have hdigit : ∀ c, IsDigit c → 45 ≤ c.toNat ∧ c.toNat ≤ 57 := by decide +kernel
  rw [fmtD] at hb
  split_ifs at hb
  · exact hdigit b (isDigit_of_mem_decimal hb)
  · rcases List.mem_cons.mp hb with rfl | hb
    · decide
    · exact hdigit b (isDigit_of_mem_decimal hb)

/-- `isspace`. -/
def IsSpace (b : UInt8) : Prop := b = 0x20 ∨ (0x09 ≤ b ∧ b ≤ 0x0D)

instance (b : UInt8) : Decidable (IsSpace b) := inferInstanceAs (Decidable (_ ∨ _))

/-- The value of the digits a text starts with. -/
def leadingValue (s : List UInt8) : ℕ :=
  (s.takeWhile fun b => IsDigit b).foldl (fun n d => 10 * n + (d - byteOf '0').toNat) 0

theorem toNat_digitByte : ∀ d < 10, (digitByte d - byteOf '0').toNat = d := by decide

/-- What is printed is read again, up to the first byte behind it that is no digit. -/
theorem leadingValue_decimal (n : ℕ) {s : List UInt8} (hs : ¬ IsDigit (s.headD 0)) :
    leadingValue (decimal n ++ s) = n := by
  have hstop : s.takeWhile (fun b => IsDigit b) = [] := by
    cases s with
    | nil => rfl
    | cons b s => exact List.takeWhile_cons_of_neg (by simpa using hs)
  have hall : ∀ b ∈ decimal n, decide (IsDigit b) = true := fun b hb =>
    decide_eq_true (isDigit_of_mem_decimal hb)
  rw [leadingValue, List.takeWhile_append_of_pos hall, hstop, List.append_nil]
  have hdigits : ∀ ds : List ℕ, (∀ d ∈ ds, d < 10) →
      (ds.reverse.map digitByte).foldl (fun n d => 10 * n + (d - byteOf '0').toNat) 0
        = Nat.ofDigits 10 ds := by
    intro ds hds
    induction ds with
    | nil => rfl
    | cons d ds ih =>
      obtain ⟨hd, hds⟩ := List.forall_mem_cons.mp hds
      rw [List.reverse_cons, List.map_append, List.foldl_append, ih hds, Nat.ofDigits_cons]
      show 10 * Nat.ofDigits 10 ds + (digitByte d - byteOf '0').toNat = d + 10 * Nat.ofDigits 10 ds
      rw [toNat_digitByte d hd, Nat.add_comm]
  by_cases hn : n = 0
  · rw [hn]
    rfl
  · rw [decimal, if_neg hn, hdigits _ fun d hd => Nat.digits_lt_base (by decide) hd,
      Nat.ofDigits_digits]

/-- The greatest and the least `int`. -/
def intMax : ℤ := 2 ^ 31 - 1

def intMin : ℤ := -2 ^ 31

/-- `atoi`. -/
def atoi (s : List UInt8) : ℤ :=
  match s.dropWhile fun b => IsSpace b with
  | 0x2D :: s => max (-(leadingValue s : ℤ)) intMin
  | 0x2B :: s => min (leadingValue s : ℤ) intMax
  | s => min (leadingValue s : ℤ) intMax

theorem isDigit_ne : ∀ b, IsDigit b → ¬ IsSpace b ∧ b ≠ 0x2D ∧ b ≠ 0x2B := by decide +kernel

/-- A text that starts with a digit has neither space nor sign before it. -/
theorem atoi_of_isDigit {b : UInt8} (hb : IsDigit b) (s : List UInt8) :
    atoi (b :: s) = min (leadingValue (b :: s) : ℤ) intMax := by
  obtain ⟨hspace, hminus, hplus⟩ := isDigit_ne b hb
  rw [atoi, List.dropWhile_cons_of_neg (by simpa using hspace)]
  split
  · next h => exact absurd (List.cons.inj h).1 hminus
  · next h => exact absurd (List.cons.inj h).1 hplus
  · rfl

/-! ### Texts in buffers -/

/-- What is taken with `P` ends before the first that fails it, whatever comes behind. -/
theorem takeWhile_append_stop {α : Type} {P : α → Prop} [DecidablePred P] {b : α} (hb : ¬ P b)
    (s t : List α) : (s ++ b :: t).takeWhile (fun a => P a) = s.takeWhile fun a => P a := by
  induction s with
  | nil => simp [hb]
  | cons a s ih => simp only [List.cons_append, List.takeWhile_cons, ih]

theorem dropWhile_append_stop {α : Type} {P : α → Prop} [DecidablePred P] {b : α} (hb : ¬ P b)
    (s t : List α) :
    (s ++ b :: t).dropWhile (fun a => P a) = (s.dropWhile fun a => P a) ++ b :: t := by
  induction s with
  | nil => simp [hb]
  | cons a s ih =>
    simp only [List.cons_append, List.dropWhile_cons, ih]
    split_ifs <;> rfl

/-- A byte that is found before the NUL is one of the text. -/
theorem eq_cons_of_append_nul {s s' t : List UInt8} {b : UInt8} (hb : b ≠ 0)
    (h : s ++ 0 :: t = b :: s') : ∃ u, s = b :: u ∧ s' = u ++ 0 :: t := by
  cases s with
  | nil => exact absurd (List.cons.inj h).1.symm hb
  | cons a u => exact ⟨u, by rw [(List.cons.inj h).1], (List.cons.inj h).2.symm⟩

/-- Space, a sign, and then what `value` makes of the rest. -/
def signedValue (value : List UInt8 → ℕ) (s : List UInt8) : ℤ :=
  match s.dropWhile fun b => IsSpace b with
  | 0x2D :: s => max (-(value s : ℤ)) intMin
  | 0x2B :: s => min (value s : ℤ) intMax
  | s => min (value s : ℤ) intMax

/-- A reader of unsigned numbers that stops at a NUL makes one of signed numbers that does. -/
theorem signedValue_append_nul {value : List UInt8 → ℕ}
    (hvalue : ∀ s t, value (s ++ 0 :: t) = value s) (s t : List UInt8) :
    signedValue value (s ++ 0 :: t) = signedValue value s := by
  have hspace : ¬ IsSpace 0 := by decide
  rw [signedValue, signedValue, dropWhile_append_stop hspace]
  generalize s.dropWhile (fun b => decide (IsSpace b)) = s
  split
  · next hminus =>
    obtain ⟨u, rfl, rfl⟩ := eq_cons_of_append_nul (by decide) hminus
    rw [hvalue]
    rfl
  · next hplus =>
    obtain ⟨u, rfl, rfl⟩ := eq_cons_of_append_nul (by decide) hplus
    rw [hvalue]
    rfl
  · next hminus hplus =>
    rw [hvalue]
    split
    · exact absurd rfl (hminus _)
    · exact absurd rfl (hplus _)
    · rfl

/-- `atoi` of a buffer reads the text that the buffer holds. -/
theorem atoi_append_nul (s t : List UInt8) : atoi (s ++ 0 :: t) = atoi s := by
  refine signedValue_append_nul (fun s t => ?_) s t
  have hdigit : ¬ IsDigit 0 := by decide
  rw [leadingValue, leadingValue, takeWhile_append_stop hdigit]
