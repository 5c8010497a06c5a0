import Mathlib.Data.List.Basic
import Mathlib.Data.List.Range
import Mathlib.Data.Nat.Find
import Mathlib.Logic.Function.Basic
import Mathlib.Tactic.Common

/-!
# C byte arrays and the string functions over them

An array is seen the way C sees it, from a pointer: index `i` is the byte `i` places on. What lies
past the end of the declared array is memory all the same, so a `CArray` is total, and a function
that reads or writes outside its array is a function of those bytes rather than an error. Bounds
are statements about a function, not part of the type.

`strncpy` and `sprintf` follow their documented behaviour: `strncpy` copies up to the first NUL
and fills the rest of the `n` bytes with NUL, and writes no terminator when the source has none
within `n`; `sprintf` writes the formatted text and one NUL.

## Main definitions

* `CArray.slice`, `CArray.overlay` — reading and writing a block
* `CArray.shift` — the pointer `p + k`
* `CArray.HoldsString` — the array starts with this NUL-terminated string
* `CArray.strncpy`, `CArray.sprintf`
* `CArray.strncpyReads` — which bytes of the source `strncpy` reads
-/

/-- The bytes of memory seen from a pointer. -/
abbrev CArray := ℕ → UInt8

namespace CArray

/-- The `n` bytes from index `i` on. -/
def slice (p : CArray) (i n : ℕ) : List UInt8 := (List.range' i n).map p

/-- Store a list of bytes from index `i` on. -/
def overlay (p : CArray) (i : ℕ) : List UInt8 → CArray
  | [] => p
  | b :: bs => overlay (Function.update p i b) (i + 1) bs

/-- The pointer `p + k`. -/
def shift (p : CArray) (k : ℕ) : CArray := fun i => p (k + i)

@[simp] theorem shift_apply (p : CArray) (k i : ℕ) : p.shift k i = p (k + i) := rfl

@[simp] theorem slice_zero (p : CArray) (i : ℕ) : p.slice i 0 = [] := rfl

theorem slice_succ (p : CArray) (i n : ℕ) : p.slice i (n + 1) = p i :: p.slice (i + 1) n := by
  simp [slice, List.range'_succ]

@[simp] theorem length_slice (p : CArray) (i n : ℕ) : (p.slice i n).length = n := by
  simp [slice]

theorem slice_add (p : CArray) (i m n : ℕ) :
    p.slice i (m + n) = p.slice i m ++ p.slice (i + m) n := by
  rw [slice, slice, slice, ← List.map_append, List.range'_append_1]

theorem slice_congr {p q : CArray} {i n : ℕ} (h : ∀ j, i ≤ j → j < i + n → p j = q j) :
    p.slice i n = q.slice i n := by
  refine List.map_congr_left ?_
  intro j hj
  rw [List.mem_range'_1] at hj
  exact h j hj.1 hj.2

theorem getElem_slice (p : CArray) {i n j : ℕ} (h : j < (p.slice i n).length) :
    (p.slice i n)[j] = p (i + j) := by
  simp [slice]

@[simp] theorem overlay_nil (p : CArray) (i : ℕ) : p.overlay i [] = p := rfl

theorem overlay_cons (p : CArray) (i : ℕ) (b : UInt8) (bs : List UInt8) :
    p.overlay i (b :: bs) = overlay (Function.update p i b) (i + 1) bs := rfl

theorem overlay_of_lt (p : CArray) {i j : ℕ} (bs : List UInt8) (h : j < i) :
    p.overlay i bs j = p j := by
  induction bs generalizing p i with
  | nil => rfl
  | cons b bs ih =>
    rw [overlay_cons, ih _ (Nat.lt_succ_of_lt h), Function.update_of_ne (Nat.ne_of_lt h)]

theorem overlay_of_ge (p : CArray) {i j : ℕ} (bs : List UInt8) (h : i + bs.length ≤ j) :
    p.overlay i bs j = p j := by
  induction bs generalizing p i with
  | nil => rfl
  | cons b bs ih =>
    rw [List.length_cons] at h
    rw [overlay_cons, ih _ (by omega), Function.update_of_ne (by omega)]

theorem overlay_add (p : CArray) (i : ℕ) {bs : List UInt8} {j : ℕ} (h : j < bs.length) :
    p.overlay i bs (i + j) = bs[j] := by
  induction bs generalizing p i j with
  | nil => exact absurd h (Nat.not_lt_zero _)
  | cons b bs ih =>
    rw [overlay_cons]
    cases j with
    | zero => simpa using overlay_of_lt (Function.update p i b) bs (Nat.lt_succ_self i)
    | succ j =>
      rw [List.length_cons] at h
      rw [show i + (j + 1) = i + 1 + j by omega, ih _ _ (by omega)]
      simp

/-- Overlaying from the start of the array, read inside the block. -/
theorem overlay_zero {p : CArray} {bs : List UInt8} {j : ℕ} (h : j < bs.length) :
    p.overlay 0 bs j = bs[j] := by
  have := overlay_add p 0 h
  rwa [Nat.zero_add] at this

@[simp] theorem slice_overlay (p : CArray) (i : ℕ) (bs : List UInt8) :
    (p.overlay i bs).slice i bs.length = bs := by
  refine List.ext_getElem (length_slice _ _ _) fun j hj hj' => ?_
  rw [getElem_slice, overlay_add p i hj']

/-- A block read back from inside an overlay. -/
theorem slice_shift_overlay (p : CArray) {bs : List UInt8} {i m : ℕ} (h : i + m ≤ bs.length) :
    (shift (p.overlay 0 bs) i).slice 0 m = (bs.drop i).take m := by
  refine List.ext_getElem (by simp; omega) fun j hj hj' => ?_
  rw [length_slice] at hj
  rw [getElem_slice, List.getElem_take, List.getElem_drop, shift_apply, Nat.zero_add,
    overlay_zero (by omega)]

/-! ### Strings -/

/-- The array starts with the string `s` and its terminating NUL. -/
structure HoldsString (p : CArray) (s : List UInt8) : Prop where
  /-- No byte of the string is NUL. -/
  ne_zero : ∀ b ∈ s, b ≠ 0
  /-- The string's bytes come first. -/
  bytes : p.slice 0 s.length = s
  /-- The terminator. -/
  nul : p s.length = 0

theorem HoldsString.byte_eq {p : CArray} {s : List UInt8} (h : p.HoldsString s) {i : ℕ}
    (hi : i < s.length) : p i = s[i] := by
  have hsl : i < (p.slice 0 s.length).length := by simpa using hi
  have := getElem_slice p hsl
  rw [Nat.zero_add] at this
  rw [← this]
  exact List.getElem_of_eq h.bytes _

theorem HoldsString.byte_ne_zero {p : CArray} {s : List UInt8} (h : p.HoldsString s) {i : ℕ}
    (hi : i < s.length) : p i ≠ 0 := by
  rw [h.byte_eq hi]
  exact h.ne_zero _ (List.getElem_mem hi)

/-- An array with a NUL at or before `j` holds a string no longer than that. -/
theorem exists_holdsString {p : CArray} {j : ℕ} (h : p j = 0) :
    ∃ m ≤ j, p.HoldsString (p.slice 0 m) := by
  have hex : ∃ m, p m = 0 := ⟨j, h⟩
  refine ⟨Nat.find hex, Nat.find_min' hex h, ?_, ?_, ?_⟩
  · intro b hb
    obtain ⟨i, hi, rfl⟩ := List.mem_map.mp hb
    rw [List.mem_range'_1, Nat.zero_add] at hi
    exact Nat.find_min hex hi.2
  · rw [length_slice]
  · rw [length_slice]
    exact Nat.find_spec hex

/-- `strncpy(dst, src, n)`. -/
def strncpy (dst src : CArray) (n : ℕ) : CArray := fun i =>
  if i < n then if ∀ j < i, src j ≠ 0 then src i else 0 else dst i

/-- `sprintf(dst + off, …)`, the formatted text being `s`. -/
def sprintf (dst : CArray) (off : ℕ) (s : List UInt8) : CArray := dst.overlay off (s ++ [0])

/-- `strncpy` reads index `i` of its source: it has met no NUL before. -/
def strncpyReads (src : CArray) (n i : ℕ) : Prop := i < n ∧ ∀ j < i, src j ≠ 0

/-- Below the limit, reads are bounded by nothing but a NUL. -/
theorem strncpyReads_lt_iff {src : CArray} {m n : ℕ} (h : m < n) :
    (∀ i, strncpyReads src n i → i < m) ↔ ∃ j < m, src j = 0 := by
  constructor
  · intro hreads
    by_contra hnone
    have hm : strncpyReads src n m := ⟨h, fun j hj hzero => hnone ⟨j, hj, hzero⟩⟩
    exact lt_irrefl m (hreads m hm)
  · rintro ⟨j, hj, hzero⟩ i ⟨-, hbefore⟩
    by_contra hi
    exact hbefore j (by omega) hzero

/-- A NUL in the source, below the limit, is a NUL in the copy. -/
theorem strncpy_eq_zero {dst src : CArray} {n j : ℕ} (hj : j < n) (hzero : src j = 0) :
    strncpy dst src n j = 0 := by
  rw [strncpy, if_pos hj, hzero, ite_self]

theorem strncpy_of_lt {dst src : CArray} {n i : ℕ} (hi : i < n) (h : ∀ j < i, src j ≠ 0) :
    strncpy dst src n i = src i := by
  rw [strncpy, if_pos hi, if_pos h]

/-- A copy holds the strings, shorter than the limit, that its source holds. -/
theorem holdsString_strncpy_iff {dst src : CArray} {n : ℕ} {s : List UInt8} (hn : s.length < n) :
    (strncpy dst src n).HoldsString s ↔ src.HoldsString s := by
  constructor
  · intro h
    have hsame : ∀ i ≤ s.length, (∀ j < i, src j ≠ 0) ∧ src i = strncpy dst src n i := by
      intro i
      induction i with
      | zero =>
        intro _
        have hnone : ∀ j < 0, src j ≠ 0 := by
          intro j hj
          exact absurd hj (Nat.not_lt_zero j)
        exact ⟨hnone, (strncpy_of_lt (by omega) hnone).symm⟩
      | succ i ih =>
        intro hi
        obtain ⟨hbelow, heq⟩ := ih (by omega)
        have hnz : ∀ j < i + 1, src j ≠ 0 := by
          intro j hj
          rcases Nat.lt_succ_iff_lt_or_eq.mp hj with hlt | rfl
          · exact hbelow j hlt
          · rw [heq]; exact h.byte_ne_zero (by omega)
        exact ⟨hnz, (strncpy_of_lt (by omega) hnz).symm⟩
    refine ⟨h.ne_zero, ?_, ?_⟩
    · exact (slice_congr fun j _ hj => (hsame j (by omega)).2).trans h.bytes
    · exact (hsame _ le_rfl).2.trans h.nul
  · intro h
    have hsame : ∀ i ≤ s.length, strncpy dst src n i = src i := by
      intro i hi
      refine strncpy_of_lt (by omega) ?_
      intro j hj
      exact h.byte_ne_zero (by omega)
    refine ⟨h.ne_zero, ?_, ?_⟩
    · exact (slice_congr fun j _ hj => hsame j (by omega)).trans h.bytes
    · exact (hsame _ le_rfl).trans h.nul

theorem sprintf_of_lt (dst : CArray) {off i : ℕ} (s : List UInt8) (h : i < off) :
    sprintf dst off s i = dst i :=
  overlay_of_lt dst _ h

theorem sprintf_of_gt (dst : CArray) {off i : ℕ} (s : List UInt8) (h : off + s.length < i) :
    sprintf dst off s i = dst i :=
  overlay_of_ge dst _ (by simp only [List.length_append, List.length_singleton]; omega)

theorem sprintf_add (dst : CArray) (off : ℕ) {s : List UInt8} {i : ℕ} (h : i < s.length) :
    sprintf dst off s (off + i) = s[i] := by
  rw [sprintf, overlay_add dst off (by simp; omega), List.getElem_append_left h]

theorem sprintf_nul (dst : CArray) (off : ℕ) (s : List UInt8) :
    sprintf dst off s (off + s.length) = 0 := by
  rw [sprintf, overlay_add dst off (by simp)]
  simp

/-- What `sprintf` writes is read back as a string, when the text has no NUL of its own. -/
theorem holdsString_sprintf (dst : CArray) (off : ℕ) {s : List UInt8} (hs : ∀ b ∈ s, b ≠ 0) :
    ((sprintf dst off s).shift off).HoldsString s := by
  refine ⟨hs, ?_, by rw [shift_apply, sprintf_nul]⟩
  refine List.ext_getElem (length_slice _ _ _) fun j hj hj' => ?_
  rw [getElem_slice, shift_apply, Nat.zero_add, sprintf_add dst off hj']

/-- Only the bytes up to the terminator matter for the string an array holds. -/
theorem HoldsString.congr {p q : CArray} {s : List UInt8} (h : p.HoldsString s)
    (hpq : ∀ i ≤ s.length, q i = p i) : q.HoldsString s :=
  ⟨h.ne_zero, (slice_congr fun j _ hj => hpq j (by omega)).trans h.bytes,
    (hpq _ le_rfl).trans h.nul⟩

end CArray
