import Wise1511.LineEditor

/-!
# Lines that overflow

When the pending text reaches the size of the buffer, `console_input` reports an error, drops the
text and returns 0. Its callers take 0 to mean *call again*, so the rest of the same physical line
is read as a line of its own and delivered when its terminator comes.

`rejecting` is the editor that was meant: it edits as the console does, but a line that has
overflowed is over only at its terminator, and is not delivered. Each terminator delivers exactly
one line in the code, so the two deliver the same lines only if no line is ever rejected.

## Main results

* `linesOf_eq_rejecting_iff`, `waitLines_eq_rejecting_iff` — when the code rejects as it should
-/

namespace Wise1511

/-- The console as a machine on texts. -/
def consoleEditor : Mealy Editor UInt8 Reply where
  step := editStep

/-- The waits are this machine, whatever buffers they are given. -/
theorem waits_outputs (bufs : ℕ → CArray) (s : Console × ℕ) (bs : List UInt8) :
    (waits bufs).outputs s bs = consoleEditor.outputs s.1.abs bs := by
  have hstep : ∀ s e b, SameText s e →
      Mealy.Matches (waits bufs) consoleEditor SameText s e b := by
    rintro s e b rfl
    obtain ⟨habs, hreply⟩ := Prod.ext_iff.mp (waits_step_abs bufs s b)
    exact ⟨hreply, habs⟩
  exact (Mealy.tracks_of_simulation hstep rfl bs).outputs_eq

/-- An editor, and whether the physical line it is in has overflowed. -/
structure Rejecting where
  editor : Editor
  overflowed : Bool

/-- Edit as the console does, but swallow the line of an overflow up to its terminator. -/
def rejectStep (s : Rejecting) (b : UInt8) : Rejecting × Reply :=
  match editStep s.editor b with
  | (e, .line text) => (⟨e, false⟩, if s.overflowed then .more else .line text)
  | (e, .overflow) => (⟨e, true⟩, .overflow)
  | (e, .more) => (⟨e, s.overflowed⟩, .more)

/-- The rejecting editor as a machine. -/
def rejecting : Mealy Rejecting UInt8 Reply where
  step := rejectStep

/-- The byte ends a physical line: a carriage return, or the keypad's Enter. -/
def EndsLine (e : Editor) (b : UInt8) : Prop :=
  match e.mode with
  | .ext second => second = 0x4F ∧ b = 0x4D ∨ b = endChar
  | _ => b = endChar

/-- A line that has overflowed does not come to its end here. -/
def NoLateEnd (s : Rejecting) (b : UInt8) : Prop := s.overflowed = true → ¬ EndsLine s.editor b

theorem typed_eq_line_iff (text : List UInt8) (b : UInt8) :
    (∃ line, (typed text b).2 = .line line) ↔ b = endChar := by
  rw [typed]
  constructor
  · rintro ⟨line, h⟩
    split_ifs at h with hesc hend
    exact hend
  · rintro rfl
    exact ⟨text, rfl⟩

/-- A line is returned just at the end of a physical line. -/
theorem endsLine_iff (e : Editor) (b : UInt8) :
    EndsLine e b ↔ ∃ line, (editStep e b).2 = .line line := by
  obtain ⟨mode, text⟩ := e
  rw [EndsLine, editStep]
  cases mode with
  | plain => exact (typed_eq_line_iff text b).symm
  | esc =>
    by_cases hext : b = 0x4F ∨ b = 0x5B
    · have hne : b ≠ endChar := by
        rintro rfl
        exact absurd hext (by decide)
      simp [hext, hne]
    · simp only [if_neg hext]
      exact (typed_eq_line_iff text b).symm
  | ext second =>
    by_cases henter : second = 0x4F ∧ b = 0x4D
    · simp [henter]
    · simp only [henter, false_or]
      exact (typed_eq_line_iff text b).symm

/-! ### Lines delivered and lines rejected -/

/-- One byte of both machines, by the reply of the console. -/
theorem linesOf_cons (s : Rejecting) (b : UInt8) (bs : List UInt8) :
    let s' := (rejecting.step s b).1
    let code := linesOf (consoleEditor.outputs s'.editor bs)
    let kept := linesOf (rejecting.outputs s' bs)
    (∃ line, (editStep s.editor b).2 = .line line ∧
        linesOf (consoleEditor.outputs s.editor (b :: bs)) = line :: code ∧
        linesOf (rejecting.outputs s (b :: bs)) = if s.overflowed then kept else line :: kept) ∨
      ((∀ line, (editStep s.editor b).2 ≠ .line line) ∧
        linesOf (consoleEditor.outputs s.editor (b :: bs)) = code ∧
        linesOf (rejecting.outputs s (b :: bs)) = kept) := by
  have hcode : consoleEditor.step s.editor b = editStep s.editor b := rfl
  have hkept : rejecting.step s b = rejectStep s b := rfl
  simp only [Mealy.outputs_cons, hcode, hkept, rejectStep]
  generalize editStep s.editor b = q
  obtain ⟨e, r⟩ := q
  cases r with
  | line text =>
    left
    refine ⟨text, rfl, rfl, ?_⟩
    by_cases hover : s.overflowed = true
    · simp [hover]
    · simp [hover]
  | more =>
    right
    refine ⟨?_, rfl, rfl⟩
    rintro line ⟨⟩
  | overflow =>
    right
    refine ⟨?_, rfl, rfl⟩
    rintro line ⟨⟩

/-- Rejection delivers no more lines. -/
theorem length_linesOf_rejecting_le (s : Rejecting) (bs : List UInt8) :
    (linesOf (rejecting.outputs s bs)).length
      ≤ (linesOf (consoleEditor.outputs s.editor bs)).length := by
  induction bs generalizing s with
  | nil => exact le_rfl
  | cons b bs ih =>
    have hrest := ih (rejecting.step s b).1
    rcases linesOf_cons s b bs with ⟨line, -, hcode, hkept⟩ | ⟨-, hcode, hkept⟩
    · rw [hcode, hkept]
      split_ifs
      · exact Nat.le_succ_of_le hrest
      · exact Nat.succ_le_succ hrest
    · rw [hcode, hkept]
      exact hrest

/-- **When no line is delivered that should be rejected.** -/
theorem linesOf_eq_rejecting_iff (s : Rejecting) (bs : List UInt8) :
    linesOf (consoleEditor.outputs s.editor bs) = linesOf (rejecting.outputs s bs)
      ↔ rejecting.Along NoLateEnd s bs := by
  induction bs generalizing s with
  | nil => exact iff_of_true rfl trivial
  | cons b bs ih =>
    have hrest := ih (rejecting.step s b).1
    rw [Mealy.along_cons, NoLateEnd, endsLine_iff]
    rcases linesOf_cons s b bs with ⟨line, hline, hcode, hkept⟩ | ⟨hnone, hcode, hkept⟩
    · rw [hcode, hkept]
      by_cases hover : s.overflowed = true
      · -- the code delivers a line here, and can never be caught up with
        have hle := length_linesOf_rejecting_le (rejecting.step s b).1 bs
        rw [if_pos hover]
        apply iff_of_false
        · intro h
          have hlen := congrArg List.length h
          rw [List.length_cons] at hlen
          omega
        · intro h
          exact h.1 hover ⟨line, hline⟩
      · rw [if_neg hover, List.cons_inj_right, hrest]
        exact (and_iff_right fun h => absurd h hover).symm
    · rw [hcode, hkept, hrest]
      exact (and_iff_right fun _ ⟨line, h⟩ => hnone line h).symm

/-- **Overlong lines.** From start-up, the waits deliver what the rejecting editor delivers exactly
if no physical line that overflows comes to its end. -/
theorem waitLines_eq_rejecting_iff (bufs : ℕ → CArray) (bs : List UInt8) :
    waitLines bufs 1 (powerOn (bufs 0)) bs = linesOf (rejecting.outputs ⟨Editor.start, false⟩ bs)
      ↔ rejecting.Along NoLateEnd ⟨Editor.start, false⟩ bs := by
  rw [waitLines_eq, waits_outputs]
  exact linesOf_eq_rejecting_iff ⟨Editor.start, false⟩ bs

/-- A line of 257 characters: its last character is delivered as a line. -/
theorem not_waitLines_eq_rejecting_long :
    ¬ ∀ bs : List UInt8, waitLines (fun _ _ => 0) 1 (powerOn fun _ => 0) bs
      = linesOf (rejecting.outputs ⟨Editor.start, false⟩ bs) := by
  intro h
  have hlines := h (List.replicate 257 0x31 ++ [endChar])
  rw [waitLines_eq, waits_outputs] at hlines
  exact absurd hlines (by decide +kernel)

end Wise1511
