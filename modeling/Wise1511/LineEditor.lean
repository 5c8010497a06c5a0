import Wise1511.Console

/-!
# A reference line editor, and where the console leaves it

Stripped of its buffer, `console_input` edits a text: `Console.abs` forgets the buffer and
`editStep` is what a byte then does. Which buffer is in use, and what an earlier call left in it,
plays no part.

The reference editor differs in one place. It takes the byte that ends an extended key as part of
the key; the code resets its recogniser and lets that byte fall through to the normal handling. So
an arrow key types its last letter, and a line can end inside a key. `AtKeyEnd` says for which final
bytes nothing comes of that: `M` after `O`, which is the keypad's Enter; `ESC`, which starts the
next key in both; and a delete with nothing to delete.

Where a final byte is a carriage return or a delete, the reference is taken literally: whatever the
byte, it ends the key and does nothing else.

## Main results

* `consoleStep_abs` — the code as an editor
* `waits_tracks_iff` — when it agrees with the reference
* `waitLines_eq_reference_iff` — the same, with the lines delivered
-/

namespace Wise1511

/-! ### The console as an editor -/

/-- Where an editor is within an extended key. -/
inductive Mode where
  | plain
  /-- After `ESC`. -/
  | esc
  /-- After `ESC` and this byte, `[` or `O`. -/
  | ext (second : UInt8)
  deriving DecidableEq

/-- An editor: its mode, and the text of the line so far. -/
structure Editor where
  mode : Mode
  text : List UInt8
  deriving DecidableEq

/-- A byte typed alone, in a line that may hold fewer than `inbufSize` characters. -/
def typed (text : List UInt8) (b : UInt8) : Editor × Reply :=
  if b = 0x1B then (⟨.esc, text⟩, .more)
  else if b = endChar then (⟨.plain, []⟩, .line text)
  else if IsDelete b then (⟨.plain, text.dropLast⟩, .more)
  else if inbufSize ≤ text.length + 1 then (⟨.plain, []⟩, .overflow)
  else (⟨.plain, text ++ [b]⟩, .more)

/-- What a byte does to the text of the console. -/
def editStep (e : Editor) (b : UInt8) : Editor × Reply :=
  match e.mode with
  | .plain => typed e.text b
  | .esc => if b = 0x4F ∨ b = 0x5B then (⟨.ext b, e.text⟩, .more) else typed e.text b
  | .ext second =>
    if second = 0x4F ∧ b = 0x4D then (⟨.plain, []⟩, .line e.text) else typed e.text b

/-- The console without its buffer. -/
def Console.abs (c : Console) : Editor where
  mode := match c.state with
    | .basicKey => .plain
    | .extKeyFirstSymbol => .esc
    | .extKeySecondSymbol => .ext c.secondChar
  text := CArray.slice c.inbuf 0 c.words

/-- Storing behind the pending text does not change it. -/
theorem slice_update (p : CArray) (n : ℕ) (b : UInt8) :
    CArray.slice (Function.update p n b) 0 n = CArray.slice p 0 n :=
  CArray.slice_congr fun j _ hj => Function.update_of_ne (by omega) _ _

theorem slice_update_succ (p : CArray) (n : ℕ) (b : UInt8) :
    CArray.slice (Function.update p n b) 0 (n + 1) = CArray.slice p 0 n ++ [b] := by
  rw [CArray.slice, List.range'_concat, List.map_append, ← CArray.slice, slice_update]
  simp

theorem slice_pred (p : CArray) (n : ℕ) :
    CArray.slice p 0 (n - 1) = (CArray.slice p 0 n).dropLast := by
  cases n with
  | zero => rfl
  | succ n =>
    rw [CArray.slice, CArray.slice, List.range'_concat, List.map_append]
    simp

/-- The shared part of the loop body types the byte that has just been stored. -/
theorem basic_abs (c : Console) (p : CArray) (b : UInt8)
    (hp : c.inbuf = Function.update p c.words b) :
    ((c.basic b).1.abs, (c.basic b).2) = typed (CArray.slice p 0 c.words) b := by
  have htext : CArray.slice c.inbuf 0 c.words = CArray.slice p 0 c.words := by
    rw [hp, slice_update]
  have hnext : CArray.slice c.inbuf 0 (c.words + 1) = CArray.slice p 0 c.words ++ [b] := by
    rw [hp, slice_update_succ]
  rw [Console.basic, typed]
  by_cases hesc : b = 0x1B
  · rw [if_pos hesc, if_pos hesc, ← htext]
    rfl
  rw [if_neg hesc, if_neg hesc]
  by_cases hend : b = endChar
  · rw [if_pos hend, if_pos hend, ← htext]
    rfl
  rw [if_neg hend, if_neg hend]
  by_cases hdel : IsDelete b
  · rw [if_pos hdel, if_pos hdel, ← htext, ← slice_pred]
    -- with nothing pending, `words - 1` is `words`
    split_ifs with hpos
    · rfl
    · rw [Nat.le_zero.mp (Nat.le_of_not_lt hpos)]
      rfl
  · rw [if_neg hdel, if_neg hdel, CArray.length_slice, ← hnext]
    by_cases hfull : inbufSize ≤ c.words + 1
    · simp only [hfull, if_true]
      rfl
    · simp only [hfull, if_false]
      rfl

/-- **The console as an editor.** -/
theorem consoleStep_abs (c : Console) (b : UInt8) :
    ((consoleStep c b).1.abs, (consoleStep c b).2) = editStep c.abs b := by
  obtain ⟨state, secondChar, inbuf, words⟩ := c
  cases state with
  | basicKey => exact basic_abs _ inbuf b rfl
  | extKeyFirstSymbol =>
    by_cases hext : b = 0x4F ∨ b = 0x5B
    · simp [consoleStep, editStep, Console.abs, hext, slice_update]
    · simp only [consoleStep, editStep, Console.abs, hext, if_true, if_false, reduceCtorEq,
        false_and]
      exact basic_abs _ inbuf b rfl
  | extKeySecondSymbol =>
    by_cases henter : secondChar = 0x4F ∧ b = 0x4D
    · simp [consoleStep, editStep, Console.abs, Console.endLine, henter, slice_update]
    · simp only [consoleStep, editStep, Console.abs, henter, and_false, if_false, reduceCtorEq]
      exact basic_abs _ inbuf b rfl

/-- The buffer of a line that has been returned: the line, and a NUL behind it. -/
def HoldsLine (c : Console) : Reply → Prop
  | .line text => CArray.slice c.inbuf 0 text.length = text ∧ c.inbuf text.length = 0
  | _ => True

theorem holdsLine_endLine (c : Console) : HoldsLine c.endLine.1 c.endLine.2 := by
  constructor
  · rw [CArray.length_slice]
    exact slice_update c.inbuf c.words 0
  · rw [CArray.length_slice]
    exact Function.update_self c.words 0 c.inbuf

theorem holdsLine_basic (c : Console) (b : UInt8) : HoldsLine (c.basic b).1 (c.basic b).2 := by
  simp only [Console.basic]
  split_ifs
  · trivial
  · exact holdsLine_endLine _
  · trivial
  · trivial
  · trivial
  · trivial

/-- What the caller finds in its buffer is the line. -/
theorem holdsLine_consoleStep (c : Console) (b : UInt8) :
    HoldsLine (consoleStep c b).1 (consoleStep c b).2 := by
  rw [consoleStep]
  split_ifs
  · exact holdsLine_endLine _
  · trivial
  · exact holdsLine_basic _ b
  · exact holdsLine_basic _ b

/-! ### The reference editor -/

/-- A byte typed alone, in a line of any length. -/
def referenceTyped (text : List UInt8) (b : UInt8) : Editor × Reply :=
  if b = 0x1B then (⟨.esc, text⟩, .more)
  else if b = endChar then (⟨.plain, []⟩, .line text)
  else if IsDelete b then (⟨.plain, text.dropLast⟩, .more)
  else (⟨.plain, text ++ [b]⟩, .more)

/-- The reference: an extended key other than the keypad's Enter contributes nothing. -/
def referenceStep (e : Editor) (b : UInt8) : Editor × Reply :=
  match e.mode with
  | .plain => referenceTyped e.text b
  | .esc => if b = 0x4F ∨ b = 0x5B then (⟨.ext b, e.text⟩, .more) else referenceTyped e.text b
  | .ext second =>
    if second = 0x4F ∧ b = 0x4D then (⟨.plain, []⟩, .line e.text)
    else if b = 0x1B then (⟨.esc, e.text⟩, .more)
    else (⟨.plain, e.text⟩, .more)

/-- The reference editor as a machine. -/
def referenceEditor : Mealy Editor UInt8 Reply where
  step := referenceStep

/-- The byte is not the end of an extended key, or nothing comes of the code's typing it. -/
def AtKeyEnd (e : Editor) (b : UInt8) : Prop :=
  match e.mode with
  | .ext second => second = 0x4F ∧ b = 0x4D ∨ b = 0x1B ∨ IsDelete b ∧ e.text = []
  | _ => True

/-- The text of the line stays shorter than the buffer. -/
def Fits (e : Editor) (b : UInt8) : Prop := (referenceStep e b).1.text.length < inbufSize

instance (e : Editor) (b : UInt8) : Decidable (Fits e b) := inferInstanceAs (Decidable (_ < _))

theorem typed_eq {text : List UInt8} {b : UInt8}
    (h : (referenceTyped text b).1.text.length < inbufSize) :
    typed text b = referenceTyped text b := by
  rw [referenceTyped] at h
  rw [typed, referenceTyped]
  split_ifs at h ⊢ with hesc hend hdel hfull
  · rfl
  · rfl
  · rfl
  · rw [List.length_append, List.length_singleton] at h
    exact absurd h (Nat.not_lt.mpr hfull)
  · rfl

/-- Typing a byte does nothing only for a delete with nothing to delete. -/
theorem typed_eq_nothing_iff (text : List UInt8) {b : UInt8} (hesc : b ≠ 0x1B) :
    typed text b = (⟨.plain, text⟩, .more) ↔ IsDelete b ∧ text = [] := by
  rw [typed, if_neg hesc]
  by_cases hend : b = endChar
  · have hdel : ¬ IsDelete b := by
      rw [hend]
      decide
    rw [if_pos hend]
    simp [hdel]
  rw [if_neg hend]
  by_cases hdel : IsDelete b
  · rw [if_pos hdel]
    cases text with
    | nil => simp [hdel]
    | cons x xs =>
      have hne : (x :: xs).dropLast ≠ x :: xs := by
        intro h
        have := congrArg List.length h
        simp at this
      simp [hne]
  · rw [if_neg hdel]
    split_ifs
    · simp [hdel]
    · simp [hdel]

/-- **One byte.** In a line that fits, the code does what the reference does just if nothing leaks
out of an extended key. -/
theorem editStep_eq_iff {e : Editor} {b : UInt8} (hfit : Fits e b) :
    editStep e b = referenceStep e b ↔ AtKeyEnd e b := by
  obtain ⟨mode, text⟩ := e
  rw [Fits, referenceStep] at hfit
  rw [editStep, referenceStep, AtKeyEnd]
  cases mode with
  | plain => exact iff_true_intro (typed_eq hfit)
  | esc =>
    refine iff_true_intro ?_
    dsimp only at hfit ⊢
    split_ifs at hfit ⊢
    · rfl
    · exact typed_eq hfit
  | ext second =>
    dsimp only
    by_cases henter : second = 0x4F ∧ b = 0x4D
    · rw [if_pos henter, if_pos henter]
      exact iff_of_true rfl (Or.inl henter)
    rw [if_neg henter, if_neg henter]
    by_cases hesc : b = 0x1B
    · rw [if_pos hesc, typed, if_pos hesc]
      exact iff_of_true rfl (Or.inr (Or.inl hesc))
    · rw [if_neg hesc, typed_eq_nothing_iff text hesc]
      simp [henter, hesc]

/-! ### Runs -/

theorem typed_of_line {text line : List UInt8} {b : UInt8} (h : (typed text b).2 = .line line) :
    (typed text b).1 = ⟨.plain, []⟩ := by
  rw [typed] at h ⊢
  split_ifs at h ⊢
  rfl

/-- A line leaves an empty text behind. -/
theorem editStep_of_line {e : Editor} {b : UInt8} {line : List UInt8}
    (h : (editStep e b).2 = .line line) : (editStep e b).1 = ⟨.plain, []⟩ := by
  obtain ⟨mode, text⟩ := e
  rw [editStep] at h ⊢
  cases mode with
  | plain => exact typed_of_line h
  | esc =>
    dsimp only at h ⊢
    split_ifs at h ⊢
    exact typed_of_line h
  | ext second =>
    dsimp only at h ⊢
    split_ifs at h ⊢
    · rfl
    · exact typed_of_line h

theorem words_eq_zero {c : Console} (h : c.abs.text = []) : c.words = 0 := by
  have hlen := congrArg List.length h
  rwa [Console.abs, CArray.length_slice] at hlen

/-- With nothing pending, the buffer can be exchanged. -/
theorem abs_newBuffer {c : Console} (h : c.abs.text = []) (p : CArray) :
    ({ c with inbuf := p } : Console).abs = c.abs := by
  have hwords := words_eq_zero h
  simp [Console.abs, hwords]

/-- The waits edit the text of the console. -/
theorem waits_step_abs (bufs : ℕ → CArray) (s : Console × ℕ) (b : UInt8) :
    (((waits bufs).step s b).1.1.abs, ((waits bufs).step s b).2) = editStep s.1.abs b := by
  have hstep := consoleStep_abs s.1 b
  rw [waits_step]
  generalize consoleStep s.1 b = q at hstep ⊢
  obtain ⟨c', r⟩ := q
  rw [← hstep]
  cases r with
  | more => rfl
  | overflow => rfl
  | line text =>
    have hreply : (editStep s.1.abs b).2 = .line text := by rw [← hstep]
    have hempty : c'.abs = ⟨.plain, []⟩ := by
      rw [← editStep_of_line hreply, ← hstep]
    exact congrArg (·, Reply.line text) (abs_newBuffer (by rw [hempty]) (bufs s.2))

/-- The console has the mode and the text of the editor, in whichever buffer. -/
def SameText (s : Console × ℕ) (e : Editor) : Prop := s.1.abs = e

theorem matches_iff (bufs : ℕ → CArray) (s : Console × ℕ) (e : Editor) (b : UInt8)
    (h : SameText s e) (hfit : Fits e b) :
    Mealy.Matches (waits bufs) referenceEditor SameText s e b ↔ AtKeyEnd e b := by
  rw [← editStep_eq_iff hfit, ← h, ← waits_step_abs bufs s b, Mealy.Matches, SameText, Prod.ext_iff]
  exact and_comm

/-- **When the console is the reference editor**, after every byte: the same lines, and the same
text pending. -/
theorem waits_tracks_iff (bufs : ℕ → CArray) {s : Console × ℕ} {e : Editor} (h : SameText s e)
    {bs : List UInt8} (hfit : referenceEditor.Along Fits e bs) :
    Mealy.Tracks (waits bufs) referenceEditor SameText s e bs
      ↔ referenceEditor.Along AtKeyEnd e bs :=
  Mealy.tracks_iff (matches_iff bufs) h hfit

/-- The static variables at start-up, and a first buffer. -/
def powerOn (inbuf : CArray) : Console := ⟨.basicKey, 0, inbuf, 0⟩

/-- An empty line. -/
def Editor.start : Editor := ⟨.plain, []⟩

/-- **The line editor, from start-up.** As long as lines fit, the console and the reference editor
agree after every byte exactly if no byte leaks out of an extended key; and then the waits deliver
the reference editor's lines, whatever buffers they are given. -/
theorem waitLines_eq_reference_iff (bufs : ℕ → CArray) (bs : List UInt8)
    (hfit : referenceEditor.Along Fits Editor.start bs) :
    (Mealy.Tracks (waits bufs) referenceEditor SameText (powerOn (bufs 0), 1) Editor.start bs
        ↔ referenceEditor.Along AtKeyEnd Editor.start bs) ∧
      (referenceEditor.Along AtKeyEnd Editor.start bs →
        waitLines bufs 1 (powerOn (bufs 0)) bs
          = linesOf (referenceEditor.outputs Editor.start bs)) := by
  have hiff := waits_tracks_iff bufs (s := (powerOn (bufs 0), 1)) (e := Editor.start) rfl hfit
  refine ⟨hiff, ?_⟩
  intro hleak
  rw [waitLines_eq, (hiff.mpr hleak).outputs_eq]

/-- Two letters, a delete, and the Enter of the keypad. -/
theorem waitLines_keypad_enter :
    waitLines (fun _ _ => 0) 1 (powerOn fun _ => 0) [0x41, 0x42, 0x7F, 0x1B, 0x4F, 0x4D]
      = [[0x41]] :=
  (waitLines_eq_reference_iff (fun _ _ => 0) [0x41, 0x42, 0x7F, 0x1B, 0x4F, 0x4D]
    ⟨by decide, by decide, by decide, by decide, by decide, by decide, trivial⟩).2
    ⟨trivial, trivial, trivial, trivial, trivial, .inl ⟨rfl, rfl⟩, trivial⟩

/-- The cursor-up key, then Enter: the reference delivers an empty line, the console an `A`. -/
theorem not_waitLines_eq_reference_arrow :
    ¬ ∀ bs : List UInt8, referenceEditor.Along Fits Editor.start bs →
      waitLines (fun _ _ => 0) 1 (powerOn fun _ => 0) bs
        = linesOf (referenceEditor.outputs Editor.start bs) := by
  intro h
  have hlines := h [0x1B, 0x5B, 0x41, 0x0D]
    ⟨by decide, by decide, by decide, by decide, trivial⟩
  rw [waitLines_eq] at hlines
  exact absurd hlines (by decide)

end Wise1511
