import Wise1511.Lib.CArray
import Wise1511.Lib.Mealy

/-!
# The console line editor

`console_input` of `simpleCli.cpp`, and the loop around it that all its callers have. It reads bytes
into the caller's buffer: each byte is stored at the end of the pending text *before* it is
looked at, and a three-state recogniser of extended keys, kept in static variables, decides what
becomes of it. Echo and messages are left out.

A call returns when a line has ended, or when the buffer is full; and it is simply called again in
the second case, in the middle of what the user is still typing. `consoleStep` is one turn of its
loop, and `waits` strings the turns together over any number of calls into any buffers.

## Main definitions

* `consoleStep`, `consoleInput`, `consoleInputWait`
* `waitLines` — the lines of successive waits

## Main results

* `waitLines_eq` — they are the lines of the machine `waits`
-/

namespace Wise1511

/-- `INBUF_SIZE`. -/
def inbufSize : ℕ := 256

/-- `END_CHAR`. -/
def endChar : UInt8 := 0x0D

/-- Backspace or DEL. -/
def IsDelete (b : UInt8) : Prop := b = 0x08 ∨ b = 0x7F

instance (b : UInt8) : Decidable (IsDelete b) := inferInstanceAs (Decidable (_ ∨ _))

/-- The states of the key recogniser. -/
inductive KeyState where
  | basicKey
  | extKeyFirstSymbol
  | extKeySecondSymbol
  deriving DecidableEq

/-- The static variables of `console_input`, and the caller's buffer and count. -/
structure Console where
  state : KeyState
  secondChar : UInt8
  inbuf : CArray
  words : ℕ

/-- What one turn of the loop ends in. -/
inductive Reply where
  /-- Go on reading. -/
  | more
  /-- Return 1. These characters stand in the buffer, with a NUL behind them. -/
  | line (text : List UInt8)
  /-- Return 0 because the buffer is full. -/
  | overflow
  deriving DecidableEq

namespace Console

/-- Terminate the pending text and return it. -/
def endLine (c : Console) : Console × Reply :=
  ({ c with state := .basicKey, inbuf := Function.update c.inbuf c.words 0, words := 0 },
    .line (CArray.slice c.inbuf 0 c.words))

/-- The part of the loop body that every byte outside an extended key goes through. -/
def basic (c : Console) (b : UInt8) : Console × Reply :=
  if b = 0x1B then
    ({ c with state := .extKeyFirstSymbol }, .more)
  else
    let c := { c with state := .basicKey }
    if b = endChar then
      c.endLine
    else if IsDelete b then
      if 0 < c.words then ({ c with words := c.words - 1 }, .more) else (c, .more)
    else
      let c := { c with words := c.words + 1 }
      if inbufSize ≤ c.words then ({ c with words := 0 }, .overflow) else (c, .more)

end Console

open Console

/-- One turn of the loop of `console_input`. -/
def consoleStep (c : Console) (b : UInt8) : Console × Reply :=
  -- `console_getchar` stores first
  let c := { c with inbuf := Function.update c.inbuf c.words b }
  if c.state = .extKeySecondSymbol ∧ c.secondChar = 0x4F ∧ b = 0x4D then
    c.endLine
  else if c.state = .extKeyFirstSymbol then
    let c := { c with secondChar := b }
    if b = 0x4F ∨ b = 0x5B then
      ({ c with state := .extKeySecondSymbol }, .more)
    else
      c.basic b
  else
    c.basic b

/-- How a call stands when the bytes are used up. -/
inductive CallResult where
  /-- Still reading. -/
  | reading (c : Console)
  | returned (r : Reply) (c : Console) (rest : List UInt8)

/-- `console_input`. -/
def consoleInput (c : Console) : List UInt8 → CallResult
  | [] => .reading c
  | b :: bs =>
    match consoleStep c b with
    | (c', .more) => consoleInput c' bs
    | (c', r) => .returned r c' bs

theorem length_lt_of_consoleInput {c c' : Console} {bs rest : List UInt8} {r : Reply}
    (h : consoleInput c bs = .returned r c' rest) : rest.length < bs.length := by
  induction bs generalizing c with
  | nil => cases h
  | cons b bs ih =>
    rw [consoleInput] at h
    split at h
    · exact Nat.lt_succ_of_lt (ih h)
    · cases h
      exact Nat.lt_succ_self _

/-- `console_input_wait`, and likewise `GetStr_wait`, `GetChar_wait` and `GetInt_wait`: call
`console_input` until it returns 1. -/
def consoleInputWait (c : Console) (bs : List UInt8) : CallResult :=
  match h : consoleInput c bs with
  | .reading c' => .reading c'
  | .returned (.line text) c' rest => .returned (.line text) c' rest
  | .returned _ c' rest =>
    have := length_lt_of_consoleInput h
    consoleInputWait c' rest
termination_by bs.length

theorem consoleInputWait_eq (c : Console) (bs : List UInt8) :
    consoleInputWait c bs = match consoleInput c bs with
      | .reading c' => .reading c'
      | .returned (.line text) c' rest => .returned (.line text) c' rest
      | .returned _ c' rest => consoleInputWait c' rest := by
  rw [consoleInputWait]
  split <;> simp [*]

@[simp] theorem consoleInputWait_nil (c : Console) : consoleInputWait c [] = .reading c := by
  rw [consoleInputWait_eq, consoleInput]

/-- A wait takes one byte after another; being called again after an overflow is going on. -/
theorem consoleInputWait_cons (c : Console) (b : UInt8) (bs : List UInt8) :
    consoleInputWait c (b :: bs) = match consoleStep c b with
      | (c', .line text) => .returned (.line text) c' bs
      | (c', _) => consoleInputWait c' bs := by
  rw [consoleInputWait_eq, consoleInput]
  obtain ⟨c', r⟩ := consoleStep c b
  cases r with
  | more => exact (consoleInputWait_eq c' bs).symm
  | line text => rfl
  | overflow => rfl

theorem length_lt_of_consoleInputWait {c c' : Console} {bs rest : List UInt8} {r : Reply}
    (h : consoleInputWait c bs = .returned r c' rest) : rest.length < bs.length := by
  induction bs generalizing c with
  | nil => simp at h
  | cons b bs ih =>
    rw [consoleInputWait_cons] at h
    split at h
    · cases h
      exact Nat.lt_succ_self _
    · exact Nat.lt_succ_of_lt (ih h)

/-- The lines of successive waits. The first has its buffer, and those after it get `bufs k`,
`bufs (k + 1)` and so on. -/
def waitLines (bufs : ℕ → CArray) (k : ℕ) (c : Console) (bs : List UInt8) : List (List UInt8) :=
  match h : consoleInputWait c bs with
  | .returned (.line text) c' rest =>
    have := length_lt_of_consoleInputWait h
    text :: waitLines bufs (k + 1) { c' with inbuf := bufs k } rest
  | _ => []
termination_by bs.length

/-! ### The waits as a machine -/

/-- The machine that takes a byte at a time, through any number of waits. -/
def waits (bufs : ℕ → CArray) : Mealy (Console × ℕ) UInt8 Reply where
  step s b :=
    match consoleStep s.1 b with
    | (c', .line text) => (({ c' with inbuf := bufs s.2 }, s.2 + 1), .line text)
    | (c', r) => ((c', s.2), r)

/-- The lines among the replies. -/
def linesOf (rs : List Reply) : List (List UInt8) :=
  rs.filterMap fun
    | .line text => some text
    | _ => none

@[simp] theorem linesOf_nil : linesOf [] = [] := rfl

@[simp] theorem linesOf_more (rs : List Reply) : linesOf (.more :: rs) = linesOf rs := rfl

@[simp] theorem linesOf_overflow (rs : List Reply) : linesOf (.overflow :: rs) = linesOf rs := rfl

@[simp] theorem linesOf_line (text : List UInt8) (rs : List Reply) :
    linesOf (.line text :: rs) = text :: linesOf rs := rfl

theorem waitLines_eq_match (bufs : ℕ → CArray) (k : ℕ) (c : Console) (bs : List UInt8) :
    waitLines bufs k c bs = match consoleInputWait c bs with
      | .returned (.line text) c' rest =>
        text :: waitLines bufs (k + 1) { c' with inbuf := bufs k } rest
      | _ => [] := by
  rw [waitLines]
  split <;> simp [*]

theorem waits_step (bufs : ℕ → CArray) (k : ℕ) (c : Console) (b : UInt8) :
    (waits bufs).step (c, k) b = match consoleStep c b with
      | (c', .line text) => (({ c' with inbuf := bufs k }, k + 1), .line text)
      | (c', r) => ((c', k), r) := rfl

/-- **The lines of successive waits are the lines of the machine.** -/
theorem waitLines_eq (bufs : ℕ → CArray) (k : ℕ) (c : Console) (bs : List UInt8) :
    waitLines bufs k c bs = linesOf ((waits bufs).outputs (c, k) bs) := by
  induction bs generalizing c k with
  | nil => rw [waitLines_eq_match, consoleInputWait_nil]; rfl
  | cons b bs ih =>
    rw [waitLines_eq_match, consoleInputWait_cons, Mealy.outputs_cons, waits_step]
    obtain ⟨c', r⟩ := consoleStep c b
    cases r with
    | more => exact (waitLines_eq_match bufs k c' bs).symm.trans (ih k c')
    | line text => exact congrArg (text :: ·) (ih (k + 1) _)
    | overflow => exact (waitLines_eq_match bufs k c' bs).symm.trans (ih k c')

end Wise1511
