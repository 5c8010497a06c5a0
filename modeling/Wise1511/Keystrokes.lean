import Wise1511.LineEditor
import Wise1511.MenuListing

/-!
# From the keys to the handlers

The two halves of `simpleCli.cpp` together: the console that makes lines out of bytes, and the menu
loop that takes lines. An operator types characters and deletes, as many of them and in whatever
order, and ends each line with Enter. Then every wait gets the line that is left after the deletes,
whatever buffer it has, and the menu makes the calls that the reference interpreter makes for these
lines.

The one condition is on length. A line that has grown to 256 characters is thrown away by the
console, even if the operator would have deleted some of them again.

## Main results

* `waitLines_keys` — the lines that the waits get
* `simpleCliList_keys` — the calls that the menu makes
-/

namespace Wise1511

/-- What is typed inside a line. -/
inductive Stroke where
  | char (b : UInt8)
  | delete (b : UInt8)
  deriving DecidableEq

/-- No key of its own to the console. -/
def IsChar (b : UInt8) : Prop := b ≠ 0x1B ∧ b ≠ endChar ∧ ¬ IsDelete b

instance (b : UInt8) : Decidable (IsChar b) := inferInstanceAs (Decidable (_ ∧ _))

namespace Stroke

/-- The byte that the console gets. -/
def key : Stroke → UInt8
  | char b => b
  | delete b => b

/-- What becomes of the text. -/
def edit (text : List UInt8) : Stroke → List UInt8
  | char b => text ++ [b]
  | delete _ => text.dropLast

/-- A character is a character, and a delete is a delete. -/
def Plain : Stroke → Prop
  | char b => IsChar b
  | delete b => IsDelete b

instance : DecidablePred Plain
  | char _ => inferInstanceAs (Decidable (IsChar _))
  | delete _ => inferInstanceAs (Decidable (IsDelete _))

/-- There is room for every character when it is typed. -/
def Fit (text : List UInt8) : List Stroke → Prop
  | [] => True
  | s :: strokes => (s.edit text).length < inbufSize ∧ Fit (s.edit text) strokes

end Stroke

/-- A line, as it is typed. -/
structure TypedLine where
  strokes : List Stroke
  plain : ∀ s ∈ strokes, s.Plain
  fits : Stroke.Fit [] strokes

namespace TypedLine

/-- The bytes, with the Enter at the end. -/
def keys (line : TypedLine) : List UInt8 := line.strokes.map Stroke.key ++ [endChar]

/-- The line that is left. -/
def text (line : TypedLine) : Line := line.strokes.foldl Stroke.edit []

end TypedLine

/-! ### One byte at a time -/

/-- The console while a line is typed. -/
def Pending (c : Console) (text : List UInt8) : Prop := c.abs = ⟨.plain, text⟩

variable {bufs : ℕ → CArray} {k : ℕ} {c : Console}

/-- A byte that ends no line. -/
theorem waitLines_more {b : UInt8} (h : (consoleStep c b).2 = .more) (bs : List UInt8) :
    waitLines bufs k c (b :: bs) = waitLines bufs k (consoleStep c b).1 bs := by
  rw [waitLines_eq, waitLines_eq, Mealy.outputs_cons, waits_step]
  generalize consoleStep c b = q at h ⊢
  obtain ⟨c', r⟩ := q
  obtain rfl : r = .more := h
  rfl

/-- A byte that ends one. -/
theorem waitLines_line {b : UInt8} {text : List UInt8} (h : (consoleStep c b).2 = .line text)
    (bs : List UInt8) : waitLines bufs k c (b :: bs)
      = text :: waitLines bufs (k + 1) { (consoleStep c b).1 with inbuf := bufs k } bs := by
  rw [waitLines_eq, waitLines_eq, Mealy.outputs_cons, waits_step]
  generalize consoleStep c b = q at h ⊢
  obtain ⟨c', r⟩ := q
  obtain rfl : r = .line text := h
  rfl

/-- A character is added to what is pending, and a delete takes the last one away. -/
theorem Pending.stroke {text : List UInt8} (hc : Pending c text) {s : Stroke} (hs : s.Plain)
    (hfits : (s.edit text).length < inbufSize) :
    Pending (consoleStep c s.key).1 (s.edit text) ∧ (consoleStep c s.key).2 = .more := by
  have hstep := consoleStep_abs c s.key
  rw [hc, editStep, typed] at hstep
  cases s with
  | char b =>
    have hroom : ¬ inbufSize ≤ text.length + 1 := by
      rw [Stroke.edit, List.length_append, List.length_singleton] at hfits
      exact Nat.not_le.mpr hfits
    rw [Stroke.key, if_neg hs.1, if_neg hs.2.1, if_neg hs.2.2, if_neg hroom] at hstep
    exact Prod.ext_iff.mp hstep
  | delete b =>
    have hdelete : IsDelete b := hs
    have hne : b ≠ 0x1B ∧ b ≠ endChar := by
      rcases hdelete with rfl | rfl <;> decide
    rw [Stroke.key, if_neg hne.1, if_neg hne.2, if_pos hdelete] at hstep
    exact Prod.ext_iff.mp hstep

/-- Enter delivers the line, and nothing is pending. -/
theorem Pending.enter {text : List UInt8} (hc : Pending c text) :
    Pending (consoleStep c endChar).1 [] ∧ (consoleStep c endChar).2 = .line text := by
  have hstep := consoleStep_abs c endChar
  rw [hc, editStep, typed, if_neg (by decide), if_pos rfl] at hstep
  exact Prod.ext_iff.mp hstep

/-! ### Lines -/

/-- A line that is typed, whatever is pending before it. -/
theorem waitLines_strokes {pending : List UInt8} (hc : Pending c pending) {strokes : List Stroke}
    (hplain : ∀ s ∈ strokes, s.Plain) (hfits : Stroke.Fit pending strokes) (bs : List UInt8) :
    ∃ c', Pending c' [] ∧ waitLines bufs k c (strokes.map Stroke.key ++ endChar :: bs)
      = strokes.foldl Stroke.edit pending :: waitLines bufs (k + 1) c' bs := by
  induction strokes generalizing c pending with
  | nil =>
    obtain ⟨hnext, hline⟩ := hc.enter
    refine ⟨{ (consoleStep c endChar).1 with inbuf := bufs k }, ?_, waitLines_line hline bs⟩
    exact (abs_newBuffer (by rw [hnext]) (bufs k)).trans hnext
  | cons s strokes ih =>
    obtain ⟨hs, hrest⟩ := List.forall_mem_cons.mp hplain
    obtain ⟨hnext, hmore⟩ := hc.stroke hs hfits.1
    obtain ⟨c', hc', hline⟩ := ih hnext hrest hfits.2
    exact ⟨c', hc', (waitLines_more hmore _).trans hline⟩

/-- **The lines that the waits get** are the lines that are meant, one for each wait. -/
theorem waitLines_keys (hc : Pending c []) (lines : List TypedLine) :
    waitLines bufs k c (lines.flatMap TypedLine.keys) = lines.map TypedLine.text := by
  induction lines generalizing k c with
  | nil =>
    rw [List.flatMap_nil, waitLines_eq]
    rfl
  | cons line lines ih =>
    obtain ⟨c', hc', hline⟩ := @waitLines_strokes bufs k c [] hc line.strokes line.plain line.fits
      (lines.flatMap TypedLine.keys)
    rw [List.flatMap_cons, TypedLine.keys, List.append_assoc, List.singleton_append, hline, ih hc']
    rfl

/-! ### Menus -/

/-- **From the keys to the handlers.** The menu loop, on the lines that the console makes of the
keys from start-up, makes the calls of the reference interpreter for the lines that are left. -/
theorem simpleCliList_keys {G : Type} (m : Menu (Handler G)) (g : G) (bufs : ℕ → CArray)
    (lines : List TypedLine) :
    (simpleCliList m g
      (waitLines bufs 1 (powerOn (bufs 0)) (lines.flatMap TypedLine.keys))).actions
        = interpret m.actions g (lines.map TypedLine.text) := by
  rw [waitLines_keys (show Pending (powerOn (bufs 0)) [] from rfl), simpleCliList_actions]

/-- A 2 that is deleted, and a 1. -/
def correctedLine : TypedLine where
  strokes := [.char (byteOf '2'), .delete 0x7F, .char (byteOf '1')]
  plain := by decide
  fits := ⟨by decide, by decide, by decide, trivial⟩

/-- A menu of one entry. -/
def readMenu : Menu (Handler Unit) :=
  Menu.ofEntries 17 (literal "ADC-IN Test") [⟨literal "Read", 0, some {
    run := fun _ g lines => ⟨[], some (1, g, lines)⟩
    suffix := by
      rintro index g lines ret g' rest ⟨⟩
      exact List.suffix_rfl }⟩]

/-- The line selects the entry. -/
theorem simpleCliList_keys_corrected :
    (simpleCliList readMenu () (waitLines (fun _ _ => 0) 1 (powerOn fun _ => 0)
      [0x32, 0x7F, 0x31, 0x0D])).actions = interpret readMenu.actions () [[0x31]] :=
  simpleCliList_keys readMenu () (fun _ _ => 0) [correctedLine]

end Wise1511
