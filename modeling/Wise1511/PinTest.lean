import Wise1511.Lib.Mealy
import Wise1511.Lib.Strtol
import Wise1511.Menu

/-!
# The pin test

`PinTest.cpp`: the operator names a pin by a letter and a number, and then pulls it high or low. The
two globals hold what was typed, after a range test each, and every drive function puts them
together again.

The number is cast to `unsigned char` before its range test, so 259 is accepted as 3. Nothing else
is wrong: the machine follows one that simply remembers the pin asked for as long as no number is
typed that the cast mistakes for another. The label shows the globals, so that it always names the
pin that would be driven, even then.

`Pin` is what the globals are meant to hold. There are 80 of them, and the range tests keep the
globals one of these in every run.

## Main results

* `Holds.inputPinName` — what is held after typing
* `drivesAskedPin_iff` — whole runs
-/

namespace Wise1511

/-! ### The program -/

/-- `gPinGroup` and `gPinIndex`. -/
structure PinGlobals where
  gPinGroup : UInt8
  gPinIndex : UInt8
  deriving DecidableEq

/-- Their initial values. -/
def pinStart : PinGlobals := ⟨65, 0⟩

/-- `toupper`. -/
def toupper (c : UInt8) : UInt8 := if byteOf 'a' ≤ c ∧ c ≤ byteOf 'z' then c - 0x20 else c

/-- What `" (P%c_%d)"` formats to. -/
def pinText (group : UInt8) (number : ℕ) : List UInt8 :=
  [byteOf ' ', byteOf '(', byteOf 'P', group, byteOf '_'] ++ decimal number ++ [byteOf ')']

/-- `InputPinName` with a string: the label. -/
def inputPinNameLabel (g : PinGlobals) : List UInt8 := pinText g.gPinGroup g.gPinIndex.toNat

/-- `InputPinName` without one, on the two lines that are typed. `GetChar_wait` gives the first byte
of its line, a NUL if the line is empty, and `GetInt_wait` its value by `strtol`. -/
def inputPinName (groupLine numberLine : Line) : PinGlobals :=
  let gPinGroup := toupper (groupLine.headD 0)
  let gPinGroup := if gPinGroup < 65 ∨ 69 < gPinGroup then 65 else gPinGroup
  let gPinIndex := UInt8.ofInt (strtol numberLine)
  let gPinIndex := if gPinIndex < 0 ∨ 15 < gPinIndex then 0 else gPinIndex
  ⟨gPinGroup, gPinIndex⟩

/-- The `switch (gPinGroup)` of both drive functions, and the number. -/
def pinOf (g : PinGlobals) : ℕ :=
  let pin : ℕ :=
    if g.gPinGroup = 65 then 0x00
    else if g.gPinGroup = 66 then 0x10
    else if g.gPinGroup = 67 then 0x20
    else if g.gPinGroup = 68 then 0x30
    else if g.gPinGroup = 69 then 0x40
    else 0
  pin ||| g.gPinIndex.toNat

/-- A pin is driven. -/
structure Drive where
  pin : ℕ
  gpo : Bool
  deriving DecidableEq

/-- `PullHigh`. -/
def pullHigh (g : PinGlobals) : Drive := ⟨pinOf g, true⟩

/-- `PullLow`. -/
def pullLow (g : PinGlobals) : Drive := ⟨pinOf g, false⟩

/-- The entries of the menu, with the lines that are typed at them. -/
inductive PinAction where
  | inputPinName (groupLine numberLine : Line)
  | pullHigh
  | pullLow
  | listAllPin
  deriving DecidableEq

/-- What is seen of an action: the label in the table above it, and the pin driven. -/
structure PinShown where
  label : List UInt8
  driven : Option Drive
  deriving DecidableEq

/-- The pin test, an action at a time. -/
def pinTest : Mealy PinGlobals PinAction PinShown where
  step g
    | .inputPinName groupLine numberLine =>
      (inputPinName groupLine numberLine, ⟨inputPinNameLabel g, none⟩)
    | .pullHigh => (g, ⟨inputPinNameLabel g, some (pullHigh g)⟩)
    | .pullLow => (g, ⟨inputPinNameLabel g, some (pullLow g)⟩)
    | .listAllPin => (g, ⟨inputPinNameLabel g, none⟩)

/-! ### Pins -/

/-- A pin: a group from A to E and a number up to 15. -/
structure Pin where
  group : Fin 5
  number : Fin 16
  deriving DecidableEq

/-- The pin's number in `PinName`. -/
def Pin.code (p : Pin) : ℕ := p.group * 16 + p.number

/-- The pin's name in the menu. -/
def Pin.label (p : Pin) : List UInt8 := pinText (UInt8.ofNat (65 + p.group)) p.number

/-- Two pins never have one label. -/
theorem Pin.label_injective : Function.Injective Pin.label := by
  have hgroup : ∀ i i' : Fin 5, UInt8.ofNat (65 + i) = UInt8.ofNat (65 + i') → i = i' := by decide
  have hnumber : ∀ j j' : Fin 16, decimal j = decimal j' → j = j' := by decide +kernel
  rintro ⟨i, j⟩ ⟨i', j'⟩ h
  simp only [Pin.label, pinText, List.append_cancel_right_eq, List.cons_append, List.nil_append,
    List.cons.injEq, true_and] at h
  rw [hgroup i i' h.1, hnumber j j' h.2]

/-- The group a letter asks for, in either case. -/
def askedGroup : UInt8 → Fin 5
  | 0x42 | 0x62 => 1
  | 0x43 | 0x63 => 2
  | 0x44 | 0x64 => 3
  | 0x45 | 0x65 => 4
  | _ => 0

/-- The number a value asks for. -/
def askedNumber (v : ℤ) : Fin 16 := if h : 0 ≤ v ∧ v ≤ 15 then ⟨v.toNat, by omega⟩ else 0

/-- The pin two lines ask for. -/
def askedPin (groupLine numberLine : Line) : Pin :=
  ⟨askedGroup (groupLine.headD 0), askedNumber (strtol numberLine)⟩

/-- The machine that remembers the pin asked for, shows it and drives it. -/
def pinAsked : Mealy Pin PinAction PinShown where
  step p
    | .inputPinName groupLine numberLine => (askedPin groupLine numberLine, ⟨p.label, none⟩)
    | .pullHigh => (p, ⟨p.label, some ⟨p.code, true⟩⟩)
    | .pullLow => (p, ⟨p.label, some ⟨p.code, false⟩⟩)
    | .listAllPin => (p, ⟨p.label, none⟩)

/-- The globals hold this pin. -/
structure Holds (g : PinGlobals) (p : Pin) : Prop where
  group : g.gPinGroup.toNat = 65 + p.group
  number : g.gPinIndex.toNat = p.number

theorem holds_pinStart : Holds pinStart ⟨0, 0⟩ := ⟨rfl, rfl⟩

/-- What is held is what the label names. -/
theorem Holds.label {g : PinGlobals} {p : Pin} (h : Holds g p) : inputPinNameLabel g = p.label := by
  rw [inputPinNameLabel, Pin.label, ← h.group, ← h.number, UInt8.ofNat_toNat]

/-- And what is driven. -/
theorem Holds.pinOf {g : PinGlobals} {p : Pin} (h : Holds g p) : pinOf g = p.code := by
  obtain ⟨⟨group, number⟩, ⟨i, j⟩⟩ := g, p
  have hgroup : group = UInt8.ofNat (65 + i) := by
    rw [← h.group, UInt8.ofNat_toNat]
  have hswitch : ∀ (i : Fin 5) (j : Fin 16),
      Wise1511.pinOf ⟨UInt8.ofNat (65 + i), UInt8.ofNat j⟩ = i * 16 + j := by decide +kernel
  have hnumber : number = UInt8.ofNat j := by
    rw [← h.number, UInt8.ofNat_toNat]
  rw [hgroup, hnumber]
  exact hswitch i j

/-! ### Typing a pin -/

theorem group_eq : ∀ c : UInt8,
    (if toupper c < 65 ∨ 69 < toupper c then 65 else toupper c).toNat = 65 + askedGroup c := by
  decide +kernel

/-- The index after typing, as a number. -/
theorem index_eq (groupLine numberLine : Line) :
    ((inputPinName groupLine numberLine).gPinIndex.toNat : ℤ)
      = if 15 < strtol numberLine % 256 then 0 else strtol numberLine % 256 := by
  have hbyte := toNat_ofInt (strtol numberLine)
  have hnonneg : ¬ UInt8.ofInt (strtol numberLine) < 0 := UInt8.not_lt_zero
  have hlt : 15 < UInt8.ofInt (strtol numberLine) ↔ 15 < strtol numberLine % 256 := by
    rw [UInt8.lt_iff_toNat_lt, ← hbyte]
    exact Int.ofNat_lt.symm
  simp only [inputPinName, hnonneg, false_or, hlt]
  split_ifs
  · rfl
  · exact hbyte

theorem askedNumber_eq (v : ℤ) : ((askedNumber v : ℕ) : ℤ) = if 0 ≤ v ∧ v ≤ 15 then v else 0 := by
  rw [askedNumber]
  split_ifs with h
  · exact Int.toNat_of_nonneg h.1
  · rfl

/-- **What is held after typing** is what was asked for, unless the cast mistakes the number. -/
theorem Holds.inputPinName (groupLine numberLine : Line) :
    Holds (inputPinName groupLine numberLine) (askedPin groupLine numberLine) ↔
      ¬ IsNarrowed 15 (strtol numberLine) := by
  rw [← narrow_eq_iff (by decide), ← index_eq groupLine numberLine, ← askedNumber_eq,
    Int.natCast_inj]
  exact ⟨fun h => h.number, fun h => ⟨group_eq _, h⟩⟩

/-- Some pin is held after typing in any case. -/
theorem exists_holds_inputPinName (groupLine numberLine : Line) :
    ∃ p, Holds (inputPinName groupLine numberLine) p := by
  have hindex := index_eq groupLine numberLine
  have hlt : (Wise1511.inputPinName groupLine numberLine).gPinIndex.toNat < 16 := by
    have hnonneg := Int.emod_nonneg (strtol numberLine) (show (256 : ℤ) ≠ 0 by decide)
    split_ifs at hindex <;> omega
  exact ⟨⟨askedGroup (groupLine.headD 0), ⟨_, hlt⟩⟩, group_eq _, rfl⟩

/-! ### Runs -/

/-- The cast does not mistake the number typed at this action, if one is typed. -/
def PinAction.NumberKept : PinAction → Prop
  | .inputPinName _ numberLine => ¬ IsNarrowed 15 (strtol numberLine)
  | _ => True

instance : DecidablePred PinAction.NumberKept
  | .inputPinName _ _ => inferInstanceAs (Decidable (¬ _))
  | .pullHigh => isTrue trivial
  | .pullLow => isTrue trivial
  | .listAllPin => isTrue trivial

theorem matches_pinTest_iff {g : PinGlobals} {p : Pin} (h : Holds g p) (a : PinAction) :
    Mealy.Matches pinTest pinAsked Holds g p a ↔ a.NumberKept := by
  cases a with
  | inputPinName groupLine numberLine =>
    refine ⟨fun hm => (Holds.inputPinName _ _).mp hm.2, fun hk => ⟨?_, ?_⟩⟩
    · exact congrArg (PinShown.mk · none) h.label
    · exact (Holds.inputPinName _ _).mpr hk
  | pullHigh =>
    refine iff_of_true ⟨?_, h⟩ trivial
    exact congrArg₂ (fun label pin => PinShown.mk label (some ⟨pin, true⟩)) h.label h.pinOf
  | pullLow =>
    refine iff_of_true ⟨?_, h⟩ trivial
    exact congrArg₂ (fun label pin => PinShown.mk label (some ⟨pin, false⟩)) h.label h.pinOf
  | listAllPin => exact iff_of_true ⟨congrArg (PinShown.mk · none) h.label, h⟩ trivial

/-- The globals hold a pin in every run. -/
theorem exists_holds_after {g : PinGlobals} (h : ∃ p, Holds g p) (actions : List PinAction) :
    ∃ p, Holds (pinTest.after g actions) p := by
  induction actions generalizing g with
  | nil => exact h
  | cons a actions ih =>
    rw [Mealy.after_cons]
    refine ih ?_
    cases a with
    | inputPinName groupLine numberLine => exact exists_holds_inputPinName groupLine numberLine
    | pullHigh => exact h
    | pullLow => exact h
    | listAllPin => exact h

theorem tracks_pinTest_iff {g : PinGlobals} {p : Pin} (h : Holds g p) (actions : List PinAction) :
    Mealy.Tracks pinTest pinAsked Holds g p actions ↔ ∀ a ∈ actions, a.NumberKept := by
  have hadmits : pinAsked.Along (fun _ _ => True) p actions :=
    Mealy.along_const_iff.mpr fun _ _ => trivial
  rw [Mealy.tracks_iff (fun _ _ a h _ => matches_pinTest_iff h a) h hadmits,
    Mealy.along_const_iff]

/-- **The pin driven is the pin asked for exactly as long as no number is mistaken.** And in every
run the label names the pin that a drive function would drive. -/
theorem drivesAskedPin_iff (actions : List PinAction) :
    (Mealy.Tracks pinTest pinAsked Holds pinStart ⟨0, 0⟩ actions ↔
      ∀ a ∈ actions, a.NumberKept) ∧
    ∃ p : Pin, inputPinNameLabel (pinTest.after pinStart actions) = p.label ∧
      (pullHigh (pinTest.after pinStart actions)).pin = p.code ∧
      (pullLow (pinTest.after pinStart actions)).pin = p.code := by
  refine ⟨tracks_pinTest_iff holds_pinStart actions, ?_⟩
  obtain ⟨p, hp⟩ := exists_holds_after ⟨_, holds_pinStart⟩ actions
  exact ⟨p, hp.label, hp.pinOf, hp.pinOf⟩

/-- Group A, number 259, and then `PullHigh`: A3 is driven. -/
theorem not_drivesAskedPin_259 :
    ¬ Mealy.Tracks pinTest pinAsked Holds pinStart ⟨0, 0⟩
      [.inputPinName [byteOf 'A'] [byteOf '2', byteOf '5', byteOf '9'], .pullHigh] := by
  rw [tracks_pinTest_iff holds_pinStart]
  decide

end Wise1511
