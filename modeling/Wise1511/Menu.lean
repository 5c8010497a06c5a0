import Mathlib.Data.Nat.Find
import Mathlib.Order.Basic
import Wise1511.Lib.Decimal

/-!
# The menu loop

`simple_cli_list` of `simpleCli.cpp`. It draws a table of entries, reads lines until one selects an
entry, and then goes round again with the selected number still in `cmdId`: the table is drawn
once more, the entry's handler is called below it, and only then does it prompt. A handler that
returns zero has the table redrawn; any other result goes straight to the prompt.

A handler is whatever it does to the program's globals and to the lines to come, with the calls it
makes itself, so it may read lines or run a menu of its own. The one thing asked of it is that it
cannot put lines back. Every handler of the program, when it is called to fill in its label, writes
at most that text and returns at once, so those calls appear in the trace and do nothing else.

A run is over a finite list of lines; a run that needs more is waiting, and has made the calls it
has made.

## Main results

* `Menu.loop_eq` — one turn of the loop
* `simpleCliList_preserves` — the invariant rule for runs
-/

namespace Wise1511

/-- A line as `console_input_wait` delivers it, without its NUL. -/
abbrev Line := List UInt8

/-- A call of a handler: the table, the entry's place in it and the entry's index. -/
inductive HandlerCall where
  /-- With `string != NULL`, while the table is drawn. -/
  | label (table entry : ℕ) (index : ℤ)
  /-- With `string == NULL`. -/
  | action (table entry : ℕ) (index : ℤ)
  deriving DecidableEq

/-- What came of a run: the calls made, and then either the value returned with the globals and the
lines left, or nothing because it waits for a line. -/
structure Outcome (G : Type) where
  calls : List HandlerCall
  result : Option (ℤ × G × List Line)

/-- The outcome after some calls. -/
def Outcome.prepend {G : Type} (calls : List HandlerCall) (o : Outcome G) : Outcome G :=
  ⟨calls ++ o.calls, o.result⟩

/-- A handler, called with `string == NULL`. -/
structure Handler (G : Type) where
  run : ℤ → G → List Line → Outcome G
  /-- Lines are only ever consumed. -/
  suffix : ∀ {index g lines ret g' rest},
    (run index g lines).result = some (ret, g', rest) → rest <:+ lines

/-- `simple_cmds`, for handlers of any kind. -/
structure SimpleCmd (H : Type) where
  string : Option (List UInt8)
  index : ℤ
  func : Option H

/-- A table: a title, entries, and a NULL string at the end. -/
structure Menu (H : Type) where
  /-- Which of the program's tables it is. -/
  table : ℕ
  cmds : ℕ → SimpleCmd H
  titled : (cmds 0).string ≠ none
  terminated : ∃ n, (cmds n).string = none

namespace Menu

variable {G H : Type}

/-- Where `while (cmds[cmdcount].string != NULL)` stops. -/
def cmdcount (m : Menu H) : ℕ := Nat.find m.terminated

/-- The calls made while the table is drawn. -/
def labels (m : Menu H) : List HandlerCall :=
  (List.range' 1 (m.cmdcount - 1)).filterMap fun i =>
    (m.cmds i).func.map fun _ => .label m.table i (m.cmds i).index

/-- The inner loop: the `cmdId` it ends with, and the lines after that. -/
def select (m : Menu H) : List Line → Option (ℤ × List Line)
  | [] => none
  | buffer :: lines =>
    if ¬ IsDigit (buffer.headD 0) then
      m.select lines
    else
      let cmdId := atoi buffer
      if cmdId = 0 then some (cmdId, lines)
      else if m.cmdcount ≤ cmdId ∨ cmdId < 0 then m.select lines
      else if (m.cmds cmdId.toNat).func.isNone then m.select lines
      else some (cmdId, lines)

theorem length_lt_of_select {m : Menu H} {lines rest : List Line} {cmdId : ℤ}
    (h : m.select lines = some (cmdId, rest)) : rest.length < lines.length := by
  induction lines with
  | nil => cases h
  | cons buffer lines ih =>
    have hrest : m.select lines = some (cmdId, rest) → rest.length < (buffer :: lines).length := by
      intro h
      exact Nat.lt_succ_of_lt (ih h)
    have hhere : ∀ v : ℤ, some (v, lines) = some (cmdId, rest) →
        rest.length < (buffer :: lines).length := by
      intro v h
      obtain ⟨-, rfl⟩ := Prod.ext_iff.mp (Option.some.inj h)
      exact Nat.lt_succ_self _
    rw [select] at h
    dsimp only at h
    split_ifs at h
    · exact hhere _ h
    · exact hrest h
    · exact hrest h
    · exact hhere _ h
    · exact hrest h

/-- A number other than zero is only ever selected for an entry that has a handler. -/
theorem func_of_select {m : Menu H} {lines rest : List Line} {cmdId : ℤ}
    (h : m.select lines = some (cmdId, rest)) (hne : cmdId ≠ 0) :
    ∃ func, (m.cmds cmdId.toNat).func = some func := by
  induction lines with
  | nil => cases h
  | cons buffer lines ih =>
    rw [select] at h
    dsimp only at h
    split_ifs at h with hdigit hzero hrange hnone
    · obtain ⟨rfl, -⟩ := Prod.ext_iff.mp (Option.some.inj h)
      exact absurd hzero hne
    · exact ih h
    · exact ih h
    · obtain ⟨rfl, -⟩ := Prod.ext_iff.mp (Option.some.inj h)
      exact Option.ne_none_iff_exists'.mp (mt Option.isNone_iff_eq_none.mpr hnone)
    · exact ih h

/-- How the outer loop goes on after the drawing and the call below it. -/
inductive Turn (G : Type) where
  /-- The handler waits for a line. -/
  | waiting
  | redraw (g : G) (lines : List Line)
  | prompt (g : G) (lines : List Line)

/-- The call below the table, if an entry has been selected. -/
def called (m : Menu (Handler G)) (cmdId : ℤ) (g : G) (lines : List Line) :
    List HandlerCall × Turn G :=
  match if cmdId = 0 then none else (m.cmds cmdId.toNat).func with
  | none => ([], .prompt g lines)
  | some func =>
    let index := (m.cmds cmdId.toNat).index
    let o := func.run index g lines
    (.action m.table cmdId.toNat index :: o.calls,
      match o.result with
      | none => .waiting
      | some (ret, g', rest) => if ret = 0 then .redraw g' rest else .prompt g' rest)

theorem of_called_redraw {m : Menu (Handler G)} {cmdId : ℤ} {g g' : G} {lines rest : List Line}
    (h : (m.called cmdId g lines).2 = .redraw g' rest) : cmdId ≠ 0 ∧ rest <:+ lines := by
  rw [called] at h
  by_cases hzero : cmdId = 0
  · rw [if_pos hzero] at h
    cases h
  rw [if_neg hzero] at h
  refine ⟨hzero, ?_⟩
  cases hfunc : (m.cmds cmdId.toNat).func with
  | none =>
    rw [hfunc] at h
    cases h
  | some func =>
    rw [hfunc] at h
    dsimp only at h
    split at h
    · cases h
    · next ret g'' rest' hresult =>
      split_ifs at h
      cases h
      exact func.suffix hresult

theorem of_called_prompt {m : Menu (Handler G)} {cmdId : ℤ} {g g' : G} {lines rest : List Line}
    (h : (m.called cmdId g lines).2 = .prompt g' rest) : rest <:+ lines := by
  rw [called] at h
  split at h
  · cases h
    exact List.suffix_rfl
  · next func hfunc =>
    dsimp only at h
    split at h
    · cases h
    · next ret g'' rest' hresult =>
      split_ifs at h
      cases h
      exact func.suffix hresult

/-- The outer loop, entered with `cmdId`. -/
def loop (m : Menu (Handler G)) (cmdId : ℤ) (g : G) (lines : List Line) : Outcome G :=
  Outcome.prepend (m.labels ++ (m.called cmdId g lines).1) <|
    match _hturn : (m.called cmdId g lines).2 with
    | .waiting => ⟨[], none⟩
    | .redraw g' rest => loop m 0 g' rest
    | .prompt g' rest =>
      match _hselect : m.select rest with
      | none => ⟨[], none⟩
      | some (cmdId', rest') =>
        if cmdId' = 0 then ⟨[], some (0, g', rest')⟩ else loop m cmdId' g' rest'
termination_by (lines.length, if cmdId = 0 then 0 else 1)
decreasing_by
  · -- a redraw may have used up no line, but has nothing selected any more
    obtain ⟨hne, hsuffix⟩ := of_called_redraw _hturn
    rw [if_neg hne]
    simp only [if_true]
    rcases Nat.lt_or_eq_of_le hsuffix.length_le with hlt | heq
    · exact Prod.Lex.left _ _ hlt
    · rw [heq]
      exact Prod.Lex.right _ Nat.zero_lt_one
  · have hle := (of_called_prompt _hturn).length_le
    exact Prod.Lex.left _ _ (Nat.lt_of_lt_of_le (length_lt_of_select _hselect) hle)

end Menu

namespace Menu

variable {G : Type} (m : Menu (Handler G))

/-- From the prompt on: the inner loop, and the next turn of the outer one. -/
def promptFrom (g : G) (lines : List Line) : Outcome G :=
  match m.select lines with
  | none => ⟨[], none⟩
  | some (cmdId, rest) => if cmdId = 0 then ⟨[], some (0, g, rest)⟩ else m.loop cmdId g rest

/-- The rest of the run, after the call of a turn. -/
def goOn : Turn G → Outcome G
  | .waiting => ⟨[], none⟩
  | .redraw g lines => m.loop 0 g lines
  | .prompt g lines => m.promptFrom g lines

/-- One turn of the outer loop. -/
theorem loop_eq (cmdId : ℤ) (g : G) (lines : List Line) :
    m.loop cmdId g lines = Outcome.prepend (m.labels ++ (m.called cmdId g lines).1)
      (m.goOn (m.called cmdId g lines).2) := by
  rw [loop]
  congr 1
  split
  · next h => rw [h, goOn]
  · next h => rw [h, goOn]
  · next h =>
    rw [h, goOn, promptFrom]
    split
    · next h => simp only [h]
    · next h => simp only [h]

/-- Entered with nothing selected, the loop draws the table and prompts. -/
theorem loop_zero (g : G) (lines : List Line) :
    m.loop 0 g lines = (m.promptFrom g lines).prepend m.labels := by
  rw [loop_eq, called, if_pos rfl, List.append_nil, goOn]

/-- Entered with an entry selected, the loop draws the table and makes the one call, and is then
back at the prompt; before that the table is drawn again if the handler has returned zero. -/
theorem loop_selected {cmdId : ℤ} (hne : cmdId ≠ 0) {func : Handler G}
    (hfunc : (m.cmds cmdId.toNat).func = some func) (g : G) (lines : List Line) :
    let index := (m.cmds cmdId.toNat).index
    let o := func.run index g lines
    m.loop cmdId g lines = Outcome.prepend
      (m.labels ++ .action m.table cmdId.toNat index :: o.calls)
      (match o.result with
        | none => ⟨[], none⟩
        | some (ret, g', rest) =>
          (m.promptFrom g' rest).prepend (if ret = 0 then m.labels else [])) := by
  intro index o
  rw [loop_eq, called, if_neg hne, hfunc]
  show Outcome.prepend _ (m.goOn (match o.result with
    | none => .waiting
    | some (ret, g', rest) => if ret = 0 then .redraw g' rest else .prompt g' rest)) = _
  congr 1
  cases o.result with
  | none => rfl
  | some returned =>
    obtain ⟨ret, g', rest⟩ := returned
    by_cases hret : ret = 0
    · -- the number is cleared, so the next turn only draws
      simp only [hret, if_true, goOn, loop_zero]
    · simp only [hret, if_false, goOn]
      rfl

end Menu

/-- `simple_cli_list`. -/
def simpleCliList {G : Type} (m : Menu (Handler G)) (g : G) (lines : List Line) : Outcome G :=
  m.loop 0 g lines

/-- **The invariant rule.** What every handler of the table keeps, a run of the menu keeps. -/
theorem simpleCliList_preserves {G : Type} {m : Menu (Handler G)} {P : G → Prop}
    (hkeep : ∀ i func, (m.cmds i).func = some func → ∀ {index g lines ret g' rest}, P g →
      (func.run index g lines).result = some (ret, g', rest) → P g')
    {g g' : G} {lines rest : List Line} {ret : ℤ} (hg : P g)
    (hrun : (simpleCliList m g lines).result = some (ret, g', rest)) : P g' := by
  rw [simpleCliList] at hrun
  generalize (0 : ℤ) = cmdId at hrun
  induction cmdId, g, lines using Menu.loop.induct m with
  | case1 cmdId g lines ihRedraw ihPrompt =>
    -- the call of this turn keeps the invariant
    have hcalled : ∀ g'' rest', (m.called cmdId g lines).2 = .redraw g'' rest' ∨
        (m.called cmdId g lines).2 = .prompt g'' rest' → P g'' := by
      intro g'' rest' hturn
      rw [Menu.called] at hturn
      split at hturn
      · rcases hturn with h | h
        · cases h
        · cases h
          exact hg
      · next func hfunc =>
        split_ifs at hfunc with hzero
        dsimp only at hturn
        split at hturn
        · rcases hturn with h | h <;> cases h
        · next ret' g₁ rest₁ hresult =>
          have hg₁ := hkeep _ func hfunc hg hresult
          split_ifs at hturn <;> rcases hturn with h | h <;> cases h <;> exact hg₁
    rw [Menu.loop_eq] at hrun
    dsimp only [Outcome.prepend] at hrun
    cases hturn : (m.called cmdId g lines).2 with
    | waiting =>
      rw [hturn] at hrun
      cases hrun
    | redraw g₁ rest₁ =>
      rw [hturn] at hrun
      exact ihRedraw g₁ rest₁ hturn (hcalled g₁ rest₁ (.inl hturn)) hrun
    | prompt g₁ rest₁ =>
      rw [hturn, Menu.goOn, Menu.promptFrom] at hrun
      split at hrun
      · cases hrun
      · next cmdId' rest' hselect =>
        have hg₁ := hcalled g₁ rest₁ (.inr hturn)
        split_ifs at hrun
        · cases hrun
          exact hg₁
        · exact ihPrompt g₁ rest₁ hturn cmdId' rest' hselect hg₁ hrun

end Wise1511
