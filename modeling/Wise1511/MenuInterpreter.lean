import Wise1511.Menu

/-!
# The menu loop refines an interpreter of lines

`interpret` is what a menu is for: read a line, and if it is the number of an entry with a handler,
call that handler; leave at the number zero. It has no `cmdId` that survives, no redrawing, and one
loop instead of two.

The menu loop makes exactly the interpreter's calls with `string == NULL`. The point is the selected
number carried over the redraw: a turn entered with it makes one call and goes on either with
nothing selected or from the prompt, which differ only in drawing the table. So the run from any
turn is the interpreter's from the same lines.

Handlers that run menus of their own are covered by building them up: `Action` is a handler program
that may open menus to any finite depth, and its meaning with the code's menu loop has the calls of
its meaning with the interpreter.

## Main results

* `simpleCliList_actions` — one menu, with any handlers
* `Action.code_actions` — handlers with menus inside
* `simpleCliList_refines_interpret` — both together
-/

namespace Wise1511

variable {G H K : Type}

/-! ### The interpreter -/

/-- The handler of entry `v`, if there is such an entry and it has one. -/
def Menu.entry (m : Menu H) (v : ℕ) : Option H :=
  if v < m.cmdcount then (m.cmds v).func else none

/-- The number a line selects, when it starts with a digit. -/
def selectedValue (line : Line) : ℕ := min (leadingValue line) (2 ^ 31 - 1)

/-- The reference interpreter. -/
def interpret (m : Menu (Handler G)) (g : G) : List Line → Outcome G
  | [] => ⟨[], none⟩
  | line :: lines =>
    if ¬ IsDigit (line.headD 0) then interpret m g lines
    else if selectedValue line = 0 then ⟨[], some (0, g, lines)⟩
    else
      match m.entry (selectedValue line) with
      | none => interpret m g lines
      | some func =>
        let index := (m.cmds (selectedValue line)).index
        let o := func.run index g lines
        Outcome.prepend (.action m.table (selectedValue line) index :: o.calls) <|
          match _hresult : o.result with
          | none => ⟨[], none⟩
          | some (_, g', rest) => interpret m g' rest
termination_by lines => lines.length
decreasing_by
  · exact Nat.lt_succ_self _
  · exact Nat.lt_succ_self _
  · exact Nat.lt_succ_of_le (func.suffix _hresult).length_le

/-- Keep the calls with `string == NULL`. -/
def actions (calls : List HandlerCall) : List HandlerCall :=
  calls.filter fun
    | .action _ _ _ => true
    | .label _ _ _ => false

@[simp] theorem actions_append (xs ys : List HandlerCall) :
    actions (xs ++ ys) = actions xs ++ actions ys := List.filter_append ..

@[simp] theorem actions_nil : actions [] = [] := rfl

@[simp] theorem actions_action (table entry : ℕ) (index : ℤ) (calls : List HandlerCall) :
    actions (.action table entry index :: calls) = .action table entry index :: actions calls :=
  rfl

theorem actions_labels (m : Menu H) : actions m.labels = [] := by
  rw [actions, List.filter_eq_nil_iff]
  intro call hcall
  obtain ⟨i, -, hi⟩ := List.mem_filterMap.mp hcall
  obtain ⟨func, -, rfl⟩ := Option.map_eq_some_iff.mp hi
  exact Bool.false_ne_true

def Outcome.actions (o : Outcome G) : Outcome G := ⟨Wise1511.actions o.calls, o.result⟩

@[simp] theorem Outcome.actions_prepend (calls : List HandlerCall) (o : Outcome G) :
    (o.prepend calls).actions = o.actions.prepend (Wise1511.actions calls) := by
  simp [Outcome.actions, Outcome.prepend]

@[simp] theorem Outcome.prepend_nil (o : Outcome G) : o.prepend [] = o := rfl

/-- A handler whose label calls are not looked at. -/
def Handler.actions (h : Handler G) : Handler G where
  run index g lines := (h.run index g lines).actions
  suffix := h.suffix

/-- The same table with other handlers. -/
def Menu.mapIdx (f : ℕ → H → K) (m : Menu H) : Menu K where
  table := m.table
  cmds i := ⟨(m.cmds i).string, (m.cmds i).index, (m.cmds i).func.map (f i)⟩
  titled := m.titled
  terminated := m.terminated

/-- The table with the label calls of its handlers left out. -/
def Menu.actions (m : Menu (Handler G)) : Menu (Handler G) := m.mapIdx fun _ => Handler.actions

/-! ### The interpreter by selections -/

theorem interpret_nil (m : Menu (Handler G)) (g : G) : interpret m g [] = ⟨[], none⟩ := by
  rw [interpret]

/-- Call the handler of an entry, and go on. -/
def perform (m : Menu (Handler G)) (v : ℕ) (func : Handler G) (g : G) (lines : List Line) :
    Outcome G :=
  let o := func.run (m.cmds v).index g lines
  Outcome.prepend (.action m.table v (m.cmds v).index :: o.calls) <|
    match o.result with
    | none => ⟨[], none⟩
    | some (_, g', rest) => interpret m g' rest

theorem interpret_cons (m : Menu (Handler G)) (g : G) (line : Line) (lines : List Line) :
    interpret m g (line :: lines) =
      if ¬ IsDigit (line.headD 0) then interpret m g lines
      else if selectedValue line = 0 then ⟨[], some (0, g, lines)⟩
      else match m.entry (selectedValue line) with
        | none => interpret m g lines
        | some func => perform m (selectedValue line) func g lines := by
  rw [interpret]
  congr 2
  split
  · rfl
  · next func hfunc =>
    rw [perform]
    dsimp only
    congr 1
    split
    · next h => simp only [h]
    · next h => simp only [h]

/-- What `atoi` gives for a line that starts with a digit. -/
theorem atoi_eq_selectedValue {line : Line} (h : IsDigit (line.headD 0)) :
    atoi line = selectedValue line := by
  cases line with
  | nil => exact absurd h (by decide)
  | cons b s =>
    have hdigit : IsDigit b := h
    rw [atoi_of_isDigit hdigit, selectedValue, intMax]
    push_cast
    rfl

/-- The interpreter waits, leaves or calls as the inner loop selects. -/
theorem interpret_eq_select (m : Menu (Handler G)) (g : G) (lines : List Line) :
    interpret m g lines = match m.select lines with
      | none => ⟨[], none⟩
      | some (cmdId, rest) =>
        if cmdId = 0 then ⟨[], some (0, g, rest)⟩
        else match (m.cmds cmdId.toNat).func with
          | none => ⟨[], none⟩
          | some func => perform m cmdId.toNat func g rest := by
  induction lines with
  | nil => rw [interpret_nil, Menu.select]
  | cons line lines ih =>
    rw [interpret_cons, Menu.select]
    by_cases hdigit : IsDigit (line.headD 0)
    · rw [if_neg (not_not.mpr hdigit), if_neg (not_not.mpr hdigit), atoi_eq_selectedValue hdigit]
      generalize selectedValue line = v
      dsimp only
      by_cases hzero : v = 0
      · rw [hzero, if_pos rfl, if_pos Nat.cast_zero]
        rfl
      rw [if_neg hzero, if_neg (Nat.cast_ne_zero.mpr hzero), Menu.entry]
      by_cases hv : v < m.cmdcount
      · rw [if_pos hv, if_neg (by omega)]
        cases hfunc : (m.cmds v).func with
        | none => rw [Int.toNat_natCast, hfunc, Option.isNone_none, if_pos rfl, ih]
        | some func =>
          rw [Int.toNat_natCast, hfunc, Option.isNone_some, if_neg Bool.false_ne_true]
          dsimp only
          rw [if_neg (Nat.cast_ne_zero.mpr hzero), Int.toNat_natCast, hfunc]
      · rw [if_neg hv, if_pos (by omega), ih]
    · rw [if_pos hdigit, if_pos hdigit, ih]

/-! ### One menu -/

theorem Menu.cmdcount_mapIdx (f : ℕ → H → K) (m : Menu H) : (m.mapIdx f).cmdcount = m.cmdcount :=
  rfl

/-- What is selected does not depend on what the handlers are. -/
theorem Menu.select_mapIdx (f : ℕ → H → K) (m : Menu H) (lines : List Line) :
    (m.mapIdx f).select lines = m.select lines := by
  have hnone : ∀ i, ((m.mapIdx f).cmds i).func.isNone = (m.cmds i).func.isNone := by
    intro i
    show ((m.cmds i).func.map (f i)).isNone = _
    exact Option.isNone_map
  induction lines with
  | nil => rfl
  | cons buffer lines ih => simp only [Menu.select, Menu.cmdcount_mapIdx, hnone, ih]

/-- From the prompt, the menu makes the calls the interpreter makes. The induction is on the lines
left: a selected number is carried through one turn, in which it makes its one call, and is gone
when the next prompt is reached. -/
theorem Menu.promptFrom_actions (m : Menu (Handler G)) (g : G) (lines : List Line) :
    (m.promptFrom g lines).actions = interpret m.actions g lines := by
  induction hn : lines.length using Nat.strong_induction_on generalizing g lines with
  | _ n ih =>
    subst hn
    rw [interpret_eq_select, Menu.actions, Menu.select_mapIdx, promptFrom]
    cases hselect : m.select lines with
    | none => rfl
    | some selected =>
      obtain ⟨cmdId, rest⟩ := selected
      have hlt := length_lt_of_select hselect
      dsimp only
      by_cases hzero : cmdId = 0
      · rw [if_pos hzero, if_pos hzero]
        rfl
      obtain ⟨func, hfunc⟩ := func_of_select hselect hzero
      have hentry : ((m.mapIdx fun _ => Handler.actions).cmds cmdId.toNat).func
          = some func.actions := by
        show (m.cmds cmdId.toNat).func.map _ = _
        rw [hfunc, Option.map_some]
      rw [if_neg hzero, if_neg hzero, hentry, loop_selected m hzero hfunc]
      dsimp only
      rw [Outcome.actions_prepend, actions_append, actions_labels, List.nil_append, actions_action,
        perform]
      show Outcome.prepend _ _ = Outcome.prepend _ _
      congr 1
      show _ = (match (func.run (m.cmds cmdId.toNat).index g rest).result with
        | none => (⟨[], none⟩ : Outcome G)
        | some (_, g', rest') => interpret m.actions g' rest')
      cases hresult : (func.run (m.cmds cmdId.toNat).index g rest).result with
      | none => rfl
      | some returned =>
        obtain ⟨ret, g', rest'⟩ := returned
        have hrest := Nat.lt_of_le_of_lt (func.suffix hresult).length_le hlt
        have hdrawn : Wise1511.actions (if ret = 0 then m.labels else []) = [] := by
          split_ifs
          · exact actions_labels m
          · exact actions_nil
        dsimp only
        rw [Outcome.actions_prepend, hdrawn, Outcome.prepend_nil]
        exact ih _ hrest g' rest' rfl

/-- A run of a menu makes the calls of the interpreter, and ends as it does. -/
theorem simpleCliList_actions (m : Menu (Handler G)) (g : G) (lines : List Line) :
    (simpleCliList m g lines).actions = interpret m.actions g lines := by
  rw [simpleCliList, Menu.loop_zero, Outcome.actions_prepend, actions_labels, Outcome.prepend_nil,
    Menu.promptFrom_actions]

/-! ### Menus inside handlers -/

/-- The interpreter only consumes lines. -/
theorem suffix_of_interpret {m : Menu (Handler G)} {g g' : G} {lines rest : List Line} {ret : ℤ}
    (h : (interpret m g lines).result = some (ret, g', rest)) : rest <:+ lines := by
  induction hn : lines.length using Nat.strong_induction_on generalizing g lines with
  | _ n ih =>
    subst hn
    match lines with
    | [] =>
      rw [interpret_nil] at h
      cases h
    | line :: lines =>
      have hlater : ∀ {g'' lines'}, lines' <:+ lines →
          (interpret m g'' lines').result = some (ret, g', rest) → rest <:+ line :: lines := by
        intro g'' lines' hsuffix h
        have hlt := Nat.lt_succ_of_le hsuffix.length_le
        exact (ih _ hlt h rfl).trans (hsuffix.trans (List.suffix_cons line lines))
      rw [interpret_cons] at h
      split_ifs at h
      · cases h
        exact List.suffix_cons line _
      · split at h
        · exact hlater List.suffix_rfl h
        · next func hentry =>
          rw [perform] at h
          dsimp only [Outcome.prepend] at h
          split at h
          · cases h
          · next _ ret' g'' rest' hresult => exact hlater (func.suffix hresult) h
      · exact hlater List.suffix_rfl h

/-- The menu loop only consumes lines. -/
theorem suffix_of_simpleCliList {m : Menu (Handler G)} {g g' : G} {lines rest : List Line} {ret : ℤ}
    (h : (simpleCliList m g lines).result = some (ret, g', rest)) : rest <:+ lines := by
  have hactions : (simpleCliList m g lines).actions.result = some (ret, g', rest) := h
  rw [simpleCliList_actions] at hactions
  exact suffix_of_interpret hactions

/-- One outcome after another. -/
def Outcome.bind (o : Outcome G) (next : ℤ → G → List Line → Outcome G) : Outcome G :=
  Outcome.prepend o.calls <|
    match o.result with
    | none => ⟨[], none⟩
    | some (ret, g, rest) => next ret g rest

theorem Outcome.actions_bind (o : Outcome G) (next : ℤ → G → List Line → Outcome G) :
    (o.bind next).actions = o.actions.bind fun ret g rest => (next ret g rest).actions := by
  rw [Outcome.bind, Outcome.bind, Outcome.actions_prepend]
  congr 1
  show _ = (match o.result with
    | none => (⟨[], none⟩ : Outcome G)
    | some (ret, g, rest) => (next ret g rest).actions)
  split
  · rfl
  · rfl

/-- One handler body after another, the second with the value of the first. -/
def Handler.andThen (first : Handler G) (next : ℤ → Handler G) : Handler G where
  run index g lines := (first.run index g lines).bind fun ret => (next ret).run index
  suffix := by
    intro index g lines ret g' rest h
    dsimp only [Outcome.bind, Outcome.prepend] at h
    split at h
    · cases h
    · next _ ret' g'' rest' hresult =>
      exact ((next ret').suffix h).trans (first.suffix hresult)

/-- A handler body that runs a menu with the code's loop. -/
def Handler.cliList (m : Menu (Handler G)) : Handler G where
  run _ g lines := simpleCliList m g lines
  suffix := suffix_of_simpleCliList

/-- A handler body that runs a menu with the interpreter. -/
def Handler.interpreted (m : Menu (Handler G)) : Handler G where
  run _ g lines := interpret m g lines
  suffix := suffix_of_interpret

/-- A handler body: something that runs no menu, a menu over more of them, or one after another. -/
inductive Action (G : Type) where
  | prim (handler : Handler G)
  | menu (table : Menu Unit) (func : ℕ → Action G)
  | andThen (first : Action G) (next : ℤ → Action G)

namespace Action

/-- The handler, with menus run by `simple_cli_list`. -/
def code : Action G → Handler G
  | prim handler => handler
  | menu table func => Handler.cliList (table.mapIdx fun i _ => (func i).code)
  | andThen first next => first.code.andThen fun ret => (next ret).code

/-- The handler, with menus run by the interpreter. -/
def reference : Action G → Handler G
  | prim handler => handler.actions
  | menu table func => Handler.interpreted (table.mapIdx fun i _ => (func i).reference)
  | andThen first next => first.reference.andThen fun ret => (next ret).reference

end Action

theorem Handler.ext_run {h h' : Handler G}
    (hrun : ∀ index g lines, h.run index g lines = h'.run index g lines) : h = h' := by
  obtain ⟨run, _⟩ := h
  obtain ⟨run', _⟩ := h'
  obtain rfl : run = run' := by
    funext index g lines
    exact hrun index g lines
  rfl

/-- The table's handlers, before and after leaving the label calls out. -/
theorem Menu.actions_mapIdx (table : Menu H) (f : ℕ → H → Handler G) :
    (table.mapIdx f).actions = table.mapIdx fun i h => (f i h).actions := by
  have hfunc : ∀ i, ((table.cmds i).func.map (f i)).map Handler.actions
      = (table.cmds i).func.map fun h => (f i h).actions := by
    intro i
    exact Option.map_map ..
  simp only [Menu.actions, Menu.mapIdx, hfunc]

/-- Through any depth of menus, the code's handler makes the calls of the reference. The induction
is on the handler body; the menu case is the theorem for one menu. -/
theorem Action.code_actions (a : Action G) : a.code.actions = a.reference := by
  induction a with
  | prim handler => rfl
  | menu table func ih =>
    have hmenu : (table.mapIdx fun i _ => (func i).code).actions
        = table.mapIdx fun i _ => (func i).reference := by
      rw [Menu.actions_mapIdx]
      simp only [ih]
    apply Handler.ext_run
    intro index g lines
    show (simpleCliList _ g lines).actions = interpret _ g lines
    rw [simpleCliList_actions, hmenu]
  | andThen first next ihFirst ihNext =>
    apply Handler.ext_run
    intro index g lines
    show Outcome.actions (Outcome.bind _ _) = Outcome.bind _ _
    rw [Outcome.actions_bind, ← ihFirst]
    congr 1
    funext ret g' rest
    show _ = (next ret).reference.run index g' rest
    rw [← ihNext]
    rfl

/-- **The menu loop refines the interpreter**: for every table whose handlers may open menus in
turn, every sequence of lines and every value the handlers return, the calls with `string == NULL`,
the value returned, the globals and the lines left are the interpreter's. -/
theorem simpleCliList_refines_interpret (table : Menu Unit) (func : ℕ → Action G) (g : G)
    (lines : List Line) :
    (simpleCliList (table.mapIdx fun i _ => (func i).code) g lines).actions =
      interpret (table.mapIdx fun i _ => (func i).reference) g lines := by
  rw [simpleCliList_actions, Menu.actions_mapIdx]
  simp only [Action.code_actions]

end Wise1511
