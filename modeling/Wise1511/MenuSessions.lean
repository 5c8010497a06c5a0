import Wise1511.MenuListing

/-!
# Sessions at the console

Rules for what holds while an operator goes through menus and menus inside menus. A run that waits
for a line has no result, so a statement about results says nothing about an operator who walks
away. `Action.During` is about every moment of a run at which no handler is on its way: before it,
after each handler that comes back, and while a menu waits.

`Action.Sat J P a Q` is a triple with an invariant: from `P`, the run of `a` keeps `J` at every
moment, and if it comes back, `Q` holds. There is a rule for each way an action is built, and for a
menu it asks for a loop invariant of its entries, in whatever order they are called and however
often.

## Main results

* `Action.Sat.prim`, `Action.Sat.menu`, `Action.Sat.andThen` — the rules
* `Action.during_of_code` — the end of a run is one of its moments
* `Action.Legible.list` — menus that can be read off the screen
-/

namespace Wise1511

variable {G : Type}

namespace Action

/-- The globals are `g'` at some moment of the run of the action. -/
inductive During : Action G → ℤ → G → List Line → G → Prop
  /-- Before anything has happened. -/
  | start (a : Action G) (index : ℤ) (g : G) (lines : List Line) : During a index g lines g
  /-- A handler has come back. -/
  | prim {handler : Handler G} {index ret : ℤ} {g g' : G} {lines rest : List Line}
      (hresult : (handler.run index g lines).result = some (ret, g', rest)) :
      During (.prim handler) index g lines g'
  /-- In a menu, an entry has been selected and its action is under way. -/
  | inside {table : Menu Unit} {func : ℕ → Action G} {index v : ℤ} {g g' : G}
      {lines rest : List Line} (hselect : table.select lines = some (v, rest)) (hne : v ≠ 0)
      (hduring : During (func v.toNat) (table.cmds v.toNat).index g rest g') :
      During (.menu table func) index g lines g'
  /-- It has come back, and the menu goes on. -/
  | later {table : Menu Unit} {func : ℕ → Action G} {index v ret : ℤ} {g g₁ g' : G}
      {lines rest rest₁ : List Line} (hselect : table.select lines = some (v, rest)) (hne : v ≠ 0)
      (hresult : ((func v.toNat).code.run (table.cmds v.toNat).index g rest).result
        = some (ret, g₁, rest₁))
      (hduring : During (.menu table func) index g₁ rest₁ g') :
      During (.menu table func) index g lines g'
  | first {first : Action G} {next : ℤ → Action G} {index : ℤ} {g g' : G} {lines : List Line}
      (hduring : During first index g lines g') : During (.andThen first next) index g lines g'
  | second {first : Action G} {next : ℤ → Action G} {index ret : ℤ} {g g₁ g' : G}
      {lines rest : List Line}
      (hresult : (first.code.run index g lines).result = some (ret, g₁, rest))
      (hduring : During (next ret) index g₁ rest g') :
      During (.andThen first next) index g lines g'

/-- From `P`, the run keeps `J` at every moment, and has `Q` if it comes back. -/
structure Sat (J P : G → Prop) (a : Action G) (Q : G → Prop) : Prop where
  during : ∀ {index g lines g'}, P g → a.During index g lines g' → J g'
  result : ∀ {index g lines ret g' rest}, P g →
    (a.code.run index g lines).result = some (ret, g', rest) → Q g'

namespace Sat

variable {J P P' Q Q' R : G → Prop}

theorem weaken {a : Action G} (h : Sat J P a Q) (hP : ∀ g, P' g → P g) (hQ : ∀ g, Q g → Q' g) :
    Sat J P' a Q' where
  during hg := h.during (hP _ hg)
  result hg hrun := hQ _ (h.result (hP _ hg) hrun)

/-- A handler without menus. -/
theorem prim {handler : Handler G} (hstart : ∀ g, P g → J g)
    (hkeep : ∀ {index g lines ret g' rest}, P g →
      (handler.run index g lines).result = some (ret, g', rest) → J g' ∧ Q g') :
    Sat J P (.prim handler) Q where
  during hg hduring := by
    cases hduring with
    | start => exact hstart _ hg
    | prim hresult => exact (hkeep hg hresult).1
  result hg hrun := (hkeep hg hrun).2

/-- One action after another. -/
theorem andThen {first : Action G} {next : ℤ → Action G} (hfirst : Sat J P first R)
    (hnext : ∀ ret, Sat J R (next ret) Q) : Sat J P (.andThen first next) Q where
  during hg hduring := by
    cases hduring with
    | start => exact hfirst.during hg (.start _ 0 _ [])
    | first hduring => exact hfirst.during hg hduring
    | second hresult hduring => exact (hnext _).during (hfirst.result hg hresult) hduring
  result {index g lines ret g' rest} hg hrun := by
    change (Outcome.bind _ _).result = _ at hrun
    dsimp only [Outcome.bind, Outcome.prepend] at hrun
    split at hrun
    · cases hrun
    · next ret₁ g₁ rest₁ hresult => exact (hnext ret₁).result (hfirst.result hg hresult) hrun

/-- **A menu.** What every entry keeps, the menu keeps, whatever is typed. -/
theorem menu {table : Menu Unit} {func : ℕ → Action G} (hstart : ∀ g, P g → J g)
    (hfunc : ∀ i, (table.cmds i).func ≠ none → Sat J P (func i) P) :
    Sat J P (.menu table func) P where
  during {index g lines g'} hg hduring := by
    have hentry : ∀ {lines rest : List Line} {v : ℤ}, table.select lines = some (v, rest) → v ≠ 0 →
        Sat J P (func v.toNat) P := by
      intro lines rest v hselect hne
      obtain ⟨_, hv⟩ := Menu.func_of_select hselect hne
      exact hfunc _ (hv ▸ Option.some_ne_none _)
    generalize ha : Action.menu table func = a at hduring
    -- the induction is on the selections still to come
    induction hduring with
    | start => exact hstart _ hg
    | prim => cases ha
    | inside hselect hne hduring =>
      cases ha
      exact (hentry hselect hne).during hg hduring
    | later hselect hne hresult _ ih =>
      cases ha
      exact ih ((hentry hselect hne).result hg hresult) rfl
    | first => cases ha
    | second => cases ha
  result hg hrun := by
    refine simpleCliList_preserves (P := P) ?_ hg hrun
    intro i func' hi index g lines ret g' rest hg hresult
    obtain ⟨_, hcmd, rfl⟩ := Option.map_eq_some_iff.mp hi
    exact (hfunc i (hcmd ▸ Option.some_ne_none _)).result hg hresult

end Sat

/-- From the prompt to the prompt: what an entry that is selected makes of it. -/
theorem result_promptFrom {table : Menu Unit} {func : ℕ → Action G} {g : G} {v : ℤ}
    {lines rest : List Line} (hselect : table.select lines = some (v, rest)) (hne : v ≠ 0) :
    ((table.mapIdx fun i _ => (func i).code).promptFrom g lines).result =
      match ((func v.toNat).code.run (table.cmds v.toNat).index g rest).result with
      | none => none
      | some (_, g', rest') =>
        ((table.mapIdx fun i _ => (func i).code).promptFrom g' rest').result := by
  obtain ⟨_, hcmd⟩ := Menu.func_of_select hselect hne
  have hfunc : ((table.mapIdx fun i _ => (func i).code).cmds v.toNat).func
      = some (func v.toNat).code := by
    show (table.cmds v.toNat).func.map _ = _
    rw [hcmd, Option.map_some]
  rw [Menu.promptFrom, Menu.select_mapIdx, hselect]
  dsimp only
  rw [if_neg hne, Menu.loop_selected _ hne hfunc]
  show (match ((func v.toNat).code.run (table.cmds v.toNat).index g rest).result with
    | none => (⟨[], none⟩ : Outcome G)
    | some (ret, g', rest') => _).result = _
  cases ((func v.toNat).code.run (table.cmds v.toNat).index g rest).result with
  | none => rfl
  | some returned => rfl

/-- From the prompt on, a menu that returns has been through its selections. -/
theorem during_of_promptFrom {table : Menu Unit} {func : ℕ → Action G} {index ret : ℤ} {g g' : G}
    {lines rest : List Line}
    (hrun : ((table.mapIdx fun i _ => (func i).code).promptFrom g lines).result
      = some (ret, g', rest)) : (menu table func).During index g lines g' := by
  induction hn : lines.length using Nat.strong_induction_on generalizing g lines with
  | _ n ih =>
    subst hn
    cases hselect : table.select lines with
    | none =>
      rw [Menu.promptFrom, Menu.select_mapIdx, hselect] at hrun
      cases hrun
    | some selected =>
      obtain ⟨v, rest₀⟩ := selected
      by_cases hzero : v = 0
      · rw [Menu.promptFrom, Menu.select_mapIdx, hselect] at hrun
        dsimp only at hrun
        rw [if_pos hzero] at hrun
        cases hrun
        exact .start _ _ _ _
      rw [result_promptFrom hselect hzero] at hrun
      split at hrun
      · cases hrun
      · next ret₁ g₁ rest₁ hresult =>
        have hlt := Menu.length_lt_of_select hselect
        have hle := ((func v.toNat).code.suffix hresult).length_le
        exact .later hselect hzero hresult (ih _ (Nat.lt_of_le_of_lt hle hlt) hrun rfl)

/-- **The end of a run is one of its moments.** -/
theorem during_of_code {a : Action G} {index ret : ℤ} {g g' : G} {lines rest : List Line}
    (hrun : (a.code.run index g lines).result = some (ret, g', rest)) :
    a.During index g lines g' := by
  induction a generalizing index ret g g' lines rest with
  | prim handler => exact .prim hrun
  | menu table func =>
    change (simpleCliList _ g lines).result = _ at hrun
    rw [simpleCliList, Menu.loop_zero] at hrun
    exact during_of_promptFrom hrun
  | andThen first next _ ihNext =>
    change (Outcome.bind _ _).result = _ at hrun
    dsimp only [Outcome.bind, Outcome.prepend] at hrun
    split at hrun
    · cases hrun
    · next ret₁ g₁ rest₁ hresult => exact .second hresult (ihNext ret₁ hrun)

/-! ### Functions of menus -/

/-- A handler that does nothing and returns. -/
def constant (ret : ℤ) : Action G := .prim {
  run := fun _ g lines => ⟨[], some (ret, g, lines)⟩
  suffix := by
    rintro index g lines ret g' rest ⟨⟩
    exact List.suffix_rfl }

/-- A function that returns `simple_cli_list(cmds)`. An entry's function is called with the entry's
index. -/
def list (table : ℕ) (title : List UInt8) (cmds : List (Entry (ℤ → Action G))) : Action G :=
  .menu (Menu.ofEntries table title (cmds.map fun e => ⟨e.string, e.index, e.func.map fun _ => ()⟩))
    fun i =>
      match cmds[i - 1]? with
      | some ⟨_, index, some func⟩ => func index
      | _ => constant 0

/-- What an entry of the list comes down to in the menu. -/
theorem exists_entry {table : ℕ} {title : List UInt8} {cmds : List (Entry (ℤ → Action G))} {i : ℕ}
    (hi : ((Menu.ofEntries table title (cmds.map fun e =>
      (⟨e.string, e.index, e.func.map fun _ => ()⟩ : Entry Unit))).cmds i).func ≠ none) :
    ∃ e ∈ cmds, ∃ func, e.func = some func ∧
      (match cmds[i - 1]? with
        | some ⟨_, index, some func⟩ => func index
        | _ => constant 0) = func e.index := by
  cases i with
  | zero => exact absurd rfl hi
  | succ i =>
    cases hget : cmds[i]? with
    | none => simp [Menu.ofEntries, hget] at hi
    | some e =>
      have hne : e.func ≠ none := by simpa [Menu.ofEntries, hget] using hi
      obtain ⟨string, index, func⟩ := e
      obtain ⟨func, rfl⟩ := Option.ne_none_iff_exists'.mp hne
      refine ⟨_, List.mem_of_getElem? hget, func, rfl, ?_⟩
      rw [Nat.add_sub_cancel, hget]

theorem Sat.list {J P : G → Prop} {table : ℕ} {title : List UInt8}
    {cmds : List (Entry (ℤ → Action G))} (hstart : ∀ g, P g → J g)
    (hfunc : ∀ e ∈ cmds, ∀ func, e.func = some func → Sat J P (func e.index) P) :
    Sat J P (Action.list table title cmds) P := by
  refine Sat.menu hstart ?_
  intro i hi
  obtain ⟨e, he, func, hsome, heq⟩ := exists_entry hi
  rw [heq]
  exact hfunc e he func hsome

/-- Typing the number of an entry gets into its function. -/
theorem During.list {table : ℕ} {title : List UInt8} {cmds : List (Entry (ℤ → Action G))}
    (hfits : cmds.length < 2 ^ 31 - 1) (i : ℕ) {e : Entry (ℤ → Action G)} {func : ℤ → Action G}
    (hget : cmds[i]? = some e) (hfunc : e.func = some func) {index : ℤ} {g g' : G}
    {lines : List Line} (hduring : (func e.index).During e.index g lines g') :
    (Action.list table title cmds).During index g (decimal (i + 1) :: lines) g' := by
  obtain ⟨string, index', _⟩ := e
  obtain rfl : _ = some func := hfunc
  have hlt := (List.getElem?_eq_some_iff.mp hget).1
  have hselect : (Menu.ofEntries table title (cmds.map fun e =>
      (⟨e.string, e.index, e.func.map fun _ => ()⟩ : Entry Unit))).select
        (decimal (i + 1) :: lines) = some (((i + 1 : ℕ) : ℤ), lines) := by
    rw [Menu.select_decimal (by rw [Menu.cmdcount_ofEntries, List.length_map]; omega), if_pos]
    refine .inr ⟨by rw [Menu.cmdcount_ofEntries, List.length_map]; omega, ?_⟩
    simp [Menu.ofEntries, hget]
  refine .inside hselect (by omega) ?_
  simp only [Int.toNat_natCast, Nat.add_sub_cancel, hget]
  simpa [Menu.ofEntries, hget] using hduring

/-- Every menu that the action can open can be read off the screen, whatever its handlers add to
their entries. -/
inductive Legible : Action G → Prop
  | prim (handler : Handler G) : Legible (.prim handler)
  | menu {table : Menu Unit} {func : ℕ → Action G}
      (htable : ∀ buffer, (∀ i, 0x0A ∉ buffer i) → table.Legible buffer)
      (hfunc : ∀ i, (table.cmds i).func ≠ none → Legible (func i)) : Legible (.menu table func)
  | andThen {first : Action G} {next : ℤ → Action G} (hfirst : Legible first)
      (hnext : ∀ ret, Legible (next ret)) : Legible (.andThen first next)

/-- A separator exactly if it has no function, and without a line feed. -/
def isPlain (e : Entry (ℤ → Action G)) : Bool :=
  (decide (e.string.headD 0 = byteOf '$') == e.func.isNone) && !e.string.contains 0x0A

theorem Legible.list {table : ℕ} {title : List UInt8} {cmds : List (Entry (ℤ → Action G))}
    (hfits : cmds.length < 2 ^ 31 - 1) (htitle : 0x0A ∉ title) (hplain : cmds.all isPlain = true)
    (hfunc : ∀ e ∈ cmds, ∀ func, e.func = some func → Legible (func e.index)) :
    Legible (Action.list table title cmds) := by
  refine .menu ?_ ?_
  · intro buffer hbuffer
    refine Menu.legible_ofEntries table (by simpa using hfits) htitle ?_ hbuffer
    intro e' he'
    obtain ⟨e, he, rfl⟩ := List.mem_map.mp he'
    have hentry := List.all_eq_true.mp hplain e he
    rw [isPlain, Bool.and_eq_true, beq_iff_eq, Bool.not_eq_true', List.contains_eq_mem,
      decide_eq_false_iff_not] at hentry
    refine ⟨?_, hentry.2⟩
    rw [Option.map_eq_none_iff, ← Option.isNone_iff_eq_none, ← hentry.1, decide_eq_true_iff]
  · intro i hi
    obtain ⟨e, he, func, hsome, heq⟩ := exists_entry hi
    rw [heq]
    exact hfunc e he func hsome

end Action

end Wise1511
