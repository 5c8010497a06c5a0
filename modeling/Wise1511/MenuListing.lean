import Wise1511.MenuInterpreter

/-!
# What a menu says on the screen

`simple_cli_list` prints its table before it prompts: a title in a box, a line for each entry, and
`0) Return`. An entry whose text starts with `$` has no line of its own; it is a separator or
nothing.

`offers` is the operator's side of it: the numbers at the beginnings of the lines, with the texts
behind them, read back from the bytes that were printed. In a table where just the separators are
without handler, the screen tells the truth. A number it offers, typed in, calls the handler of the
entry whose text stands behind it; a number it does not offer is not accepted.

## Main results

* `mem_offers_iff` — what is on the screen
* `select_decimal_of_offers` — and what becomes of it
-/

namespace Wise1511

variable {G H : Type}

/-! ### The table -/

/-- The ends of a line. -/
def crlf : List UInt8 := [0x0D, 0x0A]

/-- A literal of the program. -/
def literal (s : String) : List UInt8 := s.toList.map byteOf

/-- What `console_clrscr` prints. -/
def clrscr : List UInt8 := 0x1B :: literal "[2J" ++ 0x1B :: literal "[0;0H"

/-- A line across the box, as wide as the title needs it. -/
def ruleLine (c : Char) (title : List UInt8) : List UInt8 :=
  List.replicate 18 (byteOf c) ++ List.replicate title.length (byteOf c)
    ++ List.replicate 18 (byteOf c)

/-- The line of the title. -/
def titleLine (title : List UInt8) : List UInt8 :=
  literal "================[ " ++ title ++ literal " ]================"

/-- The `default` branch of `switch(cmdcount)`: the lines printed for an entry, with what its
handler has put into the buffer. -/
def entryLines (title : List UInt8) (cmdcount : ℕ) (string buffer : List UInt8) :
    List (List UInt8) :=
  if string.headD 0 ≠ byteOf '$' then
    if buffer.length = 0 then [0x09 :: decimal cmdcount ++ literal ") " ++ string]
    else [0x09 :: decimal cmdcount ++ literal ") " ++ string ++ buffer]
  else
    if string.getD 1 0 = byteOf '-' ∧ string.getD 2 0 = byteOf '-' ∧
        string.getD 3 0 = byteOf '-' then
      [ruleLine '-' title]
    else
      []

namespace Menu

variable (m : Menu H) (buffer : ℕ → List UInt8)

/-- The text of an entry. -/
def text (i : ℕ) : List UInt8 := (m.cmds i).string.getD []

/-- The lines printed for the entries. -/
def body : List (List UInt8) :=
  (List.range' 1 (m.cmdcount - 1)).flatMap fun i => entryLines (m.text 0) i (m.text i) (buffer i)

/-- All the lines. -/
def screen : List (List UInt8) :=
  [clrscr ++ ruleLine '=' (m.text 0), titleLine (m.text 0), ruleLine '=' (m.text 0)] ++
    m.body buffer ++ [0x09 :: literal "0) Return", []]

/-- What `simple_cli_list` prints before it prompts or calls. -/
def draw : List UInt8 := (m.screen buffer).flatMap fun line => line ++ crlf

end Menu

/-! ### Reading it -/

/-- The number a line offers, and the text behind it. -/
def offer (line : List UInt8) : Option (ℕ × List UInt8) :=
  match line with
  | 0x09 :: rest =>
    match rest.dropWhile fun b => IsDigit b with
    | 0x29 :: 0x20 :: text => some (leadingValue rest, text)
    | _ => none
  | _ => none

/-- What a screen offers. -/
def offers (screen : List UInt8) : List (ℕ × List UInt8) :=
  ((screen.splitOn 0x0A).map List.dropLast).filterMap offer

/-- Lines without line feeds are read back. -/
theorem splitOn_flatMap_crlf {lines : List (List UInt8)} (h : ∀ line ∈ lines, 0x0A ∉ line) :
    (lines.flatMap fun line => line ++ crlf).splitOn 0x0A
      = lines.map (fun line => line ++ [0x0D]) ++ [[]] := by
  induction lines with
  | nil => rfl
  | cons line lines ih =>
    obtain ⟨hline, hlines⟩ := List.forall_mem_cons.mp h
    have hfree : ∀ b ∈ line ++ [0x0D], (b == 0x0A) = false := by
      intro b hb
      rw [beq_eq_false_iff_ne]
      rintro rfl
      rcases List.mem_append.mp hb with hmem | hmem
      · exact hline hmem
      · exact absurd (List.mem_singleton.mp hmem) (by decide)
    have hsplit : line ++ crlf ++ (lines.flatMap fun line => line ++ crlf)
        = (line ++ [0x0D]) ++ 0x0A :: lines.flatMap fun line => line ++ crlf := by
      simp [crlf]
    rw [List.flatMap_cons, hsplit, List.splitOn_eq_splitOnP,
      List.splitOnP_append_cons_of_forall_mem hfree _ (by simp), ← List.splitOn_eq_splitOnP,
      ih hlines]
    rfl

theorem offers_flatMap_crlf {lines : List (List UInt8)} (h : ∀ line ∈ lines, 0x0A ∉ line) :
    offers (lines.flatMap fun line => line ++ crlf) = lines.filterMap offer := by
  have hback : (fun line : List UInt8 => (line ++ [0x0D]).dropLast) = id := by
    funext line
    exact List.dropLast_concat
  rw [offers, splitOn_flatMap_crlf h, List.map_append, List.map_map, List.filterMap_append]
  show List.filterMap offer (lines.map fun line => (line ++ [0x0D]).dropLast) ++ [] = _
  rw [hback, List.map_id, List.append_nil]

/-- A line of the table offers what it was printed from. -/
theorem offer_line (n : ℕ) (text : List UInt8) :
    offer (0x09 :: decimal n ++ literal ") " ++ text) = some (n, text) := by
  have hdigits : ∀ b ∈ decimal n, decide (IsDigit b) = true := fun b hb =>
    decide_eq_true (isDigit_of_mem_decimal hb)
  have hrest : decimal n ++ literal ") " ++ text = decimal n ++ 0x29 :: 0x20 :: text := by
    rw [List.append_assoc]
    rfl
  have hdrop : (decimal n ++ 0x29 :: 0x20 :: text).dropWhile (fun b => IsDigit b)
      = 0x29 :: 0x20 :: text := by
    rw [List.dropWhile_append_of_pos hdigits]
    rfl
  rw [List.cons_append, List.cons_append, hrest, offer, hdrop]
  have hstop : ¬ IsDigit 0x29 := by decide
  exact congrArg (fun v => some (v, text)) (leadingValue_decimal n hstop)

/-- A line that does not begin with a tab offers nothing. -/
theorem offer_of_headD_ne {line : List UInt8} (h : line.headD 0 ≠ 0x09) : offer line = none := by
  rw [offer.eq_def]
  split
  · exact absurd rfl h
  · rfl

theorem offer_ruleLine (c : Char) (hc : byteOf c ≠ 0x09) (title : List UInt8) :
    offer (ruleLine c title) = none := by
  refine offer_of_headD_ne ?_
  show byteOf c ≠ 0x09
  exact hc

/-- What the lines of an entry offer. -/
theorem filterMap_offer_entryLines (title : List UInt8) (i : ℕ) (string buffer : List UInt8) :
    (entryLines title i string buffer).filterMap offer
      = if string.headD 0 ≠ byteOf '$' then [(i, string ++ buffer)] else [] := by
  rw [entryLines]
  split_ifs with htext hbuffer hrule
  · rw [List.length_eq_zero_iff.mp hbuffer, List.append_nil]
    simp only [List.filterMap_cons, List.filterMap_nil, offer_line]
  · rw [List.append_assoc]
    simp only [List.filterMap_cons, List.filterMap_nil, offer_line]
  · simp only [List.filterMap_cons, List.filterMap_nil, offer_ruleLine '-' (by decide)]
  · rfl

/-! ### Line feeds -/

theorem notMem_decimal (n : ℕ) : 0x0A ∉ decimal n := by
  intro h
  exact absurd (isDigit_of_mem_decimal h) (by decide)

theorem notMem_ruleLine {c : Char} (hc : byteOf c ≠ 0x0A) (title : List UInt8) :
    0x0A ∉ ruleLine c title := by
  intro h
  simp only [ruleLine, List.mem_append, List.mem_replicate] at h
  exact hc (by tauto)

/-- The lines of an entry have no line feeds if its texts have none. -/
theorem notMem_entryLines (title : List UInt8) (i : ℕ) {string buffer : List UInt8}
    (hstring : 0x0A ∉ string) (hbuffer : 0x0A ∉ buffer) :
    ∀ line ∈ entryLines title i string buffer, 0x0A ∉ line := by
  have hparen : 0x0A ∉ literal ") " := by decide
  have htext : 0x0A ∉ 0x09 :: decimal i ++ literal ") " ++ string := by
    simp [notMem_decimal, hparen, hstring]
  intro line hline
  rw [entryLines] at hline
  split_ifs at hline
  · rw [List.mem_singleton.mp hline]
    exact htext
  · rw [List.mem_singleton.mp hline, List.mem_append]
    exact not_or.mpr ⟨htext, hbuffer⟩
  · rw [List.mem_singleton.mp hline]
    exact notMem_ruleLine (by decide) title
  · exact absurd hline List.not_mem_nil

/-! ### What is on the screen -/

namespace Menu

/-- A table that can be read off the screen: just the separators have no handler, nothing that is
printed has a line feed in it, and the entries are numbered in an `int`. -/
structure Legible (m : Menu H) (buffer : ℕ → List UInt8) : Prop where
  fits : m.cmdcount < 2 ^ 31
  separator : ∀ i, 0 < i → i < m.cmdcount →
    ((m.text i).headD 0 = byteOf '$' ↔ (m.cmds i).func = none)
  text : ∀ i < m.cmdcount, 0x0A ∉ m.text i
  buffer : ∀ i < m.cmdcount, 0x0A ∉ buffer i

variable {m : Menu H} {buffer : ℕ → List UInt8}

theorem cmdcount_pos (m : Menu H) : 0 < m.cmdcount := by
  rw [cmdcount, Nat.find_pos]
  exact m.titled

theorem Legible.notMem_screen (h : m.Legible buffer) : ∀ line ∈ m.screen buffer, 0x0A ∉ line := by
  have htitle := h.text 0 m.cmdcount_pos
  have hrule := notMem_ruleLine (c := '=') (by decide) (m.text 0)
  have hclear : 0x0A ∉ clrscr := by decide
  have hopen : 0x0A ∉ literal "================[ " := by decide
  have hclose : 0x0A ∉ literal " ]================" := by decide
  intro line hline
  simp only [screen, body, List.mem_append, List.mem_cons, List.not_mem_nil, or_false,
    List.mem_flatMap, List.mem_range'_1] at hline
  rcases hline with ((rfl | rfl | rfl) | ⟨i, hi, hline⟩) | rfl | rfl
  · simp [hclear, hrule]
  · simp [titleLine, hopen, htitle, hclose]
  · exact hrule
  · exact notMem_entryLines _ _ (h.text i (by omega)) (h.buffer i (by omega)) line hline
  · decide
  · decide

/-- **The screen offers** `0) Return`, and the entries with a handler, each with its text. -/
theorem mem_offers_iff (h : m.Legible buffer) {n : ℕ} {text : List UInt8} :
    (n, text) ∈ offers (m.draw buffer) ↔ (n = 0 ∧ text = literal "Return") ∨
      (0 < n ∧ n < m.cmdcount ∧ (m.cmds n).func ≠ none ∧ text = m.text n ++ buffer n) := by
  have hbox : [clrscr ++ ruleLine '=' (m.text 0), titleLine (m.text 0),
      ruleLine '=' (m.text 0)].filterMap offer = [] := by
    have hclear : offer (clrscr ++ ruleLine '=' (m.text 0)) = none :=
      offer_of_headD_ne (by show (0x1B : UInt8) ≠ 0x09; decide)
    have htitle : offer (titleLine (m.text 0)) = none :=
      offer_of_headD_ne (by show byteOf '=' ≠ 0x09; decide)
    simp only [List.filterMap_cons, List.filterMap_nil, hclear, htitle,
      offer_ruleLine '=' (by decide)]
  have hreturn : [0x09 :: literal "0) Return", []].filterMap offer = [(0, literal "Return")] := by
    decide
  rw [draw, offers_flatMap_crlf h.notMem_screen, screen, List.filterMap_append,
    List.filterMap_append, hbox, List.nil_append, hreturn, List.mem_append, List.mem_singleton,
    Prod.mk.injEq, or_comm, body, List.filterMap_flatMap]
  refine or_congr Iff.rfl ?_
  simp only [List.mem_flatMap, List.mem_range'_1, filterMap_offer_entryLines]
  constructor
  · rintro ⟨i, hi, hmem⟩
    split_ifs at hmem with hstring
    · obtain ⟨rfl, rfl⟩ := Prod.mk.inj (List.mem_singleton.mp hmem)
      exact ⟨hi.1, by omega, mt (h.separator n hi.1 (by omega)).mpr hstring, rfl⟩
    · exact absurd hmem List.not_mem_nil
  · rintro ⟨hpos, hlt, hfunc, rfl⟩
    refine ⟨n, by omega, ?_⟩
    rw [if_pos (mt (h.separator n hpos hlt).mp hfunc)]
    exact List.mem_singleton_self _

end Menu

/-! ### Tables as they are written down -/

/-- An entry of a table. -/
structure Entry (H : Type) where
  string : List UInt8
  index : ℤ
  func : Option H

/-- A separator. -/
def Entry.separator : Entry H := ⟨literal "$---", 0, none⟩

/-- The table with these entries. -/
def Menu.ofEntries (table : ℕ) (title : List UInt8) (entries : List (Entry H)) : Menu H where
  table := table
  cmds
    | 0 => ⟨some title, 0, none⟩
    | i + 1 =>
      match entries[i]? with
      | some e => ⟨some e.string, e.index, e.func⟩
      | none => ⟨none, 0, none⟩
  titled := Option.some_ne_none title
  terminated := ⟨entries.length + 1, by simp⟩

theorem Menu.cmdcount_ofEntries (table : ℕ) (title : List UInt8) (entries : List (Entry H)) :
    (Menu.ofEntries table title entries).cmdcount = entries.length + 1 := by
  rw [cmdcount, Nat.find_eq_iff]
  refine ⟨by simp [ofEntries], ?_⟩
  intro i hi
  cases i with
  | zero => exact Option.some_ne_none title
  | succ i => simp [ofEntries, show i < entries.length by omega]

/-- What makes such a table legible. -/
theorem Menu.legible_ofEntries (table : ℕ) {title : List UInt8} {entries : List (Entry H)}
    {buffer : ℕ → List UInt8} (hfits : entries.length < 2 ^ 31 - 1) (htitle : 0x0A ∉ title)
    (hentries : ∀ e ∈ entries, (e.string.headD 0 = byteOf '$' ↔ e.func = none) ∧ 0x0A ∉ e.string)
    (hbuffer : ∀ i, 0x0A ∉ buffer i) : (Menu.ofEntries table title entries).Legible buffer := by
  have hentry : ∀ i, (hi : i < entries.length) →
      (Menu.ofEntries table title entries).cmds (i + 1)
        = ⟨some entries[i].string, entries[i].index, entries[i].func⟩ := by
    intro i hi
    simp [ofEntries, hi]
  refine ⟨?_, ?_, ?_, fun i _ => hbuffer i⟩
  · rw [cmdcount_ofEntries]
    omega
  · intro i hpos hi
    rw [cmdcount_ofEntries] at hi
    obtain ⟨i, rfl⟩ := Nat.exists_eq_add_one_of_ne_zero hpos.ne'
    rw [text, hentry i (by omega)]
    exact (hentries _ (List.getElem_mem _)).1
  · intro i hi
    rw [cmdcount_ofEntries] at hi
    cases i with
    | zero => exact htitle
    | succ i =>
      rw [text, hentry i (by omega)]
      exact (hentries _ (List.getElem_mem _)).2

/-! ### Typing it back -/

namespace Menu

variable {m : Menu H} {buffer : ℕ → List UInt8}

/-- What becomes of a number that is typed as it is printed. -/
theorem select_decimal (hfits : m.cmdcount < 2 ^ 31) (n : ℕ) (lines : List Line) :
    m.select (decimal n :: lines) =
      if n = 0 ∨ (n < m.cmdcount ∧ (m.cmds n).func ≠ none) then some ((n : ℤ), lines)
      else m.select lines := by
  have hdigit : IsDigit ((decimal n).headD 0) := by
    obtain ⟨b, s, hbs⟩ := List.exists_cons_of_length_pos (length_decimal_pos n)
    rw [hbs]
    exact isDigit_of_mem_decimal (hbs ▸ List.mem_cons_self)
  have hvalue : leadingValue (decimal n) = n := by
    have hread := leadingValue_decimal n (s := []) (by decide)
    rwa [List.append_nil] at hread
  rw [select, if_neg (not_not.mpr hdigit), atoi_eq_selectedValue hdigit, selectedValue, hvalue]
  dsimp only
  by_cases hzero : n = 0
  · rw [hzero, if_pos (by decide), if_pos (.inl rfl)]
    rfl
  by_cases hlt : n < m.cmdcount
  · rw [Nat.min_eq_left (by omega), if_neg (by omega), if_neg (by omega), Int.toNat_natCast]
    cases hfunc : (m.cmds n).func with
    | none => simp [hzero]
    | some func => simp [hlt]
  · rw [if_neg (by omega), if_pos (by omega), if_neg (by omega)]

/-- **The screen tells what can be typed.** A number that is on the screen is accepted when it is
typed as it is printed, and selects the entry whose text stands behind it; any other number is
passed over. -/
theorem select_decimal_of_offers (h : m.Legible buffer) (n : ℕ) (lines : List Line) :
    ((∃ text, (n, text) ∈ offers (m.draw buffer)) →
      m.select (decimal n :: lines) = some ((n : ℤ), lines)) ∧
    ((¬ ∃ text, (n, text) ∈ offers (m.draw buffer)) →
      m.select (decimal n :: lines) = m.select lines) ∧
    ∀ text, (n, text) ∈ offers (m.draw buffer) → n ≠ 0 →
      n < m.cmdcount ∧ text = m.text n ++ buffer n := by
  have hoffered : (∃ text, (n, text) ∈ offers (m.draw buffer)) ↔
      n = 0 ∨ (n < m.cmdcount ∧ (m.cmds n).func ≠ none) := by
    simp only [mem_offers_iff h]
    constructor
    · rintro ⟨text, ⟨hzero, -⟩ | ⟨-, hlt, hfunc, -⟩⟩
      · exact .inl hzero
      · exact .inr ⟨hlt, hfunc⟩
    · rintro (hzero | ⟨hlt, hfunc⟩)
      · exact ⟨_, .inl ⟨hzero, rfl⟩⟩
      · rcases Nat.eq_zero_or_pos n with hzero | hpos
        · exact ⟨_, .inl ⟨hzero, rfl⟩⟩
        · exact ⟨_, .inr ⟨hpos, hlt, hfunc, rfl⟩⟩
  rw [hoffered, select_decimal h.fits]
  refine ⟨fun hn => if_pos hn, fun hn => if_neg hn, ?_⟩
  intro text htext hne
  rcases (mem_offers_iff h).mp htext with ⟨hzero, -⟩ | ⟨-, hlt, -, rfl⟩
  · exact absurd hzero hne
  · exact ⟨hlt, rfl⟩

/-- The menu of an analog input. -/
theorem select_decimal_of_offers_adc :
    let m : Menu Unit := Menu.ofEntries 0 (literal "ADC-IN Test") [⟨literal "Read", 2, some ()⟩]
    ((∃ text, (1, text) ∈ offers (m.draw fun _ => [])) →
      m.select (decimal 1 :: []) = some (((1 : ℕ) : ℤ), [])) ∧
    ((¬ ∃ text, (1, text) ∈ offers (m.draw fun _ => [])) →
      m.select (decimal 1 :: []) = m.select []) ∧
    ∀ text, (1, text) ∈ offers (m.draw fun _ => []) → 1 ≠ 0 →
      1 < m.cmdcount ∧ text = m.text 1 ++ [] := by
  intro m
  have hm : m.Legible fun _ => [] :=
    legible_ofEntries 0 (by decide) (by decide) (by simp; decide) fun _ => List.not_mem_nil
  exact select_decimal_of_offers hm 1 []

end Menu

end Wise1511
