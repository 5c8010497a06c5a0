import Wise1511.Lib.Strtol
import Wise1511.LineEditor

/-!
# Calls of the console into many buffers

`console_input` keeps the state of its key recogniser in static variables, and the count of pending
characters with the caller. The callers are many: each `simple_cli_list` that is running has a
buffer and a count of its own, and `GetChar_wait` and `GetInt_wait` share a static pair. A call that
returns 0 is repeated, by whichever loop made it.

Between calls nothing is pending anywhere and the recogniser is at rest: `Idle`. A call keeps this
because both of its exits clear the count and are reached with the recogniser reset, and the second
character of a key is only read after it has been written. So every call starts as the first one
did, and what it returns is a function of the bytes it reads, `replyOf`.

The calls are taken one by one, in any order, from any callers. A wait is such a succession
(`exists_serve_of_wait`), and what its caller then takes from the buffer is a function of the line:
the buffer behind the NUL still holds older bytes, but nobody looks there.

## Main results

* `consoleInput_spec` — one call
* `serve_spec` — every call of a succession, from start-up
* `waits_of_idle` — what the callers make of a line
-/

namespace Wise1511

/-! ### One call -/

/-- The bytes a call reads. -/
def consumed (c : Console) : List UInt8 → List UInt8
  | [] => []
  | b :: bs => b :: match consoleStep c b with
    | (c', .more) => consumed c' bs
    | _ => []

/-- The indices at which a call stores into its buffer, one for each byte. A NUL that ends the line
goes where its byte went. -/
def stores (c : Console) : List UInt8 → List ℕ
  | [] => []
  | b :: bs => c.words :: match consoleStep c b with
    | (c', .more) => stores c' bs
    | _ => []

/-- The value with which an editor ends, if it ends within these bytes. -/
def replyOf (e : Editor) : List UInt8 → Option Reply
  | [] => none
  | b :: bs => match editStep e b with
    | (e', .more) => replyOf e' bs
    | (_, r) => some r

/-- **What a turn can do.** It stores the byte at the count, and then goes on with a count that is
still inside the buffer, or reports an overflow, or ends the line in place of the byte. -/
theorem consoleStep_cases (c : Console) (b : UInt8) :
    let p := Function.update c.inbuf c.words b
    (∃ state secondChar words, consoleStep c b = (⟨state, secondChar, p, words⟩, .more) ∧
        (words ≤ c.words ∨ words < inbufSize)) ∨
      (∃ secondChar, consoleStep c b = (⟨.basicKey, secondChar, p, 0⟩, .overflow)) ∨
      ∃ secondChar, consoleStep c b = (⟨.basicKey, secondChar, Function.update p c.words 0, 0⟩,
        .line (CArray.slice p 0 c.words)) := by
  intro p
  have hbasic : ∀ c' : Console, c'.inbuf = p → c'.words = c.words →
      (∃ state secondChar words, c'.basic b = (⟨state, secondChar, p, words⟩, .more) ∧
          (words ≤ c.words ∨ words < inbufSize)) ∨
        (∃ secondChar, c'.basic b = (⟨.basicKey, secondChar, p, 0⟩, .overflow)) ∨
        ∃ secondChar, c'.basic b = (⟨.basicKey, secondChar, Function.update p c.words 0, 0⟩,
          .line (CArray.slice p 0 c.words)) := by
    rintro ⟨state, secondChar, inbuf, n⟩ rfl rfl
    simp only [Console.basic]
    split_ifs with hesc hend hdel hpos hfull
    · exact .inl ⟨_, _, c.words, rfl, .inl le_rfl⟩
    · exact .inr (.inr ⟨_, rfl⟩)
    · exact .inl ⟨_, _, _, rfl, .inl (Nat.sub_le c.words 1)⟩
    · exact .inl ⟨_, _, c.words, rfl, .inl le_rfl⟩
    · exact .inr (.inl ⟨_, rfl⟩)
    · exact .inl ⟨_, _, _, rfl, .inr (Nat.lt_of_not_le hfull)⟩
  simp only [consoleStep]
  split_ifs with henter hfirst hext
  · exact .inr (.inr ⟨_, rfl⟩)
  · exact .inl ⟨_, _, c.words, rfl, .inl le_rfl⟩
  · exact hbasic _ rfl rfl
  · exact hbasic _ rfl rfl

/-- A turn stores at the count and nowhere else. -/
theorem consoleStep_inbuf_of_ne (c : Console) (b : UInt8) {i : ℕ} (hi : i ≠ c.words) :
    (consoleStep c b).1.inbuf i = c.inbuf i := by
  rcases consoleStep_cases c b with ⟨_, _, _, h, -⟩ | ⟨_, h⟩ | ⟨_, h⟩
  · rw [h]
    exact Function.update_of_ne hi _ _
  · rw [h]
    exact Function.update_of_ne hi _ _
  · rw [h]
    exact (Function.update_of_ne hi _ _).trans (Function.update_of_ne hi _ _)

/-- The count stays inside the buffer. -/
theorem consoleStep_words_lt {c : Console} (hc : c.words < inbufSize) (b : UInt8) :
    (consoleStep c b).1.words < inbufSize := by
  rcases consoleStep_cases c b with ⟨_, _, words, h, hwords⟩ | ⟨_, h⟩ | ⟨_, h⟩
  · rw [h]
    show words < inbufSize
    omega
  · rw [h]
    exact Nat.lt_of_le_of_lt (Nat.zero_le _) hc
  · rw [h]
    exact Nat.lt_of_le_of_lt (Nat.zero_le _) hc

/-- A turn that returns leaves nothing pending and the recogniser at rest. -/
theorem consoleStep_of_returned {c : Console} {b : UInt8} (hr : (consoleStep c b).2 ≠ .more) :
    (consoleStep c b).1.words = 0 ∧ (consoleStep c b).1.state = .basicKey := by
  rcases consoleStep_cases c b with ⟨_, _, _, h, -⟩ | ⟨_, h⟩ | ⟨_, h⟩
  · rw [h] at hr
    exact absurd rfl hr
  · rw [h]
    exact ⟨rfl, rfl⟩
  · rw [h]
    exact ⟨rfl, rfl⟩

/-- A line is as long as the count was. -/
theorem length_of_consoleStep_line {c : Console} {b : UInt8} {text : List UInt8}
    (hr : (consoleStep c b).2 = .line text) : text.length = c.words := by
  rcases consoleStep_cases c b with ⟨_, _, _, h, -⟩ | ⟨_, h⟩ | ⟨_, h⟩
  · rw [h] at hr
    cases hr
  · rw [h] at hr
    cases hr
  · rw [h] at hr
    cases hr
    exact CArray.length_slice _ _ _

/-- What a call leaves when it returns. -/
structure Returned (c c' : Console) (r : Reply) : Prop where
  /-- Nothing is pending. -/
  words : c'.words = 0
  /-- The recogniser is at rest. -/
  state : c'.state = .basicKey
  /-- A line stands in the buffer with a NUL behind it. -/
  holds : HoldsLine c' r
  /-- And fits into it. -/
  fits : ∀ text, r = .line text → text.length < inbufSize
  /-- Behind the buffer nothing has changed. -/
  frame : ∀ i, inbufSize ≤ i → c'.inbuf i = c.inbuf i

theorem stores_lt {c : Console} (hc : c.words < inbufSize) (bs : List UInt8) :
    ∀ i ∈ stores c bs, i < inbufSize := by
  induction bs generalizing c with
  | nil => exact fun i hi => absurd hi List.not_mem_nil
  | cons b bs ih =>
    have hnext := consoleStep_words_lt hc b
    rw [stores]
    intro i hi
    rcases List.mem_cons.mp hi with rfl | hi
    · exact hc
    · split at hi
      · next c' hstep =>
        rw [hstep] at hnext
        exact ih hnext i hi
      · exact absurd hi List.not_mem_nil

/-- **One call**, from a count inside the buffer: what it reads, what it returns, and what it leaves
behind if it returns. -/
theorem consoleInput_spec {c : Console} (hc : c.words < inbufSize) (bs : List UInt8) :
    match consoleInput c bs with
    | .reading _ => consumed c bs = bs ∧ replyOf c.abs bs = none
    | .returned r c' rest =>
      consumed c bs ++ rest = bs ∧ replyOf c.abs (consumed c bs) = some r ∧ Returned c c' r := by
  induction bs generalizing c with
  | nil => exact ⟨rfl, rfl⟩
  | cons b bs ih =>
    have habs := consoleStep_abs c b
    have hnext := consoleStep_words_lt hc b
    have hframe : ∀ i, inbufSize ≤ i → (consoleStep c b).1.inbuf i = c.inbuf i := fun i hi =>
      consoleStep_inbuf_of_ne c b (by omega)
    have hreturned : (consoleStep c b).2 ≠ .more →
        Returned c (consoleStep c b).1 (consoleStep c b).2 := by
      intro hr
      obtain ⟨hwords, hstate⟩ := consoleStep_of_returned hr
      refine ⟨hwords, hstate, holdsLine_consoleStep c b, ?_, hframe⟩
      intro text htext
      rw [length_of_consoleStep_line htext]
      exact hc
    rw [consoleInput, consumed]
    generalize consoleStep c b = q at habs hnext hframe hreturned ⊢
    obtain ⟨c', r⟩ := q
    cases r with
    | more =>
      have hrest := ih hnext
      dsimp only at hframe ⊢
      rw [replyOf, ← habs]
      generalize consoleInput c' bs = result at hrest
      cases result with
      | reading c'' => exact ⟨congrArg (b :: ·) hrest.1, hrest.2⟩
      | returned r c'' rest =>
        obtain ⟨hbytes, hreply, hret⟩ := hrest
        refine ⟨congrArg (b :: ·) hbytes, ?_, hret.words, hret.state, hret.holds, hret.fits, ?_⟩
        · rw [replyOf, ← habs]
          exact hreply
        · exact fun i hi => (hret.frame i hi).trans (hframe i hi)
    | line text =>
      refine ⟨rfl, ?_, hreturned Reply.noConfusion⟩
      rw [replyOf, ← habs]
    | overflow =>
      refine ⟨rfl, ?_, hreturned Reply.noConfusion⟩
      rw [replyOf, ← habs]

/-! ### Successions of calls -/

variable {κ : Type}

/-- The static variables of `console_input`, and the buffers and counts of its callers: `some k` for
the menu `k`, and `none` for the pair that `GetChar_wait` and `GetInt_wait` share. -/
structure Consoles (κ : Type) where
  state : KeyState
  secondChar : UInt8
  inbuf : Option κ → CArray
  words : Option κ → ℕ

/-- A call of `console_input`. -/
inductive InputCall (κ : Type) where
  /-- The first one of `console_input_wait` in a menu. The menu has cleared its count, and its
  buffer holds whatever was left there. -/
  | first (menu : κ) (inbuf : CArray)
  /-- Any other: the caller's buffer and count are used as they are. -/
  | again (caller : Option κ)

/-- Whose buffer the call gets. -/
def InputCall.caller : InputCall κ → Option κ
  | .first menu _ => some menu
  | .again caller => caller

/-- A call that has been made: its caller, the variables it started with, where it stored, what it
read, what it returned if it has, and the variables after it. -/
structure InputRun (κ : Type) where
  caller : Option κ
  before : Console
  stores : List ℕ
  bytes : List UInt8
  reply : Option Reply
  after : Consoles κ

namespace Consoles

/-- At start-up every count is zero. -/
def powerOn (secondChar : UInt8) (inbuf : Option κ → CArray) : Consoles κ :=
  ⟨.basicKey, secondChar, inbuf, fun _ => 0⟩

/-- The variables a call by this caller works on. -/
def view (w : Consoles κ) (k : Option κ) : Console :=
  ⟨w.state, w.secondChar, w.inbuf k, w.words k⟩

/-- Nothing is pending anywhere and the recogniser is at rest. -/
structure Idle (w : Consoles κ) : Prop where
  state : w.state = .basicKey
  words : ∀ k, w.words k = 0

theorem idle_powerOn (secondChar : UInt8) (inbuf : Option κ → CArray) :
    (powerOn secondChar inbuf).Idle := ⟨rfl, fun _ => rfl⟩

/-- To every caller an idle console is an empty line. -/
theorem Idle.view_abs {w : Consoles κ} (h : w.Idle) (k : Option κ) :
    (w.view k).abs = Editor.start := by
  rw [Console.abs, view, h.state, h.words]
  rfl

variable [DecidableEq κ]

/-- Write the variables back. -/
def put (w : Consoles κ) (k : Option κ) (c : Console) : Consoles κ where
  state := c.state
  secondChar := c.secondChar
  inbuf := Function.update w.inbuf k c.inbuf
  words := Function.update w.words k c.words

@[simp] theorem state_put (w : Consoles κ) (k : Option κ) (c : Console) :
    (w.put k c).state = c.state := rfl

@[simp] theorem inbuf_put (w : Consoles κ) (k : Option κ) (c : Console) :
    (w.put k c).inbuf k = c.inbuf := by
  simp [put]

@[simp] theorem words_put (w : Consoles κ) (k : Option κ) (c : Console) :
    (w.put k c).words k = c.words := by
  simp [put]

@[simp] theorem view_put (w : Consoles κ) (k : Option κ) (c : Console) :
    (w.put k c).view k = c := by
  simp [view, put]

@[simp] theorem put_put (w : Consoles κ) (k : Option κ) (c c' : Console) :
    (w.put k c).put k c' = w.put k c' := by
  simp [put]

/-- A caller that leaves nothing pending leaves the console idle. -/
theorem Idle.put {w : Consoles κ} (h : w.Idle) (k : Option κ) {c : Console} (hwords : c.words = 0)
    (hstate : c.state = .basicKey) : (w.put k c).Idle := by
  refine ⟨hstate, fun j => ?_⟩
  by_cases hj : j = k
  · rw [hj, words_put, hwords]
  · exact (Function.update_of_ne hj _ _).trans (h.words j)

/-- What the caller does before the call. -/
def begin (w : Consoles κ) : InputCall κ → Consoles κ
  | .first menu inbuf =>
    { w with
      inbuf := Function.update w.inbuf (some menu) inbuf
      words := Function.update w.words (some menu) 0 }
  | .again _ => w

theorem Idle.begin {w : Consoles κ} (h : w.Idle) (call : InputCall κ) : (w.begin call).Idle := by
  cases call with
  | again caller => exact h
  | first menu inbuf =>
    exact h.put (some menu) (c := ⟨w.state, w.secondChar, inbuf, 0⟩) rfl h.state

end Consoles

variable [DecidableEq κ]

/-- The calls, one after another, on a stream of bytes. The last one may still be reading. -/
def serve (w : Consoles κ) : List (InputCall κ) → List UInt8 → List (InputRun κ)
  | [], _ => []
  | call :: calls, bs =>
    let w := w.begin call
    let c := w.view call.caller
    match consoleInput c bs with
    | .reading c' =>
      [⟨call.caller, c, stores c bs, consumed c bs, none, w.put call.caller c'⟩]
    | .returned r c' rest =>
      ⟨call.caller, c, stores c bs, consumed c bs, some r, w.put call.caller c'⟩
        :: serve (w.put call.caller c') calls rest

/-- What holds of every call. -/
structure RunSpec (run : InputRun κ) : Prop where
  /-- Every store is inside the buffer. -/
  stores : ∀ i ∈ run.stores, i < inbufSize
  /-- What it returns is a function of the bytes it has read. -/
  reply : run.reply = replyOf Editor.start run.bytes
  /-- When it returns, the count is zero, the recogniser is at rest, and no byte behind the buffer
  has changed. -/
  returned : run.reply ≠ none → run.after.words run.caller = 0 ∧ run.after.state = .basicKey ∧
    ∀ i, inbufSize ≤ i → run.after.inbuf run.caller i = run.before.inbuf i
  /-- A line delivered stands in the caller's buffer, with its NUL. -/
  delivered : ∀ text, run.reply = some (.line text) → text.length < inbufSize ∧
    CArray.slice (run.after.inbuf run.caller) 0 text.length = text ∧
    run.after.inbuf run.caller text.length = 0

/-- A call from an empty line that is still reading. -/
theorem runSpec_of_reading (w : Consoles κ) (k : Option κ) {c : Console} (c' : Console)
    {bs : List UInt8} (habs : c.abs = Editor.start) (hstores : ∀ i ∈ stores c bs, i < inbufSize)
    (hreply : replyOf c.abs (consumed c bs) = none) :
    RunSpec ⟨k, c, stores c bs, consumed c bs, none, w.put k c'⟩ := by
  refine ⟨hstores, ?_, fun h => absurd rfl h, ?_⟩
  · rw [← habs]
    exact hreply.symm
  · rintro text ⟨⟩

/-- A call from an empty line that has returned. -/
theorem runSpec_of_returned (w : Consoles κ) (k : Option κ) {c c' : Console} {r : Reply}
    {bs : List UInt8} (habs : c.abs = Editor.start) (hstores : ∀ i ∈ stores c bs, i < inbufSize)
    (hreply : replyOf c.abs (consumed c bs) = some r) (hret : Returned c c' r) :
    RunSpec ⟨k, c, stores c bs, consumed c bs, some r, w.put k c'⟩ := by
  refine ⟨hstores, ?_, fun _ => ⟨?_, hret.state, ?_⟩, ?_⟩
  · rw [← habs]
    exact hreply.symm
  · rw [Consoles.words_put, hret.words]
  · rw [Consoles.inbuf_put]
    exact hret.frame
  · rintro text ⟨⟩
    rw [Consoles.inbuf_put]
    exact ⟨hret.fits text rfl, hret.holds⟩

/-- A succession of calls from an idle console. -/
theorem serve_of_idle {w : Consoles κ} (hw : w.Idle) (calls : List (InputCall κ))
    (bs : List UInt8) : (serve w calls bs).flatMap InputRun.bytes <+: bs ∧
      ∀ run ∈ serve w calls bs, RunSpec run := by
  induction calls generalizing w bs with
  | nil => exact ⟨List.nil_prefix, fun run hrun => absurd hrun List.not_mem_nil⟩
  | cons call calls ih =>
    have hidle := hw.begin call
    have habs := hidle.view_abs call.caller
    have hwords : ((w.begin call).view call.caller).words < inbufSize := by
      show (w.begin call).words call.caller < inbufSize
      rw [hidle.words]
      decide
    have hstores := stores_lt hwords bs
    have hspec := consoleInput_spec hwords bs
    rw [serve]
    generalize (w.begin call).view call.caller = c at habs hstores hspec ⊢
    generalize consoleInput c bs = result at hspec
    cases result with
    | reading c' =>
      obtain ⟨hbytes, hreply⟩ := hspec
      refine ⟨?_, fun run hrun => ?_⟩
      · rw [List.flatMap_singleton]
        exact ⟨[], (List.append_nil _).trans hbytes⟩
      · rw [← hbytes] at hreply
        obtain rfl := List.mem_singleton.mp hrun
        exact runSpec_of_reading _ _ c' habs hstores hreply
    | returned r c' rest =>
      obtain ⟨hbytes, hreply, hret⟩ := hspec
      obtain ⟨hpre, hall⟩ := ih (hidle.put call.caller hret.words hret.state) rest
      refine ⟨?_, fun run hrun => ?_⟩
      · have hmore := (List.prefix_append_right_inj (consumed c bs)).mpr hpre
        rw [hbytes] at hmore
        exact hmore
      · rcases List.mem_cons.mp hrun with rfl | hrun
        · exact runSpec_of_returned _ _ habs hstores hreply hret
        · exact hall run hrun

/-- **Every call of a succession, from start-up.** Whoever calls and with whichever buffer: the
calls read the stream in order, every store is inside the buffer, every return leaves the count at
zero and the recogniser at rest, a line delivered ends inside its buffer, and what a call returns
depends only on the bytes it has read. -/
theorem serve_spec (secondChar : UInt8) (inbuf : Option κ → CArray) (calls : List (InputCall κ))
    (bs : List UInt8) :
    (serve (Consoles.powerOn secondChar inbuf) calls bs).flatMap InputRun.bytes <+: bs ∧
      ∀ run ∈ serve (Consoles.powerOn secondChar inbuf) calls bs, RunSpec run :=
  serve_of_idle (Consoles.idle_powerOn secondChar inbuf) calls bs

/-- A wait is a succession of calls with one buffer: its line is that of the last of them. -/
theorem exists_serve_of_wait {w : Consoles κ} {k : Option κ} {bs rest : List UInt8} {c' : Console}
    {text : List UInt8} (h : consoleInputWait (w.view k) bs = .returned (.line text) c' rest) :
    ∃ n run, (serve w (List.replicate (n + 1) (.again k)) bs).getLast? = some run ∧
      run.caller = k ∧ run.reply = some (.line text) ∧ run.after = w.put k c' := by
  -- on what a call that has overflowed leaves unread
  induction hn : bs.length using Nat.strong_induction_on generalizing w bs with
  | _ n ih =>
    rw [consoleInputWait_eq] at h
    cases hcall : consoleInput (w.view k) bs with
    | reading c =>
      rw [hcall] at h
      cases h
    | returned r c rest' =>
      rw [hcall] at h
      have hserve : ∀ calls, serve w (.again k :: calls) bs =
          ⟨k, w.view k, stores (w.view k) bs, consumed (w.view k) bs, some r, w.put k c⟩
            :: serve (w.put k c) calls rest' := by
        intro calls
        rw [serve]
        simp only [Consoles.begin, InputCall.caller, hcall]
      have hagain : consoleInputWait c rest' = .returned (.line text) c' rest →
          ∃ n run, (serve w (List.replicate (n + 1) (.again k)) bs).getLast? = some run ∧
            run.caller = k ∧ run.reply = some (.line text) ∧ run.after = w.put k c' := by
        intro hwait
        rw [← Consoles.view_put w k c] at hwait
        obtain ⟨m, run, hlast, hcaller, hreply, hafter⟩ :=
          ih rest'.length (hn ▸ length_lt_of_consoleInput hcall) hwait rfl
        rw [Consoles.put_put] at hafter
        refine ⟨m + 1, run, ?_, hcaller, hreply, hafter⟩
        rw [List.replicate_succ, hserve, List.getLast?_cons, hlast]
        rfl
      cases r with
      | more => exact hagain h
      | overflow => exact hagain h
      | line t =>
        cases h
        exact ⟨0, _, congrArg List.getLast? (hserve []), rfl, rfl, rfl⟩

/-! ### What the callers take -/

/-- After a line the buffer is that line, a NUL, and whatever was there before. -/
theorem exists_buffer_eq {c : Console} {text : List UInt8} (h : HoldsLine c (.line text))
    (hfits : text.length < inbufSize) :
    ∃ behind, CArray.slice c.inbuf 0 inbufSize = text ++ 0 :: behind := by
  obtain ⟨hslice, hnul⟩ := h
  obtain ⟨k, hk⟩ := Nat.exists_eq_add_of_lt hfits
  refine ⟨CArray.slice c.inbuf (text.length + 1) k, ?_⟩
  rw [hk, Nat.add_assoc, CArray.slice_add, hslice, Nat.zero_add, CArray.slice_succ, hnul]

namespace Consoles

variable {α : Type}

/-- Wait for a line, and take something from the buffer. -/
def waitFor (w : Consoles κ) (k : Option κ) (take : CArray → α) (bs : List UInt8) :
    Option (α × Consoles κ × List UInt8) :=
  match consoleInputWait (w.view k) bs with
  | .returned (.line _) c rest => some (take c.inbuf, w.put k c, rest)
  | _ => none

/-- `GetChar_wait`: `buf[0]`. -/
def getCharWait (w : Consoles κ) : List UInt8 → Option (UInt8 × Consoles κ × List UInt8) :=
  w.waitFor none fun buf => buf 0

/-- `GetInt_wait`: `strtol(buf, NULL, 0)`. -/
def getIntWait (w : Consoles κ) : List UInt8 → Option (ℤ × Consoles κ × List UInt8) :=
  w.waitFor none fun buf => strtol (buf.slice 0 inbufSize)

/-- The `console_input_wait` of a menu, which looks at `buffer[0]` and `atoi(buffer)`. -/
def menuWait (w : Consoles κ) (menu : κ) :
    List UInt8 → Option ((UInt8 × ℤ) × Consoles κ × List UInt8) :=
  w.waitFor (some menu) fun buffer => (buffer 0, atoi (buffer.slice 0 inbufSize))

/-- The line that is waited for. -/
def lineWait (w : Consoles κ) (k : Option κ) (bs : List UInt8) :
    Option (List UInt8 × Consoles κ × List UInt8) :=
  match consoleInputWait (w.view k) bs with
  | .returned (.line text) c rest => some (text, w.put k c, rest)
  | _ => none

end Consoles

/-- A wait leaves the console idle, and its buffer holds the line. -/
theorem wait_of_idle {w : Consoles κ} (hw : w.Idle) {k : Option κ} {bs rest : List UInt8}
    {c' : Console} {text : List UInt8}
    (h : consoleInputWait (w.view k) bs = .returned (.line text) c' rest) :
    (w.put k c').Idle ∧ ∃ behind, CArray.slice c'.inbuf 0 inbufSize = text ++ 0 :: behind := by
  obtain ⟨n, run, hlast, hcaller, hreply, hafter⟩ := exists_serve_of_wait h
  have hspec := (serve_of_idle hw _ bs).2 run (List.mem_of_getLast? hlast)
  obtain ⟨hwords, hstate, -⟩ := hspec.returned (by rw [hreply]; exact Option.some_ne_none _)
  obtain ⟨hfits, hslice, hnul⟩ := hspec.delivered text hreply
  rw [hafter, Consoles.state_put] at hstate
  rw [hcaller, hafter, Consoles.words_put] at hwords
  rw [hcaller, hafter, Consoles.inbuf_put] at hslice hnul
  exact ⟨hw.put k hwords hstate, exists_buffer_eq ⟨hslice, hnul⟩ hfits⟩

/-- What a caller takes from the buffer is a function of the line, if it looks no further than the
NUL. -/
theorem waitFor_of_idle {α : Type} {w : Consoles κ} (hw : w.Idle) (k : Option κ)
    {take : CArray → α} {value : List UInt8 → α}
    (htake : ∀ {p : CArray} {text behind : List UInt8},
      p.slice 0 inbufSize = text ++ 0 :: behind → take p = value text) (bs : List UInt8) :
    w.waitFor k take bs = (w.lineWait k bs).map (Prod.map value id) := by
  rw [Consoles.waitFor, Consoles.lineWait]
  split
  · next hwait =>
    obtain ⟨-, behind, hbuffer⟩ := wait_of_idle hw hwait
    rw [htake hbuffer]
    rfl
  · rfl

theorem head_of_buffer {p : CArray} {text behind : List UInt8}
    (h : p.slice 0 inbufSize = text ++ 0 :: behind) : p 0 = text.headD 0 := by
  have hhead := congrArg (List.headD · 0) h
  cases text with
  | nil => exact hhead
  | cons b text => exact hhead

/-- **The waits by the line that is typed.** `GetChar_wait` returns its first character, or a NUL,
and `GetInt_wait` its value; and a menu looks at its first character and its decimal value. -/
theorem waits_of_idle {w : Consoles κ} (hw : w.Idle) (menu : κ) (bs : List UInt8) :
    w.getCharWait bs = (w.lineWait none bs).map (Prod.map (List.headD · 0) id) ∧
      w.getIntWait bs = (w.lineWait none bs).map (Prod.map strtol id) ∧
      w.menuWait menu bs = (w.lineWait (some menu) bs).map
        (Prod.map (fun text => (text.headD 0, atoi text)) id) := by
  refine ⟨waitFor_of_idle hw none head_of_buffer bs, waitFor_of_idle hw none ?_ bs,
    waitFor_of_idle hw (some menu) ?_ bs⟩
  · intro p text behind h
    rw [h, strtol_append_nul]
  · intro p text behind h
    rw [head_of_buffer h, h, atoi_append_nul]

end Wise1511
