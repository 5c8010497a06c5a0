import Wise1511.Lib.SpiBus

/-!
# From frames to transactions

A master program is a function of the whole bus: the device, the frame under way, and the record of
the frames before. Its caller thinks of the device alone. `SpiM.Implements x f` says that the caller
is right: on every bus, the program `x` returns what `f` returns from the device, and leaves the
device as `f` does. `f` is the *transaction* behind the frames.

The relation is closed under the ways programs are built, so a driver is taken from frames to
transactions one function at a time. A driver as a whole is then a machine over calls, and it tracks
the machine of its transactions over every list of calls: no frame has any bearing on a later one.

## Main results

* `SpiM.Implements.bind`, `SpiM.implements_frame` — programs from parts, and the smallest part
* `SpiM.tracks_of_implements` — whole runs
* `SpiM.Returns.bind` — programs from parts, where the parts may wait for ever
* `SpiM.Within.bind` — what holds of the device even where they do
-/

/-- Sequencing of transactions. -/
theorem StateM.run_seq {σ α β : Type} (f : StateM σ α) (g : α → StateM σ β) (c : σ) :
    (f >>= g).run c = (g (f.run c).1).run (f.run c).2 := rfl

namespace SpiM

variable {σ φ α β : Type}

/-- The program is the transaction, as far as result and device go. -/
def Implements (x : SpiM σ φ α) (f : StateM σ α) : Prop :=
  ∀ b, ((x.run b).1, (x.run b).2.dev) = f.run b.dev

theorem Implements.value {x : SpiM σ φ α} {f : StateM σ α} (h : Implements x f) (b : SpiBus σ φ) :
    (x.run b).1 = (f.run b.dev).1 :=
  congrArg Prod.fst (h b)

theorem Implements.dev {x : SpiM σ φ α} {f : StateM σ α} (h : Implements x f) (b : SpiBus σ φ) :
    (x.run b).2.dev = (f.run b.dev).2 :=
  congrArg Prod.snd (h b)

theorem Implements.congr {x : SpiM σ φ α} {f g : StateM σ α} (h : Implements x f)
    (hfg : ∀ c, f.run c = g.run c) : Implements x g := fun b => (h b).trans (hfg b.dev)

theorem implements_pure (a : α) : Implements (pure a : SpiM σ φ α) (pure a) := fun _ => rfl

/-- Programs run one after the other implement their transactions run one after the other. -/
theorem Implements.bind {x : SpiM σ φ α} {f : StateM σ α} (h : Implements x f)
    {k : α → SpiM σ φ β} {g : α → StateM σ β} (hk : ∀ a, Implements (k a) (g a)) :
    Implements (x >>= k) (f >>= g) := by
  intro b
  rw [run_bind, StateM.run_seq, ← h.value b, ← h.dev b]
  exact hk _ _

theorem Implements.map {x : SpiM σ φ α} {f : StateM σ α} (h : Implements x f) (g : α → β) :
    Implements (g <$> x) (g <$> f) := by
  intro b
  exact Prod.ext (congrArg g (h.value b)) (h.dev b)

theorem Implements.ite {p : Prop} [Decidable p] {x y : SpiM σ φ α} {f g : StateM σ α}
    (hx : Implements x f) (hy : Implements y g) :
    Implements (if p then x else y) (if p then f else g) := by
  split_ifs
  · exact hx
  · exact hy

/-- What the device does by itself is a transaction. -/
theorem implements_modify (air : σ → σ) :
    Implements (modify fun b => { b with dev := air b.dev } : SpiM σ φ Unit) (modify air) :=
  fun _ => rfl

/-- The answers of a whole frame, and the device after it. -/
def frameOf (S : SpiSlave σ φ) (bytes : List UInt8) (f : List UInt8 → α) : StateM σ α := fun c =>
  (f (S.outputs (c, S.start) bytes), (S.after (c, S.start) bytes).1)

/-- **A frame is a transaction**: a program that sends some bytes between one select and one
deselect, and returns a function of the answers. -/
theorem implements_frame {S : SpiSlave σ φ} {x : SpiM σ φ α} {bytes : List UInt8}
    {f : List UInt8 → α} (h : ∀ b, x.run b = (f (b.frameReplies S bytes), b.frame S bytes)) :
    Implements x (frameOf S bytes f) := by
  intro b
  rw [h]
  rfl

/-! ### Drivers -/

variable {ι ω : Type}

/-- A driver: a program for each call. -/
def driver (program : ι → SpiM σ φ ω) : Mealy (SpiBus σ φ) ι ω where
  step b i := (((program i).run b).2, ((program i).run b).1)

/-- The device as the driver's callers see it: a transaction for each call. -/
def transactions (transaction : ι → StateM σ ω) : Mealy σ ι ω where
  step c i := (((transaction i).run c).2, ((transaction i).run c).1)

@[simp] theorem after_transactions_cons (transaction : ι → StateM σ ω) (c : σ) (i : ι)
    (is : List ι) : (transactions transaction).after c (i :: is)
      = (transactions transaction).after ((transaction i).run c).2 is := rfl

/-- **Frame after frame, a driver stays with its transactions.** -/
theorem tracks_of_implements {program : ι → SpiM σ φ ω} {transaction : ι → StateM σ ω}
    (h : ∀ i, Implements (program i) (transaction i)) (b : SpiBus σ φ) (is : List ι) :
    Mealy.Tracks (driver program) (transactions transaction) (fun b c => b.dev = c) b b.dev is := by
  have hstep : ∀ (b : SpiBus σ φ) (c : σ) (i : ι), b.dev = c →
      Mealy.Matches (driver program) (transactions transaction) (fun b c => b.dev = c) b c i := by
    rintro b _ i rfl
    exact ⟨(h i).value b, (h i).dev b⟩
  exact Mealy.tracks_of_simulation hstep rfl is

/-! ### Programs that may not come back

A program that waits for the device may wait for ever. It is one with an optional result. -/

/-- Sequencing of programs that may not come back. -/
theorem run_bind_optionT (x : OptionT (SpiM σ φ) α) (k : α → OptionT (SpiM σ φ) β)
    (b : SpiBus σ φ) : (x >>= k).run.run b =
      match (x.run.run b).1 with
      | some a => (k a).run.run (x.run.run b).2
      | none => (none, (x.run.run b).2) := by
  rw [OptionT.run_bind, Option.elimM, run_bind]
  cases (x.run.run b).1 with
  | none => rfl
  | some a => rfl

/-- A program whose result is of no interest comes back when it does. -/
theorem run_discard_optionT (x : OptionT (SpiM σ φ) α) (b : SpiBus σ φ) :
    (discard x).run.run b = ((x.run.run b).1.map fun _ => (), (x.run.run b).2) := by
  have hbind : discard x = x >>= fun _ => pure () := rfl
  rw [hbind, run_bind_optionT]
  cases (x.run.run b).1 with
  | none => rfl
  | some a => rfl

/-- On a device that meets the condition the program comes back, as the transaction does; on any
other it does not come back. -/
structure Returns (x : OptionT (SpiM σ φ) α) (P : σ → Prop) (f : StateM σ α) : Prop where
  value : ∀ b, P b.dev → (x.run.run b).1 = some (f.run b.dev).1
  dev : ∀ b, P b.dev → (x.run.run b).2.dev = (f.run b.dev).2
  stuck : ∀ b, ¬ P b.dev → (x.run.run b).1 = none

namespace Returns

variable {P Q : σ → Prop}

theorem isSome_iff {x : OptionT (SpiM σ φ) α} {f : StateM σ α} (h : Returns x P f)
    (b : SpiBus σ φ) : (x.run.run b).1.isSome = true ↔ P b.dev := by
  by_cases hP : P b.dev
  · simp [h.value b hP, hP]
  · simp [h.stuck b hP, hP]

/-- Where it comes back, it is any program that implements the transaction. -/
theorem eq_of_implements {x : OptionT (SpiM σ φ) α} {f : StateM σ α} (h : Returns x P f)
    {y : SpiM σ φ α} (hy : Implements y f) (b : SpiBus σ φ) (hb : (x.run.run b).1.isSome = true) :
    (x.run.run b).1 = some (y.run b).1 ∧ (x.run.run b).2.dev = (y.run b).2.dev := by
  have hP := (h.isSome_iff b).mp hb
  rw [h.value b hP, h.dev b hP, hy.value, hy.dev]
  exact ⟨rfl, rfl⟩

theorem congr {x : OptionT (SpiM σ φ) α} {f g : StateM σ α} (h : Returns x P f)
    (hPQ : ∀ c, P c ↔ Q c) (hfg : ∀ c, P c → f.run c = g.run c) : Returns x Q g where
  value b hQ := by rw [h.value b ((hPQ _).mpr hQ), hfg _ ((hPQ _).mpr hQ)]
  dev b hQ := by rw [h.dev b ((hPQ _).mpr hQ), hfg _ ((hPQ _).mpr hQ)]
  stuck b hQ := h.stuck b fun hP => hQ ((hPQ _).mp hP)

/-- One after the other, the second on the device the first has left. -/
theorem bind {x : OptionT (SpiM σ φ) α} {f : StateM σ α} (h : Returns x P f)
    {k : α → OptionT (SpiM σ φ) β} {g : α → StateM σ β} {R : α → σ → Prop}
    (hk : ∀ a, Returns (k a) (R a) (g a)) :
    Returns (x >>= k) (fun c => P c ∧ R (f.run c).1 (f.run c).2) (f >>= g) where
  value b hb := by
    rw [run_bind_optionT, h.value b hb.1, StateM.run_seq, ← h.dev b hb.1]
    exact (hk _).value _ (h.dev b hb.1 ▸ hb.2)
  dev b hb := by
    rw [run_bind_optionT, h.value b hb.1, StateM.run_seq, ← h.dev b hb.1]
    exact (hk _).dev _ (h.dev b hb.1 ▸ hb.2)
  stuck b hb := by
    rw [run_bind_optionT]
    by_cases hP : P b.dev
    · rw [h.value b hP]
      exact (hk _).stuck _ fun hR => hb ⟨hP, h.dev b hP ▸ hR⟩
    · rw [h.stuck b hP]

theorem ite {p : Prop} [Decidable p] {x y : OptionT (SpiM σ φ) α} {f g : StateM σ α}
    (hx : Returns x P f) (hy : Returns y Q g) :
    Returns (if p then x else y) (fun c => if p then P c else Q c) (if p then f else g) := by
  split_ifs
  · exact hx
  · exact hy

end Returns

/-- A program of frames alone always comes back. -/
theorem Implements.returns {x : SpiM σ φ α} {f : StateM σ α} (h : Implements x f) :
    Returns (liftM x : OptionT (SpiM σ φ) α) (fun _ => True) f where
  value b _ := congrArg some (h.value b)
  dev b _ := h.dev b
  stuck _ hb := absurd trivial hb

theorem returns_pure (a : α) :
    Returns (pure a : OptionT (SpiM σ φ) α) (fun _ => True) (pure a) :=
  Implements.returns (implements_pure a)

/-! ### While a program waits

`Returns` says nothing about the device once a program is stuck. A triple with two outcomes does. -/

/-- From `P`, the device has `Q` if the program comes back, and `W` while it waits. -/
structure Within (P : σ → Prop) (x : OptionT (SpiM σ φ) α) (Q : α → σ → Prop) (W : σ → Prop) :
    Prop where
  returned : ∀ {b a}, P b.dev → (x.run.run b).1 = some a → Q a (x.run.run b).2.dev
  waiting : ∀ {b}, P b.dev → (x.run.run b).1 = none → W (x.run.run b).2.dev

namespace Within

variable {P P' : σ → Prop} {Q Q' : α → σ → Prop} {R : β → σ → Prop} {W W' : σ → Prop}

theorem weaken {x : OptionT (SpiM σ φ) α} (h : Within P x Q W) (hP : ∀ c, P' c → P c)
    (hQ : ∀ a c, Q a c → Q' a c) (hW : ∀ c, W c → W' c) : Within P' x Q' W' where
  returned hb hrun := hQ _ _ (h.returned (hP _ hb) hrun)
  waiting hb hrun := hW _ (h.waiting (hP _ hb) hrun)

/-- A program of frames alone does not wait. -/
theorem of_implements {x : SpiM σ φ α} {f : StateM σ α} (h : Implements x f)
    (hQ : ∀ c, P c → Q (f.run c).1 (f.run c).2) :
    Within P (liftM x : OptionT (SpiM σ φ) α) Q W where
  returned {b a} hb hrun := by
    have hvalue : (x.run b).1 = a := Option.some_inj.mp hrun
    have hpost := hQ b.dev hb
    rw [← h.value b, ← h.dev b, hvalue] at hpost
    exact hpost
  waiting _ hrun := absurd hrun (Option.some_ne_none _)

/-- Nor does any other that is known to come back. -/
theorem of_returns {x : OptionT (SpiM σ φ) α} {f : StateM σ α} (h : Returns x P' f)
    (hP : ∀ c, P c → P' c) (hQ : ∀ c, P c → Q (f.run c).1 (f.run c).2) : Within P x Q W where
  returned {b a} hb hrun := by
    have hvalue : (f.run b.dev).1 = a := Option.some_inj.mp ((h.value b (hP _ hb)).symm.trans hrun)
    have hpost := hQ b.dev hb
    rw [← h.dev b (hP _ hb), hvalue] at hpost
    exact hpost
  waiting {b} hb hrun := by
    rw [h.value b (hP _ hb)] at hrun
    cases hrun

theorem pure {a : α} (h : ∀ c, P c → Q a c) :
    Within P (pure a : OptionT (SpiM σ φ) α) Q W :=
  of_implements (implements_pure a) h

/-- One after the other: the whole waits where a part does. -/
theorem bind {x : OptionT (SpiM σ φ) α} (h : Within P x Q W) {k : α → OptionT (SpiM σ φ) β}
    (hk : ∀ a, Within (Q a) (k a) R W) : Within P (x >>= k) R W where
  returned {b a} hb hrun := by
    rw [run_bind_optionT] at hrun ⊢
    cases hx : (x.run.run b).1 with
    | none =>
      rw [hx] at hrun
      cases hrun
    | some a =>
      rw [hx] at hrun
      exact (hk a).returned (h.returned hb hx) hrun
  waiting {b} hb hrun := by
    rw [run_bind_optionT] at hrun ⊢
    cases hx : (x.run.run b).1 with
    | none => exact h.waiting hb hx
    | some a =>
      rw [hx] at hrun
      exact (hk a).waiting (h.returned hb hx) hrun

theorem discard {x : OptionT (SpiM σ φ) α} (h : Within P x Q W) {Q' : σ → Prop}
    (hQ : ∀ a c, Q a c → Q' c) : Within P (discard x) (fun _ => Q') W := by
  have hbind : Functor.discard x = x >>= fun _ => Pure.pure () := rfl
  exact hbind ▸ h.bind fun a => Within.pure (hQ a)

theorem ite {p : Prop} [Decidable p] {x y : OptionT (SpiM σ φ) α} (hx : Within P x Q W)
    (hy : Within P y Q W) : Within P (if p then x else y) Q W := by
  split_ifs
  · exact hx
  · exact hy

end Within

end SpiM
