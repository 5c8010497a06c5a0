import Mathlib.Data.List.Basic
import Mathlib.Tactic.Common

/-!
# Mealy machines and what holds along a run

A deterministic machine with one output per input, run over a list of inputs. Nothing here knows
what the inputs are; radio packets, driver calls and key strokes all instantiate it.

Two questions are asked of a run, and each has one rule.

*Does every step meet a condition?* `Along` is that question as a recursion, and
`along_iff_of_invariant` is its rule: two step conditions that agree wherever an invariant holds
agree along the whole run. This is what turns an exact condition for one step into an exact
condition for a run.

*Do two machines stay together?* `Tracks` asks for equal outputs and related states after every
prefix, and `tracks_iff` reduces it to one step. The step hypothesis is an equivalence, so the
rule also says when the two machines first part.

## Main results

* `Mealy.along_iff_of_invariant`, `Mealy.after_of_invariant` — the invariant rules
* `Mealy.tracks_iff` — simulation of whole runs, exactly as long as the step condition holds
-/

/-- A deterministic machine: one input takes a state to the next state and an output. -/
structure Mealy (σ ι ω : Type*) where
  /-- One step. -/
  step : σ → ι → σ × ω

namespace Mealy

variable {σ τ ι ω : Type*} (M : Mealy σ ι ω) (N : Mealy τ ι ω)

/-- The state after a list of inputs. -/
def after : σ → List ι → σ
  | s, [] => s
  | s, i :: is => after (M.step s i).1 is

/-- The outputs along a list of inputs, one for each. -/
def outputs : σ → List ι → List ω
  | _, [] => []
  | s, i :: is => (M.step s i).2 :: outputs (M.step s i).1 is

/-- `P` holds of every state and input met along the run. -/
def Along (P : σ → ι → Prop) : σ → List ι → Prop
  | _, [] => True
  | s, i :: is => P s i ∧ Along P (M.step s i).1 is

@[simp] theorem after_nil (s : σ) : M.after s [] = s := rfl

@[simp] theorem after_cons (s : σ) (i : ι) (is : List ι) :
    M.after s (i :: is) = M.after (M.step s i).1 is := rfl

@[simp] theorem outputs_nil (s : σ) : M.outputs s [] = [] := rfl

@[simp] theorem outputs_cons (s : σ) (i : ι) (is : List ι) :
    M.outputs s (i :: is) = (M.step s i).2 :: M.outputs (M.step s i).1 is := rfl

@[simp] theorem along_nil (P : σ → ι → Prop) (s : σ) : M.Along P s [] := trivial

@[simp] theorem along_cons {P : σ → ι → Prop} {s : σ} {i : ι} {is : List ι} :
    M.Along P s (i :: is) ↔ P s i ∧ M.Along P (M.step s i).1 is := Iff.rfl

theorem after_append (s : σ) (is js : List ι) :
    M.after s (is ++ js) = M.after (M.after s is) js := by
  induction is generalizing s with
  | nil => rfl
  | cons i is ih => exact ih _

theorem outputs_append (s : σ) (is js : List ι) :
    M.outputs s (is ++ js) = M.outputs s is ++ M.outputs (M.after s is) js := by
  induction is generalizing s with
  | nil => rfl
  | cons i is ih => simp [ih]

@[simp] theorem length_outputs (s : σ) (is : List ι) : (M.outputs s is).length = is.length := by
  induction is generalizing s with
  | nil => rfl
  | cons i is ih => simp [ih]

theorem along_append {P : σ → ι → Prop} {s : σ} {is js : List ι} :
    M.Along P s (is ++ js) ↔ M.Along P s is ∧ M.Along P (M.after s is) js := by
  induction is generalizing s with
  | nil => exact ⟨fun h => ⟨trivial, h⟩, fun h => h.2⟩
  | cons i is ih =>
    rw [List.cons_append, along_cons, along_cons, ih, and_assoc]
    rfl

/-! ### What is met along a run -/

/-- What `f` makes of the states and inputs met along the run, where it makes anything of them. -/
def collect {κ : Type*} (f : σ → ι → Option κ) : σ → List ι → List κ
  | _, [] => []
  | s, i :: is => (f s i).toList ++ collect f (M.step s i).1 is

theorem collect_concat {κ : Type*} (f : σ → ι → Option κ) (s : σ) (is : List ι) (i : ι) :
    M.collect f s (is ++ [i]) = M.collect f s is ++ (f (M.after s is) i).toList := by
  induction is generalizing s with
  | nil => exact List.append_nil _
  | cons j is ih => rw [List.cons_append, collect, collect, ih, List.append_assoc, after_cons]

/-! ### Other inputs -/

/-- The machine over inputs that stand for its own. -/
def onInputs {κ : Type*} (f : κ → ι) : Mealy σ κ ω where
  step s k := M.step s (f k)

theorem after_onInputs {κ : Type*} (f : κ → ι) (s : σ) (ks : List κ) :
    (M.onInputs f).after s ks = M.after s (ks.map f) := by
  induction ks generalizing s with
  | nil => rfl
  | cons k ks ih => exact ih _

/-! ### Invariants -/

variable {M N}

/-- **Step conditions that agree under an invariant agree along runs.** Only steps meeting `Q`
have to keep the invariant: past the first step that does not, both sides are already false. -/
theorem along_iff_of_invariant {P Q : σ → ι → Prop} {Inv : σ → Prop}
    (hiff : ∀ s i, Inv s → (P s i ↔ Q s i)) (hkeep : ∀ s i, Inv s → Q s i → Inv (M.step s i).1)
    {s : σ} (hs : Inv s) (is : List ι) : M.Along P s is ↔ M.Along Q s is := by
  induction is generalizing s with
  | nil => exact Iff.rfl
  | cons i is ih =>
    rw [along_cons, along_cons, hiff s i hs]
    exact and_congr_right fun hq => ih (hkeep s i hs hq)

/-- What every step keeps holds after every run. -/
theorem after_of_invariant {Inv : σ → Prop} (hkeep : ∀ s i, Inv s → Inv (M.step s i).1) {s : σ}
    (hs : Inv s) (is : List ι) : Inv (M.after s is) := by
  induction is generalizing s with
  | nil => exact hs
  | cons i is ih => exact ih (hkeep s i hs)

/-- What every step on certain inputs keeps holds after every run over such inputs. -/
theorem after_of_invariant_of_mem {Inv : σ → Prop} {p : ι → Prop}
    (hkeep : ∀ s i, p i → Inv s → Inv (M.step s i).1) {s : σ} (hs : Inv s) {is : List ι}
    (his : ∀ i ∈ is, p i) : Inv (M.after s is) := by
  induction is generalizing s with
  | nil => exact hs
  | cons i is ih =>
    obtain ⟨hi, his⟩ := List.forall_mem_cons.mp his
    exact ih (hkeep s i hi hs) his

/-- What no step on certain inputs changes is the same after every run over such inputs. -/
theorem apply_after_of_mem {α : Type*} (f : σ → α) {p : ι → Prop}
    (hsame : ∀ s i, p i → f (M.step s i).1 = f s) (s : σ) {is : List ι} (his : ∀ i ∈ is, p i) :
    f (M.after s is) = f s := by
  induction is generalizing s with
  | nil => rfl
  | cons i is ih =>
    obtain ⟨hi, his⟩ := List.forall_mem_cons.mp his
    exact (ih (M.step s i).1 his).trans (hsame s i hi)

/-- Step conditions that agree everywhere agree along every run. -/
theorem along_congr {P Q : σ → ι → Prop} (hiff : ∀ s i, P s i ↔ Q s i) (s : σ) (is : List ι) :
    M.Along P s is ↔ M.Along Q s is := by
  have hPQ : P = Q := by
    funext s i
    exact propext (hiff s i)
  rw [hPQ]

/-- Two conditions at once. -/
theorem along_and {P Q : σ → ι → Prop} {s : σ} {is : List ι} :
    M.Along (fun s i => P s i ∧ Q s i) s is ↔ M.Along P s is ∧ M.Along Q s is := by
  induction is generalizing s with
  | nil => simp
  | cons i is ih =>
    rw [along_cons, along_cons, along_cons, ih]
    exact and_and_and_comm

/-- A condition on the inputs alone holds along a run exactly when it holds of every input. -/
theorem along_const_iff {p : ι → Prop} {s : σ} {is : List ι} :
    M.Along (fun _ i => p i) s is ↔ ∀ i ∈ is, p i := by
  induction is generalizing s with
  | nil => simp
  | cons i is ih => simp [ih]

/-- A condition that every input meets in every state holds along a run. -/
theorem along_of_forall {P : σ → ι → Prop} {is : List ι} (h : ∀ i ∈ is, ∀ s, P s i) (s : σ) :
    M.Along P s is := by
  induction is generalizing s with
  | nil => trivial
  | cons i is ih =>
    obtain ⟨hi, his⟩ := List.forall_mem_cons.mp h
    exact ⟨hi s, ih his _⟩

/-! ### Two machines side by side -/

variable (M N)

/-- Both machines take the step with the same output and into related states. -/
def Matches (R : σ → τ → Prop) (s : σ) (t : τ) (i : ι) : Prop :=
  (M.step s i).2 = (N.step t i).2 ∧ R (M.step s i).1 (N.step t i).1

/-- After every prefix of the inputs, the outputs so far are equal and the states related. -/
def Tracks (R : σ → τ → Prop) (s : σ) (t : τ) (is : List ι) : Prop :=
  ∀ pre, pre <+: is → M.outputs s pre = N.outputs t pre ∧ R (M.after s pre) (N.after t pre)

variable {M N} {R : σ → τ → Prop}

theorem Tracks.outputs_eq {s : σ} {t : τ} {is : List ι} (h : Tracks M N R s t is) :
    M.outputs s is = N.outputs t is :=
  (h is List.prefix_rfl).1

theorem tracks_cons_iff {s : σ} {t : τ} (hR : R s t) (i : ι) (is : List ι) :
    Tracks M N R s t (i :: is) ↔
      Matches M N R s t i ∧ Tracks M N R (M.step s i).1 (N.step t i).1 is := by
  constructor
  · intro h
    have hone := h [i] (List.prefix_append [i] is)
    refine ⟨⟨by simpa using hone.1, hone.2⟩, ?_⟩
    intro pre hpre
    have hcons := h (i :: pre) ((List.prefix_cons_inj i).mpr hpre)
    exact ⟨(List.cons.inj hcons.1).2, hcons.2⟩
  · rintro ⟨hstep, hrest⟩ pre hpre
    cases pre with
    | nil => exact ⟨rfl, hR⟩
    | cons j pre =>
      obtain ⟨rfl, htail⟩ := List.cons_prefix_cons.mp hpre
      obtain ⟨hout, hrel⟩ := hrest pre htail
      exact ⟨by rw [outputs_cons, outputs_cons, hstep.1, hout], hrel⟩

/-- **Simulation, exactly.** On inputs the second machine admits, let one step from related states
match precisely when `ok` holds. Then two runs stay together precisely when every step of the second
meets `ok`. -/
theorem tracks_iff {admits ok : τ → ι → Prop}
    (hstep : ∀ s t i, R s t → admits t i → (Matches M N R s t i ↔ ok t i))
    {s : σ} {t : τ} (hR : R s t) {is : List ι} (his : N.Along admits t is) :
    Tracks M N R s t is ↔ N.Along ok t is := by
  induction is generalizing s t with
  | nil =>
    refine iff_of_true ?_ trivial
    intro pre hpre
    rw [List.prefix_nil.mp hpre]
    exact ⟨rfl, hR⟩
  | cons i is ih =>
    obtain ⟨hi, his⟩ := his
    rw [tracks_cons_iff hR, along_cons, hstep s t i hR hi]
    refine and_congr_right ?_
    intro hok
    exact ih ((hstep s t i hR hi).mpr hok).2 his

/-- The common case of `tracks_iff`: every step from related states matches. -/
theorem tracks_of_simulation (hstep : ∀ s t i, R s t → Matches M N R s t i) {s : σ} {t : τ}
    (hR : R s t) (is : List ι) : Tracks M N R s t is := by
  have hall : N.Along (fun _ _ => True) t is := along_const_iff.mpr fun _ _ => trivial
  exact (tracks_iff (fun s t i h _ => iff_true_intro (hstep s t i h)) hR hall).mpr hall

end Mealy
