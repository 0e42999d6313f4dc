import Mathlib.Logic.Function.Basic
import Mathlib.Data.List.Basic

/-!
# Components that replay their histories

A **system of components** `κ` runs one step function `step` on a state for each component. An
input goes to one component, changes the state of that component only, and shows some outputs.
A **history** is the list of what happened, the newest entry first: the component, its input and
the outputs it showed.

* `after`: the states after a history. `Honest`: the history shows the outputs that `step` gives.
* `Along P`: `P` holds of each input, in the state of its component before it.
* `along_invariant`, `outputs_invariant`: an invariant of one component, with the outputs it has
  shown so far. The hypothesis is one step, the conclusion is every history. `along_outputs`: what
  it says of each input.
* `withGhost`: a ghost beside each state, which the inputs write and no step reads.
* `unwinding`: two histories that give one component the same inputs (up to a view `f` of the
  inputs) show the same outputs of it, if a relation of its states is kept by one step. The
  histories may differ in everything they give to the other components.
-/

namespace History

/-- The component `comp` took the input `inp` and showed the outputs `out`. -/
structure Entry (κ ι ο : Type) where
  comp : κ
  inp : ι
  out : List ο

variable {κ σ ι ι' ο : Type} [DecidableEq κ] (step : κ → σ → ι → σ × List ο)

/-- The states of the components after a history that starts in `s`. -/
def after (s : κ → σ) : List (Entry κ ι ο) → κ → σ
  | [] => s
  | e :: h => Function.update (after s h) e.comp (step e.comp (after s h e.comp) e.inp).1

/-- Each entry shows the outputs of its step. -/
def Honest (s : κ → σ) : List (Entry κ ι ο) → Prop
  | [] => True
  | e :: h => e.out = (step e.comp (after step s h e.comp) e.inp).2 ∧ Honest s h

/-- `P` holds of each input, in the state of its component before the input. -/
def Along (P : κ → σ → ι → Prop) (s : κ → σ) : List (Entry κ ι ο) → Prop
  | [] => True
  | e :: h => P e.comp (after step s h e.comp) e.inp ∧ Along P s h

/-- The inputs of component `k`, the newest first. -/
def inputs (k : κ) : List (Entry κ ι ο) → List ι
  | [] => []
  | e :: h => if e.comp = k then e.inp :: inputs k h else inputs k h

/-- The outputs that component `k` showed, the oldest first. -/
def outputs (k : κ) : List (Entry κ ι ο) → List ο
  | [] => []
  | e :: h => if e.comp = k then outputs k h ++ e.out else outputs k h

instance Along.decidable {P : κ → σ → ι → Prop} [∀ k a x, Decidable (P k a x)] (s : κ → σ) :
    ∀ h : List (Entry κ ι ο), Decidable (Along step P s h)
  | [] => inferInstanceAs (Decidable True)
  | _ :: h => @instDecidableAnd _ _ _ (Along.decidable s h)

variable {step} {s : κ → σ} {e : Entry κ ι ο} {h new : List (Entry κ ι ο)} {k : κ}
  {P Q : κ → σ → ι → Prop}

@[simp] theorem after_nil : after step s ([] : List (Entry κ ι ο)) = s := rfl

theorem after_cons_self (hk : e.comp = k) :
    after step s (e :: h) k = (step k (after step s h k) e.inp).1 := by
  subst hk; simp [after]

theorem after_cons_ne (hk : e.comp ≠ k) : after step s (e :: h) k = after step s h k := by
  simp [after, Function.update_of_ne (Ne.symm hk)]

theorem after_append : after step s (new ++ h) = after step (after step s h) new := by
  induction new with
  | nil => rfl
  | cons e new ih => simp only [List.cons_append, after, ih]

theorem outputs_append : outputs k (new ++ h) = outputs k h ++ outputs k new := by
  induction new with
  | nil => simp [outputs]
  | cons e new ih =>
    simp only [List.cons_append, outputs]
    split <;> simp [ih]

theorem honest_append :
    Honest step s (new ++ h) ↔ Honest step (after step s h) new ∧ Honest step s h := by
  induction new with
  | nil => simp [Honest]
  | cons e new ih => simp only [List.cons_append, Honest, ih, after_append, and_assoc]

theorem along_append :
    Along step P s (new ++ h) ↔ Along step P (after step s h) new ∧ Along step P s h := by
  induction new with
  | nil => simp [Along]
  | cons e new ih => simp only [List.cons_append, Along, ih, after_append, and_assoc]

theorem along_of_forall (hP : ∀ e ∈ h, ∀ k a, P k a e.inp) : Along step P s h := by
  induction h with
  | nil => trivial
  | cons e h ih =>
    exact ⟨hP e List.mem_cons_self _ _, ih fun e' he' => hP e' (List.mem_cons_of_mem _ he')⟩

theorem Along.mono (hpq : ∀ k a x, P k a x → Q k a x) (ha : Along step P s h) :
    Along step Q s h := by
  induction h with
  | nil => trivial
  | cons e h ih => exact ⟨hpq _ _ _ ha.1, ih ha.2⟩

theorem Along.and (hp : Along step P s h) (hq : Along step Q s h) :
    Along step (fun k a x => P k a x ∧ Q k a x) s h := by
  induction h with
  | nil => trivial
  | cons e h ih => exact ⟨⟨hp.1, hq.1⟩, ih hp.2 hq.2⟩

/-- **Invariant of a component.** What holds of the state of component `k` at the start and is
kept by each of its inputs that satisfy `P` holds after every history of such inputs. -/
theorem along_invariant {I : σ → Prop} (hinit : I (s k))
    (hstep : ∀ a x, I a → P k a x → I (step k a x).1) (ha : Along step P s h) :
    I (after step s h k) := by
  induction h with
  | nil => exact hinit
  | cons e h ih =>
    by_cases hk : e.comp = k
    · rw [after_cons_self hk]
      exact hstep _ _ (ih ha.2) (hk ▸ ha.1)
    · rw [after_cons_ne hk]; exact ih ha.2

/-- **Invariant with outputs.** As `along_invariant`, where the invariant also speaks of the
outputs `o` that the component has shown so far. -/
theorem outputs_invariant {I : σ → List ο → Prop} (hinit : I (s k) [])
    (hstep : ∀ a x o, I a o → P k a x → I (step k a x).1 (o ++ (step k a x).2))
    (hh : Honest step s h) (ha : Along step P s h) : I (after step s h k) (outputs k h) := by
  induction h with
  | nil => exact hinit
  | cons e h ih =>
    by_cases hk : e.comp = k
    · subst hk
      rw [after_cons_self rfl, outputs, if_pos rfl, hh.1]
      exact hstep _ _ _ (ih hh.2 ha.2) ha.1
    · rw [after_cons_ne hk, outputs, if_neg hk]; exact ih hh.2 ha.2

/-- What an invariant of every component, with its outputs so far, says of the next input holds of
each input of a history. -/
theorem along_outputs {I : κ → σ → List ο → Prop} (hinit : ∀ k, I k (s k) [])
    (hstep : ∀ k a x o, I k a o → I k (step k a x).1 (o ++ (step k a x).2))
    (hQ : ∀ k a x o, I k a o → Q k a x) (hh : Honest step s h) : Along step Q s h := by
  induction h with
  | nil => trivial
  | cons e h ih =>
    refine ⟨hQ _ _ _ (outputs e.comp h) ?_, ih hh.2⟩
    exact outputs_invariant (P := fun _ _ _ => True) (hinit e.comp)
      (fun a x o hI _ => hstep e.comp a x o hI) hh.2 (along_of_forall fun _ _ _ _ => trivial)

/-- What every step shows under `P` is true of every output of an honest history. -/
theorem outputs_forall {S : ο → Prop}
    (hstep : ∀ a x, P k a x → ∀ y ∈ (step k a x).2, S y) (hh : Honest step s h)
    (ha : Along step P s h) : ∀ y ∈ outputs k h, S y := by
  refine outputs_invariant (I := fun _ o => ∀ y ∈ o, S y) (by simp) (fun a x o hI hP y hy => ?_)
    hh ha
  exact (List.mem_append.mp hy).elim (hI y) (hstep a x hP y)

/-! ## Ghosts -/

/-- A ghost beside the state of each component: the inputs write it, and no step reads it. -/
def withGhost {γ : Type} (step : κ → σ → ι → σ × List ο) (write : γ → ι → γ) (k : κ) (a : σ × γ)
    (x : ι) : (σ × γ) × List ο :=
  (((step k a.1 x).1, write a.2 x), (step k a.1 x).2)

section Ghost

variable {γ : Type} {write : γ → ι → γ} {s : κ → σ × γ}

theorem after_withGhost (h : List (Entry κ ι ο)) (k : κ) :
    (after (withGhost step write) s h k).1 = after step (fun k => (s k).1) h k := by
  induction h with
  | nil => rfl
  | cons e h ih =>
    by_cases hk : e.comp = k
    · rw [after_cons_self hk, after_cons_self hk, ← ih]; rfl
    · rw [after_cons_ne hk, after_cons_ne hk, ih]

theorem honest_withGhost {h : List (Entry κ ι ο)} :
    Honest (withGhost step write) s h ↔ Honest step (fun k => (s k).1) h := by
  induction h with
  | nil => exact .rfl
  | cons e h ih => simp only [Honest, ih, withGhost, after_withGhost]

theorem along_withGhost {h : List (Entry κ ι ο)} :
    Along (withGhost step write) (fun k a x => P k a.1 x) s h ↔
      Along step P (fun k => (s k).1) h := by
  induction h with
  | nil => exact .rfl
  | cons e h ih => simp only [Along, ih, after_withGhost]

end Ghost

/-! ## Two histories -/

/-- The inputs of `k` skip the entries of the other components. -/
theorem inputs_cons_ne (hk : e.comp ≠ k) : inputs k (e :: h) = inputs k h := if_neg hk

theorem inputs_append : inputs k (new ++ h) = inputs k new ++ inputs k h := by
  induction new with
  | nil => rfl
  | cons e new ih =>
    rw [List.cons_append, inputs, inputs]
    split <;> simp [ih]

theorem comp_ne_of_inputs (hn : inputs k h = []) : ∀ u ∈ h, u.comp ≠ k := by
  intro u hu hk
  obtain ⟨pre, post, rfl⟩ := List.append_of_mem hu
  rw [inputs_append, inputs, if_pos hk] at hn
  simp at hn

/-- A history with an input for `k` has a newest one: entries of other components above it. -/
theorem exists_newest {x : ι} {xs : List ι} (hx : inputs k h = x :: xs) :
    ∃ up e h', h = up ++ e :: h' ∧ e.comp = k ∧ e.inp = x ∧ inputs k h' = xs ∧
      ∀ u ∈ up, u.comp ≠ k := by
  induction h with
  | nil => cases hx
  | cons e h ih =>
    by_cases hk : e.comp = k
    · rw [inputs, if_pos hk, List.cons.injEq] at hx
      exact ⟨[], e, h, rfl, hk, hx.1, hx.2, by simp⟩
    · obtain ⟨up, e', h', rfl, h1, h2, h3, h4⟩ := ih (by rwa [inputs_cons_ne hk] at hx)
      exact ⟨e :: up, e', h', rfl, h1, h2, h3, by simpa [hk] using h4⟩

/-- A history with an input for `k` has an oldest one: entries of other components below it. -/
theorem exists_oldest {x : ι} {xs : List ι} (hx : inputs k h = xs ++ [x]) :
    ∃ up e low, h = up ++ e :: low ∧ e.comp = k ∧ e.inp = x ∧ inputs k up = xs ∧
      ∀ u ∈ low, u.comp ≠ k := by
  induction h generalizing xs with
  | nil => cases xs <;> cases hx
  | cons e h ih =>
    by_cases hk : e.comp = k
    · rw [inputs, if_pos hk] at hx
      cases xs with
      | nil =>
        obtain ⟨rfl, hh⟩ := List.cons.inj hx
        exact ⟨[], e, h, rfl, hk, rfl, rfl, comp_ne_of_inputs hh⟩
      | cons y xs =>
        obtain ⟨rfl, hh⟩ := List.cons.inj hx
        obtain ⟨up, e', low, rfl, h1, h2, h3, h4⟩ := ih hh
        exact ⟨e :: up, e', low, rfl, h1, h2, by rw [inputs, if_pos hk, h3], h4⟩
    · obtain ⟨up, e', low, rfl, h1, h2, h3, h4⟩ := ih (by rwa [inputs_cons_ne hk] at hx)
      exact ⟨e :: up, e', low, rfl, h1, h2, by rw [inputs_cons_ne hk, h3], h4⟩

variable (step s h) in
/-- Entries of other components do not change the state of `k` or its outputs. -/
theorem others_eq {up : List (Entry κ ι ο)} (hup : ∀ u ∈ up, u.comp ≠ k) :
    after step s (up ++ h) k = after step s h k ∧ outputs k (up ++ h) = outputs k h := by
  induction up with
  | nil => exact ⟨rfl, rfl⟩
  | cons u up ih =>
    obtain ⟨h1, h2⟩ := ih fun v hv => hup v (List.mem_cons_of_mem _ hv)
    have hu := hup u List.mem_cons_self
    exact ⟨by rw [List.cons_append, after_cons_ne hu, h1],
      by rw [List.cons_append, outputs, if_neg hu, h2]⟩

/-- **Unwinding.** Two histories that give component `k` the same inputs, as `f` sees them, show
the same outputs of `k` and leave it in related states, if one step does. -/
theorem unwinding {f : ι → ι'} {R : σ → σ → Prop} {t : κ → σ}
    (hstep : ∀ a b x y, R a b → f x = f y → P k a x → P k b y →
      R (step k a x).1 (step k b y).1 ∧ (step k a x).2 = (step k b y).2)
    {h₁ h₂ : List (Entry κ ι ο)} (hinit : R (s k) (t k))
    (hh₁ : Honest step s h₁) (hh₂ : Honest step t h₂) (ha₁ : Along step P s h₁)
    (ha₂ : Along step P t h₂) (hin : (inputs k h₁).map f = (inputs k h₂).map f) :
    R (after step s h₁ k) (after step t h₂ k) ∧ outputs k h₁ = outputs k h₂ := by
  induction h₁ generalizing h₂ with
  | nil =>
    have hn := comp_ne_of_inputs (k := k) (h := h₂) (by simpa [inputs] using hin.symm)
    obtain ⟨h1, h2⟩ := others_eq step t [] hn
    rw [List.append_nil] at h1 h2
    rw [h1, h2]; exact ⟨hinit, rfl⟩
  | cons e h₁ ih =>
    by_cases hk : e.comp = k
    · rw [inputs, if_pos hk, List.map_cons] at hin
      obtain ⟨y, ys, hy, hfy, hys⟩ := List.map_eq_cons_iff.mp hin.symm
      obtain ⟨up, e', h', rfl, hk', rfl, rfl, hup⟩ := exists_newest hy
      obtain ⟨-, hh'⟩ := honest_append.mp hh₂
      obtain ⟨-, ha'⟩ := along_append.mp ha₂
      obtain ⟨hR, ho⟩ := ih hh₁.2 hh'.2 ha₁.2 ha'.2 hys.symm
      obtain ⟨h1, h2⟩ := others_eq step t (e' :: h') hup
      obtain ⟨hR', ho'⟩ := hstep _ _ _ _ hR hfy.symm (hk ▸ ha₁.1) (hk' ▸ ha'.1)
      rw [h1, h2, after_cons_self hk, after_cons_self hk', outputs, if_pos hk, outputs, if_pos hk',
        hh₁.1, hh'.1, ho]
      subst hk
      rw [hk']
      exact ⟨hR', by rw [ho']⟩
    · rw [after_cons_ne hk, outputs, if_neg hk]
      exact ih hh₁.2 hh₂ ha₁.2 ha₂ (by rwa [inputs_cons_ne hk] at hin)

end History
