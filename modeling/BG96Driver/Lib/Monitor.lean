import BG96Driver.Lib.History

/-!
# Monitors of a component's outputs

A **monitor** reads the outputs of a component one after the other. It has a state of its own and
says of each output whether it is allowed there: it is the abstract model of what the component is
for, in terms of what a user sees.

* `run`: the state after some outputs. `Accepts`: each of them was allowed.
* `run_invariant`: a relation of the component's state and the monitor's state that is kept by one
  step is kept by every history. `invariant`: if the monitor accepts the outputs of such a step,
  then it accepts every history.
-/

namespace History

/-- A monitor of outputs `ο` with states `ρ`. -/
structure Monitor (ρ ο : Type) where
  init : ρ
  next : ρ → ο → ρ
  ok : ρ → ο → Prop

namespace Monitor

variable {κ σ ι ο ρ : Type} (m : Monitor ρ ο)

/-- The state after the outputs, the oldest first. -/
def run (r : ρ) (o : List ο) : ρ := o.foldl m.next r

/-- Each output is allowed in the state before it. -/
def Accepts (r : ρ) : List ο → Prop
  | [] => True
  | x :: o => m.ok r x ∧ Accepts (m.next r x) o

variable {m} {r : ρ} {o o' : List ο}

@[simp] theorem run_nil : m.run r [] = r := rfl

@[simp] theorem run_cons {x : ο} : m.run r (x :: o) = m.run (m.next r x) o := rfl

variable (o o') in
theorem run_append : m.run r (o ++ o') = m.run (m.run r o) o' := List.foldl_append

theorem accepts_append : m.Accepts r (o ++ o') ↔ m.Accepts r o ∧ m.Accepts (m.run r o) o' := by
  induction o generalizing r with
  | nil => simp [Accepts]
  | cons x o ih => simp only [List.cons_append, Accepts, ih, run_cons, and_assoc]

/-- An accepted output was allowed where it was shown. -/
theorem Accepts.mid {x : ο} (h : m.Accepts r (o ++ x :: o')) : m.ok (m.run r o) x :=
  (accepts_append.mp h).2.1

/-- What the monitor does not see does not move it. -/
theorem run_of_silent (h : ∀ x ∈ o, ∀ r, m.next r x = r) : m.run r o = r := by
  induction o generalizing r with
  | nil => rfl
  | cons x o ih =>
    rw [run_cons, h x List.mem_cons_self]
    exact ih fun y hy => h y (List.mem_cons_of_mem _ hy)

theorem accepts_of_silent (h : ∀ x ∈ o, ∀ r, m.next r x = r) (hok : ∀ x ∈ o, m.ok r x) :
    m.Accepts r o := by
  induction o with
  | nil => trivial
  | cons x o ih =>
    refine ⟨hok x List.mem_cons_self, ?_⟩
    rw [h x List.mem_cons_self]
    exact ih (fun y hy => h y (List.mem_cons_of_mem _ hy))
      fun y hy => hok y (List.mem_cons_of_mem _ hy)

/-- **Balance.** `pend` is what the monitor's state still owes. If each allowed output `x` that
satisfies `S` keeps the balance of what it brings (`done`) and what it takes (`collect`), then so do
accepted outputs: what was brought is what was taken, in order, and what is still owed. -/
theorem balance {ν : Type} {pend : ρ → List ν} {done collect : ο → List ν} {S : ο → Prop}
    (hstep : ∀ r x, S x → m.ok r x → pend r ++ done x = collect x ++ pend (m.next r x))
    (hS : ∀ x ∈ o, S x) (h : m.Accepts r o) :
    pend r ++ o.flatMap done = o.flatMap collect ++ pend (m.run r o) := by
  induction o generalizing r with
  | nil => simp
  | cons x o ih =>
    have hx := hstep r x (hS x List.mem_cons_self) h.1
    have ho := ih (fun y hy => hS y (List.mem_cons_of_mem _ hy)) h.2
    rw [List.flatMap_cons, List.flatMap_cons, run_cons, ← List.append_assoc, hx,
      List.append_assoc, ho, List.append_assoc]

/-- A relation `I` of the component's state and the monitor's that is kept by each step under `P` is
kept by every history of such steps. -/
theorem run_invariant [DecidableEq κ] {step : κ → σ → ι → σ × List ο} {s : κ → σ} {k : κ}
    {h : List (Entry κ ι ο)} {P : κ → σ → ι → Prop} {I : σ → ρ → Prop} (hinit : I (s k) r)
    (hstep : ∀ a x r, I a r → P k a x → I (step k a x).1 (m.run r (step k a x).2))
    (hh : Honest step s h) (ha : Along step P s h) :
    I (after step s h k) (m.run r (outputs k h)) := by
  refine outputs_invariant (I := fun a o => I a (m.run r o)) hinit (fun a x o hI hP => ?_) hh ha
  rw [run_append]
  exact hstep a x _ hI hP

/-- **Monitored invariant.** A relation `I` of the component's state and the monitor's that holds at
the start and is kept by each step under `P`, with accepted outputs, holds after every history of
such steps, and the monitor accepts what the component has shown. -/
theorem invariant [DecidableEq κ] {step : κ → σ → ι → σ × List ο} {s : κ → σ} {k : κ}
    {h : List (Entry κ ι ο)} {P : κ → σ → ι → Prop} {I : σ → ρ → Prop} (hinit : I (s k) m.init)
    (hstep : ∀ a x r, I a r → P k a x →
      m.Accepts r (step k a x).2 ∧ I (step k a x).1 (m.run r (step k a x).2))
    (hh : Honest step s h) (ha : Along step P s h) :
    m.Accepts m.init (outputs k h) ∧ I (after step s h k) (m.run m.init (outputs k h)) := by
  refine outputs_invariant (I := fun a o => m.Accepts m.init o ∧ I a (m.run m.init o))
    ⟨trivial, hinit⟩ (fun a x o hI hP => ?_) hh ha
  obtain ⟨hacc, hI⟩ := hI
  obtain ⟨hacc', hI'⟩ := hstep a x _ hI hP
  exact ⟨accepts_append.mpr ⟨hacc, hacc'⟩, by rwa [run_append]⟩

end Monitor

end History
