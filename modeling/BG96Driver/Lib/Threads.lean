import BG96Driver.Lib.Program
import Mathlib.Logic.Relation

/-!
# Programs beside other threads

Other threads take steps between the calls of a program. A predicate that these steps keep is
stable; what a program needs at a call is to be stable.

* `beside`: the environment in which other steps come before each call.
* `Stable`: a predicate that they keep. `wp_beside`: the rule for a call.
-/

namespace Program

open Relation

variable {S C : Type} {R : C → Type} {α : Type} {B : S → S → Prop} {E : Env S C R} {T : Prop}
  {Q : α → S → Prop} {P : S → Prop} {s t : S}

/-- Before each call, others take any number of steps. -/
def beside (B : S → S → Prop) (E : Env S C R) : Env S C R := fun s c r s' =>
  ∃ t, ReflTransGen B s t ∧ E t c r s'

/-- The steps of others keep the predicate. -/
def Stable (B : S → S → Prop) (P : S → Prop) : Prop := ∀ s t, B s t → P s → P t

theorem Stable.steps (h : Stable B P) (hs : ReflTransGen B s t) (hP : P s) : P t := by
  induction hs with
  | refl => exact hP
  | tail _ hst ih => exact h _ _ hst ih

theorem Stable.and {P' : S → Prop} (h : Stable B P) (h' : Stable B P') :
    Stable B fun s => P s ∧ P' s :=
  fun s t hst hs => ⟨h s t hst hs.1, h' s t hst hs.2⟩

/-- A call in a state with a stable predicate. -/
theorem wp_beside {c : C} {k : R c → Prog C R α} (hP : Stable B P) (hs : P s)
    (h : ∀ t r s', P t → E t c r s' → wp (beside B E) T Q (k r) s') :
    wp (beside B E) T Q (.call c k) s := by
  rintro r s' ⟨t, hst, hE⟩
  exact h t r s' (hP.steps hst hs) hE

end Program
