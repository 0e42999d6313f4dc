import Mathlib.Data.List.Basic

/-!
# Walks whose steps are judged one by one

A **walk** takes steps of a relation with labels. `Walk.exact` is for a property `G` of single steps
that holds along a walk if and only if a condition `C` does: it is enough that in the states of an
invariant `I` one step has the one if and only if it has the other, and that a step with `C` keeps
`I`. A step after one without `C` need not be looked at. `Walk.crosses_once` is for counters.
-/

namespace Transitions

variable {σ ι : Type}

/-- The steps from `s₀` to a state, the newest first, each with the states before and after it. -/
inductive Walk (step : σ → ι → σ → Prop) (s₀ : σ) : List (σ × ι × σ) → σ → Prop where
  | nil : Walk step s₀ [] s₀
  | cons {s s' : σ} {l : ι} {hist : List (σ × ι × σ)} (h : Walk step s₀ hist s)
    (hs : step s l s') : Walk step s₀ ((s, l, s') :: hist) s'

variable {step : σ → ι → σ → Prop} {s₀ s : σ} {hist : List (σ × ι × σ)} {I : σ → Prop}
  {C G : σ → ι → σ → Prop}

/-- All the steps of a walk have a property. -/
def All (C : σ → ι → σ → Prop) (hist : List (σ × ι × σ)) : Prop :=
  ∀ t ∈ hist, C t.1 t.2.1 t.2.2

theorem all_nil : All C [] := List.forall_mem_nil _

theorem all_cons {t : σ × ι × σ} : All C (t :: hist) ↔ C t.1 t.2.1 t.2.2 ∧ All C hist :=
  List.forall_mem_cons

theorem all_and : All (fun s l s' => C s l s' ∧ G s l s') hist ↔ All C hist ∧ All G hist :=
  forall₂_and

/-- **Invariant.** What holds at the start and is kept by the steps with `C` holds after a walk of
such steps. -/
theorem Walk.invariant (h : Walk step s₀ hist s) (h₀ : I s₀)
    (hstep : ∀ s l s', I s → step s l s' → C s l s' → I s') (hC : All C hist) : I s := by
  induction h with
  | nil => exact h₀
  | cons h hs ih =>
    obtain ⟨hc, hC⟩ := all_cons.mp hC
    exact hstep _ _ _ (ih hC) hs hc

/-- What every step keeps holds after a walk. -/
theorem Walk.keeps (h : Walk step s₀ hist s) (h₀ : I s₀)
    (hstep : ∀ s l s', I s → step s l s' → I s') : I s :=
  h.invariant (C := fun _ _ _ => True) h₀ (fun s l s' hs hl _ => hstep s l s' hs hl)
    fun _ _ => trivial

/-- What every step from an invariant has, all the steps of a walk have. -/
theorem Walk.forall_steps (h : Walk step s₀ hist s) (h₀ : I s₀)
    (hstep : ∀ s l s', I s → step s l s' → I s' ∧ G s l s') : I s ∧ All G hist := by
  induction h with
  | nil => exact ⟨h₀, all_nil⟩
  | cons h hs ih =>
    obtain ⟨hI, hG⟩ := ih
    obtain ⟨hI', hG'⟩ := hstep _ _ _ hI hs
    exact ⟨hI', all_cons.mpr ⟨hG', hG⟩⟩

/-- The last state comes after the steps of a walk. -/
theorem Walk.last_after {R : σ → σ → Prop} (h : Walk step s₀ hist s) (hrefl : ∀ s, R s s)
    (htrans : ∀ s t u, R s t → R t u → R s u) (hstep : ∀ s l s', step s l s' → R s s') :
    ∀ t ∈ hist, R t.2.2 s := by
  induction h with
  | nil => exact List.forall_mem_nil _
  | cons h hs ih =>
    refine List.forall_mem_cons.mpr ⟨hrefl _, fun t ht => ?_⟩
    exact htrans _ _ _ (ih t ht) (hstep _ _ _ hs)

/-- **Exact condition.** The steps of a walk all have `G` if and only if they all have `C`. -/
theorem Walk.exact (h : Walk step s₀ hist s) (h₀ : I s₀)
    (hiff : ∀ s l s', I s → step s l s' → (G s l s' ↔ C s l s'))
    (hstep : ∀ s l s', I s → step s l s' → C s l s' → I s') : All G hist ↔ All C hist := by
  induction h with
  | nil => simp [All]
  | cons h hs ih =>
    rw [all_cons, all_cons, ih]
    refine and_congr_left fun hC => ?_
    exact hiff _ _ _ (h.invariant h₀ hstep hC) hs

/-! ## Counters -/

/-- A step takes a counter beyond `k`. -/
def crosses (f : σ → Nat) (k : Nat) (t : σ × ι × σ) : Bool := f t.1 ≤ k && k < f t.2.2

/-- **One crossing.** A counter that no step takes back passes each number in at most one step, and
in exactly one if it gets beyond it. -/
theorem Walk.crosses_once {f : σ → Nat} {k : Nat} (h : Walk step s₀ hist s)
    (hmono : All (fun s _ s' => f s ≤ f s') hist) (h₀ : f s₀ ≤ k) :
    f s ≤ k ∧ hist.filter (crosses f k) = [] ∨
      k < f s ∧ ∃ t, hist.filter (crosses f k) = [t] := by
  induction h with
  | nil => exact .inl ⟨h₀, rfl⟩
  | @cons s s' l hist h hs ih =>
    obtain ⟨hle, hmono⟩ := all_cons.mp hmono
    rw [List.filter_cons]
    rcases ih hmono with ⟨hk, hnil⟩ | ⟨hk, t, ht⟩
    · by_cases hk' : k < f s'
      · refine .inr ⟨hk', (s, l, s'), ?_⟩
        rw [if_pos (by simp [crosses, hk, hk']), hnil]
      · rw [if_neg (by simp [crosses, hk']), hnil]
        exact .inl ⟨by omega, rfl⟩
    · have hle : f s ≤ f s' := hle
      rw [if_neg (by simp [crosses]; omega)]
      exact .inr ⟨by omega, t, ht⟩

end Transitions
