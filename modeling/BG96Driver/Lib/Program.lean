import Mathlib.Logic.Basic

/-!
# Programs that make calls

A program makes calls and goes on with their answers. An environment says how it answers a call: a
relation between the state before the call, the answer and the state after it.

* `Prog C R α`: a program with calls in `C`, where a call `c` has an answer in `R c`. `stop` is a
  program that does not return.
* `Runs`: the runs of a program in an environment.
* `wp`: the states from which every run ends well (`wp_iff`). `wp_bind` splits a program.
* `Only`: each call that a program can make satisfies a predicate.
* `Leads`: each run leads to a state that a relation allows. Programs are composed by `Leads.bind`,
  and `Only.leads` goes from single calls to programs.
* `exists_run`: a run that ends as `wp` says. `eval`: the run in which a function answers the calls
  (`runs_eval`).
* `interp`: a program whose calls are programs of other calls. `wp_interp` says that it does what
  the program does in an environment that answers the calls as these programs do, and
  `wp_interp_of_sim` that it does so in states that a relation keeps in step.
-/

namespace Program

/-- A program that makes calls and returns an `α`. -/
inductive Prog (C : Type) (R : C → Type) (α : Type) where
  | ret (a : α)
  | call (c : C) (k : R c → Prog C R α)
  | stop

variable {S C : Type} {R : C → Type} {α β : Type}

namespace Prog

protected def bind : Prog C R α → (α → Prog C R β) → Prog C R β
  | .ret a, f => f a
  | .call c k, f => .call c fun r => (k r).bind f
  | .stop, _ => .stop

instance : Monad (Prog C R) where
  pure := .ret
  bind := Prog.bind

@[simp] theorem pure_eq (a : α) : (pure a : Prog C R α) = .ret a := rfl
@[simp] theorem ret_bind (a : α) (f : α → Prog C R β) : (Prog.ret a >>= f) = f a := rfl
@[simp] theorem stop_bind (f : α → Prog C R β) : (Prog.stop >>= f) = .stop := rfl
@[simp] theorem call_bind (c : C) (k : R c → Prog C R α) (f : α → Prog C R β) :
    (Prog.call c k >>= f) = .call c fun r => k r >>= f := rfl

theorem bind_assoc {γ : Type} (p : Prog C R α) (f : α → Prog C R β) (g : β → Prog C R γ) :
    (p >>= f) >>= g = p >>= fun a => f a >>= g := by
  induction p with
  | ret a => rfl
  | call c k ih => exact congrArg (Prog.call c) (funext ih)
  | stop => rfl

end Prog

/-- An environment: in a state it may answer a call, and go to a state. -/
abbrev Env (S C : Type) (R : C → Type) := S → (c : C) → R c → S → Prop

/-- A run of a program, with what it returns; `none` if it stops. -/
inductive Runs (E : Env S C R) : Prog C R α → S → Option α → S → Prop where
  | ret (a : α) (s : S) : Runs E (.ret a) s (some a) s
  | stop (s : S) : Runs E .stop s none s
  | call {c : C} {k : R c → Prog C R α} {s s' s'' : S} {r : R c} {o : Option α}
    (h : E s c r s') (hk : Runs E (k r) s' o s'') : Runs E (.call c k) s o s''

/-! ## Weakest preconditions -/

/-- Each run from the state returns a value and a state that satisfy `Q`, or stops, if `T`. -/
def wp (E : Env S C R) (T : Prop) (Q : α → S → Prop) : Prog C R α → S → Prop
  | .ret a, s => Q a s
  | .call c k, s => ∀ r s', E s c r s' → wp E T Q (k r) s'
  | .stop, _ => T

variable {E : Env S C R} {T : Prop} {Q Q' : α → S → Prop} {p q : Prog C R α} {s : S}

@[simp] theorem wp_ret (a : α) : wp E T Q (.ret a) s ↔ Q a s := Iff.rfl
@[simp] theorem wp_stop : wp E T Q .stop s ↔ T := Iff.rfl
@[simp] theorem wp_call (c : C) (k : R c → Prog C R α) :
    wp E T Q (.call c k) s ↔ ∀ r s', E s c r s' → wp E T Q (k r) s' := Iff.rfl

theorem wp_iff :
    wp E T Q p s ↔ ∀ o s', Runs E p s o s' → (o = none → T) ∧ ∀ a, o = some a → Q a s' := by
  induction p generalizing s with
  | ret a =>
    constructor
    · rintro h _ _ ⟨⟩
      exact ⟨nofun, by rintro _ ⟨⟩; exact h⟩
    · exact fun h => (h _ _ (.ret a s)).2 a rfl
  | call c k ih =>
    constructor
    · rintro h _ _ (_ | _ | ⟨hE, hk⟩)
      exact (ih _).mp (h _ _ hE) _ _ hk
    · exact fun h r s' hE => (ih r).mpr fun o s'' hk => h o s'' (.call hE hk)
  | stop =>
    constructor
    · rintro h _ _ ⟨⟩
      exact ⟨fun _ => h, nofun⟩
    · exact fun h => (h _ _ (.stop s)).1 rfl

/-- A run that returns ends as `wp` says. -/
theorem Runs.ends {a : α} {s' : S} (h : Runs E p s (some a) s') (hwp : wp E T Q p s) : Q a s' :=
  (wp_iff.mp hwp _ _ h).2 a rfl

theorem wp_mono (h : wp E T Q p s) (hQ : ∀ a s', Q a s' → Q' a s') : wp E T Q' p s := by
  induction p generalizing s with
  | ret a => exact hQ a s h
  | call c k ih => exact fun r s' hE => ih r (h r s' hE)
  | stop => exact h

theorem wp_of_forall (hT : T) (hQ : ∀ a s', Q a s') (p : Prog C R α) (s : S) : wp E T Q p s := by
  induction p generalizing s with
  | ret a => exact hQ a s
  | call c k ih => exact fun r s' _ => ih r s'
  | stop => exact hT

theorem wp_and {T' : Prop} (h : wp E T Q p s) (h' : wp E T' Q' p s) :
    wp E T (fun a s' => Q a s' ∧ Q' a s') p s := by
  induction p generalizing s with
  | ret a => exact ⟨h, h'⟩
  | call c k ih => exact fun r s' hE => ih r (h r s' hE) (h' r s' hE)
  | stop => exact h

@[simp] theorem wp_bind (f : α → Prog C R β) {Q : β → S → Prop} :
    wp E T Q (p >>= f) s ↔ wp E T (fun a s' => wp E T Q (f a) s') p s := by
  induction p generalizing s with
  | ret a => rfl
  | call c k ih =>
    exact forall_congr' fun r => forall_congr' fun s' => imp_congr_right fun _ => ih r
  | stop => rfl

/-! ## The calls of a program -/

/-- Each call that the program can make satisfies `P`, and it stops only if `T`. -/
def Only (T : Prop) (P : C → Prop) : Prog C R α → Prop
  | .ret _ => True
  | .call c k => P c ∧ ∀ r, Only T P (k r)
  | .stop => T

variable {P : C → Prop} {f : α → Prog C R β}

@[simp] theorem only_ret (a : α) : Only T P (.ret a : Prog C R α) := trivial
@[simp] theorem only_stop : Only T P (.stop : Prog C R α) ↔ T := Iff.rfl
@[simp] theorem only_call (c : C) (k : R c → Prog C R α) :
    Only T P (.call c k) ↔ P c ∧ ∀ r, Only T P (k r) := Iff.rfl

@[simp] theorem only_ite {b : Prop} [Decidable b] :
    Only T P (if b then p else q) ↔ (b → Only T P p) ∧ (¬ b → Only T P q) := by
  split <;> simp [*]

theorem Only.bind (hp : Only T P p) (hf : ∀ a, Only T P (f a)) : Only T P (p >>= f) := by
  induction p with
  | ret a => exact hf a
  | call c k ih => exact ⟨hp.1, fun r => ih r (hp.2 r)⟩
  | stop => exact hp

theorem Only.map {f : α → β} (hp : Only T P p) : Only T P (p >>= fun a => pure (f a)) :=
  hp.bind fun _ => trivial

theorem Only.mono {T' : Prop} {P' : C → Prop} (hp : Only T P p) (hT : T → T')
    (hP : ∀ c, P c → P' c) : Only T' P' p := by
  induction p with
  | ret a => trivial
  | call c k ih => exact ⟨hP c hp.1, fun r => ih r (hp.2 r)⟩
  | stop => exact hT hp

/-- A program that does not stop returns. -/
theorem Only.returns (hp : Only T P p) (hQ : ∀ a s', Q a s') (s : S) : wp E T Q p s := by
  induction p generalizing s with
  | ret a => exact hQ a s
  | call c k ih => exact fun r s' _ => ih r (hp.2 r) s'
  | stop => exact hp

/-- Each run leads to a state that `L` allows, or stops, if `T`. -/
def Leads (E : Env S C R) (T : Prop) (L : S → S → Prop) (p : Prog C R α) : Prop :=
  ∀ s, wp E T (fun _ s' => L s s') p s

variable {L : S → S → Prop}

theorem Leads.ret (hL : ∀ s, L s s) (a : α) : Leads E T L (.ret a : Prog C R α) := fun s => hL s

theorem Leads.bind (hL : ∀ s t u, L s t → L t u → L s u) (hp : Leads E T L p)
    (hf : ∀ a, Leads E T L (f a)) : Leads E T L (p >>= f) := by
  intro s
  rw [wp_bind]
  refine wp_mono (hp s) fun a t hst => ?_
  exact wp_mono (hf a t) fun _ u htu => hL s t u hst htu

theorem Leads.mono {L' : S → S → Prop} (hp : Leads E T L p) (hL : ∀ s t, L s t → L' s t) :
    Leads E T L' p := fun s => wp_mono (hp s) fun _ t h => hL s t h

theorem Leads.ite {b : Prop} [Decidable b] (hp : b → Leads E T L p) (hq : ¬ b → Leads E T L q) :
    Leads E T L (if b then p else q) := by
  split
  · exact hp ‹_›
  · exact hq ‹_›

/-- A program leads where each of its calls does. -/
theorem Only.leads (hp : Only T P p) (hrefl : ∀ s, L s s)
    (htrans : ∀ s t u, L s t → L t u → L s u)
    (hstep : ∀ s c r s', P c → E s c r s' → L s s') : Leads E T L p := by
  intro s
  induction p generalizing s with
  | ret a => exact hrefl s
  | call c k ih =>
    intro r t hE
    exact wp_mono (ih r (hp.2 r) t) fun _ u htu => htrans s t u (hstep s c r t hp.1 hE) htu
  | stop => exact hp

/-- Every program leads where every call does. -/
theorem leads_of_step (hrefl : ∀ s, L s s) (htrans : ∀ s t u, L s t → L t u → L s u)
    (hstep : ∀ s c r s', E s c r s' → L s s') (p : Prog C R α) : Leads E True L p := by
  refine Only.leads (P := fun _ => True) ?_ hrefl htrans fun s c r s' _ h => hstep s c r s' h
  induction p with
  | ret a => trivial
  | call c k ih => exact ⟨trivial, ih⟩
  | stop => trivial

/-! ## Runs that exist -/

/-- A run in an environment that allows less. -/
theorem Runs.mono {E' : Env S C R} {o : Option α} {s' : S} (h : Runs E p s o s')
    (hE : ∀ s c r s', E s c r s' → E' s c r s') : Runs E' p s o s' := by
  induction h with
  | ret a s => exact .ret a s
  | stop s => exact .stop s
  | call h hk ih => exact .call (hE _ _ _ _ h) ih

/-- In an environment that answers every call, a program that does not stop has a run that returns,
and ends as every run does. -/
theorem exists_run (hE : ∀ s c, ∃ r s', E s c r s') (h : wp E False Q p s) :
    ∃ a s', Runs E p s (some a) s' ∧ Q a s' := by
  induction p generalizing s with
  | ret a => exact ⟨a, s, .ret a s, h⟩
  | call c k ih =>
    obtain ⟨r, s₁, hc⟩ := hE s c
    obtain ⟨a, s', hrun, hQ⟩ := ih r (h r s₁ hc)
    exact ⟨a, s', .call hc hrun, hQ⟩
  | stop => exact h.elim

/-- A program that always gives the same. -/
theorem wp_iff_of_eq {a : α} {P : α → Prop} (hE : ∀ s c, ∃ r s', E s c r s')
    (h : wp E False (fun b _ => b = a) p s) : wp E False (fun b _ => P b) p s ↔ P a := by
  constructor
  · intro hP
    obtain ⟨b, s', -, rfl, hb⟩ := exists_run hE (wp_and h hP)
    exact hb
  · intro ha
    refine wp_mono h ?_
    rintro b s' rfl
    exact ha

/-! ## Runs by evaluation -/

/-- The run of a program in which `f` answers the calls. -/
def Prog.eval (f : S → (c : C) → R c × S) : Prog C R α → S → Option α × S
  | .ret a, s => (some a, s)
  | .call c k, s => (k (f s c).1).eval f (f s c).2
  | .stop, s => (none, s)

theorem runs_eval {f : S → (c : C) → R c × S} (hf : ∀ s c, E s c (f s c).1 (f s c).2)
    (p : Prog C R α) (s : S) : Runs E p s (p.eval f s).1 (p.eval f s).2 := by
  induction p generalizing s with
  | ret a => exact .ret a s
  | call c k ih => exact .call (hf s c) (ih _ _)
  | stop => exact .stop s

/-- A run in an environment that another one follows. -/
theorem Runs.map {S' : Type} {E' : Env S' C R} {g : S → S'} {o : Option α} {s' : S}
    (hE : ∀ s c r s', E s c r s' → E' (g s) c r (g s')) (h : Runs E p s o s') :
    Runs E' p (g s) o (g s') := by
  induction h with
  | ret a s => exact .ret a (g s)
  | stop s => exact .stop (g s)
  | call hc _ ih => exact .call (hE _ _ _ _ hc) ih

/-! ## Calls that are programs -/

section Interp

variable {C' : Type} {R' : C' → Type} {X S' : Type} {h : X → (c : C) → Prog C' R' (R c × X)}

/-- The program in which each call is what `h` makes of it. The calls pass an `X` on. -/
def Prog.interp (h : X → (c : C) → Prog C' R' (R c × X)) : Prog C R α → X → Prog C' R' (α × X)
  | .ret a, x => .ret (a, x)
  | .call c k, x => h x c >>= fun r => (k r.1).interp h r.2
  | .stop, _ => .stop

@[simp] theorem interp_ret (a : α) (x : X) : (Prog.ret a : Prog C R α).interp h x = .ret (a, x) :=
  rfl

@[simp] theorem interp_call (c : C) (k : R c → Prog C R α) (x : X) :
    (Prog.call c k).interp h x = (h x c >>= fun r => (k r.1).interp h r.2) := rfl

/-- **Interpretation.** Let `E` allow what the programs `h` do in `E'`. Then what a program
establishes in `E`, its interpretation establishes in `E'`. -/
theorem wp_interp {E : Env (X × S') C R} {E' : Env S' C' R'} {Q : α → X × S' → Prop}
    (hh : ∀ x t c, wp E' T (fun r t' => E (x, t) c r.1 (r.2, t')) (h x c) t) {p : Prog C R α}
    {x : X} {t : S'} (hp : wp E T Q p (x, t)) :
    wp E' T (fun r t' => Q r.1 (r.2, t')) (p.interp h x) t := by
  induction p generalizing x t with
  | ret a => exact hp
  | call c k ih =>
    rw [interp_call, wp_bind]
    refine wp_mono (hh x t c) fun r t' hE => ?_
    exact ih r.1 (hp r.1 (r.2, t') hE)
  | stop => exact hp

theorem Only.interp {P : C → Prop} {P' : C' → Prop}
    (hh : ∀ x c, P c → Only T P' (h x c)) (hp : Only T P p) (x : X) : Only T P' (p.interp h x) := by
  induction p generalizing x with
  | ret a => trivial
  | call c k ih => exact (hh x c hp.1).bind fun r => ih r.1 (hp.2 r.1) r.2
  | stop => exact hp

end Interp

end Program
