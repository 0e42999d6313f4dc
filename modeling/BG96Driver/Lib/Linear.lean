import BG96Driver.Lib.Mutex
import BG96Driver.Lib.Trace

/-!
# Threads whose operations are sections

A client is a program of operations. An operation is a program of calls that takes the mutex once,
and gives it back at its end.

* `expand`: the client, with the calls of its operations.
* `Atomic`: a thread does its next operation at one blow.
* `linearizes`: what threads reach with the mutex free, whole operations reach, one after the other,
  and each is as a relation between two levels allows.
* `Partly`: the operations that a client has done so far. `exists_order`: whole operations have one
  order, which is the order of each thread.
-/

namespace Program

variable {C C' : Type} {R : C → Type} {R' : C' → Type} {α β : Type}
  {h : (c : C) → Prog C' R' (R c)}

theorem Prog.bind_ret (p : Prog C R α) : (p >>= fun a => .ret a) = p := by
  induction p with
  | ret a => rfl
  | call c k ih => exact congrArg (Prog.call c) (funext ih)
  | stop => rfl

/-- The program in which each call is a program of other calls. -/
def Prog.expand (h : (c : C) → Prog C' R' (R c)) : Prog C R α → Prog C' R' α
  | .ret a => .ret a
  | .call c k => h c >>= fun r => (k r).expand h
  | .stop => .stop

@[simp] theorem expand_ret (a : α) : (Prog.ret a : Prog C R α).expand h = .ret a := rfl

@[simp] theorem expand_call (c : C) (k : R c → Prog C R α) :
    (Prog.call c k).expand h = (h c >>= fun r => (k r).expand h) := rfl

@[simp] theorem expand_bind (p : Prog C R α) (f : α → Prog C R β) :
    (p >>= f).expand h = p.expand h >>= fun a => (f a).expand h := by
  induction p with
  | ret a => rfl
  | call c k ih =>
    rw [Prog.call_bind, expand_call, expand_call, Prog.bind_assoc]
    exact congrArg (h c >>= ·) (funext ih)
  | stop => rfl

theorem Only.and {T : Prop} {P P' : C → Prop} {p : Prog C R α} (hp : Only T P p)
    (hp' : Only T P' p) : Only T (fun c => P c ∧ P' c) p := by
  induction p with
  | ret a => trivial
  | call c k ih => exact ⟨⟨hp.1, hp'.1⟩, fun r => ih r (hp.2 r) (hp'.2 r)⟩
  | stop => exact hp

theorem Only.expand {T : Prop} {P : C → Prop} {P' : C' → Prop} {p : Prog C R α}
    (hh : ∀ c, P c → Only T P' (h c)) (hp : Only T P p) : Only T P' (p.expand h) := by
  induction p with
  | ret a => trivial
  | call c k ih => exact (hh c hp.1).bind fun r => ih r (hp.2 r)
  | stop => exact hp

theorem expand_expand {C'' : Type} {R'' : C'' → Type} (g : (c : C') → Prog C'' R'' (R' c))
    (p : Prog C R α) : (p.expand h).expand g = p.expand fun c => (h c).expand g := by
  induction p with
  | ret a => rfl
  | call c k ih =>
    rw [expand_call, expand_bind, expand_call]
    exact congrArg ((h c).expand g >>= ·) (funext ih)
  | stop => rfl

/-! ## A part of a program -/

/-- A program makes the calls of a list, with these answers, and is another one then. -/
inductive Partly : Prog C R α → List (Sigma R) → Prog C R α → Prop where
  | nil (p : Prog C R α) : Partly p [] p
  | cons {c : C} {k : R c → Prog C R α} {r : R c} {l : List (Sigma R)} {q : Prog C R α}
    (h : Partly (k r) l q) : Partly (.call c k) (⟨c, r⟩ :: l) q

variable {p : Prog C R α} {l : List (Sigma R)}

theorem Partly.snoc {c : C} {k : R c → Prog C R α} (h : Partly p l (.call c k)) (r : R c) :
    Partly p (l ++ [⟨c, r⟩]) (k r) := by
  generalize hq : Prog.call c k = q at h
  induction h with
  | nil p =>
    subst hq
    exact .cons (.nil _)
  | cons _ ih => exact .cons (ih hq)

theorem Partly.only {T : Prop} {P : C → Prop} {q : Prog C R α} (h : Partly p l q)
    (hp : Only T P p) : ∀ e ∈ l, P e.1 := by
  induction h with
  | nil p => exact fun e he => absurd he List.not_mem_nil
  | cons _ ih => exact List.forall_mem_cons.mpr ⟨hp.1, ih (hp.2 _)⟩

/-- A part of two programs, one after the other. -/
theorem Partly.split {f : α → Prog C R β} {q : Prog C R β} (h : Partly (p >>= f) l q) :
    (∃ p', Partly p l p') ∨
      ∃ a l₁ l₂, l = l₁ ++ l₂ ∧ Partly p l₁ (.ret a) ∧ Partly (f a) l₂ q := by
  induction p generalizing l with
  | ret a => exact .inr ⟨a, [], l, rfl, .nil _, h⟩
  | stop =>
    cases h
    exact .inl ⟨.stop, .nil _⟩
  | call c k ih =>
    cases h with
    | nil => exact .inl ⟨.call c k, .nil _⟩
    | @cons _ _ r l _ h =>
      rcases ih r h with ⟨p', hp⟩ | ⟨a, l₁, l₂, rfl, hp, hq⟩
      · exact .inl ⟨p', .cons hp⟩
      · exact .inr ⟨a, ⟨c, r⟩ :: l₁, l₂, rfl, .cons hp, hq⟩

/-- What holds of all parts of operations, and of two lists put together, holds of all parts of a
client. -/
theorem Partly.expand {P : List (Sigma R') → Prop} (hnil : P [])
    (happend : ∀ l₁ l₂, P l₁ → P l₂ → P (l₁ ++ l₂)) (hh : ∀ c l q, Partly (h c) l q → P l)
    {l : List (Sigma R')} {q : Prog C' R' α} (hl : Partly (p.expand h) l q) : P l := by
  induction p generalizing l with
  | ret a | stop =>
    cases hl
    exact hnil
  | call c k ih =>
    rcases hl.split with ⟨p', hp⟩ | ⟨r, l₁, l₂, rfl, hp, hq⟩
    · exact hh c _ _ hp
    · exact happend l₁ l₂ (hh c _ _ hp) (ih r hq)

/-- All of a program. -/
theorem Partly.traces {a : α} (h : Partly p l (.ret a)) : Traces p l (some a) := by
  generalize hq : Prog.ret a = q at h
  induction h with
  | nil p =>
    subst hq
    exact .ret a
  | cons _ ih => exact .call _ (ih hq)

end Program

namespace Mutex

open Program Relation

variable {τ S S' C C' : Type} {R : C → Type} {R' : C' → Type} {α : Type} {use : C' → Use}
  {E : Env S C R} {E' : Env S' C' R'} {h : (c : C) → Prog C' R' (R c)} {P : C → Prop} {T : Prop}
  {p : Prog C R α}

/-! ## One thread -/

/-- A client of such operations is safe. -/
theorem safe_expand (honce : ∀ c, P c → Once use (h c) 0) (hp : Only T P p) (s : S') :
    SafeUse use E' (fun _ => True) (fun _ => False) True (fun _ d _ => d = 0) (p.expand h) 0 s := by
  induction p generalizing s with
  | ret a => rfl
  | stop => trivial
  | call c k ih =>
    refine safeUse_bind (safeUse_mono ((honce c hp.1).safe s) ?_)
    rintro r _ s' rfl
    exact ih r (hp.2 r) s'

theorem Inside.not_stop {s s' : S'} {d : Nat} {q : Prog C' R' α}
    (hin : Inside use E' .stop s d q s') : False := by
  induction hin with
  | enter hm => cases hm
  | move _ _ ih => exact ih

/-- A section of a client is its next operation. -/
theorem section_expand (honce : ∀ c, P c → Once use (h c) 0) (hcall : ∀ c a, h c ≠ .ret a)
    (hp : Only T P p) {s s' : S'} {q : Prog C' R' α} (hs : Section use E' (p.expand h) s q s') :
    ∃ c k r, p = .call c k ∧ P c ∧ Runs E' (h c) s (some r) s' ∧ q = (k r).expand h := by
  cases p with
  | ret a =>
    obtain ⟨d, q₁, s₁, hin, -⟩ := hs
    exact hin.not_ret.elim
  | stop =>
    obtain ⟨d, q₁, s₁, hin, -⟩ := hs
    exact hin.not_stop.elim
  | call c k =>
    obtain ⟨r, hrun, rfl⟩ := Section.runs hs (honce c hp.1) (hcall c)
    exact ⟨c, k, r, rfl, hp.1, hrun, rfl⟩

/-! ## Threads -/

section Threads

variable [DecidableEq τ] {clients clients' : τ → Prog C R α} {s s' : S} {t t' : S'}

/-- A thread does its next operation, and no other thread does anything meanwhile. -/
def Atomic (E : Env S C R) (x y : (τ → Prog C R α) × S) : Prop :=
  ∃ i c k r, x.1 i = .call c k ∧ E x.2 c r y.2 ∧ y.1 = Function.update x.1 i (k r)

/-- **Linearization.** Let each operation take the mutex once, and do, from states that a relation
keeps in step, what `E` allows. Then threads of operations reach with the mutex free what whole
operations do in `E`, one after the other. -/
theorem linearizes {sim : S' → S → Prop} {P' : τ → Prog C' R' α}
    (honce : ∀ c, P c → Once use (h c) 0) (hcall : ∀ c a, h c ≠ .ret a)
    (hh : ∀ t s c, sim t s → P c → wp E' True (fun r t' => ∃ s', E s c r s' ∧ sim t' s') (h c) t)
    (hclients : ∀ i, Only T P (clients i)) (hsim : sim t s)
    (hr : Reach use E' ⟨none, t, fun i => (clients i).expand h⟩ ⟨none, t', P'⟩) :
    ∃ clients' s', ReflTransGen (Atomic E) (clients, s) (clients', s') ∧ sim t' s' ∧
      P' = fun i => (clients' i).expand h := by
  have hinv : Inv use E' (fun _ => True) (fun _ => False) True (fun _ _ d _ => d = 0)
      ⟨none, t, fun i => (clients i).expand h⟩ :=
    Inv.init trivial fun i u _ => safe_expand honce (hclients i) u
  suffices ∀ y, ReflTransGen (Serial use E') (fun i => (clients i).expand h, t) y →
      ∃ clients' s', ReflTransGen (Atomic E) (clients, s) (clients', s') ∧ sim y.2 s' ∧
        (∀ i, Only T P (clients' i)) ∧ y.1 = fun i => (clients' i).expand h by
    obtain ⟨clients', s', hatomic, hsim', -, hP⟩ := this (P', t') ((reach_iff hinv).mp hr)
    exact ⟨clients', s', hatomic, hsim', hP⟩
  intro y hy
  induction hy with
  | refl => exact ⟨clients, s, .refl, hsim, hclients, rfl⟩
  | @tail y z _ hst ih =>
    obtain ⟨clients', s', hatomic, hsim', honly, hy⟩ := ih
    obtain ⟨i, q, hsec, hz⟩ := hst
    rw [hy] at hsec hz
    obtain ⟨c, k, r, hc, hP, hrun, rfl⟩ := section_expand honce hcall (honly i) hsec
    obtain ⟨s'', hE, hsim''⟩ := hrun.ends (hh _ _ c hsim' hP)
    have hk : Only T P (k r) := by
      have hcall := honly i
      rw [hc] at hcall
      exact hcall.2 r
    refine ⟨Function.update clients' i (k r), s'', hatomic.tail ⟨i, c, k, r, hc, hE, rfl⟩, hsim'',
      fun j => ?_, ?_⟩
    · by_cases hj : j = i
      · subst hj
        rwa [Function.update_self]
      · rw [Function.update_of_ne hj]
        exact honly j
    · rw [hz]
      funext j
      by_cases hj : j = i
      · subst hj
        simp
      · simp [hj]

/-- The operations of a thread. -/
def doneBy (i : τ) (es : List (τ × Sigma R)) : List (Sigma R) :=
  (es.filter (·.1 = i)).map Prod.snd

/-- What the others do may be left out, if it changes nothing. -/
theorem foldl_doneBy {β ε : Type} {f : β → ε → β} {g : Sigma R → Option ε} {i : τ}
    {es : List (τ × Sigma R)}
    (h : ∀ e ∈ es, e.1 ≠ i → ∀ v, g e.2 = some v → ∀ b, f b v = b) (b : β) :
    ((es.map Prod.snd).filterMap g).foldl f b = ((doneBy i es).filterMap g).foldl f b := by
  induction es generalizing b with
  | nil => rfl
  | cons e es ih =>
    obtain ⟨he, hes⟩ := List.forall_mem_cons.mp h
    by_cases hi : e.1 = i
    · have hdone : doneBy i (e :: es) = e.2 :: doneBy i es := by simp [doneBy, hi]
      rw [hdone, List.map_cons, List.filterMap_cons, List.filterMap_cons]
      cases g e.2 with
      | none => exact ih hes b
      | some v => exact ih hes (f b v)
    · have hdone : doneBy i (e :: es) = doneBy i es := by simp [doneBy, hi]
      rw [hdone, List.map_cons, List.filterMap_cons]
      cases hv : g e.2 with
      | none => exact ih hes b
      | some v =>
        show ((es.map Prod.snd).filterMap g).foldl f (f b v) = _
        rw [he hi v hv b]
        exact ih hes b

/-- **One order.** What whole operations do, one list of all of them tells, in which the operations
of each thread are in its own order. -/
theorem exists_order (hr : ReflTransGen (Atomic E) (clients, s) (clients', s')) :
    ∃ es : List (τ × Sigma R), Along E (es.map Prod.snd) s s' ∧
      ∀ i, Partly (clients i) (doneBy i es) (clients' i) := by
  suffices ∀ y, ReflTransGen (Atomic E) (clients, s) y → ∃ es : List (τ × Sigma R),
      Along E (es.map Prod.snd) s y.2 ∧ ∀ i, Partly (clients i) (doneBy i es) (y.1 i) from
    this _ hr
  intro y hy
  induction hy with
  | refl => exact ⟨[], rfl, fun i => .nil _⟩
  | @tail y z _ hst ih =>
    obtain ⟨es, halong, hpartly⟩ := ih
    obtain ⟨i, c, k, r, hc, hE, hz⟩ := hst
    refine ⟨es ++ [(i, ⟨c, r⟩)], ?_, fun j => ?_⟩
    · rw [List.map_append]
      exact along_append.mpr ⟨_, halong, _, hE, rfl⟩
    · rw [doneBy, List.filter_append, List.map_append, hz]
      have hpart := hpartly j
      by_cases hj : j = i
      · subst hj
        rw [hc] at hpart
        simpa [doneBy] using hpart.snoc r
      · have hne : ¬ i = j := fun heq => hj heq.symm
        simpa [doneBy, hj, hne] using hpart

end Threads

end Mutex
