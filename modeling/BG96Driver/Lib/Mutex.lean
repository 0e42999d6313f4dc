import BG96Driver.Lib.Program
import Mathlib.Logic.Function.Basic
import Mathlib.Logic.Relation

/-!
# Threads that share a state behind one mutex

Each thread runs a program whose calls are answered by one environment, in one state. Two kinds of
calls take and give back a recursive mutex (`Use`); no other call waits, so it is up to the programs
that a call comes only from the owner.

* `Step`: a step of one thread. `Reach`: any number of steps, of any threads.
* `SafeUse I F`: a program makes its calls with the mutex held, but for those of `F`, and gives it
  back only in a state that satisfies `I`, whatever others do meanwhile to a state that satisfies
  `I`. `safeUse_bind` splits a program, `Inv.step` is the soundness: `I` is an invariant of the free
  mutex, if the calls of `F` leave the state as it is.
* `Config.blind`: the threads without the state, for what does not depend on it.
* `Section`: what a thread does from taking the free mutex to giving it back. `reach_iff`: threads
  that are safe without free calls reach with a free mutex what they reach by whole sections, one
  after the other.
* `SafeUse.reach`: a thread may do alone what its program does.
* `Once`: a program with one section. The section is a run of the program (`Section.runs`).
* `Config.stuck`: where threads cannot go on.
-/

namespace Mutex

open Program Relation

/-- What a call does with the mutex. -/
inductive Use where
  | acquire
  | release
  | inside
  deriving DecidableEq

variable {τ S S' C : Type} {R : C → Type} {α β : Type}

/-- The owner of the mutex with the number of times it has taken it beyond the first, the state that
is shared, and what is left of each thread. -/
structure Config (τ S C : Type) (R : C → Type) (α : Type) where
  lock : Option (τ × Nat)
  state : S
  threads : τ → Prog C R α

/-- A move of a thread that may use the mutex: before and after it, how often the thread has taken
the mutex, its program and the state. -/
inductive Move (use : C → Use) (E : Env S C R) :
    Nat → Prog C R α → S → Nat → Prog C R α → S → Prop where
  | acquire {d : Nat} {c : C} {k : R c → Prog C R α} {s s' : S} {r : R c}
    (hc : use c = .acquire) (hE : E s c r s') : Move use E d (.call c k) s (d + 1) (k r) s'
  | release {d : Nat} {c : C} {k : R c → Prog C R α} {s s' : S} {r : R c}
    (hc : use c = .release) (hE : E s c r s') : Move use E (d + 1) (.call c k) s d (k r) s'
  | inside {d : Nat} {c : C} {k : R c → Prog C R α} {s s' : S} {r : R c}
    (hc : use c = .inside) (hE : E s c r s') :
    Move use E (d + 1) (.call c k) s (d + 1) (k r) s'

section Machine

variable [DecidableEq τ]

/-- How often a thread has taken the mutex. -/
def Config.depth (x : Config τ S C R α) (t : τ) : Nat :=
  match x.lock with
  | some (u, n) => if u = t then n + 1 else 0
  | none => 0

/-- The mutex, taken so often by a thread. -/
def taken (t : τ) : Nat → Option (τ × Nat)
  | 0 => none
  | n + 1 => some (t, n)

/-- A step of a thread. It takes the mutex if no other thread has it. A call that is made without
the mutex changes the state all the same. -/
inductive Step (use : C → Use) (E : Env S C R) (t : τ) :
    Config τ S C R α → Config τ S C R α → Prop where
  | move {x : Config τ S C R α} {d : Nat} {p : Prog C R α} {s : S}
    (hfree : ∀ u, u ≠ t → x.depth u = 0)
    (hm : Move use E (x.depth t) (x.threads t) x.state d p s) :
    Step use E t x ⟨taken t d, s, Function.update x.threads t p⟩
  | bare {x : Config τ S C R α} {c : C} {k : R c → Prog C R α} {s : S} {r : R c}
    (hd : x.depth t = 0) (ht : x.threads t = .call c k) (hc : use c ≠ .acquire)
    (hE : E x.state c r s) : Step use E t x ⟨x.lock, s, Function.update x.threads t (k r)⟩

/-- Any number of steps, of any threads. -/
def Reach (use : C → Use) (E : Env S C R) : Config τ S C R α → Config τ S C R α → Prop :=
  ReflTransGen fun x y => ∃ t, Step use E t x y

end Machine

/-! ## Programs that use the mutex well -/

/-- From the depth and the state, each call is made with the mutex held, and the mutex is given back
in a state that satisfies `I`; from then on another state that satisfies `I` may be there. A call of
`F` may be made without the mutex, with any reply. A program that returns does so with `Q`, one that
stops does if `T`. -/
def SafeUse (use : C → Use) (E : Env S C R) (I : S → Prop) (F : C → Prop) (T : Prop)
    (Q : α → Nat → S → Prop) : Prog C R α → Nat → S → Prop
  | .ret a, d, s => Q a d s
  | .stop, _, _ => T
  | .call c k, d, s =>
    match use c, d with
    | .acquire, d => ∀ r s', E s c r s' → SafeUse use E I F T Q (k r) (d + 1) s'
    | .inside, 0 => F c ∧ ∀ r s', I s' → SafeUse use E I F T Q (k r) 0 s'
    | .inside, d + 1 => ∀ r s', E s c r s' → SafeUse use E I F T Q (k r) (d + 1) s'
    | .release, 0 => False
    | .release, 1 => ∀ r s', E s c r s' → I s' ∧ ∀ s'', I s'' → SafeUse use E I F T Q (k r) 0 s''
    | .release, d + 2 => ∀ r s', E s c r s' → SafeUse use E I F T Q (k r) (d + 1) s'

variable {use : C → Use} {E : Env S C R} {I : S → Prop} {F F' : C → Prop} {T : Prop}
  {Q Q' : α → Nat → S → Prop} {p p' : Prog C R α} {s s' : S} {d d' : Nat} {c : C}
  {k : R c → Prog C R α}

theorem safeUse_acquire (hc : use c = .acquire) :
    SafeUse use E I F T Q (.call c k) d s ↔
      ∀ r s', E s c r s' → SafeUse use E I F T Q (k r) (d + 1) s' := by
  simp only [SafeUse, hc]

theorem safeUse_inside (hc : use c = .inside) :
    SafeUse use E I F T Q (.call c k) (d + 1) s ↔
      ∀ r s', E s c r s' → SafeUse use E I F T Q (k r) (d + 1) s' := by
  simp only [SafeUse, hc]

theorem safeUse_free (hc : use c = .inside) :
    SafeUse use E I F T Q (.call c k) 0 s ↔
      F c ∧ ∀ r s', I s' → SafeUse use E I F T Q (k r) 0 s' := by
  simp only [SafeUse, hc]

theorem safeUse_release (hc : use c = .release) :
    SafeUse use E I F T Q (.call c k) d s ↔ 0 < d ∧ ∀ r s', E s c r s' →
      (d = 1 → I s') ∧ ∀ s'', (if d = 1 then I s'' else s'' = s') →
        SafeUse use E I F T Q (k r) (d - 1) s'' := by
  match d with
  | 0 => simp [SafeUse, hc]
  | 1 => simp [SafeUse, hc]
  | d + 2 => simp [SafeUse, hc]

theorem safeUse_weaken (h : SafeUse use E I F T Q p d s) (hF : ∀ c, F c → F' c)
    (hQ : ∀ a d s, Q a d s → Q' a d s) : SafeUse use E I F' T Q' p d s := by
  induction p generalizing d s with
  | ret a => exact hQ a d s h
  | stop => exact h
  | call c k ih =>
    cases hc : use c with
    | acquire =>
      rw [safeUse_acquire hc] at h ⊢
      exact fun r s' hE => ih r (h r s' hE)
    | inside =>
      cases d with
      | zero =>
        rw [safeUse_free hc] at h ⊢
        exact ⟨hF c h.1, fun r s' hs => ih r (h.2 r s' hs)⟩
      | succ d =>
        rw [safeUse_inside hc] at h ⊢
        exact fun r s' hE => ih r (h r s' hE)
    | release =>
      rw [safeUse_release hc] at h ⊢
      refine ⟨h.1, fun r s' hE => ⟨(h.2 r s' hE).1, fun s'' hs => ?_⟩⟩
      exact ih r ((h.2 r s' hE).2 s'' hs)

theorem safeUse_mono (h : SafeUse use E I F T Q p d s) (hQ : ∀ a d s, Q a d s → Q' a d s) :
    SafeUse use E I F T Q' p d s := safeUse_weaken h (fun _ => id) hQ

/-- A program and then another. -/
theorem safeUse_bind {f : α → Prog C R β} {Q : β → Nat → S → Prop}
    (h : SafeUse use E I F T (fun a d s => SafeUse use E I F T Q (f a) d s) p d s) :
    SafeUse use E I F T Q (p >>= f) d s := by
  induction p generalizing d s with
  | ret a => exact h
  | stop => exact h
  | call c k ih =>
    rw [Prog.call_bind]
    cases hc : use c with
    | acquire =>
      rw [safeUse_acquire hc] at h ⊢
      exact fun r s' hE => ih r (h r s' hE)
    | inside =>
      cases d with
      | zero =>
        rw [safeUse_free hc] at h ⊢
        exact ⟨h.1, fun r s' hs => ih r (h.2 r s' hs)⟩
      | succ d =>
        rw [safeUse_inside hc] at h ⊢
        exact fun r s' hE => ih r (h r s' hE)
    | release =>
      rw [safeUse_release hc] at h ⊢
      refine ⟨h.1, fun r s' hE => ⟨(h.2 r s' hE).1, fun s'' hs => ?_⟩⟩
      exact ih r ((h.2 r s' hE).2 s'' hs)

/-- A program that works with the mutex held, and leaves it alone. -/
theorem safeUse_of_wp (hp : Only T (fun c => use c = .inside) p)
    (h : wp E T (fun a s' => Q a (d + 1) s') p s) : SafeUse use E I F T Q p (d + 1) s := by
  induction p generalizing s with
  | ret a => exact h
  | stop => exact h
  | call c k ih =>
    rw [safeUse_inside hp.1]
    exact fun r s' hE => ih r (hp.2 r) (h r s' hE)

/-- Let `E` give every answer in every state. Then what is safe in `E` makes its calls with the
mutex held in every environment. -/
theorem SafeUse.env {E' : Env S' C R} (hE : ∀ s c r, ∃ s', E s c r s') (hI : ∃ s, I s)
    (h : SafeUse use E I F T Q p d s) (t : S') :
    SafeUse use E' (fun _ => True) F T (fun a d _ => ∃ s, Q a d s) p d t := by
  induction p generalizing d s t with
  | ret a => exact ⟨s, h⟩
  | stop => exact h
  | call c k ih =>
    cases hc : use c with
    | acquire =>
      rw [safeUse_acquire hc] at h ⊢
      intro r t' _
      obtain ⟨s', hs⟩ := hE s c r
      exact ih r (h r s' hs) t'
    | inside =>
      cases d with
      | zero =>
        rw [safeUse_free hc] at h ⊢
        obtain ⟨s', hs⟩ := hI
        exact ⟨h.1, fun r t' _ => ih r (h.2 r s' hs) t'⟩
      | succ d =>
        rw [safeUse_inside hc] at h ⊢
        intro r t' _
        obtain ⟨s', hs⟩ := hE s c r
        exact ih r (h r s' hs) t'
    | release =>
      rw [safeUse_release hc] at h ⊢
      refine ⟨h.1, fun r t' _ => ⟨fun _ => trivial, fun t'' _ => ?_⟩⟩
      obtain ⟨s', hs⟩ := hE s c r
      refine ih r ((h.2 r s' hs).2 s' ?_) t''
      split
      · exact (h.2 r s' hs).1 ‹_›
      · rfl

/-- What a safe program is after a move. -/
theorem SafeUse.move (h : SafeUse use E I F T Q p d s) (hm : Move use E d p s d' p' s') :
    (0 < d' → SafeUse use E I F T Q p' d' s') ∧
      (d' = 0 → I s' ∧ ∀ s'', I s'' → SafeUse use E I F T Q p' 0 s'') := by
  cases hm with
  | acquire hc hE => exact ⟨fun _ => (safeUse_acquire hc).mp h _ _ hE, nofun⟩
  | inside hc hE => exact ⟨fun _ => (safeUse_inside hc).mp h _ _ hE, nofun⟩
  | release hc hE =>
    have hr := ((safeUse_release hc).mp h).2 _ _ hE
    constructor
    · intro hd
      exact hr.2 s' (by rw [if_neg (by omega)])
    · rintro rfl
      exact ⟨hr.1 rfl, fun s'' hs => hr.2 s'' hs⟩

/-- A safe program without the mutex takes it with its next call, or this is a free call. -/
theorem SafeUse.bare (h : SafeUse use E I F T Q (.call c k) 0 s) (hc : use c ≠ .acquire) :
    F c ∧ ∀ r s', I s' → SafeUse use E I F T Q (k r) 0 s' := by
  cases huse : use c with
  | acquire => exact absurd huse hc
  | inside => exact (safeUse_free huse).mp h
  | release => exact absurd ((safeUse_release huse).mp h).1 (Nat.lt_irrefl 0)

/-! ## Programs with one section -/

/-- From the depth beyond the first, the program gives the mutex back as often as it takes it, and
stays at the first depth or above it. -/
def Stays (use : C → Use) : Prog C R α → Nat → Prop
  | .ret _, e => e = 0
  | .stop, _ => True
  | .call c k, e =>
    match use c, e with
    | .acquire, e => ∀ r, Stays use (k r) (e + 1)
    | .inside, e => ∀ r, Stays use (k r) e
    | .release, 0 => False
    | .release, e + 1 => ∀ r, Stays use (k r) e

/-- From the depth, the program makes its calls with the mutex held; and when it has given the mutex
back, it returns. -/
def Once (use : C → Use) : Prog C R α → Nat → Prop
  | .ret _, d => d = 0
  | .stop, _ => True
  | .call c k, d =>
    match use c, d with
    | .acquire, d => ∀ r, Once use (k r) (d + 1)
    | .inside, d => 0 < d ∧ ∀ r, Once use (k r) d
    | .release, 0 => False
    | .release, 1 => ∀ r, ∃ a, k r = .ret a
    | .release, d + 2 => ∀ r, Once use (k r) (d + 1)

theorem Stays.bind {f : α → Prog C R β} {e : Nat} (hp : Stays use p e)
    (hf : ∀ a, Stays use (f a) 0) : Stays use (p >>= f) e := by
  induction p generalizing e with
  | ret a =>
    obtain rfl : e = 0 := hp
    exact hf a
  | stop => trivial
  | call c k ih =>
    rw [Prog.call_bind]
    cases hc : use c with
    | acquire =>
      simp only [Stays, hc] at hp ⊢
      exact fun r => ih r (hp r)
    | inside =>
      simp only [Stays, hc] at hp ⊢
      exact fun r => ih r (hp r)
    | release =>
      cases e with
      | zero => simp only [Stays, hc] at hp
      | succ e =>
        simp only [Stays, hc] at hp ⊢
        exact fun r => ih r (hp r)

theorem stays_of_only (hp : Only True (fun c => use c = .inside) p) : Stays use p 0 := by
  induction p with
  | ret a => rfl
  | stop => trivial
  | call c k ih =>
    simp only [Stays, hp.1]
    exact fun r => ih r (hp.2 r)

/-- A part that stays above the depth, and then a program. -/
theorem Stays.once {f : α → Prog C R β} {e : Nat} (hp : Stays use p e)
    (hf : ∀ a, Once use (f a) (d + 1)) : Once use (p >>= f) (d + 1 + e) := by
  induction p generalizing e with
  | ret a =>
    obtain rfl : e = 0 := hp
    exact hf a
  | stop => trivial
  | call c k ih =>
    rw [Prog.call_bind]
    cases hc : use c with
    | acquire =>
      simp only [Stays, Once, hc] at hp ⊢
      exact fun r => ih r (hp r)
    | inside =>
      simp only [Stays, Once, hc] at hp ⊢
      exact ⟨by omega, fun r => ih r (hp r)⟩
    | release =>
      cases e with
      | zero => simp only [Stays, hc] at hp
      | succ e =>
        rw [show d + 1 + (e + 1) = d + e + 2 by omega]
        simp only [Stays, Once, hc] at hp ⊢
        intro r
        rw [show d + e + 1 = d + 1 + e by omega]
        exact ih r (hp r)

theorem Once.stays (hp : Once use p d) : Stays use p d := by
  induction p generalizing d with
  | ret a => exact hp
  | stop => trivial
  | call c k ih =>
    cases hc : use c with
    | acquire =>
      simp only [Stays, Once, hc] at hp ⊢
      exact fun r => ih r (hp r)
    | inside =>
      simp only [Stays, Once, hc] at hp ⊢
      exact fun r => ih r (hp.2 r)
    | release =>
      match d with
      | 0 => simp only [Once, hc] at hp
      | 1 =>
        simp only [Stays, Once, hc] at hp ⊢
        intro r
        obtain ⟨a, ha⟩ := hp r
        rw [ha]
        rfl
      | d + 2 =>
        simp only [Stays, Once, hc] at hp ⊢
        exact fun r => ih r (hp r)

/-- A program with one section, and then a value. -/
theorem Once.bind_ret {f : α → Prog C R β} (hp : Once use p d) (hf : ∀ a, ∃ b, f a = .ret b) :
    Once use (p >>= f) d := by
  induction p generalizing d with
  | ret a =>
    obtain rfl : d = 0 := hp
    obtain ⟨b, hb⟩ := hf a
    rw [Prog.ret_bind, hb]
    rfl
  | stop => trivial
  | call c k ih =>
    rw [Prog.call_bind]
    cases hc : use c with
    | acquire =>
      simp only [Once, hc] at hp ⊢
      exact fun r => ih r (hp r)
    | inside =>
      simp only [Once, hc] at hp ⊢
      exact ⟨hp.1, fun r => ih r (hp.2 r)⟩
    | release =>
      match d with
      | 0 => simp only [Once, hc] at hp
      | 1 =>
        simp only [Once, hc] at hp ⊢
        intro r
        obtain ⟨a, ha⟩ := hp r
        rw [ha]
        exact hf a
      | d + 2 =>
        simp only [Once, hc] at hp ⊢
        exact fun r => ih r (hp r)

/-- A program with one section is safe, whatever the others do. -/
theorem Once.safe (hp : Once use p d) (s : S) :
    SafeUse use E (fun _ => True) (fun _ => False) True (fun _ d _ => d = 0) p d s := by
  induction p generalizing d s with
  | ret a => exact hp
  | stop => trivial
  | call c k ih =>
    cases hc : use c with
    | acquire =>
      simp only [Once, hc] at hp
      exact (safeUse_acquire hc).mpr fun r s' _ => ih r (hp r) s'
    | inside =>
      simp only [Once, hc] at hp
      obtain ⟨e, rfl⟩ := Nat.exists_eq_add_of_lt hp.1
      rw [Nat.zero_add] at hp ⊢
      exact (safeUse_inside hc).mpr fun r s' _ => ih r (hp.2 r) s'
    | release =>
      refine (safeUse_release hc).mpr ?_
      rcases d with _ | _ | d
      · simp only [Once, hc] at hp
      · change Once use (.call c k) 1 at hp
        simp only [Once, hc] at hp
        refine ⟨Nat.one_pos, fun r s' _ => ⟨fun _ => trivial, fun s'' _ => ?_⟩⟩
        obtain ⟨a, ha⟩ := hp r
        rw [ha]
        rfl
      · change Once use (.call c k) (d + 2) at hp
        simp only [Once, hc] at hp
        exact ⟨by omega, fun r s' _ => ⟨fun _ => trivial, fun s'' _ => ih r (hp r) s''⟩⟩

/-! ## Threads that are safe -/

section Threads

variable [DecidableEq τ] {x y : Config τ S C R α} {t u : τ}

/-- A thread has taken the mutex if and only if it is the owner. -/
theorem Config.lock_of_depth (h : 0 < x.depth t) : ∃ n, x.lock = some (t, n) := by
  unfold Config.depth at h
  split at h
  · split at h
    · subst_vars
      exact ⟨_, ‹_›⟩
    · omega
  · omega

/-- There is one owner. -/
theorem Config.owner_unique (ht : 0 < x.depth t) (hu : 0 < x.depth u) : t = u := by
  obtain ⟨n, hn⟩ := Config.lock_of_depth ht
  obtain ⟨m, hm⟩ := Config.lock_of_depth hu
  rw [hn] at hm
  cases hm
  rfl

theorem Config.depth_of_free (h : x.lock = none) (t : τ) : x.depth t = 0 := by
  simp [Config.depth, h]

@[simp] theorem depth_taken_self {s : S} {P : τ → Prog C R α} :
    (Config.mk (taken t d) s P).depth t = d := by
  cases d <;> simp [Config.depth, taken]

theorem depth_taken_of_ne {s : S} {P : τ → Prog C R α} (h : u ≠ t) :
    (Config.mk (taken t d) s P).depth u = 0 := by
  cases d <;> simp [Config.depth, taken, h.symm]

/-- No other thread has the mutex. -/
theorem Config.eq_taken (h : ∀ u, u ≠ t → x.depth u = 0) : x.lock = taken t (x.depth t) := by
  rcases hx : x.lock with _ | ⟨u, n⟩
  · simp [Config.depth, hx, taken]
  · have hu : x.depth u = n + 1 := by simp [Config.depth, hx]
    by_cases hut : u = t
    · subst hut
      rw [hu]
      rfl
    · exact absurd (h u hut) (by omega)

/-- The owner is safe where it is, another thread wherever `I` holds; and `I` holds if the mutex is
free. -/
structure Inv (use : C → Use) (E : Env S C R) (I : S → Prop) (F : C → Prop) (T : Prop)
    (Q : τ → α → Nat → S → Prop) (x : Config τ S C R α) : Prop where
  owner (t : τ) (h : 0 < x.depth t) :
    SafeUse use E I F T (Q t) (x.threads t) (x.depth t) x.state
  other (t : τ) (h : x.depth t = 0) (s : S) (hs : I s) :
    SafeUse use E I F T (Q t) (x.threads t) 0 s
  free (h : x.lock = none) : I x.state

variable {Q : τ → α → Nat → S → Prop}

theorem Inv.init {P : τ → Prog C R α} (hI : I s)
    (hP : ∀ t s, I s → SafeUse use E I F T (Q t) (P t) 0 s) : Inv use E I F T Q ⟨none, s, P⟩ :=
  ⟨fun _ h => absurd h (Nat.lt_irrefl 0), fun t _ s' hs => hP t s' hs, fun _ => hI⟩

/-- **Mutual exclusion.** A thread makes a call without the mutex only to take it, or if the call is
free. -/
theorem Inv.holds (h : Inv use E I F T Q x) (hI : ∃ s, I s) {c : C} {k : R c → Prog C R α}
    (ht : x.threads t = .call c k) (hc : use c ≠ .acquire) (hF : ¬ F c) : 0 < x.depth t := by
  by_contra hd
  obtain ⟨s, hs⟩ := hI
  have hsafe := h.other t (by omega) s hs
  rw [ht] at hsafe
  exact hF (hsafe.bare hc).1

/-- The move of a thread keeps the invariant, if no other thread has the mutex. -/
theorem Inv.move (h : Inv use E I F T Q x) (hfree : ∀ u, u ≠ t → x.depth u = 0)
    (hm : Move use E (x.depth t) (x.threads t) x.state d p s) :
    Inv use E I F T Q ⟨taken t d, s, Function.update x.threads t p⟩ := by
  -- the thread that moves is safe in the state of the configuration
  have hsafe : SafeUse use E I F T (Q t) (x.threads t) (x.depth t) x.state := by
    by_cases hd : 0 < x.depth t
    · exact h.owner t hd
    · have hd0 : x.depth t = 0 := by omega
      rw [hd0]
      exact h.other t hd0 _ (h.free (by rw [Config.eq_taken hfree, hd0]; rfl))
  have hmove := hsafe.move hm
  constructor
  · intro u hu
    by_cases hut : u = t
    · subst hut
      rw [depth_taken_self] at hu ⊢
      simpa using hmove.1 hu
    · rw [depth_taken_of_ne hut] at hu
      omega
  · intro u hu s' hs
    by_cases hut : u = t
    · subst hut
      rw [depth_taken_self] at hu
      simpa using (hmove.2 hu).2 s' hs
    · simpa [hut] using h.other u (hfree u hut) s' hs
  · intro hl
    cases d with
    | zero => exact (hmove.2 rfl).1
    | succ d => nomatch hl

/-- Each step keeps the invariant. -/
theorem Inv.step (h : Inv use E I F T Q x) (hI : ∃ s, I s)
    (hkeep : ∀ s c r s', F c → E s c r s' → s' = s) (hst : Step use E t x y) :
    Inv use E I F T Q y := by
  cases hst with
  | move hfree hm => exact h.move hfree hm
  | @bare c k s r hd ht hc hE =>
    have hbare {s : S} (hs : I s) : F c ∧ ∀ r s', I s' → SafeUse use E I F T (Q t) (k r) 0 s' := by
      have hsafe := h.other t hd s hs
      rw [ht] at hsafe
      exact hsafe.bare hc
    obtain ⟨s₀, hs₀⟩ := hI
    obtain rfl := hkeep _ _ _ _ (hbare hs₀).1 hE
    constructor
    · intro u hu
      have hut : u ≠ t := by
        rintro rfl
        exact absurd hd (Nat.pos_iff_ne_zero.mp hu)
      have howner := h.owner u hu
      rw [← Function.update_of_ne hut (k r) x.threads] at howner
      exact howner
    · intro u hu s' hs
      by_cases hut : u = t
      · subst hut
        simpa using (hbare hs).2 r s' hs
      · simpa [hut] using h.other u hu s' hs
    · exact h.free

/-- **The invariant of the free mutex.** It holds whenever the mutex is free, in every run of the
threads. -/
theorem Inv.reach (h : Inv use E I F T Q x) (hI : ∃ s, I s)
    (hkeep : ∀ s c r s', F c → E s c r s' → s' = s) (hr : Reach use E x y) :
    Inv use E I F T Q y := by
  induction hr with
  | refl => exact h
  | tail _ hst ih =>
    obtain ⟨t, hst⟩ := hst
    exact ih.step hI hkeep hst

/-! ### Threads without their state -/

/-- The threads without the state. -/
def Config.blind (x : Config τ S C R α) : Config τ Unit C R α := ⟨x.lock, (), x.threads⟩

/-- Any reply comes. -/
def anyReply : Env Unit C R := fun _ _ _ _ => True

theorem Move.blind (h : Move use E d p s d' p' s') : Move use anyReply d p () d' p' () := by
  cases h with
  | acquire hc _ => exact .acquire hc trivial
  | release hc _ => exact .release hc trivial
  | inside hc _ => exact .inside hc trivial

theorem Step.blind (h : Step use E t x y) : Step use anyReply t x.blind y.blind := by
  cases h with
  | move hfree hm => exact .move (x := x.blind) hfree hm.blind
  | bare hd ht hc _ => exact .bare (x := x.blind) hd ht hc trivial

theorem Reach.blind (h : Reach use E x y) : Reach use anyReply x.blind y.blind := by
  induction h with
  | refl => exact .refl
  | tail _ hst ih =>
    obtain ⟨t, hst⟩ := hst
    exact ih.tail ⟨t, hst.blind⟩

/-! ## Sections -/

/-- What a thread does from taking the free mutex: how often it has taken it, what is left of the
program and the state. -/
inductive Inside (use : C → Use) (E : Env S C R) (p : Prog C R α) (s : S) :
    Nat → Prog C R α → S → Prop where
  | enter {d : Nat} {p' : Prog C R α} {s' : S} (hm : Move use E 0 p s d p' s') :
    Inside use E p s d p' s'
  | move {d d' : Nat} {p' p'' : Prog C R α} {s' s'' : S} (h : Inside use E p s d p' s')
    (hm : Move use E d p' s' (d' + 1) p'' s'') : Inside use E p s (d' + 1) p'' s''

/-- A section: from taking the free mutex to giving it back. -/
def Section (use : C → Use) (E : Env S C R) (p : Prog C R α) (s : S) (p' : Prog C R α) (s' : S) :
    Prop :=
  ∃ d p₁ s₁, Inside use E p s (d + 1) p₁ s₁ ∧ Move use E (d + 1) p₁ s₁ 0 p' s'

theorem Inside.pos (h : Inside use E p s d p' s') : 0 < d := by
  cases h with
  | enter hm => cases hm; omega
  | move => omega

theorem Move.bind {f : α → Prog C R β} (h : Move use E d p s d' p' s') :
    Move use E d (p >>= f) s d' (p' >>= f) s' := by
  cases h with
  | acquire hc hE => exact .acquire hc hE
  | release hc hE => exact .release hc hE
  | inside hc hE => exact .inside hc hE

theorem Inside.bind {f : α → Prog C R β} (h : Inside use E p s d p' s') :
    Inside use E (p >>= f) s d (p' >>= f) s' := by
  induction h with
  | enter hm => exact .enter hm.bind
  | move _ hm ih => exact ih.move hm.bind

theorem Inside.not_ret {a : α} (h : Inside use E (.ret a) s d p' s') : False := by
  induction h with
  | enter hm => cases hm
  | move _ _ ih => exact ih

/-- In the section of a program with one section, there is a rest of it; a run of the rest completes
a run of the program. -/
theorem Inside.once {f : α → Prog C R β} {q : Prog C R β} (h : Inside use E (p >>= f) s d q s')
    (hp : Once use p 0) (hret : ∀ a, p ≠ .ret a) :
    ∃ p', q = (p' >>= f) ∧ Once use p' d ∧ ∀ o s'', Runs E p' s' o s'' → Runs E p s o s'' := by
  induction h with
  | enter hm =>
    cases p with
    | ret a => exact absurd rfl (hret a)
    | stop => cases hm
    | call c k =>
      cases hm with
      | acquire hc hE =>
        simp only [Once, hc] at hp
        exact ⟨_, rfl, hp _, fun o s'' hr => .call hE hr⟩
  | move hin hm ih =>
    obtain ⟨p', rfl, honce, hruns⟩ := ih
    cases p' with
    | ret a => exact absurd honce (Nat.pos_iff_ne_zero.mp hin.pos)
    | stop => cases hm
    | call c k =>
      cases hm with
      | acquire hc hE =>
        simp only [Once, hc] at honce
        exact ⟨_, rfl, honce _, fun o s'' hr => hruns o s'' (.call hE hr)⟩
      | inside hc hE =>
        simp only [Once, hc] at honce
        exact ⟨_, rfl, honce.2 _, fun o s'' hr => hruns o s'' (.call hE hr)⟩
      | release hc hE =>
        simp only [Once, hc] at honce
        exact ⟨_, rfl, honce _, fun o s'' hr => hruns o s'' (.call hE hr)⟩

/-- **One section.** The section of a program that has one is a run of it. -/
theorem Section.runs {f : α → Prog C R β} {q : Prog C R β}
    (h : Section use E (p >>= f) s q s') (hp : Once use p 0) (hret : ∀ a, p ≠ .ret a) :
    ∃ a, Runs E p s (some a) s' ∧ q = f a := by
  obtain ⟨d, p₁, s₁, hin, hm⟩ := h
  obtain ⟨p', rfl, honce, hruns⟩ := hin.once hp hret
  cases p' with
  | ret a => nomatch honce
  | stop => cases hm
  | call c k =>
    cases hm with
    | @release _ _ _ _ _ r hc hE =>
      have honce : Once use (.call c k) 1 := honce
      simp only [Once, hc] at honce
      obtain ⟨a, ha⟩ := honce r
      have hend : Runs E (k r) s' (some a) s' := by
        rw [ha]
        exact .ret a s'
      have hk : (k r >>= f) = f a := by
        rw [ha]
        rfl
      exact ⟨a, hruns _ _ (.call hE hend), hk⟩

/-- A section of one of the threads. -/
def Serial (use : C → Use) (E : Env S C R) (x y : (τ → Prog C R α) × S) : Prop :=
  ∃ t p, Section use E (x.1 t) x.2 p y.2 ∧ y.1 = Function.update x.1 t p

/-- A section that is under way. -/
def UnderWay (use : C → Use) (E : Env S C R) (P : τ → Prog C R α) (s : S)
    (x : Config τ S C R α) : Prop :=
  (x.lock = none ∧ x.threads = P ∧ x.state = s) ∨
    ∃ t, 0 < x.depth t ∧ Inside use E (P t) s (x.depth t) (x.threads t) x.state ∧
      ∀ u, u ≠ t → x.threads u = P u

/-- The step of a thread is a move of it, and no other thread has the mutex. -/
theorem Inv.moves (h : Inv use E I (fun _ => False) T Q x) (hI : ∃ s, I s)
    (hst : Step use E t x y) :
    (∀ u, u ≠ t → x.depth u = 0) ∧ ∃ d p s, Move use E (x.depth t) (x.threads t) x.state d p s ∧
      y = ⟨taken t d, s, Function.update x.threads t p⟩ := by
  cases hst with
  | move hfree hm => exact ⟨hfree, _, _, _, hm, rfl⟩
  | bare hd ht hc hE => exact absurd (h.holds hI ht hc id) (by omega)

/-- **Serial runs.** Safe threads have run whole sections, one after the other, and the owner of the
mutex is in the middle of one. -/
theorem Inv.serial {P : τ → Prog C R α} (h : Inv use E I (fun _ => False) T Q ⟨none, s, P⟩)
    (hr : Reach use E ⟨none, s, P⟩ x) :
    ∃ P' s', ReflTransGen (Serial use E) (P, s) (P', s') ∧ UnderWay use E P' s' x := by
  have hI : ∃ s, I s := ⟨s, h.free rfl⟩
  induction hr with
  | refl => exact ⟨P, s, .refl, .inl ⟨rfl, rfl, rfl⟩⟩
  | tail hxy hst ih =>
    obtain ⟨t, hst⟩ := hst
    obtain ⟨P', s', hser, hway⟩ := ih
    obtain ⟨hfree, d, p, s₁, hm, rfl⟩ := (h.reach hI (fun _ _ _ _ => False.elim) hxy).moves hI hst
    rcases hway with ⟨hl, rfl, rfl⟩ | ⟨u, hu, hin, hothers⟩
    · -- the mutex is free: the thread takes it
      rw [Config.depth_of_free hl] at hm
      refine ⟨_, _, hser, .inr ⟨t, ?_⟩⟩
      rw [depth_taken_self]
      refine ⟨(Inside.enter hm).pos, by simpa using Inside.enter hm, fun v hv => ?_⟩
      simp [hv]
    · obtain rfl : u = t := by
        by_contra hut
        have := hfree u hut
        omega
      cases d with
      | succ d =>
        refine ⟨P', s', hser, .inr ⟨u, ?_⟩⟩
        rw [depth_taken_self]
        refine ⟨by omega, by simpa using hin.move hm, fun v hv => ?_⟩
        simpa [hv] using hothers v hv
      | zero =>
        -- it gives the mutex back: the section is complete
        obtain ⟨n, hn⟩ : ∃ n, Config.depth _ u = n + 1 := ⟨_, (Nat.succ_pred_eq_of_pos hu).symm⟩
        rw [hn] at hin hm
        refine ⟨Function.update P' u p, s₁, hser.tail ⟨u, p, ⟨n, _, _, hin, hm⟩, rfl⟩, .inl ?_⟩
        refine ⟨rfl, funext fun v => ?_, rfl⟩
        by_cases hv : v = u
        · subst hv
          simp
        · simpa [hv] using hothers v hv

/-- What a thread does in a section, it can do as steps. -/
theorem Inside.reach {P : τ → Prog C R α} (h : Inside use E (P t) s d p' s') :
    Reach use E ⟨none, s, P⟩ ⟨taken t d, s', Function.update P t p'⟩ := by
  induction h with
  | enter hm =>
    refine .single ⟨t, .move (x := ⟨none, s, P⟩) (fun _ _ => rfl) ?_⟩
    simpa [Config.depth] using hm
  | @move d d' p' p'' s' s'' _ hm ih =>
    have hst : Step use E t ⟨taken t d, s', Function.update P t p'⟩
        ⟨taken t (d' + 1), s'', Function.update (Function.update P t p') t p''⟩ := by
      refine .move (fun _ hu => depth_taken_of_ne hu) ?_
      simpa using hm
    rw [Function.update_idem] at hst
    exact ih.tail ⟨t, hst⟩

theorem Section.reach {P : τ → Prog C R α} (h : Section use E (P t) s p' s') :
    Reach use E ⟨none, s, P⟩ ⟨none, s', Function.update P t p'⟩ := by
  obtain ⟨d, p₁, s₁, hin, hm⟩ := h
  have hst : Step use E t ⟨taken t (d + 1), s₁, Function.update P t p₁⟩
      ⟨taken t 0, s', Function.update (Function.update P t p₁) t p'⟩ := by
    refine .move (fun _ hu => depth_taken_of_ne hu) ?_
    simpa using hm
  rw [Function.update_idem] at hst
  exact hin.reach.tail ⟨t, hst⟩

/-- A call of a safe program is a move. -/
theorem SafeUse.exists_move {Q : α → Nat → S → Prop} {r : R c}
    (hs : SafeUse use E I (fun _ => False) T Q (.call c k) d s) (hE : E s c r s') :
    ∃ d', Move use E d (.call c k) s d' (k r) s' := by
  cases hc : use c with
  | acquire => exact ⟨d + 1, .acquire hc hE⟩
  | inside =>
    cases d with
    | zero => exact ((safeUse_free hc).mp hs).1.elim
    | succ e => exact ⟨e + 1, .inside hc hE⟩
  | release =>
    obtain ⟨e, rfl⟩ := Nat.exists_eq_add_of_lt ((safeUse_release hc).mp hs).1
    rw [Nat.zero_add]
    exact ⟨e, .release hc hE⟩

/-- What a safe program does alone, a thread that begins with it can do while the others wait. -/
theorem SafeUse.reach {Q : α → Nat → S → Prop} {f : α → Prog C R β} {P : τ → Prog C R β} {a : α}
    (hs : SafeUse use E (fun _ => True) (fun _ => False) T Q p d s)
    (hrun : Runs E p s (some a) s') :
    ∃ d', Q a d' s' ∧ Reach use E ⟨taken t d, s, Function.update P t (p >>= f)⟩
      ⟨taken t d', s', Function.update P t (f a)⟩ := by
  generalize ho : some a = o at hrun
  induction hrun generalizing d with
  | ret b s =>
    cases ho
    exact ⟨d, hs, .refl⟩
  | stop s => cases ho
  | @call c k s s₁ s₂ r o hE hk ih =>
    obtain ⟨d₁, hm⟩ := hs.exists_move hE
    have hk : SafeUse use E (fun _ => True) (fun _ => False) T Q (k r) d₁ s₁ := by
      cases d₁ with
      | zero => exact ((hs.move hm).2 rfl).2 _ trivial
      | succ d₁ => exact (hs.move hm).1 (Nat.succ_pos d₁)
    obtain ⟨d', hQ, hreach⟩ := ih hk ho
    have hst : Step use E t ⟨taken t d, s, Function.update P t (.call c k >>= f)⟩
        ⟨taken t d₁, s₁,
          Function.update (Function.update P t (.call c k >>= f)) t (k r >>= f)⟩ := by
      refine .move (fun _ hu => depth_taken_of_ne hu) ?_
      simpa using hm.bind (f := f)
    rw [Function.update_idem] at hst
    exact ⟨d', hQ, .head ⟨t, hst⟩ hreach⟩

/-- **Atomicity.** Safe threads get to a state with the mutex free if and only if whole sections,
one after the other, lead there. -/
theorem reach_iff {P P' : τ → Prog C R α} (h : Inv use E I (fun _ => False) T Q ⟨none, s, P⟩) :
    Reach use E ⟨none, s, P⟩ ⟨none, s', P'⟩ ↔
      ReflTransGen (Serial use E) (P, s) (P', s') := by
  constructor
  · intro hr
    obtain ⟨P₁, s₁, hser, ⟨-, rfl, rfl⟩ | ⟨t, ht, -⟩⟩ := h.serial hr
    · exact hser
    · exact absurd ht (Nat.lt_irrefl 0)
  · intro hser
    suffices ∀ x, ReflTransGen (Serial use E) (P, s) x →
        Reach use E ⟨none, s, P⟩ ⟨none, x.2, x.1⟩ from this (P', s') hser
    intro x hx
    induction hx with
    | refl => exact .refl
    | tail _ hst ih =>
      obtain ⟨t, p, hsec, hp⟩ := hst
      rw [hp]
      exact ih.trans hsec.reach

/-! ## Progress -/

/-- The program makes no call. -/
def Ended : Prog C R α → Prop
  | .call .. => False
  | _ => True

/-- **Progress.** If no thread can take a step, then all have ended, or the owner of the mutex has
ended and keeps it. -/
theorem Config.stuck (hE : ∀ s c, ∃ r s', E s c r s')
    (hx : ∀ t y, ¬ Step use E t x y) :
    (∀ t, Ended (x.threads t)) ∨ ∃ t, 0 < x.depth t ∧ Ended (x.threads t) := by
  by_contra hne
  rw [not_or, not_forall, not_exists] at hne
  obtain ⟨⟨t, ht⟩, howner⟩ := hne
  -- the owner can go on, or `t` can take the free mutex
  by_cases hfree : ∃ u, 0 < x.depth u
  · obtain ⟨u, hu⟩ := hfree
    have hfree : ∀ v, v ≠ u → x.depth v = 0 := fun v hv => by
      by_contra hv'
      exact hv (Config.owner_unique (by omega) hu)
    have hnot := howner u
    cases hp : x.threads u with
    | ret a => exact hnot ⟨hu, by rw [hp]; trivial⟩
    | stop => exact hnot ⟨hu, by rw [hp]; trivial⟩
    | call c k =>
      obtain ⟨r, s', hE⟩ := hE x.state c
      obtain ⟨n, hn⟩ : ∃ n, x.depth u = n + 1 := ⟨_, (Nat.succ_pred_eq_of_pos hu).symm⟩
      cases hc : use c with
      | acquire => exact hx u _ (.move hfree (by rw [hp]; exact .acquire hc hE))
      | release => exact hx u _ (.move hfree (by rw [hp, hn]; exact .release hc hE))
      | inside => exact hx u _ (.move hfree (by rw [hp, hn]; exact .inside hc hE))
  · have hzero (u : τ) : x.depth u = 0 := by
      by_contra hu
      exact hfree ⟨u, by omega⟩
    cases hp : x.threads t with
    | ret a => exact ht (by rw [hp]; trivial)
    | stop => exact ht (by rw [hp]; trivial)
    | call c k =>
      obtain ⟨r, s', hE⟩ := hE x.state c
      by_cases hc : use c = .acquire
      · exact hx t _ (.move (fun u _ => hzero u) (by rw [hp]; exact .acquire hc hE))
      · exact hx t _ (.bare (hzero t) hp hc hE)

end Threads

end Mutex
