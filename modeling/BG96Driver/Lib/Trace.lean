import BG96Driver.Lib.Program
import Mathlib.Data.List.Infix

/-!
# The traces of a program

A trace lists the calls of a run, the oldest first, each with its answer. Any answers make a trace:
what holds of every trace holds in every environment.

* `Traces`: the traces of a program, with what the run returns.
* `traces_ret`, `traces_call`, `traces_bind`, `traces_bind_some`: how the traces of a program are
  put together.
* `Traces.prefix_unique`: a list begins with one trace of a program at most, so a sequence is cut in
  one way (`Traces.bind_iff`).
* `infix_append_iff`, `infix_cons_iff_prefix`: where a part of a trace begins.
* `Round`, `saidIn`: the rounds of a loop, each with its trace. `Prog.until` is a loop that ends
  when a result is as it waits for; it returns after the first round with such a result
  (`traces_until`).
* `Prog.answered`: the trace in which a function answers the calls (`Traces.eq_answered`).
* `Along`: the states between which an environment gives the answers of a trace. A run is a trace
  with its states (`runs_iff`).
* `Prog.replay`: what a program returns when it gets the answers of a trace (`traces_iff_replay`).
-/

namespace Program

variable {S C : Type} {R : C → Type} {α β : Type}

/-- The program makes the calls with these answers, and returns `o`, or stops. -/
inductive Traces : Prog C R α → List (Sigma R) → Option α → Prop where
  | ret (a : α) : Traces (.ret a) [] (some a)
  | stop : Traces .stop [] none
  | call {c : C} {k : R c → Prog C R α} {l : List (Sigma R)} {o : Option α} (r : R c)
    (h : Traces (k r) l o) : Traces (.call c k) (⟨c, r⟩ :: l) o

variable {p : Prog C R α} {l : List (Sigma R)} {o : Option α}

@[simp] theorem traces_ret {a : α} : Traces (.ret a : Prog C R α) l o ↔ l = [] ∧ o = some a := by
  constructor
  · rintro ⟨⟩
    exact ⟨rfl, rfl⟩
  · rintro ⟨rfl, rfl⟩
    exact .ret a

@[simp] theorem traces_stop : Traces (.stop : Prog C R α) l o ↔ l = [] ∧ o = none := by
  constructor
  · rintro ⟨⟩
    exact ⟨rfl, rfl⟩
  · rintro ⟨rfl, rfl⟩
    exact .stop

@[simp] theorem traces_call {c : C} {k : R c → Prog C R α} :
    Traces (.call c k) l o ↔ ∃ r l', l = ⟨c, r⟩ :: l' ∧ Traces (k r) l' o := by
  constructor
  · rintro (_ | _ | ⟨r, h⟩)
    exact ⟨r, _, rfl, h⟩
  · rintro ⟨r, l', rfl, h⟩
    exact .call r h

/-- The trace of a sequence is cut where its second part begins. -/
theorem traces_bind {f : α → Prog C R β} {o : Option β} :
    Traces (p >>= f) l o ↔
      (∃ a l₁ l₂, l = l₁ ++ l₂ ∧ Traces p l₁ (some a) ∧ Traces (f a) l₂ o) ∨
        Traces p l none ∧ o = none := by
  induction p generalizing l with
  | ret a =>
    constructor
    · exact fun h => .inl ⟨a, [], l, rfl, .ret a, h⟩
    · rintro (⟨_, _, l₂, rfl, ⟨⟩, h⟩ | ⟨⟨⟩, _⟩)
      exact h
  | call c k ih =>
    simp only [Prog.call_bind, traces_call, ih]
    constructor
    · rintro ⟨r, l', rfl, ⟨a, l₁, l₂, rfl, h₁, h₂⟩ | ⟨h, rfl⟩⟩
      · exact .inl ⟨a, ⟨c, r⟩ :: l₁, l₂, rfl, ⟨r, l₁, rfl, h₁⟩, h₂⟩
      · exact .inr ⟨⟨r, l', rfl, h⟩, rfl⟩
    · rintro (⟨a, _, l₂, rfl, ⟨r, l₁, rfl, h₁⟩, h₂⟩ | ⟨⟨r, l', rfl, h⟩, rfl⟩)
      · exact ⟨r, l₁ ++ l₂, rfl, .inl ⟨a, l₁, l₂, rfl, h₁, h₂⟩⟩
      · exact ⟨r, l', rfl, .inr ⟨h, rfl⟩⟩
  | stop => simp

/-- A sequence that returns. -/
theorem traces_bind_some {f : α → Prog C R β} {b : β} :
    Traces (p >>= f) l (some b) ↔
      ∃ a l₁ l₂, l = l₁ ++ l₂ ∧ Traces p l₁ (some a) ∧ Traces (f a) l₂ (some b) := by
  simp [traces_bind]

theorem Traces.stop_bind {f : α → Prog C R β} (h : Traces p l none) : Traces (p >>= f) l none :=
  traces_bind.mpr (.inr ⟨h, rfl⟩)

/-- The answers of a list decide where the trace of a program ends, and what it returns. -/
theorem Traces.prefix_unique {l' r r' : List (Sigma R)} {a : α} (h : Traces p l (some a))
    (h' : Traces p l' o) (heq : l ++ r = l' ++ r') : l = l' ∧ o = some a := by
  induction p generalizing l l' with
  | ret b =>
    obtain ⟨rfl, ⟨⟩⟩ := traces_ret.mp h
    obtain ⟨rfl, rfl⟩ := traces_ret.mp h'
    exact ⟨rfl, rfl⟩
  | call c k ih =>
    obtain ⟨b, l, rfl, hk⟩ := traces_call.mp h
    obtain ⟨b', l', rfl, hk'⟩ := traces_call.mp h'
    obtain ⟨⟨⟩, htail⟩ := List.cons.inj heq
    obtain ⟨rfl, rfl⟩ := ih b hk hk' htail
    exact ⟨rfl, rfl⟩
  | stop => cases (traces_stop.mp h).2

/-- A sequence whose first part is known. -/
theorem Traces.bind_iff {f : α → Prog C R β} {o : Option β} {a : α} {l' : List (Sigma R)}
    (h : Traces p l (some a)) : Traces (p >>= f) (l ++ l') o ↔ Traces (f a) l' o := by
  rw [traces_bind]
  constructor
  · rintro (⟨b, l₁, l₂, heq, h₁, h₂⟩ | ⟨hnone, -⟩)
    · obtain ⟨rfl, ⟨⟩⟩ := h.prefix_unique h₁ heq
      exact List.append_cancel_left heq ▸ h₂
    · obtain ⟨-, ⟨⟩⟩ := h.prefix_unique (r := l') hnone (List.append_nil _).symm
  · exact fun hf => .inl ⟨a, l, l', rfl, h, hf⟩

/-- The result of a program is passed through a function. -/
theorem traces_map {f : α → β} {o : Option β} :
    Traces (p >>= fun a => .ret (f a)) l o ↔ ∃ o', Traces p l o' ∧ o = o'.map f := by
  rw [traces_bind]
  constructor
  · rintro (⟨a, l₁, l₂, rfl, h₁, h₂⟩ | ⟨h, rfl⟩)
    · obtain ⟨rfl, rfl⟩ := traces_ret.mp h₂
      exact ⟨some a, by rwa [List.append_nil], rfl⟩
    · exact ⟨none, h, rfl⟩
  · rintro ⟨_ | a, h, rfl⟩
    · exact .inr ⟨h, rfl⟩
    · exact .inl ⟨a, l, [], (List.append_nil l).symm, h, .ret _⟩

theorem traces_map_some {f : α → β} {b : β} :
    Traces (p >>= fun a => .ret (f a)) l (some b) ↔ ∃ a, Traces p l (some a) ∧ b = f a := by
  rw [traces_map]
  constructor
  · rintro ⟨_ | a, h, ⟨⟩⟩
    exact ⟨a, h, rfl⟩
  · rintro ⟨a, h, rfl⟩
    exact ⟨some a, h, rfl⟩

/-- The calls in a trace are calls that the program can make. -/
theorem Only.traces {T : Prop} {P : C → Prop} (hp : Only T P p) (h : Traces p l o) :
    (∀ e ∈ l, P e.1) ∧ (o = none → T) := by
  induction h with
  | ret a => exact ⟨List.forall_mem_nil _, by rintro ⟨⟩⟩
  | stop => exact ⟨List.forall_mem_nil _, fun _ => hp⟩
  | call r h ih =>
    obtain ⟨hcalls, hT⟩ := ih (hp.2 r)
    exact ⟨List.forall_mem_cons.mpr ⟨hp.1, hcalls⟩, hT⟩

/-! ## The trace that a function answers -/

/-- The trace in which `f` answers the calls, with what is returned. -/
def Prog.answered (f : (c : C) → R c) : Prog C R α → List (Sigma R) × Option α
  | .ret a => ([], some a)
  | .call c k => (⟨c, f c⟩ :: ((k (f c)).answered f).1, ((k (f c)).answered f).2)
  | .stop => ([], none)

theorem traces_answered (f : (c : C) → R c) (p : Prog C R α) :
    Traces p (p.answered f).1 (p.answered f).2 := by
  induction p with
  | ret a => exact .ret a
  | call c k ih => exact .call (f c) (ih (f c))
  | stop => exact .stop

/-- There is one trace in which `f` answers the calls. -/
theorem Traces.eq_answered {f : (c : C) → R c} (h : Traces p l o) (hf : ∀ e ∈ l, e.2 = f e.1) :
    p.answered f = (l, o) := by
  induction h with
  | ret a => rfl
  | stop => rfl
  | call r h ih =>
    obtain ⟨hr, hl⟩ := List.forall_mem_cons.mp hf
    obtain rfl : r = f _ := hr
    rw [Prog.answered, ih hl]

theorem answered_mem {f : (c : C) → R c} : ∀ e ∈ (p.answered f).1, e.2 = f e.1 := by
  induction p with
  | ret a => exact List.forall_mem_nil _
  | call c k ih => exact List.forall_mem_cons.mpr ⟨rfl, ih (f c)⟩
  | stop => exact List.forall_mem_nil _

/-! ## Programs that keep a log -/

/-- The program, which also returns its calls and their answers. -/
def Prog.logged : Prog C R α → Prog C R (α × List (Sigma R))
  | .ret a => .ret (a, [])
  | .call c k => .call c fun r => (k r).logged >>= fun b => .ret (b.1, ⟨c, r⟩ :: b.2)
  | .stop => .stop

theorem Only.logged {T : Prop} {P : C → Prop} (hp : Only T P p) : Only T P p.logged := by
  induction p with
  | ret a => trivial
  | call c k ih => exact ⟨hp.1, fun r => (ih r (hp.2 r)).bind fun _ => trivial⟩
  | stop => exact hp

/-- The environment gives the answers of the list, and goes from a state to a state. -/
def Along (E : Env S C R) : List (Sigma R) → S → S → Prop
  | [], s, s' => s = s'
  | e :: l, s, s' => ∃ t, E s e.1 e.2 t ∧ Along E l t s'

section Along

variable {E : Env S C R} {l' : List (Sigma R)} {s s' : S}

theorem along_append : Along E (l ++ l') s s' ↔ ∃ t, Along E l s t ∧ Along E l' t s' := by
  induction l generalizing s with
  | nil => simp [Along]
  | cons e l ih =>
    simp only [List.cons_append, Along, ih]
    constructor
    · rintro ⟨u, he, t, hl, hl'⟩
      exact ⟨t, ⟨u, he, hl⟩, hl'⟩
    · rintro ⟨t, ⟨u, he, hl⟩, hl'⟩
      exact ⟨u, he, t, hl, hl'⟩

/-- A run is a trace whose answers the environment gives. -/
theorem runs_iff : Runs E p s o s' ↔ ∃ l, Traces p l o ∧ Along E l s s' := by
  constructor
  · intro h
    induction h with
    | ret a s => exact ⟨[], .ret a, rfl⟩
    | stop s => exact ⟨[], .stop, rfl⟩
    | call h hk ih =>
      obtain ⟨l, htraces, halong⟩ := ih
      exact ⟨_ :: l, .call _ htraces, _, h, halong⟩
  · rintro ⟨l, htraces, halong⟩
    induction htraces generalizing s with
    | ret a =>
      obtain rfl := halong
      exact .ret a s
    | stop =>
      obtain rfl := halong
      exact .stop s
    | call r h ih =>
      obtain ⟨t, hE, hl⟩ := halong
      exact .call hE (ih hl)

/-- A trace ends as `wp` says. -/
theorem Along.ends {T : Prop} {Q : α → S → Prop} {a : α} (h : Along E l s s')
    (htraces : Traces p l (some a)) (hwp : wp E T Q p s) : Q a s' :=
  (runs_iff.mpr ⟨l, htraces, h⟩).ends hwp

/-- What every answer keeps is kept along a list of answers. -/
theorem Along.keeps {I : S → Prop} (h : Along E l s s')
    (hstep : ∀ e ∈ l, ∀ s t, E s e.1 e.2 t → I s → I t) (hs : I s) : I s' := by
  induction l generalizing s with
  | nil => exact h ▸ hs
  | cons e l ih =>
    obtain ⟨t, he, hl⟩ := h
    obtain ⟨hfirst, hrest⟩ := List.forall_mem_cons.mp hstep
    exact ih hl hrest (hfirst s t he hs)

end Along

/-! ## Where a part of a trace begins -/

section Infix

variable {γ : Type} {a b : γ} {t m m' : List γ}

/-- A part that begins with `a` does not begin before the first `a`. -/
theorem infix_append_iff (ha : a ∉ m) : (a :: t) <:+: m ++ m' ↔ (a :: t) <:+: m' := by
  induction m with
  | nil => rfl
  | cons b m ih =>
    obtain ⟨hne, hm⟩ := List.ne_and_not_mem_of_not_mem_cons ha
    rw [List.cons_append, List.infix_cons_iff, ih hm, List.cons_prefix_cons]
    exact or_iff_right fun h => hne h.1

/-- A part that begins with the only `a` begins there. -/
theorem infix_cons_iff_prefix (ha : a ∉ m) : (a :: t) <:+: a :: m ↔ t <+: m := by
  rw [List.infix_cons_iff, List.cons_prefix_cons, and_iff_right rfl]
  exact or_iff_left fun h => ha (h.subset List.mem_cons_self)

end Infix

/-- A program that is run in a round of a loop, with its trace and its result. -/
structure Round (p : Prog C R α) where
  trace : List (Sigma R)
  result : α
  made : Traces p trace (some result)

/-- The trace of the first rounds. -/
def saidIn (rounds : Nat → Round p) : Nat → List (Sigma R)
  | 0 => []
  | m + 1 => (rounds 0).trace ++ saidIn (fun j => rounds (j + 1)) m

namespace Prog

/-- `do a = p; while (!done(a));` in at most the given turns. -/
def «until» (p : Prog C R α) (done : α → Bool) : Nat → Prog C R α
  | 0 => .stop
  | n + 1 => p >>= fun a => if done a then .ret a else p.until done n

end Prog

/-- A program whose traces are not empty. -/
def Speaks (p : Prog C R α) : Prop := ∀ a, ¬ Traces p [] (some a)

theorem speaks_call {c : C} {k : R c → Prog C R α} : Speaks (.call c k) := fun _ h => by
  obtain ⟨_, _, ⟨⟩, -⟩ := traces_call.mp h

section Until

variable {done : α → Bool} {rounds : Nat → Round p} {a : α}

theorem traces_until_round (r : Round p) (n : Nat) :
    Traces (p.until done (n + 1)) (r.trace ++ l) o ↔
      if done r.result then l = [] ∧ o = some r.result else Traces (p.until done n) l o := by
  rw [Prog.until, r.made.bind_iff]
  split
  · exact traces_ret
  · rfl

/-- The loop says something before it returns. -/
theorem speaks_until (hp : Speaks p) (n : Nat) : Speaks (p.until done n) := by
  intro a h
  cases n with
  | zero => cases (traces_stop.mp h).2
  | succ n =>
    obtain ⟨b, l₁, l₂, hl, h₁, -⟩ := traces_bind_some.mp h
    rw [(List.append_eq_nil_iff.mp hl.symm).1] at h₁
    exact hp b h₁

variable (done) in
/-- **Loop.** It returns after the first round whose result it has waited for. -/
theorem traces_until (hp : Speaks p) (k : Nat) :
    (∃ n, Traces (p.until done n) (saidIn rounds (k + 1)) (some a)) ↔
      (∀ j < k, done (rounds j).result = false) ∧ done (rounds k).result = true ∧
        a = (rounds k).result := by
  induction k generalizing rounds with
  | zero =>
    constructor
    · rintro ⟨_ | n, h⟩
      · cases (traces_stop.mp h).2
      · rw [saidIn, traces_until_round] at h
        split at h
        · rename_i hdone
          exact ⟨fun j hj => absurd hj (Nat.not_lt_zero j), hdone, Option.some.inj h.2⟩
        · exact absurd h (speaks_until hp n a)
    · rintro ⟨-, hdone, rfl⟩
      refine ⟨1, ?_⟩
      rw [saidIn, traces_until_round, if_pos hdone]
      exact ⟨rfl, rfl⟩
  | succ k ih =>
    constructor
    · rintro ⟨_ | n, h⟩
      · cases (traces_stop.mp h).2
      · rw [saidIn, traces_until_round] at h
        split at h
        · have hmade := (rounds 1).made
          rw [(List.append_eq_nil_iff.mp h.1).1] at hmade
          exact absurd hmade (hp _)
        · rename_i hdone
          obtain ⟨hnot, hlast⟩ := ih.mp ⟨n, h⟩
          refine ⟨fun j hj => ?_, hlast⟩
          cases j with
          | zero => exact Bool.eq_false_iff.mpr hdone
          | succ j => exact hnot j (by omega)
    · rintro ⟨hnot, hlast⟩
      obtain ⟨n, h⟩ := ih.mpr ⟨fun j hj => hnot (j + 1) (by omega), hlast⟩
      refine ⟨n + 1, ?_⟩
      rw [saidIn, traces_until_round, if_neg (by simp [hnot 0])]
      exact h

end Until

/-- The program gets the answers of the list. -/
def Prog.replay [DecidableEq C] : Prog C R α → List (Sigma R) → Option (Option α)
  | .ret a, [] => some (some a)
  | .stop, [] => some none
  | .call c k, ⟨d, r⟩ :: l => if h : d = c then (k (h ▸ r)).replay l else none
  | _, _ => none

theorem traces_iff_replay [DecidableEq C] : Traces p l o ↔ p.replay l = some o := by
  constructor
  · intro h
    induction h with
    | ret a => rfl
    | stop => rfl
    | call r h ih => simpa [Prog.replay] using ih
  · intro h
    induction p generalizing l with
    | ret a =>
      cases l with
      | nil => exact Option.some.inj h ▸ .ret a
      | cons e l => cases h
    | call c k ih =>
      cases l with
      | nil => cases h
      | cons e l =>
        obtain ⟨d, r⟩ := e
        rw [Prog.replay] at h
        split at h
        · rename_i hd
          subst hd
          exact .call r (ih r h)
        · cases h
    | stop =>
      cases l with
      | nil => exact Option.some.inj h ▸ .stop
      | cons e l => cases h

end Program
