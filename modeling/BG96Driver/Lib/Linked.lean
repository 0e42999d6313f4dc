import Mathlib.Logic.Function.Basic
import Mathlib.Data.List.Nodup

/-!
# Singly linked lists in a memory

A memory maps an address to a cell; a cell of type `α` has a link to the next one, `next`. The
address `0` is the null pointer.

* `Segment m p l q`: the cells `l`, with their addresses, lead from `p` to `q`. A list is a segment
  that ends at `0`: its cells are determined (`Segment.unique`) and have different addresses
  (`Segment.nodup`).
* `walk`: the loop that follows the links up to a cell that satisfies a test.
* `Segment.append_cell`, `Segment.remove_cell`: writes that change a list.
-/

namespace Linked

/-- A memory of cells. -/
abbrev Mem (α : Type) := Nat → Option α

variable {α : Type} (next : α → Nat)

/-- The cells `l` lead from `p` to `q` in the memory `m`. -/
def Segment (m : Mem α) : Nat → List (Nat × α) → Nat → Prop
  | p, [], q => p = q
  | p, c :: l, q => p = c.1 ∧ c.1 ≠ 0 ∧ m c.1 = some c.2 ∧ Segment m (next c.2) l q

variable {next} {m m' : Mem α} {p q r : Nat} {a b : α} {l l₁ l₂ : List (Nat × α)}

theorem segment_append :
    Segment next m p (l₁ ++ l₂) q ↔ ∃ r, Segment next m p l₁ r ∧ Segment next m r l₂ q := by
  induction l₁ generalizing p with
  | nil => simp [Segment]
  | cons c l₁ ih =>
    simp only [List.cons_append, Segment, ih]
    constructor
    · rintro ⟨hp, h0, hm, r, h₁, h₂⟩
      exact ⟨r, ⟨hp, h0, hm, h₁⟩, h₂⟩
    · rintro ⟨r, ⟨hp, h0, hm, h₁⟩, h₂⟩
      exact ⟨hp, h0, hm, r, h₁, h₂⟩

/-- **Frame.** A segment depends on its own cells only. -/
theorem Segment.frame (h : Segment next m p l q) (hm : ∀ c ∈ l, m' c.1 = m c.1) :
    Segment next m' p l q := by
  induction l generalizing p with
  | nil => exact h
  | cons c l ih =>
    obtain ⟨hp, h0, hc, hl⟩ := h
    exact ⟨hp, h0, (hm c List.mem_cons_self).trans hc,
      ih hl fun d hd => hm d (List.mem_cons_of_mem _ hd)⟩

/-- The cells of a segment are in the memory, and not at the null pointer. -/
theorem Segment.mem (h : Segment next m p l q) : ∀ c ∈ l, c.1 ≠ 0 ∧ m c.1 = some c.2 := by
  induction l generalizing p with
  | nil => simp
  | cons c l ih =>
    obtain ⟨-, h0, hc, hl⟩ := h
    intro d hd
    rcases List.mem_cons.mp hd with rfl | hd
    · exact ⟨h0, hc⟩
    · exact ih hl d hd

/-- The cells of a list are determined by its first address. -/
theorem Segment.unique {l' : List (Nat × α)} (h : Segment next m p l 0)
    (h' : Segment next m p l' 0) : l = l' := by
  induction l generalizing p l' with
  | nil =>
    cases l' with
    | nil => rfl
    | cons c l' => exact absurd (h'.1.symm.trans h) h'.2.1
  | cons c l ih =>
    cases l' with
    | nil => exact absurd (h.1.symm.trans h') h.2.1
    | cons c' l' =>
      obtain ⟨hp, -, hc, hl⟩ := h
      obtain ⟨hp', -, hc', hl'⟩ := h'
      have h1 : c.1 = c'.1 := hp.symm.trans hp'
      have h2 : c.2 = c'.2 := Option.some.inj (hc.symm.trans (h1 ▸ hc'))
      rw [Prod.ext h1 h2, ih hl (h2 ▸ hl')]

/-- A list does not come back to a cell. -/
theorem Segment.nodup (h : Segment next m p l 0) : (l.map Prod.fst).Nodup := by
  induction l generalizing p with
  | nil => exact List.nodup_nil
  | cons c l ih =>
    obtain ⟨hp, h0, hc, hl⟩ := h
    refine List.nodup_cons.mpr ⟨fun hmem => ?_, ih hl⟩
    -- from a second visit of the cell the same cells would follow
    obtain ⟨d, hd, hdc⟩ := List.mem_map.mp hmem
    obtain ⟨l₁, l₂, rfl⟩ := List.append_of_mem hd
    obtain ⟨r, -, hr⟩ := segment_append.mp hl
    have hfull : Segment next m c.1 (c :: (l₁ ++ d :: l₂)) 0 := ⟨rfl, h0, hc, hl⟩
    have heq := hfull.unique (by rw [← hdc, ← hr.1]; exact hr)
    have hlen := congrArg List.length heq
    simp at hlen
    omega

/-- The other cells of a list are at other addresses. -/
theorem Segment.not_mem_others {c : Nat × α} (h : Segment next m p (l₁ ++ c :: l₂) 0) :
    c.1 ∉ (l₁ ++ l₂).map Prod.fst := by
  have hnodup := h.nodup
  rw [List.map_append, List.map_cons, List.nodup_middle, List.nodup_cons, ← List.map_append]
    at hnodup
  exact hnodup.1

theorem Segment.null_iff (h : Segment next m p l 0) : p = 0 ↔ l = [] := by
  cases l with
  | nil => exact ⟨fun _ => rfl, fun _ => h⟩
  | cons c l => exact ⟨fun hp => absurd (h.1.symm.trans hp) h.2.1, nofun⟩

/-- Only the last cell of a list has no link. -/
theorem Segment.next_ne_null {c : Nat × α} (h : Segment next m p (l₁ ++ c :: l₂) 0) {e : Nat × α}
    (he : e ∈ l₁) : next e.2 ≠ 0 := by
  intro hnext
  obtain ⟨k₁, k₂, rfl⟩ := List.append_of_mem he
  rw [List.append_assoc] at h
  obtain ⟨r, -, -, -, -, hk⟩ := segment_append.mp h
  have hnil := hk.null_iff.mp hnext
  simp at hnil

theorem Segment.head_ne {c : Nat × α} (h : Segment next m p (l₁ ++ c :: l₂) 0) (hl : l₁ ≠ []) :
    p ≠ c.1 := by
  intro hp
  obtain ⟨r, -, hr⟩ := segment_append.mp h
  have heq := h.unique (by rw [hp, ← hr.1]; exact hr)
  have hlen := congrArg List.length heq
  simp at hlen
  exact hl hlen

/-- Two cells do not link to the same one. -/
theorem Segment.next_ne {c d : Nat × α} (h : Segment next m p (l₁ ++ d :: c :: l₂) 0)
    {e : Nat × α} (he : e ∈ l₁) : next e.2 ≠ c.1 := by
  intro hnext
  obtain ⟨k₁, k₂, rfl⟩ := List.append_of_mem he
  rw [List.append_assoc] at h
  obtain ⟨r, -, -, -, -, hk⟩ := segment_append.mp h
  obtain ⟨s, -, -, -, -, hc⟩ := segment_append.mp hk
  have heq := (hnext ▸ hk).unique (by rw [← hc.1]; exact hc)
  have hlen := congrArg List.length heq
  simp at hlen
  omega

/-! ## Walking -/

variable (next) in
/-- Follow the links from `p` up to a cell that satisfies `stop`, in at most `n` turns. It is `none`
when the turns run out, an address has no cell or the test is undefined. -/
def walk (stop : α → Option Bool) (m : Mem α) : Nat → Nat → Option Nat
  | 0, _ => none
  | n + 1, p =>
    match m p with
    | none => none
    | some a => (stop a).bind fun b => if b then some p else walk stop m n (next a)

/-- The walk stops at the first cell of the segment that satisfies the test. -/
theorem walk_segment {stop : α → Option Bool} {n : Nat}
    (h : Segment next m p (l₁ ++ (q, a) :: l₂) r) (hl : ∀ c ∈ l₁, stop c.2 = some false)
    (ha : stop a = some true) (hn : l₁.length < n) : walk next stop m n p = some q := by
  induction l₁ generalizing p n with
  | nil =>
    obtain ⟨hp, -, hm, -⟩ := h
    obtain ⟨n, rfl⟩ := Nat.exists_eq_add_one.mpr hn
    have hm : m p = some a := hp ▸ hm
    simp only [walk, hm, ha, Option.bind_some, ↓reduceIte]
    rw [hp]
  | cons c l₁ ih =>
    obtain ⟨hp, -, hm, hl'⟩ := h
    obtain ⟨n, rfl⟩ := Nat.exists_eq_add_one.mpr (Nat.zero_lt_of_lt hn)
    have hm : m p = some c.2 := hp ▸ hm
    simp only [walk, hm, hl c List.mem_cons_self, Option.bind_some, Bool.false_eq_true, ↓reduceIte]
    exact ih hl' (fun d hd => hl d (List.mem_cons_of_mem _ hd)) (by simpa using hn)

/-! ## Writing -/

theorem Segment.update (h : Segment next m p l q) (hr : r ∉ l.map Prod.fst) (c : Option α) :
    Segment next (Function.update m r c) p l q := by
  refine h.frame fun d hd => Function.update_of_ne ?_ _ _
  rintro rfl
  exact hr (List.mem_map_of_mem hd)

/-- The last cell `(q, a)` of a list becomes `a'`, which links to the cell `r`. -/
theorem Segment.append_cell {a' : α} (h : Segment next m p (l ++ [(q, a)]) 0)
    (hr : m r = some b) (hr0 : r ≠ 0) (hrl : r ∉ (l ++ [(q, a)]).map Prod.fst) (hb : next b = 0)
    (ha : next a' = r) :
    Segment next (Function.update m q (some a')) p (l ++ [(q, a'), (r, b)]) 0 := by
  have hnodup := h.nodup
  rw [List.map_append, List.map_cons, List.map_nil] at hnodup hrl
  obtain ⟨s, hl, hs, hq0, -, -⟩ := segment_append.mp h
  have hq : q ∉ l.map Prod.fst := by
    intro hq
    exact (List.nodup_append.mp hnodup).2.2 q hq q (by simp) rfl
  have hrq : r ≠ q := by rintro rfl; simp at hrl
  refine segment_append.mpr ⟨s, hl.update hq _, hs, hq0, Function.update_self .., ?_⟩
  refine ⟨ha, hr0, ?_, hb⟩
  rw [Function.update_of_ne hrq]
  exact hr

/-- The cell `(r, b)` after `(q, a)` is taken out of a list: `a'` links over it. -/
theorem Segment.remove_cell {a' : α} (h : Segment next m p (l₁ ++ (q, a) :: (r, b) :: l₂) 0)
    (ha : next a' = next b) (hm : ∀ s, s ≠ q → s ≠ r → m' s = m s) (hq : m' q = some a') :
    Segment next m' p (l₁ ++ (q, a') :: l₂) 0 := by
  have hnodup := h.nodup
  rw [List.map_append, List.nodup_append] at hnodup
  obtain ⟨-, hn₂, hdis⟩ := hnodup
  simp only [List.map_cons, List.nodup_cons, List.mem_cons, not_or] at hn₂ hdis
  obtain ⟨s, hl, hs, hq0, -, -, -, -, hl₂⟩ := segment_append.mp h
  have hne : ∀ c ∈ l₁, c.1 ≠ q ∧ c.1 ≠ r := fun c hc =>
    ⟨hdis c.1 (List.mem_map_of_mem hc) q (.inl rfl),
      hdis c.1 (List.mem_map_of_mem hc) r (.inr (.inl rfl))⟩
  have hne₂ : ∀ c ∈ l₂, c.1 ≠ q ∧ c.1 ≠ r := by
    intro c hc
    constructor
    · rintro rfl; exact hn₂.1.2 (List.mem_map_of_mem hc)
    · rintro rfl; exact hn₂.2.1 (List.mem_map_of_mem hc)
  have hl' := hl.frame fun c hc => hm _ (hne c hc).1 (hne c hc).2
  refine segment_append.mpr ⟨s, hl', hs, hq0, hq, ?_⟩
  rw [ha]
  exact hl₂.frame fun c hc => hm _ (hne₂ c hc).1 (hne₂ c hc).2

end Linked
