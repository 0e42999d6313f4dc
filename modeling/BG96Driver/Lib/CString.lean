import Mathlib.Data.List.TakeWhile

/-!
# Strings in arrays of characters

An array of characters holds a string: its characters up to the first `NUL`. A store at an index
that is not in the array does not go through.

* `Str`: a string, which has no `NUL`.
* `CharArray n`: an array of `n` characters. `store` sets one of them, `storeString` a string and
  its `NUL` (`storeString_isSome`).
* `CharArray.string`: the string at a position. `CharArray.Holds`: the array holds a string.
* `Holds.store_last`, `Holds.store_end`: the string loses its last character, and gets another end.
* `strrchr`: the last occurrence of a character.
-/

namespace CString

/-- The end of a string. -/
def nul : UInt8 := 0

/-- A string. -/
structure Str where
  chars : List UInt8
  nul_not_mem : nul ∉ chars

/-- The string that begins with these characters. -/
def upToNul (s : List UInt8) : List UInt8 := s.takeWhile (· ≠ nul)

/-- An array of `n` characters. -/
structure CharArray (n : Nat) where
  chars : List UInt8
  length_eq : chars.length = n

variable {n : Nat} {a a' a'' : CharArray n} {c : UInt8} {i : Int} {k : Nat} {s : List UInt8}

theorem nul_not_mem_upToNul (s : List UInt8) : nul ∉ upToNul s := fun h => by
  simpa using List.mem_takeWhile_imp h

/-- The string that begins with these characters, as a string. -/
def Str.upTo (s : List UInt8) : Str := ⟨upToNul s, nul_not_mem_upToNul s⟩

theorem upToNul_append (hs : nul ∉ s) (t : List UInt8) : upToNul (s ++ nul :: t) = s := by
  rw [upToNul, List.takeWhile_append_of_pos]
  · simp
  · intro b hb
    simpa using fun heq : b = nul => hs (heq ▸ hb)

theorem upToNul_eq (hs : nul ∉ s) : upToNul s = s :=
  List.takeWhile_eq_self_iff.mpr fun b hb => by simpa using fun heq : b = nul => hs (heq ▸ hb)

/-- A string ends where its first `NUL` is. -/
theorem eq_upToNul_append (s t : List UInt8) :
    ∃ t', s ++ nul :: t = upToNul s ++ nul :: t' := by
  induction s with
  | nil => exact ⟨t, rfl⟩
  | cons b s ih =>
    by_cases hb : b = nul
    · subst hb
      exact ⟨s ++ nul :: t, rfl⟩
    · obtain ⟨t', ht'⟩ := ih
      refine ⟨t', ?_⟩
      rw [upToNul, List.takeWhile_cons_of_pos (by simpa using hb), List.cons_append, ht']
      rfl

namespace CharArray

/-- `a[i] = c`; `none` if `i` is not an index of the array. -/
def store (a : CharArray n) (i : Int) (c : UInt8) : Option (CharArray n) :=
  if 0 ≤ i ∧ i < n then some ⟨a.chars.set i.toNat c, by rw [List.length_set, a.length_eq]⟩
  else none

/-- The characters of `s` and a `NUL` are stored one after the other, from the index on. -/
def storeString (a : CharArray n) (i : Nat) : List UInt8 → Option (CharArray n)
  | [] => a.store i nul
  | c :: s => (a.store i c).bind fun a => a.storeString (i + 1) s

/-- The string at `&a[i]`. -/
def string (a : CharArray n) (i : Nat) : List UInt8 := upToNul (a.chars.drop i)

theorem store_eq_some :
    a.store i c = some a' ↔ (0 ≤ i ∧ i < n) ∧ a'.chars = a.chars.set i.toNat c := by
  unfold store
  split
  · rename_i hi
    obtain ⟨chars, hlen⟩ := a'
    simp [hi, eq_comm]
  · rename_i hi
    simp [hi]

theorem store_isSome : (a.store i c).isSome = true ↔ 0 ≤ i ∧ i < n := by
  unfold store
  split
  · exact iff_of_true rfl ‹_›
  · exact iff_of_false Bool.false_ne_true ‹_›

/-- All the stores of a string go through if there is room for its `NUL`. -/
theorem storeString_isSome : (a.storeString k s).isSome = true ↔ k + s.length < n := by
  induction s generalizing a k with
  | nil =>
    rw [storeString, store_isSome, List.length_nil]
    omega
  | cons c s ih =>
    rw [storeString, List.length_cons]
    cases h : a.store k c with
    | none =>
      have hnot : ¬ (0 ≤ (k : Int) ∧ (k : Int) < n) := by
        rw [← store_isSome (a := a) (c := c), h]
        exact Bool.false_ne_true
      refine iff_of_false Bool.false_ne_true ?_
      omega
    | some a' =>
      rw [Option.bind_some, ih]
      omega

/-- A store after the first characters of an array. -/
theorem store_append {u v : List UInt8} (hchars : a.chars = u ++ v)
    (h : a.store u.length c = some a') : ∃ t, a'.chars = u ++ c :: t := by
  obtain ⟨⟨-, hlt⟩, ha'⟩ := store_eq_some.mp h
  have hlen := a.length_eq
  rw [hchars, List.length_append] at hlen
  cases v with
  | nil =>
    rw [List.length_nil] at hlen
    omega
  | cons x t =>
    refine ⟨t, ?_⟩
    rw [ha', hchars, Int.toNat_natCast, List.set_append_right _ _ (Nat.le_refl _), Nat.sub_self]
    rfl

/-- What an array has after its first characters when a string is stored there. -/
theorem storeString_append {u v : List UInt8} (hchars : a.chars = u ++ v)
    (h : a.storeString u.length s = some a') : ∃ t, a'.chars = u ++ s ++ nul :: t := by
  induction s generalizing a u v with
  | nil =>
    obtain ⟨t, ha'⟩ := store_append hchars h
    exact ⟨t, by rw [ha', List.append_nil]⟩
  | cons c s ih =>
    obtain ⟨a₁, h₁, h₂⟩ := Option.bind_eq_some_iff.mp h
    obtain ⟨t, ha₁⟩ := store_append hchars h₁
    have hchars₁ : a₁.chars = (u ++ [c]) ++ t := by rw [ha₁, List.append_assoc]; rfl
    rw [← List.length_singleton (a := c), ← List.length_append] at h₂
    obtain ⟨t', ha'⟩ := ih hchars₁ h₂
    exact ⟨t', by rw [ha', List.append_assoc u]; rfl⟩

/-! ## The string that an array holds -/

/-- The array holds the string. -/
def Holds (a : CharArray n) (s : List UInt8) : Prop := nul ∉ s ∧ ∃ t, a.chars = s ++ nul :: t

theorem Holds.length_lt (h : a.Holds s) : s.length < n := by
  obtain ⟨-, t, ht⟩ := h
  have hlen := a.length_eq
  rw [ht, List.length_append, List.length_cons] at hlen
  omega

/-- The string at a position of the string. -/
theorem Holds.string_drop (h : a.Holds s) (hk : k ≤ s.length) : a.string k = s.drop k := by
  obtain ⟨hnul, t, ht⟩ := h
  rw [string, ht, List.drop_append_of_le_length hk]
  exact upToNul_append (fun hmem => hnul (List.mem_of_mem_drop hmem)) t

theorem Holds.string_zero (h : a.Holds s) : a.string 0 = s := h.string_drop (Nat.zero_le _)

theorem holds_storeString (h : a.storeString 0 s = some a') : a'.Holds (upToNul s) := by
  obtain ⟨t, ht⟩ := storeString_append (u := []) rfl h
  rw [List.nil_append] at ht
  obtain ⟨t', ht'⟩ := eq_upToNul_append s t
  exact ⟨nul_not_mem_upToNul s, t', ht.trans ht'⟩

/-- The last character of the string is replaced by a `NUL`: there is one after it too. -/
theorem Holds.store_last (hs : a.Holds (s ++ [c])) (h : a.store s.length nul = some a') :
    a'.Holds s ∧ a'.string 1 = s.drop 1 := by
  obtain ⟨hnul, t, ht⟩ := hs
  have hnul : nul ∉ s := fun hmem => hnul (List.mem_append_left _ hmem)
  rw [List.append_assoc, List.singleton_append] at ht
  have hchars : a'.chars = s ++ nul :: nul :: t := by
    rw [(store_eq_some.mp h).2, ht, Int.toNat_natCast, List.set_append_right _ _ (Nat.le_refl _),
      Nat.sub_self]
    rfl
  have hholds : a'.Holds s := ⟨hnul, _, hchars⟩
  refine ⟨hholds, ?_⟩
  cases s with
  | nil => rw [string, hchars]; rfl
  | cons b s => exact hholds.string_drop (Nat.le_add_left ..)

/-- A character and a `NUL` replace what is after the first characters of the string. -/
theorem Holds.store_end {u v : List UInt8} (hs : a.Holds (u ++ v)) (hc : c ≠ nul)
    (h : a.store u.length c = some a') (h' : a'.store (u ++ [c]).length nul = some a'') :
    a''.Holds (u ++ [c]) := by
  obtain ⟨hnul, t, ht⟩ := hs
  rw [List.append_assoc] at ht
  obtain ⟨t', ht'⟩ := store_append ht h
  rw [← List.singleton_append, ← List.append_assoc] at ht'
  obtain ⟨t'', ht''⟩ := store_append ht' h'
  refine ⟨?_, t'', ht''⟩
  simp only [List.mem_append, List.mem_singleton, not_or] at hnul ⊢
  exact ⟨hnul.1, hc.symm⟩

end CharArray

/-! ## The last occurrence of a character -/

/-- The position of the last occurrence of a character. -/
def strrchr (c : UInt8) : List UInt8 → Option Nat
  | [] => none
  | b :: s =>
    match strrchr c s with
    | some i => some (i + 1)
    | none => if b = c then some 0 else none

theorem strrchr_eq_none : strrchr c s = none ↔ c ∉ s := by
  induction s with
  | nil => simp [strrchr]
  | cons b s ih =>
    rw [strrchr]
    cases h : strrchr c s with
    | none => simp [ih.mp h, eq_comm]
    | some i =>
      have hmem : c ∈ s := by
        by_contra hnot
        rw [ih.mpr hnot] at h
        cases h
      simp [hmem]

/-- The character is there, and not after it. -/
theorem strrchr_eq_some (h : strrchr c s = some k) :
    ∃ u v, s = u ++ c :: v ∧ c ∉ v ∧ u.length = k := by
  induction s generalizing k with
  | nil => cases h
  | cons b s ih =>
    rw [strrchr] at h
    split at h
    · rename_i i hi
      obtain ⟨u, v, rfl, hv, rfl⟩ := ih hi
      cases h
      exact ⟨b :: u, v, rfl, hv, rfl⟩
    · rename_i hnone
      obtain ⟨rfl, ⟨⟩⟩ := Option.ite_none_right_eq_some.mp h
      exact ⟨[], s, rfl, strrchr_eq_none.mp hnone, rfl⟩

end CString
