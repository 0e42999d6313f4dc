import Mathlib.Data.List.Induction

/-!
# Topics and `matchTopic`

A C string is a list of characters without `'\0'`; its buffer has the terminator after it. A topic
is a C string with a slash (`Topic`).

`BG96MQTTClient::matchTopic` copies both topics, and overwrites each copy from its end with `'\0'`
up to the last slash (`stripLoop`). Then it compares the copies.

* `Topic.path`: the characters up to the last slash. `stripLoop_spec`: what is left of the copy.
* `matchTopic_eq`: two topics match if their paths are the same.
* `comparesPaths_iff`: for two C strings, the loops stay in the copies if and only if both have a
  slash.
-/

namespace Bg96

/-- The character that ends a C string. -/
def nul : Char := '\x00'

/-- The C string in a buffer: `strcmp` compares these. -/
def cString (buf : List Char) : List Char := buf.takeWhile (· ≠ nul)

/-- A C string with a slash. -/
structure Topic where
  chars : List Char
  noNul : nul ∉ chars
  slash : '/' ∈ chars
  deriving DecidableEq

/-- The loop of `matchTopic` on a copy `t`, where `tt` is at the index given: characters are
overwritten down to a slash. It is `none` when `tt` leaves the copy, where the source's behaviour is
undefined. -/
def stripLoop (t : List Char) : Nat → Option (List Char)
  | 0 => if t[0]? = some '/' then some t else none
  | tt + 1 => if t[tt + 1]? = some '/' then some t else stripLoop (t.set (tt + 1) nul) tt

/-- `BG96MQTTClient::matchTopic`, where the memory for the copies is there. -/
def matchTopic (topic1 topic2 : List Char) : Option Bool :=
  (stripLoop (topic1 ++ [nul]) topic1.length).bind fun t1 =>
    (stripLoop (topic2 ++ [nul]) topic2.length).bind fun t2 =>
      some (cString t1 = cString t2)

/-- The characters of a topic up to its last slash. -/
def Topic.path (t : Topic) : List Char := (t.chars.reverse.dropWhile (· ≠ '/')).reverse

/-- The characters of a string up to its last slash. -/
def uptoSlash (topic : List Char) : List Char := (topic.reverse.dropWhile (· ≠ '/')).reverse

theorem Topic.path_eq (t : Topic) : t.path = uptoSlash t.chars := rfl

theorem uptoSlash_append (pre : List Char) {post : List Char} (h : '/' ∉ post) :
    uptoSlash (pre ++ '/' :: post) = pre ++ ['/'] := by
  have hpos : ∀ c ∈ post.reverse, decide (c ≠ '/') = true := fun c hc => by
    simpa using ne_of_mem_of_not_mem (List.mem_reverse.mp hc) h
  rw [uptoSlash, List.reverse_append, List.reverse_cons, List.append_assoc,
    List.dropWhile_append_of_pos hpos]
  simp

/-- The last slash of a topic. -/
theorem Topic.exists_path (t : Topic) :
    ∃ pre post, t.chars = pre ++ '/' :: post ∧ '/' ∉ post ∧ t.path = pre ++ ['/'] := by
  obtain ⟨post, pre, hrev, hpost⟩ := List.eq_append_cons_of_mem (List.mem_reverse.mpr t.slash)
  have hchars : t.chars = pre.reverse ++ '/' :: post.reverse := by
    rw [← List.reverse_reverse t.chars, hrev]
    simp
  have hslash : '/' ∉ post.reverse := by simpa using hpost
  exact ⟨_, _, hchars, hslash, by rw [Topic.path_eq, hchars, uptoSlash_append _ hslash]⟩

theorem stripLoop_slash {t : List Char} {tt : Nat} (h : t[tt]? = some '/') :
    stripLoop t tt = some t := by
  cases tt <;> simp [stripLoop, h]

/-- The loop overwrites what is after the slash. -/
theorem stripLoop_spec (pre post z : List Char) (h : '/' ∉ post) :
    stripLoop (pre ++ '/' :: (post ++ z)) (pre.length + post.length) =
      some (pre ++ '/' :: (List.replicate post.length nul ++ z)) := by
  induction post using List.reverseRecOn generalizing z with
  | nil =>
    exact stripLoop_slash (by simp)
  | append_singleton post c ih =>
    have hc : c ≠ '/' := by rintro rfl; simp at h
    have hpost : '/' ∉ post := fun hm => h (List.mem_append_left _ hm)
    have hlast : (pre ++ '/' :: (post ++ [c] ++ z))[pre.length + post.length + 1]? = some c := by
      rw [List.getElem?_append_right (by omega)]
      simp [Nat.add_assoc]
    have hset : (pre ++ '/' :: (post ++ [c] ++ z)).set (pre.length + post.length + 1) nul =
        pre ++ '/' :: (post ++ (nul :: z)) := by
      rw [List.set_append_right _ _ (by omega)]
      simp [Nat.add_assoc]
    rw [List.length_append, List.length_singleton, ← Nat.add_assoc, stripLoop, hlast,
      if_neg (by simpa using hc), hset, ih _ hpost, List.replicate_succ']
    simp

/-- What is left of the copy of a topic. -/
theorem stripLoop_topic (t : Topic) :
    ∃ buf, stripLoop (t.chars ++ [nul]) t.chars.length = some buf ∧ cString buf = t.path := by
  obtain ⟨pre, post, ht, hpost, hpath⟩ := t.exists_path
  have hloop := stripLoop_spec pre (post ++ [nul]) [] (by simp [hpost, nul])
  have hpre : ∀ c ∈ pre, decide (c ≠ nul) = true := fun c hc => by
    simpa using ne_of_mem_of_not_mem (ht ▸ List.mem_append_left _ hc) t.noNul
  have hslash : '/' ≠ nul := by decide
  refine ⟨pre ++ '/' :: List.replicate (post.length + 1) nul, ?_, ?_⟩
  · rw [ht]
    simpa [Nat.add_assoc] using hloop
  · rw [hpath, cString, List.takeWhile_append_of_pos hpre]
    simp [List.replicate_succ, hslash]

/-- **Two topics match if they are the same up to their last slash.** -/
theorem matchTopic_eq (t₁ t₂ : Topic) :
    matchTopic t₁.chars t₂.chars = some (decide (t₁.path = t₂.path)) := by
  obtain ⟨b₁, h₁, hp₁⟩ := stripLoop_topic t₁
  obtain ⟨b₂, h₂, hp₂⟩ := stripLoop_topic t₂
  simp only [matchTopic, h₁, h₂, Option.bind_some, hp₁, hp₂]

/-! ## Strings without a slash -/

/-- Nothing stops the loop but a slash. -/
theorem stripLoop_none {t : List Char} (h : '/' ∉ t) (tt : Nat) : stripLoop t tt = none := by
  have hne (t' : List Char) (h' : '/' ∉ t') (i : Nat) : t'[i]? ≠ some '/' :=
    fun hi => h' (List.mem_of_getElem? hi)
  induction tt generalizing t with
  | zero => rw [stripLoop, if_neg (hne t h 0)]
  | succ tt ih =>
    rw [stripLoop, if_neg (hne t h (tt + 1))]
    refine ih fun hmem => ?_
    rcases List.mem_or_eq_of_mem_set hmem with hmem | heq
    · exact h hmem
    · exact absurd heq (by decide)

/-- Both loops of `matchTopic` stay in their copies, it returns, and it compares what is up to the
last slash if both topics have one. -/
def ComparesPaths (topic1 topic2 : List Char) : Prop :=
  ∃ b, matchTopic topic1 topic2 = some b ∧
    ('/' ∈ topic1 → '/' ∈ topic2 → (b = true ↔ uptoSlash topic1 = uptoSlash topic2))

/-- **The copies.** `matchTopic` stays in its copies if and only if both topics have a slash. -/
theorem comparesPaths_iff {topic1 topic2 : List Char} (h₁ : nul ∉ topic1) (h₂ : nul ∉ topic2) :
    ComparesPaths topic1 topic2 ↔ '/' ∈ topic1 ∧ '/' ∈ topic2 := by
  have hcopy {t : List Char} (h : '/' ∉ t) : '/' ∉ t ++ [nul] := by
    simpa [nul] using h
  constructor
  · rintro ⟨b, hmatch, -⟩
    obtain ⟨t1, ht1, hmatch⟩ := Option.bind_eq_some_iff.mp hmatch
    obtain ⟨t2, ht2, -⟩ := Option.bind_eq_some_iff.mp hmatch
    refine ⟨?_, ?_⟩ <;> by_contra hslash
    · rw [stripLoop_none (hcopy hslash)] at ht1
      cases ht1
    · rw [stripLoop_none (hcopy hslash)] at ht2
      cases ht2
  · rintro ⟨hs₁, hs₂⟩
    refine ⟨_, matchTopic_eq ⟨topic1, h₁, hs₁⟩ ⟨topic2, h₂, hs₂⟩, fun _ _ => ?_⟩
    exact decide_eq_true_iff

theorem comparesPaths_ab : ComparesPaths "a/b".toList "a/c".toList :=
  (comparesPaths_iff (by decide) (by decide)).mpr ⟨by decide, by decide⟩

/-- The topic `a` is read before its first character. -/
theorem comparesPaths_unslashed :
    ¬ ∀ topic1 topic2, nul ∉ topic1 → nul ∉ topic2 → ComparesPaths topic1 topic2 := by
  intro hall
  obtain ⟨b, hmatch, -⟩ := hall ['a'] ['a'] (by decide) (by decide)
  cases hmatch

end Bg96
