import Mathlib.Data.Nat.Digits.Defs
import Mathlib.Data.List.TakeWhile

/-!
# Formats that are matched with a stream of lines

A **format** is a list of directives, as in `scanf`. A line reader takes bytes from a stream until
all of the current line matches the format; at the end of a line that does not match it begins
again.

* `Directive`, `parse`: the directives of a format string.
* `scan`, `matched`: what a format takes from some bytes; all of them.
* `read`: the line reader. It may look at whole lines only.
* `First`: some bytes are matched, and no shorter beginning of them is (`read_first`).
* `numeral`: the digits of a number (`scan_numeral`).
-/

namespace Scanf

/-- The end of a line. -/
def lf : UInt8 := 10

def cr : UInt8 := 13

/-- The bytes of a string. -/
def bytes (s : String) : List UInt8 := s.toUTF8.data.toList

/-! ## Formats -/

/-- A directive. `set` is `%width[^stops]`, and `word` is `%s`. -/
inductive Directive where
  | lit (b : UInt8)
  | space
  | number (signed : Bool) (base bits : Nat)
  | set (width : Option Nat) (stops : List UInt8)
  | word
  deriving DecidableEq, Repr

/-- What a conversion gives. -/
inductive Field where
  | number (n : Int)
  | text (bs : List UInt8)
  deriving DecidableEq, Repr

def isSpace (b : UInt8) : Bool := b = 32 || 9 ≤ b && b ≤ 13

/-- A byte of a word. A `NUL` ends the text. -/
def inWord (b : UInt8) : Bool := b ≠ 0 && !isSpace b

/-- The value of a digit. -/
def digit (base : Nat) (b : UInt8) : Option Nat :=
  let d :=
    if 48 ≤ b && b ≤ 57 then b.toNat - 48
    else if 65 ≤ b && b ≤ 70 then b.toNat - 55
    else if 97 ≤ b && b ≤ 102 then b.toNat - 87
    else base
  if d < base then some d else none

def isDigit (base : Nat) (b : UInt8) : Bool := (digit base b).isSome

/-- The directives of a format; in a conversion, with its width and its bits. Conversions are
`[^c]`, `[^cd]`, `s`, `d`, `u` and `X`, with `h` or `l`. -/
def parse : Option (Option Nat × Nat) → List UInt8 → List Directive
  | _, [] => []
  | none, 37 :: l => parse (some (none, 32)) l
  | none, b :: l => (if isSpace b then .space else .lit b) :: parse none l
  | some (width, _), 91 :: 94 :: c :: 93 :: l => .set width [c] :: parse none l
  | some (width, _), 91 :: 94 :: c :: d :: 93 :: l => .set width [c, d] :: parse none l
  | some (width, bits), b :: l =>
    match digit 10 b with
    | some d => parse (some (some (10 * width.getD 0 + d), bits)) l
    | none =>
      if b = 104 then parse (some (width, 16)) l
      else if b = 108 then parse (some (width, bits)) l
      else if b = 115 then .word :: parse none l
      else .number (b = 100) (if b = 88 then 16 else 10) bits :: parse none l

/-- The directives of a format string. -/
def format (s : String) : List Directive := parse none (bytes s)

/-! ## Matching -/

/-- The number that digits stand for. -/
def valueOf (base : Nat) (l : List UInt8) : Nat :=
  l.foldl (fun v b => base * v + (digit base b).getD 0) 0

/-- An optional sign: whether it is `-`, and what is after it. -/
def sign : List UInt8 → Bool × List UInt8
  | 45 :: l => (true, l)
  | 43 :: l => (false, l)
  | l => (false, l)

/-- What directives take from some bytes, and what they leave. -/
def scan : List Directive → List UInt8 → Option (List Field × List UInt8)
  | [], l => some ([], l)
  | .lit _ :: _, [] => none
  | .lit b :: ds, c :: l => if c = b then scan ds l else none
  | .space :: ds, l => scan ds (l.dropWhile isSpace)
  | .number signed base bits :: ds, l =>
    let (neg, l) := sign (l.dropWhile isSpace)
    let ns := l.takeWhile (isDigit base)
    let n : Int := if neg then -valueOf base ns else valueOf base ns
    if ns = [] then none
    else (scan ds (l.dropWhile (isDigit base))).map fun r =>
      (.number (if signed then n else n % 2 ^ bits) :: r.1, r.2)
  | .set width stops :: ds, l =>
    let text := (width.elim l l.take).takeWhile (· ∉ stops)
    if text = [] then none
    else (scan ds (l.drop text.length)).map fun r => (.text text :: r.1, r.2)
  | .word :: ds, l =>
    let word := (l.dropWhile isSpace).takeWhile inWord
    if word = [] then none
    else (scan ds ((l.dropWhile isSpace).drop word.length)).map fun r => (.text word :: r.1, r.2)

/-- The directives match all of a line. -/
def matched (ds : List Directive) (line : List UInt8) : Option (List Field) :=
  match scan ds line with
  | some (fs, []) => some fs
  | _ => none

/-- The line reader: what the format gives, and what is left unread. `line` is what it has of the
current line. With `whole`, it looks at whole lines only. -/
def read (whole : Bool) (ds : List Directive) :
    List UInt8 → List UInt8 → Option (List Field) × List UInt8
  | _, [] => (none, [])
  | line, b :: input =>
    match if whole && b ≠ lf then none else matched ds (line ++ [b]) with
    | some fs => (some fs, input)
    | none => read whole ds (if b = lf then [] else line ++ [b]) input

variable {whole : Bool} {ds : List Directive} {b : UInt8} {l line rest input : List UInt8}
  {fs : List Field}

/-! ## Lines without a byte -/

theorem sign_suffix (l : List UInt8) : (sign l).2 <:+ l := by
  unfold sign
  split
  · exact List.suffix_cons 45 _
  · exact List.suffix_cons 43 _
  · exact List.suffix_refl l

/-- A literal that is taken is there. -/
theorem mem_of_scan {r : List Field × List UInt8} (hb : .lit b ∈ ds) (h : scan ds l = some r) :
    b ∈ l := by
  induction ds generalizing l r with
  | nil => cases hb
  | cons d ds ih =>
    have hmap {f : Field} {l' : List UInt8} {p : Prop} [Decidable p] (hb : .lit b ∈ ds)
        (h : (if p then none else (scan ds l').map fun r => (f :: r.1, r.2)) = some r) :
        b ∈ l' := by
      split at h
      · cases h
      · obtain ⟨r', hr', -⟩ := Option.map_eq_some_iff.mp h
        exact ih hb hr'
    have hspaces {l' : List UInt8} (h : b ∈ l'.dropWhile isSpace) : b ∈ l' :=
      (List.dropWhile_suffix _).subset h
    cases d with
    | lit c =>
      cases l with
      | nil => cases h
      | cons a l =>
        rw [scan] at h
        split at h
        · rename_i hac
          rcases List.mem_cons.mp hb with heq | hb
          · cases heq
            simp [hac]
          · exact List.mem_cons_of_mem a (ih hb h)
        · cases h
    | space => exact hspaces (ih ((List.mem_cons.mp hb).resolve_left nofun) h)
    | number signed base bits =>
      have hdigits := hmap ((List.mem_cons.mp hb).resolve_left nofun) h
      exact hspaces ((sign_suffix _).subset ((List.dropWhile_suffix _).subset hdigits))
    | set width stops =>
      exact List.mem_of_mem_drop (hmap ((List.mem_cons.mp hb).resolve_left nofun) h)
    | word =>
      have hword := hmap ((List.mem_cons.mp hb).resolve_left nofun) h
      exact hspaces (List.mem_of_mem_drop hword)

theorem matched_none_of_mem (hb : .lit b ∈ ds) (h : b ∉ line) : matched ds line = none := by
  rw [matched]
  split
  · rename_i hscan
    exact absurd (mem_of_scan hb hscan) h
  · rfl

variable (whole rest) in
/-- What has not a literal of the format is not matched, up to the end of its last line. -/
theorem read_past (hlit : .lit b ∈ ds) (hb : b ≠ lf) (hline : b ∉ line) (hl : b ∉ l) :
    read whole ds line (l ++ lf :: rest) = read whole ds [] rest := by
  induction l generalizing line with
  | nil =>
    have hm : matched ds (line ++ [lf]) = none := matched_none_of_mem hlit (by simp [hline, hb])
    simp [read, hm]
  | cons c l ih =>
    obtain ⟨hc, hl⟩ := List.ne_and_not_mem_of_not_mem_cons hl
    have hm : matched ds (line ++ [c]) = none := matched_none_of_mem hlit (by simp [hline, hc])
    rw [List.cons_append, read]
    simp only [hm, ite_self]
    refine ih ?_ hl
    split
    · simp
    · simp [hline, hc]

variable (whole ds rest) in
/-- What has not the first byte of the format is not matched, up to the end of its last line. -/
theorem read_without (hb : b ≠ lf) (hline : b ∉ line) (hl : b ∉ l) :
    read whole (.lit b :: ds) line (l ++ lf :: rest) = read whole (.lit b :: ds) [] rest :=
  read_past whole rest List.mem_cons_self hb hline hl

/-- What has not a literal of the format is not matched. -/
theorem read_none_of_mem (hlit : .lit b ∈ ds) (hline : b ∉ line) (hl : b ∉ input) :
    read whole ds line input = (none, []) := by
  induction input generalizing line with
  | nil => rfl
  | cons c l ih =>
    obtain ⟨hc, hl⟩ := List.ne_and_not_mem_of_not_mem_cons hl
    have hm : matched ds (line ++ [c]) = none := matched_none_of_mem hlit (by simp [hline, hc])
    rw [read]
    simp only [hm, ite_self]
    refine ih ?_ hl
    split
    · simp
    · simp [hline, hc]

theorem read_none (hline : b ∉ line) (hl : b ∉ input) :
    read whole (.lit b :: ds) line input = (none, []) :=
  read_none_of_mem List.mem_cons_self hline hl

/-- What is left is an end of the stream. -/
theorem read_suffix (whole : Bool) (ds : List Directive) (line input : List UInt8) :
    (read whole ds line input).2 <:+ input := by
  induction input generalizing line with
  | nil => exact List.nil_suffix
  | cons c input ih =>
    rw [read]
    split
    · exact List.suffix_cons c input
    · exact (ih _).trans (List.suffix_cons c input)

/-- What is matched, is matched also if more comes after it. -/
theorem read_more (h : read whole ds line input = (some fs, l)) (rest : List UInt8) :
    read whole ds line (input ++ rest) = (some fs, l ++ rest) := by
  induction input generalizing line with
  | nil => cases h
  | cons c input ih =>
    rw [List.cons_append]
    rw [read] at h ⊢
    split at h
    · cases h
      rfl
    · exact ih h

/-- What the line reader gives, the format takes from a line. -/
theorem read_matched (h : (read whole ds line input).1 = some fs) :
    ∃ l, matched ds l = some fs := by
  induction input generalizing line with
  | nil => cases h
  | cons c input ih =>
    rw [read] at h
    split at h
    · rename_i fs' hm
      cases h
      split at hm
      · cases hm
      · exact ⟨_, hm⟩
    · exact ih h

/-! ## The first match -/

/-- The format matches all of `l`, and none of its shorter beginnings. -/
structure First (ds : List Directive) (l : List UInt8) (fs : List Field) : Prop where
  scan : scan ds l = some (fs, [])
  short : ∀ p, p <+: l → p ≠ l → matched ds p = none

theorem First.matched (h : First ds l fs) : matched ds l = some fs := by
  rw [Scanf.matched, h.scan]

/-- The line reader stops at the first match, if it is in the first line. -/
theorem read_first (h : First ds l fs) (rest : List UInt8) (hne : l ≠ []) (hlf : lf ∉ l) :
    read false ds [] (l ++ rest) = (some fs, rest) := by
  have key : ∀ p q, p ++ q = l → q ≠ [] → read false ds p (q ++ rest) = (some fs, rest) := by
    intro p q hpq hq
    induction q generalizing p with
    | nil => exact absurd rfl hq
    | cons c q ih =>
      have hc : c ≠ lf := by
        rintro rfl
        exact hlf (by simp [← hpq])
      have hpq' : (p ++ [c]) ++ q = l := by rw [← hpq, List.append_assoc]; rfl
      rw [List.cons_append, read]
      simp only [Bool.false_and, Bool.false_eq_true, if_false, if_neg hc]
      cases q with
      | nil =>
        rw [List.append_nil] at hpq'
        rw [hpq', h.matched]
        rfl
      | cons d q =>
        have hshort := h.short (p ++ [c]) ⟨d :: q, hpq'⟩ fun heq => by simp [← hpq'] at heq
        rw [hshort]
        exact ih _ hpq' (by simp)
  exact key [] l rfl hne

/-- What a line begins with is found, if nothing else is before it. -/
theorem read_finds (h : First ds l fs) (hne : l ≠ []) (hlf : lf ∉ l) (line w rest : List UInt8) :
    (read false ds line (w ++ lf :: (l ++ rest))).1.isSome = true := by
  induction w generalizing line with
  | nil =>
    rw [List.nil_append, read]
    split
    · rfl
    · rw [if_pos rfl, read_first h rest hne hlf]
      rfl
  | cons c w ih =>
    rw [List.cons_append, read]
    split
    · rfl
    · exact ih _

/-- Where nothing is matched, all is taken. -/
theorem read_exhausted (h : (read whole ds line input).1 = none) :
    (read whole ds line input).2 = [] := by
  induction input generalizing line with
  | nil => rfl
  | cons c input ih =>
    rw [read] at h ⊢
    split at h
    · cases h
    · exact ih h

/-- What is taken from a stream up to a match: what is passed, and a line that begins with `b`, up to
its end at most. -/
def Taken (b : UInt8) (input rest : List UInt8) : Prop :=
  ∃ before line, input = before ++ line ++ rest ∧ line.head? = some b ∧ lf ∉ line.dropLast

theorem Taken.mem (h : Taken b input rest) : b ∈ input := by
  obtain ⟨before, line, rfl, hhead, -⟩ := h
  exact List.mem_append_left _ (List.mem_append_right _ (List.mem_of_mem_head? hhead))

/-- What looks at whole lines only takes a line up to its end. -/
theorem read_upTo (hlf : lf ∉ l) :
    read true ds line (l ++ input) = read true ds (line ++ l) input := by
  induction l generalizing line with
  | nil => rw [List.nil_append, List.append_nil]
  | cons c l ih =>
    obtain ⟨hc, hl⟩ := List.ne_and_not_mem_of_not_mem_cons hlf
    rw [List.cons_append, read]
    simp only [Ne.symm hc, ne_eq, not_false_eq_true, decide_true, Bool.and_true, if_true, if_false]
    rw [ih hl, List.append_assoc, List.singleton_append]

/-- A line is matched at its end. -/
theorem read_whole (h : matched ds (line ++ l ++ [lf]) = some fs) (hlf : lf ∉ l) :
    read true ds line (l ++ lf :: rest) = (some fs, rest) := by
  rw [read_upTo hlf, read, if_neg (by simp), h]

/-- A line that is not matched at its end is passed by what looks at whole lines only. -/
theorem read_unmatched (h : matched ds (line ++ l ++ [lf]) = none) (hlf : lf ∉ l) :
    read true ds line (l ++ lf :: rest) = read true ds [] rest := by
  rw [read_upTo hlf, read, if_neg (by simp), h]
  exact congrArg (read true ds · rest) (if_pos rfl)

/-! ## Directives -/

/-- A test splits a list where it fails first. -/
theorem span_append {α : Type} {p : α → Bool} {u r : List α} (hu : ∀ a ∈ u, p a = true)
    (hr : ∀ a ∈ r.head?, p a = false) :
    (u ++ r).takeWhile p = u ∧ (u ++ r).dropWhile p = r := by
  rw [List.takeWhile_append_of_pos hu, List.dropWhile_append_of_pos hu]
  cases r with
  | nil => simp
  | cons a r => simp [hr a rfl]

theorem First.nil : First [] [] [] :=
  ⟨rfl, fun _ hp hne => absurd (List.prefix_nil.mp hp) hne⟩

theorem First.lit (h : First ds l fs) : First (.lit b :: ds) (b :: l) fs := by
  refine ⟨?_, fun p hp hne => ?_⟩
  · rw [Scanf.scan, if_pos rfl, h.scan]
  · cases p with
    | nil => rfl
    | cons c p =>
      obtain ⟨rfl, hp'⟩ := List.cons_prefix_cons.mp hp
      have := h.short p hp' fun heq => hne (by rw [heq])
      rw [Scanf.matched] at this ⊢
      rwa [Scanf.scan, if_pos rfl]

theorem First.lits (h : First ds l fs) (w : List UInt8) :
    First (w.map .lit ++ ds) (w ++ l) fs := by
  induction w with
  | nil => exact h
  | cons b w ih => exact ih.lit

theorem scan_lits (ds : List Directive) (w l : List UInt8) :
    scan (w.map .lit ++ ds) (w ++ l) = scan ds l := by
  induction w with
  | nil => rfl
  | cons b w ih => simpa [scan] using ih

/-- White space matches any number of white spaces. -/
theorem scan_space (ds : List Directive) {w l : List UInt8} (hw : ∀ b ∈ w, isSpace b = true)
    (hl : ∀ b ∈ l.head?, isSpace b = false) : scan (.space :: ds) (w ++ l) = scan ds l := by
  rw [scan, List.dropWhile_append_of_pos hw]
  cases l with
  | nil => rfl
  | cons b l => rw [List.dropWhile_cons_of_neg (by simp [hl b rfl])]

theorem First.space (h : First ds (b :: l) fs) (hb : isSpace b = false) :
    First (.space :: ds) (32 :: b :: l) fs := by
  have hskip {p : List UInt8} (hp : p <+: b :: l) :
      (32 :: p).dropWhile isSpace = p ∧ p.dropWhile isSpace = p := by
    cases p with
    | nil => exact ⟨rfl, rfl⟩
    | cons c p =>
      obtain ⟨rfl, -⟩ := List.cons_prefix_cons.mp hp
      have h32 : isSpace 32 = true := rfl
      simp [hb, h32]
  refine ⟨?_, fun p hp hne => ?_⟩
  · rw [Scanf.scan, (hskip (List.prefix_refl _)).1, h.scan]
  · cases p with
    | nil => exact h.short [] (List.nil_prefix) nofun
    | cons c p =>
      obtain ⟨rfl, hp'⟩ := List.cons_prefix_cons.mp hp
      have hshort := h.short p hp' fun heq => hne (by rw [heq])
      rw [Scanf.matched] at hshort ⊢
      rwa [Scanf.scan, (hskip hp').1]

variable (ds) in
/-- What a conversion `%width[^stops]` takes is not empty, fits, and goes up to a stop. -/
theorem scan_set {width : Nat} {stops text r : List UInt8} (hne : text ≠ [])
    (hlen : text.length ≤ width) (hstop : ∀ c ∈ text, c ∉ stops) (hr : ∀ c ∈ r.head?, c ∈ stops) :
    scan (.set (some width) stops :: ds) (text ++ r) =
      (scan ds r).map fun f => (.text text :: f.1, f.2) := by
  have htext : ((text ++ r).take width).takeWhile (· ∉ stops) = text := by
    rw [List.take_append, List.take_of_length_le hlen, List.takeWhile_append_of_pos]
    · cases r with
      | nil => simp
      | cons c r =>
        have hc : c ∈ stops := hr c rfl
        cases width - text.length <;> simp [hc]
    · exact fun c hc => by simpa using hstop c hc
  rw [scan]
  simp only [Option.elim_some, htext, if_neg hne, List.drop_left]

theorem isSpace_of_inWord (h : inWord b = true) : isSpace b = false := by
  simpa using (Bool.and_eq_true_iff.mp h).2

variable (ds) in
/-- A conversion `%s` takes a word, up to what is not in it. -/
theorem scan_word {word r : List UInt8} (hne : word ≠ []) (hword : ∀ b ∈ word, inWord b = true)
    (hr : ∀ b ∈ r.head?, inWord b = false) :
    scan (.word :: ds) (word ++ r) = (scan ds r).map fun f => (.text word :: f.1, f.2) := by
  have hdrop : (word ++ r).dropWhile isSpace = word ++ r := by
    cases word with
    | nil => exact absurd rfl hne
    | cons b word => simp [isSpace_of_inWord (hword b List.mem_cons_self)]
  have htake : (word ++ r).takeWhile inWord = word := (span_append hword hr).1
  rw [scan]
  simp only [hdrop, htake, if_neg hne, List.drop_left]

/-- A conversion before directives that do not match. -/
theorem matched_none_of_map {ds' : List Directive} {f : Field} {p r : List UInt8}
    (h : scan ds' p = (scan ds r).map fun g => (f :: g.1, g.2)) (hr : matched ds r = none) :
    matched ds' p = none := by
  rw [matched] at hr ⊢
  rw [h]
  revert hr
  rcases scan ds r with _ | ⟨fs', _ | ⟨c, l⟩⟩ <;> simp

theorem First.set {width : Nat} {stops text : List UInt8} (h : First ds (b :: l) fs)
    (hb : b ∈ stops) (hne : text ≠ []) (hlen : text.length ≤ width)
    (hstop : ∀ c ∈ text, c ∉ stops) :
    First (.set (some width) stops :: ds) (text ++ b :: l) (.text text :: fs) := by
  refine ⟨?_, fun p hp hneq => ?_⟩
  · rw [scan_set ds hne hlen hstop (by rintro _ ⟨⟩; exact hb), h.scan]
    rfl
  · rcases List.prefix_or_prefix_of_prefix hp (List.prefix_append text (b :: l)) with hp' | hp'
    · -- the conversion takes all of `p`
      by_cases hp0 : p = []
      · subst hp0
        simp [Scanf.matched, Scanf.scan]
      · have hscan := scan_set ds (r := []) hp0 (Nat.le_trans hp'.length_le hlen)
          (fun c hc => hstop c (hp'.subset hc)) (by simp)
        rw [List.append_nil] at hscan
        exact matched_none_of_map hscan (h.short [] List.nil_prefix nofun)
    · obtain ⟨q, rfl⟩ := hp'
      have hq : q <+: b :: l := (List.prefix_append_right_inj text).mp hp
      have hhead : ∀ c ∈ q.head?, c ∈ stops := by
        cases q with
        | nil => simp
        | cons c q =>
          obtain ⟨rfl, -⟩ := List.cons_prefix_cons.mp hq
          rintro _ ⟨⟩
          exact hb
      refine matched_none_of_map (scan_set ds hne hlen hstop hhead) (h.short q hq fun heq => ?_)
      exact hneq (by rw [heq])

section Taken

variable {signed : Bool} {base bits : Nat} {stops r : List UInt8}

theorem of_scan_lit (h : scan (.lit b :: ds) l = some (fs, r)) :
    ∃ l', scan ds l' = some (fs, r) := by
  cases l with
  | nil => cases h
  | cons c l =>
    rw [scan] at h
    exact ⟨l, (Option.ite_none_right_eq_some.mp h).2⟩

theorem of_scan_lits {w : List UInt8} (h : scan (w.map .lit ++ ds) l = some (fs, r)) :
    ∃ l', scan ds l' = some (fs, r) := by
  induction w generalizing l with
  | nil => exact ⟨l, h⟩
  | cons b w ih =>
    obtain ⟨l', hl'⟩ := of_scan_lit h
    exact ih hl'

theorem of_scan_space (h : scan (.space :: ds) l = some (fs, r)) :
    ∃ l', scan ds l' = some (fs, r) := by
  rw [scan] at h
  exact ⟨_, h⟩

/-- A conversion gives a field, and the directives after it give the others. -/
theorem of_scan_map {f : Field} {p : Prop} [Decidable p]
    (h : (if p then none else (scan ds l).map fun g => (f :: g.1, g.2)) = some (fs, r)) :
    ¬ p ∧ ∃ fs', fs = f :: fs' ∧ scan ds l = some (fs', r) := by
  obtain ⟨hp, h⟩ := Option.ite_none_left_eq_some.mp h
  obtain ⟨⟨fs', r'⟩, hscan, ⟨⟩⟩ := Option.map_eq_some_iff.mp h
  exact ⟨hp, fs', rfl, hscan⟩

theorem of_scan_number (h : scan (.number signed base bits :: ds) l = some (fs, r)) :
    ∃ n fs' l', fs = .number n :: fs' ∧ scan ds l' = some (fs', r) := by
  rw [scan] at h
  obtain ⟨-, fs', rfl, hscan⟩ := of_scan_map h
  exact ⟨_, fs', _, rfl, hscan⟩

theorem of_scan_set {width : Option Nat} (h : scan (.set width stops :: ds) l = some (fs, r)) :
    ∃ text fs' l', fs = .text text :: fs' ∧ scan ds l' = some (fs', r) := by
  rw [scan] at h
  obtain ⟨-, fs', rfl, hscan⟩ := of_scan_map h
  exact ⟨_, fs', _, rfl, hscan⟩

theorem of_scan_word (h : scan (.word :: ds) l = some (fs, r)) :
    ∃ word fs' l', fs = .text word :: fs' ∧ (word ≠ [] ∧ ∀ b ∈ word, inWord b = true) ∧
      scan ds l' = some (fs', r) := by
  rw [scan] at h
  obtain ⟨hne, fs', rfl, hscan⟩ := of_scan_map h
  exact ⟨_, fs', _, rfl, ⟨hne, fun b hb => List.mem_takeWhile_imp hb⟩, hscan⟩

end Taken

/-! ## Lines that do not match -/

/-- No beginning of `l` is matched. -/
def Never (ds : List Directive) (l : List UInt8) : Prop := ∀ p, p <+: l → matched ds p = none

/-- The line reader passes a line. -/
theorem read_never (h : Never ds (l ++ [lf])) (hlf : lf ∉ l) (rest : List UInt8) :
    read false ds [] (l ++ lf :: rest) = read false ds [] rest := by
  have key : ∀ p q, p ++ q = l → read false ds p (q ++ lf :: rest) = read false ds [] rest := by
    intro p q hpq
    induction q generalizing p with
    | nil =>
      rw [List.append_nil] at hpq
      simp [read, hpq, h _ (List.prefix_refl _)]
    | cons c q ih =>
      have hc : c ≠ lf := by
        rintro rfl
        exact hlf (by simp [← hpq])
      have hm := h (p ++ [c]) ⟨q ++ [lf], by simp [← hpq]⟩
      rw [List.cons_append, read]
      simp only [hm, ite_self, if_neg hc]
      exact ih _ (by simp [← hpq])
  exact key [] l rfl

theorem Never.lit (h : Never ds l) : Never (.lit b :: ds) (b :: l) := by
  intro p hp
  cases p with
  | nil => rfl
  | cons c p =>
    obtain ⟨rfl, hp'⟩ := List.cons_prefix_cons.mp hp
    have := h p hp'
    rw [matched] at this ⊢
    rwa [scan, if_pos rfl]

theorem Never.lits (h : Never ds l) (w : List UInt8) : Never (w.map .lit ++ ds) (w ++ l) := by
  induction w with
  | nil => exact h
  | cons b w ih => exact ih.lit

theorem Never.space (h : Never ds (b :: l)) (hb : isSpace b = false) :
    Never (.space :: ds) (32 :: b :: l) := by
  have hscan {w p : List UInt8} (hw : ∀ b ∈ w, isSpace b = true) (hp : p <+: b :: l) :
      matched (.space :: ds) (w ++ p) = none := by
    have hp0 := h p hp
    rw [matched] at hp0 ⊢
    rwa [scan_space ds hw]
    intro c hc
    cases p with
    | nil => cases hc
    | cons d p =>
      obtain ⟨rfl, -⟩ := List.cons_prefix_cons.mp hp
      cases hc
      exact hb
  intro p hp
  cases p with
  | nil => exact hscan (w := []) (by simp) List.nil_prefix
  | cons c p =>
    obtain ⟨rfl, hp'⟩ := List.cons_prefix_cons.mp hp
    exact hscan (List.forall_mem_singleton.mpr rfl) hp'

variable (ds) in
/-- A conversion `%width[^stop]` does not go with text that is empty or too long. -/
theorem Never.set {width : Nat} {stop : UInt8} {text : List UInt8}
    (htext : text = [] ∨ width < text.length) (hstop : stop ∉ text) :
    Never (.set (some width) [stop] :: .lit stop :: ds) (text ++ stop :: l) := by
  intro p hp
  suffices hscan : scan (.set (some width) [stop] :: .lit stop :: ds) p = none by
    rw [matched, hscan]
  rw [scan]
  simp only [Option.elim_some]
  rcases htext with rfl | hlong
  · -- the first byte is `stop`
    refine if_pos ?_
    cases p with
    | nil => simp
    | cons c p =>
      obtain ⟨rfl, -⟩ := List.cons_prefix_cons.mp hp
      cases width <;> simp
  · -- the conversion takes `width` bytes, and `stop` does not follow
    have htake : p.take width <+: text := by
      refine List.prefix_of_prefix_length_le ((List.take_prefix width p).trans hp)
        (List.prefix_append ..) ?_
      rw [List.length_take]
      omega
    have hne (c : UInt8) (hc : c ∈ text) : c ≠ stop := fun heq => hstop (heq ▸ hc)
    have hall : (p.take width).takeWhile (· ∉ [stop]) = p.take width :=
      List.takeWhile_eq_self_iff.mpr fun c hc => by simpa using hne c (htake.subset hc)
    have hnext {c : UInt8} {q : List UInt8} (hq : p.drop (p.take width).length = c :: q) :
        c ∈ text := by
      have hp' : p.take width ++ [c] <+: text := by
        refine List.prefix_of_prefix_length_le (List.IsPrefix.trans ⟨q, ?_⟩ hp)
          (List.prefix_append ..) ?_
        · rw [List.append_assoc, List.singleton_append, ← hq, List.length_take]
          rcases Nat.le_total width p.length with hle | hle
          · rw [Nat.min_eq_left hle, List.take_append_drop]
          · rw [Nat.min_eq_right hle, List.take_of_length_le hle, List.drop_length, List.append_nil]
        · rw [List.length_append, List.length_take, List.length_singleton]
          omega
      exact hp'.subset (by simp)
    simp only [hall]
    split
    · rfl
    · cases hd : p.drop (p.take width).length with
      | nil => rfl
      | cons c q =>
        rw [scan, if_neg (hne c (hnext hd))]
        rfl

/-- The byte of a digit. -/
def digitByte (d : Nat) : UInt8 := if d < 10 then 48 + d.toUInt8 else 55 + d.toUInt8

/-- The digits of a number. -/
def numeral (base n : Nat) : List UInt8 :=
  if n = 0 then [48] else (Nat.digits base n).reverse.map digitByte

theorem digit_digitByte {base d : Nat} (hbase : base ≤ 16) (hd : d < base) :
    digit base (digitByte d) = some d := by
  have hall : ∀ d < 16, ∀ base ≤ 16, d < base → digit base (digitByte d) = some d := by decide
  exact hall d (by omega) base hbase hd

theorem digit_lt {base d : Nat} (h : digit base b = some d) : d < base := by
  unfold digit at h
  simp only [Option.ite_none_right_eq_some, Option.some.injEq] at h
  omega

theorem isDigit_le {base : Nat} (h : isDigit base b = true) : 48 ≤ b.toNat := by
  by_contra hlt
  have h48 : ¬ 48 ≤ b := fun hle => hlt (UInt8.le_iff_toNat_le.mp hle)
  have h65 : ¬ 65 ≤ b := fun hle => hlt (Nat.le_trans (by decide) (UInt8.le_iff_toNat_le.mp hle))
  have h97 : ¬ 97 ≤ b := fun hle => hlt (Nat.le_trans (by decide) (UInt8.le_iff_toNat_le.mp hle))
  simp [isDigit, digit, h48, h65, h97] at h

theorem isSpace_of_isDigit {base : Nat} (h : isDigit base b = true) : isSpace b = false := by
  have h48 := isDigit_le h
  have h32 : b ≠ 32 := by rintro rfl; exact absurd h48 (by decide)
  have h13 : ¬ b ≤ 13 := fun hle => by
    have : b.toNat ≤ 13 := UInt8.le_iff_toNat_le.mp hle
    omega
  simp [isSpace, h32, h13]

/-- A digit is no sign. -/
theorem sign_of_isDigit {base : Nat} (h : isDigit base b = true) (l : List UInt8) :
    sign (b :: l) = (false, b :: l) := by
  have h48 := isDigit_le h
  unfold sign
  split
  · rename_i heq
    obtain ⟨rfl, -⟩ := List.cons.inj heq
    exact absurd h48 (by decide)
  · rename_i heq
    obtain ⟨rfl, -⟩ := List.cons.inj heq
    exact absurd h48 (by decide)
  · rfl

variable (ds) in
/-- A conversion takes the digits up to what is not one. -/
theorem scan_number {base : Nat} (signed : Bool) (bits : Nat) {ns r : List UInt8} (hne : ns ≠ [])
    (hns : ∀ b ∈ ns, isDigit base b = true) (hr : ∀ b ∈ r.head?, isDigit base b = false) :
    scan (.number signed base bits :: ds) (ns ++ r) = (scan ds r).map fun f =>
      (.number (if signed then valueOf base ns else (valueOf base ns : Int) % 2 ^ bits) :: f.1,
        f.2) := by
  obtain ⟨htake, hdrop⟩ := span_append hns hr
  cases ns with
  | nil => exact absurd rfl hne
  | cons b ns =>
    have hb := hns b List.mem_cons_self
    have hspace : (b :: ns ++ r).dropWhile isSpace = b :: ns ++ r := by
      simp [isSpace_of_isDigit hb]
    have hsign : sign (b :: ns ++ r) = (false, b :: ns ++ r) := sign_of_isDigit hb _
    rw [scan]
    simp only [hspace, hsign, htake, hdrop, if_neg hne, Bool.false_eq_true, if_false]

variable (ds) in
theorem scan_digits {base : Nat} (bits : Nat) {ns r : List UInt8} (hne : ns ≠ [])
    (hns : ∀ b ∈ ns, isDigit base b = true) (hr : ∀ b ∈ r.head?, isDigit base b = false) :
    scan (.number false base bits :: ds) (ns ++ r) =
      (scan ds r).map fun f => (.number ((valueOf base ns : Int) % 2 ^ bits) :: f.1, f.2) :=
  scan_number ds false bits hne hns hr

/-- The first digit already matches. -/
theorem First.digit {base : Nat} (signed : Bool) (bits : Nat) (h : isDigit base b = true) :
    First [.number signed base bits] [b]
      [.number (if signed then valueOf base [b] else (valueOf base [b] : Int) % 2 ^ bits)] := by
  refine ⟨?_, fun p hp hne => ?_⟩
  · have hscan := scan_number [] signed bits (r := []) (List.cons_ne_nil b [])
      (by simpa using h) (by simp)
    rw [List.append_nil] at hscan
    rw [hscan]
    rfl
  · cases p with
    | nil => rfl
    | cons c p =>
      obtain ⟨rfl, hp'⟩ := List.cons_prefix_cons.mp hp
      exact absurd (by rw [List.prefix_nil.mp hp']) hne

/-- A number is read in full if something after it has to match. -/
theorem First.number {base : Nat} (signed : Bool) (bits : Nat) {ns : List UInt8}
    (h : First ds (b :: l) fs) (hne : ns ≠ []) (hns : ∀ b ∈ ns, isDigit base b = true)
    (hb : isDigit base b = false) :
    First (.number signed base bits :: ds) (ns ++ b :: l)
      (.number (if signed then valueOf base ns else (valueOf base ns : Int) % 2 ^ bits) :: fs) := by
  refine ⟨?_, fun p hp hneq => ?_⟩
  · rw [scan_number ds signed bits hne hns (by rintro _ ⟨⟩; exact hb), h.scan]
    rfl
  · rcases List.prefix_or_prefix_of_prefix hp (List.prefix_append ns (b :: l)) with hp' | hp'
    · -- the conversion takes all of `p`
      by_cases hp0 : p = []
      · subst hp0
        simp [Scanf.matched, Scanf.scan, Scanf.sign]
      · have hscan := scan_number ds signed bits (r := []) hp0 (fun c hc => hns c (hp'.subset hc))
          (by simp)
        rw [List.append_nil] at hscan
        exact matched_none_of_map hscan (h.short [] List.nil_prefix nofun)
    · obtain ⟨q, rfl⟩ := hp'
      have hq : q <+: b :: l := (List.prefix_append_right_inj ns).mp hp
      have hhead : ∀ c ∈ q.head?, isDigit base c = false := by
        cases q with
        | nil => simp
        | cons c q =>
          obtain ⟨rfl, -⟩ := List.cons_prefix_cons.mp hq
          rintro _ ⟨⟩
          exact hb
      have hscan := scan_number ds signed bits hne hns hhead
      refine matched_none_of_map hscan (h.short q hq fun heq => ?_)
      exact hneq (by rw [heq])

theorem Never.number {base : Nat} (signed : Bool) (bits : Nat) {ns : List UInt8}
    (h : Never ds (b :: l)) (hne : ns ≠ []) (hns : ∀ b ∈ ns, isDigit base b = true)
    (hb : isDigit base b = false) : Never (.number signed base bits :: ds) (ns ++ b :: l) := by
  intro p hp
  rcases List.prefix_or_prefix_of_prefix hp (List.prefix_append ns (b :: l)) with hp' | hp'
  · -- the conversion takes all of `p`
    by_cases hp0 : p = []
    · subst hp0
      simp [matched, scan, sign]
    · have hscan := scan_number ds signed bits (r := []) hp0 (fun c hc => hns c (hp'.subset hc))
        (by simp)
      rw [List.append_nil] at hscan
      exact matched_none_of_map hscan (h [] List.nil_prefix)
  · obtain ⟨q, rfl⟩ := hp'
    have hq : q <+: b :: l := (List.prefix_append_right_inj ns).mp hp
    have hhead : ∀ c ∈ q.head?, isDigit base c = false := by
      cases q with
      | nil => simp
      | cons c q =>
        obtain ⟨rfl, -⟩ := List.cons_prefix_cons.mp hq
        rintro _ ⟨⟩
        exact hb
    exact matched_none_of_map (scan_number ds signed bits hne hns hhead) (h q hq)

section Numeral

variable {base : Nat}

theorem numeral_ne_nil (base n : Nat) : numeral base n ≠ [] := by
  unfold numeral
  split
  · nofun
  · simpa using Nat.digits_ne_nil_iff_ne_zero.mpr ‹_›

theorem isDigit_numeral (h1 : 1 < base) (h16 : base ≤ 16) (n : Nat) :
    ∀ b ∈ numeral base n, isDigit base b = true := by
  intro b hb
  unfold numeral at hb
  split at hb
  · obtain rfl := List.mem_singleton.mp hb
    have h := digit_digitByte h16 (d := 0) (by omega)
    exact Option.isSome_iff_exists.mpr ⟨0, h⟩
  · obtain ⟨d, hd, rfl⟩ := List.mem_map.mp hb
    have hlt := Nat.digits_lt_base h1 (List.mem_reverse.mp hd)
    exact Option.isSome_iff_exists.mpr ⟨d, digit_digitByte h16 hlt⟩

theorem not_mem_numeral (hb : isDigit base b = false) (h1 : 1 < base) (h16 : base ≤ 16) (n : Nat) :
    b ∉ numeral base n := fun h => by
  rw [isDigit_numeral h1 h16 n b h] at hb
  cases hb

theorem valueOf_digits (h16 : base ≤ 16) (ds : List Nat) (hds : ∀ d ∈ ds, d < base) :
    valueOf base (ds.reverse.map digitByte) = Nat.ofDigits base ds := by
  induction ds with
  | nil => rfl
  | cons d ds ih =>
    obtain ⟨hd, hds⟩ := List.forall_mem_cons.mp hds
    have ih := ih hds
    rw [valueOf] at ih ⊢
    rw [List.reverse_cons, List.map_append, List.foldl_append, ih, Nat.ofDigits_cons]
    simp [digit_digitByte h16 hd, Nat.add_comm]

theorem valueOf_numeral (h1 : 1 < base) (h16 : base ≤ 16) (n : Nat) :
    valueOf base (numeral base n) = n := by
  unfold numeral
  split
  · subst n
    exact valueOf_digits h16 [0] (by simp; omega)
  · rw [valueOf_digits h16 _ fun d hd => Nat.digits_lt_base h1 hd, Nat.ofDigits_digits]

theorem numeral_of_lt {n : Nat} (h : n < base) : numeral base n = [digitByte n] := by
  unfold numeral
  split
  · subst n
    rfl
  · rw [Nat.digits_of_lt base n ‹_› h]
    rfl

end Numeral

end Scanf
