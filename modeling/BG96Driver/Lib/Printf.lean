import BG96Driver.Lib.CString
import BG96Driver.Lib.Scanf
import Mathlib.Data.List.Forall2
import Mathlib.Data.Nat.Digits.Lemmas

/-!
# Formats that are printed

A **format** is a list of directives, as in `printf`. What is printed can be read back with the same
format, if a character that is in no string stands after each of them.

* `Directive`, `parse`: the directives of a format string.
* `print`, `Prints`: the text of a format and its arguments. `Prints.length_eq` is its length, where
  `width` is that of a number.
* `sprintf`: the text is stored in an array of characters (`sprintf_isSome`).
* `read`: the arguments that a text stands for, each string up to a character (`read_iff`).
  `prefix_of_read`, `mem_of_read`: the text begins as the format does, and has the strings in it.
* `Trailing`: characters that stand only at the end of a text (`Prints.trailing_iff`).
* `Unescapes`: the text of a format without arguments. A text that was printed and is printed again
  as a format is read back if and only if there is no `%` in its strings (`read_unescapes_iff`).
-/

namespace Printf

open CString (CharArray nul)
open Scanf (numeral valueOf sign isDigit isDigit_numeral valueOf_numeral numeral_ne_nil
  not_mem_numeral sign_of_isDigit sign_suffix span_append)

def percent : UInt8 := 37

/-- `-`. -/
def minus : UInt8 := 45

/-- A directive. `int` is `%d` or `%u`, and `str` is `%s`. -/
inductive Directive where
  | lit (b : UInt8)
  | int
  | str
  deriving DecidableEq, Repr

/-- An argument. -/
inductive Arg where
  | int (n : Int)
  | str (s : List UInt8)
  deriving DecidableEq, Repr

/-- The directives of a format; in a conversion, with whether there was an `l`. Conversions are
`d`, `u`, `s` and `%`. -/
def parse : Option Bool → List UInt8 → Option (List Directive)
  | none, [] => some []
  | none, b :: l =>
    if b = percent then parse (some false) l else (parse none l).map (.lit b :: ·)
  | some _, [] => none
  | some long, b :: l =>
    if b = 100 || b = 117 then (parse none l).map (.int :: ·)
    else if long then none
    else if b = 108 then parse (some true) l
    else if b = 115 then (parse none l).map (.str :: ·)
    else if b = percent then (parse none l).map (.lit percent :: ·)
    else none

/-! ## Numbers -/

/-- A number in decimal. -/
def decimal (n : Int) : List UInt8 :=
  if n < 0 then minus :: numeral 10 n.natAbs else numeral 10 n.natAbs

/-- How many characters a number has in decimal. -/
def width (n : Int) : Nat := Nat.log 10 n.natAbs + if n < 0 then 2 else 1

variable {n : Int} {b : UInt8}

@[simp] theorem width_zero : width 0 = 1 := by simp [width]

theorem length_numeral (n : Nat) : (numeral 10 n).length = Nat.log 10 n + 1 := by
  unfold numeral
  split
  · subst n
    simp
  · rename_i hne
    rw [List.length_map, List.length_reverse, Nat.length_digits 10 n (by decide) hne]

theorem length_decimal (n : Int) : (decimal n).length = width n := by
  unfold decimal width
  split
  · rw [List.length_cons, length_numeral]
  · rw [length_numeral]

theorem width_le_iff (k : Nat) :
    width n ≤ k + 1 ↔ -((10 ^ k : Nat) : Int) < n ∧ n < (10 ^ (k + 1) : Nat) := by
  have hlog {m j : Nat} (hm : m ≠ 0) : Nat.log 10 m < j ↔ m < 10 ^ j :=
    Nat.log_lt_iff_lt_pow (by decide) hm
  have hpos (j : Nat) : 0 < 10 ^ j := Nat.pow_pos (by decide)
  have hk := hpos k
  unfold width
  by_cases hn : n < 0
  · have h := hlog (m := n.natAbs) (j := k) (by omega)
    rw [if_pos hn]
    omega
  · rw [if_neg hn]
    by_cases h0 : n = 0
    · subst h0
      have hk' := hpos (k + 1)
      simp only [Int.natAbs_zero, Nat.log_zero_right]
      omega
    · have h := hlog (m := n.natAbs) (j := k + 1) (by omega)
      omega

theorem not_mem_decimal (hb : isDigit 10 b = false) (hminus : b ≠ minus) (n : Int) :
    b ∉ decimal n := by
  have hnot : b ∉ numeral 10 n.natAbs := not_mem_numeral hb (by decide) (by decide) _
  unfold decimal
  split
  · simpa [hminus] using hnot
  · exact hnot

/-! ## The text -/

/-- The text of a format with its arguments; `none` if they are not those of the conversions. -/
def print : List Directive → List Arg → Option (List UInt8)
  | [], [] => some []
  | .lit b :: ds, args => (print ds args).map (b :: ·)
  | .int :: ds, .int n :: args => (print ds args).map (decimal n ++ ·)
  | .str :: ds, .str s :: args => (print ds args).map (s ++ ·)
  | _, _ => none

/-- `line` is the text. -/
inductive Prints : List Directive → List Arg → List UInt8 → Prop where
  | nil : Prints [] [] []
  | lit (b : UInt8) {ds : List Directive} {args : List Arg} {line : List UInt8}
    (h : Prints ds args line) : Prints (.lit b :: ds) args (b :: line)
  | int (n : Int) {ds : List Directive} {args : List Arg} {line : List UInt8}
    (h : Prints ds args line) : Prints (.int :: ds) (.int n :: args) (decimal n ++ line)
  | str (s : List UInt8) {ds : List Directive} {args : List Arg} {line : List UInt8}
    (h : Prints ds args line) : Prints (.str :: ds) (.str s :: args) (s ++ line)

variable {ds : List Directive} {args args' : List Arg} {l s t u v line : List UInt8}
  {quote : UInt8}

theorem Prints.lits (h : Prints ds args line) (u : List UInt8) :
    Prints (u.map .lit ++ ds) args (u ++ line) := by
  induction u with
  | nil => exact h
  | cons b u ih => exact .lit b ih

theorem print_eq_some : print ds args = some line ↔ Prints ds args line := by
  constructor
  · intro h
    fun_induction print ds args generalizing line with
    | case1 =>
      cases h
      exact .nil
    | case2 b ds args ih =>
      obtain ⟨line, hrest, rfl⟩ := Option.map_eq_some_iff.mp h
      exact (ih hrest).lit b
    | case3 ds n args ih =>
      obtain ⟨line, hrest, rfl⟩ := Option.map_eq_some_iff.mp h
      exact (ih hrest).int n
    | case4 ds s args ih =>
      obtain ⟨line, hrest, rfl⟩ := Option.map_eq_some_iff.mp h
      exact (ih hrest).str s
    | case5 => cases h
  · intro h
    induction h with
    | nil => rfl
    | lit b h ih => rw [print, ih]; rfl
    | int n h ih => rw [print, ih]; rfl
    | str s h ih => rw [print, ih]; rfl

/-- The conversion of an argument. -/
def Arg.conversion : Arg → Directive
  | .int _ => .int
  | .str _ => .str

/-- How many characters an argument takes. -/
def Arg.length : Arg → Nat
  | .int n => width n
  | .str s => s.length

def Directive.isLit : Directive → Bool
  | .lit _ => true
  | _ => false

/-- The conversions of a format. -/
def conversions (ds : List Directive) : List Directive := ds.filter (!·.isLit)

/-- The number of characters that are not of conversions. -/
def literals (ds : List Directive) : Nat := ds.countP (·.isLit)

/-- There is a text if the arguments are those of the conversions. -/
theorem exists_prints (h : conversions ds = args.map Arg.conversion) :
    ∃ line, Prints ds args line := by
  induction ds generalizing args with
  | nil =>
    obtain rfl := List.map_eq_nil_iff.mp h.symm
    exact ⟨[], .nil⟩
  | cons d ds ih =>
    cases d with
    | lit b =>
      obtain ⟨line, h⟩ := ih h
      exact ⟨_, h.lit b⟩
    | int =>
      obtain ⟨arg, args, rfl, harg, hargs⟩ := List.map_eq_cons_iff.mp h.symm
      cases arg with
      | int n =>
        obtain ⟨line, h⟩ := ih hargs.symm
        exact ⟨_, h.int n⟩
      | str s => cases harg
    | str =>
      obtain ⟨arg, args, rfl, harg, hargs⟩ := List.map_eq_cons_iff.mp h.symm
      cases arg with
      | int n => cases harg
      | str s =>
        obtain ⟨line, h⟩ := ih hargs.symm
        exact ⟨_, h.str s⟩

theorem Prints.length_eq (h : Prints ds args line) :
    line.length = literals ds + (args.map Arg.length).sum := by
  unfold literals
  induction h with
  | nil => rfl
  | lit b h ih =>
    rw [List.length_cons, ih, List.countP_cons_of_pos rfl]
    omega
  | int n h ih =>
    rw [List.length_append, ih, List.countP_cons_of_neg Bool.false_ne_true, length_decimal,
      List.map_cons, List.sum_cons, Arg.length]
    omega
  | str s h ih =>
    rw [List.length_append, ih, List.countP_cons_of_neg Bool.false_ne_true, List.map_cons,
      List.sum_cons, Arg.length]
    omega

/-- What is in the text is in the format, in a number or in a string. -/
theorem Prints.mem (h : Prints ds args line) (hb : b ∈ line) :
    .lit b ∈ ds ∨ (∃ n, b ∈ decimal n) ∨ ∃ s, .str s ∈ args ∧ b ∈ s := by
  induction h with
  | nil => cases hb
  | lit c h ih =>
    rcases List.mem_cons.mp hb with rfl | hb
    · exact .inl List.mem_cons_self
    · rcases ih hb with h | h
      · exact .inl (List.mem_cons_of_mem _ h)
      · exact .inr h
  | int n h ih =>
    rcases List.mem_append.mp hb with hb | hb
    · exact .inr (.inl ⟨n, hb⟩)
    · rcases ih hb with h | h | ⟨s, hs, hb⟩
      · exact .inl (List.mem_cons_of_mem _ h)
      · exact .inr (.inl h)
      · exact .inr (.inr ⟨s, List.mem_cons_of_mem _ hs, hb⟩)
  | str s h ih =>
    rcases List.mem_append.mp hb with hb | hb
    · exact .inr (.inr ⟨s, List.mem_cons_self, hb⟩)
    · rcases ih hb with h | h | ⟨s, hs, hb⟩
      · exact .inl (List.mem_cons_of_mem _ h)
      · exact .inr (.inl h)
      · exact .inr (.inr ⟨s, List.mem_cons_of_mem _ hs, hb⟩)

/-- The characters of the format are in the text. -/
theorem Prints.lit_mem (h : Prints ds args line) (hb : .lit b ∈ ds) : b ∈ line := by
  induction h with
  | nil => cases hb
  | lit c h ih =>
    rcases List.mem_cons.mp hb with heq | hb
    · cases heq
      exact List.mem_cons_self
    · exact List.mem_cons_of_mem _ (ih hb)
  | int n h ih =>
    rcases List.mem_cons.mp hb with heq | hb
    · cases heq
    · exact List.mem_append_right _ (ih hb)
  | str s h ih =>
    rcases List.mem_cons.mp hb with heq | hb
    · cases heq
    · exact List.mem_append_right _ (ih hb)

/-- The strings are in the text. -/
theorem Prints.mem_line (h : Prints ds args line) (hs : .str s ∈ args) (hb : b ∈ s) : b ∈ line := by
  induction h with
  | nil => cases hs
  | lit c h ih => exact List.mem_cons_of_mem _ (ih hs)
  | int n h ih =>
    rcases List.mem_cons.mp hs with heq | hs
    · cases heq
    · exact List.mem_append_right _ (ih hs)
  | str t h ih =>
    rcases List.mem_cons.mp hs with heq | hs
    · cases heq
      exact List.mem_append_left _ hb
    · exact List.mem_append_right _ (ih hs)

/-- `printf`: the text of a format string. -/
def printf (format : List UInt8) (args : List Arg) : Option (List UInt8) :=
  (parse none format).bind (print · args)

theorem printf_eq {format : List UInt8} (hparse : parse none format = some ds)
    (h : Prints ds args line) : printf format args = some line := by
  rw [printf, hparse]
  exact print_eq_some.mpr h

/-- `sprintf`: `none` if the text and its `NUL` are longer than the array. -/
def sprintf {size : Nat} (dest : CharArray size) (format : List UInt8) (args : List Arg) :
    Option (CharArray size) :=
  (printf format args).bind (dest.storeString 0)

section Sprintf

variable {size : Nat} {dest dest' : CharArray size} {format : List UInt8}

theorem sprintf_isSome (hparse : parse none format = some ds)
    (hargs : conversions ds = args.map Arg.conversion) :
    (sprintf dest format args).isSome = true ↔
      literals ds + (args.map Arg.length).sum < size := by
  obtain ⟨line, h⟩ := exists_prints hargs
  rw [sprintf, printf_eq hparse h, Option.bind_some, CharArray.storeString_isSome, ← h.length_eq,
    Nat.zero_add]

/-- The string that is in the array. -/
theorem string_sprintf (hparse : parse none format = some ds) (h : Prints ds args line)
    (hnul : nul ∉ line) (hdest : sprintf dest format args = some dest') :
    dest'.string 0 = line := by
  rw [sprintf, printf_eq hparse h, Option.bind_some] at hdest
  rw [(CharArray.holds_storeString hdest).string_zero, CString.upToNul_eq hnul]

end Sprintf

/-! ## Reading back -/

/-- The arguments that all of a text stands for. A string is read up to `quote`. -/
def read (quote : UInt8) : List Directive → List UInt8 → Option (List Arg)
  | [], [] => some []
  | .lit b :: ds, c :: l => if c = b then read quote ds l else none
  | .int :: ds, l =>
    let (neg, l) := sign l
    let ns := l.takeWhile (isDigit 10)
    let n : Int := if neg then -valueOf 10 ns else valueOf 10 ns
    if ns = [] then none
    else (read quote ds (l.dropWhile (isDigit 10))).map (.int n :: ·)
  | .str :: ds, l =>
    (read quote ds (l.dropWhile (· ≠ quote))).map (.str (l.takeWhile (· ≠ quote)) :: ·)
  | _, _ => none

/-- What may come after a directive: no digit after a number, and `quote` after a string. -/
def ends (quote : UInt8) : Directive → Option Directive → Bool
  | .lit _, _ | .int, none => true
  | .int, some (.lit b) => !isDigit 10 b
  | .str, some (.lit b) => b = quote
  | _, _ => false

/-- Each directive ends before the next one. -/
def delimited (quote : UInt8) : List Directive → Bool
  | [] => true
  | d :: ds => ends quote d ds.head? && delimited quote ds

/-- No digit comes after a number. -/
theorem Prints.not_digit (h : Prints ds args line) (hend : ends quote .int ds.head? = true) :
    ∀ b ∈ line.head?, isDigit 10 b = false := by
  cases h with
  | nil => nofun
  | lit b h =>
    rintro _ ⟨⟩
    have hnot : (!isDigit 10 b) = true := hend
    rwa [Bool.not_eq_true'] at hnot
  | int n h => cases hend
  | str s h => cases hend

/-- The quote comes after a string. -/
theorem Prints.head_quote (h : Prints ds args line) (hend : ends quote .str ds.head? = true) :
    line.head? = some quote := by
  cases h with
  | nil => cases hend
  | lit b h =>
    obtain rfl : b = quote := of_decide_eq_true hend
    rfl
  | int n h => cases hend
  | str s h => cases hend

variable (quote ds) in
theorem read_int (n : Int) (hl : ∀ b ∈ l.head?, isDigit 10 b = false) :
    read quote (.int :: ds) (decimal n ++ l) = (read quote ds l).map (.int n :: ·) := by
  have hne := numeral_ne_nil 10 n.natAbs
  have hdigits := isDigit_numeral (show 1 < 10 by decide) (by decide) n.natAbs
  obtain ⟨htake, hdrop⟩ := span_append hdigits hl
  have hvalue : valueOf 10 (numeral 10 n.natAbs) = n.natAbs :=
    valueOf_numeral (by decide) (by decide) _
  have hsign : sign (decimal n ++ l) = (decide (n < 0), numeral 10 n.natAbs ++ l) := by
    unfold decimal
    split
    · rename_i hneg
      rw [decide_eq_true hneg]
      rfl
    · rename_i hneg
      obtain ⟨b, ns, hns⟩ := List.exists_cons_of_ne_nil hne
      rw [decide_eq_false hneg, hns]
      exact sign_of_isDigit (hdigits b (hns ▸ List.mem_cons_self)) _
  have hn : (if n < 0 then -(n.natAbs : Int) else n.natAbs) = n := by
    split <;> omega
  rw [read, hsign]
  simp only [htake, hdrop, if_neg hne, hvalue, decide_eq_true_eq, hn]

variable (ds) in
theorem read_str (hs : quote ∉ s) (hl : l.head? = some quote) :
    read quote (.str :: ds) (s ++ l) = (read quote ds l).map (.str s :: ·) := by
  obtain ⟨htake, hdrop⟩ : (s ++ l).takeWhile (fun b => decide (b ≠ quote)) = s ∧
      (s ++ l).dropWhile (fun b => decide (b ≠ quote)) = l := by
    refine span_append (fun b hb => ?_) fun b hb => ?_
    · have hne : b ≠ quote := fun heq => hs (heq ▸ hb)
      exact decide_eq_true hne
    · obtain rfl : quote = b := Option.some.inj (hl.symm.trans hb)
      simp
  rw [read, htake, hdrop]

/-- What was printed is read back, if there is no quote in its strings. -/
theorem read_prints (h : Prints ds args line) (hds : delimited quote ds = true)
    (hargs : ∀ s, .str s ∈ args → quote ∉ s) : read quote ds line = some args := by
  induction h with
  | nil => rfl
  | lit b h ih =>
    obtain ⟨-, hds⟩ := Bool.and_eq_true_iff.mp hds
    rw [read, if_pos rfl]
    exact ih hds hargs
  | int n h ih =>
    obtain ⟨hend, hds⟩ := Bool.and_eq_true_iff.mp hds
    have hrest := ih hds fun s hs => hargs s (List.mem_cons_of_mem _ hs)
    rw [read_int _ quote n (h.not_digit hend), hrest]
    rfl
  | str s h ih =>
    obtain ⟨hend, hds⟩ := Bool.and_eq_true_iff.mp hds
    have hrest := ih hds fun s hs => hargs s (List.mem_cons_of_mem _ hs)
    rw [read_str _ (hargs s List.mem_cons_self) (h.head_quote hend), hrest]
    rfl

/-- A string that is read has no quote. -/
theorem quote_not_mem_of_read (h : read quote ds line = some args) (hs : .str s ∈ args) :
    quote ∉ s := by
  induction ds generalizing line args with
  | nil =>
    cases line with
    | nil =>
      cases h
      cases hs
    | cons c line => cases h
  | cons d ds ih =>
    cases d with
    | lit b =>
      cases line with
      | nil => cases h
      | cons c line => exact ih (Option.ite_none_right_eq_some.mp h).2 hs
    | int =>
      obtain ⟨args, hrest, rfl⟩ := Option.map_eq_some_iff.mp (Option.ite_none_left_eq_some.mp h).2
      rcases List.mem_cons.mp hs with heq | hs
      · cases heq
      · exact ih hrest hs
    | str =>
      obtain ⟨args, hrest, rfl⟩ := Option.map_eq_some_iff.mp h
      rcases List.mem_cons.mp hs with heq | hs
      · cases heq
        exact fun hmem => by simpa using List.mem_takeWhile_imp hmem
      · exact ih hrest hs

/-- A string that is read is in the text. -/
theorem mem_of_read (h : read quote ds line = some args) (hs : .str s ∈ args) (hb : b ∈ s) :
    b ∈ line := by
  induction ds generalizing line args with
  | nil =>
    cases line with
    | nil =>
      cases h
      cases hs
    | cons c line => cases h
  | cons d ds ih =>
    cases d with
    | lit c =>
      cases line with
      | nil => cases h
      | cons c line =>
        exact List.mem_cons_of_mem _ (ih (Option.ite_none_right_eq_some.mp h).2 hs)
    | int =>
      obtain ⟨args, hrest, rfl⟩ := Option.map_eq_some_iff.mp (Option.ite_none_left_eq_some.mp h).2
      rcases List.mem_cons.mp hs with heq | hs
      · cases heq
      · exact (sign_suffix line).subset ((List.dropWhile_suffix _).subset (ih hrest hs))
    | str =>
      obtain ⟨args, hrest, rfl⟩ := Option.map_eq_some_iff.mp h
      rcases List.mem_cons.mp hs with heq | hs
      · cases heq
        exact (List.takeWhile_prefix _).subset hb
      · exact (List.dropWhile_suffix _).subset (ih hrest hs)

/-- A text that is read begins with the first characters of its format. -/
theorem prefix_of_read (h : read quote ds line = some args) (hl : l.map .lit <+: ds) :
    l <+: line := by
  induction l generalizing ds line with
  | nil => exact List.nil_prefix
  | cons b l ih =>
    cases ds with
    | nil => simp at hl
    | cons d ds =>
      obtain ⟨rfl, hrest⟩ := List.cons_prefix_cons.mp hl
      cases line with
      | nil => cases h
      | cons c line =>
        obtain ⟨rfl, hread⟩ := Option.ite_none_right_eq_some.mp h
        exact List.cons_prefix_cons.mpr ⟨rfl, ih hread hrest⟩

/-- What was printed is read back if and only if there is no quote in its strings. -/
theorem read_iff (h : Prints ds args line) (hds : delimited quote ds = true) :
    read quote ds line = some args ↔ ∀ s, .str s ∈ args → quote ∉ s :=
  ⟨fun hread _ hs => quote_not_mem_of_read hread hs, read_prints h hds⟩

/-! ## Characters at the end of a text -/

/-- The text begins with the first characters of its format. -/
theorem Prints.begins (h : Prints ds args line) (hl : l.map .lit <+: ds) : l <+: line := by
  induction l generalizing ds line with
  | nil => exact List.nil_prefix
  | cons b l ih =>
    cases h with
    | lit c h =>
      obtain ⟨⟨⟩, hrest⟩ := List.cons_prefix_cons.mp hl
      exact List.cons_prefix_cons.mpr ⟨rfl, ih h hrest⟩
    | nil | int | str => simp at hl

/-- After a character that satisfies `p`, there are only such characters. -/
def Trailing (p : UInt8 → Bool) (l : List UInt8) : Prop := l.Pairwise fun b c => p b → p c

instance (p : UInt8 → Bool) (l : List UInt8) : Decidable (Trailing p l) :=
  inferInstanceAs (Decidable (l.Pairwise fun b c => p b → p c))

/-- A literal that satisfies `p`. -/
def Directive.sat (p : UInt8 → Bool) : Directive → Bool
  | .lit b => p b
  | _ => false

section Trailing

variable {p : UInt8 → Bool}

theorem trailing_append_of_neg (hu : ∀ b ∈ u, p b = false) :
    Trailing p (u ++ v) ↔ Trailing p v := by
  have hpair : u.Pairwise fun b c => p b → p c :=
    List.pairwise_of_forall_mem_list fun b hb c _ hpb => by simp [hu b hb] at hpb
  have hcross : ∀ b ∈ u, ∀ c ∈ v, p b → p c := fun b hb c _ hpb => by simp [hu b hb] at hpb
  unfold Trailing
  rw [List.pairwise_append]
  exact ⟨fun h => h.2.1, fun h => ⟨hpair, h, hcross⟩⟩

theorem Prints.forall_of_sat (h : Prints ds args line) (hds : ∀ d ∈ ds, d.sat p = true) :
    ∀ b ∈ line, p b = true := by
  induction h with
  | nil => nofun
  | lit b h ih =>
    obtain ⟨hb, hds⟩ := List.forall_mem_cons.mp hds
    exact List.forall_mem_cons.mpr ⟨hb, ih hds⟩
  | int n h ih => cases (List.forall_mem_cons.mp hds).1
  | str s h ih => cases (List.forall_mem_cons.mp hds).1

/-- The characters are at the end of the text only if they are at the end of the format, and in no
string. -/
theorem Prints.trailing_iff (h : Prints ds args line)
    (hlits : ds.Pairwise fun d d' => d.sat p → d'.sat p) (hds : delimited quote ds = true)
    (hquote : p quote = false) (hnum : ∀ n, ∀ b ∈ decimal n, p b = false) :
    Trailing p line ↔ ∀ s, .str s ∈ args → ∀ b ∈ s, p b = false := by
  induction h with
  | nil => exact iff_of_true .nil nofun
  | @lit b ds args line h ih =>
    obtain ⟨hb, hlits⟩ := List.pairwise_cons.mp hlits
    obtain ⟨-, hds⟩ := Bool.and_eq_true_iff.mp hds
    rw [← ih hlits hds]
    refine ⟨fun htrail => (List.pairwise_cons.mp htrail).2, fun htrail => ?_⟩
    refine List.pairwise_cons.mpr ⟨fun c hc hpb => ?_, htrail⟩
    exact h.forall_of_sat (fun d hd => hb d hd hpb) c hc
  | int n h ih =>
    obtain ⟨-, hds⟩ := Bool.and_eq_true_iff.mp hds
    rw [trailing_append_of_neg (hnum n), ih (List.pairwise_cons.mp hlits).2 hds]
    simp
  | @str s ds args line h ih =>
    obtain ⟨hend, hds⟩ := Bool.and_eq_true_iff.mp hds
    have hmem : quote ∈ line := List.mem_of_mem_head? (h.head_quote hend)
    have hrest := ih (List.pairwise_cons.mp hlits).2 hds
    simp only [List.mem_cons, Arg.str.injEq, forall_eq_or_imp]
    constructor
    · intro htrail
      have hs : ∀ b ∈ s, p b = false := fun b hb => by
        have hcross := (List.pairwise_append.mp htrail).2.2 b hb quote hmem
        simpa [hquote] using hcross
      exact ⟨hs, hrest.mp ((trailing_append_of_neg hs).mp htrail)⟩
    · rintro ⟨hs, hargs⟩
      exact (trailing_append_of_neg hs).mpr (hrest.mpr hargs)

end Trailing

/-! ## Texts that are used as formats -/

/-- `t` is the text of the format `l` without arguments: `%%` is a `%`. -/
inductive Unescapes : List UInt8 → List UInt8 → Prop where
  | nil : Unescapes [] []
  | char {b : UInt8} {l t : List UInt8} (hb : b ≠ percent) (h : Unescapes l t) :
    Unescapes (b :: l) (b :: t)
  | percent {l t : List UInt8} (h : Unescapes l t) :
    Unescapes (percent :: percent :: l) (percent :: t)

/-- A conversion takes an argument, or it is a `%`. -/
theorem parse_conversion {long : Bool} (h : parse (some long) l = some ds) :
    (∃ ds', ds = .int :: ds' ∨ ds = .str :: ds') ∨
      long = false ∧ ∃ l' ds', l = percent :: l' ∧ ds = .lit percent :: ds' ∧
        parse none l' = some ds' := by
  induction l generalizing long with
  | nil => cases h
  | cons b l ih =>
    rw [parse] at h
    split at h
    · obtain ⟨ds', -, rfl⟩ := Option.map_eq_some_iff.mp h
      exact .inl ⟨ds', .inl rfl⟩
    · obtain ⟨hlong, h⟩ := Option.ite_none_left_eq_some.mp h
      split at h
      · rcases ih h with hds | ⟨⟨⟩, -⟩
        exact .inl hds
      · split at h
        · obtain ⟨ds', -, rfl⟩ := Option.map_eq_some_iff.mp h
          exact .inl ⟨ds', .inr rfl⟩
        · obtain ⟨rfl, h⟩ := Option.ite_none_right_eq_some.mp h
          obtain ⟨ds', hparse, rfl⟩ := Option.map_eq_some_iff.mp h
          exact .inr ⟨by simpa using hlong, l, ds', rfl, rfl, hparse⟩

theorem unescapes_of_printf (h : printf l [] = some t) : Unescapes l t := by
  induction hn : l.length using Nat.strongRecOn generalizing l t with
  | ind n ih =>
    obtain ⟨ds, hparse, hprint⟩ := Option.bind_eq_some_iff.mp h
    cases l with
    | nil =>
      cases hparse
      cases hprint
      exact .nil
    | cons b l =>
      rw [parse] at hparse
      rw [List.length_cons] at hn
      split at hparse
      · subst b
        rcases parse_conversion hparse with ⟨ds', rfl | rfl⟩ | ⟨-, l', ds', rfl, rfl, hparse'⟩
        · cases hprint
        · cases hprint
        · obtain ⟨t, hrest, rfl⟩ := Option.map_eq_some_iff.mp hprint
          rw [List.length_cons] at hn
          exact .percent (ih l'.length (by omega) (by rw [printf, hparse']; exact hrest) rfl)
      · obtain ⟨ds', hparse', rfl⟩ := Option.map_eq_some_iff.mp hparse
        obtain ⟨t, hrest, rfl⟩ := Option.map_eq_some_iff.mp hprint
        exact .char ‹_› (ih l.length (by omega) (by rw [printf, hparse']; exact hrest) rfl)

/-- A format without `%` is its own text. -/
theorem printf_self (h : percent ∉ l) : printf l [] = some l := by
  induction l with
  | nil => rfl
  | cons b l ih =>
    obtain ⟨hb, hl⟩ := List.ne_and_not_mem_of_not_mem_cons h
    obtain ⟨ds, hparse, hprint⟩ := Option.bind_eq_some_iff.mp (ih hl)
    have hcons : parse none (b :: l) = some (.lit b :: ds) := by
      rw [parse, if_neg hb.symm, hparse]
      rfl
    exact printf_eq hcons ((print_eq_some.mp hprint).lit b)

theorem Unescapes.mem (h : Unescapes l t) (hb : b ∈ t) : b ∈ l := by
  induction h with
  | nil => exact hb
  | char _ h ih =>
    rcases List.mem_cons.mp hb with rfl | hb
    · exact List.mem_cons_self
    · exact List.mem_cons_of_mem _ (ih hb)
  | percent h ih =>
    rcases List.mem_cons.mp hb with rfl | hb
    · exact List.mem_cons_self
    · exact List.mem_cons_of_mem _ (List.mem_cons_of_mem _ (ih hb))

theorem Unescapes.length_le (h : Unescapes l t) : t.length ≤ l.length := by
  induction h with
  | nil => exact Nat.le_refl _
  | char _ h ih => exact Nat.succ_le_succ ih
  | percent h ih => exact Nat.succ_le_succ (Nat.le_succ_of_le ih)

/-- A text that does not get shorter has no `%`. -/
theorem Unescapes.percent_not_mem (h : Unescapes l t) (hlen : l.length = t.length) :
    Printf.percent ∉ l := by
  induction h with
  | nil => exact List.not_mem_nil
  | char hb h ih =>
    simp only [List.length_cons, Nat.add_right_cancel_iff] at hlen
    exact List.not_mem_cons_of_ne_of_not_mem hb.symm (ih hlen)
  | percent h ih =>
    have hle := h.length_le
    simp only [List.length_cons, Nat.add_right_cancel_iff] at hlen
    omega

/-- A character that is no `%` stays. -/
theorem Unescapes.of_cons (h : Unescapes (b :: l) t) (hb : b ≠ Printf.percent) :
    ∃ t', t = b :: t' ∧ Unescapes l t' := by
  cases h with
  | char _ h => exact ⟨_, rfl, h⟩
  | percent h => exact absurd rfl hb

theorem Unescapes.append_left (h : Unescapes (u ++ v) t) (hu : Printf.percent ∉ u) :
    ∃ t', t = u ++ t' ∧ Unescapes v t' := by
  induction u generalizing t with
  | nil => exact ⟨t, rfl, h⟩
  | cons b u ih =>
    obtain ⟨hb, hu⟩ := List.ne_and_not_mem_of_not_mem_cons hu
    obtain ⟨t, rfl, hrest⟩ := h.of_cons hb.symm
    obtain ⟨t', rfl, h'⟩ := ih hrest hu
    exact ⟨t', rfl, h'⟩

/-- What comes before a character that is no `%` is a format by itself. -/
theorem Unescapes.split (h : Unescapes l t) (hl : l = u ++ v)
    (hv : v.head? ≠ some Printf.percent) :
    ∃ t₁ t₂, Unescapes u t₁ ∧ Unescapes v t₂ ∧ t = t₁ ++ t₂ := by
  induction h generalizing u with
  | nil =>
    obtain ⟨rfl, rfl⟩ := List.append_eq_nil_iff.mp hl.symm
    exact ⟨[], [], .nil, .nil, rfl⟩
  | @char b l t hb h ih =>
    rcases List.cons_eq_append_iff.mp hl with ⟨rfl, rfl⟩ | ⟨u, rfl, hl'⟩
    · exact ⟨[], b :: t, .nil, .char hb h, rfl⟩
    · obtain ⟨t₁, t₂, h₁, h₂, rfl⟩ := ih hl'
      exact ⟨b :: t₁, t₂, .char hb h₁, h₂, rfl⟩
  | @percent l t h ih =>
    -- a `%%` is not cut in two
    rcases List.cons_eq_append_iff.mp hl with ⟨rfl, rfl⟩ | ⟨u, rfl, hl'⟩
    · exact absurd rfl hv
    · rcases List.cons_eq_append_iff.mp hl' with ⟨rfl, rfl⟩ | ⟨u, rfl, hl''⟩
      · exact absurd rfl hv
      · obtain ⟨t₁, t₂, h₁, h₂, rfl⟩ := ih hl''
        exact ⟨Printf.percent :: t₁, t₂, .percent h₁, h₂, rfl⟩

/-- An argument, and what becomes of it when the text is used as a format. -/
inductive UnescapesArg : Arg → Arg → Prop where
  | int (n : Int) : UnescapesArg (.int n) (.int n)
  | str {s t : List UInt8} (h : Unescapes s t) : UnescapesArg (.str s) (.str t)

/-- The text of a text is that of the same format, with other strings. -/
theorem Prints.unescapes (h : Prints ds args line) (hline : Unescapes line t)
    (hlit : .lit percent ∉ ds) (hds : delimited quote ds = true) (hquote : quote ≠ percent) :
    ∃ args', List.Forall₂ UnescapesArg args args' ∧ Prints ds args' t := by
  induction h generalizing t with
  | nil =>
    cases hline
    exact ⟨[], .nil, .nil⟩
  | lit b h ih =>
    obtain ⟨hb, hlit⟩ := List.ne_and_not_mem_of_not_mem_cons hlit
    obtain ⟨-, hds⟩ := Bool.and_eq_true_iff.mp hds
    obtain ⟨t, rfl, hrest⟩ := hline.of_cons fun heq => hb (congrArg Directive.lit heq.symm)
    obtain ⟨args', hargs, h'⟩ := ih hrest hlit hds
    exact ⟨args', hargs, h'.lit b⟩
  | int n h ih =>
    obtain ⟨-, hds⟩ := Bool.and_eq_true_iff.mp hds
    have hnot : percent ∉ decimal n := not_mem_decimal (by decide) (by decide) n
    obtain ⟨t, rfl, hrest⟩ := hline.append_left hnot
    obtain ⟨args', hargs, h'⟩ := ih hrest (List.not_mem_of_not_mem_cons hlit) hds
    exact ⟨_, .cons (.int n) hargs, h'.int n⟩
  | str s h ih =>
    obtain ⟨hend, hds⟩ := Bool.and_eq_true_iff.mp hds
    have hhead : _ ≠ some percent := fun heq =>
      hquote (Option.some.inj ((h.head_quote hend).symm.trans heq))
    obtain ⟨s', t, hs, hrest, rfl⟩ := hline.split rfl hhead
    obtain ⟨args', hargs, h'⟩ := ih hrest (List.not_mem_of_not_mem_cons hlit) hds
    exact ⟨_, .cons (.str hs) hargs, h'.str s'⟩

theorem mem_of_unescapesArg (h : List.Forall₂ UnescapesArg args args') (ht : .str t ∈ args') :
    ∃ s, .str s ∈ args ∧ Unescapes s t := by
  induction h with
  | nil => cases ht
  | cons harg h ih =>
    rcases List.mem_cons.mp ht with rfl | ht
    · cases harg with
      | @str s _ hs => exact ⟨s, List.mem_cons_self, hs⟩
    · obtain ⟨s, hs, hst⟩ := ih ht
      exact ⟨s, List.mem_cons_of_mem _ hs, hst⟩

theorem Prints.percent_not_mem (h : Prints ds args line) (hlit : .lit percent ∉ ds)
    (hargs : ∀ s, .str s ∈ args → percent ∉ s) : percent ∉ line := fun hmem => by
  rcases h.mem hmem with hds | ⟨n, hn⟩ | ⟨s, hs, hmem⟩
  · exact hlit hds
  · exact not_mem_decimal (by decide) (by decide) n hn
  · exact hargs s hs hmem

/-- What was printed and is printed again as a format is read with other strings. -/
theorem Prints.read_unescapes (h : Prints ds args line) (ht : printf line [] = some t)
    (hlit : .lit percent ∉ ds) (hds : delimited quote ds = true) (hquote : quote ≠ percent)
    (hargs : ∀ s, .str s ∈ args → quote ∉ s) :
    ∃ args', List.Forall₂ UnescapesArg args args' ∧ Prints ds args' t ∧
      read quote ds t = some args' := by
  obtain ⟨args', hforall, h'⟩ := h.unescapes (unescapes_of_printf ht) hlit hds hquote
  refine ⟨args', hforall, h', read_prints h' hds fun s' hs' hmem => ?_⟩
  obtain ⟨s, hs, hst⟩ := mem_of_unescapesArg hforall hs'
  exact hargs s hs (hst.mem hmem)

/-- What was printed and is printed again as a format is read back if and only if there is no quote
and no `%` in its strings. -/
theorem read_unescapes_iff (h : Prints ds args line) (hlit : .lit percent ∉ ds)
    (hds : delimited quote ds = true) (hquote : quote ≠ percent) :
    (∃ t, printf line [] = some t ∧ read quote ds t = some args) ↔
      ∀ s, .str s ∈ args → quote ∉ s ∧ percent ∉ s := by
  constructor
  · rintro ⟨t, hprintf, hread⟩
    have hfree : ∀ s, .str s ∈ args → quote ∉ s := fun s hs => quote_not_mem_of_read hread hs
    obtain ⟨args', hargs, -, hread'⟩ := h.read_unescapes hprintf hlit hds hquote hfree
    obtain rfl : args = args' := Option.some.inj (hread.symm.trans hread')
    intro s hs
    refine ⟨hfree s hs, ?_⟩
    cases List.forall₂_same.mp hargs _ hs with
    | str hss => exact hss.percent_not_mem rfl
  · intro hargs
    have hnot := h.percent_not_mem hlit fun s hs => (hargs s hs).2
    exact ⟨line, printf_self hnot, read_prints h hds fun s hs => (hargs s hs).1⟩

end Printf
