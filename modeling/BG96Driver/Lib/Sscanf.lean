import BG96Driver.Lib.Scanf
import Mathlib.Algebra.Field.Rat

/-!
# `sscanf`

`sscanf` stores the fields of a string from the first to the last, and stops at the first directive
that does not match. What it has stored until then stays.

* `Directive`, `directives`: the directives of a format string.
* `sscanf`: the fields that are stored.
* `sscanf_int`, `sscanf_decimal`, ...: a field that is read in full, and what is left.
* `padded`: a number with leading zeros (`valueOf_padded`).
* `Numeral`, `Fixed`: an integer and a decimal number as they are written.
-/

namespace Sscanf

/-- A directive. The conversions are `%d`, `%s`, `%c` and `%f`. -/
inductive Directive where
  | lit (c : Char)
  | space
  | int (width : Option Nat)
  | word (width : Option Nat)
  | char
  | decimal
  deriving DecidableEq, Repr

/-- What a conversion stores. A decimal is a number divided by a power of ten. -/
inductive Stored where
  | int (n : Int)
  | text (s : List Char)
  | decimal (n : Int) (scale : Nat)
  deriving DecidableEq, Repr

/-- The directives of a format; in a conversion, with its width. -/
def parse : Option (Option Nat) → List Char → List Directive
  | _, [] => []
  | none, '%' :: l => parse (some none) l
  | none, c :: l => (if c.isWhitespace then .space else .lit c) :: parse none l
  | some width, c :: l =>
    if c.isDigit then parse (some (some (10 * width.getD 0 + (c.toNat - 48)))) l
    else
      let d : Directive :=
        match c with
        | 'd' => .int width
        | 's' => .word width
        | 'c' => .char
        | 'f' => .decimal
        | c => .lit c
      d :: parse none l

/-- The directives of a format string. -/
def directives (s : String) : List Directive := parse none s.toList

/-- The number that digits stand for. -/
def valueOf (l : List Char) : Nat := l.foldl (fun v c => 10 * v + (c.toNat - 48)) 0

/-- An optional sign: whether it is `-`, and what is after it. -/
def sign : List Char → Bool × List Char
  | '-' :: l => (true, l)
  | '+' :: l => (false, l)
  | l => (false, l)

def signed (negative : Bool) (n : Nat) : Int := if negative then -n else n

/-- An `int`. A number that is none is cut to the range, as `strtol` does. -/
def saturate (n : Int) : Int := max (-2 ^ 31) (min n (2 ^ 31 - 1))

/-- `%d`: the number, and what is left. -/
def takeInt (width : Option Nat) (l : List Char) : Option (Int × List Char) :=
  let l := l.dropWhile Char.isWhitespace
  let field := width.elim l l.take
  let (negative, digits) := sign field
  let ns := digits.takeWhile Char.isDigit
  if ns = [] then none
  else
    some (saturate (signed negative (valueOf ns)), l.drop (field.length - digits.length + ns.length))

/-- `%s`: the word, and what is left. -/
def takeWord (width : Option Nat) (l : List Char) : Option (List Char × List Char) :=
  let l := l.dropWhile Char.isWhitespace
  let w := (width.elim l l.take).takeWhile fun c => !c.isWhitespace
  if w = [] then none else some (w, l.drop w.length)

/-- `%f` in decimal notation: the number without its point, the digits after the point, and what is
left. -/
def takeDecimal (l : List Char) : Option (Int × Nat × List Char) :=
  let (negative, l) := sign (l.dropWhile Char.isWhitespace)
  let whole := l.takeWhile Char.isDigit
  let (frac, l) : List Char × List Char :=
    match l.dropWhile Char.isDigit with
    | '.' :: l => (l.takeWhile Char.isDigit, l.dropWhile Char.isDigit)
    | l => ([], l)
  if whole ++ frac = [] then none
  else some (signed negative (valueOf (whole ++ frac)), frac.length, l)

/-- The fields that are stored. -/
def sscanf : List Directive → List Char → List Stored
  | [], _ => []
  | .lit _ :: _, [] => []
  | .lit c :: ds, d :: l => if d = c then sscanf ds l else []
  | .space :: ds, l => sscanf ds (l.dropWhile Char.isWhitespace)
  | .int width :: ds, l =>
    match takeInt width l with
    | some (n, l) => .int n :: sscanf ds l
    | none => []
  | .word width :: ds, l =>
    match takeWord width l with
    | some (w, l) => .text w :: sscanf ds l
    | none => []
  | .char :: _, [] => []
  | .char :: ds, c :: l => .text [c] :: sscanf ds l
  | .decimal :: ds, l =>
    match takeDecimal l with
    | some (n, scale, l) => .decimal n scale :: sscanf ds l
    | none => []

variable {ds : List Directive} {l r : List Char} {c : Char}

/-- A directive that stores a field. -/
def Directive.Stores : Directive → Bool
  | .lit _ | .space => false
  | _ => true

/-- No more fields are stored than there are conversions. -/
theorem length_sscanf_le (ds : List Directive) (l : List Char) :
    (sscanf ds l).length ≤ ds.countP Directive.Stores := by
  have hskips {d : Directive} {n : Nat} (hd : d.Stores = false) {ds : List Directive}
      (hle : n ≤ ds.countP Directive.Stores) : n ≤ (d :: ds).countP Directive.Stores := by
    rwa [List.countP_cons_of_neg (by rw [hd]; exact Bool.false_ne_true)]
  have hstores {d : Directive} {n : Nat} (hd : d.Stores = true) {ds : List Directive}
      (hle : n ≤ ds.countP Directive.Stores) : n + 1 ≤ (d :: ds).countP Directive.Stores := by
    rw [List.countP_cons_of_pos hd]
    exact Nat.succ_le_succ hle
  fun_induction sscanf ds l with
  | case3 ds d l ih => exact hskips rfl ih
  | case5 ds l ih => exact hskips rfl ih
  | case6 width ds l n rest hread ih => exact hstores rfl ih
  | case8 width ds l w rest hread ih => exact hstores rfl ih
  | case11 ds c l ih => exact hstores rfl ih
  | case12 ds l n scale rest hread ih => exact hstores rfl ih
  | case1 | case2 | case4 | case7 | case9 | case10 | case13 => exact Nat.zero_le _

/-! ## Digits -/

/-- A field of digits. -/
def Digits (ns : List Char) : Prop := ns ≠ [] ∧ ∀ c ∈ ns, c.isDigit = true

instance (ns : List Char) : Decidable (Digits ns) :=
  decidable_of_iff (ns ≠ [] ∧ ns.all Char.isDigit = true) (by simp [Digits])

/-- What comes after a number does not go on with it. -/
def Ends (r : List Char) : Prop := ∀ c ∈ r.head?, c.isDigit = false

theorem ends_nil : Ends [] := by simp [Ends]

theorem ends_cons (hc : c.isDigit = false) : Ends (c :: r) := by simpa [Ends] using hc

theorem isWhitespace_of_isDigit (hc : c.isDigit = true) : c.isWhitespace = false := by
  have h48 : 48 ≤ c.toNat := by
    simp only [Char.isDigit, Bool.and_eq_true, decide_eq_true_eq] at hc
    exact UInt32.le_iff_toNat_le.mp hc.1
  simp only [Char.isWhitespace, Bool.or_eq_false_iff, decide_eq_false_iff_not]
  refine ⟨⟨⟨?_, ?_⟩, ?_⟩, ?_⟩ <;> rintro rfl <;> exact absurd h48 (by decide)

/-- A digit is no sign and no white space. -/
theorem Digits.head {ns : List Char} (h : Digits ns) (r : List Char) :
    (ns ++ r).dropWhile Char.isWhitespace = ns ++ r ∧ sign (ns ++ r) = (false, ns ++ r) := by
  obtain ⟨c, ns, rfl⟩ := List.exists_cons_of_ne_nil h.1
  have hc := h.2 c List.mem_cons_self
  refine ⟨by simp [isWhitespace_of_isDigit hc], ?_⟩
  rw [List.cons_append]
  unfold sign
  split
  · rename_i heq
    obtain ⟨rfl, -⟩ := List.cons.inj heq
    cases hc
  · rename_i heq
    obtain ⟨rfl, -⟩ := List.cons.inj heq
    cases hc
  · rfl

/-! ## Fields that are read in full -/

@[simp] theorem sscanf_nil (l : List Char) : sscanf [] l = [] := rfl

@[simp] theorem sscanf_lit (c : Char) (ds : List Directive) (l : List Char) :
    sscanf (.lit c :: ds) (c :: l) = sscanf ds l := by
  rw [sscanf, if_pos rfl]

@[simp] theorem sscanf_char (c : Char) (ds : List Directive) (l : List Char) :
    sscanf (.char :: ds) (c :: l) = .text [c] :: sscanf ds l := rfl

theorem saturate_of_lt {n : Nat} (hn : n < 2 ^ 31) : saturate n = n := by
  unfold saturate
  omega

/-- A number fills its width, or what comes after it ends it. -/
theorem takeInt_digits {width : Option Nat} {ns : List Char} (hns : Digits ns)
    (hwidth : width = some ns.length ∨ width = none ∧ Ends r) :
    takeInt width (ns ++ r) = some (saturate (valueOf ns), r) := by
  obtain ⟨q, hfield, hq⟩ : ∃ q, width.elim (ns ++ r) (ns ++ r).take = ns ++ q ∧ Ends q := by
    rcases hwidth with rfl | ⟨rfl, hr⟩
    · exact ⟨[], by simp, ends_nil⟩
    · exact ⟨r, rfl, hr⟩
  obtain ⟨hspace, -⟩ := hns.head r
  obtain ⟨-, hsign⟩ := hns.head q
  obtain ⟨htake, -⟩ := Scanf.span_append hns.2 hq
  simp only [takeInt, hspace, hfield, hsign, htake, if_neg hns.1, signed, Bool.false_eq_true,
    if_false]
  rw [Nat.sub_self, Nat.zero_add, List.drop_left]

theorem sscanf_int {ns : List Char} (ds : List Directive) (hns : Digits ns) (hr : Ends r) :
    sscanf (.int none :: ds) (ns ++ r) = .int (saturate (valueOf ns)) :: sscanf ds r := by
  rw [sscanf, takeInt_digits hns (.inr ⟨rfl, hr⟩)]

theorem sscanf_width {ns : List Char} {width : Nat} (ds : List Directive) (hns : Digits ns)
    (hwidth : ns.length = width) (r : List Char) :
    sscanf (.int (some width) :: ds) (ns ++ r) = .int (saturate (valueOf ns)) :: sscanf ds r := by
  subst hwidth
  rw [sscanf, takeInt_digits hns (.inl rfl)]

/-- A word fills its width. -/
theorem sscanf_word {w : List Char} {width : Nat} (ds : List Directive) (hne : w ≠ [])
    (hw : ∀ c ∈ w, c.isWhitespace = false) (hwidth : w.length = width) (r : List Char) :
    sscanf (.word (some width) :: ds) (w ++ r) = .text w :: sscanf ds r := by
  subst hwidth
  have hspace : (w ++ r).dropWhile Char.isWhitespace = w ++ r := by
    obtain ⟨c, w, rfl⟩ := List.exists_cons_of_ne_nil hne
    simp [hw c List.mem_cons_self]
  have htake : w.takeWhile (fun c => !c.isWhitespace) = w :=
    List.takeWhile_eq_self_iff.mpr fun c hc => by simp [hw c hc]
  rw [sscanf, takeWord]
  simp only [hspace, Option.elim_some, List.take_left, htake, if_neg hne, List.drop_left]

/-- A number in decimal notation, with a point. -/
structure Decimal where
  negative : Bool
  whole : List Char
  frac : List Char
  hwhole : Digits whole
  hfrac : Digits frac

def Decimal.text (d : Decimal) : List Char :=
  (if d.negative then ['-'] else []) ++ (d.whole ++ '.' :: d.frac)

/-- What is stored of it. -/
def Decimal.stored (d : Decimal) : Stored :=
  .decimal (signed d.negative (valueOf (d.whole ++ d.frac))) d.frac.length

/-- The sign of a number. -/
theorem sign_digits {ns : List Char} (negative : Bool) (hns : Digits ns) (r : List Char) :
    sign (((if negative then ['-'] else []) ++ (ns ++ r)).dropWhile Char.isWhitespace) =
      (negative, ns ++ r) := by
  obtain ⟨hspace, hsign⟩ := hns.head r
  cases negative with
  | false => simp [hspace, hsign]
  | true =>
    have hminus : Char.isWhitespace '-' = false := by decide
    simp [hminus, sign]

theorem sscanf_decimal (d : Decimal) (ds : List Directive) (hr : Ends r) :
    sscanf (.decimal :: ds) (d.text ++ r) = d.stored :: sscanf ds r := by
  have hsign : sign ((d.text ++ r).dropWhile Char.isWhitespace) =
      (d.negative, d.whole ++ '.' :: (d.frac ++ r)) := by
    rw [Decimal.text, List.append_assoc, List.append_assoc, List.cons_append]
    exact sign_digits d.negative d.hwhole ('.' :: (d.frac ++ r))
  obtain ⟨htake, hdrop⟩ := Scanf.span_append d.hwhole.2
    (ends_cons (c := '.') (r := d.frac ++ r) (by decide))
  obtain ⟨htake', hdrop'⟩ := Scanf.span_append d.hfrac.2 hr
  have hne : d.whole ++ d.frac ≠ [] := by simp [d.hwhole.1]
  rw [sscanf, takeDecimal]
  simp only [hsign, htake, hdrop, htake', hdrop', if_neg hne, Decimal.stored]

/-- A number without a point, up to a comma. -/
theorem sscanf_whole {ns : List Char} (negative : Bool) (hns : Digits ns) (ds : List Directive)
    (r : List Char) :
    sscanf (.decimal :: ds) ((if negative then ['-'] else []) ++ (ns ++ ',' :: r)) =
      .decimal (signed negative (valueOf ns)) 0 :: sscanf ds (',' :: r) := by
  obtain ⟨htake, hdrop⟩ := Scanf.span_append hns.2 (ends_cons (c := ',') (r := r) (by decide))
  have hnone : (match ',' :: r with
      | '.' :: l => (l.takeWhile Char.isDigit, l.dropWhile Char.isDigit)
      | l => ([], l)) = (([] : List Char), ',' :: r) := rfl
  rw [sscanf, takeDecimal]
  simp only [sign_digits negative hns, htake, hdrop, hnone, List.append_nil, if_neg hns.1,
    List.length_nil]

/-! ## Leading zeros -/

/-- The last `w` digits of a number. -/
def padded : Nat → Nat → List Char
  | 0, _ => []
  | w + 1, n => padded w (n / 10) ++ [Nat.digitChar (n % 10)]

@[simp] theorem length_padded (w n : Nat) : (padded w n).length = w := by
  induction w generalizing n with
  | zero => rfl
  | succ w ih => simp [padded, ih]

theorem digitChar_spec {d : Nat} (hd : d < 10) :
    (Nat.digitChar d).isDigit = true ∧ (Nat.digitChar d).toNat - 48 = d := by
  have hall : ∀ d < 10, (Nat.digitChar d).isDigit = true ∧ (Nat.digitChar d).toNat - 48 = d := by
    decide
  exact hall d hd

theorem digits_padded {w : Nat} (hw : 0 < w) (n : Nat) : Digits (padded w n) := by
  refine ⟨fun hnil => ?_, ?_⟩
  · have hlen := length_padded w n
    rw [hnil, List.length_nil] at hlen
    omega
  · clear hw
    induction w generalizing n with
    | zero => exact List.forall_mem_nil _
    | succ w ih =>
      refine List.forall_mem_append.mpr ⟨ih (n / 10), List.forall_mem_singleton.mpr ?_⟩
      exact (digitChar_spec (Nat.mod_lt n (by decide))).1

theorem valueOf_padded {w n : Nat} (h : n < 10 ^ w) : valueOf (padded w n) = n := by
  induction w generalizing n with
  | zero =>
    rw [Nat.pow_zero] at h
    obtain rfl : n = 0 := by omega
    rfl
  | succ w ih =>
    have hlast := (digitChar_spec (Nat.mod_lt n (show 0 < 10 by decide))).2
    have hfirst := ih (n := n / 10) (by rw [Nat.pow_succ] at h; omega)
    rw [valueOf] at hfirst
    rw [valueOf, padded, List.foldl_append, hfirst]
    simp only [List.foldl_cons, List.foldl_nil, hlast]
    omega

/-- A number, in so many digits. -/
structure Numeral where
  value : Nat
  width : Nat
  hwidth : 0 < width
  hvalue : value < 10 ^ width

def Numeral.text (n : Numeral) : List Char := padded n.width n.value

theorem Numeral.digits (n : Numeral) : Digits n.text := digits_padded n.hwidth n.value

theorem Numeral.valueOf_text (n : Numeral) : valueOf n.text = n.value := valueOf_padded n.hvalue

/-- A decimal number: a sign, its digits, and how many of them are after the point. -/
structure Fixed where
  negative : Bool
  digits : Numeral
  scale : Nat
  hscale : scale < digits.width

namespace Fixed

/-- The digits before the point. -/
def whole (d : Fixed) : List Char := d.digits.text.take (d.digits.width - d.scale)

/-- The digits after the point. -/
def frac (d : Fixed) : List Char := d.digits.text.drop (d.digits.width - d.scale)

/-- The number, without a point if there are no digits after it. -/
def text (d : Fixed) : List Char :=
  (if d.negative then ['-'] else []) ++
    (d.whole ++ if d.scale = 0 then [] else '.' :: d.frac)

def value (d : Fixed) : ℚ := signed d.negative d.digits.value / 10 ^ d.scale

/-- What is stored of it. -/
def stored (d : Fixed) : Stored := .decimal (signed d.negative d.digits.value) d.scale

theorem length_frac (d : Fixed) : d.frac.length = d.scale := by
  have hscale := d.hscale
  rw [frac, List.length_drop, Numeral.text, length_padded]
  omega

theorem digits_whole (d : Fixed) : Digits d.whole := by
  have hscale := d.hscale
  refine ⟨fun hnil => ?_, fun c hc => d.digits.digits.2 c (List.mem_of_mem_take hc)⟩
  have hlen := congrArg List.length hnil
  rw [whole, List.length_take, Numeral.text, length_padded, List.length_nil] at hlen
  omega

theorem valueOf_digits (d : Fixed) : valueOf (d.whole ++ d.frac) = d.digits.value := by
  rw [whole, frac, List.take_append_drop, Numeral.valueOf_text]

/-- The number is read in full, up to a comma. -/
theorem sscanf_text (d : Fixed) (ds : List Directive) (r : List Char) :
    sscanf (.decimal :: ds) (d.text ++ ',' :: r) = d.stored :: sscanf ds (',' :: r) := by
  have hlen := d.length_frac
  have hvalue := d.valueOf_digits
  by_cases h0 : d.scale = 0
  · rw [h0] at hlen
    rw [List.eq_nil_of_length_eq_zero hlen, List.append_nil] at hvalue
    rw [text, if_pos h0, List.append_nil, List.append_assoc,
      sscanf_whole d.negative d.digits_whole, hvalue, stored, h0]
  · have hfrac : Digits d.frac := by
      refine ⟨fun hnil => ?_, fun c hc => d.digits.digits.2 c (List.mem_of_mem_drop hc)⟩
      rw [hnil] at hlen
      exact h0 hlen.symm
    have hread := sscanf_decimal ⟨d.negative, d.whole, d.frac, d.digits_whole, hfrac⟩ ds
      (ends_cons (c := ',') (r := r) (by decide))
    rw [Decimal.text, Decimal.stored, hvalue, hlen] at hread
    rw [text, if_neg h0]
    exact hread

end Fixed

end Sscanf
