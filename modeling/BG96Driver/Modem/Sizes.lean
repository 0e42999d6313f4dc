import BG96Driver.Modem.Transfer

/-!
# The numbers that the file commands report

A pattern of `recv` that ends with a number matches at the first digit. `fs_size`, `fs_nfiles` and
`fs_file_size` leave the other digits unread, and find the `OK` after them.

* `answering`: a module that answers each command with a text.
* `qfldsAnswer`, `qflstAnswer`: the answers with the numbers in decimal.
* `received_qflds`: the line with two numbers, up to the first digit of the second.
* `sizes_iff`: the numbers are read in full if and only if the last one has one digit.
-/

namespace Bg96.Modem

open Program Scanf

variable {answer : Format → List UInt8} {pattern cmd : Format} {unread unread' : List UInt8}
  {m n : Nat} {name : String} {b : UInt8}

/-- The serial line with a module that answers each command with a text. The state is what is
unread. -/
def answering (answer : Format → List UInt8) : Env (List UInt8) Call Call.Reply :=
  fun unread c r unread' =>
    match c, r with
    | .send cmd, r => r = true ∧ unread' = unread ++ answer cmd
    | .recv pattern, r => r = (received pattern unread).1 ∧ unread' = (received pattern unread).2
    | _, _ => unread' = unread

/-- `AT+QFLDS="UFS"`: the free and the total size. -/
def qfldsUfs : Format := ⟨"AT+QFLDS=\"UFS\"", []⟩

/-- `AT+QFLDS`: the size of the files and their number. -/
def qflds : Format := ⟨"AT+QFLDS", []⟩

/-- `AT+QFLST`: the size of a file. -/
def qflstOf (name : String) : Format := ⟨"AT+QFLST=\"%s\"", [.str name]⟩

def qfldsAnswer (m n : Nat) : List UInt8 :=
  answerLine (bytes "+QFLDS: " ++ numeral 10 m ++ bytes "," ++ numeral 10 n) ++ okLine

def qflstAnswer (name : String) (n : Nat) : List UInt8 :=
  crlf ++ listed name ++ numeral 10 n ++ crlf ++ okLine

theorem firstDigit_eq_iff : firstDigit n = n ↔ n < 10 :=
  ⟨fun h => h ▸ firstDigit_lt n, firstDigit_of_lt⟩

/-! ## The line with two numbers -/

/-- The directives of the patterns `+QFLDS: %u,%u` and `+QFLDS: %u,%d`. -/
def qfldsFormat (signed : Bool) : List Directive :=
  .lit 43 :: ((bytes "QFLDS:").map .lit ++
    [.space, .number false 10 32, .lit 44, .number signed 10 32])

/-- The line up to the first digit of the second number. -/
def qfldsLine (m : Nat) (b : UInt8) : List UInt8 :=
  43 :: (bytes "QFLDS:" ++ (32 :: (numeral 10 m ++ 44 :: [b])))

theorem first_qflds (signed : Bool) (hm : m < 2 ^ 31) (hb : isDigit 10 b = true)
    (hvalue : valueOf 10 [b] = firstDigit n) :
    First (qfldsFormat signed) (qfldsLine m b) [.number m, .number (firstDigit n)] := by
  obtain ⟨d, ds, hd⟩ := List.exists_cons_of_ne_nil (numeral_ne_nil 10 m)
  have hdigits : ∀ c ∈ numeral 10 m, isDigit 10 c = true :=
    isDigit_numeral (by decide) (by decide) m
  have hcomma := (first_firstDigit signed hb hvalue).lit (b := 44)
  have hnumber := First.number false 32 hcomma (numeral_ne_nil 10 m) hdigits rfl
  have hstored : (valueOf 10 (numeral 10 m) : Int) % 2 ^ 32 = m := by
    rw [valueOf_numeral (by decide) (by decide)]
    omega
  simp only [Bool.false_eq_true, if_false, hstored] at hnumber
  have hspace : isSpace d = false := isSpace_of_isDigit (hdigits d (by simp [hd]))
  rw [hd, List.cons_append] at hnumber
  have hline := ((hnumber.space hspace).lits (bytes "QFLDS:")).lit (b := 43)
  simpa only [qfldsLine, qfldsFormat, hd, List.cons_append] using hline

theorem lf_not_mem_qfldsLine (hb : isDigit 10 b = true) : lf ∉ qfldsLine m b := by
  have hnumber : lf ∉ numeral 10 m := not_mem_numeral (by decide) (by decide) (by decide) m
  have hbyte : lf ≠ b := by
    rintro rfl
    exact absurd hb (by decide)
  simp only [qfldsLine, List.mem_cons, List.mem_append, not_or]
  exact ⟨by decide, by decide, by decide, hnumber, by decide, hbyte, by simp⟩

/-- `recv` returns after the first digit of the second number. -/
theorem received_qflds {signed : Bool} (hformat : format pattern.text = qfldsFormat signed)
    (hend : (bytes pattern.text).getLast? ≠ some lf) (hunread : 43 ∉ unread) (hm : m < 2 ^ 31)
    (n : Nat) : ∃ ns, (∀ c ∈ ns, isDigit 10 c = true) ∧
      received pattern (unread ++ qfldsAnswer m n) =
        (some [.int m, .int (firstDigit n)], ns ++ crlf ++ okLine) := by
  obtain ⟨b, ns, hn, hb, hns, hvalue⟩ := numeral_cons n
  have hanswer : unread ++ qfldsAnswer m n =
      unread ++ (crlf ++ (qfldsLine m b ++ (ns ++ crlf ++ okLine))) := by
    simp [qfldsAnswer, answerLine, qfldsLine, hn, show bytes "," = [44] by decide,
      show bytes "+QFLDS: " = 43 :: (bytes "QFLDS:" ++ [32]) by decide]
  have hread := read_first (first_qflds signed hm hb hvalue) (ns ++ crlf ++ okLine)
    (List.cons_ne_nil _ _) (lf_not_mem_qfldsLine hb)
  refine ⟨ns, hns, ?_⟩
  rw [received, hformat, decide_eq_false hend, hanswer]
  rw [qfldsFormat] at hread ⊢
  rw [read_skip (by decide) (by decide) hunread, hread]
  rfl

/-! ## The operations -/

/-- A query gives what `recv` takes from the answer, if `OK` is found after it. It has no result if
a string does not fit in its array. -/
theorem runs_queryInto {β : Type} {ms : Int} {arrays : List (Nat × Nat)}
    {f : Option (List Value) → Int × Option β} {vs : Option (List Value)} {rest : List UInt8}
    {o : Option (Int × Option β)}
    (hrecv : received pattern (unread ++ answer cmd) = (vs, rest))
    (hok : vs ≠ none → (received okFormat rest).1.isSome)
    (h : Runs (answering answer)
      (locked (timed ms (queryInto arrays cmd pattern)) >>= fun vs => .ret (f vs))
      unread o unread') : o = if vs.all (fit arrays) then some (f vs) else none := by
  have hwp : wp (answering answer) (¬ vs.all (fit arrays))
      (fun a _ => vs.all (fit arrays) ∧ a = f vs)
      (locked (timed ms (queryInto arrays cmd pattern)) >>= fun vs => .ret (f vs)) unread := by
    rw [wp_bind]
    refine wp_locked (fun _ _ _ => id) (fun _ _ _ => id) (wp_timed (fun _ _ _ _ => id) ?_)
    rintro _ _ ⟨rfl, rfl⟩ r u ⟨hr, hu⟩
    rw [hrecv] at hr hu
    subst hr hu
    show wp _ _ _ ((if r.all (fit arrays) = true then pure r else .stop) >>= _) _
    by_cases hfit : r.all (fit arrays) = true
    · rw [if_pos hfit]
      cases r with
      | none => exact ⟨hfit, rfl⟩
      | some vs =>
        rintro _ _ ⟨rfl, -⟩
        show wp _ _ _ (if (received okFormat u).1.isSome then _ else _) _
        rw [if_pos (hok (by simp))]
        exact ⟨hfit, rfl⟩
    · rw [if_neg hfit]
      exact hfit
  obtain ⟨hreturns, hends⟩ := wp_iff.mp hwp _ _ h
  cases o with
  | none => rw [if_neg (hreturns rfl)]
  | some a =>
    obtain ⟨hfit, rfl⟩ := hends a rfl
    rw [if_pos hfit]

theorem runs_qflds {ms : Int} (signed : Bool) {o : Option (Int × Option (Int × Int))}
    (hformat : format pattern.text = qfldsFormat signed)
    (hend : (bytes pattern.text).getLast? ≠ some lf) (hunread : 43 ∉ unread) (hm : m < 2 ^ 31)
    (hanswer : answer cmd = qfldsAnswer m n)
    (h : Runs (answering answer) (locked (timed ms (query cmd pattern)) >>= fun vs => .ret
      (match vs with
        | some vs => (nsapiErrorOk, some (intAt vs 0, intAt vs 1))
        | none => (nsapiErrorDeviceError, none))) unread o unread') :
    o = some (nsapiErrorOk, some ((m : Int), (n : Int))) ↔ n < 10 := by
  obtain ⟨ns, hns, hrecv⟩ := received_qflds hformat hend hunread hm n
  rw [← hanswer] at hrecv
  rw [← queryInto_nil] at h
  have ho := runs_queryInto hrecv (fun _ => by rw [received_ok_digits hns]; rfl) h
  rw [ho, ← firstDigit_eq_iff]
  simp [intAt, fit]

theorem runs_fsFileSize {o : Option (Int × Option Int)} (hq : Quotable name)
    (hunread : 43 ∉ unread) (hanswer : answer (qflstOf name) = qflstAnswer name n)
    (h : Runs (answering answer) (fsFileSize name) unread o unread') :
    o = some (nsapiErrorOk, some (n : Int)) ↔ Fits name ∧ n < 10 := by
  by_cases hname : bytes name = [] ∨ 80 < (bytes name).length
  · have hrecv := received_unlisted hq hname n hunread
    rw [← qflstAnswer, ← hanswer] at hrecv
    have ho := runs_queryInto hrecv (fun h => absurd rfl h) h
    have hfits : ¬ Fits name := fun hfits =>
      hname.elim hfits.1 fun hlong => absurd hfits.2 (by omega)
    simp [ho, hfits]
  · rw [not_or, not_lt] at hname
    obtain ⟨ns, hns, hrecv⟩ := received_listed hq hname.1 hname.2 hunread n
    rw [← qflstAnswer, ← hanswer] at hrecv
    have ho := runs_queryInto hrecv (fun _ => by rw [received_ok_digits hns]; rfl) h
    have hfits : fit [(0, 80)] [.str name, .int (firstDigit n)] = true ↔ Fits name :=
      fit_dummy.trans (and_iff_right hname.1).symm
    rw [ho, Option.all_some]
    by_cases hfit : Fits name
    · rw [if_pos (hfits.mpr hfit), ← firstDigit_eq_iff, and_iff_right hfit]
      simp [intAt]
    · rw [if_neg (mt hfits.mp hfit)]
      exact iff_of_false nofun fun h => hfit h.1

/-- **Sizes.** Let the module answer with numbers in decimal. Then `fs_size` and
`fs_nfiles` return success with these numbers if and only if the second has one digit, and
`fs_file_size` if and only if the size has one digit and the name has 1 to 79 bytes. -/
theorem sizes_iff (answer : Format → List UInt8) (unread unread' : List UInt8)
    (hunread : 43 ∉ unread) (m n : Nat) (hm : m < 2 ^ 31) :
    (answer qfldsUfs = qfldsAnswer m n → ∀ o,
      Runs (answering answer) fsSize unread o unread' →
      (o = some (nsapiErrorOk, some ((m : Int), (n : Int))) ↔ n < 10)) ∧
    (answer qflds = qfldsAnswer m n → ∀ o,
      Runs (answering answer) fsNfiles unread o unread' →
      (o = some (nsapiErrorOk, some ((m : Int), (n : Int))) ↔ n < 10)) ∧
    ∀ name, Quotable name → answer (qflstOf name) = qflstAnswer name n → ∀ o,
      Runs (answering answer) (fsFileSize name) unread o unread' →
      (o = some (nsapiErrorOk, some (n : Int)) ↔ Fits name ∧ n < 10) := by
  refine ⟨fun hanswer o h => ?_, fun hanswer o h => ?_, fun name hq hanswer o h => ?_⟩
  · exact runs_qflds false (by decide) (by decide) hunread hm hanswer h
  · exact runs_qflds true (by decide) (by decide) hunread hm hanswer h
  · exact runs_fsFileSize hq hunread hanswer h

/-- A module that reports the numbers 7 and `n`. -/
def reporting (n : Nat) (cmd : Format) : List UInt8 :=
  if cmd = qflstOf "a" then qflstAnswer "a" n else qfldsAnswer 7 n

theorem answering_answers (unread : List UInt8) (c : Call) :
    ∃ r unread', answering answer unread c r unread' := by
  cases c with
  | send cmd => exact ⟨true, _, rfl, rfl⟩
  | recv pattern => exact ⟨_, _, rfl, rfl⟩
  | getc => exact ⟨none, unread, rfl⟩
  | readable | writable => exact ⟨true, unread, rfl⟩
  | read size => exact ⟨(0, []), unread, rfl⟩
  | write data => exact ⟨(0 : Int), unread, rfl⟩
  | readMs started => exact ⟨(0 : Int), unread, rfl⟩
  | putc c => exact ⟨(0 : Int), unread, rfl⟩
  | _ => exact ⟨(), unread, rfl⟩

/-- A program has a run. -/
theorem exists_answering {α : Type} (p : At α) (unread : List UInt8) :
    ∃ o unread', Runs (answering answer) p unread o unread' := by
  induction p generalizing unread with
  | ret a => exact ⟨some a, unread, .ret a unread⟩
  | stop => exact ⟨none, unread, .stop unread⟩
  | call c k ih =>
    obtain ⟨r, unread₁, hE⟩ := answering_answers unread c
    obtain ⟨o, unread', hrun⟩ := ih r unread₁
    exact ⟨o, unread', .call hE hrun⟩

theorem sizes_iff_digit :
    (∃ u, Runs (answering (reporting 3)) fsSize [] (some (nsapiErrorOk, some (7, 3))) u) ∧
    (∃ u, Runs (answering (reporting 3)) fsNfiles [] (some (nsapiErrorOk, some (7, 3))) u) ∧
    ∃ u, Runs (answering (reporting 3)) (fsFileSize "a") [] (some (nsapiErrorOk, some 3)) u := by
  have hsizes := fun u => sizes_iff (reporting 3) [] u List.not_mem_nil 7 3 (by decide)
  refine ⟨?_, ?_, ?_⟩
  · obtain ⟨o, u, h⟩ := exists_answering fsSize []
    obtain rfl := ((hsizes u).1 rfl o h).mpr (by decide)
    exact ⟨u, h⟩
  · obtain ⟨o, u, h⟩ := exists_answering fsNfiles []
    obtain rfl := ((hsizes u).2.1 rfl o h).mpr (by decide)
    exact ⟨u, h⟩
  · obtain ⟨o, u, h⟩ := exists_answering (fsFileSize "a") []
    obtain rfl := ((hsizes u).2.2 "a" (by decide) rfl o h).mpr (by decide)
    exact ⟨u, h⟩

/-- The total size 10 is read as 1. -/
theorem sizes_iff_ten : ¬ ∀ answer unread unread' m n o, 43 ∉ unread → m < 2 ^ 31 → n < 2 ^ 31 →
    answer qfldsUfs = qfldsAnswer m n → Runs (answering answer) fsSize unread o unread' →
    o = some (nsapiErrorOk, some ((m : Int), (n : Int))) := by
  intro h
  obtain ⟨o, u, hrun⟩ := exists_answering fsSize []
  have ho := h (reporting 10) [] u 7 10 o List.not_mem_nil (by decide) (by decide) rfl hrun
  have hten := runs_qflds false (by decide) (by decide) List.not_mem_nil
    (show 7 < 2 ^ 31 by decide) rfl hrun
  exact absurd (hten.mp ho) (by decide)

end Bg96.Modem
