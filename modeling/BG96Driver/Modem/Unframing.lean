import BG96Driver.Modem.Serial

/-!
# The frame around received data

The module sends a header, the data of a socket and `OK`. `recv` discards a byte after the header,
and `sslrecv` does not: the line in the source that would is a comment.

* `framed`: what the module sends. `dataLine`: the serial line after the command.
* `Unframes`: a program stores exactly the data and returns their number.
* `recv_unframed`, `sslrecv_unframed`: what both programs store.
* `unframes_iff`: both unframe the data if and only if these are line feeds only.
-/

namespace Bg96.Modem

open Program Scanf

/-! ## The serial line -/

/-- A header with the number of bytes, the bytes, and `OK`. -/
def framed (header : String) (payload : List UInt8) : List UInt8 :=
  bytes header ++ numeral 10 payload.length ++ crlf ++ payload ++ okLine

/-- `recv` of a pattern. If the pattern ends in a newline, the line is taken up to its `CR`, and its
`LF` is unread. -/
def taken (pattern : Format) (unread : List UInt8) : Option (List Value) × List UInt8 :=
  let r := received pattern unread
  if (bytes pattern.text).getLast? = some lf ∧ r.1.isSome then (r.1, lf :: r.2) else r

/-- `read` of raw bytes: all of them, or those that come and -1. -/
def rawRead (size : Int) (unread : List UInt8) : Int × List UInt8 :=
  if size ≤ unread.length then (size, unread.take size.toNat) else (-1, unread)

/-- The serial line. The state is what is unread since the command was sent, and `none` before it;
what is received then is open. -/
def dataLine (answer : List UInt8) : Env (Option (List UInt8)) Call Call.Reply := fun s c r s' =>
  match c, r, s with
  | .send _, r, _ => r = true ∧ s' = some answer
  | .recv pattern, r, some unread => r = (taken pattern unread).1 ∧ s' = some (taken pattern unread).2
  | .read size, r, some unread => r = rawRead size unread ∧ s' = some (unread.drop size.toNat)
  | .getc, r, some unread => r = unread.head? ∧ s' = some unread.tail
  | _, _, s => s' = s

variable {α : Type} {answer payload rest : List UInt8} {Q : α → Option (List UInt8) → Prop}
  {p : At α} {s : Option (List UInt8)}

theorem wp_dataLine_locked (h : wp (dataLine answer) False Q p s) :
    wp (dataLine answer) False Q (locked p) s :=
  wp_locked (fun _ _ _ => id) (fun _ _ _ => id) h

theorem wp_dataLine_timed {ms : Int} (h : wp (dataLine answer) False Q p s) :
    wp (dataLine answer) False Q (timed ms p) s :=
  wp_timed (fun _ _ _ _ => id) h

theorem dataLine_answers (s : Option (List UInt8)) (c : Call) :
    ∃ r s', dataLine answer s c r s' := by
  cases c with
  | send cmd => exact ⟨true, _, rfl, rfl⟩
  | recv pattern =>
    cases s with
    | none => exact ⟨(none : Option (List Value)), none, rfl⟩
    | some unread => exact ⟨_, _, rfl, rfl⟩
  | read size =>
    cases s with
    | none => exact ⟨((0, []) : Int × List UInt8), none, rfl⟩
    | some unread => exact ⟨_, _, rfl, rfl⟩
  | getc =>
    cases s with
    | none => exact ⟨(none : Option UInt8), none, rfl⟩
    | some unread => exact ⟨_, _, rfl, rfl⟩
  | readable | writable => exact ⟨true, s, rfl⟩
  | write data => exact ⟨(0 : Int), s, rfl⟩
  | putc c => exact ⟨(0 : Int), s, rfl⟩
  | readMs started => exact ⟨(0 : Int), s, rfl⟩
  | _ => exact ⟨(), s, rfl⟩

/-- The header of a frame is taken, and the `LF` at its end is not. -/
theorem taken_line {pattern : Format} {header : String}
    (hformat : format pattern.text =
      (bytes header).map .lit ++ [.number true 10 32, .space, .space])
    (hend : (bytes pattern.text).getLast? = some lf) (hlf : lf ∉ bytes header)
    (payload rest : List UInt8) : taken pattern (framed header payload ++ rest) =
      (some [.int payload.length], lf :: (payload ++ okLine ++ rest)) := by
  have hnumber := scan_number [.space, .space] true 32 (numeral_ne_nil 10 payload.length)
    (isDigit_numeral (by decide) (by decide) _) (r := [cr, lf]) (by rintro _ ⟨⟩; rfl)
  rw [valueOf_numeral (by decide) (by decide)] at hnumber
  have hmatched : matched ((bytes header).map .lit ++ [.number true 10 32, .space, .space])
      ([] ++ (bytes header ++ numeral 10 payload.length ++ [cr]) ++ [lf]) =
      some [.number payload.length] := by
    rw [matched]
    simp only [List.nil_append, List.append_assoc, scan_lits, List.singleton_append, hnumber]
    rfl
  have hline : lf ∉ bytes header ++ numeral 10 payload.length ++ [cr] := by
    have hdigits : lf ∉ numeral 10 payload.length :=
      not_mem_numeral (by decide) (by decide) (by decide) _
    simp only [List.mem_append, List.mem_singleton, not_or]
    exact ⟨⟨hlf, hdigits⟩, by decide⟩
  have hread : received pattern (framed header payload ++ rest) =
      (some [.int payload.length], payload ++ okLine ++ rest) := by
    have hframed : framed header payload ++ rest =
        (bytes header ++ numeral 10 payload.length ++ [cr]) ++
          lf :: (payload ++ okLine ++ rest) := by
      simp [framed, crlf]
    rw [received, hformat, decide_eq_true hend, hframed, read_whole hmatched hline]
    rfl
  rw [taken, hread, if_pos ⟨hend, rfl⟩]

theorem taken_header {pattern : Format} {header : String}
    (hformat : format pattern.text = (bytes header).map .lit ++ [.number true 10 32, .space, .space])
    (hend : (bytes pattern.text).getLast? = some lf) (hlf : lf ∉ bytes header)
    (payload : List UInt8) : taken pattern (framed header payload) =
      (some [.int payload.length], lf :: (payload ++ okLine)) := by
  simpa using taken_line hformat hend hlf payload []

/-- `OK` after the data. -/
theorem taken_ok : taken okFormat okLine = (some [], crlf) := by
  rw [taken, if_neg (by decide)]
  exact received_ok (l := [cr]) (by decide) crlf

/-! ## The programs -/

/-- A program stores exactly the data, and returns their number. -/
def Unframes (header : String) (payload : List UInt8) (p : At (Int × List UInt8)) : Prop :=
  wp (dataLine (framed header payload)) False
    (fun r _ => r = ((payload.length : Int), payload)) p none

/-- What is received before the command. -/
theorem wp_before {ms : Int} {pattern : Format} {Q : Bool → Option (List UInt8) → Prop}
    (h : ∀ r, Q r none) : wp (dataLine answer) False Q
      (locked (timed ms do return (← Parser.recv pattern).isSome)) none := by
  refine wp_dataLine_locked (wp_dataLine_timed ?_)
  rintro r _ rfl
  exact h _

/-- The command is answered with a frame, and the header is taken. -/
theorem wp_header {α : Type} {cmd pattern : Format} {header : String} {payload : List UInt8}
    {f : Option (List Value) → At α} {Q : α → Option (List UInt8) → Prop}
    (hformat : format pattern.text = (bytes header).map .lit ++ [.number true 10 32, .space, .space])
    (hend : (bytes pattern.text).getLast? = some lf) (hlf : lf ∉ bytes header)
    (h : wp (dataLine (framed header payload)) False Q (f (some [.int payload.length]))
      (some (lf :: (payload ++ okLine)))) :
    wp (dataLine (framed header payload)) False Q (peek cmd pattern >>= f) none := by
  rintro _ _ ⟨rfl, rfl⟩ r _ ⟨rfl, rfl⟩
  rw [taken_header hformat hend hlf]
  exact h

theorem rawRead_append (payload rest : List UInt8) :
    rawRead payload.length (payload ++ rest) = ((payload.length : Int), payload) := by
  rw [rawRead, if_pos (by simp), Int.toNat_natCast, List.take_left]

/-- `recv` stores the data. -/
theorem recv_unframed (id : Int) (cnt : Nat) (payload : List UInt8) :
    Unframes "+QIRD:" payload (recv id cnt) := by
  show wp _ _ _ (chkRxAvail id >>= _) _
  rw [wp_bind]
  refine wp_before fun _ => wp_dataLine_locked ?_
  refine wp_header (by decide) (by decide) (by decide) ?_
  show wp _ _ _ (if 0 < (payload.length : Int) then _ else _) _
  by_cases hpos : 0 < (payload.length : Int)
  · rw [if_pos hpos]
    rintro _ _ ⟨rfl, rfl⟩ _ _ ⟨rfl, rfl⟩
    rw [List.tail_cons, show intAt [.int payload.length] 0 = payload.length from rfl,
      Int.toNat_natCast, List.drop_left, rawRead_append]
    rintro _ _ ⟨rfl, rfl⟩
    rw [taken_ok]
    rfl
  · rw [if_neg hpos]
    have hnil : payload = [] := List.length_eq_zero_iff.mp (by omega)
    subst hnil
    rfl

/-- `sslrecv` stores the line feed and the data without the last byte. -/
theorem sslrecv_unframed (clientId : Int) (cnt : Nat) (payload : List UInt8) :
    wp (dataLine (framed "+QSSLRECV:" payload)) False
      (fun r _ => r = ((payload.length : Int), (lf :: payload).take payload.length))
      (sslrecv clientId cnt) none := by
  show wp _ _ _ (sslChkRxAvail clientId >>= _) _
  rw [wp_bind]
  refine wp_before fun _ => wp_dataLine_locked (wp_dataLine_timed ?_)
  refine wp_header (by decide) (by decide) (by decide) ?_
  show wp _ _ _ (if 0 < (payload.length : Int) then _ else _) _
  by_cases hpos : 0 < (payload.length : Int)
  · rw [if_pos hpos]
    have hread : rawRead payload.length (lf :: (payload ++ okLine)) =
        ((payload.length : Int), (lf :: payload).take payload.length) := by
      rw [rawRead, if_pos (by simp; omega), Int.toNat_natCast, ← List.cons_append,
        List.take_append_of_le_length (by simp)]
    rintro _ _ ⟨rfl, rfl⟩
    rw [show intAt [.int payload.length] 0 = payload.length from rfl, hread]
    intro ok _ _
    rfl
  · rw [if_neg hpos]
    have hnil : payload = [] := List.length_eq_zero_iff.mp (by omega)
    subst hnil
    rfl

/-- A byte before some bytes, without the last one, gives them if they are all that byte. -/
theorem cons_take_eq_iff {β : Type} {b : β} {l : List β} :
    (b :: l).take l.length = l ↔ ∀ c ∈ l, c = b := by
  induction l generalizing b with
  | nil => simp
  | cons c l ih =>
    rw [List.length_cons, List.take_succ_cons, List.cons.injEq, ih, List.forall_mem_cons]
    constructor
    · rintro ⟨rfl, hl⟩
      exact ⟨rfl, hl⟩
    · rintro ⟨rfl, hl⟩
      exact ⟨rfl, hl⟩

/-- **Unframing.** Both receive paths store exactly the data and return their number, if and only if
the data are line feeds only. The plain one always does. -/
theorem unframes_iff (id clientId : Int) (cnt : Nat) (payload : List UInt8) :
    Unframes "+QIRD:" payload (recv id cnt) ∧
      Unframes "+QSSLRECV:" payload (sslrecv clientId cnt) ↔ ∀ b ∈ payload, b = lf := by
  rw [and_iff_right (recv_unframed id cnt payload), ← cons_take_eq_iff, Unframes,
    wp_iff_of_eq dataLine_answers (sslrecv_unframed clientId cnt payload), Prod.mk.injEq,
    and_iff_right rfl]

/-- A line feed is stored for the data. -/
theorem unframes_letter :
    ¬ ∀ (id clientId : Int) (cnt : Nat) (payload : List UInt8), 1 ≤ payload.length →
      payload.length ≤ cnt → Unframes "+QIRD:" payload (recv id cnt) ∧
        Unframes "+QSSLRECV:" payload (sslrecv clientId cnt) := by
  intro h
  have hwp := (h 0 0 1 [65] (by decide) (by decide)).2
  rw [Unframes, wp_iff_of_eq dataLine_answers (sslrecv_unframed 0 1 [65])] at hwp
  exact absurd hwp (by decide)

end Bg96.Modem
