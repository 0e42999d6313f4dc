import BG96Driver.Lib.Printf
import BG96Driver.Lib.Streams
import BG96Driver.Modem.Transfer
import BG96Driver.Modem.Unframing
import Mathlib.Data.Bool.AllAny

/-!
# A module with connections

The module that `BG96` sends the commands of its sockets to. It opens and closes connections, takes
bytes for them, and gives those that have come; or it refuses. It does so before the time-out. Bytes
come at any time, and so do lines that it sends of its own.

* `Module`, `Responds`: the module, and what it does with a command. `network`: the serial line with
  it.
* `Quiet`: what may be left unread when a command is sent. An `OK` may be among it.
* `takenText`: what `recv` makes of a text. It passes what is left unread, and takes what the module
  answers.
-/

namespace Bg96.Modem

open Program Scanf Streams

/-! ## The module -/

/-- The module: what it has sent and is unread, its open connections, and the socket and the number
of the bytes that it waits for. -/
structure Module where
  unread : List UInt8
  conns : Conns Int UInt8
  sending : Option (Int × Nat)

/-- Whole lines in which there is no `>`, `D`, `P` or `S`, as there is none in a `+QIURC` of a
socket; and an `O` only if `ok`. -/
structure Quiet (ok : Bool) (unread : List UInt8) : Prop where
  lines : unread = [] ∨ unread.getLast? = some lf
  plain : ∀ b ∈ unread, b ≠ 62 ∧ b ≠ 68 ∧ b ≠ 80 ∧ b ≠ 83
  noOk : ok = false → 79 ∉ unread

namespace Module

def tell (m : Module) (bs : List UInt8) : Module := { m with unread := m.unread ++ bs }

/-- A connection is changed, opened or closed. -/
def setConn (m : Module) (id : Int) (c : Option (Conn UInt8)) : Module :=
  { m with conns := Function.update m.conns id c }

/-- Bytes come, and the module sends lines of its own. -/
def Unasked (m m' : Module) : Prop :=
  ∃ urc conns, Quiet false urc ∧ Comes m.conns conns ∧
    m' = { m with unread := m.unread ++ urc, conns := conns }

/-- `+QIOPEN`, with an error. -/
def opening (id : Int) (err : Nat) : List UInt8 :=
  answerLine (bytes "+QIOPEN: " ++ Printf.decimal id ++ 44 :: numeral 10 err)

/-- The module carries out a command. -/
def Responds (m : Module) (cmd : Format) (m' : Module) : Prop :=
  match cmd with
  | ⟨"AT+QIOPEN=%d,%d,\"%s\",\"%s\",%d,0,0\r", [_, .int id, _, _, _]⟩ =>
    m.conns id = none ∧ m' = (m.setConn id (some .fresh)).tell (okLine ++ opening id 0) ∨
      ∃ err, err ≠ 0 ∧ m' = m.tell (okLine ++ opening id err)
  | ⟨"AT+QICLOSE=%d,%d", [.int id, _]⟩ => m' = (m.setConn id none).tell okLine
  | ⟨"AT+QISEND=%d,%ld", [.int id, .int n]⟩ =>
    0 < n ∧ (m.conns id).isSome ∧
      m' = { m with sending := some (id, n.toNat) }.tell (crlf ++ bytes "> ")
  | ⟨"AT+QIRD=%d,%d", [.int id, .int cnt]⟩ =>
    -- some of the bytes that wait, none only if none wait
    ∃ c bs, m.conns id = some c ∧ bs <+: c.waiting ∧ bs.length ≤ cnt ∧
      (bs = [] → c.waiting = []) ∧
        m' = (m.setConn id (some (c.give bs.length))).tell (crlf ++ framed "+QIRD:" bs)
  | _ => False

/-- What the module does with the bytes that are written. -/
def Takes (m : Module) (data : List UInt8) (m' : Module) : Prop :=
  match m.sending with
  | some (id, n) =>
    if data.length = n then
      (∃ c, m.conns id = some c ∧
        m' = ({ m with sending := none }.setConn id (some (c.accept data))).tell
          (answerLine (bytes "SEND OK"))) ∨
        m' = { m with sending := none }.tell (answerLine (bytes "SEND FAIL"))
    else m' = m
  | none => m' = m

end Module

/-- The text of a pattern. One with arguments has been printed by `sprintf`. -/
def Format.pattern (pattern : Format) : List UInt8 :=
  if pattern.args = [] then bytes pattern.text
  else (Printf.printf (bytes pattern.text) (pattern.args.map fun
    | .int n => .int n
    | .str s => .str (bytes s))).getD []

/-- `recv` of a pattern, as in `taken`. -/
def takenText (text : List UInt8) (unread : List UInt8) : Option (List Value) × List UInt8 :=
  let r := read (text.getLast? = some lf) (parse none text) [] unread
  let vs := r.1.map (·.map fieldValue)
  if text.getLast? = some lf ∧ vs.isSome then (vs, lf :: r.2) else (vs, r.2)

theorem takenText_bytes (pattern : Format) (unread : List UInt8) :
    takenText (bytes pattern.text) unread = taken pattern unread := rfl

/-- What a call does, if nothing comes meanwhile. -/
def Module.answers (m : Module) (c : Call) (r : c.Reply) (m' : Module) : Prop :=
  match c, r with
  | .send cmd, r => r = true ∧ (m' = m.tell errorLine ∨ m.Responds cmd m')
  | .recv pattern, r => r = (takenText pattern.pattern m.unread).1 ∧
    m' = { m with unread := (takenText pattern.pattern m.unread).2 }
  | .read size, r => r = rawRead size m.unread ∧ m' = { m with unread := m.unread.drop size.toNat }
  | .getc, r => r = m.unread.head? ∧ m' = { m with unread := m.unread.tail }
  | .write data, r => r = (data.length : Int) ∧ m.Takes data m'
  | _, _ => m' = m

/-- The serial line with the module. -/
def network : Env Module Call Call.Reply := fun m c r m' =>
  ∃ m₁, m.Unasked m₁ ∧ m₁.answers c r m'

variable {u v x y text : List UInt8} {vs : Option (List Value)} {ok : Bool}

/-! ## Lines that are passed -/

namespace Quiet

theorem nil : Quiet ok [] := ⟨.inl rfl, by simp, by simp⟩

theorem append (hu : Quiet ok u) (hv : Quiet ok v) : Quiet ok (u ++ v) where
  lines := by
    rcases hv.lines with rfl | h
    · simpa using hu.lines
    · exact .inr (by rw [List.getLast?_append, h]; rfl)
  plain b hb := (List.mem_append.mp hb).elim (hu.plain b) (hv.plain b)
  noOk h hb := (List.mem_append.mp hb).elim (hu.noOk h) (hv.noOk h)

/-- The end of such lines. -/
theorem suffix (hu : Quiet ok u) (h : v <:+ u) : Quiet ok v where
  lines := by
    obtain ⟨t, rfl⟩ := h
    rcases List.eq_nil_or_concat v with rfl | ⟨l, b, rfl⟩
    · exact .inl rfl
    · rcases hu.lines with h | h
      · simp at h
      · exact .inr (by simpa using h)
  plain b hb := hu.plain b (h.subset hb)
  noOk hok hb := hu.noOk hok (h.subset hb)

theorem mono (hu : Quiet false u) : Quiet ok u := ⟨hu.lines, hu.plain, fun _ => hu.noOk rfl⟩

/-- A line without the letters. -/
theorem line (h : ∀ b ∈ u, b ≠ 62 ∧ b ≠ 68 ∧ b ≠ 80 ∧ b ≠ 83) (hok : ok = false → 79 ∉ u) :
    Quiet ok (u ++ crlf) where
  lines := .inr (by simp [crlf])
  plain b hb := by
    rcases List.mem_append.mp hb with hb | hb
    · exact h b hb
    · simp only [crlf, List.mem_cons, List.not_mem_nil, or_false] at hb
      rcases hb with rfl | rfl <;> decide
  noOk hok' hb := (List.mem_append.mp hb).elim (hok hok') (by decide)

theorem crlf : Quiet ok crlf := line (u := []) (by simp) (by simp)

theorem okLine : Quiet true okLine := by
  rw [Modem.okLine, answerLine, List.append_assoc]
  exact crlf.append (line (List.all_iff_forall_prop.mp (by decide)) fun h => absurd h (by decide))

theorem errorLine : Quiet true errorLine := by
  rw [Modem.errorLine, answerLine, List.append_assoc]
  exact crlf.append (line (List.all_iff_forall_prop.mp (by decide)) fun h => absurd h (by decide))

end Quiet

theorem Quiet.not_mem {b : UInt8} (hu : Quiet ok u) (hb : b = 62 ∨ b = 68 ∨ b = 80 ∨ b = 83) :
    b ∉ u := by
  intro h
  obtain ⟨h62, h68, h80, h83⟩ := hu.plain b h
  rcases hb with rfl | rfl | rfl | rfl
  · exact h62 rfl
  · exact h68 rfl
  · exact h80 rfl
  · exact h83 rfl

/-- A pattern with a letter that is not in such lines passes them. -/
theorem takenText_append {b : UInt8} (hu : Quiet ok u) (hlit : .lit b ∈ parse none text)
    (hb : b ∉ u) (hlf : b ≠ lf) (rest : List UInt8) :
    takenText text (u ++ rest) = takenText text rest := by
  have hread : read (text.getLast? = some lf) (parse none text) [] (u ++ rest) =
      read (text.getLast? = some lf) (parse none text) [] rest := by
    rcases hu.lines with rfl | hlast
    · rfl
    · obtain ⟨l, rfl⟩ := List.getLast?_eq_some_iff.mp hlast
      rw [List.append_assoc]
      exact read_past _ rest hlit hlf List.not_mem_nil fun h => hb (by simp [h])
  simp only [takenText, hread]

/-! ## What `recv` takes -/

/-- What has not a literal of the pattern is taken, and nothing is matched. -/
theorem takenText_none {b : UInt8} (hlit : .lit b ∈ parse none text) (hx : b ∉ x) :
    takenText text x = (none, []) := by
  rw [takenText, read_none_of_mem hlit List.not_mem_nil hx]
  simp

/-- What is matched first. -/
theorem takenText_first {fs : List Field} (h : First (parse none text) x fs)
    (hne : x ≠ []) (hlf : lf ∉ x) (hend : text.getLast? ≠ some lf) (rest : List UInt8) :
    takenText text (x ++ rest) = (some (fs.map fieldValue), rest) := by
  rw [takenText, decide_eq_false hend, read_first h rest hne hlf, if_neg fun hif => hend hif.1]
  rfl

/-- A line that is passed, and then nothing that is matched. -/
theorem takenText_never {l : List UInt8} {b : UInt8} (h : Never (parse none text) (l ++ [lf]))
    (hlf : lf ∉ l) (hend : text.getLast? ≠ some lf) (hlit : .lit b ∈ parse none text)
    (hv : b ∉ v) : takenText text (l ++ lf :: v) = (none, []) := by
  rw [takenText, decide_eq_false hend, read_never h hlf, read_none_of_mem hlit List.not_mem_nil hv]
  simp

/-- Where nothing is matched, all is taken. -/
theorem takenText_exhausted (h : (takenText text x).1 = none) : (takenText text x).2 = [] := by
  have hread : (read (text.getLast? = some lf) (parse none text) [] x).1 = none := by
    rw [takenText] at h
    split at h <;> exact Option.map_eq_none_iff.mp h
  rw [takenText, read_exhausted hread, hread]
  simp

/-- What is left is an end of the stream. -/
theorem takenText_suffix (hend : text.getLast? ≠ some lf) (x : List UInt8) :
    (takenText text x).2 <:+ x := by
  rw [takenText, if_neg fun h => hend h.1]
  exact read_suffix ..

/-- A line that begins with another byte than the format. -/
theorem never_other {ds : List Scanf.Directive} {b c : UInt8} (hne : c ≠ b) (l : List UInt8) :
    Never (.lit b :: ds) (c :: l) := by
  intro p hp
  cases p with
  | nil => rfl
  | cons d p =>
    obtain ⟨rfl, -⟩ := List.cons_prefix_cons.mp hp
    simp [matched, scan, hne]

/-! ### `OK` -/

theorem first_bytes {w : List UInt8} (h : parse none w = w.map .lit) :
    First (parse none w) w [] := by
  rw [h]
  simpa using First.nil.lits w

/-- An `OK` is there. -/
theorem takenText_ok (hu : Quiet ok u) (rest : List UInt8) : ∃ y, Quiet ok y ∧
    (takenText (bytes "OK") (u ++ (okLine ++ rest))).1.isSome = true ∧
      (takenText (bytes "OK") (u ++ (okLine ++ rest))).2 = y ++ rest := by
  have hline : okLine = crlf ++ (bytes "OK" ++ crlf) := by simp [okLine, answerLine]
  cases ok with
  | false =>
    have htaken := takenText_first (first_bytes (w := bytes "OK") (by decide)) (by decide)
      (by decide) (by decide) (crlf ++ rest)
    rw [hline, List.append_assoc, List.append_assoc, ← List.append_assoc u,
      takenText_append (hu.append .crlf) (b := 79) (by decide) ((hu.append .crlf).noOk rfl)
        (by decide), htaken]
    exact ⟨crlf, .crlf, rfl, rfl⟩
  | true =>
    -- the `OK` may be an earlier one
    have hsome : (read false (parse none (bytes "OK")) [] (u ++ okLine)).1.isSome = true := by
      have hfinds := read_finds (first_bytes (w := bytes "OK") (by decide)) (by decide) (by decide)
        [] (u ++ [cr]) crlf
      simpa [hline, crlf] using hfinds
    obtain ⟨fs, hfs⟩ := Option.isSome_iff_exists.mp hsome
    have hmore := read_more (l := _) (Prod.ext hfs rfl) rest
    have hsuffix := read_suffix false (parse none (bytes "OK")) [] (u ++ okLine)
    refine ⟨_, (hu.append .okLine).suffix hsuffix, ?_⟩
    rw [takenText, decide_eq_false (by decide), ← List.append_assoc, hmore,
      if_neg fun h => absurd h.1 (by decide)]
    exact ⟨rfl, rfl⟩

/-- An `ERROR` is passed, and an `OK` only found if it was there before. -/
theorem takenText_ok_error (hu : Quiet ok u) (hv : Quiet false v) :
    takenText (bytes "OK") (u ++ (errorLine ++ v)) = (none, []) ∨
      ok = true ∧ Quiet ok (takenText (bytes "OK") (u ++ (errorLine ++ v))).2 := by
  cases ok with
  | false =>
    have hline : errorLine ++ v = crlf ++ ((69 :: (bytes "RROR" ++ [cr])) ++ lf :: v) := by
      simp [errorLine, answerLine, crlf, show bytes "ERROR" = 69 :: bytes "RROR" by decide]
    have hnever : Never (parse none (bytes "OK")) (69 :: (bytes "RROR" ++ [cr]) ++ [lf]) := by
      rw [show parse none (bytes "OK") = [.lit 79, .lit 75] by decide]
      exact never_other (by decide) _
    rw [hline, ← List.append_assoc u, takenText_append (hu.append .crlf) (b := 79) (by decide)
      ((hu.append .crlf).noOk rfl) (by decide), takenText_never hnever (by decide) (by decide)
      (b := 79) (by decide) (hv.noOk rfl)]
    exact .inl rfl
  | true =>
    have hall := hu.append (Quiet.errorLine.append hv.mono)
    exact .inr ⟨rfl, hall.suffix (takenText_suffix (by decide) _)⟩

/-! ### `AT+QIRD` -/

theorem takenText_header (hu : Quiet ok u) (bs rest : List UInt8) :
    takenText (bytes "+QIRD:%d\r\n") (u ++ (crlf ++ framed "+QIRD:" bs) ++ rest) =
      (some [.int bs.length], lf :: (bs ++ okLine ++ rest)) := by
  rw [← List.append_assoc u, List.append_assoc _ _ rest,
    takenText_append (hu.append .crlf) (b := 68) (by decide) ((hu.append .crlf).not_mem (by decide))
      (by decide)]
  have htaken : taken ⟨"+QIRD:%d\r\n", []⟩ (framed "+QIRD:" bs ++ rest) =
      (some [.int bs.length], lf :: (bs ++ okLine ++ rest)) :=
    taken_line (by decide) (by decide) (by decide) bs rest
  exact htaken

/-! ### `AT+QISEND` -/

theorem takenText_prompt (hu : Quiet ok u) (rest : List UInt8) :
    takenText (bytes ">") (u ++ (crlf ++ bytes "> ") ++ rest) = (some [], 32 :: rest) := by
  have hline : u ++ (crlf ++ bytes "> ") ++ rest = (u ++ crlf) ++ (bytes ">" ++ 32 :: rest) := by
    simp [show bytes "> " = bytes ">" ++ [32] by decide]
  rw [hline, takenText_append (hu.append .crlf) (b := 62) (by decide)
    ((hu.append .crlf).not_mem (by decide)) (by decide)]
  exact takenText_first (first_bytes (by decide)) (by decide) (by decide) (by decide) _

theorem parse_sendOk : parse none (bytes "SEND OK") =
    (bytes "SEND").map .lit ++ .space :: (bytes "OK").map .lit := by decide

/-- What is left of the prompt, and lines of the module's own, are passed. -/
theorem takenText_afterPrompt (hu : Quiet ok u) (line rest : List UInt8) :
    takenText (bytes "SEND OK") (32 :: u ++ (answerLine line ++ rest)) =
      takenText (bytes "SEND OK") (line ++ (crlf ++ rest)) := by
  have h83 : 83 ∉ 32 :: u ++ [cr] := by
    simp only [List.cons_append, List.mem_cons, List.mem_append, List.not_mem_nil, or_false, not_or]
    exact ⟨by decide, hu.not_mem (by decide), by decide⟩
  have hline : 32 :: u ++ (answerLine line ++ rest) =
      (32 :: u ++ [cr]) ++ lf :: (line ++ (crlf ++ rest)) := by
    simp [answerLine, crlf]
  simp only [takenText, hline,
    read_past _ _ (show .lit 83 ∈ parse none (bytes "SEND OK") by decide) (by decide)
      List.not_mem_nil h83]

theorem takenText_sendOk (hu : Quiet ok u) (rest : List UInt8) :
    takenText (bytes "SEND OK") (32 :: u ++ (answerLine (bytes "SEND OK") ++ rest)) =
      (some [], crlf ++ rest) := by
  have hfirst : First (parse none (bytes "SEND OK")) (bytes "SEND OK") [] := by
    have hok : First ((bytes "OK").map .lit) (bytes "OK") [] := by
      simpa using First.nil.lits (bytes "OK")
    rw [parse_sendOk]
    exact (First.space (b := 79) hok rfl).lits (bytes "SEND")
  rw [takenText_afterPrompt hu]
  exact takenText_first hfirst (by decide) (by decide) (by decide) _

theorem takenText_sendFail (hu : Quiet ok u) (hv : 83 ∉ v) :
    takenText (bytes "SEND OK") (32 :: u ++ (answerLine (bytes "SEND FAIL") ++ v)) =
      (none, []) := by
  have hline : bytes "SEND FAIL" ++ (crlf ++ v) = (bytes "SEND FAIL" ++ [cr]) ++ lf :: v := by
    simp [crlf]
  have hnever : Never (parse none (bytes "SEND OK")) ((bytes "SEND FAIL" ++ [cr]) ++ [lf]) := by
    have hfail : Never [.lit 79, .lit 75] (70 :: (bytes "AIL" ++ crlf)) := never_other (by decide) _
    rw [parse_sendOk]
    exact (hfail.space rfl).lits (bytes "SEND")
  rw [takenText_afterPrompt hu, hline]
  exact takenText_never hnever (by decide) (by decide) (b := 83) (by decide) hv

/-! ### Patterns with the number of the socket -/

/-- `sprintf` of a pattern with one number. -/
theorem pattern_int {t : String} (h : Printf.parse none (bytes t) =
    some (u.map .lit ++ .int :: v.map .lit)) (id : Int) :
    Format.pattern ⟨t, [.int id]⟩ = u ++ Printf.decimal id ++ v := by
  have htail : Printf.Prints (v.map .lit) [] v := by simpa using Printf.Prints.nil.lits v
  have hprints := (htail.int id).lits u
  rw [Format.pattern, if_neg (List.cons_ne_nil _ _)]
  show (Printf.printf (bytes t) [.int id]).getD [] = _
  rw [Printf.printf_eq h hprints, List.append_assoc]
  rfl

/-- The bytes of a number. -/
theorem decimal_plain (n : Int) : ∀ b ∈ Printf.decimal n, b ≠ 37 ∧ isSpace b = false := by
  have hnumeral : ∀ b ∈ numeral 10 n.natAbs, b ≠ 37 ∧ isSpace b = false := by
    intro b hb
    have hdigit := isDigit_numeral (by decide) (by decide) n.natAbs b hb
    refine ⟨?_, isSpace_of_isDigit hdigit⟩
    rintro rfl
    exact absurd hdigit (by decide)
  unfold Printf.decimal
  split
  · exact List.forall_mem_cons.mpr ⟨by decide, hnumeral⟩
  · exact hnumeral

theorem decimal_ne_nil (n : Int) : Printf.decimal n ≠ [] := by
  unfold Printf.decimal
  split
  · exact List.cons_ne_nil _ _
  · exact numeral_ne_nil _ _

theorem lf_not_mem_decimal (n : Int) : lf ∉ Printf.decimal n :=
  fun h => absurd (decimal_plain n lf h).2 (by decide)

/-- Bytes that stand for themselves. -/
theorem parse_plain {w : List UInt8} (hw : ∀ b ∈ w, b ≠ 37 ∧ isSpace b = false)
    (l : List UInt8) : parse none (w ++ l) = w.map .lit ++ parse none l := by
  induction w with
  | nil => rfl
  | cons b w ih =>
    obtain ⟨⟨hb, hspace⟩, hw⟩ := List.forall_mem_cons.mp hw
    have hparse : parse none (b :: (w ++ l)) = .lit b :: parse none (w ++ l) := by
      rw [parse]
      · simp [hspace]
      · exact fun heq => hb heq
    rw [List.cons_append, hparse, ih hw]
    rfl

/-- `recv` of the pattern of `chkRxAvail` leaves an end of the stream. -/
theorem takenText_qiurc (id : Int) (x : List UInt8) :
    (takenText (Format.pattern ⟨"+QIURC: \"recv\",%d", [.int id]⟩) x).2 <:+ x := by
  have hpattern : Format.pattern ⟨"+QIURC: \"recv\",%d", [.int id]⟩ =
      bytes "+QIURC: \"recv\"," ++ Printf.decimal id ++ [] :=
    pattern_int (by decide) id
  refine takenText_suffix ?_ x
  rw [hpattern, List.append_nil, List.getLast?_append_of_ne_nil _ (decimal_ne_nil id)]
  exact fun h => lf_not_mem_decimal id (List.mem_of_getLast? h)

/-! ### `AT+QIOPEN` -/

/-- The text that `sprintf` prints for the pattern of `BG96::open`. -/
def qiopenText (id : Int) : List UInt8 := bytes "+QIOPEN: " ++ Printf.decimal id ++ bytes ",%d"

theorem pattern_qiopen (id : Int) :
    Format.pattern ⟨"+QIOPEN: %d,%%d", [.int id]⟩ = qiopenText id :=
  pattern_int (by decide) id

theorem parse_qiopen (id : Int) : parse none (qiopenText id) = (bytes "+QIOPEN:").map .lit ++
    .space :: ((Printf.decimal id).map .lit ++ [.lit 44, .number true 10 32]) := by
  have hid := parse_plain (decimal_plain id) (bytes ",%d")
  have htext : qiopenText id = bytes "+QIOPEN:" ++ 32 :: (Printf.decimal id ++ bytes ",%d") := by
    simp [qiopenText, show bytes "+QIOPEN: " = bytes "+QIOPEN:" ++ [32] by decide]
  rw [htext, parse_plain (List.all_iff_forall_prop.mp (by decide)), parse]
  · rw [hid]
    rfl
  · decide

theorem qiopen_mem_parse (id : Int) : .lit 80 ∈ parse none (qiopenText id) := by
  rw [parse_qiopen]
  exact List.mem_append_left _ (by decide)

/-- The first digit of the error is taken. -/
theorem takenText_qiopen (hu : Quiet ok u) (id : Int) (err : Nat) (rest : List UInt8) :
    ∃ y, Quiet false y ∧ takenText (qiopenText id) (u ++ (Module.opening id err ++ rest)) =
      (some [.int (firstDigit err)], y ++ rest) := by
  obtain ⟨b, ns, hn, hb, hns, hvalue⟩ := numeral_cons err
  obtain ⟨c, l, hdecimal⟩ := List.exists_cons_of_ne_nil (decimal_ne_nil id)
  have hc : isSpace c = false := (decimal_plain id c (by simp [hdecimal])).2
  have hdigit (d : UInt8) (hd : isDigit 10 d = false) : d ∉ ns := fun hmem => by
    rw [hns d hmem] at hd
    cases hd
  have hquiet : Quiet false (ns ++ crlf) := by
    refine .line (fun d hd => ⟨?_, ?_, ?_, ?_⟩) fun _ => hdigit 79 (by decide)
    all_goals
      rintro rfl
      exact hdigit _ (by decide) hd
  have hfirst : First (parse none (qiopenText id))
      (bytes "+QIOPEN:" ++ 32 :: (Printf.decimal id ++ 44 :: [b])) [.number (firstDigit err)] := by
    have hid := ((first_firstDigit true hb hvalue).lit (b := 44)).lits (Printf.decimal id)
    rw [parse_qiopen]
    rw [hdecimal] at hid ⊢
    exact (First.space hid hc).lits (bytes "+QIOPEN:")
  have hlf : lf ∉ bytes "+QIOPEN:" ++ 32 :: (Printf.decimal id ++ 44 :: [b]) := by
    have hne : lf ≠ b := by
      rintro rfl
      exact absurd hb (by decide)
    simp only [List.mem_append, List.mem_cons, not_or]
    exact ⟨by decide, by decide, lf_not_mem_decimal id, by decide, hne, List.not_mem_nil⟩
  have hend : (qiopenText id).getLast? ≠ some lf := by
    rw [qiopenText, List.getLast?_append, show (bytes ",%d").getLast? = some 100 by decide,
      Option.some_or]
    decide
  have hline : u ++ (Module.opening id err ++ rest) = (u ++ crlf) ++
      ((bytes "+QIOPEN:" ++ 32 :: (Printf.decimal id ++ 44 :: [b])) ++ (ns ++ crlf ++ rest)) := by
    simp [Module.opening, answerLine, hn,
      show bytes "+QIOPEN: " = bytes "+QIOPEN:" ++ [32] by decide]
  refine ⟨ns ++ crlf, hquiet, ?_⟩
  rw [hline, takenText_append (hu.append .crlf) (qiopen_mem_parse id)
    ((hu.append .crlf).not_mem (by decide)) (by decide)]
  exact takenText_first hfirst (by simp) hlf hend _

end Bg96.Modem
