import BG96Driver.Lib.Scanf
import BG96Driver.Modem.Files
import Mathlib.Logic.Function.Basic

/-!
# The file system of the module on the serial line

The module answers the file commands with text and takes and gives raw bytes between. What it sends
is one stream, from which `recv` takes lines (`BG96Driver/Lib/Scanf.lean`) and `getc` bytes.

* `Storage`: the files, the handles, the unread stream and the bytes that the module is taking.
* `Storage.answer`: a command that is carried out. `Storage.put`: a byte that is sent.
* `serial`: the environment of the file operations.
* `wp_getBytes`, `wp_putBytes`: what the loops over bytes do.
-/

namespace Bg96.Modem

open Program Scanf

/-! ## The module -/

def crlf : List UInt8 := [cr, lf]

/-- A line of an answer. -/
def answerLine (text : List UInt8) : List UInt8 := crlf ++ text ++ crlf

def okLine : List UInt8 := answerLine (bytes "OK")

def errorLine : List UInt8 := answerLine (bytes "ERROR")

/-- The line before raw bytes. -/
def connectLine (parameter : List UInt8) : List UInt8 := bytes "CONNECT" ++ parameter ++ crlf

/-- An open file, and the position in it. -/
structure Handle where
  name : String
  pos : Nat

/-- What the module does with the bytes that it takes. -/
inductive Incoming where
  | upload (name : String)
  | write (fh : Int)

/-- The module: what it has sent and is unread, its files, its open handles, and the bytes that it
is taking, with their number. -/
structure Storage where
  unread : List UInt8
  files : String → Option (List UInt8)
  handles : Int → Option Handle
  incoming : Option (Incoming × Nat × List UInt8)

/-- The module sends. -/
def Storage.tell (s : Storage) (bs : List UInt8) : Storage := { s with unread := s.unread ++ bs }

def Storage.refuse (s : Storage) : Storage := s.tell errorLine

/-- Bytes at a position of a file. -/
def overwrite (content : List UInt8) (pos : Nat) (bs : List UInt8) : List UInt8 :=
  content.take pos ++ bs ++ content.drop (pos + bs.length)

/-- A name that can stand between quotes in a command. -/
def Quotable (name : String) : Prop := 34 ∉ bytes name ∧ lf ∉ bytes name ∧ cr ∉ bytes name

instance (name : String) : Decidable (Quotable name) :=
  inferInstanceAs (Decidable (34 ∉ bytes name ∧ lf ∉ bytes name ∧ cr ∉ bytes name))

/-- The commands that list and download a file. -/
def readCommands : List String := ["AT+QFLST=\"%s\"", "AT+QFDWL=\"%s\""]

/-- The commands that `Storage.answer` carries out. -/
def fileCommands : List String :=
  readCommands ++ ["AT+QFUPL=\"%s\",%u", "AT+QFWRITE=%ld, %u", "AT+QFREAD=%ld, %u",
    "AT+QFSEEK=%ld,%u,%d"]

section Answer

variable (checksum : List UInt8 → Nat)

/-- The number of bytes and their checksum. -/
def sizeAndChecksum (content : List UInt8) : List UInt8 :=
  numeral 10 content.length ++ bytes "," ++ numeral 16 (checksum content)

/-- All the bytes are there: the module stores them. -/
def Storage.store (s : Storage) (target : Incoming) (got : List UInt8) : Storage :=
  let s := { s with incoming := none }
  match target with
  | .upload name =>
    { s with files := Function.update s.files name (some got) }.tell
      (answerLine (bytes "+QFUPL: " ++ sizeAndChecksum checksum got) ++ okLine)
  | .write fh =>
    match s.handles fh with
    | some h =>
      let content := overwrite ((s.files h.name).getD []) h.pos got
      { s with
        files := Function.update s.files h.name (some content)
        handles := Function.update s.handles fh (some { h with pos := h.pos + got.length }) }.tell
      (answerLine (bytes "+QFWRITE: " ++ numeral 10 got.length ++ bytes "," ++
        numeral 10 content.length) ++ okLine)
    | none => s.refuse

/-- The module takes bytes until all are there. -/
def Storage.take (s : Storage) (target : Incoming) (n : Nat) (got : List UInt8) : Storage :=
  if got.length = n then s.store checksum target got
  else { s with incoming := some (target, n, got) }

/-- A byte comes. -/
def Storage.put (s : Storage) (c : UInt8) : Storage :=
  match s.incoming with
  | some (target, n, got) => s.take checksum target n (got ++ [c])
  | none => s

/-- The position of a seek: `FILE_POS` is the start, the current position or the end. -/
def seekTo (content : List UInt8) (pos offset : Nat) (position : Int) : Nat :=
  if position = 0 then offset else if position = 1 then pos + offset else content.length

/-- A command that the module carries out. Other commands are refused. -/
def Storage.answer (s : Storage) : Format → Storage
  | ⟨"AT+QFUPL=\"%s\",%u", [.str name, .int n]⟩ =>
    if Quotable name then (s.tell (connectLine [])).take checksum (.upload name) n.toNat []
    else s.refuse
  | ⟨"AT+QFLST=\"%s\"", [.str name]⟩ =>
    match s.files name with
    | some content => s.tell (answerLine (bytes "+QFLST: \"" ++ bytes name ++ bytes "\"," ++
        numeral 10 content.length) ++ okLine)
    | none => s.refuse
  | ⟨"AT+QFDWL=\"%s\"", [.str name]⟩ =>
    match s.files name with
    | some content => s.tell (connectLine [] ++ content ++
        answerLine (bytes "+QFDWL: " ++ sizeAndChecksum checksum content) ++ okLine)
    | none => s.refuse
  | ⟨"AT+QFWRITE=%ld, %u", [.int fh, .int n]⟩ =>
    match s.handles fh with
    | some _ => (s.tell (connectLine [])).take checksum (.write fh) n.toNat []
    | none => s.refuse
  | ⟨"AT+QFREAD=%ld, %u", [.int fh, .int n]⟩ =>
    match s.handles fh with
    | some h =>
      let bs := (((s.files h.name).getD []).drop h.pos).take n.toNat
      { s with handles := Function.update s.handles fh (some { h with pos := h.pos + bs.length }) }.tell
        (connectLine (bytes " " ++ numeral 10 bs.length) ++ bs ++ crlf ++ bytes "OK" ++ crlf)
    | none => s.refuse
  | ⟨"AT+QFSEEK=%ld,%u,%d", [.int fh, .int offset, .int position]⟩ =>
    match s.handles fh with
    | some h =>
      { s with handles := Function.update s.handles fh (some { h with
          pos := seekTo ((s.files h.name).getD []) h.pos offset.toNat position }) }.tell okLine
    | none => s.refuse
  | _ => s.refuse

/-- What the module does with a command: it carries it out, or refuses one that it may refuse, or
sends anything for one that is no file command. -/
def Answers (mayRefuse : Format → Prop) (s : Storage) (cmd : Format) (s' : Storage) : Prop :=
  s' = s.answer checksum cmd ∨
    mayRefuse cmd ∧ (s' = s.refuse ∨ cmd.text ∉ fileCommands ∧ ∃ more, s' = s.tell more)

end Answer

/-! ## The environment -/

/-- What a conversion stores. -/
def fieldValue : Field → Value
  | .number n => .int n
  | .text bs => .str ((String.fromUTF8? ⟨bs.toArray⟩).getD "")

theorem fieldValue_text (s : String) : fieldValue (.text (bytes s)) = .str s := by
  have hvalid : s.toUTF8.IsValidUTF8 := s.isValidUTF8
  have hbytes : (⟨(bytes s).toArray⟩ : ByteArray) = s.toUTF8 := by simp [bytes]
  rw [fieldValue, hbytes, String.fromUTF8?, dif_pos hvalid]
  rfl

/-- `recv` of a pattern: a pattern that ends in a newline is matched at the end of a line. -/
def received (pattern : Format) (unread : List UInt8) : Option (List Value) × List UInt8 :=
  let r := read ((bytes pattern.text).getLast? = some lf) (format pattern.text) [] unread
  (r.1.map (·.map fieldValue), r.2)

/-- The serial line with the module, which may refuse some commands. -/
def serial (checksum : List UInt8 → Nat) (mayRefuse : Format → Prop) :
    Env Storage Call Call.Reply := fun s c r s' =>
  match c, r with
  | .send cmd, r => r = true ∧ Answers checksum mayRefuse s cmd s'
  | .recv pattern, r => r = (received pattern s.unread).1 ∧
    s' = { s with unread := (received pattern s.unread).2 }
  | .getc, r => r = s.unread.head? ∧ s' = { s with unread := s.unread.tail }
  | .putc c, _ => s' = s.put checksum c
  | _, _ => s' = s

/-- The module lists and downloads the files that it has. It may refuse other commands. -/
def MayRefuse (cmd : Format) : Prop := cmd.text ∉ readCommands

variable {α : Type} {checksum : List UInt8 → Nat} {mayRefuse : Format → Prop} {T : Prop}
  {Q : α → Storage → Prop} {p : At α} {s : Storage}

theorem serial_answers (s : Storage) (c : Call) : ∃ r s', serial checksum mayRefuse s c r s' := by
  cases c with
  | send cmd => exact ⟨true, _, rfl, .inl rfl⟩
  | recv pattern => exact ⟨_, _, rfl, rfl⟩
  | getc => exact ⟨_, _, rfl, rfl⟩
  | readable | writable => exact ⟨true, s, rfl⟩
  | read size => exact ⟨(0, []), s, rfl⟩
  | write data => exact ⟨(0 : Int), s, rfl⟩
  | readMs started => exact ⟨(0 : Int), s, rfl⟩
  | putc c => exact ⟨(0 : Int), _, rfl⟩
  | _ => exact ⟨(), s, rfl⟩

/-- A command that is not refused is carried out. -/
theorem Answers.eq_answer {cmd : Format} {s' : Storage} (h : Answers checksum mayRefuse s cmd s')
    (hcmd : ¬ mayRefuse cmd) : s' = s.answer checksum cmd := h.resolve_right fun h => hcmd h.1

/-- What a module does that refuses nothing, another module may do. -/
theorem serial_mono {c : Call} {r : c.Reply} {s' : Storage}
    (h : serial checksum (fun _ => False) s c r s') : serial checksum mayRefuse s c r s' := by
  cases c with
  | send cmd => exact ⟨h.1, .inl (h.2.resolve_right And.left)⟩
  | _ => exact h

variable (mayRefuse) in
/-- A run in which the module refuses nothing. -/
theorem exists_unrefused (h : wp (serial checksum fun _ => False) False Q p s) :
    ∃ a s', Runs (serial checksum mayRefuse) p s (some a) s' ∧ Q a s' := by
  obtain ⟨a, s', hrun, hQ⟩ := exists_run serial_answers h
  exact ⟨a, s', hrun.mono fun _ _ _ _ => serial_mono, hQ⟩

theorem wp_serial_locked (h : wp (serial checksum mayRefuse) T Q p s) :
    wp (serial checksum mayRefuse) T Q (locked p) s :=
  wp_locked (fun _ _ _ => id) (fun _ _ _ => id) h

theorem wp_serial_timed {ms : Int} (h : wp (serial checksum mayRefuse) T Q p s) :
    wp (serial checksum mayRefuse) T Q (timed ms p) s :=
  wp_timed (fun _ _ _ _ => id) h

/-- `getBytes` takes bytes from the stream; a byte that does not come is `(char)-1`. -/
theorem wp_getBytes {n : Nat} {Q : List UInt8 → Storage → Prop}
    (h : Q (s.unread.take n ++ List.replicate (n - s.unread.length) 255)
      { s with unread := s.unread.drop n }) :
    wp (serial checksum mayRefuse) T Q (getBytes n) s := by
  induction n generalizing s Q with
  | zero => simpa [getBytes] using h
  | succ n ih =>
    rintro r _ ⟨rfl, rfl⟩
    show wp _ _ _ (getBytes n >>= _) _
    rw [wp_bind]
    refine ih ?_
    cases hs : s.unread with
    | nil => simpa [hs, List.replicate_succ] using h
    | cons b l => simpa [hs] using h

/-- All the bytes are there. -/
theorem wp_getBytes_of_le {n : Nat} {got rest : List UInt8} {Q : List UInt8 → Storage → Prop}
    (hunread : s.unread = got ++ rest) (hn : got.length = n)
    (h : Q got { s with unread := rest }) :
    wp (serial checksum mayRefuse) T Q (getBytes n) s := by
  subst hn
  refine wp_getBytes ?_
  rw [hunread, List.take_left, List.drop_left, List.length_append,
    Nat.sub_eq_zero_of_le (Nat.le_add_right ..), List.replicate_zero, List.append_nil]
  exact h

theorem putBytes_end (bits n : Nat) (data : List UInt8) : putBytes bits n n data = .ret () := by
  cases data <;> simp [putBytes]

/-- `putBytes` sends the bytes that the module waits for, if the counter does not wrap. -/
theorem wp_putBytes {bits n : Nat} {target : Incoming} {got data : List UInt8}
    {Q : Unit → Storage → Prop} (hn : n < 2 ^ bits) (hgot : got.length < n)
    (hdata : n ≤ got.length + data.length)
    (h : Q () (s.store checksum target (got ++ data.take (n - got.length)))) :
    wp (serial checksum mayRefuse) T Q (putBytes bits n got.length data)
      { s with incoming := some (target, n, got) } := by
  induction data generalizing got with
  | nil =>
    rw [List.length_nil] at hdata
    omega
  | cons c data ih =>
    rw [putBytes, if_pos hgot]
    rintro r _ rfl
    rw [Nat.mod_eq_of_lt (by omega)]
    obtain ⟨k, hk⟩ : ∃ k, n - got.length = k + 1 := ⟨n - got.length - 1, by omega⟩
    rw [hk, List.take_succ_cons] at h
    have hlen : (got ++ [c]).length = got.length + 1 := List.length_append
    show wp _ _ _ (putBytes bits n (got.length + 1) data) (s.take checksum target n (got ++ [c]))
    unfold Storage.take
    by_cases hend : (got ++ [c]).length = n
    · rw [if_pos hend, ← hlen, hend, putBytes_end]
      obtain rfl : k = 0 := by omega
      simpa using h
    · rw [if_neg hend, ← hlen]
      rw [List.length_cons] at hdata
      refine ih (by omega) (by omega) ?_
      rw [show n - (got ++ [c]).length = k by omega]
      simpa using h

/-! ## The lines that `recv` waits for -/

/-- Nothing is unread but the end of an answer. -/
def AtRest (unread : List UInt8) : Prop := unread = [] ∨ unread = crlf

theorem AtRest.subset {unread : List UInt8} (h : AtRest unread) :
    ∀ b ∈ unread, b = cr ∨ b = lf := by
  rcases h with rfl | rfl <;> simp [crlf]

theorem AtRest.not_mem {unread : List UInt8} {b : UInt8} (h : AtRest unread) (hlf : b ≠ lf)
    (hcr : b ≠ cr) : b ∉ unread := fun hmem => (h.subset b hmem).elim hcr hlf

/-- What is unread does not hide the line after it, if it has not its first byte. -/
theorem read_skip {whole : Bool} {ds : List Directive} {b : UInt8} {unread : List UInt8}
    (hlf : b ≠ lf) (hcr : b ≠ cr) (hunread : b ∉ unread) (rest : List UInt8) :
    read whole (.lit b :: ds) [] (unread ++ (crlf ++ rest)) =
      read whole (.lit b :: ds) [] rest := by
  have hb : b ∉ unread ++ [cr] := by
    simp only [List.mem_append, List.mem_singleton, not_or]
    exact ⟨hunread, hcr⟩
  rw [← read_without whole ds rest hlf List.not_mem_nil hb]
  simp [crlf]

section AnswerLine

variable {ds : List Directive} {b : UInt8} {l text : List UInt8}

/-- What is before an answer is passed, if it has not the first byte of the format. -/
theorem read_beforeAnswer (ds : List Directive) (hblf : b ≠ lf) (hbcr : b ≠ cr) (hl : b ∉ l)
    (text rest : List UInt8) : read true (.lit b :: ds) [] (l ++ (answerLine text ++ rest)) =
      read true (.lit b :: ds) [] ((text ++ [cr]) ++ lf :: rest) := by
  have hunread : l ++ (answerLine text ++ rest) =
      (l ++ [cr]) ++ lf :: ((text ++ [cr]) ++ lf :: rest) := by
    simp [answerLine, crlf]
  rw [hunread, read_without true _ _ hblf List.not_mem_nil (by simp [hl, hbcr])]

theorem lf_not_mem_line (htext : lf ∉ text) : lf ∉ text ++ [cr] := by
  rw [List.mem_append, List.mem_singleton, not_or]
  exact ⟨htext, by decide⟩

/-- A line that is matched in full. -/
theorem read_answerLine (ds : List Directive) (b : UInt8) {fs : List Scanf.Field} (hblf : b ≠ lf)
    (hbcr : b ≠ cr) (hl : b ∉ l) (htext : lf ∉ text)
    (h : matched (.lit b :: ds) (text ++ [cr, lf]) = some fs) (rest : List UInt8) :
    read true (.lit b :: ds) [] (l ++ (answerLine text ++ rest)) = (some fs, rest) := by
  rw [read_beforeAnswer ds hblf hbcr hl]
  refine read_whole ?_ (lf_not_mem_line htext)
  rwa [List.nil_append, List.append_assoc]

/-- A line that is not matched. -/
theorem read_answerLine_none (ds : List Directive) (b : UInt8) (hblf : b ≠ lf) (hbcr : b ≠ cr)
    (hl : b ∉ l) (htext : lf ∉ text) (h : matched (.lit b :: ds) (text ++ [cr, lf]) = none)
    (rest : List UInt8) :
    read true (.lit b :: ds) [] (l ++ (answerLine text ++ rest)) =
      read true (.lit b :: ds) [] rest := by
  rw [read_beforeAnswer ds hblf hbcr hl]
  refine read_unmatched ?_ (lf_not_mem_line htext)
  rwa [List.nil_append, List.append_assoc]

end AnswerLine

/-- The first line begins with a word that a format waits for. -/
theorem received_word {w unread : List UInt8} {pattern : Format} {b : UInt8}
    (hw : format pattern.text = (b :: w).map .lit)
    (hend : (bytes pattern.text).getLast? ≠ some lf) (hlf : lf ∉ b :: w) (rest : List UInt8)
    (hpre : unread = [] ∨ ∃ l, unread = l ++ [lf] ∧ b ∉ l) :
    received pattern (unread ++ (b :: w) ++ rest) = (some [], rest) := by
  have hfirst : First ((b :: w).map .lit) (b :: w) [] := by
    simpa using First.nil.lits (b :: w)
  have hread := read_first hfirst rest nofun hlf
  have hb : b ≠ lf := fun heq => hlf (by simp [heq])
  rw [received, hw, decide_eq_false hend]
  rcases hpre with rfl | ⟨l, rfl, hl⟩
  · rw [List.nil_append, hread]
    rfl
  · have hskip := read_without false (w.map .lit) (b :: w ++ rest) hb List.not_mem_nil hl
    rw [List.append_assoc, List.append_assoc]
    rw [List.map_cons] at hread ⊢
    rw [hread] at hskip
    rw [List.singleton_append, hskip]
    rfl

theorem received_ok {l : List UInt8} (hl : 79 ∉ l) (rest : List UInt8) :
    received okFormat (l ++ [lf] ++ bytes "OK" ++ rest) = (some [], rest) :=
  received_word (b := 79) (w := [75]) (by decide) (by decide) (by decide) rest (.inr ⟨l, rfl, hl⟩)

/-- An `OK` at the beginning of a line is found, whatever is before it. -/
theorem received_ok_isSome (l rest : List UInt8) :
    (received okFormat (l ++ lf :: (bytes "OK" ++ rest))).1.isSome := by
  have hformat : format okFormat.text = (bytes "OK").map .lit := by decide
  have hfirst : First ((bytes "OK").map .lit) (bytes "OK") [] := by
    simpa using First.nil.lits (bytes "OK")
  rw [received, hformat, decide_eq_false (by decide)]
  simpa using read_finds hfirst (by decide) (by decide) [] l rest

theorem received_connect {unread : List UInt8} (h : AtRest unread) (rest : List UInt8) :
    received ⟨"CONNECT", []⟩ (unread ++ bytes "CONNECT" ++ rest) = (some [], rest) := by
  refine received_word (b := 67) (w := bytes "ONNECT") (by decide) (by decide) (by decide) rest ?_
  rcases h with rfl | rfl
  · exact .inl rfl
  · exact .inr ⟨[cr], rfl, by decide⟩

/-- A word whose first byte does not come. -/
theorem received_none {pattern : Format} {b : UInt8} (ds : List Directive)
    (hds : format pattern.text = .lit b :: ds) {unread : List UInt8} (hb : b ∉ unread) :
    received pattern unread = (none, []) := by
  rw [received, hds, read_none List.not_mem_nil hb]
  rfl

/-- A refused command is not connected. -/
theorem received_refused {unread : List UInt8} (h : AtRest unread) :
    received ⟨"CONNECT", []⟩ (unread ++ errorLine) = (none, []) := by
  refine received_none (b := 67) ((bytes "ONNECT").map .lit) (by decide) ?_
  rcases h with rfl | rfl <;> decide

/-- A command before raw bytes: it is carried out, and what comes after `CONNECT` is unread, or it
is refused. -/
theorem wp_connectData {cmd : Format} {Q : Bool → Storage → Prop} (hrest : AtRest s.unread)
    (hcmd : cmd.text ∈ fileCommands)
    (h : s.answer checksum cmd = s.refuse ∧ Q false { s with unread := [] } ∨
      ∃ rest, (s.answer checksum cmd).unread = s.unread ++ bytes "CONNECT" ++ rest ∧
        Q true { s.answer checksum cmd with unread := rest })
    (hmay : mayRefuse cmd → Q false { s with unread := [] }) :
    wp (serial checksum mayRefuse) T Q (connectData cmd) s := by
  have hrefuse (hQ : Q false { s with unread := [] }) : Q
      (received ⟨"CONNECT", []⟩ s.refuse.unread).1.isSome
      { s.refuse with unread := (received ⟨"CONNECT", []⟩ s.refuse.unread).2 } := by
    rw [show s.refuse.unread = s.unread ++ errorLine from rfl, received_refused hrest]
    exact hQ
  rintro _ s' ⟨rfl, hs'⟩ r _ ⟨rfl, rfl⟩
  rcases hs' with rfl | ⟨hm, rfl | ⟨hnot, -⟩⟩
  · rcases h with ⟨heq, hQ⟩ | ⟨rest, hunread, hQ⟩
    · rw [heq]
      exact hrefuse hQ
    · rw [hunread, received_connect hrest]
      exact hQ
  · exact hrefuse (hmay hm)
  · exact absurd hcmd hnot

end Bg96.Modem
