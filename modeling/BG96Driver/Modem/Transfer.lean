import BG96Driver.Modem.Serial
import Mathlib.Data.Nat.Digits.Lemmas

/-!
# Files on the serial line

What the file commands of `BG96` do with a module that answers as `BG96Driver/Modem/Serial.lean`
says.

* `received_size`: the line with a number of bytes and their checksum.
* `fsUploadFile_stores`, `fsFileSize_fits`, `fsDownloadFile_spec`: a file is sent, listed and fetched.
* `fsWrite_stores`, `fsSeek_spec`, `fsRead_gives`: an open file.
-/

namespace Bg96.Modem

open Program Scanf

/-! ## Patterns -/

/-- The number of bytes and their checksum, up to the end of the line. -/
theorem scan_sizeAndChecksum (checksum : List UInt8 → Nat) (content : List UInt8) (bits : Nat)
    {ds : List Directive} (hds : ds = [] ∨ ds = [.space]) :
    scan ([.space, .number false 10 32, .lit 44] ++ ds ++ [.number false 16 bits, .space, .space])
        (32 :: (sizeAndChecksum checksum content ++ [cr, lf])) =
      some ([.number ((content.length : Int) % 2 ^ 32),
        .number ((checksum content : Int) % 2 ^ bits)], []) := by
  have hspace (base n : Nat) (h1 : 1 < base) (h16 : base ≤ 16) (r : List UInt8) :
      ∀ b ∈ (numeral base n ++ r).head?, isSpace b = false := by
    intro b hb
    refine isSpace_of_isDigit (isDigit_numeral h1 h16 n b ?_)
    cases hn : numeral base n with
    | nil => exact absurd hn (numeral_ne_nil base n)
    | cons c ns =>
      rw [hn] at hb
      obtain rfl : c = b := by simpa using hb
      exact List.mem_cons_self
  have hhex : scan (ds ++ [.number false 16 bits, .space, .space])
      (numeral 16 (checksum content) ++ [cr, lf]) =
      some ([.number ((checksum content : Int) % 2 ^ bits)], []) := by
    have hscan := scan_digits [.space, .space] bits (numeral_ne_nil 16 (checksum content))
      (isDigit_numeral (by decide) (by decide) _) (r := [cr, lf])
      (by rintro _ ⟨⟩; rfl)
    rw [valueOf_numeral (by decide) (by decide)] at hscan
    rcases hds with rfl | rfl
    · exact hscan
    · have hsp := scan_space [.number false 16 bits, .space, .space] (w := []) (by simp)
        (hspace 16 (checksum content) (by decide) (by decide) [cr, lf])
      rw [List.nil_append] at hsp
      exact hsp.trans hscan
  have hdec := scan_digits (.lit 44 :: ds ++ [.number false 16 bits, .space, .space]) 32
    (numeral_ne_nil 10 content.length) (isDigit_numeral (by decide) (by decide) _)
    (r := 44 :: (numeral 16 (checksum content) ++ [cr, lf])) (by rintro _ ⟨⟩; rfl)
  rw [valueOf_numeral (by decide) (by decide)] at hdec
  have hsp := scan_space
    (.number false 10 32 :: .lit 44 :: ds ++ [.number false 16 bits, .space, .space])
    (w := [32]) (List.forall_mem_singleton.mpr rfl)
    (hspace 10 content.length (by decide) (by decide)
      (44 :: (numeral 16 (checksum content) ++ [cr, lf])))
  have hbytes : sizeAndChecksum checksum content ++ [cr, lf] =
      numeral 10 content.length ++ 44 :: (numeral 16 (checksum content) ++ [cr, lf]) := by
    simp [sizeAndChecksum, show bytes "," = [44] by decide]
  rw [hbytes]
  refine hsp.trans (hdec.trans ?_)
  rw [List.cons_append, scan, if_pos rfl, hhex]
  rfl

theorem not_mem_sizeAndChecksum {b : UInt8} (hb : b.toNat < 44) (checksum : List UInt8 → Nat)
    (content : List UInt8) : b ∉ sizeAndChecksum checksum content := by
  have h44 : b ≠ 44 := by rintro rfl; exact absurd hb (by decide)
  rw [sizeAndChecksum, show bytes "," = [44] by decide]
  have hdigit (base : Nat) : isDigit base b = false := by
    by_contra hd
    have hle := isDigit_le (Bool.not_eq_false _ ▸ hd)
    omega
  simp only [List.mem_append, List.mem_singleton, not_or]
  exact ⟨⟨not_mem_numeral (hdigit 10) (by decide) (by decide) _, h44⟩,
    not_mem_numeral (hdigit 16) (by decide) (by decide) _⟩

/-- The line with the number of bytes and their checksum, after anything without its first byte. -/
theorem received_size {pattern : Format} {ds : List Directive} {bits : Nat} {b : UInt8}
    {w : List UInt8} (hds : ds = [] ∨ ds = [.space])
    (hformat : format pattern.text = (b :: w).map .lit ++
      ([.space, .number false 10 32, .lit 44] ++ ds ++ [.number false 16 bits, .space, .space]))
    (hend : (bytes pattern.text).getLast? = some lf) (hlf : lf ∉ b :: w) (hcr : b ≠ cr)
    {l : List UInt8} (hl : b ∉ l) (checksum : List UInt8 → Nat) (content rest : List UInt8) :
    received pattern
        (l ++ (answerLine ((b :: w) ++ 32 :: sizeAndChecksum checksum content) ++ rest)) =
      (some [.int ((content.length : Int) % 2 ^ 32), .int ((checksum content : Int) % 2 ^ bits)],
        rest) := by
  have hb : b ≠ lf := fun heq => hlf (by simp [heq])
  have htext : lf ∉ (b :: w) ++ 32 :: sizeAndChecksum checksum content := by
    have hsize := not_mem_sizeAndChecksum (b := lf) (by decide) checksum content
    rw [List.mem_append, List.mem_cons (a := lf) (b := 32), not_or, not_or]
    exact ⟨hlf, by decide, hsize⟩
  have hscan := scan_sizeAndChecksum checksum content bits hds
  rw [← scan_lits _ (b :: w), List.map_cons, List.cons_append] at hscan
  have hline : (b :: w) ++ 32 :: (sizeAndChecksum checksum content ++ [cr, lf]) =
      ((b :: w) ++ 32 :: sizeAndChecksum checksum content) ++ [cr, lf] := by simp
  rw [hline] at hscan
  rw [received, hformat, decide_eq_true hend, List.map_cons, List.cons_append,
    read_answerLine _ _ hb hcr hl htext (by rw [matched, hscan])]
  rfl

theorem received_qfupl (checksum : List UInt8 → Nat) (content rest : List UInt8) :
    received qfupl
        (crlf ++ (answerLine (bytes "+QFUPL: " ++ sizeAndChecksum checksum content) ++ rest)) =
      (some [.int ((content.length : Int) % 2 ^ 32), .int ((checksum content : Int) % 2 ^ 32)],
        rest) := by
  rw [show bytes "+QFUPL: " = 43 :: bytes "QFUPL:" ++ [32] by decide, List.append_assoc]
  exact received_size (.inr rfl) (by decide) (by decide) (by decide) (by decide) (by decide) ..

/-- The line that ends a download, after anything without `+`. -/
theorem received_qfdwl (checksum : List UInt8 → Nat) (content : List UInt8) {l : List UInt8}
    (hl : 43 ∉ l) (rest : List UInt8) :
    received ⟨"+QFDWL: %u,%hX\r\n", []⟩
        (l ++ (answerLine (bytes "+QFDWL: " ++ sizeAndChecksum checksum content) ++ rest)) =
      (some [.int ((content.length : Int) % 2 ^ 32), .int ((checksum content : Int) % 2 ^ 16)],
        rest) := by
  rw [show bytes "+QFDWL: " = 43 :: bytes "QFDWL:" ++ [32] by decide, List.append_assoc]
  exact received_size (.inl rfl) (by decide) (by decide) (by decide) (by decide) hl ..

/-! ## The commands -/

variable {checksum : List UInt8 → Nat} {mayRefuse : Format → Prop} {s : Storage} {name : String}
  {data content unread : List UInt8} {n : Nat}

/-- The module is left with the file, and the driver with its size. -/
def Uploaded (s' : Storage) (name : String) (content : List UInt8) : Prop :=
  s'.unread = crlf ∧ s'.files name = some content

/-- The module has stored the file. -/
def Storage.uploaded (s : Storage) (name : String) (content : List UInt8) : Storage :=
  { s with
    unread := crlf
    files := Function.update s.files name (some content)
    incoming := none }

/-- `BG96::fs_upload_file`: the module stores the file, or refuses. -/
theorem fsUploadFile_stores (hrest : AtRest s.unread) (h0 : 0 < n) (hn : n < 2 ^ 16)
    (hdata : n ≤ data.length) :
    wp (serial checksum mayRefuse) False (fun r s' =>
        r.1 ≠ nsapiErrorOk ∧
          (mayRefuse ⟨"AT+QFUPL=\"%s\",%u", [.str name, .int n]⟩ ∨ ¬ Quotable name) ∧
            s' = { s with unread := [] } ∨
        Quotable name ∧ r = (nsapiErrorOk, (n : Int)) ∧ s' = s.uploaded name (data.take n))
      (fsUploadFile name data n) s := by
  refine wp_serial_locked (wp_serial_timed ?_)
  show wp _ _ _ (connectData _ >>= _) _
  rw [wp_bind]
  refine wp_connectData hrest (show "AT+QFUPL=\"%s\",%u" ∈ fileCommands by decide) ?_
    fun hmay => .inl ⟨by decide, .inl hmay, rfl⟩
  by_cases hq : Quotable name
  · right
    have hanswer : s.answer checksum ⟨"AT+QFUPL=\"%s\",%u", [.str name, .int n]⟩ =
        { s.tell (connectLine []) with incoming := some (.upload name, n, []) } := by
      show (if Quotable name then _ else _) = _
      rw [if_pos hq, Storage.take, if_neg (by simpa using (Nat.ne_of_lt h0))]
      rfl
    rw [hanswer]
    refine ⟨crlf, (List.append_assoc ..).symm, ?_⟩
    show wp _ _ _ (putBytes 16 n 0 data >>= _) _
    rw [wp_bind]
    show wp _ _ _ (putBytes 16 n ([] : List UInt8).length data)
      { { s with unread := crlf } with incoming := some (.upload name, n, []) }
    refine wp_putBytes hn h0 (by simpa using hdata) ?_
    rintro _ _ rfl r s' ⟨hr, hs'⟩
    change r = (received qfupl (crlf ++ _)).1 at hr
    change s' = Storage.mk (received qfupl (crlf ++ _)).2 _ _ _ at hs'
    rw [received_qfupl] at hr hs'
    subst hr hs'
    rintro _ _ ⟨rfl, rfl⟩
    refine .inr ⟨hq, ?_, ?_⟩
    · have hlen : ((data.take n).length : Int) % 2 ^ 32 = n := by
        rw [List.length_take_of_le hdata]
        omega
      exact congrArg (Prod.mk nsapiErrorOk) hlen
    · have hok : (received okFormat okLine).2 = crlf :=
        congrArg Prod.snd (show received okFormat okLine = (some [], crlf) by decide)
      show Storage.mk (received okFormat okLine).2 _ _ _ = _
      rw [hok]
      rfl
  · refine .inl ⟨?_, .inl ⟨by decide, .inr hq, rfl⟩⟩
    show (if Quotable name then _ else _) = _
    rw [if_neg hq]

/-- `BG96::fs_upload_file` succeeds if the module accepts the upload. -/
theorem fsUploadFile_spec (hrest : AtRest s.unread) (h0 : 0 < n) (hn : n < 2 ^ 16)
    (hdata : n ≤ data.length) :
    wp (serial checksum mayRefuse) False (fun r s' =>
        r.1 ≠ nsapiErrorOk ∧
          (mayRefuse ⟨"AT+QFUPL=\"%s\",%u", [.str name, .int n]⟩ ∨ ¬ Quotable name) ∨
        Quotable name ∧ r = (nsapiErrorOk, (n : Int)) ∧ Uploaded s' name (data.take n))
      (fsUploadFile name data n) s := by
  refine wp_mono (fsUploadFile_stores hrest h0 hn hdata) ?_
  rintro r s' (⟨hne, hwhy, -⟩ | ⟨hq, hr, rfl⟩)
  · exact .inl ⟨hne, hwhy⟩
  · exact .inr ⟨hq, hr, rfl, Function.update_self ..⟩

/-- A name that the pattern of `BG96::fs_file_size` reads, and that fits in `dummy[80]`. The pattern
reads 80 characters as well, for which the array has no room. -/
def Fits (name : String) : Prop := bytes name ≠ [] ∧ (bytes name).length < 80

instance (name : String) : Decidable (Fits name) :=
  inferInstanceAs (Decidable (bytes name ≠ [] ∧ (bytes name).length < 80))

/-- The number that the first digit of a number stands for. -/
def firstDigit (n : Nat) : Nat := valueOf 10 ((numeral 10 n).take 1)

/-- A number in decimal: its first digit, and the others. -/
theorem numeral_cons (n : Nat) : ∃ b ns, numeral 10 n = b :: ns ∧ isDigit 10 b = true ∧
    (∀ c ∈ ns, isDigit 10 c = true) ∧ valueOf 10 [b] = firstDigit n := by
  have hns : ∀ b ∈ numeral 10 n, isDigit 10 b = true :=
    isDigit_numeral (by decide) (by decide) n
  obtain ⟨b, ns, hn⟩ := List.exists_cons_of_ne_nil (numeral_ne_nil 10 n)
  rw [hn] at hns
  obtain ⟨hb, hns⟩ := List.forall_mem_cons.mp hns
  exact ⟨b, ns, hn, hb, hns, by rw [firstDigit, hn]; rfl⟩

theorem firstDigit_lt (n : Nat) : firstDigit n < 10 := by
  obtain ⟨b, _, _, hb, _, hvalue⟩ := numeral_cons n
  obtain ⟨d, hd⟩ := Option.isSome_iff_exists.mp hb
  have hlt := digit_lt hd
  rw [← hvalue]
  simpa [valueOf, hd] using hlt

theorem firstDigit_of_lt {n : Nat} (h : n < 10) : firstDigit n = n := by
  rw [firstDigit, numeral_of_lt h, List.take_one]
  have hvalue : valueOf 10 (numeral 10 n) = n := valueOf_numeral (by decide) (by decide) n
  simpa [numeral_of_lt h] using hvalue

theorem firstDigit_ne_zero {n : Nat} (h : n ≠ 0) : firstDigit n ≠ 0 := by
  have hne : Nat.digits 10 n ≠ [] := Nat.digits_ne_nil_iff_ne_zero.mpr h
  have hlast := Nat.getLast_digit_ne_zero 10 h
  have hlt : (Nat.digits 10 n).getLast hne < 10 :=
    Nat.digits_lt_base (by decide) (List.getLast_mem hne)
  have hsplit := List.dropLast_append_getLast hne
  generalize (Nat.digits 10 n).getLast hne = d at hlast hlt hsplit
  have hdigit : firstDigit n = d := by
    rw [firstDigit, numeral, if_neg h, ← hsplit]
    simp [valueOf, digit_digitByte (by decide) hlt]
  rwa [hdigit]

/-- The line that lists a file, up to the size. -/
def listed (name : String) : List UInt8 := bytes "+QFLST: \"" ++ bytes name ++ bytes "\","

/-- The pattern of `BG96::fs_file_size`. -/
def qflst : Format := ⟨"+QFLST: \"%80[^\"]\",%u", []⟩

theorem format_qflst : format qflst.text = .lit 43 :: ((bytes "QFLST:").map .lit ++
    [.space, .lit 34, .set (some 80) [34], .lit 34, .lit 44, .number false 10 32]) := by decide

theorem listed_eq (name : String) : listed name =
    43 :: (bytes "QFLST:" ++ (32 :: 34 :: (bytes name ++ 34 :: [44]))) := by
  rw [listed, show bytes "+QFLST: \"" = 43 :: (bytes "QFLST:" ++ [32, 34]) by decide,
    show bytes "\"," = [34, 44] by decide]
  simp

theorem lf_not_mem_listed (hq : Quotable name) : lf ∉ listed name := by
  rw [listed_eq]
  have h := hq.2.1
  simp only [List.mem_append, List.mem_cons, not_or]
  exact ⟨by decide, by decide, by decide, by decide, h, by decide, by decide, by simp⟩

/-- A conversion at the end of a pattern gives the first digit. -/
theorem first_firstDigit (signed : Bool) {b : UInt8} (hb : isDigit 10 b = true)
    (hvalue : valueOf 10 [b] = firstDigit n) :
    First [.number signed 10 32] [b] [.number (firstDigit n)] := by
  have hfirst := First.digit signed 32 hb
  have hlt := firstDigit_lt n
  have hstored : (if signed then (valueOf 10 [b] : Int) else (valueOf 10 [b] : Int) % 2 ^ 32) =
      firstDigit n := by
    rw [hvalue]
    split
    · rfl
    · omega
  rwa [hstored] at hfirst

/-- `recv` returns after the first digit of the size. -/
theorem received_listed (hq : Quotable name) (hne : bytes name ≠ [])
    (hlen : (bytes name).length ≤ 80) (hunread : 43 ∉ unread) (n : Nat) :
    ∃ ns, (∀ c ∈ ns, isDigit 10 c = true) ∧
      received qflst (unread ++ (crlf ++ listed name ++ numeral 10 n ++ crlf ++ okLine)) =
        (some [.str name, .int (firstDigit n)], ns ++ crlf ++ okLine) := by
  obtain ⟨b, ns, hn, hb, hns, hvalue⟩ := numeral_cons n
  have hfirst : First (format qflst.text) (listed name ++ [b])
      [.text (bytes name), .number (firstDigit n)] := by
    have hcomma := (first_firstDigit false hb hvalue).lit (b := 44)
    have hstop : ∀ c ∈ bytes name, c ∉ [(34 : UInt8)] := fun c hc => by
      simpa using fun heq : c = 34 => hq.1 (heq ▸ hc)
    have hset := First.set (hcomma.lit (b := 34)) (List.mem_singleton.mpr rfl) hne hlen hstop
    have hquote := hset.lit (b := 34)
    rw [format_qflst, listed_eq]
    simpa using ((hquote.space rfl).lits (bytes "QFLST:")).lit (b := 43)
  have hlf : lf ∉ listed name ++ [b] := by
    have h48 := isDigit_le hb
    simp only [List.mem_append, List.mem_singleton, not_or]
    refine ⟨lf_not_mem_listed hq, ?_⟩
    rintro rfl
    exact absurd h48 (by decide)
  have hline : unread ++ (crlf ++ listed name ++ numeral 10 n ++ crlf ++ okLine) =
      unread ++ (crlf ++ ((listed name ++ [b]) ++ (ns ++ crlf ++ okLine))) := by
    simp [hn]
  have hread := read_first hfirst (ns ++ crlf ++ okLine) (by simp) hlf
  refine ⟨ns, hns, ?_⟩
  rw [received, decide_eq_false (by decide), hline, ← fieldValue_text]
  rw [format_qflst] at hread ⊢
  rw [read_skip (by decide) (by decide) hunread, hread]
  rfl

/-- A name that is empty or too long for the pattern is never read. -/
theorem received_unlisted (hq : Quotable name)
    (hname : bytes name = [] ∨ 80 < (bytes name).length) (n : Nat) (hunread : 43 ∉ unread) :
    received qflst (unread ++ (crlf ++ listed name ++ numeral 10 n ++ crlf ++ okLine)) =
      (none, []) := by
  let line := listed name ++ numeral 10 n ++ [cr]
  have hlf : lf ∉ line := by
    simp only [line, List.mem_append, List.mem_singleton, not_or]
    exact ⟨⟨lf_not_mem_listed hq, not_mem_numeral (by decide) (by decide) (by decide) n⟩, by decide⟩
  have hnever : Never (format qflst.text) (line ++ [lf]) := by
    have hset := Never.set [.lit 44, .number false 10 32] (l := 44 :: (numeral 10 n ++ crlf))
      hname hq.1
    rw [format_qflst]
    simp only [line, listed_eq]
    simpa [crlf] using (((hset.lit (b := 34)).space rfl).lits (bytes "QFLST:")).lit (b := 43)
  have hline : unread ++ (crlf ++ listed name ++ numeral 10 n ++ crlf ++ okLine) =
      unread ++ (crlf ++ (line ++ lf :: okLine)) := by
    simp [line, crlf]
  rw [received, decide_eq_false (by decide), hline]
  have hread := read_never hnever hlf okLine
  rw [format_qflst] at hread ⊢
  rw [read_skip (by decide) (by decide) hunread, hread, read_none List.not_mem_nil (by decide)]
  rfl

/-- The `OK` after a number whose last digits are unread. -/
theorem received_ok_digits {ns : List UInt8} (hns : ∀ b ∈ ns, isDigit 10 b = true) :
    received okFormat (ns ++ crlf ++ okLine) = (some [], crlf) := by
  have h79 : 79 ∉ ns ++ crlf ++ [cr] := by
    have hnot : isDigit 10 79 = false := by decide
    simp only [List.mem_append, not_or]
    exact ⟨⟨fun hmem => by simp [hns 79 hmem] at hnot, by decide⟩, by decide⟩
  simpa [okLine, answerLine, crlf] using received_ok h79 crlf

/-! ### Listing -/

theorem answer_qflst (hfile : s.files name = some content) :
    s.answer checksum ⟨"AT+QFLST=\"%s\"", [.str name]⟩ =
      s.tell (crlf ++ listed name ++ numeral 10 content.length ++ crlf ++ okLine) := by
  rw [Storage.answer, hfile]
  simp [answerLine, listed]

/-- The arrays of `BG96::fs_file_size`: the name is stored in `dummy[80]`. -/
theorem fit_dummy {n : Int} :
    fit [(0, 80)] [.str name, .int n] = true ↔ (bytes name).length < 80 := by
  simp [fit, strAt, bytes]

/-- `BG96::fs_file_size`: the module lists the file, and `received` reads the line. -/
theorem wp_fsFileSize {Q : Int × Option Int → Storage → Prop}
    (hmay : ¬ mayRefuse ⟨"AT+QFLST=\"%s\"", [.str name]⟩) (hfile : s.files name = some content)
    {vs : Option (List Value)} {unread : List UInt8}
    (hrecv : received qflst (s.unread ++ (crlf ++ listed name ++ numeral 10 content.length ++
      crlf ++ okLine)) = (vs, unread))
    (h : vs.elim (Q (nsapiErrorDeviceError, none) { s with unread := unread }) fun vs =>
      if fit [(0, 80)] vs then (received okFormat unread).1.isSome ∧
        Q (nsapiErrorOk, some (intAt vs 1)) { s with unread := (received okFormat unread).2 }
      else T) :
    wp (serial checksum mayRefuse) T Q (fsFileSize name) s := by
  show wp _ _ _ (locked _ >>= _) _
  rw [wp_bind]
  refine wp_serial_locked (wp_serial_timed ?_)
  rintro _ s' ⟨rfl, hs'⟩
  obtain rfl := (hs'.eq_answer hmay).trans (answer_qflst hfile)
  rintro r s' ⟨hr, hs'⟩
  change r = (received qflst (s.unread ++ _)).1 at hr
  change s' = Storage.mk (received qflst (s.unread ++ _)).2 _ _ _ at hs'
  rw [hrecv] at hr hs'
  obtain rfl : r = vs := hr
  subst hs'
  cases r with
  | none => exact h
  | some vs =>
    show wp _ _ _ ((if fit [(0, 80)] vs = true then pure (some vs) else .stop) >>= _) _
    rw [Option.elim_some] at h
    split at h
    · rw [if_pos ‹_›]
      rintro _ _ ⟨rfl, rfl⟩
      show wp _ _ _ (if (received okFormat unread).1.isSome then _ else _) _
      rw [if_pos h.1]
      exact h.2
    · rw [if_neg ‹_›]
      exact h

/-- `BG96::fs_file_size` gives what the first digit says. -/
theorem fsFileSize_fits {Q : Int × Option Int → Storage → Prop}
    (hmay : ¬ mayRefuse ⟨"AT+QFLST=\"%s\"", [.str name]⟩) (hq : Quotable name)
    (hfits : Fits name) (hrest : AtRest s.unread) (hfile : s.files name = some content)
    (h : Q (nsapiErrorOk, some (firstDigit content.length : Int)) { s with unread := crlf }) :
    wp (serial checksum mayRefuse) T Q (fsFileSize name) s := by
  have hunread := hrest.not_mem (b := 43) (by decide) (by decide)
  obtain ⟨ns, hns, hlisted⟩ := received_listed hq hfits.1 hfits.2.le hunread content.length
  refine wp_fsFileSize hmay hfile hlisted ?_
  rw [Option.elim_some, if_pos (fit_dummy.mpr hfits.2), received_ok_digits hns]
  exact ⟨rfl, h⟩

/-- `BG96::fs_file_size` fails for a name that the pattern does not read. For one that does not fit
in its array, nothing is known of what it does. -/
theorem fsFileSize_unfit {Q : Int × Option Int → Storage → Prop}
    (hmay : ¬ mayRefuse ⟨"AT+QFLST=\"%s\"", [.str name]⟩) (hq : Quotable name)
    (hfits : ¬ Fits name) (hrest : AtRest s.unread) (hfile : s.files name = some content) (hT : T)
    (h : Q (nsapiErrorDeviceError, none) { s with unread := [] }) :
    wp (serial checksum mayRefuse) T Q (fsFileSize name) s := by
  have hunread := hrest.not_mem (b := 43) (by decide) (by decide)
  by_cases hname : bytes name = [] ∨ 80 < (bytes name).length
  · exact wp_fsFileSize hmay hfile (received_unlisted hq hname content.length hunread) h
  · -- the name has 80 bytes
    rw [not_or, not_lt] at hname
    obtain ⟨ns, -, hlisted⟩ := received_listed hq hname.1 hname.2 hunread content.length
    refine wp_fsFileSize hmay hfile hlisted ?_
    rw [Option.elim_some, if_neg (fun hfit => hfits ⟨hname.1, fit_dummy.mp hfit⟩)]
    exact hT

/-! ### Fetching -/

/-- Bytes that repeat what comes before them are all from it. -/
theorem mem_of_take {w l : List UInt8} (hw : w ≠ []) (h : (w ++ l).take l.length = l) :
    ∀ b ∈ l, b ∈ w := by
  have hget : ∀ (i : Nat) (b : UInt8), l[i]? = some b → b ∈ w := by
    intro i
    induction i using Nat.strongRecOn with
    | ind i ih =>
      intro b hb
      have hi : i < l.length := (List.getElem?_eq_some_iff.mp hb).1
      have heq := congrArg (fun m : List UInt8 => m[i]?) h
      simp only [List.getElem?_take, if_pos hi, hb, List.getElem?_append] at heq
      split at heq
      · exact List.mem_of_getElem? heq
      · have hpos := List.length_pos_iff.mpr hw
        exact ih _ (by omega) b heq
  intro b hb
  obtain ⟨i, hi⟩ := List.getElem?_of_mem hb
  exact hget i b hi

/-- `BG96::fs_download_file` gives its size back, if it succeeds. -/
theorem fsDownloadFile_size {S : Type} {E : Env S Call Call.Reply} (name : String) (size : Nat)
    (s : S) : wp E T (fun r _ => r.1 = nsapiErrorOk → r.2.1 = (size : Int))
      (fsDownloadFile name size) s := by
  have hfail : nsapiErrorDeviceError ≠ nsapiErrorOk := by decide
  rintro - _ - - _ - (_ | _) _ -
  · exact fun _ _ _ _ _ _ h => absurd h hfail
  · rintro (_ | vs) _ -
    · exact fun _ _ _ _ _ _ h => absurd h hfail
    · show wp _ _ _ (((getBytes size >>= _) >>= _) >>= _) _
      rw [Prog.bind_assoc, Prog.bind_assoc, wp_bind]
      refine (only_getBytes (P := fun _ => True) trivial size).returns (fun data t => ?_) _
      rintro - _ - (_ | vs) _ -
      · exact fun _ _ _ _ _ _ h => absurd h hfail
      · show wp _ _ _ ((if intAt vs 0 = size then _ else _) >>= _) _
        split
        · exact fun _ _ _ _ _ _ _ => rfl
        · exact fun _ _ _ _ _ _ h => absurd h hfail

theorem answer_qfdwl (hfile : s.files name = some content) :
    s.answer checksum ⟨"AT+QFDWL=\"%s\"", [.str name]⟩ =
      s.tell (connectLine [] ++ content ++
        answerLine (bytes "+QFDWL: " ++ sizeAndChecksum checksum content) ++ okLine) := by
  rw [Storage.answer, hfile]

/-- `BG96::fs_download_file` begins with the end of the line `CONNECT`. It succeeds if what is left
of the file does not hide the line after it. -/
theorem fsDownloadFile_spec {size : Nat} (hmay : ¬ mayRefuse ⟨"AT+QFDWL=\"%s\"", [.str name]⟩)
    (hrest : AtRest s.unread) (hfile : s.files name = some content)
    (hsize : size ≤ content.length) :
    wp (serial checksum mayRefuse) T (fun r _ => r.2.2.2 = (crlf ++ content).take size ∧
        (r.1 = nsapiErrorOk → r.2.1 = (size : Int)) ∧
        (size = content.length → size < 2 ^ 32 → (crlf ++ content).take size = content →
          r.1 = nsapiErrorOk))
      (fsDownloadFile name size) s := by
  refine wp_serial_locked (wp_serial_timed ?_)
  show wp _ _ _ (connectData _ >>= _) _
  rw [wp_bind]
  refine wp_connectData hrest (show "AT+QFDWL=\"%s\"" ∈ fileCommands by decide) ?_
    fun h => absurd h hmay
  let tail := answerLine (bytes "+QFDWL: " ++ sizeAndChecksum checksum content) ++ okLine
  refine .inr ⟨crlf ++ content ++ tail, ?_, ?_⟩
  · rw [answer_qfdwl hfile]
    simp [Storage.tell, connectLine, tail]
  · show wp _ _ _ (getBytes size >>= _) _
    rw [wp_bind]
    have hlen : ((crlf ++ content).take size).length = size :=
      List.length_take_of_le (by rw [List.length_append]; omega)
    have hunread : crlf ++ content ++ tail =
        (crlf ++ content).take size ++ ((crlf ++ content).drop size ++ tail) := by
      rw [← List.append_assoc (List.take _ _), List.take_append_drop]
    refine wp_getBytes_of_le hunread hlen ?_
    rintro _ _ rfl vs _ ⟨hvs, rfl⟩
    replace hvs :
        vs = (received ⟨"+QFDWL: %u,%hX\r\n", []⟩ ((crlf ++ content).drop size ++ tail)).1 := hvs
    have hrecv (hcontent : (crlf ++ content).take content.length = content) :
        received ⟨"+QFDWL: %u,%hX\r\n", []⟩ ((crlf ++ content).drop size ++ tail) =
          (some [.int ((content.length : Int) % 2 ^ 32), .int ((checksum content : Int) % 2 ^ 16)],
            okLine) := by
      refine received_qfdwl checksum content (fun h43 => ?_) okLine
      rcases List.mem_append.mp (List.mem_of_mem_drop h43) with h | h
      · exact absurd h (by decide)
      · exact absurd (mem_of_take (show crlf ≠ [] by decide) hcontent 43 h) (by decide)
    have hfail : nsapiErrorDeviceError ≠ nsapiErrorOk := by decide
    cases vs with
    | none =>
      refine ⟨rfl, fun h => absurd h hfail, fun hsize _ hcontent => ?_⟩
      rw [hrecv (hsize ▸ hcontent)] at hvs
      cases hvs
    | some vs =>
      show wp _ _ _ (if intAt vs 0 = size then _ else _) _
      by_cases hint : intAt vs 0 = size
      · rw [if_pos hint]
        exact ⟨rfl, fun _ => rfl, fun _ _ _ => rfl⟩
      · rw [if_neg hint]
        refine ⟨rfl, fun h => absurd h hfail, fun hsize hlt hcontent => absurd ?_ hint⟩
        rw [hrecv (hsize ▸ hcontent)] at hvs
        cases hvs
        show (content.length : Int) % 2 ^ 32 = size
        omega

/-! ### Open files -/

/-- The bytes of the file of a handle. -/
def Storage.bytesOf (s : Storage) (h : Handle) : List UInt8 := (s.files h.name).getD []

/-- The `OK` after the line that reports a write. -/
theorem received_written (m n : Nat) :
    received okFormat (crlf ++ (answerLine (bytes "+QFWRITE: " ++ numeral 10 m ++ bytes "," ++
      numeral 10 n) ++ okLine)) = (some [], crlf) := by
  have h79 (n : Nat) : 79 ∉ numeral 10 n :=
    not_mem_numeral (by decide) (by decide) (by decide) n
  have hl : 79 ∉ crlf ++ answerLine (bytes "+QFWRITE: " ++ numeral 10 m ++ bytes "," ++
      numeral 10 n) ++ [cr] := by
    simp only [answerLine, List.mem_append, not_or]
    refine ⟨⟨by decide, ⟨by decide, ⟨⟨by decide, h79 m⟩, by decide⟩, h79 n⟩, by decide⟩, by decide⟩
  simpa [okLine, answerLine, crlf] using received_ok hl crlf

/-- The module has stored the bytes at the position of the handle. -/
def Storage.written (s : Storage) (fh : Int) (h : Handle) (data : List UInt8) : Storage :=
  { s with
    unread := crlf
    files := Function.update s.files h.name (some (overwrite (s.bytesOf h) h.pos data))
    handles := Function.update s.handles fh (some { h with pos := h.pos + data.length })
    incoming := none }

/-- `BG96::fs_write`: the module stores the bytes, or refuses. -/
theorem fsWrite_stores {fh : Int} {h : Handle} (hrest : AtRest s.unread)
    (hopen : s.handles fh = some h) (h0 : 0 < n) (hn : n < 2 ^ 32) (hdata : n ≤ data.length) :
    wp (serial checksum mayRefuse) False (fun rc s' =>
        rc ≠ nsapiErrorOk ∧ mayRefuse ⟨"AT+QFWRITE=%ld, %u", [.int fh, .int n]⟩ ∧
          s' = { s with unread := [] } ∨
        rc = nsapiErrorOk ∧ s' = s.written fh h (data.take n))
      (fsWrite fh n data) s := by
  have hfail : nsapiErrorDeviceError ≠ nsapiErrorOk := by decide
  refine wp_serial_locked (wp_serial_timed ?_)
  show wp _ _ _ (connectData _ >>= _) _
  rw [wp_bind]
  refine wp_connectData hrest (show "AT+QFWRITE=%ld, %u" ∈ fileCommands by decide) ?_
    fun hmay => .inl ⟨hfail, hmay, rfl⟩
  have hanswer : s.answer checksum ⟨"AT+QFWRITE=%ld, %u", [.int fh, .int n]⟩ =
      { s.tell (connectLine []) with incoming := some (.write fh, n, []) } := by
    rw [Storage.answer, hopen]
    dsimp only
    rw [Storage.take, if_neg (by simpa using (Nat.ne_of_lt h0))]
    rfl
  rw [hanswer]
  refine .inr ⟨crlf, (List.append_assoc ..).symm, ?_⟩
  show wp _ _ _ (putBytes 32 n 0 data >>= _) _
  rw [wp_bind]
  show wp _ _ _ (putBytes 32 n ([] : List UInt8).length data)
    { { s with unread := crlf } with incoming := some (.write fh, n, []) }
  refine wp_putBytes hn h0 (by simpa using hdata) ?_
  let bs := data.take n
  have hstore : Storage.store checksum { s with unread := crlf } (.write fh)
      ([] ++ data.take (n - 0)) =
      (s.written fh h bs).tell (answerLine (bytes "+QFWRITE: " ++ numeral 10 bs.length ++
        bytes "," ++ numeral 10 (overwrite (s.bytesOf h) h.pos bs).length) ++ okLine) := by
    rw [List.nil_append, Nat.sub_zero]
    rw [Storage.store]
    dsimp only
    rw [hopen]
    rfl
  show wp _ _ _ _ (Storage.store checksum { s with unread := crlf } (.write fh)
      ([] ++ data.take (n - 0)))
  rw [hstore]
  rintro _ _ ⟨rfl, rfl⟩
  show wp _ _ _
    (if (received okFormat (crlf ++ (answerLine (_ ++ bytes "," ++ _) ++ okLine))).1.isSome
      then _ else _) (Storage.mk (received okFormat (crlf ++ (answerLine _ ++ okLine))).2 _ _ _)
  rw [received_written]
  exact .inr ⟨rfl, rfl⟩

/-- `BG96::fs_write` of all the data. It succeeds if the module does not refuse. -/
theorem fsWrite_spec {fh : Int} {h : Handle} (hrest : AtRest s.unread)
    (hopen : s.handles fh = some h) (h0 : 0 < data.length) (hn : data.length < 2 ^ 32) :
    wp (serial checksum mayRefuse) False (fun rc s' =>
        rc ≠ nsapiErrorOk ∧ mayRefuse ⟨"AT+QFWRITE=%ld, %u", [.int fh, .int data.length]⟩ ∨
        rc = nsapiErrorOk ∧ s' = s.written fh h data)
      (fsWrite fh data.length data) s := by
  refine wp_mono (fsWrite_stores hrest hopen h0 hn (le_refl _)) ?_
  rintro rc s' (⟨hne, hmay, -⟩ | ⟨hrc, hs'⟩)
  · exact .inl ⟨hne, hmay⟩
  · rw [List.take_length] at hs'
    exact .inr ⟨hrc, hs'⟩

/-- The module has moved the handle. -/
def Storage.sought (s : Storage) (fh : Int) (h : Handle) (offset : Nat) (position : Int) :
    Storage :=
  { s with
    unread := crlf
    handles := Function.update s.handles fh
      (some { h with pos := seekTo (s.bytesOf h) h.pos offset position }) }

/-- `BG96::fs_seek` succeeds if the module does not refuse. -/
theorem fsSeek_spec {fh position : Int} {offset : Nat} {h : Handle} (hrest : AtRest s.unread)
    (hopen : s.handles fh = some h) :
    wp (serial checksum mayRefuse) T (fun rc s' =>
        rc ≠ nsapiErrorOk ∧
          mayRefuse ⟨"AT+QFSEEK=%ld,%u,%d", [.int fh, .int offset, .int position]⟩ ∨
        rc = nsapiErrorOk ∧ s' = s.sought fh h offset position)
      (fsSeek fh offset position) s := by
  show wp _ _ _ (locked _ >>= _) _
  rw [wp_bind]
  refine wp_serial_locked ?_
  have hanswer : s.answer checksum ⟨"AT+QFSEEK=%ld,%u,%d",
      [.int fh, .int offset, .int position]⟩ =
      { s.sought fh h offset position with unread := s.unread ++ okLine } := by
    rw [Storage.answer, hopen]
    rfl
  have hok : received okFormat (s.unread ++ okLine) = (some [], crlf) := by
    rcases hrest with h | h <;> rw [h] <;> decide
  have herror : received okFormat (s.unread ++ errorLine) = (none, []) := by
    rcases hrest with h | h <;> rw [h] <;> decide
  rintro _ s' ⟨rfl, hs'⟩ _ _ ⟨rfl, rfl⟩
  rcases hs' with rfl | ⟨hm, rfl | ⟨hnot, -⟩⟩
  · rw [hanswer]
    show wp _ _ _ (.ret (received okFormat (s.unread ++ okLine)).1.isSome)
      (Storage.mk (received okFormat (s.unread ++ okLine)).2 _ _ _)
    rw [hok]
    exact .inr ⟨rfl, rfl⟩
  · show wp _ _ _ (.ret (received okFormat (s.unread ++ errorLine)).1.isSome)
      (Storage.mk (received okFormat (s.unread ++ errorLine)).2 _ _ _)
    rw [herror]
    exact .inl ⟨by decide, hm⟩
  · exact absurd (show "AT+QFSEEK=%ld,%u,%d" ∈ fileCommands by decide) hnot

/-- What is left of the line `CONNECT` before the bytes of a read. -/
def header (size : Nat) : List UInt8 := bytes " " ++ numeral 10 size ++ crlf

/-- The bytes that a read gives. -/
def Storage.bytesAt (s : Storage) (h : Handle) (length : Nat) : List UInt8 :=
  ((s.bytesOf h).drop h.pos).take length

/-- What `BG96::fs_read` finds after `CONNECT`. -/
def readStream (bs : List UInt8) : List UInt8 :=
  header bs.length ++ bs ++ crlf ++ bytes "OK" ++ crlf

/-- After so many bytes, the `OK` is still to come if and only if it has not begun. -/
theorem received_readStream (bs : List UInt8) (length : Nat) :
    (received okFormat ((readStream bs).drop length)).1.isSome ↔
      length ≤ (header bs.length).length + bs.length + 2 := by
  let line := header bs.length ++ bs ++ [cr]
  have hline : line.length = (header bs.length).length + bs.length + 1 := by
    simp [line]
    omega
  have hstream : readStream bs = line ++ lf :: (bytes "OK" ++ crlf) := by
    simp [readStream, line, crlf]
  rw [hstream]
  rcases Nat.lt_trichotomy length (line.length + 1) with hlt | heq | hgt
  · -- a line is cut, and `OK` begins the line after it, or has come before
    rw [List.drop_append_of_le_length (by omega)]
    exact iff_of_true (received_ok_isSome (line.drop length) crlf) (by omega)
  · -- `OK` is next
    have hdrop : (line ++ lf :: (bytes "OK" ++ crlf)).drop length = bytes "OK" ++ crlf := by
      rw [heq, List.drop_append]
      simp
    rw [hdrop]
    exact iff_of_true (by decide) (by omega)
  · -- its first byte is gone
    have hdrop : (line ++ lf :: (bytes "OK" ++ crlf)).drop length =
        ([75, 13, 10] : List UInt8).drop (length - (line.length + 2)) := by
      obtain ⟨k, rfl⟩ : ∃ k, length = line.length + 2 + k := ⟨length - (line.length + 2), by omega⟩
      have hk : line.length + 2 + k - line.length = k + 2 := by omega
      have hk' : line.length + 2 + k - (line.length + 2) = k := by omega
      rw [List.drop_append, List.drop_of_length_le (by omega), List.nil_append, hk, hk',
        show bytes "OK" = [79, 75] by decide]
      rfl
    have h79 : 79 ∉ (line ++ lf :: (bytes "OK" ++ crlf)).drop length := fun hmem => by
      rw [hdrop] at hmem
      exact absurd (List.mem_of_mem_drop hmem) (by decide)
    rw [received_none [.lit 75] (by decide) h79]
    exact iff_of_false (by rintro ⟨⟩) (by omega)

/-- The module has read from the handle, and the driver has waited for `OK`. -/
def Storage.hasRead (s : Storage) (fh : Int) (h : Handle) (length : Nat) : Storage :=
  { s with
    unread := (received okFormat ((readStream (s.bytesAt h length)).drop length)).2
    handles := Function.update s.handles fh
      (some { h with pos := h.pos + (s.bytesAt h length).length }) }

/-- `BG96::fs_read`: it takes its bytes from the stream after `CONNECT`, and succeeds if `OK` is
still to come. -/
theorem fsRead_gives {fh : Int} {h : Handle} {length : Nat} (hrest : AtRest s.unread)
    (hopen : s.handles fh = some h) :
    wp (serial checksum mayRefuse) T (fun r s' =>
        r = (nsapiErrorDeviceError, []) ∧
          mayRefuse ⟨"AT+QFREAD=%ld, %u", [.int fh, .int length]⟩ ∧ s' = { s with unread := [] } ∨
        (r.1 = nsapiErrorOk ↔
          length ≤ (header (s.bytesAt h length).length).length + (s.bytesAt h length).length + 2) ∧
          r.2 = (readStream (s.bytesAt h length)).take length ++
            List.replicate (length - (readStream (s.bytesAt h length)).length) 255 ∧
          s' = s.hasRead fh h length)
      (fsRead fh length) s := by
  have hfail : nsapiErrorDeviceError ≠ nsapiErrorOk := by decide
  refine wp_serial_locked (wp_serial_timed ?_)
  show wp _ _ _ (connectData _ >>= _) _
  rw [wp_bind]
  refine wp_connectData hrest (show "AT+QFREAD=%ld, %u" ∈ fileCommands by decide) ?_
    fun hmay => .inl ⟨rfl, hmay, rfl⟩
  have hanswer : s.answer checksum ⟨"AT+QFREAD=%ld, %u", [.int fh, .int length]⟩ =
      { s.hasRead fh h length with
        unread := s.unread ++ bytes "CONNECT" ++ readStream (s.bytesAt h length) } := by
    rw [Storage.answer, hopen]
    simp [Storage.tell, connectLine, readStream, header, Storage.bytesAt, Storage.bytesOf,
      Storage.hasRead]
  refine .inr ⟨_, by rw [hanswer], ?_⟩
  rw [hanswer]
  show wp _ _ _ (getBytes length >>= _) _
  rw [wp_bind]
  refine wp_getBytes ?_
  rintro _ _ ⟨rfl, rfl⟩
  show wp _ _ _
    (if (received okFormat ((readStream (s.bytesAt h length)).drop length)).1.isSome
      then _ else _) _
  split
  · exact .inr ⟨iff_of_true rfl ((received_readStream _ _).mp ‹_›), rfl, rfl⟩
  · exact .inr ⟨iff_of_false hfail fun h => ‹¬ _› ((received_readStream _ _).mpr h), rfl, rfl⟩

/-- The result of `BG96::fs_read` and its bytes. -/
theorem fsRead_spec {fh : Int} {h : Handle} {length : Nat} (hrest : AtRest s.unread)
    (hopen : s.handles fh = some h) :
    wp (serial checksum mayRefuse) T (fun r _ =>
        r.1 ≠ nsapiErrorOk ∧ mayRefuse ⟨"AT+QFREAD=%ld, %u", [.int fh, .int length]⟩ ∨
        (r.1 = nsapiErrorOk ↔
          length ≤ (header (s.bytesAt h length).length).length + (s.bytesAt h length).length + 2) ∧
          r.2 = (readStream (s.bytesAt h length)).take length ++
            List.replicate (length - (readStream (s.bytesAt h length)).length) 255)
      (fsRead fh length) s := by
  refine wp_mono (fsRead_gives hrest hopen) ?_
  rintro r s' (⟨rfl, hmay, -⟩ | ⟨hiff, hdata, -⟩)
  · exact .inl ⟨by decide, hmay⟩
  · exact .inr ⟨hiff, hdata⟩

end Bg96.Modem
