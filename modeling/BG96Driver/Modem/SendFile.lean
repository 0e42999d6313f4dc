import BG96Driver.Modem.Lines
import BG96Driver.Modem.Uploading
import Mathlib.Logic.Function.Basic

/-!
# The success of `send_file`

`send_file` does not compare the size in `+QFUPL` with the one that it has sent, and it takes a file
that is not listed for one that is not there. What it has printed is the format of a `send`, so a
name with a `%` becomes another one.

* `FileCommand`, `fileCommand`: the commands on files, as the module reads them from a line.
* `Store`, `filing`: the file store of the module. It lists only files that it has, and carries a
  command out or refuses it; its reports are arbitrary.
* `SentFile`: what the result is to mean. `Checked`: the reports that make it so.
* `send_file_iff`: the result means that if and only if the reported size is the one that was sent
  and a file that was there was listed, or the file that was there is kept as it was.
-/

namespace Bg96.Modem

open Program
open Printf (Arg percent)
open Scanf (bytes)
open StringCommand (Plain)

/-! ## The commands on files -/

/-- A command on a file. -/
inductive FileCommand where
  | list
  | delete
  | upload
  deriving DecidableEq

namespace FileCommand

/-- The format of the command. -/
def text : FileCommand → String
  | list => "AT+QFLST=\"%s\""
  | delete => "AT+QFDEL=\"%s\""
  | upload => "AT+QFUPL=\"%s\",%d"

/-- The command on a file of the name, with the size of an upload. -/
def format (filename : String) (size : Nat) : FileCommand → Format
  | upload => ⟨upload.text, [.str filename, .int size]⟩
  | c => ⟨c.text, [.str filename]⟩

/-- What the line of a command begins with. -/
def head (c : FileCommand) : List UInt8 := (bytes c.text).take 9

variable {c c' : FileCommand} {filename : String} {size : Nat} {line name : List UInt8}
  {args : List Arg}

theorem readable : (c.format filename size).Readable := by
  cases c <;> exact ⟨rfl, rfl, of_decide_eq_true rfl, of_decide_eq_true rfl⟩

theorem text_format : (c.format filename size).text = c.text := by
  cases c <;> rfl

theorem str_mem : .str name ∈ (c.format filename size).printfArgs ↔ name = bytes filename := by
  cases c <;> simp [format, Format.printfArgs, Value.arg]

theorem head_directives : c.head.map .lit <+: directivesOf c.text := by
  cases c <;> decide

theorem head_of_readLine (h : readLine c.text line = some args) : c.head <+: line :=
  Printf.prefix_of_read (Option.ite_none_left_eq_some.mp h).2 head_directives

/-- The line of a command is not that of another one. -/
theorem eq_of_head (h : c.head <+: line) (h' : c'.head <+: line) : c = c' := by
  have hlen : c.head.length = c'.head.length := by cases c <;> cases c' <;> rfl
  have heq : c.head = c'.head := (List.prefix_of_prefix_length_le h h' hlen.le).eq_of_length hlen
  revert heq
  cases c <;> cases c' <;> decide

theorem head_resent (h : (c.format filename size).resent = some line) : c.head <+: line := by
  have hf : (c.format filename size).Readable := readable
  obtain ⟨printed, hprints, hprinted⟩ := hf.exists_printed
  rw [Format.resent, hprinted, Option.bind_some] at h
  obtain ⟨args, -, hline⟩ := hprints.unescapes (Printf.unescapes_of_printf h)
    hf.layout.percent_not_mem hf.layout.delimited (by decide)
  rw [text_format] at hline
  exact hline.begins head_directives

end FileCommand

/-- The command on a file that the module reads from a line. -/
def fileCommand (line : List UInt8) : Option (FileCommand × List UInt8) :=
  [.list, .delete, .upload].findSome? fun c : FileCommand =>
    match readLine c.text line with
    | some (.str name :: _) => some (c, name)
    | _ => none

section FileCommand

variable {c c' : FileCommand} {filename : String} {size : Nat} {line name : List UInt8}

theorem readLine_of_fileCommand (h : fileCommand line = some (c, name)) :
    ∃ args, readLine c.text line = some (.str name :: args) := by
  obtain ⟨c', -, h⟩ := List.exists_of_findSome?_eq_some h
  split at h
  · rename_i name' args hread
    cases h
    exact ⟨args, hread⟩
  · cases h

theorem fileCommand_of_readLine {args : List Arg}
    (h : readLine c.text line = some (.str name :: args)) :
    fileCommand line = some (c, name) := by
  have hother (c' : FileCommand) (hne : c' ≠ c) : readLine c'.text line = none := by
    rw [← Option.not_isSome_iff_eq_none]
    intro hsome
    obtain ⟨args', hread⟩ := Option.isSome_iff_exists.mp hsome
    exact hne (FileCommand.eq_of_head (FileCommand.head_of_readLine hread)
      (FileCommand.head_of_readLine h))
  cases c <;> simp [fileCommand, h, hother]

/-- A command of the driver reaches the module as it was meant if and only if the name is
verbatim. -/
theorem fileCommand_format_iff : (c.format filename size).resent.bind fileCommand =
    some (c, bytes filename) ↔ Verbatim (bytes filename) := by
  have hf : (c.format filename size).Readable := FileCommand.readable
  have hresent := hf.resent_readLine
  have hargs : ∃ args, (c.format filename size).printfArgs = .str (bytes filename) :: args := by
    cases c <;> exact ⟨_, rfl⟩
  rw [FileCommand.text_format] at hresent
  constructor
  · intro h
    obtain ⟨line, hline, hcommand⟩ := Option.bind_eq_some_iff.mp h
    obtain ⟨args, hread⟩ := readLine_of_fileCommand hcommand
    have hread' : (c.format filename size).resent.bind (readLine (c.format filename size).text) =
        some (.str (bytes filename) :: args) := by
      rw [hline, Option.bind_some, FileCommand.text_format]
      exact hread
    exact hf.verbatim_of_resent (fun t ht => FileCommand.str_mem.mp ht) hread' List.mem_cons_self
  · intro hverbatim
    obtain ⟨args, hargs⟩ := hargs
    obtain ⟨line, hline, hread⟩ := Option.bind_eq_some_iff.mp
      (hresent.mpr fun s hs => FileCommand.str_mem.mp hs ▸ hverbatim)
    rw [hline, Option.bind_some]
    exact fileCommand_of_readLine (hargs ▸ hread)

/-- What becomes of a command whose name is not verbatim: it is on a file of another name, or it is
no command on one file, and then the name is not plain. -/
theorem fileCommand_of_not_verbatim (hverbatim : ¬ Verbatim (bytes filename))
    (hsent : (c.format filename size).resent.isSome = true) :
    (∃ other, other ≠ bytes filename ∧
      (c.format filename size).resent.bind fileCommand = some (c, other)) ∨
    ¬ Plain (bytes filename) ∧ (c.format filename size).resent.bind fileCommand = none := by
  obtain ⟨line, hline⟩ := Option.isSome_iff_exists.mp hsent
  cases hcommand : (c.format filename size).resent.bind fileCommand with
  | none =>
    refine .inr ⟨fun hplain => ?_, rfl⟩
    obtain ⟨args, hforall, hread⟩ := FileCommand.readable.exists_readLine
      (fun s hs => FileCommand.str_mem.mp hs ▸ hplain) hline
    rw [FileCommand.text_format] at hread
    obtain ⟨name, args, rfl⟩ : ∃ name args', args = .str name :: args' := by
      cases c <;> cases hforall with
      | cons harg _ => cases harg with | str _ => exact ⟨_, _, rfl⟩
    rw [hline, Option.bind_some, fileCommand_of_readLine hread] at hcommand
    cases hcommand
  | some command =>
    obtain ⟨c', other⟩ := command
    have hcommand' := hcommand
    rw [hline, Option.bind_some] at hcommand'
    obtain ⟨args, hread⟩ := readLine_of_fileCommand hcommand'
    obtain rfl : c = c' := FileCommand.eq_of_head (FileCommand.head_resent hline)
      (FileCommand.head_of_readLine hread)
    refine .inl ⟨other, fun heq => hverbatim ?_, rfl⟩
    exact fileCommand_format_iff.mp (heq ▸ hcommand)

end FileCommand

/-! ## The file store -/

/-- The file store of the module: its files, the file that it is taking, and the last command that
has come, with whether it was carried out. -/
structure Store where
  files : List UInt8 → Option (List UInt8)
  incoming : Option (List UInt8 × List UInt8)
  last : Option (Format × Bool)

/-- The command that lists a file. -/
def listCommand (filename : String) : Format := ⟨"AT+QFLST=\"%s\"", [.str filename]⟩

def listReport : Format := ⟨"+QFLST: \"%[^\"]\",%d", []⟩

/-- The command that uploads a file. -/
def uploadCommand (filename : String) (size : Nat) : Format :=
  ⟨"AT+QFUPL=\"%s\",%d", [.str filename, .int size]⟩

namespace Store

/-- A command is carried out. -/
def exec (st : Store) : FileCommand × List UInt8 → Store
  | (.list, _) => st
  | (.delete, name) => { st with files := Function.update st.files name none }
  | (.upload, name) => { st with incoming := some (name, []) }

/-- A line comes that is no command on one file. What it does to files with plain names is open. -/
def Scrambled (st st' : Store) : Prop :=
  (∀ name, ¬ Plain name → st'.files name = st.files name) ∧
    ∀ file, st'.incoming = some file → Plain file.1

/-- A command comes, and is carried out or refused. -/
def Gets (st : Store) (cmd : Format) (done : Bool) (st' : Store) : Prop :=
  match cmd.resent.bind fileCommand with
  | some c => st' = { (if done then st.exec c else st) with last := some (cmd, done) }
  | none => st.Scrambled st' ∧ st'.last = some (cmd, done)

/-- A byte comes. -/
def put (st : Store) (c : UInt8) : Store :=
  { st with incoming := st.incoming.map fun file => (file.1, file.2 ++ [c]) }

/-- The file that has come is stored. -/
def keep (st : Store) : Store :=
  match st.incoming with
  | some (name, data) =>
    { st with files := Function.update st.files name (some data), incoming := none }
  | none => st

/-- What the store has done when it sends a line. -/
def reached (st : Store) (pattern : Format) : Store := if pattern = qfupl then st.keep else st

/-- The lines that the store sends: `OK` and `CONNECT` after a command that it has carried out, and
the name of a file that it has. -/
def Tells (st : Store) (pattern : Format) (vs : List Value) : Prop :=
  (pattern = okFormat ∨ pattern = connectFormat → ∀ cmd, st.last ≠ some (cmd, false)) ∧
    (pattern = listReport → (st.files (bytes (strAt vs 0))).isSome)

end Store

/-- The answers of the file store, and what it does. A line that is not received may have been
sent. -/
def filing : Env Store Call Call.Reply := fun st c r st' =>
  match c, r with
  | .send cmd, true => ∃ done, st.Gets cmd done st'
  | .recv pattern, some vs => st.Tells pattern vs ∧ st' = st.reached pattern
  | .recv pattern, none => st' = st ∨ st' = st.reached pattern
  | .putc c, _ => st' = st.put c
  | _, _ => st' = st

variable {α : Type} {Q : α → Store → Prop} {p : At α} {st st' : Store} {c : FileCommand}
  {filename : String} {size : Nat} {done : Bool}

theorem wp_filing_locked (h : wp filing True Q p st) : wp filing True Q (locked p) st :=
  wp_locked (fun _ _ _ => id) (fun _ _ _ => id) h

theorem wp_filing_timed {ms : Int} (h : wp filing True Q p st) : wp filing True Q (timed ms p) st :=
  wp_timed (fun _ _ _ _ => id) h

/-- A command whose name is verbatim is carried out as it was meant. -/
theorem gets_verbatim (hverbatim : Verbatim (bytes filename))
    (h : st.Gets (c.format filename size) done st') :
    st' = { (if done then st.exec (c, bytes filename) else st) with
      last := some (c.format filename size, done) } := by
  rwa [Store.Gets, fileCommand_format_iff.mpr hverbatim] at h

/-- A command whose name is not verbatim leaves the file of the name as it is, and takes none of
that name. -/
theorem gets_not_verbatim (hverbatim : ¬ Verbatim (bytes filename))
    (hsent : (c.format filename size).resent.isSome = true)
    (h : st.Gets (c.format filename size) done st') :
    st'.files (bytes filename) = st.files (bytes filename) ∧
      (c = .upload → done = true → ∀ file, st'.incoming = some file → file.1 ≠ bytes filename) := by
  rcases fileCommand_of_not_verbatim hverbatim hsent with ⟨other, hother, hcommand⟩ |
    ⟨hplain, hcommand⟩ <;> rw [Store.Gets, hcommand] at h
  · subst h
    cases done with
    | false => exact ⟨rfl, nofun⟩
    | true =>
      cases c with
      | list => exact ⟨rfl, nofun⟩
      | delete => exact ⟨Function.update_of_ne hother.symm .., nofun⟩
      | upload =>
        refine ⟨rfl, fun _ _ file hfile => ?_⟩
        obtain rfl : (other, []) = file := Option.some.inj hfile
        exact hother
  · exact ⟨h.1.1 _ hplain, fun _ _ file hfile heq => hplain (heq ▸ h.1.2 file hfile)⟩

theorem gets_last (h : st.Gets (c.format filename size) done st') :
    st'.last = some (c.format filename size, done) := by
  unfold Store.Gets at h
  split at h
  · rw [h]
  · exact h.2

/-- A refused command changes nothing, and so does the command that lists a file. -/
theorem gets_unchanged (hsent : (c.format filename size).resent.isSome = true)
    (h : st.Gets (c.format filename size) done st') (hkeeps : done = false ∨ c ≠ .delete) :
    st'.files (bytes filename) = st.files (bytes filename) := by
  by_cases hverbatim : Verbatim (bytes filename)
  · rw [gets_verbatim hverbatim h]
    cases done with
    | false => rfl
    | true =>
      cases c with
      | list | upload => rfl
      | delete => simp at hkeeps
  · exact (gets_not_verbatim hverbatim hsent h).1

/-- A line that changes nothing. -/
theorem filing_recv {pattern : Format} {r : Option (List Value)} (hpattern : pattern ≠ qfupl)
    (h : filing st (.recv pattern) r st') : st' = st := by
  cases r with
  | none => simpa [filing, Store.reached, hpattern] using h
  | some vs => simpa [filing, Store.reached, hpattern] using h.2

/-- A file that is found is there, and nothing happens to it. -/
theorem fileExists_filing (filename : String) (st : Store) :
    wp filing True (fun found st' => st'.files (bytes filename) = st.files (bytes filename) ∧
      (found = true → (st.files (bytes filename)).isSome)) (fileExists filename) st := by
  show wp filing True _ (sprintfCommand _ _ >>= fun _ => locked _ >>= _) st
  rw [wp_bind]
  refine wp_sprintfCommand trivial fun hsprintf => ?_
  have hsent : (FileCommand.list.format filename 0).resent.isSome = true :=
    (Bool.and_eq_true_iff.mp hsprintf).2
  rw [wp_bind]
  refine wp_filing_locked (wp_filing_timed (wp_queryInto trivial ?_))
  rintro (_ | _) t ht
  · obtain rfl : t = st := ht
    exact ⟨rfl, nofun⟩
  · have hfiles : t.files (bytes filename) = st.files (bytes filename) := by
      obtain ⟨done, hget⟩ : ∃ done, st.Gets (FileCommand.list.format filename 0) done t := ht
      exact gets_unchanged hsent hget (.inr nofun)
    rintro (_ | vs) t' hr
    · obtain rfl := filing_recv (by decide) hr
      exact ⟨hfiles, nofun⟩
    · obtain rfl := filing_recv (by decide) hr
      have hthere := hr.1.2 rfl
      rintro (_ | ok) t' hok
      · obtain rfl := filing_recv (by decide) hok
        exact ⟨hfiles, nofun⟩
      · obtain rfl := filing_recv (by decide) hok
        refine ⟨hfiles, fun hname => ?_⟩
        rw [← hfiles, ← of_decide_eq_true hname]
        exact hthere

/-- A file whose deletion is acknowledged is gone, if its name is verbatim. If it is not, or if the
deletion is refused, the file is as it was. -/
theorem deleteFile_filing (filename : String) (st : Store) :
    wp filing True (fun ok st' =>
      (ok = true → st'.last = some (qfdel filename, true) ∧
        (Verbatim (bytes filename) → st'.files (bytes filename) = none)) ∧
      (¬ Verbatim (bytes filename) ∨ st'.last = some (qfdel filename, false) →
        st'.files (bytes filename) = st.files (bytes filename))) (deleteFile filename) st := by
  show wp filing True _ (sprintfCommand _ _ >>= fun _ => locked _) st
  rw [wp_bind]
  refine wp_sprintfCommand trivial fun hsprintf => ?_
  have hsent : (FileCommand.delete.format filename 0).resent.isSome = true :=
    (Bool.and_eq_true_iff.mp hsprintf).2
  refine wp_filing_locked ?_
  rintro (_ | _) t ht
  · obtain rfl : t = st := ht
    exact ⟨nofun, fun _ => rfl⟩
  · obtain ⟨done, hget⟩ : ∃ done, st.Gets (FileCommand.delete.format filename 0) done t := ht
    have hlast : t.last = some (qfdel filename, done) := gets_last hget
    intro r t' hr
    obtain rfl := filing_recv (by decide) hr
    refine ⟨fun hok => ?_, fun hkept => ?_⟩
    · obtain rfl : done = true := by
        cases r with
        | none => cases hok
        | some vs =>
          cases done with
          | true => rfl
          | false => exact absurd hlast (hr.1.1 (.inl rfl) _)
      refine ⟨hlast, fun hverbatim => ?_⟩
      rw [gets_verbatim hverbatim hget]
      exact Function.update_self ..
    · rcases hkept with hverbatim | hrefused
      · exact (gets_not_verbatim hverbatim hsent hget).1
      · obtain rfl : done = false := by
          rw [hlast] at hrefused
          exact (Prod.mk.inj (Option.some.inj hrefused)).2
        exact gets_unchanged hsent hget (.inl rfl)

/-- Bytes come. -/
def Store.putAll (st : Store) (data : List UInt8) : Store :=
  { st with incoming := st.incoming.map fun file => (file.1, file.2 ++ data) }

theorem foldl_put (data : List UInt8) (st : Store) : data.foldl Store.put st = st.putAll data := by
  unfold Store.putAll
  induction data generalizing st with
  | nil => simp
  | cons c data ih =>
    rw [List.foldl_cons, ih]
    simp [Store.put, Function.comp_def]

theorem keep_last (st : Store) : st.keep.last = st.last := by
  unfold Store.keep
  split <;> rfl

/-- The file of another name is kept when a file is stored. -/
theorem keep_of_ne {name : List UInt8} (h : ∀ file, st.incoming = some file → file.1 ≠ name) :
    st.keep.files name = st.files name := by
  unfold Store.keep
  split
  · rename_i other data hincoming
    exact Function.update_of_ne (h (other, data) hincoming).symm ..
  · rfl

/-- A confirmed file of a verbatim name is stored, and the file of another name is as it was.
Nothing is stored before the upload. -/
theorem uploadFile_filing (content : List UInt8) (filename : String) (st : Store) :
    wp filing True (fun r st' =>
      (r = 1 → Verbatim (bytes filename) →
        st'.files (bytes filename) = some (content ++ [0])) ∧
      (¬ Verbatim (bytes filename) → st'.files (bytes filename) = st.files (bytes filename)) ∧
      (st'.files = st.files ∧ st'.last = st.last ∨
        ∃ done, st'.last = some (uploadCommand filename (content.length + 1), done)))
      (uploadFile content filename) st := by
  show wp filing True _ (sprintfCommand _ _ >>= fun _ => locked _) st
  rw [wp_bind]
  refine wp_sprintfCommand trivial fun hsprintf => ?_
  obtain ⟨-, hsent⟩ := Bool.and_eq_true_iff.mp hsprintf
  refine wp_filing_locked (wp_filing_timed ?_)
  rintro (_ | _) t ht
  · obtain rfl : t = st := ht
    exact ⟨nofun, fun _ => rfl, .inl ⟨rfl, rfl⟩⟩
  · obtain ⟨done, hget⟩ := ht
    have hlast : t.last = some (uploadCommand filename (content.length + 1), done) :=
      gets_last (c := .upload) hget
    have hother (hverbatim : ¬ Verbatim (bytes filename)) :=
      gets_not_verbatim (c := .upload) hverbatim hsent hget
    rintro (_ | vs) t' hconnect
    · obtain rfl := filing_recv (by decide) hconnect
      exact ⟨nofun, fun hverbatim => (hother hverbatim).1, .inr ⟨done, hlast⟩⟩
    · obtain rfl := filing_recv (by decide) hconnect
      obtain rfl : done = true := by
        cases done with
        | true => rfl
        | false => exact absurd hlast (hconnect.1.1 (.inr rfl) _)
      show wp filing True _ (putBytes _ _ _ _ >>= _) _
      rw [wp_bind]
      refine wp_mono (wp_putBytes_fold (fun _ _ _ _ => id) _ (by simp) (by decide) _) ?_
      rintro _ u rfl
      rw [foldl_put]
      have hkept (hverbatim : ¬ Verbatim (bytes filename)) (t'' : Store)
          (h : t'' = t'.putAll (content ++ [0]) ∨ t'' = (t'.putAll (content ++ [0])).keep) :
          t''.files (bytes filename) = st.files (bytes filename) := by
        obtain ⟨hfiles, hincoming⟩ := hother hverbatim
        rcases h with rfl | rfl
        · exact hfiles
        · refine (keep_of_ne fun file hfile => ?_).trans hfiles
          obtain ⟨got, hgot, rfl⟩ := Option.map_eq_some_iff.mp hfile
          exact hincoming rfl rfl got hgot
      rintro _ _ rfl (_ | vs) t'' hreport
      · refine ⟨nofun, fun hverbatim => hkept hverbatim _ hreport, .inr ⟨true, ?_⟩⟩
        rcases hreport with rfl | rfl
        · exact hlast
        · exact (keep_last _).trans hlast
      · obtain rfl : t'' = Store.keep _ := hreport.2.trans (if_pos rfl)
        intro ok t hok
        obtain rfl := filing_recv (by decide) hok
        refine ⟨fun _ hverbatim => ?_, fun hverbatim => hkept hverbatim _ (.inr rfl),
          .inr ⟨true, (keep_last _).trans hlast⟩⟩
        rw [gets_verbatim (c := .upload) hverbatim hget]
        exact Function.update_self ..

/-! ## What is said -/

variable {content : List UInt8} {overrideok : Bool} {l before : List Exchange} {r : Int}

theorem not_mem_spoken {c : Call} {reply : c.Reply} (h : ∀ e ∈ l, e.1 ≠ c) :
    ⟨c, reply⟩ ∉ spoken l := fun hmem => h _ (List.mem_of_mem_filter hmem) rfl

/-- The module lists the file. -/
def Listed (filename : String) (said : List Exchange) : Prop :=
  ∃ report ok, [⟨.send (listCommand filename), true⟩, ⟨.recv listReport, some report⟩,
    ⟨.recv okFormat, some ok⟩] <:+: said ∧ strAt report 0 = filename

/-- `found` says that the file is listed. -/
theorem fileExists_listed {found : Bool} {rest : List Exchange}
    (h : Traces (fileExists filename) l (some found))
    (hrest : ⟨.send (listCommand filename), true⟩ ∉ rest) :
    Listed filename (spoken l ++ rest) ↔ found = true := by
  obtain ⟨-, h⟩ := traces_sprintfCommand.mp h
  obtain ⟨vs, hlocked, rfl⟩ := traces_map_some.mp h
  obtain ⟨_, hspoken, hquery⟩ := traces_locked_timed hlocked
  have hcase : QueryCase (listCommand filename) listReport _ vs :=
    traces_query (traces_queryInto hquery)
  rw [hspoken, Listed, hcase.infix_iff hrest]
  cases vs <;> simp

theorem unlisted_uploadFile :
    Only True (· ≠ .send (listCommand filename)) (uploadFile content filename) :=
  only_uploadFile nofun nofun nofun (by simp [listCommand]) nofun nofun

theorem unlisted_deleteFile :
    Only True (· ≠ .send (listCommand filename)) (deleteFile filename) :=
  (only_sprintfCommand fun _ => trivial).bind fun _ =>
    only_locked nofun nofun (only_command (by simp [listCommand, qfdel]) nofun)

/-- A call that does not upload. -/
def Call.NoUpload (c : Call) : Prop :=
  (∀ filename size, c ≠ .send (uploadCommand filename size)) ∧ c ≠ .recv qfupl

theorem noUpload_fileExists : Only True Call.NoUpload (fileExists filename) := by
  have hset (ms : Int) : Call.NoUpload (.setTimeout ms) := ⟨nofun, nofun⟩
  refine (only_sprintfCommand fun _ => trivial).bind fun _ =>
    (only_locked ⟨nofun, nofun⟩ ⟨nofun, nofun⟩ (only_timed hset ?_)).map
  refine only_queryInto trivial ⟨?_, nofun⟩ ⟨nofun, by decide⟩ ⟨nofun, by decide⟩
  simp [uploadCommand]

theorem noUpload_deleteFile : Only True Call.NoUpload (deleteFile filename) := by
  refine (only_sprintfCommand fun _ => trivial).bind fun _ =>
    only_locked ⟨nofun, nofun⟩ ⟨nofun, nofun⟩ (only_command ⟨?_, nofun⟩ ⟨nofun, by decide⟩)
  simp [uploadCommand, qfdel]

/-- The command of an upload is sent. -/
abbrev uploading (content : List UInt8) (filename : String) : Exchange :=
  ⟨.send (uploadCommand filename (content.length + 1)), true⟩

/-- An upload succeeds if it is reported; then it began with the command. -/
theorem traces_uploadFile (h : Traces (uploadFile content filename) l (some r)) :
    r = 0 ∧ (∀ vs, ⟨.recv qfupl, some vs⟩ ∉ l) ∨
    r = 1 ∧ ∃ rest report, uploading content filename ∉ rest ∧
      l = [⟨.lock, ()⟩, ⟨.setTimeout bg96Wait1s, ()⟩] ++
        uploading content filename :: rest ∧
      ∀ vs, ⟨.recv qfupl, some vs⟩ ∈ rest ↔ vs = report := by
  have hconnect : (⟨"CONNECT", []⟩ : Format) ≠ qfupl := by decide
  have hok : okFormat ≠ qfupl := by decide
  obtain ⟨-, h⟩ := traces_sprintfCommand.mp h
  obtain ⟨_, rfl, hbody⟩ := traces_locked_timed_eq h
  obtain ⟨connected, l₁, l₂, rfl, hbegin, hupload⟩ := traces_bind_some.mp hbody
  obtain ⟨vs, hpeek, rfl⟩ := traces_map_some.mp hbegin
  obtain ⟨sent, _, rfl, hrecv⟩ := traces_call.mp hpeek
  cases sent with
  | false =>
    obtain ⟨rfl, hvs⟩ := traces_ret.mp hrecv
    obtain rfl : vs = none := Option.some.inj hvs
    obtain ⟨rfl, ⟨⟩⟩ := traces_ret.mp hupload
    exact .inl ⟨rfl, by simp⟩
  | true =>
    obtain ⟨_, _, rfl, hret⟩ := traces_call.mp hrecv
    obtain ⟨rfl, hvs⟩ := traces_ret.mp hret
    obtain rfl : vs = _ := Option.some.inj hvs
    cases vs with
    | none =>
      obtain ⟨rfl, ⟨⟩⟩ := traces_ret.mp hupload
      exact .inl ⟨rfl, by simp⟩
    | some connected =>
      obtain ⟨_, l₁, _, rfl, hloop, hafter⟩ := traces_bind_some.mp hupload
      have hputs : ∀ e ∈ l₁, ∃ c, e.1 = .putc c :=
        ((only_putBytes (T := True) (P := fun d => ∃ c, d = .putc c) (fun c => ⟨c, rfl⟩) _ 0
          fun _ => trivial).traces hloop).1
      have hcall (c : Call) (hc : ∀ b, c ≠ .putc b) (reply : c.Reply) : ⟨c, reply⟩ ∉ l₁ :=
        fun hmem => (hputs _ hmem).elim hc
      obtain ⟨_, _, rfl, hreport⟩ := traces_call.mp hafter
      obtain ⟨report, _, rfl, hend⟩ := traces_call.mp hreport
      cases report with
      | none =>
        obtain ⟨rfl, ⟨⟩⟩ := traces_ret.mp hend
        exact .inl ⟨rfl, by simp [hconnect.symm, hcall]⟩
      | some report =>
        obtain ⟨ok, _, rfl, hlast⟩ := traces_call.mp hend
        obtain ⟨rfl, ⟨⟩⟩ := traces_ret.mp hlast
        exact .inr ⟨rfl, _, report, by simp [hcall], rfl, by simp [hconnect.symm, hok.symm, hcall]⟩

/-! ## What a success means -/

/-- A file of the name was there, and is as it was. -/
def LeftAlone (filename : String) (st st' : Store) : Prop :=
  (st.files (bytes filename)).isSome ∧ st'.files (bytes filename) = st.files (bytes filename)

/-- The module has confirmed an upload of the file in its size and under its name, and it had no
file of the name when the upload began. -/
def Confirmed (content : List UInt8) (filename : String) (l : List Exchange) (st st' : Store) :
    Prop :=
  (uploadCommand filename (content.length + 1)).resent.bind fileCommand =
    some (.upload, bytes filename) ∧
  ∃ l₁ l₂ t report,
    l = l₁ ++ uploading content filename :: l₂ ∧ Along filing l₁ st t ∧
    t.files (bytes filename) = none ∧ Along filing (uploading content filename :: l₂) t st' ∧
    ⟨.recv qfupl, some report⟩ ∈ l₂ ∧ intAt report 0 = content.length + 1

theorem along_silent {ms : Int} :
    Along filing (⟨.lock, ()⟩ :: ⟨.setTimeout ms, ()⟩ :: l) st st' ↔ Along filing l st st' := by
  simp [Along, filing]

/-- An upload after calls that do not upload, and what makes it a confirmed one. -/
theorem confirmed_iff {rest : List Exchange} {report : List Value}
    (hbefore : ∀ e ∈ before, Call.NoUpload e.1)
    (hrest : uploading content filename ∉ rest)
    (hreport : ∀ vs, ⟨.recv qfupl, some vs⟩ ∈ rest ↔ vs = report) :
    Confirmed content filename (before ++
        ([⟨.lock, ()⟩, ⟨.setTimeout bg96Wait1s, ()⟩] ++ uploading content filename :: rest)) st st' ↔
      Verbatim (bytes filename) ∧ intAt report 0 = content.length + 1 ∧
        ∃ t, Along filing before st t ∧ t.files (bytes filename) = none ∧
          Along filing (uploading content filename :: rest) t st' := by
  have hfirst : uploading content filename ∉
      before ++ [⟨.lock, ()⟩, ⟨.setTimeout bg96Wait1s, ()⟩] := by
    simpa using fun hmem => (hbefore _ hmem).1 filename (content.length + 1) rfl
  refine and_congr (fileCommand_format_iff (c := .upload)) ?_
  rw [← List.append_assoc]
  constructor
  · rintro ⟨l₁, l₂, t, vs, hcut, h₁, hnone, h₂, hmem, hsize⟩
    obtain ⟨rfl, -, rfl⟩ := (List.append_cons_inj_of_notMem hfirst hrest).mp hcut
    obtain ⟨t', hbefore, hsilent⟩ := along_append.mp h₁
    obtain rfl : t' = t := along_silent.mp hsilent
    exact ⟨(hreport vs).mp hmem ▸ hsize, t', hbefore, hnone, h₂⟩
  · rintro ⟨hsize, t, h₁, hnone, h₂⟩
    refine ⟨_, rest, t, report, rfl, ?_, hnone, h₂, (hreport _).mpr rfl, hsize⟩
    exact along_append.mpr ⟨t, h₁, along_silent.mpr rfl⟩

/-- A success of `send_file` means that the file was kept or an upload is confirmed, and after a
refused deletion the file is what it was. -/
structure SentFile (content : List UInt8) (filename : String) (overrideok : Bool)
    (l : List Exchange) (st st' : Store) (r : Int) : Prop where
  success : r = 1 →
    overrideok = false ∧ LeftAlone filename st st' ∨ Confirmed content filename l st st'
  failure : r = 0 → st'.last = some (qfdel filename, false) →
    st'.files (bytes filename) = st.files (bytes filename)

/-- Each report of an upload is of a verbatim name, has the size that was sent, and comes after a
file that was there was listed; or the file that was there is not to be replaced, and the upload
leaves it as it was. -/
def Checked (content : List UInt8) (filename : String) (overrideok : Bool) (l : List Exchange)
    (st : Store) : Prop :=
  ∀ report, ⟨.recv qfupl, some report⟩ ∈ l →
    (Verbatim (bytes filename) ∧ intAt report 0 = content.length + 1 ∧
      ((st.files (bytes filename)).isSome → Listed filename (spoken l))) ∨
    (overrideok = false ∧ (st.files (bytes filename)).isSome ∧
      (Verbatim (bytes filename) → st.files (bytes filename) = some (content ++ [0])))

/-- Nothing is uploaded. -/
theorem checked_of_noUpload (hl : ∀ e ∈ l, Call.NoUpload e.1) :
    Checked content filename overrideok l st := fun _ hmem => absurd rfl (hl _ hmem).2

/-- The upload of `send_file`, which finds no file of the name if one that was there was listed. -/
theorem upload_sentFile_iff {t : Store} (hbefore : ∀ e ∈ before, Call.NoUpload e.1)
    (h : Traces (uploadFile content filename) l (some r)) (hl : Along filing l t st')
    (hkept : ¬ Verbatim (bytes filename) ∨ t.last = some (qfdel filename, false) →
      t.files (bytes filename) = st.files (bytes filename))
    (hnone : Verbatim (bytes filename) →
      ((∃ u, Along filing before st u ∧ u.files (bytes filename) = none ∧ Along filing l u st') ↔
        ((st.files (bytes filename)).isSome → Listed filename (spoken (before ++ l))))) :
    SentFile content filename overrideok (before ++ l) st st' r ↔
      Checked content filename overrideok (before ++ l) st := by
  have hno (vs : Option (List Value)) : ⟨.recv qfupl, vs⟩ ∉ before :=
    fun hmem => (hbefore _ hmem).2 rfl
  obtain ⟨hstored, hother, hend⟩ := hl.ends h (uploadFile_filing content filename t)
  have hfailure : st'.last = some (qfdel filename, false) →
      st'.files (bytes filename) = st.files (bytes filename) := by
    intro heq
    rcases hend with ⟨hfiles, h⟩ | ⟨done, h⟩
    · rw [hfiles, hkept (.inr (h ▸ heq))]
    · rw [h] at heq
      simp [uploadCommand, qfdel] at heq
  rcases traces_uploadFile h with ⟨rfl, hnever⟩ | ⟨rfl, rest, report, hrest, rfl, hreport⟩
  · refine iff_of_true ⟨nofun, fun _ => hfailure⟩ fun report hmem => ?_
    simp [hno, hnever] at hmem
  · have hconfirmed : Confirmed content filename _ st st' ↔ _ := confirmed_iff hbefore hrest hreport
    have halone : LeftAlone filename st st' ↔ (st.files (bytes filename)).isSome ∧
        (Verbatim (bytes filename) → st.files (bytes filename) = some (content ++ [0])) := by
      refine and_congr_right fun hthere => ?_
      by_cases hverbatim : Verbatim (bytes filename)
      · rw [hstored rfl hverbatim]
        simp [hverbatim, eq_comm]
      · rw [hother hverbatim, hkept (.inl hverbatim)]
        simp [hverbatim]
    have hone : ∀ vs, ⟨.recv qfupl, some vs⟩ ∈ before ++ ([⟨.lock, ()⟩,
        ⟨.setTimeout bg96Wait1s, ()⟩] ++ uploading content filename :: rest) ↔ vs = report := by
      simpa [hno] using hreport
    have hconfirmed' : Confirmed content filename (before ++ ([⟨.lock, ()⟩,
        ⟨.setTimeout bg96Wait1s, ()⟩] ++ uploading content filename :: rest)) st st' ↔
        Verbatim (bytes filename) ∧ intAt report 0 = content.length + 1 ∧
          ((st.files (bytes filename)).isSome → Listed filename (spoken (before ++ ([⟨.lock, ()⟩,
            ⟨.setTimeout bg96Wait1s, ()⟩] ++ uploading content filename :: rest)))) := by
      rw [hconfirmed]
      refine and_congr_right fun hverbatim => and_congr_right fun _ => ?_
      rw [← hnone hverbatim]
      simp only [List.cons_append, List.nil_append, along_silent]
    constructor
    · rintro hsent vs hmem
      obtain rfl := (hone vs).mp hmem
      rcases hsent.success rfl with ⟨hover, hsame⟩ | hconf
      · exact .inr ⟨hover, halone.mp hsame⟩
      · exact .inl (hconfirmed'.mp hconf)
    · intro hchecked
      refine ⟨fun _ => ?_, nofun⟩
      rcases hchecked report ((hone report).mpr rfl) with hsize | ⟨hover, hsame⟩
      · exact .inr (hconfirmed'.mpr hsize)
      · exact .inl ⟨hover, halone.mpr hsame⟩

/-- **`send_file`.** What it returns is right if and only if the module reports the size that was
sent for a file of the name, and no file that was there was overlooked, or the file that was there
is left as it was. -/
theorem send_file_iff (h : Traces (sendFile content filename overrideok) l (some r))
    (hl : Along filing l st st') :
    SentFile content filename overrideok l st st' r ↔
      Checked content filename overrideok l st := by
  obtain ⟨kept, hkept, rfl⟩ := traces_map_some.mp h
  obtain ⟨found, l₁, l₂, rfl, hexists, hbody⟩ := traces_bind_some.mp hkept
  obtain ⟨t, h₁, h₂⟩ := along_append.mp hl
  have hno := (noUpload_fileExists.traces hexists).1
  obtain ⟨hfiles, hfound⟩ := h₁.ends hexists (fileExists_filing filename st)
  cases found with
  | false =>
    obtain ⟨r, hupload, rfl⟩ := traces_map_some.mp hbody
    refine upload_sentFile_iff hno hupload h₂ (fun _ => hfiles) fun _ => ?_
    rw [spoken_append, fileExists_listed hexists
      (not_mem_spoken fun e he => (unlisted_uploadFile.traces hupload).1 e he)]
    constructor
    · rintro ⟨u, hu, hgone, -⟩ hthere
      rw [(hu.ends hexists (fileExists_filing filename st)).1] at hgone
      simp [hgone] at hthere
    · intro hthere
      have hgone : st.files (bytes filename) = none := by
        rw [← Option.not_isSome_iff_eq_none]
        exact fun hsome => nomatch hthere hsome
      exact ⟨t, h₁, by rw [hfiles, hgone], h₂⟩
  | true =>
    cases overrideok with
    | false =>
      obtain ⟨rfl, ⟨⟩⟩ := traces_ret.mp hbody
      obtain rfl : t = st' := h₂
      refine iff_of_true ⟨fun _ => .inl ⟨rfl, hfound rfl, hfiles⟩, nofun⟩ ?_
      rw [List.append_nil]
      exact checked_of_noUpload hno
    | true =>
      obtain ⟨deleted, l₃, l₄, rfl, hdelete, hrest⟩ := traces_bind_some.mp hbody
      obtain ⟨u, h₃, h₄⟩ := along_append.mp h₂
      obtain ⟨hgone, hrefused⟩ := h₃.ends hdelete (deleteFile_filing filename t)
      have hbefore : ∀ e ∈ l₁ ++ l₃, Call.NoUpload e.1 := by
        intro e he
        rcases List.mem_append.mp he with he | he
        · exact hno e he
        · exact (noUpload_deleteFile.traces hdelete).1 e he
      cases deleted with
      | false =>
        obtain ⟨rfl, ⟨⟩⟩ := traces_ret.mp hrest
        obtain rfl : u = st' := h₄
        refine iff_of_true ⟨nofun, fun _ hlast => by rw [hrefused (.inr hlast), hfiles]⟩ ?_
        rw [List.append_nil]
        exact checked_of_noUpload hbefore
      | true =>
        obtain ⟨r, hupload, rfl⟩ := traces_map_some.mp hrest
        have hlisted : Listed filename (spoken (l₁ ++ (l₃ ++ l₄))) := by
          rw [spoken_append, fileExists_listed hexists]
          refine not_mem_spoken fun e he => ?_
          rcases List.mem_append.mp he with he | he
          · exact (unlisted_deleteFile.traces hdelete).1 e he
          · exact (unlisted_uploadFile.traces hupload).1 e he
        obtain ⟨hlast, hnone⟩ := hgone rfl
        rw [← List.append_assoc] at hlisted ⊢
        refine upload_sentFile_iff hbefore hupload h₄ (fun hkept => ?_) fun hverbatim => ?_
        · rcases hkept with hverbatim | hrefusal
          · rw [hrefused (.inl hverbatim), hfiles]
          · rw [hlast] at hrefusal
            simp at hrefusal
        · exact iff_of_true ⟨u, along_append.mpr ⟨t, h₁, h₃⟩, hnone hverbatim, h₄⟩ fun _ => hlisted

/-- The file "A" is uploaded, and the module reports that nothing has come. -/
def misreported : List Exchange :=
  [⟨.lock, ()⟩, ⟨.setTimeout 2000, ()⟩, ⟨.send (listCommand "a"), true⟩, ⟨.recv listReport, none⟩,
    ⟨.setTimeout atTimeout, ()⟩, ⟨.unlock, ()⟩,
    ⟨.lock, ()⟩, ⟨.setTimeout bg96Wait1s, ()⟩, uploading [65] "a", ⟨.recv connectFormat, some []⟩,
    ⟨.putc 65, (1 : Int)⟩, ⟨.putc 0, (1 : Int)⟩, ⟨.setTimeout bg96Wait1s, ()⟩,
    ⟨.recv qfupl, some [.int 0, .int 0]⟩, ⟨.recv okFormat, some []⟩, ⟨.setTimeout atTimeout, ()⟩,
    ⟨.unlock, ()⟩]

theorem traces_misreported : Traces (sendFile [65] "a" true) misreported (some 1) :=
  traces_iff_replay.mpr rfl

/-- An empty store. -/
def emptyStore : Store := ⟨fun _ => none, none, none⟩

/-- The store with the file. -/
def oneFile : Store :=
  ⟨Function.update (fun _ => none) (bytes "a") (some [65, 0]), none,
    some (uploadCommand "a" 2, true)⟩

theorem along_misreported : Along filing misreported emptyStore oneFile := by
  refine ⟨_, rfl, _, rfl, _, ⟨true, rfl⟩, _, .inl rfl, _, rfl, _, rfl, _, rfl, _, rfl,
    _, ⟨true, rfl⟩, _, ⟨?_, rfl⟩, _, rfl, _, rfl, _, rfl, _, ⟨?_, rfl⟩, _, ⟨?_, rfl⟩, _, rfl, oneFile,
    rfl, rfl⟩
  · refine ⟨fun _ cmd hcmd => ?_, nofun⟩
    cases (show some (uploadCommand "a" 2, true) = some (cmd, false) from hcmd)
  · exact ⟨fun h => absurd h (by decide), nofun⟩
  · refine ⟨fun _ cmd hcmd => ?_, nofun⟩
    cases (show some (uploadCommand "a" 2, true) = some (cmd, false) from hcmd)

theorem send_file_iff_misreported :
    SentFile [65] "a" true misreported emptyStore oneFile 1 ↔
      Checked [65] "a" true misreported emptyStore :=
  send_file_iff traces_misreported along_misreported

/-- A size that is not the one of the file is taken for a success. -/
theorem send_file_misreported :
    ¬ ∀ (content : List UInt8) (filename : String) (overrideok : Bool) (l : List Exchange)
      (r : Int) (st st' : Store), Traces (sendFile content filename overrideok) l (some r) →
      Along filing l st st' → SentFile content filename overrideok l st st' r := by
  intro h
  have hsentFile := h _ _ _ _ _ _ _ traces_misreported along_misreported
  rcases hsentFile.success rfl with ⟨⟨⟩, -⟩ | ⟨-, l₁, l₂, t, report, hcut, -, -, -, hmem, hsize⟩
  have hreport : ⟨.recv qfupl, some report⟩ ∈ misreported := by
    rw [hcut]
    simp [hmem]
  obtain rfl : report = [.int 0, .int 0] := by
    simpa [misreported, connectFormat, okFormat, qfupl, listReport] using hreport
  exact absurd hsize (by decide)

end Bg96.Modem
