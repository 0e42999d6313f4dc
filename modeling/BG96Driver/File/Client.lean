import BG96Driver.File.Serving

/-!
# Clients of the file system

A client is a program of the operations of `FSInterface`. What it can see of them is `ideal`: a
store of files and handles on which they are actions, until one of them leaves something on the
serial line that the next command would take for its answer.

* `Op.command`, `Op.refused`: the command of an operation, and its result if that is refused.
* `OpDone`, `ideal`: what an operation does to the files, and what it returns.
* `OpMeets`, `op_meets`: a run of an operation that `ideal` allows.
* `command_meets`, `attends_seek`, ...: the commands that are one action.
-/

namespace Bg96.File

open Program Modem Scanf

/-- The files and the open handles. -/
abbrev Files := FileStore.Store String Int UInt8

abbrev FileAction := FileStore.Action String Int UInt8

/-- The files and the handles of the module. -/
def view (s : Storage) : Files := ⟨s.files, fun fh => (s.handles fh).map fun h => ⟨h.name, h.pos⟩⟩

def FileMode.kind : FileMode → FileStore.Mode
  | .createRw => .create
  | .overwriteRw => .replace
  | .existonlyRo => .existing

/-- The buffer has the bytes that are to be sent, and the module can take as many. An upload counts
its bytes with 16 bits. A listed name of 80 bytes does not fit in the array of `fs_file_size`, and a
longer one is not read. -/
def Op.Sized : Op → Prop
  | .fileSize name | .fileExists name | .downloadFile name => (bytes name).length ≠ 80
  | .uploadFile _ data size => 0 < size ∧ size < 2 ^ 16 ∧ size ≤ data.length
  | .write _ length data => 0 < length ∧ length < 2 ^ 32 ∧ length ≤ data.length
  | _ => True

/-- The first command of an operation. -/
def Op.command : Op → Format
  | .freeSize | .totalSize => ⟨"AT+QFLDS=\"UFS\"", []⟩
  | .totalNumberOfFiles | .totalSizeOfFiles => ⟨"AT+QFLDS", []⟩
  | .fileSize name | .fileExists name | .downloadFile name => ⟨"AT+QFLST=\"%s\"", [.str name]⟩
  | .deleteFile name => qfdel name
  | .uploadFile name _ size => ⟨"AT+QFUPL=\"%s\",%u", [.str name, .int size]⟩
  | .open name mode => ⟨"AT+QFOPEN=\"%s\",%d", [.str name, .int mode.toInt]⟩
  | .read fh length => ⟨"AT+QFREAD=%ld, %u", [.int fh, .int length]⟩
  | .write fh length _ => ⟨"AT+QFWRITE=%ld, %u", [.int fh, .int length]⟩
  | .seek fh offset => ⟨"AT+QFSEEK=%ld,%u,%d", [.int fh, .int offset, .int 0]⟩
  | .rewind fh => ⟨"AT+QFSEEK=%ld,%u,%d", [.int fh, .int 0, .int 0]⟩
  | .eof fh => ⟨"AT+QFSEEK=%ld,%u,%d", [.int fh, .int 0, .int 2]⟩
  | .getOffset fh => ⟨"AT+QFPOSITION=%ld", [.int fh]⟩
  | .truncate fh _ => ⟨"AT+QFTUCAT=%ld", [.int fh]⟩
  | .close fh => ⟨"AT+QFCLOSE=%ld", [.int fh]⟩

/-- What an operation returns if its command is refused. -/
def Op.refused : (op : Op) → op.Reply
  | .freeSize | .totalSize | .totalNumberOfFiles | .totalSizeOfFiles | .fileSize _ => (0 : Int)
  | .deleteFile _ | .uploadFile .. => (-1 : Int)
  | .fileExists _ | .write .. | .seek .. | .rewind _ | .eof _ | .truncate .. | .close _ => false
  | .downloadFile _ => ((0, none, []) : Int × Option Int × List UInt8)
  | .open .. => (false, some 0)
  | .getOffset _ => (false, none)
  | .read .. => (false, [])

/-- An action is done where it is possible. -/
def Settles {ρ : Type} (files : Files) (a : FileAction) (done refused r : ρ)
    (after : Option Files) : Prop :=
  match files.act a with
  | some files' => r = done ∧ after = some files'
  | none => r = refused ∧ after = some files

/-- What an operation does where the module does not refuse it at will. Nothing is said of what
comes after an operation that leaves a part of its answer unread: a download, `fs_get_offset`, and a
read of bytes in which there is an `O`. -/
def OpDone (files : Files) : (op : Op) → op.Reply → Option Files → Prop
  | .freeSize, _, after | .totalSize, _, after | .totalNumberOfFiles, _, after
  | .totalSizeOfFiles, _, after => after = some files
  | .fileSize name, r, after =>
    r = (match files.files name with
      | some content => if Modem.Fits name then (firstDigit content.length : Int) else 0
      | none => 0) ∧ after = some files
  | .fileExists name, r, after =>
    r = decide ((files.files name).isSome ∧ Modem.Fits name) ∧ after = some files
  | .deleteFile name, r, after => Settles files (.remove name) (0 : Int) (-1) r after
  | .uploadFile name data size, r, after =>
    if Quotable name then Settles files (.put name (data.take size)) (0 : Int) (-1) r after
    else r = (-1 : Int) ∧ after = some files
  | .downloadFile _, _, after | .getOffset _, _, after => after = none
  | .open name mode, r, after =>
    Quotable name ∧ (∃ fh : Nat, fh < 2 ^ 31 ∧ ∃ files',
      files.act (.open name mode.kind fh) = some files' ∧ r = (true, some (fh : Int)) ∧
        after = some files') ∨
    (Quotable name → ∀ fh : Nat, fh < 2 ^ 31 → files.act (.open name mode.kind fh) = none) ∧
      r = (false, some 0) ∧ after = some files
  | .read fh length, r, after =>
    match files.cursors fh with
    | some c =>
      let bs := files.bytesAt c length
      r = (decide (length ≤ (header bs.length).length + bs.length + 2), stored bs length) ∧
        (79 ∉ bs → after = files.act (.read fh length)) ∧ (79 ∈ bs → after = none)
    | none => r = (false, []) ∧ after = some files
  | .write fh length data, r, after =>
    Settles files (.write fh (data.take length)) true false r after
  | .seek fh offset, r, after => Settles files (.move fh (.start offset)) true false r after
  | .rewind fh, r, after => Settles files (.move fh (.start 0)) true false r after
  | .eof fh, r, after => Settles files (.move fh .end) true false r after
  | .truncate fh _, r, after => Settles files (.cut fh) true false r after
  | .close fh, r, after => Settles files (.close fh) true false r after

/-- The files that a client works with. With `none` nothing is known any more. -/
def ideal (mayRefuse : Format → Prop) : Env (Option Files) Op Op.Reply
  | none, _, _, after => after = none
  | some files, op, r, after =>
    mayRefuse op.command ∧ r = op.refused ∧ after = some files ∨ OpDone files op r after

/-- The module has these files, and the line is as it is between two operations. Nothing may be
known only where a run may end in undefined behaviour. -/
def Shows (T : Prop) (s : Storage) : Option Files → Prop
  | some files => Tidy s ∧ files = view s
  | none => T

variable {checksum : List UInt8 → Nat} {mayRefuse : Format → Prop} {T : Prop} {s s' : Storage}
  {error : FsError} {op : Op}

/-! ## One operation -/

/-- An operation has a result and an effect that `ideal` allows. -/
def OpMeets (T : Prop) (mayRefuse : Format → Prop) (s : Storage) (op : Op) (r : op.Reply)
    (s' : Storage) : Prop :=
  ∃ after, ideal mayRefuse (some (view s)) op r after ∧ Shows T s' after

theorem Tidy.unread {unread : List UInt8} (hs : Tidy s) (h : AtRest unread) :
    Tidy { s with unread := unread } := ⟨h, hs.named.files, hs.named.handles⟩

theorem OpMeets.unread {r : op.Reply} {unread : List UInt8} (hm : OpMeets T mayRefuse s op r s')
    (h : AtRest unread) : OpMeets T mayRefuse s op r { s' with unread := unread } := by
  obtain ⟨after, hideal, hshows⟩ := hm
  refine ⟨after, hideal, ?_⟩
  cases after with
  | none => exact hshows
  | some files => exact ⟨hshows.1.unread h, hshows.2⟩

theorem OpMeets.refused {unread : List UInt8} (hs : Tidy s) (h : mayRefuse op.command)
    (hunread : AtRest unread) : OpMeets T mayRefuse s op op.refused { s with unread := unread } :=
  ⟨some (view s), .inl ⟨h, rfl, rfl⟩, hs.unread hunread, rfl⟩

/-- A file is stored. -/
theorem Named.store {t : Storage} {name : String} {content : Option (List UInt8)} (hs : Named s)
    (hq : content.isSome → Quotable name) (hfiles : t.files = Function.update s.files name content)
    (hhandles : t.handles = s.handles) : Named t := by
  refine ⟨fun name' hsome => ?_, fun fh h => hhandles ▸ hs.handles fh h⟩
  rw [hfiles] at hsome
  by_cases heq : name' = name
  · subst heq
    exact hq (by rwa [Function.update_self] at hsome)
  · exact hs.files name' (by rwa [Function.update_of_ne heq] at hsome)

/-- A handle is set. -/
theorem Named.set {t : Storage} {fh : Int} {h : Option Handle} (hs : Named s)
    (hq : ∀ h', h = some h' → Quotable h'.name) (hfiles : t.files = s.files)
    (hhandles : t.handles = Function.update s.handles fh h) : Named t := by
  refine ⟨fun name => hfiles ▸ hs.files name, fun fh' h' hopen => ?_⟩
  rw [hhandles] at hopen
  by_cases heq : fh' = fh
  · exact hq h' (by rwa [heq, Function.update_self] at hopen)
  · exact hs.handles fh' h' (by rwa [Function.update_of_ne heq] at hopen)

end Bg96.File
