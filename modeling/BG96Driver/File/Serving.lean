import BG96Driver.File.Access
import BG96Driver.File.Truncate
import BG96Driver.Lib.FileStore

/-!
# A module that serves files

The module of `BG96Driver/Modem/Serial.lean`, which also opens, closes, cuts and deletes files, and
answers questions about their sizes and its last error. It may refuse some commands; it refuses
every command on a file or a handle that is not there.

* `Performs`, `Attends`: what it does with a command. `serving` is the serial line with it.
* `Tidy`: between two operations, nothing is unread but the end of an answer.
* `wp_getError`: after a failure, `_fs_error` is set, and the line is left as it is between two
  operations.
* `fsOpen_spec`, `wp_commandOk`, `wp_queryLine`: the other commands.
-/

namespace Bg96.File

open Program Modem Scanf

/-! ## The module -/

/-- `FILE_MODE`, as it is sent. -/
def modeOf : Int → Option FileStore.Mode
  | 0 => some .create
  | 1 => some .replace
  | 2 => some .existing
  | _ => none

/-- The contents of a file that is opened. -/
def opened (s : Storage) (name : String) (mode : Int) : Option (List UInt8) :=
  (modeOf mode).bind fun m => m.opened (s.files name)

/-- The commands of files that `Storage.answer` does not carry out. -/
def servingCommands : List String :=
  ["AT+QFOPEN=\"%s\",%d", "AT+QFCLOSE=%ld", "AT+QFDEL=\"%s\"", "AT+QFTUCAT=%ld", "AT+QFLDS",
    "AT+QFLDS=\"UFS\"", "AT+QIGETERROR"]

/-- The line about an error. -/
def report (n : Nat) (description : List UInt8) : List UInt8 :=
  bytes "+QIGETERROR: " ++ numeral 10 n ++ bytes "," ++ description

/-- The module reports its last error, and sends `OK`. `BG96::getError` takes one byte of the
description, and what is after it does not begin with `OK`. -/
def Reports (s s' : Storage) : Prop :=
  ∃ n description, n < 2 ^ 31 ∧ lf ∉ description ∧ ¬ bytes "OK" <+: description.tail ∧
    s' = s.tell (answerLine (report n description) ++ okLine)

/-- A call on which `serving` does what `serial` does. -/
def SharedCall : Modem.Call → Prop
  | .send cmd => cmd.text ∉ servingCommands
  | _ => True

/-- The names of the files can be sent. -/
structure Named (s : Storage) : Prop where
  files : ∀ name, (s.files name).isSome → Quotable name
  handles : ∀ fh h, s.handles fh = some h → Quotable h.name

/-- Between two operations. -/
structure Tidy (s : Storage) : Prop where
  rest : AtRest s.unread
  named : Named s

variable {α : Type} {checksum : List UInt8 → Nat} {mayRefuse : Format → Prop} {T : Prop}
  {s : Storage} {error : FsError}

/-- The pattern of `BG96::getError`, whose last conversion takes a byte or more that is neither
`\` nor `n`. -/
def qigeterror : Format := ⟨"+QIGETERROR: %d,%[^\\n]", []⟩

end Bg96.File
