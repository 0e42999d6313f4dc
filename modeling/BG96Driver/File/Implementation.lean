import BG96Driver.Modem.Files

/-!
# `FSImplementation`

The file operations of the interface over those of `BG96`. Each operation makes one call of `BG96`
(`fs_download_file` two), and then sets `_fs_error`: to "no error", or, after a failure, with
`BG96::getError`.

* `Call`: the calls of `BG96`, and the two ways to set `_fs_error`.
* `fsFreeSize`, ...: the operations as programs of these calls.
* `Op`, `Op.run`: all the operations as one function.
* `handler`: what the calls are for `BG96`. `Op.at` is an operation as a program of the parser.
-/

namespace Bg96.File

open Program

/-- `FS_ERROR`. -/
structure FsError where
  description : String
  errornum : Int
  deriving DecidableEq

/-- A default-initialised `FS_ERROR`. -/
def noError : FsError := ⟨"", 0⟩

/-- `FILE_POS`. -/
inductive FilePos where
  | startOfFile
  | currentPosition
  | endOfFile

def FilePos.toInt : FilePos → Int
  | .startOfFile => 0
  | .currentPosition => 1
  | .endOfFile => 2

/-- `FILE_MODE`. -/
inductive FileMode where
  | createRw
  | overwriteRw
  | existonlyRo

def FileMode.toInt : FileMode → Int
  | .createRw => 0
  | .overwriteRw => 1
  | .existonlyRo => 2

/-! ## The calls -/

/-- What an operation calls or sets. -/
inductive Call where
  | fsSize
  | fsNfiles
  | fsFileSize (filename : String)
  | fsDeleteFile (filename : String)
  | fsUploadFile (filename : String) (data : List UInt8) (lsize : Nat)
  | fsDownloadFile (filename : String) (filesize : Nat)
  | fsOpen (filename : String) (mode : FileMode)
  | fsRead (fh : Int) (length : Nat)
  | fsWrite (fh : Int) (length : Nat) (data : List UInt8)
  | fsSeek (fh : Int) (offset : Nat) (position : FilePos)
  | fsGetOffset (fh : Int)
  | fsTruncate (fh : Int) (offset : Nat)
  | fsClose (fh : Int)
  /-- `_bg96->getError(_fs_error)`. -/
  | getError
  /-- `_fs_error = error`, where `error` is default-initialised. -/
  | clearError

/-- What a call gives: that of the `BG96` operation, as it is in `BG96Driver/Modem/Files.lean`. -/
@[reducible] def Call.Reply : Call → Type
  | .fsSize | .fsNfiles => Int × Option (Int × Int)
  | .fsFileSize _ | .fsOpen .. | .fsGetOffset _ => Int × Option Int
  | .fsDeleteFile _ | .fsWrite .. | .fsSeek .. | .fsTruncate .. | .fsClose _ => Int
  | .fsUploadFile .. => Int × Int
  | .fsDownloadFile .. => Int × Int × Option Int × List UInt8
  | .fsRead .. => Int × List UInt8
  | .getError | .clearError => Unit

/-- A program of file operations. -/
abbrev Fs := Prog Call Call.Reply

variable {α : Type}

/-- A call, then `_fs_error`: it is cleared if `ok` takes the reply for a success. -/
def reporting (c : Call) (ok : c.Reply → Bool) : Fs c.Reply :=
  .call c fun r => if ok r then .call .clearError fun _ => .ret r
    else .call .getError fun _ => .ret r

theorem reporting_bind {β : Type} (c : Call) (accept : c.Reply → Bool) (f : c.Reply → Fs β) :
    reporting c accept >>= f = .call c fun r =>
      if accept r then .call .clearError fun _ => f r else .call .getError fun _ => f r := by
  show Prog.call c _ = Prog.call c _
  congr 1
  funext r
  show Prog.bind (if _ then _ else _) f = _
  split <;> rfl

/-- The result is `NSAPI_ERROR_OK`. -/
def isOk (n : Int) : Bool := n = nsapiErrorOk

/-! ## The operations -/

/-- `FSImplementation::fs_free_size`. -/
def fsFreeSize : Fs Int := do
  let (rc, sizes) ← reporting .fsSize fun r => isOk r.1
  return if isOk rc then sizes.elim 0 Prod.fst else 0

/-- `FSImplementation::fs_total_size`. -/
def fsTotalSize : Fs Int := do
  let (rc, sizes) ← reporting .fsSize fun r => isOk r.1
  return if isOk rc then sizes.elim 0 Prod.snd else 0

/-- `FSImplementation::fs_total_number_of_files`. -/
def fsTotalNumberOfFiles : Fs Int := do
  let (rc, files) ← reporting .fsNfiles fun r => isOk r.1
  return if isOk rc then files.elim 0 Prod.snd else 0

/-- `FSImplementation::fs_total_size_of_files`. -/
def fsTotalSizeOfFiles : Fs Int := do
  let (rc, files) ← reporting .fsNfiles fun r => isOk r.1
  return if isOk rc then files.elim 0 Prod.fst else 0

/-- `FSImplementation::fs_file_size`. -/
def fsFileSize (filename : String) : Fs Int := do
  let (rc, filesize) ← reporting (.fsFileSize filename) fun r => isOk r.1
  return if isOk rc then filesize.getD 0 else 0

/-- `FSImplementation::fs_file_exists`. -/
def fsFileExists (filename : String) : Fs Bool := do
  return isOk (← reporting (.fsFileSize filename) fun r => isOk r.1).1

/-- `FSImplementation::fs_delete_file`. -/
def fsDeleteFile (filename : String) : Fs Int := do
  return if (← reporting (.fsDeleteFile filename) fun rc => rc = 0) = 0 then 0 else -1

/-- `FSImplementation::fs_upload_file`. -/
def fsUploadFile (filename : String) (data : List UInt8) (size : Nat) : Fs Int := do
  let (rc, lsize) ← reporting (.fsUploadFile filename data size) fun r => isOk r.1 && r.2 = size
  return if isOk rc && lsize = size then 0 else -1

/-- `FSImplementation::fs_download_file`: its result, `checksum` if it is stored, and the data. -/
def fsDownloadFile (filename : String) : Fs (Int × Option Int × List UInt8) := do
  let fsize ← fsFileSize filename
  let (rc, fsize, checksum, data) ←
    reporting (.fsDownloadFile filename fsize.toNat) fun r => isOk r.1
  return (if isOk rc then fsize else 0, checksum, data)

/-- `FSImplementation::fs_open`: its result, and what is stored in `fh`. -/
def fsOpen (filename : String) (mode : FileMode) : Fs (Bool × Option Int) := do
  let (rc, fh) ← reporting (.fsOpen filename mode) fun r => isOk r.1
  return (isOk rc, fh)

/-- `FSImplementation::fs_read`: its result, and the data. -/
def fsRead (fh : Int) (length : Nat) : Fs (Bool × List UInt8) := do
  let (rc, data) ← reporting (.fsRead fh length) fun r => isOk r.1
  return (isOk rc, data)

/-- `FSImplementation::fs_write`. -/
def fsWrite (fh : Int) (length : Nat) (data : List UInt8) : Fs Bool := do
  return isOk (← reporting (.fsWrite fh length data) isOk)

/-- `FSImplementation::fs_seek`. -/
def fsSeek (fh : Int) (offset : Nat) : Fs Bool := do
  return isOk (← reporting (.fsSeek fh offset .startOfFile) isOk)

/-- `FSImplementation::fs_rewind`. -/
def fsRewind (fh : Int) : Fs Bool := do
  return isOk (← reporting (.fsSeek fh 0 .startOfFile) isOk)

/-- `FSImplementation::fs_eof`. -/
def fsEof (fh : Int) : Fs Bool := do
  return isOk (← reporting (.fsSeek fh 0 .endOfFile) isOk)

/-- `FSImplementation::fs_get_offset`: its result, and what is stored in `offset`. -/
def fsGetOffset (fh : Int) : Fs (Bool × Option Int) := do
  let (rc, offset) ← reporting (.fsGetOffset fh) fun r => isOk r.1
  return (isOk rc, offset)

/-- `FSImplementation::fs_truncate`. -/
def fsTruncate (fh : Int) (offset : Nat) : Fs Bool := do
  return isOk (← reporting (.fsTruncate fh offset) isOk)

/-- `FSImplementation::fs_close`. -/
def fsClose (fh : Int) : Fs Bool := do
  return isOk (← reporting (.fsClose fh) isOk)

/-! ## All operations -/

/-- The operations of `FSInterface`. -/
inductive Op where
  | freeSize
  | totalSize
  | totalNumberOfFiles
  | totalSizeOfFiles
  | fileSize (filename : String)
  | fileExists (filename : String)
  | deleteFile (filename : String)
  | uploadFile (filename : String) (data : List UInt8) (size : Nat)
  | downloadFile (filename : String)
  | open (filename : String) (mode : FileMode)
  | read (fh : Int) (length : Nat)
  | write (fh : Int) (length : Nat) (data : List UInt8)
  | seek (fh : Int) (offset : Nat)
  | rewind (fh : Int)
  | eof (fh : Int)
  | getOffset (fh : Int)
  | truncate (fh : Int) (offset : Nat)
  | close (fh : Int)

@[reducible] def Op.Reply : Op → Type
  | .freeSize | .totalSize | .totalNumberOfFiles | .totalSizeOfFiles | .fileSize _ | .deleteFile _
  | .uploadFile .. => Int
  | .fileExists _ | .write .. | .seek .. | .rewind _ | .eof _ | .truncate .. | .close _ => Bool
  | .downloadFile _ => Int × Option Int × List UInt8
  | .open .. | .getOffset _ => Bool × Option Int
  | .read .. => Bool × List UInt8

def Op.run : (op : Op) → Fs op.Reply
  | .freeSize => fsFreeSize
  | .totalSize => fsTotalSize
  | .totalNumberOfFiles => fsTotalNumberOfFiles
  | .totalSizeOfFiles => fsTotalSizeOfFiles
  | .fileSize filename => fsFileSize filename
  | .fileExists filename => fsFileExists filename
  | .deleteFile filename => fsDeleteFile filename
  | .uploadFile filename data size => fsUploadFile filename data size
  | .downloadFile filename => fsDownloadFile filename
  | .open filename mode => fsOpen filename mode
  | .read fh length => fsRead fh length
  | .write fh length data => fsWrite fh length data
  | .seek fh offset => fsSeek fh offset
  | .rewind fh => fsRewind fh
  | .eof fh => fsEof fh
  | .getOffset fh => fsGetOffset fh
  | .truncate fh offset => fsTruncate fh offset
  | .close fh => fsClose fh

/-! ## The calls as programs of the parser -/

open Modem in
/-- `BG96::getError` with an `FS_ERROR`, which the first `recv` fills: the error after it. -/
def getError (error : FsError) : At FsError :=
  locked do
    if ← Parser.send ⟨"AT+QIGETERROR", []⟩ then
      match ← Parser.recv ⟨"+QIGETERROR: %d,%[^\\n]", []⟩ with
      | some vs =>
        let _ ← recvOk
        return ⟨strAt vs 1, intAt vs 0⟩
      | none => return error
    else return error

/-- What a call does, where `error` is `_fs_error`. -/
def handler (error : FsError) : (c : Call) → Modem.At (c.Reply × FsError)
  | .fsSize => do return (← Modem.fsSize, error)
  | .fsNfiles => do return (← Modem.fsNfiles, error)
  | .fsFileSize filename => do return (← Modem.fsFileSize filename, error)
  | .fsDeleteFile filename => do return (← Modem.fsDeleteFile filename, error)
  | .fsUploadFile filename data lsize => do return (← Modem.fsUploadFile filename data lsize, error)
  | .fsDownloadFile filename filesize => do return (← Modem.fsDownloadFile filename filesize, error)
  | .fsOpen filename mode => do return (← Modem.fsOpen filename mode.toInt, error)
  | .fsRead fh length => do return (← Modem.fsRead fh length, error)
  | .fsWrite fh length data => do return (← Modem.fsWrite fh length data, error)
  | .fsSeek fh offset position => do return (← Modem.fsSeek fh offset position.toInt, error)
  | .fsGetOffset fh => do return (← Modem.fsGetOffset fh, error)
  | .fsTruncate fh offset => do return (← Modem.fsTruncate fh offset, error)
  | .fsClose fh => do return (← Modem.fsClose fh, error)
  | .getError => do return ((), ← getError error)
  | .clearError => return ((), noError)

/-- An operation as a program of the parser: its result, and `_fs_error` after it. -/
def Op.at (op : Op) (error : FsError) : Modem.At (op.Reply × FsError) := op.run.interp handler error

end Bg96.File
