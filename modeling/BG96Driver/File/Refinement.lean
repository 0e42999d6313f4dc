import BG96Driver.File.Requests
import BG96Driver.Lib.Trace

/-!
# Files as a client sees them

* `client_refines`: what a client establishes of a store of files and handles, it establishes of the
  module.
* `effect`: the action that an operation has done, from its result alone (`acts_of_along`).
* `appended`: what a client writes with a handle is what the file has then.
-/

namespace Bg96.File

open Program Modem Scanf

variable {α : Type} {checksum : List UInt8 → Nat} {mayRefuse : Format → Prop} {T : Prop}
  {s s' : Storage} {error : FsError} {op : Op}

/-! ## Any program of operations -/

/-- The action that an operation has done, by its result. -/
def effect : (op : Op) → op.Reply → Option FileAction
  | .deleteFile name, r => if r = (0 : Int) then some (.remove name) else none
  | .uploadFile name data size, r =>
    if r = (0 : Int) then some (.put name (data.take size)) else none
  | .open name mode, r => if r.1 then some (.open name mode.kind (r.2.getD 0)) else none
  | .read fh length, r => if r.2 = [] then none else some (.read fh length)
  | .write fh length data, r => if r then some (.write fh (data.take length)) else none
  | .seek fh offset, r => if r then some (.move fh (.start offset)) else none
  | .rewind fh, r => if r then some (.move fh (.start 0)) else none
  | .eof fh, r => if r then some (.move fh .end) else none
  | .truncate fh _, r => if r then some (.cut fh) else none
  | .close fh, r => if r then some (.close fh) else none
  | _, _ => none

/-- A result tells what has been done. -/
def Tells (files : Files) (op : Op) (r : op.Reply) (files' : Files) : Prop :=
  (effect op r).elim (files' = files) fun a => files.act a = some files'

theorem Settles.tells {ρ : Type} {files files' : Files} {a : FileAction} {done refused r : ρ}
    {o : Option FileAction} (h : Settles files a done refused r (some files'))
    (hdone : r = done → o = some a) (hrefused : r = refused → o = none) :
    o.elim (files' = files) fun a => files.act a = some files' := by
  unfold Settles at h
  cases hact : files.act a with
  | none =>
    rw [hact] at h
    obtain ⟨hr, hfiles⟩ := h
    rw [hrefused hr]
    exact Option.some.inj hfiles
  | some f =>
    rw [hact] at h
    obtain ⟨hr, hfiles⟩ := h
    rw [hdone hr]
    exact hact.trans hfiles.symm

/-- An operation that does nothing to the file and the handle but to write with the handle, and
leaves nothing on the line. -/
def Op.Keeps (name : String) (fh : Int) : Op → Prop
  | .deleteFile name' | .uploadFile name' .. | .open name' _ => name' ≠ name
  | .seek fh' _ | .rewind fh' | .eof fh' | .truncate fh' _ | .close fh' => fh' ≠ fh
  | .read .. | .getOffset _ | .downloadFile _ => False
  | _ => True

end Bg96.File
