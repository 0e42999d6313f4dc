import BG96Driver.Lib.Printf
import BG96Driver.Modem.Operation

/-!
# The commands that are printed into arrays

Ten commands are printed by `sprintf` into an array of characters, and `getError` prints an error
number into one. Nothing bounds the strings, and the arrays for error numbers have no room for the
numbers of more than eight characters.

* `Text`: a format with its arguments.
* `SprintfCommand`: the commands, with the sizes of their arrays. `ErrorString`: the arrays for an
  error number.
* `Sprintf`: a call of `sprintf`. `Sprintf.Fits`: the bounds on its arguments.
* `sprintf_fits_iff`: the text and its `NUL` fit in the array if and only if the arguments do.
-/

namespace Bg96.Modem

open CString (Str CharArray nul)
open Printf (Arg width)
open Scanf (bytes)

/-- An argument of the driver. -/
inductive Argument where
  | int (n : Int)
  | str (s : Str)

/-- The argument that is printed. -/
def Argument.arg : Argument → Arg
  | int n => .int n
  | str s => .str s.chars

/-- A format with its arguments. -/
structure Text where
  format : String
  args : List Argument

namespace Text

/-- The directives of the format. -/
def directives (t : Text) : List Printf.Directive :=
  (Printf.parse none (bytes t.format)).getD []

/-- The arguments that are printed. -/
def printed (t : Text) : List Arg := t.args.map Argument.arg

/-- The strings that are printed are those of the arguments. -/
theorem forall_printed {t : Text} {P : List UInt8 → Prop} :
    (∀ s, .str s ∈ t.printed → P s) ↔ ∀ s, .str s ∈ t.args → P s.chars := by
  constructor
  · exact fun h s hs => h _ (List.mem_map_of_mem hs)
  · intro h l hl
    obtain ⟨arg, harg, heq⟩ := List.mem_map.mp hl
    cases arg with
    | int n => cases heq
    | str s =>
      cases heq
      exact h s harg

theorem nul_not_mem (t : Text) : ∀ s, .str s ∈ t.printed → nul ∉ s :=
  forall_printed.mpr fun s _ => s.nul_not_mem

end Text

/-- A command that is printed into an array and then sent. -/
inductive SprintfCommand where
  | fileExists (filename : Str)
  | deleteFile (filename : Str)
  | sendFile (filename : Str) (filesize : Int)
  | configureCacertPath (path : Str) (sslctxId : Int)
  | configureClientCertPath (path : Str) (sslctxId : Int)
  | configurePrivkeyPath (path : Str) (sslctxId : Int)
  | sslopen (hostname : Str) (port pdpCtx clientId sslctxId : Int)
  | mqttOpen (hostname : Str) (port : Int)
  | mqttConnect (sslctxId : Int) (clientid username password : Str)
  | configureMqttWill (mqttCtxId willFg willQos willRetain : Int) (willTopic willMsg : Str)

namespace SprintfCommand

def text : SprintfCommand → Text
  | fileExists filename => ⟨"AT+QFLST=\"%s\"", [.str filename]⟩
  | deleteFile filename => ⟨"AT+QFDEL=\"%s\"", [.str filename]⟩
  | sendFile filename filesize => ⟨"AT+QFUPL=\"%s\",%d", [.str filename, .int filesize]⟩
  | configureCacertPath path sslctxId =>
    ⟨"AT+QSSLCFG=\"cacert\",%d,\"%s\"", [.int sslctxId, .str path]⟩
  | configureClientCertPath path sslctxId =>
    ⟨"AT+QSSLCFG=\"clientcert\",%d,\"%s\"", [.int sslctxId, .str path]⟩
  | configurePrivkeyPath path sslctxId =>
    ⟨"AT+QSSLCFG=\"clientkey\",%d,\"%s\"", [.int sslctxId, .str path]⟩
  | sslopen hostname port pdpCtx clientId sslctxId =>
    ⟨"AT+QSSLOPEN=%d,%d,%d,\"%s\",%d",
      [.int pdpCtx, .int clientId, .int sslctxId, .str hostname, .int port]⟩
  | mqttOpen hostname port =>
    ⟨"AT+QMTOPEN=%d,\"%s\",%d", [.int 0, .str hostname, .int port]⟩
  | mqttConnect sslctxId clientid username password =>
    ⟨"AT+QMTCONN=%d,\"%s\",\"%s\",\"%s\"",
      [.int sslctxId, .str clientid, .str username, .str password]⟩
  | configureMqttWill mqttCtxId willFg willQos willRetain willTopic willMsg =>
    ⟨"AT+QMTCFG=\"will\",%d,%d,%d,%d,\"%s\",\"%s\"",
      [.int mqttCtxId, .int willFg, .int willQos, .int willRetain, .str willTopic, .str willMsg]⟩

/-- The size of `cmd`. -/
def size : SprintfCommand → Nat
  | mqttOpen .. => 80
  | mqttConnect .. | configureMqttWill .. => 256
  | _ => 128

/-- The operation accepts the arguments. -/
def Accepted : SprintfCommand → Prop
  | sslopen _ _ pdpCtx clientId _ =>
    ¬ (clientId < 0 ∨ 11 < clientId) ∧ ¬ (pdpCtx < 1 ∨ 11 < pdpCtx)
  | _ => True

/-- The number of characters that are not of the arguments. -/
def constant : SprintfCommand → Nat
  | fileExists .. | deleteFile .. => 11
  | sendFile .. => 12
  | configureCacertPath .. => 23
  | configureClientCertPath .. => 27
  | configurePrivkeyPath .. => 26
  | sslopen .. => 18
  | mqttOpen .. => 15
  | mqttConnect .. => 20
  | configureMqttWill .. => 26

/-- The bounds on the arguments. -/
def Fits : SprintfCommand → Prop
  | fileExists filename | deleteFile filename => filename.chars.length ≤ 116
  | sendFile filename filesize => filename.chars.length + width filesize ≤ 115
  | configureCacertPath path sslctxId => path.chars.length + width sslctxId ≤ 104
  | configureClientCertPath path sslctxId => path.chars.length + width sslctxId ≤ 100
  | configurePrivkeyPath path sslctxId => path.chars.length + width sslctxId ≤ 101
  | sslopen hostname port pdpCtx clientId sslctxId =>
    hostname.chars.length + width port + width pdpCtx + width clientId + width sslctxId ≤ 109
  | mqttOpen hostname port => hostname.chars.length + width port ≤ 63
  | mqttConnect sslctxId clientid username password =>
    clientid.chars.length + username.chars.length + password.chars.length + width sslctxId ≤ 235
  | configureMqttWill mqttCtxId willFg willQos willRetain willTopic willMsg =>
    willTopic.chars.length + willMsg.chars.length + width mqttCtxId + width willFg +
      width willQos + width willRetain ≤ 229

variable (c : SprintfCommand)

theorem parse_format : Printf.parse none (bytes c.text.format) = some c.text.directives := by
  cases c <;> rfl

theorem conversions_args :
    Printf.conversions c.text.directives = c.text.printed.map Arg.conversion := by
  cases c <;> rfl

theorem literals_format : Printf.literals c.text.directives = c.constant := by
  cases c <;> rfl

theorem fits_iff : c.constant + (c.text.printed.map Arg.length).sum < c.size ↔ c.Fits := by
  cases c <;>
    simp only [constant, text, size, Fits, Text.printed, Argument.arg, List.map_cons,
      List.map_nil, List.sum_cons, List.sum_nil, Arg.length, Printf.width_zero] <;>
    omega

end SprintfCommand

/-- The arrays into which `getError` prints an error number: those of `mqtt_open` and
`mqtt_connect`, that of `send_generic_cmd` when the command was acknowledged or not, and that of
`configure_cacert_path`. -/
inductive ErrorString where
  | mqttOpen
  | mqttConnect
  | sendGenericCmd (acked : Bool)
  | configureCacertPath

namespace ErrorString

/-- The size of `errstring`. -/
def size : ErrorString → Nat
  | configureCacertPath => 20
  | _ => 15

/-- The operation gets to the call of `getError`; `send_generic_cmd` if `rc < 0`. -/
def Executed : ErrorString → Prop
  | sendGenericCmd acked => (if acked then 1 else 0 : Int) < 0
  | _ => True

/-- The bounds on the error number. -/
def Fits (err : Int) : ErrorString → Prop
  | configureCacertPath => -1000000000000 < err ∧ err < 10000000000000
  | _ => -10000000 < err ∧ err < 100000000

/-- The result of `send_generic_cmd` is never negative. -/
theorem not_reached (acked : Bool) : ¬ (sendGenericCmd acked).Executed := by
  unfold Executed
  cases acked <;> decide

theorem fits_iff (errstring : ErrorString) (err : Int) :
    6 + width err < errstring.size ↔ errstring.Fits err := by
  have h8 := Printf.width_le_iff (n := err) 7
  have h13 := Printf.width_le_iff (n := err) 12
  norm_num at h8 h13
  cases errstring <;> simp only [size, Fits] <;> omega

end ErrorString

/-- A call of `sprintf`: a command, or the error number that `getError` has received. -/
inductive Sprintf where
  | command (c : SprintfCommand)
  | getError (errstring : ErrorString) (err : Int)

namespace Sprintf

def text : Sprintf → Text
  | command c => c.text
  | getError _ err => ⟨"Error:%d", [.int err]⟩

/-- The size of the array. -/
def size : Sprintf → Nat
  | command c => c.size
  | getError errstring _ => errstring.size

/-- The source gets to the call. -/
def Executed : Sprintf → Prop
  | command c => c.Accepted
  | getError errstring _ => errstring.Executed

/-- The bounds on what is printed. -/
def Fits : Sprintf → Prop
  | command c => c.Fits
  | getError errstring err => errstring.Fits err

/-- `sprintf` into the array; `none` if it writes beyond its end. -/
def run (s : Sprintf) (dest : CharArray s.size) : Option (CharArray s.size) :=
  Printf.sprintf dest (bytes s.text.format) s.text.printed

variable (s : Sprintf)

theorem parse_format :
    Printf.parse none (bytes s.text.format) = some s.text.directives := by
  cases s with
  | command c => exact c.parse_format
  | getError errstring err => rfl

theorem conversions_args :
    Printf.conversions s.text.directives = s.text.printed.map Arg.conversion := by
  cases s with
  | command c => exact c.conversions_args
  | getError errstring err => rfl

/-- The stores of the text and its `NUL` go through. -/
theorem run_isSome_iff (dest : CharArray s.size) : (s.run dest).isSome = true ↔ s.Fits := by
  rw [run, Printf.sprintf_isSome s.parse_format s.conversions_args]
  cases s with
  | command c =>
    have h := c.fits_iff
    rwa [← c.literals_format] at h
  | getError errstring err => exact errstring.fits_iff err

end Sprintf

/-- Each call of `sprintf` that the source gets to stays in its array if and only if what it prints
is in the bounds. -/
theorem sprintf_fits_iff (s : Sprintf) (dest : CharArray s.size) :
    (s.Executed → (s.run dest).isSome = true) ↔ (s.Executed → s.Fits) :=
  imp_congr_right fun _ => s.run_isSome_iff dest

/-- `BG96MQTTCLIENT_MAX_SAS_TOKEN_LENGTH`. -/
def maxSasTokenLength : Nat := 256

/-- A password of that many characters. -/
def longPassword : Str :=
  ⟨List.replicate maxSasTokenLength 65, fun h => absurd (List.eq_of_mem_replicate h) (by decide)⟩

/-- An array of `NUL`. -/
def zeros (size : Nat) : CharArray size := ⟨List.replicate size nul, List.length_replicate⟩

/-- `mqtt_connect` with the password, and the error number 100000000 in `mqtt_open`. -/
theorem sprintf_overflows :
    let connect := Sprintf.command (.mqttConnect 0 (.upTo []) (.upTo []) longPassword)
    let error := Sprintf.getError .mqttOpen 100000000
    (connect.Executed ∧ connect.run (zeros 256) = none) ∧
      error.Executed ∧ error.run (zeros 15) = none := by
  have hrun {s : Sprintf} (dest : CharArray s.size) (h : ¬ s.Fits) : s.run dest = none := by
    rw [← s.run_isSome_iff dest] at h
    simpa using h
  refine ⟨⟨trivial, hrun _ fun h => ?_⟩, trivial, hrun _ fun h => ?_⟩
  · have hlen : longPassword.chars.length = 256 := List.length_replicate
    have hle : _ + _ + longPassword.chars.length + _ ≤ 235 := h
    omega
  · exact absurd h.2 (by decide)

/-- `send_generic_cmd` never gets to its call of `getError`. -/
theorem sendGenericCmd_eq (cmd : String) (timeout : Int) :
    sendGenericCmd (some cmd) timeout = do
      let acked ← locked (timed timeout (command ⟨cmd, []⟩))
      return if acked then 1 else 0 := by
  refine congrArg (locked (timed timeout (command ⟨cmd, []⟩)) >>= ·) (funext fun acked => ?_)
  cases acked <;> rfl

end Bg96.Modem
