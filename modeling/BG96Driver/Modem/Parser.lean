import BG96Driver.Lib.Printf
import BG96Driver.Lib.Program
import BG96Driver.Basic
import Mathlib.Data.List.Basic

/-!
# The calls of `BG96`

The operations of `BG96` are programs (`At`) whose calls go to the mutex `_bg96_mutex`, the parser
`_parser`, the serial line and a timer. What these answer is left to an environment. Calls of
`debug` and `wait` are left out, as nothing depends on them.

* `Format`: the format of a `send` or `recv`, with the arguments that are printed into it.
* `sprintf`, `sprintfCommand`, `recvInto`: what is stored in an array. A store beyond its end is not
  defined, so the program stops there.
* `locked`, `timed`: a body between `lock` and `unlock`, and between two changes of the time-out.
* `command`, `query`, `peek`: a command and what is received after it. A `peek` does not receive the
  final `OK`.
-/

namespace Bg96.Modem

open Program
open Scanf (bytes)

/-- An argument of a `printf` format, or what a conversion of a `scanf` format gives. -/
inductive Value where
  | int (n : Int)
  | str (s : String)
  deriving DecidableEq, Repr

/-- The integer at an index; a format has conversions for the indices that are used. -/
def intAt (vs : List Value) (i : Nat) : Int :=
  match vs[i]? with
  | some (.int n) => n
  | _ => 0

def strAt (vs : List Value) (i : Nat) : String :=
  match vs[i]? with
  | some (.str s) => s
  | _ => ""

/-- A format with its arguments. A command that is printed into an array, which is then the format
of the `send`, is the format of the `sprintf`; `Format.resent` is what is sent. -/
structure Format where
  text : String
  args : List Value
  deriving DecidableEq, Repr

/-- The argument that is printed. -/
def Value.arg : Value → Printf.Arg
  | .int n => .int n
  | .str s => .str (bytes s)

namespace Format

variable (f : Format)

/-- The text of a format with its arguments. -/
def printed : Option (List UInt8) := Printf.printf (bytes f.text) (f.args.map Value.arg)

/-- The text and its `NUL` fit in an array of the size. -/
def fitsIn (size : Nat) : Bool := f.printed.any (·.length < size)

/-- What is sent of the text when it is the format of a `send` without arguments. -/
def resent : Option (List UInt8) := f.printed.bind fun line => Printf.printf line []

end Format

/-- A call. `readMs started` reads a timer, which has been started or not. -/
inductive Call where
  | lock
  | unlock
  | setTimeout (ms : Int)
  | debugOn (on : Bool)
  | send (cmd : Format)
  | recv (pattern : Format)
  | write (data : List UInt8)
  | read (size : Int)
  | getc
  | putc (c : UInt8)
  | flush
  | readable
  | writable
  | readMs (started : Bool)
  deriving DecidableEq

/-- What a call gives. `recv` gives the values of its conversions, `none` if nothing matches in
time; `read` its result and the bytes that it has stored; `getc` is `none` for `-1`. -/
@[reducible] def Call.Reply : Call → Type
  | .lock | .unlock | .setTimeout _ | .debugOn _ | .flush => Unit
  | .send _ | .readable | .writable => Bool
  | .recv _ => Option (List Value)
  | .read _ => Int × List UInt8
  | .getc => Option UInt8
  | .write _ | .putc _ | .readMs _ => Int

/-- A program of the driver. -/
abbrev At := Prog Call Call.Reply

variable {α : Type}

namespace Parser

def send (cmd : Format) : At Bool := .call (.send cmd) .ret
def recv (pattern : Format) : At (Option (List Value)) := .call (.recv pattern) .ret
def write (data : List UInt8) : At Int := .call (.write data) .ret
def read (size : Int) : At (Int × List UInt8) := .call (.read size) .ret
def getc : At (Option UInt8) := .call .getc .ret
def putc (c : UInt8) : At Int := .call (.putc c) .ret
def flush : At Unit := .call .flush .ret
def setTimeout (ms : Int) : At Unit := .call (.setTimeout ms) .ret
def debugOn (on : Bool) : At Unit := .call (.debugOn on) .ret

end Parser

def lock : At Unit := .call .lock .ret
def unlock : At Unit := .call .unlock .ret
def readMs (started : Bool) : At Int := .call (.readMs started) .ret

/-- `BG96_AT_TIMEOUT`. -/
def atTimeout : Int := 1000

/-- The format `"OK"`. -/
def okFormat : Format := ⟨"OK", []⟩

/-- `_bg96_mutex.lock(); p; _bg96_mutex.unlock();` -/
def locked (p : At α) : At α := do
  lock
  let a ← p
  unlock
  return a

/-- `_parser.set_timeout(ms); p; _parser.set_timeout(BG96_AT_TIMEOUT);` -/
def timed (ms : Int) (p : At α) : At α := do
  Parser.setTimeout ms
  let a ← p
  Parser.setTimeout atTimeout
  return a

/-- `_parser.recv("OK")` -/
def recvOk : At Bool := do
  return (← Parser.recv okFormat).isSome

/-- `_parser.send(cmd) && _parser.recv("OK")` -/
def command (cmd : Format) : At Bool := do
  if ← Parser.send cmd then recvOk else return false

/-- `_parser.recv(pattern) && _parser.recv("OK")` -/
def recvThenOk (pattern : Format) : At (Option (List Value)) := do
  match ← Parser.recv pattern with
  | some vs => if ← recvOk then return some vs else return none
  | none => return none

/-- `_parser.send(cmd) && _parser.recv(pattern) && _parser.recv("OK")` -/
def query (cmd pattern : Format) : At (Option (List Value)) := do
  if ← Parser.send cmd then recvThenOk pattern else return none

/-- `_parser.send(cmd) && _parser.recv(pattern)` -/
def peek (cmd pattern : Format) : At (Option (List Value)) := do
  if ← Parser.send cmd then Parser.recv pattern else return none

/-- `while (!done && t.read_ms() < limit) done = p;` in at most the given turns. -/
def retry (started : Bool) (limit : Int) (p : At Bool) : Nat → At Bool
  | 0 => .stop
  | n + 1 => do
    if (← readMs started) < limit then
      if ← p then return true else retry started limit p n
    else return false

/-! ## Arrays -/

/-- `sprintf(array, f)` with an array of the size. -/
def sprintf (size : Nat) (f : Format) : At Unit := if f.fitsIn size then return () else .stop

/-- `sprintf(cmd, f)` for a `send(cmd)`. A `%` in the text that takes an argument is not defined. -/
def sprintfCommand (size : Nat) (f : Format) : At Unit :=
  if f.fitsIn size && f.resent.isSome then return () else .stop

/-- The strings fit in their arrays: these are given by a conversion and a size. -/
def fit (arrays : List (Nat × Nat)) (vs : List Value) : Bool :=
  arrays.all fun a => (strAt vs a.1).utf8ByteSize < a.2

/-- `_parser.recv(pattern, ...)` with arrays for the strings. -/
def recvInto (arrays : List (Nat × Nat)) (pattern : Format) : At (Option (List Value)) := do
  let vs ← Parser.recv pattern
  if vs.all (fit arrays) then return vs else .stop

/-- `query` with arrays for the strings. -/
def queryInto (arrays : List (Nat × Nat)) (cmd pattern : Format) : At (Option (List Value)) := do
  if ← Parser.send cmd then
    match ← recvInto arrays pattern with
    | some vs => if ← recvOk then return some vs else return none
    | none => return none
  else return none

/-- A query without strings. -/
theorem queryInto_nil (cmd pattern : Format) : queryInto [] cmd pattern = query cmd pattern := by
  have hall (vs : Option (List Value)) : vs.all (fit []) = true := by cases vs <;> rfl
  have hrecv : recvInto [] pattern = Parser.recv pattern :=
    congrArg (Prog.call _) (funext fun vs => if_pos (hall vs))
  rw [queryInto, hrecv]
  rfl

/-- `peek` with arrays for the strings. -/
def peekInto (arrays : List (Nat × Nat)) (cmd pattern : Format) : At (Option (List Value)) := do
  if ← Parser.send cmd then recvInto arrays pattern else return none

/-! ## Their calls -/

section Only

variable {T : Prop} {P : Call → Prop} {p : At α} {cmd pattern : Format}

theorem only_locked (hl : P .lock) (hu : P .unlock) (hp : Only T P p) : Only T P (locked p) := by
  refine ⟨hl, fun _ => hp.bind fun a => ?_⟩
  exact ⟨hu, fun _ => trivial⟩

theorem only_timed {ms : Int} (ht : ∀ ms, P (.setTimeout ms)) (hp : Only T P p) :
    Only T P (timed ms p) := by
  refine ⟨ht ms, fun _ => hp.bind fun a => ?_⟩
  exact ⟨ht atTimeout, fun _ => trivial⟩

theorem only_recv (hr : P (.recv pattern)) : Only T P (Parser.recv pattern) :=
  ⟨hr, fun _ => trivial⟩

theorem only_recvOk (hr : P (.recv okFormat)) : Only T P recvOk := (only_recv hr).map

theorem only_command (hs : P (.send cmd)) (hr : P (.recv okFormat)) : Only T P (command cmd) :=
  ⟨hs, fun _ => only_ite.mpr ⟨fun _ => only_recvOk hr, fun _ => trivial⟩⟩

theorem only_recvThenOk (hp : P (.recv pattern)) (hr : P (.recv okFormat)) :
    Only T P (recvThenOk pattern) := by
  refine (only_recv hp).bind fun vs => ?_
  cases vs with
  | none => trivial
  | some vs =>
    exact (only_recvOk hr).bind fun _ => only_ite.mpr ⟨fun _ => trivial, fun _ => trivial⟩

theorem only_query (hs : P (.send cmd)) (hp : P (.recv pattern)) (hr : P (.recv okFormat)) :
    Only T P (query cmd pattern) :=
  ⟨hs, fun _ => only_ite.mpr ⟨fun _ => only_recvThenOk hp hr, fun _ => trivial⟩⟩

theorem only_peek (hs : P (.send cmd)) (hp : P (.recv pattern)) : Only T P (peek cmd pattern) :=
  ⟨hs, fun _ => only_ite.mpr ⟨fun _ => only_recv hp, fun _ => trivial⟩⟩

variable {arrays : List (Nat × Nat)} {size : Nat} {f : Format}

theorem only_sprintf (hT : T) : Only T P (sprintf size f) :=
  only_ite.mpr ⟨fun _ => trivial, fun _ => hT⟩

theorem only_sprintfCommand (hT : ¬ (f.fitsIn size && f.resent.isSome) = true → T) :
    Only T P (sprintfCommand size f) := only_ite.mpr ⟨fun _ => trivial, hT⟩

theorem only_recvInto (hT : T) (hr : P (.recv pattern)) : Only T P (recvInto arrays pattern) :=
  ⟨hr, fun _ => only_ite.mpr ⟨fun _ => trivial, fun _ => hT⟩⟩

theorem only_queryInto (hT : T) (hs : P (.send cmd)) (hp : P (.recv pattern))
    (hr : P (.recv okFormat)) : Only T P (queryInto arrays cmd pattern) := by
  refine ⟨hs, fun _ => only_ite.mpr ⟨fun _ => ?_, fun _ => trivial⟩⟩
  refine (only_recvInto hT hp).bind fun vs => ?_
  cases vs with
  | none => trivial
  | some vs =>
    exact (only_recvOk hr).bind fun _ => only_ite.mpr ⟨fun _ => trivial, fun _ => trivial⟩

theorem only_peekInto (hT : T) (hs : P (.send cmd)) (hp : P (.recv pattern)) :
    Only T P (peekInto arrays cmd pattern) :=
  ⟨hs, fun _ => only_ite.mpr ⟨fun _ => only_recvInto hT hp, fun _ => trivial⟩⟩

end Only

/-! ## What they establish -/

section Wp

variable {S : Type} {E : Env S Call Call.Reply} {T : Prop} {Q : α → S → Prop} {p : At α} {s : S}

/-- A call that changes nothing. -/
def Idle (E : Env S Call Call.Reply) (c : Call) : Prop := ∀ s r s', E s c r s' → s' = s

theorem wp_locked (hl : Idle E .lock) (hu : Idle E .unlock) (h : wp E T Q p s) :
    wp E T Q (locked p) s := by
  intro r s' hE
  obtain rfl := hl _ _ _ hE
  show wp E T Q (p >>= _) s'
  rw [wp_bind]
  refine wp_mono h fun a t hQ => ?_
  intro r t' hE'
  obtain rfl := hu _ _ _ hE'
  exact hQ

theorem wp_timed {ms : Int} (ht : ∀ ms, Idle E (.setTimeout ms)) (h : wp E T Q p s) :
    wp E T Q (timed ms p) s := by
  intro r s' hE
  obtain rfl := ht _ _ _ _ hE
  show wp E T Q (p >>= _) s'
  rw [wp_bind]
  refine wp_mono h fun a t hQ => ?_
  intro r t' hE'
  obtain rfl := ht _ _ _ _ hE'
  exact hQ

/-! With an array in it, a program does the same or stops. -/

variable {arrays : List (Nat × Nat)} {size : Nat} {f cmd pattern : Format}

theorem wp_sprintfCommand {Q : Unit → S → Prop} (hT : T)
    (h : (f.fitsIn size && f.resent.isSome) = true → Q () s) :
    wp E T Q (sprintfCommand size f) s := by
  unfold sprintfCommand
  split
  · exact h ‹_›
  · exact hT

theorem wp_recvInto {Q : Option (List Value) → S → Prop} (hT : T)
    (h : wp E T Q (Parser.recv pattern) s) : wp E T Q (recvInto arrays pattern) s := by
  intro vs s' hE
  show wp E T Q (if vs.all (fit arrays) = true then pure vs else .stop) s'
  split
  · exact h vs s' hE
  · exact hT

theorem wp_queryInto {Q : Option (List Value) → S → Prop} (hT : T)
    (h : wp E T Q (query cmd pattern) s) : wp E T Q (queryInto arrays cmd pattern) s := by
  intro sent s' hE
  have h := h sent s' hE
  cases sent with
  | false => exact h
  | true =>
    show wp E T Q (recvInto arrays pattern >>= _) s'
    rw [wp_bind]
    exact wp_recvInto hT ((wp_bind _).mp h)

end Wp

end Bg96.Modem
