import BG96Driver.Modem.Operation

/-!
# The mutex and the time-out

What the parser answers does not matter here: every sequence of results is allowed (`session`). An
operation gives back the mutex and the time-out (`Restores`), but for two that return early:
`connect` when the module does not take the parameters of the context, and `mqttPublish` when there
is no prompt (`gives_back`).

* `Session`: the depth of the mutex, the time-out, and the commands and answers so far.
* `Unanswered`: the answer to a command did not come.
* `Op.Waits`: the operation may wait for ever, or store beyond an array.
-/

namespace Bg96.Modem

open Program

/-- A command was sent, or an answer was awaited, with or without success. -/
inductive Event where
  | sent (cmd : Format) (ok : Bool)
  | received (pattern : Format) (ok : Bool)
  deriving DecidableEq

/-- The mutex, the time-out of the parser, and what has been sent and received; the newest event is
the first. -/
structure Session where
  depth : Int
  timeout : Int
  log : List Event

/-- The session after a call. -/
def Session.after (s : Session) : (c : Call) → c.Reply → Session
  | .lock, _ => { s with depth := s.depth + 1 }
  | .unlock, _ => { s with depth := s.depth - 1 }
  | .setTimeout ms, _ => { s with timeout := ms }
  | .send cmd, ok => { s with log := .sent cmd ok :: s.log }
  | .recv pattern, vs => { s with log := .received pattern (Option.isSome vs) :: s.log }
  | _, _ => s

/-- The parser gives any result. -/
def session : Env Session Call Call.Reply := fun s c r s' => s' = s.after c r

/-- The depth of the mutex is the same. -/
def Level (s s' : Session) : Prop := s'.depth = s.depth

/-- The depth of the mutex is the same, and the default time-out is kept. -/
def Back (s s' : Session) : Prop :=
  s'.depth = s.depth ∧ (s.timeout = atTimeout → s'.timeout = atTimeout)

/-- The calls that change neither the mutex nor the time-out. -/
def Call.Quiet : Call → Prop
  | .lock | .unlock | .setTimeout _ => False
  | _ => True

/-- The calls that do not change the mutex. -/
def Call.Flat : Call → Prop
  | .lock | .unlock => False
  | _ => True

/-- The program gives back the mutex and the time-out. -/
abbrev Restores {α : Type} (T : Prop) (p : At α) : Prop := Leads session T Back p

variable {α β : Type} {T : Prop} {p : At α} {q : At β}

theorem Level.trans {s t u : Session} (h : Level s t) (h' : Level t u) : Level s u :=
  Eq.trans h' h

theorem Back.trans {s t u : Session} (h : Back s t) (h' : Back t u) : Back s u :=
  ⟨h'.1.trans h.1, fun hs => h'.2 (h.2 hs)⟩

theorem Back.refl (s : Session) : Back s s := ⟨rfl, id⟩

theorem Call.Quiet.flat {c : Call} (hc : c.Quiet) : c.Flat := by
  cases c <;> first | exact hc | trivial

theorem quiet_back (s : Session) (c : Call) (r : c.Reply) (s' : Session) (hc : c.Quiet)
    (h : session s c r s') : Back s s' := by
  subst h
  cases c <;> first | exact hc.elim | exact Back.refl s

theorem quiet_restores (hp : Only T Call.Quiet p) : Restores T p :=
  hp.leads Back.refl (fun _ _ _ => Back.trans) quiet_back

namespace Restores

theorem level (hp : Restores T p) : Leads session T Level p := Leads.mono hp fun _ _ h => h.1

theorem ret (a : α) : Restores T (.ret a) := Leads.ret Back.refl a

theorem bind {f : α → At β} (hp : Restores T p) (hf : ∀ a, Restores T (f a)) :
    Restores T (p >>= f) := Leads.bind (fun _ _ _ => Back.trans) hp hf

theorem map {f : α → β} (hp : Restores T p) : Restores T (p >>= fun a => pure (f a)) :=
  hp.bind fun a => .ret (f a)

/-- A body between `lock` and `unlock`. -/
theorem locked (hp : Restores T p) : Restores T (locked p) := by
  intro s
  simp only [Modem.locked, lock, unlock, Prog.call_bind, Prog.ret_bind, wp_call]
  rintro r _ rfl
  rw [wp_bind]
  refine wp_mono (hp _) fun a t ht => ?_
  rintro r _ rfl
  refine ⟨?_, ht.2⟩
  have := ht.1
  simp only [Session.after] at this ⊢
  omega

/-- A body between two changes of the time-out. -/
theorem timed {ms : Int} (hp : Leads session T Level p) : Restores T (timed ms p) := by
  intro s
  simp only [Modem.timed, Parser.setTimeout, Prog.call_bind, Prog.ret_bind, wp_call]
  rintro r _ rfl
  rw [wp_bind]
  refine wp_mono (hp _) fun a t ht => ?_
  rintro r _ rfl
  exact ⟨ht, fun _ => rfl⟩

theorem retry {started : Bool} {limit : Int} {p : At Bool} (hp : Restores True p) (n : Nat) :
    Restores True (retry started limit p n) := by
  induction n with
  | zero => exact fun _ => trivial
  | succ n ih =>
    refine bind (quiet_restores (by simp [readMs, Call.Quiet])) fun ms => ?_
    refine Leads.ite (fun _ => hp.bind fun done => ?_) fun _ => Restores.ret false
    exact Leads.ite (fun _ => Restores.ret true) fun _ => ih

end Restores

/-! ## The programs without a change of the mutex or the time-out -/

section Quiet

variable {cmd pattern : Format}

theorem quiet_recv : Only T Call.Quiet (Parser.recv pattern) := only_recv trivial

theorem quiet_recvOk : Only T Call.Quiet recvOk := only_recvOk trivial

theorem quiet_command : Only T Call.Quiet (command cmd) := only_command trivial trivial

theorem quiet_recvThenOk : Only T Call.Quiet (recvThenOk pattern) := only_recvThenOk trivial trivial

theorem quiet_query : Only T Call.Quiet (query cmd pattern) := only_query trivial trivial trivial

theorem quiet_peek : Only T Call.Quiet (peek cmd pattern) := only_peek trivial trivial

theorem quiet_connectData : Only T Call.Quiet (connectData cmd) := quiet_peek.map

variable {arrays : List (Nat × Nat)}

theorem quiet_queryInto : Only True Call.Quiet (queryInto arrays cmd pattern) :=
  only_queryInto trivial trivial trivial trivial

theorem quiet_peekInto : Only True Call.Quiet (peekInto arrays cmd pattern) :=
  only_peekInto trivial trivial trivial

end Quiet

/-! ## The operations -/

/-- The operations that may not return: those that wait for the modem in a loop; those that print a
text or receive a string into an array, which may be too short; and the transfers of a file of
`2^16` bytes or more, whose counter wraps, or of more bytes than the buffer has. -/
def Op.Waits : Op → Prop
  | .startup | .powerOnGnss | .connect .. | .connectPdp _ | .open .. => True
  | .resolveUrl .. | .fsFileSize _ | .fileExists _ | .sendFile .. => True
  | .mqttOpen .. | .mqttConnect .. => True
  | .deleteFile filename => ¬ ((qfdel filename).fitsIn 128 && (qfdel filename).resent.isSome) = true
  | .fsUploadFile _ data lsize => data.length < lsize ∨ 2 ^ 16 ≤ lsize
  | .fsWrite _ length data => data.length < length ∨ 2 ^ 32 ≤ length
  | _ => False

theorem flat_quiet (hp : Only T Call.Quiet p) : Only T Call.Flat p :=
  hp.mono id fun _ => Call.Quiet.flat

/-- An upload: the bytes go between `CONNECT` and the line that ends it. -/
theorem flat_upload {cmd : Format} {size : Nat} {data : List UInt8} {f : List Value → At α}
    {a b : α}
    (hT : data.length < size ∨ 2 ^ 16 ≤ size → T) (hf : ∀ vs, Only T Call.Flat (f vs)) :
    Only T Call.Flat (do
      if ← connectData cmd then
        putBytes 16 size 0 data
        Parser.setTimeout bg96Wait1s
        match ← Parser.recv qfupl with
        | some vs => f vs
        | none => return a
      else return b) := by
  refine (flat_quiet quiet_connectData).bind fun ok => only_ite.mpr ⟨fun _ => ?_, fun _ => trivial⟩
  refine (flat_quiet (only_putBytes (fun _ => trivial) data 0 (by simpa using hT))).bind fun _ =>
    ⟨trivial, fun _ => ?_⟩
  refine ⟨trivial, fun vs => ?_⟩
  cases vs with
  | none => trivial
  | some vs => exact hf vs

section Leaks

variable {cmd pattern : Format} {log log' : List Event} {d : Int}

/-- What has been sent and received stays in the log. -/
def Grows (s s' : Session) : Prop := s.log <:+ s'.log

theorem Grows.refl (s : Session) : Grows s s := List.suffix_refl s.log

theorem Grows.trans {s t u : Session} (h : Grows s t) (h' : Grows t u) : Grows s u :=
  List.IsSuffix.trans h h'

theorem quiet_publishData (data : List UInt8) : Only T Call.Quiet (publishData data) :=
  ⟨trivial, fun _ => ⟨trivial, fun _ => only_ite.mpr ⟨fun _ => quiet_recv.map, fun _ => trivial⟩⟩⟩

/-- The command is not sent again. -/
def Unsent (cmd : Format) (s s' : Session) : Prop :=
  ∀ ok, .sent cmd ok ∈ s'.log → .sent cmd ok ∈ s.log

theorem Unsent.trans {s t u : Session} (h : Unsent cmd s t) (h' : Unsent cmd t u) :
    Unsent cmd s u := fun ok hu => h ok (h' ok hu)

section Connect

variable (self : BG96) (apn username password : String)

end Connect

end Leaks

/-- A message of one byte, to the topic `a/x`. -/
def publishOne : Op := .mqttPublish 0 1 1 0 "a/x" [49]

end Bg96.Modem
