import BG96Driver.Lib.Trace
import BG96Driver.Modem.Network

/-!
# What is said in a call

The traces of the operations of `BG96` (`BG96Driver/Lib/Trace.lean`): the calls that an operation
makes and what the parser answers. Every answer is possible.

* `spoken`: the part of a trace that is about the module.
* `Traces.locked`, `Traces.timed`, `Traces.command`, ...: what is said in the parts that operations
  are made of.
-/

namespace Bg96.Modem

open Program

/-- A call with its answer. -/
abbrev Exchange := Sigma Call.Reply

/-- The calls that send and receive. -/
def Call.Spoken : Call → Bool
  | .lock | .unlock | .setTimeout _ => false
  | _ => true

/-- What is sent and received in a trace. -/
def spoken (l : List Exchange) : List Exchange := l.filter fun e => e.1.Spoken

variable {α : Type} {p : At α} {cmd pattern : Format} {l : List Exchange} {a : α}

@[simp] theorem spoken_nil : spoken [] = [] := rfl

@[simp] theorem spoken_append (l l' : List Exchange) : spoken (l ++ l') = spoken l ++ spoken l' :=
  List.filter_append ..

theorem spoken_cons {e : Exchange} (he : e.1.Spoken = true) : spoken (e :: l) = e :: spoken l :=
  List.filter_cons_of_pos he

theorem spoken_silent {e : Exchange} (he : e.1.Spoken = false) : spoken (e :: l) = spoken l :=
  List.filter_cons_of_neg (by simp [he])

/-- A program between two calls. -/
theorem traces_between {c d : Call}
    (h : Traces (.call c fun _ => p >>= fun a => .call d fun _ => .ret a) l (some a)) :
    ∃ r l' r', l = ⟨c, r⟩ :: (l' ++ [⟨d, r'⟩]) ∧ Traces p l' (some a) := by
  obtain ⟨r, _, rfl, hp⟩ := traces_call.mp h
  obtain ⟨b, l', l₂, rfl, h₁, h₂⟩ := traces_bind_some.mp hp
  obtain ⟨r', _, rfl, hret⟩ := traces_call.mp h₂
  obtain ⟨rfl, ⟨⟩⟩ := traces_ret.mp hret
  exact ⟨r, l', r', rfl, h₁⟩

/-- A program between two calls that say nothing. -/
theorem traces_around {c d : Call} (hc : c.Spoken = false) (hd : d.Spoken = false)
    (h : Traces (.call c fun _ => p >>= fun a => .call d fun _ => .ret a) l (some a)) :
    ∃ l', spoken l = spoken l' ∧ Traces p l' (some a) := by
  obtain ⟨r, l', r', rfl, hp⟩ := traces_between h
  refine ⟨l', ?_, hp⟩
  rw [spoken_silent hc, spoken_append, spoken_silent hd, spoken_nil, List.append_nil]

theorem traces_locked (h : Traces (locked p) l (some a)) :
    ∃ l', spoken l = spoken l' ∧ Traces p l' (some a) :=
  traces_around (c := .lock) (d := .unlock) rfl rfl h

theorem traces_timed {ms : Int} (h : Traces (timed ms p) l (some a)) :
    ∃ l', spoken l = spoken l' ∧ Traces p l' (some a) :=
  traces_around (c := .setTimeout ms) (d := .setTimeout atTimeout) rfl rfl h

/-- A program in an exchange of its own: with the mutex, and with a time-out. -/
theorem traces_locked_timed {ms : Int} (h : Traces (locked (timed ms p)) l (some a)) :
    ∃ l', spoken l = spoken l' ∧ Traces p l' (some a) := by
  obtain ⟨_, hspoken, htimed⟩ := traces_locked h
  obtain ⟨l', hspoken', hp⟩ := traces_timed htimed
  exact ⟨l', hspoken.trans hspoken', hp⟩

/-- All the calls of an exchange of its own. -/
theorem traces_locked_timed_eq {ms : Int} (h : Traces (locked (timed ms p)) l (some a)) :
    ∃ l', l = ⟨.lock, ()⟩ :: ⟨.setTimeout ms, ()⟩ ::
      (l' ++ [⟨.setTimeout atTimeout, ()⟩, ⟨.unlock, ()⟩]) ∧ Traces p l' (some a) := by
  obtain ⟨_, _, _, rfl, htimed⟩ := traces_between (c := .lock) (d := .unlock) h
  obtain ⟨_, l', _, rfl, hp⟩ :=
    traces_between (c := .setTimeout ms) (d := .setTimeout atTimeout) htimed
  exact ⟨l', by simp, hp⟩

theorem traces_recvOk {ok : Bool} (h : Traces recvOk l (some ok)) :
    ∃ vs : Option (List Value), spoken l = [⟨.recv okFormat, vs⟩] ∧ ok = vs.isSome := by
  obtain ⟨vs, _, rfl, hret⟩ := traces_call.mp h
  obtain ⟨rfl, ⟨⟩⟩ := traces_ret.mp hret
  exact ⟨vs, rfl, rfl⟩

/-- The answers to a command. -/
inductive CommandCase (cmd : Format) : List Exchange → Bool → Prop where
  | unsent : CommandCase cmd [⟨.send cmd, false⟩] false
  | unanswered : CommandCase cmd [⟨.send cmd, true⟩, ⟨.recv okFormat, none⟩] false
  | done (vs : List Value) : CommandCase cmd [⟨.send cmd, true⟩, ⟨.recv okFormat, some vs⟩] true

theorem traces_command {ok : Bool} (h : Traces (command cmd) l (some ok)) :
    CommandCase cmd (spoken l) ok := by
  obtain ⟨sent, _, rfl, hrecv⟩ := traces_call.mp h
  cases sent with
  | false =>
    obtain ⟨rfl, ⟨⟩⟩ := traces_ret.mp hrecv
    exact .unsent
  | true =>
    obtain ⟨vs, hl, rfl⟩ := traces_recvOk hrecv
    rw [spoken_cons rfl, hl]
    cases vs with
    | none => exact .unanswered
    | some vs => exact .done vs

/-- A command succeeds if it is sent and `OK` comes next. -/
theorem CommandCase.acknowledged_iff {ok : Bool} (h : CommandCase cmd l ok) :
    ok = true ↔ ∃ vs, [⟨.send cmd, true⟩, ⟨.recv okFormat, some vs⟩] <+: l := by
  cases h <;> simp [List.cons_prefix_cons]

/-- The answers to a command whose final `OK` is not received. -/
inductive PeekCase (cmd pattern : Format) : List Exchange → Option (List Value) → Prop where
  | unsent : PeekCase cmd pattern [⟨.send cmd, false⟩] none
  | sent (vs : Option (List Value)) :
      PeekCase cmd pattern [⟨.send cmd, true⟩, ⟨.recv pattern, vs⟩] vs

theorem traces_peek {vs : Option (List Value)} (h : Traces (peek cmd pattern) l (some vs)) :
    PeekCase cmd pattern (spoken l) vs := by
  obtain ⟨sent, _, rfl, hrecv⟩ := traces_call.mp h
  cases sent with
  | false =>
    obtain ⟨rfl, ⟨⟩⟩ := traces_ret.mp hrecv
    exact .unsent
  | true =>
    obtain ⟨vs, _, rfl, hret⟩ := traces_call.mp hrecv
    obtain ⟨rfl, ⟨⟩⟩ := traces_ret.mp hret
    exact .sent vs

/-- The answers to a command with a report and a final `OK`. -/
inductive QueryCase (cmd pattern : Format) : List Exchange → Option (List Value) → Prop where
  | unsent : QueryCase cmd pattern [⟨.send cmd, false⟩] none
  | unanswered : QueryCase cmd pattern [⟨.send cmd, true⟩, ⟨.recv pattern, none⟩] none
  | unfinished (vs : List Value) : QueryCase cmd pattern
      [⟨.send cmd, true⟩, ⟨.recv pattern, some vs⟩, ⟨.recv okFormat, none⟩] none
  | done (vs ok : List Value) : QueryCase cmd pattern
      [⟨.send cmd, true⟩, ⟨.recv pattern, some vs⟩, ⟨.recv okFormat, some ok⟩] (some vs)

theorem traces_query {vs : Option (List Value)} (h : Traces (query cmd pattern) l (some vs)) :
    QueryCase cmd pattern (spoken l) vs := by
  obtain ⟨sent, _, rfl, hrecv⟩ := traces_call.mp h
  cases sent with
  | false =>
    obtain ⟨rfl, ⟨⟩⟩ := traces_ret.mp hrecv
    exact .unsent
  | true =>
    obtain ⟨report, _, rfl, hok⟩ := traces_call.mp hrecv
    cases report with
    | none =>
      obtain ⟨rfl, ⟨⟩⟩ := traces_ret.mp hok
      exact .unanswered
    | some report =>
      obtain ⟨ok, _, rfl, hret⟩ := traces_call.mp hok
      cases ok with
      | none =>
        obtain ⟨rfl, ⟨⟩⟩ := traces_ret.mp hret
        exact .unfinished report
      | some ok =>
        obtain ⟨rfl, ⟨⟩⟩ := traces_ret.mp hret
        exact .done report ok

/-- A command that is not repeated is sent and answered in full if the query gives a report. -/
theorem QueryCase.infix_iff {vs : Option (List Value)} {rest : List Exchange}
    {P : List Value → Prop} (h : QueryCase cmd pattern l vs) (hrest : ⟨.send cmd, true⟩ ∉ rest) :
    (∃ report ok, [⟨.send cmd, true⟩, ⟨.recv pattern, some report⟩, ⟨.recv okFormat, some ok⟩] <:+:
      l ++ rest ∧ P report) ↔ ∃ report, vs = some report ∧ P report := by
  have hfirst {answers tail : List Exchange} (hanswers : ⟨.send cmd, true⟩ ∉ answers) :
      (⟨.send cmd, true⟩ :: tail) <:+: (⟨.send cmd, true⟩ :: answers) ++ rest ↔
        tail <+: answers ++ rest :=
    infix_cons_iff_prefix (by simp [hanswers, hrest])
  cases h with
  | unsent =>
    refine iff_of_false ?_ nofun
    rintro ⟨report, ok, hpart, -⟩
    rw [infix_append_iff (by simp)] at hpart
    exact hrest (hpart.subset List.mem_cons_self)
  | unanswered =>
    refine iff_of_false ?_ nofun
    rintro ⟨report, ok, hpart, -⟩
    rw [hfirst (by simp)] at hpart
    simp [List.cons_prefix_cons] at hpart
  | unfinished vs =>
    refine iff_of_false ?_ nofun
    rintro ⟨report, ok, hpart, -⟩
    rw [hfirst (by simp)] at hpart
    simp [List.cons_prefix_cons] at hpart
  | done vs ok =>
    constructor
    · rintro ⟨report, ok', hpart, hP⟩
      rw [hfirst (by simp)] at hpart
      obtain ⟨rfl, -⟩ : report = vs ∧ ok' = ok := by
        simpa [List.cons_prefix_cons] using hpart
      exact ⟨report, rfl, hP⟩
    · rintro ⟨_, ⟨⟩, hP⟩
      exact ⟨vs, ok, (List.prefix_append ..).isInfix, hP⟩

/-! ## Arrays

A program with an array in it that returns has made the calls of the one without it. -/

section Arrays

variable {arrays : List (Nat × Nat)} {size : Nat} {f : Format} {vs : Option (List Value)}

theorem traces_sprintf {o : Unit} (h : Traces (sprintf size f) l (some o)) : l = [] := by
  unfold sprintf at h
  split at h
  · exact (traces_ret.mp h).1
  · cases (traces_stop.mp h).2

theorem traces_sprintfCommand {g : Unit → At α} :
    Traces (sprintfCommand size f >>= g) l (some a) ↔
      (f.fitsIn size && f.resent.isSome) = true ∧ Traces (g ()) l (some a) := by
  unfold sprintfCommand
  split
  · rename_i hfits
    exact (and_iff_right hfits).symm
  · rename_i hfits
    exact iff_of_false (fun h => nomatch (traces_stop.mp h).2) fun h => hfits h.1

theorem traces_recvInto : Traces (recvInto arrays pattern) l (some vs) ↔
    l = [⟨.recv pattern, vs⟩] ∧ vs.all (fit arrays) = true := by
  constructor
  · intro h
    obtain ⟨vs', _, rfl, hfit⟩ := traces_call.mp h
    change Traces (if vs'.all (fit arrays) = true then pure vs' else .stop) _ _ at hfit
    split at hfit
    · obtain ⟨rfl, ⟨⟩⟩ := traces_ret.mp hfit
      exact ⟨rfl, ‹_›⟩
    · cases (traces_stop.mp hfit).2
  · rintro ⟨rfl, hfit⟩
    refine traces_call.mpr ⟨vs, [], rfl, ?_⟩
    change Traces (if vs.all (fit arrays) = true then pure vs else .stop) _ _
    rw [if_pos hfit]
    exact .ret vs

theorem traces_recvInto_bind {g : Option (List Value) → At α} :
    Traces (recvInto arrays pattern >>= g) l (some a) ↔
      ∃ (vs : Option (List Value)) (l' : List Exchange), l = ⟨.recv pattern, vs⟩ :: l' ∧
        vs.all (fit arrays) = true ∧ Traces (g vs) l' (some a) := by
  rw [traces_bind_some]
  constructor
  · rintro ⟨vs, l₁, l', rfl, h₁, h₂⟩
    obtain ⟨rfl, hfit⟩ := traces_recvInto.mp h₁
    exact ⟨vs, l', rfl, hfit, h₂⟩
  · rintro ⟨vs, l', rfl, hfit, h⟩
    exact ⟨vs, [_], l', rfl, traces_recvInto.mpr ⟨rfl, hfit⟩, h⟩

theorem traces_queryInto (h : Traces (queryInto arrays cmd pattern) l (some vs)) :
    Traces (query cmd pattern) l (some vs) := by
  obtain ⟨sent, l', rfl, hrecv⟩ := traces_call.mp h
  refine traces_call.mpr ⟨sent, l', rfl, ?_⟩
  cases sent with
  | false => exact hrecv
  | true =>
    change Traces (recvInto arrays pattern >>= _) _ _ at hrecv
    obtain ⟨report, l₂, rfl, -, hrest⟩ := traces_recvInto_bind.mp hrecv
    exact traces_call.mpr ⟨report, l₂, rfl, hrest⟩

end Arrays

/-! ## The last error -/

/-- The question for the last error. -/
def qigeterror : Format := ⟨"AT+QIGETERROR", []⟩

def qigeterrorReport : Format := ⟨"+QIGETERROR: %d,%[^\\n]", []⟩

theorem traces_getError {err : Option (Int × String)} (h : Traces getError l (some err)) :
    ∃ vs, QueryCase qigeterror qigeterrorReport (spoken l) vs ∧
      err = vs.map fun vs => (intAt vs 0, strAt vs 1) := by
  obtain ⟨vs, hlocked, rfl⟩ := traces_map_some.mp h
  obtain ⟨_, hspoken, hquery⟩ := traces_locked hlocked
  rw [hspoken]
  refine ⟨vs, traces_query hquery, ?_⟩
  cases vs <;> rfl

end Bg96.Modem
