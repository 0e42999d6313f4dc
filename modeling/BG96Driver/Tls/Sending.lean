import BG96Driver.Modem.Sending
import BG96Driver.Tls.Session

/-!
# What `BG96TLSSocket::send` reports

`sslsend` waits for `SEND OK` and drops the result. With a time-out it also drops the result of the
command.

* `Client`, `send`: the function of `BG96TLSSocket`.
* `Outcomes`: what the parser gives for each of its calls.
* `Accepted`, `Agree`: a count is of bytes that were accepted, and both overloads give the same.
* `tls_send_iff`: the outcomes for which both hold.
-/

namespace Bg96.Tls

open Program Modem

/-- The members of `BG96TLSSocket` that `send` and `recv` use. The flag `timeout_ovf` is not among
them: a thread changes it. -/
structure Client extends Connection where
  timeout : Int

/-- `BG96TLSSOCKET_DEFAULT_TO`. -/
def defaultTimeout : Int := 3000

/-- `BG96TLSSocket::BG96TLSSocket`. -/
def Client.ctor : Client := { Connection.ctor with timeout := defaultTimeout }

/-- `BG96TLSSocket::send`. -/
def send (self : Client) (data : List UInt8) : At Int := do
  let rc ← sslsendTimeout self.clientId data self.timeout
  if 0 < rc then return rc else return nsapiErrorTimeout

/-! ## The outcomes -/

/-- What the parser gives: whether the command is sent, whether the prompt comes, what is written,
and whether `SEND OK` comes. -/
structure Outcomes where
  sent : Bool
  prompt : Option (List Value)
  written : Int
  sendOk : Option (List Value)

variable {self : Client} {clientId timeout : Int} {data : List UInt8} {o : Outcomes}

/-- The answers to the calls. -/
def Outcomes.answer (o : Outcomes) : (c : Modem.Call) → c.Reply
  | .send _ => o.sent
  | .recv pattern => if pattern = Modem.prompt then o.prompt else o.sendOk
  | .write _ => o.written
  | .lock | .unlock | .setTimeout _ | .debugOn _ | .flush => ()
  | .readable | .writable => false
  | .read _ => (0, [])
  | .getc => none
  | .putc _ | .readMs _ => (0 : Int)

/-- The calls of a trace have these outcomes. -/
def Outcomes.Gives (o : Outcomes) (l : List Exchange) : Prop := ∀ e ∈ l, e.2 = o.answer e.1

/-- A positive count is of bytes that were written and for which `SEND OK` has come. -/
def Accepted (self : Client) (data : List UInt8) (o : Outcomes) : Prop :=
  ∀ l rc, Traces (send self data) l (some rc) → o.Gives l → 0 < rc →
    ∃ ok, ⟨.write data, rc⟩ ∈ l ∧ ⟨.recv Modem.sendOk, some ok⟩ ∈ l

/-- Both overloads of `sslsend` give the same, whatever the time-out. -/
def Agree (clientId : Int) (data : List UInt8) (o : Outcomes) : Prop :=
  ∀ timeout l l' rc rc', Traces (sslsend clientId data) l (some rc) → o.Gives l →
    Traces (sslsendTimeout clientId data timeout) l' (some rc') → o.Gives l' → rc = rc'

theorem answered_sslsend : ((sslsend clientId data).answered o.answer).2 =
    some (if o.sent ∧ o.prompt.isSome then o.written else -1) := by
  obtain ⟨sent, prompt, written, sendOk⟩ := o
  cases sent <;> cases prompt <;> rfl

theorem answered_sslsendTimeout :
    ((sslsendTimeout clientId data timeout).answered o.answer).2 =
      some (if o.prompt.isSome then o.written else -1) := by
  obtain ⟨sent, prompt, written, sendOk⟩ := o
  cases prompt <;> rfl

/-- What a trace with these outcomes returns. -/
theorem Outcomes.Gives.result {α : Type} {p : At α} {l : List Exchange} {a : Option α}
    (hl : o.Gives l) (h : Traces p l a) : (p.answered o.answer).2 = a := by
  rw [h.eq_answered hl]

/-- The overloads differ in what they make of a command that is not sent. -/
theorem agree_iff :
    Agree clientId data o ↔ (o.sent = false → o.prompt.isSome → o.written = -1) := by
  have hresults : Agree clientId data o ↔ (if o.sent ∧ o.prompt.isSome then o.written else -1) =
      if o.prompt.isSome then o.written else -1 := by
    constructor
    · intro h
      exact h 0 _ _ _ _ (answered_sslsend ▸ traces_answered o.answer _) answered_mem
        (answered_sslsendTimeout ▸ traces_answered o.answer _) answered_mem
    · intro heq timeout l l' rc rc' h hl h' hl'
      have hrc := answered_sslsend.symm.trans (hl.result h)
      have hrc' := answered_sslsendTimeout.symm.trans (hl'.result h')
      rw [← Option.some.inj hrc, ← Option.some.inj hrc', heq]
  rw [hresults]
  cases o.sent <;> cases o.prompt <;> simp [eq_comm]

/-- What is said in `sslsend` with a time-out. -/
inductive SslsendCase (cmd : Format) (data : List UInt8) : List Exchange → Int → Prop where
  | unprompted (sent : Bool) :
      SslsendCase cmd data [⟨.send cmd, sent⟩, ⟨.recv Modem.prompt, none⟩] (-1)
  | written (sent : Bool) (p : List Value) (n : Int) (ok : Option (List Value)) :
      SslsendCase cmd data [⟨.send cmd, sent⟩, ⟨.recv Modem.prompt, some p⟩, ⟨.write data, n⟩,
        ⟨.recv Modem.sendOk, ok⟩] n

variable {l : List Exchange} {rc : Int}

theorem traces_sslsendTimeout
    (h : Traces (sslsendTimeout clientId data timeout) l (some rc)) :
    SslsendCase (qsslsend clientId data) data (spoken l) rc := by
  obtain ⟨_, hspoken, hbody⟩ := traces_locked_timed h
  rw [hspoken]
  obtain ⟨sent, _, rfl, hrecv⟩ := traces_call.mp hbody
  obtain ⟨p, _, rfl, hp⟩ := traces_call.mp hrecv
  cases p with
  | none =>
    obtain ⟨rfl, ⟨⟩⟩ := traces_ret.mp hp
    exact .unprompted sent
  | some p =>
    obtain ⟨n, _, rfl, hn⟩ := traces_call.mp hp
    obtain ⟨ok, _, rfl, hok⟩ := traces_call.mp hn
    obtain ⟨rfl, ⟨⟩⟩ := traces_ret.mp hok
    exact .written sent p rc ok

/-- `send` gives what `sslsend` gives, if it is positive. -/
theorem traces_send_iff (hrc : 0 < rc) : Traces (send self data) l (some rc) ↔
    Traces (sslsendTimeout self.clientId data self.timeout) l (some rc) := by
  constructor
  · intro h
    obtain ⟨n, l₁, l₂, rfl, hsend, hret⟩ := traces_bind_some.mp h
    by_cases hn : 0 < n
    · rw [if_pos hn] at hret
      obtain ⟨rfl, ⟨⟩⟩ := traces_ret.mp hret
      rwa [List.append_nil]
    · rw [if_neg hn] at hret
      obtain ⟨-, ⟨⟩⟩ := traces_ret.mp hret
      exact absurd hrc (by decide)
  · intro h
    refine traces_bind_some.mpr ⟨rc, l, [], (List.append_nil l).symm, h, ?_⟩
    rw [if_pos hrc]
    exact .ret rc

/-- A count is reported after the prompt, whether `SEND OK` comes or not. -/
theorem accepted_iff :
    Accepted self data o ↔ (o.prompt.isSome → 0 < o.written → o.sendOk.isSome) := by
  have hanswer : o.answer (.recv Modem.sendOk) = o.sendOk := rfl
  constructor
  · intro h hprompt hwritten
    have htraces := traces_answered o.answer
      (sslsendTimeout self.clientId data self.timeout)
    rw [answered_sslsendTimeout, if_pos hprompt] at htraces
    obtain ⟨ok, -, hmem⟩ :=
      h _ _ ((traces_send_iff hwritten).mpr htraces) answered_mem hwritten
    rw [← hanswer, ← answered_mem _ hmem]
    rfl
  · intro h l rc htraces hl hrc
    rw [traces_send_iff hrc] at htraces
    have hgives : ∀ e ∈ spoken l, e.2 = o.answer e.1 := fun e he => hl e (List.mem_of_mem_filter he)
    suffices ∃ ok, ⟨.write data, rc⟩ ∈ spoken l ∧ ⟨.recv Modem.sendOk, some ok⟩ ∈ spoken l by
      obtain ⟨ok, hwrite, hok⟩ := this
      exact ⟨ok, List.mem_of_mem_filter hwrite, List.mem_of_mem_filter hok⟩
    have hcase := traces_sslsendTimeout htraces
    generalize spoken l = said at hcase hgives
    cases hcase with
    | unprompted sent => cases hrc
    | written sent p n ok =>
      have hprompt : some p = o.prompt := hgives ⟨.recv Modem.prompt, some p⟩ (by simp)
      have hwrite : rc = o.written := hgives ⟨.write data, rc⟩ (by simp)
      have hsendOk : ok = o.sendOk := hgives ⟨.recv Modem.sendOk, ok⟩ (by simp)
      obtain ⟨ok, rfl⟩ : ∃ v, ok = some v := by
        rw [← Option.isSome_iff_exists, hsendOk]
        exact h (hprompt ▸ rfl) (hwrite ▸ hrc)
      exact ⟨ok, by simp, by simp⟩

/-- **TLS send.** A positive count of `send` is of accepted bytes, and both overloads of `sslsend`
give the same, if and only if `SEND OK` comes after every write that takes bytes, and no prompt
comes without the command, or the write after it gives -1. -/
theorem tls_send_iff (self : Client) (data : List UInt8) (o : Outcomes) :
    Accepted self data o ∧ Agree self.clientId data o ↔
      (o.prompt.isSome → 0 < o.written → o.sendOk.isSome) ∧
      (o.sent = false → o.prompt.isSome → o.written = -1) :=
  and_congr accepted_iff agree_iff

/-- The prompt comes and the bytes are written, and `SEND OK` does not come. -/
def unconfirmed (n : Int) : Outcomes := ⟨true, some [], n, none⟩

/-- Bytes that the modem has not accepted are reported as sent. -/
theorem tls_send_unconfirmed :
    ¬ ∀ (self : Client) (data : List UInt8) (o : Outcomes),
      Accepted self data o ∧ Agree self.clientId data o := by
  intro h
  obtain ⟨ok, -, hmem⟩ := (h .ctor [65] (unconfirmed 1)).1 _ 1
    (traces_answered (unconfirmed 1).answer (send .ctor [65])) answered_mem (by decide)
  cases answered_mem _ hmem

end Bg96.Tls
