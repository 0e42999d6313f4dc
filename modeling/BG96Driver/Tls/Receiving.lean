import BG96Driver.Modem.Exchange
import BG96Driver.Tls.Sending

/-!
# What a TLS receive reports

`sslrecv` has two variables, for the count and for the error, and returns the one. `recv` of
`BG96TLSSocket` goes on while the result is negative.

* `recv`: the function of `BG96TLSSocket`, a program that starts and terminates the thread of the
  time-out, reads the flag that the thread sets, and calls `sslrecv`.
* `Failed`, `Announced`: what has gone wrong in an exchange, and the number in its header.
* `Reported`: a failed exchange gives a negative result. `Sound`: the answers that make it so.
* `Waits`: `recv` does not end its wait because of a failed exchange.
* `tls_recv_iff`: every exchange is reported, and `recv` waits, if and only if every exchange is
  sound.
-/

namespace Bg96.Tls

open Program Modem

/-! ## `BG96TLSSocket::recv` -/

/-- The calls of `recv`. -/
inductive RecvCall where
  | start
  | timeoutOvf
  | sslrecv (clientId : Int) (cnt : Nat)
  | terminate
  deriving DecidableEq

/-- What a call gives: `timeoutOvf` is the flag, and `sslrecv` gives its result and the bytes stored
at `data`. -/
@[reducible] def RecvCall.Reply : RecvCall → Type
  | .start | .terminate => Unit
  | .timeoutOvf => Bool
  | .sslrecv .. => Int × List UInt8

/-- `while (!this->timeout_ovf && cnt < 0) cnt = bg96->sslrecv(..);` in at most the given turns,
with the buffer. -/
def recvLoop (self : Client) (size : Nat) :
    Nat → Int → List UInt8 → Prog RecvCall RecvCall.Reply (Int × List UInt8)
  | 0, _, _ => .stop
  | n + 1, cnt, buffer =>
    .call .timeoutOvf fun ovf =>
      if !ovf ∧ cnt < 0 then
        .call (.sslrecv self.clientId size) fun (cnt, data) =>
          recvLoop self size n cnt (data ++ buffer.drop data.length)
      else return (cnt, buffer)

/-- `BG96TLSSocket::recv` into a buffer: its result, and the buffer after it. -/
def recv (n : Nat) (self : Client) (size : Nat) (buffer : List UInt8) :
    Prog RecvCall RecvCall.Reply (Int × List UInt8) :=
  .call .start fun _ => do
    let (cnt, buffer) ← recvLoop self size n (-1) buffer
    .call .terminate fun _ =>
      if cnt = -1 then
        .call .timeoutOvf fun ovf => return (if ovf then nsapiErrorTimeout else cnt, buffer)
      else return (cnt, buffer)

/-! ## The exchange of `sslrecv` -/

/-- The command of `sslrecv`. -/
def qsslrecv (clientId : Int) (cnt : Nat) : Format :=
  ⟨"AT+QSSLRECV=%d,%d", [.int clientId, .int (toInt cnt)]⟩

def qsslrecvHeader : Format := ⟨"+QSSLRECV:%d\r\n", []⟩

/-- The line that tells that data has come. -/
def qsslurc (clientId : Int) : Format := ⟨"+QSSLURC: \"recv\",%d", [.int clientId]⟩

variable {self : Client} {clientId : Int} {cnt size : Nat} {l said : List Exchange}
  {r : Int × List UInt8}

/-- The command was not sent, the header or the final `OK` did not arrive, or the payload was not
read. -/
inductive Failed (clientId : Int) (cnt : Nat) (said : List Exchange) : Prop where
  | unsent (h : ⟨.send (qsslrecv clientId cnt), false⟩ ∈ said)
  | headless (h : ⟨.recv qsslrecvHeader, none⟩ ∈ said)
  | unread {m n : Int} {data : List UInt8} (hn : n < 0) (h : ⟨.read m, (n, data)⟩ ∈ said)
  | unfinished (h : ⟨.recv okFormat, none⟩ ∈ said)

/-- The header announces a number of bytes. -/
def Announced (n : Int) (said : List Exchange) : Prop :=
  ∃ vs, ⟨.recv qsslrecvHeader, some vs⟩ ∈ said ∧ intAt vs 0 = n

/-- A failed exchange has a negative result, and 0 is the result of an announcement of 0 bytes. -/
structure Reported (clientId : Int) (cnt : Nat) (said : List Exchange) (rc : Int) : Prop where
  failure : Failed clientId cnt said → rc < 0
  empty : rc = 0 → Announced 0 said

/-- The command is sent, the header arrives, and the payload is read and `OK` comes, or the read
fails. -/
structure Sound (clientId : Int) (cnt : Nat) (said : List Exchange) : Prop where
  sent : ⟨.send (qsslrecv clientId cnt), false⟩ ∉ said
  header : ⟨.recv qsslrecvHeader, none⟩ ∉ said
  payload : ∀ (m n : Int) (data : List UInt8), ⟨.read m, (n, data)⟩ ∈ said →
    n < 0 ∨ 0 < n ∧ ⟨.recv okFormat, none⟩ ∉ said

/-- What is said in `sslrecv`, and what it gives. -/
inductive SslrecvCase (clientId : Int) (cnt : Nat) (urc : Option (List Value)) :
    List Exchange → Int × List UInt8 → Prop where
  | unsent : SslrecvCase clientId cnt urc
      [⟨.recv (qsslurc clientId), urc⟩, ⟨.send (qsslrecv clientId cnt), false⟩] (0, [])
  | headless : SslrecvCase clientId cnt urc [⟨.recv (qsslurc clientId), urc⟩,
      ⟨.send (qsslrecv clientId cnt), true⟩, ⟨.recv qsslrecvHeader, none⟩] (0, [])
  | empty (vs : List Value) (hn : intAt vs 0 ≤ 0) : SslrecvCase clientId cnt urc
      [⟨.recv (qsslurc clientId), urc⟩, ⟨.send (qsslrecv clientId cnt), true⟩,
        ⟨.recv qsslrecvHeader, some vs⟩] (intAt vs 0, [])
  | read (vs : List Value) (hn : 0 < intAt vs 0) (n : Int) (data : List UInt8)
      (ok : Option (List Value)) : SslrecvCase clientId cnt urc
      [⟨.recv (qsslurc clientId), urc⟩, ⟨.send (qsslrecv clientId cnt), true⟩,
        ⟨.recv qsslrecvHeader, some vs⟩, ⟨.read (intAt vs 0), (n, data)⟩, ⟨.recv okFormat, ok⟩]
      (n, data)

theorem traces_sslrecv (h : Traces (sslrecv clientId cnt) l (some r)) :
    ∃ urc, SslrecvCase clientId cnt urc (spoken l) r := by
  obtain ⟨_, l₁, l₂, rfl, hcheck, hrecv⟩ := traces_bind_some.mp h
  obtain ⟨_, hspoken₁, hurc⟩ := traces_locked_timed hcheck
  obtain ⟨urc, hurc, -⟩ := traces_map_some.mp hurc
  obtain ⟨_, _, rfl, hret⟩ := traces_call.mp hurc
  obtain ⟨rfl, ⟨⟩⟩ := traces_ret.mp hret
  refine ⟨urc, ?_⟩
  obtain ⟨_, hspoken₂, hbody⟩ := traces_locked_timed hrecv
  rw [spoken_append, hspoken₁, hspoken₂]
  obtain ⟨vs, l₃, l₄, rfl, hpeek, hrest⟩ := traces_bind_some.mp hbody
  have hcase := traces_peek hpeek
  rw [spoken_append]
  generalize spoken l₃ = said at hcase
  cases hcase with
  | unsent =>
    obtain ⟨rfl, ⟨⟩⟩ := traces_ret.mp hrest
    exact .unsent
  | sent =>
    cases vs with
    | none =>
      obtain ⟨rfl, ⟨⟩⟩ := traces_ret.mp hrest
      exact .headless
    | some vs =>
      by_cases hn : 0 < intAt vs 0
      · change Traces (if 0 < intAt vs 0 then _ else _) _ _ at hrest
        rw [if_pos hn] at hrest
        obtain ⟨⟨n, data⟩, _, rfl, hread⟩ := traces_call.mp hrest
        obtain ⟨ok, _, rfl, hok⟩ := traces_call.mp hread
        obtain ⟨rfl, ⟨⟩⟩ := traces_ret.mp hok
        exact .read vs hn n data ok
      · change Traces (if 0 < intAt vs 0 then _ else _) _ _ at hrest
        rw [if_neg hn] at hrest
        obtain ⟨rfl, ⟨⟩⟩ := traces_ret.mp hrest
        exact .empty vs (Int.not_lt.mp hn)

theorem header_ne_ok : okFormat ≠ qsslrecvHeader := by decide

theorem urc_ne_header (clientId : Int) : qsslurc clientId ≠ qsslrecvHeader := by
  simp [qsslurc, qsslrecvHeader]

theorem urc_ne_ok (clientId : Int) : qsslurc clientId ≠ okFormat := by
  simp [qsslurc, okFormat]

/-- A result is reported if and only if the answers are sound. -/
theorem SslrecvCase.reported_iff {urc : Option (List Value)}
    (h : SslrecvCase clientId cnt urc said r) :
    Reported clientId cnt said r.1 ↔ Sound clientId cnt said := by
  have hheader := (urc_ne_header clientId).symm
  have hok := (urc_ne_ok clientId).symm
  cases h with
  | unsent =>
    refine iff_of_false (fun h => ?_) fun h => h.sent (by simp)
    exact absurd (h.failure (.unsent (by simp))) (by decide)
  | headless =>
    refine iff_of_false (fun h => ?_) fun h => h.header (by simp)
    exact absurd (h.failure (.headless (by simp))) (by decide)
  | empty vs hn =>
    refine iff_of_true ⟨fun hfailed => ?_, fun hzero => ⟨vs, by simp, hzero⟩⟩ ⟨?_, ?_, ?_⟩
    · cases hfailed with
      | unsent h => simp at h
      | headless h => simp [hheader] at h
      | unread hn h => simp at h
      | unfinished h => simp [hok, header_ne_ok] at h
    · simp
    · simp [hheader]
    · simp
  | read vs hn n data ok =>
    have hannounced : ¬ Announced 0 [⟨.recv (qsslurc clientId), urc⟩,
        ⟨.send (qsslrecv clientId cnt), true⟩, ⟨.recv qsslrecvHeader, some vs⟩,
        ⟨.read (intAt vs 0), (n, data)⟩, ⟨.recv okFormat, ok⟩] := by
      rintro ⟨vs', hmem, hzero⟩
      obtain rfl : vs' = vs := by simpa [hheader, header_ne_ok.symm] using hmem
      omega
    constructor
    · intro h
      refine ⟨by simp, by simp [hheader, header_ne_ok.symm], fun m n' data' hmem => ?_⟩
      obtain ⟨-, rfl, -⟩ : m = intAt vs 0 ∧ n' = n ∧ data' = data := by simpa using hmem
      by_cases hneg : n' < 0
      · exact .inl hneg
      · refine .inr ⟨?_, fun hmissing => hneg (h.failure (.unfinished hmissing))⟩
        have hne : n' ≠ 0 := fun hzero => hannounced (h.empty hzero)
        omega
    · intro h
      have hpayload := h.payload (intAt vs 0) n data (by simp)
      refine ⟨fun hfailed => ?_, fun hzero => ?_⟩
      · cases hfailed with
        | unsent h => simp at h
        | headless h => simp [hheader, header_ne_ok.symm] at h
        | @unread m n' data' hn h =>
          obtain ⟨-, rfl, -⟩ : m = intAt vs 0 ∧ n' = n ∧ data' = data := by simpa using h
          exact hn
        | unfinished h => exact hpayload.resolve_right fun hpos => hpos.2 h
      · obtain rfl : n = 0 := hzero
        omega

/-! ## The wait of `recv` -/

/-- A call of `recv` with its answer. -/
abbrev RecvExchange := Sigma RecvCall.Reply

def RecvExchange.result : RecvExchange → Option (Int × List UInt8)
  | ⟨.sslrecv .., r⟩ => some r
  | _ => none

def RecvExchange.flag : RecvExchange → Option Bool
  | ⟨.timeoutOvf, ovf⟩ => some ovf
  | _ => none

/-- The results of `sslrecv` in a trace. -/
def resultsOf (l : List RecvExchange) : List (Int × List UInt8) := l.filterMap RecvExchange.result

/-- The flag, each time that it is read. -/
def flagsOf (l : List RecvExchange) : List Bool := l.filterMap RecvExchange.flag

/-- The wait of `recv` with these attempts: a count is that of a last attempt which has not failed,
and 0 was announced; and if the last attempt has failed, the wait ends because the flag is read as
set, which is read once before each attempt. -/
structure Waits {clientId : Int} {size : Nat} (attempts : List (Round (sslrecv clientId size)))
    (l : List RecvExchange) (rc : Int) : Prop where
  counted : 0 ≤ rc → ∃ a, attempts.getLast? = some a ∧
    ¬ Failed clientId size (spoken a.trace) ∧ (rc = 0 → Announced 0 (spoken a.trace))
  polls : (∀ a ∈ attempts.getLast?, Failed clientId size (spoken a.trace)) →
    (flagsOf l)[attempts.length]? = some true

variable {n : Nat} {cnt : Int} {buffer : List UInt8} {calls : List RecvExchange}

/-- The loop reads the flag before each attempt. It ends when the flag is set, or with the last
result if this is a count. -/
theorem traces_recvLoop (h : Traces (recvLoop self size n cnt buffer) calls (some r)) :
    ∃ ovf, flagsOf calls = List.replicate (resultsOf calls).length false ++ [ovf] ∧
      r.1 = ((resultsOf calls).getLast?.map Prod.fst).getD cnt ∧ (ovf = true ∨ 0 ≤ r.1) := by
  induction n generalizing cnt buffer calls with
  | zero => cases (traces_stop.mp h).2
  | succ n ih =>
    obtain ⟨ovf, calls, rfl, htest⟩ := traces_call.mp h
    by_cases hgo : !ovf ∧ cnt < 0
    · rw [if_pos hgo] at htest
      obtain ⟨⟨cnt', data⟩, calls, rfl, hloop⟩ := traces_call.mp htest
      obtain ⟨ovf', hflags, hcnt, hend⟩ := ih hloop
      obtain rfl : ovf = false := by simpa using hgo.1
      refine ⟨ovf', congrArg (List.cons false) hflags, ?_, hend⟩
      rw [hcnt]
      show _ = ((((cnt', data) :: resultsOf calls).getLast?).map Prod.fst).getD cnt
      rw [List.getLast?_cons]
      cases (resultsOf calls).getLast? <;> rfl
    · rw [if_neg hgo] at htest
      obtain ⟨rfl, ⟨⟩⟩ := traces_ret.mp htest
      refine ⟨ovf, rfl, rfl, ?_⟩
      cases ovf with
      | true => exact .inl rfl
      | false => exact .inr (by simpa using hgo)

/-- `recv` gives the result of its last attempt, or reports the time-out. -/
theorem traces_recv (h : Traces (recv n self size buffer) calls (some r)) :
    ∃ ovf flags cnt, flagsOf calls = List.replicate (resultsOf calls).length false ++ ovf :: flags ∧
      cnt = ((resultsOf calls).getLast?.map Prod.fst).getD (-1) ∧ (ovf = true ∨ 0 ≤ cnt) ∧
      (0 ≤ r.1 → r.1 = cnt) := by
  obtain ⟨_, _, rfl, hbody⟩ := traces_call.mp h
  obtain ⟨⟨cnt, buffer'⟩, l₁, l₂, rfl, hloop, hend⟩ := traces_bind_some.mp hbody
  obtain ⟨ovf, hflags, hcnt, hleft⟩ := traces_recvLoop hloop
  obtain ⟨_, l₃, rfl, hrest⟩ := traces_call.mp hend
  have hresults : resultsOf l₃ = [] ∧ (0 ≤ r.1 → r.1 = cnt) := by
    by_cases hone : cnt = -1
    · rw [if_pos hone] at hrest
      obtain ⟨late, _, rfl, hret⟩ := traces_call.mp hrest
      obtain ⟨rfl, ⟨⟩⟩ := traces_ret.mp hret
      refine ⟨rfl, fun hpos => ?_⟩
      cases late with
      | true => exact absurd (show 0 ≤ nsapiErrorTimeout from hpos) (by decide)
      | false => rfl
    · rw [if_neg hone] at hrest
      obtain ⟨rfl, ⟨⟩⟩ := traces_ret.mp hrest
      exact ⟨rfl, fun _ => rfl⟩
  have hsame : resultsOf (⟨.start, ()⟩ :: (l₁ ++ ⟨.terminate, ()⟩ :: l₃)) = resultsOf l₁ := by
    show List.filterMap _ (l₁ ++ _) = _
    rw [List.filterMap_append]
    show resultsOf l₁ ++ resultsOf l₃ = _
    rw [hresults.1, List.append_nil]
  refine ⟨ovf, flagsOf l₃, cnt, ?_, ?_, hleft, hresults.2⟩
  · rw [hsame]
    show List.filterMap _ (l₁ ++ _) = _
    rw [List.filterMap_append]
    show flagsOf l₁ ++ flagsOf l₃ = _
    rw [hflags, List.append_assoc, List.singleton_append]
  · rw [hsame]
    exact hcnt

/-- `recv` waits if its attempts are reported. -/
theorem waits_of_reported {attempts : List (Round (sslrecv self.clientId size))}
    (hreported : ∀ a ∈ attempts, Reported self.clientId size (spoken a.trace) a.result.1)
    (h : Traces (recv n self size buffer) calls (some r))
    (hattempts : resultsOf calls = attempts.map Round.result) : Waits attempts calls r.1 := by
  obtain ⟨ovf, flags, cnt, hflags, hcnt, hleft, hrc⟩ := traces_recv h
  rw [hattempts, List.getLast?_map, Option.map_map] at hcnt
  rw [hattempts, List.length_map] at hflags
  have hlast {a : Round (sslrecv self.clientId size)} (ha : attempts.getLast? = some a) :
      cnt = a.result.1 ∧ Reported self.clientId size (spoken a.trace) a.result.1 := by
    refine ⟨?_, hreported a (List.mem_of_getLast? ha)⟩
    rw [hcnt, ha]
    rfl
  constructor
  · intro hpos
    have heq := hrc hpos
    cases ha : attempts.getLast? with
    | none =>
      rw [ha] at hcnt
      have hminus : cnt = -1 := hcnt
      omega
    | some a =>
      obtain ⟨rfl, hrep⟩ := hlast ha
      refine ⟨a, rfl, fun hfailed => ?_, fun hzero => hrep.empty (heq ▸ hzero)⟩
      exact absurd (hrep.failure hfailed) (by omega)
  · intro hfailed
    have hneg : cnt < 0 := by
      cases ha : attempts.getLast? with
      | none =>
        rw [ha] at hcnt
        have hminus : cnt = -1 := hcnt
        omega
      | some a =>
        obtain ⟨rfl, hrep⟩ := hlast ha
        exact hrep.failure (hfailed a ha)
    obtain rfl : ovf = true := hleft.resolve_right (by omega)
    rw [hflags, List.getElem?_append_right (by simp)]
    simp

/-- **TLS receive.** Every exchange of `sslrecv` reports its failure, and `recv` waits for data or
its time-out, if and only if every exchange is sound. -/
theorem tls_recv_iff (self : Client) (size : Nat)
    (attempts : List (Round (sslrecv self.clientId size))) :
    ((∀ a ∈ attempts, Reported self.clientId size (spoken a.trace) a.result.1) ∧
      ∀ n buffer calls r, Traces (recv n self size buffer) calls (some r) →
        resultsOf calls = attempts.map Round.result → Waits attempts calls r.1) ↔
    ∀ a ∈ attempts, Sound self.clientId size (spoken a.trace) := by
  have hreported : (∀ a ∈ attempts, Reported self.clientId size (spoken a.trace) a.result.1) ↔
      ∀ a ∈ attempts, Sound self.clientId size (spoken a.trace) := by
    refine forall₂_congr fun a _ => ?_
    obtain ⟨urc, hcase⟩ := traces_sslrecv a.made
    exact hcase.reported_iff
  rw [← hreported]
  constructor
  · exact And.left
  · exact fun h => ⟨h, fun _ _ _ _ htraces hattempts => waits_of_reported h htraces hattempts⟩

/-- An exchange whose command is not sent. -/
def unsentAttempt : Round (sslrecv 0 4) where
  trace := [⟨.lock, ()⟩, ⟨.setTimeout 1, ()⟩, ⟨.recv (qsslurc 0), none⟩, ⟨.setTimeout atTimeout, ()⟩,
    ⟨.unlock, ()⟩, ⟨.lock, ()⟩, ⟨.setTimeout bg96RxTimeout, ()⟩, ⟨.send (qsslrecv 0 4), false⟩,
    ⟨.setTimeout atTimeout, ()⟩, ⟨.unlock, ()⟩]
  result := (0, [])
  made := traces_iff_replay.mpr rfl

/-- The wait for that exchange ends with 0. -/
def endedWait : List RecvExchange :=
  [⟨.start, ()⟩, ⟨.timeoutOvf, false⟩, ⟨.sslrecv 0 4, (0, [])⟩, ⟨.timeoutOvf, false⟩,
    ⟨.terminate, ()⟩]

theorem traces_endedWait : Traces (recv 2 .ctor 4 []) endedWait (some (0, [])) :=
  traces_iff_replay.mpr rfl

/-- A command that is not sent ends the wait. -/
theorem tls_recv_unsent :
    ¬ ∀ (self : Client) (size : Nat) (attempts : List (Round (sslrecv self.clientId size))),
      (∀ a ∈ attempts, Reported self.clientId size (spoken a.trace) a.result.1) ∧
      ∀ n buffer calls r, Traces (recv n self size buffer) calls (some r) →
        resultsOf calls = attempts.map Round.result → Waits attempts calls r.1 := by
  intro h
  have hwaits := (h .ctor 4 [unsentAttempt]).2 2 [] endedWait (0, []) traces_endedWait rfl
  obtain ⟨a, ha, hgood, -⟩ := hwaits.counted (by decide)
  obtain rfl : unsentAttempt = a := Option.some.inj ha
  exact hgood (.unsent (by simp [unsentAttempt, spoken, Call.Spoken, Client.ctor, Connection.ctor]))

end Bg96.Tls
