import BG96Driver.Lib.Linear
import BG96Driver.Modem.Connections

/-!
# The byte streams of threads that share the modem

Threads call `open`, `close`, `send` and `recv` in any order, and their exchanges with the module
alternate in any way. The parts of these operations that hold the mutex have one order all the same,
and in this order each of them acts on the connections as its result tells.

* `SocketCall`, `parts`: the operations, and the parts that they are made of.
* `linearized`: threads do what the parts do one after the other.
* `Module.reply`: a module that carries out what it can.
* `streams_exact`: in every run, a connection has accepted exactly the bytes of the sends that
  report a success since it was opened; and what has been read of it is what the receives return
  and the loop of `open` throws away.
* `private_stream`: one that a single thread uses has the bytes of this thread, and what its `open`
  throws away comes first.
-/

namespace Bg96.Modem

open Program Scanf Streams Mutex Relation

/-! ## The operations -/

/-- An operation on sockets. -/
inductive SocketCall where
  | «open» (type : Char) (id : Int) (addr : String) (port : Int)
  | close (id : Int)
  | send (id : Int) (data : List UInt8)
  | recv (id : Int) (cnt : Nat)

namespace SocketCall

@[reducible] def Reply : SocketCall → Type
  | «open» .. | close _ | send .. => Bool
  | recv .. => Int × List UInt8

/-- The operations of `BG96`, with the turns that the loop of `open` may take. -/
def prog (n : Nat) (self : BG96) : (c : SocketCall) → At c.Reply
  | «open» type id addr port => Modem.open n self type id addr port
  | close id => Modem.close id
  | send id data => Modem.send id data
  | recv id cnt => Modem.recv id cnt

/-- The number of bytes that are asked for is an `int`, and at least one. -/
def Sized : SocketCall → Prop
  | recv _ cnt => 0 < cnt ∧ cnt < 2 ^ 31
  | _ => True

/-- The socket that an operation is about. -/
def socket : SocketCall → Int
  | «open» _ id _ _ | close id | send id _ | recv id _ => id

/-- The parts of `recv`. -/
def recvParts (id : Int) (cnt : Nat) : Prog SocketOp SocketOp.Reply (Int × List UInt8) :=
  .call (.chkRxAvail id) fun _ => .call (.recvData id cnt) .ret

/-- The parts of the loop of `open`. -/
def drainParts (id : Int) : Nat → Prog SocketOp SocketOp.Reply Unit
  | 0 => .stop
  | n + 1 => do
    let _ ← .call (.chkRxAvail id) .ret
    let (cnt, _) ← .call (.drainData id) .ret
    if cnt ≠ 0 then drainParts id n else return ()

/-- The parts that hold the mutex, one after the other. -/
def parts (n : Nat) : (c : SocketCall) → Prog SocketOp SocketOp.Reply c.Reply
  | «open» type id addr port => do
    let ok ← .call (.openLink type id addr port) .ret
    if ok then drainParts id n
    return ok
  | close id => .call (.close id) .ret
  | send id data => .call (.send id data) .ret
  | recv id cnt => recvParts id cnt

end SocketCall

open SocketCall

variable {n : Nat} {self : BG96}

theorem expand_recvParts (self : BG96) (id : Int) (cnt : Nat) :
    (recvParts id cnt).expand (SocketOp.prog self) = recv id cnt := by
  rw [recv_eq]
  show (chkRxAvail id >>= fun _ => recvData id cnt >>= fun r => .ret r) = _
  rw [Prog.bind_ret]

theorem expand_drainParts (self : BG96) (id : Int) (n : Nat) :
    (drainParts id n).expand (SocketOp.prog self) = drain id n := by
  induction n with
  | zero => rfl
  | succ n ih =>
    show (chkRxAvail id >>= fun _ => recvData id 20 >>= fun r => _) = recv id 20 >>= _
    rw [recv_eq, Prog.bind_assoc]
    refine congrArg (chkRxAvail id >>= ·) (funext fun _ => ?_)
    refine congrArg (recvData id 20 >>= ·) (funext fun ⟨cnt, _⟩ => ?_)
    show (if cnt ≠ 0 then drainParts id n else .ret ()).expand _ =
      if cnt ≠ 0 then drain id n else .ret ()
    split
    · exact ih
    · rfl

/-- The operations are made of their parts. -/
theorem expand_parts (n : Nat) (self : BG96) (c : SocketCall) :
    (c.parts n).expand (SocketOp.prog self) = c.prog n self := by
  cases c with
  | «open» type id addr port =>
    show (openLink self type id addr port >>= fun ok => _) = _
    refine congrArg (openLink self type id addr port >>= ·) (funext fun ok => ?_)
    cases ok with
    | false => rfl
    | true =>
      show (drainParts id n >>= _).expand _ = _
      rw [expand_bind, expand_drainParts]
      rfl
  | close id => exact Prog.bind_ret (Modem.close id)
  | send id data => exact Prog.bind_ret (Modem.send id data)
  | recv id cnt => exact expand_recvParts self id cnt

theorem only_drainParts (id : Int) (n : Nat) :
    Only True (fun op => op = .chkRxAvail id ∨ op = .drainData id) (drainParts id n) := by
  induction n with
  | zero => trivial
  | succ n ih =>
    refine ⟨.inl rfl, fun _ => ⟨.inr rfl, fun r => ?_⟩⟩
    exact only_ite.mpr ⟨fun _ => ih, fun _ => trivial⟩

/-- The parts are about the socket of the operation, and as many bytes are asked for. -/
theorem only_parts {c : SocketCall} (hc : c.Sized) :
    Only True (fun op => op.Sized ∧ op.socket = c.socket) (c.parts n) := by
  have hdrain (id : Int) (n : Nat) :
      Only True (fun op => op.Sized ∧ op.socket = id) (drainParts id n) := by
    refine (only_drainParts id n).mono (fun h => h) fun op hop => ?_
    rcases hop with rfl | rfl
    · exact ⟨trivial, rfl⟩
    · exact ⟨trivial, rfl⟩
  cases c with
  | «open» type id addr port =>
    refine ⟨⟨trivial, rfl⟩, fun ok => ?_⟩
    cases ok with
    | false => trivial
    | true => exact (hdrain id n).bind fun _ => trivial
  | close id => exact ⟨⟨trivial, rfl⟩, fun _ => trivial⟩
  | send id data => exact ⟨⟨trivial, rfl⟩, fun _ => trivial⟩
  | recv id cnt => exact ⟨⟨trivial, rfl⟩, fun _ => ⟨⟨hc, rfl⟩, fun _ => trivial⟩⟩

theorem sized_parts {c : SocketCall} (hc : c.Sized) : Only True SocketOp.Sized (c.parts n) :=
  (only_parts hc).mono id fun _ => And.left

/-- A part takes the mutex once. -/
theorem once_prog (self : BG96) (op : SocketOp) : Once Call.use (op.prog self) 0 := by
  cases op with
  | openLink type id addr port => exact (single_openLink (A := True) self type id addr port).once
  | close id => exact (Single.locked_timed (A := True) (flat_quiet quiet_command)).once
  | send id data => exact (single_send (A := True) id data).once
  | chkRxAvail id => exact (single_chkRxAvail (A := True) id).once
  | recvData id cnt => exact (single_recvData (A := True) id cnt).once
  | drainData id => exact (single_recvData (A := True) id 20).once

theorem prog_ne_ret (self : BG96) (op : SocketOp) (a : op.Reply) : op.prog self ≠ .ret a := by
  cases op <;> exact fun h => by cases h

/-! ## A module that answers -/

namespace Module

/-- A command is carried out where it can be. -/
def carry (m : Module) : Format → Module
  | ⟨"AT+QIOPEN=%d,%d,\"%s\",\"%s\",%d,0,0\r", [_, .int id, _, _, _]⟩ =>
    if (m.conns id).isSome then m.tell errorLine
    else (m.setConn id (some .fresh)).tell (okLine ++ opening id 0)
  | ⟨"AT+QICLOSE=%d,%d", [.int id, _]⟩ => (m.setConn id none).tell okLine
  | ⟨"AT+QISEND=%d,%ld", [.int id, .int n]⟩ =>
    if 0 < n ∧ (m.conns id).isSome then
      { m with sending := some (id, n.toNat) }.tell (crlf ++ bytes "> ")
    else m.tell errorLine
  | ⟨"AT+QIRD=%d,%d", [.int id, .int cnt]⟩ =>
    match m.conns id with
    | some c =>
      if 0 < cnt then
        let bs := c.waiting.take cnt.toNat
        (m.setConn id (some (c.give bs.length))).tell (crlf ++ framed "+QIRD:" bs)
      else m.tell errorLine
    | none => m.tell errorLine
  | _ => m.tell errorLine

/-- The bytes that it waits for are accepted, if the connection is still open. -/
def store (m : Module) (data : List UInt8) : Module :=
  match m.sending with
  | some (id, n) =>
    if data.length = n then
      match m.conns id with
      | some c => ({ m with sending := none }.setConn id (some (c.accept data))).tell
          (answerLine (bytes "SEND OK"))
      | none => { m with sending := none }.tell (answerLine (bytes "SEND FAIL"))
    else m
  | none => m

/-- The answers of a module to which nothing comes. -/
def reply (m : Module) : (c : Call) → c.Reply × Module
  | .send cmd => (true, m.carry cmd)
  | .recv pattern =>
    let r := takenText pattern.pattern m.unread
    (r.1, { m with unread := r.2 })
  | .read size => (rawRead size m.unread, { m with unread := m.unread.drop size.toNat })
  | .getc => (m.unread.head?, { m with unread := m.unread.tail })
  | .write data => ((data.length : Int), m.store data)
  | .putc _ | .readMs _ => ((0 : Int), m)
  | .readable | .writable => (true, m)
  | .lock | .unlock | .setTimeout _ | .flush | .debugOn _ => ((), m)

theorem carry_responds (m : Module) (cmd : Format) :
    m.carry cmd = m.tell errorLine ∨ m.Responds cmd (m.carry cmd) := by
  unfold carry
  split
  · rename_i id _ _ _
    split
    · exact .inl rfl
    · exact .inr (.inl ⟨Option.not_isSome_iff_eq_none.mp ‹_›, rfl⟩)
  · exact .inr rfl
  · split
    · exact .inr ⟨And.left ‹_›, And.right ‹_›, rfl⟩
    · exact .inl rfl
  · rename_i id cnt
    split
    · rename_i c hc
      split
      · have hlen : ((c.waiting.take cnt.toNat).length : Int) ≤ cnt := by
          have hle := List.length_take_le cnt.toNat c.waiting
          omega
        refine .inr ⟨c, _, hc, List.take_prefix .., hlen, fun hnil => ?_, rfl⟩
        rcases List.take_eq_nil_iff.mp hnil with h | h
        · omega
        · exact h
      · exact .inl rfl
    · exact .inl rfl
  · exact .inl rfl

theorem store_takes (m : Module) (data : List UInt8) : m.Takes data (m.store data) := by
  unfold Takes store
  cases m.sending with
  | none => rfl
  | some target =>
    obtain ⟨id, n⟩ := target
    dsimp only
    by_cases hlen : data.length = n
    · rw [if_pos hlen, if_pos hlen]
      cases hc : m.conns id with
      | none => exact .inr rfl
      | some c => exact .inl ⟨c, rfl, rfl⟩
    · rw [if_neg hlen, if_neg hlen]

end Module

/-- The module of the network may answer so. -/
theorem Module.answers_reply (m : Module) (c : Call) : m.answers c (m.reply c).1 (m.reply c).2 := by
  cases c with
  | send cmd => exact ⟨rfl, m.carry_responds cmd⟩
  | write data => exact ⟨rfl, m.store_takes data⟩
  | recv | read | getc => exact ⟨rfl, rfl⟩
  | _ => rfl

/-! ## Threads -/

section Threads

variable {τ α : Type} [DecidableEq τ] {m m' : Module} {s : Sockets} {P' : τ → At α}

/-- The parts of threads have one order. -/
theorem linearize_parts {clients : τ → Prog SocketOp SocketOp.Reply α}
    (hclients : ∀ i, Only True SocketOp.Sized (clients i)) (hm : SocketsAgree m s)
    (hr : Reach Call.use network ⟨none, m, fun i => (clients i).expand (SocketOp.prog self)⟩
      ⟨none, m', P'⟩) :
    ∃ rest s', ReflTransGen (Atomic sockets) (clients, s) (rest, s') ∧ SocketsAgree m' s' ∧
      P' = fun i => (rest i).expand (SocketOp.prog self) :=
  linearizes (fun op _ => once_prog self op) (prog_ne_ret self)
    (fun _ _ _ hm hop => meets_socketOp self hop hm) hclients hm hr

omit [DecidableEq τ] in
/-- Threads that call the operations are threads that call their parts. -/
theorem expand_clients (clients : τ → Prog SocketCall SocketCall.Reply α) :
    (fun i => (clients i).expand (SocketCall.prog n self)) =
      fun i => ((clients i).expand (parts n)).expand (SocketOp.prog self) := by
  have hparts : SocketCall.prog n self = fun c => (c.parts n).expand (SocketOp.prog self) :=
    funext fun c => (expand_parts n self c).symm
  funext i
  rw [hparts, expand_expand]

/-- **One order.** From a state in which nothing but lines of the module's own is unread, threads
that call the operations reach with the mutex free what the parts of these do one after the other,
each as its result tells. -/
theorem linearized {clients : τ → Prog SocketCall SocketCall.Reply α}
    (hsized : ∀ i, Only True SocketCall.Sized (clients i)) (hquiet : Quiet false m.unread)
    (hsending : m.sending = none)
    (hr : Reach Call.use network ⟨none, m, fun i => (clients i).expand (SocketCall.prog n self)⟩
      ⟨none, m', P'⟩) :
    ∃ rest s', ReflTransGen (Atomic sockets)
        (fun i => (clients i).expand (parts n), ⟨m.conns, false⟩) (rest, s') ∧
      SocketsAgree m' s' ∧ P' = fun i => (rest i).expand (SocketOp.prog self) := by
  rw [expand_clients] at hr
  exact linearize_parts (fun i => (hsized i).expand fun _ => sized_parts)
    ⟨_, hquiet, .of_eq rfl (.refl _) hsending⟩ hr

/-- What an operation does alone, a thread can do when it comes to it. -/
theorem reach_call {clients : τ → Prog SocketCall SocketCall.Reply α} {i : τ} {c : SocketCall}
    {k : c.Reply → Prog SocketCall SocketCall.Reply α} {r : c.Reply} (hc : c.Sized)
    (hi : clients i = .call c k) (hrun : Runs network (c.prog n self) m (some r) m') :
    Reach Call.use network ⟨none, m, fun j => (clients j).expand (SocketCall.prog n self)⟩
      ⟨none, m', fun j => (Function.update clients i (k r) j).expand (SocketCall.prog n self)⟩ := by
  have hsafe : SafeUse Call.use network (fun _ => True) (fun _ => False) True (fun _ d _ => d = 0)
      (c.prog n self) 0 m := by
    rw [← expand_parts]
    exact safe_expand (fun op _ => once_prog self op) (sized_parts hc) m
  obtain ⟨_, rfl, hreach⟩ := hsafe.reach (t := i)
    (P := fun j => (clients j).expand (SocketCall.prog n self))
    (f := fun r => (k r).expand (SocketCall.prog n self)) hrun
  have hfirst : (c.prog n self >>= fun r => (k r).expand (SocketCall.prog n self)) =
      (clients i).expand (SocketCall.prog n self) := by rw [hi, expand_call]
  rw [hfirst, Function.update_eq_self i fun j => (clients j).expand (SocketCall.prog n self)]
    at hreach
  have hthreads : Function.update (fun j => (clients j).expand (SocketCall.prog n self)) i
      ((k r).expand (SocketCall.prog n self)) =
        fun j => (Function.update clients i (k r) j).expand (SocketCall.prog n self) := by
    funext j
    by_cases hj : j = i
    · subst hj
      rw [Function.update_self, Function.update_self]
    · rw [Function.update_of_ne hj, Function.update_of_ne hj]
  rwa [hthreads] at hreach

end Threads

/-! ### Two threads -/

namespace Module

/-- Bytes come on the open connections. -/
def come (m : Module) (more : Int → List UInt8) : Module :=
  { m with conns := fun id => (m.conns id).map fun c => c.extend (more id) }

theorem unasked_come (m : Module) (more : Int → List UInt8) : m.Unasked (m.come more) := by
  refine ⟨[], (m.come more).conns, .nil, ⟨more, rfl⟩, ?_⟩
  rw [List.append_nil]
  rfl

/-- The answers of a module to which bytes come before its calls, one after the other. -/
def replyAfter (x : Module × List (Int → List UInt8)) (c : Call) :
    c.Reply × Module × List (Int → List UInt8) :=
  let r := (x.1.come (x.2.headD fun _ => [])).reply c
  (r.1, r.2, x.2.tail)

/-- The module after an operation. -/
def after (m : Module) (c : SocketCall) (more : List (Int → List UInt8)) : Module :=
  ((c.prog 2 .ctor).eval replyAfter (m, more)).2.1

end Module

theorem network_replyAfter (x : Module × List (Int → List UInt8)) (c : Call) :
    network x.1 c (Module.replyAfter x c).1 (Module.replyAfter x c).2.1 := by
  exact ⟨_, Module.unasked_come x.1 (x.2.headD fun _ => []), Module.answers_reply _ c⟩

theorem runs_after {m : Module} {c : SocketCall} (more : List (Int → List UInt8)) {r : c.Reply}
    (hr : ((c.prog 2 .ctor).eval Module.replyAfter (m, more)).1 = some r) :
    Runs network (c.prog 2 .ctor) m (some r) (m.after c more) := by
  have hrun := runs_eval (E := fun x c r y => network x.1 c r y.1) network_replyAfter
    (c.prog 2 .ctor) (m, more)
  rw [hr] at hrun
  exact hrun.map (g := Prod.fst) fun _ _ _ _ h => h

/-- A client that opens a socket, sends bytes and receives some. -/
def talker (id : Int) (data : List UInt8) : Prog SocketCall SocketCall.Reply (List UInt8) :=
  .call (.open 't' id "10.0.0.1" 80) fun _ =>
    .call (.send id data) fun _ => .call (.recv id 10) fun r => .ret r.2

/-- Two threads with a socket each. -/
def talkers : Bool → Prog SocketCall SocketCall.Reply (List UInt8)
  | false => talker 1 [65, 66]
  | true => talker 2 [67]

theorem sized_talkers (i : Bool) : Only True SocketCall.Sized (talkers i) := by
  cases i
  all_goals
    refine ⟨trivial, fun _ => ⟨trivial, fun _ => ⟨⟨by decide, by decide⟩, fun _ => trivial⟩⟩⟩

/-- A module without connections. -/
def idleModule : Module := ⟨[], fun _ => none, none⟩

/-- A byte comes on the first socket after it is opened. -/
def early : List (Int → List UInt8) :=
  List.replicate 7 (fun _ => []) ++ [fun id => if id = 1 then [7] else []]

/-- Bytes come on both sockets. -/
def later : List (Int → List UInt8) := [fun id => if id = 1 then [1, 2] else [4]]

/-- The module after the two threads, which alternate. -/
def talked : Module :=
  (((((idleModule.after (.open 't' 1 "10.0.0.1" 80) early).after
    (.open 't' 2 "10.0.0.1" 80) []).after (.send 1 [65, 66]) []).after
    (.send 2 [67]) []).after (.recv 1 10) later).after (.recv 2 10) []

theorem reach_talkers : ∃ P', Reach Call.use network
    ⟨none, idleModule, fun i => (talkers i).expand (SocketCall.prog 2 .ctor)⟩
    ⟨none, talked, P'⟩ := by
  have hstart : talkers false = .call (.open 't' 1 "10.0.0.1" 80) _ := rfl
  have hopen₁ := reach_call (n := 2) (c := .open 't' 1 "10.0.0.1" 80) trivial hstart
    (runs_after (m := idleModule) early (r := true) (by decide +kernel))
  have hopen₂ := hopen₁.trans (reach_call (i := true) (c := .open 't' 2 "10.0.0.1" 80) trivial rfl
    (runs_after [] (r := true) (by decide +kernel)))
  have hsend₁ := hopen₂.trans (reach_call (i := false) (c := .send 1 [65, 66]) trivial rfl
    (runs_after [] (r := true) (by decide +kernel)))
  have hsend₂ := hsend₁.trans (reach_call (i := true) (c := .send 2 [67]) trivial rfl
    (runs_after [] (r := true) (by decide +kernel)))
  have hsized (id : Int) : Sized (.recv id 10) := ⟨by decide, by decide⟩
  have hrecv₁ := hsend₂.trans (reach_call (i := false) (c := .recv 1 10) (hsized 1) rfl
    (runs_after later (r := (2, [1, 2])) (by decide +kernel)))
  exact ⟨_, hrecv₁.trans (reach_call (i := true) (c := .recv 2 10) (hsized 2) rfl
    (runs_after [] (r := (1, [4])) (by decide +kernel)))⟩

theorem talked_first : ∃ c, talked.conns 1 = some c ∧ c.accepted = [65, 66] ∧
    c.taken = [7, 1, 2] := by
  have hfirst : (talked.conns 1).map (fun c => (c.accepted, c.taken)) =
      some ([65, 66], [7, 1, 2]) := by decide +kernel
  obtain ⟨c, hc, heq⟩ := Option.map_eq_some_iff.mp hfirst
  exact ⟨c, hc, congrArg Prod.fst heq, congrArg Prod.snd heq⟩

theorem talked_second : ∃ c, talked.conns 2 = some c ∧ c.accepted = [67] ∧ c.taken = [4] := by
  have hsecond : (talked.conns 2).map (fun c => (c.accepted, c.taken)) = some ([67], [4]) := by
    decide +kernel
  obtain ⟨c, hc, heq⟩ := Option.map_eq_some_iff.mp hsecond
  exact ⟨c, hc, congrArg Prod.fst heq, congrArg Prod.snd heq⟩

/-- The parts of two threads that alternate have one order. -/
theorem linearized_talkers : ∃ rest s', ReflTransGen (Atomic sockets)
    (fun i => (talkers i).expand (parts 2), ⟨idleModule.conns, false⟩) (rest, s') ∧
      SocketsAgree talked s' := by
  obtain ⟨P', hr⟩ := reach_talkers
  obtain ⟨rest, s', hatomic, hm, -⟩ := linearized sized_talkers .nil rfl hr
  exact ⟨rest, s', hatomic, hm⟩

/-! ## Streams -/

namespace SocketOp

/-- What has happened to a connection, by the result of an operation. -/
def effect : (op : SocketOp) → op.Reply → Option (ConnEvent Int UInt8)
  | openLink _ id _ _, r => if r then some (.opened id) else none
  | send id data, r => if r then some (.accepted id data) else none
  | recvData id _, r => if 0 ≤ r.1 then some (.gave id r.2) else none
  | drainData id, r => if 0 ≤ r.1 then some (.dropped id r.2) else none
  | close _, _ | chkRxAvail _, _ => none

/-- What has happened to the connections, by the results of operations. -/
def effects (l : List (Sigma Reply)) : List (ConnEvent Int UInt8) :=
  l.filterMap fun e => e.1.effect e.2

/-- What has happened is about the socket of the operation. -/
theorem effect_conn {op : SocketOp} {r : op.Reply} {v : ConnEvent Int UInt8}
    (h : op.effect r = some v) : v.conn = op.socket := by
  cases op with
  | openLink type id addr port =>
    cases r <;> cases h
    rfl
  | send id data =>
    cases r <;> cases h
    rfl
  | recvData id | drainData id =>
    rw [effect] at h
    split at h <;> cases h
    rfl
  | close id => cases h
  | chkRxAvail id => cases h

theorem effect_ne_dropped {op : SocketOp} {r : op.Reply} (hop : ∀ i, op ≠ .drainData i) {i : Int}
    {bs : List UInt8} : op.effect r ≠ some (.dropped i bs) := by
  intro h
  cases op with
  | openLink | send => cases r <;> cases h
  | recvData id =>
    rw [effect] at h
    split at h <;> cases h
  | close | chkRxAvail => cases h
  | drainData id => exact hop id rfl

/-- The loop of `open` throws bytes away. -/
theorem effect_drained {id : Int} {op : SocketOp} {r : op.Reply} {v : ConnEvent Int UInt8}
    (hop : op = .chkRxAvail id ∨ op = .drainData id) (h : op.effect r = some v) :
    ∃ bs, v = .dropped id bs := by
  rcases hop with rfl | rfl
  · cases h
  · rw [effect] at h
    split at h <;> cases h
    exact ⟨_, rfl⟩

theorem Acts.course {okLeft : Bool} {c c' : Conns Int UInt8} {op : SocketOp} {r : op.Reply}
    (h : op.Acts okLeft c r c') : Course c (op.effect r).toList c' := by
  cases op with
  | openLink type id addr port =>
    cases r with
    | false =>
      obtain rfl : c' = c := h
      exact .nil _
    | true => exact .does h.2 (.nil _)
  | close id =>
    cases r with
    | false =>
      obtain rfl : c' = c := h
      exact .nil _
    | true =>
      rcases h with rfl | ⟨-, rfl⟩
      · exact .closes id (.nil _)
      · exact .nil _
  | send id data =>
    cases r with
    | false =>
      obtain rfl : c' = c := h
      exact .nil _
    | true => exact .does h (.nil _)
  | chkRxAvail id =>
    obtain rfl : c' = c := h
    exact .nil _
  | recvData id | drainData id =>
    rcases h with ⟨rfl, rfl⟩ | ⟨conn, hconn, hr, -, hprefix, -, rfl⟩
    · exact .nil _
    · have hpos : 0 ≤ r.1 := by omega
      rw [effect, if_pos hpos]
      exact .does ⟨conn, hconn, hprefix, rfl⟩ (.nil _)

end SocketOp

/-- The parts of a list, one after the other. -/
theorem course_of_along {l : List (Sigma SocketOp.Reply)} {s s' : Sockets}
    (h : Along sockets l s s') : Course s.conns (SocketOp.effects l) s'.conns := by
  induction l generalizing s with
  | nil =>
    obtain rfl : s = s' := h
    exact .nil _
  | cons e l ih =>
    obtain ⟨t, ⟨c, hcomes, hacts, -⟩, hrest⟩ := h
    have heffects : SocketOp.effects (e :: l) = (e.1.effect e.2).toList ++ SocketOp.effects l := by
      rw [SocketOp.effects, List.filterMap_cons]
      cases e.1.effect e.2 <;> rfl
    rw [heffects]
    exact .comes hcomes (hacts.course.append (ih hrest))

section Streams

variable {τ α : Type} [DecidableEq τ] {m m' : Module} {P' : τ → At α}
  {clients : τ → Prog SocketCall SocketCall.Reply α}

/-- The parts in their order, and what they do to the connections. -/
theorem exists_course (hsized : ∀ i, Only True SocketCall.Sized (clients i))
    (hquiet : Quiet false m.unread) (hsending : m.sending = none)
    (hr : Reach Call.use network ⟨none, m, fun i => (clients i).expand (SocketCall.prog n self)⟩
      ⟨none, m', P'⟩) :
    ∃ es : List (τ × Sigma SocketOp.Reply),
      (∀ i, ∃ q, P' i = q.expand (SocketOp.prog self) ∧
        Partly ((clients i).expand (parts n)) (doneBy i es) q) ∧
      Course m.conns (SocketOp.effects (es.map Prod.snd)) m'.conns := by
  rw [expand_clients] at hr
  have hm : SocketsAgree m ⟨m.conns, false⟩ := ⟨_, hquiet, .of_eq rfl (.refl _) hsending⟩
  obtain ⟨rest, s', hatomic, ⟨u, -, hm'⟩, rfl⟩ :=
    linearize_parts (fun i => (hsized i).expand fun _ => sized_parts) hm hr
  obtain ⟨es, halong, hpartly⟩ := exists_order hatomic
  have hcourse := (course_of_along halong).append (.comes hm'.conns (.nil _))
  rw [List.append_nil] at hcourse
  exact ⟨es, fun i => ⟨rest i, rfl, hpartly i⟩, hcourse⟩

/-- **Exact streams.** Let threads call the operations, with their exchanges in any order. Then
their parts have one order, in which each thread has its own, and by which each connection that was
opened meanwhile has accepted the bytes of the successful sends since then, and what has been read
of it, from the first byte on, is what the parts have received, in this order: none is lost, none
comes twice, and none goes to another connection. Where the loops of `open` have thrown nothing
away, the receives have returned all of it. -/
theorem streams_exact (hsized : ∀ i, Only True SocketCall.Sized (clients i))
    (hquiet : Quiet false m.unread) (hsending : m.sending = none)
    (hr : Reach Call.use network ⟨none, m, fun i => (clients i).expand (SocketCall.prog n self)⟩
      ⟨none, m', P'⟩) :
    ∃ es : List (τ × Sigma SocketOp.Reply),
      (∀ i, ∃ q, P' i = q.expand (SocketOp.prog self) ∧
        Partly ((clients i).expand (parts n)) (doneBy i es) q) ∧
      ∀ id c, m.conns id = none → m'.conns id = some c →
        c.accepted = sentOn id (SocketOp.effects (es.map Prod.snd)) ∧
        c.taken = takenOn id (SocketOp.effects (es.map Prod.snd)) ∧
        (droppedOn id (SocketOp.effects (es.map Prod.snd)) = [] →
          c.taken = gotOn id (SocketOp.effects (es.map Prod.snd))) := by
  obtain ⟨es, hpartly, hcourse⟩ := exists_course hsized hquiet hsending hr
  refine ⟨es, hpartly, fun id c hid hc => ?_⟩
  obtain ⟨hsent, htaken⟩ := hcourse.exact hid hc
  exact ⟨hsent, htaken, fun hdropped => htaken.trans (takenOn_eq_gotOn hdropped)⟩

/-- The first byte of the first socket is thrown away, and the other ones are received. -/
theorem streams_exact_talkers : ∃ es : List (Bool × Sigma SocketOp.Reply),
    sentOn 1 (SocketOp.effects (es.map Prod.snd)) = [65, 66] ∧
      takenOn 1 (SocketOp.effects (es.map Prod.snd)) = [7, 1, 2] ∧
      sentOn 2 (SocketOp.effects (es.map Prod.snd)) = [67] ∧
      takenOn 2 (SocketOp.effects (es.map Prod.snd)) = [4] := by
  obtain ⟨P', hr⟩ := reach_talkers
  obtain ⟨es, -, hexact⟩ := streams_exact sized_talkers .nil rfl hr
  obtain ⟨c₁, hc₁, hsent₁, htaken₁⟩ := talked_first
  obtain ⟨c₂, hc₂, hsent₂, htaken₂⟩ := talked_second
  obtain ⟨hs₁, ht₁, -⟩ := hexact 1 c₁ rfl hc₁
  obtain ⟨hs₂, ht₂, -⟩ := hexact 2 c₂ rfl hc₂
  exact ⟨es, hs₁.symm.trans hsent₁, ht₁.symm.trans htaken₁, hs₂.symm.trans hsent₂,
    ht₂.symm.trans htaken₂⟩

/-- The loop of `open` throws bytes away before the operation ends. -/
theorem dropsFirst_parts {id : Int} {c : SocketCall} {l : List (Sigma SocketOp.Reply)}
    {q : Prog SocketOp SocketOp.Reply c.Reply} (h : Partly (c.parts n) l q) :
    DropsFirst id (SocketOp.effects l) := by
  have hkept (hc : Only True (fun op : SocketOp => ∀ i, op ≠ .drainData i) (c.parts n)) :
      DropsFirst id (SocketOp.effects l) := by
    refine .of_not_dropped fun v hv j bs hdropped => ?_
    obtain ⟨⟨op, r⟩, he, heffect⟩ := List.mem_filterMap.mp hv
    have hop := h.only hc _ he
    subst hdropped
    exact op.effect_ne_dropped hop heffect
  cases c with
  | close id => exact hkept ⟨by simp, fun _ => trivial⟩
  | send id data => exact hkept ⟨by simp, fun _ => trivial⟩
  | recv id cnt => exact hkept ⟨by simp, fun _ => ⟨by simp, fun _ => trivial⟩⟩
  | «open» type id' addr port =>
    cases h with
    | nil => exact .nil
    | @cons _ _ r l _ h =>
      cases r with
      | false =>
        cases h
        exact .nil
      | true =>
        refine .opened (j := id') fun v hv => ?_
        obtain ⟨⟨op, r⟩, he, heffect⟩ := List.mem_filterMap.mp hv
        have hop := h.only ((only_drainParts id' n).bind fun _ => trivial) _ he
        exact SocketOp.effect_drained hop heffect

/-- **Private streams.** A connection that one thread alone uses has accepted the bytes of this
thread's sends, and what has been read of it is what this thread's `open` has thrown away and, after
it, what its receives have returned, whatever the others do with other sockets meanwhile. -/
theorem private_stream (hsized : ∀ i, Only True SocketCall.Sized (clients i))
    (hquiet : Quiet false m.unread) (hsending : m.sending = none)
    (hr : Reach Call.use network ⟨none, m, fun i => (clients i).expand (SocketCall.prog n self)⟩
      ⟨none, m', P'⟩) {i : τ} {id : Int} (hid : m.conns id = none)
    (hothers : ∀ j, j ≠ i → Only True (fun c => c.socket ≠ id) (clients j)) :
    ∃ l q, P' i = q.expand (SocketOp.prog self) ∧ Partly ((clients i).expand (parts n)) l q ∧
      ∀ c, m'.conns id = some c → c.accepted = sentOn id (SocketOp.effects l) ∧
        c.taken = droppedOn id (SocketOp.effects l) ++ gotOn id (SocketOp.effects l) := by
  obtain ⟨es, hpartly, hcourse⟩ := exists_course hsized hquiet hsending hr
  -- the others have other sockets
  have hsocket : ∀ e ∈ es, e.1 ≠ i → ∀ v, e.2.1.effect e.2.2 = some v → v.conn ≠ id := by
    intro e he hne v hv
    have hparts : Only True (fun op : SocketOp => op.socket ≠ id)
        ((clients e.1).expand (parts n)) := by
      refine ((hsized e.1).and (hothers e.1 hne)).expand fun c hc => ?_
      exact (only_parts hc.1).mono (fun h => h) fun op hop => hop.2 ▸ hc.2
    have hmem : e.2 ∈ doneBy e.1 es :=
      List.mem_map_of_mem (List.mem_filter.mpr ⟨he, decide_eq_true rfl⟩)
    obtain ⟨q, -, hq⟩ := hpartly e.1
    rw [SocketOp.effect_conn hv]
    exact hq.only hparts e.2 hmem
  obtain ⟨q, hP, hq⟩ := hpartly i
  have hfirst : DropsFirst id (SocketOp.effects (doneBy i es)) := by
    refine hq.expand (P := fun l => DropsFirst id (SocketOp.effects l)) .nil (fun l₁ l₂ h₁ h₂ => ?_)
      fun c l q => dropsFirst_parts
    rw [SocketOp.effects, List.filterMap_append]
    exact h₁.append h₂
  refine ⟨doneBy i es, q, hP, hq, fun c hc => ?_⟩
  obtain ⟨hsent, htaken⟩ := hcourse.exact hid hc
  have hsent' : sentOn id (SocketOp.effects (es.map Prod.snd)) =
      sentOn id (SocketOp.effects (doneBy i es)) :=
    foldl_doneBy (fun e he hne v hv acc => (ConnEvent.of_ne (hsocket e he hne v hv) acc).1) []
  have htaken' : takenOn id (SocketOp.effects (es.map Prod.snd)) =
      takenOn id (SocketOp.effects (doneBy i es)) :=
    foldl_doneBy (fun e he hne v hv acc => (ConnEvent.of_ne (hsocket e he hne v hv) acc).2.1) []
  exact ⟨hsent.trans hsent', (htaken.trans htaken').trans hfirst.takenOn⟩

/-- The first client has thrown a byte away and received two. -/
theorem private_stream_talkers : ∃ l q, Partly ((talkers false).expand (parts 2)) l q ∧
    sentOn 1 (SocketOp.effects l) = [65, 66] ∧
      droppedOn 1 (SocketOp.effects l) ++ gotOn 1 (SocketOp.effects l) = [7, 1, 2] := by
  obtain ⟨P', hr⟩ := reach_talkers
  have hothers : ∀ j, j ≠ false → Only True (fun c : SocketCall => c.socket ≠ 1) (talkers j) := by
    intro j hj
    obtain rfl : j = true := by simpa using hj
    exact ⟨by decide, fun _ => ⟨by decide, fun _ => ⟨by decide, fun _ => trivial⟩⟩⟩
  have hclosed : idleModule.conns 1 = none := rfl
  obtain ⟨l, q, -, hl, hexact⟩ := private_stream sized_talkers .nil rfl hr hclosed hothers
  obtain ⟨c, hc, hsent, htaken⟩ := talked_first
  obtain ⟨hs, ht⟩ := hexact c hc
  exact ⟨l, q, hl, hs.symm.trans hsent, ht.symm.trans htaken⟩

end Streams

end Bg96.Modem
