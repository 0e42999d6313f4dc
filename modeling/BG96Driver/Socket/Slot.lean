import BG96Driver.Lib.History
import BG96Driver.Socket.Records

/-!
# One socket as a machine of its own

`SlotState` is what `BG96Interface` keeps for one socket. `Act` is everything that can happen to
it: the calls on its handle (with the results of the `BG96` calls that they make), the ends of
the call-backs, and its turns in the two loops of `g_eq_event`. `SlotState.step` is the effect of an
act on the socket's records, with what it shows.

The interface is a system of five such machines (`BG96Driver/Socket/Interface.lean`), and it
replays them (`BG96Driver/Socket/Replay.lean`): the only act that depends on the other sockets is
`poll`, by its flag `goSlow`.

`Allowed` says when an act can happen. `inSend` and `inRecv` count the calls of `socket_send` and
`socket_recv` on the socket that are in their call-back, so `sendRet` and `recvRet` need one.

`Side` is what an output is about. `step_sides` says which sides an act shows, `step_tx_frame` and
`step_rx_frame` which records it leaves alone.
-/

namespace Bg96

/-- An index of `g_sock`, `g_socTx` and `g_socRx`. A handle is the address of `g_sock[h]`. -/
abbrev Slot := Fin bg96SocketCount

/-- What `BG96Interface` keeps for one socket. -/
structure SlotState where
  /-- `g_sock[i]`. -/
  sock : Bg96Socket
  /-- `g_socTx[i]`. -/
  tx : TxEvent
  /-- `g_socRx[i]`. -/
  rx : RxEvent
  /-- The calls of `socket_send` on the socket that are in their call-back. -/
  inSend : Nat
  /-- The calls of `socket_recv` on the socket that are in their call-back. -/
  inRecv : Nat

/-- What can happen to a socket. -/
inductive Act where
  /-- `socket_open` takes the socket. -/
  | open (proto : NsapiProtocol)
  /-- `socket_close` of the open socket. -/
  | close
  /-- `socket_attach`. -/
  | attach (callback : Option Nat) (data : Nat)
  /-- `socket_listen` or `socket_bind`. -/
  | listen
  /-- `socket_connect` up to its call-back. -/
  | connect (addr : SocketAddress) (opened : Nat → Bool)
  /-- `socket_connect` after its call-back. -/
  | connectRet
  /-- `socket_send` up to its call-back. -/
  | send (data size : Nat) (done : Bool)
  /-- `socket_send` after its call-back. -/
  | sendRet
  /-- `socket_recv` up to its call-back. -/
  | recv (data size : Nat) (res : RecvResult)
  /-- `socket_recv` after its call-back. -/
  | recvRet
  /-- `socket_recvfrom` up to its call of `socket_recv`. -/
  | recvfrom
  | setsockopt (level : OptLevel) (optname : OptName) (optval optlen : Nat)
  | getsockopt (level : OptLevel) (optname : OptName) (optval optlen : Nat)
  /-- A turn of the first loop of `g_eq_event`, entered with `goSlow`. -/
  | poll (res : RecvResult) (done goSlow : Bool)
  /-- The read part of a turn of the second loop of `g_eq_event`. -/
  | fireRx
  /-- The transmit part of a turn of the second loop of `g_eq_event`. -/
  | fireTx

namespace SlotState

/-- The effect of an act on socket `i`, with what it shows. -/
def step (i : Slot) (st : SlotState) : Act → SlotState × List Out
  | .open proto =>
    let (sock, tx, rx) := openSocket i.val proto st.sock st.tx st.rx
    ({ st with sock := sock, tx := tx, rx := rx }, [.ret .socketOpen nsapiErrorOk])
  | .close =>
    let (sock, tx, rx, out) := closeSocket st.sock st.tx st.rx
    ({ st with sock := sock, tx := tx, rx := rx }, out)
  | .attach callback data =>
    ({ st with sock := { st.sock with callback := callback, data := data } }, [])
  | .listen =>
    let (sock, out, _) := Bg96.listen st.sock
    ({ st with sock := sock }, out)
  | .connect addr opened =>
    let (sock, out, _) := connectEnter st.sock addr opened
    ({ st with sock := sock }, out)
  | .connectRet => (st, [.ret .socketConnect nsapiErrorOk])
  | .send data size done =>
    let (tx, out, next) := sendEnter st.sock st.tx data size done
    ({ st with tx := tx, inSend := if next = .callBack then st.inSend + 1 else st.inSend }, out)
  | .sendRet =>
    let (tx, out, _) := sendLeave st.tx
    ({ st with tx := tx, inSend := st.inSend - 1 }, out)
  | .recv data size res =>
    let (rx, out, next) := recvEnter st.sock st.rx data size res
    ({ st with rx := rx, inRecv := if next = .callBack then st.inRecv + 1 else st.inRecv }, out)
  | .recvRet =>
    let (rx, out, _) := recvLeave st.rx
    ({ st with rx := rx, inRecv := st.inRecv - 1 }, out)
  | .recvfrom =>
    (st, if st.sock.connected then [.sender st.sock.addr]
      else [.ret .socketRecvfrom nsapiErrorNoConnection])
  | .setsockopt level optname optval optlen =>
    let (sock, n) := Bg96.setsockopt st.sock level optname optval optlen
    ({ st with sock := sock }, [.ret .setsockopt n])
  | .getsockopt level optname optval optlen =>
    let (out, n) := Bg96.getsockopt st.sock level optname optval optlen
    (st, out ++ [.ret .getsockopt n])
  | .poll res done goSlow =>
    let (rx, out, _, goSlow) := pollRx st.rx res goSlow
    let (tx, out', _, _) := pollTx st.tx done goSlow
    ({ st with rx := rx, tx := tx }, out ++ out')
  | .fireRx =>
    let (rx, out, _) := Bg96.fireRx st.rx
    ({ st with rx := rx }, out)
  | .fireTx =>
    let (tx, out, _) := Bg96.fireTx st.tx
    ({ st with tx := tx }, out)

/-- When an act can happen to socket `i`: `socket_open` takes a free socket, a transfer or a close
is a call on an open one, and a call-back that ends was made. -/
def Allowed (i : Slot) (st : SlotState) : Act → Prop
  | .open _ => st.sock.id = -1
  | .close | .send .. | .recv .. => st.sock.id = i.val
  | .sendRet => 0 < st.inSend
  | .recvRet => 0 < st.inRecv
  | _ => True

end SlotState

/-! ## The sides of a socket -/

/-- What an output is about. -/
inductive Side where
  | send
  | receive
  | session
  | other
  deriving DecidableEq

def Out.side : Out → Side
  | .modemSend .. | .txDone _ | .txCollect _ | .ret .socketSend _ => .send
  | .modemRecv .. | .store .. | .rxStart .. | .rxDone .. | .rxCollect _ | .ret .socketRecv _ =>
    .receive
  | .ret .socketOpen _ | .ret .socketClose _ => .session
  | _ => .other

/-- The sides that an act shows. -/
def Act.sides : Act → List Side
  | .open _ | .close => [.session]
  | .send .. | .sendRet => [.send]
  | .recv .. | .recvRet => [.receive]
  | .poll .. => [.send, .receive]
  | _ => []

/-- The outputs are about the sides `l`, or about no side. -/
def OutsOf (l : List Side) (o : List Out) : Prop := ∀ x ∈ o, x.side = .other ∨ x.side ∈ l

variable {l : List Side} {o o' : List Out}

theorem OutsOf.append (h : OutsOf l o) (h' : OutsOf l o') : OutsOf l (o ++ o') :=
  fun x hx => (List.mem_append.mp hx).elim (h x) (h' x)

theorem OutsOf.mono {l' : List Side} (hl : l ⊆ l') (h : OutsOf l o) : OutsOf l' o :=
  fun x hx => (h x hx).imp_right fun hm => hl hm

theorem OutsOf.ne {s : Side} (h : OutsOf l o) (hs : s ∉ l) (ho : s ≠ .other) :
    ∀ x ∈ o, x.side ≠ s := by
  rintro x hx rfl
  exact (h x hx).elim ho hs

theorem TxCase.sides {ptr ptr' : TxEvent} {done : Bool} {out : List Out} {event : Event}
    (h : TxCase ptr done ptr' out event) : OutsOf [.send] out := by
  cases h <;> simp [OutsOf, Out.side]

theorem RxCase.sides {ptr ptr' : RxEvent} {res : RecvResult} {out : List Out} {event : Event}
    (h : RxCase ptr res ptr' out event) : OutsOf [.receive] out := by
  cases h <;> simp [OutsOf, Out.side]

theorem SocketSendCase.sides {sock : Bg96Socket} {tx tx' : TxEvent} {data size : Nat} {done : Bool}
    {out : List Out} {next : Next} (h : SocketSendCase sock tx data size done tx' out next) :
    OutsOf [.send] out := by
  cases h with
  | refuse | collect => simp [OutsOf, Out.side, sendLeave]
  | block t o _ _ _ he | callBack t o _ _ _ he | sync t o _ _ _ he =>
    exact he.sides.append (by simp [OutsOf, Out.side, sendLeave])

theorem SocketRecvCase.sides {sock : Bg96Socket} {rx rx' : RxEvent} {data size : Nat}
    {res : RecvResult}
    {out : List Out} {next : Next} (h : SocketRecvCase sock rx data size res rx' out next) :
    OutsOf [.receive] out := by
  cases h with
  | refuse | collect => simp [OutsOf, Out.side, recvLeave]
  | block r o _ _ _ he | callBack r o _ _ _ he | sync r o _ _ _ he =>
    refine .append (o := _ :: o) ?_ (by simp [OutsOf, Out.side, recvLeave])
    exact .append (o := [_]) (by simp [OutsOf, Out.side]) he.sides

theorem PollTxCase.sides {tx tx' : TxEvent} {done g g' : Bool} {out : List Out} {event : Event}
    (h : PollTxCase tx done g tx' out event g') : OutsOf [.send] out := by
  cases h with
  | poll _ _ _ _ he => exact he.sides
  | pass => simp [OutsOf]

theorem PollRxCase.sides {rx rx' : RxEvent} {res : RecvResult} {g g' : Bool} {out : List Out}
    {event : Event} (h : PollRxCase rx res g rx' out event g') : OutsOf [.receive] out := by
  cases h with
  | poll _ _ _ _ _ he => exact he.sides
  | pass => simp [OutsOf]

theorem connectLoop_sides (sock : Bg96Socket) (addr : SocketAddress) (opened : Nat → Bool)
    (turns cnt : Nat) (k : Bool) : OutsOf [] (connectLoop sock addr opened turns cnt k).2 := by
  induction turns generalizing cnt k with
  | zero => simp [OutsOf, connectLoop]
  | succ turns ih =>
    simp only [connectLoop]
    split
    · refine .append (o := [_]) (by simp [OutsOf, Out.side]) (.append ?_ (ih _ _))
      split <;> simp [OutsOf, Out.side]
    · simp [OutsOf]

theorem connectEnter_sides (sock : Bg96Socket) (addr : SocketAddress) (opened : Nat → Bool) :
    OutsOf [] (connectEnter sock addr opened).2.1 := by
  have hl := connectLoop_sides sock addr opened 3 0 true
  simp only [connectEnter]
  repeat' split
  all_goals exact hl.append (by simp [OutsOf, Out.side])

theorem connectEnter_id (sock : Bg96Socket) (addr : SocketAddress) (opened : Nat → Bool) :
    (connectEnter sock addr opened).1.id = sock.id := by
  simp only [connectEnter]
  repeat' split
  all_goals rfl

namespace SlotState

variable {i : Slot} {st : SlotState} {a : Act}

/-- What an act shows is about its sides. -/
theorem step_sides (i : Slot) (st : SlotState) (a : Act) : OutsOf a.sides (st.step i a).2 := by
  cases a with
  | «open» => simp [OutsOf, step, Out.side, Act.sides]
  | close =>
    simp only [step, closeSocket]
    split <;> simp [OutsOf, Out.side, Act.sides]
  | attach | connectRet | sendRet | recvRet =>
    simp [OutsOf, step, Out.side, Act.sides, sendLeave, recvLeave]
  | listen =>
    simp only [step, Bg96.listen]
    split <;> simp [OutsOf, Out.side]
  | connect addr opened => exact connectEnter_sides _ _ _
  | send p n done =>
    rcases he : sendEnter st.sock st.tx p n done with ⟨tx, out, next⟩
    simp only [step, he]
    exact (sendEnter_cases he).sides
  | recv p n res =>
    rcases he : recvEnter st.sock st.rx p n res with ⟨rx, out, next⟩
    simp only [step, he]
    exact (recvEnter_cases he).sides
  | recvfrom =>
    simp only [step]
    split <;> simp [OutsOf, Out.side]
  | setsockopt => simp [OutsOf, step, Out.side]
  | getsockopt =>
    simp only [step, Bg96.getsockopt]
    repeat' split
    all_goals simp [OutsOf, Out.side]
  | poll res done g =>
    rcases hr : pollRx st.rx res g with ⟨rx, out, event, g'⟩
    rcases ht : pollTx st.tx done g' with ⟨tx, out', event', g''⟩
    simp only [step, hr, ht]
    exact ((pollRx_cases hr).sides.mono (by simp [Act.sides])).append
      ((pollTx_cases ht).sides.mono (by simp [Act.sides]))
  | fireRx =>
    simp only [step, Bg96.fireRx]
    split <;> simp [OutsOf, Out.side]
  | fireTx =>
    simp only [step, Bg96.fireTx]
    split <;> simp [OutsOf, Out.side]

/-- Only `socket_open` and `socket_close` change the `id` of a socket. -/
theorem step_id (h : .session ∉ a.sides) : (st.step i a).1.sock.id = st.sock.id := by
  cases a with
  | «open» | close => simp [Act.sides] at h
  | listen => dsimp only [step, Bg96.listen]; split <;> rfl
  | connect addr opened => exact connectEnter_id ..
  | setsockopt =>
    dsimp only [step, Bg96.setsockopt]
    repeat' split
    all_goals rfl
  | _ => rfl

variable (i st) in
/-- The acts that leave the transmission alone. -/
theorem step_tx_frame (hs : .send ∉ a.sides) (ho : .session ∉ a.sides) (hf : a ≠ .fireTx) :
    (st.step i a).1.tx = st.tx ∧ (st.step i a).1.inSend = st.inSend := by
  cases a with
  | «open» | close => simp [Act.sides] at ho
  | send | sendRet | poll => simp [Act.sides] at hs
  | fireTx => exact absurd rfl hf
  | _ => exact ⟨rfl, rfl⟩

variable (i st) in
/-- The acts that leave the read alone. -/
theorem step_rx_frame (hr : .receive ∉ a.sides) (ho : .session ∉ a.sides) (hf : a ≠ .fireRx) :
    (st.step i a).1.rx = st.rx ∧ (st.step i a).1.inRecv = st.inRecv := by
  cases a with
  | «open» | close => simp [Act.sides] at ho
  | recv | recvRet | poll => simp [Act.sides] at hr
  | fireRx => exact absurd rfl hf
  | _ => exact ⟨rfl, rfl⟩

end SlotState

end Bg96
