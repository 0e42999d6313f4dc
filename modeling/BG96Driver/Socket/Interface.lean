import BG96Driver.Socket.Slot
import Mathlib.Data.List.FinRange

/-!
# `BG96Interface`: the socket calls and the event queue

`Interface` is the part of `BG96Interface` that the socket calls and `g_eq_event` use. The calls
are the functions of the source over the records' functions (`BG96Driver/Socket/Records.lean`).
`txrx_mutex` is not a field: a call or a firing of `g_eq_event` with the mutex free is one step, and
a firing whose `trylock` fails is another one.

A socket's call-back is a program of the application, and the mutex is recursive: a call-back can
call the interface again. The functions that make a call-back take its effect on the whole
interface as an argument (`onConnect`, `onData`, `onRx`, `onTx`). `Script` is what one call-back
does: a finite list of calls, each with the results of its `BG96` calls and with the scripts of the
call-backs that it makes itself.

* `Call`, `exec`: the calls. `Script.run`: a call-back.
* `Label`, `step`: a call of the application, or a firing of `g_eq_event`. `Run`: a run of labels.
* `ctor`: the constructor, on arbitrary memory. `Reachable`: what a run from it reaches.

`trace` records the acts of the sockets with what they showed, the newest first. No function reads
it.
-/

namespace Bg96

open History

/-- What happened to one socket. -/
abbrev Trace := List (Entry Slot Act Out)

/-- The part of `BG96Interface` that the socket calls and `g_eq_event` use. -/
structure Interface where
  /-- `scheduled_events`. -/
  scheduledEvents : Nat
  /-- The calls of `g_eq_event` that are queued in `_bg96_queue`. -/
  bg96Queue : Nat
  /-- `g_sock`, `g_socTx` and `g_socRx`. -/
  slot : Slot → SlotState
  /-- What happened to the sockets. -/
  trace : Trace

namespace Interface

def gSock (s : Interface) (h : Slot) : Bg96Socket := (s.slot h).sock

def gSocTx (s : Interface) (i : Slot) : TxEvent := (s.slot i).tx

def gSocRx (s : Interface) (i : Slot) : RxEvent := (s.slot i).rx

/-- `BG96Interface::BG96Interface`. It does not set the other fields of the records: they are
arbitrary memory `raw`. No call is in a call-back. -/
def ctor (raw : Slot → SlotState) : Interface where
  scheduledEvents := 0
  bg96Queue := 0
  slot i :=
    { sock := { (raw i).sock with id := -1, disTO := false, connected := false }
      tx := { (raw i).tx with mTxState := .txIdle }
      rx := { (raw i).rx with mRxState := .readStart, mRxDisTO := false }
      inSend := 0
      inRecv := 0 }
  trace := []

/-- Socket `i` becomes `st` by the act `a`, which shows `out`. -/
def put (s : Interface) (i : Slot) (st : SlotState) (a : Act) (out : List Out) : Interface :=
  { s with slot := Function.update s.slot i st, trace := ⟨i, a, out⟩ :: s.trace }

/-- The index `id` of a socket's tables; `none` if it is outside of them. -/
def tableIndex (id : Int) : Option Slot :=
  if h : 0 ≤ id ∧ id < bg96SocketCount then some ⟨id.toNat, by omega⟩ else none

/-- `BG96Interface::_eq_schedule`. `EventQueue::call_in` succeeds. -/
def eqSchedule (s : Interface) : Interface :=
  if s.scheduledEvents < bg96SocketCount then
    { s with scheduledEvents := s.scheduledEvents + 1, bg96Queue := s.bg96Queue + 1 }
  else s

/-- The interface and the value that a function returns, after the part up to its call-back. -/
def finish (s : Interface) (next : Next) (callBack : Interface → Interface × Int) :
    Interface × Int :=
  match next with
  | .ret n => (s, n)
  | .schedule n => (s.eqSchedule, n)
  | .callBack => callBack s

/-! ## The calls -/

/-- `BG96Interface::socket_open`, with the handle it stores in `*handle`. -/
def socketOpen (s : Interface) (proto : NsapiProtocol) : Interface × Int × Option Slot :=
  match (List.finRange bg96SocketCount).find? fun i => (s.gSock i).id = -1 with
  | none => (s, nsapiErrorNoSocket, none)
  | some i =>
    let (sock, tx, rx) := openSocket i.val proto (s.gSock i) (s.gSocTx i) (s.gSocRx i)
    (s.put i { s.slot i with sock := sock, tx := tx, rx := rx } (.open proto)
      [.ret .socketOpen nsapiErrorOk], nsapiErrorOk, some i)

/-- `BG96Interface::socket_close`. An `id` outside the tables does not occur (`Good.id`). -/
def socketClose (s : Interface) (h : Slot) : Interface × Int :=
  if (s.gSock h).id ≥ 0 then
    match tableIndex (s.gSock h).id with
    | none => (s, 0)
    | some i =>
      let (sock, tx, rx, out) := closeSocket (s.gSock h) (s.gSocTx i) (s.gSocRx i)
      (s.put i { s.slot i with sock := sock, tx := tx, rx := rx } .close out, nsapiErrorOk)
  else (s, nsapiErrorDeviceError)

/-- `BG96Interface::socket_attach`. -/
def socketAttach (s : Interface) (h : Slot) (callback : Option Nat) (data : Nat) : Interface :=
  s.put h { s.slot h with sock := { s.gSock h with callback := callback, data := data } }
    (.attach callback data) []

/-- `BG96Interface::socket_listen`, and `BG96Interface::socket_bind`, which only calls it. -/
def socketListen (s : Interface) (h : Slot) : Interface × Int :=
  let (sock, out, next) := listen (s.gSock h)
  (s.put h { s.slot h with sock := sock } .listen out).finish next fun s => (s, 0)

/-- `BG96Interface::socket_connect`. -/
def socketConnect (onConnect : Interface → Interface) (s : Interface) (h : Slot)
    (addr : SocketAddress) (opened : Nat → Bool) : Interface × Int :=
  let (sock, out, next) := connectEnter (s.gSock h) addr opened
  (s.put h { s.slot h with sock := sock } (.connect addr opened) out).finish next fun s =>
    let s := onConnect s
    (s.put h (s.slot h) .connectRet [.ret .socketConnect nsapiErrorOk], nsapiErrorOk)

/-- `BG96Interface::socket_send`. A closed handle (`id` `-1`) is outside the tables: the source's
behaviour is undefined, and this function does nothing. -/
def socketSend (onData : Interface → Interface) (s : Interface) (h : Slot) (data size : Nat)
    (done : Bool) : Interface × Int :=
  match tableIndex (s.gSock h).id with
  | none => (s, 0)
  | some i =>
    let (tx, out, next) := sendEnter (s.gSock h) (s.gSocTx i) data size done
    let inSend := if next = .callBack then (s.slot i).inSend + 1 else (s.slot i).inSend
    (s.put i { s.slot i with tx := tx, inSend := inSend } (.send data size done) out).finish next
      fun s =>
        let s := onData s
        let (tx, out, n) := sendLeave (s.gSocTx i)
        (s.put i { s.slot i with tx := tx, inSend := (s.slot i).inSend - 1 } .sendRet out, n)

/-- `BG96Interface::socket_recv`. A closed handle is outside the tables, as in `socketSend`. -/
def socketRecv (onData : Interface → Interface) (s : Interface) (h : Slot) (data size : Nat)
    (res : RecvResult) : Interface × Int :=
  match tableIndex (s.gSock h).id with
  | none => (s, 0)
  | some i =>
    let (rx, out, next) := recvEnter (s.gSock h) (s.gSocRx i) data size res
    let inRecv := if next = .callBack then (s.slot i).inRecv + 1 else (s.slot i).inRecv
    (s.put i { s.slot i with rx := rx, inRecv := inRecv } (.recv data size res) out).finish next
      fun s =>
        let s := onData s
        let (rx, out, n) := recvLeave (s.gSocRx i)
        (s.put i { s.slot i with rx := rx, inRecv := (s.slot i).inRecv - 1 } .recvRet out, n)

/-- `BG96Interface::socket_sendto`. -/
def socketSendto (onConnect onData : Interface → Interface) (s : Interface) (h : Slot)
    (addr : SocketAddress) (opened : Nat → Bool) (data size : Nat) (done : Bool) :
    Interface × Int :=
  let (s, err) := if !(s.gSock h).connected then socketConnect onConnect s h addr opened
    else (s, nsapiErrorOk)
  if err ≠ nsapiErrorOk then (s, err) else socketSend onData s h data size done

/-- `BG96Interface::socket_recvfrom`. -/
def socketRecvfrom (onData : Interface → Interface) (s : Interface) (h : Slot) (data size : Nat)
    (res : RecvResult) : Interface × Int :=
  if !(s.gSock h).connected then
    (s.put h (s.slot h) .recvfrom [.ret .socketRecvfrom nsapiErrorNoConnection],
      nsapiErrorNoConnection)
  else
    socketRecv onData (s.put h (s.slot h) .recvfrom [.sender (s.gSock h).addr]) h data size res

/-- `BG96Interface::setsockopt`. -/
def setsockopt (s : Interface) (h : Slot) (level : OptLevel) (optname : OptName)
    (optval optlen : Nat) : Interface × Int :=
  let (sock, n) := Bg96.setsockopt (s.gSock h) level optname optval optlen
  (s.put h { s.slot h with sock := sock } (.setsockopt level optname optval optlen)
    [.ret .setsockopt n], n)

/-- `BG96Interface::getsockopt`. -/
def getsockopt (s : Interface) (h : Slot) (level : OptLevel) (optname : OptName)
    (optval optlen : Nat) : Interface × Int :=
  let (out, n) := Bg96.getsockopt (s.gSock h) level optname optval optlen
  (s.put h (s.slot h) (.getsockopt level optname optval optlen) (out ++ [.ret .getsockopt n]), n)

end Interface

/-- A call of the socket interface, with the results of the `BG96` calls that it can make. -/
inductive Call where
  | open (proto : NsapiProtocol)
  | close (h : Slot)
  | attach (h : Slot) (callback : Option Nat) (data : Nat)
  | listen (h : Slot)
  | connect (h : Slot) (addr : SocketAddress) (opened : Nat → Bool)
  | send (h : Slot) (data size : Nat) (done : Bool)
  | recv (h : Slot) (data size : Nat) (res : RecvResult)
  | sendto (h : Slot) (addr : SocketAddress) (opened : Nat → Bool) (data size : Nat) (done : Bool)
  | recvfrom (h : Slot) (data size : Nat) (res : RecvResult)
  | setsockopt (h : Slot) (level : OptLevel) (optname : OptName) (optval optlen : Nat)
  | getsockopt (h : Slot) (level : OptLevel) (optname : OptName) (optval optlen : Nat)

/-- The handle that a call is on. -/
def Call.handle : Call → Option Slot
  | .open _ => none
  | .close h | .attach h .. | .listen h | .connect h .. | .send h .. | .recv h .. | .sendto h ..
  | .recvfrom h .. | .setsockopt h .. | .getsockopt h .. => some h

/-- A call, where `onConnect` and `onData` are what the socket's call-back does when
`socket_connect`, and `socket_send` or `socket_recv`, call it. -/
def exec (onConnect onData : Interface → Interface) (s : Interface) : Call → Interface × Int
  | .open proto => let (s, ret, _) := s.socketOpen proto; (s, ret)
  | .close h => s.socketClose h
  | .attach h callback data => (s.socketAttach h callback data, 0)
  | .listen h => s.socketListen h
  | .connect h addr opened => s.socketConnect onConnect h addr opened
  | .send h data size done => s.socketSend onData h data size done
  | .recv h data size res => s.socketRecv onData h data size res
  | .sendto h addr opened data size done =>
    s.socketSendto onConnect onData h addr opened data size done
  | .recvfrom h data size res => s.socketRecvfrom onData h data size res
  | .setsockopt h level optname optval optlen => s.setsockopt h level optname optval optlen
  | .getsockopt h level optname optval optlen => s.getsockopt h level optname optval optlen

/-- What one call-back does: its calls, each with what the call-backs that it makes do. -/
inductive Script where
  | done
  | call (c : Call) (onConnect onData rest : Script)

/-- The effect of a call-back. -/
def Script.run : Script → Interface → Interface
  | .done => id
  | .call c onConnect onData rest => fun s => rest.run (exec onConnect.run onData.run s c).1

/-! ## `g_eq_event` -/

/-- What the modem and the call-backs do in one firing of `g_eq_event`: the results of `BG96::recv`
and `BG96::send` for each socket, and the scripts of each socket's call-backs. -/
structure TickEnv where
  rx : Slot → RecvResult
  tx : Slot → Bool
  onRx : Slot → Script
  onTx : Slot → Script

namespace Interface

/-- A turn of the first loop of `g_eq_event`, on the interface, `done` and `goSlow`. -/
def pollTurn (e : TickEnv) : Interface × Event × Bool → Slot → Interface × Event × Bool
  | (s, done, goSlow), i =>
    let (rx, out, event, goSlow') := pollRx (s.gSocRx i) (e.rx i) goSlow
    let (tx, out', event', goSlow'') := pollTx (s.gSocTx i) (e.tx i) goSlow'
    (s.put i { s.slot i with rx := rx, tx := tx } (.poll (e.rx i) (e.tx i) goSlow) (out ++ out'),
      done || event || event', goSlow'')

/-- The read part of a turn of the second loop of `g_eq_event`. -/
def fireTurnRx (e : TickEnv) (s : Interface) (i : Slot) : Interface :=
  let (rx, out, fired) := Bg96.fireRx (s.gSocRx i)
  let s := s.put i { s.slot i with rx := rx } .fireRx out
  if fired then (e.onRx i).run s else s

/-- The transmit part of a turn of the second loop of `g_eq_event`. -/
def fireTurnTx (e : TickEnv) (s : Interface) (i : Slot) : Interface :=
  let (tx, out, fired) := Bg96.fireTx (s.gSocTx i)
  let s := s.put i { s.slot i with tx := tx } .fireTx out
  if fired then (e.onTx i).run s else s

/-- A turn of the second loop of `g_eq_event`. -/
def fireTurn (e : TickEnv) (s : Interface) (i : Slot) : Interface :=
  fireTurnTx e (fireTurnRx e s i) i

/-- `BG96Interface::g_eq_event`, where `txrx_mutex.trylock()` gives `lock`. -/
def gEqEvent (lock : Bool) (e : TickEnv) (s : Interface) : Interface :=
  let s := { s with
    scheduledEvents := if s.scheduledEvents > 0 then s.scheduledEvents - 1 else s.scheduledEvents }
  if !lock then s.eqSchedule
  else
    let (s, done, _) := (List.finRange bg96SocketCount).foldl (pollTurn e) (s, eventComplete, false)
    let s := (List.finRange bg96SocketCount).foldl (fireTurn e) s
    if done ≠ eventComplete then s.eqSchedule else s

end Interface

/-! ## Runs -/

/-- A step of a run: a call of the application with what the call-backs that it makes do, or a
firing of a queued `g_eq_event`, with `txrx_mutex` free (`tick`) or not (`busy`). -/
inductive Label where
  | call (c : Call) (onConnect onData : Script)
  | tick (e : TickEnv)
  | busy (e : TickEnv)

/-- The interface after a step, and the value that a call returns. -/
def step (s : Interface) : Label → Interface × Int
  | .call c onConnect onData => exec onConnect.run onData.run s c
  | .tick e => ({ s with bg96Queue := s.bg96Queue - 1 }.gEqEvent true e, 0)
  | .busy e => ({ s with bg96Queue := s.bg96Queue - 1 }.gEqEvent false e, 0)

/-- A step that can happen: a call is on an open handle (`socket_close` also on a closed one), and
only a queued `g_eq_event` fires. -/
def Enabled (s : Interface) : Label → Prop
  | .call (.close _) _ _ => True
  | .call c _ _ => ∀ h, c.handle = some h → (s.gSock h).id ≠ -1
  | .tick _ | .busy _ => 0 < s.bg96Queue

/-- A run: each step satisfies `P` in the state before it. -/
inductive Run (P : Interface → Label → Prop) : Interface → List Label → Interface → Prop where
  | nil (s : Interface) : Run P s [] s
  | cons {s s' : Interface} {l : Label} {ls : List Label} :
    Enabled s l → P s l → Run P (step s l).1 ls s' → Run P s (l :: ls) s'

/-- The states that a run from the constructor reaches. -/
def Reachable (raw : Slot → SlotState) (s : Interface) : Prop :=
  ∃ ls, Run (fun _ _ => True) (.ctor raw) ls s

theorem Run.snoc {P : Interface → Label → Prop} {s s' : Interface} {ls : List Label} {l : Label}
    (h : Run P s ls s') (he : Enabled s' l) (hp : P s' l) : Run P s (ls ++ [l]) (step s' l).1 := by
  induction h with
  | nil s => exact .cons he hp (.nil _)
  | cons he' hp' _ ih => exact .cons he' hp' (ih he hp)

theorem Reachable.step {raw : Slot → SlotState} {s : Interface} (h : Reachable raw s) (l : Label)
    (he : Enabled s l) : Reachable raw (step s l).1 := by
  obtain ⟨ls, hr⟩ := h
  exact ⟨ls ++ [l], hr.snoc he trivial⟩

instance (s : Interface) (l : Label) : Decidable (Enabled s l) :=
  match l with
  | .call (.close _) _ _ => inferInstanceAs (Decidable True)
  | .call (.open _) _ _ => isTrue (fun _ h => nomatch h)
  | .call (.attach h ..) _ _ | .call (.listen h) _ _ | .call (.connect h ..) _ _
  | .call (.send h ..) _ _ | .call (.recv h ..) _ _ | .call (.sendto h ..) _ _
  | .call (.recvfrom h ..) _ _ | .call (.setsockopt h ..) _ _ | .call (.getsockopt h ..) _ _ =>
    decidable_of_iff ((s.gSock h).id ≠ -1)
      ⟨fun hn _ he => by cases he; exact hn, fun hn => hn h rfl⟩
  | .tick _ | .busy _ => inferInstanceAs (Decidable (0 < s.bg96Queue))

/-- The records of one socket in memory that is all zero. -/
def zeroSlot : SlotState where
  sock := {
    id := 0, addr := ⟨"", 0⟩, disTO := false, proto := .nsapiTcp, connected := false
    callback := none, data := 0, dptrLast := 0, dptrSize := 0 }
  tx := {
    mTxState := .txIdle, mTxSocketID := 0, mTxDptr := 0, mTxOrigSize := 0, mTxReqSize := 0
    mTxTotalSent := 0, mTxCallback := none, mTxCbData := 0 }
  rx := {
    mRxState := .readInit, mRxSocketID := 0, mRxDptr := 0, mRxReqSize := 0, mRxTotalCnt := 0
    mRxTimer := 0, mRxDisTO := false, mRxCallback := none, mRxCbData := 0, mRxReturnCnt := 0 }
  inSend := 0
  inRecv := 0

/-- The interface after the constructor on memory that is all zero, and the calls `ls`. -/
def afterSteps (ls : List Label) : Interface :=
  ls.foldl (fun s l => (step s l).1) (.ctor fun _ => zeroSlot)

theorem afterSteps_append (ls ls' : List Label) :
    afterSteps (ls ++ ls') = ls'.foldl (fun s l => (step s l).1) (afterSteps ls) :=
  List.foldl_append

/-- Each of the steps `ls` can happen, one after the other, and satisfies `P` before it. -/
def AllEnabled (P : Interface → Label → Prop) (s : Interface) : List Label → Prop
  | [] => True
  | l :: ls => Enabled s l ∧ P s l ∧ AllEnabled P (step s l).1 ls

instance AllEnabled.decidable {P : Interface → Label → Prop} [∀ s l, Decidable (P s l)] :
    ∀ (s : Interface) (ls : List Label), Decidable (AllEnabled P s ls)
  | _, [] => inferInstanceAs (Decidable True)
  | s, l :: ls =>
    @instDecidableAnd _ _ _ (@instDecidableAnd _ _ _ (AllEnabled.decidable (step s l).1 ls))

theorem AllEnabled.run {P : Interface → Label → Prop} {s : Interface} {ls : List Label}
    (h : AllEnabled P s ls) : Run P s ls (ls.foldl (fun s l => (step s l).1) s) := by
  induction ls generalizing s with
  | nil => exact .nil s
  | cons l ls ih => exact .cons h.1 h.2.1 (ih h.2.2)

theorem afterSteps_reachable {ls : List Label}
    (h : AllEnabled (fun _ _ => True) (.ctor fun _ => zeroSlot) ls) :
    Reachable (fun _ => zeroSlot) (afterSteps ls) := ⟨ls, h.run⟩

end Bg96
