import BG96Driver.Basic
import Mathlib.Data.List.Basic

/-!
# The per-socket records of `BG96Interface`, and the functions on them

`BG96Interface` keeps three records for each socket: `BG96SOCKET` (the handle), `TXEVENT` and
`RXEVENT` (the state machines of its transfers). This file has the records, and the parts of the
source's functions that read and write the records of one socket only:

* `txEvent`, `rxEvent`: `tx_event` and `rx_event`.
* `sendEnter`, `sendLeave`, `recvEnter`, `recvLeave`: `socket_send` and `socket_recv`, cut where
  they call the socket's call-back (`Next.callBack`).
* `connectEnter`, `listen`, `setsockopt`, `getsockopt`, ...: the other functions.
* `pollRx`, `pollTx`, `fireRx`, `fireTx`: one turn of each of the two loops of `g_eq_event`.

Each function also gives the list of what it shows (`Out`): the calls of `BG96` with their
results, the bytes stored in the caller's memory, the call-backs, and the values returned. The
results of the `BG96` calls are arguments. A pointer is a `Nat` (`0` is `NULL`).
-/

namespace Bg96

/-! ## Constants -/

/-- `BG96_SOCKET_COUNT`. -/
abbrev bg96SocketCount : Nat := 5

instance : NeZero bg96SocketCount := ⟨by decide⟩

/-- `BG96::BG96_BUFF_SIZE`. -/
def bg96BuffSize : Nat := 1500

/-- `BG96_LIBRARY_READ_TIMEOUTMS`. -/
def bg96LibraryReadTimeoutMs : Nat := 30000

/-- `EQ_FREQ`. -/
def eqFreq : Nat := 50

/-- `EQ_FREQ_SLOW`. -/
def eqFreqSlow : Nat := 2000

/-- `BG96_LIBRARY_READ_TIMEOUTMS/EQ_FREQ`: the polls before a read times out. -/
def readTimeoutPolls : Nat := bg96LibraryReadTimeoutMs / eqFreq

/-- `(BG96_LIBRARY_READ_TIMEOUTMS/EQ_FREQ)*(EQ_FREQ_SLOW/EQ_FREQ)`. -/
def slowPolls : Nat := bg96LibraryReadTimeoutMs / eqFreq * (eqFreqSlow / eqFreq)

theorem readTimeoutPolls_eq : readTimeoutPolls = 600 := rfl

theorem slowPolls_eq : slowPolls = 24000 := rfl

/-- `EVENT_COMPLETE` and `EVENT_GETMORE`, the results of `tx_event` and `rx_event`. -/
abbrev Event := Bool

abbrev eventComplete : Event := false

abbrev eventGetmore : Event := true

/-! ## Records -/

/-- The read states of `RXEVENT`. -/
inductive RxState where
  | readInit
  | readStart
  | readActive
  | readDocb
  | dataAvailable
  deriving DecidableEq, Repr

/-- The transmit states of `TXEVENT`. -/
inductive TxState where
  | txIdle
  | txStarting
  | txActive
  | txComplete
  | txDocb
  deriving DecidableEq, Repr

/-- `nsapi_protocol_t`. -/
inductive NsapiProtocol where
  | nsapiTcp
  | nsapiUdp
  deriving DecidableEq, Repr

/-- `SocketAddress`. -/
structure SocketAddress where
  ip : String
  port : Nat
  deriving DecidableEq, Repr

/-- `TXEVENT`. A call-back is the address of a function, `none` is `NULL`. -/
structure TxEvent where
  mTxState : TxState
  mTxSocketID : Int
  mTxDptr : Nat
  mTxOrigSize : Nat
  mTxReqSize : Nat
  mTxTotalSent : Nat
  mTxCallback : Option Nat
  mTxCbData : Nat
  deriving DecidableEq, Repr

/-- `RXEVENT`, without `m_rx_asked_size`, which nothing uses. -/
structure RxEvent where
  mRxState : RxState
  mRxSocketID : Int
  mRxDptr : Nat
  mRxReqSize : Nat
  mRxTotalCnt : Nat
  mRxTimer : Int
  mRxDisTO : Bool
  mRxCallback : Option Nat
  mRxCbData : Nat
  mRxReturnCnt : Nat
  deriving DecidableEq, Repr

/-- `BG96SOCKET`. -/
structure Bg96Socket where
  id : Int
  addr : SocketAddress
  disTO : Bool
  proto : NsapiProtocol
  connected : Bool
  callback : Option Nat
  data : Nat
  dptrLast : Nat
  dptrSize : Nat
  deriving DecidableEq, Repr

/-- What a call of `BG96::recv` returns, and the bytes that it stores. -/
structure RecvResult where
  cnt : Int
  data : List UInt8
  deriving DecidableEq, Repr

/-- The functions of the socket interface whose results a caller sees. -/
inductive Fn where
  | socketOpen
  | socketClose
  | socketListen
  | socketConnect
  | socketSend
  | socketRecv
  | socketRecvfrom
  | setsockopt
  | getsockopt
  deriving DecidableEq, Repr

/-- What the functions on one socket's records show. -/
inductive Out where
  /-- `BG96::open` for `id`, with its result. -/
  | modemOpen (id : Int) (proto : NsapiProtocol) (addr : SocketAddress) (ok : Bool)
  /-- `BG96::close` for `id`. -/
  | modemClose (id : Int)
  /-- `BG96::send` of `amount` bytes at `data`, with its result. -/
  | modemSend (id : Int) (data amount : Nat) (ok : Bool)
  /-- `BG96::recv` of at most `cnt` bytes to `data`, with its result. -/
  | modemRecv (id : Int) (data cnt : Nat) (ret : Int)
  /-- Bytes stored in the caller's memory. -/
  | store (data : Nat) (bytes : List UInt8)
  /-- A value stored in a caller's variable (`*optlen`). -/
  | optlen (size : Nat)
  /-- `*addr` of `socket_recvfrom`. -/
  | sender (addr : SocketAddress)
  /-- The call-back `f` is called with `data`. -/
  | callBack (f : Option Nat) (data : Nat)
  /-- A read of at most `req` bytes to `data` starts. -/
  | rxStart (data req : Nat)
  /-- A read completes with `cnt` bytes, by `rx_event`'s time-out if `timeout`. -/
  | rxDone (cnt : Nat) (timeout : Bool)
  /-- A transmission of `size` bytes completes. -/
  | txDone (size : Nat)
  /-- `case DATA_AVAILABLE` of `socket_recv` runs: it returns the completed read's count. -/
  | rxCollect (cnt : Nat)
  /-- `case TX_COMPLETE` of `socket_send` runs: it returns the completed transmission's size. -/
  | txCollect (size : Nat)
  /-- A function of the interface returns. -/
  | ret (f : Fn) (n : Int)
  deriving DecidableEq, Repr

/-- How a function of the interface goes on after it has changed the socket's records. -/
inductive Next where
  /-- It returns `n`. -/
  | ret (n : Int)
  /-- It calls `_eq_schedule` and returns `n`. -/
  | schedule (n : Int)
  /-- It calls the socket's call-back, then it returns as its `Leave` part says. -/
  | callBack
  deriving DecidableEq, Repr

/-! ## Transmission -/

/-- `BG96Interface::tx_event`, where `BG96::send` gives `done`. -/
def txEvent (ptr : TxEvent) (done : Bool) : TxEvent × List Out × Event :=
  let cmd := Out.modemSend ptr.mTxSocketID ptr.mTxDptr ptr.mTxReqSize done
  if done then
    let sent := u32Add ptr.mTxTotalSent ptr.mTxReqSize
    if sent < ptr.mTxOrigSize then
      let req := u32Sub ptr.mTxOrigSize sent
      ({ ptr with
          mTxTotalSent := sent
          mTxDptr := ptr.mTxDptr + ptr.mTxReqSize
          mTxReqSize := if req > bg96BuffSize then bg96BuffSize else req },
        [cmd], eventGetmore)
    else
      ({ ptr with
          mTxTotalSent := sent
          mTxState := if ptr.mTxCallback.isSome then .txDocb else .txComplete },
        [cmd, .txDone sent], eventComplete)
  else (ptr, [cmd], eventGetmore)

/-- What `tx_event` can do: send nothing (`idle`), send a chunk that is not the last (`more`), or
send the last one (`last`). -/
inductive TxCase (ptr : TxEvent) (done : Bool) : TxEvent → List Out → Event → Prop where
  | idle (hdone : done = false) : TxCase ptr done ptr
    [.modemSend ptr.mTxSocketID ptr.mTxDptr ptr.mTxReqSize done] eventGetmore
  | more (req : Nat) (hdone : done = true)
    (hlt : u32Add ptr.mTxTotalSent ptr.mTxReqSize < ptr.mTxOrigSize)
    (hreq : req = min (u32Sub ptr.mTxOrigSize (u32Add ptr.mTxTotalSent ptr.mTxReqSize))
      bg96BuffSize) :
    TxCase ptr done
      { ptr with
        mTxTotalSent := u32Add ptr.mTxTotalSent ptr.mTxReqSize
        mTxDptr := ptr.mTxDptr + ptr.mTxReqSize
        mTxReqSize := req }
      [.modemSend ptr.mTxSocketID ptr.mTxDptr ptr.mTxReqSize done] eventGetmore
  | last (hdone : done = true)
    (hle : ptr.mTxOrigSize ≤ u32Add ptr.mTxTotalSent ptr.mTxReqSize) :
    TxCase ptr done
      { ptr with
        mTxTotalSent := u32Add ptr.mTxTotalSent ptr.mTxReqSize
        mTxState := if ptr.mTxCallback.isSome then .txDocb else .txComplete }
      [.modemSend ptr.mTxSocketID ptr.mTxDptr ptr.mTxReqSize done,
        .txDone (u32Add ptr.mTxTotalSent ptr.mTxReqSize)] eventComplete

theorem ite_gt_eq_min (a b : Nat) : (if a > b then b else a) = min a b := by
  split <;> omega

theorem txEvent_cases {ptr ptr' : TxEvent} {done : Bool} {out : List Out} {event : Event}
    (h : txEvent ptr done = (ptr', out, event)) : TxCase ptr done ptr' out event := by
  unfold txEvent at h
  split at h
  · rename_i hdone
    dsimp only at h
    split at h
    · rename_i hlt
      cases h
      exact .more _ hdone hlt (ite_gt_eq_min _ _)
    · rename_i hlt
      cases h
      exact .last hdone (Nat.le_of_not_lt hlt)
  · rename_i hdone
    cases h
    exact .idle (by simpa using hdone)

/-- `case TX_COMPLETE` of `BG96Interface::socket_send`, which is also what it does after its
call-back. -/
def sendLeave (txsock : TxEvent) : TxEvent × List Out × Int :=
  ({ txsock with mTxState := .txIdle },
    [.txCollect txsock.mTxTotalSent, .ret .socketSend (toInt txsock.mTxTotalSent)],
    toInt txsock.mTxTotalSent)

/-- The fields that `case TX_IDLE` of `BG96Interface::socket_send` sets. -/
def sendStart (sock : Bg96Socket) (data size : Nat) : TxEvent where
  mTxSocketID := sock.id
  mTxState := .txStarting
  mTxDptr := data
  mTxOrigSize := size
  mTxReqSize := if size > bg96BuffSize then bg96BuffSize else size
  mTxTotalSent := 0
  mTxCallback := sock.callback
  mTxCbData := sock.data

/-- `BG96Interface::socket_send` up to its call-back, where `BG96::send` gives `done`. -/
def sendEnter (sock : Bg96Socket) (txsock : TxEvent) (data size : Nat) (done : Bool) :
    TxEvent × List Out × Next :=
  if size < 1 ∨ data = 0 then (txsock, [.ret .socketSend 0], .ret 0)
  else match txsock.mTxState with
    | .txIdle =>
      let (txsock, out, event) := txEvent (sendStart sock data size) done
      if event ≠ eventComplete then
        ({ txsock with mTxState := .txActive }, out ++ [.ret .socketSend nsapiErrorWouldBlock],
          .schedule nsapiErrorWouldBlock)
      else if txsock.mTxState = .txDocb then
        ({ txsock with mTxState := .txComplete },
          out ++ [.callBack txsock.mTxCallback txsock.mTxCbData], .callBack)
      else
        let (txsock, out', n) := sendLeave txsock
        (txsock, out ++ out', .ret n)
    | .txComplete =>
      let (txsock, out, n) := sendLeave txsock
      (txsock, out, .ret n)
    | .txActive | .txStarting =>
      (txsock, [.ret .socketSend nsapiErrorWouldBlock], .ret nsapiErrorWouldBlock)
    | .txDocb => (txsock, [.ret .socketSend nsapiErrorDeviceError], .ret nsapiErrorDeviceError)

/-- What `socket_send` can do up to its call-back: return without a change (`refuse`), return a
completed transmission (`collect`), or start one that goes on in `g_eq_event` (`block`), that
completes with a call-back (`callBack`) or that completes without one (`sync`). -/
inductive SocketSendCase (sock : Bg96Socket) (tx : TxEvent) (data size : Nat) (done : Bool) :
    TxEvent → List Out → Next → Prop where
  | refuse (n : Int) (hn : n ≤ 0)
    (hcase : (size < 1 ∨ data = 0) ∨ tx.mTxState ≠ .txIdle ∧ tx.mTxState ≠ .txComplete) :
    SocketSendCase sock tx data size done tx [.ret .socketSend n] (.ret n)
  | collect (hsize : 1 ≤ size) (hdata : data ≠ 0) (hstate : tx.mTxState = .txComplete) :
    SocketSendCase sock tx data size done (sendLeave tx).1 (sendLeave tx).2.1
      (.ret (sendLeave tx).2.2)
  | block (t : TxEvent) (o : List Out) (hsize : 1 ≤ size) (hdata : data ≠ 0)
    (hstate : tx.mTxState = .txIdle)
    (hevent : TxCase (sendStart sock data size) done t o eventGetmore) :
    SocketSendCase sock tx data size done { t with mTxState := .txActive }
      (o ++ [.ret .socketSend nsapiErrorWouldBlock]) (.schedule nsapiErrorWouldBlock)
  | callBack (t : TxEvent) (o : List Out) (hsize : 1 ≤ size) (hdata : data ≠ 0)
    (hstate : tx.mTxState = .txIdle)
    (hevent : TxCase (sendStart sock data size) done t o eventComplete) :
    SocketSendCase sock tx data size done { t with mTxState := .txComplete }
      (o ++ [.callBack t.mTxCallback t.mTxCbData]) .callBack
  | sync (t : TxEvent) (o : List Out) (hsize : 1 ≤ size) (hdata : data ≠ 0)
    (hstate : tx.mTxState = .txIdle)
    (hevent : TxCase (sendStart sock data size) done t o eventComplete) :
    SocketSendCase sock tx data size done (sendLeave t).1 (o ++ (sendLeave t).2.1)
      (.ret (sendLeave t).2.2)

/-- A call that changes something has valid arguments. -/
theorem SocketSendCase.args {sock : Bg96Socket} {tx tx' : TxEvent} {data size : Nat} {done : Bool}
    {out : List Out} {next : Next} (h : SocketSendCase sock tx data size done tx' out next) :
    tx' = tx ∧ next ≠ .callBack ∨ 1 ≤ size ∧ data ≠ 0 := by
  cases h with
  | refuse => exact .inl ⟨rfl, by rintro ⟨⟩⟩
  | collect hsize hdata | block _ _ hsize hdata | callBack _ _ hsize hdata
  | sync _ _ hsize hdata => exact .inr ⟨hsize, hdata⟩

theorem sendEnter_cases {sock : Bg96Socket} {tx tx' : TxEvent} {data size : Nat} {done : Bool}
    {out : List Out} {next : Next} (h : sendEnter sock tx data size done = (tx', out, next)) :
    SocketSendCase sock tx data size done tx' out next := by
  unfold sendEnter at h
  split at h
  · rename_i hargs
    cases h
    exact .refuse 0 (by omega) (.inl hargs)
  · rename_i hargs
    obtain ⟨hsize, hdata⟩ : 1 ≤ size ∧ data ≠ 0 := by omega
    split at h
    · rename_i hstate
      rcases he : txEvent (sendStart sock data size) done with ⟨t, o, event⟩
      have hc := txEvent_cases he
      simp only [he] at h
      cases event with
      | true => cases h; exact .block t o hsize hdata hstate hc
      | false =>
        simp only [eventComplete, ne_eq, not_true_eq_false, ↓reduceIte] at h
        split at h
        · cases h; exact .callBack t o hsize hdata hstate hc
        · cases h; exact .sync t o hsize hdata hstate hc
    · rename_i hstate
      cases h
      exact .collect hsize hdata hstate
    · rename_i hstate
      cases h
      exact .refuse _ (by decide) (.inr (by simp [hstate]))
    · rename_i hstate
      cases h
      exact .refuse _ (by decide) (.inr (by simp [hstate]))
    · rename_i hstate
      cases h
      exact .refuse _ (by decide) (.inr (by simp [hstate]))

/-! ## Reception -/

/-- `BG96Interface::rx_event`, where `BG96::recv` gives `res`. -/
def rxEvent (ptr : RxEvent) (res : RecvResult) : RxEvent × List Out × Event :=
  let cmd := [Out.modemRecv ptr.mRxSocketID ptr.mRxDptr ptr.mRxReqSize res.cnt,
    Out.store ptr.mRxDptr res.data]
  let completed : RxState := if ptr.mRxCallback.isSome then .readDocb else .dataAvailable
  if res.cnt = nsapiErrorDeviceError then
    ({ ptr with mRxTimer := 0 }, cmd, eventGetmore)
  else if res.cnt > 0 then
    let cnt := u32Add ptr.mRxReturnCnt res.cnt.toNat
    ({ ptr with mRxReturnCnt := cnt, mRxState := completed }, cmd ++ [.rxDone cnt false],
      eventComplete)
  else if ptr.mRxTimer + 1 > readTimeoutPolls ∧ !ptr.mRxDisTO then
    ({ ptr with mRxTimer := ptr.mRxTimer + 1, mRxReturnCnt := 0, mRxState := completed },
      cmd ++ [.rxDone 0 true], eventComplete)
  else ({ ptr with mRxTimer := ptr.mRxTimer + 1 }, cmd, eventGetmore)

/-- What `rx_event` can do: meet an error of the modem (`error`), get bytes (`data`), time out
(`timeout`), or get nothing (`idle`). -/
inductive RxCase (ptr : RxEvent) (res : RecvResult) : RxEvent → List Out → Event → Prop where
  | error (hcnt : res.cnt = nsapiErrorDeviceError) :
    RxCase ptr res { ptr with mRxTimer := 0 }
      [.modemRecv ptr.mRxSocketID ptr.mRxDptr ptr.mRxReqSize res.cnt,
        .store ptr.mRxDptr res.data] eventGetmore
  | data (hcnt : 0 < res.cnt) :
    RxCase ptr res
      { ptr with
        mRxReturnCnt := u32Add ptr.mRxReturnCnt res.cnt.toNat
        mRxState := if ptr.mRxCallback.isSome then .readDocb else .dataAvailable }
      [.modemRecv ptr.mRxSocketID ptr.mRxDptr ptr.mRxReqSize res.cnt,
        .store ptr.mRxDptr res.data,
        .rxDone (u32Add ptr.mRxReturnCnt res.cnt.toNat) false] eventComplete
  | timeout (hcnt : res.cnt ≤ 0) (herr : res.cnt ≠ nsapiErrorDeviceError)
    (htimer : ptr.mRxTimer + 1 > readTimeoutPolls) (hdis : ptr.mRxDisTO = false) :
    RxCase ptr res
      { ptr with
        mRxTimer := ptr.mRxTimer + 1
        mRxReturnCnt := 0
        mRxState := if ptr.mRxCallback.isSome then .readDocb else .dataAvailable }
      [.modemRecv ptr.mRxSocketID ptr.mRxDptr ptr.mRxReqSize res.cnt,
        .store ptr.mRxDptr res.data, .rxDone 0 true] eventComplete
  | idle (hcnt : res.cnt ≤ 0) (herr : res.cnt ≠ nsapiErrorDeviceError)
    (hwait : ptr.mRxTimer + 1 ≤ readTimeoutPolls ∨ ptr.mRxDisTO = true) :
    RxCase ptr res { ptr with mRxTimer := ptr.mRxTimer + 1 }
      [.modemRecv ptr.mRxSocketID ptr.mRxDptr ptr.mRxReqSize res.cnt,
        .store ptr.mRxDptr res.data] eventGetmore

theorem rxEvent_cases {ptr ptr' : RxEvent} {res : RecvResult} {out : List Out} {event : Event}
    (h : rxEvent ptr res = (ptr', out, event)) : RxCase ptr res ptr' out event := by
  unfold rxEvent at h
  dsimp only at h
  split at h
  · rename_i herr
    cases h
    exact .error herr
  · rename_i herr
    split at h
    · rename_i hcnt
      cases h
      exact .data hcnt
    · rename_i hcnt
      split at h
      · rename_i htimer
        cases h
        exact .timeout (by omega) herr htimer.1 (by simpa using htimer.2)
      · rename_i hwait
        cases h
        refine .idle (by omega) herr ?_
        by_cases hdis : ptr.mRxDisTO = true
        · exact .inr hdis
        · exact .inl (by simp [hdis] at hwait; omega)

/-- The state of a completed read. -/
theorem completed_state (c : Option Nat) :
    (if c.isSome then RxState.readDocb else .dataAvailable) = .dataAvailable ∨
      (if c.isSome then RxState.readDocb else .dataAvailable) = .readDocb := by
  split <;> simp

/-- `case DATA_AVAILABLE` of `BG96Interface::socket_recv`, which is also what it does after its
call-back. -/
def recvLeave (rxsock : RxEvent) : RxEvent × List Out × Int :=
  ({ rxsock with mRxState := .readStart },
    [.rxCollect rxsock.mRxReturnCnt, .ret .socketRecv (toInt rxsock.mRxReturnCnt)],
    toInt rxsock.mRxReturnCnt)

/-- The fields that `case READ_START` of `BG96Interface::socket_recv` sets. -/
def recvStart (sock : Bg96Socket) (data size : Nat) : RxEvent where
  mRxDisTO := sock.disTO
  mRxSocketID := sock.id
  mRxState := .readInit
  mRxDptr := data
  mRxReqSize := if size > bg96BuffSize then bg96BuffSize else size
  mRxTotalCnt := 0
  mRxTimer := 0
  mRxReturnCnt := 0
  mRxCallback := sock.callback
  mRxCbData := sock.data

/-- `BG96Interface::socket_recv` up to its call-back, where `BG96::recv` gives `res`. -/
def recvEnter (sock : Bg96Socket) (rxsock : RxEvent) (data size : Nat) (res : RecvResult) :
    RxEvent × List Out × Next :=
  if size < 1 ∨ data = 0 then (rxsock, [.ret .socketRecv 0], .ret 0)
  else match rxsock.mRxState with
    | .readStart =>
      let start := recvStart sock data size
      let (rxsock, out, event) := rxEvent start res
      let out := Out.rxStart start.mRxDptr start.mRxReqSize :: out
      if event ≠ eventComplete then
        ({ rxsock with mRxState := .readActive }, out ++ [.ret .socketRecv nsapiErrorWouldBlock],
          .schedule nsapiErrorWouldBlock)
      else if rxsock.mRxState = .readDocb then
        ({ rxsock with mRxState := .dataAvailable },
          out ++ [.callBack rxsock.mRxCallback rxsock.mRxCbData], .callBack)
      else
        let (rxsock, out', n) := recvLeave rxsock
        (rxsock, out ++ out', .ret n)
    | .dataAvailable =>
      let (rxsock, out, n) := recvLeave rxsock
      (rxsock, out, .ret n)
    | .readActive | .readInit =>
      (rxsock, [.ret .socketRecv nsapiErrorWouldBlock], .ret nsapiErrorWouldBlock)
    | .readDocb => (rxsock, [.ret .socketRecv nsapiErrorDeviceError], .ret nsapiErrorDeviceError)

/-- What `socket_recv` can do up to its call-back: the cases are those of `SocketSendCase`. -/
inductive SocketRecvCase (sock : Bg96Socket) (rx : RxEvent) (data size : Nat) (res : RecvResult) :
    RxEvent → List Out → Next → Prop where
  | refuse (n : Int) (hn : n ≤ 0)
    (hcase : (size < 1 ∨ data = 0) ∨ rx.mRxState ≠ .readStart ∧ rx.mRxState ≠ .dataAvailable) :
    SocketRecvCase sock rx data size res rx [.ret .socketRecv n] (.ret n)
  | collect (hsize : 1 ≤ size) (hdata : data ≠ 0) (hstate : rx.mRxState = .dataAvailable) :
    SocketRecvCase sock rx data size res (recvLeave rx).1 (recvLeave rx).2.1
      (.ret (recvLeave rx).2.2)
  | block (r : RxEvent) (o : List Out) (hsize : 1 ≤ size) (hdata : data ≠ 0)
    (hstate : rx.mRxState = .readStart)
    (hevent : RxCase (recvStart sock data size) res r o eventGetmore) :
    SocketRecvCase sock rx data size res { r with mRxState := .readActive }
      (.rxStart data (min size bg96BuffSize) :: o ++ [.ret .socketRecv nsapiErrorWouldBlock])
      (.schedule nsapiErrorWouldBlock)
  | callBack (r : RxEvent) (o : List Out) (hsize : 1 ≤ size) (hdata : data ≠ 0)
    (hstate : rx.mRxState = .readStart)
    (hevent : RxCase (recvStart sock data size) res r o eventComplete) :
    SocketRecvCase sock rx data size res { r with mRxState := .dataAvailable }
      (.rxStart data (min size bg96BuffSize) :: o ++ [.callBack r.mRxCallback r.mRxCbData])
      .callBack
  | sync (r : RxEvent) (o : List Out) (hsize : 1 ≤ size) (hdata : data ≠ 0)
    (hstate : rx.mRxState = .readStart)
    (hevent : RxCase (recvStart sock data size) res r o eventComplete) :
    SocketRecvCase sock rx data size res (recvLeave r).1
      (.rxStart data (min size bg96BuffSize) :: o ++ (recvLeave r).2.1) (.ret (recvLeave r).2.2)

/-- A call that changes something has valid arguments. -/
theorem SocketRecvCase.args {sock : Bg96Socket} {rx rx' : RxEvent} {data size : Nat}
    {res : RecvResult} {out : List Out} {next : Next}
    (h : SocketRecvCase sock rx data size res rx' out next) :
    rx' = rx ∧ next ≠ .callBack ∨ 1 ≤ size ∧ data ≠ 0 := by
  cases h with
  | refuse => exact .inl ⟨rfl, by rintro ⟨⟩⟩
  | collect hsize hdata | block _ _ hsize hdata | callBack _ _ hsize hdata
  | sync _ _ hsize hdata => exact .inr ⟨hsize, hdata⟩

theorem recvEnter_cases {sock : Bg96Socket} {rx rx' : RxEvent} {data size : Nat}
    {res : RecvResult} {out : List Out} {next : Next}
    (h : recvEnter sock rx data size res = (rx', out, next)) :
    SocketRecvCase sock rx data size res rx' out next := by
  unfold recvEnter at h
  split at h
  · rename_i hargs
    cases h
    exact .refuse 0 (by omega) (.inl hargs)
  · rename_i hargs
    obtain ⟨hsize, hdata⟩ : 1 ≤ size ∧ data ≠ 0 := by omega
    split at h
    · rename_i hstate
      rcases he : rxEvent (recvStart sock data size) res with ⟨r, o, event⟩
      have hc := rxEvent_cases he
      have hstart : Out.rxStart (recvStart sock data size).mRxDptr
          (recvStart sock data size).mRxReqSize = .rxStart data (min size bg96BuffSize) := by
        simp only [recvStart, ite_gt_eq_min]
      simp only [he, hstart] at h
      cases event with
      | true => cases h; exact .block r o hsize hdata hstate hc
      | false =>
        simp only [eventComplete, ne_eq, not_true_eq_false, ↓reduceIte] at h
        split at h
        · cases h; exact .callBack r o hsize hdata hstate hc
        · cases h; exact .sync r o hsize hdata hstate hc
    · rename_i hstate
      cases h
      exact .collect hsize hdata hstate
    · rename_i hstate
      cases h
      exact .refuse _ (by decide) (.inr (by simp [hstate]))
    · rename_i hstate
      cases h
      exact .refuse _ (by decide) (.inr (by simp [hstate]))
    · rename_i hstate
      cases h
      exact .refuse _ (by decide) (.inr (by simp [hstate]))

/-! ## Opening, closing and connecting -/

/-- What `BG96Interface::socket_open` sets in the free socket `i`. -/
def openSocket (i : Int) (proto : NsapiProtocol) (sock : Bg96Socket) (txsock : TxEvent)
    (rxsock : RxEvent) : Bg96Socket × TxEvent × RxEvent :=
  ({ sock with
      id := i
      disTO := false
      proto := proto
      connected := false
      callback := none
      data := 0 },
    { txsock with mTxState := .txIdle }, { rxsock with mRxState := .readStart })

/-- What `BG96Interface::socket_close` does to an open socket. The result of `BG96::close` is not
used. -/
def closeSocket (sock : Bg96Socket) (txsock : TxEvent) (rxsock : RxEvent) :
    Bg96Socket × TxEvent × RxEvent × List Out :=
  ({ sock with
      id := -1
      disTO := false
      proto := .nsapiTcp
      connected := false
      callback := none
      data := 0 },
    { txsock with mTxState := .txIdle }, { rxsock with mRxState := .readStart },
    (if sock.connected then [.modemClose sock.id] else []) ++ [.ret .socketClose nsapiErrorOk])

/-- `BG96Interface::socket_listen`. `socket_bind` is a call of it. -/
def listen (sock : Bg96Socket) : Bg96Socket × List Out × Next :=
  if !sock.connected then
    ({ sock with disTO := true }, [.ret .socketListen nsapiErrorOk], .schedule nsapiErrorOk)
  else (sock, [.ret .socketListen nsapiErrorNoConnection], .ret nsapiErrorNoConnection)

/-- The loop of `BG96Interface::socket_connect`, where the attempt `cnt` of `BG96::open` gives
`opened cnt`: the value of `cnt` after it. Three turns are enough for it (`cnt < 3`). -/
def connectLoop (sock : Bg96Socket) (addr : SocketAddress) (opened : Nat → Bool) :
    Nat → Nat → Bool → Nat × List Out
  | 0, cnt, _ => (cnt, [])
  | turns + 1, cnt, k =>
    if cnt < 3 ∧ k then
      let k := !opened cnt
      let (cnt', out) := connectLoop sock addr opened turns (cnt + 1) k
      (cnt', .modemOpen sock.id sock.proto addr (opened cnt) ::
        ((if k then [.modemClose sock.id] else []) ++ out))
    else (cnt, [])

/-- `BG96Interface::socket_connect` up to its call-back. -/
def connectEnter (sock : Bg96Socket) (addr : SocketAddress) (opened : Nat → Bool) :
    Bg96Socket × List Out × Next :=
  let (cnt, out) := connectLoop sock addr opened 3 0 true
  if cnt < 3 then
    let sock := { sock with addr := addr, connected := true }
    if sock.callback.isSome then (sock, out ++ [.callBack sock.callback sock.data], .callBack)
    else (sock, out ++ [.ret .socketConnect nsapiErrorOk], .ret nsapiErrorOk)
  else (sock, out ++ [.ret .socketConnect nsapiErrorDeviceError], .ret nsapiErrorDeviceError)

/-! ## Options -/

/-- The `level` of a socket option. -/
inductive OptLevel where
  | nsapiSocket
  | other
  deriving DecidableEq, Repr

/-- The `optname` of a socket option. -/
inductive OptName where
  | nsapiReuseaddr
  | nsapiKeepidle
  | nsapiKeepintvl
  | nsapiLinger
  | nsapiSndbuf
  | nsapiAddMembership
  | nsapiDropMembership
  | nsapiKeepalive
  | nsapiRcvbuf
  | other
  deriving DecidableEq, Repr

/-- `sizeof(void *)` on the target. -/
def sizeofPtr : Nat := 4

/-- `BG96Interface::setsockopt`. -/
def setsockopt (sock : Bg96Socket) (level : OptLevel) (optname : OptName) (optval optlen : Nat) :
    Bg96Socket × Int :=
  if optlen = 0 then (sock, nsapiErrorParameter)
  else if level = .nsapiSocket ∧ sock.proto = .nsapiTcp then
    match optname with
    | .nsapiRcvbuf =>
      if optlen = sizeofPtr then
        ({ sock with dptrLast := optval, dptrSize := optlen }, nsapiErrorOk)
      else (sock, nsapiErrorParameter)
    | _ => (sock, nsapiErrorUnsupported)
  else (sock, nsapiErrorUnsupported)

/-- `BG96Interface::getsockopt`, with the addresses `optval` and `optlen`. The source assigns
`dptr_last` to its own copy of `optval`, so the caller's value at `optval` does not change. -/
def getsockopt (sock : Bg96Socket) (level : OptLevel) (optname : OptName) (optval optlen : Nat) :
    List Out × Int :=
  if optval = 0 ∨ optlen = 0 then ([], nsapiErrorParameter)
  else if level = .nsapiSocket ∧ sock.proto = .nsapiTcp then
    match optname with
    | .nsapiRcvbuf => ([.optlen sock.dptrSize], nsapiErrorOk)
    | _ => ([], nsapiErrorUnsupported)
  else ([], nsapiErrorUnsupported)

/-! ## The loops of `g_eq_event` -/

/-- The read part of a turn of the first loop of `g_eq_event`. -/
def pollRx (rxsock : RxEvent) (res : RecvResult) (goSlow : Bool) :
    RxEvent × List Out × Event × Bool :=
  if rxsock.mRxState = .readActive ∨ rxsock.mRxDisTO then
    let (rxsock, out, done) := rxEvent rxsock res
    let goSlow := goSlow || decide (rxsock.mRxTimer > slowPolls)
    ({ rxsock with mRxTimer := if goSlow then slowPolls else rxsock.mRxTimer }, out, done, goSlow)
  else (rxsock, [], eventComplete, goSlow)

/-- The transmit part of a turn of the first loop of `g_eq_event`. -/
def pollTx (txsock : TxEvent) (done : Bool) (goSlow : Bool) : TxEvent × List Out × Event × Bool :=
  if txsock.mTxState = .txActive then
    let (txsock, out, event) := txEvent txsock done
    (txsock, out, event, false)
  else (txsock, [], eventComplete, goSlow)

/-- A turn polls the slot (`poll`) or passes it over (`pass`). -/
inductive PollRxCase (rx : RxEvent) (res : RecvResult) (goSlow : Bool) :
    RxEvent → List Out → Event → Bool → Prop where
  | poll (r : RxEvent) (o : List Out) (event : Event) (goSlow' : Bool)
    (hpoll : rx.mRxState = .readActive ∨ rx.mRxDisTO = true) (hevent : RxCase rx res r o event)
    (hslow : goSlow' = (goSlow || decide (r.mRxTimer > slowPolls))) :
    PollRxCase rx res goSlow
      { r with mRxTimer := if goSlow' then slowPolls else r.mRxTimer } o event goSlow'
  | pass (hstate : rx.mRxState ≠ .readActive) (hdis : rx.mRxDisTO = false) :
    PollRxCase rx res goSlow rx [] eventComplete goSlow

theorem pollRx_cases {rx rx' : RxEvent} {res : RecvResult} {goSlow goSlow' : Bool}
    {out : List Out} {event : Event} (h : pollRx rx res goSlow = (rx', out, event, goSlow')) :
    PollRxCase rx res goSlow rx' out event goSlow' := by
  unfold pollRx at h
  split at h
  · rename_i hpoll
    rcases he : rxEvent rx res with ⟨r, o, ev⟩
    simp only [he] at h
    cases h
    exact .poll _ _ _ _ hpoll (rxEvent_cases he) rfl
  · rename_i hn
    rw [not_or] at hn
    cases h
    exact .pass hn.1 (by simpa using hn.2)

/-- A turn sends a chunk (`poll`) or passes the slot over (`pass`). -/
inductive PollTxCase (tx : TxEvent) (done goSlow : Bool) :
    TxEvent → List Out → Event → Bool → Prop where
  | poll (t : TxEvent) (o : List Out) (event : Event) (hactive : tx.mTxState = .txActive)
    (hevent : TxCase tx done t o event) : PollTxCase tx done goSlow t o event false
  | pass (hactive : tx.mTxState ≠ .txActive) : PollTxCase tx done goSlow tx [] eventComplete goSlow

theorem pollTx_cases {tx tx' : TxEvent} {done goSlow goSlow' : Bool} {out : List Out}
    {event : Event} (h : pollTx tx done goSlow = (tx', out, event, goSlow')) :
    PollTxCase tx done goSlow tx' out event goSlow' := by
  unfold pollTx at h
  split at h
  · rename_i hactive
    rcases he : txEvent tx done with ⟨t, o, ev⟩
    simp only [he] at h
    cases h
    exact .poll _ _ _ hactive (txEvent_cases he)
  · rename_i hn
    cases h
    exact .pass hn

/-- The read part of a turn of the second loop of `g_eq_event`, up to its call-back, which it
makes if the last component is true. -/
def fireRx (rxsock : RxEvent) : RxEvent × List Out × Bool :=
  if rxsock.mRxState = .readDocb then
    ({ rxsock with mRxState := .dataAvailable },
      [.callBack rxsock.mRxCallback rxsock.mRxCbData], true)
  else (rxsock, [], false)

/-- The transmit part of a turn of the second loop of `g_eq_event`, up to its call-back. -/
def fireTx (txsock : TxEvent) : TxEvent × List Out × Bool :=
  if txsock.mTxState = .txDocb then
    ({ txsock with mTxState := .txComplete },
      [.callBack txsock.mTxCallback txsock.mTxCbData], true)
  else (txsock, [], false)

end Bg96
